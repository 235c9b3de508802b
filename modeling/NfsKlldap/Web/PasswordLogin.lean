import NfsKlldap.Lib.Runs
import NfsKlldap.Web.Router

/-! # Logging in with the first password (`web/auth.rs`, `auth.rs`)

The form for the first password trims what was typed, and the form for the login does not. In between, the
password is a line of hexadecimal digits, which is read back as it was written.

* **`validateSimplePassword_passwordLine`** — which text a stored password opens;
* `UiStep` is a request or a restart, and `KeepsPassword` a run without a change of the password;
* **`typedPassword_opens_iff`** — a text without blanks around it opens the account it was set for, and
  no other text does. -/

namespace NfsKlldap

open Text Runs

/-! ## The sidecar -/

/-- A digit below sixteen is read back. -/
theorem fromHexDigit_digitChar {n : Nat} (h : n < 16) : fromHexDigit (Nat.digitChar n) = some n := by
  have hall : ∀ i : Fin 16, fromHexDigit (Nat.digitChar i) = some i.val := by decide
  exact hall ⟨n, h⟩

/-- What was encoded is decoded. -/
theorem hexDecode_hexEncode (bytes : List UInt8) : hexDecode (hexEncode bytes) = some bytes := by
  induction bytes with
  | nil => rfl
  | cons b bytes ih =>
    have hb := b.toNat_lt
    have hcons : hexEncode (b :: bytes) =
        Nat.digitChar (b.toNat / 16) :: Nat.digitChar (b.toNat % 16) :: hexEncode bytes := rfl
    rw [hcons, hexDecode, fromHexDigit_digitChar (by omega), fromHexDigit_digitChar (by omega), ih]
    simp only [Option.bind_eq_bind, Option.bind_some]
    rw [Nat.div_add_mod, UInt8.ofNat_toNat]
    rfl

/-- A hexadecimal digit is neither white space nor a separator. -/
theorem hexEncode_plain {bytes : List UInt8} {c : Char} (h : c ∈ hexEncode bytes) :
    isWhitespace c = false ∧ c ≠ ':' := by
  have hall : ∀ i : Fin 16, isWhitespace (Nat.digitChar i) = false ∧ Nat.digitChar i ≠ ':' := by decide
  obtain ⟨b, -, hc⟩ := List.mem_flatMap.mp h
  have hb := b.toNat_lt
  simp only [List.mem_cons, List.not_mem_nil, or_false] at hc
  rcases hc with rfl | rfl
  · exact hall ⟨b.toNat / 16, by omega⟩
  · exact hall ⟨b.toNat % 16, by omega⟩

section Hash

variable {sha256 : List UInt8 → List UInt8}

/-- The line is read without its line feed. -/
theorem trim_passwordLine (salt : List UInt8) (pw : Str) : trim (passwordLine sha256 salt pw) =
    hexEncode salt ++ ':' :: hexEncode (hashPassword sha256 salt (utf8 pw)) := by
  have hplain : ∀ c ∈ hexEncode salt ++ ':' :: hexEncode (hashPassword sha256 salt (utf8 pw)),
      isWhitespace c = false := by
    intro c hc
    rcases List.mem_append.mp hc with hc | hc
    · exact (hexEncode_plain hc).1
    · rcases List.mem_cons.mp hc with rfl | hc
      · decide
      · exact (hexEncode_plain hc).1
  rw [passwordLine, trim_append_blank (by decide)]
  exact trim_eq_self (fun c hc => hplain c (List.mem_of_mem_head? hc))
    fun c hc => hplain c (List.mem_of_mem_getLast? hc)

/-- **A stored password opens** for the texts with its hash. -/
theorem validateSimplePassword_passwordLine (salt : List UInt8) (pw typed : Str) :
    validateSimplePassword sha256 (.text (passwordLine sha256 salt pw)) typed =
      if hashPassword sha256 salt (utf8 typed) = hashPassword sha256 salt (utf8 pw) then .ok ()
      else .error "Invalid password for 'localhost'".toList := by
  have hsplit : splitOnce ':' (trim (passwordLine sha256 salt pw)) =
      some (hexEncode salt, hexEncode (hashPassword sha256 salt (utf8 pw))) := by
    rw [trim_passwordLine]
    exact splitOnce_append _ fun hmem => (hexEncode_plain hmem).2 rfl
  rw [validateSimplePassword, hsplit]
  dsimp only
  rw [hexDecode_hexEncode, hexDecode_hexEncode]

/-- The hash of a password tells passwords apart, under any salt. -/
def HashInjective (sha256 : List UInt8 → List UInt8) : Prop :=
  ∀ salt, Function.Injective (hashPassword sha256 salt)

/-- With an injective hash, the password opens for itself. -/
theorem validateSimplePassword_eq_ok_iff (hinj : HashInjective sha256) {salt : List UInt8}
    {pw typed : Str} :
    validateSimplePassword sha256 (.text (passwordLine sha256 salt pw)) typed = .ok () ↔ typed = pw := by
  rw [validateSimplePassword_passwordLine]
  split
  · next heq => exact iff_of_true rfl (utf8_injective (hinj salt heq))
  · next hne => exact iff_of_false (fun h => nomatch h) fun heq => hne (heq ▸ rfl)

end Hash

/-! ## Runs -/

/-- What happens to the WebUI. -/
inductive UiStep
  | request (r : Request) (a : Answers)
  /-- The process ends and starts anew. The files may have been edited by then, but for the sidecar of
  the password; the sessions are those of their own sidecar. -/
  | restart (conf : ConfFile) (setupMarker : Bool) (sessions : Sessions)

variable (ui : WebUi) (body : ProtectedBody)

/-- The state after a step. -/
def UiStep.next (s : WebState) : UiStep → WebState
  | request r a => (serve ui r a s body).1
  | restart conf setupMarker sessions => ⟨conf, s.passwordFile, sessions, setupMarker, {}, .initial⟩

/-- The step is no change of the password by a user who is logged in. -/
def UiStep.KeepsPassword (s : WebState) : UiStep → Prop
  | request r a => ∀ h user s', currentUser ui r a s = (some user, s') →
      route r.method r.path = .ok (.guarded h) → (body h user r a s').1.passwordFile = s.passwordFile
  | restart _ _ _ => True

variable {ui body}

/-- Opening a session leaves the password. -/
theorem passwordFile_startSession (r : Request) (a : Answers) (s : WebState) (user : Str) :
    (startSession ui r a s user).passwordFile = s.passwordFile := rfl

/-- Looking up the user leaves the password. -/
theorem passwordFile_currentUser (r : Request) (a : Answers) (s : WebState) :
    (currentUser ui r a s).2.passwordFile = s.passwordFile := rfl

/-- The login page leaves the password. -/
theorem passwordFile_loginPage (r : Request) (a : Answers) (s : WebState) :
    (loginPage ui r a s).1.passwordFile = s.passwordFile := by
  unfold loginPage
  split
  · rfl
  · split
    · next heq => rw [← passwordFile_currentUser r a s, heq]
    · next heq => rw [← passwordFile_currentUser r a s, heq]

/-- A login leaves the password. -/
theorem passwordFile_login (r : Request) (a : Answers) (s : WebState) (username password : Str) :
    (login ui r a s username password).1.passwordFile = s.passwordFile := by
  unfold login
  split
  · rfl
  · rfl

/-- Step 2 of the wizard leaves the password. -/
theorem passwordFile_setupStep2Continue (a : Answers) (s : WebState) (uri : Str) :
    (setupStep2Continue ui a s uri).1.passwordFile = s.passwordFile := by
  unfold setupStep2Continue
  split
  · rfl
  · split
    · rfl
    · split
      · rfl
      · rfl

/-- Step 3 of the wizard leaves the password. -/
theorem passwordFile_setupStep3Continue (a : Answers) (s : WebState) (dn pw : Str) :
    (setupStep3Continue ui a s dn pw).1.passwordFile = s.passwordFile := by
  unfold setupStep3Continue
  split
  · rfl
  · split
    · rfl
    · split
      · rfl
      · split
        · rfl
        · rfl

/-- Once a password is set, only the handlers behind a login can change it. -/
theorem passwordFile_handle {r : Request} {a : Answers} {s : WebState}
    (hpw : hasSimplePassword s = true) {handler : Handler}
    (hroute : route r.method r.path = .ok handler)
    (hkeeps : (UiStep.request r a).KeepsPassword ui body s) :
    (handle ui r a s body handler).1.passwordFile = s.passwordFile := by
  cases handler with
  -- only the login, the first password and what lies behind a login come near the file
  | loginPage => exact passwordFile_loginPage r a s
  | login =>
    simp only [handle]
    split
    · exact passwordFile_login r a s _ _
    · rfl
  | setupPassword =>
    simp only [handle]
    split
    · rw [setupPassword_of_hasSimplePassword hpw]
    · rfl
  | setupStep2Test =>
    simp only [handle]
    split
    · exact (untouched_setupStep2Test _ _ _).passwordFile
    · rfl
  | setupStep2Continue =>
    simp only [handle]
    split
    · exact passwordFile_setupStep2Continue _ _ _
    · rfl
  | setupStep3Test =>
    simp only [handle]
    split
    · exact (untouched_setupStep3Test _ _ _ _ _).passwordFile
    · rfl
  | setupStep3Continue =>
    simp only [handle]
    split
    · exact passwordFile_setupStep3Continue _ _ _ _
    · rfl
  -- behind a login it is the request that keeps it
  | guarded h =>
    simp only [handle, guarded]
    cases huser : currentUser ui r a s with
    | mk user s' =>
      cases user with
      | some user => exact hkeeps h user s' huser hroute
      | none => rw [← passwordFile_currentUser r a s, huser]
  | _ => rfl

/-- **A step keeps the password.** -/
theorem passwordFile_next {s : WebState} (hpw : hasSimplePassword s = true) {step : UiStep}
    (hkeeps : step.KeepsPassword ui body s) :
    (step.next ui body s).passwordFile = s.passwordFile := by
  cases step with
  | restart conf setupMarker sessions => rfl
  | request r a =>
    simp only [UiStep.next, serve]
    split
    · rfl
    · cases hroute : route r.method r.path with
      | error status => rfl
      | ok handler => exact passwordFile_handle hpw hroute hkeeps

/-- **A run keeps the password.** -/
theorem passwordFile_run {s : WebState} (hpw : hasSimplePassword s = true) {steps : List UiStep}
    (hkeeps : EveryStep (UiStep.next ui body) (UiStep.KeepsPassword ui body) s steps) :
    (steps.foldl (UiStep.next ui body) s).passwordFile = s.passwordFile := by
  induction steps generalizing s with
  | nil => rfl
  | cons step steps ih =>
    have hstep := passwordFile_next hpw hkeeps.1
    rw [List.foldl_cons, ih (by rwa [hasSimplePassword, hstep]) hkeeps.2, hstep]

/-! ## Logging in -/

/-- The login of `localhost` is accepted. -/
def LogsIn (ui : WebUi) (r : Request) (a : Answers) (s : WebState) (typed : Str) : Prop :=
  (login ui r a s "localhost".toList typed).2 = .redirect "/".toList

/-- **The password opens the account**: whatever happens but a change of the password, the text opens
the account afterwards, and no other text does. -/
structure OpensOnly (ui : WebUi) (body : ProtectedBody) (s : WebState) (typed : Str) : Prop where
  opens : ∀ steps, EveryStep (UiStep.next ui body) (UiStep.KeepsPassword ui body) s steps →
    ∀ r a, LogsIn ui r a (steps.foldl (UiStep.next ui body) s) typed
  others : ∀ steps, EveryStep (UiStep.next ui body) (UiStep.KeepsPassword ui body) s steps →
    ∀ other, other ≠ typed → ∀ r a, ¬ LogsIn ui r a (steps.foldl (UiStep.next ui body) s) other

/-- The login is the check against the sidecar. -/
theorem logsIn_iff {r : Request} {a : Answers} {s : WebState} {typed : Str} :
    LogsIn ui r a s typed ↔ validateSimplePassword ui.sha256 s.passwordFile typed = .ok () := by
  have hname : trim "localhost".toList = "localhost".toList := by decide
  simp only [LogsIn, login, authenticate, hname, if_true]
  cases validateSimplePassword ui.sha256 s.passwordFile typed with
  | ok u => exact iff_of_true rfl rfl
  | error e => exact iff_of_false (fun h => nomatch h) fun h => nomatch h

/-- The form was accepted: what is stored is the trimmed text. -/
theorem passwordFile_of_accepted {r : Request} {a : Answers} {s s' : WebState} {typed : Str}
    (h : setupPassword ui r a s typed = (s', .redirect "/?first_run=1".toList)) :
    s'.passwordFile = .text (passwordLine ui.sha256 a.salt (trim typed)) := by
  unfold setupPassword at h
  split at h
  · -- the pages of the wizard are other ones
    have htarget := (Prod.mk.inj h).2
    unfold setupRedirectForStep at htarget
    split at htarget
    · exact absurd htarget (by decide)
    · split at htarget
      all_goals exact absurd htarget (by decide)
  · split at h
    · exact nomatch h
    · dsimp only at h
      split at h
      · exact nomatch h
      · cases hset : setSimplePassword ui.sha256 a.salt a.passwordFailure (trim typed) with
        | error e => rw [hset] at h; exact nomatch h
        | ok file =>
          rw [hset] at h
          obtain ⟨rfl, -⟩ := Prod.mk.inj h
          rw [passwordFile_startSession]
          unfold setSimplePassword at hset
          split at hset
          · cases hset
          · split at hset
            · cases hset
            · cases hfail : a.passwordFailure with
              | some e => rw [hfail] at hset; cases hset
              | none =>
                rw [hfail] at hset
                exact (Except.ok.inj hset).symm

/-- **The text that was typed** for the first password opens the account, and no other does, when it has
no blanks around it. -/
theorem typedPassword_opens_iff (hinj : HashInjective ui.sha256) {r : Request} {a : Answers}
    {s s' : WebState} {typed : Str}
    (haccept : setupPassword ui r a s typed = (s', .redirect "/?first_run=1".toList)) :
    OpensOnly ui body s' typed ↔ trim typed = typed := by
  have hfile := passwordFile_of_accepted haccept
  have hpw : hasSimplePassword s' = true := by simp [hasSimplePassword, hfile]
  have hlogs : ∀ steps, EveryStep (UiStep.next ui body) (UiStep.KeepsPassword ui body) s' steps →
      ∀ text r a, LogsIn ui r a (steps.foldl (UiStep.next ui body) s') text ↔ text = trim typed := by
    intro steps hsteps text r a
    rw [logsIn_iff, passwordFile_run hpw hsteps, hfile, validateSimplePassword_eq_ok_iff hinj]
  constructor
  · exact fun h => ((hlogs [] trivial typed r a).mp (h.opens [] trivial r a)).symm
  · intro htrim
    refine ⟨fun steps hsteps r a => (hlogs steps hsteps typed r a).mpr htrim.symm, ?_⟩
    intro steps hsteps other hother r a h
    exact hother (((hlogs steps hsteps other r a).mp h).trans htrim)

/-! ## A blank in front of the password -/

section Example

/-- A hash that keeps everything. -/
theorem hashInjective_movedUriUi : HashInjective movedUriUi.sha256 := by
  intro salt pw pw' h
  have hid : movedUriUi.sha256 = id := rfl
  rw [hid, hashPassword, hashPassword, Function.iterate_id] at h
  exact List.append_cancel_left h

/-- Setup is complete but for the password. -/
def noPasswordState : WebState := { completeState with passwordFile := .missing }

/-- A form with this password. -/
noncomputable def firstPassword (typed : String) : WebState × Response :=
  setupPassword movedUriUi { method := .post, path := [] } reachableAnswers noPasswordState typed.toList

/-- A password of eight bytes is accepted. -/
theorem firstPassword_accepted {typed : String}
    (hlength : ¬ (utf8 (trim typed.toList)).length < 8) :
    firstPassword typed = ((firstPassword typed).1, .redirect "/?first_run=1".toList) := by
  have hwizard : setupWizardRequired movedUriUi reachableAnswers noPasswordState = false :=
    Bool.and_false _
  have hnone : hasSimplePassword noPasswordState = false := by decide
  have hne : trim typed.toList ≠ [] := fun heq => hlength (by rw [heq]; decide +kernel)
  have hset : setSimplePassword movedUriUi.sha256 reachableAnswers.salt none (trim typed.toList) =
      .ok (.text (passwordLine movedUriUi.sha256 reachableAnswers.salt (trim typed.toList))) := by
    have hblank : ¬ isBlank (trim typed.toList) = true := by
      rwa [isBlank, trim_trim, List.isEmpty_iff]
    rw [setSimplePassword, if_neg hblank, if_neg hlength]
  have hfail : reachableAnswers.passwordFailure = none := rfl
  simp only [firstPassword, setupPassword, hwizard, hnone, hfail, hset, if_neg hne, Bool.false_eq_true,
    if_false]

/-- A password without blanks opens the account. -/
theorem typedPassword_opens_secret :
    OpensOnly movedUriUi idleBody (firstPassword "secret12").1 "secret12".toList :=
  (typedPassword_opens_iff hashInjective_movedUriUi (firstPassword_accepted (by decide +kernel))).mpr
    (by decide +kernel)

/-- **The owner is locked out** by a blank that the browser keeps: the text that was accepted does not open
the account. -/
theorem not_typedPassword_opens_blank :
    firstPassword " secret12" = ((firstPassword " secret12").1, .redirect "/?first_run=1".toList) ∧
      ¬ OpensOnly movedUriUi idleBody (firstPassword " secret12").1 " secret12".toList := by
  have haccept : firstPassword " secret12" = _ := firstPassword_accepted (by decide +kernel)
  refine ⟨haccept, fun h => ?_⟩
  exact absurd ((typedPassword_opens_iff hashInjective_movedUriUi haccept).mp h) (by decide +kernel)

end Example

end NfsKlldap
