import NfsKlldap.Lib.Runs
import NfsKlldap.Web.Sessions

/-! # Concurrent first passwords (`web/auth.rs`, `auth.rs`)

A request for the first password looks for the sidecar, hashes, and then writes a temporary file and
renames it over the sidecar. The temporary file has one name, and no lock is held: the requests take
their steps in any order. Files are told apart by their inodes, which an open file keeps through a
rename.

* **`PasswordDir.next`** — a step of a request;
* **`PasswordDir.ClaimedOnce`** — one request has got a session, and its password is stored;
* **`PasswordDir.StepOk`** — a step that does not interfere with another request. -/

namespace NfsKlldap

open Text Runs

variable {ι : Type*}

/-- A form with a first password, and the salt that is drawn for it. -/
structure PasswordRequest where
  password : Str
  salt : List UInt8

/-- Where a request stands. -/
inductive PasswordPhase where
  /-- It was not made yet. -/
  | absent
  | arrived (request : PasswordRequest)
  /-- There was no sidecar, and the password is good. -/
  | cleared (request : PasswordRequest)
  /-- The temporary file is open. -/
  | opened (request : PasswordRequest) (inode : Nat)
  | written (request : PasswordRequest)
  /-- The rename failed, and the temporary file is still to be removed. -/
  | stuck
  | refused
  /-- It was answered with a session. -/
  | session (request : PasswordRequest)

/-- The sidecar and the temporary file by their inodes, what inodes hold, and the requests. -/
structure PasswordDir (ι : Type*) where
  live : Option Nat
  temp : Option Nat
  content : Nat → Str
  /-- The inodes that were used. -/
  inodes : Nat
  phase : ι → PasswordPhase

/-- A step of a request. Calls to the file system may fail, a write after some of its bytes. -/
inductive PasswordStep (ι : Type*) where
  | arrive (i : ι) (request : PasswordRequest)
  | check (i : ι)
  | openTemp (i : ι) (ok : Bool)
  | write (i : ι) (failedAfter : Option Nat)
  | rename (i : ι) (ok : Bool)
  | removeTemp (i : ι)

namespace PasswordDir

/-- No sidecar and no request, and perhaps a temporary file that was left behind. -/
def initial (stale : Option Str) : PasswordDir ι where
  live := none
  temp := stale.map fun _ => 0
  content := fun _ => stale.getD []
  inodes := 1
  phase := fun _ => .absent

/-- Write at the start of a file that is not truncated. -/
def overwrite (bytes old : Str) : Str := bytes ++ old.drop bytes.length

section Steps

variable (sha256 : List UInt8 → List UInt8)

/-- The line that a request writes. -/
def line (request : PasswordRequest) : Str :=
  passwordLine sha256 request.salt (trim request.password)

/-- What is written of the line. -/
def writtenBytes (request : PasswordRequest) (failedAfter : Option Nat) : Str :=
  match failedAfter with
  | none => line sha256 request
  | some n => (line sha256 request).take n

/-- The checks of a request that found no sidecar. -/
def checked (request : PasswordRequest) : PasswordPhase :=
  if trim request.password = [] then .refused
  else
    match setSimplePassword sha256 request.salt none (trim request.password) with
    | .ok _ => .cleared request
    | .error _ => .refused

/-- The sidecar holds this password, under some salt. -/
def Stores (s : PasswordDir ι) (password : Str) : Prop :=
  ∃ inode salt, s.live = some inode ∧ s.content inode = passwordLine sha256 salt password

/-- **The password is claimed once**: at most one request has a session, and its password is the
stored one. -/
structure ClaimedOnce (s : PasswordDir ι) : Prop where
  one : ∀ i j request request', s.phase i = .session request → s.phase j = .session request' → i = j
  stored : ∀ i request, s.phase i = .session request → s.Stores sha256 (trim request.password)

/-- **The bookkeeping of the two files.** A sidecar is somebody's, and the temporary file is another
file. -/
structure Sound (s : PasswordDir ι) : Prop where
  owned : ∀ inode, s.live = some inode → ∃ i request, s.phase i = .session request
  apart : ∀ inode, s.temp = some inode → s.live ≠ some inode
  liveUsed : ∀ inode, s.live = some inode → inode < s.inodes
  tempUsed : ∀ inode, s.temp = some inode → inode < s.inodes

/-- Before the first request the files are in order. -/
theorem sound_initial (stale : Option Str) : (initial stale : PasswordDir ι).Sound where
  owned _ h := nomatch h
  apart _ _ h := nomatch h
  liveUsed _ h := nomatch h
  tempUsed inode h := by
    obtain ⟨-, -, rfl⟩ := Option.map_eq_some_iff.mp h
    exact Nat.one_pos

/-- Before the first request nobody has claimed the password. -/
theorem claimedOnce_initial (stale : Option Str) :
    (initial stale : PasswordDir ι).ClaimedOnce sha256 where
  one _ _ _ _ h := nomatch h
  stored _ _ h := nomatch h

/-- A step that leaves the sidecar's name and the sessions alone, and no old file in the place of the
temporary one. -/
structure Moves (s s' : PasswordDir ι) : Prop where
  live : s'.live = s.live
  temp : ∀ inode, s'.temp = some inode →
    s.temp = some inode ∨ (inode = s.inodes ∧ s.inodes < s'.inodes)
  inodes : s.inodes ≤ s'.inodes
  sessions : ∀ j request, s'.phase j = .session request ↔ s.phase j = .session request

variable {s s' : PasswordDir ι}

/-- Nothing need move. -/
theorem Moves.refl (s : PasswordDir ι) : Moves s s :=
  ⟨rfl, fun _ h => .inl h, le_rfl, fun _ _ => Iff.rfl⟩

/-- A move keeps the files in order. -/
theorem Moves.sound (h : s.Sound) (hm : Moves s s') : s'.Sound where
  owned inode hlive := by
    obtain ⟨i, request, hi⟩ := h.owned inode (hm.live ▸ hlive)
    exact ⟨i, request, (hm.sessions i request).mpr hi⟩
  apart inode htemp hlive := by
    rw [hm.live] at hlive
    rcases hm.temp inode htemp with htemp | ⟨rfl, -⟩
    · exact h.apart inode htemp hlive
    · exact absurd (h.liveUsed _ hlive) (lt_irrefl _)
  liveUsed inode hlive := (h.liveUsed inode (hm.live ▸ hlive)).trans_le hm.inodes
  tempUsed inode htemp := by
    rcases hm.temp inode htemp with htemp | ⟨rfl, hlt⟩
    · exact (h.tempUsed inode htemp).trans_le hm.inodes
    · exact hlt

/-- A check of a form opens no session. -/
theorem checked_ne_session (request request' : PasswordRequest) :
    checked sha256 request ≠ .session request' := by
  rw [checked]
  split
  · simp
  · split <;> simp

variable [DecidableEq ι]

/-- A request moves on. -/
def setPhase (s : PasswordDir ι) (i : ι) (phase : PasswordPhase) : PasswordDir ι :=
  { s with phase := Function.update s.phase i phase }

/-- **A step**; one that the request does not stand at changes nothing. -/
def next (s : PasswordDir ι) : PasswordStep ι → PasswordDir ι
  | .arrive i request =>
    match s.phase i with
    | .absent => s.setPhase i (.arrived request)
    | _ => s
  | .check i =>
    match s.phase i with
    | .arrived request =>
      s.setPhase i (if s.live.isSome then .refused else checked sha256 request)
    | _ => s
  | .openTemp i ok =>
    match s.phase i with
    | .cleared request =>
      if ok then
        -- an existing file is truncated
        let inode := s.temp.getD s.inodes
        { s with
          temp := some inode
          content := Function.update s.content inode []
          inodes := if s.temp.isSome then s.inodes else s.inodes + 1
          phase := Function.update s.phase i (.opened request inode) }
      else s.setPhase i .refused
    | _ => s
  | .write i failedAfter =>
    match s.phase i with
    | .opened request inode =>
      { s with
        content := Function.update s.content inode
          (overwrite (writtenBytes sha256 request failedAfter) (s.content inode))
        phase := Function.update s.phase i
          (if failedAfter.isNone then .written request else .refused) }
    | _ => s
  | .rename i ok =>
    match s.phase i with
    | .written request =>
      match ok, s.temp with
      | true, some inode =>
        { s with
          live := some inode
          temp := none
          phase := Function.update s.phase i (.session request) }
      | _, _ => s.setPhase i .stuck
    | _ => s
  | .removeTemp i =>
    match s.phase i with
    | .stuck => { s with temp := none, phase := Function.update s.phase i .refused }
    | _ => s

/-- **A step without interference.** A temporary file that is renamed holds a line of the request's
own password and takes no sidecar's place, and what is written to a file that was renamed meanwhile
leaves a line of its owner's password. -/
def StepOk (s : PasswordDir ι) : PasswordStep ι → Prop
  | .rename i true => ∀ request inode, s.phase i = .written request → s.temp = some inode →
      s.live = none ∧ ∃ salt, s.content inode = passwordLine sha256 salt (trim request.password)
  | .write i failedAfter => ∀ request inode, s.phase i = .opened request inode →
      s.live = some inode → ∀ j owner, s.phase j = .session owner →
        ∃ salt, overwrite (writtenBytes sha256 request failedAfter) (s.content inode) =
          passwordLine sha256 salt (trim owner.password)
  | _ => True

/-! ### What a step can do -/

/-- A request that moves on without a session leaves the sessions alone. -/
theorem session_update_iff {i : ι} {phase : PasswordPhase}
    (hold : ∀ request, s.phase i ≠ .session request) (hnew : ∀ request, phase ≠ .session request)
    (j : ι) (request : PasswordRequest) :
    Function.update s.phase i phase j = .session request ↔ s.phase j = .session request := by
  by_cases hj : j = i
  · subst hj
    rw [Function.update_self]
    exact iff_of_false (hnew request) (hold request)
  · rw [Function.update_of_ne hj]

/-- A change of phase that neither opens nor ends a session is a move. -/
theorem moves_setPhase {i : ι} {phase : PasswordPhase}
    (hold : ∀ request, s.phase i ≠ .session request) (hnew : ∀ request, phase ≠ .session request) :
    Moves s (s.setPhase i phase) :=
  ⟨rfl, fun _ h => .inl h, le_rfl, session_update_iff hold hnew⟩

/-- **What a step can do**: nothing to the sidecar, a write to a file that was renamed meanwhile, or a
rename. -/
theorem next_cases (h : s.Sound) (step : PasswordStep ι) :
    (Moves s (next sha256 s step) ∧
      ∀ inode, s.live = some inode → (next sha256 s step).content inode = s.content inode) ∨
    (∃ i failedAfter request inode, step = .write i failedAfter ∧
      s.phase i = .opened request inode ∧ s.live = some inode ∧ Moves s (next sha256 s step) ∧
      (next sha256 s step).content inode =
        overwrite (writtenBytes sha256 request failedAfter) (s.content inode)) ∨
    ∃ i request inode, step = .rename i true ∧ s.phase i = .written request ∧
      s.temp = some inode ∧ next sha256 s step =
        { s with
          live := some inode
          temp := none
          phase := Function.update s.phase i (.session request) } := by
  cases step with
  | arrive i request =>
    rw [next]
    split
    · rename_i hp
      exact .inl ⟨moves_setPhase (by simp [hp]) (by simp), fun _ _ => rfl⟩
    · exact .inl ⟨Moves.refl s, fun _ _ => rfl⟩
  | check i =>
    rw [next]
    split
    · rename_i request hp
      refine .inl ⟨moves_setPhase (by simp [hp]) fun request' => ?_, fun _ _ => rfl⟩
      split_ifs
      · simp
      · exact checked_ne_session sha256 request request'
    · exact .inl ⟨Moves.refl s, fun _ _ => rfl⟩
  | openTemp i ok =>
    rw [next]
    split
    · rename_i request hp
      cases ok with
      | false => exact .inl ⟨moves_setPhase (by simp [hp]) (by simp), fun _ _ => rfl⟩
      | true =>
        have hsessions : ∀ j request', Function.update s.phase i
            (.opened request (s.temp.getD s.inodes)) j = .session request' ↔
            s.phase j = .session request' := session_update_iff (by simp [hp]) (by simp)
        cases htemp : s.temp with
        | none =>
          rw [htemp] at hsessions
          refine .inl ⟨⟨rfl, fun inode hinode => .inr ⟨(Option.some.inj hinode).symm, ?_⟩, ?_,
            hsessions⟩, fun inode hinode => Function.update_of_ne ?_ _ _⟩
          · exact Nat.lt_succ_self _
          · exact Nat.le_succ _
          · exact (h.liveUsed inode hinode).ne
        | some t =>
          rw [htemp] at hsessions
          refine .inl ⟨⟨rfl, fun inode hinode => .inl (htemp.trans hinode), le_rfl, hsessions⟩,
            fun inode hinode => Function.update_of_ne ?_ _ _⟩
          -- the temporary file is not the sidecar
          rintro rfl
          exact h.apart _ htemp hinode
    · exact .inl ⟨Moves.refl s, fun _ _ => rfl⟩
  | write i failedAfter =>
    rw [next]
    split
    · rename_i request inode hp
      have hmoves : Moves s
          { s with
            content := Function.update s.content inode
              (overwrite (writtenBytes sha256 request failedAfter) (s.content inode))
            phase := Function.update s.phase i
              (if failedAfter.isNone then .written request else .refused) } :=
        ⟨rfl, fun _ htemp => .inl htemp, le_rfl,
          session_update_iff (by simp [hp]) (by intro r; split_ifs <;> simp)⟩
      by_cases hlive : s.live = some inode
      · exact .inr (.inl ⟨i, failedAfter, request, inode, rfl, hp, hlive, hmoves,
          Function.update_self ..⟩)
      · refine .inl ⟨hmoves, fun inode' hinode' => Function.update_of_ne ?_ _ _⟩
        rintro rfl
        exact hlive hinode'
    · exact .inl ⟨Moves.refl s, fun _ _ => rfl⟩
  | rename i ok =>
    rw [next]
    split
    · rename_i request hp
      cases ok with
      | false => exact .inl ⟨moves_setPhase (by simp [hp]) (by simp), fun _ _ => rfl⟩
      | true =>
        cases htemp : s.temp with
        | none => exact .inl ⟨moves_setPhase (by simp [hp]) (by simp), fun _ _ => rfl⟩
        | some inode => exact .inr (.inr ⟨i, request, inode, rfl, hp, rfl, rfl⟩)
    · exact .inl ⟨Moves.refl s, fun _ _ => rfl⟩
  | removeTemp i =>
    rw [next]
    split
    · rename_i hp
      exact .inl ⟨⟨rfl, fun _ htemp => (nomatch htemp), le_rfl,
        session_update_iff (by simp [hp]) (by simp)⟩, fun _ _ => rfl⟩
    · exact .inl ⟨Moves.refl s, fun _ _ => rfl⟩

/-- **Every step keeps the files in order.** -/
theorem Sound.next (h : s.Sound) (step : PasswordStep ι) : (next sha256 s step).Sound := by
  rcases next_cases sha256 h step with
    ⟨hm, -⟩ | ⟨-, -, -, -, -, -, -, hm, -⟩ | ⟨i, request, inode, -, -, htemp, heq⟩
  · exact hm.sound h
  · exact hm.sound h
  · rw [heq]
    exact ⟨fun _ _ => ⟨i, request, Function.update_self ..⟩, fun _ ht => (nomatch ht),
      fun inode' hlive => Option.some.inj hlive ▸ h.tempUsed inode htemp, fun _ ht => nomatch ht⟩

/-! ### Runs -/

/-- A step without interference keeps the claim. -/
theorem ClaimedOnce.next (h : s.Sound) (hc : s.ClaimedOnce sha256) {step : PasswordStep ι}
    (hok : s.StepOk sha256 step) : (next sha256 s step).ClaimedOnce sha256 := by
  rcases next_cases sha256 h step with ⟨hm, hcontent⟩ |
    ⟨i, failedAfter, request, inode, rfl, hi, hlive, hm, hcontent⟩ |
    ⟨i, request, inode, rfl, hi, htemp, heq⟩
  case inl =>
    constructor
    · intro j k r r' hj hk
      exact hc.one j k r r' ((hm.sessions j r).mp hj) ((hm.sessions k r').mp hk)
    · intro j r hj
      obtain ⟨inode, salt, hlive, hline⟩ := hc.stored j r ((hm.sessions j r).mp hj)
      exact ⟨inode, salt, hm.live.trans hlive, (hcontent inode hlive).trans hline⟩
  case inr.inl =>
    constructor
    · intro j k r r' hj hk
      exact hc.one j k r r' ((hm.sessions j r).mp hj) ((hm.sessions k r').mp hk)
    · intro j r hj
      obtain ⟨salt, hline⟩ := hok request inode hi hlive j r ((hm.sessions j r).mp hj)
      exact ⟨inode, salt, hm.live.trans hlive, hcontent.trans hline⟩
  case inr.inr =>
    obtain ⟨hnone, salt, hline⟩ := hok request inode hi htemp
    -- without a sidecar nobody had a session
    have hno : ∀ j r, s.phase j ≠ .session r := by
      intro j r hj
      obtain ⟨inode', -, hlive, -⟩ := hc.stored j r hj
      exact absurd (hnone.symm.trans hlive) (by simp)
    have honly : ∀ j r, (PasswordDir.next sha256 s (.rename i true)).phase j = .session r →
        j = i ∧ r = request := by
      intro j r hj
      rw [heq] at hj
      dsimp only at hj
      by_cases hji : j = i
      · subst hji
        rw [Function.update_self] at hj
        exact ⟨rfl, (PasswordPhase.session.inj hj).symm⟩
      · rw [Function.update_of_ne hji] at hj
        exact absurd hj (hno j r)
    constructor
    · intro j k r r' hj hk
      rw [(honly j r hj).1, (honly k r' hk).1]
    · intro j r hj
      rw [(honly j r hj).2, heq]
      exact ⟨inode, salt, rfl, hline⟩

/-- A step that interferes breaks it. -/
theorem stepOk_of_claimedOnce_next (h : s.Sound) {step : PasswordStep ι}
    (hc : (next sha256 s step).ClaimedOnce sha256) : s.StepOk sha256 step := by
  cases step with
  | arrive | check | openTemp | removeTemp => trivial
  -- a write goes to the inode of another request only while that one has no session
  | write i failedAfter =>
    intro request inode hi hlive j owner hj
    have hnext : next sha256 s (.write i failedAfter) =
        { s with
          content := Function.update s.content inode
            (overwrite (writtenBytes sha256 request failedAfter) (s.content inode))
          phase := Function.update s.phase i
            (if failedAfter.isNone then .written request else .refused) } := by
      rw [next, hi]
    -- the writer is not the one with the session
    have hji : j ≠ i := by
      rintro rfl
      exact absurd (hi.symm.trans hj) (by simp)
    obtain ⟨inode', salt, hlive', hline⟩ := hc.stored j owner (by
      rw [hnext]
      exact (Function.update_of_ne hji _ _).trans hj)
    rw [hnext] at hlive' hline
    obtain rfl := Option.some.inj (hlive.symm.trans hlive')
    dsimp only at hline
    rw [Function.update_self] at hline
    exact ⟨salt, hline⟩
  -- a rename that succeeds gives its request the session
  | rename i ok =>
    cases ok with
    | false => trivial
    | true =>
      intro request inode hi htemp
      have hnext : next sha256 s (.rename i true) =
          { s with
            live := some inode
            temp := none
            phase := Function.update s.phase i (.session request) } := by
        rw [next, hi, htemp]
      have hself : (next sha256 s (.rename i true)).phase i = .session request := by
        rw [hnext]
        exact Function.update_self ..
      constructor
      · -- the sidecar would be that of another request with a session
        by_contra hsome
        obtain ⟨inode', hlive⟩ := Option.ne_none_iff_exists'.mp hsome
        obtain ⟨j, owner, hj⟩ := h.owned inode' hlive
        have hji : j ≠ i := by
          rintro rfl
          exact absurd (hi.symm.trans hj) (by simp)
        refine hji (hc.one j i owner request ?_ hself)
        rw [hnext]
        exact (Function.update_of_ne hji _ _).trans hj
      · obtain ⟨inode', salt, hlive, hline⟩ := hc.stored i request hself
        rw [hnext] at hlive hline
        obtain rfl := Option.some.inj hlive
        exact ⟨salt, hline⟩

/-- **First passwords**: however the requests interleave, and whatever fails, the password is claimed
once in every state of a run exactly when no step interferes with another request. -/
theorem firstPassword_claimedOnce_iff (stale : Option Str) (steps : List (PasswordStep ι)) :
    EveryStep (next sha256) (fun s step => (next sha256 s step).ClaimedOnce sha256)
        (initial stale) steps ↔
      EveryStep (next sha256) (fun s step => s.StepOk sha256 step) (initial stale) steps := by
  constructor
  · exact everyStep_of_invariant_of Sound
      (fun s step h hc => ⟨stepOk_of_claimedOnce_next sha256 h hc, h.next sha256 step⟩)
      (sound_initial stale)
  · exact everyStep_of_invariant_of (fun s => s.Sound ∧ s.ClaimedOnce sha256)
      (fun s step h hok => ⟨h.2.next sha256 h.1 hok, h.1.next sha256 step,
        h.2.next sha256 h.1 hok⟩)
      ⟨sound_initial stale, claimedOnce_initial sha256 stale⟩

end Steps

/-- Two strangers and their passwords. -/
def firstRequest : PasswordRequest := ⟨"first password".toList, [1]⟩

/-- The second of the two. -/
def secondRequest : PasswordRequest := ⟨"second password".toList, [2]⟩

/-- Both look for the sidecar before either renames. -/
def racingSteps : List (PasswordStep Nat) :=
  [.arrive 1 firstRequest, .arrive 2 secondRequest, .check 1, .check 2, .openTemp 1 true,
    .write 1 none, .rename 1 true, .openTemp 2 true, .write 2 none, .rename 2 true]

/-- **Both get a session**, here with the identity as the hash. -/
theorem not_firstPassword_claimedOnce_race :
    ¬∀ sha256 : List UInt8 → List UInt8,
      EveryStep (next sha256) (fun s step => (next sha256 s step).ClaimedOnce sha256)
        (initial none) racingSteps := by
  intro h
  have hrun := h id
  have hfirst : checked id firstRequest = .cleared firstRequest := by
    rw [checked, if_neg (by decide +kernel), setSimplePassword, if_neg (by decide +kernel),
      if_neg (by decide +kernel)]
  have hsecond : checked id secondRequest = .cleared secondRequest := by
    rw [checked, if_neg (by decide +kernel), setSimplePassword, if_neg (by decide +kernel),
      if_neg (by decide +kernel)]
  simp only [racingSteps, EveryStep, next, initial, setPhase, Function.update_self, hfirst, hsecond,
    Function.update_of_ne (show (1 : Nat) ≠ 2 by decide), Option.isSome_none, Option.map_none,
    Function.update_of_ne (show (2 : Nat) ≠ 1 by decide), Bool.false_eq_true, if_false, if_true,
    Option.isNone_none] at hrun
  obtain ⟨-, -, -, -, -, -, -, -, -, hlast, -⟩ := hrun
  have hsame := hlast.one 1 2 firstRequest secondRequest (by simp) (by simp)
  exact absurd hsame (by decide)

end PasswordDir

end NfsKlldap
