import NfsKlldap.Settings.Writers
import NfsKlldap.Supervisor.RecyclePlan
import NfsKlldap.Web.RecycleLatch
import NfsKlldap.Web.Sessions

/-! # The first-run wizard (`setup.rs`)

Step 1 checks the volume, step 2 saves the LDAP URI and step 3 the bind credentials. A step saves
what its last passed test has tested: the test keeps its inputs in `SetupTestState`, and `continue`
compares them with what is submitted.

The pages of the steps turn a visitor away once the wizard is complete. The tests and `continue` do
not look. -/

namespace NfsKlldap

open Text

/-! ## State and answers -/

/-- Inputs of the last passed test of each step. -/
structure SetupTestState where
  step2Uri : Option Str := none
  step3Dn : Option Str := none
  step3Pw : Option Str := none
  deriving DecidableEq

/-- The files and the state that the handlers share. -/
structure WebState where
  conf : ConfFile
  /-- The sidecar with the password of `localhost`. -/
  passwordFile : ConfFile
  sessions : Sessions
  /-- The marker of a finished wizard is there. -/
  setupMarker : Bool
  setupTest : SetupTestState := {}
  latch : Latch := .initial

/-- What is fixed while the WebUI runs. -/
structure WebUi where
  env : Environment
  toml : TomlEdit
  sha256 : List UInt8 → List UInt8
  sessionTtl : Nat
  timing : RecycleTiming

/-- What a test of the URI finds. -/
inductive LdapReachability where
  | reachable
  | dnsFailure (detail : Str)
  | unreachable (detail : Str)
  deriving DecidableEq

/-- What the user is told about it. -/
def LdapReachability.userMessage : LdapReachability → Str
  | .reachable => "LDAP server is reachable (DNS + TCP port open).".toList
  | .dnsFailure detail => "DNS lookup failed: ".toList ++ detail
  | .unreachable detail => "Port unreachable: ".toList ++ detail

/-- What the world answers while a request is served. -/
structure Answers where
  now : Nat
  /-- A keytab file is there. -/
  keytab : Bool
  /-- The config directory is a writable volume. -/
  persistent : Bool
  /-- The supervisor has left a fresh marker of a recycle. -/
  recycled : Bool
  reachability : LdapReachability
  /-- The result of a bind probe. -/
  bind : Except Str Unit
  /-- Whether LDAP takes the credentials of a login for those of an administrator. -/
  admin : Except Str Unit
  /-- Why the config cannot be written. -/
  confFailure : Option Str
  /-- Why the password cannot be written. -/
  passwordFailure : Option Str
  markerWritten : Bool
  /-- A random token and a random salt. -/
  token : Str
  salt : List UInt8

/-- What is sent back; pages are known by the error they show. -/
inductive Response where
  | redirect (target : Str)
  | html (status : Nat) (error : Option Str)
  | json (ok : Bool) (message error : Option Str)
  | text (status : Nat) (body : Str)
  | rejected (status : Nat)
  deriving DecidableEq

/-! ## Where the wizard stands (`startup.rs`) -/

/-- The text, without validation. -/
def ConfFile.loadLenient (env : Environment) (toml : TomlEdit) (file : ConfFile) :
    Except ConfigError NfsKlldapConfig :=
  match file.readToString with
  | none => .error .io
  | some raw => (parseStr toml raw).map (applyCoreEnvOverrides env)

/-- A scheme and a host that is no address. -/
def ldapUriIsStructurallyValid (uri : Str) : Bool :=
  let uri := trim uri
  let host := extractHostFromUri uri
  (startsWith uri "ldap://" || startsWith uri "ldaps://") && host ≠ [] && !hostIsIp host

/-- The configuration has a bind DN and a password. -/
def hasBindCreds (c : NfsKlldapConfig) : Bool :=
  !isBlank c.sssd.ldapDefaultBindDn && !isBlank c.sssd.ldapDefaultAuthtok

/-- The configuration has all that a start needs. -/
def configHasRequiredStartupFields (c : NfsKlldapConfig) : Bool :=
  ldapUriIsStructurallyValid c.ldapUri && hasBindCreds c

section Wizard

variable (ui : WebUi) (a : Answers) (s : WebState)

/-- A keytab and a complete config skip the wizard. -/
def isPreconfiguredDeployment : Bool :=
  a.keytab && a.persistent &&
    match s.conf.load ui.env ui.toml with
    | .ok c => configHasRequiredStartupFields c
    | .error _ => false

/-- The step the wizard is at. -/
def computeWizardStep : StartupStep :=
  if !a.persistent then .waitForPersistentVolume
  else
    match s.conf.loadLenient ui.env ui.toml with
    | .error _ => .setLdapUri
    | .ok c =>
      if !ldapUriIsStructurallyValid c.ldapUri then .setLdapUri
      else if !hasBindCreds c then .addBindCredentials
      else if s.setupMarker then .ready
      else .addBindCredentials

/-- The wizard must run before anything else. -/
def setupWizardRequired : Bool := !isPreconfiguredDeployment ui a s && !s.setupMarker

/-- Where a visitor of an incomplete setup is sent. -/
def setupRedirectForStep : Str :=
  if isPreconfiguredDeployment ui a s || s.setupMarker then "/login".toList
  else
    match computeWizardStep ui a s with
    | .waitForPersistentVolume => "/setup/1".toList
    | .setLdapUri => "/setup/2".toList
    | .addBindCredentials => "/setup/3".toList
    | .ready => "/login".toList

/-! ## Step 1 -/

/-- The page of step 1. -/
def setupStep1 : Response :=
  if s.setupMarker then .redirect "/login".toList
  else if computeWizardStep ui a s ≠ .waitForPersistentVolume then
    .redirect (setupRedirectForStep ui a s)
  else .html 200 none

/-- The check of step 1. -/
def setupStep1Verify : Response :=
  if a.persistent then .redirect "/setup/2".toList
  else
    .html 400 (some ("Persistent volume not detected or not writable. " ++
      "Bind-mount a host directory at /config.").toList)

/-! ## Step 2 -/

/-- The URI, trimmed: its scheme is an LDAP one, and its host is no address. -/
def validateLdapUri (uri : Str) : Except Str Str :=
  let uri := trim uri
  if !startsWith uri "ldap://" && !startsWith uri "ldaps://" then
    .error "ldap_uri must start with ldap:// or ldaps://".toList
  else if hostIsIp (extractHostFromUri uri) then
    .error "ldap_uri must use a DNS hostname, not an IP address.".toList
  else .ok uri

/-- The submitted URI is the one that was tested. -/
def step2TestMatches (cached : Option Str) (submitted : Str) : Bool :=
  cached = some (trim submitted)

/-- The page of step 2. -/
def setupStep2 : Response :=
  if s.setupMarker then .redirect "/login".toList
  else
    match computeWizardStep ui a s with
    | .waitForPersistentVolume => .redirect "/setup/1".toList
    | .addBindCredentials => .redirect "/setup/3".toList
    | _ => .html 200 none

/-- Keep or clear the tested URI. -/
def WebState.withStep2Test (s : WebState) (uri : Option Str) : WebState :=
  { s with setupTest := { s.setupTest with step2Uri := uri } }

/-- `POST /setup/2/test`: probe without writing. -/
def setupStep2Test (uri : Str) : WebState × Response :=
  match validateLdapUri uri with
  | .error e => (s.withStep2Test none, .json false none (some e))
  | .ok uri =>
    match a.reachability with
    | .reachable =>
      (s.withStep2Test (some (trim uri)),
        .json true (some "Reachability test passed.".toList) none)
    | other => (s.withStep2Test none, .json false none (some other.userMessage))

/-- `POST /setup/2/continue`: save what was tested. -/
def setupStep2Continue (uri : Str) : WebState × Response :=
  match validateLdapUri uri with
  | .error e => (s, .html 400 (some e))
  | .ok uri =>
    if !step2TestMatches s.setupTest.step2Uri uri then
      (s, .html 400 (some "Test settings before continuing.".toList))
    else
      match a.confFailure with
      | some e => (s, .html 400 (some e))
      | none =>
        (({ s with conf := writeLdapUri ui.toml true s.conf uri }).withStep2Test none,
          .redirect "/setup/3".toList)

/-! ## Step 3 -/

/-- The submitted credentials are those that were tested. -/
def step3TestMatches (cachedDn cachedPw : Option Str) (dn pw : Str) : Bool :=
  cachedDn = some (trim dn) && cachedPw = some pw

/-- The page of step 3. -/
def setupStep3 : Response :=
  if s.setupMarker then .redirect "/login".toList
  else
    match computeWizardStep ui a s with
    | .waitForPersistentVolume => .redirect "/setup/1".toList
    | .setLdapUri => .redirect "/setup/2".toList
    | _ => .html 200 none

/-- Keep or clear the tested credentials. -/
def WebState.withStep3Test (s : WebState) (creds : Option (Str × Str)) : WebState :=
  { s with
    setupTest :=
      { s.setupTest with step3Dn := creds.map Prod.fst, step3Pw := creds.map Prod.snd } }

/-- Bind with the submitted credentials; the URI is the one on disk. -/
def runBindProbe : Except Str Unit :=
  match s.conf.loadLenient ui.env ui.toml with
  | .error e => .error e.display
  | .ok c =>
    if isBlank c.ldapUri then
      .error "ldap_uri is not set. Complete the LDAP server step first.".toList
    else a.bind

/-- `POST /setup/3/test`: probe without writing. -/
def setupStep3Test (dn pw : Str) : WebState × Response :=
  if isBlank dn then
    (s.withStep3Test none, .json false none (some "Bind DN is required.".toList))
  else if isBlank pw then
    (s.withStep3Test none, .json false none (some "Bind password is required.".toList))
  else
    match runBindProbe ui a s with
    | .ok () =>
      (s.withStep3Test (some (trim dn, pw)), .json true (some "Bind test passed.".toList) none)
    | .error e => (s.withStep3Test none, .json false none (some e))

/-- `POST /setup/3/continue`: save what was tested, finish the wizard and ask for a restart. -/
def setupStep3Continue (dn pw : Str) : WebState × Response :=
  if isBlank dn then (s, .html 400 (some "Bind DN is required.".toList))
  else if isBlank pw then (s, .html 400 (some "Bind password is required.".toList))
  else if !step3TestMatches s.setupTest.step3Dn s.setupTest.step3Pw dn pw then
    (s, .html 400 (some "Test settings before continuing.".toList))
  else
    match a.confFailure with
    | some e => (s, .html 400 (some e))
    | none =>
      (({ s with
          conf := writeBindCreds ui.toml true s.conf dn pw
          setupMarker := s.setupMarker || a.markerWritten
          latch := s.latch.request ui.timing .fullRestart }).withStep3Test none,
        .html 200 none)

/-- `GET /setup/3/status`: the credentials on disk. -/
def setupStep3Status : Response :=
  match s.conf.loadLenient ui.env ui.toml with
  | .error _ => .json false none (some "Bind credentials not yet saved on disk.".toList)
  | .ok c =>
    if isBlank c.ldapUri || !hasBindCreds c then
      .json false none (some "Bind credentials not yet saved on disk.".toList)
    else
      match a.bind with
      | .ok () => .json true (some "Bind test passed.".toList) none
      | .error e => .json false none (some e)

end Wizard

/-! ## What the wizard changes -/

/-- **Nothing that matters changed**: the config, the password and the recycles are the same, and so
are the sessions that live on past `now`. -/
structure Untouched (now : Nat) (s s' : WebState) : Prop where
  conf : s'.conf = s.conf
  passwordFile : s'.passwordFile = s.passwordFile
  latch : s'.latch = s.latch
  live : ∀ t, now ≤ t → liveAt t s'.sessions = liveAt t s.sessions

namespace Untouched

variable {now now' : Nat} {s s' s'' : WebState}

/-- A state is untouched by nothing. -/
theorem refl (now : Nat) (s : WebState) : Untouched now s s := ⟨rfl, rfl, rfl, fun _ _ => rfl⟩

/-- Two stretches that touch nothing are one. -/
theorem trans (h : Untouched now s s') (h' : Untouched now s' s'') : Untouched now s s'' :=
  ⟨h'.conf.trans h.conf, h'.passwordFile.trans h.passwordFile, h'.latch.trans h.latch,
    fun t ht => (h'.live t ht).trans (h.live t ht)⟩

/-- What is untouched at a time is untouched later. -/
theorem mono (h : Untouched now s s') (hle : now ≤ now') : Untouched now' s s' :=
  ⟨h.conf, h.passwordFile, h.latch, fun t ht => h.live t (hle.trans ht)⟩

/-- A change of the sessions that leaves the live ones touches nothing. -/
theorem of_sessions {m : Sessions} (h : ∀ t, now ≤ t → liveAt t m = liveAt t s.sessions) :
    Untouched now s { s with sessions := m } :=
  ⟨rfl, rfl, rfl, h⟩

/-- A note about a test touches nothing. -/
theorem of_setupTest (now : Nat) (s : WebState) (test : SetupTestState) :
    Untouched now s { s with setupTest := test } :=
  ⟨rfl, rfl, rfl, fun _ _ => rfl⟩

end Untouched

/-- The tests only remember. -/
theorem untouched_setupStep2Test (a : Answers) (s : WebState) (uri : Str) :
    Untouched a.now s (setupStep2Test a s uri).1 := by
  unfold setupStep2Test
  split
  · exact Untouched.of_setupTest _ _ _
  · split
    · exact Untouched.of_setupTest _ _ _
    · exact Untouched.of_setupTest _ _ _

/-- A test of the credentials touches nothing. -/
theorem untouched_setupStep3Test (ui : WebUi) (a : Answers) (s : WebState) (dn pw : Str) :
    Untouched a.now s (setupStep3Test ui a s dn pw).1 := by
  unfold setupStep3Test
  split
  · exact Untouched.of_setupTest _ _ _
  · split
    · exact Untouched.of_setupTest _ _ _
    · split
      · exact Untouched.of_setupTest _ _ _
      · exact Untouched.of_setupTest _ _ _

/-- What is submitted to step 2 is what its last passed test has tested. -/
def Step2Matches (s : WebState) (uri : Str) : Prop :=
  ∃ u, validateLdapUri uri = .ok u ∧ step2TestMatches s.setupTest.step2Uri u = true

/-- What is submitted to step 3 is what its last passed test has tested. -/
def Step3Matches (s : WebState) (dn pw : Str) : Prop :=
  isBlank dn = false ∧ isBlank pw = false ∧
    step3TestMatches s.setupTest.step3Dn s.setupTest.step3Pw dn pw = true

/-- Without a test `continue` stalls. -/
theorem setupStep2Continue_of_not {ui : WebUi} {a : Answers} {s : WebState} {uri : Str}
    (h : ¬ Step2Matches s uri) : (setupStep2Continue ui a s uri).1 = s := by
  unfold setupStep2Continue
  cases hv : validateLdapUri uri with
  | error e => rfl
  | ok u =>
    have hno : step2TestMatches s.setupTest.step2Uri u = false :=
      Bool.eq_false_iff.mpr fun hm => h ⟨u, hv, hm⟩
    simp only [hno, Bool.not_false, if_true]

/-- Credentials that were not tested change nothing. -/
theorem setupStep3Continue_of_not {ui : WebUi} {a : Answers} {s : WebState} {dn pw : Str}
    (h : ¬ Step3Matches s dn pw) : (setupStep3Continue ui a s dn pw).1 = s := by
  unfold setupStep3Continue
  split
  · rfl
  · next hdn =>
    split
    · rfl
    · next hpw =>
      have hno : step3TestMatches s.setupTest.step3Dn s.setupTest.step3Pw dn pw = false :=
        Bool.eq_false_iff.mpr fun hm =>
          h ⟨Bool.eq_false_iff.mpr hdn, Bool.eq_false_iff.mpr hpw, hm⟩
      simp only [hno, Bool.not_false, if_true]

end NfsKlldap
