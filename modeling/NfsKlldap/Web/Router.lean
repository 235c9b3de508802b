import NfsKlldap.Web.Setup

/-! # The router of the WebUI (`web/mod.rs`, `web/auth.rs`)

Every route, with the handler it leads to. The protected handlers open with `require_auth`, and their
bodies are a parameter: only a request with a valid session gets there. What is open to everyone is
the login, the wizard and a few pages that only read.

A request is unauthenticated when no token of it validates and it brings no credentials that the
login accepts. **`unauthenticated_untouched`** follows such requests through whole runs: as long as no
`continue` of the wizard submits what the last test has passed, the config, the password, the live
sessions and the recycles stay as they are. -/

namespace NfsKlldap

open Text

/-! ## Routes -/

/-- The methods the routes tell apart. -/
inductive Method where
  | get
  | head
  | post
  | other
  deriving DecidableEq

/-- Handlers that open with `require_auth`. -/
inductive ProtectedHandler where
  | index | treeFragment | dirPerms | searchUsers | searchGroups | applyPermissions
  | applyProgress | cancelApply | aclApply
  | settingsPage | shareCardBlank | settingsSaveRaw | settingsSaveStructured | settingsSaveShares
  | lldapStatus | reloadNfsClient | clearLdapCache | systemRestart | settingsTestLdap
  | settingsTestBind | settingsChangePassword | settingsReprobeFilesystems
  | settingsRefreshIdentity
  deriving DecidableEq

/-- The handlers of the routes. -/
inductive Handler where
  /-- The compiled-in scripts and the stylesheet. -/
  | asset
  | loginPage | login | setupPassword | logout | restartStatus | clientManifest
  | setupRedirect | setupStep1 | setupStep1Verify
  | setupStep2 | setupStep2Test | setupStep2Continue
  | setupStep3 | setupStep3Test | setupStep3Status | setupStep3Continue
  | guarded (h : ProtectedHandler)
  deriving DecidableEq

/-- The routes, in order. -/
def routes : List (String × Method × Handler) :=
  [ ("/assets/htmx-1.9.12.min.js", .get, .asset),
    ("/assets/permissions.js", .get, .asset),
    ("/assets/style.css", .get, .asset),
    ("/login", .get, .loginPage),
    ("/login", .post, .login),
    ("/setup-password", .post, .setupPassword),
    ("/logout", .get, .logout),
    ("/logout", .post, .logout),
    ("/restart-status", .get, .restartStatus),
    ("/client-manifest.json", .get, .clientManifest),
    ("/setup", .get, .setupRedirect),
    ("/setup/1", .get, .setupStep1),
    ("/setup/1/verify", .post, .setupStep1Verify),
    ("/setup/2", .get, .setupStep2),
    ("/setup/2/test", .post, .setupStep2Test),
    ("/setup/2/continue", .post, .setupStep2Continue),
    ("/setup/3", .get, .setupStep3),
    ("/setup/3/test", .post, .setupStep3Test),
    ("/setup/3/status", .get, .setupStep3Status),
    ("/setup/3/continue", .post, .setupStep3Continue),
    ("/", .get, .guarded .index),
    ("/tree", .get, .guarded .treeFragment),
    ("/dir-perms", .get, .guarded .dirPerms),
    ("/users/search", .get, .guarded .searchUsers),
    ("/groups/search", .get, .guarded .searchGroups),
    ("/apply", .post, .guarded .applyPermissions),
    ("/apply-progress", .get, .guarded .applyProgress),
    ("/cancel-apply", .post, .guarded .cancelApply),
    ("/acl-apply", .post, .guarded .aclApply),
    ("/settings", .get, .guarded .settingsPage),
    ("/settings/share-card", .get, .guarded .shareCardBlank),
    ("/settings/save-raw", .post, .guarded .settingsSaveRaw),
    ("/settings/save", .post, .guarded .settingsSaveStructured),
    ("/settings/save-shares", .post, .guarded .settingsSaveShares),
    ("/settings/lldap-status", .get, .guarded .lldapStatus),
    ("/settings/reload-nfs-client", .post, .guarded .reloadNfsClient),
    ("/settings/clear-ldap-cache", .post, .guarded .clearLdapCache),
    ("/settings/restart", .post, .guarded .systemRestart),
    ("/settings/test-ldap", .post, .guarded .settingsTestLdap),
    ("/settings/test-bind", .post, .guarded .settingsTestBind),
    ("/settings/change-password", .post, .guarded .settingsChangePassword),
    ("/settings/reprobe-filesystems", .post, .guarded .settingsReprobeFilesystems),
    ("/settings/refresh-identity", .post, .guarded .settingsRefreshIdentity) ]

/-- The handler of a request, or the status of a path or a method without one. A `HEAD` goes where
`GET` goes. -/
def route (method : Method) (path : Str) : Except Nat Handler :=
  let method := if method = .head then .get else method
  match routes.filter fun e => e.1.toList = path with
  | [] => .error 404
  | e :: es =>
    match (e :: es).find? fun e => e.2.1 = method with
    | some e => .ok e.2.2
    | none => .error 405

/-- Paths the wizard does not hold back. -/
def setupExempt (path : Str) : Bool :=
  startsWith path "/setup" || startsWith path "/assets/" || path = "/login".toList ||
    path = "/setup-password".toList || path = "/restart-status".toList ||
    path = "/logout".toList || path = "/client-manifest.json".toList

/-! ## Requests -/

/-- A request. -/
structure Request where
  method : Method
  path : Str
  /-- The Cookie header. -/
  cookie : Option Str := none
  /-- The `error` of the query. -/
  error : Option Str := none
  /-- The submitted form; `none` when the body is none. -/
  form : Option (List (Str × Str)) := none
  deriving DecidableEq

/-- A field that is submitted once. -/
def Request.field (r : Request) (name : String) : Option Str :=
  match (r.form.getD []).filter fun e => e.1 = name.toList with
  | [e] => some e.2
  | _ => none

/-- The status of a form that cannot be read. -/
def Request.formStatus (r : Request) : Nat := if r.form.isNone then 415 else 422

/-! ## Logging in -/

section Handlers

variable (ui : WebUi) (r : Request) (a : Answers) (s : WebState)

/-- The user a login stands for, or the message about it. -/
def authenticate (username password : Str) : Except Str Str :=
  let username := trim username
  if username = "localhost".toList then
    match validateSimplePassword ui.sha256 s.passwordFile password with
    | .ok () => .ok username
    | .error e => .error e
  else
    match a.admin with
    | .ok () => .ok username
    | .error e =>
      .error (if (splitOnceStr "not a member of".toList e).isSome then e
        else "Invalid username or password (LDAP)".toList)

/-- Replace the sessions of the request by a new one. -/
def startSession (user : Str) : WebState :=
  { s with
    sessions :=
      createPrivilegedSession ui.sha256 a.now ui.sessionTtl a.token user
        ((sessionTokens r.cookie).foldl (logoutToken ui.sha256) s.sessions) }

/-- `POST /login`. -/
def login (username password : Str) : WebState × Response :=
  match authenticate ui a s username password with
  | .ok user => (startSession ui r a s user, .redirect "/".toList)
  | .error e => (s, .html 401 (some e))

/-- The sidecar exists. -/
def hasSimplePassword : Bool := s.passwordFile ≠ .missing

/-- `POST /setup-password`: the first password of `localhost`. -/
def setupPassword (password : Str) : WebState × Response :=
  if setupWizardRequired ui a s then (s, .redirect (setupRedirectForStep ui a s))
  else if hasSimplePassword s then
    (s, .html 400
      (some "A simple password has already been set. Use the normal login form.".toList))
  else
    let pw := trim password
    if pw = [] then (s, .html 400 (some "Password cannot be empty".toList))
    else
      match setSimplePassword ui.sha256 a.salt a.passwordFailure pw with
      | .error e => (s, .html 400 (some e))
      | .ok file =>
        (startSession ui r a { s with passwordFile := file } "localhost".toList,
          .redirect "/?first_run=1".toList)

/-- `GET|POST /logout`. -/
def logout : WebState × Response :=
  ({ s with sessions := (sessionTokens r.cookie).foldl (logoutToken ui.sha256) s.sessions },
    .redirect "/login".toList)

/-- The user of the request; expired sessions go. -/
def currentUser : Option Str × WebState :=
  let (user, m) := validateSessionInHeaders ui.sha256 a.now r.cookie s.sessions
  (user, { s with sessions := m })

/-- The message of the login page. -/
def loginErrorMessage (firstRun : Bool) : Option Str → Option Str
  | none => none
  | some code =>
    let expired := code ∈ ["session".toList, "required".toList, "auth".toList]
    if firstRun && expired then none
    else if expired then
      some ("Your session has expired or you are not logged in. " ++
        "Please sign in again.").toList
    else some ("Authentication required: ".toList ++ code)

/-- `login_page` -/
def loginPage : WebState × Response :=
  if setupWizardRequired ui a s then (s, .redirect (setupRedirectForStep ui a s))
  else
    match currentUser ui r a s with
    | (some _, s) => (s, .redirect "/".toList)
    | (none, s) => (s, .html 200 (loginErrorMessage (!hasSimplePassword s) r.error))

/-- Where an unauthenticated visitor of a protected page goes. -/
def authFailureRedirect : Response :=
  .redirect
    (if hasSimplePassword s && sessionTokens r.cookie ≠ [] then "/login?error=session".toList
      else "/login".toList)

/-- What the protected handlers do for a user. -/
abbrev ProtectedBody :=
  ProtectedHandler → Str → Request → Answers → WebState → WebState × Response

variable (body : ProtectedBody)

/-- A protected handler. -/
def guarded (h : ProtectedHandler) : WebState × Response :=
  match currentUser ui r a s with
  | (some user, s) => body h user r a s
  | (none, s) => (s, authFailureRedirect r s)

/-- One handler at work. -/
def handle : Handler → WebState × Response
  | .asset => (s, .text 200 [])
  | .loginPage => loginPage ui r a s
  | .login =>
    match r.field "username", r.field "password" with
    | some username, some password => login ui r a s username password
    | _, _ => (s, .rejected r.formStatus)
  | .setupPassword =>
    match r.field "username", r.field "password" with
    | some _, some password => setupPassword ui r a s password
    | _, _ => (s, .rejected r.formStatus)
  | .logout => logout ui r s
  | .restartStatus =>
    (s, if a.recycled then .text 200 "recycled".toList else .text 503 "pending".toList)
  | .clientManifest => (s, .json true none none)
  | .setupRedirect => (s, .redirect (setupRedirectForStep ui a s))
  | .setupStep1 => (s, setupStep1 ui a s)
  | .setupStep1Verify => (s, setupStep1Verify a)
  | .setupStep2 => (s, setupStep2 ui a s)
  | .setupStep2Test =>
    match r.field "ldap_uri" with
    | some uri => setupStep2Test a s uri
    | none => (s, .rejected r.formStatus)
  | .setupStep2Continue =>
    match r.field "ldap_uri" with
    | some uri => setupStep2Continue ui a s uri
    | none => (s, .rejected r.formStatus)
  | .setupStep3 => (s, setupStep3 ui a s)
  | .setupStep3Test =>
    match r.field "ldap_default_bind_dn", r.field "ldap_default_authtok" with
    | some dn, some pw => setupStep3Test ui a s dn pw
    | _, _ => (s, .rejected r.formStatus)
  | .setupStep3Status => (s, setupStep3Status ui a s)
  | .setupStep3Continue =>
    match r.field "ldap_default_bind_dn", r.field "ldap_default_authtok" with
    | some dn, some pw => setupStep3Continue ui a s dn pw
    | _, _ => (s, .rejected r.formStatus)
  | .guarded h => guarded ui r a s body h

/-- **One request**, behind the gate that sends everyone to an incomplete wizard. -/
def serve : WebState × Response :=
  if !setupExempt r.path && setupWizardRequired ui a s then
    (s, .redirect (setupRedirectForStep ui a s))
  else
    match route r.method r.path with
    | .error status => (s, .rejected status)
    | .ok h => handle ui r a s body h

end Handlers

/-- A run of requests, each with the answers it meets. -/
def serveAll (ui : WebUi) (body : ProtectedBody) (s : WebState) (run : List (Request × Answers)) :
    WebState :=
  run.foldl (fun s x => (serve ui x.1 x.2 s body).1) s

/-! ## Unauthenticated requests -/

/-- The request is a login that is accepted. -/
def AcceptedLogin (ui : WebUi) (r : Request) (a : Answers) (s : WebState) : Prop :=
  route r.method r.path = .ok .login ∧ ∃ username password user,
    r.field "username" = some username ∧ r.field "password" = some password ∧
      authenticate ui a s username password = .ok user

/-- **Unauthenticated**: no token validates, and no credentials are accepted. -/
structure Unauthenticated (ui : WebUi) (r : Request) (a : Answers) (s : WebState) : Prop where
  session : (validateSessionInHeaders ui.sha256 a.now r.cookie s.sessions).1 = none
  login : ¬ AcceptedLogin ui r a s

/-- The request makes a step of the wizard save what its last test has passed. -/
def ContinuesSetup (r : Request) (s : WebState) : Prop :=
  (route r.method r.path = .ok .setupStep2Continue ∧
    ∃ uri, r.field "ldap_uri" = some uri ∧ Step2Matches s uri) ∨
  (route r.method r.path = .ok .setupStep3Continue ∧
    ∃ dn pw, r.field "ldap_default_bind_dn" = some dn ∧
      r.field "ldap_default_authtok" = some pw ∧ Step3Matches s dn pw)

/-- Every request of the run is unauthenticated, and none continues the wizard. -/
def Uneventful (ui : WebUi) (body : ProtectedBody) : WebState → List (Request × Answers) → Prop
  | _, [] => True
  | s, x :: run =>
    Unauthenticated ui x.1 x.2 s ∧ ¬ ContinuesSetup x.1 s ∧
      Uneventful ui body (serve ui x.1 x.2 s body).1 run

/-! ## One request -/

section Step

variable {ui : WebUi} {r : Request} {a : Answers} {s : WebState}

/-- Without a live session there is no user, and nothing is touched. -/
theorem currentUser_of_unauthenticated (h : Unauthenticated ui r a s) :
    (currentUser ui r a s).1 = none ∧ Untouched a.now s (currentUser ui r a s).2 :=
  ⟨h.session, Untouched.of_sessions fun t ht => (validateTokens_none h.session).2 t ht⟩

/-- A logout without a live session touches nothing. -/
theorem untouched_logout (h : Unauthenticated ui r a s) :
    Untouched a.now s (logout ui r s).1 := by
  refine Untouched.of_sessions fun t ht => liveAt_foldl_logout (fun token htoken => ?_) ht
  exact (validateTokens_none h.session).1 token (List.mem_reverse.mpr htoken)

/-- The login page without a live session touches nothing. -/
theorem untouched_loginPage (h : Unauthenticated ui r a s) :
    Untouched a.now s (loginPage ui r a s).1 := by
  obtain ⟨huser, hstate⟩ := currentUser_of_unauthenticated h
  unfold loginPage
  split
  · exact Untouched.refl _ _
  · split
    · next heq => rw [heq] at huser; cases huser
    · next heq => rw [heq] at hstate; exact hstate

/-- **A guarded page without a live session touches nothing.** -/
theorem untouched_guarded (h : Unauthenticated ui r a s) (body : ProtectedBody)
    (handler : ProtectedHandler) : Untouched a.now s (guarded ui r a s body handler).1 := by
  obtain ⟨huser, hstate⟩ := currentUser_of_unauthenticated h
  unfold guarded
  split
  · next heq => rw [heq] at huser; cases huser
  · next heq => rw [heq] at hstate; exact hstate

/-- A password that is there is not replaced. -/
theorem setupPassword_of_hasSimplePassword (hpw : hasSimplePassword s = true) (password : Str) :
    (setupPassword ui r a s password).1 = s := by
  unfold setupPassword
  split
  · rfl
  · rfl

/-- **What an unauthenticated request can do** once a password is set: nothing, unless it continues
the wizard. -/
theorem untouched_handle (h : Unauthenticated ui r a s) (hno : ¬ ContinuesSetup r s)
    (hpw : hasSimplePassword s = true) (body : ProtectedBody) {handler : Handler}
    (hroute : route r.method r.path = .ok handler) :
    Untouched a.now s (handle ui r a s body handler).1 := by
  -- the open handlers one by one; a guarded one sends an unauthenticated request away
  cases handler with
  | loginPage => exact untouched_loginPage h
  | login =>
    simp only [handle]
    split
    · next username password hu hp =>
      unfold login
      cases hauth : authenticate ui a s username password with
      | ok user => exact absurd ⟨hroute, username, password, user, hu, hp, hauth⟩ h.login
      | error e => exact Untouched.refl _ _
    · exact Untouched.refl _ _
  | setupPassword =>
    simp only [handle]
    split
    · rw [setupPassword_of_hasSimplePassword hpw]
      exact Untouched.refl _ _
    · exact Untouched.refl _ _
  | logout => exact untouched_logout h
  | setupStep2Test =>
    simp only [handle]
    split
    · exact untouched_setupStep2Test _ _ _
    · exact Untouched.refl _ _
  | setupStep2Continue =>
    simp only [handle]
    split
    -- what the wizard would write is excluded by the premise
    · next uri huri =>
      rw [setupStep2Continue_of_not fun hm => hno (Or.inl ⟨hroute, uri, huri, hm⟩)]
      exact Untouched.refl _ _
    · exact Untouched.refl _ _
  | setupStep3Test =>
    simp only [handle]
    split
    · exact untouched_setupStep3Test _ _ _ _ _
    · exact Untouched.refl _ _
  | setupStep3Continue =>
    simp only [handle]
    split
    · next dn pw hdn hpw' =>
      rw [setupStep3Continue_of_not fun hm => hno (Or.inr ⟨hroute, dn, pw, hdn, hpw', hm⟩)]
      exact Untouched.refl _ _
    · exact Untouched.refl _ _
  | guarded handler => exact untouched_guarded h body handler
  | _ => exact Untouched.refl _ _

/-- **No request without a live session touches anything**, once the password is set and it does not
continue the wizard. -/
theorem untouched_serve (h : Unauthenticated ui r a s) (hno : ¬ ContinuesSetup r s)
    (hpw : hasSimplePassword s = true) (body : ProtectedBody) :
    Untouched a.now s (serve ui r a s body).1 := by
  unfold serve
  split
  · exact Untouched.refl _ _
  · cases hroute : route r.method r.path with
    | error status => exact Untouched.refl _ _
    | ok handler => exact untouched_handle h hno hpw body hroute

end Step

/-! ## Runs -/

/-- **After setup, nothing without a session**: in a run of unauthenticated requests that never
continues the wizard, the config, the password and the recycles are the same in every state, and so
are the sessions that live on past the requests. -/
theorem unauthenticated_untouched {ui : WebUi} {body : ProtectedBody} {s : WebState}
    {run sofar : List (Request × Answers)} (hpw : hasSimplePassword s = true)
    (h : Uneventful ui body s run) (hsofar : sofar <+: run) {now : Nat}
    (hnow : ∀ x ∈ sofar, x.2.now ≤ now) : Untouched now s (serveAll ui body s sofar) := by
  induction sofar generalizing s run with
  | nil => exact Untouched.refl _ _
  | cons x sofar ih =>
    obtain ⟨rest, rfl⟩ := hsofar
    rw [List.forall_mem_cons] at hnow
    obtain ⟨hun, hno, hrest⟩ := h
    have hstep : Untouched x.2.now s (serve ui x.1 x.2 s body).1 := untouched_serve hun hno hpw body
    have hpw' : hasSimplePassword (serve ui x.1 x.2 s body).1 = true := by
      rw [hasSimplePassword, hstep.passwordFile]
      exact hpw
    exact (hstep.mono hnow.1).trans (ih hpw' hrest ⟨rest, rfl⟩ hnow.2)

/-! ## A wizard that goes on after setup -/

section Example

/-- The line a config with nothing but a URI consists of. -/
def uriLine (host : String) : Str := ("ldap_uri = \"ldaps://" ++ host ++ "\"\n").toList

/-- The document of that line. -/
def uriDoc (host : String) : Document := applyLdapUri ("ldaps://" ++ host).toList ∅

/-- The library at work when the URI moves from one host to another. -/
noncomputable def movedUriToml : TomlEdit :=
  .ofTexts [(uriLine "ldap.example", uriDoc "ldap.example"),
    (uriLine "evil.example", uriDoc "evil.example")] (by decide) (by decide)

/-- The editor reads the moved URI. -/
theorem parse_movedUriToml : movedUriToml.parse (uriLine "ldap.example") =
    some (uriDoc "ldap.example") :=
  TomlEdit.parse_ofTexts List.mem_cons_self

/-- Writing the other host over the first. -/
theorem writeLdapUri_moved :
    writeLdapUri movedUriToml true (.text (uriLine "ldap.example"))
      "ldaps://evil.example".toList = .text (uriLine "evil.example") := by
  have hdoc : applyLdapUri "ldaps://evil.example".toList (uriDoc "ldap.example") =
      uriDoc "evil.example" := Finmap.insert_insert _
  have hne : uriDoc "ldap.example" ≠ uriDoc "evil.example" := fun heq => by
    have hlookup := congrArg (Finmap.lookup "ldap_uri".toList) heq
    simp only [uriDoc, applyLdapUri, Document.setKey, if_true, Finmap.lookup_insert] at hlookup
    exact absurd hlookup (by decide +kernel)
  have hparse : parseOrEmpty movedUriToml (.text (uriLine "ldap.example")) =
      uriDoc "ldap.example" := by
    rw [parseOrEmpty, ConfFile.readToString, Option.getD_some, parse_movedUriToml,
      Option.getD_some]
  rw [writeLdapUri, hparse, hdoc, atomicWriteConfig, if_pos rfl]
  refine congrArg ConfFile.text (TomlEdit.render_ofTexts ?_ ?_ _)
  · exact List.mem_cons_of_mem _ List.mem_cons_self
  · exact List.nodup_cons.mpr ⟨by simpa using hne, List.nodup_singleton _⟩

/-- A WebUI that never hashes. -/
noncomputable def movedUriUi : WebUi where
  env := .ascii
  toml := movedUriToml
  sha256 := id
  sessionTtl := 43200
  timing := ⟨1400, 90000⟩

/-- Setup is complete, and `localhost` has a password. -/
def completeState : WebState where
  conf := .text (uriLine "ldap.example")
  passwordFile := .text "00:00\n".toList
  sessions := .empty
  setupMarker := true

/-- Every server can be reached, and no login is accepted. -/
def reachableAnswers : Answers where
  now := 1
  keytab := true
  persistent := true
  recycled := false
  reachability := .reachable
  bind := .error "Invalid credentials (49)".toList
  admin := .error "Invalid credentials (49)".toList
  confFailure := none
  passwordFailure := none
  markerWritten := true
  token := []
  salt := []

/-- A form of step 2, without a cookie. -/
def step2Request (path host : String) : Request where
  method := .post
  path := path.toList
  form := some [("ldap_uri".toList, ("ldaps://" ++ host).toList)]

/-- The state after a passed test of the other host. -/
def testedState : WebState :=
  completeState.withStep2Test (some "ldaps://evil.example".toList)

variable (body : ProtectedBody)

/-- The wizard passes a form on to the test, although setup is complete. -/
theorem serve_step2Test_evil :
    (serve movedUriUi (step2Request "/setup/2/test" "evil.example") reachableAnswers completeState
      body).1 = testedState := by
  have hexempt : setupExempt (step2Request "/setup/2/test" "evil.example").path = true := by
    decide +kernel
  have hroute : route .post "/setup/2/test".toList = .ok .setupStep2Test := by decide +kernel
  have hfield : (step2Request "/setup/2/test" "evil.example").field "ldap_uri" =
      some "ldaps://evil.example".toList := by decide +kernel
  have hvalid : validateLdapUri "ldaps://evil.example".toList =
      .ok "ldaps://evil.example".toList := by decide +kernel
  have htrim : trim "ldaps://evil.example".toList = "ldaps://evil.example".toList := by
    decide +kernel
  rw [serve, hexempt, Bool.not_true, Bool.false_and, if_neg Bool.false_ne_true]
  simp only [step2Request] at hfield ⊢
  simp only [hroute, handle, hfield, setupStep2Test, hvalid, reachableAnswers, htrim]
  rfl

/-- `continue` saves the other host. -/
theorem serve_step2Continue_evil :
    (serve movedUriUi (step2Request "/setup/2/continue" "evil.example") reachableAnswers testedState
      body).1.conf = .text (uriLine "evil.example") := by
  have hexempt : setupExempt (step2Request "/setup/2/continue" "evil.example").path = true := by
    decide +kernel
  have hroute : route .post "/setup/2/continue".toList = .ok .setupStep2Continue := by
    decide +kernel
  have hfield : (step2Request "/setup/2/continue" "evil.example").field "ldap_uri" =
      some "ldaps://evil.example".toList := by decide +kernel
  have hvalid : validateLdapUri "ldaps://evil.example".toList =
      .ok "ldaps://evil.example".toList := by decide +kernel
  have hmatch : step2TestMatches testedState.setupTest.step2Uri "ldaps://evil.example".toList =
      true := by decide +kernel
  rw [serve, hexempt, Bool.not_true, Bool.false_and, if_neg Bool.false_ne_true]
  simp only [step2Request] at hfield ⊢
  simp only [hroute, handle, hfield, setupStep2Continue, hvalid, hmatch, reachableAnswers,
    Bool.not_true, Bool.false_eq_true, if_false]
  exact writeLdapUri_moved

/-- Requests to the wizard without a cookie are unauthenticated. -/
theorem unauthenticated_step2Request {path : String} (host : String) {s : WebState}
    (hs : s.sessions = .empty) (h : route .post path.toList ≠ .ok .login) :
    Unauthenticated movedUriUi (step2Request path host) reachableAnswers s := by
  refine ⟨?_, fun hlogin => h hlogin.1⟩
  rw [hs]
  rfl

/-- No protected handler does anything. -/
def idleBody : ProtectedBody := fun _ _ _ _ s => (s, .html 200 none)

/-- **The wizard goes on**: two requests without a session, and the config names another server. -/
theorem not_untouched_wizard :
    completeState.setupMarker = true ∧ hasSimplePassword completeState = true ∧
      Unauthenticated movedUriUi (step2Request "/setup/2/test" "evil.example") reachableAnswers
        completeState ∧
      Unauthenticated movedUriUi (step2Request "/setup/2/continue" "evil.example") reachableAnswers
        (serve movedUriUi (step2Request "/setup/2/test" "evil.example") reachableAnswers
          completeState idleBody).1 ∧
      ¬ Untouched 1 completeState
        (serveAll movedUriUi idleBody completeState
          [(step2Request "/setup/2/test" "evil.example", reachableAnswers),
            (step2Request "/setup/2/continue" "evil.example", reachableAnswers)]) := by
  refine ⟨rfl, rfl, unauthenticated_step2Request _ rfl (by decide +kernel), ?_, fun h => ?_⟩
  · rw [serve_step2Test_evil]
    exact unauthenticated_step2Request _ rfl (by decide +kernel)
  · have hconf := h.conf
    rw [serveAll, List.foldl_cons, List.foldl_cons, List.foldl_nil, serve_step2Test_evil,
      serve_step2Continue_evil] at hconf
    exact absurd hconf (by decide +kernel)

/-- A test of one server, and a `continue` with another. -/
def untestedRun : List (Request × Answers) :=
  [(step2Request "/setup/2/test" "evil.example", reachableAnswers),
    (step2Request "/setup/2/continue" "other.example", reachableAnswers)]

/-- No request of this run is authenticated, and none continues the wizard. -/
theorem uneventful_untestedRun : Uneventful movedUriUi idleBody completeState untestedRun := by
  have hfield : (step2Request "/setup/2/continue" "other.example").field "ldap_uri" =
      some "ldaps://other.example".toList := by decide +kernel
  have hvalid : validateLdapUri "ldaps://other.example".toList =
      .ok "ldaps://other.example".toList := by decide +kernel
  refine ⟨unauthenticated_step2Request _ rfl (by decide +kernel), ?_, ?_, ?_, trivial⟩
  · rintro (⟨hroute, -⟩ | ⟨hroute, -⟩)
    · exact absurd hroute (by decide +kernel)
    · exact absurd hroute (by decide +kernel)
  · rw [serve_step2Test_evil]
    exact unauthenticated_step2Request _ rfl (by decide +kernel)
  · rw [serve_step2Test_evil]
    rintro (⟨-, uri, huri, u, hu, hmatch⟩ | ⟨hroute, -⟩)
    · cases hfield.symm.trans huri
      cases hvalid.symm.trans hu
      exact absurd hmatch (by decide +kernel)
    · exact absurd hroute (by decide +kernel)

/-- A `continue` with a server that was not tested stalls. -/
theorem untouched_untestedRun :
    hasSimplePassword completeState = true ∧ completeState.setupMarker = true ∧
      Untouched 1 completeState (serveAll movedUriUi idleBody completeState untestedRun) :=
  ⟨rfl, rfl, unauthenticated_untouched rfl uneventful_untestedRun List.prefix_rfl
    (by simp [untestedRun, reachableAnswers])⟩

end Example

end NfsKlldap
