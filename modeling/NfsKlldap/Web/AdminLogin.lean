import NfsKlldap.Ldap.Staleness

/-! # Who is let in as an administrator (`ldap.rs`, `web/auth.rs`)

A login that is not for `localhost` binds with the password that was typed and then looks for the user in
the admin group: in the `memberOf` values that the last verified login left in a slot, or else by a search.
Handlers share one client, so that other logins, refreshes and sweeps come between any two of these steps.

* **`verifyUserIsAdmin`**, **`verifyAdminGroupMembershipLive`** — the two checks;
* `AdminLogin.advance` — a login, up to the next place where others may come in between;
* **`advance_alone`** — left alone, the steps are `verifyUserIsAdmin`;
* `LoginDesk.step` — logins and everything else that uses the client, in any order;
* **`LoginDesk.granted_backed`** — what stands behind every login that is granted. -/

namespace NfsKlldap

open Text Runs Staleness

/-! ## Searches that are not cached -/

namespace ResolverEnv

variable (env : ResolverEnv)

/-- A search for DNs only. -/
def dnOnlySearch (base objectClass attr value : Str) : Search :=
  ⟨base, objectClass, some (attr, escapeLdapFilter value), ["1.1".toList]⟩

/-- The search for the DN of a user. -/
def userDnSearch (name : Str) : Search :=
  dnOnlySearch env.userBase env.attrs.userObjectClass env.attrs.userName name

/-- The search for the DN of a group. -/
def groupDnSearch (name : Str) : Search :=
  dnOnlySearch env.groupBase env.attrs.groupObjectClass env.attrs.groupName name

/-- The users whose `memberOf` has a DN. -/
def memberSearch (groupDn : Str) : Search :=
  dnOnlySearch env.userBase env.attrs.userObjectClass "memberOf".toList groupDn

/-- `lookup_first_dn` -/
def lookupFirstDn (req : Search) (r : Resolver) : Option Str × Resolver :=
  let (entries, r) := env.serviceSearch req r
  ((entries.bind List.head?).map SearchEntry.dn, r)

/-- `lookup_group_dn` -/
def lookupGroupDn (groupName : Str) : Resolver → Option Str × Resolver :=
  env.lookupFirstDn (env.groupDnSearch groupName)

/-- `resolve_user_dn` of the client. -/
def resolveUserDn (name : Str) : Resolver → Option Str × Resolver :=
  env.lookupFirstDn (env.userDnSearch name)

/-- `user_dn_memberof_check`: `none` when the search fails. -/
def userDnMemberofCheck (userDn groupDn : Str) (r : Resolver) : Option Bool × Resolver :=
  let (entries, r) := env.serviceSearch (env.memberSearch groupDn) r
  (entries.map fun es => es.any fun e => eqIgnoreAsciiCase e.dn userDn, r)

end ResolverEnv

/-! ## The client -/

/-- The client of the web interface. -/
structure LdapClient where
  /-- DN and password of the service account, once it is configured. -/
  serviceCreds : Option (Str × Str)
  resolver : Resolver
  /-- `last_verified_memberofs`: a user name, the values, and when they were recorded. -/
  lastVerified : Option (Str × List Str × Nat)
  /-- When passwords were tried. -/
  bindTimes : List Nat

namespace LdapClient

/-- How long values stay in the slot once a sweep comes by. -/
def verifiedTtl : Nat := 120 * 10 ^ 9

/-- `with_identity` -/
def withIdentity {α : Type} (f : Resolver → Option α × Resolver) (c : LdapClient) :
    Option α × LdapClient :=
  match c.serviceCreds with
  | none => (none, c)
  | some _ =>
    let (a, r) := f c.resolver
    (a, { c with resolver := r })

/-- `record_verified_memberofs` -/
def recordVerifiedMemberofs (now : Nat) (username : Str) (memberofs : List Str) (c : LdapClient) :
    LdapClient :=
  { c with lastVerified := some (username, memberofs, now) }

/-- `has_recent_memberof`; the age of the slot is not looked at. -/
def hasRecentMemberof (username groupDn : Str) (c : LdapClient) : Bool :=
  c.lastVerified.any fun v =>
    eqIgnoreAsciiCase v.1 username && v.2.1.any fun m => eqIgnoreAsciiCase m groupDn

/-- `evict_expired` of the client. -/
def evictExpired (now : Nat) (c : LdapClient) : LdapClient :=
  { c with
    resolver := c.resolver.evictExpired now
    lastVerified := c.lastVerified.filter fun v => now - v.2.2 < verifiedTtl }

/-- `clear_cache` -/
def clearCache (c : LdapClient) : LdapClient :=
  { c with resolver := c.resolver.clearCaches, lastVerified := none }

end LdapClient

/-! ## The checks -/

/-- The directory that logins are checked against: the searches, and the answers to passwords, by the
number of the attempt. -/
structure LoginEnv extends ResolverEnv where
  bind : Nat → Str → Str → Bool

namespace LoginEnv

variable (env : LoginEnv) (now : Nat)

/-- `try_simple_bind` -/
def trySimpleBind (dn pw : Str) (c : LdapClient) : Bool × LdapClient :=
  (env.bind c.bindTimes.length dn pw, { c with bindTimes := c.bindTimes ++ [now] })

/-- What a login is told whose name is not found. -/
def userNotFound : Str := "user not found or service account lacks permission to search".toList

/-- What a login is told whose password is refused. -/
def bindFailed : Str := "Invalid username or password (KLLDAP/LDAP bind failed)".toList

/-- What a login is told that is not in the admin group. -/
def notAMember (username adminGroup : Str) : Str :=
  "Access denied: '".toList ++ username ++ "' is not a member of the '".toList ++ adminGroup ++
    "' group.".toList

/-- `verify_user_credentials` -/
def verifyUserCredentials (username password : Str) (c : LdapClient) : Except Str Unit × LdapClient :=
  match c.withIdentity (env.lookupUserDnAndMemberof now username) with
  | (none, c) => (.error userNotFound, c)
  | (some (userDn, memberofs), c) =>
    match env.trySimpleBind now userDn password c with
    | (true, c) => (.ok (), c.recordVerifiedMemberofs now username memberofs)
    | (false, c) => (.error bindFailed, c)

/-- `user_is_member_of` -/
def userIsMemberOf (username groupName : Str) (c : LdapClient) : Bool × LdapClient :=
  match c.withIdentity (env.lookupGroupDn groupName) with
  | (none, c) => (false, c)
  | (some groupDn, c) =>
    if groupDn = [] then (false, c)
    else if c.hasRecentMemberof username groupDn then (true, c)
    else
      match c.withIdentity (env.resolveUserDn username) with
      | (none, c) => (false, c)
      | (some userDn, c) =>
        let (found, c) := c.withIdentity (env.userDnMemberofCheck userDn groupDn)
        (found.getD false, c)

/-- `verify_user_is_admin` -/
def verifyUserIsAdmin (username password adminGroup : Str) (c : LdapClient) :
    Except Str Unit × LdapClient :=
  match env.verifyUserCredentials now username password c with
  | (.error e, c) => (.error e, c)
  | (.ok (), c) =>
    match env.userIsMemberOf username adminGroup c with
    | (true, c) => (.ok (), c)
    | (false, c) => (.error (notAMember username adminGroup), c)

/-- `verify_admin_group_membership_live` -/
def verifyAdminGroupMembershipLive (username adminGroup : Str) (c : LdapClient) :
    Except Str Unit × LdapClient :=
  if c.serviceCreds = none then
    (.error ("LDAP service credentials are not configured; " ++
      "cannot verify admin membership").toList, c)
  else
    match c.withIdentity (env.lookupGroupDn adminGroup) with
    | (groupDn, c) =>
      match groupDn.filter (· ≠ []) with
      | none =>
        (.error ("could not resolve admin group '".toList ++ adminGroup ++
          "' (LDAP unreachable or group missing)".toList), c)
      | some groupDn =>
        match c.withIdentity (env.resolveUserDn username) with
        | (none, c) =>
          (.error ("could not resolve user '".toList ++ username ++
            "' (LDAP unreachable or user missing)".toList), c)
        | (some userDn, c) =>
          match c.withIdentity (env.userDnMemberofCheck userDn groupDn) with
          | (some true, c) => (.ok (), c)
          | (some false, c) =>
            (.error ('\'' :: username ++ "' is not a member of '".toList ++ adminGroup ++ ['\'']), c)
          | (none, c) => (.error "LDAP membership check failed: ".toList, c)

end LoginEnv

/-! ## The live check -/

/-- The DN that a search finds first. -/
def ResolverEnv.firstDn (env : ResolverEnv) (n : Nat) (req : Search) : Option Str :=
  ((env.search n req).bind List.head?).map SearchEntry.dn

/-- **The live check passes for what three searches find**, one after the other: whatever is cached or in
the slot plays no part in it. -/
theorem LoginEnv.verifyAdminGroupMembershipLive_iff (env : LoginEnv) (username adminGroup : Str)
    (c : LdapClient) : (env.verifyAdminGroupMembershipLive username adminGroup c).1 = .ok () ↔
      c.serviceCreds ≠ none ∧ ∃ groupDn userDn entries,
        env.firstDn c.resolver.searches (env.groupDnSearch adminGroup) = some groupDn ∧ groupDn ≠ [] ∧
        env.firstDn (c.resolver.searches + 1) (env.userDnSearch username) = some userDn ∧
        env.search (c.resolver.searches + 2) (env.memberSearch groupDn) = some entries ∧
        ∃ e ∈ entries, eqIgnoreAsciiCase e.dn userDn = true := by
  obtain ⟨creds, r, slot, binds⟩ := c
  rw [LoginEnv.verifyAdminGroupMembershipLive]
  cases creds with
  | none =>
    rw [if_pos rfl]
    exact ⟨(fun h => by cases h), fun h => absurd rfl h.1⟩
  | some creds =>
    -- the three searches, each with the number it has
    have hgroup : (LdapClient.mk (some creds) r slot binds).withIdentity (env.lookupGroupDn adminGroup) =
        (env.firstDn r.searches (env.groupDnSearch adminGroup),
          ⟨some creds, { r with searches := r.searches + 1 }, slot, binds⟩) := rfl
    have huser : (LdapClient.mk (some creds) { r with searches := r.searches + 1 } slot
        binds).withIdentity (env.resolveUserDn username) =
        (env.firstDn (r.searches + 1) (env.userDnSearch username),
          ⟨some creds, { r with searches := r.searches + 2 }, slot, binds⟩) := rfl
    have hmember : ∀ userDn groupDn, (LdapClient.mk (some creds) { r with searches := r.searches + 2 }
        slot binds).withIdentity (env.userDnMemberofCheck userDn groupDn) =
        ((env.search (r.searches + 2) (env.memberSearch groupDn)).map fun es =>
            es.any fun e => eqIgnoreAsciiCase e.dn userDn,
          ⟨some creds, { r with searches := r.searches + 3 }, slot, binds⟩) := fun _ _ => rfl
    rw [if_neg (Option.some_ne_none creds), hgroup]
    dsimp only
    rw [huser]
    constructor
    -- each of them has to answer for the check to go on
    · intro hok
      refine ⟨Option.some_ne_none creds, ?_⟩
      cases hg : env.firstDn r.searches (env.groupDnSearch adminGroup) with
      | none =>
        rw [hg] at hok
        cases hok
      | some groupDn =>
        by_cases hempty : groupDn = []
        · rw [hg, Option.filter_some, if_neg (by simp [hempty])] at hok
          cases hok
        rw [hg, Option.filter_some, if_pos (decide_eq_true hempty)] at hok
        cases hu : env.firstDn (r.searches + 1) (env.userDnSearch username) with
        | none =>
          rw [hu] at hok
          cases hok
        | some userDn =>
          rw [hu] at hok
          dsimp only at hok
          rw [hmember] at hok
          cases hs : env.search (r.searches + 2) (env.memberSearch groupDn) with
          | none =>
            rw [hs] at hok
            cases hok
          | some entries =>
            rw [hs, Option.map_some] at hok
            refine ⟨groupDn, userDn, entries, rfl, hempty, rfl, hs, ?_⟩
            cases hany : entries.any fun e => eqIgnoreAsciiCase e.dn userDn with
            | false =>
              rw [hany] at hok
              cases hok
            | true => exact List.any_eq_true.mp hany
    · rintro ⟨-, groupDn, userDn, entries, hg, hne, hu, hs, hmem⟩
      rw [hg, Option.filter_some, if_pos (decide_eq_true hne)]
      dsimp only
      rw [hu]
      dsimp only
      rw [hmember, hs, Option.map_some, List.any_eq_true.mpr hmem]

/-! ## A login, step by step -/

/-- A login that was submitted. -/
structure AdminLogin where
  username : Str
  password : Str
  since : Nat

/-- How far a login is. -/
inductive LoginPhase
  | arrived
  | found (userDn : Str) (memberofs : List Str)
  /-- The password was right, the values are not recorded yet. -/
  | bound (userDn : Str) (memberofs : List Str)
  | verified
  | inGroup (groupDn : Str)
  /-- The slot has no value for it. -/
  | unlisted (groupDn : Str)
  | known (groupDn userDn : Str)
  | granted
  | denied (reason : Str)

/-- What the browser is told in the end. -/
def LoginPhase.outcome : LoginPhase → Option (Except Str Unit)
  | .granted => some (.ok ())
  | .denied reason => some (.error reason)
  | _ => none

/-- **One step of a login.** -/
def AdminLogin.advance (env : LoginEnv) (adminGroup : Str) (now : Nat) (l : AdminLogin) :
    LoginPhase → LdapClient → LoginPhase × LdapClient
  | .arrived, c =>
    match c.withIdentity (env.lookupUserDnAndMemberof now l.username) with
    | (none, c) => (.denied LoginEnv.userNotFound, c)
    | (some (userDn, memberofs), c) => (.found userDn memberofs, c)
  | .found userDn memberofs, c =>
    match env.trySimpleBind now userDn l.password c with
    | (true, c) => (.bound userDn memberofs, c)
    | (false, c) => (.denied LoginEnv.bindFailed, c)
  | .bound _ memberofs, c => (.verified, c.recordVerifiedMemberofs now l.username memberofs)
  | .verified, c =>
    match c.withIdentity (env.lookupGroupDn adminGroup) with
    | (none, c) => (.denied (LoginEnv.notAMember l.username adminGroup), c)
    | (some groupDn, c) =>
      if groupDn = [] then (.denied (LoginEnv.notAMember l.username adminGroup), c)
      else (.inGroup groupDn, c)
  | .inGroup groupDn, c =>
    if c.hasRecentMemberof l.username groupDn then (.granted, c) else (.unlisted groupDn, c)
  | .unlisted groupDn, c =>
    match c.withIdentity (env.resolveUserDn l.username) with
    | (none, c) => (.denied (LoginEnv.notAMember l.username adminGroup), c)
    | (some userDn, c) => (.known groupDn userDn, c)
  | .known groupDn userDn, c =>
    match c.withIdentity (env.userDnMemberofCheck userDn groupDn) with
    | (some true, c) => (.granted, c)
    | (_, c) => (.denied (LoginEnv.notAMember l.username adminGroup), c)
  | .granted, c => (.granted, c)
  | .denied reason, c => (.denied reason, c)

/-- A login that nobody comes in between, after a number of steps. -/
def AdminLogin.alone (env : LoginEnv) (adminGroup : Str) (now : Nat) (l : AdminLogin) :
    Nat → LoginPhase × LdapClient → LoginPhase × LdapClient
  | 0, p => p
  | n + 1, p => l.alone env adminGroup now n (l.advance env adminGroup now p.1 p.2)

/-! ## Logins side by side -/

/-- What happens to the client. -/
inductive DeskEvent (ι : Type)
  | submit (i : ι) (username password : Str)
  | advance (i : ι)
  /-- Whatever else goes through `with_identity`. -/
  | use (u : ResolverUse)
  | evictExpired
  | clearCache

/-- The client, the logins, when searches were made, and all that was ever recorded in the slot: when, by
which login, and which values. -/
structure LoginDesk (ι : Type) where
  now : Nat
  times : List Nat
  client : LdapClient
  logins : ι → Option (AdminLogin × LoginPhase)
  recorded : List (Nat × AdminLogin × List Str)

namespace LoginDesk

variable {ι : Type} [DecidableEq ι]

/-- The desk when the client has been used. -/
def after (s : LoginDesk ι) (now : Nat) (c : LdapClient) : LoginDesk ι :=
  { s with now, client := c, times := searchTimes s.times now c.resolver.searches }

/-- **One event**, some time later. -/
def step (env : LoginEnv) (adminGroup : Str) (s : LoginDesk ι) (e : Nat × DeskEvent ι) : LoginDesk ι :=
  let now := s.now + e.1
  match e.2 with
  | .submit i username password =>
    { s with now, logins := Function.update s.logins i (some (⟨username, password, now⟩, .arrived)) }
  | .advance i =>
    match s.logins i with
    | none => { s with now }
    | some (l, phase) =>
      let (phase', c) := l.advance env adminGroup now phase s.client
      { s.after now c with
        logins := Function.update s.logins i (some (l, phase'))
        recorded :=
          match phase with
          | .bound _ memberofs => (now, l, memberofs) :: s.recorded
          | _ => s.recorded }
  | .use u =>
    s.after now (s.client.withIdentity fun r => (some (), env.use r now u)).2
  | .evictExpired => s.after now (s.client.evictExpired now)
  | .clearCache => s.after now s.client.clearCache

end LoginDesk

/-! ## A login that is left alone -/

section Alone

variable (env : LoginEnv) (adminGroup : Str) (now : Nat) (l : AdminLogin)

/-- A granted login is done. -/
theorem alone_granted (n : Nat) (c : LdapClient) :
    l.alone env adminGroup now n (.granted, c) = (.granted, c) := by
  induction n with
  | zero => rfl
  | succ n ih => exact ih

/-- A denied login is done. -/
theorem alone_denied (n : Nat) (reason : Str) (c : LdapClient) :
    l.alone env adminGroup now n (.denied reason, c) = (.denied reason, c) := by
  induction n with
  | zero => rfl
  | succ n ih => exact ih

/-- How a login ends, by the membership. -/
def AdminLogin.close : Bool × LdapClient → LoginPhase × LdapClient
  | (true, c) => (.granted, c)
  | (false, c) => (.denied (LoginEnv.notAMember l.username adminGroup), c)

/-- The membership of a login that is left alone. -/
theorem alone_verified (c : LdapClient) : l.alone env adminGroup now 4 (.verified, c) =
    l.close adminGroup (env.userIsMemberOf l.username adminGroup c) := by
  rw [AdminLogin.alone, AdminLogin.advance, LoginEnv.userIsMemberOf]
  rcases c.withIdentity (env.lookupGroupDn adminGroup) with ⟨_ | groupDn, c₁⟩
  · exact alone_denied env adminGroup now l 3 _ _
  dsimp only
  by_cases hempty : groupDn = []
  · rw [if_pos hempty, if_pos hempty]
    exact alone_denied env adminGroup now l 3 _ _
  rw [if_neg hempty, if_neg hempty, AdminLogin.alone, AdminLogin.advance]
  by_cases hlisted : c₁.hasRecentMemberof l.username groupDn = true
  · rw [if_pos hlisted, if_pos hlisted]
    exact alone_granted env adminGroup now l 2 _
  rw [if_neg hlisted, if_neg hlisted, AdminLogin.alone, AdminLogin.advance]
  rcases c₁.withIdentity (env.resolveUserDn l.username) with ⟨_ | userDn, c₂⟩
  · exact alone_denied env adminGroup now l 1 _ _
  dsimp only
  rw [AdminLogin.alone, AdminLogin.advance]
  rcases c₂.withIdentity (env.userDnMemberofCheck userDn groupDn) with ⟨_ | _ | _, c₃⟩
  · rfl
  · rfl
  · rfl

/-- **Left alone, the steps are `verify_user_is_admin`.** -/
theorem advance_alone (c : LdapClient) : ∃ phase,
    l.alone env adminGroup now 7 (.arrived, c) =
      (phase, (env.verifyUserIsAdmin now l.username l.password adminGroup c).2) ∧
    phase.outcome = some (env.verifyUserIsAdmin now l.username l.password adminGroup c).1 := by
  rw [AdminLogin.alone, AdminLogin.advance, LoginEnv.verifyUserIsAdmin, LoginEnv.verifyUserCredentials]
  rcases c.withIdentity (env.lookupUserDnAndMemberof now l.username) with ⟨_ | ⟨userDn, memberofs⟩, c₁⟩
  · exact ⟨_, alone_denied env adminGroup now l 6 _ _, rfl⟩
  dsimp only
  rw [AdminLogin.alone, AdminLogin.advance]
  rcases env.trySimpleBind now userDn l.password c₁ with ⟨_ | _, c₂⟩
  · exact ⟨_, alone_denied env adminGroup now l 5 _ _, rfl⟩
  dsimp only
  rw [AdminLogin.alone, AdminLogin.advance]
  rw [alone_verified]
  rcases env.userIsMemberOf l.username adminGroup
    (c₂.recordVerifiedMemberofs now l.username memberofs) with ⟨_ | _, c₃⟩
  · exact ⟨_, rfl, rfl⟩
  · exact ⟨_, rfl, rfl⟩

end Alone

/-! ## What stands behind a login -/

/-- A search that was made since some time found this DN first. -/
def ResolverEnv.FoundFirst (env : ResolverEnv) (times : List Nat) (since : Nat) (req : Search) (dn : Str) : Prop :=
  ∃ n t entries, times[n]? = some t ∧ since ≤ t ∧ env.search n req = some entries ∧
    (entries.head?.map SearchEntry.dn) = some dn

/-- A search that was made since some time found the user among those with the group in `memberOf`. -/
def ResolverEnv.FoundMember (env : ResolverEnv) (times : List Nat) (since : Nat) (userDn groupDn : Str) : Prop :=
  ∃ t se, since ≤ t ∧ env.Returned times t (env.memberSearch groupDn) se ∧
    eqIgnoreAsciiCase se.dn userDn = true

namespace LoginDesk

variable {ι : Type} (env : LoginEnv) (adminGroup : Str) (s : LoginDesk ι)

/-- **A login that proved its password**: the DN and the values were said of its name, at most ten minutes
before it came in, and the server has accepted the password for the DN since. -/
structure Proved (l : AdminLogin) (userDn : Str) (memberofs : List Str) : Prop where
  said : Lately l.since identityCacheTtl fun t =>
    env.MemberofSaid s.times t l.username userDn memberofs
  accepted : ∃ n t, s.client.bindTimes[n]? = some t ∧ l.since ≤ t ∧
    env.bind n userDn l.password = true

/-- **Why a login counts as a member** of a group: by values that have been recorded since it came in, of a
login with its name in any case that proved its own password, or by searches made since. -/
inductive Member (l : AdminLogin) (groupDn : Str) : Prop
  | listed (t : Nat) (l' : AdminLogin) (userDn : Str) (memberofs : List Str) (m : Str)
    (hrecorded : (t, l', memberofs) ∈ s.recorded) (hsince : l.since ≤ t)
    (hproved : s.Proved env l' userDn memberofs)
    (hname : eqIgnoreAsciiCase l'.username l.username = true) (hm : m ∈ memberofs)
    (hgroup : eqIgnoreAsciiCase m groupDn = true)
  | searched (userDn : Str)
    (huser : env.FoundFirst s.times l.since (env.userDnSearch l.username) userDn)
    (hmember : env.FoundMember s.times l.since userDn groupDn)

/-- The DN of the admin group, as it was found since the login came in. -/
structure AdminGroup (l : AdminLogin) (groupDn : Str) : Prop where
  nonempty : groupDn ≠ []
  found : env.FoundFirst s.times l.since (env.groupDnSearch adminGroup) groupDn

/-- **What stands behind a login that is granted.** -/
structure Admitted (l : AdminLogin) : Prop where
  proved : ∃ userDn memberofs, s.Proved env l userDn memberofs
  member : ∃ groupDn, s.AdminGroup env adminGroup l groupDn ∧ s.Member env l groupDn

/-- What is in the slot has been recorded since the login came in. -/
def SlotSince (l : AdminLogin) : Prop := ∀ v ∈ s.client.lastVerified, l.since ≤ v.2.2

/-- What is known of a login in a phase. -/
def Reached (l : AdminLogin) : LoginPhase → Prop
  | .arrived | .denied _ => True
  | .found userDn memberofs => Lately l.since identityCacheTtl fun t =>
    env.MemberofSaid s.times t l.username userDn memberofs
  | .bound userDn memberofs => s.Proved env l userDn memberofs
  | .verified => (∃ userDn memberofs, s.Proved env l userDn memberofs) ∧ s.SlotSince l
  | .inGroup groupDn => (∃ userDn memberofs, s.Proved env l userDn memberofs) ∧ s.SlotSince l ∧
    s.AdminGroup env adminGroup l groupDn
  | .unlisted groupDn => (∃ userDn memberofs, s.Proved env l userDn memberofs) ∧
    s.AdminGroup env adminGroup l groupDn
  | .known groupDn userDn => (∃ userDn memberofs, s.Proved env l userDn memberofs) ∧
    s.AdminGroup env adminGroup l groupDn ∧
    env.FoundFirst s.times l.since (env.userDnSearch l.username) userDn
  | .granted => s.Admitted env adminGroup l

/-- **The desk is sound**: behind every login stands what its phase says, and behind every recorded value a
login that proved its password. -/
structure Sound : Prop where
  idle : Idle env.toResolverEnv s.times s.now s.client.resolver
  recorded : ∀ e ∈ s.recorded, ∃ userDn, s.Proved env e.2.1 userDn e.2.2
  slot : ∀ v ∈ s.client.lastVerified, ∃ l, (v.2.2, l, v.2.1) ∈ s.recorded ∧ l.username = v.1
  logins : ∀ i l phase, s.logins i = some (l, phase) → l.since ≤ s.now ∧ s.Reached env adminGroup l phase

end LoginDesk

/-- What is said lately was said lately before, too. -/
theorem Lately.of_le {now since age : Nat} {said : Nat → Prop} (h : Lately now age said)
    (hle : since ≤ now) : Lately since age said := by
  obtain ⟨t, ht, hsaid⟩ := h
  exact ⟨t, by omega, hsaid⟩

/-! ## What remains known -/

section Remain

variable {env : LoginEnv} {adminGroup : Str} {times times' : List Nat} {since since' : Nat}
  {ι : Type} {s s' : LoginDesk ι} {l : AdminLogin}

/-- What was found since a time was found since any earlier one. -/
theorem ResolverEnv.FoundFirst.mono (htimes : times <+: times') {req : Search} {dn : Str} (hsince : since' ≤ since)
    (h : env.FoundFirst times since req dn) :
    env.FoundFirst times' since' req dn := by
  obtain ⟨n, t, entries, ht, hle, hsearch, hhead⟩ := h
  obtain ⟨later, rfl⟩ := htimes
  refine ⟨n, t, entries, ?_, hsince.trans hle, hsearch, hhead⟩
  rw [List.getElem?_append_left (List.getElem?_eq_some_iff.mp ht).1, ht]

/-- So was a membership. -/
theorem ResolverEnv.FoundMember.mono (htimes : times <+: times') {userDn groupDn : Str} (hsince : since' ≤ since)
    (h : env.FoundMember times since userDn groupDn) :
    env.FoundMember times' since' userDn groupDn := by
  obtain ⟨t, se, hle, hreturned, heq⟩ := h
  exact ⟨t, se, hsince.trans hle, hreturned.mono htimes, heq⟩

namespace LoginDesk

/-- A later desk: the logs have grown, and what is in the slot is what was there or has been recorded
since. -/
structure Later (s s' : LoginDesk ι) : Prop where
  times : s.times <+: s'.times
  binds : s.client.bindTimes <+: s'.client.bindTimes
  recorded : ∀ e ∈ s.recorded, e ∈ s'.recorded
  slot : ∀ v ∈ s'.client.lastVerified, v ∈ s.client.lastVerified ∨ s.now ≤ v.2.2

/-- A login that has proved its password has proved it later, too. -/
theorem Proved.later (hlater : Later s s') {userDn : Str} {memberofs : List Str}
    (h : s.Proved env l userDn memberofs) : s'.Proved env l userDn memberofs := by
  refine ⟨h.said.mono le_rfl fun t hsaid => hsaid.mono hlater.times, ?_⟩
  obtain ⟨n, t, ht, hle, hbind⟩ := h.accepted
  obtain ⟨later, hbinds⟩ := hlater.binds
  refine ⟨n, t, ?_, hle, hbind⟩
  rw [← hbinds, List.getElem?_append_left (List.getElem?_eq_some_iff.mp ht).1, ht]

/-- A group that was found was found later, too. -/
theorem AdminGroup.later (hlater : Later s s') {groupDn : Str}
    (h : s.AdminGroup env adminGroup l groupDn) : s'.AdminGroup env adminGroup l groupDn :=
  ⟨h.nonempty, h.found.mono hlater.times le_rfl⟩

/-- A member that was found was found later, too. -/
theorem Member.later (hlater : Later s s') {groupDn : Str} (h : s.Member env l groupDn) :
    s'.Member env l groupDn := by
  cases h with
  | listed t l' userDn memberofs m hrecorded hsince hproved hname hm hgroup =>
    exact .listed t l' userDn memberofs m (hlater.recorded _ hrecorded) hsince (hproved.later hlater)
      hname hm hgroup
  | searched userDn huser hmember =>
    exact .searched userDn (huser.mono hlater.times le_rfl) (hmember.mono hlater.times le_rfl)

/-- A slot that was recorded since a login came in stays so. -/
theorem SlotSince.later (hlater : Later s s') (hsince : l.since ≤ s.now) (h : s.SlotSince l) :
    s'.SlotSince l := by
  intro v hv
  rcases hlater.slot v hv with hold | hnew
  · exact h v hold
  · exact hsince.trans hnew

/-- **What is known of a login stays known**, whatever the others do. -/
theorem Reached.later (hlater : Later s s') (hsince : l.since ≤ s.now) {phase : LoginPhase}
    (h : s.Reached env adminGroup l phase) : s'.Reached env adminGroup l phase := by
  have hproved : (∃ userDn memberofs, s.Proved env l userDn memberofs) →
      ∃ userDn memberofs, s'.Proved env l userDn memberofs := by
    rintro ⟨userDn, memberofs, hproved⟩
    exact ⟨userDn, memberofs, hproved.later hlater⟩
  cases phase with
  | arrived => trivial
  | denied reason => trivial
  | found userDn memberofs => exact Lately.mono le_rfl (fun t hsaid => hsaid.mono hlater.times) h
  | bound userDn memberofs => exact Proved.later hlater h
  | verified => exact ⟨hproved h.1, h.2.later hlater hsince⟩
  | inGroup groupDn => exact ⟨hproved h.1, h.2.1.later hlater hsince, h.2.2.later hlater⟩
  | unlisted groupDn => exact ⟨hproved h.1, h.2.later hlater⟩
  | known groupDn userDn =>
    exact ⟨hproved h.1, h.2.1.later hlater, h.2.2.mono hlater.times le_rfl⟩
  | granted =>
    obtain ⟨groupDn, hgroup, hmember⟩ := h.member
    exact ⟨hproved h.proved, groupDn, hgroup.later hlater, hmember.later hlater⟩

end LoginDesk

end Remain

/-! ## What the client is told -/

/-- **What the client is told**, and how that leaves it. -/
structure ClientTold {α : Type} (env : LoginEnv) (times : List Nat) (now : Nat)
    (said : List Nat → α → Prop) (c : LdapClient) (out : Option α × LdapClient) : Prop where
  idle : Idle env.toResolverEnv (searchTimes times now out.2.resolver.searches) now out.2.resolver
  said : ∀ a, out.1 = some a → said (searchTimes times now out.2.resolver.searches) a
  slot : out.2.lastVerified = c.lastVerified
  binds : out.2.bindTimes = c.bindTimes

section Told

variable {env : LoginEnv} {times : List Nat} {now : Nat} {c : LdapClient}

/-- The log does not grow while nothing is searched. -/
theorem Staleness.Idle.searchTimes_eq {r : Resolver} (h : Idle env.toResolverEnv times now r) :
    searchTimes times now r.searches = times := searchTimes_of_length now h.logged

/-- What an idle identity says, the client is told. -/
theorem told_withIdentity {α : Type} {said : List Nat → α → Prop} {f : Resolver → Option α × Resolver}
    (h : Idle env.toResolverEnv times now c.resolver)
    (hidle : Idle env.toResolverEnv (searchTimes times now (f c.resolver).2.searches) now
      (f c.resolver).2)
    (hsaid : ∀ a, (f c.resolver).1 = some a →
      said (searchTimes times now (f c.resolver).2.searches) a) :
    ClientTold env times now said c (c.withIdentity f) := by
  rw [LdapClient.withIdentity]
  cases c.serviceCreds with
  | none =>
    refine ⟨?_, (fun a ha => by cases ha), rfl, rfl⟩
    rw [h.searchTimes_eq]
    exact h
  | some creds => exact ⟨hidle, hsaid, rfl, rfl⟩

/-- The resolver after a search. -/
theorem Staleness.Idle.search {r : Resolver} (h : Idle env.toResolverEnv times now r) (req : Search) :
    Idle env.toResolverEnv (searchTimes times now (r.searches + 1)) now (env.serviceSearch req r).2 :=
  (h.kept.serviceSearch req).idle (fun _ ht => ht) h.swept

/-- A lookup of a DN tells what the directory found first. -/
theorem told_lookupFirstDn (h : Idle env.toResolverEnv times now c.resolver) (req : Search) :
    ClientTold env times now (fun times dn => env.FoundFirst times now req dn) c
      (c.withIdentity (env.lookupFirstDn req)) := by
  refine told_withIdentity h (h.search req) fun dn hdn => ?_
  obtain ⟨se, hse, rfl⟩ := Option.map_eq_some_iff.mp hdn
  obtain ⟨entries, hentries, hhead⟩ := Option.bind_eq_some_iff.mp hse
  refine ⟨c.resolver.searches, now, entries, getElem?_searchTimes_succ h.logged.le, le_rfl, hentries, ?_⟩
  rw [hhead]
  rfl

/-- A check of a membership tells what the directory found. -/
theorem told_userDnMemberofCheck (h : Idle env.toResolverEnv times now c.resolver)
    (userDn groupDn : Str) :
    ClientTold env times now (fun times found => found = true → env.FoundMember times now userDn groupDn)
      c (c.withIdentity (env.userDnMemberofCheck userDn groupDn)) := by
  refine told_withIdentity h (h.search (env.memberSearch groupDn)) fun found hfound hmember => ?_
  obtain ⟨entries, hentries, rfl⟩ := Option.map_eq_some_iff.mp hfound
  obtain ⟨se, hse, heq⟩ := List.any_eq_true.mp hmember
  exact ⟨now, se, le_rfl, ⟨c.resolver.searches, entries, getElem?_searchTimes_succ h.logged.le, hentries,
    hse⟩, heq⟩

/-- A lookup of a user tells what was said of it within the lifetime of the cache. -/
theorem told_lookupUserDnAndMemberof (h : Idle env.toResolverEnv times now c.resolver)
    (username : Str) :
    ClientTold env times now
      (fun times answer => Lately now identityCacheTtl fun t =>
        env.MemberofSaid times t username answer.1 answer.2)
      c (c.withIdentity (env.lookupUserDnAndMemberof now username)) :=
  have htold := h.kept.lookupUserDnAndMemberof username
  told_withIdentity h (htold.kept.idle (fun _ ht => ht) h.swept) htold.said

/-- Any other use of the identity tells nothing. -/
theorem told_use (h : Idle env.toResolverEnv times now c.resolver) (u : ResolverUse) :
    ClientTold env times now (fun _ _ => True) c
      (c.withIdentity fun r => (some (), env.use r now u)) :=
  told_withIdentity h (h.use u).2 fun _ _ => trivial

end Told

/-! ## Steps of the desk -/

namespace LoginDesk

variable {ι : Type} {env : LoginEnv} {adminGroup : Str} {s : LoginDesk ι} {now : Nat}
  {c : LdapClient} {l : AdminLogin}

/-- A desk at which time has passed and the client was used. -/
theorem Sound.after (h : s.Sound env adminGroup) (hnow : s.now ≤ now)
    (hidle : Idle env.toResolverEnv (searchTimes s.times now c.resolver.searches) now c.resolver)
    (hbinds : s.client.bindTimes <+: c.bindTimes)
    (hslot : ∀ v ∈ c.lastVerified, v ∈ s.client.lastVerified) :
    (s.after now c).Sound env adminGroup := by
  have hlater : Later s (s.after now c) :=
    ⟨List.prefix_append _ _, hbinds, fun e he => he, fun v hv => .inl (hslot v hv)⟩
  refine ⟨hidle, ?_, fun v hv => h.slot v (hslot v hv), ?_⟩
  · intro e he
    obtain ⟨userDn, hproved⟩ := h.recorded e he
    exact ⟨userDn, hproved.later hlater⟩
  · intro i l phase hi
    obtain ⟨hsince, hreached⟩ := h.logins i l phase hi
    exact ⟨hsince.trans hnow, hreached.later hlater hsince⟩

/-- The client was used, but not for a search. -/
theorem Sound.touched (h : s.Sound env adminGroup) (hnow : s.now ≤ now)
    (hresolver : c.resolver = s.client.resolver) (hbinds : s.client.bindTimes <+: c.bindTimes)
    (hslot : ∀ v ∈ c.lastVerified, v ∈ s.client.lastVerified) :
    (s.after now c).Sound env adminGroup := by
  have hidle := h.idle.wait hnow
  refine h.after hnow ?_ hbinds hslot
  rw [hresolver, hidle.searchTimes_eq]
  exact hidle

/-- Nothing but the time has changed. -/
theorem Sound.wait (h : s.Sound env adminGroup) (hnow : s.now ≤ now) :
    (s.after now s.client).Sound env adminGroup :=
  h.touched hnow rfl List.prefix_rfl fun _ hv => hv

/-- Time passing over the same client keeps the state. -/
theorem Sound.after_client (h : s.Sound env adminGroup) (hnow : s.now ≤ now) :
    s.after now s.client = { s with now } := by
  rw [LoginDesk.after, (h.idle.wait hnow).searchTimes_eq]

/-- **Whatever the client is told keeps the desk sound.** -/
theorem Sound.told (h : s.Sound env adminGroup) (hnow : s.now ≤ now) {α : Type}
    {said : List Nat → α → Prop} {out : Option α × LdapClient}
    (htold : ClientTold env s.times now said s.client out) :
    (s.after now out.2).Sound env adminGroup := by
  refine h.after hnow htold.idle ?_ ?_
  · rw [htold.binds]
  · rw [htold.slot]
    exact fun v hv => hv

/-- The values of a login that proved its password are recorded. -/
theorem Sound.record (h : s.Sound env adminGroup) {userDn : Str} {memberofs : List Str}
    (hproved : s.Proved env l userDn memberofs) :
    { s with
      client := s.client.recordVerifiedMemberofs s.now l.username memberofs
      recorded := (s.now, l, memberofs) :: s.recorded }.Sound env adminGroup := by
  have hlater : Later s { s with
      client := s.client.recordVerifiedMemberofs s.now l.username memberofs
      recorded := (s.now, l, memberofs) :: s.recorded } := by
    refine ⟨List.prefix_rfl, List.prefix_rfl, fun e he => List.mem_cons_of_mem _ he, ?_⟩
    rintro v ⟨⟩
    exact .inr le_rfl
  refine ⟨h.idle, ?_, ?_, ?_⟩
  · intro e he
    rcases List.mem_cons.mp he with rfl | he
    · exact ⟨userDn, hproved.later hlater⟩
    · obtain ⟨userDn, hproved⟩ := h.recorded e he
      exact ⟨userDn, hproved.later hlater⟩
  · rintro v ⟨⟩
    exact ⟨l, List.mem_cons_self, rfl⟩
  · intro i l' phase hi
    obtain ⟨hsince, hreached⟩ := h.logins i l' phase hi
    exact ⟨hsince, hreached.later hlater hsince⟩

variable [DecidableEq ι]

/-- A login goes on to another phase. -/
theorem Sound.setLogin (h : s.Sound env adminGroup) (i : ι) {phase : LoginPhase}
    (hsince : l.since ≤ s.now) (hreached : s.Reached env adminGroup l phase) :
    { s with logins := Function.update s.logins i (some (l, phase)) }.Sound env adminGroup := by
  have hlater : Later s { s with logins := Function.update s.logins i (some (l, phase)) } :=
    ⟨List.prefix_rfl, List.prefix_rfl, fun e he => he, fun v hv => .inl hv⟩
  refine ⟨h.idle, ?_, h.slot, ?_⟩
  · intro e he
    obtain ⟨userDn, hproved⟩ := h.recorded e he
    exact ⟨userDn, hproved.later hlater⟩
  · intro j l' phase' hj
    dsimp only at hj
    by_cases hij : j = i
    · subst hij
      rw [Function.update_self] at hj
      obtain ⟨rfl, rfl⟩ := Prod.mk.inj (Option.some.inj hj)
      exact ⟨hsince, hreached.later hlater hsince⟩
    · rw [Function.update_of_ne hij] at hj
      obtain ⟨hsince', hreached'⟩ := h.logins j l' phase' hj
      exact ⟨hsince', hreached'.later hlater hsince'⟩

/-- **A step of a login** keeps the desk sound. -/
theorem Sound.advance (h : s.Sound env adminGroup) (wait : Nat) (i : ι) :
    (s.step env adminGroup (wait, .advance i)).Sound env adminGroup := by
  have hnow : s.now ≤ s.now + wait := Nat.le_add_right _ _
  have hwait := h.wait hnow
  rw [LoginDesk.step]
  dsimp only
  cases hi : s.logins i with
  -- a login that is not there only lets time pass
  | none =>
    rw [h.after_client hnow] at hwait
    exact hwait
  | some entry =>
    obtain ⟨l, phase⟩ := entry
    have hsince : l.since ≤ s.now + wait := (h.logins i l phase hi).1.trans hnow
    have hidle := h.idle.wait hnow
    dsimp only
    cases phase with
    -- one case for each phase: what its call answers is said at a search of its own
    | arrived =>
      have htold := told_lookupUserDnAndMemberof hidle l.username
      rw [AdminLogin.advance]
      generalize s.client.withIdentity (env.lookupUserDnAndMemberof (s.now + wait) l.username) = out
        at htold ⊢
      obtain ⟨_ | ⟨userDn, memberofs⟩, c⟩ := out
      · exact (h.told hnow htold).setLogin i hsince trivial
      · exact (h.told hnow htold).setLogin i hsince ((htold.said _ rfl).of_le hsince)
    | found userDn memberofs =>
      have hdesk : (s.after (s.now + wait) { s.client with
          bindTimes := s.client.bindTimes ++ [s.now + wait] }).Sound env adminGroup :=
        h.touched hnow rfl (List.prefix_append _ _) fun v hv => hv
      have hsaid := (hdesk.logins i l _ hi).2
      rw [AdminLogin.advance, LoginEnv.trySimpleBind]
      cases haccepted : env.bind s.client.bindTimes.length userDn l.password with
      | false => exact hdesk.setLogin i hsince trivial
      | true =>
        refine hdesk.setLogin i hsince ⟨hsaid, s.client.bindTimes.length, s.now + wait, ?_, hsince,
          haccepted⟩
        exact List.getElem?_concat_length
    -- the slot is filled with what this login has proved
    | bound userDn memberofs =>
      have hproved := (hwait.logins i l _ hi).2
      have hrecorded := hwait.record hproved
      refine hrecorded.setLogin i hsince ⟨⟨userDn, memberofs, (hrecorded.logins i l _ hi).2⟩, ?_⟩
      rintro v ⟨⟩
      exact hsince
    | verified =>
      have htold := told_lookupFirstDn hidle (env.groupDnSearch adminGroup)
      have hreached := ((h.told hnow htold).logins i l _ hi).2
      rw [AdminLogin.advance, ResolverEnv.lookupGroupDn]
      generalize s.client.withIdentity (env.lookupFirstDn (env.groupDnSearch adminGroup)) = out
        at htold hreached ⊢
      obtain ⟨_ | groupDn, c⟩ := out
      · exact (h.told hnow htold).setLogin i hsince trivial
      · dsimp only
        split_ifs with hempty
        · exact (h.told hnow htold).setLogin i hsince trivial
        · exact (h.told hnow htold).setLogin i hsince ⟨hreached.1, hreached.2, hempty,
            (htold.said _ rfl).mono List.prefix_rfl hsince⟩
    | inGroup groupDn =>
      obtain ⟨hproved, hslot, hgroup⟩ := (hwait.logins i l _ hi).2
      rw [AdminLogin.advance]
      split_ifs with hlisted
      -- listed in the slot: what stands there was recorded by a login of the same name
      · rw [LdapClient.hasRecentMemberof] at hlisted
        cases hv : s.client.lastVerified with
        | none =>
          rw [hv] at hlisted
          cases hlisted
        | some v =>
          rw [hv, Option.any_some, Bool.and_eq_true] at hlisted
          obtain ⟨m, hm, hgroupDn⟩ := List.any_eq_true.mp hlisted.2
          obtain ⟨l', hrecorded, hname⟩ := hwait.slot v hv
          obtain ⟨userDn, hproved'⟩ := hwait.recorded _ hrecorded
          exact hwait.setLogin i hsince ⟨hproved, groupDn, hgroup, .listed v.2.2 l' userDn v.2.1 m
            hrecorded (hslot v hv) hproved' (hname.symm ▸ hlisted.1) hm hgroupDn⟩
      · exact hwait.setLogin i hsince ⟨hproved, hgroup⟩
    | unlisted groupDn =>
      have htold := told_lookupFirstDn hidle (env.userDnSearch l.username)
      have hreached := ((h.told hnow htold).logins i l _ hi).2
      rw [AdminLogin.advance, ResolverEnv.resolveUserDn]
      generalize s.client.withIdentity (env.lookupFirstDn (env.userDnSearch l.username)) = out
        at htold hreached ⊢
      obtain ⟨_ | userDn, c⟩ := out
      · exact (h.told hnow htold).setLogin i hsince trivial
      · exact (h.told hnow htold).setLogin i hsince ⟨hreached.1, hreached.2,
          (htold.said _ rfl).mono List.prefix_rfl hsince⟩
    | known groupDn userDn =>
      have htold := told_userDnMemberofCheck hidle userDn groupDn
      have hreached := ((h.told hnow htold).logins i l _ hi).2
      rw [AdminLogin.advance]
      generalize s.client.withIdentity (env.userDnMemberofCheck userDn groupDn) = out
        at htold hreached ⊢
      obtain ⟨_ | _ | _, c⟩ := out
      · exact (h.told hnow htold).setLogin i hsince trivial
      · exact (h.told hnow htold).setLogin i hsince trivial
      · exact (h.told hnow htold).setLogin i hsince ⟨hreached.1, groupDn, hreached.2.1,
          .searched userDn hreached.2.2 ((htold.said _ rfl rfl).mono List.prefix_rfl hsince)⟩
    | granted => exact hwait.setLogin i hsince (hwait.logins i l _ hi).2
    | denied reason => exact hwait.setLogin i hsince trivial

/-- **Every event keeps the desk sound.** -/
theorem Sound.step (h : s.Sound env adminGroup) (e : Nat × DeskEvent ι) :
    (s.step env adminGroup e).Sound env adminGroup := by
  obtain ⟨wait, event⟩ := e
  have hnow : s.now ≤ s.now + wait := Nat.le_add_right _ _
  cases event with
  | advance i => exact h.advance wait i
  | submit i username password =>
    have hwait := h.wait hnow
    rw [h.after_client hnow] at hwait
    exact hwait.setLogin i le_rfl trivial
  | use u => exact h.told hnow (told_use (h.idle.wait hnow) u)
  | evictExpired =>
    refine h.after hnow ((h.idle.wait hnow).use .evictExpired).2 List.prefix_rfl fun v hv => ?_
    exact (Option.filter_eq_some_iff.mp hv).1
  | clearCache =>
    refine h.after hnow ((h.idle.wait hnow).use .clearCaches).2 List.prefix_rfl ?_
    rintro v ⟨⟩

/-- A client that nobody has used yet. -/
def opened (serviceCreds : Option (Str × Str)) (start : Nat) : LoginDesk ι :=
  ⟨start, [], ⟨serviceCreds, .new, none, []⟩, fun _ => none, []⟩

omit [DecidableEq ι] in
/-- A desk that has just opened is sound. -/
theorem sound_opened (env : LoginEnv) (adminGroup : Str) (serviceCreds : Option (Str × Str))
    (start : Nat) : (opened serviceCreds start : LoginDesk ι).Sound env adminGroup :=
  ⟨idle_new start, List.forall_mem_nil _, (fun v hv => by cases hv), fun i l phase hi => by cases hi⟩

/-- The desk after a sequence of events. -/
def run (env : LoginEnv) (adminGroup : Str) (serviceCreds : Option (Str × Str)) (start : Nat)
    (events : List (Nat × DeskEvent ι)) : LoginDesk ι :=
  events.foldl (LoginDesk.step env adminGroup) (opened serviceCreds start)

/-- **The desk is sound after every run.** -/
theorem sound_run (env : LoginEnv) (adminGroup : Str) (serviceCreds : Option (Str × Str)) (start : Nat)
    (events : List (Nat × DeskEvent ι)) :
    (run env adminGroup serviceCreds start events).Sound env adminGroup :=
  List.foldlRecOn events (LoginDesk.step env adminGroup)
    (sound_opened env adminGroup serviceCreds start) fun _ h e _ => h.step e

/-- Behind every login that was granted stands what it takes. -/
def GrantsBacked (env : LoginEnv) (adminGroup : Str) (s : LoginDesk ι) : Prop :=
  ∀ i l, s.logins i = some (l, .granted) → s.Admitted env adminGroup l

/-- **Nobody is let in for nothing**: in every run, with any number of logins that come in between each
other, a login that is granted has proved its password since it came in, and is a member of the admin group
by what the directory said since, or by values that have been recorded since. -/
theorem granted_backed (env : LoginEnv) (adminGroup : Str) (serviceCreds : Option (Str × Str))
    (start : Nat) (events : List (Nat × DeskEvent ι)) :
    GrantsBacked env adminGroup (run env adminGroup serviceCreds start events) := by
  intro i l hi
  exact ((sound_run env adminGroup serviceCreds start events).logins i l _ hi).2

end LoginDesk

end NfsKlldap
