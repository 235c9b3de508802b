import NfsKlldap.Idhelper.Stores

/-! # Identity lookups (`idhelper/resolve.rs`)

Where the uid, gid and groups of a principal come from: the `getent` command, the passwd stores, and
the LDAP resolver with its snapshot and its live queries. What lies outside of the program is an
`Env`: functions of the queried name and of an outside state `σ` that every call may change. Lookups
read the disk and thread the outside state; they have no access to the cache. -/

namespace NfsKlldap

open Text

/-- The outside world as the idhelper calls it. -/
structure Env (σ : Type*) where
  /-- Output of `getent passwd name`, when the command succeeds. -/
  getent : Str → σ → Option Str × σ
  /-- `sss_cache -u name`. -/
  sssCache : Str → σ → σ
  /-- The environment variable `TEST_FORCE_LDAP_UID_GID`. -/
  testForceLdapUidGid : Option Str
  /-- `get_or_init_resolver` finds a configured resolver. -/
  resolverReady : σ → Bool × σ
  /-- The resolver's caches. -/
  snapshot : σ → IdMapSnapshot
  /-- Reload the directory. -/
  loadFullIdentities : σ → σ
  /-- Uid and optional gid of a directory user. -/
  resolveUser : Str → σ → Option (Int32 × Option Int32) × σ
  /-- Group ids of a principal. -/
  resolveGroupsForPrincipal : Str → σ → List Int32 × σ
  /-- Fetch a group into the resolver's caches. -/
  resolveGroupByGid : Int32 → σ → σ
  /-- The names of the server host (`get_server_variants`). -/
  serverVariants : List Str
  /-- The write attempts that fail. -/
  fails : Nat → Bool

/-- A uid and gid with the name of the source that answered. -/
abbrev SourcedIds := UInt32 × UInt32 × Str

/-- Tag an answer of the directory. -/
def ldapTagged (ids : UInt32 × UInt32) : SourcedIds := (ids.1, ids.2, "ldap".toList)

/-- Pure identity resolution policy: NSS full, NSS short (for principals without a realm only),
test-forced LDAP, then LDAP snapshot and live for the full and the short name. -/
def resolveIdentityCandidates (full : Str) (nssFull nssShort : Option SourcedIds)
    (testForceLdap ldapSnapFull ldapSnapShort ldapLiveFull ldapLiveShort :
      Option (UInt32 × UInt32)) : Option SourcedIds :=
  let isRealm := principalHasRealm full
  nssFull.or <|
  (if !isRealm then nssShort else none).or <|
  (if '@' ∈ full then testForceLdap.map ldapTagged else none).or <|
  (ldapSnapFull.map ldapTagged).or <|
  (ldapLiveFull.map ldapTagged).or <|
  if !isRealm then (ldapSnapShort.map ldapTagged).or (ldapLiveShort.map ldapTagged) else none

/-- Look up a login in a passwd(5) file: the first line with that login field decides. -/
def lookupPasswdFile (file : StoreFile) (name : Str) : Option (UInt32 × UInt32) := do
  let content ← file.readToString
  let line ← ((lines content).map trim).find? fun line =>
    !isSkippedLine line && before ':' line = name
  parseGetentPasswd line

section Lookups

variable {σ : Type*} (env : Env σ)

/-- The uid and gid forced by the environment, for names with an `@`. -/
def forcedLdapUidGid (full : Str) : Option (UInt32 × UInt32) := do
  if '@' ∉ full then none
  let uv ← env.testForceLdapUidGid
  let us ← splitOnce ':' uv
  let u ← parseU32 (trim us.1)
  let g ← parseU32 (trim us.2)
  return (u, g)

/-- `getent` first, then the passwd stores the idhelper wrote itself. -/
def resolveGetent (d : Disk) (name : Str) (s : σ) : Option SourcedIds × σ :=
  let out := env.getent name s
  let ids := (out.1.bind fun stdout => parseGetentPasswd ((lines stdout).headD [])).map
    fun ids => (ids.1, ids.2, "sss".toList)
  let extrausers := (lookupPasswdFile (d.files .extrausersPasswd) name).map
    fun ids => (ids.1, ids.2, "extrausers".toList)
  let nss := (lookupPasswdFile (d.files .nssPasswd) name).map
    fun ids => (ids.1, ids.2, "nss".toList)
  (ids.or (extrausers.or nss), out.2)

/-- A live directory query for one name; a user without a gid gets its uid. -/
def uidGidFromUserResolve (name : Str) (s : σ) : Option (UInt32 × UInt32) × σ :=
  let q := env.resolveUser name s
  (q.1.map fun ids => (ids.1.toUInt32, (ids.2.map Int32.toUInt32).getD ids.1.toUInt32), q.2)

/-- Uid and gid of a snapshot user. -/
def snapshotIds (snap : IdMapSnapshot) (name : Str) : Option (UInt32 × UInt32) :=
  (snap.users.get? name).map fun kv => (kv.2.uid.toUInt32, kv.2.gid.toUInt32)

/-- The snapshot under the full name, and under the short one for principals without a realm. -/
def uidGidFromSnapshot (snap : IdMapSnapshot) (full short : Str) : Option (UInt32 × UInt32) :=
  (snapshotIds snap full).or (if !principalHasRealm full then snapshotIds snap short else none)

/-- One round of directory candidates: snapshot and live. -/
def tryResolve (name : Str) (s : σ) : Option (UInt32 × UInt32) × σ :=
  let snap := env.snapshot s
  let short := principalLocalPart name
  let snapFull := uidGidFromSnapshot snap name short
  let snapShort := if principalHasRealm name then none else snapshotIds snap short
  let liveFull := uidGidFromUserResolve env name s
  let liveShort :=
    if principalHasRealm name then (none, liveFull.2)
    else uidGidFromUserResolve env short liveFull.2
  ((resolveIdentityCandidates name none none none snapFull snapShort liveFull.1 liveShort.1).map
    fun ids => (ids.1, ids.2.1), liveShort.2)

/-- Try the LDAP snapshot first and reload the directory on a miss. -/
def resolveViaStructuredLdap (name : Str) (s : σ) : Option (UInt32 × UInt32) × σ :=
  let ready := env.resolverReady s
  if !ready.1 then (none, ready.2)
  else
    let first := tryResolve env name ready.2
    match first.1 with
    | some ids => (some ids, first.2)
    | none =>
      let second := tryResolve env name (env.loadFullIdentities first.2)
      match second.1 with
      | some ids => (some ids, env.resolveGroupByGid ids.2.toInt32 second.2)
      | none => (none, second.2)

/-- Resolve via getent first, then fall back to the LDAP resolver. -/
def resolveViaNss (d : Disk) (nameOrPrincipal : Str) (s : σ) : Option SourcedIds × σ :=
  let trimmed := trim nameOrPrincipal
  let short := principalLocalPart trimmed
  let isRealm := principalHasRealm trimmed
  let nssFull := resolveGetent env d trimmed s
  let nssShort :=
    if !isRealm ∧ short ≠ trimmed then resolveGetent env d short nssFull.2 else (none, nssFull.2)
  let testForce := forcedLdapUidGid env trimmed
  match resolveIdentityCandidates trimmed nssFull.1 nssShort.1 testForce none none none none with
  | some ids => (some ids, nssShort.2)
  | none =>
    let ldap := resolveViaStructuredLdap env trimmed nssShort.2
    (ldap.1.map ldapTagged, ldap.2)

/-! ## Groups -/

/-- Merge primary and supplemental gids, the primary one first, without repetition. -/
def mergeGroupGids (primary : UInt32) (supplemental : List UInt32) : List UInt32 :=
  pushAllNew [primary] supplemental

/-- Load the directory when no groups are there. -/
def ensureResolverSnapshot (s : σ) : σ :=
  if (env.snapshot s).groups.values = [] then env.loadFullIdentities s else s

/-- The answer of the resolver to a group query, `none` when there is no resolver. -/
def queryGroups (principal : Str) (s : σ) : Option (List UInt32) × σ :=
  let ready := env.resolverReady s
  if ready.1 then
    let more := env.resolveGroupsForPrincipal principal (ensureResolverSnapshot env ready.2)
    (some (more.1.map Int32.toUInt32), more.2)
  else (none, ready.2)

/-- Fetch group rows into the resolver's caches. -/
def fetchGroups (gids : List UInt32) (s : σ) : σ :=
  gids.foldl (fun s g => env.resolveGroupByGid g.toInt32 s) s

/-- Compute the gids of a resolved principal. A machine keeps its supplemental gids and adds what
the resolver answers; everybody else has the resolver's answer only. -/
def computeGidsForResolved (r : Resolved) (principal : Str) (s : σ) : List UInt32 × σ :=
  if r.kind = .machine then
    let primary := machineGid
    let q := queryGroups env principal s
    match q.1 with
    | some more =>
      let extra := pushAllNew r.supplementalGids (more.filter (· ≠ primary))
      (mergeGroupGids primary extra, fetchGroups env extra q.2)
    | none => (mergeGroupGids primary r.supplementalGids, q.2)
  else
    let primary := r.gid
    let q := queryGroups env principal s
    match q.1 with
    | some extra =>
      (mergeGroupGids primary extra,
        fetchGroups env (primary :: extra.filter (· ≠ primary)) q.2)
    | none => (mergeGroupGids primary [], q.2)

end Lookups

end NfsKlldap
