import NfsKlldap.Identity.Snapshot
import NfsKlldap.Ldap.Filter
import NfsKlldap.Ldap.Posix

/-! # The LDAP resolver (`ldap/resolver.rs`)

The resolver answers from its caches and searches the directory on a miss. Searches are numbered in
the order they are made in, and each is answered or fails (`ResolverEnv.search`).

* **`resolveUser`**, **`resolveGroup`**, **`resolveUserByUid`**, **`resolveGroupByGid`** — lookups;
* **`resolveGroupsForPrincipal`** — the gids of a principal;
* **`loadFullIdentities`** — the bulk load;
* **`Resolver.snapshot`** — the caches as an identity map. -/

namespace NfsKlldap

open Text

/-! ## Searches -/

/-- An entry as the server returns it: the attributes by the names they were asked for with. -/
structure SearchEntry where
  dn : Str
  attrs : List (Str × List Str)
  deriving DecidableEq

/-- The values of an attribute, if it was returned. -/
def SearchEntry.get (se : SearchEntry) (name : Str) : Option (List Str) :=
  (se.attrs.find? fun p => p.1 = name).map Prod.snd

/-- A subtree search: `(objectClass=..)`, possibly with an assertion on one attribute, whose value is
escaped. -/
structure Search where
  base : Str
  objectClass : Str
  assertion : Option (Str × Str)
  attrs : List Str
  deriving DecidableEq

/-- `extract_first_attr`; attribute names are ASCII, and the server may have them in lower case. -/
def extractFirstAttr (se : SearchEntry) (name : Str) : Option Str :=
  ((se.get name).bind List.head?).or ((se.get (toAsciiLowercase name)).bind List.head?)

/-- `extract_display_name` -/
def extractDisplayName (se : SearchEntry) (fullNameAttr fallback : Str) : Str :=
  ((extractFirstAttr se fullNameAttr).or
    ((extractFirstAttr se "displayName".toList).or (extractFirstAttr se "cn".toList))).getD fallback

/-- The text behind the first `=` of the first RDN. -/
def firstRdnValue (dn : Str) : Option Str := ((before ',' dn).splitOn '=')[1]?

/-- The login that a member value stands for: a DN is cut down to its first RDN value. -/
def memberLogin (raw : Str) : Str :=
  if '=' ∈ raw then trim ((firstRdnValue raw).getD raw) else trim raw

/-- `extract_group_members` -/
def extractGroupMembers (se : SearchEntry) (memberAttr : Str) : List Str :=
  let attrs := [memberAttr, "uniqueMember".toList, "memberUid".toList, "memberuid".toList]
  attrs.foldl (fun out attr =>
    let values := ((se.get attr).or (se.get (toAsciiLowercase attr))).getD []
    pushAllNew out ((values.map memberLogin).filter (· ≠ []))) []

/-- `str::parse::<i32>` -/
def parseI32 : Str → Option Int32
  | '-' :: ds =>
    if ds ≠ [] ∧ ds.all Char.isDigit ∧ Nat.ofDigitChars 10 ds 0 ≤ 2 ^ 31 then
      some (Int32.ofInt (-(Nat.ofDigitChars 10 ds 0 : Int)))
    else none
  | s => (parseBits 31 s).map Int32.ofNat

/-- A number as text. -/
def i32Text (n : Int32) : Str := (toString n.toInt).toList

/-! ## The caches -/

/-- A hash map of pairs. -/
abbrev PairMap (κ β : Type) := KeyedMap (Prod.fst : κ × β → κ)

/-- The value under a key. -/
def PairMap.lookup {κ β : Type} [DecidableEq κ] (m : PairMap κ β) (k : κ) : Option β :=
  (m.get? k).map Prod.snd

/-- What is cached of a user. -/
structure CachedUser where
  id : Str
  uidNumber : Option Int32
  primaryGid : Option Int32
  displayName : Str
  fetchedAt : Nat

/-- What is cached of a group. -/
structure CachedGroup where
  id : Str
  gidNumber : Option Int32
  displayName : Str
  members : List Str
  fetchedAt : Nat

/-- The gid that was found behind a DN, or that none was. -/
structure CachedDnGid where
  gid : Option Int32
  fetchedAt : Nat

/-- The DN of a user and the groups it says it is in. -/
structure CachedMemberOf where
  dn : Str
  memberofs : List Str
  fetchedAt : Nat

/-- The caches, and how many searches have been made. -/
structure Resolver where
  userCache : PairMap Str CachedUser
  groupCache : PairMap Str CachedGroup
  userByUidCache : PairMap Int32 CachedUser
  groupByGidCache : PairMap Int32 CachedGroup
  groupGidByDnCache : PairMap Str CachedDnGid
  memberofCache : PairMap Str CachedMemberOf
  /-- The recent misses, with a prefix for their kind. -/
  negativeCache : PairMap Str Nat
  lastEvict : Option Nat
  searches : Nat

/-- A resolver's settings, the directory it searches, and the order in which the group cache is
enumerated. -/
structure ResolverEnv where
  userBase : Str
  groupBase : Str
  attrs : PosixAttributeMapping
  /-- The answers to the searches; `none` when one fails. -/
  search : Nat → Search → Option (List SearchEntry)
  groupOrder : List (Str × CachedGroup) → List (Str × CachedGroup)
  groupOrder_perm : ∀ l, (groupOrder l).Perm l

/-- `IDENTITY_CACHE_TTL`, in nanoseconds. -/
def identityCacheTtl : Nat := 600 * 10 ^ 9

/-- `NEGATIVE_TTL`, in nanoseconds. -/
def negativeTtl : Nat := 60 * 10 ^ 9

/-- How often the caches are swept at most. -/
def evictInterval : Nat := 5 * 10 ^ 9

namespace Resolver

/-- `IdLdapResolver::new` -/
def new : Resolver :=
  ⟨.empty, .empty, .empty, .empty, .empty, .empty, .empty, none, 0⟩

/-- `clear_caches` -/
def clearCaches (r : Resolver) : Resolver :=
  { new with lastEvict := r.lastEvict, searches := r.searches }

/-- `evict_expired` -/
def evictExpired (now : Nat) (r : Resolver) : Resolver :=
  if r.lastEvict.any fun t => now - t < evictInterval then r
  else
    { r with
      lastEvict := some now
      userCache := r.userCache.retain fun p => now - p.2.fetchedAt < identityCacheTtl
      groupCache := r.groupCache.retain fun p => now - p.2.fetchedAt < identityCacheTtl
      userByUidCache := r.userByUidCache.retain fun p => now - p.2.fetchedAt < identityCacheTtl
      groupByGidCache := r.groupByGidCache.retain fun p => now - p.2.fetchedAt < identityCacheTtl
      groupGidByDnCache := r.groupGidByDnCache.retain fun p =>
        now - p.2.fetchedAt < if p.2.gid.isSome then identityCacheTtl else negativeTtl
      memberofCache := r.memberofCache.retain fun p => now - p.2.fetchedAt < identityCacheTtl
      negativeCache := r.negativeCache.retain fun p => now - p.2 < negativeTtl }

/-- `negative_hit` -/
def negativeHit (now : Nat) (key : Str) (r : Resolver) : Bool :=
  (r.negativeCache.lookup key).any fun t => now - t < negativeTtl

/-- `mark_negative` -/
def markNegative (now : Nat) (key : Str) (r : Resolver) : Resolver :=
  { r with negativeCache := r.negativeCache.insert (key, now) }

/-- File a user under a key and its uid. -/
def cacheUser (key : Str) (uid : Int32) (user : CachedUser) (r : Resolver) : Resolver :=
  { r with
    userCache := r.userCache.insert (key, user)
    userByUidCache := r.userByUidCache.insert (uid, user) }

/-- File a group under a key and its gid. -/
def cacheGroup (key : Str) (gid : Int32) (group : CachedGroup) (r : Resolver) : Resolver :=
  { r with
    groupCache := r.groupCache.insert (key, group)
    groupByGidCache := r.groupByGidCache.insert (gid, group) }

end Resolver

/-- `dc_base_from`: from the first `dc=` on. -/
def dcBaseFrom (base : Str) : Str :=
  (base.tails.find? fun tail => "dc=".toList.isPrefixOf (toAsciiLowercase tail)).getD base

namespace ResolverEnv

variable (env : ResolverEnv)

/-- The bases that are searched one after the other. -/
def basesFrom (base : Str) : List Str :=
  let dc := dcBaseFrom base
  if dc ≠ base then [base, dc] else [base]

/-- The bases that are searched for users. -/
def userBases : List Str := basesFrom env.userBase

/-- The bases that are searched for groups. -/
def groupBases : List Str := basesFrom env.groupBase

/-- `service_search` -/
def serviceSearch (req : Search) (r : Resolver) : Option (List SearchEntry) × Resolver :=
  (env.search r.searches req, { r with searches := r.searches + 1 })

/-! ## Users -/

/-- The uid of an entry. -/
def uidOf (se : SearchEntry) : Option Int32 :=
  (extractFirstAttr se env.attrs.userUidNumber).bind parseI32

/-- The primary gid of an entry. -/
def primaryGidOf (se : SearchEntry) : Option Int32 :=
  (extractFirstAttr se env.attrs.userGidNumber).bind fun s => parseI32 (trim s)

/-- The attributes a lookup of a user asks for. -/
def userLookupAttrs : List Str :=
  [env.attrs.userName, env.attrs.userUidNumber, env.attrs.userGidNumber, "cn".toList,
    "displayName".toList, env.attrs.userFullName, env.attrs.userPrincipalName]

/-- The first entry with a uid. -/
def firstUser (now : Nat) (id name : Str) (entries : List SearchEntry) : Option (Int32 × CachedUser) :=
  entries.findSome? fun se => (env.uidOf se).map fun u =>
    (u, ⟨id, some u, env.primaryGidOf se, extractDisplayName se env.attrs.userFullName name, now⟩)

/-- How a pass over the bases ends. -/
inductive UserPass where
  | found (uid : Int32) (user : CachedUser)
  | missing
  | unreachable

/-- The pass over the bases by name, which a search that fails ends. -/
def passByName (now : Nat) (name : Str) : List Str → Resolver → UserPass × Resolver
  | [], r => (.missing, r)
  | base :: rest, r =>
    let req : Search := ⟨base, env.attrs.userObjectClass,
      some (env.attrs.userName, escapeLdapFilter name), env.userLookupAttrs⟩
    match env.serviceSearch req r with
    | (none, r) => (.unreachable, r)
    | (some entries, r) =>
      match env.firstUser now name name entries with
      | some (uid, user) => (.found uid user, r)
      | none => passByName now name rest r

/-- The pass over the bases by principal, which goes on over searches that fail. -/
def passByPrincipal (now : Nat) (name : Str) :
    List Str → Resolver → Option (Int32 × CachedUser) × Resolver
  | [], r => (none, r)
  | base :: rest, r =>
    let req : Search := ⟨base, env.attrs.userObjectClass,
      some (env.attrs.userPrincipalName, escapeLdapFilter name), env.userLookupAttrs⟩
    match env.serviceSearch req r with
    | (none, r) => passByPrincipal now name rest r
    | (some entries, r) =>
      match env.firstUser now (principalLocalPart name) name entries with
      | some hit => (some hit, r)
      | none => passByPrincipal now name rest r

/-- What a lookup of a user answers. -/
def userAnswer (uid : Int32) (user : CachedUser) : Int32 × Option Int32 × Str :=
  (uid, user.primaryGid, user.displayName)

/-- The cached user under a name, if it has a uid. -/
def cachedUser (name : Str) (r : Resolver) : Option (Int32 × CachedUser) :=
  (r.userCache.lookup name).bind fun user => user.uidNumber.map fun uid => (uid, user)

/-- `resolve_user`: what the search by principal finds is cached under the local part. -/
def resolveUser (now : Nat) (name : Str) (r : Resolver) :
    Option (Int32 × Option Int32 × Str) × Resolver :=
  let r := r.evictExpired now
  match cachedUser name r with
  | some (uid, user) => (some (userAnswer uid user), r)
  | none =>
    let miss := "u:".toList ++ name
    if r.negativeHit now miss then (none, r)
    else
      match env.passByName now name env.userBases r with
      | (.found uid user, r) => (some (userAnswer uid user), r.cacheUser name uid user)
      | (.unreachable, r) => (none, r.markNegative now miss)
      | (.missing, r) =>
        if '@' ∈ name then
          match env.passByPrincipal now name env.userBases r with
          | (some (uid, user), r) =>
            (some (userAnswer uid user), r.cacheUser (principalLocalPart name) uid user)
          | (none, r) => (none, r.markNegative now miss)
        else (none, r.markNegative now miss)

/-- `resolve_user_by_uid` -/
def resolveUserByUid (now : Nat) (uid : Int32) (r : Resolver) : Option (Str × Str) × Resolver :=
  let r := r.evictExpired now
  match (r.userByUidCache.lookup uid).bind fun user => user.uidNumber.map fun _ => user with
  | some user => (some (user.id, user.displayName), r)
  | none =>
    let miss := "uid:".toList ++ i32Text uid
    if r.negativeHit now miss then (none, r)
    else
      let attrs := [env.attrs.userName, env.attrs.userUidNumber, env.attrs.userGidNumber,
        "cn".toList, "displayName".toList, env.attrs.userFullName]
      let req : Search := ⟨env.userBase, env.attrs.userObjectClass,
        some (env.attrs.userUidNumber, i32Text uid), attrs⟩
      match env.serviceSearch req r with
      | (none, r) => (none, r.markNegative now miss)
      | (some entries, r) =>
        let hit := entries.findSome? fun se =>
          if env.uidOf se = some uid then
            let id := (extractFirstAttr se env.attrs.userName).getD (i32Text uid)
            some ⟨id, some uid, env.primaryGidOf se,
              extractDisplayName se env.attrs.userFullName id, now⟩
          else none
        match hit with
        | some user => (some (user.id, user.displayName), r.cacheUser user.id uid user)
        | none => (none, r.markNegative now miss)

/-! ## Groups -/

/-- The gid of an entry. -/
def gidOf (se : SearchEntry) : Option Int32 :=
  (extractFirstAttr se env.attrs.groupGidNumber).bind parseI32

/-- The attributes a lookup of a group asks for. -/
def groupLookupAttrs : List Str :=
  [env.attrs.groupName, env.attrs.groupGidNumber, "cn".toList, "displayName".toList]

/-- What is cached of a group. -/
def groupOf (now : Nat) (id : Str) (gid : Int32) (se : SearchEntry) : CachedGroup :=
  ⟨id, some gid, extractDisplayName se env.attrs.groupName id,
    extractGroupMembers se env.attrs.groupMember, now⟩

/-- `resolve_group` -/
def resolveGroup (now : Nat) (name : Str) (r : Resolver) : Option (Int32 × Str) × Resolver :=
  let r := r.evictExpired now
  match (r.groupCache.lookup name).bind fun g => g.gidNumber.map fun gid => (gid, g) with
  | some (gid, g) => (some (gid, g.displayName), r)
  | none =>
    let miss := "g:".toList ++ name
    if r.negativeHit now miss then (none, r)
    else
      let req : Search := ⟨env.groupBase, env.attrs.groupObjectClass,
        some (env.attrs.groupName, escapeLdapFilter name), env.groupLookupAttrs⟩
      match env.serviceSearch req r with
      | (none, r) => (none, r.markNegative now miss)
      | (some entries, r) =>
        let hit := entries.findSome? fun se =>
          (env.gidOf se).map fun gid => (gid, env.groupOf now name gid se)
        match hit with
        | some (gid, g) => (some (gid, g.displayName), r.cacheGroup name gid g)
        | none => (none, r.markNegative now miss)

/-- `resolve_group_by_gid` -/
def resolveGroupByGid (now : Nat) (gid : Int32) (r : Resolver) : Option (Str × Str) × Resolver :=
  let r := r.evictExpired now
  match (r.groupByGidCache.lookup gid).bind fun g => g.gidNumber.map fun _ => g with
  | some g => (some (g.id, g.displayName), r)
  | none =>
    let miss := "gid:".toList ++ i32Text gid
    if r.negativeHit now miss then (none, r)
    else
      let req : Search := ⟨env.groupBase, env.attrs.groupObjectClass,
        some (env.attrs.groupGidNumber, i32Text gid), env.groupLookupAttrs⟩
      match env.serviceSearch req r with
      | (none, r) => (none, r.markNegative now miss)
      | (some entries, r) =>
        let hit := entries.findSome? fun se =>
          if env.gidOf se = some gid then
            some (env.groupOf now ((extractFirstAttr se env.attrs.groupName).getD (i32Text gid))
              gid se)
          else none
        match hit with
        | some g => (some (g.id, g.displayName), r.cacheGroup g.id gid g)
        | none => (none, r.markNegative now miss)

/-! ## The groups of a principal -/

/-- The cached group that the first RDN value of a DN names: under this name, or under one that
differs in case. -/
def cachedGroupOfRdn (dn : Str) (r : Resolver) : Option Int32 :=
  (((firstRdnValue dn).map trim).filter (· ≠ [])).bind fun rdn =>
    ((r.groupCache.lookup rdn).bind CachedGroup.gidNumber).or
      (((env.groupOrder r.groupCache.values).find? fun p => eqIgnoreAsciiCase p.1 rdn).bind
        fun p => p.2.gidNumber)

/-- `group_gid_from_dn` -/
def groupGidFromDn (now : Nat) (groupDn : Str) (r : Resolver) : Option Int32 × Resolver :=
  match env.cachedGroupOfRdn groupDn r with
  | some gid => (some gid, r)
  | none =>
    let cached := (r.groupGidByDnCache.lookup groupDn).filter fun hit =>
      now - hit.fetchedAt < if hit.gid.isSome then identityCacheTtl else negativeTtl
    match cached with
    | some hit => (hit.gid, r)
    | none =>
      let req : Search := ⟨groupDn, ['*'], none, [env.attrs.groupGidNumber]⟩
      let (entries, r) := env.serviceSearch req r
      let found := (entries.getD []).findSome? fun se =>
        (extractFirstAttr se env.attrs.groupGidNumber).bind fun s => parseI32 (trim s)
      (found, { r with
        groupGidByDnCache := r.groupGidByDnCache.insert (groupDn, ⟨found, now⟩) })

/-- `lookup_user_dn_and_memberof` -/
def lookupUserDnAndMemberof (now : Nat) (username : Str) (r : Resolver) :
    Option (Str × List Str) × Resolver :=
  match (r.memberofCache.lookup username).filter fun hit => now - hit.fetchedAt < identityCacheTtl with
  | some hit => (some (hit.dn, hit.memberofs), r)
  | none =>
    let miss := "mo:".toList ++ username
    if r.negativeHit now miss then (none, r)
    else
      let req : Search := ⟨env.userBase, env.attrs.userObjectClass,
        some (env.attrs.userName, escapeLdapFilter username),
        [env.attrs.userName, "memberOf".toList]⟩
      match env.serviceSearch req r with
      | (none, r) => (none, r.markNegative now miss)
      | (some entries, r) =>
        match entries with
        | [] => (none, r.markNegative now miss)
        | se :: _ =>
          let memberofs := ((se.get "memberOf".toList).or (se.get "memberof".toList)).getD []
          (some (se.dn, memberofs),
            { r with memberofCache := r.memberofCache.insert (username, ⟨se.dn, memberofs, now⟩) })

end ResolverEnv

/-! ## Snapshots -/

/-- Rebuild the entries of a hash map, dropping some. -/
def PairMap.filterMap {κ β γ : Type} (m : PairMap κ β) (f : β → Option γ) : PairMap κ γ where
  values := m.values.filterMap fun p => (f p.2).map fun c => (p.1, c)
  nodup := by
    have hsub : ((m.values.filterMap fun p => (f p.2).map fun c => (p.1, c)).map Prod.fst).Sublist
        (m.values.map Prod.fst) := by
      induction m.values with
      | nil => exact List.Sublist.slnil
      | cons p rest ih =>
        cases hf : f p.2 with
        | none => simpa [List.filterMap_cons, hf] using ih.cons p.1
        | some c => simpa [List.filterMap_cons, hf] using ih
    exact m.nodup.sublist hsub

/-- The snapshot entry of a cached user: the primary gid is the uid unless there is one. -/
def CachedUser.posixEntry (user : CachedUser) : Option PosixUserEntry :=
  user.uidNumber.map fun uid => ⟨uid, user.primaryGid.getD uid, user.displayName⟩

/-- The group of a snapshot; one without a gid is left out. -/
def CachedGroup.posixEntry (g : CachedGroup) : Option PosixGroupEntry :=
  g.gidNumber.map fun gid => ⟨gid, g.displayName, g.members⟩

/-- `snapshot`, on swept caches. -/
def Resolver.identities (r : Resolver) : IdMapSnapshot :=
  ⟨r.userCache.filterMap CachedUser.posixEntry, r.groupCache.filterMap CachedGroup.posixEntry⟩

/-- `snapshot` -/
def Resolver.snapshot (now : Nat) (r : Resolver) : IdMapSnapshot × Resolver :=
  let r := r.evictExpired now
  (r.identities, r)

namespace ResolverEnv

variable (env : ResolverEnv)

/-- The gids of the groups behind DNs, one search at a time. -/
def pushDnGids (now : Nat) : List Str → List Int32 → Resolver → List Int32 × Resolver
  | [], gids, r => (gids, r)
  | dn :: rest, gids, r =>
    match env.groupGidFromDn now dn r with
    | (some gid, r) => pushDnGids now rest (pushNew gids gid) r
    | (none, r) => pushDnGids now rest gids r

/-- A group lists a principal, by its local part or whole. -/
def listsPrincipal (principal : Str) (entry : PosixGroupEntry) : Bool :=
  entry.members.any fun m =>
    eqIgnoreAsciiCase m (principalLocalPart principal) || eqIgnoreAsciiCase m principal

/-- The DNs in `memberOf`, of the user with this name or with its local part. -/
def memberofOf (now : Nat) (principal : Str) (r : Resolver) : Option (List Str) × Resolver :=
  match env.lookupUserDnAndMemberof now principal r with
  | (some hit, r) => (some hit.2, r)
  | (none, r) =>
    let short := principalLocalPart principal
    if short ≠ principal then
      let (hit, r) := env.lookupUserDnAndMemberof now short r
      (hit.map Prod.snd, r)
    else (none, r)

/-- `resolve_groups_for_principal` -/
def resolveGroupsForPrincipal (now : Nat) (principal : Str) (r : Resolver) :
    List Int32 × Resolver :=
  if (classifyPrincipal principal [] []).1 then
    let (snap, r) := r.snapshot now
    (machineGroupGidsForPrincipal principal snap, r)
  else
    let (user, r) := env.resolveUser now principal r
    let gids := ((user.bind fun hit => hit.2.1).map fun gid => [gid]).getD []
    let (memberofs, r) := env.memberofOf now principal r
    let (gids, r) := env.pushDnGids now (memberofs.getD []) gids r
    let (snap, r) := r.snapshot now
    (snap.groups.values.foldl (fun gids p =>
      if listsPrincipal principal p.2 then pushNew gids p.2.gid else gids) gids, r)

/-! ## The bulk load -/

/-- The attributes the bulk load asks users for. -/
def userLoadAttrs : List Str :=
  [env.attrs.userName, env.attrs.userUidNumber, env.attrs.userGidNumber, "cn".toList,
    "displayName".toList, env.attrs.userFullName]

/-- The attributes the bulk load asks groups for. -/
def groupLoadAttrs : List Str :=
  [env.attrs.groupName, env.attrs.groupGidNumber, env.attrs.groupMember, "uniqueMember".toList,
    "memberUid".toList, "cn".toList, "displayName".toList]

/-- Load one user, and count it: under its name, its uid, and its principal if it has another one. -/
def loadUser (now : Nat) (acc : Nat × Resolver) (se : SearchEntry) : Nat × Resolver :=
  let id := (extractFirstAttr se env.attrs.userName).getD []
  if id = [] then acc
  else
    match env.uidOf se with
    | none => acc
    | some uid =>
      let user : CachedUser := ⟨id, some uid, some ((env.primaryGidOf se).getD uid),
        extractDisplayName se env.attrs.userFullName id, now⟩
      let r := acc.2.cacheUser id uid user
      match extractFirstAttr se env.attrs.userPrincipalName with
      | some pval =>
        if pval ≠ [] ∧ pval ≠ id then
          (acc.1 + 1, { r with userCache := r.userCache.insert (pval, { user with id := pval }) })
        else (acc.1 + 1, r)
      | none => (acc.1 + 1, r)

/-- Load one group. -/
def loadGroup (now : Nat) (r : Resolver) (se : SearchEntry) : Resolver :=
  let id := (extractFirstAttr se env.attrs.groupName).getD []
  if id = [] then r
  else
    match env.gidOf se with
    | none => r
    | some gid => r.cacheGroup id gid (env.groupOf now id gid se)

/-- The users under the bases; a search that fails is passed over. -/
def loadUsers (now : Nat) : List Str → Nat × Resolver → Nat × Resolver
  | [], acc => acc
  | base :: rest, acc =>
    let (entries, r) := env.serviceSearch ⟨base, env.attrs.userObjectClass, none, env.userLoadAttrs⟩
      acc.2
    loadUsers now rest ((entries.getD []).foldl (env.loadUser now) (acc.1, r))

/-- The groups under the bases. -/
def loadGroups (now : Nat) : List Str → Resolver → Resolver
  | [], r => r
  | base :: rest, r =>
    let (entries, r) := env.serviceSearch
      ⟨base, env.attrs.groupObjectClass, none, env.groupLoadAttrs⟩ r
    loadGroups now rest ((entries.getD []).foldl (env.loadGroup now) r)

/-- `load_full_identities`: the number of users, counted anew under each base. -/
def loadFullIdentities (now : Nat) (r : Resolver) : Nat × Resolver :=
  let (loaded, r) := env.loadUsers now env.userBases (0, r.clearCaches)
  (loaded, env.loadGroups now env.groupBases r)

end ResolverEnv

end NfsKlldap
