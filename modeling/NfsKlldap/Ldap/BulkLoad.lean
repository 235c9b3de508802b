import NfsKlldap.Ldap.Directory

/-! # The bulk load of a directory (`load_full_identities`)

The load searches the bases one after the other and files every user it is shown under its name and
under its alias, so of the users that share a key the last one stands. The alias is read from an
attribute that the load may not have asked for.

* **`userCache_loadFullIdentities`** — the user cache after a load;
* **`LastUnder`** — the last user that the load files under a key;
* **`AliasesIndexed`** — every name and every alias leads to its user. -/

namespace NfsKlldap

open Text

/-! ## Users -/

namespace LdapEntry

variable (m : PosixAttributeMapping) (e : LdapEntry)

/-- The name of a user; none is an empty one. -/
def loginName : Str := (e.userName m).getD []

/-- The principal of a user. -/
def principal : Option Str := (e.valuesOf m.userPrincipalName).head?

/-- The uid and the primary gid of a user, which is the uid unless there is one. -/
def ids : Option (Int32 × Int32) := (e.uid m).map fun uid => (uid, (e.primaryGid m).getD uid)

/-- The user has a name and a uid that can be read. -/
def IsLoadable : Prop := e.loginName m ≠ [] ∧ (e.uid m).isSome

/-- Whether an entry can be loaded can be decided. -/
instance : Decidable (e.IsLoadable m) := inferInstanceAs (Decidable (_ ∧ _))

/-- A principal that is not empty and not the name is an alias. -/
def aliasName : Option Str := (e.principal m).filter fun p => p ≠ [] ∧ p ≠ e.loginName m

end LdapEntry

/-- The first value of an attribute, if it was asked for as it is spelled or in lower case. -/
theorem LdapEntry.extractFirstAttr_returned_eq (e : LdapEntry) (names : List Str) (n : Str) :
    extractFirstAttr (e.returned names) n =
      if n ∈ names ∨ toAsciiLowercase n ∈ names then (e.valuesOf n).head? else none := by
  rw [extractFirstAttr, get_returned, get_returned, valuesOf_toAsciiLowercase]
  by_cases hv : e.valuesOf n = []
  · simp [hv]
  · obtain ⟨v, rest, hcons⟩ := List.exists_cons_of_ne_nil hv
    by_cases hn : n ∈ names
    · simp [hn, hcons]
    · by_cases hlower : toAsciiLowercase n ∈ names
      · simp [hn, hlower, hcons]
      · simp [hn, hlower]

namespace ResolverEnv

variable (env : ResolverEnv)

/-- The load asks for the attribute that principals are read from. -/
def AsksPrincipal : Prop :=
  env.attrs.userPrincipalName ∈ env.userLoadAttrs ∨
    toAsciiLowercase env.attrs.userPrincipalName ∈ env.userLoadAttrs

/-- Whether a load asks for the principal can be decided. -/
instance : Decidable env.AsksPrincipal := inferInstanceAs (Decidable (_ ∨ _))

/-- The keys that a user is filed under. -/
def keysOf (e : LdapEntry) : List Str :=
  if e.IsLoadable env.attrs then
    e.loginName env.attrs :: (if env.AsksPrincipal then (e.aliasName env.attrs).toList else [])
  else []

/-- What is filed of a user under a key. -/
def loadedUser (now : Nat) (e : LdapEntry) (key : Str) : CachedUser :=
  ⟨key, e.uid env.attrs, (e.ids env.attrs).map Prod.snd,
    extractDisplayName (e.returned env.userLoadAttrs) env.attrs.userFullName
      (e.loginName env.attrs), now⟩

/-- The entries of a user, in the order they are written in. -/
def userWrites (now : Nat) (e : LdapEntry) : List (Str × CachedUser) :=
  (env.keysOf e).map fun key => (key, env.loadedUser now e key)

/-- Loading a user writes its entries. -/
theorem loadUser_returned (now : Nat) (acc : Nat × Resolver) (e : LdapEntry) :
    (env.loadUser now acc (e.returned env.userLoadAttrs)).2.userCache =
        (env.userWrites now e).foldl KeyedMap.insert acc.2.userCache ∧
      (env.loadUser now acc (e.returned env.userLoadAttrs)).2.groupCache = acc.2.groupCache := by
  -- the load asks for all attributes that it reads, but for the one of the principal
  have hname : extractFirstAttr (e.returned env.userLoadAttrs) env.attrs.userName =
      e.userName env.attrs := e.extractFirstAttr_returned (by simp [userLoadAttrs])
  have huid : env.uidOf (e.returned env.userLoadAttrs) = e.uid env.attrs := by
    rw [uidOf, e.extractFirstAttr_returned (by simp [userLoadAttrs])]
    rfl
  have hgid : env.primaryGidOf (e.returned env.userLoadAttrs) = e.primaryGid env.attrs := by
    rw [primaryGidOf, e.extractFirstAttr_returned (by simp [userLoadAttrs])]
    rfl
  have hprincipal : extractFirstAttr (e.returned env.userLoadAttrs) env.attrs.userPrincipalName =
      if env.AsksPrincipal then e.principal env.attrs else none :=
    e.extractFirstAttr_returned_eq _ _
  rw [loadUser, userWrites, keysOf]
  simp only [hname, huid, hgid, hprincipal]
  -- without a name or without a uid nothing is written
  by_cases hnil : (e.userName env.attrs).getD [] = []
  · have hload : ¬e.IsLoadable env.attrs := fun h => h.1 hnil
    rw [if_pos hnil, if_neg hload]
    exact ⟨rfl, rfl⟩
  rw [if_neg hnil]
  cases huidSome : e.uid env.attrs with
  | none =>
    have hload : ¬e.IsLoadable env.attrs := by
      rintro ⟨-, hsome⟩
      simp [huidSome] at hsome
    rw [if_neg hload]
    exact ⟨rfl, rfl⟩
  | some uid =>
    have hload : e.IsLoadable env.attrs := ⟨hnil, by simp [huidSome]⟩
    have hids : (e.ids env.attrs).map Prod.snd = some ((e.primaryGid env.attrs).getD uid) := by
      rw [LdapEntry.ids, huidSome]
      rfl
    have hentry : ∀ key, env.loadedUser now e key = ⟨key, some uid,
        some ((e.primaryGid env.attrs).getD uid), extractDisplayName (e.returned env.userLoadAttrs)
          env.attrs.userFullName ((e.userName env.attrs).getD []), now⟩ := by
      intro key
      rw [loadedUser, huidSome, hids]
      rfl
    rw [if_pos hload]
    -- the principal comes back only where another role asks for its attribute
    by_cases hask : env.AsksPrincipal
    case neg =>
      rw [if_neg hask, if_neg hask]
      simp only [List.map_cons, List.map_nil, List.foldl_cons, List.foldl_nil, hentry]
      exact ⟨rfl, rfl⟩
    case pos =>
      rw [if_pos hask, if_pos hask]
      cases hp : e.principal env.attrs with
      | none =>
        have halias : e.aliasName env.attrs = none := by rw [LdapEntry.aliasName, hp]; rfl
        simp only [halias, Option.toList_none, List.map_cons, List.map_nil, List.foldl_cons,
          List.foldl_nil, hentry]
        exact ⟨rfl, rfl⟩
      | some p =>
        -- an alias is written where it differs from the name
        by_cases hother : p ≠ [] ∧ p ≠ e.loginName env.attrs
        · have hwrite : p ≠ [] ∧ p ≠ (e.userName env.attrs).getD [] := hother
          have halias : e.aliasName env.attrs = some p := by
            rw [LdapEntry.aliasName, hp, Option.filter_some, if_pos (by simpa using hother)]
          simp only [halias, Option.toList_some, List.map_cons, List.map_nil, List.foldl_cons,
            List.foldl_nil, hentry, if_pos hwrite]
          exact ⟨rfl, rfl⟩
        · have hwrite : ¬(p ≠ [] ∧ p ≠ (e.userName env.attrs).getD []) := hother
          have halias : e.aliasName env.attrs = none := by
            rw [LdapEntry.aliasName, hp, Option.filter_some, if_neg (by simpa using hother)]
          simp only [halias, Option.toList_none, List.map_cons, List.map_nil, List.foldl_cons,
            List.foldl_nil, hentry, if_neg hwrite]
          exact ⟨rfl, rfl⟩

/-- The entries of a group, of which there is one at most. -/
def groupWrites (now : Nat) (e : LdapEntry) : List (Str × CachedGroup) :=
  match e.groupName env.attrs, e.gid env.attrs with
  | some name, some gid =>
    if name = [] then []
    else [(name, env.groupOf now name gid (e.returned env.groupLoadAttrs))]
  | _, _ => []

/-- Loading a group writes its entry. -/
theorem loadGroup_returned (now : Nat) (r : Resolver) (e : LdapEntry) :
    (env.loadGroup now r (e.returned env.groupLoadAttrs)).groupCache =
        (env.groupWrites now e).foldl KeyedMap.insert r.groupCache ∧
      (env.loadGroup now r (e.returned env.groupLoadAttrs)).userCache = r.userCache := by
  have hname : extractFirstAttr (e.returned env.groupLoadAttrs) env.attrs.groupName =
      e.groupName env.attrs := e.extractFirstAttr_returned (by simp [groupLoadAttrs])
  have hgid : env.gidOf (e.returned env.groupLoadAttrs) = e.gid env.attrs := by
    rw [gidOf, e.extractFirstAttr_returned (by simp [groupLoadAttrs])]
    rfl
  rw [loadGroup, groupWrites]
  simp only [hname, hgid]
  cases e.groupName env.attrs with
  | none => exact ⟨rfl, rfl⟩
  | some name =>
    cases e.gid env.attrs with
    | none =>
      simp only [ite_self]
      exact ⟨rfl, trivial⟩
    | some gid =>
      simp only [Option.getD_some]
      by_cases hnil : name = []
      · rw [if_pos hnil, if_pos hnil]
        exact ⟨rfl, rfl⟩
      · rw [if_neg hnil, if_neg hnil]
        exact ⟨rfl, rfl⟩

end ResolverEnv

/-! ## The load of a directory -/

namespace LdapDirectory

variable (d : LdapDirectory) (env : ResolverEnv)

/-- What a search for all entries of a class returns. -/
def listed (base cls : Str) : List LdapEntry :=
  d.entries.filter fun e => d.under e.dn base && e.hasClass cls

/-- A search without an assertion returns what is listed under its base. -/
theorem search_listed (base cls : Str) (names : List Str) :
    d.search ⟨base, cls, none, names⟩ = (d.listed base cls).map (·.returned names) := by
  rw [search, listed]
  congr 1
  refine List.filter_congr fun e _ => ?_
  simp [satisfies]

/-- The users in the order they are loaded in, once for every base they are under. -/
def loadOrder : List LdapEntry :=
  env.userBases.flatMap fun base => d.listed base env.attrs.userObjectClass

variable {d env}

/-- Users are loaded in their order. -/
theorem Serves.loadUsers (h : d.Serves env) (now : Nat) (bases : List Str) (acc : Nat × Resolver) :
    (env.loadUsers now bases acc).2.userCache =
        ((bases.flatMap fun base => d.listed base env.attrs.userObjectClass).flatMap
          (env.userWrites now)).foldl KeyedMap.insert acc.2.userCache ∧
      (env.loadUsers now bases acc).2.groupCache = acc.2.groupCache := by
  -- one base: the users one after another
  have hfold : ∀ (es : List LdapEntry) (acc : Nat × Resolver),
      ((es.map (·.returned env.userLoadAttrs)).foldl (env.loadUser now) acc).2.userCache =
          (es.flatMap (env.userWrites now)).foldl KeyedMap.insert acc.2.userCache ∧
        ((es.map (·.returned env.userLoadAttrs)).foldl (env.loadUser now) acc).2.groupCache =
          acc.2.groupCache := by
    intro es
    induction es with
    | nil => exact fun _ => ⟨rfl, rfl⟩
    | cons e es ih =>
      intro acc
      obtain ⟨huser, hgroup⟩ := env.loadUser_returned now acc e
      obtain ⟨husers, hgroups⟩ := ih (env.loadUser now acc (e.returned env.userLoadAttrs))
      rw [List.map_cons, List.foldl_cons, List.flatMap_cons, List.foldl_append]
      exact ⟨husers.trans (by rw [huser]), hgroups.trans hgroup⟩
  induction bases generalizing acc with
  | nil => exact ⟨rfl, rfl⟩
  | cons base bases ih =>
    rw [ResolverEnv.loadUsers, ResolverEnv.serviceSearch, h, search_listed, List.flatMap_cons,
      List.flatMap_append, List.foldl_append]
    dsimp only
    obtain ⟨huser, hgroup⟩ := hfold (d.listed base env.attrs.userObjectClass)
      (acc.1, { acc.2 with searches := acc.2.searches + 1 })
    obtain ⟨husers, hgroups⟩ := ih (((d.listed base env.attrs.userObjectClass).map
      (·.returned env.userLoadAttrs)).foldl (env.loadUser now)
        (acc.1, { acc.2 with searches := acc.2.searches + 1 }))
    exact ⟨husers.trans (by rw [huser]), hgroups.trans hgroup⟩

/-- Groups are loaded in their order. -/
theorem Serves.loadGroups (h : d.Serves env) (now : Nat) (bases : List Str) (r : Resolver) :
    (env.loadGroups now bases r).groupCache =
        ((bases.flatMap fun base => d.listed base env.attrs.groupObjectClass).flatMap
          (env.groupWrites now)).foldl KeyedMap.insert r.groupCache ∧
      (env.loadGroups now bases r).userCache = r.userCache := by
  have hfold : ∀ (es : List LdapEntry) (r : Resolver),
      ((es.map (·.returned env.groupLoadAttrs)).foldl (env.loadGroup now) r).groupCache =
          (es.flatMap (env.groupWrites now)).foldl KeyedMap.insert r.groupCache ∧
        ((es.map (·.returned env.groupLoadAttrs)).foldl (env.loadGroup now) r).userCache =
          r.userCache := by
    intro es
    induction es with
    | nil => exact fun _ => ⟨rfl, rfl⟩
    | cons e es ih =>
      intro r
      obtain ⟨hgroup, huser⟩ := env.loadGroup_returned now r e
      obtain ⟨hgroups, husers⟩ := ih (env.loadGroup now r (e.returned env.groupLoadAttrs))
      rw [List.map_cons, List.foldl_cons, List.flatMap_cons, List.foldl_append]
      exact ⟨hgroups.trans (by rw [hgroup]), husers.trans huser⟩
  induction bases generalizing r with
  | nil => exact ⟨rfl, rfl⟩
  | cons base bases ih =>
    rw [ResolverEnv.loadGroups, ResolverEnv.serviceSearch, h, search_listed, List.flatMap_cons,
      List.flatMap_append, List.foldl_append]
    dsimp only
    obtain ⟨hgroup, huser⟩ := hfold (d.listed base env.attrs.groupObjectClass)
      { r with searches := r.searches + 1 }
    obtain ⟨hgroups, husers⟩ := ih (((d.listed base env.attrs.groupObjectClass).map
      (·.returned env.groupLoadAttrs)).foldl (env.loadGroup now)
        { r with searches := r.searches + 1 })
    exact ⟨hgroups.trans (by rw [hgroup]), husers.trans huser⟩

/-- **The user cache after a load**: what is written of the users, in their order. -/
theorem Serves.userCache_loadFullIdentities (h : d.Serves env) (now : Nat) (r : Resolver) :
    (env.loadFullIdentities now r).2.userCache =
      ((d.loadOrder env).flatMap (env.userWrites now)).foldl KeyedMap.insert KeyedMap.empty := by
  rw [ResolverEnv.loadFullIdentities]
  exact (h.loadGroups now env.groupBases _).2.trans (h.loadUsers now env.userBases (0, r.clearCaches)).1

/-- The group cache after a load. -/
theorem Serves.groupCache_loadFullIdentities (h : d.Serves env) (now : Nat) (r : Resolver) :
    (env.loadFullIdentities now r).2.groupCache =
      ((env.groupBases.flatMap fun base => d.listed base env.attrs.groupObjectClass).flatMap
        (env.groupWrites now)).foldl KeyedMap.insert KeyedMap.empty := by
  rw [ResolverEnv.loadFullIdentities]
  have husers := (h.loadUsers now env.userBases (0, r.clearCaches)).2
  exact (h.loadGroups now env.groupBases _).1.trans (by rw [husers]; rfl)

/-! ## The snapshot after a load -/

variable (d env) in
/-- **The last user that is filed under a key** in a load. -/
def lastUnder (key : Str) : Option LdapEntry :=
  (d.loadOrder env).reverse.find? fun e => key ∈ env.keysOf e

/-- Of the entries that are written under a key those of the last user stand. -/
theorem find?_userWrites (now : Nat) (key : Str) (es : List LdapEntry) :
    (es.flatMap (env.userWrites now)).reverse.find? (fun w => w.1 = key) =
      (es.reverse.find? fun e => key ∈ env.keysOf e).map fun e =>
        (key, env.loadedUser now e key) := by
  -- one user writes at most one entry under a key
  have hone : ∀ e, (env.userWrites now e).reverse.find? (fun w => w.1 = key) =
      if key ∈ env.keysOf e then some (key, env.loadedUser now e key) else none := by
    intro e
    rw [ResolverEnv.userWrites, ← List.map_reverse, List.find?_map]
    by_cases hkey : key ∈ env.keysOf e
    · have hfind : (env.keysOf e).reverse.find? (fun k => k = key) = some key := by
        obtain ⟨k, hk⟩ := Option.isSome_iff_exists.mp
          (List.find?_isSome.mpr ⟨key, List.mem_reverse.mpr hkey, decide_eq_true rfl⟩ :
            ((env.keysOf e).reverse.find? fun k => k = key).isSome = true)
        obtain rfl : k = key := by simpa using List.find?_some hk
        exact hk
      rw [if_pos hkey]
      exact congrArg (Option.map fun k => (k, env.loadedUser now e k)) hfind
    · have hfind : (env.keysOf e).reverse.find? (fun k => k = key) = none := by
        rw [List.find?_eq_none]
        intro k hk
        rw [decide_eq_true_eq]
        rintro rfl
        exact hkey (List.mem_reverse.mp hk)
      rw [if_neg hkey]
      exact congrArg (Option.map fun k => (k, env.loadedUser now e k)) hfind
  induction es with
  | nil => rfl
  | cons e es ih =>
    rw [List.flatMap_cons, List.reverse_append, List.find?_append, ih, hone, List.reverse_cons,
      List.find?_append, Option.map_or]
    by_cases hkey : key ∈ env.keysOf e
    · simp [hkey]
    · simp [hkey]

/-- **What a load files under a key.** -/
theorem Serves.lookup_loadFullIdentities (h : d.Serves env) (now : Nat) (r : Resolver) (key : Str) :
    (env.loadFullIdentities now r).2.userCache.get? key =
      (d.lastUnder env key).map fun e => (key, env.loadedUser now e key) := by
  rw [h.userCache_loadFullIdentities, KeyedMap.get?_foldl_insert, find?_userWrites, lastUnder]
  exact Option.or_none

end LdapDirectory

/-- The value under a key of a map that is rebuilt. -/
theorem PairMap.get?_filterMap {κ β γ : Type} [DecidableEq κ] (m : PairMap κ β) (f : β → Option γ)
    (key : κ) : (m.filterMap f).get? key =
      (m.get? key).bind fun p => (f p.2).map fun c => (key, c) := by
  refine Option.ext fun q => ?_
  rw [KeyedMap.get?_eq_some_iff, Option.bind_eq_some_iff]
  constructor
  · rintro ⟨hq, rfl⟩
    obtain ⟨p, hp, hpq⟩ := List.mem_filterMap.mp hq
    obtain ⟨c, hc, rfl⟩ := Option.map_eq_some_iff.mp hpq
    exact ⟨p, KeyedMap.get?_eq_some_iff.mpr ⟨hp, rfl⟩, Option.map_eq_some_iff.mpr ⟨c, hc, rfl⟩⟩
  · rintro ⟨p, hp, hpq⟩
    obtain ⟨hmem, rfl⟩ := KeyedMap.get?_eq_some_iff.mp hp
    obtain ⟨c, hc, rfl⟩ := Option.map_eq_some_iff.mp hpq
    exact ⟨List.mem_filterMap.mpr ⟨p, hmem, Option.map_eq_some_iff.mpr ⟨c, hc, rfl⟩⟩, rfl⟩

/-- The uid and gid that a snapshot has under a key. -/
def IdMapSnapshot.idsOf (snap : IdMapSnapshot) (key : Str) : Option (Int32 × Int32) :=
  (snap.users.get? key).map fun p => (p.2.uid, p.2.gid)

/-- A sweep keeps what is fresh. -/
theorem Resolver.userCache_evictExpired {r : Resolver} {now : Nat}
    (h : ∀ p ∈ r.userCache.values, now - p.2.fetchedAt < identityCacheTtl) :
    (r.evictExpired now).userCache = r.userCache := by
  rw [evictExpired]
  split
  · rfl
  · refine KeyedMap.ext (List.filter_eq_self.mpr fun p hp => ?_)
    rw [decide_eq_true_eq]
    exact h p hp

namespace LdapDirectory

variable {d : LdapDirectory} {env : ResolverEnv}

/-- Only an entry that can be loaded has keys. -/
theorem isLoadable_of_mem_keysOf {e : LdapEntry} {key : Str} (h : key ∈ env.keysOf e) :
    e.IsLoadable env.attrs := by
  by_contra hload
  rw [ResolverEnv.keysOf, if_neg hload] at h
  exact absurd h List.not_mem_nil

/-- What is loaded is fresh. -/
theorem Serves.evictExpired_loadFullIdentities (h : d.Serves env) {now later : Nat}
    (hlater : later - now < identityCacheTtl) (r : Resolver) :
    ((env.loadFullIdentities now r).2.evictExpired later).userCache =
      (env.loadFullIdentities now r).2.userCache := by
  refine Resolver.userCache_evictExpired fun p hp => ?_
  have hget := KeyedMap.get?_eq_some_iff.mpr ⟨hp, rfl⟩
  rw [h.lookup_loadFullIdentities] at hget
  obtain ⟨e, -, heq⟩ := Option.map_eq_some_iff.mp hget
  rw [← heq]
  exact hlater

/-- **The snapshot after a load** has the ids of the last user that was filed under a key. -/
theorem Serves.idsOf_loadFullIdentities (h : d.Serves env) {now later : Nat}
    (hlater : later - now < identityCacheTtl) (r : Resolver) (key : Str) :
    ((env.loadFullIdentities now r).2.snapshot later).1.idsOf key =
      (d.lastUnder env key).bind fun e => e.ids env.attrs := by
  rw [IdMapSnapshot.idsOf, Resolver.snapshot, Resolver.identities, PairMap.get?_filterMap,
    h.evictExpired_loadFullIdentities hlater, h.lookup_loadFullIdentities]
  cases hlast : d.lastUnder env key with
  | none => rfl
  | some e =>
    obtain ⟨uid, huid⟩ := Option.isSome_iff_exists.mp
      (isLoadable_of_mem_keysOf (by simpa using List.find?_some hlast)).2
    simp [ResolverEnv.loadedUser, CachedUser.posixEntry, LdapEntry.ids, huid]

/-! ## Names and aliases -/

variable (d env) in
/-- The users that a load files. -/
def loaded : List LdapEntry := (d.loadOrder env).filter fun e => e.IsLoadable env.attrs

variable (d env) in
/-- No loaded user has this name. -/
def NoName (key : Str) : Prop := ∀ e ∈ d.loaded env, e.loginName env.attrs ≠ key

variable (d env) in
/-- **Names and aliases lead to their users** in what a resolver has cached: a name to its user, and an
alias to its user unless it is the name of another one. -/
structure AliasesIndexed (r : Resolver) (now : Nat) : Prop where
  names : ∀ e ∈ d.loaded env, (r.snapshot now).1.idsOf (e.loginName env.attrs) = e.ids env.attrs
  aliases : ∀ e ∈ d.loaded env, ∀ p, e.aliasName env.attrs = some p → d.NoName env p →
    (r.snapshot now).1.idsOf p = e.ids env.attrs ∧
      (env.resolveUser now p r).1.map (fun a => (a.1, a.2.1)) =
        (e.ids env.attrs).map fun ids => (ids.1, some ids.2)

variable (d env) in
/-- **The load can tell the users apart**: it asks for the principals if there are aliases, and of the
users that share a name or an alias the last one has the ids of all. -/
structure KeysApart : Prop where
  asked : env.AsksPrincipal ∨ ∀ e ∈ d.loaded env, ∀ p, e.aliasName env.attrs = some p →
    ¬d.NoName env p
  names : ∀ e ∈ d.loaded env,
    (d.lastUnder env (e.loginName env.attrs)).bind (·.ids env.attrs) = e.ids env.attrs
  aliases : env.AsksPrincipal → ∀ e ∈ d.loaded env, ∀ p, e.aliasName env.attrs = some p →
    d.NoName env p → (d.lastUnder env p).bind (·.ids env.attrs) = e.ids env.attrs

/-- A key that is no name is looked up only if the load asks for principals. -/
theorem lastUnder_eq_none {key : Str} (hask : ¬env.AsksPrincipal) (hname : d.NoName env key) :
    d.lastUnder env key = none := by
  rw [lastUnder, List.find?_eq_none]
  intro e he
  rw [List.mem_reverse] at he
  rw [decide_eq_true_eq, ResolverEnv.keysOf, if_neg hask]
  split_ifs with hload
  · rw [List.mem_singleton]
    exact fun hkey => hname e (List.mem_filter.mpr ⟨he, by simpa using hload⟩) hkey.symm
  · exact List.not_mem_nil

/-- **Bulk loads**: after a load of a directory, for as long as it is fresh, names and aliases lead to
their users exactly when the load can tell the users apart. -/
theorem Serves.aliasesIndexed_iff (h : d.Serves env) {now later : Nat}
    (hlater : later - now < identityCacheTtl) (r : Resolver) :
    d.AliasesIndexed env (env.loadFullIdentities now r).2 later ↔ d.KeysApart env := by
  have hids := h.idsOf_loadFullIdentities hlater r
  constructor
  case mp =>
    intro hindexed
    refine ⟨?_, fun e he => (hids _).symm.trans (hindexed.names e he), fun _ e he p hp hname =>
      (hids p).symm.trans (hindexed.aliases e he p hp hname).1⟩
    by_contra hasked
    push Not at hasked
    -- an alias that is not asked for is under no key
    obtain ⟨hask, e, he, p, hp, hname⟩ := hasked
    have hnone := (hids p).symm.trans (hindexed.aliases e he p hp hname).1
    rw [lastUnder_eq_none hask hname] at hnone
    obtain ⟨uid, huid⟩ := Option.isSome_iff_exists.mp
      (by simpa using (List.mem_filter.mp he).2 : e.IsLoadable env.attrs).2
    simp [LdapEntry.ids, huid] at hnone
  case mpr =>
    intro hapart
    refine ⟨fun e he => (hids _).trans (hapart.names e he), fun e he p hp hname => ?_⟩
    have hask : env.AsksPrincipal := hapart.asked.resolve_right fun hall => hall e he p hp hname
    have hlast := hapart.aliases hask e he p hp hname
    refine ⟨(hids p).trans hlast, ?_⟩
    obtain ⟨uid, huid⟩ := Option.isSome_iff_exists.mp
      (by simpa using (List.mem_filter.mp he).2 : e.IsLoadable env.attrs).2
    have heIds : e.ids env.attrs = some (uid, (e.primaryGid env.attrs).getD uid) := by
      rw [LdapEntry.ids, huid]
      rfl
    -- the user cached under the alias has the ids of the entry, whoever wrote it last
    rw [heIds] at hlast ⊢
    obtain ⟨e', hfind, hids'⟩ := Option.bind_eq_some_iff.mp hlast
    have huid' : e'.uid env.attrs = some uid ∧
        (e'.ids env.attrs).map Prod.snd = some ((e.primaryGid env.attrs).getD uid) := by
      refine ⟨?_, by rw [hids']; rfl⟩
      obtain ⟨u, hu, hpair⟩ := Option.map_eq_some_iff.mp hids'
      rw [hu, (Prod.mk.inj hpair).1]
    have hcached : ResolverEnv.cachedUser p ((env.loadFullIdentities now r).2.evictExpired later) =
        some (uid, env.loadedUser now e' p) := by
      rw [ResolverEnv.cachedUser, PairMap.lookup, h.evictExpired_loadFullIdentities hlater,
        h.lookup_loadFullIdentities, hfind]
      simp [ResolverEnv.loadedUser, huid'.1]
    rw [ResolverEnv.resolveUser, hcached]
    simp [ResolverEnv.userAnswer, ResolverEnv.loadedUser, huid'.2]

/-! ## A user with a principal -/

/-- A user whose principal is not its name. -/
def aliceSmith : LdapDirectory where
  entries := [⟨"uid=alice,ou=people,dc=example,dc=com".toList,
    [("objectClass".toList, ["posixAccount".toList]), ("uid".toList, ["alice".toList]),
      ("uidNumber".toList, ["1001".toList]), ("gidNumber".toList, ["2001".toList]),
      ("krbPrincipalName".toList, ["alice.smith@EXAMPLE.COM".toList])]⟩]
  under dn base := base.isSuffixOf dn
  matchesValue _ v asked := eqIgnoreAsciiCase v asked

/-- A resolver of that directory. -/
def aliceResolver (settings : SssdSection) : ResolverEnv where
  userBase := "ou=people,dc=example,dc=com".toList
  groupBase := "ou=groups,dc=example,dc=com".toList
  attrs := resolvePosixAttributeMapping settings
  search _ req := some (aliceSmith.search req)
  groupOrder l := l
  groupOrder_perm l := .refl l

/-- With the default attributes a load does not ask for principals, and files no alias. -/
theorem not_aliasesIndexed_defaultAttributes :
    ¬aliceSmith.AliasesIndexed (aliceResolver {})
      ((aliceResolver {}).loadFullIdentities 0 Resolver.new).2 0 := by
  intro h
  have halias := (h.aliases (aliceSmith.entries.head (by decide)) (by decide +kernel)
    "alice.smith@EXAMPLE.COM".toList (by decide +kernel)
    (by rw [NoName]; decide +kernel)).1
  revert halias
  decide +kernel

/-- With the principals as full names a load asks for them. -/
theorem aliasesIndexed_principalAsFullName :
    aliceSmith.AliasesIndexed
      (aliceResolver { ldapUserFullname := some "krbPrincipalName".toList })
      ((aliceResolver { ldapUserFullname := some "krbPrincipalName".toList }).loadFullIdentities 0
        Resolver.new).2 (5 * 10 ^ 9) := by
  have hserves : aliceSmith.Serves
      (aliceResolver { ldapUserFullname := some "krbPrincipalName".toList }) := fun _ _ => rfl
  refine (hserves.aliasesIndexed_iff (by decide) Resolver.new).mpr
    ⟨.inl (by decide +kernel), by decide +kernel, fun _ e he p hp _ => ?_⟩
  have hall : ∀ e ∈ aliceSmith.loaded
      (aliceResolver { ldapUserFullname := some "krbPrincipalName".toList }),
      ∀ p ∈ e.aliasName (aliceResolver
        { ldapUserFullname := some "krbPrincipalName".toList }).attrs,
      (aliceSmith.lastUnder (aliceResolver
        { ldapUserFullname := some "krbPrincipalName".toList }) p).bind
          (·.ids (aliceResolver { ldapUserFullname := some "krbPrincipalName".toList }).attrs) =
        e.ids (aliceResolver { ldapUserFullname := some "krbPrincipalName".toList }).attrs := by
    decide +kernel
  exact hall e he p hp

end LdapDirectory

end NfsKlldap
