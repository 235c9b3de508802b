import NfsKlldap.Ldap.BulkLoad

/-! # What the calls of a resolver file (`ldap/resolver.rs`)

A call is a sequence of moves: it sweeps the caches, searches the directory, remembers a miss or files
what it has found. What is filed is said in terms of the directory, for any conditions on users and groups
under their keys.

* **`ResolverCall`**, **`ResolverEnv.call`** — calls and runs of them;
* **`LdapDirectory.Move`** — a move;
* **`LdapDirectory.UserLookup`** — the five ways a lookup of a user ends;
* **`LdapDirectory.Serves.moves_call`** — a call is a sequence of moves;
* **`LdapDirectory.Moves.holds`** — what is filed is what is cached. -/

namespace NfsKlldap

open Text

/-! ## Calls -/

/-- What is asked of a resolver. -/
inductive ResolverCall
  | loadFullIdentities
  | resolveUser (name : Str)
  | resolveGroup (name : Str)
  | resolveUserByUid (uid : Int32)
  | resolveGroupByGid (gid : Int32)
  | resolveGroupsForPrincipal (principal : Str)

/-- The resolver after a call at some time. -/
def ResolverEnv.call (env : ResolverEnv) (r : Resolver) : Nat × ResolverCall → Resolver
  | (now, .loadFullIdentities) => (env.loadFullIdentities now r).2
  | (now, .resolveUser name) => (env.resolveUser now name r).2
  | (now, .resolveGroup name) => (env.resolveGroup now name r).2
  | (now, .resolveUserByUid uid) => (env.resolveUserByUid now uid r).2
  | (now, .resolveGroupByGid gid) => (env.resolveGroupByGid now gid r).2
  | (now, .resolveGroupsForPrincipal principal) => (env.resolveGroupsForPrincipal now principal r).2

/-- A group cache that is enumerated as it is listed. -/
theorem perm_listed (l : List (Str × CachedGroup)) : l.Perm l := .refl l

/-- The DNs of the groups that an entry says it is in. -/
def LdapEntry.memberOfs (e : LdapEntry) : List Str := e.valuesOf "memberOf".toList

/-- The gid of an entry, with blanks around it. -/
def LdapEntry.trimmedGid (m : PosixAttributeMapping) (e : LdapEntry) : Option Int32 :=
  (e.valuesOf m.groupGidNumber).head?.bind fun s => parseI32 (trim s)

namespace LdapDirectory

variable (d : LdapDirectory) (env : ResolverEnv)

/-! ## What a search finds -/

/-- The first user with a uid that the server finds for a value of an attribute. -/
def firstUserWith (attr value : Str) : Option LdapEntry :=
  ((d.users env).filter (d.satisfies (some (attr, escapeLdapFilter value)))).find? fun e =>
    (e.uid env.attrs).isSome

/-- The first group with a gid that the server finds for a name. -/
def firstGroupNamed (name : Str) : Option LdapEntry :=
  ((d.groups env).filter (d.satisfies (some (env.attrs.groupName, escapeLdapFilter name)))).find?
    fun e => (e.gid env.attrs).isSome

/-- The user that the server finds for a name, or by principal. -/
def userFor (name : Str) : Option LdapEntry :=
  (d.firstUserWith env env.attrs.userName name).or
    (if '@' ∈ name then d.firstUserWith env env.attrs.userPrincipalName name else none)

/-- The user whose `memberOf` is read for a name: the first one that the server finds. -/
def memberofSource (name : Str) : Option LdapEntry :=
  ((d.users env).filter (d.satisfies (some (env.attrs.userName, escapeLdapFilter name)))).head?

/-- The first gid at or under a DN. -/
def firstGidUnder (dn : Str) : Option Int32 :=
  (d.entries.filter fun e => d.under e.dn dn).findSome? (·.trimmedGid env.attrs)

/-- The cached user stands for a user of the directory. -/
def StandsFor (env : ResolverEnv) (user : CachedUser) (e : LdapEntry) : Prop :=
  ∀ entry ∈ user.posixEntry, e.ids env.attrs = some (entry.uid, entry.gid)

/-! ## Lookups that go to the server -/

/-- No cache answers the lookup of a user. -/
def AsksForUser (now : Nat) (name : Str) (r : Resolver) : Prop :=
  ResolverEnv.cachedUser name (r.evictExpired now) = none ∧
    (r.evictExpired now).negativeHit now ("u:".toList ++ name) = false

/-- No cache answers the lookup of a group by name. -/
def AsksForGroup (now : Nat) (name : Str) (r : Resolver) : Prop :=
  ((r.evictExpired now).groupCache.lookup name).bind CachedGroup.gidNumber = none ∧
    (r.evictExpired now).negativeHit now ("g:".toList ++ name) = false

/-- No cache answers the lookup of a group by gid. -/
def AsksForGid (now : Nat) (gid : Int32) (r : Resolver) : Prop :=
  ((r.evictExpired now).groupByGidCache.lookup gid).bind CachedGroup.gidNumber = none ∧
    (r.evictExpired now).negativeHit now ("gid:".toList ++ i32Text gid) = false

/-! ## Moves -/

/-- **A move** of a resolver that files users and groups under conditions. -/
inductive Move (now : Nat) (U : Str → CachedUser → Prop) (G : Str → CachedGroup → Prop) :
    Resolver → Resolver → Prop
  | sweep (r : Resolver) : Move now U G r (r.evictExpired now)
  | search (r : Resolver) (n : Nat) : Move now U G r { r with searches := n }
  | miss (r : Resolver) (key : Str) (h : ¬"mo:".toList <+: key) : Move now U G r (r.markNegative now key)
  | missMemberof (r : Resolver) (name : Str) (h : d.memberofSource env name = none) :
    Move now U G r (r.markNegative now ("mo:".toList ++ name))
  | user (r : Resolver) (key : Str) (uid : Int32) (user : CachedUser) (h : U key user) :
    Move now U G r (r.cacheUser key uid user)
  | group (r : Resolver) (key : Str) (gid : Int32) (g : CachedGroup) (h : G key g) :
    Move now U G r (r.cacheGroup key gid g)
  | dnGid (r : Resolver) (dn : Str) : Move now U G r { r with
      groupGidByDnCache := r.groupGidByDnCache.insert (dn, ⟨d.firstGidUnder env dn, now⟩) }
  | memberof (r : Resolver) (name : Str) (e : LdapEntry) (h : d.memberofSource env name = some e) :
    Move now U G r { r with
      memberofCache := r.memberofCache.insert (name, ⟨e.dn, e.memberOfs, now⟩) }
  | load (r : Resolver)
    (husers : ∀ key, ∀ e ∈ d.lastUnder env key, U key (env.loadedUser now e key))
    (hgroups : ∀ e ∈ d.groups env, ∀ p ∈ env.groupWrites now e, G p.1 p.2) :
    Move now U G r (env.loadFullIdentities now r).2

/-- Moves one after the other. -/
abbrev Moves (now : Nat) (U : Str → CachedUser → Prop) (G : Str → CachedGroup → Prop) :
    Resolver → Resolver → Prop :=
  Relation.ReflTransGen (d.Move env now U G)

/-- **How a lookup of a user ends**: what it answers, and the resolver after it. -/
inductive UserLookup (now : Nat) (name : Str) (r : Resolver) :
    Option (Int32 × Option Int32 × Str) × Resolver → Prop
  | cached (uid : Int32) (user : CachedUser)
    (h : ResolverEnv.cachedUser name (r.evictExpired now) = some (uid, user)) :
    UserLookup now name r (some (ResolverEnv.userAnswer uid user), r.evictExpired now)
  | denied (h : ResolverEnv.cachedUser name (r.evictExpired now) = none)
    (hmiss : (r.evictExpired now).negativeHit now ("u:".toList ++ name) = true) :
    UserLookup now name r (none, r.evictExpired now)
  | byName (n : Nat) (e : LdapEntry) (uid : Int32) (user : CachedUser) (hasks : AsksForUser now name r)
    (h : d.firstUserWith env env.attrs.userName name = some e) (hstands : StandsFor env user e)
    (huid : user.uidNumber = some uid) :
    UserLookup now name r (some (ResolverEnv.userAnswer uid user),
      { r.evictExpired now with searches := n }.cacheUser name uid user)
  | byPrincipal (n : Nat) (e : LdapEntry) (uid : Int32) (user : CachedUser)
    (hasks : AsksForUser now name r) (hat : '@' ∈ name)
    (hnone : d.firstUserWith env env.attrs.userName name = none)
    (h : d.firstUserWith env env.attrs.userPrincipalName name = some e)
    (hstands : StandsFor env user e) (huid : user.uidNumber = some uid) :
    UserLookup now name r (some (ResolverEnv.userAnswer uid user),
      { r.evictExpired now with searches := n }.cacheUser (principalLocalPart name) uid user)
  | missing (n : Nat) (hasks : AsksForUser now name r) (h : d.userFor env name = none) :
    UserLookup now name r (none,
      { r.evictExpired now with searches := n }.markNegative now ("u:".toList ++ name))

variable {d env}

/-! ## What is read from entries -/

/-- The uid that is read is that of the entry, when it was asked for. -/
theorem uidOf_returned {names : List Str} (e : LdapEntry) (h : env.attrs.userUidNumber ∈ names) :
    env.uidOf (e.returned names) = e.uid env.attrs := by
  rw [ResolverEnv.uidOf, e.extractFirstAttr_returned h]
  rfl

/-- The primary gid that is read is that of the entry, when it was asked for. -/
theorem primaryGidOf_returned {names : List Str} (e : LdapEntry)
    (h : env.attrs.userGidNumber ∈ names) :
    env.primaryGidOf (e.returned names) = e.primaryGid env.attrs := by
  rw [ResolverEnv.primaryGidOf, e.extractFirstAttr_returned h]
  rfl

/-- The gid that is read is that of the entry, when it was asked for. -/
theorem gidOf_returned {names : List Str} (e : LdapEntry) (h : env.attrs.groupGidNumber ∈ names) :
    env.gidOf (e.returned names) = e.gid env.attrs := by
  rw [ResolverEnv.gidOf, e.extractFirstAttr_returned h]
  rfl

/-- A cached user with the ids of an entry stands for it. -/
theorem standsFor_of_eq {user : CachedUser} {e : LdapEntry} (huid : user.uidNumber = e.uid env.attrs)
    (hgid : user.primaryGid = e.primaryGid env.attrs) : StandsFor env user e := by
  intro entry hentry
  obtain ⟨uid, hsome, rfl⟩ := Option.map_eq_some_iff.mp hentry
  rw [LdapEntry.ids, ← huid, hsome, ← hgid]
  rfl

/-- A loaded user stands for its entry. -/
theorem standsFor_loadedUser (env : ResolverEnv) (now : Nat) (e : LdapEntry) (key : Str) :
    StandsFor env (env.loadedUser now e key) e := by
  intro entry hentry
  obtain ⟨uid, huid, rfl⟩ := Option.map_eq_some_iff.mp hentry
  have huid' : e.uid env.attrs = some uid := huid
  rw [LdapEntry.ids, huid']
  simp [ResolverEnv.loadedUser, LdapEntry.ids, huid']

/-- The first user that is found is a user. -/
theorem mem_of_firstUserWith {attr value : Str} {e : LdapEntry}
    (h : d.firstUserWith env attr value = some e) :
    e ∈ d.users env :=
  (List.mem_filter.mp (List.mem_of_find?_eq_some h)).1

/-! ## Passes over the bases -/

/-- Of the entries that a search returns, the first one with a uid is taken. -/
theorem firstUser_returned {now : Nat} {id name : Str} {es : List LdapEntry} {uid : Int32}
    {user : CachedUser}
    (h : env.firstUser now id name (es.map (·.returned env.userLookupAttrs)) = some (uid, user)) :
    ∃ e, (es.find? fun e => (e.uid env.attrs).isSome) = some e ∧ StandsFor env user e ∧
      user.uidNumber = some uid := by
  induction es with
  | nil => cases h
  | cons e es ih =>
    rw [List.map_cons, ResolverEnv.firstUser, List.findSome?_cons,
      uidOf_returned e (by simp [ResolverEnv.userLookupAttrs]),
      primaryGidOf_returned e (by simp [ResolverEnv.userLookupAttrs])] at h
    cases hu : e.uid env.attrs with
    | none =>
      rw [hu] at h
      obtain ⟨e', hfind, hrest⟩ := ih h
      exact ⟨e', by rw [List.find?_cons_of_neg (by simp [hu]), hfind], hrest⟩
    | some u =>
      rw [hu] at h
      obtain ⟨rfl, rfl⟩ := Prod.mk.inj (Option.some.inj h)
      exact ⟨e, List.find?_cons_of_pos (by simp [hu]), standsFor_of_eq hu.symm rfl, rfl⟩

/-- No user is read when no entry that is found has a uid. -/
theorem firstUser_returned_eq_none {now : Nat} {id name : Str} {es : List LdapEntry}
    (h : env.firstUser now id name (es.map (·.returned env.userLookupAttrs)) = none) :
    (es.find? fun e => (e.uid env.attrs).isSome) = none := by
  rw [List.find?_eq_none]
  intro e he hsome
  obtain ⟨u, hu⟩ := Option.isSome_iff_exists.mp hsome
  have hnone := List.findSome?_eq_none_iff.mp h _ (List.mem_map_of_mem he)
  rw [uidOf_returned e (by simp [ResolverEnv.userLookupAttrs]), hu] at hnone
  cases hnone

/-- The first base is the one that is configured. -/
theorem basesFrom_eq (base : Str) : ∃ rest, ResolverEnv.basesFrom base = base :: rest := by
  rw [ResolverEnv.basesFrom]
  split_ifs
  · exact ⟨_, rfl⟩
  · exact ⟨_, rfl⟩

/-- The base of users is one of those that are searched. -/
theorem userBase_mem (env : ResolverEnv) : env.userBase ∈ env.userBases := by
  obtain ⟨rest, hrest⟩ := basesFrom_eq env.userBase
  rw [ResolverEnv.userBases, hrest]
  exact List.mem_cons_self

/-- The base of groups is one of those that are searched. -/
theorem groupBase_mem (env : ResolverEnv) : env.groupBase ∈ env.groupBases := by
  obtain ⟨rest, hrest⟩ := basesFrom_eq env.groupBase
  rw [ResolverEnv.groupBases, hrest]
  exact List.mem_cons_self

section Passes

variable (h : d.Serves env) (hposix : d.Posix env)

include h hposix

/-- **The pass by name** finds the first user, or nobody. -/
theorem Serves.passByName (now : Nat) (name : Str) {bases : List Str}
    (hbases : ∀ base ∈ bases, base ∈ env.userBases) (hne : bases ≠ []) (r : Resolver) :
    ∃ n, (∃ e uid user, env.passByName now name bases r = (.found uid user, { r with searches := n }) ∧
        d.firstUserWith env env.attrs.userName name = some e ∧ StandsFor env user e ∧
        user.uidNumber = some uid) ∨
      env.passByName now name bases r = (.missing, { r with searches := n }) ∧
        d.firstUserWith env env.attrs.userName name = none := by
  induction bases generalizing r with
  | nil => exact absurd rfl hne
  | cons base bases ih =>
    rw [ResolverEnv.passByName, ResolverEnv.serviceSearch, h,
      search_users hposix (hbases base List.mem_cons_self)]
    dsimp only
    cases hfirst : env.firstUser now name name (((d.users env).filter
        (d.satisfies (some (env.attrs.userName, escapeLdapFilter name)))).map
          (·.returned env.userLookupAttrs)) with
    | some hit =>
      obtain ⟨e, hfind, hstands, huid⟩ := firstUser_returned hfirst
      exact ⟨_, .inl ⟨e, hit.1, hit.2, rfl, hfind, hstands, huid⟩⟩
    | none =>
      cases bases with
      | nil => exact ⟨_, .inr ⟨rfl, firstUser_returned_eq_none hfirst⟩⟩
      | cons base' bases =>
        exact ih (fun b hb => hbases b (List.mem_cons_of_mem base hb)) (List.cons_ne_nil _ _) _

/-- **The pass by principal** finds the first user, or nobody. -/
theorem Serves.passByPrincipal (now : Nat) (name : Str) {bases : List Str}
    (hbases : ∀ base ∈ bases, base ∈ env.userBases) (hne : bases ≠ []) (r : Resolver) :
    ∃ n, (∃ e uid user,
        env.passByPrincipal now name bases r = (some (uid, user), { r with searches := n }) ∧
        d.firstUserWith env env.attrs.userPrincipalName name = some e ∧ StandsFor env user e ∧
        user.uidNumber = some uid) ∨
      env.passByPrincipal now name bases r = (none, { r with searches := n }) ∧
        d.firstUserWith env env.attrs.userPrincipalName name = none := by
  induction bases generalizing r with
  | nil => exact absurd rfl hne
  | cons base bases ih =>
    rw [ResolverEnv.passByPrincipal, ResolverEnv.serviceSearch, h,
      search_users hposix (hbases base List.mem_cons_self)]
    dsimp only
    cases hfirst : env.firstUser now (principalLocalPart name) name (((d.users env).filter
        (d.satisfies (some (env.attrs.userPrincipalName, escapeLdapFilter name)))).map
          (·.returned env.userLookupAttrs)) with
    | some hit =>
      obtain ⟨e, hfind, hstands, huid⟩ := firstUser_returned hfirst
      exact ⟨_, .inl ⟨e, hit.1, hit.2, rfl, hfind, hstands, huid⟩⟩
    | none =>
      cases bases with
      | nil => exact ⟨_, .inr ⟨rfl, firstUser_returned_eq_none hfirst⟩⟩
      | cons base' bases =>
        exact ih (fun b hb => hbases b (List.mem_cons_of_mem base hb)) (List.cons_ne_nil _ _) _

/-- **How lookups of users end.** -/
theorem Serves.userLookup (now : Nat) (name : Str) (r : Resolver) :
    d.UserLookup env now name r (env.resolveUser now name r) := by
  rw [ResolverEnv.resolveUser]
  dsimp only
  -- the cache, then the misses remembered, then the directory
  cases hcached : ResolverEnv.cachedUser name (r.evictExpired now) with
  | some hit => exact .cached hit.1 hit.2 hcached
  | none =>
    dsimp only
    cases hmiss : (r.evictExpired now).negativeHit now ("u:".toList ++ name) with
    | true => exact .denied hcached hmiss
    | false =>
      have hasks : AsksForUser now name r := ⟨hcached, hmiss⟩
      have hne : env.userBases ≠ [] := List.ne_nil_of_mem (userBase_mem env)
      rw [if_neg Bool.false_ne_true]
      obtain ⟨n, hpass⟩ := h.passByName hposix now name (fun _ => id) hne (r.evictExpired now)
      -- the pass by name finds the first entry that stands for a user
      rcases hpass with ⟨e, uid, user, hpass, hfirst, hstands, huid⟩ | ⟨hpass, hnone⟩
      · rw [hpass]
        exact .byName n e uid user hasks hfirst hstands huid
      · rw [hpass]
        dsimp only
        -- only a name with a realm is looked up by principal as well
        by_cases hat : '@' ∈ name
        · rw [if_pos hat]
          obtain ⟨n', hpass⟩ := h.passByPrincipal hposix now name (fun _ => id) hne
            { r.evictExpired now with searches := n }
          rcases hpass with ⟨e, uid, user, hpass, hfirst, hstands, huid⟩ | ⟨hpass, hnone'⟩
          · rw [hpass]
            exact .byPrincipal n' e uid user hasks hat hnone hfirst hstands huid
          · rw [hpass]
            refine .missing n' hasks ?_
            rw [userFor, hnone, hnone', ite_self]
            rfl
        · rw [if_neg hat]
          refine .missing n hasks ?_
          rw [userFor, hnone, if_neg hat]
          rfl

end Passes

/-! ## Calls as moves -/

section Calls

variable {now : Nat} {U : Str → CachedUser → Prop} {G : Str → CachedGroup → Prop} {r : Resolver}

/-- A key that does not begin like those of the missing `memberOf`s. -/
theorem not_memberofKey {c : Char} {s key : Str} (hkey : key = c :: s) (hc : 'm' ≠ c) :
    ¬"mo:".toList <+: key := by
  rintro ⟨t, rfl⟩
  exact hc (List.cons.inj hkey).1

/-- A search at the end is a move. -/
theorem Moves.search {r r' : Resolver} (h : d.Moves env now U G r r') (n : Nat) :
    d.Moves env now U G r { r' with searches := n } :=
  h.tail (.search r' n)

/-- A lookup of a user is made of moves that file what it finds. -/
theorem UserLookup.moves {name : Str} {out : Option (Int32 × Option Int32 × Str) × Resolver}
    (h : d.UserLookup env now name r out)
    (hname : AsksForUser now name r → ∀ e user,
      d.firstUserWith env env.attrs.userName name = some e → StandsFor env user e → U name user)
    (hprincipal : AsksForUser now name r → '@' ∈ name →
      d.firstUserWith env env.attrs.userName name = none → ∀ e user,
        d.firstUserWith env env.attrs.userPrincipalName name = some e → StandsFor env user e →
          U (principalLocalPart name) user) :
    d.Moves env now U G r out.2 := by
  have hsweep : d.Moves env now U G r (r.evictExpired now) := .single (.sweep r)
  cases h with
  | cached => exact hsweep
  | denied => exact hsweep
  | byName n e uid user hasks hfirst hstands =>
    exact (hsweep.search n).tail (.user _ name uid user (hname hasks e user hfirst hstands))
  | byPrincipal n e uid user hasks hat hnone hfirst hstands =>
    exact (hsweep.search n).tail (.user _ _ uid user
      (hprincipal hasks hat hnone e user hfirst hstands))
  | missing n => exact (hsweep.search n).tail (.miss _ _ (not_memberofKey rfl (by decide)))

/-- A lookup of a user leaves the groups alone. -/
theorem UserLookup.groupCache {name : Str} {out : Option (Int32 × Option Int32 × Str) × Resolver}
    (h : d.UserLookup env now name r out) : out.2.groupCache = (r.evictExpired now).groupCache := by
  cases h <;> rfl

variable (h : d.Serves env) (hposix : d.Posix env)

include h hposix

/-- A lookup by uid files a user under its own name. -/
theorem Serves.moves_resolveUserByUid {uid : Int32}
    (hfound : ∀ e ∈ d.users env, ∀ key user, e.userName env.attrs = some key →
      StandsFor env user e → U key user) :
    d.Moves env now U G r (env.resolveUserByUid now uid r).2 := by
  have hsweep : d.Moves env now U G r (r.evictExpired now) := .single (.sweep r)
  rw [ResolverEnv.resolveUserByUid]
  dsimp only
  cases ((r.evictExpired now).userByUidCache.lookup uid).bind fun user =>
      user.uidNumber.map fun _ => user with
  | some user => exact hsweep
  | none =>
    dsimp only
    cases (r.evictExpired now).negativeHit now ("uid:".toList ++ i32Text uid) with
    | true => exact hsweep
    | false =>
      rw [if_neg Bool.false_ne_true, ResolverEnv.serviceSearch, h,
        search_users hposix (userBase_mem env)]
      dsimp only
      have hsent := hsweep.search ((r.evictExpired now).searches + 1)
      -- the first entry that has the uid, or a miss that is remembered
      split
      case h_2 => exact hsent.tail (.miss _ _ (not_memberofKey rfl (by decide)))
      case h_1 user hfind =>
        obtain ⟨se, hse, hhit⟩ := List.exists_of_findSome?_eq_some hfind
        obtain ⟨e, he, rfl⟩ := List.mem_map.mp hse
        have heuser := (List.mem_filter.mp he).1
        split_ifs at hhit with huid
        obtain rfl := Option.some.inj hhit
        rw [uidOf_returned e (by simp)] at huid
        obtain ⟨name, hname⟩ := Option.ne_none_iff_exists'.mp (hposix.userNamed e heuser)
        have hid : ∀ names, env.attrs.userName ∈ names →
            extractFirstAttr (e.returned names) env.attrs.userName = some name :=
          fun _ hmem => (e.extractFirstAttr_returned hmem).trans hname
        refine hsent.tail (.user _ _ uid _ (hfound e heuser _ _ ?_
          (standsFor_of_eq huid.symm (primaryGidOf_returned e (by simp)))))
        rw [hid _ List.mem_cons_self]
        exact hname

omit h hposix in
/-- Of the entries that a search returns, the first one with a gid is taken. -/
theorem firstGroup_returned {name : Str} {es : List LdapEntry} {gid : Int32} {g : CachedGroup}
    (h : ((es.map (·.returned env.groupLookupAttrs)).findSome? fun se =>
      (env.gidOf se).map fun gid => (gid, env.groupOf now name gid se)) = some (gid, g)) :
    ∃ e, (es.find? fun e => (e.gid env.attrs).isSome) = some e ∧ e.gid env.attrs = some gid ∧
      g = env.groupOf now name gid (e.returned env.groupLookupAttrs) := by
  induction es with
  | nil => cases h
  | cons e es ih =>
    rw [List.map_cons, List.findSome?_cons,
      gidOf_returned e (by simp [ResolverEnv.groupLookupAttrs])] at h
    cases hgid : e.gid env.attrs with
    | none =>
      rw [hgid] at h
      obtain ⟨e', hfind, hrest⟩ := ih h
      exact ⟨e', by rw [List.find?_cons_of_neg (by simp [hgid]), hfind], hrest⟩
    | some n =>
      rw [hgid] at h
      obtain ⟨rfl, rfl⟩ := Prod.mk.inj (Option.some.inj h)
      exact ⟨e, List.find?_cons_of_pos (by simp [hgid]), hgid, rfl⟩

/-- A lookup of a group files the group that is found under the name. -/
theorem Serves.moves_resolveGroup {name : Str}
    (hfound : AsksForGroup now name r → ∀ e gid, d.firstGroupNamed env name = some e →
      e.gid env.attrs = some gid →
        G name (env.groupOf now name gid (e.returned env.groupLookupAttrs))) :
    d.Moves env now U G r (env.resolveGroup now name r).2 := by
  have hsweep : d.Moves env now U G r (r.evictExpired now) := .single (.sweep r)
  rw [ResolverEnv.resolveGroup]
  dsimp only
  split
  case h_1 gid g hcached => exact hsweep
  case h_2 hcached =>
    cases hmiss : (r.evictExpired now).negativeHit now ("g:".toList ++ name) with
    | true => exact hsweep
    | false =>
      -- no answer was at hand, which is what the caller's assumption is about
      have hasks : AsksForGroup now name r := by
        refine ⟨?_, hmiss⟩
        cases hlookup : (r.evictExpired now).groupCache.lookup name with
        | none => rfl
        | some g =>
          rw [hlookup] at hcached
          simpa using hcached
      rw [if_neg Bool.false_ne_true, ResolverEnv.serviceSearch, h,
        search_groups hposix (groupBase_mem env)]
      dsimp only
      have hsent := hsweep.search ((r.evictExpired now).searches + 1)
      split
      case h_2 => exact hsent.tail (.miss _ _ (not_memberofKey rfl (by decide)))
      case h_1 gid g hfind =>
        obtain ⟨e, hfirst, hgid, rfl⟩ := firstGroup_returned hfind
        exact hsent.tail (.group _ name gid _ (hfound hasks e gid hfirst hgid))

/-- A lookup by gid files a group under its own name. -/
theorem Serves.moves_resolveGroupByGid {gid : Int32}
    (hfound : AsksForGid now gid r → ∀ e ∈ d.groups env,
      d.satisfies (some (env.attrs.groupGidNumber, i32Text gid)) e = true →
      e.gid env.attrs = some gid → ∀ key, e.groupName env.attrs = some key →
        G key (env.groupOf now key gid (e.returned env.groupLookupAttrs))) :
    d.Moves env now U G r (env.resolveGroupByGid now gid r).2 := by
  have hsweep : d.Moves env now U G r (r.evictExpired now) := .single (.sweep r)
  rw [ResolverEnv.resolveGroupByGid]
  dsimp only
  split
  case h_1 g hcached => exact hsweep
  case h_2 hcached =>
    cases hmiss : (r.evictExpired now).negativeHit now ("gid:".toList ++ i32Text gid) with
    | true => exact hsweep
    | false =>
      -- no answer was at hand, which is what the caller's assumption is about
      have hasks : AsksForGid now gid r := by
        refine ⟨?_, hmiss⟩
        cases hlookup : (r.evictExpired now).groupByGidCache.lookup gid with
        | none => rfl
        | some g =>
          rw [hlookup] at hcached
          simpa using hcached
      rw [if_neg Bool.false_ne_true, ResolverEnv.serviceSearch, h,
        search_groups hposix (groupBase_mem env)]
      dsimp only
      have hsent := hsweep.search ((r.evictExpired now).searches + 1)
      -- the first entry that has the gid, or a miss that is remembered
      split
      case h_2 => exact hsent.tail (.miss _ _ (not_memberofKey rfl (by decide)))
      case h_1 g hfind =>
        obtain ⟨se, hse, hhit⟩ := List.exists_of_findSome?_eq_some hfind
        obtain ⟨e, he, rfl⟩ := List.mem_map.mp hse
        obtain ⟨hegroup, hsat⟩ := List.mem_filter.mp he
        split_ifs at hhit with hgid
        obtain rfl := Option.some.inj hhit
        rw [gidOf_returned e (by simp [ResolverEnv.groupLookupAttrs])] at hgid
        obtain ⟨name, hname⟩ := Option.ne_none_iff_exists'.mp (hposix.groupNamed e hegroup)
        have hid : extractFirstAttr (e.returned env.groupLookupAttrs) env.attrs.groupName =
            some name := (e.extractFirstAttr_returned List.mem_cons_self).trans hname
        rw [hid]
        exact hsent.tail (.group _ name gid _ (hfound hasks e hegroup hsat hgid name hname))

end Calls

/-! ## What is remembered of `memberOf` -/

variable (d env) in
/-- **What is remembered** of the `memberOf`s of users, and of the gids behind DNs, is what the directory
says. -/
structure Remembers (r : Resolver) : Prop where
  memberofs : ∀ p ∈ r.memberofCache.values,
    ∃ e, d.memberofSource env p.1 = some e ∧ p.2.memberofs = e.memberOfs
  dnGids : ∀ p ∈ r.groupGidByDnCache.values, p.2.gid = d.firstGidUnder env p.1
  misses : ∀ p ∈ r.negativeCache.values, ∀ name, p.1 = "mo:".toList ++ name →
    d.memberofSource env name = none

/-- What is remembered is as it was. -/
def SameMemory (r r' : Resolver) : Prop :=
  r'.memberofCache = r.memberofCache ∧ r'.groupGidByDnCache = r.groupGidByDnCache ∧
    r'.negativeCache = r.negativeCache

/-- What is remembered over two steps is remembered. -/
theorem SameMemory.trans {r r' r'' : Resolver} (h : SameMemory r r') (h' : SameMemory r' r'') :
    SameMemory r r'' :=
  ⟨h'.1.trans h.1, h'.2.1.trans h.2.1, h'.2.2.trans h.2.2⟩

/-- Loading a user leaves what is remembered. -/
theorem sameMemory_loadUser (env : ResolverEnv) (now : Nat) (acc : Nat × Resolver)
    (se : SearchEntry) : SameMemory acc.2 (env.loadUser now acc se).2 := by
  rw [ResolverEnv.loadUser]
  dsimp only
  split_ifs with hid
  · exact ⟨rfl, rfl, rfl⟩
  · cases env.uidOf se with
    | none => exact ⟨rfl, rfl, rfl⟩
    | some uid =>
      dsimp only
      cases extractFirstAttr se env.attrs.userPrincipalName with
      | none => exact ⟨rfl, rfl, rfl⟩
      | some pval =>
        dsimp only
        split_ifs
        · exact ⟨rfl, rfl, rfl⟩
        · exact ⟨rfl, rfl, rfl⟩

/-- Loading the users leaves what is remembered. -/
theorem sameMemory_loadUsers (env : ResolverEnv) (now : Nat) (bases : List Str)
    (acc : Nat × Resolver) : SameMemory acc.2 (env.loadUsers now bases acc).2 := by
  have hfold : ∀ (ses : List SearchEntry) (acc : Nat × Resolver),
      SameMemory acc.2 (ses.foldl (env.loadUser now) acc).2 := by
    intro ses
    induction ses with
    | nil => exact fun _ => ⟨rfl, rfl, rfl⟩
    | cons se ses ih => exact fun acc => (sameMemory_loadUser env now acc se).trans (ih _)
  induction bases generalizing acc with
  | nil => exact ⟨rfl, rfl, rfl⟩
  | cons base bases ih =>
    rw [ResolverEnv.loadUsers, ResolverEnv.serviceSearch]
    exact SameMemory.trans (hfold _ (acc.1, { acc.2 with searches := acc.2.searches + 1 })) (ih _)

/-- Loading the groups leaves what is remembered. -/
theorem sameMemory_loadGroups (env : ResolverEnv) (now : Nat) (bases : List Str) (r : Resolver) :
    SameMemory r (env.loadGroups now bases r) := by
  have hone : ∀ (r : Resolver) (se : SearchEntry), SameMemory r (env.loadGroup now r se) := by
    intro r se
    rw [ResolverEnv.loadGroup]
    split_ifs with hid
    · exact ⟨rfl, rfl, rfl⟩
    · cases env.gidOf se with
      | none => exact ⟨rfl, rfl, rfl⟩
      | some gid => exact ⟨rfl, rfl, rfl⟩
  have hfold : ∀ (ses : List SearchEntry) (r : Resolver),
      SameMemory r (ses.foldl (env.loadGroup now) r) := by
    intro ses
    induction ses with
    | nil => exact fun _ => ⟨rfl, rfl, rfl⟩
    | cons se ses ih => exact fun r => (hone r se).trans (ih _)
  induction bases generalizing r with
  | nil => exact ⟨rfl, rfl, rfl⟩
  | cons base bases ih =>
    rw [ResolverEnv.loadGroups, ResolverEnv.serviceSearch]
    exact SameMemory.trans (hfold _ { r with searches := r.searches + 1 }) (ih _)

/-- A load forgets. -/
theorem sameMemory_loadFullIdentities (env : ResolverEnv) (now : Nat) (r : Resolver) :
    SameMemory Resolver.new (env.loadFullIdentities now r).2 := by
  rw [ResolverEnv.loadFullIdentities]
  have hclear : SameMemory Resolver.new r.clearCaches := ⟨rfl, rfl, rfl⟩
  exact (hclear.trans (sameMemory_loadUsers env now env.userBases (0, r.clearCaches))).trans
    (sameMemory_loadGroups env now env.groupBases _)

namespace Remembers

variable {r r' : Resolver}

/-- Only what is remembered matters. -/
theorem congr (h : d.Remembers env r) (hsame : SameMemory r r') : d.Remembers env r' :=
  ⟨hsame.1 ▸ h.memberofs, hsame.2.1 ▸ h.dnGids, hsame.2.2 ▸ h.misses⟩

/-- A new resolver remembers nothing. -/
theorem new : d.Remembers env Resolver.new :=
  ⟨fun _ hp => absurd hp List.not_mem_nil, fun _ hp => absurd hp List.not_mem_nil,
    fun _ hp => absurd hp List.not_mem_nil⟩

end Remembers

/-- **A move** keeps what is remembered right. -/
theorem Move.remembers {now : Nat} {U : Str → CachedUser → Prop} {G : Str → CachedGroup → Prop}
    {r r' : Resolver} (h : d.Move env now U G r r') (hr : d.Remembers env r) :
    d.Remembers env r' := by
  cases h with
  -- a sweep drops what is remembered and adds nothing
  | sweep =>
    rw [Resolver.evictExpired]
    split
    · exact hr
    · exact ⟨fun p hp => hr.memberofs p (List.mem_of_mem_filter hp),
        fun p hp => hr.dnGids p (List.mem_of_mem_filter hp),
        fun p hp => hr.misses p (List.mem_of_mem_filter hp)⟩
  | search n => exact hr.congr ⟨rfl, rfl, rfl⟩
  -- a miss under a key of another kind says nothing about `memberOf`
  | miss key hkey =>
    refine ⟨hr.memberofs, hr.dnGids, fun p hp name heq => ?_⟩
    rcases KeyedMap.mem_insert.mp hp with ⟨hp, -⟩ | rfl
    · exact hr.misses p hp name heq
    · exact absurd ⟨name, heq.symm⟩ hkey
  -- its key gives the name back, so the miss is the one that is justified
  | missMemberof name hnone =>
    refine ⟨hr.memberofs, hr.dnGids, fun p hp name' heq => ?_⟩
    rcases KeyedMap.mem_insert.mp hp with ⟨hp, -⟩ | rfl
    · exact hr.misses p hp name' heq
    · rwa [← List.append_cancel_left heq]
  | user => exact hr.congr ⟨rfl, rfl, rfl⟩
  | group => exact hr.congr ⟨rfl, rfl, rfl⟩
  -- what is filed is what the directory says
  | dnGid dn =>
    refine ⟨hr.memberofs, fun p hp => ?_, hr.misses⟩
    rcases KeyedMap.mem_insert.mp hp with ⟨hp, -⟩ | rfl
    · exact hr.dnGids p hp
    · rfl
  | memberof name e hsource =>
    refine ⟨fun p hp => ?_, hr.dnGids, hr.misses⟩
    rcases KeyedMap.mem_insert.mp hp with ⟨hp, -⟩ | rfl
    · exact hr.memberofs p hp
    · exact ⟨e, hsource, rfl⟩
  -- a load starts from an empty memory
  | load => exact Remembers.new.congr (sameMemory_loadFullIdentities env now r)

/-- **Moves** leave what is remembered right. -/
theorem Moves.remembers {now : Nat} {U : Str → CachedUser → Prop} {G : Str → CachedGroup → Prop}
    {r r' : Resolver} (h : d.Moves env now U G r r') (hr : d.Remembers env r) :
    d.Remembers env r' := by
  induction h with
  | refl => exact hr
  | tail _ hmove ih => exact hmove.remembers ih

/-- The user whose `memberOf` is read for a principal. -/
def memberofOwner (d : LdapDirectory) (env : ResolverEnv) (principal : Str) : Option LdapEntry :=
  (d.memberofSource env principal).or (d.memberofSource env (principalLocalPart principal))

/-- The gid that is found behind a DN: that of a cached group with the name in the first RDN, or the first
one under the DN. -/
def gidBehind (d : LdapDirectory) (env : ResolverEnv) (dn : Str) (r : Resolver) : Option Int32 :=
  (env.cachedGroupOfRdn dn r).or (d.firstGidUnder env dn)

/-- Only the group cache says which gid is behind a DN. -/
theorem gidBehind_congr {r r' : Resolver} (h : r'.groupCache = r.groupCache) (dn : Str) :
    d.gidBehind env dn r' = d.gidBehind env dn r := by
  rw [gidBehind, gidBehind, ResolverEnv.cachedGroupOfRdn, ResolverEnv.cachedGroupOfRdn, h]

/-- The `memberOf` values that are read are those of the entry. -/
theorem memberofs_returned (e : LdapEntry) (attr : Str) :
    (((e.returned [attr, "memberOf".toList]).get "memberOf".toList).or
      ((e.returned [attr, "memberOf".toList]).get "memberof".toList)).getD [] = e.memberOfs := by
  have hlower : e.valuesOf "memberof".toList = e.valuesOf "memberOf".toList := by
    rw [← LdapEntry.valuesOf_toAsciiLowercase e "memberOf".toList]
    congr 1
  rw [LdapEntry.get_returned, LdapEntry.get_returned, hlower, LdapEntry.memberOfs]
  by_cases hv : e.valuesOf "memberOf".toList = []
  · rw [if_neg fun h => h.2 hv, if_neg fun h => h.2 hv, hv]
    rfl
  · rw [if_pos ⟨List.mem_cons_of_mem attr List.mem_cons_self, hv⟩]
    rfl

/-- A search at a DN. -/
theorem search_under (d : LdapDirectory) (dn : Str) (names : List Str) :
    d.search ⟨dn, ['*'], none, names⟩ =
      (d.entries.filter fun e => d.under e.dn dn).map (·.returned names) := by
  rw [search]
  congr 1
  refine List.filter_congr fun e _ => ?_
  simp [satisfies, LdapEntry.hasClass]

section Groups

variable {U : Str → CachedUser → Prop} {G : Str → CachedGroup → Prop}

variable (h : d.Serves env) (hposix : d.Posix env)

include h hposix

/-- **The `memberOf` of a name** is that of the first user with the name. -/
theorem Serves.lookupUserDnAndMemberof (now : Nat) (name : Str) (r : Resolver) :
    d.Moves env now U G r (env.lookupUserDnAndMemberof now name r).2 ∧
      (env.lookupUserDnAndMemberof now name r).2.groupCache = r.groupCache ∧
      (d.Remembers env r → (env.lookupUserDnAndMemberof now name r).1.map Prod.snd =
        (d.memberofSource env name).map (·.memberOfs)) := by
  rw [ResolverEnv.lookupUserDnAndMemberof]
  split
  -- a fresh row is what the directory said of the name
  case h_1 hit hcached =>
    refine ⟨.refl, rfl, fun hr => ?_⟩
    obtain ⟨p, hp, rfl⟩ := Option.map_eq_some_iff.mp (Option.filter_eq_some_iff.mp hcached).1
    obtain ⟨hmem, rfl⟩ := KeyedMap.get?_eq_some_iff.mp hp
    obtain ⟨e, hsource, hvalues⟩ := hr.memberofs p hmem
    rw [hsource]
    exact congrArg some hvalues
  case h_2 =>
    dsimp only
    cases hmiss : r.negativeHit now ("mo:".toList ++ name) with
    -- a miss that is remembered was justified
    | true =>
      refine ⟨.refl, rfl, fun hr => ?_⟩
      cases hlookup : r.negativeCache.lookup ("mo:".toList ++ name) with
      | none =>
        rw [Resolver.negativeHit, hlookup] at hmiss
        cases hmiss
      | some t =>
        obtain ⟨p, hp, -⟩ := Option.map_eq_some_iff.mp hlookup
        obtain ⟨hmem, hkey⟩ := KeyedMap.get?_eq_some_iff.mp hp
        rw [hr.misses p hmem name hkey]
        rfl
    | false =>
      rw [if_neg Bool.false_ne_true, ResolverEnv.serviceSearch, h,
        search_users hposix (userBase_mem env)]
      dsimp only
      have hsent : d.Moves env now U G r { r with searches := r.searches + 1 } :=
        .single (.search r _)
      cases hfound : (d.users env).filter
          (d.satisfies (some (env.attrs.userName, escapeLdapFilter name))) with
      -- the search found nobody with the name
      | nil =>
        have hnone : d.memberofSource env name = none := by rw [memberofSource, hfound]; rfl
        refine ⟨hsent.tail (.missMemberof _ name hnone), rfl, fun _ => ?_⟩
        rw [hnone]
        rfl
      -- the first user it found is the source
      | cons e es =>
        have hsome : d.memberofSource env name = some e := by rw [memberofSource, hfound]; rfl
        rw [List.map_cons]
        dsimp only
        rw [memberofs_returned]
        refine ⟨hsent.tail (.memberof _ name e hsome), rfl, fun _ => ?_⟩
        rw [hsome]
        rfl

/-- **The `memberOf` of a principal** is that of the user with this name, or with the local part. -/
theorem Serves.memberofOf (now : Nat) (principal : Str) (r : Resolver) :
    d.Moves env now U G r (env.memberofOf now principal r).2 ∧
      (env.memberofOf now principal r).2.groupCache = r.groupCache ∧
      (d.Remembers env r → (env.memberofOf now principal r).1 =
        (d.memberofOwner env principal).map (·.memberOfs)) := by
  obtain ⟨hmoves, hgroups, hvalue⟩ :=
    h.lookupUserDnAndMemberof hposix (U := U) (G := G) now principal r
  rw [ResolverEnv.memberofOf]
  cases hlookup : env.lookupUserDnAndMemberof now principal r with
  | mk found r' =>
    rw [hlookup] at hmoves hgroups hvalue
    cases found with
    | some hit =>
      refine ⟨hmoves, hgroups, fun hr => ?_⟩
      obtain ⟨e, hsource, hvalues⟩ := Option.map_eq_some_iff.mp (hvalue hr).symm
      rw [memberofOwner, hsource]
      exact congrArg some hvalues.symm
    | none =>
      dsimp only
      -- the local part is looked up only where it is another name
      by_cases hshort : principalLocalPart principal = principal
      · rw [if_neg (not_not.mpr hshort)]
        refine ⟨hmoves, hgroups, fun hr => ?_⟩
        rw [memberofOwner, hshort, Option.or_self]
        exact hvalue hr
      · rw [if_pos hshort]
        obtain ⟨hmoves', hgroups', hvalue'⟩ :=
          h.lookupUserDnAndMemberof hposix (U := U) (G := G) now (principalLocalPart principal) r'
        refine ⟨hmoves.trans hmoves', hgroups'.trans hgroups, fun hr => ?_⟩
        rw [memberofOwner, Option.map_eq_none_iff.mp (hvalue hr).symm, Option.none_or]
        exact hvalue' (hmoves.remembers hr)

omit hposix in
/-- **The gid behind a DN.** -/
theorem Serves.groupGidFromDn (now : Nat) (dn : Str) (r : Resolver) :
    d.Moves env now U G r (env.groupGidFromDn now dn r).2 ∧
      (env.groupGidFromDn now dn r).2.groupCache = r.groupCache ∧
      (d.Remembers env r → (env.groupGidFromDn now dn r).1 = d.gidBehind env dn r) := by
  -- the search under the DN asks for the attribute that it reads
  have hfound : (d.search ⟨dn, ['*'], none, [env.attrs.groupGidNumber]⟩).findSome? (fun se =>
      (extractFirstAttr se env.attrs.groupGidNumber).bind fun s => parseI32 (trim s)) =
        d.firstGidUnder env dn := by
    rw [search_under, List.findSome?_map, firstGidUnder]
    congr 1
    funext e
    show (extractFirstAttr (e.returned _) env.attrs.groupGidNumber).bind _ = _
    rw [e.extractFirstAttr_returned List.mem_cons_self]
    rfl
  rw [ResolverEnv.groupGidFromDn]
  split
  -- a cached group of the name in front of the DN comes first, for both
  case h_1 gid hrdn =>
    refine ⟨.refl, rfl, fun _ => ?_⟩
    rw [gidBehind, hrdn]
    rfl
  case h_2 hrdn =>
    dsimp only
    split
    -- then a row filed under the DN, and last the search
    case h_1 hit hcached =>
      refine ⟨.refl, rfl, fun hr => ?_⟩
      obtain ⟨p, hp, rfl⟩ := Option.map_eq_some_iff.mp (Option.filter_eq_some_iff.mp hcached).1
      obtain ⟨hmem, rfl⟩ := KeyedMap.get?_eq_some_iff.mp hp
      rw [gidBehind, hrdn]
      exact hr.dnGids p hmem
    case h_2 =>
      rw [ResolverEnv.serviceSearch, h, Option.getD_some, hfound]
      refine ⟨Relation.ReflTransGen.single (.search r (r.searches + 1)) |>.tail (.dnGid _ dn), rfl,
        fun _ => ?_⟩
      rw [gidBehind, hrdn]
      rfl

omit hposix in
/-- **The gids behind DNs.** -/
theorem Serves.pushDnGids (now : Nat) (dns : List Str) (gids : List Int32) (r : Resolver) :
    d.Moves env now U G r (env.pushDnGids now dns gids r).2 ∧
      (env.pushDnGids now dns gids r).2.groupCache = r.groupCache ∧
      (d.Remembers env r → ∀ gid ∈ (env.pushDnGids now dns gids r).1,
        gid ∈ gids ∨ ∃ dn ∈ dns, d.gidBehind env dn r = some gid) := by
  induction dns generalizing gids r with
  | nil => exact ⟨.refl, rfl, fun _ gid hgid => .inl hgid⟩
  | cons dn dns ih =>
    obtain ⟨hmoves, hgroups, hvalue⟩ := h.groupGidFromDn (U := U) (G := G) now dn r
    rw [ResolverEnv.pushDnGids]
    cases hlookup : env.groupGidFromDn now dn r with
    | mk found r' =>
      rw [hlookup] at hmoves hgroups hvalue
      cases found with
      | none =>
        obtain ⟨hmoves', hgroups', hrest⟩ := ih gids r'
        refine ⟨hmoves.trans hmoves', hgroups'.trans hgroups, fun hr gid hgid => ?_⟩
        rcases hrest (hmoves.remembers hr) gid hgid with hgid | ⟨dn', hdn, hbehind⟩
        · exact .inl hgid
        · exact .inr ⟨dn', List.mem_cons_of_mem dn hdn, by rwa [gidBehind_congr hgroups] at hbehind⟩
      | some found =>
        obtain ⟨hmoves', hgroups', hrest⟩ := ih (pushNew gids found) r'
        refine ⟨hmoves.trans hmoves', hgroups'.trans hgroups, fun hr gid hgid => ?_⟩
        rcases hrest (hmoves.remembers hr) gid hgid with hgid | ⟨dn', hdn, hbehind⟩
        · rcases mem_pushNew.mp hgid with hgid | rfl
          · exact .inl hgid
          · exact .inr ⟨dn, List.mem_cons_self, (hvalue hr).symm⟩
        · exact .inr ⟨dn', List.mem_cons_of_mem dn hdn, by rwa [gidBehind_congr hgroups] at hbehind⟩

/-- **The groups of a principal**: only the lookup of the user files one. -/
theorem Serves.moves_resolveGroupsForPrincipal {now : Nat} {principal : Str} {r : Resolver}
    (hname : (classifyPrincipal principal [] []).1 = false → AsksForUser now principal r →
      ∀ e user, d.firstUserWith env env.attrs.userName principal = some e → StandsFor env user e →
        U principal user)
    (hprincipal : (classifyPrincipal principal [] []).1 = false → AsksForUser now principal r →
      '@' ∈ principal → d.firstUserWith env env.attrs.userName principal = none → ∀ e user,
        d.firstUserWith env env.attrs.userPrincipalName principal = some e → StandsFor env user e →
          U (principalLocalPart principal) user) :
    d.Moves env now U G r (env.resolveGroupsForPrincipal now principal r).2 := by
  rw [ResolverEnv.resolveGroupsForPrincipal]
  cases hmachine : (classifyPrincipal principal [] []).1 with
  | true => exact .single (.sweep r)
  | false =>
    rw [if_neg Bool.false_ne_true]
    have huser : d.Moves env now U G r (env.resolveUser now principal r).2 :=
      (h.userLookup hposix now principal r).moves (hname hmachine) (hprincipal hmachine)
    exact ((huser.trans (h.memberofOf hposix now principal _).1).trans
      (h.pushDnGids now _ _ _).1).tail (.sweep _)

end Groups

/-! ## What is cached -/

/-- **A condition on what is cached** of users and groups. -/
structure CachesHold (U : Str → CachedUser → Prop) (G : Str → CachedGroup → Prop) (r : Resolver) :
    Prop where
  users : ∀ p ∈ r.userCache.values, U p.1 p.2
  groups : ∀ p ∈ r.groupCache.values, G p.1 p.2

section Holds

variable {now : Nat} {U : Str → CachedUser → Prop} {G : Str → CachedGroup → Prop} {r r' : Resolver}

/-- A new resolver has cached nothing. -/
theorem cachesHold_new : CachesHold U G Resolver.new :=
  ⟨fun _ hp => absurd hp List.not_mem_nil, fun _ hp => absurd hp List.not_mem_nil⟩

/-- What is cached stays, or it is what a move files. -/
theorem Move.holds (hserves : d.Serves env) (h : d.Move env now U G r r') (hr : CachesHold U G r) :
    CachesHold U G r' := by
  cases h with
  -- a sweep drops what is cached and adds nothing
  | sweep =>
    rw [Resolver.evictExpired]
    split
    · exact hr
    · exact ⟨fun p hp => hr.users p (List.mem_of_mem_filter hp),
        fun p hp => hr.groups p (List.mem_of_mem_filter hp)⟩
  | search => exact ⟨hr.users, hr.groups⟩
  | miss => exact ⟨hr.users, hr.groups⟩
  | missMemberof => exact ⟨hr.users, hr.groups⟩
  -- only the new entry is to be justified, and the move says how
  | user key uid user hnew =>
    refine ⟨fun p hp => ?_, hr.groups⟩
    rcases KeyedMap.mem_insert.mp hp with ⟨hp, -⟩ | rfl
    · exact hr.users p hp
    · exact hnew
  | group key gid g hnew =>
    refine ⟨hr.users, fun p hp => ?_⟩
    rcases KeyedMap.mem_insert.mp hp with ⟨hp, -⟩ | rfl
    · exact hr.groups p hp
    · exact hnew
  | dnGid => exact ⟨hr.users, hr.groups⟩
  | memberof => exact ⟨hr.users, hr.groups⟩
  -- after a load the caches hold what the directory lists, and that alone
  | load husers hgroups =>
    constructor
    · intro p hp
      have hget := KeyedMap.get?_eq_some_iff.mpr ⟨hp, rfl⟩
      rw [hserves.lookup_loadFullIdentities] at hget
      obtain ⟨e, hlast, heq⟩ := Option.map_eq_some_iff.mp hget
      rw [← heq]
      exact husers p.1 e hlast
    · intro p hp
      rw [hserves.groupCache_loadFullIdentities] at hp
      rcases KeyedMap.mem_foldl_insert (f := id) hp with ⟨hp, -⟩ | ⟨x, hx, rfl⟩
      · exact absurd hp List.not_mem_nil
      · obtain ⟨e, he, hx⟩ := List.mem_flatMap.mp hx
        obtain ⟨base, -, he⟩ := List.mem_flatMap.mp he
        obtain ⟨hentry, hlisted⟩ := List.mem_filter.mp he
        exact hgroups e (List.mem_filter.mpr ⟨hentry, (Bool.and_eq_true_iff.mp hlisted).2⟩) _ hx

/-- **Moves** cache what they file. -/
theorem Moves.holds (hserves : d.Serves env) (h : d.Moves env now U G r r') (hr : CachesHold U G r) :
    CachesHold U G r' := by
  induction h with
  | refl => exact hr
  | tail _ hmove ih => exact hmove.holds hserves ih

end Holds

end LdapDirectory

end NfsKlldap
