import NfsKlldap.Ldap.PrincipalGroups
import NfsKlldap.Lib.Runs

/-! # How old an answer of the resolver is (`ldap/resolver.rs`)

The directory changes while the resolver answers out of its caches, and a search may fail. A cached entry
is dropped by the first sweep that finds it expired; sweeps are made at most every five seconds, so that an
answer may be as much older than the time to live. What the directory said is read off the answers to the
searches, each of which was made at some time.

* `UserSaid`, `GroupSaid`, `MemberofSaid`, `GidSaid` — what the directory said at some time;
* `AnswerBacked` — the directory said lately what is answered;
* `Kept` — everything cached was said by the directory, and outlived the last sweep;
* **`answers_backed`** — every answer, in every run, was said by the directory less than `maxStale` ago. -/

namespace NfsKlldap

open Text Runs

/-- The longest time for which the resolver repeats what it was told. -/
def maxStale : Nat := identityCacheTtl + evictInterval

namespace ResolverEnv

variable (env : ResolverEnv)

/-! ## The searches -/

/-- The search for a user by a value of an attribute. -/
def userSearch (base attr value : Str) : Search :=
  ⟨base, env.attrs.userObjectClass, some (attr, escapeLdapFilter value), env.userLookupAttrs⟩

/-- The search for a user by uid. -/
def uidSearch (uid : Int32) : Search :=
  ⟨env.userBase, env.attrs.userObjectClass, some (env.attrs.userUidNumber, i32Text uid),
    [env.attrs.userName, env.attrs.userUidNumber, env.attrs.userGidNumber, "cn".toList,
      "displayName".toList, env.attrs.userFullName]⟩

/-- The search for all users under a base. -/
def userLoadSearch (base : Str) : Search := ⟨base, env.attrs.userObjectClass, none, env.userLoadAttrs⟩

/-- The search for a group by a value of an attribute, which is escaped already. -/
def groupSearch (attr value : Str) : Search :=
  ⟨env.groupBase, env.attrs.groupObjectClass, some (attr, value), env.groupLookupAttrs⟩

/-- The search for all groups under a base. -/
def groupLoadSearch (base : Str) : Search :=
  ⟨base, env.attrs.groupObjectClass, none, env.groupLoadAttrs⟩

/-- The search for the `memberOf` of a user. -/
def memberofSearch (username : Str) : Search :=
  ⟨env.userBase, env.attrs.userObjectClass, some (env.attrs.userName, escapeLdapFilter username),
    [env.attrs.userName, "memberOf".toList]⟩

/-- The search at and under a DN. -/
def dnSearch (dn : Str) : Search := ⟨dn, ['*'], none, [env.attrs.groupGidNumber]⟩

/-! ## What the directory said -/

/-- At this time a search was made, and the entry was in the answer. The times are those of the searches,
in their order. -/
def Returned (times : List Nat) (t : Nat) (req : Search) (se : SearchEntry) : Prop :=
  ∃ n entries, times[n]? = some t ∧ env.search n req = some entries ∧ se ∈ entries

/-- **The searches that answer for a user**: by name, by principal, by uid, and the load. -/
inductive AnswersForUser (id : Str) : Search → SearchEntry → Prop
  | name (base : Str) (se : SearchEntry) (hbase : base ∈ env.userBases) :
    AnswersForUser id (env.userSearch base env.attrs.userName id) se
  | principal (base principal : Str) (se : SearchEntry) (hbase : base ∈ env.userBases)
    (hat : '@' ∈ principal) (hid : id = principal ∨ id = principalLocalPart principal) :
    AnswersForUser id (env.userSearch base env.attrs.userPrincipalName principal) se
  | uid (uid : Int32) (se : SearchEntry) (huid : env.uidOf se = some uid)
    (hid : id = (extractFirstAttr se env.attrs.userName).getD (i32Text uid)) :
    AnswersForUser id (env.uidSearch uid) se
  | loaded (base : Str) (se : SearchEntry) (hbase : base ∈ env.userBases)
    (hid : extractFirstAttr se env.attrs.userName = some id ∨
      extractFirstAttr se env.attrs.userPrincipalName = some id) :
    AnswersForUser id (env.userLoadSearch base) se

/-- **The searches that answer for a group**: by name, by gid, and the load. -/
inductive AnswersForGroup (id : Str) : Search → SearchEntry → Prop
  | name (se : SearchEntry) :
    AnswersForGroup id (env.groupSearch env.attrs.groupName (escapeLdapFilter id)) se
  | gid (gid : Int32) (se : SearchEntry) (hgid : env.gidOf se = some gid)
    (hid : id = (extractFirstAttr se env.attrs.groupName).getD (i32Text gid)) :
    AnswersForGroup id (env.groupSearch env.attrs.groupGidNumber (i32Text gid)) se
  | loaded (base : Str) (se : SearchEntry) (hbase : base ∈ env.groupBases)
    (hid : extractFirstAttr se env.attrs.groupName = some id) :
    AnswersForGroup id (env.groupLoadSearch base) se

/-- **The directory said** that a user has a uid, a primary gid, which is the uid unless there is one, and
a display name. -/
def UserSaid (times : List Nat) (t : Nat) (id : Str) (uid : Int32) (gid : Option Int32) (display : Str) :
    Prop :=
  ∃ req se fallback, env.Returned times t req se ∧ env.AnswersForUser id req se ∧
    env.uidOf se = some uid ∧ gid.getD uid = (env.primaryGidOf se).getD uid ∧
    display = extractDisplayName se env.attrs.userFullName fallback

/-- **The directory said** that a group has a gid, a display name and these members. -/
def GroupSaid (times : List Nat) (t : Nat) (id : Str) (gid : Int32) (display : Str)
    (members : List Str) : Prop :=
  ∃ req se, env.Returned times t req se ∧ env.AnswersForGroup id req se ∧ env.gidOf se = some gid ∧
    display = extractDisplayName se env.attrs.groupName id ∧
    members = extractGroupMembers se env.attrs.groupMember

/-- **The directory said** that the user with a name has a DN and is in the groups behind these ones. -/
def MemberofSaid (times : List Nat) (t : Nat) (username dn : Str) (memberofs : List Str) : Prop :=
  ∃ se, env.Returned times t (env.memberofSearch username) se ∧ se.dn = dn ∧
    ((se.get "memberOf".toList).or (se.get "memberof".toList)).getD [] = memberofs

/-- **The directory said** that there is a gid at or under a DN. -/
def GidSaid (times : List Nat) (t : Nat) (dn : Str) (gid : Int32) : Prop :=
  ∃ se, env.Returned times t (env.dnSearch dn) se ∧
    ((extractFirstAttr se env.attrs.groupGidNumber).bind fun s => parseI32 (trim s)) = some gid

end ResolverEnv

/-- What was the case less than some time ago. -/
def Lately (now age : Nat) (said : Nat → Prop) : Prop := ∃ t, now < t + age ∧ said t

namespace ResolverEnv

variable (env : ResolverEnv)

/-- The gid behind the DN of a group: that of a group with the first RDN value as its name, in any case, or
one that is found at or under the DN. -/
def DnBacked (times : List Nat) (now : Nat) (dn : Str) (gid : Int32) : Prop :=
  (∃ rdn id, (firstRdnValue dn).map trim = some rdn ∧ eqIgnoreAsciiCase id rdn = true ∧
    Lately now maxStale fun t => ∃ display members, env.GroupSaid times t id gid display members) ∨
  Lately now identityCacheTtl fun t => env.GidSaid times t dn gid

/-- **Why a principal has a gid**. -/
inductive GidBacked (times : List Nat) (now : Nat) (principal : Str) (gid : Int32) : Prop
  | primary (uid : Int32) (display : Str)
    (h : Lately now maxStale fun t => env.UserSaid times t principal uid (some gid) display)
  | memberof (username dn : Str) (memberofs : List Str) (groupDn : Str)
    (huser : username = principal ∨ username = principalLocalPart principal)
    (h : Lately now identityCacheTtl fun t => env.MemberofSaid times t username dn memberofs)
    (hdn : groupDn ∈ memberofs) (hgid : env.DnBacked times now groupDn gid)
  | listed (id display : Str) (members : List Str) (m : Str)
    (h : Lately now maxStale fun t => env.GroupSaid times t id gid display members) (hm : m ∈ members)
    (hlogin : IsPrincipalLogin principal m)
  | root (hmachine : (classifyPrincipal principal [] []).1 = true) (hgid : gid = 0)
  | machine (id display : Str) (members : List Str)
    (hmachine : (classifyPrincipal principal [] []).1 = true)
    (h : Lately now maxStale fun t => env.GroupSaid times t id gid display members)
    (hhits : (⟨gid, display, members⟩ : PosixGroupEntry).hitsMachine principal = true)

end ResolverEnv

/-! ## Runs -/

/-- What is asked of a resolver. -/
inductive ResolverUse
  | call (c : ResolverCall)
  | lookupUserDnAndMemberof (username : Str)
  | snapshot
  | evictExpired
  | clearCaches

/-- The resolver after a use at some time. -/
def ResolverEnv.use (env : ResolverEnv) (r : Resolver) (now : Nat) : ResolverUse → Resolver
  | .call c => env.call r (now, c)
  | .lookupUserDnAndMemberof username => (env.lookupUserDnAndMemberof now username r).2
  | .snapshot => (r.snapshot now).2
  | .evictExpired => r.evictExpired now
  | .clearCaches => r.clearCaches

/-- **What is answered was said lately.** -/
def ResolverEnv.AnswerBacked (env : ResolverEnv) (times : List Nat) (now : Nat) (r : Resolver) :
    ResolverUse → Prop
  | .call (.resolveUser name) => ∀ uid gid display,
    (env.resolveUser now name r).1 = some (uid, gid, display) →
      Lately now maxStale fun t => env.UserSaid times t name uid gid display
  | .call (.resolveUserByUid uid) => ∀ id display,
    (env.resolveUserByUid now uid r).1 = some (id, display) →
      Lately now maxStale fun t => ∃ gid, env.UserSaid times t id uid gid display
  | .call (.resolveGroup name) => ∀ gid display,
    (env.resolveGroup now name r).1 = some (gid, display) →
      Lately now maxStale fun t => ∃ members, env.GroupSaid times t name gid display members
  | .call (.resolveGroupByGid gid) => ∀ id display,
    (env.resolveGroupByGid now gid r).1 = some (id, display) →
      Lately now maxStale fun t => ∃ members, env.GroupSaid times t id gid display members
  | .call (.resolveGroupsForPrincipal principal) =>
    ∀ gid ∈ (env.resolveGroupsForPrincipal now principal r).1, env.GidBacked times now principal gid
  | .lookupUserDnAndMemberof username => ∀ dn memberofs,
    (env.lookupUserDnAndMemberof now username r).1 = some (dn, memberofs) →
      Lately now identityCacheTtl fun t => env.MemberofSaid times t username dn memberofs
  | .snapshot =>
    (∀ p ∈ (r.snapshot now).1.users.values,
      Lately now maxStale fun t => env.UserSaid times t p.1 p.2.uid (some p.2.gid) p.2.display) ∧
    ∀ p ∈ (r.snapshot now).1.groups.values,
      Lately now maxStale fun t => env.GroupSaid times t p.1 p.2.gid p.2.display p.2.members
  | .call .loadFullIdentities | .evictExpired | .clearCaches => True

/-- The times of the searches, once some have been made now. -/
def searchTimes (past : List Nat) (now searches : Nat) : List Nat :=
  past ++ List.replicate (searches - past.length) now

/-- A resolver in use: the time, and when each of its searches was made. -/
structure TimedResolver where
  now : Nat
  times : List Nat
  resolver : Resolver

/-- A use of the resolver, some time later. -/
def TimedResolver.step (env : ResolverEnv) (s : TimedResolver) (u : Nat × ResolverUse) : TimedResolver :=
  let now := s.now + u.1
  let r := env.use s.resolver now u.2
  ⟨now, searchTimes s.times now r.searches, r⟩

/-! ## The log of the searches -/

variable {env : ResolverEnv} {past times times' : List Nat} {now t n : Nat}

/-- Without new searches the times are the old ones. -/
theorem searchTimes_of_length (now : Nat) (h : past.length = n) : searchTimes past now n = past := by
  rw [searchTimes, h, Nat.sub_self, List.replicate_zero, List.append_nil]

/-- There is a time for each search. -/
theorem length_searchTimes (now : Nat) (h : past.length ≤ n) : (searchTimes past now n).length = n := by
  rw [searchTimes, List.length_append, List.length_replicate]
  omega

/-- A search that is made is logged with the time. -/
theorem searchTimes_succ (h : past.length ≤ n) :
    searchTimes past now (n + 1) = searchTimes past now n ++ [now] := by
  rw [searchTimes, searchTimes, Nat.sub_add_comm h, List.replicate_succ', List.append_assoc]

/-- The latest search was made now. -/
theorem getElem?_searchTimes_succ (h : past.length ≤ n) :
    (searchTimes past now (n + 1))[n]? = some now := by
  rw [searchTimes_succ h, List.getElem?_append_right (length_searchTimes now h).le,
    length_searchTimes now h,
    Nat.sub_self]
  rfl

namespace ResolverEnv

variable {id : Str} {req : Search} {se : SearchEntry} {gid : Int32}

/-- What was returned was returned, whatever is searched later. -/
theorem Returned.mono (htimes : times <+: times') (h : env.Returned times t req se) :
    env.Returned times' t req se := by
  obtain ⟨n, entries, ht, hsearch, hse⟩ := h
  obtain ⟨later, rfl⟩ := htimes
  refine ⟨n, entries, ?_, hsearch, hse⟩
  rw [List.getElem?_append_left (List.getElem?_eq_some_iff.mp ht).1, ht]

/-- What was said of a user was said, whatever is searched later. -/
theorem UserSaid.mono (htimes : times <+: times') {uid : Int32} {gid : Option Int32} {display : Str}
    (h : env.UserSaid times t id uid gid display) : env.UserSaid times' t id uid gid display := by
  obtain ⟨req, se, fallback, hreturned, hrest⟩ := h
  exact ⟨req, se, fallback, hreturned.mono htimes, hrest⟩

/-- What was said of a group was said, whatever is searched later. -/
theorem GroupSaid.mono (htimes : times <+: times') {display : Str} {members : List Str}
    (h : env.GroupSaid times t id gid display members) :
    env.GroupSaid times' t id gid display members := by
  obtain ⟨req, se, hreturned, hrest⟩ := h
  exact ⟨req, se, hreturned.mono htimes, hrest⟩

/-- What was said of memberships was said, whatever is searched later. -/
theorem MemberofSaid.mono (htimes : times <+: times') {username dn : Str} {memberofs : List Str}
    (h : env.MemberofSaid times t username dn memberofs) :
    env.MemberofSaid times' t username dn memberofs := by
  obtain ⟨se, hreturned, hrest⟩ := h
  exact ⟨se, hreturned.mono htimes, hrest⟩

/-- What was said of a gid was said, whatever is searched later. -/
theorem GidSaid.mono (htimes : times <+: times') {dn : Str} (h : env.GidSaid times t dn gid) :
    env.GidSaid times' t dn gid := by
  obtain ⟨se, hreturned, hrest⟩ := h
  exact ⟨se, hreturned.mono htimes, hrest⟩

end ResolverEnv

/-- What was said lately was said within any longer time, and so was what follows from it. -/
theorem Lately.mono {now age age' : Nat} {said said' : Nat → Prop} (hage : age ≤ age')
    (hsaid : ∀ t, said t → said' t) (h : Lately now age said) : Lately now age' said' := by
  obtain ⟨t, ht, hs⟩ := h
  exact ⟨t, by omega, hsaid t hs⟩

/-- What is said now is said lately. -/
theorem Lately.of_now {age : Nat} {said : Nat → Prop} (hage : 0 < age) (h : said now) :
    Lately now age said := ⟨now, by omega, h⟩

namespace ResolverEnv

/-- A backed DN stays backed, whatever is searched later. -/
theorem DnBacked.mono (htimes : times <+: times') {dn : Str} {gid : Int32}
    (h : env.DnBacked times now dn gid) : env.DnBacked times' now dn gid := by
  rcases h with ⟨rdn, id, hrdn, hid, h⟩ | h
  · refine .inl ⟨rdn, id, hrdn, hid, h.mono le_rfl ?_⟩
    rintro t ⟨display, members, hsaid⟩
    exact ⟨display, members, hsaid.mono htimes⟩
  · exact .inr (h.mono le_rfl fun t hsaid => hsaid.mono htimes)

/-- A backed gid stays backed, whatever is searched later. -/
theorem GidBacked.mono (htimes : times <+: times') {principal : Str} {gid : Int32}
    (h : env.GidBacked times now principal gid) : env.GidBacked times' now principal gid := by
  cases h with
  | primary uid display h => exact .primary uid display (h.mono le_rfl fun t hsaid => hsaid.mono htimes)
  | memberof username dn memberofs groupDn huser h hdn hgid =>
    exact .memberof username dn memberofs groupDn huser
      (h.mono le_rfl fun t hsaid => hsaid.mono htimes) hdn (hgid.mono htimes)
  | listed id display members m h hm hlogin =>
    exact .listed id display members m (h.mono le_rfl fun t hsaid => hsaid.mono htimes) hm hlogin
  | root hmachine hgid => exact .root hmachine hgid
  | machine id display members hmachine h hhits =>
    exact .machine id display members hmachine (h.mono le_rfl fun t hsaid => hsaid.mono htimes) hhits

end ResolverEnv

/-! ## Caches and sweeps -/

/-- What is looked up is in the map. -/
theorem PairMap.mem_of_lookup {κ β : Type} [DecidableEq κ] {m : PairMap κ β} {k : κ} {v : β}
    (h : m.lookup k = some v) : (k, v) ∈ m.values := by
  rw [PairMap.lookup, Option.map_eq_some_iff] at h
  obtain ⟨⟨k', v'⟩, hget, rfl⟩ := h
  obtain ⟨hmem, rfl⟩ := KeyedMap.get?_eq_some_iff.mp hget
  exact hmem

/-- What is left of a map comes from a row of it. -/
theorem PairMap.exists_of_mem_filterMap {κ β γ : Type} {m : PairMap κ β} {f : β → Option γ} {q : κ × γ}
    (h : q ∈ (m.filterMap f).values) : ∃ v, (q.1, v) ∈ m.values ∧ f v = some q.2 := by
  obtain ⟨⟨k, v⟩, hp, hmap⟩ := List.mem_filterMap.mp h
  obtain ⟨c, hc, rfl⟩ := Option.map_eq_some_iff.mp hmap
  exact ⟨v, hp, hc⟩

section Sweeps

variable {r : Resolver}

/-- The gid that is cached for a DN is that of a row with the value of its first RDN, in any case. -/
theorem mem_of_cachedGroupOfRdn {dn : Str} {gid : Int32}
    (h : env.cachedGroupOfRdn dn r = some gid) :
    ∃ rdn, (firstRdnValue dn).map trim = some rdn ∧ ∃ p ∈ r.groupCache.values,
      eqIgnoreAsciiCase p.1 rdn = true ∧ p.2.gidNumber = some gid := by
  rw [ResolverEnv.cachedGroupOfRdn, Option.bind_eq_some_iff] at h
  obtain ⟨rdn, hrdn, hfound⟩ := h
  refine ⟨rdn, (Option.filter_eq_some_iff.mp hrdn).1, ?_⟩
  rcases Option.or_eq_some_iff.mp hfound with hexact | ⟨-, hfold⟩
  · obtain ⟨g, hlookup, hgid⟩ := Option.bind_eq_some_iff.mp hexact
    exact ⟨(rdn, g), PairMap.mem_of_lookup hlookup, decide_eq_true rfl, hgid⟩
  · obtain ⟨p, hp, hgid⟩ := Option.bind_eq_some_iff.mp hfold
    exact ⟨p, (env.groupOrder_perm _).mem_iff.mp (List.mem_of_find?_eq_some hp),
      (List.find?_eq_some_iff_append.mp hp).1, hgid⟩

/-- A sweep was made lately, whenever one is due. -/
theorem Resolver.recent_evictExpired (now : Nat) (r : Resolver) :
    ((r.evictExpired now).lastEvict.any fun t => now - t < evictInterval) = true := by
  rw [Resolver.evictExpired]
  split_ifs with hrecent
  · exact hrecent
  · rw [Option.any_some, decide_eq_true_eq, Nat.sub_self]
    exact Nat.mul_pos (Nat.succ_pos 4) (Nat.pow_pos (Nat.succ_pos 9))

/-- The last sweep is not in the future. -/
theorem Resolver.lastEvict_evictExpired_le (h : ∀ e ∈ r.lastEvict, e ≤ now) :
    ∀ e ∈ (r.evictExpired now).lastEvict, e ≤ now := by
  rw [Resolver.evictExpired]
  split_ifs
  · exact h
  · rintro e ⟨⟩
    exact le_rfl

end Sweeps

/-- The gids of a machine are 0 and those of the groups that list it. -/
theorem mem_machineGroupGidsForPrincipal {principal : Str} {snap : IdMapSnapshot} {gid : Int32}
    (h : gid ∈ machineGroupGidsForPrincipal principal snap) :
    gid = 0 ∨ ∃ p ∈ snap.groups.values, p.2.hitsMachine principal = true ∧ gid = p.2.gid := by
  -- each loop adds at most the gid it looks at
  have hstep : ∀ (gids : List Int32) (g gid : Int32),
      gid ∈ (if g ≠ 0 then pushNew gids g else gids) → gid ∈ gids ∨ gid = g := by
    intro gids g gid hgid
    split_ifs at hgid with hzero
    · exact mem_pushNew.mp hgid
    · exact .inl hgid
  rcases mem_foldl_of_step hstep h with hzero | ⟨g, hg, rfl⟩
  · exact .inl (List.mem_singleton.mp hzero)
  have hlists : ∀ (supps : List Int32) (p : Str × PosixGroupEntry) (gid : Int32),
      gid ∈ (if p.2.gid = 0 then supps
        else if p.2.hitsMachine principal then pushNew supps p.2.gid else supps) →
      gid ∈ supps ∨ p.2.hitsMachine principal = true ∧ gid = p.2.gid := by
    intro supps p gid hgid
    split_ifs at hgid with hzero hhits
    · exact .inl hgid
    · rcases mem_pushNew.mp hgid with hgid | hgid
      · exact .inl hgid
      · exact .inr ⟨hhits, hgid⟩
    · exact .inl hgid
  rw [machineSupplementalGidsFromSnapshot, List.mem_insertionSort] at hg
  rcases mem_foldl_of_step hlists hg with hnone | hfound
  · cases hnone
  · exact .inr hfound

/-- An answer may be used for some time. -/
theorem maxStale_pos : 0 < maxStale :=
  Nat.add_pos_right _ (Nat.mul_pos (Nat.succ_pos 4) (Nat.pow_pos (Nat.succ_pos 9)))

/-- A cached entry lives for some time. -/
theorem identityCacheTtl_pos : 0 < identityCacheTtl :=
  Nat.mul_pos (Nat.succ_pos 599) (Nat.pow_pos (Nat.succ_pos 9))

namespace Staleness

/-! ## What is cached -/

/-- What is cached of a user was said when it was fetched. -/
def UserShown (env : ResolverEnv) (times : List Nat) (user : CachedUser) : Prop :=
  ∃ uid, user.uidNumber = some uid ∧
    env.UserSaid times user.fetchedAt user.id uid user.primaryGid user.displayName

/-- What is cached of a group was said by the directory when it was fetched. -/
def GroupShown (env : ResolverEnv) (times : List Nat) (g : CachedGroup) : Prop :=
  ∃ gid, g.gidNumber = some gid ∧ env.GroupSaid times g.fetchedAt g.id gid g.displayName g.members

/-- **Everything cached was said by the directory**: users and groups at times that are fresh. -/
structure Kept (env : ResolverEnv) (past : List Nat) (now : Nat) (fresh : Nat → Prop)
    (last : Option Nat) (r : Resolver) : Prop where
  last : r.lastEvict = last
  logged : past.length ≤ r.searches
  users : ∀ p ∈ r.userCache.values, p.2.id = p.1 ∧ fresh p.2.fetchedAt ∧
    UserShown env (searchTimes past now r.searches) p.2
  uids : ∀ p ∈ r.userByUidCache.values, p.2.uidNumber = some p.1 ∧ fresh p.2.fetchedAt ∧
    UserShown env (searchTimes past now r.searches) p.2
  groups : ∀ p ∈ r.groupCache.values, p.2.id = p.1 ∧ fresh p.2.fetchedAt ∧
    GroupShown env (searchTimes past now r.searches) p.2
  gids : ∀ p ∈ r.groupByGidCache.values, p.2.gidNumber = some p.1 ∧ fresh p.2.fetchedAt ∧
    GroupShown env (searchTimes past now r.searches) p.2
  dnGids : ∀ p ∈ r.groupGidByDnCache.values, ∀ gid ∈ p.2.gid,
    env.GidSaid (searchTimes past now r.searches) p.2.fetchedAt p.1 gid
  memberofs : ∀ p ∈ r.memberofCache.values,
    env.MemberofSaid (searchTimes past now r.searches) p.2.fetchedAt p.1 p.2.dn p.2.memberofs

/-- What is cached between two uses outlived the last sweep. -/
def SinceSweep (last : Option Nat) (t : Nat) : Prop := ∀ e ∈ last, e < t + identityCacheTtl

/-- What is cached after a sweep is not stale. -/
def Current (now : Nat) (last : Option Nat) (t : Nat) : Prop := now < t + maxStale ∧ SinceSweep last t

/-- **The resolver between two uses.** -/
structure Idle (env : ResolverEnv) (times : List Nat) (now : Nat) (r : Resolver) : Prop where
  logged : times.length = r.searches
  swept : ∀ e ∈ r.lastEvict, e ≤ now
  kept : Kept env times now (SinceSweep r.lastEvict) r.lastEvict r

section Moves

variable {fresh : Nat → Prop} {last : Option Nat} {r : Resolver}

/-- A user that was shown was shown, whatever is searched later. -/
theorem UserShown.mono (htimes : times <+: times') {user : CachedUser} (h : UserShown env times user) :
    UserShown env times' user := by
  obtain ⟨uid, huid, hsaid⟩ := h
  exact ⟨uid, huid, hsaid.mono htimes⟩

/-- A group that was shown was shown, whatever is searched later. -/
theorem GroupShown.mono (htimes : times <+: times') {g : CachedGroup} (h : GroupShown env times g) :
    GroupShown env times' g := by
  obtain ⟨gid, hgid, hsaid⟩ := h
  exact ⟨gid, hgid, hsaid.mono htimes⟩

/-- A search is logged, and changes nothing else. -/
theorem Kept.serviceSearch (h : Kept env past now fresh last r) (req : Search) :
    Kept env past now fresh last (env.serviceSearch req r).2 := by
  have htimes : searchTimes past now r.searches <+: searchTimes past now (r.searches + 1) :=
    ⟨[now], (searchTimes_succ h.logged).symm⟩
  refine ⟨h.last, h.logged.trans (Nat.le_succ _), ?_, ?_, ?_, ?_, ?_, ?_⟩
  · intro p hp
    obtain ⟨hkey, hfresh, hshown⟩ := h.users p hp
    exact ⟨hkey, hfresh, hshown.mono htimes⟩
  · intro p hp
    obtain ⟨hkey, hfresh, hshown⟩ := h.uids p hp
    exact ⟨hkey, hfresh, hshown.mono htimes⟩
  · intro p hp
    obtain ⟨hkey, hfresh, hshown⟩ := h.groups p hp
    exact ⟨hkey, hfresh, hshown.mono htimes⟩
  · intro p hp
    obtain ⟨hkey, hfresh, hshown⟩ := h.gids p hp
    exact ⟨hkey, hfresh, hshown.mono htimes⟩
  · intro p hp gid hgid
    exact (h.dnGids p hp gid hgid).mono htimes
  · intro p hp
    exact (h.memberofs p hp).mono htimes

/-- After a search, what it returned was returned now. -/
theorem Kept.of_search (h : Kept env past now fresh last r) {req : Search}
    {found : Option (List SearchEntry)} {r' : Resolver} (hsearch : env.serviceSearch req r = (found, r')) :
    Kept env past now fresh last r' ∧ ∀ entries, found = some entries → ∀ se ∈ entries,
      env.Returned (searchTimes past now r'.searches) now req se := by
  have hkept := h.serviceSearch req
  rw [hsearch] at hkept
  refine ⟨hkept, ?_⟩
  rintro entries rfl se hse
  obtain ⟨hfound, rfl⟩ := Prod.mk.inj hsearch
  exact ⟨r.searches, entries, getElem?_searchTimes_succ h.logged, hfound, hse⟩

/-- A miss leaves what is cached right. -/
theorem Kept.markNegative (h : Kept env past now fresh last r) (key : Str) :
    Kept env past now fresh last (r.markNegative now key) :=
  ⟨h.last, h.logged, h.users, h.uids, h.groups, h.gids, h.dnGids, h.memberofs⟩

/-- **What was just said of a user.** -/
structure UserRead (env : ResolverEnv) (times : List Nat) (now : Nat) (key : Str) (uid : Int32)
    (user : CachedUser) : Prop where
  id : user.id = key
  uidNumber : user.uidNumber = some uid
  fetchedAt : user.fetchedAt = now
  said : env.UserSaid times now key uid user.primaryGid user.displayName

/-- A user that was read now was shown. -/
theorem UserRead.shown {key : Str} {uid : Int32} {user : CachedUser}
    (h : UserRead env times now key uid user) : UserShown env times user := by
  refine ⟨uid, h.uidNumber, ?_⟩
  rw [h.fetchedAt, h.id]
  exact h.said

/-- Caching a user that was read now leaves what is cached right. -/
theorem Kept.cacheUser (h : Kept env past now fresh last r) (hnow : fresh now) {key : Str} {uid : Int32}
    {user : CachedUser} (huser : UserRead env (searchTimes past now r.searches) now key uid user) :
    Kept env past now fresh last (r.cacheUser key uid user) := by
  have hfresh : fresh user.fetchedAt := huser.fetchedAt.symm ▸ hnow
  refine ⟨h.last, h.logged, ?_, ?_, h.groups, h.gids, h.dnGids, h.memberofs⟩
  · intro p hp
    rcases KeyedMap.mem_insert.mp hp with ⟨hp, -⟩ | rfl
    · exact h.users p hp
    · exact ⟨huser.id, hfresh, huser.shown⟩
  · intro p hp
    rcases KeyedMap.mem_insert.mp hp with ⟨hp, -⟩ | rfl
    · exact h.uids p hp
    · exact ⟨huser.uidNumber, hfresh, huser.shown⟩

/-- A user that is filed under its name only. -/
theorem Kept.insertUser (h : Kept env past now fresh last r) (hnow : fresh now) {key : Str} {uid : Int32}
    {user : CachedUser} (huser : UserRead env (searchTimes past now r.searches) now key uid user) :
    Kept env past now fresh last { r with userCache := r.userCache.insert (key, user) } := by
  refine ⟨h.last, h.logged, ?_, h.uids, h.groups, h.gids, h.dnGids, h.memberofs⟩
  intro p hp
  rcases KeyedMap.mem_insert.mp hp with ⟨hp, -⟩ | rfl
  · exact h.users p hp
  · exact ⟨huser.id, huser.fetchedAt.symm ▸ hnow, huser.shown⟩

/-- A group that was just read. -/
theorem Kept.cacheGroup (h : Kept env past now fresh last r) (hnow : fresh now) {key : Str} {gid : Int32}
    {req : Search} {se : SearchEntry}
    (hreturned : env.Returned (searchTimes past now r.searches) now req se)
    (hanswers : env.AnswersForGroup key req se) (hgid : env.gidOf se = some gid) :
    Kept env past now fresh last (r.cacheGroup key gid (env.groupOf now key gid se)) := by
  have hshown : GroupShown env (searchTimes past now r.searches) (env.groupOf now key gid se) :=
    ⟨gid, rfl, req, se, hreturned, hanswers, hgid, rfl, rfl⟩
  refine ⟨h.last, h.logged, h.users, h.uids, ?_, ?_, h.dnGids, h.memberofs⟩
  · intro p hp
    rcases KeyedMap.mem_insert.mp hp with ⟨hp, -⟩ | rfl
    · exact h.groups p hp
    · exact ⟨rfl, hnow, hshown⟩
  · intro p hp
    rcases KeyedMap.mem_insert.mp hp with ⟨hp, -⟩ | rfl
    · exact h.gids p hp
    · exact ⟨rfl, hnow, hshown⟩

/-- Caching the gid behind a DN leaves what is cached right. -/
theorem Kept.insertDnGid (h : Kept env past now fresh last r) {dn : Str} {found : Option Int32}
    (hsaid : ∀ gid ∈ found, env.GidSaid (searchTimes past now r.searches) now dn gid) :
    Kept env past now fresh last
      { r with groupGidByDnCache := r.groupGidByDnCache.insert (dn, ⟨found, now⟩) } := by
  refine ⟨h.last, h.logged, h.users, h.uids, h.groups, h.gids, ?_, h.memberofs⟩
  intro p hp gid hgid
  rcases KeyedMap.mem_insert.mp hp with ⟨hp, -⟩ | rfl
  · exact h.dnGids p hp gid hgid
  · exact hsaid gid hgid

/-- Caching memberships leaves what is cached right. -/
theorem Kept.insertMemberof (h : Kept env past now fresh last r) {username dn : Str}
    {memberofs : List Str}
    (hsaid : env.MemberofSaid (searchTimes past now r.searches) now username dn memberofs) :
    Kept env past now fresh last
      { r with memberofCache := r.memberofCache.insert (username, ⟨dn, memberofs, now⟩) } := by
  refine ⟨h.last, h.logged, h.users, h.uids, h.groups, h.gids, h.dnGids, ?_⟩
  intro p hp
  rcases KeyedMap.mem_insert.mp hp with ⟨hp, -⟩ | rfl
  · exact h.memberofs p hp
  · exact hsaid

/-- Empty caches are right. -/
theorem Kept.clearCaches (h : Kept env past now fresh last r) :
    Kept env past now fresh last r.clearCaches :=
  ⟨h.last, h.logged, List.forall_mem_nil _, List.forall_mem_nil _, List.forall_mem_nil _,
    List.forall_mem_nil _, List.forall_mem_nil _, List.forall_mem_nil _⟩

/-- What is kept is fresh in another sense as well, where that follows. -/
theorem Kept.weaken {fresh' : Nat → Prop} (h : Kept env past now fresh last r)
    (hfresh : ∀ t, fresh t → fresh' t) : Kept env past now fresh' last r :=
  ⟨h.last, h.logged, fun p hp => ⟨(h.users p hp).1, hfresh _ (h.users p hp).2.1, (h.users p hp).2.2⟩,
    fun p hp => ⟨(h.uids p hp).1, hfresh _ (h.uids p hp).2.1, (h.uids p hp).2.2⟩,
    fun p hp => ⟨(h.groups p hp).1, hfresh _ (h.groups p hp).2.1, (h.groups p hp).2.2⟩,
    fun p hp => ⟨(h.gids p hp).1, hfresh _ (h.gids p hp).2.1, (h.gids p hp).2.2⟩, h.dnGids, h.memberofs⟩

/-! ## Sweeps -/

/-- **A sweep leaves nothing stale.** -/
theorem Idle.evictExpired (h : Idle env times now r) :
    Kept env times now (Current now (r.evictExpired now).lastEvict) (r.evictExpired now).lastEvict
      (r.evictExpired now) := by
  rw [Resolver.evictExpired]
  -- no sweep is due: the last one is less than its interval ago, so nothing is too old yet
  split_ifs with hrecent
  · refine h.kept.weaken fun t ht => ⟨?_, ht⟩
    cases he : r.lastEvict with
    | none =>
      rw [he] at hrecent
      cases hrecent
    | some e =>
      rw [he, Option.any_some, decide_eq_true_eq] at hrecent
      have hsince := ht e he
      rw [maxStale]
      omega
  -- a sweep keeps what is within the lifetime, and happens now
  · have hcurrent : ∀ {t}, now - t < identityCacheTtl → Current now (some now) t := by
      intro t ht
      refine ⟨?_, ?_⟩
      · rw [maxStale]
        omega
      · rintro e ⟨⟩
        omega
    refine ⟨rfl, h.kept.logged, ?_, ?_, ?_, ?_, ?_, ?_⟩
    · intro p hp
      obtain ⟨hp, hage⟩ := List.mem_filter.mp hp
      obtain ⟨hkey, -, hshown⟩ := h.kept.users p hp
      exact ⟨hkey, hcurrent (of_decide_eq_true hage), hshown⟩
    · intro p hp
      obtain ⟨hp, hage⟩ := List.mem_filter.mp hp
      obtain ⟨hkey, -, hshown⟩ := h.kept.uids p hp
      exact ⟨hkey, hcurrent (of_decide_eq_true hage), hshown⟩
    · intro p hp
      obtain ⟨hp, hage⟩ := List.mem_filter.mp hp
      obtain ⟨hkey, -, hshown⟩ := h.kept.groups p hp
      exact ⟨hkey, hcurrent (of_decide_eq_true hage), hshown⟩
    · intro p hp
      obtain ⟨hp, hage⟩ := List.mem_filter.mp hp
      obtain ⟨hkey, -, hshown⟩ := h.kept.gids p hp
      exact ⟨hkey, hcurrent (of_decide_eq_true hage), hshown⟩
    · intro p hp
      exact h.kept.dnGids p (List.mem_filter.mp hp).1
    · intro p hp
      exact h.kept.memberofs p (List.mem_filter.mp hp).1

/-- What is kept depends on the log only. -/
theorem Kept.retime {past' : List Nat} {now' : Nat} (h : Kept env past now fresh last r)
    (hlogged : past'.length ≤ r.searches)
    (htimes : searchTimes past' now' r.searches = searchTimes past now r.searches) :
    Kept env past' now' fresh last r := by
  refine ⟨h.last, hlogged, ?_, ?_, ?_, ?_, ?_, ?_⟩
  · rw [htimes]
    exact h.users
  · rw [htimes]
    exact h.uids
  · rw [htimes]
    exact h.groups
  · rw [htimes]
    exact h.gids
  · rw [htimes]
    exact h.dnGids
  · rw [htimes]
    exact h.memberofs

/-- What is cached stays right for as long as nothing is asked. -/
theorem Idle.wait {now' : Nat} (h : Idle env times now r) (hle : now ≤ now') :
    Idle env times now' r := by
  refine ⟨h.logged, fun e he => (h.swept e he).trans hle, h.kept.retime h.logged.le ?_⟩
  rw [searchTimes_of_length now' h.logged, searchTimes_of_length now h.logged]

/-- The searches that were made now may count as past ones. -/
theorem Kept.rebase (h : Kept env past now fresh last r) :
    Kept env (searchTimes past now r.searches) now fresh last r :=
  have hlength := length_searchTimes now h.logged
  h.retime hlength.le (searchTimes_of_length now hlength)

/-- The log only grows, by whatever keeps a resolver. -/
theorem Kept.grown {r' : Resolver} (h : Kept env past now fresh last r)
    (hmoves : ∀ {past}, Kept env past now fresh last r → Kept env past now fresh last r') :
    searchTimes past now r.searches <+: searchTimes past now r'.searches := by
  have hle := (hmoves h.rebase).logged
  rw [length_searchTimes now h.logged] at hle
  have hsplit : r'.searches - past.length =
      (r.searches - past.length) + (r'.searches - r.searches) := by
    have hlogged := h.logged
    omega
  refine ⟨List.replicate (r'.searches - r.searches) now, ?_⟩
  rw [searchTimes, searchTimes, List.append_assoc, List.replicate_append_replicate, ← hsplit]

/-- **After a use the resolver is idle again.** -/
theorem Kept.idle (h : Kept env past now fresh last r) (hfresh : ∀ t, fresh t → SinceSweep last t)
    (hlast : ∀ e ∈ last, e ≤ now) : Idle env (searchTimes past now r.searches) now r := by
  obtain rfl := h.last
  have hlength := length_searchTimes now h.logged
  exact ⟨hlength, hlast, (h.weaken hfresh).retime hlength.le (searchTimes_of_length now hlength)⟩

/-! ## Lookups of users -/

/-- **An answer that was said**, and what is cached after it. -/
structure Told {α : Type} (env : ResolverEnv) (past : List Nat) (now : Nat) (fresh : Nat → Prop)
    (last : Option Nat) (said : List Nat → α → Prop) (out : Option α × Resolver) : Prop where
  kept : Kept env past now fresh last out.2
  said : ∀ a, out.1 = some a → said (searchTimes past now out.2.searches) a

section Told

variable {α : Type} {said : List Nat → α → Prop}

/-- An answer without a result is backed. -/
theorem Kept.told_none (h : Kept env past now fresh last r) :
    Told env past now fresh last said ((none : Option α), r) where
  kept := h
  said a ha := by cases ha

/-- An answer with a result that was said is backed. -/
theorem Kept.told_some (h : Kept env past now fresh last r) {a : α}
    (hsaid : said (searchTimes past now r.searches) a) :
    Told env past now fresh last said (some a, r) where
  kept := h
  said b hb := by
    obtain rfl := Option.some.inj hb
    exact hsaid

end Told

/-- The first user of an answer was just read. -/
theorem userRead_of_firstUser {id name key : Str} {req : Search} {entries : List SearchEntry}
    {uid : Int32} {user : CachedUser} (h : env.firstUser now id name entries = some (uid, user))
    (hreturned : ∀ se ∈ entries, env.Returned times now req se)
    (hanswers : ∀ se, env.AnswersForUser key req se) :
    env.UserSaid times now key uid user.primaryGid user.displayName ∧
      (id = key → UserRead env times now key uid user) := by
  rw [ResolverEnv.firstUser] at h
  obtain ⟨se, hse, hhit⟩ := List.exists_of_findSome?_eq_some h
  obtain ⟨u, hu, hpair⟩ := Option.map_eq_some_iff.mp hhit
  obtain ⟨rfl, rfl⟩ := Prod.mk.inj hpair
  have hsaid : env.UserSaid times now key u (env.primaryGidOf se)
      (extractDisplayName se env.attrs.userFullName name) :=
    ⟨req, se, name, hreturned se hse, hanswers se, hu, rfl, rfl⟩
  exact ⟨hsaid, fun hid => ⟨hid, rfl, rfl, hsaid⟩⟩

/-- **What a pass by name finds** was just read. -/
structure Passed (env : ResolverEnv) (past : List Nat) (now : Nat) (fresh : Nat → Prop)
    (last : Option Nat) (name : Str) (out : ResolverEnv.UserPass × Resolver) : Prop where
  kept : Kept env past now fresh last out.2
  found : ∀ uid user, out.1 = .found uid user →
    UserRead env (searchTimes past now out.2.searches) now name uid user

/-- A pass over the bases finds what was said there. -/
theorem Kept.passByName (name : Str) {bases : List Str} (hbases : ∀ base ∈ bases, base ∈ env.userBases)
    (h : Kept env past now fresh last r) :
    Passed env past now fresh last name (env.passByName now name bases r) := by
  induction bases generalizing r with
  | nil => exact ⟨h, fun uid user hout => by cases hout⟩
  | cons base bases ih =>
    obtain ⟨hbase, hbases⟩ := List.forall_mem_cons.mp hbases
    rw [ResolverEnv.passByName]
    split
    case h_1 r' hsearch => exact ⟨(h.of_search hsearch).1, fun uid user hout => by cases hout⟩
    case h_2 entries r' hsearch =>
      obtain ⟨hkept, hreturned⟩ := h.of_search hsearch
      split
      case h_2 => exact ih hbases hkept
      case h_1 uid user hfirst =>
        refine ⟨hkept, ?_⟩
        rintro uid' user' ⟨⟩
        exact (userRead_of_firstUser hfirst (hreturned entries rfl)
          fun se => .name base se hbase).2 rfl

/-- The pass by principal finds a user that is filed under the local part. -/
theorem Kept.passByPrincipal (name : Str) (hat : '@' ∈ name) {bases : List Str}
    (hbases : ∀ base ∈ bases, base ∈ env.userBases) (h : Kept env past now fresh last r) :
    Kept env past now fresh last (env.passByPrincipal now name bases r).2 ∧
      ∀ hit, (env.passByPrincipal now name bases r).1 = some hit →
        UserRead env (searchTimes past now (env.passByPrincipal now name bases r).2.searches) now
          (principalLocalPart name) hit.1 hit.2 ∧
        env.UserSaid (searchTimes past now (env.passByPrincipal now name bases r).2.searches) now
          name hit.1 hit.2.primaryGid hit.2.displayName := by
  induction bases generalizing r with
  | nil => exact ⟨h, fun hit hout => by cases hout⟩
  | cons base bases ih =>
    obtain ⟨hbase, hbases⟩ := List.forall_mem_cons.mp hbases
    rw [ResolverEnv.passByPrincipal]
    split
    case h_1 r' hsearch => exact ih hbases (h.of_search hsearch).1
    case h_2 entries r' hsearch =>
      obtain ⟨hkept, hreturned⟩ := h.of_search hsearch
      split
      case h_2 => exact ih hbases hkept
      case h_1 hit hfirst =>
        obtain ⟨uid, user⟩ := hit
        refine ⟨hkept, ?_⟩
        rintro hit' ⟨⟩
        exact ⟨(userRead_of_firstUser hfirst (hreturned entries rfl)
            fun se => .principal base name se hbase hat (.inr rfl)).2 rfl,
          (userRead_of_firstUser hfirst (hreturned entries rfl)
            fun se => .principal base name se hbase hat (.inl rfl)).1⟩

/-- A user that is answered from the cache was said when it was fetched. -/
theorem Kept.said_of_cachedUser (h : Kept env past now fresh last r) {name : Str} {uid : Int32}
    {user : CachedUser} (hcached : ResolverEnv.cachedUser name r = some (uid, user)) :
    fresh user.fetchedAt ∧ env.UserSaid (searchTimes past now r.searches) user.fetchedAt name uid
      user.primaryGid user.displayName := by
  rw [ResolverEnv.cachedUser, Option.bind_eq_some_iff] at hcached
  obtain ⟨user', hlookup, hmap⟩ := hcached
  obtain ⟨uid', huid, hpair⟩ := Option.map_eq_some_iff.mp hmap
  obtain ⟨rfl, rfl⟩ := Prod.mk.inj hpair
  obtain ⟨hid, hfresh, uid, huid', hsaid⟩ := h.users _ (PairMap.mem_of_lookup hlookup)
  obtain rfl := Option.some.inj (huid.symm.trans huid')
  rw [hid] at hsaid
  exact ⟨hfresh, hsaid⟩

section Lookups

/- What is fresh is not stale, and what is read now is fresh. -/
variable (hcurrent : ∀ t, fresh t → now < t + maxStale) (hnow : fresh now)

include hcurrent hnow

/-- **A lookup of a user** answers what was said of it. -/
theorem Kept.resolveUser (h : Kept env past now fresh last (r.evictExpired now)) (name : Str) :
    Told env past now fresh last
      (fun times answer => Lately now maxStale fun t =>
        env.UserSaid times t name answer.1 answer.2.1 answer.2.2)
      (env.resolveUser now name r) := by
  rw [ResolverEnv.resolveUser]
  dsimp only
  split
  -- from the cache: filed at a time that is still fresh
  case h_1 uid user hcached =>
    obtain ⟨hfresh, hsaid⟩ := h.said_of_cachedUser hcached
    exact h.told_some ⟨_, hcurrent _ hfresh, hsaid⟩
  case h_2 =>
    by_cases hmiss : (r.evictExpired now).negativeHit now ("u:".toList ++ name) = true
    · rw [if_pos hmiss]
      exact h.told_none
    rw [if_neg hmiss]
    have hpass := h.passByName name fun base hbase => hbase
    split
    -- by name: read just now, and filed so
    case h_1 uid user r' hout =>
      rw [hout] at hpass
      have hread := hpass.found uid user rfl
      exact (hpass.kept.cacheUser hnow hread).told_some (.of_now maxStale_pos hread.said)
    case h_2 r' hout =>
      rw [hout] at hpass
      exact (hpass.kept.markNegative _).told_none
    case h_3 r' hout =>
      rw [hout] at hpass
      -- a name with a realm is asked for by principal too
      by_cases hat : '@' ∈ name
      · rw [if_pos hat]
        obtain ⟨hkept, hfound⟩ := hpass.kept.passByPrincipal name hat fun base hbase => hbase
        split
        case h_1 uid user r'' hout' =>
          rw [hout'] at hkept hfound
          obtain ⟨hread, hsaid⟩ := hfound (uid, user) rfl
          exact (hkept.cacheUser hnow hread).told_some (.of_now maxStale_pos hsaid)
        case h_2 r'' hout' =>
          rw [hout'] at hkept
          exact (hkept.markNegative _).told_none
      · rw [if_neg hat]
        exact (hpass.kept.markNegative _).told_none

/-- **A lookup by uid.** -/
theorem Kept.resolveUserByUid (h : Kept env past now fresh last (r.evictExpired now)) (uid : Int32) :
    Told env past now fresh last
      (fun times answer => Lately now maxStale fun t =>
        ∃ gid, env.UserSaid times t answer.1 uid gid answer.2)
      (env.resolveUserByUid now uid r) := by
  rw [ResolverEnv.resolveUserByUid]
  dsimp only
  split
  -- the user filed under the uid has that uid
  case h_1 user hcached =>
    rw [Option.bind_eq_some_iff] at hcached
    obtain ⟨user', hlookup, hmap⟩ := hcached
    obtain ⟨uid', huid, rfl⟩ := Option.map_eq_some_iff.mp hmap
    obtain ⟨hkey, hfresh, uid'', huid'', hsaid⟩ := h.uids _ (PairMap.mem_of_lookup hlookup)
    obtain rfl := Option.some.inj (hkey.symm.trans huid'')
    exact h.told_some ⟨_, hcurrent _ hfresh, _, hsaid⟩
  case h_2 =>
    split_ifs with hmiss
    · exact h.told_none
    split
    -- a search that fails is remembered as a miss
    case h_1 r' hsearch => exact ((h.of_search hsearch).1.markNegative _).told_none
    case h_2 entries r' hsearch =>
      obtain ⟨hkept, hreturned⟩ := h.of_search hsearch
      split
      case h_2 => exact (hkept.markNegative _).told_none
      -- the entry that was found was returned by this very search
      case h_1 user hhit =>
        obtain ⟨se, hse, hif⟩ := List.exists_of_findSome?_eq_some hhit
        split_ifs at hif with huid
        obtain rfl := Option.some.inj hif
        have hread : UserRead env (searchTimes past now r'.searches) now _ uid
            ⟨(extractFirstAttr se env.attrs.userName).getD (i32Text uid), some uid, env.primaryGidOf se,
              extractDisplayName se env.attrs.userFullName
                ((extractFirstAttr se env.attrs.userName).getD (i32Text uid)), now⟩ :=
          ⟨rfl, rfl, rfl, _, se, _, hreturned entries rfl se hse, .uid uid se huid rfl, huid, rfl, rfl⟩
        exact (hkept.cacheUser hnow hread).told_some
          (.of_now maxStale_pos ⟨_, hread.said⟩)

/-! ## Lookups of groups -/

/-- **A lookup of a group** answers what was said of it. -/
theorem Kept.resolveGroup (h : Kept env past now fresh last (r.evictExpired now)) (name : Str) :
    Told env past now fresh last
      (fun times answer => Lately now maxStale fun t =>
        ∃ members, env.GroupSaid times t name answer.1 answer.2 members)
      (env.resolveGroup now name r) := by
  rw [ResolverEnv.resolveGroup]
  dsimp only
  split
  -- from the cache: filed at a time that is still fresh
  case h_1 gid g hcached =>
    rw [Option.bind_eq_some_iff] at hcached
    obtain ⟨g', hlookup, hmap⟩ := hcached
    obtain ⟨gid', hgid, hpair⟩ := Option.map_eq_some_iff.mp hmap
    obtain ⟨rfl, rfl⟩ := Prod.mk.inj hpair
    obtain ⟨hid, hfresh, gid'', hgid'', hsaid⟩ := h.groups _ (PairMap.mem_of_lookup hlookup)
    obtain rfl := Option.some.inj (hgid.symm.trans hgid'')
    rw [hid] at hsaid
    exact h.told_some ⟨_, hcurrent _ hfresh, _, hsaid⟩
  case h_2 =>
    split_ifs with hmiss
    · exact h.told_none
    split
    case h_1 r' hsearch => exact ((h.of_search hsearch).1.markNegative _).told_none
    case h_2 entries r' hsearch =>
      obtain ⟨hkept, hreturned⟩ := h.of_search hsearch
      split
      case h_2 => exact (hkept.markNegative _).told_none
      -- from the directory: read just now
      case h_1 gid g hhit =>
        obtain ⟨se, hse, hmap⟩ := List.exists_of_findSome?_eq_some hhit
        obtain ⟨gid', hgid, hpair⟩ := Option.map_eq_some_iff.mp hmap
        obtain ⟨rfl, rfl⟩ := Prod.mk.inj hpair
        exact (hkept.cacheGroup hnow (hreturned entries rfl se hse) (.name se) hgid).told_some
          (.of_now maxStale_pos ⟨_, _, se, hreturned entries rfl se hse, .name se, hgid, rfl, rfl⟩)

/-- **A lookup by gid.** -/
theorem Kept.resolveGroupByGid (h : Kept env past now fresh last (r.evictExpired now)) (gid : Int32) :
    Told env past now fresh last
      (fun times answer => Lately now maxStale fun t =>
        ∃ members, env.GroupSaid times t answer.1 gid answer.2 members)
      (env.resolveGroupByGid now gid r) := by
  rw [ResolverEnv.resolveGroupByGid]
  dsimp only
  split
  case h_1 g hcached =>
    rw [Option.bind_eq_some_iff] at hcached
    obtain ⟨g', hlookup, hmap⟩ := hcached
    obtain ⟨gid', hgid, rfl⟩ := Option.map_eq_some_iff.mp hmap
    obtain ⟨hkey, hfresh, gid'', hgid'', hsaid⟩ := h.gids _ (PairMap.mem_of_lookup hlookup)
    obtain rfl := Option.some.inj (hkey.symm.trans hgid'')
    exact h.told_some ⟨_, hcurrent _ hfresh, _, hsaid⟩
  case h_2 =>
    split_ifs with hmiss
    · exact h.told_none
    split
    case h_1 r' hsearch => exact ((h.of_search hsearch).1.markNegative _).told_none
    case h_2 entries r' hsearch =>
      obtain ⟨hkept, hreturned⟩ := h.of_search hsearch
      split
      case h_2 => exact (hkept.markNegative _).told_none
      case h_1 g hhit =>
        obtain ⟨se, hse, hif⟩ := List.exists_of_findSome?_eq_some hhit
        split_ifs at hif with hgid
        obtain rfl := Option.some.inj hif
        exact (hkept.cacheGroup hnow (hreturned entries rfl se hse) (.gid gid se hgid rfl)
          hgid).told_some (.of_now maxStale_pos
            ⟨_, _, se, hreturned entries rfl se hse, .gid gid se hgid rfl, hgid, rfl, rfl⟩)

end Lookups

/-! ## The groups of a principal -/

/-- **The gid behind a DN.** -/
theorem Kept.groupGidFromDn (hcurrent : ∀ t, fresh t → now < t + maxStale)
    (h : Kept env past now fresh last r) (dn : Str) :
    Told env past now fresh last (fun times gid => env.DnBacked times now dn gid)
      (env.groupGidFromDn now dn r) := by
  rw [ResolverEnv.groupGidFromDn]
  split
  -- a cached group of the name in front of the DN
  case h_1 gid hcached =>
    obtain ⟨rdn, hrdn, p, hp, heq, hgid⟩ := mem_of_cachedGroupOfRdn hcached
    obtain ⟨hid, hfresh, gid', hgid', hsaid⟩ := h.groups p hp
    obtain rfl := Option.some.inj (hgid.symm.trans hgid')
    rw [hid] at hsaid
    exact h.told_some (.inl ⟨rdn, p.1, hrdn, heq, _, hcurrent _ hfresh, _, _, hsaid⟩)
  case h_2 =>
    dsimp only
    split
    -- a row filed under the DN, within the age for rows of its kind
    case h_1 hit hcached =>
      obtain ⟨hlookup, hage⟩ := Option.filter_eq_some_iff.mp hcached
      refine ⟨h, fun gid hgid => .inr ⟨hit.fetchedAt, ?_, ?_⟩⟩
      · rw [decide_eq_true_eq, if_pos (Option.isSome_of_eq_some hgid)] at hage
        omega
      · exact h.dnGids _ (PairMap.mem_of_lookup hlookup) gid hgid
    case h_2 =>
      cases hsearch : env.serviceSearch ⟨dn, ['*'], none, [env.attrs.groupGidNumber]⟩ r with
      | mk entries r' =>
        obtain ⟨hkept, hreturned⟩ := h.of_search hsearch
        -- else the search says it now
        have hsaid : ∀ gid, ((entries.getD []).findSome? fun se =>
            (extractFirstAttr se env.attrs.groupGidNumber).bind fun s => parseI32 (trim s)) = some gid →
            env.GidSaid (searchTimes past now r'.searches) now dn gid := by
          intro gid hgid
          obtain ⟨se, hse, hhit⟩ := List.exists_of_findSome?_eq_some hgid
          cases entries with
          | none => cases hse
          | some entries => exact ⟨se, hreturned entries rfl se hse, hhit⟩
        exact ⟨hkept.insertDnGid hsaid,
          fun gid hgid => .inr (.of_now identityCacheTtl_pos (hsaid gid hgid))⟩

/-- **The `memberOf` of a user.** -/
theorem Kept.lookupUserDnAndMemberof (h : Kept env past now fresh last r) (username : Str) :
    Told env past now fresh last
      (fun times answer => Lately now identityCacheTtl fun t =>
        env.MemberofSaid times t username answer.1 answer.2)
      (env.lookupUserDnAndMemberof now username r) := by
  rw [ResolverEnv.lookupUserDnAndMemberof]
  split
  case h_1 hit hcached =>
    obtain ⟨hlookup, hage⟩ := Option.filter_eq_some_iff.mp hcached
    refine h.told_some ⟨hit.fetchedAt, ?_, h.memberofs _ (PairMap.mem_of_lookup hlookup)⟩
    rw [decide_eq_true_eq] at hage
    omega
  case h_2 =>
    dsimp only
    split_ifs with hmiss
    · exact h.told_none
    split
    case h_1 r' hsearch => exact ((h.of_search hsearch).1.markNegative _).told_none
    case h_2 entries r' hsearch =>
      obtain ⟨hkept, hreturned⟩ := h.of_search hsearch
      cases entries with
      | nil => exact (hkept.markNegative _).told_none
      | cons se entries =>
        have hsaid : env.MemberofSaid (searchTimes past now r'.searches) now username se.dn
            (((se.get "memberOf".toList).or (se.get "memberof".toList)).getD []) :=
          ⟨se, hreturned _ rfl se List.mem_cons_self, rfl, rfl⟩
        exact (hkept.insertMemberof hsaid).told_some (.of_now identityCacheTtl_pos hsaid)

/-- The `memberOf` that a principal is given. -/
theorem Kept.memberofOf (h : Kept env past now fresh last r) (principal : Str) :
    Told env past now fresh last
      (fun times memberofs => ∃ username dn,
        (username = principal ∨ username = principalLocalPart principal) ∧
        Lately now identityCacheTtl fun t => env.MemberofSaid times t username dn memberofs)
      (env.memberofOf now principal r) := by
  have hwhole := h.lookupUserDnAndMemberof principal
  rw [ResolverEnv.memberofOf]
  split
  case h_1 hit r' hout =>
    rw [hout] at hwhole
    exact hwhole.kept.told_some ⟨principal, hit.1, .inl rfl, hwhole.said hit rfl⟩
  case h_2 r' hout =>
    rw [hout] at hwhole
    dsimp only
    split_ifs with hshort
    · have hlocal := hwhole.kept.lookupUserDnAndMemberof (principalLocalPart principal)
      refine ⟨hlocal.kept, fun memberofs hmemberofs => ?_⟩
      obtain ⟨hit, hhit, rfl⟩ := Option.map_eq_some_iff.mp hmemberofs
      exact ⟨principalLocalPart principal, hit.1, .inr rfl, hlocal.said hit hhit⟩
    · exact hwhole.kept.told_none

/-- **The gids behind DNs.** -/
theorem Kept.pushDnGids (hcurrent : ∀ t, fresh t → now < t + maxStale) (dns : List Str)
    (gids : List Int32) (h : Kept env past now fresh last r) :
    Kept env past now fresh last (env.pushDnGids now dns gids r).2 ∧
      ∀ gid ∈ (env.pushDnGids now dns gids r).1, gid ∈ gids ∨ ∃ dn ∈ dns,
        env.DnBacked (searchTimes past now (env.pushDnGids now dns gids r).2.searches) now dn gid := by
  induction dns generalizing past gids r with
  | nil => exact ⟨h, fun gid hgid => .inl hgid⟩
  | cons dn dns ih =>
    have hfirst := h.groupGidFromDn hcurrent dn
    rw [ResolverEnv.pushDnGids]
    split
    case h_1 gid r' hout =>
      rw [hout] at hfirst
      -- what the first lookup rests on is still said when the others have asked
      have hgrown := hfirst.kept.grown fun h => (ih (pushNew gids gid) h).1
      obtain ⟨hkept, hrest⟩ := ih (pushNew gids gid) hfirst.kept
      refine ⟨hkept, fun gid' hgid' => ?_⟩
      rcases hrest gid' hgid' with hpushed | ⟨dn', hdn', hbacked⟩
      · rcases mem_pushNew.mp hpushed with hgid | rfl
        · exact .inl hgid
        · exact .inr ⟨dn, List.mem_cons_self, (hfirst.said gid' rfl).mono hgrown⟩
      · exact .inr ⟨dn', List.mem_cons_of_mem dn hdn', hbacked⟩
    case h_2 r' hout =>
      rw [hout] at hfirst
      obtain ⟨hkept, hrest⟩ := ih gids hfirst.kept
      refine ⟨hkept, fun gid' hgid' => ?_⟩
      rcases hrest gid' hgid' with hgid | ⟨dn', hdn', hbacked⟩
      · exact .inl hgid
      · exact .inr ⟨dn', List.mem_cons_of_mem dn hdn', hbacked⟩

/-! ## Snapshots -/

/-- After a sweep there is nothing to sweep. -/
theorem Kept.snapshot_eq (h : Kept env past now fresh last r)
    (hrecent : (last.any fun t => now - t < evictInterval) = true) :
    r.snapshot now = (r.identities, r) := by
  obtain rfl := h.last
  rw [Resolver.snapshot, Resolver.evictExpired, if_pos hrecent]

/-- The users of a snapshot are those that are cached, with the uid as the primary gid unless there is
one. -/
theorem Kept.said_of_user (h : Kept env past now fresh last r) {p : Str × PosixUserEntry}
    (hp : p ∈ r.identities.users.values) : ∃ t, fresh t ∧
      env.UserSaid (searchTimes past now r.searches) t p.1 p.2.uid (some p.2.gid) p.2.display := by
  obtain ⟨user, hmem, hentry⟩ := PairMap.exists_of_mem_filterMap hp
  obtain ⟨uid, huid, hentry⟩ := Option.map_eq_some_iff.mp hentry
  obtain ⟨hid, hfresh, uid', huid', req, se, fallback, hreturned, hanswers, hse, hgid, hdisplay⟩ :=
    h.users _ hmem
  obtain rfl := Option.some.inj (huid.symm.trans huid')
  rw [hid] at hanswers
  rw [← hentry]
  exact ⟨user.fetchedAt, hfresh, req, se, fallback, hreturned, hanswers, hse, hgid, hdisplay⟩

/-- A group of the snapshot was said when it was fetched. -/
theorem Kept.said_of_group (h : Kept env past now fresh last r) {p : Str × PosixGroupEntry}
    (hp : p ∈ r.identities.groups.values) : ∃ t, fresh t ∧
      env.GroupSaid (searchTimes past now r.searches) t p.1 p.2.gid p.2.display p.2.members := by
  obtain ⟨g, hmem, hentry⟩ := PairMap.exists_of_mem_filterMap hp
  obtain ⟨gid, hgid, hentry⟩ := Option.map_eq_some_iff.mp hentry
  obtain ⟨hid, hfresh, gid', hgid', hsaid⟩ := h.groups _ hmem
  obtain rfl := Option.some.inj (hgid.symm.trans hgid')
  rw [hid] at hsaid
  rw [← hentry]
  exact ⟨g.fetchedAt, hfresh, hsaid⟩


/-- **The gids of a principal** were all said lately. -/
theorem Kept.resolveGroupsForPrincipal (hcurrent : ∀ t, fresh t → now < t + maxStale)
    (hnow : fresh now) (hrecent : (last.any fun t => now - t < evictInterval) = true)
    (h : Kept env past now fresh last (r.evictExpired now)) (principal : Str) :
    Kept env past now fresh last (env.resolveGroupsForPrincipal now principal r).2 ∧
      ∀ gid ∈ (env.resolveGroupsForPrincipal now principal r).1,
        env.GidBacked (searchTimes past now
          (env.resolveGroupsForPrincipal now principal r).2.searches) now principal gid := by
  rw [ResolverEnv.resolveGroupsForPrincipal]
  by_cases hmachine : (classifyPrincipal principal [] []).1 = true
  · rw [if_pos hmachine]
    refine ⟨h, fun gid hgid => ?_⟩
    -- a machine has gid zero and the gids of the cached groups that match its name
    rcases mem_machineGroupGidsForPrincipal hgid with hzero | ⟨p, hp, hhits, rfl⟩
    · exact .root hmachine hzero
    · obtain ⟨t, ht, hsaid⟩ := h.said_of_group hp
      exact .machine p.1 p.2.display p.2.members hmachine ⟨t, hcurrent t ht, hsaid⟩ hhits
  · rw [if_neg hmachine]
    dsimp only
    -- the lookups one after another, each with what the earlier ones have asked
    have huser := h.resolveUser hcurrent hnow principal
    generalize env.resolveUser now principal r = out₁ at huser ⊢
    obtain ⟨user, r₁⟩ := out₁
    have hmember := huser.kept.memberofOf principal
    have hgrown₁ := huser.kept.grown fun h => (h.memberofOf principal).kept
    generalize env.memberofOf now principal r₁ = out₂ at hmember hgrown₁ ⊢
    obtain ⟨memberofs, r₂⟩ := out₂
    dsimp only at huser hmember hgrown₁ ⊢
    have hgids := hmember.kept.pushDnGids hcurrent (memberofs.getD [])
      (((user.bind fun hit => hit.2.1).map fun gid => [gid]).getD [])
    have hgrown₂ := hmember.kept.grown fun h => (h.pushDnGids hcurrent (memberofs.getD [])
      (((user.bind fun hit => hit.2.1).map fun gid => [gid]).getD [])).1
    generalize env.pushDnGids now (memberofs.getD [])
      (((user.bind fun hit => hit.2.1).map fun gid => [gid]).getD []) r₂ = out₃ at hgids hgrown₂ ⊢
    obtain ⟨gids, r₃⟩ := out₃
    obtain ⟨hkept, hbacked⟩ := hgids
    rw [hkept.snapshot_eq hrecent]
    refine ⟨hkept, fun gid hgid => ?_⟩
    -- the primary gid, a gid behind a DN, or a cached group that lists the principal
    rcases LdapDirectory.mem_foldl_listed hgid with hgid | ⟨p, hp, hlists, rfl⟩
    · rcases hbacked gid hgid with hprimary | ⟨dn, hdn, hbehind⟩
      · cases user with
        | none => cases hprimary
        | some answer =>
          obtain ⟨uid, primary, display⟩ := answer
          cases primary with
          | none => cases hprimary
          | some primary =>
            obtain rfl := List.mem_singleton.mp hprimary
            exact .primary uid display ((huser.said _ rfl).mono le_rfl fun t hsaid =>
              hsaid.mono (hgrown₁.trans hgrown₂))
      · cases memberofs with
        | none => cases hdn
        | some memberofs =>
          obtain ⟨username, userDn, hname, hsaid⟩ := hmember.said _ rfl
          exact .memberof username userDn memberofs dn hname
            (hsaid.mono le_rfl fun t hsaid => hsaid.mono hgrown₂) hdn hbehind
    · obtain ⟨t, ht, hsaid⟩ := hkept.said_of_group hp
      obtain ⟨m, hm, hlogin⟩ := List.any_eq_true.mp hlists
      exact .listed p.1 p.2.display p.2.members m ⟨t, hcurrent t ht, hsaid⟩ hm
        (Bool.or_eq_true_iff.mp hlogin)

/-! ## The load -/

/-- A fold whose steps keep a property, and keep what they need of the elements to come. -/
theorem foldl_keeps {σ α : Type*} {step : σ → α → σ} {P : σ → Prop} {Q : σ → α → Prop}
    (hstep : ∀ s x, P s → Q s x → P (step s x) ∧ ∀ y, Q s y → Q (step s x) y) {xs : List α} {s : σ}
    (hs : P s) (hxs : ∀ x ∈ xs, Q s x) : P (xs.foldl step s) := by
  induction xs generalizing s with
  | nil => exact hs
  | cons x xs ih =>
    obtain ⟨hx, hxs⟩ := List.forall_mem_cons.mp hxs
    obtain ⟨hP, hQ⟩ := hstep s x hs hx
    exact ih hP fun y hy => hQ y (hxs y hy)

/-- A user that is loaded is filed as it was read. -/
theorem Kept.loadUser (hnow : fresh now) {base : Str} (hbase : base ∈ env.userBases)
    {acc : Nat × Resolver} (h : Kept env past now fresh last acc.2) {se : SearchEntry}
    (hreturned : env.Returned (searchTimes past now acc.2.searches) now (env.userLoadSearch base) se) :
    Kept env past now fresh last (env.loadUser now acc se).2 ∧
      (env.loadUser now acc se).2.searches = acc.2.searches := by
  rw [ResolverEnv.loadUser]
  dsimp only
  cases hname : extractFirstAttr se env.attrs.userName with
  | none => exact ⟨h, rfl⟩
  | some id =>
    rw [Option.getD_some]
    by_cases hid : id = []
    · rw [if_pos hid]
      exact ⟨h, rfl⟩
    rw [if_neg hid]
    cases huid : env.uidOf se with
    | none => exact ⟨h, rfl⟩
    | some uid =>
      -- under the name and under the principal alike, what is filed is what was read
      have hread : ∀ key, extractFirstAttr se env.attrs.userName = some key ∨
          extractFirstAttr se env.attrs.userPrincipalName = some key →
          UserRead env (searchTimes past now acc.2.searches) now key uid ⟨key, some uid,
            some ((env.primaryGidOf se).getD uid), extractDisplayName se env.attrs.userFullName id,
            now⟩ :=
        fun key hkey =>
          ⟨rfl, rfl, rfl, _, se, id, hreturned, .loaded base se hbase hkey, huid, rfl, rfl⟩
      have hfiled := h.cacheUser hnow (hread id (.inl hname))
      cases hprincipal : extractFirstAttr se env.attrs.userPrincipalName with
      | none => exact ⟨hfiled, rfl⟩
      | some principal =>
        dsimp only
        split_ifs with halias
        · exact ⟨hfiled.insertUser hnow (hread principal (.inr hprincipal)), rfl⟩
        · exact ⟨hfiled, rfl⟩

/-- Loading the users leaves what is cached right. -/
theorem Kept.loadUsers (hnow : fresh now) {bases : List Str}
    (hbases : ∀ base ∈ bases, base ∈ env.userBases) {acc : Nat × Resolver}
    (h : Kept env past now fresh last acc.2) :
    Kept env past now fresh last (env.loadUsers now bases acc).2 := by
  induction bases generalizing acc with
  | nil => exact h
  | cons base bases ih =>
    obtain ⟨hbase, hbases⟩ := List.forall_mem_cons.mp hbases
    have hload : ∀ (acc : Nat × Resolver) (se : SearchEntry), Kept env past now fresh last acc.2 →
        env.Returned (searchTimes past now acc.2.searches) now (env.userLoadSearch base) se →
        Kept env past now fresh last (env.loadUser now acc se).2 ∧ ∀ se',
          env.Returned (searchTimes past now acc.2.searches) now (env.userLoadSearch base) se' →
          env.Returned (searchTimes past now (env.loadUser now acc se).2.searches) now
            (env.userLoadSearch base) se' := by
      intro acc se h hse
      obtain ⟨hkept, hsearches⟩ := h.loadUser hnow hbase hse
      rw [hsearches]
      exact ⟨hkept, fun se' hse' => hse'⟩
    rw [ResolverEnv.loadUsers]
    dsimp only
    rcases hsearch : env.serviceSearch ⟨base, env.attrs.userObjectClass, none, env.userLoadAttrs⟩ acc.2
      with ⟨found, r'⟩
    obtain ⟨hkept, hreturned⟩ := h.of_search hsearch
    refine ih hbases (foldl_keeps hload hkept fun se hse => ?_)
    cases found with
    | none => cases hse
    | some entries => exact hreturned entries rfl se hse

/-- Loading a group leaves what is cached right. -/
theorem Kept.loadGroup (hnow : fresh now) {base : Str} (hbase : base ∈ env.groupBases)
    (h : Kept env past now fresh last r) {se : SearchEntry}
    (hreturned : env.Returned (searchTimes past now r.searches) now (env.groupLoadSearch base) se) :
    Kept env past now fresh last (env.loadGroup now r se) ∧
      (env.loadGroup now r se).searches = r.searches := by
  rw [ResolverEnv.loadGroup]
  cases hname : extractFirstAttr se env.attrs.groupName with
  | none => exact ⟨h, rfl⟩
  | some id =>
    rw [Option.getD_some]
    by_cases hid : id = []
    · rw [if_pos hid]
      exact ⟨h, rfl⟩
    rw [if_neg hid]
    cases hgid : env.gidOf se with
    | none => exact ⟨h, rfl⟩
    | some gid => exact ⟨h.cacheGroup hnow hreturned (.loaded base se hbase hname) hgid, rfl⟩

/-- Loading the groups leaves what is cached right. -/
theorem Kept.loadGroups (hnow : fresh now) {bases : List Str}
    (hbases : ∀ base ∈ bases, base ∈ env.groupBases) (h : Kept env past now fresh last r) :
    Kept env past now fresh last (env.loadGroups now bases r) := by
  induction bases generalizing r with
  | nil => exact h
  | cons base bases ih =>
    obtain ⟨hbase, hbases⟩ := List.forall_mem_cons.mp hbases
    have hload : ∀ (r : Resolver) (se : SearchEntry), Kept env past now fresh last r →
        env.Returned (searchTimes past now r.searches) now (env.groupLoadSearch base) se →
        Kept env past now fresh last (env.loadGroup now r se) ∧ ∀ se',
          env.Returned (searchTimes past now r.searches) now (env.groupLoadSearch base) se' →
          env.Returned (searchTimes past now (env.loadGroup now r se).searches) now
            (env.groupLoadSearch base) se' := by
      intro r se h hse
      obtain ⟨hkept, hsearches⟩ := h.loadGroup hnow hbase hse
      rw [hsearches]
      exact ⟨hkept, fun se' hse' => hse'⟩
    rw [ResolverEnv.loadGroups]
    dsimp only
    rcases hsearch : env.serviceSearch ⟨base, env.attrs.groupObjectClass, none, env.groupLoadAttrs⟩ r
      with ⟨found, r'⟩
    obtain ⟨hkept, hreturned⟩ := h.of_search hsearch
    refine ih hbases (foldl_keeps hload hkept fun se hse => ?_)
    cases found with
    | none => cases hse
    | some entries => exact hreturned entries rfl se hse

/-- **A load files what it reads**, and forgets the rest. -/
theorem Kept.loadFullIdentities (hnow : fresh now) (h : Kept env past now fresh last r) :
    Kept env past now fresh last (env.loadFullIdentities now r).2 := by
  rw [ResolverEnv.loadFullIdentities]
  dsimp only
  exact (Kept.loadUsers hnow (fun base hbase => hbase) h.clearCaches).loadGroups hnow
    fun base hbase => hbase

end Moves

/-! ## Runs -/

/-- A new resolver has nothing cached that could be wrong. -/
theorem idle_new (start : Nat) : Idle env [] start .new where
  logged := rfl
  swept e he := by cases he
  kept := ⟨rfl, le_rfl, List.forall_mem_nil _, List.forall_mem_nil _, List.forall_mem_nil _,
    List.forall_mem_nil _, List.forall_mem_nil _, List.forall_mem_nil _⟩

/-- **A use of the resolver** answers what was said lately, and leaves the resolver idle. -/
theorem Idle.use {r : Resolver} (h : Idle env times now r) (u : ResolverUse) :
    env.AnswerBacked (searchTimes times now (env.use r now u).searches) now r u ∧
      Idle env (searchTimes times now (env.use r now u).searches) now (env.use r now u) := by
  have hle := Resolver.lastEvict_evictExpired_le h.swept
  have hsweep := h.evictExpired
  -- what is as old as the sweep allows is not too stale
  have hcurrent : ∀ t, Current now (r.evictExpired now).lastEvict t → now < t + maxStale :=
    fun t ht => ht.1
  have hsince : ∀ t, Current now (r.evictExpired now).lastEvict t →
      SinceSweep (r.evictExpired now).lastEvict t := fun t ht => ht.2
  have hnow : Current now (r.evictExpired now).lastEvict now :=
    ⟨Nat.lt_add_of_pos_right maxStale_pos,
      fun e he => (hle e he).trans_lt (Nat.lt_add_of_pos_right identityCacheTtl_pos)⟩
  cases u with
  -- one lemma a call
  | call c =>
    cases c with
    | loadFullIdentities =>
      have hkept := h.kept.loadFullIdentities fun e he =>
        (h.swept e he).trans_lt (Nat.lt_add_of_pos_right identityCacheTtl_pos)
      exact ⟨trivial, hkept.idle (fun t ht => ht) h.swept⟩
    | resolveUser name =>
      have htold := hsweep.resolveUser hcurrent hnow name
      exact ⟨fun uid gid display hanswer => htold.said _ hanswer, htold.kept.idle hsince hle⟩
    | resolveGroup name =>
      have htold := hsweep.resolveGroup hcurrent hnow name
      exact ⟨fun gid display hanswer => htold.said _ hanswer, htold.kept.idle hsince hle⟩
    | resolveUserByUid uid =>
      have htold := hsweep.resolveUserByUid hcurrent hnow uid
      exact ⟨fun id display hanswer => htold.said _ hanswer, htold.kept.idle hsince hle⟩
    | resolveGroupByGid gid =>
      have htold := hsweep.resolveGroupByGid hcurrent hnow gid
      exact ⟨fun id display hanswer => htold.said _ hanswer, htold.kept.idle hsince hle⟩
    | resolveGroupsForPrincipal principal =>
      obtain ⟨hkept, hbacked⟩ := hsweep.resolveGroupsForPrincipal hcurrent hnow
        (Resolver.recent_evictExpired now r) principal
      exact ⟨hbacked, hkept.idle hsince hle⟩
  -- this one does not sweep, so that it keeps the older bound
  | lookupUserDnAndMemberof username =>
    have htold := h.kept.lookupUserDnAndMemberof username
    exact ⟨fun dn memberofs hanswer => htold.said _ hanswer, htold.kept.idle (fun t ht => ht) h.swept⟩
  | snapshot =>
    refine ⟨⟨fun p hp => ?_, fun p hp => ?_⟩, hsweep.idle hsince hle⟩
    · obtain ⟨t, ht, hsaid⟩ := hsweep.said_of_user hp
      exact ⟨t, hcurrent t ht, hsaid⟩
    · obtain ⟨t, ht, hsaid⟩ := hsweep.said_of_group hp
      exact ⟨t, hcurrent t ht, hsaid⟩
  | evictExpired => exact ⟨trivial, hsweep.idle hsince hle⟩
  | clearCaches => exact ⟨trivial, h.kept.clearCaches.idle (fun t ht => ht) h.swept⟩

end Staleness

end NfsKlldap
