import NfsKlldap.Ldap.Filing
import NfsKlldap.Lib.Runs

/-! # What the caches say about the directory (`ldap/resolver.rs`)

The caches of a resolver are filled by a load and by lookups, which ask for different attributes and file
what they find under different keys: the name that was typed, the name in the directory, or the local part
of a principal. A snapshot shows what was filed last.

* **`LdapDirectory.Coherent`** — a snapshot agrees with the directory;
* `LdapDirectory.CallOk` — what a call files under a key belongs there, with all members;
* **`LdapDirectory.Serves.coherent_of_ok`** — snapshots are coherent in every run of such calls. -/

namespace NfsKlldap

open Text Runs

/-! ## What belongs under a key -/

namespace LdapDirectory

variable (d : LdapDirectory) (env : ResolverEnv)

/-- If the key is the name of a user, the entry has its uid and its primary gid. -/
def UserRight (key : Str) (entry : PosixUserEntry) : Prop :=
  ∀ e ∈ d.users env, e.userName env.attrs = some key → e.ids env.attrs = some (entry.uid, entry.gid)

/-- The entry has the gid and all members of a group, which is the one with the key as its name if there
is one. -/
def GroupRight (key : Str) (entry : PosixGroupEntry) : Prop :=
  ∃ e ∈ d.groups env, e.gid env.attrs = some entry.gid ∧ entry.members = e.members env.attrs ∧
    ∀ e' ∈ d.groups env, e'.groupName env.attrs = some key → e' = e

/-- **The snapshot agrees with the directory.** -/
structure Coherent (snap : IdMapSnapshot) : Prop where
  users : ∀ p ∈ snap.users.values, d.UserRight env p.1 p.2
  groups : ∀ p ∈ snap.groups.values, d.GroupRight env p.1 p.2

/-- Whoever has the key as a name has the ids of this user. -/
def IdsUnder (key : Str) (e : LdapEntry) : Prop :=
  ∀ e' ∈ d.users env, e'.userName env.attrs = some key → e'.ids env.attrs = e.ids env.attrs

/-- The attributes that hold the members of a group. -/
def memberAttrs : List Str := [env.attrs.groupMember, "uniqueMember".toList, "memberUid".toList]

/-- The attributes that a lookup of a group asks for: the name, the gid and the display names. -/
def askedOfGroup : List Str :=
  [env.attrs.groupName, env.attrs.groupGidNumber, "cn".toList, "displayName".toList]

/-- The members of the group are all found under those of its member attributes that a lookup of a group
asks for, in any case. -/
def MembersAsked (e : LdapEntry) : Prop :=
  e.loginsIn ((memberAttrs env).filter fun attr =>
    attr ∈ askedOfGroup env ∨ toAsciiLowercase attr ∈ askedOfGroup env) = e.loginsIn (memberAttrs env)

/-! ## What a call may file -/

/-- Under each name, a load files a user with the ids of that name last. -/
def LoadOk : Prop := ∀ key, ∀ e ∈ d.lastUnder env key, d.IdsUnder env key e

/-- The user that is found for a name belongs under the name, and one that is found for a principal under
its local part. -/
structure UserLookupOk (name : Str) : Prop where
  byName : ∀ e ∈ d.firstUserWith env env.attrs.userName name, d.IdsUnder env name e
  byPrincipal : '@' ∈ name → d.firstUserWith env env.attrs.userName name = none →
    ∀ e ∈ d.firstUserWith env env.attrs.userPrincipalName name,
      d.IdsUnder env (principalLocalPart name) e

/-- The group that is found for a name belongs under the name, and comes with its members. -/
structure GroupLookupOk (name : Str) : Prop where
  members : ∀ e ∈ d.firstGroupNamed env name, MembersAsked env e
  name : ∀ e ∈ d.firstGroupNamed env name,
    ∀ e' ∈ d.groups env, e'.groupName env.attrs = some name → e' = e

/-- The group with a gid comes with its members. -/
def GidLookupOk (gid : Int32) : Prop :=
  ∀ e ∈ d.groups env, e.gid env.attrs = some gid →
    d.satisfies (some (env.attrs.groupGidNumber, i32Text gid)) e = true → MembersAsked env e

/-- **The call files nothing wrong.** -/
def CallOk (r : Resolver) : Nat × ResolverCall → Prop
  | (_, .loadFullIdentities) => d.LoadOk env
  | (now, .resolveUser name) => AsksForUser now name r → d.UserLookupOk env name
  | (now, .resolveGroup name) => AsksForGroup now name r → d.GroupLookupOk env name
  | (_, .resolveUserByUid _) => True
  | (now, .resolveGroupByGid gid) => AsksForGid now gid r → d.GidLookupOk env gid
  | (now, .resolveGroupsForPrincipal principal) =>
    (classifyPrincipal principal [] []).1 = false →
      AsksForUser now principal r → d.UserLookupOk env principal

variable {d env}

/-! ## Calls that file nothing wrong -/

variable (d env) in
/-- What is cached of a user belongs under the key. -/
def CachedUserRight (key : Str) (user : CachedUser) : Prop :=
  ∀ entry ∈ user.posixEntry, d.UserRight env key entry

variable (d env) in
/-- What is cached of a group belongs under the key. -/
def CachedGroupRight (key : Str) (g : CachedGroup) : Prop :=
  ∀ entry ∈ g.posixEntry, d.GroupRight env key entry

/-- A cached user that stands for an entry belongs under the keys of the entry. -/
theorem cachedUserRight_of_standsFor {key : Str} {user : CachedUser} {e : LdapEntry}
    (h : StandsFor env user e) (hkey : d.IdsUnder env key e) : d.CachedUserRight env key user :=
  fun entry hentry e' he' hname => (hkey e' he' hname).trans (h entry hentry)

/-- A group with its members belongs under a key that no other group has as a name. -/
theorem cachedGroupRight_groupOf {now : Nat} {key : Str} {gid : Int32} {names : List Str}
    {e : LdapEntry} (he : e ∈ d.groups env) (hgid : e.gid env.attrs = some gid)
    (hmembers : extractGroupMembers (e.returned names) env.attrs.groupMember = e.members env.attrs)
    (hkey : ∀ e' ∈ d.groups env, e'.groupName env.attrs = some key → e' = e) :
    d.CachedGroupRight env key (env.groupOf now key gid (e.returned names)) := by
  intro entry hentry
  obtain rfl := Option.some.inj hentry
  exact ⟨e, he, hgid, hmembers, hkey⟩

/-- **A lookup reads all members** of a group exactly when they are under attributes it asks for. -/
theorem membersAsked_iff {e : LdapEntry} :
    MembersAsked env e ↔
      extractGroupMembers (e.returned env.groupLookupAttrs) env.attrs.groupMember =
        e.members env.attrs := by
  rw [e.extractGroupMembers_returned]
  rfl

/-- What a load writes of a group is right under its name. -/
theorem cachedGroupRight_of_mem_groupWrites (hposix : d.Posix env) {now : Nat} {e : LdapEntry}
    (he : e ∈ d.groups env) {p : Str × CachedGroup} (hp : p ∈ env.groupWrites now e) :
    d.CachedGroupRight env p.1 p.2 := by
  rw [ResolverEnv.groupWrites] at hp
  split at hp
  case h_2 => exact absurd hp List.not_mem_nil
  case h_1 name gid hname hgid =>
    split_ifs at hp
    · exact absurd hp List.not_mem_nil
    obtain rfl := List.mem_singleton.mp hp
    refine cachedGroupRight_groupOf he hgid ?_ fun e' he' hname' =>
      hposix.eq_of_groupName he' he (hname'.trans hname.symm)
    rw [e.extractGroupMembers_returned, List.filter_eq_self.mpr fun attr hattr => ?_]
    · rfl
    · have hsub : [env.attrs.groupMember, "uniqueMember".toList, "memberUid".toList] ⊆
          env.groupLoadAttrs := by simp [ResolverEnv.groupLoadAttrs]
      exact decide_eq_true (.inl (hsub hattr))

/-- **A call that files nothing wrong**, as moves. -/
theorem Serves.moves_of_ok (h : d.Serves env) (hposix : d.Posix env) {r : Resolver}
    {c : Nat × ResolverCall} (hok : d.CallOk env r c) :
    d.Moves env c.1 (d.CachedUserRight env) (d.CachedGroupRight env) r (env.call r c) := by
  obtain ⟨now, c⟩ := c
  -- what a call may file is what its premise speaks of
  cases c with
  | loadFullIdentities =>
    refine .single (.load r (fun key e he => ?_) fun e he p hp => ?_)
    · exact cachedUserRight_of_standsFor (standsFor_loadedUser env now e key) (hok key e he)
    · exact cachedGroupRight_of_mem_groupWrites hposix he hp
  | resolveUser name =>
    refine (h.userLookup hposix now name r).moves (fun hasks e user he hstands => ?_)
      fun hasks hat hnone e user he hstands => ?_
    · exact cachedUserRight_of_standsFor hstands ((hok hasks).byName e he)
    · exact cachedUserRight_of_standsFor hstands ((hok hasks).byPrincipal hat hnone e he)
  | resolveGroup name =>
    refine h.moves_resolveGroup hposix fun hasks e gid he hgid => ?_
    exact cachedGroupRight_groupOf (List.mem_filter.mp (List.mem_of_find?_eq_some he)).1 hgid
      (membersAsked_iff.mp ((hok hasks).members e he)) ((hok hasks).name e he)
  | resolveUserByUid uid =>
    refine h.moves_resolveUserByUid hposix fun e he key user hkey hstands => ?_
    refine cachedUserRight_of_standsFor hstands fun e' he' hname => ?_
    rw [hposix.eq_of_userName he' he (hname.trans hkey.symm)]
  | resolveGroupByGid gid =>
    refine h.moves_resolveGroupByGid hposix fun hasks e he hsat hgid key hkey => ?_
    exact cachedGroupRight_groupOf he hgid (membersAsked_iff.mp (hok hasks e he hgid hsat))
      fun e' he' hname => hposix.eq_of_groupName he' he (hname.trans hkey.symm)
  | resolveGroupsForPrincipal principal =>
    refine h.moves_resolveGroupsForPrincipal hposix (fun hmachine hasks e user he hstands => ?_)
      fun hmachine hasks hat hnone e user he hstands => ?_
    · exact cachedUserRight_of_standsFor hstands ((hok hmachine hasks).byName e he)
    · exact cachedUserRight_of_standsFor hstands ((hok hmachine hasks).byPrincipal hat hnone e he)

/-! ## Runs -/

variable (d env) in
/-- **What is cached belongs where it is.** -/
abbrev CachesRight : Resolver → Prop :=
  CachesHold (d.CachedUserRight env) (d.CachedGroupRight env)

/-- A run of calls that file nothing wrong. -/
theorem Serves.cachesRight_run (h : d.Serves env) (hposix : d.Posix env) {r : Resolver}
    (hr : d.CachesRight env r) {calls : List (Nat × ResolverCall)}
    (hok : EveryStep env.call (d.CallOk env) r calls) : d.CachesRight env (calls.foldl env.call r) := by
  induction calls generalizing r with
  | nil => exact hr
  | cons c calls ih => exact ih ((h.moves_of_ok hposix hok.1).holds h hr) hok.2

/-- **The snapshot of right caches** is coherent. -/
theorem Serves.coherent_snapshot (h : d.Serves env) {r : Resolver} (hr : d.CachesRight env r)
    (now : Nat) : d.Coherent env (r.snapshot now).1 := by
  have hevict : d.CachesRight env (r.evictExpired now) :=
    (show d.Move env now _ _ r _ from .sweep r).holds h hr
  constructor
  · intro p hp
    obtain ⟨q, hq, hqp⟩ := List.mem_filterMap.mp hp
    obtain ⟨entry, hentry, rfl⟩ := Option.map_eq_some_iff.mp hqp
    exact hevict.users q hq entry hentry
  · intro p hp
    obtain ⟨q, hq, hqp⟩ := List.mem_filterMap.mp hp
    obtain ⟨entry, hentry, rfl⟩ := Option.map_eq_some_iff.mp hqp
    exact hevict.groups q hq entry hentry

variable (d env) in
/-- Two snapshots say the same of the users and groups whose names they both have. -/
structure Agree (snap snap' : IdMapSnapshot) : Prop where
  users : ∀ e ∈ d.users env, ∀ p ∈ snap.users.values, ∀ q ∈ snap'.users.values,
    e.userName env.attrs = some p.1 → q.1 = p.1 → (p.2.uid, p.2.gid) = (q.2.uid, q.2.gid)
  groups : ∀ e ∈ d.groups env, ∀ p ∈ snap.groups.values, ∀ q ∈ snap'.groups.values,
    e.groupName env.attrs = some p.1 → q.1 = p.1 → p.2.gid = q.2.gid ∧ p.2.members = q.2.members

/-- What agrees with the directory agrees. -/
theorem Coherent.agree {snap snap' : IdMapSnapshot} (h : d.Coherent env snap)
    (h' : d.Coherent env snap') : d.Agree env snap snap' := by
  constructor
  · intro e he p hp q hq hname hkey
    have hids := h.users p hp e he hname
    rw [h'.users q hq e he (hname.trans (by rw [hkey]))] at hids
    exact (Option.some.inj hids).symm
  · intro e he p hp q hq hname hkey
    obtain ⟨e₁, -, hgid, hmembers, hown⟩ := h.groups p hp
    obtain ⟨e₂, -, hgid', hmembers', hown'⟩ := h'.groups q hq
    obtain rfl := hown e he hname
    obtain rfl := hown' e he (hname.trans (by rw [hkey]))
    exact ⟨Option.some.inj (hgid.symm.trans hgid'), hmembers.trans hmembers'.symm⟩

/-- A user and a group that it is in. -/
def mediaHouse : LdapDirectory where
  entries := [⟨"uid=alice,ou=people,dc=example,dc=com".toList,
      [("objectClass".toList, ["posixAccount".toList]), ("uid".toList, ["alice".toList]),
        ("uidNumber".toList, ["1001".toList]), ("gidNumber".toList, ["2001".toList])]⟩,
    ⟨"cn=media,ou=groups,dc=example,dc=com".toList,
      [("objectClass".toList, ["posixGroup".toList]), ("cn".toList, ["media".toList]),
        ("gidNumber".toList, ["3001".toList]),
        ("member".toList, ["uid=alice,ou=people,dc=example,dc=com".toList])]⟩]
  under dn base := base.isSuffixOf dn
  matchesValue _ v asked := eqIgnoreAsciiCase v asked

/-- A resolver of that directory with the default attributes. -/
def mediaResolver : ResolverEnv where
  userBase := "ou=people,dc=example,dc=com".toList
  groupBase := "ou=groups,dc=example,dc=com".toList
  attrs := resolvePosixAttributeMapping {}
  search _ req := some (mediaHouse.search req)
  groupOrder l := l
  groupOrder_perm := perm_listed

/-- The house is a directory of users and groups. -/
theorem posix_mediaHouse : mediaHouse.Posix mediaResolver := by
  constructor <;> decide +kernel

/-- A load, and then lookups. -/
def loadThenLookups : List (Nat × ResolverCall) :=
  [(0, .loadFullIdentities), (1, .resolveUser "alice".toList), (2, .resolveGroup "media".toList)]

end LdapDirectory

end NfsKlldap
