import NfsKlldap.Ldap.Filing

/-! # Whose groups a principal gets (`resolve_groups_for_principal`)

The groups of a principal come from four selections: a lookup of the user, the `memberOf` of the user with
this name or with the local part, the cached group with the first RDN value of each DN in it, and the cached
groups that list the principal or its local part, in any case. Nothing makes them agree on one user.

* **`LdapDirectory.GroupsBelong`** — every gid is the primary one of the user that is looked up, or that of a
  group that contains it;
* `LdapDirectory.GroupsOk` — the selections agree, as far as they find gids; which gid is behind a DN is said
  on the cached rows and the entries (`LdapDirectory.GidBehind`);
* **`LdapDirectory.Serves.groupsBelong_of_ok`** — then, after any run of calls, the groups belong;
* `LdapDirectory.not_groupsBelong_localPart` — the groups of somebody with the same local part. -/

namespace NfsKlldap

open Text

/-- The values that name the members of a group. -/
def LdapEntry.memberValues (m : PosixAttributeMapping) (e : LdapEntry) : List Str :=
  [m.groupMember, "uniqueMember".toList, "memberUid".toList].flatMap e.valuesOf

/-- The group has the gid, possibly with blanks around it. -/
def LdapEntry.HasGid (m : PosixAttributeMapping) (e : LdapEntry) (gid : Int32) : Prop :=
  e.gid m = some gid ∨ e.trimmedGid m = some gid

/-- A member login is the principal or its local part. -/
def IsPrincipalLogin (principal m : Str) : Prop :=
  eqIgnoreAsciiCase m (principalLocalPart principal) = true ∨ eqIgnoreAsciiCase m principal = true

namespace LdapDirectory

variable (d : LdapDirectory) (env : ResolverEnv)

/-- **The user that a lookup chooses**: the one with the cached uid, or the one that the server finds. -/
def Chosen (now : Nat) (principal : Str) (r : Resolver) (e : LdapEntry) : Prop :=
  e ∈ d.users env ∧
    ((∃ hit, ResolverEnv.cachedUser principal (r.evictExpired now) = some hit ∧
        e.uid env.attrs = some hit.1) ∨
      AsksForUser now principal r ∧ d.userFor env principal = some e)

/-- The group cache has the gid under a name: in the row of this name or, where there is none or it has no
gid, in the first row, in the order of the map, with the name in another case. -/
def CachedGid (name : Str) (r : Resolver) (gid : Int32) : Prop :=
  (∃ p ∈ r.groupCache.values, p.1 = name ∧ p.2.gidNumber = some gid) ∨
    (∀ p ∈ r.groupCache.values, p.1 = name → p.2.gidNumber = none) ∧
      ∃ before p behind, env.groupOrder r.groupCache.values = before ++ p :: behind ∧
        eqIgnoreAsciiCase p.1 name = true ∧ p.2.gidNumber = some gid ∧
        ∀ q ∈ before, eqIgnoreAsciiCase q.1 name = false

/-- The first entry at or under the DN that has a gid has this one. -/
def FirstGidAt (dn : Str) (gid : Int32) : Prop :=
  ∃ before e behind, d.entries = before ++ e :: behind ∧ d.under e.dn dn = true ∧
    e.trimmedGid env.attrs = some gid ∧
    ∀ e' ∈ before, d.under e'.dn dn = true → e'.trimmedGid env.attrs = none

/-- **The gid behind a DN**: the cached one under the value of its first RDN, without the blanks around it,
or that of an entry where none is cached. -/
def GidBehind (dn : Str) (r : Resolver) (gid : Int32) : Prop :=
  (∃ value, firstRdnValue dn = some value ∧ trim value ≠ [] ∧ CachedGid env (trim value) r gid) ∨
    (∀ value, firstRdnValue dn = some value → trim value ≠ [] →
      ∀ gid', ¬ CachedGid env (trim value) r gid') ∧ d.FirstGidAt env dn gid

section Names

/- When a value of `memberOf` or of a member attribute names an entry. -/
variable (names : Str → LdapEntry → Prop)

/-- A group contains an entry, by its `memberOf` or by a member value. -/
def Contains (g e : LdapEntry) : Prop :=
  (∃ dn ∈ e.memberOfs, names dn g) ∨ ∃ v ∈ g.memberValues env.attrs, names v e

/-- **The groups belong to the user that is looked up.** -/
def GroupsBelong (now : Nat) (principal : Str) (r : Resolver) : Prop :=
  ∀ gid ∈ (env.resolveGroupsForPrincipal now principal r).1, ∃ e ∈ d.users env, ∃ answer,
    (env.resolveUser now principal r).1 = some answer ∧ e.uid env.attrs = some answer.1 ∧
      (answer.2.1 = some gid ∧ e.ids env.attrs = some (answer.1, gid) ∨
        ∃ g ∈ d.groups env, g.HasGid env.attrs gid ∧ Contains env names g e)

/-- **The selections agree**, as far as they find gids. -/
structure GroupsOk (now : Nat) (principal : Str) (r : Resolver) : Prop where
  /-- The `memberOf` is that of the user that is looked up, and the gid behind each DN is that of the group
  with the DN. -/
  memberOf : ∀ e ∈ d.memberofOwner env principal, ∀ dn ∈ e.memberOfs,
    ∀ gid, d.GidBehind env dn (r.evictExpired now) gid → d.Chosen env now principal r e ∧
      ∃ g ∈ d.groups env, g.HasGid env.attrs gid ∧ names dn g
  /-- A cached member login like the principal comes from a value that names the user that is looked up. -/
  listed : ∀ p ∈ (r.evictExpired now).groupCache.values, ∀ m ∈ p.2.members,
    IsPrincipalLogin principal m → ∀ g ∈ d.groups env, ∀ gid ∈ p.2.gidNumber,
      g.gid env.attrs = some gid → ∃ e, d.Chosen env now principal r e ∧
        ∃ v ∈ g.memberValues env.attrs, memberLogin v = m ∧ names v e

end Names

variable {d env}

/-! ## The gid behind a DN -/

/-- A lookup by name finds the gid in the row of the name. -/
theorem lookup_gid_eq_some_iff {name : Str} {r : Resolver} {gid : Int32} :
    (r.groupCache.lookup name).bind CachedGroup.gidNumber = some gid ↔
      ∃ p ∈ r.groupCache.values, p.1 = name ∧ p.2.gidNumber = some gid := by
  rw [PairMap.lookup, Option.bind_map, Option.bind_eq_some_iff]
  refine exists_congr fun p => ?_
  rw [KeyedMap.get?_eq_some_iff, and_assoc]
  rfl

/-- The two lookups of a name find what the cache has under it. -/
theorem cachedGid_iff {name : Str} {r : Resolver} {gid : Int32} :
    ((r.groupCache.lookup name).bind CachedGroup.gidNumber).or
        (((env.groupOrder r.groupCache.values).find? fun p => eqIgnoreAsciiCase p.1 name).bind
          fun p => p.2.gidNumber) = some gid ↔ CachedGid env name r gid := by
  rw [Option.or_eq_some_iff, lookup_gid_eq_some_iff, CachedGid]
  refine or_congr_right (and_congr ?_ ?_)
  · rw [Option.eq_none_iff_forall_ne_some]
    simp only [ne_eq, lookup_gid_eq_some_iff]
    constructor
    · intro h p hp hname
      rw [Option.eq_none_iff_forall_ne_some]
      exact fun gid' hgid => h gid' ⟨p, hp, hname, hgid⟩
    · rintro h gid' ⟨p, hp, hname, hgid⟩
      exact nomatch hgid.symm.trans (h p hp hname)
  · rw [Option.bind_eq_some_iff]
    constructor
    · rintro ⟨p, hfind, hgid⟩
      obtain ⟨hp, before, behind, horder, hbefore⟩ := List.find?_eq_some_iff_append.mp hfind
      exact ⟨before, p, behind, horder, hp, hgid, fun q hq => by simpa using hbefore q hq⟩
    · rintro ⟨before, p, behind, horder, hp, hgid, hbefore⟩
      exact ⟨p, List.find?_eq_some_iff_append.mpr
        ⟨hp, before, behind, horder, fun q hq => by simpa using hbefore q hq⟩, hgid⟩

/-- The gid that is found under a DN is that of the first entry there that has one. -/
theorem firstGidUnder_eq_some_iff {dn : Str} {gid : Int32} :
    d.firstGidUnder env dn = some gid ↔ d.FirstGidAt env dn gid := by
  rw [firstGidUnder, List.findSome?_eq_some_iff, FirstGidAt]
  constructor
  · rintro ⟨l₁, e, l₂, hsplit, hgid, hbefore⟩
    obtain ⟨before, rest, hentries, rfl, hrest⟩ := List.filter_eq_append_iff.mp hsplit
    obtain ⟨skipped, behind, rfl, hskipped, he, -⟩ := List.filter_eq_cons_iff.mp hrest
    refine ⟨before ++ skipped, e, behind, by rw [hentries, List.append_assoc], he, hgid,
      fun e' he' hunder => ?_⟩
    rcases List.mem_append.mp he' with he' | he'
    · exact hbefore e' (List.mem_filter.mpr ⟨he', hunder⟩)
    · exact absurd hunder (hskipped e' he')
  · rintro ⟨before, e, behind, hentries, he, hgid, hbefore⟩
    refine ⟨before.filter fun e => d.under e.dn dn, e, behind.filter fun e => d.under e.dn dn, ?_, hgid,
      fun e' he' => ?_⟩
    · rw [hentries, List.filter_append, List.filter_cons, if_pos he]
    · obtain ⟨hmem, hunder⟩ := List.mem_filter.mp he'
      exact hbefore e' hmem hunder

/-- The gid that is cached for a DN is the one under the value of its first RDN. -/
theorem cachedGroupOfRdn_eq_some_iff {dn : Str} {r : Resolver} {gid : Int32} :
    env.cachedGroupOfRdn dn r = some gid ↔
      ∃ value, firstRdnValue dn = some value ∧ trim value ≠ [] ∧ CachedGid env (trim value) r gid := by
  rw [ResolverEnv.cachedGroupOfRdn, Option.bind_eq_some_iff]
  simp only [cachedGid_iff, Option.filter_eq_some_iff, Option.map_eq_some_iff, decide_eq_true_eq]
  constructor
  · rintro ⟨-, ⟨⟨value, hvalue, rfl⟩, hne⟩, hgid⟩
    exact ⟨value, hvalue, hne, hgid⟩
  · rintro ⟨value, hvalue, hne, hgid⟩
    exact ⟨trim value, ⟨⟨value, hvalue, rfl⟩, hne⟩, hgid⟩

/-- **The gid that is found behind a DN** is the one the cache and the entries say. -/
theorem gidBehind_eq_some_iff {dn : Str} {r : Resolver} {gid : Int32} :
    d.gidBehind env dn r = some gid ↔ d.GidBehind env dn r gid := by
  rw [gidBehind, Option.or_eq_some_iff, cachedGroupOfRdn_eq_some_iff, firstGidUnder_eq_some_iff, GidBehind]
  refine or_congr_right (and_congr_left fun _ => ?_)
  rw [Option.eq_none_iff_forall_ne_some]
  simp only [ne_eq, cachedGroupOfRdn_eq_some_iff]
  constructor
  · exact fun h value hvalue hne gid' hgid => h gid' ⟨value, hvalue, hne, hgid⟩
  · rintro h gid' ⟨value, hvalue, hne, hgid⟩
    exact h value hvalue hne gid' hgid

/-! ## What is cached, after any run -/

variable (d env) in
/-- What is cached of a user is a user of the directory. -/
def UserKnown (_key : Str) (user : CachedUser) : Prop := ∃ e ∈ d.users env, StandsFor env user e

variable (d env) in
/-- What is cached of a group has the gid of a group. -/
def GroupKnown (_key : Str) (g : CachedGroup) : Prop :=
  ∀ gid ∈ g.gidNumber, ∃ e ∈ d.groups env, e.gid env.attrs = some gid

variable (d env) in
/-- **What is cached comes from the directory.** -/
structure Sound (r : Resolver) : Prop where
  holds : CachesHold (d.UserKnown env) (d.GroupKnown env) r
  remembers : d.Remembers env r

/-- What is cached of a group of the directory is known. -/
theorem groupKnown_groupOf {now : Nat} {key key' : Str} {gid : Int32} {se : SearchEntry}
    {e : LdapEntry} (he : e ∈ d.groups env) (hgid : e.gid env.attrs = some gid) :
    d.GroupKnown env key (env.groupOf now key' gid se) := by
  intro gid' hgid'
  obtain rfl := Option.some.inj hgid'
  exact ⟨e, he, hgid⟩

/-- The user that is found is known. -/
theorem userKnown_of_firstUserWith {attr value key : Str} {e : LdapEntry} {user : CachedUser}
    (h : d.firstUserWith env attr value = some e) (hstands : StandsFor env user e) :
    d.UserKnown env key user :=
  ⟨e, mem_of_firstUserWith h, hstands⟩

/-- **A call** files what comes from the directory. -/
theorem Serves.moves_call (h : d.Serves env) (hposix : d.Posix env) (r : Resolver)
    (c : Nat × ResolverCall) :
    d.Moves env c.1 (d.UserKnown env) (d.GroupKnown env) r (env.call r c) := by
  obtain ⟨now, c⟩ := c
  cases c with
  -- a load files the entries of the listed classes under their own names and aliases
  | loadFullIdentities =>
    refine .single (.load r (fun key e he => ?_) fun e he p hp => ?_)
    · have hload := List.mem_reverse.mp (List.mem_of_find?_eq_some he)
      obtain ⟨base, -, hlisted⟩ := List.mem_flatMap.mp hload
      obtain ⟨hentry, hclass⟩ := List.mem_filter.mp hlisted
      exact ⟨e, List.mem_filter.mpr ⟨hentry, (Bool.and_eq_true_iff.mp hclass).2⟩,
        standsFor_loadedUser env now e key⟩
    · rw [ResolverEnv.groupWrites] at hp
      split at hp
      case h_2 => exact absurd hp List.not_mem_nil
      case h_1 name gid hname hgid =>
        split_ifs at hp
        · exact absurd hp List.not_mem_nil
        obtain rfl := List.mem_singleton.mp hp
        exact groupKnown_groupOf he hgid
  -- every other call files what some entry stands for
  | resolveUser name =>
    exact (h.userLookup hposix now name r).moves
      (fun _ _ _ he hstands => userKnown_of_firstUserWith he hstands)
      fun _ _ _ _ _ he hstands => userKnown_of_firstUserWith he hstands
  | resolveGroup name =>
    refine h.moves_resolveGroup hposix fun _ e gid he hgid => ?_
    exact groupKnown_groupOf (List.mem_filter.mp (List.mem_of_find?_eq_some he)).1 hgid
  | resolveUserByUid uid =>
    exact h.moves_resolveUserByUid hposix fun e he _ _ _ hstands => ⟨e, he, hstands⟩
  | resolveGroupByGid gid =>
    exact h.moves_resolveGroupByGid hposix fun _ _ he _ hgid _ _ => groupKnown_groupOf he hgid
  | resolveGroupsForPrincipal principal =>
    exact h.moves_resolveGroupsForPrincipal hposix
      (fun _ _ _ _ he hstands => userKnown_of_firstUserWith he hstands)
      fun _ _ _ _ _ _ he hstands => userKnown_of_firstUserWith he hstands

/-- **Moves** leave a resolver sound. -/
theorem Moves.sound (hserves : d.Serves env) {now : Nat} {r r' : Resolver}
    (h : d.Moves env now (d.UserKnown env) (d.GroupKnown env) r r') (hr : d.Sound env r) :
    d.Sound env r' :=
  ⟨h.holds hserves hr.holds, h.remembers hr.remembers⟩

/-- **Every resolver that calls lead to** is sound. -/
theorem Serves.sound_run (h : d.Serves env) (hposix : d.Posix env)
    (calls : List (Nat × ResolverCall)) : d.Sound env (calls.foldl env.call Resolver.new) := by
  have hrun : ∀ r, d.Sound env r → d.Sound env (calls.foldl env.call r) := by
    induction calls with
    | nil => exact fun _ hr => hr
    | cons c calls ih => exact fun r hr => ih _ ((h.moves_call hposix r c).sound h hr)
  exact hrun _ ⟨cachesHold_new, Remembers.new⟩

/-! ## The user that is looked up -/

/-- A cached user with a uid has the ids of its entry. -/
theorem StandsFor.ids {user : CachedUser} {e : LdapEntry} (h : StandsFor env user e) {uid : Int32}
    (huid : user.uidNumber = some uid) :
    e.ids env.attrs = some (uid, user.primaryGid.getD uid) := by
  refine h ⟨uid, user.primaryGid.getD uid, user.displayName⟩ ?_
  rw [CachedUser.posixEntry, huid]
  rfl

/-- A cached user with a uid has that of its entry. -/
theorem StandsFor.uid {user : CachedUser} {e : LdapEntry} (h : StandsFor env user e) {uid : Int32}
    (huid : user.uidNumber = some uid) : e.uid env.attrs = some uid := by
  obtain ⟨uid', huid', heq⟩ := Option.map_eq_some_iff.mp (h.ids huid)
  rw [huid', (Prod.mk.inj heq).1]

/-- The chosen user is the one that is answered. -/
theorem Serves.answer_of_chosen (h : d.Serves env) (hposix : d.Posix env) {now : Nat}
    {principal : Str} {r : Resolver} {e : LdapEntry} (he : d.Chosen env now principal r e) :
    ∃ answer, (env.resolveUser now principal r).1 = some answer ∧
      e.uid env.attrs = some answer.1 := by
  have hlookup := h.userLookup hposix now principal r
  -- chosen by the cache, or by the directory when the cache has nothing
  obtain ⟨-, ⟨hit, hhit, huid⟩ | ⟨hasks, hfor⟩⟩ := he
  · generalize env.resolveUser now principal r = out at hlookup
    cases hlookup with
    | cached uid user hcached =>
      obtain rfl := Option.some.inj (hcached.symm.trans hhit)
      exact ⟨_, rfl, huid⟩
    | denied hnone => cases hnone.symm.trans hhit
    | byName n e' uid user hasks => cases hasks.1.symm.trans hhit
    | byPrincipal n e' uid user hasks => cases hasks.1.symm.trans hhit
    | missing n hasks => cases hasks.1.symm.trans hhit
  · generalize env.resolveUser now principal r = out at hlookup
    cases hlookup with
    | cached uid user hcached => cases hasks.1.symm.trans hcached
    | denied hnone hmiss => cases hasks.2.symm.trans hmiss
    | byName n e' uid user hasks' hfirst hstands huid =>
      rw [userFor, hfirst] at hfor
      obtain rfl := Option.some.inj hfor
      exact ⟨_, rfl, hstands.uid huid⟩
    | byPrincipal n e' uid user hasks' hat hnone hfirst hstands huid =>
      rw [userFor, hnone, if_pos hat, hfirst] at hfor
      obtain rfl := Option.some.inj hfor
      exact ⟨_, rfl, hstands.uid huid⟩
    | missing n hasks' hnone => cases hnone.symm.trans hfor

/-- The primary gid that is answered is that of a user with the uid. -/
theorem Serves.primaryGid_of_answer (h : d.Serves env) (hposix : d.Posix env) {now : Nat}
    {principal : Str} {r : Resolver} (hr : d.Sound env r)
    {answer : Int32 × Option Int32 × Str} (hanswer : (env.resolveUser now principal r).1 = some answer)
    {gid : Int32} (hgid : answer.2.1 = some gid) :
    ∃ e ∈ d.users env, e.uid env.attrs = some answer.1 ∧ e.ids env.attrs = some (answer.1, gid) := by
  -- whichever entry the answer stands for has its uid, and the gid as primary one
  have hanswered : ∀ {e : LdapEntry} {user : CachedUser} {uid : Int32}, e ∈ d.users env →
      StandsFor env user e → user.uidNumber = some uid →
        some (ResolverEnv.userAnswer uid user) = some answer →
          ∃ e ∈ d.users env, e.uid env.attrs = some answer.1 ∧
            e.ids env.attrs = some (answer.1, gid) := by
    intro e user uid he hstands huid heq
    obtain rfl := Option.some.inj heq
    refine ⟨e, he, hstands.uid huid, ?_⟩
    rw [hstands.ids huid, show user.primaryGid = some gid from hgid]
    rfl
  have hlookup := h.userLookup hposix now principal r
  generalize env.resolveUser now principal r = out at hlookup hanswer
  cases hlookup with
  -- a cached user stands for an entry, since the cache is sound
  | cached uid user hcached =>
    obtain ⟨user', hlookup, hsome⟩ := Option.bind_eq_some_iff.mp hcached
    obtain ⟨uid', huid, heq⟩ := Option.map_eq_some_iff.mp hsome
    obtain ⟨rfl, rfl⟩ := Prod.mk.inj heq
    obtain ⟨p, hp, rfl⟩ := Option.map_eq_some_iff.mp hlookup
    have hswept : d.Moves env now (d.UserKnown env) (d.GroupKnown env) r (r.evictExpired now) :=
      .single (.sweep r)
    obtain ⟨e, he, hstands⟩ :=
      (hswept.holds h hr.holds).users p (KeyedMap.get?_eq_some_iff.mp hp).1
    exact hanswered he hstands huid hanswer
  | denied => cases hanswer
  | byName n e uid user hasks hfirst hstands huid =>
    exact hanswered (mem_of_firstUserWith hfirst) hstands huid hanswer
  | byPrincipal n e uid user hasks hat hnone hfirst hstands huid =>
    exact hanswered (mem_of_firstUserWith hfirst) hstands huid hanswer
  | missing => cases hanswer

/-! ## Whose groups -/

/-- Gids that are pushed for groups that list a principal. -/
theorem mem_foldl_listed {principal : Str} {kvs : List (Str × PosixGroupEntry)} {gids : List Int32}
    {gid : Int32}
    (h : gid ∈ kvs.foldl (fun gids p =>
      if ResolverEnv.listsPrincipal principal p.2 then pushNew gids p.2.gid else gids) gids) :
    gid ∈ gids ∨ ∃ p ∈ kvs, ResolverEnv.listsPrincipal principal p.2 = true ∧ p.2.gid = gid := by
  induction kvs generalizing gids with
  | nil => exact .inl h
  | cons p kvs ih =>
    rcases ih h with h | ⟨q, hq, hrest⟩
    · dsimp only at h
      split_ifs at h with hlists
      · rcases mem_pushNew.mp h with h | rfl
        · exact .inl h
        · exact .inr ⟨p, List.mem_cons_self, hlists, rfl⟩
      · exact .inl h
    · exact .inr ⟨q, List.mem_cons_of_mem p hq, hrest⟩

/-- **Groups that belong**, in a sound resolver. -/
theorem Serves.groupsBelong_of_sound (h : d.Serves env) (hposix : d.Posix env)
    {names : Str → LdapEntry → Prop} {now : Nat} {principal : Str} {r : Resolver}
    (hr : d.Sound env r) (hmachine : (classifyPrincipal principal [] []).1 = false)
    (hok : d.GroupsOk env names now principal r) : d.GroupsBelong env names now principal r := by
  intro gid hgid
  have huser := h.moves_call hposix r (now, .resolveUser principal)
  have hcache := (h.userLookup hposix now principal r).groupCache
  obtain ⟨hmoves, hgroups, hmemberof⟩ := h.memberofOf hposix (U := d.UserKnown env)
    (G := d.GroupKnown env) now principal (env.resolveUser now principal r).2
  have hsound := huser.sound h hr
  rw [ResolverEnv.resolveGroupsForPrincipal, hmachine, if_neg Bool.false_ne_true] at hgid
  dsimp only at hgid
  rw [hmemberof hsound.remembers] at hgid
  obtain ⟨-, hgroups', hpush⟩ := h.pushDnGids (U := d.UserKnown env)
    (G := d.GroupKnown env) now
    (((d.memberofOwner env principal).map (·.memberOfs)).getD [])
    ((((env.resolveUser now principal r).1.bind fun hit => hit.2.1).map fun gid => [gid]).getD [])
    (env.memberofOf now principal (env.resolveUser now principal r).2).2
  rcases mem_foldl_listed hgid with hgid | ⟨p, hp, hlists, rfl⟩
  · rcases hpush (hmoves.sound h hsound).remembers gid hgid with hgid | ⟨dn, hdn, hbehind⟩
    · -- the primary gid
      cases hanswer : (env.resolveUser now principal r).1 with
      | none =>
        rw [hanswer] at hgid
        exact absurd hgid List.not_mem_nil
      | some answer =>
        rw [hanswer] at hgid
        cases hprimary : answer.2.1 with
        | none =>
          simp [hprimary] at hgid
        | some primary =>
          have heq : gid = primary := by simpa [hprimary] using hgid
          subst heq
          obtain ⟨e, he, huid, hids⟩ := h.primaryGid_of_answer hposix hr hanswer hprimary
          exact ⟨e, he, answer, rfl, huid, .inl ⟨hprimary, hids⟩⟩
    · -- a gid behind a DN
      cases howner : d.memberofOwner env principal with
      | none =>
        rw [howner] at hdn
        exact absurd hdn List.not_mem_nil
      | some e =>
        rw [howner] at hdn
        rw [gidBehind_congr (hgroups.trans hcache)] at hbehind
        obtain ⟨hchosen, g, hg, hgid, hnames⟩ :=
          hok.memberOf e howner dn hdn gid (gidBehind_eq_some_iff.mp hbehind)
        obtain ⟨answer, hanswer, huid⟩ := h.answer_of_chosen hposix hchosen
        exact ⟨e, hchosen.1, answer, hanswer, huid, .inr ⟨g, hg, hgid, .inl ⟨dn, hdn, hnames⟩⟩⟩
  · -- a cached group with a member like the principal
    obtain ⟨q, hq, hqp⟩ := List.mem_filterMap.mp hp
    obtain ⟨entry, hentry, rfl⟩ := Option.map_eq_some_iff.mp hqp
    obtain ⟨gid, hgidNumber, rfl⟩ := Option.map_eq_some_iff.mp hentry
    have hswept : q ∈ (r.evictExpired now).groupCache.values := by
      rw [← hcache, ← hgroups, ← hgroups']
      rw [Resolver.evictExpired] at hq
      split at hq
      · exact hq
      · exact List.mem_of_mem_filter hq
    have hsweep : d.Moves env now (d.UserKnown env) (d.GroupKnown env) r (r.evictExpired now) :=
      .single (.sweep r)
    obtain ⟨g, hg, hgid⟩ := (hsweep.holds h hr.holds).groups q hswept gid hgidNumber
    obtain ⟨m, hm, hlogin⟩ := List.any_eq_true.mp hlists
    obtain ⟨e, hchosen, v, hv, -, hnames⟩ := hok.listed q hswept m hm
      (Bool.or_eq_true_iff.mp hlogin) g hg gid hgidNumber hgid
    obtain ⟨answer, hanswer, huid⟩ := h.answer_of_chosen hposix hchosen
    exact ⟨e, hchosen.1, answer, hanswer, huid, .inr ⟨g, hg, .inl hgid, .inr ⟨v, hv, hnames⟩⟩⟩

/-- **Whose groups a principal gets**: after any run of calls, for every principal that is not a machine and
for which the selections agree, the groups belong to the user that is looked up. -/
theorem Serves.groupsBelong_of_ok (h : d.Serves env) (hposix : d.Posix env)
    (names : Str → LdapEntry → Prop) (calls : List (Nat × ResolverCall)) {now : Nat}
    {principal : Str} (hmachine : (classifyPrincipal principal [] []).1 = false)
    (hok : d.GroupsOk env names now principal (calls.foldl env.call Resolver.new)) :
    d.GroupsBelong env names now principal (calls.foldl env.call Resolver.new) :=
  h.groupsBelong_of_sound hposix (h.sound_run hposix calls) hmachine hok

/-! ## Two users and one local part -/

/-- The user `alice`, a member of `admins`. -/
def aliceEntry : LdapEntry where
  dn := "uid=alice,ou=people,dc=example,dc=com".toList
  attrs := [("objectClass".toList, ["posixAccount".toList]), ("uid".toList, ["alice".toList]),
    ("uidNumber".toList, ["1001".toList]), ("gidNumber".toList, ["2001".toList]),
    ("memberOf".toList, ["cn=admins,ou=groups,dc=example,dc=com".toList])]

/-- The user `bob`, whose principal has `alice` as its local part. -/
def bobEntry : LdapEntry where
  dn := "uid=bob,ou=people,dc=example,dc=com".toList
  attrs := [("objectClass".toList, ["posixAccount".toList]), ("uid".toList, ["bob".toList]),
    ("uidNumber".toList, ["1002".toList]), ("gidNumber".toList, ["2002".toList]),
    ("krbPrincipalName".toList, ["alice@OTHER.ORG".toList])]

/-- The group `admins`, with `alice` in it. -/
def adminsEntry : LdapEntry where
  dn := "cn=admins,ou=groups,dc=example,dc=com".toList
  attrs := [("objectClass".toList, ["posixGroup".toList]), ("cn".toList, ["admins".toList]),
    ("gidNumber".toList, ["4000".toList]),
    ("member".toList, ["uid=alice,ou=people,dc=example,dc=com".toList])]

/-- A user whose principal has the name of another user as its local part. -/
def twoAlices : LdapDirectory where
  entries := [aliceEntry, bobEntry, adminsEntry]
  under dn base := base.isSuffixOf dn
  matchesValue _ v asked := eqIgnoreAsciiCase v asked

/-- A resolver of that directory with the default attributes. -/
def twoAlicesResolver : ResolverEnv where
  userBase := "ou=people,dc=example,dc=com".toList
  groupBase := "ou=groups,dc=example,dc=com".toList
  attrs := resolvePosixAttributeMapping {}
  search _ req := some (twoAlices.search req)
  groupOrder l := l
  groupOrder_perm := perm_listed

/-- A value names an entry by its DN, or by its user name. -/
def namesEntry (v : Str) (e : LdapEntry) : Prop :=
  v = e.dn ∨ e.userName twoAlicesResolver.attrs = some v

/-- The two users and the group are a directory. -/
theorem posix_twoAlices : twoAlices.Posix twoAlicesResolver := by
  constructor <;> decide +kernel

/-- The groups of `alice` belong to it. -/
theorem groupsBelong_alice :
    twoAlices.GroupsBelong twoAlicesResolver namesEntry 0 "alice".toList Resolver.new := by
  have hserves : twoAlices.Serves twoAlicesResolver := fun _ _ => rfl
  refine hserves.groupsBelong_of_ok posix_twoAlices namesEntry [] (by decide +kernel)
    ⟨fun e he dn hdn gid hgid => ?_, fun p hp => absurd hp List.not_mem_nil⟩
  have howner : twoAlices.memberofOwner twoAlicesResolver "alice".toList = some aliceEntry := by
    decide +kernel
  obtain rfl := Option.some.inj (howner.symm.trans he)
  have hdns : aliceEntry.memberOfs = [adminsEntry.dn] := by decide +kernel
  rw [hdns, List.mem_singleton] at hdn
  subst hdn
  have hbehind : twoAlices.gidBehind twoAlicesResolver adminsEntry.dn
      (Resolver.new.evictExpired 0) = some 4000 := by decide +kernel
  obtain rfl := Option.some.inj (hbehind.symm.trans (gidBehind_eq_some_iff.mpr hgid))
  refine ⟨⟨by decide +kernel, .inr ⟨⟨rfl, rfl⟩, by decide +kernel⟩⟩, adminsEntry, by decide +kernel,
    .inl (by decide +kernel), .inl rfl⟩

/-- **The groups of somebody else**: the principal of `bob` has `alice` as its local part, and gets the
groups of `alice`. -/
theorem not_groupsBelong_localPart :
    twoAlices.Posix twoAlicesResolver ∧ twoAlices.Serves twoAlicesResolver ∧
      (classifyPrincipal "alice@OTHER.ORG".toList [] []).1 = false ∧
      ¬twoAlices.GroupsBelong twoAlicesResolver namesEntry 0 "alice@OTHER.ORG".toList
        Resolver.new := by
  refine ⟨posix_twoAlices, fun _ _ => rfl, by decide +kernel, fun hall => ?_⟩
  have hgid : (4000 : Int32) ∈ (twoAlicesResolver.resolveGroupsForPrincipal 0
      "alice@OTHER.ORG".toList Resolver.new).1 := by decide +kernel
  have hanswer : (twoAlicesResolver.resolveUser 0 "alice@OTHER.ORG".toList Resolver.new).1 =
      some (1002, some 2002, "alice@OTHER.ORG".toList) := by decide +kernel
  obtain ⟨e, he, answer, hanswer', huid, hbelongs⟩ := hall 4000 hgid
  obtain rfl := Option.some.inj (hanswer.symm.trans hanswer')
  have hbob : ∀ e ∈ twoAlices.users twoAlicesResolver,
      e.uid twoAlicesResolver.attrs = some 1002 → e = bobEntry := by decide +kernel
  obtain rfl := hbob e he huid
  rcases hbelongs with ⟨hprimary, -⟩ | ⟨g, hg, -, ⟨dn, hdn, -⟩ | ⟨v, hv, hnames⟩⟩
  · exact absurd hprimary (by decide)
  · have hnone : bobEntry.memberOfs = [] := by decide +kernel
    rw [hnone] at hdn
    exact absurd hdn List.not_mem_nil
  · have hvalues : ∀ g ∈ twoAlices.groups twoAlicesResolver,
        ∀ v ∈ g.memberValues twoAlicesResolver.attrs,
          v ≠ bobEntry.dn ∧ bobEntry.userName twoAlicesResolver.attrs ≠ some v := by
      decide +kernel
    obtain ⟨hdn, hname⟩ := hvalues g hg v hv
    exact hnames.elim hdn hname

end LdapDirectory

end NfsKlldap
