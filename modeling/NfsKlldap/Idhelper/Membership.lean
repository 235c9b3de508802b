import NfsKlldap.Idhelper.NssSnapshotSpec

/-! # Membership of users in the rows of their groups

Ganesha learns the groups of a user from the member lists of the group store, so a user has to be
listed in every row whose gid it claims. Three of the four passes of the builder list everybody who
is filed under the gid; the private-group stub `u{uid}` of an entry lists nobody, and when it is the
first claim on a gid that somebody else claims later, the row stays empty.

* **`StubShadowed`** — the stub of an earlier entry takes the gid;
* **`membershipComplete_iff`** — membership is complete exactly when that does not happen. -/

namespace NfsKlldap

open Text

/-- Membership of an entry in the rows of a gid: there is a row with that gid, and every such row
lists each login of the entry that is not numeric. Rows are read with the parser of the store. -/
def MembershipComplete (cache : IdCache) (ldap : LdapGroups) (e : Resolved) (g : UInt32) : Prop :=
  (∃ line ∈ (buildNssSnapshot cache ldap).2, ∃ row, parseGroupRow line = some row ∧ row.gid = g) ∧
    ∀ line ∈ (buildNssSnapshot cache ldap).2, ∀ row, parseGroupRow line = some row → row.gid = g →
      ∀ login ∈ nssPasswdLoginsFor e, isNumericLogin login = false → login ∈ row.members

/-- The private-group stub of an entry takes the gid `g`: the directory has no group for it, and no
entry up to the one with uid `g` claims it. -/
def StubShadowed (cache : IdCache) (ldap : LdapGroups) (g : UInt32) : Prop :=
  ¬ HasLdapGid ldap g ∧ ∃ r ∈ cache.values, r.isEmitted = true ∧ r.uid = g ∧
    ∀ x ∈ cache.values, x.isEmitted = true → x.principal ≤ r.principal → g ∉ x.claimedGids

/-- Whether a stub shadows a group can be decided. -/
instance (cache : IdCache) (ldap : LdapGroups) (g : UInt32) :
    Decidable (StubShadowed cache ldap g) :=
  inferInstanceAs (Decidable (¬ HasLdapGid ldap g ∧ ∃ r ∈ cache.values, r.isEmitted = true ∧
    r.uid = g ∧ ∀ x ∈ cache.values, x.isEmitted = true → x.principal ≤ r.principal →
      g ∉ x.claimedGids))

/-! ## Rows as fields and rows as text -/

/-- Membership completeness can be read off the rows before they are printed. -/
theorem membershipComplete_iff_rows {cache : IdCache} {ldap : LdapGroups} {e : Resolved}
    {g : UInt32} : MembershipComplete cache ldap e g ↔
      (∃ f ∈ (buildNssRows cache ldap).2, f.gid = g) ∧
        ∀ f ∈ (buildNssRows cache ldap).2, f.gid = g → ∀ login ∈ emittedLogins e,
          login ∈ f.members := by
  have hparse : ∀ f ∈ (buildNssRows cache ldap).2,
      parseGroupRow f.line = some ⟨f.name, f.gid, f.members⟩ :=
    fun f hf => (isSaneGroup_of_mem_buildNssRows hf).parseGroupRow_line
  simp only [MembershipComplete, buildNssSnapshot, List.mem_map, emittedLogins, List.mem_filter,
    Bool.not_eq_true', and_imp]
  constructor
  · rintro ⟨⟨_, ⟨f, hf, rfl⟩, row, hrow, hg⟩, hall⟩
    rw [hparse f hf, Option.some.injEq] at hrow
    subst hrow
    refine ⟨⟨f, hf, hg⟩, ?_⟩
    intro f' hf' hg' login hl hn
    exact hall _ ⟨f', hf', rfl⟩ _ (hparse f' hf') hg' login hl hn
  · rintro ⟨⟨f, hf, hg⟩, hall⟩
    refine ⟨⟨_, ⟨f, hf, rfl⟩, _, hparse f hf, hg⟩, ?_⟩
    rintro _ ⟨f', hf', rfl⟩ row hrow hg' login hl hn
    rw [hparse f' hf', Option.some.injEq] at hrow
    subst hrow
    exact hall f' hf' hg' login hl hn

/-! ## The winner of a claimed gid -/

section Winner

variable {cache : IdCache} {ldap : LdapGroups} {g : UInt32}

/-- The rows of the directory pass list everybody filed under the gid. -/
theorem mem_members_of_ldapClaims {f : GroupFields} {x : Str}
    (h : (g, some f) ∈ ldapClaims ldap (cacheUsers cache) (cacheMembers cache))
    (hx : x ∈ cacheMembers cache g) : x ∈ f.members := by
  obtain ⟨c, -, hc⟩ := List.mem_map.mp h
  simp only [Prod.mk.injEq, Option.some.injEq] at hc
  obtain ⟨rfl, rfl⟩ := hc
  exact mem_pushAllNew.mpr (Or.inr hx)

/-- The row of a claimed gid lists everybody filed under it. -/
theorem mem_members_claimedRow (hg : g ≠ 0) (r : Resolved) {x : Str}
    (hx : x ∈ cacheMembers cache g) : x ∈ (claimedRow ldap (cacheMembers cache) r g).members := by
  rw [claimedRow, if_neg hg, if_pos hg]
  split
  · exact mem_pushNew.mpr (Or.inl hx)
  · dsimp only
    split_ifs
    · exact mem_pushNew.mpr (Or.inl (mem_pushNew.mpr (Or.inl hx)))
    · exact mem_pushNew.mpr (Or.inl hx)
    · exact mem_pushNew.mpr (Or.inl hx)

/-- The first claim on a gid among the entries: a full row of an entry that claims it, or the stub
of the first entry with that uid. -/
theorem findSome?_entryClaims (hg : g ≠ 0) {c : GroupClaim}
    (h : ((emittedItems cache).findSome? fun r =>
      if g ∈ r.claimedGids then some (g, some (claimedRow ldap (cacheMembers cache) r g))
      else if r.uid = g then some (g, if g = 0 then none else some (stubRow g)) else none)
        = some c) :
    (∃ r ∈ emittedItems cache, g ∈ r.claimedGids ∧
        (∀ x ∈ emittedItems cache, x.uid = g → r.principal ≤ x.principal) ∧
        c = (g, some (claimedRow ldap (cacheMembers cache) r g))) ∨
      (c = (g, some (stubRow g)) ∧ ∃ r ∈ emittedItems cache, r.uid = g ∧
        ∀ x ∈ emittedItems cache, x.principal ≤ r.principal → g ∉ x.claimedGids) := by
  obtain ⟨pre, r, post, hsplit, hr, hpre⟩ := List.findSome?_eq_some_iff.mp h
  have hmem : r ∈ emittedItems cache := by simp [hsplit]
  -- the entry that gives the claim holds the gid as a group, or as its uid
  by_cases hclaim : g ∈ r.claimedGids
  · rw [if_pos hclaim, Option.some.injEq] at hr
    refine Or.inl ⟨r, hmem, hclaim, ?_, hr.symm⟩
    -- an earlier entry with the uid would have given the stub
    intro x hx hxuid
    by_contra hlt
    have hnone := hpre x ((mem_prefix_iff (emittedItems_pairwise cache) hsplit hx).mpr
      (not_le.mp hlt))
    split at hnone <;> simp at hnone
  · rw [if_neg hclaim] at hr
    by_cases huid : r.uid = g
    · rw [if_pos huid, if_neg hg, Option.some.injEq] at hr
      refine Or.inr ⟨hr.symm, r, hmem, huid, ?_⟩
      -- an earlier entry that claims the gid would have given its row
      intro x hx hle hxg
      rcases eq_or_lt_of_le hle with heq | hlt
      · -- equal principals are equal keys, so `x` is `r` itself
        have hkey : x.key = r.key := by rw [Resolved.key, Resolved.key, heq]
        have hxr := cache.eq_of_key_eq (mem_emittedItems.mp hx).1 (mem_emittedItems.mp hmem).1 hkey
        exact hclaim (hxr ▸ hxg)
      · have hxpre := (mem_prefix_iff (emittedItems_pairwise cache) hsplit hx).mpr hlt
        have hnone := hpre x hxpre
        rw [if_pos hxg] at hnone
        simp at hnone
    · rw [if_neg huid] at hr
      simp at hr

/-- A gid that an emitted entry claims has a winner; it is the stub exactly when the gid is
shadowed, and else it lists everybody filed under the gid. -/
theorem exists_winner (ldap : LdapGroups) (hg : g ≠ 0) {e : Resolved} (he : e ∈ emittedItems cache)
    (hclaim : g ∈ e.claimedGids) :
    ∃ f, (allGroupClaims cache ldap).find? (fun c => c.1 = g) = some (g, some f) ∧
      ((f = stubRow g ∧ StubShadowed cache ldap g) ∨
        (¬ StubShadowed cache ldap g ∧ ∀ x ∈ cacheMembers cache g, x ∈ f.members)) := by
  rw [find?_allGroupClaims]
  cases hldap : (ldapClaims ldap (cacheUsers cache) (cacheMembers cache)).find? fun c => c.1 = g with
  -- a group of the directory comes before all entries, so that nothing shadows the gid
  | some c =>
    have hkey : c.1 = g := by simpa using List.find?_some hldap
    have hmem := List.mem_of_find?_eq_some hldap
    have hhas : HasLdapGid ldap g :=
      mem_keys_ldapClaims.mp (List.mem_map.mpr ⟨c, hmem, hkey⟩)
    obtain ⟨d, -, hd⟩ := List.mem_map.mp hmem
    obtain ⟨f, rfl⟩ : ∃ f, c = (g, some f) := ⟨_, by rw [← hd] at hkey ⊢; exact Prod.ext hkey rfl⟩
    refine ⟨f, rfl, Or.inr ⟨fun hsh => hsh.1 hhas, ?_⟩⟩
    intro x hx
    exact mem_members_of_ldapClaims hmem hx
  -- else the entries decide, and one of them claims the gid
  | none =>
    have hno : ¬ HasLdapGid ldap g := by
      intro hhas
      obtain ⟨c, hc, hcg⟩ := List.mem_map.mp
        ((@mem_keys_ldapClaims ldap (cacheUsers cache) (cacheMembers cache) _).mpr hhas)
      exact absurd hcg (by simpa using List.find?_eq_none.mp hldap c hc)
    rw [Option.none_or]
    cases hent : (emittedItems cache).findSome? fun r =>
        if g ∈ r.claimedGids then some (g, some (claimedRow ldap (cacheMembers cache) r g))
        else if r.uid = g then some (g, if g = 0 then none else some (stubRow g)) else none with
    | none =>
      have hnone := List.findSome?_eq_none_iff.mp hent e he
      rw [if_pos hclaim] at hnone
      simp at hnone
    | some c =>
      rw [Option.some_or]
      rcases findSome?_entryClaims hg hent with ⟨r, hr, hrg, hmin, rfl⟩ | ⟨rfl, r, hr, huid, hall⟩
      -- the row of an entry that comes before every holder of the uid
      · refine ⟨_, rfl, Or.inr ⟨?_, fun x hx => mem_members_claimedRow hg r hx⟩⟩
        rintro ⟨-, s, hs, hsem, hsuid, hsall⟩
        have hle := hmin s (mem_emittedItems.mpr ⟨hs, hsem⟩) hsuid
        exact hsall r (mem_emittedItems.mp hr).1 (mem_emittedItems.mp hr).2 hle hrg
      -- the stub: its entry comes before everybody that claims the gid
      · refine ⟨_, rfl, Or.inl ⟨rfl, hno, r, (mem_emittedItems.mp hr).1, (mem_emittedItems.mp hr).2,
          huid, ?_⟩⟩
        intro x hx hxem hle
        exact hall x (mem_emittedItems.mpr ⟨hx, hxem⟩) hle

/-- **The one row of a claimed gid** is the stub exactly when the gid is shadowed, and else it lists
everybody filed under the gid. -/
theorem exists_row_of_claimed (ldap : LdapGroups) (hg : g ≠ 0) {e : Resolved}
    (he : e ∈ emittedItems cache) (hclaim : g ∈ e.claimedGids) :
    ∃ f ∈ (buildNssRows cache ldap).2, f.gid = g ∧
      (∀ f' ∈ (buildNssRows cache ldap).2, f'.gid = g → f' = f) ∧
      ((f = stubRow g ∧ StubShadowed cache ldap g) ∨
        (¬ StubShadowed cache ldap g ∧ ∀ x ∈ cacheMembers cache g, x ∈ f.members)) := by
  obtain ⟨f, hwin, hcases⟩ := exists_winner ldap hg he hclaim
  have hfg : f.gid = g := gid_of_mem_allGroupClaims (List.mem_of_find?_eq_some hwin)
  refine ⟨f, ?_, hfg, ?_, hcases⟩
  · exact mem_buildNssRows_group.mpr (Or.inr ⟨by rw [hfg]; exact hwin, fun h => hg (hfg ▸ h.2)⟩)
  · intro f' hf' hg'
    rcases mem_buildNssRows_group.mp hf' with rfl | ⟨hwin', -⟩
    · exact absurd hg'.symm hg
    · rw [hg', hwin] at hwin'
      simpa using hwin'.symm

end Winner

/-- **Membership of users is complete unless a stub shadows the gid.** For an emitted user and a
non-zero gid that it claims, the group store lists the user in every row of that gid exactly when no
private-group stub took the gid first. -/
theorem membershipComplete_iff {cache : IdCache} {ldap : LdapGroups} {e : Resolved} {g : UInt32}
    (he : e ∈ cache.values) (hrealm : principalHasRealm e.principal = true) (hkind : e.kind = .user)
    (hnum : isNumericLocalPrincipal e.principal = false) (hg : g ≠ 0) (hclaim : g ∈ e.claimedGids) :
    MembershipComplete cache ldap e g ↔ ¬ StubShadowed cache ldap g := by
  have hem : e ∈ emittedItems cache :=
    mem_emittedItems.mpr ⟨he, Resolved.isEmitted_iff.mpr ⟨hrealm, hnum⟩⟩
  obtain ⟨f, hrow, hfg, huniq, hcases⟩ := exists_row_of_claimed ldap hg hem hclaim
  have hfiled : ∀ login ∈ emittedLogins e, login ∈ cacheMembers cache g := by
    intro login hl
    refine mem_cacheMembers.mpr (Or.inl ⟨e, he, hrealm, hg, hclaim, ?_⟩)
    rw [memberLogins, if_neg (by rw [hkind]; decide)]
    exact hl
  rw [membershipComplete_iff_rows]
  rcases hcases with ⟨rfl, hsh⟩ | ⟨hno, hall⟩
  · refine iff_of_false ?_ (not_not.mpr hsh)
    -- the stub has no members, and every entry has its realm form as a login
    rintro ⟨-, hmem⟩
    have hlogin : principalRealmLoginForNss e.principal ∈ emittedLogins e :=
      List.mem_filter.mpr ⟨realmLogin_mem hrealm,
        by simp [isNumericLogin_principalRealmLoginForNss hrealm]⟩
    have := hmem _ hrow hfg _ hlogin
    simp [stubRow] at this
  · refine iff_of_true ⟨⟨f, hrow, hfg⟩, ?_⟩ hno
    intro f' hf' hg' login hl
    rw [huniq f' hf' hg']
    exact hall login (hfiled login hl)

/-! ## A shadowed primary group

The uid of `alice` is the primary gid of `bob`, and `alice` comes first. -/

/-- A user whose uid is somebody else's gid. -/
def aliceEntry : Resolved :=
  ⟨"alice@R".toList, "alice".toList, 1000, 500, .user, "bulk".toList, []⟩

/-- A user whose gid is somebody else's uid. -/
def bobEntry : Resolved :=
  ⟨"bob@R".toList, "bob".toList, 1001, 1000, .user, "bulk".toList, []⟩

/-- The cache with both users. -/
def aliceBobCache : IdCache := (KeyedMap.empty.insert aliceEntry).insert bobEntry

/-- `bob` is in no member list of his own primary group: the row of gid 1000 is the stub of
`alice`. -/
theorem not_membershipComplete_bob :
    bobEntry ∈ aliceBobCache.values ∧ principalHasRealm bobEntry.principal = true ∧
      bobEntry.kind = .user ∧ isNumericLocalPrincipal bobEntry.principal = false ∧
      1000 ∈ bobEntry.claimedGids ∧ ¬ MembershipComplete aliceBobCache none bobEntry 1000 := by
  refine ⟨by decide, by decide, rfl, by decide, by decide, ?_⟩
  rintro ⟨-, hall⟩
  have hbob := hall "u1000:x:1000:".toList (by decide) ⟨"u1000".toList, 1000, []⟩ (by decide) rfl
    "bob".toList (by decide) (by decide)
  simp at hbob

/-- `alice` is listed in her primary group. -/
theorem membershipComplete_alice : MembershipComplete aliceBobCache none aliceEntry 500 :=
  (membershipComplete_iff (by decide) (by decide) rfl (by decide) (by decide) (by decide)).mpr
    (by decide)

end NfsKlldap
