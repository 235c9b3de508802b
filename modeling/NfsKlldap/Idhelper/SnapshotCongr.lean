import NfsKlldap.Lib.ListsInStep
import NfsKlldap.Idhelper.NssSnapshotSpec

/-! # What the builder looks at

The snapshot depends on the supplemental gids of an entry in two ways only: which gids they are, and
in which order those come that no directory group has. `SimEntry` and `SimCache` say that two
entries, or two caches, agree on that, and **`buildNssRows_congr`** that similar caches have the
same snapshot. Nor does the order of enumeration matter, neither that of the cache nor that of the
directory groups (**`buildNssSnapshot_reordered`**). -/

namespace NfsKlldap

open Text

/-! ## Similar entries and caches -/

/-- Two entries that the builder cannot tell apart: they have the same supplemental gids, and those
without a directory group in the same order. -/
structure SimEntry (ldap : LdapGroups) (e e' : Resolved) : Prop where
  fields : e' = e.withSupplementalGids e'.supplementalGids
  mem_iff : ∀ g, g ∈ e.supplementalGids ↔ g ∈ e'.supplementalGids
  order : (e.supplementalGids.filter fun g => ¬ HasLdapGid ldap g)
    = e'.supplementalGids.filter fun g => ¬ HasLdapGid ldap g

namespace SimEntry

variable {ldap : LdapGroups} {e e' e'' : Resolved}

/-- An entry is similar to itself. -/
theorem refl (e : Resolved) : SimEntry ldap e e := ⟨rfl, fun _ => Iff.rfl, rfl⟩

/-- Similarity of entries goes both ways. -/
theorem symm (h : SimEntry ldap e e') : SimEntry ldap e' e where
  fields := by
    rw [h.fields]
    rfl
  mem_iff g := (h.mem_iff g).symm
  order := h.order.symm

/-- Entries that are similar to a third one are similar. -/
theorem trans (h : SimEntry ldap e e') (h' : SimEntry ldap e' e'') : SimEntry ldap e e'' where
  fields := by
    rw [h'.fields, h.fields]
    rfl
  mem_iff g := (h.mem_iff g).trans (h'.mem_iff g)
  order := h.order.trans h'.order

/-- Similar entries have the same principal. -/
theorem principal_eq (h : SimEntry ldap e e') : e.principal = e'.principal := by
  rw [h.fields]
  rfl

/-- Similar entries are emitted together. -/
theorem isEmitted_eq (h : SimEntry ldap e e') : e.isEmitted = e'.isEmitted := by
  rw [h.fields]
  rfl

/-- Similar entries claim the same gids. -/
theorem mem_claimedGids (h : SimEntry ldap e e') (g : UInt32) :
    g ∈ e.claimedGids ↔ g ∈ e'.claimedGids := by
  have hgid : e'.gid = e.gid := by rw [h.fields]; rfl
  rw [Resolved.claimedGids, Resolved.claimedGids, List.mem_cons, List.mem_cons, h.mem_iff, hgid]

end SimEntry

/-- Two caches with the same entries up to similarity. -/
structure SimCache (ldap : LdapGroups) (c c' : IdCache) : Prop where
  left : ∀ e ∈ c.values, ∃ e' ∈ c'.values, SimEntry ldap e e'
  right : ∀ e' ∈ c'.values, ∃ e ∈ c.values, SimEntry ldap e e'

namespace SimCache

variable {ldap : LdapGroups} {c c' c'' : IdCache}

/-- Similarity of caches goes both ways. -/
theorem symm (h : SimCache ldap c c') : SimCache ldap c' c where
  left e he := by
    obtain ⟨e', he', hs⟩ := h.right e he
    exact ⟨e', he', hs.symm⟩
  right e he := by
    obtain ⟨e', he', hs⟩ := h.left e he
    exact ⟨e', he', hs.symm⟩

/-- Caches that are similar to a third one are similar. -/
theorem trans (h : SimCache ldap c c') (h' : SimCache ldap c' c'') : SimCache ldap c c'' where
  left e he := by
    obtain ⟨e', he', hs⟩ := h.left e he
    obtain ⟨e'', he'', hs'⟩ := h'.left e' he'
    exact ⟨e'', he'', hs.trans hs'⟩
  right e'' he'' := by
    obtain ⟨e', he', hs'⟩ := h'.right e'' he''
    obtain ⟨e, he, hs⟩ := h.right e' he'
    exact ⟨e, he, hs.trans hs'⟩

/-! ## The parts of the snapshot -/

/-- Similar caches have similar items. -/
theorem nssItems (h : SimCache ldap c c') :
    List.Forall₂ (SimEntry ldap) (nssItems c) (nssItems c') := by
  refine forall₂_of_pairwise_lt (nssItems_pairwise c) (nssItems_pairwise c')
    (fun _ _ hs => hs.principal_eq) ?_ ?_
  · intro e he
    rw [mem_nssItems] at he
    obtain ⟨e', he', hs⟩ := h.left e he.1
    exact ⟨e', mem_nssItems.mpr ⟨he', hs.principal_eq ▸ he.2⟩, hs⟩
  · intro e' he'
    rw [mem_nssItems] at he'
    obtain ⟨e, he, hs⟩ := h.right e' he'.1
    exact ⟨e, mem_nssItems.mpr ⟨he, hs.principal_eq ▸ he'.2⟩, hs⟩

/-- Similar caches have similar emitted items. -/
theorem emittedItems (h : SimCache ldap c c') :
    List.Forall₂ (SimEntry ldap) (emittedItems c) (emittedItems c') := by
  refine forall₂_of_pairwise_lt (emittedItems_pairwise c) (emittedItems_pairwise c')
    (fun _ _ hs => hs.principal_eq) ?_ ?_
  · intro e he
    rw [mem_emittedItems] at he
    obtain ⟨e', he', hs⟩ := h.left e he.1
    exact ⟨e', mem_emittedItems.mpr ⟨he', hs.isEmitted_eq ▸ he.2⟩, hs⟩
  · intro e' he'
    rw [mem_emittedItems] at he'
    obtain ⟨e, he, hs⟩ := h.right e' he'.1
    exact ⟨e, mem_emittedItems.mpr ⟨he, hs.isEmitted_eq ▸ he'.2⟩, hs⟩

end SimCache

/-- What one entry adds to the member lists, gid by gid. -/
theorem foldl_claimedGids_eq (logins : List Str) (gs : List UInt32) (m : MembersByGid) :
    gs.foldl (fun m g => if g = 0 then m else MembersByGid.pushNew m g logins) m
      = fun h => if h ≠ 0 ∧ h ∈ gs then pushAllNew (m h) logins else m h := by
  induction gs generalizing m with
  | nil => simp
  | cons g gs ih =>
    rw [List.foldl_cons, ih]
    funext h
    by_cases hg : g = 0
    · have hiff : (h ≠ 0 ∧ h ∈ g :: gs) ↔ h ≠ 0 ∧ h ∈ gs := by
        rw [List.mem_cons, hg]
        tauto
      simp only [if_pos hg, hiff]
    · simp only [if_neg hg, MembersByGid.pushNew, Function.update_apply, List.mem_cons]
      by_cases hhg : h = g
      · -- pushing the same logins again changes nothing
        have hagain : pushAllNew (pushAllNew (m g) logins) logins = pushAllNew (m g) logins :=
          pushAllNew_eq_self fun x hx => mem_pushAllNew.mpr (Or.inr hx)
        subst hhg
        simp [hg, hagain]
      · simp [hhg]

/-- The supplemental gids collected for root are strictly ascending. -/
theorem rootSupplementalGidsFromCache_pairwise (cache : IdCache) :
    (rootSupplementalGidsFromCache cache).Pairwise (· < ·) := by
  have hinner : ∀ (gs supps : List UInt32), supps.Nodup →
      (gs.foldl (fun supps g => if g ≠ 0 then pushNew supps g else supps) supps).Nodup := by
    intro gs
    induction gs with
    | nil => exact fun _ h => h
    | cons g gs ih =>
      intro supps h
      rw [List.foldl_cons]
      refine ih _ ?_
      split
      · exact nodup_pushNew h g
      · exact h
  have houter : ∀ (l : List Resolved) (supps : List UInt32), supps.Nodup →
      (l.foldl (fun supps r =>
        if (r.uid = 0 ∨ r.gid = 0) ∧ principalHasRealm r.principal then
          r.supplementalGids.foldl (fun supps g => if g ≠ 0 then pushNew supps g else supps) supps
        else supps) supps).Nodup := by
    intro l
    induction l with
    | nil => exact fun _ h => h
    | cons r l ih =>
      intro supps h
      rw [List.foldl_cons]
      refine ih _ ?_
      split
      · exact hinner _ _ h
      · exact h
  have hnodup := (List.perm_insertionSort (· ≤ ·) _).nodup_iff.mpr
    (houter cache.values [] List.nodup_nil)
  exact (List.pairwise_insertionSort (· ≤ ·) _).imp₂ (fun _ _ => UInt32.lt_of_le_of_ne) hnodup

namespace SimCache

variable {ldap : LdapGroups} {c c' : IdCache}

/-- Similar caches give root the same gids. -/
theorem rootSupplementalGidsFromCache (h : SimCache ldap c c') :
    rootSupplementalGidsFromCache c = rootSupplementalGidsFromCache c' := by
  have hsub : ∀ {c c' : IdCache}, SimCache ldap c c' → ∀ g,
      g ∈ NfsKlldap.rootSupplementalGidsFromCache c →
        g ∈ NfsKlldap.rootSupplementalGidsFromCache c' := by
    intro c c' h g hg
    rw [mem_rootSupplementalGidsFromCache] at hg ⊢
    obtain ⟨hg0, r, hr, hzero, hrealm, hmem⟩ := hg
    obtain ⟨r', hr', hs⟩ := h.left r hr
    refine ⟨hg0, r', hr', ?_, hs.principal_eq ▸ hrealm, (hs.mem_iff g).mp hmem⟩
    rw [hs.fields]
    exact hzero
  exact List.Pairwise.eq_of_mem_iff (rootSupplementalGidsFromCache_pairwise c)
    (rootSupplementalGidsFromCache_pairwise c') fun g => ⟨hsub h g, hsub h.symm g⟩

/-- Similar caches have the same users under each gid. -/
theorem cacheUsers (h : SimCache ldap c c') : cacheUsers c = cacheUsers c' := by
  refine foldl_congr_forall₂ h.nssItems (fun m e e' hs => ?_) _
  rw [hs.fields]
  rfl

/-- Similar caches have the same members under each gid. -/
theorem cacheMembers (h : SimCache ldap c c') : cacheMembers c = cacheMembers c' := by
  rw [NfsKlldap.cacheMembers, NfsKlldap.cacheMembers, membersByGid, membersByGid,
    h.rootSupplementalGidsFromCache]
  congr 1
  refine foldl_congr_forall₂ h.nssItems (fun m e e' hs => ?_) _
  rw [foldl_claimedGids_eq, foldl_claimedGids_eq]
  have hlogins : memberLogins e' = memberLogins e := by
    rw [hs.fields]
    rfl
  simp only [hs.mem_claimedGids, hlogins]

end SimCache

/-- **Similar caches have the same snapshot.** -/
theorem buildNssRows_congr {ldap : LdapGroups} {c c' : IdCache} (h : SimCache ldap c c') :
    buildNssRows c ldap = buildNssRows c' ldap := by
  refine Prod.ext ?_ ?_
  · rw [buildNssRows_passwd, buildNssRows_passwd]
    have hclaims : allPasswdClaims c = allPasswdClaims c' := by
      refine flatMap_congr_forall₂ h.emittedItems fun e e' hs => ?_
      rw [hs.fields]
      rfl
    rw [hclaims]
  · rw [buildNssRows_group, buildNssRows_group]
    refine congrArg (fun cs : List GroupClaim => finishGroups (cs.filterMap Prod.snd)) ?_
    rw [allGroupClaims, allGroupClaims, h.cacheUsers, h.cacheMembers,
      h.rootSupplementalGidsFromCache]
    refine firsts_append_congr ?_
    simp only [List.filter_append, List.filter_flatMap]
    congr 1
    refine flatMap_congr_forall₂ h.emittedItems fun e e' hs => ?_
    -- the claims on gids of directory groups come too late in either order
    have hkeys : ∀ g, g ∈ (ldapClaims ldap (cacheUsers c') (cacheMembers c')).map Prod.fst ↔
        HasLdapGid ldap g := fun g => mem_keys_ldapClaims
    have hstub : stubClaims e' = stubClaims e := by
      rw [hs.fields]
      rfl
    have hrow : claimedRow ldap (cacheMembers c') e' = claimedRow ldap (cacheMembers c') e := by
      rw [hs.fields]
      rfl
    have hgid : e'.gid = e.gid := by
      rw [hs.fields]
      rfl
    have horder := hs.order
    simp only [groupClaims, List.filter_append, List.filter_map, Function.comp_def, hkeys, hstub,
      hrow, Resolved.claimedGids, List.filter_cons, hgid]
    rw [hs.order]

/-! ## Enumeration order -/

/-- Two enumerations of the same directory groups. -/
def LdapGroups.Reordered (ldap ldap' : LdapGroups) : Prop :=
  Option.Rel (fun groups groups' => groups.values.Perm groups'.values) ldap ldap'

/-- A reordered map has the same entries, in another order. -/
theorem LdapGroups.Reordered.entries {ldap ldap' : LdapGroups} (h : ldap.Reordered ldap') :
    ldap.entries.Perm ldap'.entries := by
  cases h with
  | some h => exact h
  | none => exact List.Perm.refl _

/-- No group of a map is there twice. -/
theorem LdapGroups.nodup_entries (ldap : LdapGroups) : (ldap.entries.map Prod.fst).Nodup := by
  cases ldap with
  | none => exact List.nodup_nil
  | some groups => exact groups.nodup

/-- The name of a gid does not depend on the order of the map. -/
theorem gnameForGid_reordered {ldap ldap' : LdapGroups} (h : ldap.Reordered ldap') (gid : UInt32)
    (fallback : Str) : gnameForGid gid ldap fallback = gnameForGid gid ldap' fallback := by
  have hargmin : (ldap.entries.filter fun kv => kv.2.gid.toUInt32 = gid).argmin Prod.fst
      = (ldap'.entries.filter fun kv => kv.2.gid.toUInt32 = gid).argmin Prod.fst := by
    convert argmin_eq_of_perm (h.entries.filter fun kv => kv.2.gid.toUInt32 = gid)
      (ldap.nodup_entries.sublist (List.filter_sublist.map _))
  rw [gnameForGid, gnameForGid, hargmin]

/-- The groups by gid do not depend on the order of the map. -/
theorem ldapByGid_reordered {ldap ldap' : LdapGroups} (h : ldap.Reordered ldap') :
    ldapByGid ldap = ldapByGid ldap' := by
  unfold ldapByGid
  rw [insertionSort_eq_of_perm h.entries ldap.nodup_entries]

/-- The builder looks at the directory through the name of a gid and the groups by gid. -/
theorem buildNssRows_reordered (cache : IdCache) {ldap ldap' : LdapGroups}
    (h : ldap.Reordered ldap') : buildNssRows cache ldap = buildNssRows cache ldap' := by
  have hname := gnameForGid_reordered h
  have hroot : rootMemberRow ldap = rootMemberRow ldap' := by
    funext members g
    rw [rootMemberRow, rootMemberRow, hname]
  have hclaimed : claimedRow ldap = claimedRow ldap' := by
    funext members r g
    rw [claimedRow, claimedRow, hroot, hname]
  have hgroup : groupClaims ldap = groupClaims ldap' := by
    funext members r
    rw [groupClaims, groupClaims, hclaimed]
  have hemit : emitEntry ldap = emitEntry ldap' := by
    funext members st r
    rw [emitEntry, emitEntry, hgroup]
  have hldap : ldapClaims ldap = ldapClaims ldap' := by
    funext users members
    rw [ldapClaims, ldapClaims, ldapByGid_reordered h]
  rw [buildNssRows, buildNssRows, hldap, hemit, hroot]

/-- A cache in another order. -/
theorem SimCache.of_perm {ldap : LdapGroups} {c c' : IdCache} (h : c.values.Perm c'.values) :
    SimCache ldap c c' :=
  ⟨fun e he => ⟨e, h.mem_iff.mp he, SimEntry.refl e⟩,
    fun e he => ⟨e, h.mem_iff.mpr he, SimEntry.refl e⟩⟩

/-- **Build determinism**: the lines of the stores do not depend on the order in which the cache and
the directory groups are enumerated. -/
theorem buildNssSnapshot_reordered {cache cache' : IdCache} {ldap ldap' : LdapGroups}
    (hcache : cache.values.Perm cache'.values) (hldap : ldap.Reordered ldap') :
    buildNssSnapshot cache ldap = buildNssSnapshot cache' ldap' := by
  rw [buildNssSnapshot, buildNssSnapshot, buildNssRows_congr (SimCache.of_perm hcache),
    buildNssRows_reordered cache' hldap]

/-- Two groups with one gid, enumerated in either order. -/
theorem buildNssSnapshot_reordered_tie :
    let staff : Str × PosixGroupEntry := ("staff".toList, ⟨500, "Staff".toList, []⟩)
    let team : Str × PosixGroupEntry := ("team".toList, ⟨500, "Team".toList, ["al".toList]⟩)
    buildNssSnapshot KeyedMap.empty (some ⟨[staff, team], by decide⟩)
      = buildNssSnapshot KeyedMap.empty (some ⟨[team, staff], by decide⟩) :=
  buildNssSnapshot_reordered (List.Perm.refl _) (Option.Rel.some (List.Perm.swap _ _ _))

end NfsKlldap
