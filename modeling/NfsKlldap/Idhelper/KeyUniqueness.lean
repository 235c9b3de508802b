import NfsKlldap.Idhelper.NssSnapshotSpec

/-! # Keys of the NSS stores

A lookup by login or by gid takes the first line of the store that matches, so both stores should
have one line for a key. The seen-sets of the builder see to that for the rows as fields. Two things
escape them: a raw login with a colon in it is printed as a shorter one, and the final root row is
put in front of whatever the directory calls its gid-0 group, unless that is named `root`.

* **`KeysUnique`** — distinct logins, distinct gids, the exact root rows in front, and nobody;
* **`keysUnique_iff`** — when the two stores have these properties. -/

namespace NfsKlldap

open Text

/-- What the two stores promise about their keys. -/
structure KeysUnique (cache : IdCache) (ldap : LdapGroups) : Prop where
  logins : ((buildNssSnapshot cache ldap).1.map loginField).Nodup
  gids : ((buildNssSnapshot cache ldap).2.map fun l => (parseGroupRow l).map GroupRow.gid).Nodup
  root_passwd : (buildNssSnapshot cache ldap).1.head? = some "root:x:0:0:root:/root:/bin/sh".toList
  root_group : (buildNssSnapshot cache ldap).2.head? = some "root:x:0:root,daemon,bin".toList
  nobody : "nobody".toList ∈ (buildNssSnapshot cache ldap).1.map loginField

/-- The logins of the cache stay distinct when they are cut at their first colon. -/
def LoginsSeparated (cache : IdCache) : Prop :=
  ∀ r ∈ cache.values, r.isEmitted = true → ∀ r' ∈ cache.values, r'.isEmitted = true →
    ∀ l ∈ emittedLogins r, ∀ l' ∈ emittedLogins r', before ':' l = before ':' l' → l = l'

/-- The directory has no gid-0 group, or the one with the lowest key prints as `root`. -/
def RootGroupNamed (ldap : LdapGroups) : Prop :=
  ∀ kv ∈ ldap.entries, kv.2.gid = 0 → (∀ kv' ∈ ldap.entries, kv'.2.gid = 0 → kv.1 ≤ kv'.1) →
    sanitizeForNss kv.2.display = "root".toList

/-! ## Passwd logins -/

/-- The rows before the fix-ups have distinct logins. -/
theorem nodup_login_passwdRows (cache : IdCache) :
    (((firsts [] (allPasswdClaims cache)).filterMap Prod.snd).map PasswdFields.login).Nodup := by
  refine nodup_rows_firsts ?_
  intro login f hmem
  obtain ⟨r, -, hr⟩ := List.mem_flatMap.mp hmem
  obtain ⟨l, -, hl⟩ := List.mem_map.mp hr
  simp only [Prod.mk.injEq, Option.some.injEq] at hl
  obtain ⟨rfl, rfl⟩ := hl
  rfl

/-- The logins of the rows before the fix-ups are those the cache is emitted under. -/
theorem mem_login_passwdRows {cache : IdCache} {login : Str} :
    (∃ f ∈ (firsts [] (allPasswdClaims cache)).filterMap Prod.snd, f.login = login) ↔
      ∃ r ∈ cache.values, r.isEmitted = true ∧ login ∈ emittedLogins r := by
  constructor
  · rintro ⟨f, hf, rfl⟩
    obtain ⟨x, hx, -⟩ := mem_passwdRows_iff.mp hf
    exact ⟨x, hx.mem, hx.emitted, hx.login_mem⟩
  · rintro ⟨r, hr, hem, hl⟩
    obtain ⟨x, hx⟩ := exists_firstHolder hr hem hl
    exact ⟨passwdRow x login, mem_passwdRows_iff.mpr ⟨x, hx, rfl⟩, rfl⟩

/-- The rows before the fix-ups have distinct login fields when the logins are separated. -/
theorem nodup_before_passwdRows_iff (cache : IdCache) :
    (((firsts [] (allPasswdClaims cache)).filterMap Prod.snd).map
      fun f => before ':' f.login).Nodup ↔ LoginsSeparated cache := by
  have hnd := nodup_login_passwdRows cache
  rw [List.nodup_map_iff_inj_on hnd.of_map]
  constructor
  · intro hinj r hr hem r' hr' hem' l hl l' hl' hb
    obtain ⟨f, hf, rfl⟩ := mem_login_passwdRows.mpr ⟨r, hr, hem, hl⟩
    obtain ⟨f', hf', rfl⟩ := mem_login_passwdRows.mpr ⟨r', hr', hem', hl'⟩
    rw [hinj f hf f' hf' hb]
  · intro hsep f hf f' hf' hb
    obtain ⟨r, hr, hem, hl⟩ := mem_login_passwdRows.mp ⟨f, hf, rfl⟩
    obtain ⟨r', hr', hem', hl'⟩ := mem_login_passwdRows.mp ⟨f', hf', rfl⟩
    exact List.inj_on_of_nodup_map hnd hf hf' (hsep r hr hem r' hr' hem' _ hl _ hl' hb)

/-- The fix-ups keep login fields distinct, and they do not make repeated ones distinct. -/
theorem nodup_before_finishPasswd_iff (rows : List PasswdFields) :
    ((finishPasswd rows).map fun f => before ':' f.login).Nodup ↔
      (rows.map fun f => before ':' f.login).Nodup := by
  -- once no other row is called `root`, the row in front and the nobody row repeat no login
  have hnobody : (rows.map fun f => before ':' f.login).Nodup →
      "root".toList ∉ (rows.eraseP PasswdFields.isRootLine).map (fun f => before ':' f.login) →
      ((finishPasswd rows).map fun f => before ':' f.login).Nodup := by
    intro hnd hroot
    have herase : ((rows.eraseP PasswdFields.isRootLine).map fun f => before ':' f.login).Nodup :=
      hnd.sublist (List.eraseP_sublist.map _)
    rw [finishPasswd_eq]
    split
    · rw [List.append_nil, List.map_cons, List.nodup_cons]
      exact ⟨hroot, herase⟩
    · rename_i hno
      rw [List.map_append, List.nodup_append, List.map_cons, List.nodup_cons]
      refine ⟨⟨hroot, herase⟩, by simp, ?_⟩
      intro a ha b hb hab
      obtain rfl : b = "nobody".toList := by simpa [nobodyPasswd, before] using hb
      subst hab
      rcases List.mem_cons.mp ha with h | h
      · exact absurd h (by decide)
      · obtain ⟨f, hf, hfl⟩ := List.mem_map.mp h
        exact hno ⟨f, List.mem_of_mem_eraseP hf, hfl⟩
  -- the fix-ups drop the first row of root; where there is none they drop nothing
  by_cases hany : ∃ f ∈ rows, f.isRootLine = true
  · obtain ⟨f, hf, hfroot⟩ := hany
    obtain ⟨a, l₁, l₂, -, ha, hrows, herase⟩ := List.exists_of_eraseP hf hfroot
    have hroot : before ':' a.login = "root".toList := PasswdFields.isRootLine_iff.mp ha
    -- with the dropped row moved to the front, no row behind it is called `root`
    have hperm : (rows.map fun f => before ':' f.login).Nodup ↔
        "root".toList ∉ (l₁ ++ l₂).map (fun f => before ':' f.login) ∧
          ((l₁ ++ l₂).map fun f => before ':' f.login).Nodup := by
      have hmiddle := (@List.perm_middle _ a l₁ l₂).map
        fun f : PasswdFields => before ':' f.login
      rw [hrows, hmiddle.nodup_iff, List.map_cons, List.nodup_cons, hroot]
    constructor
    · intro hnd
      rw [finishPasswd_eq, List.map_append] at hnd
      have hnd' := (List.nodup_append.mp hnd).1
      rw [herase, List.map_cons, List.nodup_cons] at hnd'
      exact hperm.mpr hnd'
    · intro hnd
      refine hnobody hnd ?_
      rw [herase]
      exact (hperm.mp hnd).1
  · have hall : ∀ f ∈ rows, ¬ f.isRootLine = true := fun f hf h => hany ⟨f, hf, h⟩
    have herase := List.eraseP_of_forall_not hall
    constructor
    · intro hnd
      rw [finishPasswd_eq, List.map_append] at hnd
      have hnd' := (List.nodup_append.mp hnd).1
      rw [herase, List.map_cons, List.nodup_cons] at hnd'
      exact hnd'.2
    · intro hnd
      refine hnobody hnd ?_
      rw [herase]
      intro h
      obtain ⟨f, hf, hfroot⟩ := List.mem_map.mp h
      exact hall f hf (PasswdFields.isRootLine_iff.mpr hfroot)

/-! ## Group gids -/

/-- The directory group that the builder keeps for a gid is the one with the lowest key. -/
theorem find?_sorted_iff {ldap : LdapGroups} {p : Str × PosixGroupEntry → Bool}
    {kv : Str × PosixGroupEntry} :
    (ldap.entries.insertionSort fun a b => a.1 ≤ b.1).find? p = some kv ↔
      kv ∈ ldap.entries ∧ p kv = true ∧ ∀ kv' ∈ ldap.entries, p kv' = true → kv.1 ≤ kv'.1 := by
  have htotal : Std.Total fun a b : Str × PosixGroupEntry => a.1 ≤ b.1 :=
    ⟨fun a b => le_total a.1 b.1⟩
  have htrans : IsTrans (Str × PosixGroupEntry) fun a b => a.1 ≤ b.1 := ⟨fun _ _ _ => le_trans⟩
  have hsorted := List.pairwise_insertionSort (fun a b : Str × PosixGroupEntry => a.1 ≤ b.1)
    ldap.entries
  -- what stands before the found entry fails the test, what stands behind it has a greater key
  have hleast : ∀ {kv}, (ldap.entries.insertionSort fun a b => a.1 ≤ b.1).find? p = some kv →
      kv ∈ ldap.entries ∧ p kv = true ∧ ∀ kv' ∈ ldap.entries, p kv' = true → kv.1 ≤ kv'.1 := by
    intro kv h
    obtain ⟨hp, pre, post, hsplit, hpre⟩ := List.find?_eq_some_iff_append.mp h
    refine ⟨(List.mem_insertionSort _).mp (by rw [hsplit]; simp), hp, ?_⟩
    intro kv' hmem hp'
    have hmem' := (List.mem_insertionSort fun a b : Str × PosixGroupEntry => a.1 ≤ b.1).mpr hmem
    rw [hsplit, List.mem_append, List.mem_cons] at hmem'
    rw [hsplit, List.pairwise_append, List.pairwise_cons] at hsorted
    rcases hmem' with hmem' | rfl | hmem'
    · have hno := hpre kv' hmem'
      simp [hp'] at hno
    · exact le_refl _
    · exact hsorted.2.1.1 kv' hmem'
  refine ⟨hleast, ?_⟩
  rintro ⟨hmem, hp, hmin⟩
  -- conversely some entry is found, and two least keys of one map belong to one entry
  obtain ⟨kv₀, h₀⟩ : ∃ kv₀, (ldap.entries.insertionSort fun a b => a.1 ≤ b.1).find? p
      = some kv₀ := by
    rw [← Option.isSome_iff_exists, List.find?_isSome]
    exact ⟨kv, (List.mem_insertionSort _).mpr hmem, hp⟩
  obtain ⟨hmem₀, hp₀, hmin₀⟩ := hleast h₀
  rw [h₀, Option.some.injEq]
  cases ldap with
  | none => simp [LdapGroups.entries] at hmem
  | some groups =>
    exact groups.eq_of_key_eq hmem₀ hmem (le_antisymm (hmin₀ kv hmem hp) (hmin kv₀ hmem₀ hp₀))

/-- The row that wins gid 0 is the directory's, or the root row. -/
theorem zero_winner {cache : IdCache} {ldap : LdapGroups} {f : GroupFields}
    (h : (allGroupClaims cache ldap).find? (fun c => c.1 = 0) = some (0, some f)) :
    f = rootGroupRow ∨ (ldapClaims ldap (cacheUsers cache) (cacheMembers cache)).find?
      (fun c => c.1 = 0) = some (0, some f) := by
  rw [find?_allGroupClaims] at h
  rcases Option.or_eq_some_iff.mp h with h | ⟨-, h⟩
  · exact Or.inr h
  refine Or.inl ?_
  rcases Option.or_eq_some_iff.mp h with h | ⟨-, h⟩
  · obtain ⟨r, -, hr⟩ := List.exists_of_findSome?_eq_some h
    split at hr
    · simpa [claimedRow] using hr.symm
    · split at hr <;> simp at hr
  rcases Option.or_eq_some_iff.mp h with h | ⟨-, h⟩
  · obtain ⟨g, hg, hgf⟩ := List.mem_map.mp (List.mem_of_find?_eq_some h)
    simp only [Prod.mk.injEq] at hgf
    exact absurd hgf.1 (mem_rootSupplementalGidsFromCache.mp hg).1
  · simpa using h.symm

/-- The directory's claims on gid 0 carry the row of its gid-0 group with the lowest key. -/
theorem mem_ldapClaims_zero {ldap : LdapGroups} {users members : MembersByGid} {f : GroupFields} :
    (0, some f) ∈ ldapClaims ldap users members ↔
      ∃ kv ∈ ldap.entries, kv.2.gid = 0 ∧ (∀ kv' ∈ ldap.entries, kv'.2.gid = 0 → kv.1 ≤ kv'.1) ∧
        f = ldapRow users members kv.2 := by
  have hzero : ∀ i : Int32, i.toUInt32 = 0 ↔ i = 0 := fun i =>
    (toUInt32_eq_iff (b := 0)).trans Int32.toInt_inj
  have hint : ∀ i : Int32, i.toInt = 0 ↔ i = 0 := fun i => Int32.toInt_inj (y := 0)
  simp only [ldapClaims, List.mem_map, Prod.mk.injEq, Option.some.injEq, hzero]
  constructor
  · rintro ⟨⟨i, entry⟩, hmem, hgid, rfl⟩
    rw [mem_ldapByGid, Option.map_eq_some_iff] at hmem
    obtain ⟨kv, hfind, rfl⟩ := hmem
    obtain ⟨hkv, hp, hmin⟩ := find?_sorted_iff.mp hfind
    simp only [decide_eq_true_eq] at hp hmin
    refine ⟨kv, hkv, hgid, ?_, rfl⟩
    intro kv' hkv' hgid'
    exact hmin kv' hkv' (by rw [hgid', ← hp, hgid])
  · rintro ⟨kv, hkv, hgid, hmin, rfl⟩
    refine ⟨(0, kv.2), ?_, hgid, rfl⟩
    rw [mem_ldapByGid, Option.map_eq_some_iff]
    refine ⟨kv, find?_sorted_iff.mpr ⟨hkv, by simp [hgid], ?_⟩, rfl⟩
    intro kv' hkv' hgid'
    exact hmin kv' hkv' ((hint _).mp (by simpa using hgid'))

/-- Every row that wins gid 0 is named `root` exactly when the directory's gid-0 group is. -/
theorem zero_winner_root_iff (cache : IdCache) (ldap : LdapGroups) :
    (∀ f, (allGroupClaims cache ldap).find? (fun c => c.1 = 0) = some (0, some f) →
      f.name = "root".toList) ↔ RootGroupNamed ldap := by
  have hname : ∀ entry : PosixGroupEntry, entry.gid = 0 →
      (ldapRow (cacheUsers cache) (cacheMembers cache) entry).name
        = sanitizeForNss entry.display := by
    intro entry hgid
    simp only [ldapRow, hgid]
    rfl
  constructor
  -- the claim on gid 0 of the group with the lowest key is found, so its row is the winner
  · intro hall kv hkv hgid hmin
    have hmem := (@mem_ldapClaims_zero ldap (cacheUsers cache) (cacheMembers cache) _).mpr
      ⟨kv, hkv, hgid, hmin, rfl⟩
    obtain ⟨⟨k, row⟩, hfind⟩ : ∃ c, (ldapClaims ldap (cacheUsers cache) (cacheMembers cache)).find?
        (fun c => c.1 = 0) = some c := by
      rw [← Option.isSome_iff_exists, List.find?_isSome]
      exact ⟨_, hmem, by simp⟩
    obtain rfl : k = 0 := by simpa using List.find?_some hfind
    obtain ⟨e, -, he⟩ := List.mem_map.mp (List.mem_of_find?_eq_some hfind)
    obtain ⟨f, rfl⟩ : ∃ f, row = some f := ⟨_, (congrArg Prod.snd he).symm⟩
    obtain ⟨kv', hkv', hgid', hmin', rfl⟩ :=
      mem_ldapClaims_zero.mp (List.mem_of_find?_eq_some hfind)
    have hroot := hall _ (by rw [find?_allGroupClaims, hfind]; rfl)
    have hkey : kv'.1 = kv.1 := le_antisymm (hmin' kv hkv hgid) (hmin kv' hkv' hgid')
    cases ldap with
    | none => simp [LdapGroups.entries] at hkv
    | some groups =>
      rw [← groups.eq_of_key_eq hkv' hkv hkey, ← hname _ hgid']
      exact hroot
  -- a winner is the exact root row, or comes from that group
  · intro hnamed f hf
    rcases zero_winner hf with rfl | hldap
    · rfl
    · obtain ⟨kv, hkv, hgid, hmin, rfl⟩ := mem_ldapClaims_zero.mp (List.mem_of_find?_eq_some hldap)
      rw [hname _ hgid]
      exact hnamed kv hkv hgid hmin

/-- The gids of the group rows are distinct exactly when the directory's gid-0 group prints as
`root`. -/
theorem nodup_gid_buildNssRows_iff (cache : IdCache) (ldap : LdapGroups) :
    ((buildNssRows cache ldap).2.map GroupFields.gid).Nodup ↔ RootGroupNamed ldap := by
  have hnd : (((firsts [] (allGroupClaims cache ldap)).filterMap Prod.snd).map
      GroupFields.gid).Nodup := nodup_rows_firsts fun _ _ => gid_of_mem_allGroupClaims
  -- the claims were first ones, so only the row in front can repeat a gid
  have hrest : (((buildNssRows cache ldap).2.tail).map GroupFields.gid).Nodup := by
    rw [buildNssRows_group, finishGroups, List.tail_cons]
    exact hnd.sublist (List.filter_sublist.map _)
  have hcons : (buildNssRows cache ldap).2 = rootGroupRow :: (buildNssRows cache ldap).2.tail := by
    rw [buildNssRows_group, finishGroups, List.tail_cons]
  have htail : ∀ f, f ∈ (buildNssRows cache ldap).2.tail ↔
      (allGroupClaims cache ldap).find? (fun c => c.1 = f.gid) = some (f.gid, some f) ∧
        ¬ (f.name = "root".toList ∧ f.gid = 0) := by
    intro f
    rw [buildNssRows_group, finishGroups, List.tail_cons, List.mem_filter, mem_groupRows_iff]
    refine and_congr_right fun hwin => ?_
    rw [← (isSaneGroup_of_mem_allGroupClaims (List.mem_of_find?_eq_some hwin)).isRootLine_iff,
      Bool.not_eq_true, Bool.not_eq_true']
  rw [hcons, List.map_cons, List.nodup_cons, and_iff_left hrest, ← zero_winner_root_iff cache]
  -- it does when the winner of gid zero is kept, which is when it has another name
  constructor
  · intro h0 f hf
    by_contra hname
    have hgid : f.gid = 0 := gid_of_mem_allGroupClaims (List.mem_of_find?_eq_some hf)
    refine h0 (List.mem_map.mpr ⟨f, (htail f).mpr ⟨by rw [hgid]; exact hf, ?_⟩, hgid⟩)
    exact fun h => hname h.1
  · intro hall hmem
    obtain ⟨f, hf, hgid⟩ := List.mem_map.mp hmem
    obtain ⟨hwin, hno⟩ := (htail f).mp hf
    have hgid' : f.gid = 0 := hgid
    rw [hgid'] at hwin
    exact hno ⟨hall f hwin, hgid'⟩

/-! ## Keys of both stores -/

/-- **When the keys of the stores are unique**: the logins have to be distinct up to their first
colon, and the gid-0 group of the directory, if it has one, has to print as `root`. The leading root
rows and the nobody row are there in any case. -/
theorem keysUnique_iff (cache : IdCache) (ldap : LdapGroups) :
    KeysUnique cache ldap ↔ LoginsSeparated cache ∧ RootGroupNamed ldap := by
  -- the logins are unique before the fix-ups exactly when they are after them
  have hlogins :
      ((buildNssSnapshot cache ldap).1.map loginField).Nodup ↔ LoginsSeparated cache := by
    rw [buildNssSnapshot, List.map_map, show loginField ∘ PasswdFields.line
      = fun f => before ':' f.login from funext loginField_line, buildNssRows_passwd,
      nodup_before_finishPasswd_iff, nodup_before_passwdRows_iff]
  -- every printed group row reads back, so the gids of the lines are those of the rows
  have hgids : ((buildNssSnapshot cache ldap).2.map
      fun l => (parseGroupRow l).map GroupRow.gid).Nodup ↔ RootGroupNamed ldap := by
    have hmap : ((buildNssRows cache ldap).2.map GroupFields.line).map
        (fun l => (parseGroupRow l).map GroupRow.gid)
        = ((buildNssRows cache ldap).2.map GroupFields.gid).map some := by
      rw [List.map_map, List.map_map]
      refine List.map_congr_left fun f hf => ?_
      rw [Function.comp_apply, (isSaneGroup_of_mem_buildNssRows hf).parseGroupRow_line]
      rfl
    rw [← nodup_gid_buildNssRows_iff cache, buildNssSnapshot, hmap,
      List.nodup_map_iff (Option.some_injective _)]
  constructor
  · intro h
    exact ⟨hlogins.mp h.logins, hgids.mp h.gids⟩
  · rintro ⟨hl, hg⟩
    refine ⟨hlogins.mpr hl, hgids.mpr hg, ?_, ?_, ?_⟩
    · rw [buildNssSnapshot, buildNssRows_passwd, finishPasswd_eq]
      rfl
    · rw [buildNssSnapshot, buildNssRows_group, finishGroups]
      rfl
    -- the nobody row is a cached one, or it was appended
    · rw [buildNssSnapshot, List.map_map, show loginField ∘ PasswdFields.line
        = fun f => before ':' f.login from funext loginField_line, buildNssRows_passwd,
        finishPasswd_eq]
      by_cases hno : ∃ f ∈ (firsts [] (allPasswdClaims cache)).filterMap Prod.snd,
          before ':' f.login = "nobody".toList
      · obtain ⟨f, hf, hfl⟩ := hno
        rw [if_pos ⟨f, hf, hfl⟩, List.append_nil]
        refine List.mem_map.mpr
          ⟨f, List.mem_cons_of_mem _ ((List.mem_eraseP_of_neg ?_).mpr hf), hfl⟩
        rw [PasswdFields.isRootLine_iff, hfl]
        decide
      · rw [if_neg hno]
        exact List.mem_map.mpr ⟨nobodyPasswd, by simp, by decide⟩

/-! ## A gid-0 group of another name -/

/-- A directory whose gid-0 group is called `wheel`. -/
def wheelGroups : GroupMap := ⟨[("wheel".toList, ⟨0, "wheel".toList, []⟩)], by decide⟩

/-- The group store has two lines with gid 0. -/
theorem not_keysUnique_wheel : ¬ KeysUnique KeyedMap.empty (some wheelGroups) := by
  intro h
  have hgids := h.gids
  revert hgids
  decide

end NfsKlldap
