import NfsKlldap.Idhelper.NssSnapshot

/-! # Reading the snapshot builder

The four passes of `buildNssRows` are one list of claims, and a row of the result is the first claim
on its key. This file states the builder that way and says what each claim carries:

* **`buildNssRows_group`**, **`buildNssRows_passwd`** — the rows are the winners of
  `allGroupClaims` and `allPasswdClaims`, after the final fix-ups;
* **`mem_cacheMembers`** — who is filed as a member of a gid;
* **`find?_allGroupClaims`** — which pass wins a gid;
* **`parseGroupRow_line`** — every group row is read back as it was built. -/

namespace NfsKlldap

open Text

/-! ## Items in order -/

/-- The items of a snapshot are the cached entries with a realm. -/
theorem mem_nssItems {cache : IdCache} {r : Resolved} :
    r ∈ nssItems cache ↔ r ∈ cache.values ∧ principalHasRealm r.principal = true := by
  rw [nssItems, List.mem_insertionSort, List.mem_filter]

/-- Two realm-qualified entries are never in a tie: principals are keys. -/
theorem nssItems_pairwise (cache : IdCache) :
    (nssItems cache).Pairwise fun a b => a.principal < b.principal := by
  have hperm : (nssItems cache).Perm (cache.values.filter fun r => principalHasRealm r.principal) :=
    List.perm_insertionSort _ _
  have hkeys : ((nssItems cache).map Resolved.key).Nodup :=
    (hperm.map _).nodup_iff.mpr (cache.nodup.sublist (List.filter_sublist.map _))
  have hne : (nssItems cache).Pairwise fun a b => a.principal ≠ b.principal :=
    (List.pairwise_map.mp hkeys).imp fun hab h => hab (by rw [Resolved.key, Resolved.key, h])
  have htotal : Std.Total fun a b : Resolved => a.principal ≤ b.principal :=
    ⟨fun a b => le_total a.principal b.principal⟩
  have htrans : IsTrans Resolved fun a b => a.principal ≤ b.principal :=
    ⟨fun _ _ _ => le_trans⟩
  have hle : (nssItems cache).Pairwise fun a b => a.principal ≤ b.principal :=
    List.pairwise_insertionSort _ _
  exact hle.imp₂ (fun _ _ => lt_of_le_of_ne) hne

/-- An entry that is emitted: realm-qualified, with a local part that is not a number. -/
def Resolved.isEmitted (r : Resolved) : Bool :=
  principalHasRealm r.principal && !isNumericLocalPrincipal r.principal

/-- An entry is emitted when it has a realm and is not numeric. -/
theorem Resolved.isEmitted_iff {r : Resolved} : r.isEmitted = true ↔
    principalHasRealm r.principal = true ∧ isNumericLocalPrincipal r.principal = false := by
  simp [Resolved.isEmitted]

/-- The entries that are emitted, in order. -/
def emittedItems (cache : IdCache) : List Resolved :=
  (nssItems cache).filter fun r => !isNumericLocalPrincipal r.principal

/-- The emitted items are the cached entries that are emitted. -/
theorem mem_emittedItems {cache : IdCache} {r : Resolved} :
    r ∈ emittedItems cache ↔ r ∈ cache.values ∧ r.isEmitted = true := by
  simp [emittedItems, mem_nssItems, Resolved.isEmitted_iff, and_assoc]

/-- The emitted items are in the order of their principals. -/
theorem emittedItems_pairwise (cache : IdCache) :
    (emittedItems cache).Pairwise fun a b => a.principal < b.principal :=
  (nssItems_pairwise cache).sublist List.filter_sublist

/-- In the emission order, the entries in front of `a` are those with a smaller principal. -/
theorem mem_prefix_iff {l pre post : List Resolved} {a x : Resolved}
    (hl : l.Pairwise fun a b => a.principal < b.principal) (h : l = pre ++ a :: post)
    (hx : x ∈ l) : x ∈ pre ↔ x.principal < a.principal := by
  subst h
  rw [List.pairwise_append, List.pairwise_cons] at hl
  obtain ⟨-, ⟨hpost, -⟩, hpre⟩ := hl
  constructor
  · intro hmem
    exact hpre x hmem a List.mem_cons_self
  · intro hlt
    rcases List.mem_append.mp hx with hmem | hmem
    · exact hmem
    · rcases List.mem_cons.mp hmem with rfl | hmem
      · exact absurd hlt (lt_irrefl _)
      · exact absurd hlt (lt_asymm (hpost x hmem))

/-! ## Member lists -/

/-- Members by gid, as the builder computes them for a cache. -/
def cacheMembers (cache : IdCache) : MembersByGid :=
  membersByGid (nssItems cache) (rootSupplementalGidsFromCache cache)

/-- Primary-gid members, as the builder computes them for a cache. -/
def cacheUsers (cache : IdCache) : MembersByGid := usersByGid (nssItems cache)

/-- Logins are pushed for one gid only. -/
theorem mem_push {m : MembersByGid} {g h : UInt32} {logins : List Str} {x : Str} :
    x ∈ m.push g logins h ↔ x ∈ m h ∨ (h = g ∧ x ∈ logins) := by
  rw [MembersByGid.push, Function.update_apply]
  by_cases hgh : h = g
  · rw [if_pos hgh, hgh, List.mem_append]
    simp
  · rw [if_neg hgh]
    simp [hgh]

/-- New logins are pushed for one gid only. -/
theorem mem_membersByGid_pushNew {m : MembersByGid} {g h : UInt32} {logins : List Str} {x : Str} :
    x ∈ m.pushNew g logins h ↔ x ∈ m h ∨ (h = g ∧ x ∈ logins) := by
  rw [MembersByGid.pushNew, Function.update_apply]
  by_cases hgh : h = g
  · rw [if_pos hgh, hgh, mem_pushAllNew]
    simp
  · rw [if_neg hgh]
    simp [hgh]

/-- The gids one entry claims, folded into the member lists. -/
theorem mem_foldl_claimedGids {logins : List Str} (gs : List UInt32) {m : MembersByGid} {h : UInt32}
    {x : Str} :
    x ∈ gs.foldl (fun m g => if g = 0 then m else MembersByGid.pushNew m g logins) m h ↔
      x ∈ m h ∨ (h ≠ 0 ∧ h ∈ gs ∧ x ∈ logins) := by
  induction gs generalizing m with
  | nil => simp
  | cons g gs ih =>
    rw [List.foldl_cons, ih, List.mem_cons]
    by_cases hg : g = 0
    · rw [if_pos hg, hg]
      tauto
    · rw [if_neg hg, mem_membersByGid_pushNew]
      constructor
      · rintro ((hx | ⟨rfl, hx⟩) | hx)
        · exact Or.inl hx
        · exact Or.inr ⟨hg, Or.inl rfl, hx⟩
        · exact Or.inr ⟨hx.1, Or.inr hx.2.1, hx.2.2⟩
      · rintro (hx | ⟨h0, rfl | hmem, hx⟩)
        · exact Or.inl (Or.inl hx)
        · exact Or.inl (Or.inr ⟨rfl, hx⟩)
        · exact Or.inr ⟨h0, hmem, hx⟩

/-- The member lists hold the logins of the entries that claim the gid, and `root` for the
supplemental gids of uid-0 entries. -/
theorem mem_membersByGid {items : List Resolved} {rootSupps : List UInt32} {g : UInt32} {x : Str} :
    x ∈ membersByGid items rootSupps g ↔
      (∃ r ∈ items, g ≠ 0 ∧ g ∈ r.claimedGids ∧ x ∈ memberLogins r) ∨
        (g ∈ rootSupps ∧ x = "root".toList) := by
  have hroot : ∀ (gs : List UInt32) (m : MembersByGid),
      x ∈ gs.foldl (fun m g => m.pushNew g ["root".toList]) m g ↔
        x ∈ m g ∨ (g ∈ gs ∧ x = "root".toList) := by
    intro gs
    induction gs with
    | nil => simp
    | cons h gs ih =>
      intro m
      rw [List.foldl_cons, ih, mem_membersByGid_pushNew, List.mem_singleton, List.mem_cons]
      tauto
  have hitems : ∀ (l : List Resolved) (m : MembersByGid),
      x ∈ l.foldl (fun m r => r.claimedGids.foldl (fun m g =>
          if g = 0 then m else MembersByGid.pushNew m g (memberLogins r)) m) m g ↔
        x ∈ m g ∨ ∃ r ∈ l, g ≠ 0 ∧ g ∈ r.claimedGids ∧ x ∈ memberLogins r := by
    intro l
    induction l with
    | nil => simp
    | cons r l ih =>
      intro m
      rw [List.foldl_cons, ih, mem_foldl_claimedGids, List.exists_mem_cons_iff]
      tauto
  rw [membersByGid, hroot, hitems]
  simp

/-- The supplemental gids collected for root. -/
theorem mem_rootSupplementalGidsFromCache {cache : IdCache} {g : UInt32} :
    g ∈ rootSupplementalGidsFromCache cache ↔ g ≠ 0 ∧ ∃ r ∈ cache.values,
      (r.uid = 0 ∨ r.gid = 0) ∧ principalHasRealm r.principal = true ∧ g ∈ r.supplementalGids := by
  -- the gids of one entry are pushed one after another, zero left out
  have hinner : ∀ (gs supps : List UInt32),
      g ∈ gs.foldl (fun supps g => if g ≠ 0 then pushNew supps g else supps) supps ↔
        g ∈ supps ∨ (g ≠ 0 ∧ g ∈ gs) := by
    intro gs
    induction gs with
    | nil => simp
    | cons h gs ih =>
      intro supps
      rw [List.foldl_cons, ih, List.mem_cons]
      by_cases hh : h ≠ 0
      · rw [if_pos hh, mem_pushNew]
        constructor
        · rintro ((hg | rfl) | hg)
          · exact Or.inl hg
          · exact Or.inr ⟨hh, Or.inl rfl⟩
          · exact Or.inr ⟨hg.1, Or.inr hg.2⟩
        · rintro (hg | ⟨h0, rfl | hg⟩)
          · exact Or.inl (Or.inl hg)
          · exact Or.inl (Or.inr rfl)
          · exact Or.inr ⟨h0, hg⟩
      · rw [if_neg hh]
        rw [not_not] at hh
        subst hh
        tauto
  -- the entries one after another, with what was collected before in general
  have houter : ∀ (l : List Resolved) (supps : List UInt32),
      g ∈ l.foldl (fun supps r =>
        if (r.uid = 0 ∨ r.gid = 0) ∧ principalHasRealm r.principal then
          r.supplementalGids.foldl (fun supps g => if g ≠ 0 then pushNew supps g else supps) supps
        else supps) supps ↔
      g ∈ supps ∨ (g ≠ 0 ∧ ∃ r ∈ l, (r.uid = 0 ∨ r.gid = 0) ∧
        principalHasRealm r.principal = true ∧ g ∈ r.supplementalGids) := by
    intro l
    induction l with
    | nil => simp
    | cons r l ih =>
      intro supps
      rw [List.foldl_cons, ih, List.exists_mem_cons_iff]
      by_cases hr : (r.uid = 0 ∨ r.gid = 0) ∧ principalHasRealm r.principal
      · rw [if_pos hr, hinner]
        simp only [hr.1, hr.2, true_and, and_or_left, or_assoc]
      · have hr' : ¬ ((r.uid = 0 ∨ r.gid = 0) ∧ principalHasRealm r.principal = true ∧
            g ∈ r.supplementalGids) := fun h => hr ⟨h.1, h.2.1⟩
        rw [if_neg hr]
        simp only [hr', false_or]
  rw [rootSupplementalGidsFromCache, List.mem_insertionSort, houter]
  simp

/-- **Who is filed under a gid**: the logins of the realm-qualified entries that claim it (`root`
for a machine), and `root` when a uid-0 entry has the gid as a supplemental one. -/
theorem mem_cacheMembers {cache : IdCache} {g : UInt32} {x : Str} :
    x ∈ cacheMembers cache g ↔
      (∃ r ∈ cache.values, principalHasRealm r.principal = true ∧ g ≠ 0 ∧ g ∈ r.claimedGids ∧
          x ∈ memberLogins r) ∨
        (g ∈ rootSupplementalGidsFromCache cache ∧ x = "root".toList) := by
  rw [cacheMembers, mem_membersByGid]
  simp only [mem_nssItems, and_assoc]

/-- Primary-gid member lists hold logins of users. -/
theorem mem_cacheUsers {cache : IdCache} {g : UInt32} {x : Str} (h : x ∈ cacheUsers cache g) :
    ∃ r ∈ cache.values, principalHasRealm r.principal = true ∧
      (x = sanitizeForNss r.name ∨ x = principalRealmLoginForNss r.principal) := by
  -- what is listed was there before, or came from an entry that the fold has passed
  have hfold : ∀ (l : List Resolved) (m : MembersByGid),
      x ∈ l.foldl (fun m r =>
        if r.kind = .user ∧ r.gid ≠ 0 ∧ !isNumericLocalPrincipal r.principal then
          let short := sanitizeForNss r.name
          let m := m.push r.gid [short]
          if principalHasRealm r.principal then
            let at_ := principalRealmLoginForNss r.principal
            if at_ ≠ short then m.push r.gid [at_] else m
          else m
        else m) m g →
      x ∈ m g ∨ ∃ r ∈ l, x = sanitizeForNss r.name ∨ x = principalRealmLoginForNss r.principal := by
    intro l
    induction l with
    | nil => exact fun _ hx => Or.inl hx
    | cons r l ih =>
      intro m hx
      rw [List.exists_mem_cons_iff]
      rcases ih _ hx with hx | hx
      · dsimp only at hx
        split_ifs at hx
        · rw [mem_push, mem_push, List.mem_singleton, List.mem_singleton] at hx
          tauto
        · rw [mem_push, List.mem_singleton] at hx
          tauto
        · rw [mem_push, List.mem_singleton] at hx
          tauto
        · exact Or.inl hx
      · exact Or.inr (Or.inr hx)
  rcases hfold _ _ h with h | ⟨r, hr, hx⟩
  · simp at h
  · rw [mem_nssItems] at hr
    exact ⟨r, hr.1, hr.2, hx⟩

/-! ## The builder as one list of claims -/

/-- All passwd claims, in the order in which the builder makes them. -/
def allPasswdClaims (cache : IdCache) : List (Str × Option PasswdFields) :=
  (emittedItems cache).flatMap passwdClaims

/-- All group claims, pass by pass. -/
def allGroupClaims (cache : IdCache) (ldap : LdapGroups) : List GroupClaim :=
  ldapClaims ldap (cacheUsers cache) (cacheMembers cache)
    ++ ((emittedItems cache).flatMap (groupClaims ldap (cacheMembers cache))
      ++ ((rootSupplementalGidsFromCache cache).map
          (fun g => (g, some (rootMemberRow ldap (cacheMembers cache) g)))
        ++ [(0, some rootGroupRow)]))

/-- The emission loop makes the claims of every entry that is not numeric. -/
theorem foldl_emitEntry (ldap : LdapGroups) (members : MembersByGid) (items : List Resolved)
    (st : NssEmit) :
    items.foldl (emitEntry ldap members) st =
      ⟨st.passwd.claimAll
          ((items.filter fun r => !isNumericLocalPrincipal r.principal).flatMap passwdClaims),
        st.group.claimAll ((items.filter fun r => !isNumericLocalPrincipal r.principal).flatMap
          (groupClaims ldap members))⟩ := by
  induction items generalizing st with
  | nil => rfl
  | cons r items ih =>
    rw [List.foldl_cons, ih, emitEntry]
    by_cases hr : isNumericLocalPrincipal r.principal
    · rw [if_pos hr, List.filter_cons_of_neg (by simp [hr])]
    · rw [if_neg hr, List.filter_cons_of_pos (by simp [hr]), List.flatMap_cons, List.flatMap_cons,
        Emit.claimAll_append, Emit.claimAll_append]

/-- **The passwd rows** are the first claims on each login, after the fix-ups. -/
theorem buildNssRows_passwd (cache : IdCache) (ldap : LdapGroups) :
    (buildNssRows cache ldap).1
      = finishPasswd ((firsts [] (allPasswdClaims cache)).filterMap Prod.snd) := by
  simp only [buildNssRows, foldl_emitEntry, Emit.claimAll_rows, Emit.empty, List.nil_append,
    allPasswdClaims, emittedItems]

/-- **The group rows** are the first claims on each gid, after the fix-ups. -/
theorem buildNssRows_group (cache : IdCache) (ldap : LdapGroups) :
    (buildNssRows cache ldap).2
      = finishGroups ((firsts [] (allGroupClaims cache ldap)).filterMap Prod.snd) := by
  have hsupps : ∀ (gs : List UInt32) (f : UInt32 → GroupFields) (e : Emit UInt32 GroupFields),
      gs.foldl (fun e g => e.claim g (some (f g))) e
        = e.claimAll (gs.map fun g => (g, some (f g))) := by
    intro gs f e
    rw [Emit.claimAll, List.foldl_map]
  have hroot : ∀ e : Emit UInt32 GroupFields,
      (if 0 ∉ e.seen then e.rows ++ [rootGroupRow] else e.rows)
        = (e.claimAll [(0, some rootGroupRow)]).rows := by
    intro e
    rw [Emit.claimAll_cons, Emit.claimAll_nil, Emit.claim]
    by_cases h : (0 : UInt32) ∈ e.seen
    · rw [if_neg (not_not.mpr h), if_pos h]
    · rw [if_pos h, if_neg h]
      rfl
  simp only [buildNssRows, foldl_emitEntry, hsupps]
  rw [hroot, ← Emit.claimAll_append, ← Emit.claimAll_append, ← Emit.claimAll_append,
    Emit.claimAll_rows]
  rfl

/-! ## Which pass wins a gid -/

/-- The directory pass claims the gids of the directory groups, each with the group of the lowest
key. -/
theorem mem_ldapByGid {ldap : LdapGroups} {c : Int × PosixGroupEntry} :
    c ∈ ldapByGid ldap ↔
      ((ldap.entries.insertionSort fun a b => a.1 ≤ b.1).find? fun kv => kv.2.gid.toInt = c.1).map
        Prod.snd = some c.2 := by
  rw [ldapByGid, mem_foldl_orInsert (fun kv : Str × PosixGroupEntry => kv.2.gid.toInt) Prod.snd _
    List.Pairwise.nil]
  simp

/-- Signed and unsigned readings of a gid determine each other. -/
theorem toUInt32_eq_iff {a b : Int32} : a.toUInt32 = b.toUInt32 ↔ a.toInt = b.toInt := by
  rw [Int32.toInt_inj]
  constructor
  · intro h
    simpa using congrArg UInt32.toInt32 h
  · rintro rfl
    rfl

/-- A directory group has the gid `g`. -/
def HasLdapGid (ldap : LdapGroups) (g : UInt32) : Prop :=
  ∃ kv ∈ ldap.entries, kv.2.gid.toUInt32 = g

/-- Whether a gid has a group in the directory can be decided. -/
instance (ldap : LdapGroups) (g : UInt32) : Decidable (HasLdapGid ldap g) :=
  inferInstanceAs (Decidable (∃ kv ∈ ldap.entries, kv.2.gid.toUInt32 = g))

/-- The groups of the directory claim their gids. -/
theorem mem_keys_ldapClaims {ldap : LdapGroups} {users members : MembersByGid} {g : UInt32} :
    g ∈ (ldapClaims ldap users members).map Prod.fst ↔ HasLdapGid ldap g := by
  rw [ldapClaims, List.map_map, List.mem_map]
  constructor
  · rintro ⟨c, hc, rfl⟩
    rw [mem_ldapByGid, Option.map_eq_some_iff] at hc
    obtain ⟨kv, hfind, hkv⟩ := hc
    have hmem := List.mem_of_find?_eq_some hfind
    rw [List.mem_insertionSort] at hmem
    exact ⟨kv, hmem, by rw [hkv]; rfl⟩
  · rintro ⟨kv, hkv, rfl⟩
    have hsome : ((ldap.entries.insertionSort fun a b => a.1 ≤ b.1).find?
        fun d => d.2.gid.toInt = kv.2.gid.toInt).isSome := by
      rw [List.find?_isSome]
      exact ⟨kv, (List.mem_insertionSort _).mpr hkv, by simp⟩
    obtain ⟨d, hd⟩ := Option.isSome_iff_exists.mp hsome
    refine ⟨(kv.2.gid.toInt, d.2), ?_, ?_⟩
    · rw [mem_ldapByGid]
      simp [hd]
    · have hgid : d.2.gid.toInt = kv.2.gid.toInt := by simpa using List.find?_some hd
      exact toUInt32_eq_iff.mpr hgid

/-- The claim of one entry on `g`: its row when it claims `g`, its stub when `g` is only its uid. -/
theorem find?_groupClaims (ldap : LdapGroups) (members : MembersByGid) (r : Resolved) (g : UInt32) :
    (groupClaims ldap members r).find? (fun c => c.1 = g) =
      if g ∈ r.claimedGids then some (g, some (claimedRow ldap members r g))
      else if r.uid = g then some (g, if g = 0 then none else some (stubRow g)) else none := by
  -- among the rows of one entry the first of the gid is found
  have hclaimed : ∀ gs : List UInt32,
      (gs.map fun g => (g, some (claimedRow ldap members r g))).find? (fun c => c.1 = g)
        = if g ∈ gs then some (g, some (claimedRow ldap members r g)) else none := by
    intro gs
    induction gs with
    | nil => simp
    | cons h gs ih =>
      rw [List.map_cons, List.find?_cons]
      by_cases hg : h = g
      · simp [hg]
      · simp [hg, ih, Ne.symm hg]
  rw [groupClaims, List.find?_append, hclaimed]
  by_cases hmem : g ∈ r.claimedGids
  · simp [hmem]
  · have hgid : g ≠ r.gid := fun h => hmem (h ▸ List.mem_cons_self)
    rw [if_neg hmem, if_neg hmem, Option.none_or, stubClaims]
    -- the stub is made only for a uid that is not the gid as well
    by_cases huid : r.uid = g
    · rw [if_pos (huid ▸ hgid), if_pos huid, huid]
      simp
    · rw [if_neg huid]
      split
      · simp [huid]
      · rfl

/-- **The winner of a gid**: the directory group if there is one, else the first entry that claims
the gid or has it as its uid, else root's supplemental row, else the root row. -/
theorem find?_allGroupClaims (cache : IdCache) (ldap : LdapGroups) (g : UInt32) :
    (allGroupClaims cache ldap).find? (fun c => c.1 = g) =
      ((ldapClaims ldap (cacheUsers cache) (cacheMembers cache)).find? fun c => c.1 = g).or
        (((emittedItems cache).findSome? fun r =>
            if g ∈ r.claimedGids then
              some (g, some (claimedRow ldap (cacheMembers cache) r g))
            else if r.uid = g then some (g, if g = 0 then none else some (stubRow g)) else none).or
          ((((rootSupplementalGidsFromCache cache).map
              (fun g => (g, some (rootMemberRow ldap (cacheMembers cache) g)))).find?
                fun c => c.1 = g).or
            (([(0, some rootGroupRow)] : List GroupClaim).find? fun c => c.1 = g))) := by
  simp only [allGroupClaims, List.find?_append, List.find?_flatMap, find?_groupClaims]

/-- A claim that carries a row carries it under the row's own gid. -/
theorem gid_of_mem_allGroupClaims {cache : IdCache} {ldap : LdapGroups} {g : UInt32}
    {f : GroupFields} (h : (g, some f) ∈ allGroupClaims cache ldap) : f.gid = g := by
  have hclaimed : ∀ (r : Resolved) (m : MembersByGid) (g : UInt32),
      (claimedRow ldap m r g).gid = g := by
    intro r m g
    rw [claimedRow]
    by_cases hg : g = 0
    · rw [if_pos hg, hg]
      rfl
    · rw [if_neg hg, if_pos hg]
      split <;> rfl
  simp only [allGroupClaims, List.mem_append, List.mem_flatMap, groupClaims, List.mem_map,
    ldapClaims, List.mem_singleton, Prod.mk.injEq, Option.some.injEq] at h
  rcases h with ⟨e, -, rfl, rfl⟩ | ⟨r, -, ⟨g', -, rfl, rfl⟩ | h⟩ | ⟨g', -, rfl, rfl⟩ | ⟨rfl, rfl⟩
  · rfl
  · exact hclaimed r _ _
  · rw [stubClaims] at h
    split at h
    · simp only [List.mem_singleton, Prod.mk.injEq] at h
      obtain ⟨rfl, h⟩ := h
      split at h
      · simp at h
      · obtain rfl : f = stubRow r.uid := by simpa using h
        rfl
    · simp at h
  · rfl
  · rfl

/-- The rows pushed under a gid: only the winner. -/
theorem mem_groupRows_iff {cache : IdCache} {ldap : LdapGroups} {f : GroupFields} :
    f ∈ (firsts [] (allGroupClaims cache ldap)).filterMap Prod.snd ↔
      (allGroupClaims cache ldap).find? (fun c => c.1 = f.gid) = some (f.gid, some f) := by
  rw [List.mem_filterMap]
  constructor
  · rintro ⟨⟨g, row⟩, hmem, hrow⟩
    obtain rfl : row = some f := hrow
    have hwin := (mem_firsts_iff_find?.mp hmem).2
    obtain rfl : f.gid = g := gid_of_mem_allGroupClaims (List.mem_of_find?_eq_some hwin)
    exact hwin
  · intro h
    exact ⟨(f.gid, some f), mem_firsts_iff_find?.mpr ⟨by simp, h⟩, rfl⟩

/-! ## Printed rows -/

/-- `root` is a sane login. -/
theorem isSaneLogin_root : IsSaneLogin "root".toList := .of_all (by decide) (by decide)

/-- `nobody` is a sane login. -/
theorem isSaneLogin_nobody : IsSaneLogin "nobody".toList := .of_all (by decide) (by decide)

/-- A letter followed by a printed number is a sane login. -/
theorem isSaneLogin_cons_decimal {c : Char} (hc : isRealmLoginChar c = true) (n : UInt32) :
    IsSaneLogin (c :: decimal n) where
  nonempty := List.cons_ne_nil _ _
  chars d hd := by
    rcases List.mem_cons.mp hd with rfl | hd
    · exact hc
    · have hdigit := isDigit_of_mem_decimal hd
      simp [isRealmLoginChar, isLoginChar, Char.isAlphanum, hdigit]

/-- The name that is chosen for a gid is sane. -/
theorem isSaneLogin_gnameForGid (g : UInt32) (ldap : LdapGroups) (fallback : Str) :
    IsSaneLogin (gnameForGid g ldap fallback) := by
  rw [gnameForGid]
  split
  · exact isSaneLogin_nobody
  · split
    · exact isSaneLogin_sanitizeForNss _
    · exact isSaneLogin_sanitizeForNss _

/-- A group row in the sanitised alphabet. -/
structure IsSaneGroup (f : GroupFields) : Prop where
  name : IsSaneLogin f.name
  members : ∀ m ∈ f.members, IsSaneLogin m

/-- The row of the root group is sane. -/
theorem isSaneGroup_rootGroupRow : IsSaneGroup rootGroupRow := by
  refine ⟨isSaneLogin_root, ?_⟩
  intro m hm
  simp only [rootGroupRow, minimalRootGroupMembers, List.mem_cons, List.not_mem_nil, or_false] at hm
  rcases hm with rfl | rfl | rfl
  all_goals exact IsSaneLogin.of_all (by decide) (by decide)

/-- Users are filed under sane logins. -/
theorem isSaneLogin_of_mem_cacheUsers {cache : IdCache} {g : UInt32} {x : Str}
    (h : x ∈ cacheUsers cache g) : IsSaneLogin x := by
  obtain ⟨r, -, -, rfl | rfl⟩ := mem_cacheUsers h
  · exact isSaneLogin_sanitizeForNss _
  · exact isSaneLogin_principalRealmLoginForNss _

/-- Members are filed under sane logins: a machine's raw local part is never a member. -/
theorem isSaneLogin_of_mem_cacheMembers {cache : IdCache} {g : UInt32} {x : Str}
    (h : x ∈ cacheMembers cache g) : IsSaneLogin x := by
  rcases mem_cacheMembers.mp h with ⟨r, -, hrealm, -, -, hx⟩ | ⟨-, rfl⟩
  · rw [memberLogins] at hx
    split at hx
    · obtain rfl : x = "root".toList := by simpa using hx
      exact isSaneLogin_root
    · rename_i hk
      rcases isSaneLogin_or_local hrealm (List.mem_filter.mp hx).1 with hs | ⟨hm, -⟩
      · exact hs
      · exact absurd hm hk
  · exact isSaneLogin_root

/-- The row of a group that root is in is sane. -/
theorem isSaneGroup_rootMemberRow (cache : IdCache) (ldap : LdapGroups) (g : UInt32) :
    IsSaneGroup (rootMemberRow ldap (cacheMembers cache) g) := by
  refine ⟨isSaneLogin_gnameForGid _ _ _, ?_⟩
  intro m hm
  rw [rootMemberRow, mem_pushNew] at hm
  rcases hm with hm | rfl
  · exact isSaneLogin_of_mem_cacheMembers hm
  · exact isSaneLogin_root

/-- The row of a claimed gid is sane. -/
theorem isSaneGroup_claimedRow (cache : IdCache) (ldap : LdapGroups) (r : Resolved) (g : UInt32) :
    IsSaneGroup (claimedRow ldap (cacheMembers cache) r g) := by
  rw [claimedRow]
  by_cases hg : g = 0
  · rw [if_pos hg]
    exact isSaneGroup_rootGroupRow
  · rw [if_neg hg, if_pos hg]
    split
    · exact isSaneGroup_rootMemberRow cache ldap g
    · constructor
      · dsimp only
        split
        · exact isSaneLogin_nobody
        · exact isSaneLogin_gnameForGid _ _ _
      · intro m hm
        dsimp only at hm
        have hm' : m ∈ cacheMembers cache g ∨ m = sanitizeForNss r.name ∨
            m = principalRealmLoginForNss r.principal := by
          split_ifs at hm
          · rw [mem_pushNew, mem_pushNew] at hm
            tauto
          · rw [mem_pushNew] at hm
            tauto
          · rw [mem_pushNew] at hm
            tauto
        rcases hm' with hm | rfl | rfl
        · exact isSaneLogin_of_mem_cacheMembers hm
        · exact isSaneLogin_sanitizeForNss _
        · exact isSaneLogin_principalRealmLoginForNss _

/-- The row of a group of the directory is sane. -/
theorem isSaneGroup_ldapRow (cache : IdCache) (entry : PosixGroupEntry) :
    IsSaneGroup (ldapRow (cacheUsers cache) (cacheMembers cache) entry) := by
  constructor
  · dsimp only [ldapRow]
    split
    · exact isSaneLogin_nobody
    · exact isSaneLogin_sanitizeForNss _
  · intro m hm
    dsimp only [ldapRow] at hm
    rw [mem_pushAllNew, mem_pushAllNew, List.mem_map] at hm
    rcases hm with (⟨a, -, rfl⟩ | hm) | hm
    · exact isSaneLogin_sanitizeForNss _
    · exact isSaneLogin_of_mem_cacheUsers hm
    · exact isSaneLogin_of_mem_cacheMembers hm

/-- Every row that is claimed is in the sanitised alphabet, whatever the cache and the directory
hold. -/
theorem isSaneGroup_of_mem_allGroupClaims {cache : IdCache} {ldap : LdapGroups} {g : UInt32}
    {f : GroupFields} (h : (g, some f) ∈ allGroupClaims cache ldap) : IsSaneGroup f := by
  simp only [allGroupClaims, List.mem_append, List.mem_flatMap, groupClaims, List.mem_map,
    ldapClaims, List.mem_singleton, Prod.mk.injEq, Option.some.injEq] at h
  rcases h with ⟨e, -, -, rfl⟩ | ⟨r, -, ⟨g', -, rfl, rfl⟩ | h⟩ | ⟨g', -, rfl, rfl⟩ | ⟨rfl, rfl⟩
  · exact isSaneGroup_ldapRow cache e.2
  · exact isSaneGroup_claimedRow cache ldap r _
  · rw [stubClaims] at h
    split at h
    · simp only [List.mem_singleton, Prod.mk.injEq] at h
      obtain ⟨rfl, h⟩ := h
      split at h
      · simp at h
      · obtain rfl : f = stubRow r.uid := by simpa using h
        exact ⟨isSaneLogin_cons_decimal (by decide) _, by simp [stubRow]⟩
    · simp at h
  · exact isSaneGroup_rootMemberRow cache ldap _
  · exact isSaneGroup_rootGroupRow

/-- A group line holds its member field behind the third colon, empty or not. -/
theorem GroupFields.line_eq (f : GroupFields) :
    f.line = f.name ++ ":x:".toList ++ decimal f.gid ++ ':' :: [','].intercalate f.members := by
  rw [GroupFields.line, groupLineWithMembers]
  split
  · rename_i h
    simp [h, List.intercalate]
  · rfl

/-- **Group rows are read back** as the name, gid and members they were built from. -/
theorem IsSaneGroup.parseGroupRow_line {f : GroupFields} (h : IsSaneGroup f) :
    parseGroupRow f.line = some ⟨f.name, f.gid, f.members⟩ := by
  rw [f.line_eq]
  exact parseGroupRow_of_isFieldName f.gid h.name.isFieldName
    fun m hm => (h.members m hm).isMemberName

/-- The prefix test of the final fix-up finds the gid-0 row named `root`. -/
theorem IsSaneGroup.isRootLine_iff {f : GroupFields} (h : IsSaneGroup f) :
    "root:x:0:".toList.isPrefixOf f.line = true ↔ f.name = "root".toList ∧ f.gid = 0 := by
  have hname : ':' ∉ f.name := h.name.isFieldName.colon
  have hdec : ∀ n : UInt32, ':' ∉ decimal n := not_mem_decimal (by decide)
  rw [List.isPrefixOf_iff_prefix, f.line_eq]
  constructor
  · rintro ⟨t, ht⟩
    have hcut : "root".toList ++ ':' :: (['x'] ++ ':' :: (['0'] ++ ':' :: t))
        = f.name
          ++ ':' :: (['x'] ++ ':' :: (decimal f.gid ++ ':' :: [','].intercalate f.members)) := by
      simpa using ht
    obtain ⟨h1, hcut⟩ := (append_cons_inj (by decide) hname).mp hcut
    obtain ⟨-, hcut⟩ := (append_cons_inj (by decide) (by decide)).mp hcut
    obtain ⟨h2, -⟩ := (append_cons_inj (by decide) (hdec _)).mp hcut
    exact ⟨h1.symm, decimal_injective (n := 0) h2.symm⟩
  · rintro ⟨hn, hg⟩
    rw [hn, hg]
    exact ⟨[','].intercalate f.members, by simp [decimal]⟩

/-- **The group rows of the snapshot**: the root row, and the winner of every gid unless it is a
gid-0 row named `root`. -/
theorem mem_buildNssRows_group {cache : IdCache} {ldap : LdapGroups} {f : GroupFields} :
    f ∈ (buildNssRows cache ldap).2 ↔ f = rootGroupRow ∨
      ((allGroupClaims cache ldap).find? (fun c => c.1 = f.gid) = some (f.gid, some f) ∧
        ¬ (f.name = "root".toList ∧ f.gid = 0)) := by
  rw [buildNssRows_group, finishGroups, List.mem_cons, List.mem_filter, mem_groupRows_iff]
  refine or_congr_right (and_congr_right fun hwin => ?_)
  rw [← (isSaneGroup_of_mem_allGroupClaims (List.mem_of_find?_eq_some hwin)).isRootLine_iff,
    Bool.not_eq_true, Bool.not_eq_true']

/-- Every group row of the snapshot is in the sanitised alphabet. -/
theorem isSaneGroup_of_mem_buildNssRows {cache : IdCache} {ldap : LdapGroups} {f : GroupFields}
    (h : f ∈ (buildNssRows cache ldap).2) : IsSaneGroup f := by
  rcases mem_buildNssRows_group.mp h with rfl | ⟨hwin, -⟩
  · exact isSaneGroup_rootGroupRow
  · exact isSaneGroup_of_mem_allGroupClaims (List.mem_of_find?_eq_some hwin)

/-! ## Passwd rows -/

/-- The first entry in emission order that is emitted under `login`. -/
structure FirstHolder (cache : IdCache) (x : Resolved) (login : Str) : Prop where
  mem : x ∈ cache.values
  emitted : x.isEmitted = true
  login_mem : login ∈ emittedLogins x
  first : ∀ y ∈ cache.values, y.isEmitted = true → login ∈ emittedLogins y →
    x.principal ≤ y.principal

/-- The claim of one entry on a login. -/
theorem find?_passwdClaims (r : Resolved) (login : Str) :
    (passwdClaims r).find? (fun c => c.1 = login) =
      if login ∈ emittedLogins r then some (login, some (passwdRow r login)) else none := by
  rw [passwdClaims]
  induction emittedLogins r with
  | nil => simp
  | cons l ls ih =>
    rw [List.map_cons, List.find?_cons]
    by_cases hl : l = login
    · simp [hl]
    · simp [hl, ih, Ne.symm hl]

/-- **The passwd rows before the fix-ups**: one for every login, of its first holder. -/
theorem mem_passwdRows_iff {cache : IdCache} {f : PasswdFields} :
    f ∈ (firsts [] (allPasswdClaims cache)).filterMap Prod.snd ↔
      ∃ x, FirstHolder cache x f.login ∧ f = passwdRow x f.login := by
  -- the first claim on a login comes from the first entry that carries it
  have hfind : ∀ l, (allPasswdClaims cache).find? (fun c => c.1 = l) =
      (emittedItems cache).findSome? fun r =>
        if l ∈ emittedLogins r then some (l, some (passwdRow r l)) else none := by
    intro l
    simp only [allPasswdClaims, List.find?_flatMap, find?_passwdClaims]
  rw [List.mem_filterMap]
  constructor
  -- an entry before the winner would have claimed the login first
  · rintro ⟨⟨l, row⟩, hmem, hrow⟩
    obtain rfl : row = some f := hrow
    have hwin := (mem_firsts_iff_find?.mp hmem).2
    rw [hfind] at hwin
    obtain ⟨pre, x, post, hsplit, hx, hpre⟩ := List.findSome?_eq_some_iff.mp hwin
    have hxmem : x ∈ emittedItems cache := by simp [hsplit]
    dsimp only at hx
    split at hx
    · rename_i hl
      simp only [Option.some.injEq, Prod.mk.injEq, true_and] at hx
      subst hx
      refine ⟨x, ⟨(mem_emittedItems.mp hxmem).1, (mem_emittedItems.mp hxmem).2, hl, ?_⟩, rfl⟩
      intro y hy hyem hyl
      by_contra hlt
      have hypre := (mem_prefix_iff (emittedItems_pairwise cache) hsplit
        (mem_emittedItems.mpr ⟨hy, hyem⟩)).mpr (not_le.mp hlt)
      have hnone := hpre y hypre
      rw [if_pos (by exact hyl)] at hnone
      simp at hnone
    · simp at hx
  -- and nobody before the first holder carries the login
  · rintro ⟨x, hx, hf⟩
    refine ⟨(f.login, some f), mem_firsts_iff_find?.mpr ⟨by simp, ?_⟩, rfl⟩
    have hxmem : x ∈ emittedItems cache := mem_emittedItems.mpr ⟨hx.mem, hx.emitted⟩
    obtain ⟨pre, post, hsplit⟩ := List.append_of_mem hxmem
    rw [hfind, List.findSome?_eq_some_iff]
    refine ⟨pre, x, post, hsplit, ?_, ?_⟩
    · rw [if_pos hx.login_mem, ← hf]
    · intro y hy
      have hymem : y ∈ emittedItems cache := by simp [hsplit, hy]
      have hlt := (mem_prefix_iff (emittedItems_pairwise cache) hsplit hymem).mp hy
      rw [if_neg]
      intro hyl
      exact absurd (hx.first y (mem_emittedItems.mp hymem).1 (mem_emittedItems.mp hymem).2 hyl)
        (not_le.mpr hlt)

/-- Every login an entry is emitted under has a first holder. -/
theorem exists_firstHolder {cache : IdCache} {r : Resolved} {login : Str} (hr : r ∈ cache.values)
    (hem : r.isEmitted = true) (hl : login ∈ emittedLogins r) :
    ∃ x, FirstHolder cache x login := by
  have hkey : login ∈ (allPasswdClaims cache).map Prod.fst := by
    refine List.mem_map.mpr ⟨(login, some (passwdRow r login)), ?_, rfl⟩
    exact List.mem_flatMap.mpr
      ⟨r, mem_emittedItems.mpr ⟨hr, hem⟩, List.mem_map.mpr ⟨login, hl, rfl⟩⟩
  obtain ⟨row, hrow⟩ := exists_mem_firsts (List.not_mem_nil) hkey
  obtain ⟨r', -, hc⟩ :=
    List.mem_flatMap.mp (List.mem_of_find?_eq_some (mem_firsts_iff_find?.mp hrow).2)
  obtain ⟨l, -, hl⟩ := List.mem_map.mp hc
  simp only [Prod.mk.injEq] at hl
  obtain ⟨rfl, rfl⟩ := hl
  obtain ⟨x, hx, -⟩ := mem_passwdRows_iff.mp (List.mem_filterMap.mpr ⟨_, hrow, rfl⟩)
  exact ⟨x, hx⟩

/-- The login field of a line: what stands in front of the first colon. -/
def loginField (line : Str) : Str := before ':' line

/-- What stands in front of the first colon of a passwd line is what stands there in its login. -/
@[simp] theorem loginField_line (f : PasswdFields) : loginField f.line = before ':' f.login := by
  rw [PasswdFields.line, loginField]
  simp only [List.append_assoc]
  exact before_append_cons ':' _ _

/-- The prefix tests of the fix-ups look at the login field. -/
theorem isPrefixOf_line_iff {w : Str} (hw : ':' ∉ w) (f : PasswdFields) :
    (w ++ [':']).isPrefixOf f.line = true ↔ before ':' f.login = w := by
  have hcolon : ':' ∈ f.line := by simp [PasswdFields.line]
  rw [isPrefixOf_concat_iff hw hcolon, ← loginField_line, loginField]

/-- The row is taken for a prior root row. -/
def PasswdFields.isRootLine (f : PasswdFields) : Bool := "root:".toList.isPrefixOf f.line

/-- A row is that of root when its login is, up to the first colon. -/
theorem PasswdFields.isRootLine_iff {f : PasswdFields} :
    f.isRootLine = true ↔ before ':' f.login = "root".toList :=
  isPrefixOf_line_iff (w := "root".toList) (by decide) f

/-- **The passwd fix-ups**: the exact root row in front, the first prior root row dropped, nobody
appended when it is missing. -/
theorem finishPasswd_eq (rows : List PasswdFields) :
    finishPasswd rows = exactRootPasswd :: rows.eraseP PasswdFields.isRootLine
      ++ if (∃ f ∈ rows, before ':' f.login = "nobody".toList) then [] else [nobodyPasswd] := by
  -- with no row of root there is nothing to erase either
  have hroot : (if !rows.any PasswdFields.isRootLine then exactRootPasswd :: rows
      else exactRootPasswd :: rows.eraseP PasswdFields.isRootLine)
      = exactRootPasswd :: rows.eraseP PasswdFields.isRootLine := by
    split
    · rename_i h
      rw [List.eraseP_of_forall_not]
      simpa using h
    · rfl
  -- the search for a nobody row by its text finds the rows with that login
  have hany : ((exactRootPasswd :: rows.eraseP PasswdFields.isRootLine).any
      fun f => "nobody:".toList.isPrefixOf f.line) = true ↔
        ∃ f ∈ rows, before ':' f.login = "nobody".toList := by
    rw [List.any_cons, Bool.or_eq_true, List.any_eq_true]
    have hexact : ("nobody:".toList.isPrefixOf exactRootPasswd.line) = false := by decide
    simp only [hexact, Bool.false_eq_true, false_or]
    constructor
    · rintro ⟨f, hf, hp⟩
      exact ⟨f, List.mem_of_mem_eraseP hf,
        (isPrefixOf_line_iff (w := "nobody".toList) (by decide) f).mp hp⟩
    · rintro ⟨f, hf, hp⟩
      refine ⟨f, (List.mem_eraseP_of_neg ?_).mpr hf,
        (isPrefixOf_line_iff (w := "nobody".toList) (by decide) f).mpr hp⟩
      rw [PasswdFields.isRootLine_iff, hp]
      decide
  change (let rows' := if !rows.any PasswdFields.isRootLine then exactRootPasswd :: rows
      else exactRootPasswd :: rows.eraseP PasswdFields.isRootLine
    if !rows'.any fun f => "nobody:".toList.isPrefixOf f.line then rows' ++ [nobodyPasswd]
    else rows') = _
  dsimp only
  rw [hroot]
  by_cases h : ∃ f ∈ rows, before ':' f.login = "nobody".toList
  · rw [if_pos h, hany.mpr h, List.append_nil]
    rfl
  · rw [if_neg h, Bool.eq_false_iff.mpr (mt hany.mp h)]
    rfl

end NfsKlldap
