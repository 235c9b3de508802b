import NfsKlldap.Idhelper.GroupStore
import NfsKlldap.Idhelper.Membership
import NfsKlldap.Idhelper.SnapshotCongr
import NfsKlldap.Idhelper.Revocation

/-! # The steady state of rebulks

Three passes of a rebulk write the stores: the snapshot of the synced cache, the snapshot and the
member repairs of every refreshed principal, and the snapshot of the refreshed cache. With inputs
that do not change, a rebulk should find every store as it would write it.

After the first run the cache holds the entries of `steadyCache`. The caches of the later runs are
similar to it at every point (`Settling`), so the snapshots agree, and a repair has nothing to do
when the row of the gid lists the login already. **`steadyState_of_settled`** says when that is so
for every repair: when no user claims gid 0 and no private-group stub takes a claimed gid. -/

namespace NfsKlldap

open Text

/-! ## Repairs that change nothing -/

section Repairs

variable {σ : Type*} (env : Env σ) {cache : IdCache} {ldap : LdapGroups} {d : Disk}

/-- A login that is listed needs no repair. -/
theorem ensureNssGroupMemberLogin_of_listed (fails : Nat → Bool)
    (hd : d.Holds (buildNssSnapshot cache ldap)) {gid : UInt32} {login : Str}
    (hlogin : IsSaneLogin login) (h : Listed (buildNssRows cache ldap).2 gid login) :
    ensureNssGroupMemberLogin fails gid login d = (.ok (), d) := by
  have hsane : ∀ f ∈ (buildNssRows cache ldap).2, IsSaneGroup f :=
    fun f hf => isSaneGroup_of_mem_buildNssRows hf
  have hnss := ensureMemberAt_of_listed fails hd.nssGroup hsane hlogin h.1 h.2
  have hext := ensureMemberAt_of_listed fails hd.extrausersGroup hsane hlogin h.1 h.2
  simp only [ensureNssGroupMemberLogin, hlogin.trim_eq, if_neg hlogin.nonempty, hnss, hext]

/-- Logins that are listed need no repair. -/
theorem ensureLogins_of_listed (hd : d.Holds (buildNssSnapshot cache ldap)) {gid : UInt32}
    {logins : List Str} (hsane : ∀ l ∈ logins, IsSaneLogin l)
    (h : ∀ l ∈ logins, Listed (buildNssRows cache ldap).2 gid l) :
    ensureLogins env gid logins d = d := by
  unfold ensureLogins
  induction logins with
  | nil => rfl
  | cons l ls ih =>
    rw [List.forall_mem_cons] at hsane h
    rw [List.foldl_cons, ensureNssGroupMemberLogin_of_listed env.fails hd hsane.1 h.1]
    exact ih hsane.2 h.2

/-- **The repairs of a user** change nothing when every row of its gids lists its logins. -/
theorem ensureMemberLogins_of_user (hd : d.Holds (buildNssSnapshot cache ldap)) {r : Resolved}
    (hk : r.kind = .user) (hrealm : principalHasRealm r.principal = true) {gids : List UInt32}
    (h : ∀ g, g ∈ gids ∨ g = r.gid → ∀ l ∈ nssPasswdLoginsFor r,
      Listed (buildNssRows cache ldap).2 g l) : ensureMemberLogins env r gids d = d := by
  have hsane : ∀ l ∈ nssPasswdLoginsFor r, IsSaneLogin l := by
    intro l hl
    rcases isSaneLogin_or_local hrealm hl with hs | ⟨hm, -⟩
    · exact hs
    · exact absurd (hk.symm.trans hm) (by decide)
  have hgids : gids.foldl (fun d g => ensureLogins env g (nssPasswdLoginsFor r) d) d = d := by
    have hall : ∀ g ∈ gids, ensureLogins env g (nssPasswdLoginsFor r) d = d :=
      fun g hg => ensureLogins_of_listed env hd hsane (h g (Or.inl hg))
    clear h
    induction gids with
    | nil => rfl
    | cons g gs ih =>
      rw [List.forall_mem_cons] at hall
      rw [List.foldl_cons, hall.1, ih hall.2]
  have hone : ∀ l ∈ nssPasswdLoginsFor r, ensureLogins env r.gid [l] d = d := by
    intro l hl
    exact ensureLogins_of_listed env hd (by simpa using hsane l hl)
      (by simpa using h r.gid (Or.inr rfl) l hl)
  have hshort := hone _ ((mem_nssPasswdLoginsFor hrealm).mpr (Or.inl rfl))
  simp only [ensureMemberLogins, hk, hrealm, and_self, if_true, hgids, hshort]
  split
  · rename_i l hl
    exact hone l (List.mem_of_find?_eq_some hl)
  · rfl

/-- **The repairs of a machine** change nothing when every row of its gids lists `root`. -/
theorem ensureMemberLogins_of_machine (hd : d.Holds (buildNssSnapshot cache ldap)) {r : Resolved}
    (hk : r.kind = .machine) {gids : List UInt32}
    (h : ∀ g ∈ gids, g ≠ 0 → Listed (buildNssRows cache ldap).2 g "root".toList) :
    ensureMemberLogins env r gids d = d := by
  simp only [ensureMemberLogins, hk, reduceCtorEq, false_and, if_false, if_true,
    ensureRootOnSupplementalGroups]
  induction gids with
  | nil => rfl
  | cons g gs ih =>
    rw [List.forall_mem_cons] at h
    have hstep : (if g ≠ 0 then ensureLogins env g ["root".toList] d else d) = d := by
      split
      · rename_i hg
        exact ensureLogins_of_listed env hd (by simpa using isSaneLogin_root)
          (by simpa using h.1 hg)
      · rfl
    rw [List.foldl_cons, hstep]
    exact ih h.2

/-- What is neither user nor machine gets no repair. -/
theorem ensureMemberLogins_of_unknown (r : Resolved) (hk : r.kind = .unknown) (gids : List UInt32)
    (d : Disk) : ensureMemberLogins env r gids d = d := by
  simp only [ensureMemberLogins, hk, reduceCtorEq, false_and, if_false]

end Repairs

/-! ## A group request for a cached principal, on disk -/

section

variable {σ : Type*} {env : Env σ} {snap : IdMapSnapshot} {answers : Str → List UInt32}

/-- The gids that the repairs of a cached principal go through. -/
def repairedGids (answers : Str → List UInt32) (e : Resolved) : List UInt32 :=
  pushAllNew (refreshedGids answers e) (mergedSupps e (refreshedGids answers e))

/-- The stores after a forced group request: the snapshot of the new cache is written, and the
logins are repaired twice. -/
theorem resolveGids_disk (hfix : FixedResolver env snap answers) (realm : Str) (variants : List Str)
    {w : World σ} {e : Resolved} (he : e ∈ w.cache.values)
    (hrealm : principalHasRealm e.principal = true) :
    ∃ d, d.files = w.disk.files ∧ d.writes = w.disk.writes ∧
      (resolveGidsAndMaterialize env realm variants e.principal true w).2.disk
        = ensureMemberLogins env (cachedAnswer e) (repairedGids answers e)
          (ensureMemberLogins env (cachedAnswer e) (repairedGids answers e)
            (materializeNssWrappersAt env.fails
              (resolveGidsAndMaterialize env realm variants e.principal true w).2.cache
              (some snap.groups) d).2) := by
  have hroot := isRootRequest_of_at (at_mem_of_principalHasRealm hrealm)
  have hget : w.cache.get? (normalizePrincipal (cachedAnswer e).principal) = some e := by
    rw [normalizePrincipal_cachedAnswer]
    exact KeyedMap.get?_eq_some_iff.mpr ⟨he, rfl⟩
  have hgids : ∀ s : σ, (persistSupps env (cachedAnswer e) (refreshedGids answers e)
      { w with ext := s }).1 = repairedGids answers e := by
    intro s
    simp only [persistSupps, hget, repairedGids]
  have hres := resolvePrincipal_of_cached env realm variants he hrealm
  rw [resolvePrincipal] at hres
  have hfound := hfix.computeGids (cachedAnswer e) e.principal w.ext
  rw [← refreshedGids] at hfound
  simp only [resolveGidsAndMaterialize, resolveGidsAndMaterializeWith, hroot, hres,
    isUnresolvedFailClosed_cachedAnswer, Bool.false_eq_true, if_false, true_or, if_true, hfound,
    hgids, ensureNssMaterializedFor, hfix.ready, hfix.groups]
  obtain ⟨hfiles, hwrites⟩ := @persistSupps_disk σ env (cachedAnswer e) (refreshedGids answers e)
    { w with ext := (computeGidsForResolved env (cachedAnswer e) e.principal w.ext).2 }
  exact ⟨_, hfiles, hwrites, rfl⟩

end

/-! ## Settled caches -/

/-- Every row that a repair looks at is complete: no user claims gid 0, and no private-group stub
takes a gid that a user claims or that `root` is repaired on. -/
def Settled (answers : Str → List UInt32) (ldap : LdapGroups) (cache : IdCache) : Prop :=
  ∀ e ∈ cache.values,
    (e.kind = .user → ∀ g ∈ e.claimedGids, g ≠ 0 ∧ ¬ StubShadowed cache ldap g) ∧
      (e.kind = .machine → isNumericLocalPrincipal e.principal = false →
        ∀ g ∈ e.supplementalGids ++ answers e.principal, g ≠ 0 → ¬ StubShadowed cache ldap g)

/-- Whether a cache is settled can be decided. -/
instance (answers : Str → List UInt32) (ldap : LdapGroups) (cache : IdCache) :
    Decidable (Settled answers ldap cache) :=
  -- over the lists, not over all gids there are
  haveI := fun e : Resolved =>
    List.decidableBAll (fun g => g ≠ 0 ∧ ¬ StubShadowed cache ldap g) e.claimedGids
  haveI := fun e : Resolved =>
    List.decidableBAll (fun g => g ≠ 0 → ¬ StubShadowed cache ldap g)
      (e.supplementalGids ++ answers e.principal)
  inferInstanceAs (Decidable (∀ e ∈ cache.values, _ ∧ _))

/-- Everybody filed under a claimed gid is listed, unless a stub took the gid. -/
theorem listed_of_not_shadowed {cache : IdCache} {ldap : LdapGroups} {e : Resolved} {g : UInt32}
    (he : e ∈ cache.values) (hem : e.isEmitted = true) (hg : g ≠ 0) (hclaim : g ∈ e.claimedGids)
    (hsh : ¬ StubShadowed cache ldap g) {login : Str} (hl : login ∈ memberLogins e) :
    Listed (buildNssRows cache ldap).2 g login := by
  obtain ⟨f, hf, hfg, huniq, ⟨-, hshadow⟩ | ⟨-, hall⟩⟩ :=
    exists_row_of_claimed ldap hg (mem_emittedItems.mpr ⟨he, hem⟩) hclaim
  · exact absurd hshadow hsh
  · refine ⟨⟨f, hf, hfg⟩, fun f' hf' hg' => ?_⟩
    rw [huniq f' hf' hg']
    exact hall login (mem_cacheMembers.mpr
      (Or.inl ⟨e, he, (Resolved.isEmitted_iff.mp hem).1, hg, hclaim, hl⟩))

/-- The gids of the repairs: those found by the request and those of the refreshed entry. -/
theorem mem_repairedGids {answers : Str → List UInt32} {e : Resolved} {g : UInt32} :
    g ∈ repairedGids answers e ↔ g ∈ refreshedGids answers e ∨
      g ∈ (refreshedEntry answers e).supplementalGids := by
  rw [repairedGids, mem_pushAllNew]
  rfl

/-- The repairs of a user go through gids that its refreshed entry claims. -/
theorem mem_claimedGids_of_repairedGids {answers : Str → List UInt32} {e : Resolved} {g : UInt32}
    (h : g ∈ repairedGids answers e) : g ∈ (refreshedEntry answers e).claimedGids := by
  rw [Resolved.claimedGids, List.mem_cons]
  rcases mem_repairedGids.mp h with h | h
  · by_cases hg : g = e.gid
    · exact Or.inl hg
    · exact Or.inr (mem_refreshedEntry.mpr (Or.inl ⟨h, hg⟩))
  · exact Or.inr h

/-- The gids found for a cached machine. -/
theorem mem_refreshedGids_of_machine {answers : Str → List UInt32} {e : Resolved} {g : UInt32}
    (hk : e.kind = .machine) (hnum : isNumericLocalPrincipal e.principal = false)
    (h : g ∈ refreshedGids answers e) (hg : g ≠ 0) :
    g ∈ e.supplementalGids ++ answers e.principal := by
  rw [refreshedGids, cachedAnswer_of_not_numeric hnum, foundGids, if_pos hk, mergeGroupGids,
    mem_pushAllNew, mem_pushAllNew, List.mem_singleton, List.mem_filter] at h
  rw [List.mem_append]
  rcases h with h | h | h
  · exact absurd h hg
  · exact Or.inl h
  · exact Or.inr h.1

/-- **No repair has anything to do** on stores that hold the snapshot of a settled cache with the
refreshed entry in it. -/
theorem ensureMemberLogins_of_settled {σ : Type*} (env : Env σ) {answers : Str → List UInt32}
    {ldap : LdapGroups} {cache : IdCache} (hset : Settled answers ldap cache) {d : Disk}
    (hd : d.Holds (buildNssSnapshot cache ldap)) {e : Resolved} (hs : IsSynced e)
    (he : refreshedEntry answers e ∈ cache.values) :
    ensureMemberLogins env (cachedAnswer e) (repairedGids answers e) d = d := by
  have hrealm : principalHasRealm (refreshedEntry answers e).principal = true := hs.realm
  by_cases hnum : isNumericLocalPrincipal e.principal = true
  · refine ensureMemberLogins_of_unknown env _ ?_ _ d
    rw [cachedAnswer, if_pos hnum]
    rfl
  · rw [Bool.not_eq_true] at hnum
    have hem : (refreshedEntry answers e).isEmitted = true :=
      Resolved.isEmitted_iff.mpr ⟨hs.realm, hnum⟩
    rcases hs.kind with hk | hk
    · refine ensureMemberLogins_of_user env hd ?_ ?_ ?_
      · rw [cachedAnswer_of_not_numeric hnum]
        exact hk
      · rw [cachedAnswer_of_not_numeric hnum]
        exact hs.realm
      · intro g hg l hl
        have hclaim : g ∈ (refreshedEntry answers e).claimedGids := by
          rcases hg with hg | hg
          · exact mem_claimedGids_of_repairedGids hg
          · rw [cachedAnswer_of_not_numeric hnum] at hg
            exact List.mem_cons.mpr (Or.inl hg)
        obtain ⟨hg0, hsh⟩ := (hset _ he).1 hk g hclaim
        refine listed_of_not_shadowed he hem hg0 hclaim hsh ?_
        rw [memberLogins, if_neg (by rw [refreshedEntry_kind, hk]; decide)]
        -- no login of a synced user is numeric
        have hl' : l ∈ nssPasswdLoginsFor (refreshedEntry answers e) := by
          rw [cachedAnswer_of_not_numeric hnum] at hl
          exact hl
        refine List.mem_filter.mpr ⟨hl', ?_⟩
        rcases (mem_nssPasswdLoginsFor hrealm).mp hl' with rfl | rfl | ⟨hm, -⟩
        · have hname := (hs.user hk).2
          show (!isNumericLogin (sanitizeForNss e.name)) = true
          rw [hname]
          rfl
        · rw [isNumericLogin_principalRealmLoginForNss hrealm]
          rfl
        · rw [refreshedEntry_kind, hk] at hm
          exact absurd hm (by decide)
    · refine ensureMemberLogins_of_machine env hd ?_ ?_
      · rw [cachedAnswer_of_not_numeric hnum]
        exact hk
      · intro g hg hg0
        have hclaim := mem_claimedGids_of_repairedGids hg
        refine listed_of_not_shadowed he hem hg0 hclaim ((hset _ he).2 hk hnum g ?_ hg0) ?_
        · rcases mem_repairedGids.mp hg with hg | hg
          · rcases List.mem_append.mp (mem_refreshedGids_of_machine hk hnum hg hg0) with hg | hg
            · exact List.mem_append_left _ (mem_refreshedEntry.mpr (Or.inr hg))
            · exact List.mem_append_right _ hg
          · exact List.mem_append_left _ hg
        · rw [memberLogins, if_pos (by rw [refreshedEntry_kind, hk])]
          exact List.mem_singleton_self _

/-! ## Caches on their way to the steady one -/

/-- A cache between the sync and the end of the refresh: every entry is similar to its refreshed
form, and the refreshed forms are the entries of `steady`. -/
structure Settling (answers : Str → List UInt32) (ldap : LdapGroups) (steady c : IdCache) :
    Prop where
  synced : ∀ e ∈ c.values, IsSynced e
  similar : ∀ e ∈ c.values, SimEntry ldap e (refreshedEntry answers e)
  into : ∀ e ∈ c.values, refreshedEntry answers e ∈ steady.values
  onto : ∀ e ∈ steady.values, ∃ x ∈ c.values, refreshedEntry answers x = e

namespace Settling

variable {answers : Str → List UInt32} {ldap : LdapGroups} {steady c : IdCache}

/-- A settling cache is similar to the steady one. -/
theorem simCache (h : Settling answers ldap steady c) : SimCache ldap c steady where
  left e he := ⟨_, h.into e he, h.similar e he⟩
  right e he := by
    obtain ⟨x, hx, rfl⟩ := h.onto e he
    exact ⟨x, hx, h.similar x hx⟩

/-- The snapshot is the steady one all along. -/
theorem snapshot_eq (h : Settling answers ldap steady c) :
    buildNssSnapshot c ldap = buildNssSnapshot steady ldap := by
  rw [buildNssSnapshot, buildNssSnapshot, buildNssRows_congr h.simCache]

/-- Refreshing some of the entries keeps a cache on its way. -/
theorem of_partly_refreshed (h : Settling answers ldap steady c) {c' : IdCache}
    (p : Resolved → Prop) [DecidablePred p]
    (hc' : c'.values = c.values.map fun x => if p x then refreshedEntry answers x else x) :
    Settling answers ldap steady c' := by
  -- each entry is an old one or a refreshed old one, and refreshing twice is refreshing once
  have hcases : ∀ e ∈ c'.values, ∃ x ∈ c.values, e = x ∨ e = refreshedEntry answers x := by
    intro e he
    rw [hc', List.mem_map] at he
    obtain ⟨x, hx, rfl⟩ := he
    refine ⟨x, hx, ?_⟩
    split
    · exact Or.inr rfl
    · exact Or.inl rfl
  constructor
  · intro e he
    obtain ⟨x, hx, rfl | rfl⟩ := hcases e he
    · exact h.synced e hx
    · exact ⟨(h.synced x hx).realm, (h.synced x hx).kind, (h.synced x hx).user⟩
  · intro e he
    obtain ⟨x, hx, rfl | rfl⟩ := hcases e he
    · exact h.similar e hx
    · rw [refreshedEntry_idem]
      exact SimEntry.refl _
  · intro e he
    obtain ⟨x, hx, rfl | rfl⟩ := hcases e he
    · exact h.into e hx
    · rw [refreshedEntry_idem]
      exact h.into x hx
  · intro e he
    obtain ⟨x, hx, rfl⟩ := h.onto e he
    refine ⟨if p x then refreshedEntry answers x else x, ?_, ?_⟩
    · rw [hc']
      exact List.mem_map_of_mem hx
    · split
      · exact refreshedEntry_idem answers x
      · rfl

end Settling

/-! ## Quiet runs -/

/-- Whether stores hold a snapshot depends on their content only. -/
theorem Disk.Holds.of_files_eq {d d' : Disk} {snapshot : List Str × List Str}
    (h : d.Holds snapshot) (hfiles : d'.files = d.files) : d'.Holds snapshot := by
  obtain ⟨h1, h2, h3, h4⟩ := h
  exact ⟨hfiles ▸ h1, hfiles ▸ h2, hfiles ▸ h3, hfiles ▸ h4⟩

section

variable {σ : Type*} {env : Env σ} {snap : IdMapSnapshot} {answers : Str → List UInt32}
  (hfix : FixedResolver env snap answers) {steady : IdCache}
  (hset : Settled answers (some snap.groups) steady)

include hfix hset

/-- One step of the refresh, on the way to a settled cache, writes no store. -/
theorem quiet_resolveGids (realm : Str) (variants : List Str) {w : World σ} {e : Resolved}
    (he : e ∈ w.cache.values) (hw : Settling answers (some snap.groups) steady w.cache)
    (hd : w.disk.Holds (buildNssSnapshot steady (some snap.groups))) :
    Settling answers (some snap.groups) steady
        (resolveGidsAndMaterialize env realm variants e.principal true w).2.cache ∧
      (resolveGidsAndMaterialize env realm variants e.principal true w).2.disk.files
        = w.disk.files ∧
      (resolveGidsAndMaterialize env realm variants e.principal true w).2.disk.writes
        = w.disk.writes := by
  have hs := hw.synced e he
  have hw' := hw.of_partly_refreshed (fun x => x.principal = e.principal)
    (resolveGids_values hfix realm variants true he hs.realm)
  obtain ⟨d, hfiles, hwrites, hdisk⟩ := resolveGids_disk hfix realm variants he hs.realm
  have hd' : d.Holds (buildNssSnapshot steady (some snap.groups)) := hd.of_files_eq hfiles
  rw [materializeNssWrappersAt_of_holds env.fails (hw'.snapshot_eq ▸ hd'),
    ensureMemberLogins_of_settled env hset hd' hs (hw.into e he),
    ensureMemberLogins_of_settled env hset hd' hs (hw.into e he)] at hdisk
  exact ⟨hw', by rw [hdisk, hfiles], by rw [hdisk, hwrites]⟩

/-- **A refresh on the way to a settled cache writes no store.** -/
theorem quiet_refresh {order : List Str → List Str} (horder : ∀ l, (order l).Perm l) (realm : Str)
    (variants : List Str) {w : World σ}
    (hw : Settling answers (some snap.groups) steady w.cache)
    (hd : w.disk.Holds (buildNssSnapshot steady (some snap.groups))) :
    Settling answers (some snap.groups) steady
        (refreshSupplementalNssForCachedUsers env order realm variants w).2.cache ∧
      (refreshSupplementalNssForCachedUsers env order realm variants w).2.disk.files
        = w.disk.files ∧
      (refreshSupplementalNssForCachedUsers env order realm variants w).2.disk.writes
        = w.disk.writes := by
  refine refresh_rule env horder realm variants (P := fun w' =>
    Settling answers (some snap.groups) steady w'.cache ∧ w'.disk.files = w.disk.files ∧
      w'.disk.writes = w.disk.writes) ⟨hw, rfl, rfl⟩ fun w' hw' e he => ?_
  obtain ⟨hw', hfiles', hwrites'⟩ := hw'
  obtain ⟨hs, hfiles, hwrites⟩ :=
    quiet_resolveGids hfix hset realm variants he hw' (hd.of_files_eq hfiles')
  refine ⟨⟨hs, hfiles.trans hfiles', hwrites.trans hwrites'⟩, fun x hx => ?_⟩
  -- a refreshed entry keeps its principal
  rw [resolveGids_values hfix realm variants true he (hw'.synced e he).realm]
  refine ⟨_, List.mem_map_of_mem hx, ?_⟩
  split <;> rfl

end

section

variable {σ : Type*} {env : Env σ} (hfails : ∀ n, env.fails n = false)

include hfails

/-- A rebulk whose two bulk writes succeed. -/
theorem rebulkApplySync_of_ok (order : HashOrder) (realm : Str) (snap : IdMapSnapshot)
    (live : LiveGroupEdges) (w : World σ) {b₁ b₂ : Bool} {d₁ d₂ : Disk} {refreshed : Bool × World σ}
    (h₁ : materializeNssWrappersAt env.fails
      (syncUserCacheFromSnapshot order.seeds snap realm w.cache live) (some snap.groups) w.disk
        = (.ok b₁, d₁))
    (hrefresh : refreshSupplementalNssForCachedUsers env order.principals realm env.serverVariants
      ⟨syncUserCacheFromSnapshot order.seeds snap realm w.cache live, d₁, w.ext⟩ = refreshed)
    (h₂ : materializeNssWrappersAt env.fails refreshed.2.cache (some snap.groups) refreshed.2.disk
        = (.ok b₂, d₂)) :
    (rebulkApplySync env order realm snap live w).1
        = .ok ⟨(bestPerUid snap).values.length, b₁ || refreshed.1 || b₂⟩ ∧
      (rebulkApplySync env order realm snap live w).2.cache = refreshed.2.cache ∧
      (rebulkApplySync env order realm snap live w).2.disk.files = d₂.files ∧
      (rebulkApplySync env order realm snap live w).2.disk.writes = d₂.writes := by
  unfold rebulkApplySync
  simp only [h₁, hrefresh, h₂]
  split
  · simp only [writeToFile, hfails, Bool.false_eq_true, if_false, and_self]
  · exact ⟨rfl, rfl, rfl, rfl⟩

/-- **After any run** the cache is the refreshed one and the stores hold its snapshot. -/
theorem rebulkApplySync_settles {snap : IdMapSnapshot} {answers : Str → List UInt32}
    (hfix : FixedResolver env snap answers) (order : HashOrder) (realm : Str)
    (live : LiveGroupEdges) (w : World σ) :
    (rebulkApplySync env order realm snap live w).2.cache.values
        = (syncUserCacheFromSnapshot order.seeds snap realm w.cache live).values.map
          (refreshedEntry answers) ∧
      (rebulkApplySync env order realm snap live w).2.disk.Holds
        (buildNssSnapshot (rebulkApplySync env order realm snap live w).2.cache
          (some snap.groups)) := by
  obtain ⟨b₁, d₁, h₁, -⟩ := materializeNssWrappersAt_of_not_fails env.fails hfails
    (syncUserCacheFromSnapshot order.seeds snap realm w.cache live) (some snap.groups) w.disk
  generalize hrefresh : refreshSupplementalNssForCachedUsers env order.principals realm
    env.serverVariants ⟨syncUserCacheFromSnapshot order.seeds snap realm w.cache live, d₁, w.ext⟩
      = refreshed
  obtain ⟨b₂, d₂, h₂, hd₂⟩ := materializeNssWrappersAt_of_not_fails env.fails hfails
    refreshed.2.cache (some snap.groups) refreshed.2.disk
  obtain ⟨-, hcache, hfiles, -⟩ :=
    rebulkApplySync_of_ok hfails order realm snap live w h₁ hrefresh h₂
  rw [hcache]
  refine ⟨?_, hd₂.of_files_eq hfiles⟩
  rw [← hrefresh]
  exact refresh_values hfix realm env.serverVariants order.principals_perm
    fun e he => isSynced_of_mem_sync order.seeds_perm he

/-- **A run towards a settled cache** over stores that hold its snapshot writes no store. -/
theorem quiet_rebulk {snap : IdMapSnapshot} {answers : Str → List UInt32}
    (hfix : FixedResolver env snap answers) {steady : IdCache}
    (hset : Settled answers (some snap.groups) steady) (order : HashOrder) (realm : Str)
    (live : LiveGroupEdges) {w : World σ}
    (hsync : Settling answers (some snap.groups) steady
      (syncUserCacheFromSnapshot order.seeds snap realm w.cache live))
    (hd : w.disk.Holds (buildNssSnapshot steady (some snap.groups))) :
    (rebulkApplySync env order realm snap live w).1
        = .ok ⟨(bestPerUid snap).values.length, false⟩ ∧
      (rebulkApplySync env order realm snap live w).2.disk.files = w.disk.files ∧
      (rebulkApplySync env order realm snap live w).2.disk.writes = w.disk.writes := by
  have h₁ := materializeNssWrappersAt_of_holds env.fails (hsync.snapshot_eq ▸ hd)
  generalize hrefresh : refreshSupplementalNssForCachedUsers env order.principals realm
    env.serverVariants ⟨syncUserCacheFromSnapshot order.seeds snap realm w.cache live, w.disk, w.ext⟩
      = refreshed
  obtain ⟨hsettling, hfiles, hwrites⟩ := quiet_refresh hfix hset order.principals_perm realm
    env.serverVariants
    (w := ⟨syncUserCacheFromSnapshot order.seeds snap realm w.cache live, w.disk, w.ext⟩) hsync hd
  rw [hrefresh] at hsettling hfiles hwrites
  have h₂ := materializeNssWrappersAt_of_holds env.fails
    (hsettling.snapshot_eq ▸ hd.of_files_eq hfiles)
  have hquiet : refreshed.1 = false := by
    rw [← hrefresh] at hwrites ⊢
    exact decide_eq_false (not_not.mpr hwrites)
  obtain ⟨hok, -, hf, hwr⟩ := rebulkApplySync_of_ok hfails order realm snap live w h₁ hrefresh h₂
  refine ⟨?_, hf.trans hfiles, hwr.trans hwrites⟩
  rw [hok, hquiet]
  rfl

end

/-! ## Repeated runs -/

/-- The refreshed entries of a synced cache, with the seeds in the order of the list. -/
def steadyCache (answers : Str → List UInt32) (realm : Str) (snap : IdMapSnapshot)
    (live : LiveGroupEdges) (cache : IdCache) : IdCache :=
  (syncUserCacheFromSnapshot id snap realm cache live).mapValues (refreshedEntry answers)
    (refreshedEntry_key answers)

/-- The resolver answers for the synced users what the directory gives to them: their primary gid,
and gids of directory groups that list them. -/
def AnswersListed (answers : Str → List UInt32) (realm : Str) (snap : IdMapSnapshot)
    (live : LiveGroupEdges) (cache : IdCache) : Prop :=
  ∀ e ∈ (syncUserCacheFromSnapshot id snap realm cache live).values, e.kind = .user →
    ∀ g ∈ answers e.principal, g = e.gid ∨
      (Given snap live e g ∧ HasLdapGid (some snap.groups) g)

/-- What the directory gives to a synced user is on its entry. -/
theorem mem_supps_of_given {snap : IdMapSnapshot} {live : LiveGroupEdges} {realm : Str} {seed : Seed}
    (hrealm : principalHasRealm (foldLive live (seedEntry snap realm seed)).principal = true)
    {g : UInt32} (h : Given snap live (foldLive live (seedEntry snap realm seed)) g) (hg : g ≠ 0)
    (hgid : g ≠ (foldLive live (seedEntry snap realm seed)).gid) :
    g ∈ (foldLive live (seedEntry snap realm seed)).supplementalGids := by
  rw [foldLive_fields] at hrealm h hgid
  change principalHasRealm (seedEntry snap realm seed).principal = true at hrealm
  change g ≠ seed.gid at hgid
  have hmem : g ∈ (seedEntry snap realm seed).supplementalGids ∨
      LiveEdge live (seedEntry snap realm seed) g := by
    rcases h with ⟨kv, hkv, hkg, hhit⟩ | h
    · refine Or.inl ?_
      change g ∈ supplementalGidsFromSnapshot _ _ _ _
      rw [supplementalGidsFromSnapshot, mem_sortDedup, List.mem_filterMap]
      refine ⟨kv, hkv, ?_⟩
      have hhit' : kv.2.hitsUser seed.name (seed.name ++ '@' :: realm) = true := hhit
      dsimp only
      rw [hkg, if_neg (by simp [hg, hgid]), if_pos hhit']
    · exact Or.inr h
  have huser : ¬ ((seedEntry snap realm seed).kind ≠ .user ∨
      (!principalHasRealm (seedEntry snap realm seed).principal) = true) := by
    rw [hrealm]
    exact fun h => h.elim (fun h => h rfl) (by decide)
  rw [foldLive, if_neg huser]
  rcases hmem with hmem | ⟨kv, hkv, hmem⟩
  · split
    · simp [Resolved.withSupplementalGids, hmem]
    · exact hmem
  · rw [hkv]
    simp only [Resolved.withSupplementalGids, mem_sortDedup, mem_pushAllNew, List.mem_filter]
    exact Or.inr ⟨hmem, by simpa using ⟨hg, hgid⟩⟩

/-- The live gids of a seed are all different. -/
theorem nodup_supps_foldLive (snap : IdMapSnapshot) (live : LiveGroupEdges) (realm : Str)
    (seed : Seed) : (foldLive live (seedEntry snap realm seed)).supplementalGids.Nodup := by
  unfold foldLive
  split
  · exact nodup_sortDedup _
  · split
    · exact nodup_sortDedup _
    · exact nodup_sortDedup _

/-- **Refreshing a user** whose answers are on its entry, under directory groups, is not seen by the
builder. -/
theorem simEntry_refreshedEntry {answers : Str → List UInt32} {ldap : LdapGroups} {e : Resolved}
    (hk : e.kind = .user) (hnum : isNumericLocalPrincipal e.principal = false)
    (hnodup : e.supplementalGids.Nodup)
    (hans : ∀ g ∈ answers e.principal, g = e.gid ∨ (g ∈ e.supplementalGids ∧ HasLdapGid ldap g)) :
    SimEntry ldap e (refreshedEntry answers e) := by
  have hfound : ∀ g ∈ (refreshedGids answers e).filter (· ≠ e.gid),
      g ∈ e.supplementalGids ∧ HasLdapGid ldap g := by
    intro g hg
    obtain ⟨hg, hne⟩ := List.mem_filter.mp hg
    rw [decide_eq_true_eq] at hne
    rw [refreshedGids, cachedAnswer_of_not_numeric hnum, foundGids,
      if_neg (by rw [hk]; decide), mergeGroupGids, mem_pushAllNew, List.mem_singleton] at hg
    exact (hans g (hg.resolve_left hne)).resolve_left hne
  refine ⟨rfl, fun g => ?_, ?_⟩
  · rw [refreshedEntry, Resolved.withSupplementalGids]
    dsimp only
    rw [mergedSupps, mem_pushAllNew]
    exact ⟨Or.inr, fun h => h.elim (fun hg => (hfound g hg).1) id⟩
  · rw [refreshedEntry, Resolved.withSupplementalGids]
    dsimp only
    -- what is new in front of the list has a directory group
    have hnone : ((refreshedGids answers e).filter (· ≠ e.gid)).filter
        (fun g => ¬ HasLdapGid ldap g) = [] := by
      rw [List.filter_eq_nil_iff]
      intro g hg
      simpa using (hfound g hg).2
    rw [mergedSupps, filter_pushAllNew, hnone, pushAllNew_eq_append (hnodup.filter _) (by simp),
      List.nil_append]

section

variable {answers : Str → List UInt32} {realm : Str} {snap : IdMapSnapshot} {live : LiveGroupEdges}
  {cache : IdCache} (hsep : SeedsSeparated snap realm)

include hsep

/-- The entries of a synced cache do not depend on the order of the seeds. -/
theorem mem_sync_congr {order order' : List Seed → List Seed} (horder : ∀ l, (order l).Perm l)
    (horder' : ∀ l, (order' l).Perm l) {e : Resolved}
    (h : e ∈ (syncUserCacheFromSnapshot order snap realm cache live).values) :
    e ∈ (syncUserCacheFromSnapshot order' snap realm cache live).values := by
  obtain ⟨hrealm, ⟨hk, hmem, hkey⟩ | ⟨-, hnum, seed, hseed, rfl⟩⟩ := mem_syncUserCache horder h
  · exact mem_syncUserCache_of_machine horder' snap realm live hmem hk hrealm hkey
  · exact mem_syncUserCache_of_seed horder' hsep cache live hseed hrealm hnum

variable (hlisted : AnswersListed answers realm snap live cache)
  (hset : Settled answers (some snap.groups) (steadyCache answers realm snap live cache))

include hlisted hset

omit hsep in
/-- The refresh of a synced user is not seen by the builder. -/
theorem simEntry_of_synced_user {e : Resolved}
    (he : e ∈ (syncUserCacheFromSnapshot id snap realm cache live).values) (hk : e.kind = .user) :
    SimEntry (some snap.groups) e (refreshedEntry answers e) := by
  obtain ⟨hrealm, ⟨hm, -, -⟩ | ⟨-, hnum, seed, hseed, rfl⟩⟩ := mem_syncUserCache List.Perm.refl he
  · exact absurd (hk.symm.trans hm) (by decide)
  · refine simEntry_refreshedEntry hk hnum (nodup_supps_foldLive snap live realm seed) ?_
    intro g hg
    rcases hlisted _ he hk g hg with hgid | ⟨hgiven, hldap⟩
    · exact Or.inl hgid
    · by_cases hgid : g = (foldLive live (seedEntry snap realm seed)).gid
      · exact Or.inl hgid
      · -- a user that claims gid 0 is not settled
        have hsteady : refreshedEntry answers (foldLive live (seedEntry snap realm seed))
            ∈ (steadyCache answers realm snap live cache).values := List.mem_map_of_mem he
        have hclaim : g ∈ (refreshedEntry answers
            (foldLive live (seedEntry snap realm seed))).claimedGids := by
          refine List.mem_cons_of_mem _ (mem_refreshedEntry.mpr (Or.inl ⟨?_, hgid⟩))
          rw [refreshedGids, cachedAnswer_of_not_numeric hnum, foundGids,
            if_neg (by rw [hk]; decide), mergeGroupGids, mem_pushAllNew]
          exact Or.inr hg
        have hg0 := ((hset _ hsteady).1 hk g hclaim).1
        exact Or.inr ⟨mem_supps_of_given hrealm hgiven hg0 hgid, hldap⟩

/-- **A sync of the steady cache is on its way back.** -/
theorem settling_sync {c : IdCache}
    (hc : ∀ e, e ∈ c.values ↔ e ∈ (steadyCache answers realm snap live cache).values)
    {order : List Seed → List Seed} (horder : ∀ l, (order l).Perm l) :
    Settling answers (some snap.groups) (steadyCache answers realm snap live cache)
      (syncUserCacheFromSnapshot order snap realm c live) := by
  -- an entry that the sync keeps is steady already
  have hmachine : ∀ e ∈ c.values, refreshedEntry answers e = e := by
    intro e he
    obtain ⟨x, -, rfl⟩ := List.mem_map.mp ((hc e).mp he)
    exact refreshedEntry_idem answers x
  -- a seeded entry is the one that the first sync seeded
  have huser : ∀ seed ∈ (bestPerUid snap).values,
      principalHasRealm (foldLive live (seedEntry snap realm seed)).principal = true →
      isNumericLocalPrincipal (foldLive live (seedEntry snap realm seed)).principal = false →
      foldLive live (seedEntry snap realm seed)
        ∈ (syncUserCacheFromSnapshot id snap realm cache live).values :=
    fun seed hseed hrealm hnum =>
      mem_syncUserCache_of_seed List.Perm.refl hsep cache live hseed hrealm hnum
  constructor
  · exact fun e he => isSynced_of_mem_sync horder he
  · intro e he
    -- a synced entry is a kept machine or a seed
    obtain ⟨hrealm, ⟨-, hmem, -⟩ | ⟨hk, hnum, seed, hseed, rfl⟩⟩ := mem_syncUserCache horder he
    · rw [hmachine e hmem]
      exact SimEntry.refl e
    · exact simEntry_of_synced_user hlisted hset (huser seed hseed hrealm hnum) hk
  · intro e he
    obtain ⟨hrealm, ⟨-, hmem, -⟩ | ⟨-, hnum, seed, hseed, rfl⟩⟩ := mem_syncUserCache horder he
    · rw [hmachine e hmem]
      exact (hc e).mp hmem
    · exact List.mem_map_of_mem (huser seed hseed hrealm hnum)
  · intro e he
    obtain ⟨x, hx, rfl⟩ := List.mem_map.mp he
    obtain ⟨hrealm, ⟨hk, -, hkey⟩ | ⟨-, hnum, seed, hseed, rfl⟩⟩ :=
      mem_syncUserCache List.Perm.refl hx
    · refine ⟨refreshedEntry answers x, ?_, refreshedEntry_idem answers x⟩
      exact mem_syncUserCache_of_machine horder snap realm live ((hc _).mpr he) hk hrealm hkey
    · exact ⟨_, mem_syncUserCache_of_seed horder hsep c live hseed hrealm hnum, rfl⟩

end

section

variable {σ : Type*} (env : Env σ)

/-- The world after `n` rebulks on the same inputs; every run enumerates its hash maps in an order
of its own. -/
def rebulkRuns (orders : Nat → HashOrder) (realm : Str) (snap : IdMapSnapshot)
    (live : LiveGroupEdges) (w : World σ) : Nat → World σ
  | 0 => w
  | n + 1 => (rebulkApplySync env (orders n) realm snap live
      (rebulkRuns orders realm snap live w n)).2

/-- **After the first run** the cache holds the steady entries, and the stores their snapshot. -/
theorem rebulkRuns_steady {snap : IdMapSnapshot} {answers : Str → List UInt32}
    (hfails : ∀ n, env.fails n = false) (hfix : FixedResolver env snap answers) {realm : Str}
    {live : LiveGroupEdges} {w : World σ} (hsep : SeedsSeparated snap realm)
    (hlisted : AnswersListed answers realm snap live w.cache)
    (hset : Settled answers (some snap.groups) (steadyCache answers realm snap live w.cache))
    (orders : Nat → HashOrder) (n : Nat) :
    (∀ e, e ∈ (rebulkRuns env orders realm snap live w (n + 1)).cache.values ↔
        e ∈ (steadyCache answers realm snap live w.cache).values) ∧
      (rebulkRuns env orders realm snap live w (n + 1)).disk.Holds (buildNssSnapshot
        (steadyCache answers realm snap live w.cache) (some snap.groups)) := by
  induction n with
  -- the first run: its order of seeds is exchanged for the fixed one
  | zero =>
    obtain ⟨hvalues, hholds⟩ := rebulkApplySync_settles hfails hfix (orders 0) realm live w
    have hmem : ∀ e, e ∈ (rebulkApplySync env (orders 0) realm snap live w).2.cache.values ↔
        e ∈ (steadyCache answers realm snap live w.cache).values := by
      intro e
      rw [hvalues, List.mem_map]
      change _ ↔ e ∈ (syncUserCacheFromSnapshot id snap realm w.cache live).values.map _
      rw [List.mem_map]
      constructor
      · rintro ⟨x, hx, rfl⟩
        exact ⟨x, mem_sync_congr hsep (orders 0).seeds_perm List.Perm.refl hx, rfl⟩
      · rintro ⟨x, hx, rfl⟩
        exact ⟨x, mem_sync_congr hsep List.Perm.refl (orders 0).seeds_perm hx, rfl⟩
    -- caches with the same entries print the same stores
    have hsim : SimCache (some snap.groups)
        (rebulkApplySync env (orders 0) realm snap live w).2.cache
        (steadyCache answers realm snap live w.cache) :=
      ⟨fun e he => ⟨e, (hmem e).mp he, SimEntry.refl e⟩,
        fun e he => ⟨e, (hmem e).mpr he, SimEntry.refl e⟩⟩
    refine ⟨hmem, ?_⟩
    rw [buildNssSnapshot, ← buildNssRows_congr hsim]
    exact hholds
  -- every later run refreshes a cache that is on its way back, and writes nothing
  | succ n ih =>
    have hsettling := settling_sync hsep hlisted hset ih.1 (orders (n + 1)).seeds_perm
    obtain ⟨hvalues, -⟩ := rebulkApplySync_settles hfails hfix (orders (n + 1)) realm live
      (rebulkRuns env orders realm snap live w (n + 1))
    obtain ⟨-, hfiles, -⟩ := quiet_rebulk hfails hfix hset (orders (n + 1)) realm live hsettling ih.2
    refine ⟨fun e => ?_, ih.2.of_files_eq hfiles⟩
    rw [rebulkRuns, hvalues, List.mem_map]
    constructor
    · rintro ⟨x, hx, rfl⟩
      exact hsettling.into x hx
    · intro he
      exact hsettling.onto e he

/-- **Steady state**: with a resolver whose answers are fixed and those of the snapshot, no write
that fails, separate seeds and a settled cache, no run after the first one writes a store, whatever
the stores held in the beginning. -/
theorem steadyState_of_settled {snap : IdMapSnapshot} {answers : Str → List UInt32}
    (hfails : ∀ n, env.fails n = false) (hfix : FixedResolver env snap answers) {realm : Str}
    {live : LiveGroupEdges} {w : World σ} (hlisted : AnswersListed answers realm snap live w.cache)
    (hsep : SeedsSeparated snap realm)
    (hset : Settled answers (some snap.groups) (steadyCache answers realm snap live w.cache))
    (orders : Nat → HashOrder) {n : Nat} (hn : 1 ≤ n) :
    (rebulkApplySync env (orders n) realm snap live
          (rebulkRuns env orders realm snap live w n)).1
        = .ok ⟨(bestPerUid snap).values.length, false⟩ ∧
      (rebulkRuns env orders realm snap live w (n + 1)).disk.files
        = (rebulkRuns env orders realm snap live w n).disk.files ∧
      (rebulkRuns env orders realm snap live w (n + 1)).disk.writes
        = (rebulkRuns env orders realm snap live w n).disk.writes := by
  obtain ⟨n, rfl⟩ := Nat.exists_eq_add_of_le' hn
  obtain ⟨hmem, hholds⟩ := rebulkRuns_steady env hfails hfix hsep hlisted hset orders n
  exact quiet_rebulk hfails hfix hset (orders (n + 1)) realm live
    (settling_sync hsep hlisted hset hmem (orders (n + 1)).seeds_perm) hholds

end

/-! ## Two users whose ids cross -/

/-- The group answer for a user who is in the directory: its primary gid, then the groups that list
it. -/
def directoryAnswers (snap : IdMapSnapshot) (p : Str) : List Int32 :=
  let short := principalLocalPart p
  let primary := ((snap.users.get? short).map fun kv => kv.2.gid).toList
  snap.groups.values.foldl (fun gids kv =>
    if kv.2.members.any fun m => eqIgnoreAsciiCase m short || eqIgnoreAsciiCase m p then
      pushNew gids kv.2.gid
    else gids) primary

/-- A resolver that answers for users from one snapshot. -/
def directoryEnv (snap : IdMapSnapshot) : Env Unit :=
  { silentEnv with
    resolverReady := fun s => (true, s)
    snapshot := fun _ => snap
    resolveGroupsForPrincipal := fun p s => (directoryAnswers snap p, s) }

/-- A directory that does not change is a fixed resolver. -/
theorem fixedResolver_directoryEnv (snap : IdMapSnapshot) :
    FixedResolver (directoryEnv snap) snap fun p => (directoryAnswers snap p).map Int32.toUInt32 :=
  ⟨fun _ => rfl, fun _ => rfl, fun _ _ => rfl⟩

/-- A property of all answers, evaluated. -/
theorem forall_answers_of_all {s : IdMapSnapshot} {l : List Resolved} {p : Resolved → UInt32 → Bool}
    (h : (l.all fun e => ((directoryAnswers s e.principal).map Int32.toUInt32).all (p e)) = true) :
    ∀ e ∈ l, ∀ g ∈ (directoryAnswers s e.principal).map Int32.toUInt32, p e g = true := by
  intro e he
  exact List.all_eq_true.mp (List.all_eq_true.mp h e he)

/-- The uid of `alice` is the primary gid of `bob`, and no group has it. -/
def crossedSnapshot : IdMapSnapshot :=
  ⟨(KeyedMap.empty.insert ("alice".toList, ⟨1000, 500, "alice".toList⟩)).insert
    ("bob".toList, ⟨1001, 1000, "bob".toList⟩), KeyedMap.empty⟩

/-- The stub of `alice` hides the row of `bob`, the refresh appends `bob` to it, and the last pass
drops him again: the third run still writes. -/
theorem not_steadyState_crossed :
    FixedResolver (directoryEnv crossedSnapshot) crossedSnapshot
        (fun p => (directoryAnswers crossedSnapshot p).map Int32.toUInt32) ∧
      AnswersListed (fun p => (directoryAnswers crossedSnapshot p).map Int32.toUInt32) "R".toList
        crossedSnapshot KeyedMap.empty KeyedMap.empty ∧
      SeedsSeparated crossedSnapshot "R".toList ∧
      (rebulkApplySync (directoryEnv crossedSnapshot) .listOrder "R".toList crossedSnapshot
          KeyedMap.empty (rebulkRuns (directoryEnv crossedSnapshot) (fun _ => .listOrder)
            "R".toList crossedSnapshot KeyedMap.empty freshWorld 2)).1 = .ok ⟨2, true⟩ := by
  have hprimary := forall_answers_of_all (s := crossedSnapshot) (p := fun e g => g == e.gid)
    (l := (syncUserCacheFromSnapshot id crossedSnapshot "R".toList KeyedMap.empty
      KeyedMap.empty).values) (by decide)
  exact ⟨fixedResolver_directoryEnv crossedSnapshot,
    fun e he _ g hg => Or.inl (by simpa using hprimary e he g hg), by decide, by decide +kernel⟩

/-- One user in a group of the directory. -/
def staffSnapshot : IdMapSnapshot :=
  ⟨KeyedMap.empty.insert ("alice".toList, ⟨1000, 500, "alice".toList⟩),
    KeyedMap.empty.insert ("staff".toList, ⟨5000, "staff".toList, ["alice".toList]⟩)⟩

/-- There the third run writes nothing. -/
theorem steadyState_staff :
    (rebulkApplySync (directoryEnv staffSnapshot) .listOrder "R".toList staffSnapshot
        KeyedMap.empty (rebulkRuns (directoryEnv staffSnapshot) (fun _ => .listOrder) "R".toList
          staffSnapshot KeyedMap.empty freshWorld 2)).1 = .ok ⟨1, false⟩ := by
  have hanswers := forall_answers_of_all (s := staffSnapshot)
    (p := fun e g => g == e.gid || g == 5000)
    (l := (syncUserCacheFromSnapshot id staffSnapshot "R".toList KeyedMap.empty
      KeyedMap.empty).values) (by decide)
  have hstaff : ∀ e ∈ (syncUserCacheFromSnapshot id staffSnapshot "R".toList KeyedMap.empty
      KeyedMap.empty).values, e.kind = .user → SnapEdge staffSnapshot e 5000 := by
    intro e he _
    refine ⟨("staff".toList, ⟨5000, "staff".toList, ["alice".toList]⟩), List.mem_singleton_self _,
      rfl, ?_⟩
    revert e
    decide
  have hlisted : AnswersListed (fun p => (directoryAnswers staffSnapshot p).map Int32.toUInt32)
      "R".toList staffSnapshot KeyedMap.empty KeyedMap.empty := by
    intro e he hk g hg
    have hcases : g = e.gid ∨ g = 5000 := by simpa using hanswers e he g hg
    rcases hcases with hgid | rfl
    · exact Or.inl hgid
    · exact Or.inr ⟨Or.inl (hstaff e he hk), by decide⟩
  exact (steadyState_of_settled (directoryEnv staffSnapshot) (fun _ => rfl)
    (fixedResolver_directoryEnv staffSnapshot) (w := freshWorld) hlisted (by decide)
    (by decide +kernel) (fun _ => .listOrder) (n := 2) (by decide)).1

end NfsKlldap
