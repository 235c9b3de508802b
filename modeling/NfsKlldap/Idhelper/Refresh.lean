import NfsKlldap.Idhelper.Rebulk

/-! # The refresh over a fixed resolver

The refresh asks for the groups of every cached principal and joins the answer to the entry. With a
resolver whose answers do not change, the effect on an entry is a function of the entry
(`refreshedEntry`), applying it twice is applying it once (**`refreshedEntry_idem`**), and the
refreshed cache is its image in whatever order the cache is enumerated
(**`refresh_values`**). -/

namespace NfsKlldap

open Text

/-! ## Cached principals -/

/-- The answer to a request for the principal of a cached entry. -/
def cachedAnswer (e : Resolved) : Resolved :=
  if isNumericLocalPrincipal e.principal then rejectedNumeric (normalizePrincipal e.principal)
  else { e with source := "cache".toList }

/-- A cached entry that is not numeric is answered as it is, but for its source. -/
theorem cachedAnswer_of_not_numeric {e : Resolved}
    (h : isNumericLocalPrincipal e.principal = false) :
    cachedAnswer e = { e with source := "cache".toList } := by
  rw [cachedAnswer, h]
  rfl

/-- A cached answer never fails closed. -/
theorem isUnresolvedFailClosed_cachedAnswer (e : Resolved) :
    isUnresolvedFailClosed (cachedAnswer e) = false := by
  unfold cachedAnswer
  split <;> rfl

/-- The answer is filed under the key of the entry. -/
theorem normalizePrincipal_cachedAnswer (e : Resolved) :
    normalizePrincipal (cachedAnswer e).principal = e.key := by
  unfold cachedAnswer
  split
  · exact normalizePrincipal_idem e.principal
  · rfl

section

variable {σ : Type*} (env : Env σ)

/-- **A cached principal is answered from the cache**, or rejected as numeric. -/
theorem resolvePrincipal_of_cached (realm : Str) (variants : List Str) {w : World σ} {e : Resolved}
    (he : e ∈ w.cache.values) (hrealm : principalHasRealm e.principal = true) :
    resolvePrincipal env realm variants e.principal w = (cachedAnswer e, w) := by
  obtain ⟨l, r, hsplit, hr⟩ := split_of_principalHasRealm hrealm
  have hq : canonicalizePrincipal (trim e.principal) realm = normalizePrincipal e.principal := by
    rw [canonicalizePrincipal_of_split realm (p := trim e.principal) (by rwa [trim_trim]) hr,
      normalizePrincipal, normalizePrincipal, trim_trim]
  have hkey : w.cache.get? (normalizePrincipal (normalizePrincipal e.principal)) = some e := by
    rw [normalizePrincipal_idem]
    exact KeyedMap.get?_eq_some_iff.mpr ⟨he, rfl⟩
  rcases resolvePrincipal_cases env realm variants hq w with
    ⟨hnum, hres⟩ | ⟨hnum, ⟨e', he', hres⟩ | ⟨hnone, -⟩⟩
  · rw [isNumericLocalPrincipal_normalizePrincipal] at hnum
    rw [hres, cachedAnswer, if_pos hnum]
  · rw [hkey, Option.some.injEq] at he'
    rw [isNumericLocalPrincipal_normalizePrincipal] at hnum
    rw [hres, ← he', cachedAnswer_of_not_numeric hnum]
  · rw [hkey] at hnone
    exact absurd hnone (by simp)

end

/-! ## The effect on one entry -/

/-- A resolver that is configured, has the groups of `snap` and gives the same answers all the
time. -/
structure FixedResolver {σ : Type*} (env : Env σ) (snap : IdMapSnapshot)
    (answers : Str → List UInt32) : Prop where
  ready : ∀ s, (env.resolverReady s).1 = true
  groups : ∀ s, (env.snapshot s).groups = snap.groups
  answers : ∀ p s, groupAnswers env p s = answers p

/-- The gids such a resolver makes `computeGidsForResolved` find. -/
def foundGids (answers : Str → List UInt32) (r : Resolved) (p : Str) : List UInt32 :=
  if r.kind = .machine then
    mergeGroupGids machineGid
      (pushAllNew r.supplementalGids ((answers p).filter (· ≠ machineGid)))
  else mergeGroupGids r.gid (answers p)

/-- With a fixed resolver the gids of a principal depend on its entry only. -/
theorem FixedResolver.computeGids {σ : Type*} {env : Env σ} {snap : IdMapSnapshot}
    {answers : Str → List UInt32} (h : FixedResolver env snap answers) (r : Resolved) (p : Str)
    (s : σ) : (computeGidsForResolved env r p s).1 = foundGids answers r p := by
  have hq : (queryGroups env p s).1 = some (answers p) := by
    have hans := h.answers p (ensureResolverSnapshot env (env.resolverReady s).2)
    rw [groupAnswers] at hans
    simp only [queryGroups, h.ready, if_true, hans]
  unfold computeGidsForResolved foundGids
  split
  · simp only [hq]
  · simp only [hq]

/-- The gids that are found for the principal of an entry. -/
def refreshedGids (answers : Str → List UInt32) (e : Resolved) : List UInt32 :=
  foundGids answers (cachedAnswer e) e.principal

/-- An entry after the refresh. -/
def refreshedEntry (answers : Str → List UInt32) (e : Resolved) : Resolved :=
  e.withSupplementalGids (mergedSupps e (refreshedGids answers e))

/-- A refresh leaves the principal as it is. -/
@[simp] theorem refreshedEntry_principal (answers : Str → List UInt32) (e : Resolved) :
    (refreshedEntry answers e).principal = e.principal := rfl

/-- A refresh leaves the kind as it is. -/
@[simp] theorem refreshedEntry_kind (answers : Str → List UInt32) (e : Resolved) :
    (refreshedEntry answers e).kind = e.kind := rfl

/-- A refresh leaves the key as it is. -/
@[simp] theorem refreshedEntry_key (answers : Str → List UInt32) (e : Resolved) :
    (refreshedEntry answers e).key = e.key := rfl

/-- A refreshed entry has its own gids and the new ones. -/
theorem mem_refreshedEntry {answers : Str → List UInt32} {e : Resolved} {g : UInt32} :
    g ∈ (refreshedEntry answers e).supplementalGids ↔
      (g ∈ refreshedGids answers e ∧ g ≠ e.gid) ∨ g ∈ e.supplementalGids := mem_mergedSupps

/-- The gids found for a non-numeric machine, up to its primary gid, are found again once they are
persisted. -/
theorem filter_mergeGroupGids_idem (p : UInt32 → Bool) (z : UInt32) (supps answers : List UInt32) :
    (mergeGroupGids z (pushAllNew
        (pushAllNew ((mergeGroupGids z (pushAllNew supps answers)).filter p) supps) answers)).filter p
      = (mergeGroupGids z (pushAllNew supps answers)).filter p := by
  have hfound : (mergeGroupGids z (pushAllNew supps answers)).filter p
      = pushAllNew ([z].filter p) (pushAllNew (supps.filter p) (answers.filter p)) := by
    rw [mergeGroupGids, filter_pushAllNew, filter_pushAllNew]
  generalize hF : (mergeGroupGids z (pushAllNew supps answers)).filter p = F at hfound ⊢
  have hFp : F.filter p = F := by
    rw [← hF, List.filter_filter]
    simp
  have hsupps : ∀ g ∈ supps.filter p, g ∈ F := by
    intro g hg
    rw [hfound]
    simp [hg]
  have hanswers : ∀ g ∈ answers.filter p, g ∈ F := by
    intro g hg
    rw [hfound]
    simp [hg]
  rw [mergeGroupGids, filter_pushAllNew, filter_pushAllNew, filter_pushAllNew, hFp,
    pushAllNew_eq_self hsupps, pushAllNew_eq_self hanswers, hfound, pushAllNew_pushAllNew]

/-- **Refreshing twice is refreshing once.** -/
theorem refreshedEntry_idem (answers : Str → List UInt32) (e : Resolved) :
    refreshedEntry answers (refreshedEntry answers e) = refreshedEntry answers e := by
  -- what the second refresh finds besides the own gid is what the first found
  have hfound : (refreshedGids answers (refreshedEntry answers e)).filter (· ≠ e.gid)
      = (refreshedGids answers e).filter (· ≠ e.gid) := by
    by_cases hnum : isNumericLocalPrincipal e.principal = true
    · -- a numeric principal is found the same gids, whatever its entry has
      have hanswer : cachedAnswer (refreshedEntry answers e) = cachedAnswer e := by
        rw [cachedAnswer, cachedAnswer, refreshedEntry_principal, if_pos hnum, if_pos hnum]
      rw [refreshedGids, refreshedGids, hanswer]
      rfl
    · rw [Bool.not_eq_true] at hnum
      rw [refreshedGids, refreshedGids,
        cachedAnswer_of_not_numeric (e := refreshedEntry answers e) hnum,
        cachedAnswer_of_not_numeric hnum]
      -- a machine also gets its own supplemental gids back, which by then hold the found ones
      by_cases hk : e.kind = .machine
      · have hk' : (refreshedEntry answers e).kind = .machine := hk
        rw [foundGids, foundGids, if_pos hk', if_pos hk]
        have hsupps : (refreshedEntry answers e).supplementalGids = pushAllNew
            ((mergeGroupGids machineGid (pushAllNew e.supplementalGids
              ((answers e.principal).filter (· ≠ machineGid)))).filter (· ≠ e.gid))
            e.supplementalGids := by
          rw [refreshedEntry, refreshedGids, cachedAnswer_of_not_numeric hnum, foundGids, if_pos hk]
          rfl
        dsimp only
        rw [hsupps]
        exact filter_mergeGroupGids_idem _ _ _ _
      · have hk' : ¬ (refreshedEntry answers e).kind = .machine := hk
        rw [foundGids, foundGids, if_neg hk', if_neg hk]
        rfl
  have hmerged : mergedSupps (refreshedEntry answers e)
      (refreshedGids answers (refreshedEntry answers e))
      = mergedSupps e (refreshedGids answers e) := by
    rw [mergedSupps, show (refreshedEntry answers e).gid = e.gid from rfl, hfound]
    exact pushAllNew_pushAllNew _ _
  rw [refreshedEntry, hmerged]
  rfl

/-! ## The effect on the cache -/

/-- An entry that a sync leaves in the cache. -/
structure IsSynced (e : Resolved) : Prop where
  realm : principalHasRealm e.principal = true
  kind : e.kind = .user ∨ e.kind = .machine
  user : e.kind = .user → isNumericLocalPrincipal e.principal = false ∧
    isNumericLogin (sanitizeForNss e.name) = false

/-- A sync leaves users and machines with a realm. -/
theorem isSynced_of_mem_sync {order : List Seed → List Seed} (horder : ∀ l, (order l).Perm l)
    {snap : IdMapSnapshot} {realm : Str} {cache : IdCache} {live : LiveGroupEdges} {e : Resolved}
    (h : e ∈ (syncUserCacheFromSnapshot order snap realm cache live).values) : IsSynced e := by
  obtain ⟨hrealm, ⟨hk, -, -⟩ | ⟨hk, hnum, seed, hseed, rfl⟩⟩ := mem_syncUserCache horder h
  · exact ⟨hrealm, Or.inr hk, fun hu => absurd (hk.symm.trans hu) (by decide)⟩
  · refine ⟨hrealm, Or.inl hk, fun _ => ⟨hnum, Bool.eq_false_iff.mpr fun hlogin => ?_⟩⟩
    -- the name of a seed is the local part of its principal
    obtain ⟨key, hkey⟩ := exists_key_of_seed hseed
    have hname : (foldLive live (seedEntry snap realm seed)).name = seed.name := by
      rw [foldLive_fields]
      rfl
    have hprincipal : (foldLive live (seedEntry snap realm seed)).principal
        = seed.name ++ '@' :: realm := by
      rw [foldLive_fields]
      rfl
    have hlocal : principalLocalPart (seed.name ++ '@' :: realm) = seed.name := by
      refine principalLocalPart_append ?_ ?_ realm
      · rw [hkey]
        exact at_not_mem_principalLocalPart key
      · intro c hc
        rw [hkey] at hc
        exact head_principalLocalPart hc
    rw [hname] at hlogin
    rw [hprincipal] at hnum
    have hnumeric : isNumericLocalPrincipal (seed.name ++ '@' :: realm) = true := by
      have hl := isNumericLogin_of_sanitizeForNss hlogin
      rw [isNumericLogin] at hl
      rw [isNumericLocalPrincipal, hlocal]
      exact hl
    rw [hnum] at hnumeric
    exact absurd hnumeric (by decide)

section

variable {σ : Type*} {env : Env σ} {snap : IdMapSnapshot} {answers : Str → List UInt32}
  (hfix : FixedResolver env snap answers) (realm : Str) (variants : List Str)

include hfix

/-- A group request for a cached principal refreshes its entry and leaves the others alone. -/
theorem resolveGids_values (force : Bool) {w : World σ} {e : Resolved} (he : e ∈ w.cache.values)
    (hrealm : principalHasRealm e.principal = true) :
    (resolveGidsAndMaterialize env realm variants e.principal force w).2.cache.values
      = w.cache.values.map fun x =>
        if x.principal = e.principal then refreshedEntry answers x else x := by
  have hroot := isRootRequest_of_at (at_mem_of_principalHasRealm hrealm)
  rw [resolveGids_cache, resolvePrincipal_of_cached env realm variants he hrealm, hroot,
    isUnresolvedFailClosed_cachedAnswer, if_neg (by decide), if_neg (by decide),
    normalizePrincipal_cachedAnswer, hfix.computeGids, IdCache.setSupps, KeyedMap.values_modify]
  refine List.map_congr_left fun x hx => ?_
  -- principals are keys
  have hiff : x.key = e.key ↔ x.principal = e.principal := by
    constructor
    · intro h
      rw [w.cache.eq_of_key_eq hx he h]
    · intro h
      rw [Resolved.key, Resolved.key, h]
  by_cases h : x.principal = e.principal
  · obtain rfl : x = e := w.cache.eq_of_key_eq hx he (hiff.mpr h)
    rw [if_pos rfl, if_pos rfl]
    rfl
  · rw [if_neg h, if_neg (mt hiff.mp h)]

/-- **The refreshed cache** holds the refreshed entries. -/
theorem refresh_values {order : List Str → List Str} (horder : ∀ l, (order l).Perm l) {w : World σ}
    (hw : ∀ e ∈ w.cache.values, IsSynced e) :
    (refreshSupplementalNssForCachedUsers env order realm variants w).2.cache.values
      = w.cache.values.map (refreshedEntry answers) := by
  -- after part of the loop the visited entries are refreshed
  have hloop : ∀ (ps : List Str) (w : World σ),
      (∀ p ∈ ps, ∃ e ∈ w.cache.values, e.principal = p ∧ principalHasRealm p = true) →
      (ps.foldl (fun w p => (resolveGidsAndMaterialize env realm variants p true w).2) w).cache.values
        = w.cache.values.map fun x => if x.principal ∈ ps then refreshedEntry answers x else x := by
    intro ps
    induction ps with
    | nil =>
      intro w _
      simp
    | cons p ps ih =>
      intro w hps
      rw [List.forall_mem_cons] at hps
      obtain ⟨⟨e, he, rfl, hrealm⟩, hps⟩ := hps
      have hstep := resolveGids_values hfix realm variants true he hrealm
      rw [List.foldl_cons, ih, hstep, List.map_map]
      · refine List.map_congr_left fun x _ => ?_
        dsimp only [Function.comp]
        by_cases hx : x.principal = e.principal
        · simp only [hx, if_true, List.mem_cons_self, refreshedEntry_idem, ite_self]
        · simp only [hx, if_false, List.mem_cons, false_or]
      · intro p hp
        obtain ⟨x, hx, hxp, hreal⟩ := hps p hp
        rw [hstep]
        refine ⟨_, List.mem_map_of_mem hx, ?_, hreal⟩
        split
        · exact hxp
        · exact hxp
  rw [refreshSupplementalNssForCachedUsers_snd, hloop]
  · refine List.map_congr_left fun x hx => if_pos ?_
    rw [(horder _).mem_iff, refreshPrincipals, List.mem_map]
    exact ⟨x, List.mem_filter.mpr ⟨hx, by simpa using ⟨(hw x hx).kind, (hw x hx).realm⟩⟩, rfl⟩
  · intro p hp
    rw [(horder _).mem_iff, refreshPrincipals, List.mem_map] at hp
    obtain ⟨x, hx, rfl⟩ := hp
    have hmem := (List.mem_filter.mp hx).1
    exact ⟨x, hmem, rfl, (hw x hmem).realm⟩

end

end NfsKlldap
