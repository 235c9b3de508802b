import NfsKlldap.Idhelper.Resolve

/-! # Reading the resolver

What one request can do, stated once:

* **`resolvePrincipal_cases`** — a request is rejected as numeric, answered from the cache, or
  resolved afresh, and **`resolveMiss_cases`** lists the fresh answers;
* **`mem_storeResolved`** — what the cache holds after a fresh answer was filed;
* **`mem_computeGids`** — where the gids of a group request come from. -/

namespace NfsKlldap

open Text

/-! ## Entries whose supplemental gids are rewritten -/

/-- Gids are set on the entry under the key only. -/
theorem IdCache.mem_setSupps {cache : IdCache} {key : Str} {f : Resolved → List UInt32}
    {e : Resolved} : e ∈ (cache.setSupps key f).values ↔ ∃ e₀ ∈ cache.values,
      e = if e₀.key = key then e₀.withSupplementalGids (f e₀) else e₀ := by
  rw [IdCache.setSupps, KeyedMap.values_modify, List.mem_map]
  simp only [eq_comm]

/-- A key that is not there is not rewritten. -/
theorem IdCache.setSupps_of_none {cache : IdCache} {key : Str} (f : Resolved → List UInt32)
    (h : cache.get? key = none) : cache.setSupps key f = cache := by
  refine KeyedMap.ext ?_
  rw [IdCache.setSupps, KeyedMap.values_modify]
  refine (List.map_congr_left fun e he => ?_).trans (List.map_id' cache.values)
  rw [if_neg (KeyedMap.get?_eq_none_iff.mp h e he)]

section

variable {σ : Type*} (env : Env σ)

/-- Repairs of the stores leave the cache as it is. -/
@[simp] theorem ensureNssMaterializedFor_cache (r : Resolved) (gids : List UInt32) (w : World σ) :
    (ensureNssMaterializedFor env r gids w).cache = w.cache := rfl

/-- The cache after the gids of a first encounter were persisted. -/
theorem persistFirst_cache (r : Resolved) (supps : List UInt32 → Resolved → List UInt32)
    (w : World σ) : (persistFirst env r supps w).cache
      = w.cache.setSupps (normalizePrincipal r.principal)
        (supps (computeGidsForResolved env r r.principal w.ext).1) := by
  simp only [persistFirst, ensureNssMaterializedFor_cache]
  cases h : w.cache.get? (normalizePrincipal r.principal) with
  | some e => rfl
  | none => exact (IdCache.setSupps_of_none _ h).symm

/-! ## Group answers -/

/-- The gids the resolver answers to a group query. -/
def groupAnswers (q : Str) (s : σ) : List UInt32 :=
  (env.resolveGroupsForPrincipal q s).1.map Int32.toUInt32

/-- The primary gid a group request starts from. -/
def primaryGid (r : Resolved) : UInt32 := if r.kind = .machine then machineGid else r.gid

/-- A group query is answered by the resolver at some outside state, or there is none. -/
theorem queryGroups_cases (q : Str) (s : σ) :
    (queryGroups env q s).1 = none
      ∨ ∃ s', (queryGroups env q s).1 = some (groupAnswers env q s') := by
  by_cases h : (env.resolverReady s).1 = true
  · refine Or.inr ⟨ensureResolverSnapshot env (env.resolverReady s).2, ?_⟩
    simp only [queryGroups, h, if_true, groupAnswers]
  · refine Or.inl ?_
    simp only [queryGroups, if_neg h]

/-- **Where the gids of a group request come from**: the primary gid, a machine's supplemental gids,
or an answer of the resolver for the queried principal. -/
theorem mem_computeGids {r : Resolved} {q : Str} {s : σ} {g : UInt32}
    (h : g ∈ (computeGidsForResolved env r q s).1) :
    g = primaryGid r ∨ (r.kind = .machine ∧ g ∈ r.supplementalGids) ∨
      ∃ s', g ∈ groupAnswers env q s' := by
  unfold computeGidsForResolved at h
  rw [primaryGid]
  by_cases hk : r.kind = .machine
  · rw [if_pos hk] at h ⊢
    rcases queryGroups_cases env q s with hq | ⟨s', hq⟩
    · simp only [hq, mergeGroupGids, mem_pushAllNew, List.mem_singleton] at h
      tauto
    · simp only [hq, mergeGroupGids, mem_pushAllNew, List.mem_singleton, List.mem_filter] at h
      rcases h with h | h | ⟨h, -⟩
      · exact Or.inl h
      · exact Or.inr (Or.inl ⟨hk, h⟩)
      · exact Or.inr (Or.inr ⟨s', h⟩)
  · rw [if_neg hk] at h ⊢
    rcases queryGroups_cases env q s with hq | ⟨s', hq⟩
    · simp only [hq, mergeGroupGids, mem_pushAllNew, List.mem_singleton, List.not_mem_nil,
        or_false] at h
      exact Or.inl h
    · simp only [hq, mergeGroupGids, mem_pushAllNew, List.mem_singleton] at h
      rcases h with h | h
      · exact Or.inl h
      · exact Or.inr (Or.inr ⟨s', h⟩)

/-- The merged gids are the old ones and the new ones, but for the primary one. -/
theorem mem_mergedSupps {e : Resolved} {gids : List UInt32} {g : UInt32} :
    g ∈ mergedSupps e gids ↔ (g ∈ gids ∧ g ≠ e.gid) ∨ g ∈ e.supplementalGids := by
  simp [mergedSupps]

/-! ## Filing a fresh answer -/

/-- The cache holds what it held, but for what the new entry replaces, and the new entry if it has a
realm. -/
theorem mem_filedCache {cache : IdCache} {resolved e : Resolved}
    (h : e ∈ (filedCache cache resolved).values) :
    ((e ∈ cache.values ∧ (principalHasRealm resolved.principal = true → e.key ≠ resolved.key)) ∨
        (principalHasRealm resolved.principal = true ∧ e = resolved)) ∧
      principalHasRealm e.principal = true ∧
        (e.kind = .machine ∨ isNumericLocalPrincipal e.principal = false) := by
  simp only [filedCache, IdCache.pruneNumericUserEntries, IdCache.pruneMalformedPrincipals,
    KeyedMap.values_retain, List.mem_filter] at h
  obtain ⟨⟨hmem, hrealm⟩, hnum⟩ := h
  refine ⟨?_, hrealm, by simpa using hnum⟩
  by_cases hr : principalHasRealm resolved.principal = true
  · rw [if_pos hr, KeyedMap.mem_insert] at hmem
    rcases hmem with ⟨hmem, hkey⟩ | rfl
    · exact Or.inl ⟨hmem, fun _ => hkey⟩
    · exact Or.inr ⟨hr, rfl⟩
  · rw [if_neg hr] at hmem
    exact Or.inl ⟨hmem, fun h => absurd h hr⟩

/-- Warming up SSSD leaves the cache as it is. -/
@[simp] theorem warmSssd_cache (resolved : Resolved) (w : World σ) :
    (warmSssd env resolved w).cache = w.cache := by
  unfold warmSssd
  split <;> rfl

/-- The new cache is the filed one, with the supplemental gids of the new entry rewritten. -/
theorem storeResolved_cache (refresh : World σ → World σ) {resolved : Resolved} (w : World σ)
    (hunknown : resolved.kind = .unknown → principalHasRealm resolved.principal = false) :
    ∃ f : Resolved → List UInt32, (∀ g ∈ f resolved,
        g ∈ (computeGidsForResolved env resolved resolved.principal w.ext).1 ∨
          g ∈ resolved.supplementalGids) ∧
      (storeResolved env refresh resolved w).cache
        = if principalHasRealm resolved.principal then
            (filedCache w.cache resolved).setSupps resolved.key f
          else filedCache w.cache resolved := by
  -- writing the file of the cache leaves the cache alone
  have hcache : ∀ changed : Bool, (if changed then writeCacheFile env (materializeFresh env refresh
      changed resolved { w with cache := filedCache w.cache resolved })
      else materializeFresh env refresh changed resolved
        { w with cache := filedCache w.cache resolved }).cache
      = (materializeFresh env refresh changed resolved
        { w with cache := filedCache w.cache resolved }).cache := by
    intro changed
    split <;> rfl
  simp only [storeResolved, warmSssd_cache, hcache]
  unfold materializeFresh
  by_cases hr : principalHasRealm resolved.principal = true
  · simp only [hr, if_true]
    cases hk : resolved.kind with
    -- the gids of a user are added to the ones at hand
    | user =>
      refine ⟨fun e => mergedSupps e
        (computeGidsForResolved env resolved resolved.principal w.ext).1, ?_, ?_⟩
      · intro g hg
        rcases mem_mergedSupps.mp hg with ⟨hg, -⟩ | hg
        exacts [Or.inl hg, Or.inr hg]
      · simp only [persistFirst_cache]
        rfl
    -- those of a machine take their place
    | machine =>
      refine ⟨fun e => (computeGidsForResolved env resolved resolved.principal w.ext).1.filter
        (· ≠ e.gid), ?_, ?_⟩
      · intro g hg
        exact Or.inl (List.mem_filter.mp hg).1
      · simp only [persistFirst_cache]
        rfl
    -- nobody unknown has a realm
    | unknown =>
      rw [hunknown hk] at hr
      exact absurd hr (by decide)
  · simp only [hr, if_false, Bool.false_eq_true]
    exact ⟨fun _ => [], by simp, trivial⟩

/-- **The cache after a fresh answer was filed** holds entries it had under other keys, and the
answer with supplemental gids that were found for it. -/
theorem mem_storeResolved (refresh : World σ → World σ) {resolved : Resolved} {w : World σ}
    (hunknown : resolved.kind = .unknown → principalHasRealm resolved.principal = false)
    {e : Resolved} (h : e ∈ (storeResolved env refresh resolved w).cache.values) :
    (e ∈ w.cache.values ∧ principalHasRealm e.principal = true ∧
        (principalHasRealm resolved.principal = true → e.key ≠ resolved.key)) ∨
      (principalHasRealm resolved.principal = true ∧
        (resolved.kind = .machine ∨ isNumericLocalPrincipal resolved.principal = false) ∧
        ∃ supps, e = resolved.withSupplementalGids supps ∧
          ∀ g ∈ supps, g ∈ (computeGidsForResolved env resolved resolved.principal w.ext).1 ∨
            g ∈ resolved.supplementalGids) := by
  obtain ⟨f, hf, hcache⟩ := storeResolved_cache env refresh w hunknown
  rw [hcache] at h
  by_cases hr : principalHasRealm resolved.principal = true
  · rw [if_pos hr, IdCache.mem_setSupps] at h
    obtain ⟨e₀, he₀, rfl⟩ := h
    -- an entry under another key stays, the one under the key is the answer
    obtain ⟨hmem, hrealm, hnum⟩ := mem_filedCache he₀
    rcases hmem with ⟨hmem, hkey⟩ | ⟨-, rfl⟩
    · rw [if_neg (hkey hr)]
      exact Or.inl ⟨hmem, hrealm, hkey⟩
    · rw [if_pos rfl]
      exact Or.inr ⟨hr, hnum, f e₀, rfl, hf⟩
  · rw [if_neg hr] at h
    obtain ⟨hmem, hrealm, -⟩ := mem_filedCache h
    rcases hmem with ⟨hmem, -⟩ | ⟨hr', -⟩
    · exact Or.inl ⟨hmem, hrealm, fun hr' => absurd hr' hr⟩
    · exact absurd hr' hr

/-! ## One request -/

/-- The sources that a lookup names. -/
def lookupSources : List Str := ["sss".toList, "extrausers".toList, "nss".toList, "ldap".toList]

/-- What NSS finds has one of the sources of a lookup. -/
theorem source_of_resolveViaNss {d : Disk} {q : Str} {s : σ} {ids : SourcedIds}
    (h : (resolveViaNss env d q s).1 = some ids) :
    ids.2.2 ∈ lookupSources := by
  have hgetent : ∀ name s' ids, (resolveGetent env d name s').1 = some ids →
      ids.2.2 ∈ lookupSources := by
    intro name s' ids hids
    simp only [resolveGetent, Option.or_eq_some_iff, Option.map_eq_some_iff] at hids
    rcases hids with ⟨_, -, rfl⟩ | ⟨-, ⟨_, -, rfl⟩ | ⟨-, _, -, rfl⟩⟩
    all_goals simp [lookupSources]
  simp only [resolveViaNss] at h
  split at h
  · rename_i ids' hids
    obtain rfl : ids' = ids := by simpa using h
    simp only [resolveIdentityCandidates, Option.map_none, ite_self, Option.or_none,
      Option.or_eq_some_iff] at hids
    rcases hids with hids | ⟨-, hids | ⟨-, hids⟩⟩
    · exact hgetent _ _ _ hids
    · split at hids
      · split at hids
        · exact hgetent _ _ _ hids
        · simp at hids
      · simp at hids
    · split at hids
      · obtain ⟨_, -, rfl⟩ := Option.map_eq_some_iff.mp hids
        simp [ldapTagged, lookupSources]
      · simp at hids
  · obtain ⟨_, -, rfl⟩ := Option.map_eq_some_iff.mp h
    simp [ldapTagged, lookupSources]

/-- **The fresh answers**: a machine, a user that was looked up, or nobody to be found; only the
last one with a realm leaves the cache and the disk alone. -/
theorem resolveMiss_cases (refresh : World σ → World σ) (realm : Str) (variants : List Str)
    (q : Str) (w : World σ) :
    ((classifyPrincipal q realm variants).1 = true ∧
        resolveMiss env refresh realm variants q w
          = (machineResolved q, storeResolved env refresh (machineResolved q) w)) ∨
      ((classifyPrincipal q realm variants).1 = false ∧
        ((∃ ids s, (resolveViaNss env w.disk q w.ext).1 = some ids ∧
            resolveMiss env refresh realm variants q w
              = (⟨q, principalLocalPart q, ids.1, ids.2.1, .user, ids.2.2, []⟩,
                storeResolved env refresh
                  ⟨q, principalLocalPart q, ids.1, ids.2.1, .user, ids.2.2, []⟩
                  { w with ext := s })) ∨
          (principalHasRealm q = true ∧ (resolveViaNss env w.disk q w.ext).1 = none ∧
            ∃ s, resolveMiss env refresh realm variants q w
              = (failClosed q, { w with ext := s })) ∨
          (principalHasRealm q = false ∧ (resolveViaNss env w.disk q w.ext).1 = none ∧
            ∃ s, resolveMiss env refresh realm variants q w
              = (nobodyFallback q,
                storeResolved env refresh (nobodyFallback q) { w with ext := s })))) := by
  unfold resolveMiss
  by_cases hm : (classifyPrincipal q realm variants).1 = true
  · refine Or.inl ⟨hm, ?_⟩
    simp only [hm, if_true]
    rfl
  · refine Or.inr ⟨by simpa using hm, ?_⟩
    simp only [hm, if_false, Bool.false_eq_true]
    -- the directory and the system files together, then the two ways of knowing nobody
    rcases resolveUserPath_cases env w.disk q w.ext with
      ⟨ids, hids, ha⟩ | ⟨hnone, hrealm, ha⟩ | ⟨hnone, hrealm, ha⟩
    · refine Or.inl ⟨ids, (resolveUserPath env w.disk q w.ext).2, hids, ?_⟩
      -- the source of an answer is never the closed one
      have hsrc := source_of_resolveViaNss env hids
      rw [ha, if_neg]
      simp only [isUnresolvedFailClosed, decide_eq_true_eq]
      intro hclosed
      rw [hclosed] at hsrc
      revert hsrc
      decide
    · refine Or.inr (Or.inl ⟨hrealm, hnone, (resolveUserPath env w.disk q w.ext).2, ?_⟩)
      rw [ha, if_pos (isUnresolvedFailClosed_failClosed q)]
    · refine Or.inr (Or.inr ⟨hrealm, hnone, (resolveUserPath env w.disk q w.ext).2, ?_⟩)
      rw [ha, isUnresolvedFailClosed_nobodyFallback, if_neg Bool.false_ne_true]

/-- **One request**: numeric principals are rejected, cached ones answered from the cache, and the
rest is resolved afresh. The eviction of a numeric cache hit never happens, because a hit has the
local part of the request. -/
theorem resolvePrincipal_cases (realm : Str) (variants : List Str) {p q : Str}
    (hq : canonicalizePrincipal (trim p) realm = q) (w : World σ) :
    (isNumericLocalPrincipal q = true ∧
        resolvePrincipal env realm variants p w = (rejectedNumeric q, w)) ∨
      (isNumericLocalPrincipal q = false ∧
        ((∃ e, w.cache.get? (normalizePrincipal q) = some e ∧
            resolvePrincipal env realm variants p w
              = ({ e with source := "cache".toList }, w)) ∨
          (w.cache.get? (normalizePrincipal q) = none ∧
            resolvePrincipal env realm variants p w
              = resolveMiss env (refreshWith env id id realm variants) realm variants q w))) := by
  simp only [resolvePrincipal, resolvePrincipalWith, hq]
  by_cases hnum : isNumericLocalPrincipal q = true
  · rw [if_pos hnum]
    exact Or.inl ⟨hnum, rfl⟩
  · rw [if_neg hnum]
    refine Or.inr ⟨by simpa using hnum, ?_⟩
    cases hget : w.cache.get? (normalizePrincipal q) with
    | none => exact Or.inr ⟨rfl, rfl⟩
    | some e =>
      refine Or.inl ⟨e, rfl, ?_⟩
      -- the entry that is found is not numeric either, since it has the key
      have hkey : normalizePrincipal e.principal = normalizePrincipal q :=
        (KeyedMap.get?_eq_some_iff.mp hget).2
      have hnum' : ¬ isNumericLocalPrincipal e.principal = true := by
        rw [← isNumericLocalPrincipal_normalizePrincipal, hkey,
          isNumericLocalPrincipal_normalizePrincipal]
        exact hnum
      dsimp only
      rw [if_neg hnum']

/-- A request with an `@` in it is not for the synthetic root. -/
theorem isRootRequest_of_at {p : Str} (h : '@' ∈ trim p) : isRootRequest p = false := by
  rw [isRootRequest, Bool.or_eq_false_iff]
  constructor
  · rw [eqIgnoreAsciiCase, decide_eq_false_iff_not]
    intro heq
    have hmem : '@' ∈ toAsciiLowercase (trim p) := List.mem_map.mpr ⟨'@', h, by decide⟩
    rw [heq] at hmem
    revert hmem
    decide
  · rw [decide_eq_false_iff_not]
    intro heq
    rw [heq] at h
    revert h
    decide

/-- **Where the gids of an answered group request come from**: those computed for the answer, and
those the cache has for it afterwards. -/
theorem mem_resolveGids (realm : Str) (variants : List Str) {p : Str} {w w₁ : World σ}
    {r : Resolved} (force : Bool) (hroot : isRootRequest p = false)
    (hans : resolvePrincipal env realm variants p w = (r, w₁))
    (hclosed : isUnresolvedFailClosed r = false) {g : UInt32}
    (h : g ∈ (resolveGidsAndMaterialize env realm variants p force w).1) :
    g ∈ (computeGidsForResolved env r p w₁.ext).1 ∨
      ∃ e, w₁.cache.get? (normalizePrincipal r.principal) = some e ∧ g ∈ e.supplementalGids := by
  rw [resolvePrincipal] at hans
  simp only [resolveGidsAndMaterialize, resolveGidsAndMaterializeWith, hroot, hans, hclosed,
    Bool.false_eq_true, if_false, persistSupps] at h
  cases hget : w₁.cache.get? (normalizePrincipal r.principal) with
  | none =>
    simp only [hget] at h
    exact Or.inl h
  | some e =>
    simp only [hget, mem_pushAllNew, mem_mergedSupps] at h
    rcases h with h | ⟨h, -⟩ | h
    · exact Or.inl h
    · exact Or.inl h
    · exact Or.inr ⟨e, rfl, h⟩

/-! ## Group requests and the cache -/

/-- Persisting gids rewrites the entry of the answer and nothing else. -/
theorem persistSupps_cache (r : Resolved) (gids : List UInt32) (w : World σ) :
    (persistSupps env r gids w).2.cache
      = w.cache.setSupps (normalizePrincipal r.principal) fun e => mergedSupps e gids := by
  unfold persistSupps
  cases hget : w.cache.get? (normalizePrincipal r.principal) with
  | none => exact (IdCache.setSupps_of_none _ hget).symm
  | some entry =>
    obtain ⟨hmem, hkey⟩ := KeyedMap.get?_eq_some_iff.mp hget
    -- the entry under the key is the only one that is rewritten
    have hentry : ∀ e ∈ w.cache.values, e.key = normalizePrincipal r.principal → e = entry :=
      fun e he hk => w.cache.eq_of_key_eq he hmem (hk.trans hkey.symm)
    dsimp only
    split
    · refine KeyedMap.ext (List.map_congr_left fun e he => ?_)
      split
      · rename_i hk
        rw [hentry e he hk]
      · rfl
    · rename_i hsame
      refine KeyedMap.ext ((List.map_congr_left fun e he => ?_).trans (List.map_id' _)).symm
      split
      · rename_i hk
        rw [hentry e he hk]
        show entry.withSupplementalGids (mergedSupps entry gids) = entry
        rw [← not_not.mp hsame]
        rfl
      · rfl

/-- Writing the cache file leaves the stores alone. -/
theorem writeToFile_stores (fails : Nat → Bool) (cache : IdCache) (d : Disk) :
    (writeToFile fails cache d).2.files = d.files ∧
      (writeToFile fails cache d).2.writes = d.writes := by
  unfold writeToFile
  split <;> exact ⟨rfl, rfl⟩

/-- Persisting gids leaves the stores alone. -/
theorem persistSupps_disk (r : Resolved) (gids : List UInt32) (w : World σ) :
    (persistSupps env r gids w).2.disk.files = w.disk.files ∧
      (persistSupps env r gids w).2.disk.writes = w.disk.writes := by
  unfold persistSupps
  split
  · dsimp only
    split
    · exact writeToFile_stores _ _ _
    · exact ⟨rfl, rfl⟩
  · exact ⟨rfl, rfl⟩

/-- **The cache after a group request** is the one after the request for the principal, with the
supplemental gids of one entry rewritten. -/
theorem resolveGids_cache (realm : Str) (variants : List Str) (p : Str) (force : Bool)
    (w : World σ) :
    (resolveGidsAndMaterialize env realm variants p force w).2.cache
      = if isRootRequest p then w.cache
        else if isUnresolvedFailClosed (resolvePrincipal env realm variants p w).1 then
          (resolvePrincipal env realm variants p w).2.cache
        else (resolvePrincipal env realm variants p w).2.cache.setSupps
          (normalizePrincipal (resolvePrincipal env realm variants p w).1.principal)
          fun e => mergedSupps e (computeGidsForResolved env
            (resolvePrincipal env realm variants p w).1 p
            (resolvePrincipal env realm variants p w).2.ext).1 := by
  simp only [resolveGidsAndMaterialize, resolveGidsAndMaterializeWith]
  rw [← resolvePrincipal]
  split
  · rfl
  · split
    · rfl
    · have hmat : ∀ (c : Prop) [Decidable c] (r : Resolved) (gids : List UInt32) (w : World σ),
          (if c then ensureNssMaterializedFor env r gids w else w).cache = w.cache := by
        intro c _ r gids w
        split <;> rfl
      rw [hmat, persistSupps_cache]

end

end NfsKlldap
