import NfsKlldap.Idhelper.Rebulk

/-! # Reachable caches

The daemon starts with an empty cache and serves requests, group requests and rebulks in any order,
while the directory, the commands it calls and the disk change as they please. What every entry of a
reachable cache satisfies is `EntrySound`: it has a realm, its local part is not a number, and it is
a user, or a machine that maps to 0:0 and looks like one.

What is said about single entries is proved once, for every `EntryInvariant`. -/

namespace NfsKlldap

open Text

/-- The caches the daemon can get into. Every step may find another outside world and other files
on disk. -/
inductive Reachable : IdCache → Prop where
  | init : Reachable KeyedMap.empty
  | resolve {σ : Type} (env : Env σ) {w : World σ} (h : Reachable w.cache) (realm : Str)
      (variants : List Str) (request : Str) :
      Reachable (resolvePrincipal env realm variants request w).2.cache
  | gids {σ : Type} (env : Env σ) {w : World σ} (h : Reachable w.cache) (realm : Str)
      (variants : List Str) (request : Str) (force : Bool) :
      Reachable (resolveGidsAndMaterialize env realm variants request force w).2.cache
  | rebulk {σ : Type} (env : Env σ) {w : World σ} (h : Reachable w.cache) (order : HashOrder)
      (realm : Str) (snap : IdMapSnapshot) (live : LiveGroupEdges) :
      Reachable (rebulkApplySync env order realm snap live w).2.cache

/-! ## Sound entries -/

/-- A local part that classification takes for a machine. -/
def IsMachineLocal (l : Str) : Prop :=
  hasMachinePrefix (toAsciiLowercase l) = true ∨ toAsciiLowercase l = "host".toList ∨
    toAsciiLowercase l = "nfs".toList ∨ toAsciiLowercase l = "root".toList

/-- What a reachable entry satisfies, whatever its supplemental gids. -/
structure EntrySound (e : Resolved) : Prop where
  realm : principalHasRealm e.principal = true
  not_numeric : isNumericLocalPrincipal e.principal = false
  kind : e.kind = .user ∨ (e.kind = .machine ∧ e.uid = 0 ∧ e.gid = 0 ∧
    IsMachineLocal (principalLocalPart e.principal))

/-- New gids leave an entry sound. -/
theorem EntrySound.withSupplementalGids {e : Resolved} (h : EntrySound e) (supps : List UInt32) :
    EntrySound (e.withSupplementalGids supps) := ⟨h.realm, h.not_numeric, h.kind⟩

/-- A sound entry is emitted. -/
theorem EntrySound.isEmitted {e : Resolved} (h : EntrySound e) : e.isEmitted = true :=
  Resolved.isEmitted_iff.mpr ⟨h.realm, h.not_numeric⟩

/-- Every entry is sound. -/
def CacheSound (cache : IdCache) : Prop := ∀ e ∈ cache.values, EntrySound e

/-- What classification takes for a machine looks like one. -/
theorem isMachineLocal_of_classify {q realm : Str} {variants : List Str}
    (h : (classifyPrincipal q realm variants).1 = true) :
    IsMachineLocal (principalLocalPart q) := by
  -- a server host name has a machine prefix
  have hvariant : ∀ (pref v l : Str), pref ∈ machinePrincipalPrefixes → l = pref ++ v →
      hasMachinePrefix l = true := by
    rintro pref v l hpref rfl
    rw [hasMachinePrefix, List.any_eq_true]
    exact ⟨pref, hpref, List.isPrefixOf_iff_prefix.mpr (List.prefix_append _ _)⟩
  simp only [classifyPrincipal, principalLocalPart_trim] at h
  split at h
  · rename_i hp
    exact Or.inl hp
  · refine Or.inr (not_not.mp fun hbare => ?_)
    rename_i hp
    have hnone : (variants.find? fun v =>
        toAsciiLowercase (principalLocalPart q) = "host/".toList ++ toAsciiLowercase v
          ∨ toAsciiLowercase (principalLocalPart q) = "nfs/".toList ++ toAsciiLowercase v) = none := by
      rw [List.find?_eq_none]
      intro v _ hv
      rw [decide_eq_true_eq] at hv
      rcases hv with hv | hv
      · exact hp (hvariant _ _ _ (by decide) hv)
      · exact hp (hvariant _ _ _ (by decide) hv)
    rw [hnone] at h
    dsimp only at h
    rw [if_neg hbare, apply_ite Prod.fst, ite_self] at h
    exact absurd h (by simp)

/-- The first letter of a machine is `h`, `n` or `r`. -/
theorem IsMachineLocal.head {l : Str} (h : IsMachineLocal l) :
    ∃ c t, l = c :: t ∧ c.toLower ∈ ['h', 'n', 'r'] := by
  have hhead : ∀ pref : Str, (∃ d ds, pref = d :: ds ∧ d ∈ ['h', 'n', 'r']) →
      pref <+: toAsciiLowercase l → ∃ c t, l = c :: t ∧ c.toLower ∈ ['h', 'n', 'r'] := by
    rintro pref ⟨d, ds, rfl, hd⟩ ⟨t, ht⟩
    cases l with
    | nil => simp [toAsciiLowercase] at ht
    | cons c l =>
      simp only [toAsciiLowercase, List.map_cons, List.cons_append, List.cons.injEq] at ht
      exact ⟨c, l, rfl, ht.1 ▸ hd⟩
  rcases h with h | h | h | h
  · rw [hasMachinePrefix, List.any_eq_true] at h
    obtain ⟨pref, hpref, hp⟩ := h
    refine hhead pref ?_ (List.isPrefixOf_iff_prefix.mp hp)
    simp only [machinePrincipalPrefixes, List.mem_cons, List.not_mem_nil, or_false] at hpref
    rcases hpref with rfl | rfl | rfl
    · exact ⟨'h', "ost/".toList, rfl, by decide⟩
    · exact ⟨'n', "fs/".toList, rfl, by decide⟩
    · exact ⟨'r', "oot/".toList, rfl, by decide⟩
  · exact hhead "host".toList ⟨'h', "ost".toList, rfl, by decide⟩ (h ▸ List.prefix_refl _)
  · exact hhead "nfs".toList ⟨'n', "fs".toList, rfl, by decide⟩ (h ▸ List.prefix_refl _)
  · exact hhead "root".toList ⟨'r', "oot".toList, rfl, by decide⟩ (h ▸ List.prefix_refl _)

/-! ## Entry invariants -/

/-- A property of single entries that every fresh entry has and that does not depend on supplemental
gids: machines, users that a lookup found, and users seeded from the directory. -/
structure EntryInvariant (P : Resolved → Prop) : Prop where
  supps : ∀ {e : Resolved}, P e → ∀ supps, P (e.withSupplementalGids supps)
  machine : ∀ {q : Str}, principalHasRealm q = true → isNumericLocalPrincipal q = false →
    IsMachineLocal (principalLocalPart q) → P (machineResolved q)
  user : ∀ {q : Str} {ids : SourcedIds}, principalHasRealm q = true →
    isNumericLocalPrincipal q = false → ids.2.2 ∈ lookupSources →
    P ⟨q, principalLocalPart q, ids.1, ids.2.1, .user, ids.2.2, []⟩
  seed : ∀ (snap : IdMapSnapshot) (realm : Str) (seed : Seed),
    principalHasRealm (seedEntry snap realm seed).principal = true →
    isNumericLocalPrincipal (seedEntry snap realm seed).principal = false →
    P (seedEntry snap realm seed)

/-- Every entry has the property. -/
def IdCache.All (P : Resolved → Prop) (cache : IdCache) : Prop := ∀ e ∈ cache.values, P e

section

variable {P : Resolved → Prop} (hP : EntryInvariant P)

include hP

/-- Rewriting supplemental gids keeps it. -/
theorem EntryInvariant.setSupps {cache : IdCache} (h : cache.All P) (key : Str)
    (f : Resolved → List UInt32) : (cache.setSupps key f).All P := by
  intro e he
  obtain ⟨e₀, he₀, rfl⟩ := IdCache.mem_setSupps.mp he
  split
  · exact hP.supps (h e₀ he₀) _
  · exact h e₀ he₀

/-- **A sync keeps it.** -/
theorem EntryInvariant.syncUserCache {order : List Seed → List Seed}
    (horder : ∀ l, (order l).Perm l) (snap : IdMapSnapshot) (realm : Str) (live : LiveGroupEdges)
    {cache : IdCache} (h : cache.All P) :
    (syncUserCacheFromSnapshot order snap realm cache live).All P := by
  intro e he
  obtain ⟨hrealm, ⟨-, hmem, -⟩ | ⟨-, hnum, seed, -, rfl⟩⟩ := mem_syncUserCache horder he
  · exact h e hmem
  · have hfields := foldLive_fields live (seedEntry snap realm seed)
    rw [hfields] at hrealm hnum ⊢
    exact hP.supps (hP.seed snap realm seed hrealm hnum) _

variable {σ : Type*} (env : Env σ)

/-- Filing an answer that has the property if it is to be cached keeps it. -/
theorem EntryInvariant.storeResolved (refresh : World σ → World σ) (resolved : Resolved)
    (w : World σ) (h : w.cache.All P) (hunknown : resolved.kind = .unknown →
      principalHasRealm resolved.principal = false)
    (hres : principalHasRealm resolved.principal = true → P resolved) :
    (NfsKlldap.storeResolved env refresh resolved w).cache.All P := by
  intro e he
  rcases mem_storeResolved env refresh hunknown he with ⟨hmem, -, -⟩ | ⟨hr, -, supps, rfl, -⟩
  · exact h e hmem
  · exact hP.supps (hres hr) supps

/-- **A request keeps it.** -/
theorem EntryInvariant.resolvePrincipal (realm : Str) (variants : List Str) (p : Str)
    {w : World σ} (h : w.cache.All P) :
    (NfsKlldap.resolvePrincipal env realm variants p w).2.cache.All P := by
  -- only a miss files anything
  rcases resolvePrincipal_cases env realm variants (p := p) rfl w with
    ⟨-, hres⟩ | ⟨hnum, ⟨e, -, hres⟩ | ⟨-, hres⟩⟩
  · rw [hres]
    exact h
  · rw [hres]
    exact h
  · rw [hres]
    -- a machine and a user that was found are as required; without a realm nothing is filed
    rcases resolveMiss_cases env (refreshWith env id id realm variants) realm variants
        (canonicalizePrincipal (trim p) realm) w with
      ⟨hm, hmiss⟩ | ⟨-, ⟨ids, s, hids, hmiss⟩ | ⟨-, -, s, hmiss⟩ | ⟨hno, -, s, hmiss⟩⟩
    · rw [hmiss]
      dsimp only
      exact hP.storeResolved env _ _ _ h (fun hk => nomatch hk)
        fun hr => hP.machine hr hnum (isMachineLocal_of_classify hm)
    · rw [hmiss]
      dsimp only
      exact hP.storeResolved env _ _ _ h (fun hk => nomatch hk)
        fun hr => hP.user hr hnum (source_of_resolveViaNss env hids)
    · rw [hmiss]
      exact h
    · rw [hmiss]
      dsimp only
      refine hP.storeResolved env _ _ _ h (fun _ => hno) fun hr => ?_
      exact absurd (hno.symm.trans hr) (by decide)

/-- **A group request keeps it.** -/
theorem EntryInvariant.resolveGids (realm : Str) (variants : List Str) (p : Str) (force : Bool)
    {w : World σ} (h : w.cache.All P) :
    (resolveGidsAndMaterialize env realm variants p force w).2.cache.All P := by
  have hres := hP.resolvePrincipal env realm variants p h
  rw [resolveGids_cache]
  split
  · exact h
  · split
    · exact hres
    · exact hP.setSupps hres _ _

/-- The refresh loop keeps it. -/
theorem EntryInvariant.refresh (order : List Str → List Str) (realm : Str) (variants : List Str)
    {w : World σ} (h : w.cache.All P) :
    (refreshSupplementalNssForCachedUsers env order realm variants w).2.cache.All P := by
  rw [refreshSupplementalNssForCachedUsers_snd]
  generalize order (refreshPrincipals w.cache) = ps
  induction ps generalizing w with
  | nil => exact h
  | cons p ps ih => exact ih (hP.resolveGids env realm variants p true h)

/-- **Every entry of a reachable cache has it.** -/
theorem EntryInvariant.reachable {cache : IdCache} (h : Reachable cache) : cache.All P := by
  induction h with
  | init =>
    intro e he
    simp at he
  | resolve env _ realm variants request ih => exact hP.resolvePrincipal env realm variants request ih
  | gids env _ realm variants request force ih =>
    exact hP.resolveGids env realm variants request force ih
  | rebulk env _ order realm snap live ih =>
    have hsync := hP.syncUserCache order.seeds_perm snap realm live ih
    rcases rebulkApplySync_cache env order realm snap live _ with ⟨-, hcache⟩ | hcache
    · rw [hcache]
      exact hsync
    · rw [hcache]
      exact hP.refresh env _ _ _ hsync

end

/-! ## Every run -/

/-- Every entry that is filed is sound. -/
theorem entryInvariant_sound : EntryInvariant EntrySound where
  supps h supps := h.withSupplementalGids supps
  machine hr hnum hm := ⟨hr, hnum, Or.inr ⟨rfl, rfl, rfl, hm⟩⟩
  user hr hnum _ := ⟨hr, hnum, Or.inl rfl⟩
  seed _ _ _ hr hnum := ⟨hr, hnum, Or.inl rfl⟩

/-- **Every reachable cache is sound.** -/
theorem Reachable.cacheSound {cache : IdCache} (h : Reachable cache) : CacheSound cache :=
  entryInvariant_sound.reachable h

end NfsKlldap
