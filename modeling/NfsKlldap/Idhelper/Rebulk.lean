import NfsKlldap.Idhelper.ResolveSpec

/-! # Rebulk (`sync_user_cache_from_snapshot`, `rebulk_apply_sync`)

A rebulk replaces the users of the cache by those of a directory snapshot, folds in the group edges
that were resolved live, and writes the stores in three passes: from the synced cache, principal by
principal in the refresh, and once more from the refreshed cache.

Hash maps are enumerated twice along the way, over the seeds and over the cache. The order is
unspecified and a parameter here (`HashOrder`): any permutation will do. -/

namespace NfsKlldap

open Text

/-- Live per-user group edges from the warm pass: short name to gids. -/
abbrev LiveGroupEdges := KeyedMap (Prod.fst : Str × List UInt32 → Str)

/-! ## Sorted gids -/

/-- Drop adjacent repetitions (`Vec::dedup`). -/
def dedupAdjacent : List UInt32 → List UInt32
  | [] => []
  | [a] => [a]
  | a :: b :: l => if a = b then dedupAdjacent (b :: l) else a :: dedupAdjacent (b :: l)

/-- Dropping neighbours that are equal loses no gid. -/
theorem mem_dedupAdjacent {l : List UInt32} {g : UInt32} : g ∈ dedupAdjacent l ↔ g ∈ l := by
  induction l using dedupAdjacent.induct with
  | case1 => rfl
  | case2 a => rfl
  | case3 b l ih =>
    rw [dedupAdjacent, if_pos rfl, ih]
    simp
  | case4 a b l hne ih =>
    rw [dedupAdjacent, if_neg hne, List.mem_cons, ih, List.mem_cons (a := g) (b := a)]

/-- In an ascending list every repetition is adjacent. -/
theorem pairwise_dedupAdjacent {l : List UInt32} (h : l.Pairwise (· ≤ ·)) :
    (dedupAdjacent l).Pairwise (· < ·) := by
  induction l using dedupAdjacent.induct with
  | case1 => exact List.Pairwise.nil
  | case2 a => exact List.pairwise_singleton _ _
  | case3 b l ih =>
    rw [dedupAdjacent, if_pos rfl]
    exact ih (List.pairwise_cons.mp h).2
  | case4 a b l hne ih =>
    rw [dedupAdjacent, if_neg hne]
    obtain ⟨ha, hbl⟩ := List.pairwise_cons.mp h
    refine List.pairwise_cons.mpr ⟨fun x hx => ?_, ih hbl⟩
    have hab : a < b := UInt32.lt_of_le_of_ne (ha b List.mem_cons_self) hne
    rcases List.mem_cons.mp (mem_dedupAdjacent.mp hx) with rfl | hx
    · exact hab
    · exact UInt32.lt_of_lt_of_le hab ((List.pairwise_cons.mp hbl).1 x hx)

/-- Sort and drop repetitions. -/
def sortDedup (l : List UInt32) : List UInt32 := dedupAdjacent (l.insertionSort (· ≤ ·))

/-- Sorting and dropping duplicates loses no gid. -/
@[simp] theorem mem_sortDedup {l : List UInt32} {g : UInt32} : g ∈ sortDedup l ↔ g ∈ l := by
  rw [sortDedup, mem_dedupAdjacent, List.mem_insertionSort]

/-- A sorted list without duplicates has none. -/
theorem nodup_sortDedup (l : List UInt32) : (sortDedup l).Nodup :=
  (pairwise_dedupAdjacent (List.pairwise_insertionSort _ _)).imp fun h => UInt32.ne_of_lt h

/-! ## Seeds -/

/-- A row of `best_per_uid`: a user to seed, filed under its directory uid. -/
structure Seed where
  ldapUid : Int32
  name : Str
  uid : UInt32
  gid : UInt32
  deriving DecidableEq, Repr

/-- The orders in which a rebulk enumerates its hash maps: the seeds and the cache. -/
structure HashOrder where
  seeds : List Seed → List Seed
  seeds_perm : ∀ l, (seeds l).Perm l
  principals : List Str → List Str
  principals_perm : ∀ l, (principals l).Perm l

/-- The directory key of a machine account. -/
def isMachineKey (key : Str) : Bool :=
  '/' ∈ key && machinePrincipalPrefixes.any fun pref => pref.isPrefixOf key

/-- File one directory user: one entry per uid, short names before qualified ones. -/
def seedStep (best : KeyedMap Seed.ldapUid) (kv : Str × PosixUserEntry) :
    KeyedMap Seed.ldapUid :=
  if kv.2.uid = 0 then best
  else if isMachineKey kv.1 then best
  else
    let short := principalLocalPart kv.1
    match best.get? kv.2.uid with
    | some _ => best.modify kv.2.uid
        (fun s => if '@' ∉ kv.1 ∧ '@' ∈ s.name then { s with name := short } else s)
        fun s => by split <;> rfl
    | none => best.insert ⟨kv.2.uid, short, kv.2.uid.toUInt32, kv.2.gid.toUInt32⟩

/-- The users to seed, one per directory uid. -/
def bestPerUid (snap : IdMapSnapshot) : KeyedMap Seed.ldapUid :=
  snap.users.values.foldl seedStep KeyedMap.empty

/-- A group lists a user: under its short name, its principal or the login of its principal. -/
def PosixGroupEntry.hitsUser (entry : PosixGroupEntry) (short principal : Str) : Bool :=
  entry.members.any fun m =>
    let m := trim m
    m = short || m = principal || m = principalRealmLoginForNss principal

/-- Supplemental gids from snapshot group membership. -/
def supplementalGidsFromSnapshot (short principal : Str) (primaryGid : UInt32)
    (snap : IdMapSnapshot) : List UInt32 :=
  sortDedup (snap.groups.values.filterMap fun kv =>
    let g := kv.2.gid.toUInt32
    if g = 0 ∨ g = primaryGid then none
    else if kv.2.hitsUser short principal then some g else none)

/-- The cache entry of a seed. -/
def seedEntry (snap : IdMapSnapshot) (realm : Str) (seed : Seed) : Resolved :=
  let principal := seed.name ++ '@' :: realm
  ⟨principal, seed.name, seed.uid, seed.gid, .user, "bulk".toList,
    supplementalGidsFromSnapshot seed.name principal seed.gid snap⟩

/-- Insert the directory users of a snapshot into the cache. -/
def seedCacheAndNssFromSnapshot (order : List Seed → List Seed) (snap : IdMapSnapshot) (realm : Str)
    (cache : IdCache) : IdCache :=
  (order (bestPerUid snap).values).foldl (fun c seed => c.insert (seedEntry snap realm seed)) cache

/-! ## Sync -/

/-- Fold live edges into the supplemental gids of one realm user. -/
def foldLive (live : LiveGroupEdges) (e : Resolved) : Resolved :=
  if e.kind ≠ .user ∨ !principalHasRealm e.principal then e
  else
    match live.get? e.name with
    | some kv => e.withSupplementalGids (sortDedup
        (pushAllNew e.supplementalGids (kv.2.filter fun g => g ≠ 0 ∧ g ≠ e.gid)))
    | none => e

/-- The live gids leave the key as it is. -/
theorem key_foldLive (live : LiveGroupEdges) (e : Resolved) : (foldLive live e).key = e.key := by
  unfold foldLive
  split
  · rfl
  · split <;> rfl

/-- Prune stale directory users, seed the current ones, fold in live edges, and drop malformed and
numeric rows. Machine principals are kept. -/
def syncUserCacheFromSnapshot (order : List Seed → List Seed) (snap : IdMapSnapshot) (realm : Str)
    (cache : IdCache) (live : LiveGroupEdges) : IdCache :=
  let cache := seedCacheAndNssFromSnapshot order snap realm (IdCache.pruneNonMachineUsers cache)
  let cache := cache.mapValues (foldLive live) (key_foldLive live)
  IdCache.pruneNumericUserEntries (IdCache.pruneMalformedPrincipals cache)

/-- Seeds have the local part of a directory key for a name. -/
theorem exists_key_of_seed {snap : IdMapSnapshot} {seed : Seed}
    (h : seed ∈ (bestPerUid snap).values) : ∃ key, seed.name = principalLocalPart key := by
  have hfold : ∀ (kvs : List (Str × PosixUserEntry)) (best : KeyedMap Seed.ldapUid),
      (∀ s ∈ best.values, ∃ key, s.name = principalLocalPart key) →
        ∀ s ∈ (kvs.foldl seedStep best).values, ∃ key, s.name = principalLocalPart key := by
    intro kvs
    induction kvs with
    | nil => exact fun _ hbest => hbest
    | cons kv kvs ih =>
      intro best hbest
      refine ih _ fun s hs => ?_
      unfold seedStep at hs
      split at hs
      · exact hbest s hs
      · split at hs
        · exact hbest s hs
        · dsimp only at hs
          split at hs
          · rw [KeyedMap.values_modify, List.mem_map] at hs
            obtain ⟨s₀, hs₀, rfl⟩ := hs
            split
            · split
              · exact ⟨kv.1, rfl⟩
              · exact hbest s₀ hs₀
            · exact hbest s₀ hs₀
          · rcases KeyedMap.mem_insert.mp hs with ⟨hs, -⟩ | rfl
            · exact hbest s hs
            · exact ⟨kv.1, rfl⟩
  exact hfold _ _ (by simp) seed h

/-- A user of the snapshot is seeded under the key. -/
def Reseeded (snap : IdMapSnapshot) (realm key : Str) : Prop :=
  ∃ seed ∈ (bestPerUid snap).values, (seedEntry snap realm seed).key = key

/-- Whether an entry is seeded again can be decided. -/
instance (snap : IdMapSnapshot) (realm key : Str) : Decidable (Reseeded snap realm key) :=
  inferInstanceAs (Decidable (∃ seed ∈ (bestPerUid snap).values, _))

/-- No two users of the snapshot are seeded under one key. -/
def SeedsSeparated (snap : IdMapSnapshot) (realm : Str) : Prop :=
  ((bestPerUid snap).values.map fun seed => (seedEntry snap realm seed).key).Nodup

/-- Whether the seeds are separated can be decided. -/
instance (snap : IdMapSnapshot) (realm : Str) : Decidable (SeedsSeparated snap realm) :=
  inferInstanceAs (Decidable (List.Nodup _))

/-- A machine gets no live gids. -/
theorem foldLive_of_machine (live : LiveGroupEdges) {e : Resolved} (h : e.kind = .machine) :
    foldLive live e = e := by
  rw [foldLive, if_pos (Or.inl (by rw [h]; decide))]

/-- Live edges go into the supplemental gids. -/
theorem foldLive_fields (live : LiveGroupEdges) (e : Resolved) :
    foldLive live e = e.withSupplementalGids (foldLive live e).supplementalGids := by
  unfold foldLive
  split
  · rfl
  · split <;> rfl

/-- The live gids leave the kind as it is. -/
theorem foldLive_kind (live : LiveGroupEdges) (e : Resolved) : (foldLive live e).kind = e.kind := by
  rw [foldLive_fields]
  rfl

section

variable {order : List Seed → List Seed} (horder : ∀ l, (order l).Perm l) {snap : IdMapSnapshot}
  {realm : Str} {cache : IdCache} {live : LiveGroupEdges} {e : Resolved}

include horder

/-- **A synced cache** holds the machines it had, unless a user took their key, and the seeded
users. -/
theorem mem_syncUserCache
    (h : e ∈ (syncUserCacheFromSnapshot order snap realm cache live).values) :
    principalHasRealm e.principal = true ∧
      ((e.kind = .machine ∧ e ∈ cache.values ∧ ¬ Reseeded snap realm e.key) ∨
        (e.kind = .user ∧ isNumericLocalPrincipal e.principal = false ∧
          ∃ seed ∈ (bestPerUid snap).values, e = foldLive live (seedEntry snap realm seed))) := by
  simp only [syncUserCacheFromSnapshot, IdCache.pruneNumericUserEntries,
    IdCache.pruneMalformedPrincipals, KeyedMap.values_retain, KeyedMap.values_mapValues,
    List.mem_filter, List.mem_map] at h
  obtain ⟨⟨⟨x, hx, rfl⟩, hrealm⟩, hnum⟩ := h
  refine ⟨hrealm, ?_⟩
  rcases KeyedMap.mem_foldl_insert hx with ⟨hx, hne⟩ | ⟨seed, hs, rfl⟩
  · simp only [IdCache.pruneNonMachineUsers, KeyedMap.values_retain, List.mem_filter,
      decide_eq_true_eq] at hx
    rw [foldLive_of_machine live hx.2]
    refine Or.inl ⟨hx.2, hx.1, ?_⟩
    rintro ⟨seed, hseed, hkey⟩
    exact hne seed ((horder _).mem_iff.mpr hseed) hkey
  · have hkind : (foldLive live (seedEntry snap realm seed)).kind = .user := foldLive_kind live _
    refine Or.inr ⟨hkind, ?_, seed, (horder _).mem_iff.mp hs, rfl⟩
    simpa [hkind] using hnum

/-- A sync keeps the machines whose keys no user takes. -/
theorem mem_syncUserCache_of_machine (snap : IdMapSnapshot) (realm : Str) (live : LiveGroupEdges)
    (hmem : e ∈ cache.values) (hk : e.kind = .machine)
    (hrealm : principalHasRealm e.principal = true) (hkey : ¬ Reseeded snap realm e.key) :
    e ∈ (syncUserCacheFromSnapshot order snap realm cache live).values := by
  simp only [syncUserCacheFromSnapshot, IdCache.pruneNumericUserEntries,
    IdCache.pruneMalformedPrincipals, KeyedMap.values_retain, KeyedMap.values_mapValues,
    List.mem_filter, List.mem_map]
  refine ⟨⟨⟨e, ?_, foldLive_of_machine live hk⟩, hrealm⟩, by simp [hk]⟩
  refine KeyedMap.mem_foldl_insert_of_ne ?_ ?_
  · simp only [IdCache.pruneNonMachineUsers, KeyedMap.values_retain, List.mem_filter,
      decide_eq_true_eq]
    exact ⟨hmem, hk⟩
  · intro seed hseed heq
    exact hkey ⟨seed, (horder _).mem_iff.mp hseed, heq⟩

/-- A sync seeds every user when no two of them share a key. -/
theorem mem_syncUserCache_of_seed (hsep : SeedsSeparated snap realm) (cache : IdCache)
    (live : LiveGroupEdges) {seed : Seed} (hseed : seed ∈ (bestPerUid snap).values)
    (hrealm : principalHasRealm (foldLive live (seedEntry snap realm seed)).principal = true)
    (hnum : isNumericLocalPrincipal (foldLive live (seedEntry snap realm seed)).principal = false) :
    foldLive live (seedEntry snap realm seed)
      ∈ (syncUserCacheFromSnapshot order snap realm cache live).values := by
  simp only [syncUserCacheFromSnapshot, IdCache.pruneNumericUserEntries,
    IdCache.pruneMalformedPrincipals, KeyedMap.values_retain, KeyedMap.values_mapValues,
    List.mem_filter, List.mem_map]
  refine ⟨⟨⟨seedEntry snap realm seed, ?_, rfl⟩, hrealm⟩, by simp [hnum]⟩
  exact KeyedMap.mem_foldl_insert_of_nodup (((horder _).map _).nodup_iff.mpr hsep)
    ((horder _).mem_iff.mpr hseed)

end

/-- Reports how many users were synced and whether a store was written. -/
structure RebulkOutcome where
  synced : Nat
  materialized : Bool
  deriving DecidableEq, Repr

section

variable {σ : Type*} (env : Env σ)

/-- Sync a directory snapshot to the cache and materialize the stores. -/
def rebulkApplySync (order : HashOrder) (realm : Str) (snap : IdMapSnapshot)
    (live : LiveGroupEdges) (w : World σ) : Except DiskError RebulkOutcome × World σ :=
  let cache := syncUserCacheFromSnapshot order.seeds snap realm w.cache live
  let userChanged := w.cache.contentFingerprint ≠ cache.contentFingerprint
  let first := materializeNssWrappersAt env.fails cache (some snap.groups) w.disk
  let w := { w with cache := cache, disk := first.2 }
  match first.1 with
  | .error e => (.error e, w)
  | .ok wroteFirst =>
    let refreshed := refreshSupplementalNssForCachedUsers env order.principals realm
      env.serverVariants w
    let last := materializeNssWrappersAt env.fails refreshed.2.cache (some snap.groups)
      refreshed.2.disk
    let w := { refreshed.2 with disk := last.2 }
    match last.1 with
    | .error e => (.error e, w)
    | .ok wroteLast =>
      let outcome : RebulkOutcome :=
        ⟨(bestPerUid snap).values.length, wroteFirst || refreshed.1 || wroteLast⟩
      if userChanged then
        let file := writeToFile env.fails w.cache w.disk
        let w := { w with disk := file.2 }
        match file.1 with
        | .error e => (.error e, w)
        | .ok _ => (.ok outcome, w)
      else (.ok outcome, w)

/-- The world after the first write of a rebulk. -/
def syncedWorld (order : HashOrder) (realm : Str) (snap : IdMapSnapshot) (live : LiveGroupEdges)
    (w : World σ) : World σ :=
  let cache := syncUserCacheFromSnapshot order.seeds snap realm w.cache live
  ⟨cache, (materializeNssWrappersAt env.fails cache (some snap.groups) w.disk).2, w.ext⟩

/-- The cache after a rebulk is the synced cache when the first write failed, else the refreshed
one. -/
theorem rebulkApplySync_cache (order : HashOrder) (realm : Str) (snap : IdMapSnapshot)
    (live : LiveGroupEdges) (w : World σ) :
    ((∃ e, (rebulkApplySync env order realm snap live w).1 = .error e) ∧
      (rebulkApplySync env order realm snap live w).2.cache
        = (syncedWorld env order realm snap live w).cache) ∨
      (rebulkApplySync env order realm snap live w).2.cache
        = (refreshSupplementalNssForCachedUsers env order.principals realm env.serverVariants
          (syncedWorld env order realm snap live w)).2.cache := by
  unfold rebulkApplySync
  dsimp only
  split
  · exact Or.inl ⟨⟨_, rfl⟩, rfl⟩
  · refine Or.inr ?_
    split
    · rfl
    · split
      · split <;> rfl
      · rfl

end

end NfsKlldap
