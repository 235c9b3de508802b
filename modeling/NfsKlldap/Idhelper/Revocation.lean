import NfsKlldap.Idhelper.RealmGuard
import NfsKlldap.Idhelper.Refresh
import NfsKlldap.Idhelper.Reachable

/-! # Revocation through a rebulk

A rebulk seeds users from the directory alone, so a gid that only the old cache knew is gone. Then
the refresh visits every principal and joins what the resolver answers to what the entry has; this
union is `GrownEntry`, and it never drops a gid. Machines are not seeded anew: they go into the
refresh with the gids they had, and **`revoked_iff`** says when that matters. -/

namespace NfsKlldap

open Text

/-! ## What the directory gives to a principal -/

/-- A group of the snapshot lists the principal of an entry. -/
def SnapEdge (snap : IdMapSnapshot) (e : Resolved) (g : UInt32) : Prop :=
  ∃ kv ∈ snap.groups.values, kv.2.gid.toUInt32 = g ∧
    (if e.kind = .machine then kv.2.hitsMachine e.principal
      else kv.2.hitsUser e.name e.principal) = true

/-- The warm pass found the gid for the user. -/
def LiveEdge (live : LiveGroupEdges) (e : Resolved) (g : UInt32) : Prop :=
  ∃ kv, live.get? e.name = some kv ∧ g ∈ kv.2

/-- The gids that the directory gives to the principal of an entry. -/
def Given (snap : IdMapSnapshot) (live : LiveGroupEdges) (e : Resolved) (g : UInt32) : Prop :=
  SnapEdge snap e g ∨ LiveEdge live e g

/-- The supplemental gids of an entry are all given by the directory. -/
def AllGiven (snap : IdMapSnapshot) (live : LiveGroupEdges) (e : Resolved) : Prop :=
  ∀ g ∈ e.supplementalGids, Given snap live e g

/-- A supplementary gid is that of a group with the user in it. -/
theorem mem_supplementalGidsFromSnapshot {short principal : Str} {primary : UInt32}
    {snap : IdMapSnapshot} {g : UInt32}
    (h : g ∈ supplementalGidsFromSnapshot short principal primary snap) :
    ∃ kv ∈ snap.groups.values, kv.2.gid.toUInt32 = g ∧ kv.2.hitsUser short principal = true := by
  rw [supplementalGidsFromSnapshot, mem_sortDedup, List.mem_filterMap] at h
  obtain ⟨kv, hkv, hg⟩ := h
  dsimp only at hg
  split at hg
  · simp at hg
  · split at hg
    · rename_i hhit
      exact ⟨kv, hkv, by simpa using hg, hhit⟩
    · simp at hg

/-- A seeded user has gids of the directory only. -/
theorem allGiven_foldLive_seedEntry (snap : IdMapSnapshot) (live : LiveGroupEdges) (realm : Str)
    (seed : Seed) : AllGiven snap live (foldLive live (seedEntry snap realm seed)) := by
  have hseed : AllGiven snap live (seedEntry snap realm seed) := by
    intro g hg
    obtain ⟨kv, hkv, hgid, hhit⟩ := mem_supplementalGidsFromSnapshot hg
    exact Or.inl ⟨kv, hkv, hgid, hhit⟩
  unfold foldLive
  split
  · exact hseed
  · split
    · rename_i kv hkv
      intro g hg
      simp only [Resolved.withSupplementalGids, mem_sortDedup, mem_pushAllNew, List.mem_filter] at hg
      rcases hg with hg | ⟨hg, -⟩
      · exact hseed g hg
      · exact Or.inr ⟨kv, hkv, hg⟩
    · exact hseed

/-! ## The refresh -/

section

variable {σ : Type*} (env : Env σ)

/-- **A group request for a cached principal** rewrites the supplemental gids of its entry. -/
theorem resolveGids_cache_of_cached (realm : Str) (variants : List Str) (force : Bool) {w : World σ}
    {e : Resolved} (he : e ∈ w.cache.values) (hs : EntrySound e) :
    (resolveGidsAndMaterialize env realm variants e.principal force w).2.cache
      = w.cache.setSupps e.key fun e' => mergedSupps e'
        (computeGidsForResolved env { e with source := "cache".toList } e.principal w.ext).1 := by
  have hroot := isRootRequest_of_at (at_mem_of_principalHasRealm hs.realm)
  have hopen : isUnresolvedFailClosed { e with source := "cache".toList } = false := rfl
  rw [resolveGids_cache, resolvePrincipal_of_cached env realm variants he hs.realm,
    cachedAnswer_of_not_numeric hs.not_numeric, hroot, hopen]
  rfl

/-- An entry after the refresh: nothing is dropped, and what is new was answered by the resolver
for the principal of the entry. -/
structure GrownEntry (e e' : Resolved) : Prop where
  fields : e' = e.withSupplementalGids e'.supplementalGids
  kept : ∀ g ∈ e.supplementalGids, g ∈ e'.supplementalGids
  origin : ∀ g ∈ e'.supplementalGids,
    g ∈ e.supplementalGids ∨ (g ≠ e.gid ∧ ∃ s, g ∈ groupAnswers env e.principal s)

/-- An entry has grown from itself. -/
theorem GrownEntry.refl (e : Resolved) : GrownEntry env e e :=
  ⟨rfl, fun _ hg => hg, fun _ hg => Or.inl hg⟩

/-- What has grown from a grown entry has grown. -/
theorem GrownEntry.trans {a b c : Resolved} (hab : GrownEntry env a b) (hbc : GrownEntry env b c) :
    GrownEntry env a c where
  fields := by
    rw [hbc.fields, hab.fields]
    rfl
  kept g hg := hbc.kept g (hab.kept g hg)
  origin g hg := by
    rcases hbc.origin g hg with hb | ⟨hne, s, hs⟩
    · exact hab.origin g hb
    · rw [hab.fields] at hne hs
      exact Or.inr ⟨hne, s, hs⟩

/-- Entries grow when the gids of a group request are persisted on them. -/
theorem grownEntry_mergedSupps {e : Resolved} (hs : EntrySound e) (s : σ) :
    GrownEntry env e (e.withSupplementalGids (mergedSupps e
      (computeGidsForResolved env { e with source := "cache".toList } e.principal s).1)) where
  fields := rfl
  kept g hg := mem_mergedSupps.mpr (Or.inr hg)
  origin g hg := by
    rcases mem_mergedSupps.mp hg with ⟨hg, hne⟩ | hg
    · rcases mem_computeGids env hg with hprimary | ⟨-, hg⟩ | hans
      · -- the primary gid is the entry's own
        have heq : primaryGid { e with source := "cache".toList } = e.gid := by
          rcases hs.kind with hk | ⟨hk, -, hgid, -⟩
          · rw [primaryGid, if_neg (by rw [hk]; decide)]
          · rw [primaryGid, if_pos hk, hgid]
            rfl
        exact absurd (hprimary.trans heq) hne
      · exact Or.inl hg
      · exact Or.inr ⟨hne, hans⟩
    · exact Or.inl hg

/-- A cache after the refresh, entry by entry. -/
structure GrownCache (c c' : IdCache) : Prop where
  grown : ∀ e ∈ c.values, ∃ e' ∈ c'.values, GrownEntry env e e'
  old : ∀ e' ∈ c'.values, ∃ e ∈ c.values, GrownEntry env e e'

/-- A cache has grown from itself. -/
theorem GrownCache.refl (c : IdCache) : GrownCache env c c :=
  ⟨fun e he => ⟨e, he, .refl env e⟩, fun e he => ⟨e, he, .refl env e⟩⟩

/-- What has grown from a grown cache has grown. -/
theorem GrownCache.trans {a b c : IdCache} (hab : GrownCache env a b) (hbc : GrownCache env b c) :
    GrownCache env a c where
  grown x hx := by
    obtain ⟨y, hy, hxy⟩ := hab.grown x hx
    obtain ⟨z, hz, hyz⟩ := hbc.grown y hy
    exact ⟨z, hz, hxy.trans env hyz⟩
  old z hz := by
    obtain ⟨y, hy, hyz⟩ := hbc.old z hz
    obtain ⟨x, hx, hxy⟩ := hab.old y hy
    exact ⟨x, hx, hxy.trans env hyz⟩

/-- One step of the refresh. -/
theorem grownCache_resolveGids (realm : Str) (variants : List Str) (force : Bool) {w : World σ}
    {e : Resolved} (hw : CacheSound w.cache) (he : e ∈ w.cache.values) :
    GrownCache env w.cache
      (resolveGidsAndMaterialize env realm variants e.principal force w).2.cache := by
  rw [resolveGids_cache_of_cached env realm variants force he (hw e he)]
  -- only the entry of the principal is rewritten
  have hgrown : ∀ x ∈ w.cache.values, GrownEntry env x
      (if x.key = e.key then x.withSupplementalGids (mergedSupps x
        (computeGidsForResolved env { e with source := "cache".toList } e.principal w.ext).1)
      else x) := by
    intro x hx
    split
    · rename_i hkey
      obtain rfl : x = e := w.cache.eq_of_key_eq hx he hkey
      exact grownEntry_mergedSupps env (hw x hx) w.ext
    · exact GrownEntry.refl env x
  constructor
  · intro x hx
    exact ⟨_, IdCache.mem_setSupps.mpr ⟨x, hx, rfl⟩, hgrown x hx⟩
  · intro x' hx'
    obtain ⟨x, hx, rfl⟩ := IdCache.mem_setSupps.mp hx'
    exact ⟨x, hx, hgrown x hx⟩

/-- **The refresh only lets entries grow.** -/
theorem grownCache_refresh {order : List Str → List Str} (horder : ∀ l, (order l).Perm l)
    (realm : Str) (variants : List Str) {w : World σ} (hw : CacheSound w.cache) :
    GrownCache env w.cache
      (refreshSupplementalNssForCachedUsers env order realm variants w).2.cache := by
  refine (refresh_rule env horder realm variants
    (P := fun w' => CacheSound w'.cache ∧ GrownCache env w.cache w'.cache)
    ⟨hw, GrownCache.refl env _⟩ fun w' hw' e he => ?_).2
  have hstep := grownCache_resolveGids env realm variants true hw'.1 he
  refine ⟨⟨entryInvariant_sound.resolveGids env realm variants e.principal true hw'.1,
    hw'.2.trans env hstep⟩, fun x hx => ?_⟩
  -- entries keep their principals, so the rest of the loop finds them too
  obtain ⟨x', hx', hgrown⟩ := hstep.grown x hx
  exact ⟨x', hx', by rw [hgrown.fields]; rfl⟩

/-! ## After a rebulk -/

/-- The resolver answers the group queries for the synced principals with gids that the directory
gives to them, or with their primary gid. -/
def AnswersGiven (order : HashOrder) (realm : Str) (snap : IdMapSnapshot) (live : LiveGroupEdges)
    (w : World σ) : Prop :=
  ∀ e ∈ (syncUserCacheFromSnapshot order.seeds snap realm w.cache live).values, ∀ s,
    ∀ g ∈ groupAnswers env e.principal s, Given snap live e g ∨ g = e.gid

/-- **When a rebulk revokes**: after a successful rebulk of a reachable cache every entry has gids
of this cycle only, exactly when the machines that stay in the cache had none else before. -/
theorem revoked_iff {w : World σ} (hw : Reachable w.cache) (order : HashOrder) (realm : Str)
    (snap : IdMapSnapshot) (live : LiveGroupEdges) {outcome : RebulkOutcome}
    (hok : (rebulkApplySync env order realm snap live w).1 = .ok outcome)
    (hans : AnswersGiven env order realm snap live w) :
    (∀ e ∈ (rebulkApplySync env order realm snap live w).2.cache.values, AllGiven snap live e) ↔
      ∀ e ∈ w.cache.values, e.kind = .machine → ¬ Reseeded snap realm e.key →
        AllGiven snap live e := by
  have hsound := hw.cacheSound
  have hgrown : GrownCache env (syncUserCacheFromSnapshot order.seeds snap realm w.cache live)
      (rebulkApplySync env order realm snap live w).2.cache := by
    rcases rebulkApplySync_cache env order realm snap live w with ⟨⟨err, herr⟩, -⟩ | hcache
    · rw [hok] at herr
      exact absurd herr (by simp)
    · rw [hcache]
      exact grownCache_refresh env order.principals_perm realm env.serverVariants
        (w := syncedWorld env order realm snap live w)
        (entryInvariant_sound.syncUserCache order.seeds_perm snap realm live hsound)
  -- the directory gives the same to an entry before and after the refresh
  have hgiven : ∀ e e' : Resolved, GrownEntry env e e' → ∀ g, Given snap live e' g ↔
      Given snap live e g := by
    intro e e' h g
    rw [h.fields]
    rfl
  constructor
  · intro h e he hk hkey g hg
    have hsync := mem_syncUserCache_of_machine order.seeds_perm snap realm live he hk
      (hsound e he).realm hkey
    obtain ⟨e', he', hgrow⟩ := hgrown.grown e hsync
    exact (hgiven e e' hgrow g).mp (h e' he' g (hgrow.kept g hg))
  · intro h e' he' g hg
    obtain ⟨e, he, hgrow⟩ := hgrown.old e' he'
    rw [hgiven e e' hgrow g]
    rcases hgrow.origin g hg with hold | ⟨hne, s, hs⟩
    · obtain ⟨-, ⟨hk, hmem, hkey⟩ | ⟨-, -, seed, -, rfl⟩⟩ := mem_syncUserCache order.seeds_perm he
      · exact h e hmem hk hkey g hold
      · exact allGiven_foldLive_seedEntry snap live realm seed g hold
    · exact (hans e he s g hs).resolve_right hne

end

/-! ## A machine that left its group -/

/-- Hash maps that happen to enumerate in the order of the lists. -/
def HashOrder.listOrder : HashOrder := ⟨id, fun l => .refl l, id, fun l => .refl l⟩

/-- A resolver that answers from one snapshot, as it does for machines. -/
def snapshotEnv (snap : IdMapSnapshot) : Env Unit :=
  { silentEnv with
    resolverReady := fun s => (true, s)
    snapshot := fun _ => snap
    resolveGroupsForPrincipal := fun p s => (machineGroupGidsForPrincipal p snap, s) }

/-- A directory with one group that lists the host `a`. -/
def nasSnapshot : IdMapSnapshot :=
  ⟨KeyedMap.empty, KeyedMap.empty.insert ("nas".toList, ⟨5000, "nas".toList, ["a".toList]⟩)⟩

/-- The world after a request for `host/a@R` while the directory has the group. -/
def hostWorld : World Unit :=
  (resolvePrincipal (snapshotEnv nasSnapshot) "R".toList [] "host/a@R".toList freshWorld).2

/-- The one entry of its cache. -/
def hostEntry : Resolved :=
  ⟨"host/a@R".toList, "a".toList, 0, 0, .machine, "special".toList, [5000]⟩

/-- The world of the host has one entry. -/
theorem hostWorld_values : hostWorld.cache.values = [hostEntry] := by decide

/-- The world of the host can be reached. -/
theorem reachable_hostWorld : Reachable hostWorld.cache :=
  Reachable.resolve (snapshotEnv nasSnapshot) Reachable.init _ _ _

/-- The group is deleted, and a rebulk over the empty directory leaves its gid on the machine. -/
theorem not_revoked_host :
    Reachable hostWorld.cache ∧
      (rebulkApplySync (snapshotEnv IdMapSnapshot.empty) .listOrder "R".toList IdMapSnapshot.empty
        KeyedMap.empty hostWorld).1 = .ok ⟨0, true⟩ ∧
      AnswersGiven (snapshotEnv IdMapSnapshot.empty) .listOrder "R".toList IdMapSnapshot.empty
        KeyedMap.empty hostWorld ∧
      ¬ ∀ e ∈ (rebulkApplySync (snapshotEnv IdMapSnapshot.empty) .listOrder "R".toList
          IdMapSnapshot.empty KeyedMap.empty hostWorld).2.cache.values,
        AllGiven IdMapSnapshot.empty KeyedMap.empty e := by
  refine ⟨reachable_hostWorld, by decide +kernel, ?_, ?_⟩
  · intro e he s g hg
    have hsync : (syncUserCacheFromSnapshot HashOrder.listOrder.seeds IdMapSnapshot.empty
        "R".toList hostWorld.cache KeyedMap.empty).values = [hostEntry] := by decide
    rw [hsync, List.mem_singleton] at he
    subst he
    exact Or.inr (List.mem_singleton.mp hg)
  · intro h
    have hmem : hostEntry ∈ (rebulkApplySync (snapshotEnv IdMapSnapshot.empty) .listOrder "R".toList
          IdMapSnapshot.empty KeyedMap.empty hostWorld).2.cache.values := by decide +kernel
    rcases h _ hmem 5000 (by decide) with ⟨kv, hkv, -⟩ | ⟨kv, hkv, -⟩
    · simp [IdMapSnapshot.empty] at hkv
    · simp [KeyedMap.get?] at hkv

/-- While the group is there, a rebulk leaves the machine with what the directory gives to it. -/
theorem revoked_host :
    (rebulkApplySync (snapshotEnv nasSnapshot) .listOrder "R".toList nasSnapshot
        KeyedMap.empty hostWorld).1 = .ok ⟨0, false⟩ ∧
      ∀ e ∈ (rebulkApplySync (snapshotEnv nasSnapshot) .listOrder "R".toList nasSnapshot
        KeyedMap.empty hostWorld).2.cache.values, AllGiven nasSnapshot KeyedMap.empty e := by
  have hgiven : ∀ g : UInt32, g = 5000 → Given nasSnapshot KeyedMap.empty hostEntry g := by
    rintro g rfl
    exact Or.inl ⟨("nas".toList, ⟨5000, "nas".toList, ["a".toList]⟩), List.mem_singleton_self _,
      rfl, by decide⟩
  have hok : (rebulkApplySync (snapshotEnv nasSnapshot) .listOrder "R".toList nasSnapshot
      KeyedMap.empty hostWorld).1 = .ok ⟨0, false⟩ := by decide +kernel
  refine ⟨hok, (revoked_iff (snapshotEnv nasSnapshot) reachable_hostWorld .listOrder "R".toList
    nasSnapshot KeyedMap.empty hok ?_).mpr ?_⟩
  · intro e he s g hg
    have hsync : (syncUserCacheFromSnapshot HashOrder.listOrder.seeds nasSnapshot "R".toList
        hostWorld.cache KeyedMap.empty).values = [hostEntry] := by decide
    rw [hsync, List.mem_singleton] at he
    subst he
    have hanswer : groupAnswers (snapshotEnv nasSnapshot) hostEntry.principal s = [0, 5000] := rfl
    rw [hanswer, List.mem_cons, List.mem_singleton] at hg
    rcases hg with hg | hg
    · exact Or.inr hg
    · exact Or.inl (hgiven g hg)
  · intro e he _ _ g hg
    rw [hostWorld_values, List.mem_singleton] at he
    subst he
    exact hgiven g (List.mem_singleton.mp hg)

end NfsKlldap
