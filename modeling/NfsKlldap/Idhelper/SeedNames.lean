import NfsKlldap.Idhelper.Rebulk

/-! # The names that users are seeded with (`seed_cache_and_nss_from_snapshot`)

A directory uid may have several keys in a snapshot: its POSIX name and the principals it is also
known under. The fold over the keys means to prefer the POSIX name, but a candidate is already cut
down to a local part when it is looked at, so the first key of a uid stands.

* **`mem_bestPerUid_iff`** — the candidate of a uid is its first key;
* **`SeedsPosixNames`** — the users of a seeded cache are those of the snapshot under POSIX names. -/

namespace NfsKlldap

open Text

/-! ## The first key of a uid -/

/-- A key of the snapshot that a user with this uid can be seeded from. -/
def seedsUid (uid : Int32) (kv : Str × PosixUserEntry) : Bool :=
  kv.2.uid = uid && (uid ≠ 0 && !isMachineKey kv.1)

/-- The candidate that a key gives. -/
def seedOfKey (kv : Str × PosixUserEntry) : Seed :=
  ⟨kv.2.uid, principalLocalPart kv.1, kv.2.uid.toUInt32, kv.2.gid.toUInt32⟩

/-- A candidate without an `@` in its name is not replaced. -/
theorem seedStep_eq {best : KeyedMap Seed.ldapUid} (hbest : ∀ s ∈ best.values, '@' ∉ s.name)
    (kv : Str × PosixUserEntry) :
    seedStep best kv =
      if seedsUid kv.2.uid kv ∧ best.get? kv.2.uid = none then best.insert (seedOfKey kv)
      else best := by
  rw [seedStep, seedsUid]
  by_cases huid : kv.2.uid = 0
  · rw [if_pos huid, if_neg (by simp [huid])]
  by_cases hmachine : isMachineKey kv.1 = true
  · rw [if_neg huid, if_pos hmachine, if_neg (by simp [hmachine])]
  rw [if_neg huid, if_neg hmachine]
  cases hget : best.get? kv.2.uid with
  | none =>
    rw [if_pos ⟨by simp [huid, hmachine], rfl⟩]
    rfl
  | some s =>
    rw [if_neg (by simp)]
    refine KeyedMap.ext ?_
    rw [KeyedMap.values_modify, List.map_congr_left (g := id) ?_, List.map_id]
    intro s' hs'
    split_ifs with _ hat
    · exact absurd hat.2 (hbest s' hs')
    · rfl
    · rfl

/-- The candidates after some keys: those there were, and the first keys of the other uids. -/
theorem get?_foldl_seedStep {kvs : List (Str × PosixUserEntry)} {best : KeyedMap Seed.ldapUid}
    (hbest : ∀ s ∈ best.values, '@' ∉ s.name) (uid : Int32) :
    (kvs.foldl seedStep best).get? uid =
      (best.get? uid).or ((kvs.find? (seedsUid uid)).map seedOfKey) := by
  induction kvs generalizing best with
  | nil => simp
  | cons kv kvs ih =>
    rw [List.foldl_cons, seedStep_eq hbest, List.find?_cons]
    -- a key is taken when its uid is new, and passed over otherwise
    by_cases hnew : seedsUid kv.2.uid kv ∧ best.get? kv.2.uid = none
    -- a stored name is a local part, so that no later key replaces it
    · have hinsert : ∀ s ∈ (best.insert (seedOfKey kv)).values, '@' ∉ s.name := by
        intro s hs
        rcases KeyedMap.mem_insert.mp hs with ⟨hs, -⟩ | rfl
        · exact hbest s hs
        · exact at_not_mem_principalLocalPart kv.1
      have hkey : (seedOfKey kv).ldapUid = kv.2.uid := rfl
      rw [if_pos hnew, ih hinsert, KeyedMap.get?_insert, hkey]
      by_cases huid : kv.2.uid = uid
      · subst huid
        rw [if_pos rfl, hnew.1, hnew.2]
        rfl
      · have hother : seedsUid uid kv = false := by simp [seedsUid, huid]
        rw [if_neg huid, hother]
    · rw [if_neg hnew, ih hbest]
      by_cases hseeds : seedsUid uid kv = true
      · obtain rfl : kv.2.uid = uid := by
          rw [seedsUid, Bool.and_eq_true, decide_eq_true_eq] at hseeds
          exact hseeds.1
        obtain ⟨s, hs⟩ := Option.ne_none_iff_exists'.mp fun hnone => hnew ⟨hseeds, hnone⟩
        rw [hs]
        rfl
      · rw [Bool.not_eq_true] at hseeds
        rw [hseeds]

/-- **The candidate of a uid**: what its first key gives. -/
theorem mem_bestPerUid_iff {snap : IdMapSnapshot} {s : Seed} :
    s ∈ (bestPerUid snap).values ↔
      ∃ kv, snap.users.values.find? (seedsUid s.ldapUid) = some kv ∧ s = seedOfKey kv := by
  have hget : (bestPerUid snap).get? s.ldapUid =
      (snap.users.values.find? (seedsUid s.ldapUid)).map seedOfKey := by
    rw [bestPerUid, get?_foldl_seedStep (by simp)]
    rfl
  have hmem : s ∈ (bestPerUid snap).values ↔ (bestPerUid snap).get? s.ldapUid = some s := by
    rw [KeyedMap.get?_eq_some_iff, and_iff_left rfl]
  rw [hmem, hget, Option.map_eq_some_iff]
  exact exists_congr fun kv => and_congr_right fun _ => eq_comm

/-! ## POSIX names -/

/-- **A snapshot with POSIX names**: a uid has one key without an `@`, and no key is that of a
machine. -/
structure IdMapSnapshot.PosixNamed (snap : IdMapSnapshot) : Prop where
  named : ∀ kv ∈ snap.users.values, kv.2.uid ≠ 0 →
    ∃ kv' ∈ snap.users.values, kv'.2.uid = kv.2.uid ∧ '@' ∉ kv'.1
  unique : ∀ kv ∈ snap.users.values, ∀ kv' ∈ snap.users.values, kv.2.uid ≠ 0 →
    kv'.2.uid = kv.2.uid → '@' ∉ kv.1 → '@' ∉ kv'.1 → kv' = kv
  machineFree : ∀ kv ∈ snap.users.values, isMachineKey kv.1 = false

/-- A key is the POSIX name of a user other than root. -/
def IdMapSnapshot.NamesUser (snap : IdMapSnapshot) (kv : Str × PosixUserEntry) : Prop :=
  kv ∈ snap.users.values ∧ kv.2.uid ≠ 0 ∧ '@' ∉ kv.1

/-- The cache entry of a user under its POSIX name. -/
def posixEntry (snap : IdMapSnapshot) (realm : Str) (kv : Str × PosixUserEntry) : Resolved :=
  seedEntry snap realm ⟨kv.2.uid, kv.1, kv.2.uid.toUInt32, kv.2.gid.toUInt32⟩

/-- **The seeded cache**: to what was there an entry is added for every user, under its POSIX name
and with its gids. -/
def SeedsPosixNames (snap : IdMapSnapshot) (realm : Str) (cache seeded : IdCache) : Prop :=
  ∀ e, e ∈ seeded.values ↔
    (e ∈ cache.values ∧ ∀ kv, snap.NamesUser kv → (posixEntry snap realm kv).key ≠ e.key) ∨
      ∃ kv, snap.NamesUser kv ∧ e = posixEntry snap realm kv

/-- The first key of a user that is enumerated stands for its POSIX name: its local part is that
name, and it has the same gid. -/
def FirstKeysPosix (snap : IdMapSnapshot) : Prop :=
  ∀ kv, snap.NamesUser kv →
    ∃ first, (snap.users.values.find? fun kv' => kv'.2.uid = kv.2.uid) = some first ∧
      principalLocalPart first.1 = kv.1 ∧ first.2.gid = kv.2.gid

/-- Without machines a uid is seeded from its first key. -/
theorem IdMapSnapshot.PosixNamed.find?_seedsUid {snap : IdMapSnapshot} (h : snap.PosixNamed)
    {uid : Int32} (huid : uid ≠ 0) :
    snap.users.values.find? (seedsUid uid) = snap.users.values.find? fun kv => kv.2.uid = uid := by
  refine List.find?_congr fun kv hkv => ?_
  simp [seedsUid, huid, h.machineFree kv hkv]

/-- Directory ids are cast bit for bit. -/
theorem toUInt32_injective : Function.Injective Int32.toUInt32 := fun ⟨_⟩ ⟨_⟩ h =>
  congrArg Int32.ofUInt32 h

/-- A candidate stands for a POSIX name when the first key does. -/
theorem posixEntry_eq_seedEntry_iff {snap : IdMapSnapshot} {realm : Str}
    {kv first : Str × PosixUserEntry} :
    posixEntry snap realm kv = seedEntry snap realm (seedOfKey first) ↔
      first.2.uid = kv.2.uid ∧ principalLocalPart first.1 = kv.1 ∧ first.2.gid = kv.2.gid := by
  constructor
  · intro h
    have huid : kv.2.uid.toUInt32 = first.2.uid.toUInt32 := congrArg Resolved.uid h
    have hgid : kv.2.gid.toUInt32 = first.2.gid.toUInt32 := congrArg Resolved.gid h
    exact ⟨(toUInt32_injective huid).symm, (congrArg Resolved.name h).symm,
      (toUInt32_injective hgid).symm⟩
  · rintro ⟨huid, hname, hgid⟩
    rw [posixEntry, seedOfKey, ← huid, ← hname, ← hgid]

/-- The local part of the key that a seeded user is filed under is its name. -/
theorem principalLocalPart_key_seedEntry {snap : IdMapSnapshot} {realm : Str}
    (first : Str × PosixUserEntry) :
    principalLocalPart (seedEntry snap realm (seedOfKey first)).key = principalLocalPart first.1 := by
  rw [Resolved.key, principalLocalPart_normalizePrincipal]
  exact principalLocalPart_append (at_not_mem_principalLocalPart _)
    (fun _ hc => head_principalLocalPart hc) realm

section Seeding

variable {snap : IdMapSnapshot} {cache : IdCache} {o : HashOrder}

/-- Where the first keys stand for the POSIX names, a candidate is a user under its POSIX name. -/
theorem exists_namesUser_of_seed (realm : Str) (hsnap : snap.PosixNamed)
    (hfirst : FirstKeysPosix snap) {s : Seed} (hs : s ∈ (bestPerUid snap).values) :
    ∃ kv, snap.NamesUser kv ∧ kv.2.uid = s.ldapUid ∧ s.name = kv.1 ∧
      posixEntry snap realm kv = seedEntry snap realm s := by
  obtain ⟨first, hfind, heq⟩ := mem_bestPerUid_iff.mp hs
  have hseeds := List.find?_some hfind
  rw [seedsUid, Bool.and_eq_true, Bool.and_eq_true, decide_eq_true_eq, decide_eq_true_eq] at hseeds
  obtain ⟨huid, hne, -⟩ := hseeds
  obtain ⟨kv, hkv, hkvUid, hat⟩ :=
    hsnap.named first (List.mem_of_find?_eq_some hfind) (by rwa [huid])
  have hname : snap.NamesUser kv := ⟨hkv, by rwa [hkvUid, huid], hat⟩
  obtain ⟨first', hfind', hlocal, hgid⟩ := hfirst kv hname
  rw [hsnap.find?_seedsUid hne, ← huid, ← hkvUid, hfind', Option.some_inj] at hfind
  subst hfind
  refine ⟨kv, hname, hkvUid.trans huid, by rw [heq]; exact hlocal, ?_⟩
  rw [heq]
  exact posixEntry_eq_seedEntry_iff.mpr ⟨hkvUid.symm, hlocal, hgid⟩

/-- A user under its POSIX name is then a candidate. -/
theorem exists_seed_of_namesUser (realm : Str) (hsnap : snap.PosixNamed) (hfirst : FirstKeysPosix snap)
    {kv : Str × PosixUserEntry} (hkv : snap.NamesUser kv) :
    ∃ s ∈ (bestPerUid snap).values, posixEntry snap realm kv = seedEntry snap realm s := by
  obtain ⟨first, hfind, hlocal, hgid⟩ := hfirst kv hkv
  have huid : first.2.uid = kv.2.uid := by simpa using List.find?_some hfind
  refine ⟨seedOfKey first, mem_bestPerUid_iff.mpr ⟨first, ?_, rfl⟩,
    posixEntry_eq_seedEntry_iff.mpr ⟨huid, hlocal, hgid⟩⟩
  have hseedUid : (seedOfKey first).ldapUid = kv.2.uid := huid
  rw [hseedUid, hsnap.find?_seedsUid hkv.2.1, hfind]

/-- No two candidates are then filed under one key. -/
theorem seedsSeparated_of_firstKeysPosix (realm : Str) (hsnap : snap.PosixNamed)
    (hfirst : FirstKeysPosix snap) : SeedsSeparated snap realm := by
  refine List.Nodup.map_on ?_ (bestPerUid snap).nodup.of_map
  intro s hs s' hs' hkey
  obtain ⟨kv, hkv, huid, hname, -⟩ := exists_namesUser_of_seed realm hsnap hfirst hs
  obtain ⟨kv', hkv', huid', hname', -⟩ := exists_namesUser_of_seed realm hsnap hfirst hs'
  obtain ⟨first, -, rfl⟩ := mem_bestPerUid_iff.mp hs
  obtain ⟨first', -, rfl⟩ := mem_bestPerUid_iff.mp hs'
  have hlocal := congrArg principalLocalPart hkey
  rw [principalLocalPart_key_seedEntry, principalLocalPart_key_seedEntry] at hlocal
  have hsame : kv = kv' :=
    snap.users.eq_of_key_eq hkv.1 hkv'.1 (hname.symm.trans (hlocal.trans hname'))
  exact (bestPerUid snap).eq_of_key_eq hs hs' (by rw [← huid, ← huid', hsame])

/-- **The names that are seeded**: the seeded cache has every user under its POSIX name, whichever
order the candidates are enumerated in, exactly when the first key of each user stands for it. -/
theorem seedsPosixNames_iff (realm : Str) (hsnap : snap.PosixNamed)
    (hcache : ∀ e ∈ cache.values, e.kind ≠ .user) :
    SeedsPosixNames snap realm cache (seedCacheAndNssFromSnapshot o.seeds snap realm cache) ↔
      FirstKeysPosix snap := by
  -- the order of the candidates changes nothing about which there are
  have hmem : ∀ s, s ∈ o.seeds (bestPerUid snap).values ↔ s ∈ (bestPerUid snap).values :=
    fun s => (o.seeds_perm _).mem_iff
  rw [seedCacheAndNssFromSnapshot]
  constructor
  case mp =>
    intro h kv hkv
    -- the entry of the user comes from the best key of its uid, which is the first
    rcases KeyedMap.mem_foldl_insert ((h _).mpr (.inr ⟨kv, hkv, rfl⟩)) with ⟨hold, -⟩ | ⟨s, hs, heq⟩
    · exact absurd rfl (hcache _ hold)
    · obtain ⟨first, hfind, rfl⟩ := mem_bestPerUid_iff.mp ((hmem s).mp hs)
      obtain ⟨huid, hlocal, hgid⟩ := posixEntry_eq_seedEntry_iff.mp heq
      have hseedUid : (seedOfKey first).ldapUid = kv.2.uid := huid
      rw [hseedUid, hsnap.find?_seedsUid hkv.2.1] at hfind
      exact ⟨first, hfind, hlocal, hgid⟩
  case mpr =>
    intro hfirst e
    -- no two seeds share a key, so that each is found where it was filed
    have hkeys : ((o.seeds (bestPerUid snap).values).map
        fun s => (seedEntry snap realm s).key).Nodup :=
      (((o.seeds_perm _).map _).nodup_iff).mpr (seedsSeparated_of_firstKeysPosix realm hsnap hfirst)
    -- nothing else is in the seeded cache, and nothing of it is missing
    constructor
    · intro he
      rcases KeyedMap.mem_foldl_insert he with ⟨hold, hne⟩ | ⟨s, hs, rfl⟩
      · refine .inl ⟨hold, fun kv hkv => ?_⟩
        obtain ⟨s, hs, heq⟩ := exists_seed_of_namesUser realm hsnap hfirst hkv
        rw [heq]
        exact hne s ((hmem s).mpr hs)
      · obtain ⟨kv, hkv, -, -, heq⟩ := exists_namesUser_of_seed realm hsnap hfirst ((hmem s).mp hs)
        exact .inr ⟨kv, hkv, heq.symm⟩
    · rintro (⟨hold, hne⟩ | ⟨kv, hkv, rfl⟩)
      · refine KeyedMap.mem_foldl_insert_of_ne hold fun s hs => ?_
        obtain ⟨kv, hkv, -, -, heq⟩ :=
          exists_namesUser_of_seed realm hsnap hfirst ((hmem s).mp hs)
        rw [← heq]
        exact hne kv hkv
      · obtain ⟨s, hs, heq⟩ := exists_seed_of_namesUser realm hsnap hfirst hkv
        rw [heq]
        exact KeyedMap.mem_foldl_insert_of_nodup hkeys ((hmem s).mpr hs)

end Seeding

deriving instance DecidableEq for PosixUserEntry

/-- Hash maps enumerated as they are listed. -/
def HashOrder.listed : HashOrder := ⟨id, fun _ => .refl _, id, fun _ => .refl _⟩

/-- A user with an alias whose local part is not its name, enumerated in one of two orders. -/
def aliasedSnapshot (aliasFirst : Bool) : IdMapSnapshot :=
  let user : PosixUserEntry := ⟨1000, 1000, "Alice".toList⟩
  let keys := ["alice".toList, "asmith@EXAMPLE.COM".toList]
  ⟨⟨(if aliasFirst then keys.reverse else keys).map fun key => (key, user), by
    cases aliasFirst <;> decide +kernel⟩, KeyedMap.empty⟩

/-- The snapshot with an alias names its users, in either order. -/
theorem aliasedSnapshot_posixNamed (aliasFirst : Bool) : (aliasedSnapshot aliasFirst).PosixNamed where
  named := by cases aliasFirst <;> decide +kernel
  unique := by cases aliasFirst <;> decide +kernel
  machineFree := by cases aliasFirst <;> decide +kernel

/-- The name enumerated first is the one that is seeded. -/
theorem seedsPosixNames_nameFirst :
    SeedsPosixNames (aliasedSnapshot false) "EXAMPLE.COM".toList KeyedMap.empty
      (seedCacheAndNssFromSnapshot HashOrder.listed.seeds (aliasedSnapshot false)
        "EXAMPLE.COM".toList KeyedMap.empty) :=
  (seedsPosixNames_iff _ (aliasedSnapshot_posixNamed false) (by simp [KeyedMap.empty])).mpr (by
    rintro kv ⟨hkv, -, hat⟩
    have hname : kv = ("alice".toList, ⟨1000, 1000, "Alice".toList⟩) := by
      revert kv
      decide +kernel
    subst hname
    exact ⟨_, rfl, by decide +kernel, rfl⟩)

/-- So is an alias that is enumerated first. -/
theorem not_seedsPosixNames_aliasFirst :
    (aliasedSnapshot true).PosixNamed ∧
      ¬SeedsPosixNames (aliasedSnapshot true) "EXAMPLE.COM".toList KeyedMap.empty
        (seedCacheAndNssFromSnapshot HashOrder.listed.seeds (aliasedSnapshot true)
          "EXAMPLE.COM".toList KeyedMap.empty) := by
  refine ⟨aliasedSnapshot_posixNamed true, fun h => ?_⟩
  have hseeded := (h (posixEntry (aliasedSnapshot true) "EXAMPLE.COM".toList
    ("alice".toList, ⟨1000, 1000, "Alice".toList⟩))).mpr
      (.inr ⟨_, ⟨.tail _ (.head _), by decide, by decide +kernel⟩, rfl⟩)
  revert hseeded
  decide +kernel

end NfsKlldap
