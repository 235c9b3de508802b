import NfsKlldap.Config.SharePaths
import NfsKlldap.Generate.Fragments

/-! # Export ids

The id of an export is a hash of its name, folded into the ids above a base that grows with the
position of the share. Ganesha keeps the first of two exports with one id.

**`exportIds_iff`**: the ids of a config are distinct and in range, and computed without overflow,
exactly when there are few enough shares for the base and no two hashes differ by just the distance
of the bases. -/

namespace NfsKlldap

open Text

/-- The 16-bit arithmetic of the base at an index does not overflow. -/
structure BaseFits (index : Nat) : Prop where
  mul : (UInt16.ofNat index).toNat * 10 < 2 ^ 16
  add : 1000 + (UInt16.ofNat index * 10).toNat < 2 ^ 16

/-- The ids of a list of shares, in order. -/
def exportIds (shares : List Share) : List UInt16 :=
  shares.mapIdx fun i s => deriveExportId s.name (exportIdBase i)

/-- Every id is computed without overflow and in range, and no two shares have one id. -/
structure ExportIdsUnique (shares : List Share) : Prop where
  fits : ∀ i < shares.length, BaseFits i
  nodup : (exportIds shares).Nodup
  range : ∀ id ∈ exportIds shares, 1 ≤ id.toNat ∧ id.toNat ≤ 65535

/-- What is left of the hash of a name at a position: its distance from the base. -/
def hashOffset (index : Nat) (name : Str) : Nat :=
  (exportNameHash name).toNat % min 55000 (64535 - 10 * index)

/-- The shares fit the 16-bit bases, and no hash lies as far behind a later one as the bases lie
apart. -/
structure IdsSpread (names : List Str) : Prop where
  few : names.length ≤ 6454
  apart : ∀ i j a b, names[i]? = some a → names[j]? = some b → i < j →
    hashOffset i a ≠ 10 * (j - i) + hashOffset j b

/-! ## Bases -/

/-- The index times ten, below the first index at which it overflows. -/
theorem toNat_index_mul {index : Nat} (h : index < 6454) :
    (UInt16.ofNat index).toNat = index ∧ (UInt16.ofNat index * 10).toNat = index * 10 := by
  have hidx : (UInt16.ofNat index).toNat = index :=
    UInt16.toNat_ofNat_of_lt' (by show index < 65536; omega)
  refine ⟨hidx, ?_⟩
  rw [UInt16.toNat_mul, hidx]
  exact Nat.mod_eq_of_lt (by show index * 10 < 65536; omega)

/-- Up to position 6453 the base of the ids fits into sixteen bits. -/
theorem baseFits_of_lt {index : Nat} (h : index < 6454) : BaseFits index := by
  obtain ⟨hidx, hmul⟩ := toNat_index_mul h
  exact ⟨by omega, by omega⟩

/-- The base of the share behind the last one that fits is out of range. -/
theorem not_baseFits : ¬ BaseFits 6454 := fun h => absurd h.add (by decide)

/-- The base of a position that fits. -/
theorem toNat_exportIdBase {index : Nat} (h : index < 6454) :
    (exportIdBase index).toNat = 1000 + 10 * index := by
  rw [exportIdBase, UInt16.toNat_add, (toNat_index_mul h).2]
  show (1000 + index * 10) % 65536 = _
  omega

/-- The least of two words, as a number. -/
theorem toNat_min (a b : UInt32) : (min a b).toNat = min a.toNat b.toNat := by
  change (if a ≤ b then a else b).toNat = _
  rw [apply_ite UInt32.toNat, Nat.min_def]
  simp only [UInt32.le_iff_toNat_le]

/-- The greatest of two words, as a number. -/
theorem toNat_max (a b : UInt32) : (max a b).toNat = max a.toNat b.toNat := by
  change (if a ≤ b then b else a).toNat = _
  rw [apply_ite UInt32.toNat, Nat.max_def]
  simp only [UInt32.le_iff_toNat_le]

/-- The span of ids behind a base that fits. -/
theorem toNat_exportIdSpan {index : Nat} (h : index < 6454) :
    (exportIdSpan (exportIdBase index)).toNat = min 55000 (64535 - 10 * index) := by
  have hbase : (exportIdBase index).toUInt32.toNat = 1000 + 10 * index := by
    rw [UInt16.toNat_toUInt32, toNat_exportIdBase h]
  have hmax : (65535 : UInt32).toNat = 65535 := rfl
  have hspan : (55000 : UInt32).toNat = 55000 := rfl
  have hone : (1 : UInt32).toNat = 1 := rfl
  have hle : (exportIdBase index).toUInt32 ≤ 65535 := by
    rw [UInt32.le_iff_toNat_le, hbase, hmax]
    omega
  rw [exportIdSpan, toNat_min, toNat_max, UInt32.toNat_sub_of_le _ _ hle, hbase, hmax, hspan, hone]
  omega

/-- What is left of a hash is inside the span. -/
theorem hashOffset_lt {index : Nat} (h : index < 6454) (name : Str) :
    hashOffset index name < min 55000 (64535 - 10 * index) := Nat.mod_lt _ (by omega)

/-- **An id** is its base and what is left of the hash. -/
theorem toNat_deriveExportId {index : Nat} (h : index < 6454) (name : Str) :
    (deriveExportId name (exportIdBase index)).toNat = 1000 + 10 * index + hashOffset index name := by
  have hlt := hashOffset_lt h name
  have hoff : (exportNameHash name % exportIdSpan (exportIdBase index)).toNat
      = hashOffset index name := by
    rw [UInt32.toNat_mod, toNat_exportIdSpan h, hashOffset]
  rw [deriveExportId, UInt32.toNat_toUInt16, UInt32.toNat_add, hoff, UInt16.toNat_toUInt32,
    toNat_exportIdBase h]
  omega

/-! ## Ids of a config -/

/-- **When the ids are unique**: at most 6454 shares, and hashes that keep apart. -/
theorem exportIdsUnique_iff (shares : List Share) :
    ExportIdsUnique shares ↔ IdsSpread (shares.map Share.name) := by
  -- the last base that fits is that of share 6453
  have hlen : ∀ n : Nat, (∀ i < n, BaseFits i) ↔ n ≤ 6454 := by
    intro n
    constructor
    · intro h
      by_contra hn
      exact not_baseFits (h 6454 (by omega))
    · intro h i hi
      exact baseFits_of_lt (by omega)
  have hlength : (exportIds shares).length = shares.length := List.length_mapIdx
  -- up to there an id is a number without wraparound, made of its base and its hash
  have hid : ∀ (i : Nat) (hi : i < (exportIds shares).length) (hi' : i < shares.length),
      shares.length ≤ 6454 →
        ((exportIds shares)[i]).toNat = 1000 + 10 * i + hashOffset i shares[i].name := by
    intro i hi hi' hfew
    rw [show (exportIds shares)[i] = deriveExportId shares[i].name (exportIdBase i)
      from List.getElem_mapIdx ..]
    exact toNat_deriveExportId (by omega) _
  constructor
  · intro h
    have hfew := (hlen _).mp h.fits
    refine ⟨by simpa using hfew, ?_⟩
    intro i j a b ha hb hij heq
    obtain ⟨hi, rfl⟩ := List.getElem?_eq_some_iff.mp ha
    obtain ⟨hj, rfl⟩ := List.getElem?_eq_some_iff.mp hb
    rw [List.length_map] at hi hj
    have hne := List.pairwise_iff_getElem.mp h.nodup i j (hlength.symm ▸ hi) (hlength.symm ▸ hj) hij
    refine hne (UInt16.toNat_inj.mp ?_)
    rw [hid i _ hi hfew, hid j _ hj hfew]
    simp only [List.getElem_map] at heq
    omega
  · intro h
    have hfew : shares.length ≤ 6454 := by simpa using h.few
    refine ⟨(hlen _).mpr hfew, ?_, ?_⟩
    · refine List.pairwise_iff_getElem.mpr fun i j hi hj hij heq => ?_
      have hnat := congrArg UInt16.toNat heq
      rw [hid i hi (hlength ▸ hi) hfew, hid j hj (hlength ▸ hj) hfew] at hnat
      refine h.apart i j _ _ (List.getElem?_eq_getElem (by simpa [exportIds] using hi))
        (List.getElem?_eq_getElem (by simpa [exportIds] using hj)) hij ?_
      simp only [List.getElem_map]
      omega
    · intro id hmem
      obtain ⟨i, hi, rfl⟩ := List.getElem_of_mem hmem
      have hlt := ((exportIds shares)[i]).toNat_lt
      rw [hid i hi (hlength ▸ hi) hfew] at hlt ⊢
      omega

/-- **Export ids of accepted configs.** -/
theorem exportIds_iff {env : Environment} {c out : NfsKlldapConfig}
    (h : validateAndDerive env c = .ok out) :
    ExportIdsUnique out.shares ↔ IdsSpread (c.shares.map Share.name) := by
  obtain ⟨-, -, rfl⟩ := validateAndDerive_eq_ok_iff.mp h
  have hnames : (c.shares.map Share.normalize).map Share.name = c.shares.map Share.name := by
    rw [List.map_map]
    rfl
  rw [exportIdsUnique_iff, ← hnames]

/-! ## Two shares with one id -/

/-- Two shares whose names differ by ten in the last letter. -/
def twinConfig : NfsKlldapConfig :=
  labConfig [labShare "data-a" "/export/a" "/a", labShare "data-k" "/export/k" "/k"]

/-- Both exports have the id 22983. -/
theorem not_exportIdsUnique_twin : validateAndDerive .ascii twinConfig = .ok twinConfig ∧
    exportIds twinConfig.shares = [22983, 22983] ∧ ¬ ExportIdsUnique twinConfig.shares := by
  have hvalid : (validateAndDerive .ascii twinConfig).toOption = some twinConfig := by
    decide +kernel
  have hids : exportIds twinConfig.shares = [22983, 22983] := by decide +kernel
  refine ⟨toOption_eq_some_iff.mp hvalid, hids, fun h => ?_⟩
  have hnodup := h.nodup
  rw [hids] at hnodup
  exact absurd hnodup (by decide)

/-- The ids of the shares `a` and `b` differ. -/
theorem exportIdsUnique_tidy : ExportIdsUnique tidyConfig.shares := by
  refine (exportIds_iff validate_tidy).mpr ⟨by decide, ?_⟩
  intro i j a b ha hb hij
  have hj : j < 2 := (List.getElem?_eq_some_iff.mp hb).1
  obtain rfl : i = 0 := by omega
  obtain rfl : j = 1 := by omega
  cases ha
  cases hb
  decide +kernel

end NfsKlldap
