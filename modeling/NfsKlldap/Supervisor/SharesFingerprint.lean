import NfsKlldap.Config.SharePaths
import NfsKlldap.Idhelper.Cache
import NfsKlldap.Lib.Framing
import NfsKlldap.Lib.Utf8

/-! # The fingerprint of the shares (`exports_fingerprint.rs`)

The supervisor compares a hash over the shares to see whether the path mapping of the WebUI has changed.
What is hashed is `sharesStream`: a mark stands behind the root and behind each share, and none between
the four texts of a share.

* **`fingerprintShares_eq`** — the fingerprint is the hash of this stream;
* **`Recut`** — two configs whose texts are the same run together, and are cut elsewhere;
* **`seesEdits_iff`** — an edit is seen unless it is a recut;
* **`seesEdits_of_hostPaths`** — an edit of the host paths alone is seen. -/

namespace NfsKlldap

open Text Framing

/-! ## The hash -/

/-- The prime of FNV-1a. -/
def fnv1aPrime : UInt64 := 0x100000001b3

/-- `fingerprint_bytes` -/
def fingerprintBytes (bytes : List UInt8) (h : UInt64) : UInt64 :=
  bytes.foldl (fun h b => (h ^^^ b.toUInt64) * fnv1aPrime) h

/-- The part of one share. -/
def fingerprintShare (h : UInt64) (share : Share) : UInt64 :=
  let h := fingerprintBytes (IdCache.utf8Bytes share.name) h
  let h := fingerprintBytes (IdCache.utf8Bytes share.hostPath) h
  let h := match share.pseudoPath with
    | some p => fingerprintBytes (IdCache.utf8Bytes p) h
    | none => h
  let h := fingerprintBytes (IdCache.utf8Bytes share.containerPath) h
  (h ^^^ 0xff) * fnv1aPrime

/-- `fingerprint_shares` -/
def fingerprintShares (c : NfsKlldapConfig) : UInt64 :=
  let h := fingerprintBytes (IdCache.utf8Bytes c.storage.containerRoot) IdCache.fnv1aSeed
  c.shares.foldl fingerprintShare ((h ^^^ 0x01) * fnv1aPrime)

/-! ## The stream -/

/-- The texts of a share that are hashed. -/
def Share.texts (s : Share) : List Str := [s.name, s.hostPath, s.pseudoPath.getD [], s.containerPath]

/-- **The bytes that are hashed.** -/
def sharesStream (c : NfsKlldapConfig) : List UInt8 :=
  Utf8.encode c.storage.containerRoot ++ 0x01 ::
    framed 0xff (c.shares.map fun s => Utf8.encode s.texts.flatten)

/-- Two lists of bytes are hashed one after the other. -/
theorem fingerprintBytes_append (xs ys : List UInt8) (h : UInt64) :
    fingerprintBytes (xs ++ ys) h = fingerprintBytes ys (fingerprintBytes xs h) := List.foldl_append

/-- One byte is one step of the hash. -/
theorem fingerprintBytes_singleton (b : UInt8) (h : UInt64) :
    fingerprintBytes [b] h = (h ^^^ b.toUInt64) * fnv1aPrime := rfl

/-- The mark behind a share is hashed like a byte. -/
theorem fingerprintBytes_mark (h : UInt64) :
    fingerprintBytes [0xff] h = (h ^^^ 0xff) * fnv1aPrime := by
  have hmark : (0xff : UInt8).toUInt64 = 0xff := by decide
  rw [fingerprintBytes_singleton, hmark]

/-- The mark behind the root, too. -/
theorem fingerprintBytes_rootMark (h : UInt64) :
    fingerprintBytes [0x01] h = (h ^^^ 0x01) * fnv1aPrime := by
  have hmark : (0x01 : UInt8).toUInt64 = 0x01 := by decide
  rw [fingerprintBytes_singleton, hmark]

/-- A share hashes its texts, run together, and a mark. -/
theorem fingerprintShare_eq (h : UInt64) (s : Share) :
    fingerprintShare h s = fingerprintBytes (Utf8.encode s.texts.flatten ++ [0xff]) h := by
  have hutf8 : ∀ t, IdCache.utf8Bytes t = Utf8.encode t := fun _ => rfl
  rw [fingerprintBytes_append, fingerprintBytes_mark, fingerprintShare]
  simp only [hutf8, Share.texts, List.flatten_cons, List.flatten_nil, List.append_nil,
    Utf8.encode_append, fingerprintBytes_append]
  cases s.pseudoPath with
  | none => rfl
  | some p => rfl

/-- The fingerprint is the hash of the stream. -/
theorem fingerprintShares_eq (c : NfsKlldapConfig) :
    fingerprintShares c = fingerprintBytes (sharesStream c) IdCache.fnv1aSeed := by
  have hshares : ∀ (shares : List Share) (h : UInt64), shares.foldl fingerprintShare h =
      fingerprintBytes (framed 0xff (shares.map fun s => Utf8.encode s.texts.flatten)) h := by
    intro shares
    induction shares with
    | nil => exact fun h => rfl
    | cons s shares ih =>
      intro h
      rw [List.foldl_cons, ih, fingerprintShare_eq, List.map_cons, framed_cons,
        ← fingerprintBytes_append, List.append_assoc, List.singleton_append]
  have hutf8 : ∀ t, IdCache.utf8Bytes t = Utf8.encode t := fun _ => rfl
  rw [fingerprintShares, sharesStream, hshares, hutf8, ← List.singleton_append,
    fingerprintBytes_append, fingerprintBytes_append, fingerprintBytes_rootMark]

/-! ## Cutting the stream -/

/-- What belongs between two marks: the texts of a share, and before the first ones the root. -/
def cells (c : NfsKlldapConfig) : List (List Str) :=
  match c.shares.map Share.texts with
  | [] => []
  | texts :: rest => ((c.storage.containerRoot ++ ['\x01']) :: texts) :: rest

/-- No text of a share holds the mark. -/
theorem not_mem_of_mem_cells {c : NfsKlldapConfig} :
    ∀ x ∈ (cells c).map fun l => Utf8.encode l.flatten, (0xff : UInt8) ∉ x := by
  rintro x hx
  obtain ⟨l, -, rfl⟩ := List.mem_map.mp hx
  exact Utf8.not_mem_encode _

/-- With a share, the stream is the cells with a mark behind each. -/
theorem sharesStream_of_cons {c : NfsKlldapConfig} (h : c.shares ≠ []) :
    sharesStream c = framed 0xff ((cells c).map fun l => Utf8.encode l.flatten) := by
  obtain ⟨s, shares, hs⟩ := List.exists_cons_of_ne_nil h
  have hroot : Utf8.encode ['\x01'] = [0x01] := rfl
  rw [sharesStream, cells, hs]
  simp only [List.map_cons, framed_cons, List.flatten_cons, Utf8.encode_append, hroot, List.map_map]
  simp only [List.append_assoc]
  rfl

/-- Without one, it is the root. -/
theorem sharesStream_of_nil {c : NfsKlldapConfig} (h : c.shares = []) :
    sharesStream c = Utf8.encode (c.storage.containerRoot ++ ['\x01']) := by
  rw [sharesStream, h, Utf8.encode_append]
  rfl

/-- The stream holds a mark exactly when there is a share. -/
theorem mark_mem_sharesStream_iff {c : NfsKlldapConfig} :
    (0xff : UInt8) ∈ sharesStream c ↔ c.shares ≠ [] := by
  constructor
  · intro hmem hnil
    rw [sharesStream_of_nil hnil] at hmem
    exact Utf8.not_mem_encode _ hmem
  · intro h
    obtain ⟨s, shares, hs⟩ := List.exists_cons_of_ne_nil h
    rw [sharesStream, hs, List.map_cons, framed_cons]
    simp

/-- **Equal streams**: the same root, or the same cells run together. -/
theorem sharesStream_inj {c c' : NfsKlldapConfig} : sharesStream c = sharesStream c' ↔
    (c.shares = [] ∧ c'.shares = [] ∧ c.storage.containerRoot = c'.storage.containerRoot) ∨
      (c.shares ≠ [] ∧ c'.shares ≠ [] ∧
        (cells c).map List.flatten = (cells c').map List.flatten) := by
  by_cases hc : c.shares = []
  · by_cases hc' : c'.shares = []
    · rw [sharesStream_of_nil hc, sharesStream_of_nil hc', Utf8.encode_injective.eq_iff,
        List.append_left_inj]
      simp [hc, hc']
    · refine iff_of_false (fun h => ?_) (by simp [hc, hc'])
      exact mark_mem_sharesStream_iff.mp (h ▸ mark_mem_sharesStream_iff.mpr hc') hc
  · by_cases hc' : c'.shares = []
    · refine iff_of_false (fun h => ?_) (by simp [hc, hc'])
      exact mark_mem_sharesStream_iff.mp (h ▸ mark_mem_sharesStream_iff.mpr hc) hc'
    · have hinj : Function.Injective (List.map Utf8.encode) :=
        List.map_injective_iff.mpr Utf8.encode_injective
      have hmap : ∀ c : NfsKlldapConfig, (cells c).map (fun l => Utf8.encode l.flatten) =
          ((cells c).map List.flatten).map Utf8.encode := fun c => (List.map_map).symm
      rw [sharesStream_of_cons hc, sharesStream_of_cons hc',
        framed_inj not_mem_of_mem_cells not_mem_of_mem_cells, hmap, hmap, hinj.eq_iff]
      simp [hc, hc']

/-! ## Edits -/

/-- The path mapping of a share. -/
def Share.mapping (s : Share) : Str × Str × Option Str × Str :=
  (s.name, s.hostPath, s.pseudoPath, s.containerPath)

/-- **The edit is seen**: configs with one stream have one root and one path mapping. -/
def SeesEdits (c c' : NfsKlldapConfig) : Prop :=
  sharesStream c = sharesStream c' →
    c.storage.containerRoot = c'.storage.containerRoot ∧
      c.shares.map Share.mapping = c'.shares.map Share.mapping

/-- **A recut**: share by share, the texts run together are the same, and some boundary between two
neighbouring texts has moved. -/
structure Recut (c c' : NfsKlldapConfig) : Prop where
  shares : c.shares.length = c'.shares.length
  flatten : (cells c).map List.flatten = (cells c').map List.flatten
  moved : (cells c).map (List.map List.length) ≠ (cells c').map (List.map List.length)

/-- Every share has a Pseudo path. -/
def PseudoPathsSet (c : NfsKlldapConfig) : Prop := ∀ s ∈ c.shares, s.pseudoPath ≠ none

/-- Every share of an accepted configuration has its pseudo path. -/
theorem pseudoPathsSet_of_ok {env : Environment} {c out : NfsKlldapConfig}
    (h : validateAndDerive env c = .ok out) : PseudoPathsSet out := by
  obtain ⟨-, -, rfl⟩ := validateAndDerive_eq_ok_iff.mp h
  rintro s hs
  obtain ⟨t, -, rfl⟩ := List.mem_map.mp hs
  exact Option.some_ne_none _

/-- Where Pseudo paths are set, the texts of the shares are the mapping. -/
theorem map_mapping_eq_iff {l l' : List Share} (h : ∀ s ∈ l, s.pseudoPath ≠ none)
    (h' : ∀ s ∈ l', s.pseudoPath ≠ none) :
    l.map Share.mapping = l'.map Share.mapping ↔ l.map Share.texts = l'.map Share.texts := by
  induction l generalizing l' with
  | nil => simp [eq_comm]
  | cons s l ih =>
    cases l' with
    | nil => simp
    | cons s' l' =>
      rw [List.forall_mem_cons] at h h'
      obtain ⟨p, hp⟩ := Option.ne_none_iff_exists'.mp h.1
      obtain ⟨p', hp'⟩ := Option.ne_none_iff_exists'.mp h'.1
      rw [List.map_cons, List.map_cons, List.map_cons, List.map_cons, List.cons.injEq, List.cons.injEq,
        ih h.2 h'.2]
      simp [Share.mapping, Share.texts, hp, hp']

/-- With shares, the cells agree exactly when the root and the texts of the shares do. -/
theorem cells_eq_iff {c c' : NfsKlldapConfig} (hc : c.shares ≠ []) (hc' : c'.shares ≠ []) :
    cells c = cells c' ↔ c.storage.containerRoot = c'.storage.containerRoot ∧
      c.shares.map Share.texts = c'.shares.map Share.texts := by
  obtain ⟨s, shares, hs⟩ := List.exists_cons_of_ne_nil hc
  obtain ⟨s', shares', hs'⟩ := List.exists_cons_of_ne_nil hc'
  simp [cells, hs, hs', and_assoc]

/-- There is one cell for each share. -/
theorem length_cells (c : NfsKlldapConfig) : (cells c).length = c.shares.length := by
  rw [cells, ← List.length_map Share.texts]
  cases c.shares.map Share.texts <;> rfl

/-- **Edits that are seen**: all but recuts. -/
theorem seesEdits_iff {env env' : Environment} {c out c' out' : NfsKlldapConfig}
    (h : validateAndDerive env c = .ok out) (h' : validateAndDerive env' c' = .ok out') :
    SeesEdits out out' ↔ ¬ Recut out out' := by
  have hmapping := map_mapping_eq_iff (pseudoPathsSet_of_ok h) (pseudoPathsSet_of_ok h')
  constructor
  · intro hsees hcut
    -- a recut moves something, so that there are shares
    have hc : out.shares ≠ [] := fun hnil => by
      have hnil' : out'.shares = [] := by
        rw [← List.length_eq_zero_iff, ← hcut.shares, hnil, List.length_nil]
      exact hcut.moved (by simp [cells, hnil, hnil'])
    have hc' : out'.shares ≠ [] := fun hnil => hc (by
      rw [← List.length_eq_zero_iff, hcut.shares, hnil, List.length_nil])
    have heq := hsees (sharesStream_inj.mpr (.inr ⟨hc, hc', hcut.flatten⟩))
    rw [hmapping, ← cells_eq_iff hc hc'] at heq
    exact hcut.moved (by rw [heq])
  · intro hcut hstream
    -- equal streams: no shares on either side, or the same texts one after another
    rcases sharesStream_inj.mp hstream with ⟨hc, hc', hroot⟩ | ⟨hc, hc', hflatten⟩
    · exact ⟨hroot, by rw [hc, hc']⟩
    · rw [hmapping, ← cells_eq_iff hc hc', eq_iff_flatten_lengths]
      refine ⟨hflatten, ?_⟩
      by_contra hmoved
      have hlength := congrArg List.length hflatten
      rw [List.length_map, List.length_map, length_cells, length_cells] at hlength
      exact hcut ⟨hlength, hflatten, hmoved⟩

/-- **An edit of the host paths alone is seen**, whatever they are. -/
theorem seesEdits_of_hostPaths {c : NfsKlldapConfig} {shares' : List Share}
    (h : shares'.map (fun s => { s with hostPath := [] }) =
      c.shares.map fun s => { s with hostPath := [] })
    (hstream : sharesStream c = sharesStream { c with shares := shares' }) : c.shares = shares' := by
  rw [sharesStream, sharesStream] at hstream
  have hmark : ∀ shares : List Share, ∀ x ∈ shares.map fun s => Utf8.encode s.texts.flatten,
      (0xff : UInt8) ∉ x := by
    intro shares x hx
    obtain ⟨s, -, rfl⟩ := List.mem_map.mp hx
    exact Utf8.not_mem_encode _
  have htexts := (framed_inj (hmark _) (hmark _)).mp (List.cons.inj (List.append_cancel_left hstream)).2
  clear hstream
  generalize c.shares = shares at h htexts
  induction shares generalizing shares' with
  | nil => exact (List.map_eq_nil_iff.mp h).symm
  | cons s shares ih =>
    cases shares' with
    | nil => cases h
    | cons s' shares' =>
      obtain ⟨hs, hshares⟩ := List.cons.inj h
      obtain ⟨ht, hts⟩ := List.cons.inj htexts
      have hs' : s' = { s with hostPath := s'.hostPath } :=
        congrArg (fun t : Share => { t with hostPath := s'.hostPath }) hs
      have hflat := Utf8.encode_injective ht
      rw [hs'] at hflat
      have hhost : s.hostPath = s'.hostPath := by simpa [Share.texts] using hflat
      rw [ih hshares hts, hs', ← hhost]

/-! ## A piece of a path that changes sides -/

/-- One share with this host path and this Pseudo path. -/
def sidesConfig (host pseudo : String) : NfsKlldapConfig :=
  labConfig [{ labShare "a" "/export/a" pseudo with hostPath := host.toList }]

/-- Validation accepts it as it is. -/
def SidesValid (host pseudo : String) : Prop :=
  validateAndDerive .ascii (sidesConfig host pseudo) = .ok (sidesConfig host pseudo)

/-- A configuration that is accepted unchanged has valid sides. -/
theorem sidesValid_of_toOption {host pseudo : String}
    (h : (validateAndDerive .ascii (sidesConfig host pseudo)).toOption = some (sidesConfig host pseudo)) :
    SidesValid host pseudo := toOption_eq_some_iff.mp h

/-- A host path that gets longer is seen. -/
theorem seesEdits_sides : SeesEdits (sidesConfig "/srv" "/b/c") (sidesConfig "/srv/b" "/b/c") :=
  have h : SidesValid "/srv" "/b/c" := sidesValid_of_toOption (by decide +kernel)
  have h' : SidesValid "/srv/b" "/b/c" := sidesValid_of_toOption (by decide +kernel)
  (seesEdits_iff h h').mpr fun hcut => absurd hcut.flatten (by decide +kernel)

/-- **An edit that is not seen**: `/b` moves from the Pseudo path to the host path. -/
theorem not_seesEdits_sides : SidesValid "/srv" "/b/c" ∧ SidesValid "/srv/b" "/c" ∧
    ¬ SeesEdits (sidesConfig "/srv" "/b/c") (sidesConfig "/srv/b" "/c") := by
  refine ⟨sidesValid_of_toOption (by decide +kernel), sidesValid_of_toOption (by decide +kernel), ?_⟩
  intro h
  exact absurd (h (by decide +kernel)).2 (by decide +kernel)

end NfsKlldap
