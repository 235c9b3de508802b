import NfsKlldap.Lib.UnixPath

/-! # Texts cut at byte positions

A position in a text counts bytes. Searching yields the position of the first or the last hit; cutting
panics inside a character and beyond the end.

* **`find`**, **`findChar`**, **`rfindChar`** — positions of substrings and of characters;
* **`sliceFrom`**, **`sliceTo`** — what lies behind and in front of a position;
* **`sliceFrom_append`**, **`sliceTo_append`** — the positions that are ends of parts;
* **`trim_isInfix`**, **`infix_of_mem_splitOnP`** — what is cut out occurs in the text. -/

namespace NfsKlldap

namespace Text

open UnixPath

/-! ## Positions -/

/-- `str::find` of a text: where it first starts. -/
def find (w s : Str) : Option ℕ := (splitOnceStr w s).map fun p => osLen p.1

/-- `str::find` of a kind of character. -/
def findChar (p : Char → Bool) (s : Str) : Option ℕ :=
  if s.any p then some (osLen (s.takeWhile fun c => !p c)) else none

/-- `str::rfind` of a kind of character. -/
def rfindChar (p : Char → Bool) (s : Str) : Option ℕ :=
  match s.rdropWhile fun c => !p c with
  | [] => none
  | c :: u => some (osLen (c :: u).dropLast)

/-- `&s[i..]`; there is none inside a character and beyond the end, where the slice panics. -/
def sliceFrom : Str → ℕ → Option Str
  | s, 0 => some s
  | [], _ + 1 => none
  | c :: s, i + 1 => if c.utf8Size ≤ i + 1 then sliceFrom s (i + 1 - c.utf8Size) else none

/-- `&s[..i]` -/
def sliceTo : Str → ℕ → Option Str
  | _, 0 => some []
  | [], _ + 1 => none
  | c :: s, i + 1 =>
    if c.utf8Size ≤ i + 1 then (sliceTo s (i + 1 - c.utf8Size)).map (c :: ·) else none

/-- The slice from the start is the whole text. -/
@[simp] theorem sliceFrom_zero (s : Str) : sliceFrom s 0 = some s := by cases s <;> rfl

/-- The slice up to the start is empty. -/
@[simp] theorem sliceTo_zero (s : Str) : sliceTo s 0 = some [] := by cases s <;> rfl

/-- An index past the first character slices the rest. -/
theorem sliceFrom_cons (c : Char) (s : Str) (i : ℕ) :
    sliceFrom (c :: s) (c.utf8Size + i) = sliceFrom s i := by
  obtain ⟨n, hn⟩ := Nat.exists_eq_succ_of_ne_zero c.utf8Size_pos.ne'
  rw [hn, show n.succ + i = (n + i) + 1 by omega, sliceFrom, hn, if_pos (by omega)]
  congr 1
  omega

/-- A slice up to an index past the first character keeps that character. -/
theorem sliceTo_cons (c : Char) (s : Str) (i : ℕ) :
    sliceTo (c :: s) (c.utf8Size + i) = (sliceTo s i).map (c :: ·) := by
  obtain ⟨n, hn⟩ := Nat.exists_eq_succ_of_ne_zero c.utf8Size_pos.ne'
  rw [hn, show n.succ + i = (n + i) + 1 by omega, sliceTo, hn, if_pos (by omega)]
  congr 2
  omega

/-- Positions behind a part of the text are positions in the rest. -/
theorem sliceFrom_append (u v : Str) (i : ℕ) : sliceFrom (u ++ v) (osLen u + i) = sliceFrom v i := by
  induction u with
  | nil => simp [osLen]
  | cons c u ih =>
    rw [List.cons_append, show osLen (c :: u) + i = c.utf8Size + (osLen u + i) by simp [osLen]; omega,
      sliceFrom_cons, ih]

/-- A slice up to an index past a first part keeps that part. -/
theorem sliceTo_append (u v : Str) (i : ℕ) :
    sliceTo (u ++ v) (osLen u + i) = (sliceTo v i).map (u ++ ·) := by
  induction u with
  | nil => simp [osLen]
  | cons c u ih =>
    rw [List.cons_append, show osLen (c :: u) + i = c.utf8Size + (osLen u + i) by simp [osLen]; omega,
      sliceTo_cons, ih, Option.map_map]
    rfl

/-- Slicing from the byte length of a first part leaves the second. -/
@[simp] theorem sliceFrom_osLen (u v : Str) : sliceFrom (u ++ v) (osLen u) = some v := by
  rw [← Nat.add_zero (osLen u), sliceFrom_append, sliceFrom_zero]

/-- Slicing up to the byte length of a first part gives that part. -/
@[simp] theorem sliceTo_osLen (u v : Str) : sliceTo (u ++ v) (osLen u) = some u := by
  rw [← Nat.add_zero (osLen u), sliceTo_append, sliceTo_zero, Option.map_some, List.append_nil]

/-- The slice up to the byte length is the whole text. -/
theorem sliceTo_all (s : Str) : sliceTo s (osLen s) = some s := by
  simpa using sliceTo_osLen s []

/-- One byte behind the start of a character lies inside of it, unless it is one byte long. -/
theorem sliceFrom_one (c : Char) (s : Str) :
    sliceFrom (c :: s) 1 = if c.utf8Size = 1 then some s else none := by
  rw [sliceFrom]
  have := c.utf8Size_pos
  by_cases h : c.utf8Size = 1
  · rw [if_pos (by omega), if_pos h, h, Nat.sub_self, sliceFrom_zero]
  · rw [if_neg (by omega), if_neg h]

/-- One byte behind the start of a character of one byte. -/
theorem sliceFrom_succ {c : Char} (hc : c.utf8Size = 1) (u v : Str) :
    sliceFrom (u ++ c :: v) (osLen u + 1) = some v := by
  rw [sliceFrom_append, sliceFrom_one, if_pos hc]

/-- A slice from an index is a suffix of the text. -/
theorem sliceFrom_suffix {s v : Str} {i : ℕ} (h : sliceFrom s i = some v) : v <:+ s := by
  induction s generalizing i with
  | nil => cases i <;> simp_all [sliceFrom]
  | cons c s ih =>
    cases i with
    | zero => simp_all
    | succ i =>
      rw [sliceFrom] at h
      split at h
      · exact (ih h).trans (List.suffix_cons c s)
      · exact absurd h (by simp)

/-- A cut behind the first byte leaves less. -/
theorem sliceFrom_length_lt {s v : Str} {i : ℕ} (h : sliceFrom s (i + 1) = some v) :
    v.length < s.length := by
  cases s with
  | nil => simp [sliceFrom] at h
  | cons c s =>
    rw [sliceFrom] at h
    split at h
    · exact Nat.lt_succ_of_le (sliceFrom_suffix h).length_le
    · exact absurd h (by simp)

/-! ## What is found -/

/-- The two sides of a split, with the separator between them, are the text. -/
theorem splitOnceStr_append {w s l r : Str} (h : splitOnceStr w s = some (l, r)) : s = l ++ w ++ r := by
  induction s generalizing l r with
  | nil =>
    rw [splitOnceStr] at h
    split at h
    · next hw => simp_all
    · exact absurd h (by simp)
  | cons c s ih =>
    rw [splitOnceStr] at h
    split at h
    · next hp =>
      obtain ⟨u, hu⟩ := List.isPrefixOf_iff_prefix.mp hp
      simp only [Option.some.injEq, Prod.mk.injEq] at h
      rw [← h.1, ← h.2, ← hu]
      simp
    · obtain ⟨⟨l', r'⟩, hs, hlr⟩ := Option.map_eq_some_iff.mp h
      simp only [Prod.mk.injEq] at hlr
      rw [← hlr.1, ← hlr.2, ih hs]
      rfl

/-- A found index is the byte length of what stands before the word. -/
theorem find_eq_some {w s : Str} {i : ℕ} (h : find w s = some i) :
    ∃ u v, s = u ++ w ++ v ∧ i = osLen u := by
  obtain ⟨⟨u, v⟩, huv, rfl⟩ := Option.map_eq_some_iff.mp h
  exact ⟨u, v, splitOnceStr_append huv, rfl⟩

/-- A found index is the byte length of what stands before the first such character. -/
theorem findChar_eq_some {p : Char → Bool} {s : Str} {i : ℕ} (h : findChar p s = some i) :
    ∃ u c v, s = u ++ c :: v ∧ p c = true ∧ (∀ d ∈ u, p d = false) ∧ i = osLen u := by
  rw [findChar] at h
  split at h
  · next hany =>
    have hsplit := (List.takeWhile_append_dropWhile (p := fun c => !p c) (l := s)).symm
    have hdrop := List.head?_dropWhile_not (fun c => !p c) s
    cases hd : s.dropWhile fun c => !p c with
    | nil =>
      rw [List.dropWhile_eq_nil_iff] at hd
      obtain ⟨c, hc, hpc⟩ := List.any_eq_true.mp hany
      simpa [hpc] using hd c hc
    | cons c v =>
      rw [hd] at hsplit hdrop
      refine ⟨_, c, v, hsplit, by simpa using hdrop, fun d hd => ?_, (Option.some.inj h).symm⟩
      simpa using List.mem_takeWhile_imp hd
  · exact absurd h (by simp)

/-- Nothing is found exactly when no character passes. -/
theorem findChar_eq_none_iff {p : Char → Bool} {s : Str} :
    findChar p s = none ↔ ∀ c ∈ s, p c = false := by
  rw [findChar]
  split
  · next h =>
    obtain ⟨c, hc, hp⟩ := List.any_eq_true.mp h
    simpa using ⟨c, hc, hp⟩
  · next h => simpa using h

/-- The search stops at the first hit. -/
theorem findChar_append_cons {p : Char → Bool} {u : Str} {c : Char} (v : Str)
    (hu : ∀ d ∈ u, p d = false) (hc : p c = true) : findChar p (u ++ c :: v) = some (osLen u) := by
  rw [findChar, if_pos (by simp [hc]), List.takeWhile_append_of_pos (by simpa using hu),
    List.takeWhile_cons_of_neg (by simp [hc]), List.append_nil]

/-- Up to the first character that is not of the kind, or to the end. -/
theorem sliceTo_findChar_getD (q : Char → Bool) (s : Str) :
    sliceTo s ((findChar (fun c => !q c) s).getD (osLen s)) = some (s.takeWhile q) := by
  cases h : findChar (fun c => !q c) s with
  | none =>
    have hall : s.takeWhile q = s := by
      rw [List.takeWhile_eq_self_iff]
      simpa using findChar_eq_none_iff.mp h
    rw [Option.getD_none, hall, sliceTo_all]
  | some i =>
    obtain ⟨u, c, v, rfl, hc, hu, rfl⟩ := findChar_eq_some h
    rw [Option.getD_some, sliceTo_osLen, List.takeWhile_append_of_pos (by simpa using hu),
      List.takeWhile_cons_of_neg (by simpa using hc), List.append_nil]

/-- The last character that is not of the kind. -/
theorem rfindChar_eq (q : Char → Bool) (s : Str) :
    rfindChar (fun c => !q c) s =
      ((s.rdropWhile q).getLast?).map fun _ => osLen (s.rdropWhile q).dropLast := by
  have hq : (fun c => !(fun c => !q c) c) = q := by
    funext c
    simp
  rw [rfindChar, hq]
  cases s.rdropWhile q with
  | nil => rfl
  | cons c u => rw [List.getLast?_eq_getLast_of_ne_nil (List.cons_ne_nil c u), Option.map_some]

/-! ## Case -/

/-- Lowercasing an ASCII letter keeps its encoded length. -/
theorem utf8Size_toLower (c : Char) : c.toLower.utf8Size = c.utf8Size := by
  rw [Char.toLower]
  split
  · next h =>
    have hup : 65 ≤ c.val.toNat ∧ c.val.toNat ≤ 90 := by
      simpa [UInt32.le_iff_toNat_le] using h
    have hlow : (c.val + ('a'.val - 'A'.val)).toNat = c.val.toNat + 32 := by
      rw [UInt32.toNat_add, show ('a'.val - 'A'.val).toNat = 32 by decide]
      omega
    have hone : ∀ d : Char, d.val.toNat ≤ 127 → d.utf8Size = 1 := fun d hd =>
      Char.utf8Size_eq_one_iff.mpr (UInt32.le_iff_toNat_le.mpr hd)
    exact (hone _ (hlow.le.trans (by omega))).trans (hone c (by omega)).symm
  · rfl

/-- Positions in a text in lower case are positions in the text. -/
theorem osLen_toAsciiLowercase (s : Str) : osLen (toAsciiLowercase s) = osLen s := by
  rw [osLen, osLen, toAsciiLowercase, List.map_map]
  congr 1
  exact List.map_congr_left fun c _ => utf8Size_toLower c

/-! ## What is cut out -/

/-- `trim_matches` -/
def trimMatches (p : Char → Bool) (s : Str) : Str := (s.dropWhile p).rdropWhile p

/-- Trimming leaves an infix of the text. -/
theorem trimMatches_isInfix (p : Char → Bool) (s : Str) : trimMatches p s <:+: s :=
  (List.rdropWhile_prefix p _).isInfix.trans (List.dropWhile_suffix p).isInfix

/-- Trimming blanks leaves an infix of the text. -/
theorem trim_isInfix (s : Str) : trim s <:+: s := trimMatches_isInfix isWhitespace s

/-- `trim_start_matches` of a text that is not empty. -/
def trimStartMatches (w s : Str) : Str :=
  if _h : w ≠ [] ∧ w <+: s then trimStartMatches w (s.drop w.length) else s
termination_by s.length
decreasing_by
  have hpos := List.length_pos_of_ne_nil _h.1
  have hle := _h.2.length_le
  rw [List.length_drop]
  omega

/-- Trimming a word from the start leaves a suffix of the text. -/
theorem trimStartMatches_suffix (w s : Str) : trimStartMatches w s <:+ s := by
  fun_induction trimStartMatches w s with
  | case1 s h ih => exact ih.trans (List.drop_suffix _ _)
  | case2 s h => exact List.suffix_rfl

/-- The first piece is a prefix, and the others occur in the text. -/
theorem splitOnP_pieces (p : Char → Bool) (s : Str) : ∃ l ls, s.splitOnP p = l :: ls ∧ l <+: s ∧
    ∀ w ∈ ls, w <:+: s := by
  induction s with
  | nil => exact ⟨[], [], by simp, List.prefix_rfl, by simp⟩
  | cons a s ih =>
    obtain ⟨l, ls, hls, hl, hrest⟩ := ih
    rw [List.splitOnP_cons_eq_if_modifyHead, hls]
    split
    · refine ⟨[], l :: ls, rfl, List.nil_prefix, fun w hw => ?_⟩
      rcases List.mem_cons.mp hw with rfl | hw
      · exact List.infix_cons hl.isInfix
      · exact List.infix_cons (hrest w hw)
    · exact ⟨a :: l, ls, rfl, (List.prefix_cons_inj a).mpr hl, fun w hw => List.infix_cons (hrest w hw)⟩

/-- A piece of a text occurs in it. -/
theorem infix_of_mem_splitOnP {p : Char → Bool} {s w : Str} (h : w ∈ s.splitOnP p) : w <:+: s := by
  obtain ⟨l, ls, hls, hl, hrest⟩ := splitOnP_pieces p s
  rw [hls] at h
  rcases List.mem_cons.mp h with rfl | h
  · exact hl.isInfix
  · exact hrest w h

/-- Every word of a text is an infix of it. -/
theorem infix_of_mem_splitWhitespace {s w : Str} (h : w ∈ splitWhitespace s) : w <:+: s :=
  infix_of_mem_splitOnP (List.mem_filter.mp h).1

end Text

end NfsKlldap
