import Mathlib

/-! # Text as lists of characters

A string is the list of its Unicode scalar values, so that every text operation is a structural
recursion. The operations below follow the standard-library functions their names recall:

* **trimming** (`trim`) removes Unicode white space on both sides;
* **splitting**: `splitOnce` and `rsplitOnce` cut at the first and the last occurrence of a
  character, `splitN` makes at most `n` pieces, `lines` cuts a file into lines;
* **decimal numbers**: `decimal` prints a 32-bit number, `parseU32` reads one back, and
  `parseU32_decimal` is the round trip.

The lemmas are about how the cuts meet concatenation: a piece without the separator in front of a
separator is exactly the first field. -/

namespace NfsKlldap

/-- A string: the list of its Unicode scalar values. -/
abbrev Str := List Char

/-- Strings are compared character by character. -/
instance lawfulBEqStr : LawfulBEq (List Char) := List.instLawfulBEq

namespace Text

/-! ## White space -/

/-- The Unicode `White_Space` property. -/
def isWhitespace (c : Char) : Bool :=
  let n := c.toNat
  (9 ≤ n && n ≤ 13) || n == 0x20 || n == 0x85 || n == 0xA0 || n == 0x1680
    || (0x2000 ≤ n && n ≤ 0x200A) || n == 0x2028 || n == 0x2029 || n == 0x202F || n == 0x205F
    || n == 0x3000

/-- Remove leading and trailing white space. -/
def trim (s : Str) : Str := (s.dropWhile isWhitespace).rdropWhile isWhitespace

/-- Text that is blank or empty trims to nothing. -/
def isBlank (s : Str) : Bool := (trim s).isEmpty

/-- A trimmed text does not start with white space. -/
theorem head_trim {s t : Str} {c : Char} (h : trim s = c :: t) : isWhitespace c = false := by
  obtain ⟨u, hu⟩ := List.rdropWhile_prefix isWhitespace (s.dropWhile isWhitespace)
  rw [show (s.dropWhile isWhitespace).rdropWhile isWhitespace = c :: t from h] at hu
  have hd := List.head?_dropWhile_not isWhitespace s
  rw [← hu] at hd
  simpa using hd

/-- A trimmed text does not end with white space. -/
theorem getLast_trim {s : Str} (h : trim s ≠ []) : isWhitespace ((trim s).getLast h) = false :=
  Bool.eq_false_iff.mpr (List.rdropWhile_last_not isWhitespace _ h)

/-- Text whose two ends are not white space is left alone by `trim`. -/
theorem trim_eq_self {s : Str} (hhead : ∀ c ∈ s.head?, isWhitespace c = false)
    (hlast : ∀ c ∈ s.getLast?, isWhitespace c = false) : trim s = s := by
  have h1 : s.dropWhile isWhitespace = s := by
    cases s with
    | nil => rfl
    | cons c t => simp [hhead c (by simp)]
  rw [trim, h1, List.rdropWhile_eq_self_iff]
  intro hl
  simp [hlast _ (List.getLast?_eq_getLast_of_ne_nil hl)]

/-- `trim s = s` exactly when neither end of `s` is white space. -/
theorem trim_eq_self_iff {s : Str} : trim s = s ↔
    (∀ c ∈ s.head?, isWhitespace c = false) ∧ (∀ c ∈ s.getLast?, isWhitespace c = false) := by
  refine ⟨fun h => ⟨?_, ?_⟩, fun h => trim_eq_self h.1 h.2⟩
  · intro c hc
    obtain ⟨t, rfl⟩ : ∃ t, s = c :: t := by
      cases s with
      | nil => simp at hc
      | cons a t => exact ⟨t, by simpa using hc⟩
    exact head_trim h
  · intro c hc
    have hne : s ≠ [] := by rintro rfl; simp at hc
    have hne' : trim s ≠ [] := by rw [h]; exact hne
    have hl := getLast_trim hne'
    simp only [h] at hl
    rw [List.getLast?_eq_getLast_of_ne_nil hne] at hc
    simpa using (by simpa using hc : s.getLast hne = c) ▸ hl

/-- Trimming twice is trimming once. -/
@[simp] theorem trim_trim (s : Str) : trim (trim s) = trim s := by
  refine trim_eq_self (fun c hc => ?_) (fun c hc => ?_)
  · obtain ⟨t, ht⟩ : ∃ t, trim s = c :: t := by
      cases h : trim s with
      | nil => simp [h] at hc
      | cons a t => exact ⟨t, by simpa [h] using hc⟩
    exact head_trim ht
  · have hne : trim s ≠ [] := by intro h; simp [h] at hc
    rw [List.getLast?_eq_getLast_of_ne_nil hne] at hc
    exact (by simpa using hc : (trim s).getLast hne = c) ▸ getLast_trim hne

/-- Nothing is left after trimming exactly when every character is white space. -/
theorem trim_eq_nil_iff {s : Str} : trim s = [] ↔ ∀ c ∈ s, isWhitespace c = true := by
  rw [trim, List.rdropWhile_eq_nil_iff]
  constructor
  · intro h c hc
    by_contra hne
    have hd : s.dropWhile isWhitespace ≠ [] := by
      intro h0
      exact hne (List.dropWhile_eq_nil_iff.mp h0 c hc)
    have hhd := List.head?_dropWhile_not isWhitespace s
    cases hs : s.dropWhile isWhitespace with
    | nil => exact hd hs
    | cons a t =>
      rw [hs] at hhd h
      have ha := h a (by simp)
      simp [ha] at hhd
  · intro h c hc
    exact h c (List.dropWhile_sublist isWhitespace |>.subset hc)

/-- What `trim` takes off a text that starts with something printable is white space at its end. -/
theorem exists_trim_append {s : Str} (h : ∀ c ∈ s.head?, isWhitespace c = false) :
    ∃ u, s = trim s ++ u ∧ ∀ c ∈ u, isWhitespace c = true := by
  have hdrop : s.dropWhile isWhitespace = s := by
    cases s with
    | nil => rfl
    | cons a s => rw [List.dropWhile_cons, if_neg (by simp [h a rfl])]
  refine ⟨s.rtakeWhile isWhitespace, ?_, fun c hc => List.mem_rtakeWhile_imp hc⟩
  rw [trim, hdrop]
  exact List.rdropWhile_append_rtakeWhile.symm

/-- Trimming only drops characters. -/
theorem mem_of_mem_trim {s : Str} {c : Char} (h : c ∈ trim s) : c ∈ s :=
  (List.dropWhile_sublist _).subset ((List.rdropWhile_prefix _ _).subset h)

/-- Text that does not end in white space loses only its leading white space. -/
theorem trim_eq_dropWhile {s : Str} (h : ∀ c ∈ s.getLast?, isWhitespace c = false) :
    trim s = s.dropWhile isWhitespace := by
  rw [trim, List.rdropWhile_eq_self_iff]
  intro hne
  have hlast : s.getLast? = some ((s.dropWhile isWhitespace).getLast hne) := by
    obtain ⟨t, ht⟩ := List.dropWhile_suffix isWhitespace (l := s)
    rw [← List.getLast?_eq_some_getLast hne, ← List.getLast?_append_of_ne_nil t hne, ht]
  simp [h _ hlast]

/-- A text is blank exactly when every character of it is whitespace. -/
theorem isBlank_iff {s : Str} : isBlank s = true ↔ ∀ c ∈ s, isWhitespace c = true := by
  rw [isBlank, List.isEmpty_iff, trim_eq_nil_iff]

/-- White space in front is trimmed. -/
theorem trim_white_cons {c : Char} (hc : isWhitespace c = true) (s : Str) :
    trim (c :: s) = trim s := by
  rw [trim, List.dropWhile_cons_of_pos hc, trim]

/-- White space at the end is trimmed. -/
theorem trim_append_blank {u : Str} (hu : isBlank u = true) (s : Str) : trim (s ++ u) = trim s := by
  rw [isBlank_iff] at hu
  by_cases hs : trim s = []
  · rw [hs, trim_eq_nil_iff]
    exact List.forall_mem_append.mpr ⟨trim_eq_nil_iff.mp hs, hu⟩
  · have hfront : (s ++ u).dropWhile isWhitespace = s.dropWhile isWhitespace ++ u := by
      rw [List.dropWhile_append, if_neg]
      rw [List.isEmpty_iff, List.dropWhile_eq_nil_iff]
      exact fun h => hs (trim_eq_nil_iff.mpr h)
    rw [trim, hfront, trim]
    clear hfront
    generalize s.dropWhile isWhitespace = l
    induction u using List.reverseRecOn with
    | nil => rw [List.append_nil]
    | append_singleton u c ih =>
      rw [← List.append_assoc, List.rdropWhile_concat_pos _ _ _ (hu c (by simp)),
        ih (fun d hd => hu d (List.mem_append_left _ hd))]

/-! ## Joining -/

/-- A join starts like its first piece. -/
theorem head?_intercalate {s m : Str} (ms : List Str) (h : m ≠ []) :
    (s.intercalate (m :: ms)).head? = m.head? := by
  cases ms with
  | nil => simp [List.intercalate]
  | cons m' ms =>
    rw [List.intercalate, List.intersperse_cons_cons, List.flatten_cons,
      List.head?_append_of_ne_nil _ h]

/-- A character of joined text is one of the separator or of a piece. -/
theorem mem_intercalate {sep : Str} {ms : List Str} {c : Char} (h : c ∈ sep.intercalate ms) :
    c ∈ sep ∨ ∃ m ∈ ms, c ∈ m := by
  induction ms with
  | nil => simp [List.intercalate] at h
  | cons m ms ih =>
    cases ms with
    | nil => exact Or.inr ⟨m, by simp, by simpa [List.intercalate] using h⟩
    | cons m' ms =>
      rw [show sep.intercalate (m :: m' :: ms) = m ++ (sep ++ sep.intercalate (m' :: ms)) by
        simp [List.intercalate, List.intersperse], List.mem_append, List.mem_append] at h
      rcases h with h | h | h
      · exact Or.inr ⟨m, by simp, h⟩
      · exact Or.inl h
      · rcases ih h with h | ⟨x, hx, h⟩
        · exact Or.inl h
        · exact Or.inr ⟨x, List.mem_cons_of_mem _ hx, h⟩

/-- A join with one more piece. -/
theorem intercalate_concat (sep m : Str) {ms : List Str} (h : ms ≠ []) :
    sep.intercalate (ms ++ [m]) = sep.intercalate ms ++ (sep ++ m) := by
  induction ms with
  | nil => exact absurd rfl h
  | cons a ms ih =>
    rcases ms with _ | ⟨b, ms⟩
    · simp
    · rw [List.cons_append, List.cons_append, List.intercalate_cons_cons, List.intercalate_cons_cons,
        ← List.cons_append, ih (List.cons_ne_nil b ms)]
      simp

/-- A join ends in its last piece. -/
theorem exists_intercalate_concat (sep m : Str) (ms : List Str) :
    ∃ pre, sep.intercalate (ms ++ [m]) = pre ++ m := by
  induction ms with
  | nil => exact ⟨[], by simp [List.intercalate]⟩
  | cons a ms ih =>
    obtain ⟨pre, hpre⟩ := ih
    obtain ⟨b, bs, hb⟩ : ∃ b bs, ms ++ [m] = b :: bs :=
      List.exists_cons_of_ne_nil (by simp)
    refine ⟨a ++ (sep ++ pre), ?_⟩
    rw [hb] at hpre
    rw [List.cons_append, hb, List.intercalate, List.intersperse_cons_cons, List.flatten_cons,
      List.flatten_cons, ← List.intercalate, hpre]
    simp

/-- A join of trimmed, non-empty pieces is trimmed. -/
theorem trim_intercalate {sep : Str} {ms : List Str} (hne : ∀ m ∈ ms, m ≠ [])
    (ht : ∀ m ∈ ms, trim m = m) : trim (sep.intercalate ms) = sep.intercalate ms := by
  rcases List.eq_nil_or_concat ms with rfl | ⟨l, m, hms⟩
  · rfl
  · refine trim_eq_self ?_ ?_
    · intro c hc
      obtain ⟨a, as, has⟩ : ∃ a as, ms = a :: as := List.exists_cons_of_ne_nil (by simp [hms])
      have ha : a ∈ ms := by simp [has]
      rw [has, head?_intercalate _ (hne a ha)] at hc
      exact (trim_eq_self_iff.mp (ht a ha)).1 c hc
    · intro c hc
      have hm : m ∈ ms := by simp [hms]
      obtain ⟨pre, hpre⟩ := exists_intercalate_concat sep m l
      rw [hms, List.concat_eq_append, hpre, List.getLast?_append_of_ne_nil _ (hne m hm)] at hc
      exact (trim_eq_self_iff.mp (ht m hm)).2 c hc

/-! ## Cutting at a character -/

/-- Cut at the first occurrence of `c`. -/
def splitOnce (c : Char) : Str → Option (Str × Str)
  | [] => none
  | a :: s => if a = c then some ([], s) else (splitOnce c s).map fun p => (a :: p.1, p.2)

/-- Cut at the last occurrence of `c`. -/
def rsplitOnce (c : Char) : Str → Option (Str × Str)
  | [] => none
  | a :: s =>
    match rsplitOnce c s with
    | some p => some (a :: p.1, p.2)
    | none => if a = c then some ([], s) else none

/-- The text in front of the first `c` (the whole text when there is none). -/
def before (c : Char) (s : Str) : Str := s.takeWhile (· ≠ c)

/-- The text behind the last `c` (the whole text when there is none). -/
def afterLast (c : Char) (s : Str) : Str := ((rsplitOnce c s).map Prod.snd).getD s

/-- At most `n` pieces, cut at the first `n - 1` occurrences of `c`. -/
def splitN : Nat → Char → Str → List Str
  | 0, _, _ => []
  | 1, _, s => [s]
  | n + 2, c, s =>
    match splitOnce c s with
    | some p => p.1 :: splitN (n + 1) c p.2
    | none => [s]

/-- A text cannot be split at a character it does not hold. -/
theorem splitOnce_eq_none_iff {c : Char} {s : Str} : splitOnce c s = none ↔ c ∉ s := by
  induction s with
  | nil => simp [splitOnce]
  | cons a s ih =>
    by_cases h : a = c
    · simp [splitOnce, h]
    · simp [splitOnce, h, ih, Ne.symm h]

/-- A successful cut at the first `c` reassembles the text and leaves no `c` on the left. -/
theorem splitOnce_eq_some_iff {c : Char} {s l r : Str} :
    splitOnce c s = some (l, r) ↔ s = l ++ c :: r ∧ c ∉ l := by
  induction s generalizing l with
  | nil => simp [splitOnce]
  | cons a s ih =>
    by_cases h : a = c
    · subst h
      simp only [splitOnce, if_true, Option.some.injEq, Prod.mk.injEq]
      constructor
      · rintro ⟨rfl, rfl⟩
        simp
      · rintro ⟨hs, hl⟩
        cases l with
        | nil => simpa using hs
        | cons b l =>
          simp only [List.cons_append, List.cons.injEq] at hs
          exact absurd (by simp [hs.1]) hl
    · simp only [splitOnce, if_neg h, Option.map_eq_some_iff, Prod.exists, Prod.mk.injEq]
      constructor
      · rintro ⟨x, y, hxy, rfl, rfl⟩
        obtain ⟨hs, hx⟩ := ih.mp hxy
        exact ⟨by simp [hs], by simp [hx, Ne.symm h]⟩
      · rintro ⟨hs, hl⟩
        cases l with
        | nil =>
          simp only [List.nil_append, List.cons.injEq] at hs
          exact absurd hs.1 h
        | cons b l =>
          simp only [List.cons_append, List.cons.injEq] at hs
          obtain ⟨rfl, hs⟩ := hs
          exact ⟨l, r, ih.mpr ⟨hs, fun hc => hl (List.mem_cons_of_mem _ hc)⟩, rfl, rfl⟩

/-- A piece without `c` in front of a `c` is what the first cut returns. -/
theorem splitOnce_append {c : Char} {l : Str} (r : Str) (h : c ∉ l) :
    splitOnce c (l ++ c :: r) = some (l, r) :=
  splitOnce_eq_some_iff.mpr ⟨rfl, h⟩

/-- A text cannot be split from the right at a character it does not hold. -/
theorem rsplitOnce_eq_none_iff {c : Char} {s : Str} : rsplitOnce c s = none ↔ c ∉ s := by
  induction s with
  | nil => simp [rsplitOnce]
  | cons a s ih =>
    rw [rsplitOnce]
    cases h : rsplitOnce c s with
    | some p =>
      have hc : c ∈ s := by
        by_contra hc
        simp [ih.mpr hc] at h
      simp [hc]
    | none =>
      have hc : c ∉ s := ih.mp h
      by_cases ha : a = c
      · simp [ha]
      · simp [ha, hc, Ne.symm ha]

/-- A successful cut at the last `c` reassembles the text and leaves no `c` on the right. -/
theorem rsplitOnce_eq_some_iff {c : Char} {s l r : Str} :
    rsplitOnce c s = some (l, r) ↔ s = l ++ c :: r ∧ c ∉ r := by
  induction s generalizing l with
  | nil => simp [rsplitOnce]
  | cons a s ih =>
    rw [rsplitOnce]
    constructor
    · intro h
      cases hp : rsplitOnce c s with
      | some p =>
        rw [hp] at h
        simp only [Option.some.injEq, Prod.mk.injEq] at h
        obtain ⟨rfl, rfl⟩ := h
        obtain ⟨hs, hr⟩ := ih.mp hp
        exact ⟨by simp [hs], hr⟩
      | none =>
        rw [hp] at h
        by_cases ha : a = c
        · simp only [if_pos ha, Option.some.injEq, Prod.mk.injEq] at h
          obtain ⟨rfl, rfl⟩ := h
          exact ⟨by simp [ha], rsplitOnce_eq_none_iff.mp hp⟩
        · simp [ha] at h
    · rintro ⟨hs, hr⟩
      cases l with
      | nil =>
        simp only [List.nil_append, List.cons.injEq] at hs
        obtain ⟨rfl, rfl⟩ := hs
        simp [rsplitOnce_eq_none_iff.mpr hr]
      | cons b l =>
        simp only [List.cons_append, List.cons.injEq] at hs
        obtain ⟨rfl, hs⟩ := hs
        simp [ih.mpr ⟨hs, hr⟩]

/-- The last `c` of a text is looked for behind any earlier one. -/
theorem rsplitOnce_append_cons (c : Char) (l r : Str) :
    rsplitOnce c (l ++ c :: r)
      = some (((rsplitOnce c r).map fun x => (l ++ c :: x.1, x.2)).getD (l, r)) := by
  cases h : rsplitOnce c r with
  | none =>
    have hr := rsplitOnce_eq_none_iff.mp h
    rw [Option.map_none, Option.getD_none]
    exact rsplitOnce_eq_some_iff.mpr ⟨rfl, hr⟩
  | some x =>
    obtain ⟨hr, hx⟩ := rsplitOnce_eq_some_iff.mp h
    rw [Option.map_some, Option.getD_some]
    exact rsplitOnce_eq_some_iff.mpr ⟨by rw [hr]; simp, hx⟩


/-- `before c` stops at the first `c`. -/
theorem before_append {c : Char} {l : Str} (r : Str) (h : c ∉ l) : before c (l ++ c :: r) = l := by
  rw [before, List.takeWhile_append_of_pos]
  · simp
  · intro a ha
    simpa using ne_of_mem_of_not_mem ha h

/-- Without a `c` the text in front of it is everything. -/
theorem before_eq_self {c : Char} {s : Str} (h : c ∉ s) : before c s = s := by
  rw [before, List.takeWhile_eq_self_iff]
  intro a ha
  simpa using ne_of_mem_of_not_mem ha h

/-- What stands before the first of a character does not hold it. -/
theorem not_mem_before (c : Char) (s : Str) : c ∉ before c s := by
  intro h
  simpa using List.mem_takeWhile_imp h

/-- What follows a `c` does not matter for the part in front of the first `c`. -/
theorem before_append_cons (c : Char) (s r : Str) : before c (s ++ c :: r) = before c s := by
  induction s with
  | nil => simp [before]
  | cons a s ih =>
    by_cases h : a = c
    · simp [before, h]
    · simpa [before, h] using ih

/-- Cutting at the first `c` is unambiguous. -/
theorem append_cons_inj {c : Char} {l l' r r' : Str} (hl : c ∉ l) (hl' : c ∉ l') :
    l ++ c :: r = l' ++ c :: r' ↔ l = l' ∧ r = r' := by
  constructor
  · intro h
    have hs := splitOnce_append r hl
    rw [h, splitOnce_append r' hl'] at hs
    simpa [eq_comm] using hs
  · rintro ⟨rfl, rfl⟩
    rfl

/-- A text starts with `w` and then a `c` when `w` is its part in front of the first `c`. -/
theorem isPrefixOf_concat_iff {c : Char} {w s : Str} (hw : c ∉ w) (hs : c ∈ s) :
    (w ++ [c]).isPrefixOf s = true ↔ before c s = w := by
  rw [List.isPrefixOf_iff_prefix]
  constructor
  · rintro ⟨t, rfl⟩
    rw [List.append_assoc]
    exact before_append t hw
  · rintro rfl
    obtain ⟨⟨l, r⟩, hp⟩ :=
      Option.ne_none_iff_exists'.mp (mt splitOnce_eq_none_iff.mp (not_not.mpr hs))
    obtain ⟨rfl, hl⟩ := splitOnce_eq_some_iff.mp hp
    rw [before_append r hl]
    exact ⟨r, by simp⟩

/-- A text is its part in front of the first `c`, then either nothing or the rest after a `c`. -/
theorem eq_before_append (c : Char) (s : Str) :
    (c ∉ s ∧ before c s = s) ∨ ∃ r, s = before c s ++ c :: r := by
  by_cases h : c ∈ s
  · obtain ⟨⟨l, r⟩, hp⟩ :=
      Option.ne_none_iff_exists'.mp (mt splitOnce_eq_none_iff.mp (not_not.mpr h))
    obtain ⟨hs, hl⟩ := splitOnce_eq_some_iff.mp hp
    refine Or.inr ⟨r, ?_⟩
    rw [hs, before_append r hl]
  · exact Or.inl ⟨h, before_eq_self h⟩

/-- The field list of a text starts with what stands in front of the first separator. -/
theorem head?_splitOn (c : Char) (s : Str) : (s.splitOn c).head? = some (before c s) := by
  rcases eq_before_append c s with ⟨h, hb⟩ | ⟨r, hr⟩
  · rw [List.splitOn_eq_singleton h, hb]
    rfl
  · rw [hr, List.splitOn_append_cons_self_of_not_mem (not_mem_before c s),
      before_append r (not_mem_before c s)]
    rfl

/-- No field holds the separator. -/
theorem not_mem_of_mem_splitOn {c : Char} {s p : Str} (h : p ∈ s.splitOn c) : c ∉ p := by
  -- peel off what stands in front of the first separator
  induction hn : s.length using Nat.strong_induction_on generalizing s with
  | h n ih =>
    rcases eq_before_append c s with ⟨hc, -⟩ | ⟨r, hr⟩
    · rw [List.splitOn_eq_singleton hc, List.mem_singleton] at h
      exact h ▸ hc
    · have hlen : r.length < n := by
        rw [← hn, hr, List.length_append, List.length_cons]
        omega
      rw [hr, List.splitOn_append_cons_self_of_not_mem (not_mem_before c s)] at h
      rcases List.mem_cons.mp h with rfl | h
      · exact not_mem_before c s
      · exact ih r.length hlen h rfl

/-- Peeling one field off a bounded split. -/
theorem splitN_append {c : Char} {l : Str} (n : Nat) (r : Str) (h : c ∉ l) :
    splitN (n + 2) c (l ++ c :: r) = l :: splitN (n + 1) c r := by
  rw [splitN, splitOnce_append r h]

/-- Without the character, the part after the last one is the whole text. -/
theorem afterLast_eq_self {c : Char} {s : Str} (h : c ∉ s) : afterLast c s = s := by
  rw [afterLast, rsplitOnce_eq_none_iff.mpr h]
  rfl

/-- What stands after the last of a character does not hold it. -/
theorem not_mem_afterLast (c : Char) (s : Str) : c ∉ afterLast c s := by
  cases h : rsplitOnce c s with
  | none =>
    rw [afterLast, h]
    exact rsplitOnce_eq_none_iff.mp h
  | some p =>
    rw [afterLast, h]
    exact (rsplitOnce_eq_some_iff.mp h).2

/-- What stands after the last of a character is made of the text's characters. -/
theorem mem_of_mem_afterLast {c d : Char} {s : Str} (h : d ∈ afterLast c s) : d ∈ s := by
  cases hs : rsplitOnce c s with
  | none =>
    rw [afterLast, hs] at h
    exact h
  | some p =>
    rw [afterLast, hs] at h
    rw [(rsplitOnce_eq_some_iff.mp hs).1]
    exact List.mem_append_right _ (List.mem_cons_of_mem _ h)

/-- What stands in front of the first separator of a trimmed text comes from the front. -/
theorem mem_of_mem_before_trim {c d : Char} {l r : Str} (hws : isWhitespace c = false)
    (hc : c ∉ l) (h : d ∈ before c (trim (l ++ c :: r))) : d ∈ l := by
  have hdrop : (l ++ c :: r).dropWhile isWhitespace = l.dropWhile isWhitespace ++ c :: r := by
    clear h
    induction l with
    | nil => simp [hws]
    | cons a l ih =>
      rw [List.cons_append, List.dropWhile_cons, List.dropWhile_cons]
      split
      · exact ih fun hmem => hc (List.mem_cons_of_mem a hmem)
      · rfl
  have hfree : c ∉ l.dropWhile isWhitespace := fun hmem => hc ((List.dropWhile_sublist _).mem hmem)
  obtain ⟨t, ht⟩ : trim (l ++ c :: r) <+: l.dropWhile isWhitespace ++ c :: r := by
    rw [trim, hdrop]
    exact List.rdropWhile_prefix _ _
  have hmem : d ∈ before c (trim (l ++ c :: r) ++ t) := by
    rw [before, List.takeWhile_append]
    split
    · exact List.mem_append_left _ ((List.takeWhile_sublist _).mem h)
    · exact h
  rw [ht, before_append r hfree] at hmem
  exact (List.dropWhile_sublist _).mem hmem

/-! ## Lines -/

/-- Drop one trailing carriage return. -/
def stripCr (s : Str) : Str := if s.getLast? = some '\r' then s.dropLast else s

/-- The lines of a text: pieces between line feeds, each without a carriage return in front of its
line feed; a text that ends in a line feed has no empty last line. -/
def lines (s : Str) : List Str :=
  let pieces := s.splitOn '\n'
  pieces.dropLast.map stripCr ++ (pieces.getLast?.filter (· ≠ [])).toList

/-- No line holds a line feed. -/
theorem not_mem_of_mem_lines {s l : Str} (h : l ∈ lines s) : '\n' ∉ l := by
  rw [lines, List.mem_append, List.mem_map] at h
  rcases h with ⟨p, hp, rfl⟩ | h
  · have hlf := not_mem_of_mem_splitOn (List.mem_of_mem_dropLast hp)
    unfold stripCr
    split
    · exact fun hmem => hlf (List.mem_of_mem_dropLast hmem)
    · exact hlf
  · rw [Option.mem_toList, Option.filter_eq_some_iff] at h
    exact not_mem_of_mem_splitOn (List.mem_of_getLast? h.1)

/-- A file written line by line: every line ends in a line feed. -/
def unlines (ls : List Str) : Str := ls.flatMap (· ++ ['\n'])

/-- Lines joined with line feeds and closed with one are written line by line. -/
theorem intercalate_append_newline {ls : List Str} (h : ls ≠ []) :
    ['\n'].intercalate ls ++ ['\n'] = unlines ls := by
  induction ls with
  | nil => exact absurd rfl h
  | cons l ls ih =>
    rcases ls with _ | ⟨l', ls⟩
    · simp [unlines]
    · rw [List.intercalate_cons_cons, List.append_assoc, ih (List.cons_ne_nil l' ls)]
      rfl

/-- A carriage return at the end of a line is trimmed away in any case. -/
@[simp] theorem trim_stripCr (s : Str) : trim (stripCr s) = trim s := by
  rw [stripCr]
  split
  · rename_i h
    obtain ⟨front, rfl⟩ := List.getLast?_eq_some_iff.mp h
    rw [List.dropLast_concat, trim_append_blank (by decide)]
  · rfl

/-- A file written line by line is read back but for carriage returns at the ends of lines. -/
theorem lines_unlines_map {ls : List Str} (hlf : ∀ l ∈ ls, '\n' ∉ l) :
    lines (unlines ls) = ls.map stripCr := by
  have hpieces : (unlines ls).splitOn '\n' = ls ++ [[]] := by
    induction ls with
    | nil => rfl
    | cons l ls ih =>
      rw [unlines, List.flatMap_cons, List.append_assoc, List.singleton_append,
        List.splitOn_append_cons_self_of_not_mem (hlf l List.mem_cons_self), ← unlines,
        ih fun m hm => hlf m (List.mem_cons_of_mem _ hm), List.cons_append]
  simp [lines, hpieces]

/-- A file written line by line is read back line by line, unless a line holds a line feed or ends
in a carriage return. -/
theorem lines_unlines {ls : List Str} (hlf : ∀ l ∈ ls, '\n' ∉ l)
    (hcr : ∀ l ∈ ls, l.getLast? ≠ some '\r') : lines (unlines ls) = ls := by
  rw [lines_unlines_map hlf]
  refine (List.map_congr_left fun l hl => ?_).trans (List.map_id' ls)
  rw [stripCr, if_neg (hcr l hl)]

/-! ## ASCII case -/

/-- Uppercase the ASCII letters of a text. -/
def toAsciiUppercase (s : Str) : Str := s.map Char.toUpper

/-- Lowercase the ASCII letters of a text. -/
def toAsciiLowercase (s : Str) : Str := s.map Char.toLower

/-- Uppercasing moves the lower-case ASCII letters and nothing else. -/
theorem toUpper_cases (c : Char) :
    (¬ (97 ≤ c.toNat ∧ c.toNat ≤ 122) ∧ c.toUpper = c) ∨
      (97 ≤ c.toNat ∧ c.toNat ≤ 122 ∧ c.toUpper.toNat = c.toNat - 32) := by
  by_cases h : 'a'.val ≤ c.val ∧ c.val ≤ 'z'.val
  · have hn : 97 ≤ c.toNat ∧ c.toNat ≤ 122 := by
      rw [UInt32.le_iff_toNat_le, UInt32.le_iff_toNat_le] at h
      exact h
    refine Or.inr ⟨hn.1, hn.2, ?_⟩
    have hup : c.toUpper.toNat = (c.val + ('A'.val - 'a'.val)).toNat := by
      rw [Char.toUpper, dif_pos h]
      rfl
    rw [hup, UInt32.toNat_add, show ('A'.val - 'a'.val).toNat = 2 ^ 32 - 32 by decide]
    have hv : c.val.toNat = c.toNat := rfl
    omega
  · refine Or.inl ⟨?_, ?_⟩
    · intro hn
      apply h
      rw [UInt32.le_iff_toNat_le, UInt32.le_iff_toNat_le]
      exact hn
    · rw [Char.toUpper, dif_neg h]

/-- Uppercasing a character twice is uppercasing it once. -/
theorem toUpper_toUpper (c : Char) : c.toUpper.toUpper = c.toUpper := by
  rcases toUpper_cases c with ⟨-, h⟩ | ⟨h1, h2, h3⟩
  · rw [h]
    exact h
  · rcases toUpper_cases c.toUpper with ⟨-, h⟩ | ⟨h4, -, -⟩
    · exact h
    · omega

/-- Uppercasing makes no at sign out of another character. -/
theorem toUpper_eq_at_iff (c : Char) : c.toUpper = '@' ↔ c = '@' := by
  rcases toUpper_cases c with ⟨-, h⟩ | ⟨h1, h2, h3⟩
  · rw [h]
  · have hat : '@'.toNat = 64 := rfl
    constructor
    · intro h
      rw [h] at h3
      omega
    · rintro rfl
      omega

/-- Uppercasing keeps a character whitespace or not. -/
theorem isWhitespace_toUpper (c : Char) : isWhitespace c.toUpper = isWhitespace c := by
  rcases toUpper_cases c with ⟨-, h⟩ | ⟨h1, h2, h3⟩
  · rw [h]
  · have hc : isWhitespace c = false := by
      simp only [isWhitespace, Bool.or_eq_false_iff, Bool.and_eq_false_iff, decide_eq_false_iff_not,
        beq_eq_false_iff_ne]
      omega
    rw [hc]
    simp only [isWhitespace, Bool.or_eq_false_iff, Bool.and_eq_false_iff, decide_eq_false_iff_not,
      beq_eq_false_iff_ne]
    omega

/-- Lowercasing twice is lowercasing once. -/
@[simp] theorem toAsciiLowercase_idem (s : Str) :
    toAsciiLowercase (toAsciiLowercase s) = toAsciiLowercase s := by
  simp [toAsciiLowercase]

/-- Uppercasing twice is uppercasing once. -/
@[simp] theorem toAsciiUppercase_idem (s : Str) :
    toAsciiUppercase (toAsciiUppercase s) = toAsciiUppercase s := by
  rw [toAsciiUppercase, toAsciiUppercase, List.map_map]
  exact List.map_congr_left fun c _ => toUpper_toUpper c

/-- Case does not matter for trimming. -/
theorem trim_toAsciiUppercase (s : Str) : trim (toAsciiUppercase s) = toAsciiUppercase (trim s) := by
  have hws : isWhitespace ∘ Char.toUpper = isWhitespace := funext isWhitespace_toUpper
  rw [trim, trim, toAsciiUppercase, toAsciiUppercase, List.dropWhile_map, hws, List.rdropWhile,
    List.rdropWhile, ← List.map_reverse, List.dropWhile_map, hws, List.map_reverse]

/-- Case does not matter for cutting at the last `@`. -/
theorem rsplitOnce_toAsciiUppercase (s : Str) :
    rsplitOnce '@' (toAsciiUppercase s)
      = (rsplitOnce '@' s).map fun x => (toAsciiUppercase x.1, toAsciiUppercase x.2) := by
  induction s with
  | nil => rfl
  | cons a s ih =>
    rw [toAsciiUppercase, List.map_cons, rsplitOnce, rsplitOnce, ← toAsciiUppercase, ih]
    cases rsplitOnce '@' s with
    | some x => rfl
    | none =>
      by_cases ha : a = '@'
      · simp [ha, (toUpper_eq_at_iff '@').mpr rfl, toAsciiUppercase]
      · simp [ha, mt (toUpper_eq_at_iff a).mp ha]

/-! ## Substrings -/

/-- The text before and after the first occurrence of `sep`. -/
def splitOnceStr (sep : Str) : Str → Option (Str × Str)
  | [] => if sep = [] then some ([], []) else none
  | c :: s =>
    if sep.isPrefixOf (c :: s) then some ([], (c :: s).drop sep.length)
    else (splitOnceStr sep s).map fun p => (c :: p.1, p.2)

/-- `str::starts_with` for a string literal. -/
def startsWith (s : Str) (w : String) : Bool := w.toList.isPrefixOf s

/-- Replace every occurrence of one character by a text. -/
def replaceChar (c : Char) (w s : Str) : Str := s.flatMap fun d => if d = c then w else [d]

/-- `trim_end_matches` for one character. -/
def trimEndMatches (c : Char) (s : Str) : Str := s.rdropWhile (· = c)

/-! ## Decimal numbers -/

/-- The decimal digits of a number. -/
def natDecimal (n : Nat) : Str := Nat.toDigits 10 n

/-- The decimal digits of a 32-bit number. -/
def decimal (n : UInt32) : Str := Nat.toDigits 10 n.toNat

/-- Drop one leading plus sign. -/
def stripPlus : Str → Str
  | '+' :: s => s
  | s => s

/-- Read a 32-bit number: an optional plus sign and at least one ASCII digit, no overflow. -/
def parseU32 (s : Str) : Option UInt32 :=
  let d := stripPlus s
  let v := Nat.ofDigitChars 10 d 0
  if d ≠ [] ∧ d.all Char.isDigit ∧ v < 2 ^ 32 then some (UInt32.ofNat v) else none

/-- Read a number of an unsigned type with `bits` bits. -/
def parseBits (bits : Nat) (s : Str) : Option Nat :=
  let d := stripPlus s
  let v := Nat.ofDigitChars 10 d 0
  if d ≠ [] ∧ d.all Char.isDigit ∧ v < 2 ^ bits then some v else none

/-- A number is printed with at least one digit. -/
theorem natDecimal_ne_nil (n : Nat) : natDecimal n ≠ [] := Nat.toDigits_ne_nil

/-- Every character of a printed number is a digit. -/
theorem isDigit_of_mem_natDecimal {n : Nat} {c : Char} (h : c ∈ natDecimal n) : c.isDigit = true :=
  Nat.isDigit_of_mem_toDigits (by decide) (by decide) h

/-- A printed number holds no character that is not a digit. -/
theorem not_mem_natDecimal {c : Char} (hc : c.isDigit = false) (n : Nat) : c ∉ natDecimal n := by
  intro h
  simp [isDigit_of_mem_natDecimal h] at hc

/-- A machine number is printed as its value is. -/
theorem decimal_eq_natDecimal (n : UInt32) : decimal n = natDecimal n.toNat := rfl

/-- A machine number is printed with at least one digit. -/
theorem decimal_ne_nil (n : UInt32) : decimal n ≠ [] := natDecimal_ne_nil _

/-- A machine number is printed in digits. -/
theorem isDigit_of_mem_decimal {n : UInt32} {c : Char} (h : c ∈ decimal n) : c.isDigit = true :=
  isDigit_of_mem_natDecimal h

/-- A machine number is printed without any other character. -/
theorem not_mem_decimal {c : Char} (hc : c.isDigit = false) (n : UInt32) : c ∉ decimal n :=
  not_mem_natDecimal hc _

/-- Digits are not white space. -/
theorem isWhitespace_of_isDigit {c : Char} (h : c.isDigit = true) : isWhitespace c = false := by
  simp only [Char.isDigit, ge_iff_le, Bool.and_eq_true, decide_eq_true_eq] at h
  have h1 : 48 ≤ c.toNat := by simpa using UInt32.le_iff_toNat_le.mp h.1
  have h2 : c.toNat ≤ 57 := by simpa using UInt32.le_iff_toNat_le.mp h.2
  simp only [isWhitespace, Bool.or_eq_false_iff, Bool.and_eq_false_iff, decide_eq_false_iff_not,
    beq_eq_false_iff_ne]
  omega

/-- A printed number has nothing to trim. -/
@[simp] theorem trim_natDecimal (n : Nat) : trim (natDecimal n) = natDecimal n :=
  trim_eq_self
    (fun _ hc => isWhitespace_of_isDigit (isDigit_of_mem_natDecimal (List.mem_of_mem_head? hc)))
    (fun _ hc => isWhitespace_of_isDigit (isDigit_of_mem_natDecimal (List.mem_of_getLast? hc)))

/-- A printed machine number has nothing to trim. -/
@[simp] theorem trim_decimal (n : UInt32) : trim (decimal n) = decimal n := trim_natDecimal _

/-- A printed number has no sign. -/
theorem stripPlus_natDecimal (n : Nat) : stripPlus (natDecimal n) = natDecimal n := by
  unfold stripPlus
  split
  · rename_i t ht
    exact absurd (by simp [ht]) (not_mem_natDecimal (c := '+') (by decide) n)
  · rfl

/-- **A printed number reads back as itself.** -/
theorem ofDigitChars_natDecimal (n : Nat) : Nat.ofDigitChars 10 (natDecimal n) 0 = n :=
  Nat.ofDigitChars_ten_toDigits

/-- A printed number that fits is read back. -/
theorem parseBits_natDecimal {bits n : Nat} (h : n < 2 ^ bits) :
    parseBits bits (natDecimal n) = some n := by
  simp only [parseBits, stripPlus_natDecimal, ofDigitChars_natDecimal]
  rw [if_pos ⟨natDecimal_ne_nil n, List.all_eq_true.mpr fun c => isDigit_of_mem_natDecimal, h⟩]

/-- **Decimal round trip**: a printed number is read back. -/
@[simp] theorem parseU32_decimal (n : UInt32) : parseU32 (decimal n) = some n := by
  simp only [parseU32, decimal_eq_natDecimal, stripPlus_natDecimal, ofDigitChars_natDecimal]
  rw [if_pos ⟨natDecimal_ne_nil _, List.all_eq_true.mpr fun c => isDigit_of_mem_natDecimal,
    n.toNat_lt⟩]
  simp

/-- Two numbers that print alike are equal. -/
theorem natDecimal_injective {m n : Nat} (h : natDecimal m = natDecimal n) : m = n := by
  rw [← ofDigitChars_natDecimal m, h, ofDigitChars_natDecimal]

/-- Different numbers print differently. -/
theorem decimal_injective {m n : UInt32} (h : decimal m = decimal n) : m = n := by
  have := congrArg parseU32 h
  simpa using this

end Text

open Text

/-! ## Words -/

/-- `split_whitespace`: the words of a text. -/
def splitWhitespace (s : Str) : List Str := (s.splitOnP isWhitespace).filter (· ≠ [])

/-- The text occurs in the other one. -/
def containsStr (word s : Str) : Bool := (splitOnceStr word s).isSome

/-- Equality of texts up to ASCII case. -/
def eqIgnoreAsciiCase (a b : Str) : Bool := toAsciiLowercase a = toAsciiLowercase b

/-- Which characters are letters or digits, by the Unicode tables (`char::is_alphanumeric`). -/
structure CharTable where
  isAlphanumeric : Char → Bool
  ascii : ∀ c : Char, c.toNat < 128 → isAlphanumeric c = c.isAlphanum

/-- The table of a world without other scripts. -/
def CharTable.plain : CharTable := ⟨Char.isAlphanum, fun _ _ => rfl⟩

end NfsKlldap
