import Mathlib

/-! # Files as bytes

A file is a list of bytes, and a text is one that is valid UTF-8. Texts are cut at byte positions, which
must not lie inside a character.

* **`validUtf8`**, **`isCharBoundary`**, **`sliceFrom`** — texts, and their tails;
* **`lines`** — the lines of a file;
* **`exists_line_of_suffix`** — the lines of a tail are parts of lines of the whole. -/

namespace NfsKlldap

/-- A file. -/
abbrev Bytes := List UInt8

namespace Bytes

/-- An ASCII text. -/
def ofAscii (s : String) : Bytes := s.toList.map Char.toUInt8

/-! ## UTF-8 -/

/-- A byte inside a character. -/
def isContinuation (b : UInt8) : Bool := 0x80 ≤ b && b ≤ 0xBF

/-- The bytes are the UTF-8 encoding of a text: shortest forms, no surrogates, nothing beyond the last
code point. -/
def validUtf8 : Bytes → Bool
  | [] => true
  | a :: rest =>
    if a ≤ 0x7F then validUtf8 rest
    else if 0xC2 ≤ a && a ≤ 0xDF then
      match rest with
      | b :: rest => isContinuation b && validUtf8 rest
      | [] => false
    else if 0xE0 ≤ a && a ≤ 0xEF then
      match rest with
      | b :: c :: rest =>
        (if a = 0xE0 then 0xA0 ≤ b else true) && (if a = 0xED then b ≤ 0x9F else true) &&
          isContinuation b && isContinuation c && validUtf8 rest
      | _ => false
    else if 0xF0 ≤ a && a ≤ 0xF4 then
      match rest with
      | b :: c :: d :: rest =>
        (if a = 0xF0 then 0x90 ≤ b else true) && (if a = 0xF4 then b ≤ 0x8F else true) &&
          isContinuation b && isContinuation c && isContinuation d && validUtf8 rest
      | _ => false
    else false

/-- `is_char_boundary`: the position is an end of the text or the start of a character. -/
def isCharBoundary (s : Bytes) (i : ℕ) : Bool :=
  i = 0 || i = s.length || s[i]?.any fun b => !isContinuation b

/-- `&s[i..]`, which panics inside a character and beyond the end. -/
def sliceFrom (s : Bytes) (i : ℕ) : Option Bytes :=
  if isCharBoundary s i then some (s.drop i) else none

/-! ## Lines -/

/-- `to_ascii_lowercase` -/
def toAsciiLowercase (s : Bytes) : Bytes :=
  s.map fun b => if 0x41 ≤ b && b ≤ 0x5A then b + 0x20 else b

/-- Drop one trailing carriage return. -/
def stripCr (s : Bytes) : Bytes := if s.getLast? = some 0x0D then s.dropLast else s

/-- The lines of a file: the pieces between line feeds, each without a carriage return in front of its
line feed; a file that ends in a line feed has no empty last line. -/
def lines (s : Bytes) : List Bytes :=
  let pieces := s.splitOn 0x0A
  pieces.dropLast.map stripCr ++ (pieces.getLast?.filter (· ≠ [])).toList

/-- Dropping the carriage return of a suffix leaves an infix of the whole line without its own. -/
theorem stripCr_suffix {s t : Bytes} (h : t <:+ s) : stripCr t <:+: stripCr s := by
  obtain ⟨u, rfl⟩ := h
  rcases List.eq_nil_or_concat t with rfl | ⟨t, b, rfl⟩
  · exact List.nil_infix
  · rw [List.concat_eq_append, ← List.append_assoc]
    unfold stripCr
    by_cases hb : b = 0x0D
    · simp only [hb, List.getLast?_concat, if_pos, List.dropLast_concat]
      exact (List.suffix_append u t).isInfix
    · have hne : some b ≠ some 0x0D := fun h => hb (Option.some.inj h)
      simp only [List.getLast?_concat, if_neg hne]
      rw [List.append_assoc]
      exact (List.suffix_append u (t ++ [b])).isInfix

/-- The pieces of a tail are the last pieces of the whole, but for the first one, which is a tail of one
of them. -/
theorem splitOn_append (u t : Bytes) : ∃ front v p rest, t.splitOn 0x0A = p :: rest ∧
    (u ++ t).splitOn 0x0A = front ++ (v ++ p) :: rest := by
  induction u with
  | nil =>
    obtain ⟨p, rest, h⟩ := List.exists_cons_of_ne_nil (List.splitOn_ne_nil 0x0A t)
    exact ⟨[], [], p, rest, h, by simpa using h⟩
  | cons b u ih =>
    obtain ⟨front, v, p, rest, ht, hut⟩ := ih
    rw [List.cons_append, List.splitOn_cons_eq_if_modifyHead, hut]
    split
    · exact ⟨[] :: front, v, p, rest, ht, rfl⟩
    · cases front with
      | nil => exact ⟨[], b :: v, p, rest, ht, rfl⟩
      | cons f front => exact ⟨(b :: f) :: front, v, p, rest, ht, rfl⟩

/-- **The lines of a tail** are parts of lines of the whole. -/
theorem exists_line_of_suffix {s t l : Bytes} (h : t <:+ s) (hl : l ∈ lines t) :
    ∃ l' ∈ lines s, l <:+: l' := by
  obtain ⟨u, rfl⟩ := h
  obtain ⟨front, v, p, rest, ht, hut⟩ := splitOn_append u t
  simp only [lines, ht, hut, List.mem_append, List.mem_map, Option.mem_toList,
    Option.filter_eq_some_iff, decide_eq_true_eq] at hl ⊢
  cases rest with
  | nil =>
    -- the tail is an unfinished line
    rcases hl with ⟨q, hq, -⟩ | ⟨hlast, hne⟩
    · exact absurd hq List.not_mem_nil
    · obtain rfl : p = l := Option.some.inj hlast
      refine ⟨v ++ p, .inr ⟨by simp, by simp [hne]⟩, (List.suffix_append v p).isInfix⟩
  | cons r rest =>
    have hinit : (front ++ (v ++ p) :: r :: rest).dropLast =
        front ++ (v ++ p) :: (r :: rest).dropLast := by
      rw [List.dropLast_append_of_ne_nil (List.cons_ne_nil _ _)]
      rfl
    rw [hinit]
    rcases hl with ⟨q, hq, rfl⟩ | ⟨hlast, hne⟩
    · rcases List.mem_cons.mp hq with rfl | hq
      · exact ⟨stripCr (v ++ q), .inl ⟨v ++ q, by simp, rfl⟩,
          stripCr_suffix (List.suffix_append v q)⟩
      · exact ⟨stripCr q, .inl ⟨q, by simp [hq], rfl⟩, List.infix_rfl⟩
    · refine ⟨l, .inr ⟨?_, hne⟩, List.infix_rfl⟩
      rw [List.getLast?_append_of_ne_nil _ (List.cons_ne_nil _ _), List.getLast?_cons_cons]
      rwa [List.getLast?_cons_cons] at hlast

end Bytes

end NfsKlldap
