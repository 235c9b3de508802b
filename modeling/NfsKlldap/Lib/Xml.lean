import NfsKlldap.Lib.Text

/-! # Documents of elements and text

The part of XML that small service files use: a declaration, a document type, comments, one root
element with elements and text in it, and the five named entities. Attributes are not looked into.

A document is **scanned** into tokens, and what they stand for is **read** with a stack of open
elements; the result is the list of the elements with the text directly in them.

* **`escape`**, **`unescape`**, **`unescape_escape`** — text and its entities;
* **`scan_render`**, **`readXml_render`** — tokens that are written are scanned and read again;
* **`scan_render_none`** — a document is not well formed when two dashes follow each other in a
  comment. -/

namespace NfsKlldap

namespace Xml

open Text

/-- The characters of a document. -/
def isXmlChar (c : Char) : Bool :=
  let n := c.toNat
  n = 9 || n = 10 || n = 13 || (0x20 ≤ n && n ≤ 0xD7FF) || (0xE000 ≤ n && n ≤ 0xFFFD) || 0x10000 ≤ n

/-- An entity for each of the five reserved characters. -/
def escapeChar (c : Char) : Str :=
  if c = '&' then "&amp;".toList
  else if c = '<' then "&lt;".toList
  else if c = '>' then "&gt;".toList
  else if c = '"' then "&quot;".toList
  else if c = '\'' then "&apos;".toList
  else [c]

/-- Escapes every character that would be read as markup. -/
def escape (s : Str) : Str := s.flatMap escapeChar

/-- The text that stands for a text with entities; other references have no meaning here. -/
def unescape : Str → Option Str
  | [] => some []
  | '&' :: 'a' :: 'm' :: 'p' :: ';' :: s => (unescape s).map ('&' :: ·)
  | '&' :: 'l' :: 't' :: ';' :: s => (unescape s).map ('<' :: ·)
  | '&' :: 'g' :: 't' :: ';' :: s => (unescape s).map ('>' :: ·)
  | '&' :: 'q' :: 'u' :: 'o' :: 't' :: ';' :: s => (unescape s).map ('"' :: ·)
  | '&' :: 'a' :: 'p' :: 'o' :: 's' :: ';' :: s => (unescape s).map ('\'' :: ·)
  | c :: s => if c = '&' then none else (unescape s).map (c :: ·)

/-! ## Scanning -/

/-- What a document is scanned into: text, a tag's body, or a comment. -/
inductive Token
  | text (s : Str)
  | markup (body : Str)
  | comment (s : Str)
  deriving DecidableEq

/-- The text in front of the first two dashes, and what follows them. -/
def untilDashes : Str → Option (Str × Str)
  | [] => none
  | c :: s =>
    if c = '-' ∧ s.head? = some '-' then some ([], s.tail)
    else (untilDashes s).map fun p => (c :: p.1, p.2)

/-- Up to `n` tokens; in a comment no two dashes follow each other but at its end. -/
def scan : Nat → Str → Option (List Token)
  | _, [] => some []
  | 0, _ :: _ => none
  | n + 1, c :: s =>
    if c = '<' then
      if "!--".toList.isPrefixOf s then
        match untilDashes (s.drop 3) with
        | some (text, '>' :: rest) => (scan n rest).map (.comment text :: ·)
        | _ => none
      else
        match splitOnce '>' s with
        | some (body, rest) => if '<' ∈ body then none else (scan n rest).map (.markup body :: ·)
        | none => none
    else
      (scan n ((c :: s).dropWhile (· ≠ '<'))).map (.text ((c :: s).takeWhile (· ≠ '<')) :: ·)

/-- A token as it is written. -/
def Token.render : Token → Str
  | .text s => s
  | .markup body => '<' :: (body ++ ['>'])
  | .comment s => "<!--".toList ++ (s ++ "-->".toList)

/-- The document of a list of tokens. -/
def render (ts : List Token) : Str := ts.flatMap Token.render

/-- Two lists of tokens are written one after the other. -/
theorem render_append (ts ts' : List Token) : render (ts ++ ts') = render ts ++ render ts' :=
  List.flatMap_append

/-! ## Reading -/

/-- What a token stands for. -/
inductive Event
  | declaration
  | doctype
  | comment
  | opening (name : Str)
  | closing (name : Str)
  | empty (name : Str)
  | text (s : Str)
  deriving DecidableEq

/-- What stands between angle brackets. -/
def markupEvent (body : Str) : Event :=
  match body with
  | '?' :: _ => .declaration
  | '!' :: _ => .doctype
  | '/' :: name => .closing (trim name)
  | _ =>
    if body.getLast? = some '/' then .empty (body.takeWhile fun c => !isWhitespace c && c ≠ '/')
    else .opening (body.takeWhile (!isWhitespace ·))

/-- Text with its entities replaced; the end of a marked section may not stand in it. -/
def Token.event : Token → Option Event
  | .text s => if (splitOnceStr "]]>".toList s).isSome then none else (unescape s).map .text
  | .markup body => some (markupEvent body)
  | .comment _ => some .comment

/-- The elements, inner ones first, each with the text directly in it. The stack holds the open
elements; there is one root, in front of which a document type may stand. -/
def readEvents : List (Str × Str) → Bool → List Event → Option (List (Str × Str))
  | stack, seen, [] => if stack = [] ∧ seen = true then some [] else none
  | stack, seen, .comment :: es => readEvents stack seen es
  | [], seen, .text s :: es => if isBlank s then readEvents [] seen es else none
  | (name, u) :: stack, seen, .text s :: es => readEvents ((name, u ++ s) :: stack) seen es
  | _, _, .declaration :: _ => none
  | stack, seen, .doctype :: es =>
    if stack = [] ∧ seen = false then readEvents [] seen es else none
  | stack, seen, .opening name :: es =>
    if stack = [] ∧ seen = true then none else readEvents ((name, []) :: stack) true es
  | stack, seen, .empty name :: es =>
    if stack = [] ∧ seen = true then none
    else (readEvents stack true es).map ((name, []) :: ·)
  | [], _, .closing _ :: _ => none
  | (opened, u) :: stack, seen, .closing name :: es =>
    if opened = name then (readEvents stack seen es).map ((name, u) :: ·) else none

/-- A declaration may stand in front of everything else. -/
def dropDeclaration : List Event → List Event
  | .declaration :: es => es
  | es => es

/-- The elements of a document; there are none unless it is well formed. -/
def readXml (s : Str) : Option (List (Str × Str)) :=
  if s.all isXmlChar then
    (scan s.length s).bind fun ts =>
      (ts.mapM Token.event).bind fun es => readEvents [] false (dropDeclaration es)
  else none

/-! ## Text -/

/-- A character that starts no entity is read as itself. -/
theorem unescape_cons {c : Char} (h : c ≠ '&') (s : Str) :
    unescape (c :: s) = (unescape s).map (c :: ·) := by
  conv_lhs => unfold unescape
  split <;> simp_all

/-- The reserved characters and their entities. -/
def entities : List (Char × Str) :=
  [('&', "&amp;".toList), ('<', "&lt;".toList), ('>', "&gt;".toList), ('"', "&quot;".toList),
    ('\'', "&apos;".toList)]

/-- A character is written as its entity, or is none of the markup characters and is written as itself. -/
theorem escapeChar_cases (c : Char) :
    (c, escapeChar c) ∈ entities ∨ (c ≠ '&' ∧ c ≠ '<' ∧ c ≠ '>') ∧ escapeChar c = [c] := by
  unfold escapeChar
  split
  · next h => exact Or.inl (by rw [h]; decide)
  split
  · next h => exact Or.inl (by rw [h]; decide)
  split
  · next h => exact Or.inl (by rw [h]; decide)
  split
  · next h => exact Or.inl (by rw [h]; decide)
  split
  · next h => exact Or.inl (by rw [h]; decide)
  · next hamp hlt hgt _ _ => exact Or.inr ⟨⟨hamp, hlt, hgt⟩, rfl⟩

/-- A text is escaped from its first character on. -/
theorem escape_cons (c : Char) (s : Str) : escape (c :: s) = escapeChar c ++ escape s := rfl

/-- A concatenation is escaped piece by piece. -/
theorem escape_append (a b : Str) : escape (a ++ b) = escape a ++ escape b := List.flatMap_append

/-- **Text is read back from its entities.** -/
theorem unescape_escape (s : Str) : unescape (escape s) = some s := by
  induction s with
  | nil => rfl
  | cons c s ih =>
    have hentity : ∀ e ∈ entities, unescape (e.2 ++ escape s) = some (e.1 :: s) := by
      simp [entities, unescape, ih]
    rw [escape_cons]
    rcases escapeChar_cases c with h | ⟨h, heq⟩
    · exact hentity _ h
    · rw [heq, List.singleton_append, unescape_cons h.1, ih]
      rfl

/-- What is escaped holds no brackets. -/
theorem not_mem_escape (s : Str) : '<' ∉ escape s ∧ '>' ∉ escape s := by
  have hentity : ∀ e ∈ entities, '<' ∉ e.2 ∧ '>' ∉ e.2 := by decide
  have hchar : ∀ c, '<' ∉ escapeChar c ∧ '>' ∉ escapeChar c := by
    intro c
    rcases escapeChar_cases c with h | ⟨⟨-, hlt, hgt⟩, heq⟩
    · exact hentity _ h
    · rw [heq, List.mem_singleton, List.mem_singleton]
      exact ⟨Ne.symm hlt, Ne.symm hgt⟩
  constructor
  · intro h
    obtain ⟨c, -, hc⟩ := List.mem_flatMap.mp h
    exact (hchar c).1 hc
  · intro h
    obtain ⟨c, -, hc⟩ := List.mem_flatMap.mp h
    exact (hchar c).2 hc

/-- Entities are made of characters of documents, and stand for such characters. -/
theorem all_isXmlChar_escape (s : Str) : (escape s).all isXmlChar = s.all isXmlChar := by
  have hentity : ∀ e ∈ entities, e.2.all isXmlChar = true ∧ isXmlChar e.1 = true := by decide
  induction s with
  | nil => rfl
  | cons c s ih =>
    rw [escape_cons, List.all_append, List.all_cons, ih]
    rcases escapeChar_cases c with h | ⟨-, heq⟩
    · obtain ⟨hall, hc⟩ := hentity _ h
      rw [hall, hc]
    · rw [heq, List.all_cons, List.all_nil, Bool.and_true]

/-! ## Dashes -/

/-- Two dashes follow each other. -/
def doubleDash : Str → Bool
  | [] => false
  | c :: s => c = '-' && s.head? = some '-' || doubleDash s

/-- Dashes on both sides of another character do not meet. -/
theorem doubleDash_append_cons {c : Char} (hc : c ≠ '-') (a b : Str) :
    doubleDash (a ++ c :: b) = (doubleDash a || doubleDash b) := by
  induction a with
  | nil => simp [doubleDash, hc]
  | cons d a ih =>
    rw [List.cons_append, doubleDash, ih, doubleDash]
    cases a with
    | nil => simp [hc, doubleDash]
    | cons e a => simp [Bool.or_assoc]

/-- Text without dashes does not count. -/
theorem doubleDash_append_left {w : Str} (hw : '-' ∉ w) (s : Str) :
    doubleDash (w ++ s) = doubleDash s := by
  induction w with
  | nil => rfl
  | cons c w ih =>
    rw [List.mem_cons, not_or] at hw
    rw [List.cons_append, doubleDash, ih hw.2, decide_eq_false (Ne.symm hw.1), Bool.false_and,
      Bool.false_or]

/-- Escaping keeps the dashes where they are. -/
theorem doubleDash_escape (s : Str) : doubleDash (escape s) = doubleDash s := by
  have hentity : ∀ e ∈ entities, e.1 ≠ '-' ∧ '-' ∉ e.2 ∧ e.2.head? = some '&' := by decide
  have hhead : ∀ s, (escape s).head? = some '-' ↔ s.head? = some '-' := by
    rintro (_ | ⟨c, s⟩)
    · exact Iff.rfl
    · rw [escape_cons]
      rcases escapeChar_cases c with h | ⟨-, heq⟩
      · obtain ⟨hne, -, hamp⟩ := hentity _ h
        rw [List.head?_append_of_ne_nil _ (by rintro hnil; simp [hnil] at hamp), hamp]
        simp [hne]
      · rw [heq]
        simp
  induction s with
  | nil => rfl
  | cons c s ih =>
    rw [escape_cons, doubleDash]
    rcases escapeChar_cases c with h | ⟨-, heq⟩
    · obtain ⟨hne, hdash, -⟩ := hentity _ h
      rw [doubleDash_append_left hdash, ih, decide_eq_false hne, Bool.false_and, Bool.false_or]
    · rw [heq, List.singleton_append, doubleDash, ih]
      simp only [hhead]

/-- A comment ends where it was meant to end when no two dashes follow each other. -/
theorem untilDashes_append {c : Str} (h : doubleDash (c ++ ['-']) = false) (s : Str) :
    untilDashes (c ++ '-' :: '-' :: s) = some (c, s) := by
  induction c with
  | nil => simp [untilDashes]
  | cons d c ih =>
    rw [List.cons_append, doubleDash, Bool.or_eq_false_iff] at h
    have hhead : ¬ (d = '-' ∧ (c ++ '-' :: '-' :: s).head? = some '-') := by
      rintro ⟨rfl, hd⟩
      cases c with
      | nil => simp at h
      | cons e c => simp_all
    rw [List.cons_append, untilDashes, if_neg hhead, ih h.2]
    rfl

/-- Otherwise it ends inside. -/
theorem untilDashes_of_doubleDash {c : Str} (h : doubleDash c = true) (s : Str) :
    ∃ a b, untilDashes (c ++ s) = some (a, b ++ s) ∧ b ⊆ c := by
  induction c with
  | nil => simp [doubleDash] at h
  | cons d c ih =>
    rw [doubleDash, Bool.or_eq_true, Bool.and_eq_true, decide_eq_true_eq, decide_eq_true_eq] at h
    rw [List.cons_append, untilDashes]
    by_cases hd : d = '-' ∧ c.head? = some '-'
    · obtain ⟨e, hc⟩ : ∃ e, c = '-' :: e := List.head?_eq_some_iff.mp hd.2
      refine ⟨[], e, ?_, fun x hx => ?_⟩
      · rw [hc, if_pos ⟨hd.1, rfl⟩]
        rfl
      · rw [hc]
        exact List.mem_cons_of_mem _ (List.mem_cons_of_mem _ hx)
    · have hrest : doubleDash c = true := h.resolve_left hd
      obtain ⟨a, b, hab, hsub⟩ := ih hrest
      have hne : c ≠ [] := by
        rintro rfl
        simp [doubleDash] at hrest
      rw [List.head?_append_of_ne_nil _ hne, if_neg hd, hab]
      exact ⟨d :: a, b, rfl, fun x hx => List.mem_cons_of_mem d (hsub hx)⟩

/-! ## Scanning what was written -/

/-- What can follow text. -/
def StartsMarkup (s : Str) : Prop := ∀ c ∈ s.head?, c = '<'

/-- A token that is scanned again. -/
def Token.Scannable : Token → Prop
  | .text s => s ≠ [] ∧ '<' ∉ s
  | .markup body => '<' ∉ body ∧ '>' ∉ body ∧ "!--".toList.isPrefixOf body = false
  | .comment s => doubleDash (s ++ ['-']) = false

/-- Being scannable is decidable, kind by kind. -/
instance : (t : Token) → Decidable t.Scannable
  | .text s => inferInstanceAs (Decidable (s ≠ [] ∧ '<' ∉ s))
  | .markup body =>
    inferInstanceAs (Decidable ('<' ∉ body ∧ '>' ∉ body ∧ "!--".toList.isPrefixOf body = false))
  | .comment s => inferInstanceAs (Decidable (doubleDash (s ++ ['-']) = false))

/-- No text is next to text. -/
def Alternating : List Token → Bool
  | .text _ :: .text _ :: _ => false
  | _ :: ts => Alternating ts
  | [] => true

/-- A nonempty stretch of text before markup is scanned as one token. -/
theorem scan_text {n : Nat} {s rest : Str} (hs : s ≠ []) (hlt : '<' ∉ s)
    (hrest : StartsMarkup rest) :
    scan (n + 1) (s ++ rest) = (scan n rest).map (.text s :: ·) := by
  have hplain : ∀ c ∈ s, decide (c ≠ '<') = true := fun c hc =>
    decide_eq_true (ne_of_mem_of_not_mem hc hlt)
  have hcut : rest.takeWhile (· ≠ '<') = [] ∧ rest.dropWhile (· ≠ '<') = rest := by
    cases rest with
    | nil => exact ⟨rfl, rfl⟩
    | cons c rest =>
      have hc : c = '<' := hrest c rfl
      simp [hc]
  have htake : (s ++ rest).takeWhile (· ≠ '<') = s := by
    rw [List.takeWhile_append_of_pos hplain, hcut.1, List.append_nil]
  have hdrop : (s ++ rest).dropWhile (· ≠ '<') = rest := by
    rw [List.dropWhile_append_of_pos hplain, hcut.2]
  obtain ⟨c, s', rfl⟩ := List.exists_cons_of_ne_nil hs
  rw [List.mem_cons, not_or] at hlt
  rw [List.cons_append] at htake hdrop ⊢
  rw [scan, if_neg (Ne.symm hlt.1), htake, hdrop]

/-- A tag without angle brackets in its body is scanned as one token. -/
theorem scan_markup {n : Nat} {body : Str} (h : (Token.markup body).Scannable) (rest : Str) :
    scan (n + 1) ((Token.markup body).render ++ rest) = (scan n rest).map (.markup body :: ·) := by
  obtain ⟨hlt, hgt, hbang⟩ := h
  have hbang' : "!--".toList.isPrefixOf (body ++ '>' :: rest) = false := by
    rw [Bool.eq_false_iff, ne_eq, List.isPrefixOf_iff_prefix] at hbang ⊢
    rintro ⟨u, hu⟩
    rcases List.append_eq_append_iff.mp hu with ⟨a, hbody, -⟩ | ⟨c, hword, hc⟩
    · exact hbang ⟨a, hbody.symm⟩
    · cases c with
      | nil => exact hbang ⟨[], by rw [hword, List.append_nil, List.append_nil]⟩
      | cons x c =>
        obtain ⟨rfl, -⟩ := List.cons.inj hc
        have hmem : '>' ∈ "!--".toList := by
          rw [hword]
          simp
        exact absurd hmem (by decide)
  have hrender : (Token.markup body).render ++ rest = '<' :: (body ++ '>' :: rest) := by
    simp [Token.render]
  rw [hrender, scan, if_pos rfl, hbang', splitOnce_append rest hgt]
  simp [hlt]

/-- The end of a comment is looked for behind its opening. -/
theorem scan_comment_eq (n : Nat) (s rest : Str) :
    scan (n + 1) ((Token.comment s).render ++ rest) =
      match untilDashes (s ++ '-' :: '-' :: '>' :: rest) with
      | some (text, '>' :: rest) => (scan n rest).map (.comment text :: ·)
      | _ => none := by
  have hrender : (Token.comment s).render ++ rest =
      '<' :: '!' :: '-' :: '-' :: (s ++ '-' :: '-' :: '>' :: rest) := by
    simp [Token.render]
  rw [hrender, scan, if_pos rfl]
  rfl

/-- A comment without a double dash is scanned as one token. -/
theorem scan_comment {n : Nat} {s : Str} (h : doubleDash (s ++ ['-']) = false) (rest : Str) :
    scan (n + 1) ((Token.comment s).render ++ rest) = (scan n rest).map (.comment s :: ·) := by
  rw [scan_comment_eq, untilDashes_append h]
  rfl

/-- A comment with two dashes in it is an error. -/
theorem scan_comment_none {n : Nat} {s : Str} (h : doubleDash s = true) (hgt : '>' ∉ s)
    (rest : Str) : scan n ((Token.comment s).render ++ rest) = none := by
  cases n with
  | zero =>
    have hrender : (Token.comment s).render ++ rest =
        '<' :: ("!--".toList ++ (s ++ "-->".toList) ++ rest) := rfl
    rw [hrender, scan]
  | succ n =>
    obtain ⟨a, b, hab, hsub⟩ := untilDashes_of_doubleDash h ('-' :: '-' :: '>' :: rest)
    rw [scan_comment_eq, hab]
    cases b with
    | nil => rfl
    | cons c b =>
      have hc : c ≠ '>' := ne_of_mem_of_not_mem (hsub List.mem_cons_self) hgt
      split
      · next heq => exact absurd (List.cons.inj (Prod.mk.inj (Option.some.inj heq)).2).1 hc
      · rfl

/-- Tokens that are written in front of markup are scanned first. -/
theorem scan_append {ts : List Token} (hts : ∀ t ∈ ts, t.Scannable) (halt : Alternating ts = true)
    {s : Str} (hs : StartsMarkup s) (n : Nat) :
    scan (ts.length + n) (render ts ++ s) = (scan n s).map (ts ++ ·) := by
  induction ts with
  | nil => simp [render]
  | cons t ts ih =>
    have hrest := fun t' ht => hts t' (List.mem_cons_of_mem t ht)
    have hhead := hts t List.mem_cons_self
    have hlen : (t :: ts).length + n = (ts.length + n) + 1 := by
      rw [List.length_cons]
      omega
    have halt' : Alternating ts = true := by
      cases t with
      | text u => cases ts with
        | nil => rfl
        | cons t' ts => cases t' <;> simp_all [Alternating]
      | markup b => simpa [Alternating] using halt
      | comment u => simpa [Alternating] using halt
    have hih := congrArg (Option.map (t :: ·)) (ih hrest halt')
    rw [Option.map_map] at hih
    rw [hlen, render, List.flatMap_cons, ← render, List.append_assoc]
    cases t with
    | markup b => exact (scan_markup hhead _).trans hih
    | comment u => exact (scan_comment hhead _).trans hih
    | text u =>
      refine (scan_text hhead.1 hhead.2 ?_).trans hih
      -- the next token is markup, or what follows is
      cases ts with
      | nil => simpa [render] using hs
      | cons t' ts =>
        cases t' with
        | text u' => simp [Alternating] at halt
        | markup b => exact fun c hc => by simpa [render, Token.render] using hc.symm
        | comment u' => exact fun c hc => by simpa [render, Token.render] using hc.symm

/-- A token takes at least one character. -/
theorem length_le_length_render {ts : List Token} (hts : ∀ t ∈ ts, t.Scannable) :
    ts.length ≤ (render ts).length := by
  induction ts with
  | nil => exact Nat.zero_le _
  | cons t ts ih =>
    have hrest := ih fun t' ht => hts t' (List.mem_cons_of_mem t ht)
    have hpos : 0 < t.render.length := by
      cases t with
      | text u => exact List.length_pos_iff.mpr (hts _ List.mem_cons_self).1
      | markup b => simp [Token.render]
      | comment u => simp [Token.render]
    rw [render, List.flatMap_cons, ← render, List.length_cons, List.length_append]
    omega

/-- **What is written is scanned again.** -/
theorem scan_render {ts : List Token} (hts : ∀ t ∈ ts, t.Scannable) (halt : Alternating ts = true) :
    scan (render ts).length (render ts) = some ts := by
  have h := scan_append hts halt (s := []) (by simp [StartsMarkup])
    ((render ts).length - ts.length)
  rw [Nat.add_sub_cancel' (length_le_length_render hts), List.append_nil, scan] at h
  rw [h, Option.map_some, List.append_nil]

/-- **Tokens in front of a comment with two dashes in it are no document.** -/
theorem scan_render_none {ts : List Token} (hts : ∀ t ∈ ts, t.Scannable)
    (halt : Alternating ts = true) {c : Str} (h : doubleDash c = true) (hgt : '>' ∉ c)
    (rest : Str) : let s := render ts ++ ((Token.comment c).render ++ rest)
    scan s.length s = none := by
  intro s
  have hlen : ts.length ≤ s.length :=
    (length_le_length_render hts).trans (by rw [List.length_append]; omega)
  have hstart : StartsMarkup ((Token.comment c).render ++ rest) := fun d hd => by
    simpa [Token.render] using hd.symm
  have hscan := scan_append hts halt hstart (s.length - ts.length)
  rw [Nat.add_sub_cancel' hlen, scan_comment_none h hgt] at hscan
  exact hscan

/-! ## Reading what was written -/

/-- A separator with a character the text does not hold does not split it. -/
theorem splitOnceStr_eq_none {sep s : Str} {c : Char} (hc : c ∈ sep) (h : c ∉ s) :
    splitOnceStr sep s = none := by
  induction s with
  | nil =>
    rw [splitOnceStr, if_neg]
    rintro rfl
    simp at hc
  | cons d s ih =>
    have hpre : ¬ sep.isPrefixOf (d :: s) = true := fun hp =>
      h ((List.isPrefixOf_iff_prefix.mp hp).subset hc)
    rw [splitOnceStr, if_neg hpre, ih fun hs => h (List.mem_cons_of_mem d hs)]
    rfl

/-- **Escaped text is read as the text.** -/
theorem event_escape (s : Str) : (Token.text (escape s)).event = some (.text s) := by
  have hsep : splitOnceStr "]]>".toList (escape s) = none :=
    splitOnceStr_eq_none (c := '>') (by decide) (not_mem_escape s).2
  rw [Token.event, hsep, unescape_escape]
  rfl

/-- Tokens that each give an event give the list of them. -/
theorem mapM_event {ts : List Token} {es : List Event} (h : ts.map Token.event = es.map some) :
    ts.mapM Token.event = some es := by
  induction ts generalizing es with
  | nil =>
    obtain rfl : es = [] := by simpa using h.symm
    rfl
  | cons t ts ih =>
    obtain ⟨e, es', rfl⟩ : ∃ e es', es = e :: es' :=
      List.exists_cons_of_ne_nil (by rintro rfl; simp at h)
    rw [List.map_cons, List.map_cons, List.cons.injEq] at h
    rw [List.mapM_cons, h.1, ih h.2]
    rfl

/-- The elements of a written document. -/
theorem readXml_render {ts : List Token} {es : List Event} (hts : ∀ t ∈ ts, t.Scannable)
    (halt : Alternating ts = true) (hchars : (render ts).all isXmlChar = true)
    (hes : ts.map Token.event = es.map some) :
    readXml (render ts) = readEvents [] false (dropDeclaration es) := by
  rw [readXml, if_pos hchars, scan_render hts halt, Option.bind_some, mapM_event hes,
    Option.bind_some]

end Xml

end NfsKlldap
