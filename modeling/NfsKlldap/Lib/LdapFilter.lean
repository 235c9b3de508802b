import NfsKlldap.Lib.Text
import NfsKlldap.Lib.Utf8

/-! # The string form of LDAP search filters

A filter combines assertions about the values of attributes. Values are bytes; in the string form they
are UTF-8 text, in which any byte may stand as a backslash with two hexadecimal digits.

* **`decodeValue`** — the bytes a text stands for;
* **`IsEscaped`** — no character with a meaning of its own stands for itself;
* **`read`** — the filter a text stands for, and **`Filter.Matches`** what it says of an entry;
* **`matches_read_conj`** — two assertions in a conjunction, as texts. -/

namespace NfsKlldap

namespace LdapFilter

open Text Utf8

/-! ## Values -/

/-- A character of a value, or a byte behind a backslash. -/
inductive Token
  | plain (c : Char)
  | escaped (b : UInt8)
  deriving DecidableEq

/-- The bytes a token of an assertion value stands for. -/
def Token.bytes : Token → List UInt8
  | plain c => String.utf8EncodeChar c
  | escaped b => [b]

/-- The value of a hexadecimal digit. -/
def hexValue (c : Char) : Option ℕ :=
  if '0' ≤ c && c ≤ '9' then some (c.toNat - 48)
  else if 'a' ≤ c && c ≤ 'f' then some (c.toNat - 87)
  else if 'A' ≤ c && c ≤ 'F' then some (c.toNat - 55)
  else none

/-- Take a value apart. Two hexadecimal digits must follow each backslash. -/
def tokens : Str → Option (List Token)
  | [] => some []
  | '\\' :: hi :: lo :: s =>
    match hexValue hi, hexValue lo, tokens s with
    | some h, some l, some ts => some (.escaped (UInt8.ofNat (16 * h + l)) :: ts)
    | _, _, _ => none
  | c :: s => if c = '\\' then none else (tokens s).map (.plain c :: ·)

/-- **The bytes a text stands for.** -/
def decodeValue (s : Str) : Option (List UInt8) := (tokens s).map (·.flatMap Token.bytes)

/-- The characters that must be escaped in a value. -/
def specials : List Char := ['*', '(', ')', '\\', '\x00']

/-- **No special character stands for itself.** -/
def IsEscaped (s : Str) : Prop := ∃ ts, tokens s = some ts ∧ ∀ c ∈ specials, .plain c ∉ ts

/-- A character other than the backslash is a token of its own. -/
theorem tokens_cons {c : Char} (h : c ≠ '\\') (s : Str) :
    tokens (c :: s) = (tokens s).map (.plain c :: ·) := by
  rw [tokens, if_neg h]
  exact fun _ _ _ heq _ => h heq

/-- A backslash with two hexadecimal digits is one escaped byte. -/
theorem tokens_escaped {hi lo : Char} {h l : ℕ} (hhi : hexValue hi = some h)
    (hlo : hexValue lo = some l) (s : Str) :
    tokens ('\\' :: hi :: lo :: s) =
      (tokens s).map (.escaped (UInt8.ofNat (16 * h + l)) :: ·) := by
  rw [tokens, hhi, hlo]
  cases tokens s <;> rfl

/-- A text without backslashes stands for itself. -/
theorem tokens_plain {s : Str} (h : '\\' ∉ s) : tokens s = some (s.map .plain) := by
  induction s with
  | nil => rfl
  | cons c s ih =>
    obtain ⟨hc, hs⟩ := not_or.mp (mt List.mem_cons.mpr h)
    rw [tokens_cons (Ne.symm hc), ih hs]
    rfl

/-- A character that is no part of an escape is among the tokens. -/
theorem plain_mem_of_mem {c : Char} (hslash : c ≠ '\\') (hhex : hexValue c = none) {s : Str}
    {ts : List Token} (h : tokens s = some ts) (hc : c ∈ s) : .plain c ∈ ts := by
  induction s using tokens.induct generalizing ts with
  | case1 => exact absurd hc List.not_mem_nil
  | case2 hi lo s h' l' ts' hts hlo hhi ih =>
    rw [tokens_escaped hhi hlo, hts] at h
    cases h
    rcases List.mem_cons.mp hc with rfl | hc
    · exact absurd rfl hslash
    · rcases List.mem_cons.mp hc with rfl | hc
      · exact absurd hhi (by simp [hhex])
      · rcases List.mem_cons.mp hc with rfl | hc
        · exact absurd hlo (by simp [hhex])
        · exact List.mem_cons_of_mem _ (ih hts hc)
  | case3 hi lo s hnone ih =>
    rw [tokens] at h
    split at h
    · next hhi hlo hts => exact (hnone _ _ _ hhi hlo hts).elim
    · cases h
  | case4 s hs =>
    rw [tokens, if_pos rfl] at h
    · cases h
    · exact hs
  | case5 d s hs hd ih =>
    rw [tokens_cons hd] at h
    obtain ⟨ts', hts', rfl⟩ := Option.map_eq_some_iff.mp h
    rcases List.mem_cons.mp hc with rfl | hc
    · exact List.mem_cons_self
    · exact List.mem_cons_of_mem _ (ih hts' hc)

/-! ## Filters -/

/-- A filter. The pieces of an assertion are what stands between asterisks. -/
inductive Filter
  | truth
  | falsity
  | and (f g : Filter)
  | or (f g : Filter)
  | not (f : Filter)
  | item (attr : Str) (pieces : List (List UInt8))

/-- The values of the attributes of an entry. -/
abbrev Entry := Str → Set (List UInt8)

/-- A value consists of the pieces, with anything in between. -/
def Glob : List (List UInt8) → List UInt8 → Prop
  | [], _ => False
  | [p], x => x = p
  | p :: q :: ps, x => ∃ gap rest, x = p ++ gap ++ rest ∧ Glob (q :: ps) rest

/-- **What a filter says of an entry.** Values match when their bytes do. -/
def Filter.Matches (e : Entry) : Filter → Prop
  | truth => True
  | falsity => False
  | and f g => f.Matches e ∧ g.Matches e
  | or f g => f.Matches e ∨ g.Matches e
  | not f => ¬ f.Matches e
  | item attr pieces => ∃ x ∈ e attr, Glob pieces x

/-- The pieces of a value. -/
def piecesOf (ts : List Token) : List (List UInt8) :=
  (ts.splitOn (.plain '*')).map (·.flatMap Token.bytes)

/-- A character of an attribute description. -/
def isAttrChar (c : Char) : Bool := c.isAlphanum || c = '-' || c = '.' || c = ';'

/-- The text is an attribute description. -/
def IsAttr (attr : Str) : Prop := attr ≠ [] ∧ attr.all isAttrChar = true

/-- Being an attribute description is decidable. -/
instance (attr : Str) : Decidable (IsAttr attr) := inferInstanceAs (Decidable (_ ∧ _))

/-- An assertion, behind its opening parenthesis. -/
def readItem (s : Str) : Option (Filter × Str) :=
  match splitOnce ')' s with
  | none => none
  | some (text, rest) =>
    match splitOnce '=' text with
    | none => none
    | some (attr, value) =>
      match tokens value with
      | none => none
      | some ts =>
        if IsAttr attr ∧ .plain '(' ∉ ts ∧ .plain '\x00' ∉ ts then some (.item attr (piecesOf ts), rest)
        else none

mutual

/-- A filter at the start of a text, and what follows it. -/
def readFilter : ℕ → Str → Option (Filter × Str)
  | n + 1, '(' :: '&' :: s => (readFilters n s).map fun x => (x.1.foldr .and .truth, x.2)
  | n + 1, '(' :: '|' :: s => (readFilters n s).map fun x => (x.1.foldr .or .falsity, x.2)
  | n + 1, '(' :: '!' :: s =>
    match readFilter n s with
    | some (f, ')' :: s) => some (.not f, s)
    | _ => none
  | _ + 1, '(' :: s => readItem s
  | _, _ => none

/-- The filters up to the parenthesis that closes a list of them. -/
def readFilters : ℕ → Str → Option (List Filter × Str)
  | _ + 1, ')' :: s => some ([], s)
  | n + 1, s =>
    match readFilter n s with
    | none => none
    | some (f, s) => (readFilters n s).map fun x => (f :: x.1, x.2)
  | 0, _ => none

end

/-- **The filter a text stands for.** -/
def read (s : Str) : Option Filter :=
  match readFilter (2 * s.length) s with
  | some (f, []) => some f
  | _ => none

/-! ## Assertions on one value -/

/-- An attribute description holds none of the characters a filter is built with. -/
theorem isAttrChar_ne {c : Char} (h : isAttrChar c = true) :
    c ≠ '=' ∧ c ≠ ')' ∧ c ≠ '&' ∧ c ≠ '|' ∧ c ≠ '!' := by
  refine ⟨?_, ?_, ?_, ?_, ?_⟩
  all_goals
    rintro rfl
    exact absurd h (by decide)

/-- Every character of an attribute description is an attribute character. -/
theorem IsAttr.isAttrChar {attr : Str} (h : IsAttr attr) {c : Char} (hc : c ∈ attr) :
    isAttrChar c = true := List.all_eq_true.mp h.2 c hc

/-- A value without a plain star is a single piece. -/
theorem piecesOf_eq {ts : List Token} (h : .plain '*' ∉ ts) :
    piecesOf ts = [ts.flatMap Token.bytes] := by
  rw [piecesOf, List.splitOn_eq_singleton h]
  rfl

/-- An escaped value reads as one piece. -/
theorem readItem_eq {attr value : Str} (hattr : IsAttr attr) (hvalue : IsEscaped value)
    {bytes : List UInt8} (hbytes : decodeValue value = some bytes) (rest : Str) :
    readItem (attr ++ '=' :: (value ++ ')' :: rest)) = some (.item attr [bytes], rest) := by
  obtain ⟨ts, hts, hspecials⟩ := hvalue
  have hdecoded : ts.flatMap Token.bytes = bytes := by
    rw [decodeValue, hts] at hbytes
    exact Option.some.inj hbytes
  -- neither the attribute nor an escaped value closes the item
  have hclose : ')' ∉ attr ++ '=' :: value := by
    intro hmem
    rcases List.mem_append.mp hmem with hmem | hmem
    · exact (isAttrChar_ne (hattr.isAttrChar hmem)).2.1 rfl
    · rcases List.mem_cons.mp hmem with heq | hmem
      · exact absurd heq (by decide)
      · exact hspecials ')' (by decide) (plain_mem_of_mem (by decide) (by decide) hts hmem)
  have hequals : '=' ∉ attr := fun hmem => (isAttrChar_ne (hattr.isAttrChar hmem)).1 rfl
  rw [readItem, show attr ++ '=' :: (value ++ ')' :: rest) = (attr ++ '=' :: value) ++ ')' :: rest by simp,
    splitOnce_append rest hclose]
  dsimp only
  rw [splitOnce_append value hequals]
  dsimp only
  rw [hts]
  dsimp only
  rw [if_pos ⟨hattr, hspecials '(' (by decide), hspecials '\x00' (by decide)⟩,
    piecesOf_eq (hspecials '*' (by decide)), hdecoded]

/-- An assertion inside its parentheses. -/
theorem readFilter_item {attr value : Str} (hattr : IsAttr attr) (hvalue : IsEscaped value)
    {bytes : List UInt8} (hbytes : decodeValue value = some bytes) (n : ℕ) (rest : Str) :
    readFilter (n + 1) ('(' :: (attr ++ '=' :: (value ++ ')' :: rest))) =
      some (.item attr [bytes], rest) := by
  obtain ⟨c, attr', rfl⟩ := List.exists_cons_of_ne_nil hattr.1
  obtain ⟨-, -, hand, hor, hnot⟩ := isAttrChar_ne (hattr.isAttrChar (List.mem_cons_self (a := c)))
  rw [← readItem_eq hattr hvalue hbytes rest, List.cons_append, readFilter]
  · exact fun _ heq => hand (List.cons.inj heq).1
  · exact fun _ heq => hor (List.cons.inj heq).1
  · exact fun _ heq => hnot (List.cons.inj heq).1

/-- `(&(attr=value)(attr'=value'))` -/
def conjText (attr value attr' value' : Str) : Str :=
  '(' :: '&' :: '(' :: (attr ++ '=' :: (value ++ ')' ::
    '(' :: (attr' ++ '=' :: (value' ++ [')', ')']))))

/-- **The conjunction of two equality tests is read as that conjunction.** -/
theorem read_conjText {attr value attr' value' : Str} (hattr : IsAttr attr) (hattr' : IsAttr attr')
    (hvalue : IsEscaped value) (hvalue' : IsEscaped value') {bytes bytes' : List UInt8}
    (hbytes : decodeValue value = some bytes) (hbytes' : decodeValue value' = some bytes') :
    read (conjText attr value attr' value') =
      some (.and (.item attr [bytes]) (.and (.item attr' [bytes']) .truth)) := by
  obtain ⟨n, hn⟩ : ∃ n, 2 * (conjText attr value attr' value').length = n + 4 := by
    refine ⟨2 * (conjText attr value attr' value').length - 4, ?_⟩
    rw [conjText, List.length_cons, List.length_cons]
    omega
  have hitem := readFilter_item hattr hvalue hbytes (n + 1)
    ('(' :: (attr' ++ '=' :: (value' ++ [')', ')'])))
  have hitem' := readFilter_item hattr' hvalue' hbytes' n [')']
  rw [read, hn, conjText, readFilter, readFilters, hitem]
  · dsimp only
    rw [readFilters, hitem']
    · dsimp only
      rw [readFilters]
      rfl
    · exact fun _ heq => absurd (List.cons.inj heq).1 (by decide)
  · exact fun _ heq => absurd (List.cons.inj heq).1 (by decide)

/-- **Two assertions in a conjunction** say that the entry has both values. -/
theorem matches_read_conj {attr value attr' value' : Str} (hattr : IsAttr attr) (hattr' : IsAttr attr')
    (hvalue : IsEscaped value) (hvalue' : IsEscaped value') {bytes bytes' : List UInt8}
    (hbytes : decodeValue value = some bytes) (hbytes' : decodeValue value' = some bytes') :
    ∃ f, read (conjText attr value attr' value') = some f ∧
      ∀ e : Entry, f.Matches e ↔ bytes ∈ e attr ∧ bytes' ∈ e attr' := by
  refine ⟨_, read_conjText hattr hattr' hvalue hvalue' hbytes hbytes', fun e => ?_⟩
  simp [Filter.Matches, Glob]

end LdapFilter

end NfsKlldap
