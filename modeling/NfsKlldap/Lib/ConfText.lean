import NfsKlldap.Lib.Text

/-! # Config files of directives and blocks

The syntax of a config file of the server: a `#` opens a comment that ends with its line, a directive
`key = value` ends with a semicolon, and a block has a name and braces. Line feeds count as white
space outside of comments.

A file is read as the list of its **signs**: directives, openings and closings.

* **`readPieces_append`**, **`readPieces_directive`**, **`readPieces_blank_append`** — how a text is
  read from its front;
* **`readPieces_append_opening_iff`** — what may stand in front of a block;
* **`isBlank_uncomment_iff`** — when a text is nothing but comments;
* **`verbatim_of_mem_readConf`** — no value that is read holds a mark or a comment sign. -/

namespace NfsKlldap

namespace ConfText

open Text

/-- What a file consists of. -/
inductive Sign
  | directive (key value : Str)
  | opening (name : Str)
  | closing
  deriving DecidableEq

/-- The characters that end a piece: a semicolon and the two braces. -/
def isMark (c : Char) : Bool := c = ';' || c = '\x7b' || c = '\x7d'

/-- A text without comments; the flag tells whether it starts inside of one. -/
def uncomment : Bool → Str → Str
  | _, [] => []
  | true, c :: s => if c = '\n' then '\n' :: uncomment false s else uncomment true s
  | false, c :: s => if c = '#' then uncomment true s else c :: uncomment false s

/-- Whether a text ends inside of a comment. -/
def inComment : Bool → Str → Bool
  | b, [] => b
  | true, c :: s => inComment (c ≠ '\n') s
  | false, c :: s => inComment (c = '#') s

/-- The pieces of a text, each with the mark that ends it, and what follows the last mark. -/
def pieces : Str → List (Str × Char) × Str
  | [] => ([], [])
  | c :: s =>
    let (ps, rest) := pieces s
    if isMark c then (([], c) :: ps, rest)
    else
      match ps with
      | [] => ([], c :: rest)
      | p :: ps => ((c :: p.1, p.2) :: ps, rest)

/-- What a piece is read as. -/
def readPiece (p : Str × Char) : Option Sign :=
  if p.2 = ';' then (splitOnce '=' p.1).map fun kv => .directive (trim kv.1) (trim kv.2)
  else if p.2 = '\x7b' then some (.opening (trim p.1))
  else if isBlank p.1 then some .closing
  else none

/-- The signs of a text without comments. -/
def readPieces (s : Str) : Option (List Sign) :=
  if isBlank (pieces s).2 then (pieces s).1.mapM readPiece else none

/-- The signs of a file. -/
def readConf (s : Str) : Option (List Sign) := readPieces (uncomment false s)

/-- A text that is read back as it is written, as a value or in a name. -/
structure Verbatim (s : Str) : Prop where
  plain : ∀ c ∈ s, isMark c = false ∧ c ≠ '#'
  trimmed : trim s = s

/-- Being verbatim is decidable, character by character. -/
instance (s : Str) : Decidable (Verbatim s) :=
  decidable_of_iff ((s.all fun c => !isMark c && c != '#') = true ∧ trim s = s)
    ⟨fun h => ⟨by simpa using h.1, h.2⟩, fun h => ⟨by simpa using h.plain, h.trimmed⟩⟩

/-! ## White space -/

/-- Trimming takes off white space only. -/
theorem filter_trim (s : Str) :
    (trim s).filter (fun c => !isWhitespace c) = s.filter fun c => !isWhitespace c := by
  have hwhite : ∀ u : Str, (∀ c ∈ u, isWhitespace c = true) →
      u.filter (fun c => !isWhitespace c) = [] := fun u hu =>
    List.filter_eq_nil_iff.mpr fun c hc => by simp [hu c hc]
  have hfront := congrArg (List.filter fun c => !isWhitespace c)
    (List.takeWhile_append_dropWhile (p := isWhitespace) (l := s))
  have hback := congrArg (List.filter fun c => !isWhitespace c)
    (List.rdropWhile_append_rtakeWhile (p := isWhitespace) (l := s.dropWhile isWhitespace))
  rw [List.filter_append, hwhite _ fun c hc => List.mem_takeWhile_imp hc, List.nil_append] at hfront
  rw [List.filter_append, hwhite _ fun c hc => List.mem_rtakeWhile_imp hc, List.append_nil] at hback
  exact hback.trans hfront

/-- A text in front of another is trimmed away exactly when it is blank. -/
theorem trim_append_iff {u w : Str} : trim (u ++ w) = trim w ↔ isBlank u = true := by
  rw [isBlank_iff]
  constructor
  · intro h c hc
    have hfilter := congrArg (List.filter fun c => !isWhitespace c) h
    rw [filter_trim, filter_trim, List.filter_append, List.append_left_eq_self,
      List.filter_eq_nil_iff] at hfilter
    simpa using hfilter c hc
  · intro hu
    induction u with
    | nil => rfl
    | cons c u ih =>
      rw [List.cons_append, trim_white_cons (hu c List.mem_cons_self),
        ih fun d hd => hu d (List.mem_cons_of_mem c hd)]

/-- A concatenation is blank exactly when both halves are. -/
theorem isBlank_append {a s : Str} :
    isBlank (a ++ s) = true ↔ isBlank a = true ∧ isBlank s = true := by
  simp only [isBlank_iff, List.forall_mem_append]

/-! ## Comments -/

/-- A text is read on in the state in which the one before it ends. -/
theorem uncomment_append (b : Bool) (a s : Str) :
    uncomment b (a ++ s) = uncomment b a ++ uncomment (inComment b a) s := by
  induction a generalizing b with
  | nil => cases b <;> simp [uncomment, inComment]
  | cons c a ih =>
    cases b with
    | true => by_cases hc : c = '\n' <;> simp [uncomment, inComment, hc, ih]
    | false => by_cases hc : c = '#' <;> simp [uncomment, inComment, hc, ih]

/-- The comment state after a concatenation is the state of the second half started in that of the
first. -/
theorem inComment_append (b : Bool) (a s : Str) :
    inComment b (a ++ s) = inComment (inComment b a) s := by
  induction a generalizing b with
  | nil => cases b <;> simp [inComment]
  | cons c a ih => cases b <;> simp [inComment, ih]

/-- A text without comment signs is kept. -/
theorem uncomment_eq_self {a : Str} (h : '#' ∉ a) : uncomment false a = a := by
  induction a with
  | nil => rfl
  | cons c a ih =>
    rw [List.mem_cons, not_or] at h
    rw [uncomment, if_neg (Ne.symm h.1), ih h.2]

/-- A comment ends with its line. -/
theorem inComment_newline (b : Bool) (a : Str) : inComment b (a ++ ['\n']) = false := by
  rw [inComment_append]
  cases inComment b a <;> rfl

/-- A text that begins in the first state, ends in the second one, and leaves nothing but blanks. -/
structure Comments (b : Bool) (a : Str) (b' : Bool) : Prop where
  blank : isBlank (uncomment b a) = true
  state : inComment b a = b'

/-- Commenting from one state to another is decidable. -/
instance (b b' : Bool) (a : Str) : Decidable (Comments b a b') :=
  decidable_of_iff (isBlank (uncomment b a) = true ∧ inComment b a = b')
    ⟨fun h => ⟨h.1, h.2⟩, fun h => ⟨h.blank, h.state⟩⟩

/-- Comment stretches compose when the first ends in the state the second starts in. -/
theorem Comments.append {b b' b'' : Bool} {a a' : Str} (h : Comments b a b')
    (h' : Comments b' a' b'') : Comments b (a ++ a') b'' where
  blank := by
    rw [uncomment_append, isBlank_append, h.state]
    exact ⟨h.blank, h'.blank⟩
  state := by rw [inComment_append, h.state, h'.state]

/-- Text without a line feed stays in the comment. -/
theorem Comments.inside {a : Str} (h : '\n' ∉ a) : Comments true a true := by
  induction a with
  | nil => exact ⟨rfl, rfl⟩
  | cons c a ih =>
    rw [List.mem_cons, not_or] at h
    have hc : c ≠ '\n' := Ne.symm h.1
    exact ⟨by simpa [uncomment, hc] using (ih h.2).blank,
      by simpa [inComment, hc] using (ih h.2).state⟩

/-- No comment sign is left. -/
theorem not_mem_uncomment (b : Bool) (s : Str) : '#' ∉ uncomment b s := by
  induction s generalizing b with
  | nil => simp [uncomment]
  | cons c s ih =>
    cases b with
    | true =>
      rw [uncomment]
      split
      · exact List.not_mem_cons_of_ne_of_not_mem (by decide) (ih false)
      · exact ih true
    | false =>
      rw [uncomment]
      split
      · exact ih true
      · next hc => exact List.not_mem_cons_of_ne_of_not_mem (Ne.symm hc) (ih false)

/-- **What a text leaves outside of comments** is blank when every line is blank in front of its
comment; inside a comment the first line does not count. -/
theorem isBlank_uncomment_iff (s : Str) :
    (isBlank (uncomment false s) = true ↔ ∀ l ∈ s.splitOn '\n', isBlank (before '#' l) = true) ∧
      (isBlank (uncomment true s) = true ↔
        ∀ l ∈ (s.splitOn '\n').tail, isBlank (before '#' l) = true) := by
  simp only [isBlank_iff]
  induction s with
  | nil => simp [uncomment, before]
  | cons c s ih =>
    obtain ⟨ihf, iht⟩ := ih
    obtain ⟨l, ls, hls⟩ := List.exists_cons_of_ne_nil (List.splitOn_ne_nil '\n' s)
    rw [hls] at ihf iht
    rw [List.splitOn_cons_eq_if_modifyHead, hls]
    by_cases hc : c = '\n'
    · subst hc
      have hnl : isWhitespace '\n' = true := by decide
      simp_all [uncomment, before]
    · rw [if_neg (by simpa using hc), List.modifyHead_cons, List.tail_cons]
      refine ⟨?_, by simpa [uncomment, hc] using iht⟩
      by_cases hs : c = '#'
      · simpa [uncomment, hs, before] using iht
      · simp only [uncomment, if_neg hs, List.forall_mem_cons, ihf]
        simp [before, hs, and_assoc]

/-! ## Pieces -/

/-- A piece in front of a mark. -/
theorem pieces_append {w : Str} (hw : ∀ c ∈ w, isMark c = false) {c : Char} (hc : isMark c = true)
    (s : Str) : pieces (w ++ c :: s) = ((w, c) :: (pieces s).1, (pieces s).2) := by
  induction w with
  | nil => simp [pieces, hc]
  | cons d w ih =>
    rw [List.cons_append, pieces, ih fun c hc => hw c (List.mem_cons_of_mem d hc)]
    simp [hw d List.mem_cons_self]

/-- There is a piece for every mark. -/
theorem length_pieces (s : Str) : (pieces s).1.length = s.countP isMark := by
  induction s with
  | nil => rfl
  | cons c s ih =>
    rw [pieces, List.countP_cons, ← ih]
    by_cases hc : isMark c = true
    · simp [hc]
    · simp only [hc]
      cases (pieces s).1 <;> simp

/-- A character that is no mark goes to the first piece, or to the rest when there is none. -/
theorem pieces_cons {c : Char} (hc : isMark c = false) (s : Str) :
    pieces (c :: s) =
      match (pieces s).1 with
      | [] => ([], c :: (pieces s).2)
      | p :: ps => ((c :: p.1, p.2) :: ps, (pieces s).2) := by
  simp [pieces, hc]

/-- What stands in front of a text goes to its first piece. -/
theorem pieces_append_left {u : Str} (hu : ∀ c ∈ u, isMark c = false) {t w : Str} {c : Char}
    {ps : List (Str × Char)} (ht : (pieces t).1 = (w, c) :: ps) :
    pieces (u ++ t) = ((u ++ w, c) :: ps, (pieces t).2) := by
  induction u with
  | nil => rw [List.nil_append, List.nil_append, ← ht]
  | cons d u ih =>
    rw [List.cons_append, pieces, ih fun c hc => hu c (List.mem_cons_of_mem d hc)]
    simp [hu d List.mem_cons_self]

/-- The characters of the pieces and of the rest are those of the text that are no marks. -/
theorem mem_pieces {s : Str} {c : Char}
    (h : (∃ p ∈ (pieces s).1, c ∈ p.1) ∨ c ∈ (pieces s).2) : c ∈ s ∧ isMark c = false := by
  induction s with
  | nil => simp [pieces] at h
  | cons d s ih =>
    by_cases hd : isMark d = true
    · have hin := ih (by simpa [pieces, hd] using h)
      exact ⟨List.mem_cons_of_mem d hin.1, hin.2⟩
    · rw [Bool.not_eq_true] at hd
      suffices hsplit : c = d ∨ ((∃ p ∈ (pieces s).1, c ∈ p.1) ∨ c ∈ (pieces s).2) by
        rcases hsplit with rfl | hin
        · exact ⟨List.mem_cons_self, hd⟩
        · exact ⟨List.mem_cons_of_mem d (ih hin).1, (ih hin).2⟩
      rw [pieces_cons hd] at h
      clear ih
      revert h
      cases (pieces s).1 with
      | nil => simp
      | cons p ps => simp [or_assoc]

/-! ## Reading -/

section Reading

variable {s t u w : Str} {signs : List Sign} {key value name : Str}

/-- A whitespace character is never a mark of the grammar. -/
theorem isMark_of_isWhitespace {c : Char} (h : isWhitespace c = true) : isMark c = false := by
  by_contra hc
  simp only [isMark, Bool.not_eq_false, Bool.or_eq_true, decide_eq_true_eq] at hc
  rcases hc with (rfl | rfl) | rfl <;> simp [isWhitespace] at h

/-- A blank text holds no mark. -/
theorem not_isMark_of_isBlank (h : isBlank s = true) : ∀ c ∈ s, isMark c = false :=
  fun c hc => isMark_of_isWhitespace (isBlank_iff.mp h c hc)

/-- A piece in front of what follows. -/
theorem readPieces_append (hw : ∀ c ∈ w, isMark c = false) {c : Char} (hc : isMark c = true)
    (s : Str) : readPieces (w ++ c :: s) =
      (readPiece (w, c)).bind fun sign => (readPieces s).map (sign :: ·) := by
  rw [readPieces, pieces_append hw hc, readPieces, List.mapM_cons]
  by_cases hs : isBlank (pieces s).2 = true
  · rw [if_pos hs, if_pos hs]
    cases readPiece (w, c) <;> cases (pieces s).1.mapM readPiece <;> rfl
  · rw [if_neg hs, if_neg hs]
    cases readPiece (w, c) <;> rfl

/-- White space in front of a piece is not read. -/
theorem readPiece_white_cons {c : Char} (hc : isWhitespace c = true) (p : Str × Char) :
    readPiece (c :: p.1, p.2) = readPiece p := by
  have hne : c ≠ '=' := by
    rintro rfl
    exact absurd hc (by decide)
  have hblank : isBlank (c :: p.1) = isBlank p.1 := by rw [isBlank, trim_white_cons hc, isBlank]
  rw [readPiece, readPiece, hblank, trim_white_cons hc, splitOnce, if_neg hne]
  simp [Function.comp_def, trim_white_cons hc]

/-- White space in front of a text is not read. -/
theorem readPieces_blank_append (hu : isBlank u = true) : readPieces (u ++ t) = readPieces t := by
  rw [isBlank_iff] at hu
  induction u with
  | nil => rfl
  | cons c u ih =>
    have hc := hu c List.mem_cons_self
    rw [← ih fun d hd => hu d (List.mem_cons_of_mem c hd), List.cons_append]
    generalize u ++ t = t
    rw [readPieces, pieces_cons (isMark_of_isWhitespace hc), readPieces]
    cases (pieces t).1 with
    | nil => simp [isBlank, trim_white_cons hc]
    | cons p ps => simp only [List.mapM_cons, readPiece_white_cons hc]

/-- Each sign is read of its piece. -/
theorem forall₂_of_readPieces (h : readPieces s = some signs) :
    List.Forall₂ (fun p sign => readPiece p = some sign) (pieces s).1 signs := by
  rw [readPieces, Option.ite_none_right_eq_some] at h
  replace h := h.2
  generalize (pieces s).1 = ps at h
  induction ps generalizing signs with
  | nil =>
    obtain rfl : signs = [] := by simpa using h.symm
    exact .nil
  | cons p ps ih =>
    rw [List.mapM_cons] at h
    obtain ⟨sign, hsign, h⟩ := Option.bind_eq_some_iff.mp h
    obtain ⟨rest, hrest, h⟩ := Option.bind_eq_some_iff.mp h
    obtain rfl : sign :: rest = signs := by simpa using h
    exact .cons hsign (ih hrest)

/-- Every sign read from a text is read from one of its pieces. -/
theorem exists_of_mem_readPieces (h : readPieces s = some signs) {sign : Sign}
    (hmem : sign ∈ signs) : ∃ p ∈ (pieces s).1, readPiece p = some sign := by
  have hread := forall₂_of_readPieces h
  generalize (pieces s).1 = ps at hread ⊢
  clear h
  induction hread with
  | nil => simp at hmem
  | cons hp hrest ih =>
    rcases List.mem_cons.mp hmem with rfl | hmem
    · exact ⟨_, List.mem_cons_self, hp⟩
    · obtain ⟨p, hp', hread⟩ := ih hmem
      exact ⟨p, List.mem_cons_of_mem _ hp', hread⟩

/-- The signs are as many as the marks. -/
theorem length_of_readPieces (h : readPieces s = some signs) : signs.length = s.countP isMark := by
  rw [← length_pieces, (forall₂_of_readPieces h).length_eq]

/-- The name of a block is its piece. -/
theorem name_of_readPiece {p : Str × Char} (h : readPiece p = some (.opening name)) :
    trim p.1 = name := by
  rw [readPiece] at h
  split at h
  · simp at h
  · split at h
    · simpa using h
    · split at h <;> simp at h

/-- The value of a directive comes from its piece. -/
theorem value_of_readPiece {p : Str × Char} (h : readPiece p = some (.directive key value)) :
    trim value = value ∧ ∀ c ∈ value, c ∈ p.1 := by
  rw [readPiece] at h
  split at h
  · obtain ⟨kv, hkv, hsign⟩ := Option.map_eq_some_iff.mp h
    obtain ⟨rfl, rfl⟩ : trim kv.1 = key ∧ trim kv.2 = value := by simpa using hsign
    refine ⟨trim_trim _, fun c hc => ?_⟩
    rw [(splitOnce_eq_some_iff.mp hkv).1]
    exact List.mem_append_right _ (List.mem_cons_of_mem _ (mem_of_mem_trim hc))
  · split at h
    · simp at h
    · split at h <;> simp at h

/-- **A text in front of a block** is not read exactly when it is blank: more of it is a sign of its
own, or belongs to the name of the block. -/
theorem readPieces_append_opening_iff (ht : readPieces t = some (.opening name :: signs)) :
    readPieces (u ++ t) = some (.opening name :: signs) ↔ isBlank u = true := by
  refine ⟨fun h => ?_, fun hu => (readPieces_blank_append hu).trans ht⟩
  have hcount := (length_of_readPieces h).symm.trans (length_of_readPieces ht)
  rw [List.countP_append, Nat.add_eq_right, List.countP_eq_zero] at hcount
  have hmarks : ∀ c ∈ u, isMark c = false := by simpa using hcount
  cases hp : (pieces t).1 with
  | nil =>
    have hlen := (forall₂_of_readPieces ht).length_eq
    simp [hp] at hlen
  | cons p ps =>
    have hread := forall₂_of_readPieces ht
    have hread' := forall₂_of_readPieces h
    rw [pieces_append_left hmarks hp, List.forall₂_cons] at hread'
    rw [hp, List.forall₂_cons] at hread
    -- both pieces are the name of the block
    have hname : trim p.1 = name := name_of_readPiece hread.1
    have hname' : trim (u ++ p.1) = name := name_of_readPiece hread'.1
    exact trim_append_iff.mp (hname'.trans hname.symm)

/-- A directive. -/
theorem readPieces_directive {a b : Str} (ha : ∀ c ∈ a, isMark c = false) (heq : '=' ∉ a)
    (hb : ∀ c ∈ b, isMark c = false) (s : Str) :
    readPieces (a ++ '=' :: (b ++ ';' :: s)) =
      (readPieces s).map (.directive (trim a) (trim b) :: ·) := by
  have hw : ∀ c ∈ a ++ '=' :: b, isMark c = false := by
    intro c hc
    rcases List.mem_append.mp hc with hc | hc
    · exact ha c hc
    · rcases List.mem_cons.mp hc with rfl | hc
      · rfl
      · exact hb c hc
  have hread := readPieces_append hw (c := ';') rfl s
  rw [List.append_assoc, List.cons_append] at hread
  rw [hread, readPiece, if_pos rfl, splitOnce_append b heq]
  rfl

/-- **No value that is read holds a mark or a comment sign**, and every value is trimmed. -/
theorem verbatim_of_mem_readConf (h : readConf s = some signs)
    (hmem : .directive key value ∈ signs) : Verbatim value := by
  obtain ⟨p, hp, hread⟩ := exists_of_mem_readPieces h hmem
  obtain ⟨htrim, hin⟩ := value_of_readPiece hread
  refine ⟨fun c hc => ?_, htrim⟩
  obtain ⟨hs, hmark⟩ := mem_pieces (Or.inl ⟨p, hp, hin c hc⟩)
  exact ⟨hmark, ne_of_mem_of_not_mem hs (not_mem_uncomment false s)⟩

end Reading

end ConfText

end NfsKlldap
