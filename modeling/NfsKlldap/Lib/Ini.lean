import NfsKlldap.Lib.Text

/-! # Config files of sections and settings

The syntax of an INI file: one thing on a line, with white space around it or not. A line that starts
with `#` or `;` is a comment, `[name]` opens a section and `key = value` is a setting. Some readers know
groups too: the line `key = {` opens one, a brace closes it; the flag `groups` tells which reader is
meant.

A file is read as the list of its **signs**, and printed from a list of **lines**.

* **`clean_of_readIni`** — everything that is read fits on one line, and starts as its kind does;
* **`readIni_print_iff`** — a file that is printed is read back exactly when its signs are of that
  kind. -/

namespace NfsKlldap

namespace Ini

open Text

/-- What a file consists of. -/
inductive Sign
  | header (name : Str)
  | setting (key value : Str)
  | opening (key : Str)
  | closing
  deriving DecidableEq

/-- What a line is read as: nothing if it is malformed, and no sign if it is blank or a comment. -/
def readLine (groups : Bool) (line : Str) : Option (Option Sign) :=
  match trim line with
  | [] => some none
  | c :: s =>
    if c = '#' ∨ c = ';' then some none
    else if c = '[' then
      if s.getLast? = some ']' then some (some (.header (trim s.dropLast))) else none
    else if groups = true ∧ c = '\x7d' then some (some .closing)
    else
      match splitOnce '=' (c :: s) with
      | none => none
      | some (key, value) =>
        if trim key = [] then none
        else if groups = true ∧ trim value = ['\x7b'] then some (some (.opening (trim key)))
        else some (some (.setting (trim key) (trim value)))

/-- The signs of a file. -/
def readIni (groups : Bool) (s : Str) : Option (List Sign) :=
  ((s.splitOn '\n').mapM (readLine groups)).map List.reduceOption

/-! ## What can be read -/

/-- A text on one line, without white space around it. -/
def OneLine (s : Str) : Prop := '\n' ∉ s ∧ trim s = s

/-- A text that is read as a key. -/
structure Key (groups : Bool) (s : Str) : Prop where
  oneLine : OneLine s
  ne_nil : s ≠ []
  equals : '=' ∉ s
  start : ∀ c ∈ s.head?, c ≠ '#' ∧ c ≠ ';' ∧ c ≠ '[' ∧ (groups = true → c ≠ '\x7d')

/-- A text that is read as the value of a setting. -/
def Value (groups : Bool) (s : Str) : Prop := OneLine s ∧ (groups = true → s ≠ ['\x7b'])

/-- A sign that can be read. -/
def Sign.Clean (groups : Bool) : Sign → Prop
  | .header name => OneLine name
  | .setting key value => Key groups key ∧ Value groups value
  | .opening key => groups = true ∧ Key groups key
  | .closing => groups = true

/-- Being on one line is decidable. -/
instance (s : Str) : Decidable (OneLine s) := inferInstanceAs (Decidable (_ ∧ _))

/-- Being a value is decidable. -/
instance (groups : Bool) (s : Str) : Decidable (Value groups s) := inferInstanceAs (Decidable (_ ∧ _))

/-- Being a key is decidable. -/
instance (groups : Bool) (s : Str) : Decidable (Key groups s) :=
  decidable_of_iff
    (OneLine s ∧ s ≠ [] ∧ '=' ∉ s ∧
      ∀ c ∈ s.head?, c ≠ '#' ∧ c ≠ ';' ∧ c ≠ '[' ∧ (groups = true → c ≠ '\x7d'))
    ⟨fun h => ⟨h.1, h.2.1, h.2.2.1, h.2.2.2⟩, fun h => ⟨h.oneLine, h.ne_nil, h.equals, h.start⟩⟩

/-- A text that is a comment, with its mark. -/
def Comment (text : Str) : Prop := text.head? = some '#' ∧ '\n' ∉ text

/-- Being the text of a comment is decidable. -/
instance (text : Str) : Decidable (Comment text) := inferInstanceAs (Decidable (_ ∧ _))

/-- A line feed is no part of a line, whatever is cut off its ends. -/
theorem oneLine_trim {s : Str} (h : '\n' ∉ s) : OneLine (trim s) :=
  ⟨fun hmem => h (mem_of_mem_trim hmem), trim_trim s⟩

/-- Two one-line texts, the first not empty, are on one line together. -/
theorem oneLine_append {s t : Str} (hs : OneLine s) (ht : OneLine t) (hne : s ≠ []) :
    OneLine (s ++ t) := by
  refine ⟨fun hmem => (List.mem_append.mp hmem).elim hs.1 ht.1, trim_eq_self (fun c hc => ?_) ?_⟩
  · rw [List.head?_append_of_ne_nil s hne] at hc
    exact (trim_eq_self_iff.mp hs.2).1 c hc
  · intro c hc
    by_cases hnil : t = []
    · rw [hnil, List.append_nil] at hc
      exact (trim_eq_self_iff.mp hs.2).2 c hc
    · rw [List.getLast?_append_of_ne_nil s hnil] at hc
      exact (trim_eq_self_iff.mp ht.2).2 c hc

/-- The first character of a text in front of an equals sign. -/
theorem head_trim_fst {c : Char} {s key value : Str} (hc : isWhitespace c = false)
    (hsplit : splitOnce '=' (c :: s) = some (key, value)) (hkey : trim key ≠ []) :
    ∀ d ∈ (trim key).head?, d = c := by
  obtain ⟨hs, -⟩ := splitOnce_eq_some_iff.mp hsplit
  cases key with
  | nil => exact absurd rfl hkey
  | cons a key =>
    rw [List.cons_append, List.cons.injEq] at hs
    have ha : ∀ d ∈ (a :: key).head?, isWhitespace d = false := by
      intro d hd
      rw [List.head?_cons, Option.mem_some_iff] at hd
      rw [← hd, ← hs.1, hc]
    obtain ⟨u, hu, -⟩ := exists_trim_append ha
    intro d hd
    have hhead : (a :: key).head? = some d := by
      rw [hu, List.head?_append_of_ne_nil _ hkey]
      exact hd
    rw [List.head?_cons, Option.some.injEq] at hhead
    rw [← hhead, hs.1]

/-- What one line is read as can be read. -/
theorem clean_of_readLine {groups : Bool} {line : Str} {s : Sign} (hline : '\n' ∉ line)
    (h : readLine groups line = some (some s)) : s.Clean groups := by
  have hone := oneLine_trim hline
  rw [readLine] at h
  cases htrim : trim line with
  | nil =>
    rw [htrim] at h
    simp at h
  | cons c rest =>
    rw [htrim] at h hone
    have hc : isWhitespace c = false := head_trim htrim
    have hrest : '\n' ∉ rest := fun hmem => hone.1 (List.mem_cons_of_mem c hmem)
    dsimp only at h
    -- a comment is no sign
    by_cases hcomment : c = '#' ∨ c = ';'
    · rw [if_pos hcomment] at h
      simp at h
    rw [if_neg hcomment] at h
    rw [not_or] at hcomment
    -- a header needs its closing bracket
    by_cases hheader : c = '['
    · rw [if_pos hheader] at h
      by_cases hlast : rest.getLast? = some ']'
      · rw [if_pos hlast, Option.some.injEq, Option.some.injEq] at h
        rw [← h]
        exact oneLine_trim fun hmem => hrest (List.dropLast_subset rest hmem)
      · rw [if_neg hlast] at h
        simp at h
    rw [if_neg hheader] at h
    -- a closing brace counts only where groups do
    by_cases hclosing : groups = true ∧ c = '\x7d'
    · rw [if_pos hclosing, Option.some.injEq, Option.some.injEq] at h
      rw [← h]
      exact hclosing.1
    rw [if_neg hclosing] at h
    rcases hsplit : splitOnce '=' (c :: rest) with _ | ⟨key, value⟩
    · rw [hsplit] at h
      simp at h
    rw [hsplit] at h
    dsimp only at h
    -- a line without a key is refused
    by_cases hnil : trim key = []
    · rw [if_pos hnil] at h
      simp at h
    rw [if_neg hnil] at h
    obtain ⟨hs, hequals⟩ := splitOnce_eq_some_iff.mp hsplit
    have hmem : '\n' ∉ key ∧ '\n' ∉ value := by
      rw [hs] at hone
      exact ⟨fun hm => hone.1 (List.mem_append_left _ hm),
        fun hm => hone.1 (List.mem_append_right _ (List.mem_cons_of_mem _ hm))⟩
    -- the key begins with the first character of the line, which is none of those above
    have hkey : Key groups (trim key) := by
      refine ⟨oneLine_trim hmem.1, hnil, fun hm => hequals (mem_of_mem_trim hm), ?_⟩
      intro d hd
      rw [head_trim_fst hc hsplit hnil d hd]
      exact ⟨hcomment.1, hcomment.2, hheader, fun hg hd => hclosing ⟨hg, hd⟩⟩
    by_cases hopening : groups = true ∧ trim value = ['\x7b']
    · rw [if_pos hopening, Option.some.injEq, Option.some.injEq] at h
      rw [← h]
      exact ⟨hopening.1, hkey⟩
    · rw [if_neg hopening, Option.some.injEq, Option.some.injEq] at h
      rw [← h]
      exact ⟨hkey, oneLine_trim hmem.2, fun hg hv => hopening ⟨hg, hv⟩⟩

/-- What comes out of a list comes from one of its members. -/
theorem exists_of_mem_mapM {α β : Type*} {f : α → Option β} {l : List α} {r : List β}
    (h : l.mapM f = some r) : ∀ y ∈ r, ∃ x ∈ l, f x = some y := by
  induction l generalizing r with
  | nil =>
    rw [List.mapM_nil, Option.pure_def, Option.some.injEq] at h
    rw [← h]
    exact fun y hy => absurd hy List.not_mem_nil
  | cons a l ih =>
    rw [List.mapM_cons, Option.bind_eq_bind, Option.bind_eq_some_iff] at h
    obtain ⟨b, hb, h⟩ := h
    rw [Option.bind_eq_bind, Option.bind_eq_some_iff] at h
    obtain ⟨bs, hbs, h⟩ := h
    rw [Option.pure_def, Option.some.injEq] at h
    rw [← h]
    intro y hy
    rcases List.mem_cons.mp hy with rfl | hy
    · exact ⟨a, List.mem_cons_self, hb⟩
    · obtain ⟨x, hx, hxy⟩ := ih hbs y hy
      exact ⟨x, List.mem_cons_of_mem a hx, hxy⟩

/-- **What is read can be read**: no reading has a value of more than one line. -/
theorem clean_of_readIni {groups : Bool} {s : Str} {signs : List Sign}
    (h : readIni groups s = some signs) : ∀ x ∈ signs, x.Clean groups := by
  rw [readIni, Option.map_eq_some_iff] at h
  obtain ⟨read, hread, rfl⟩ := h
  intro x hx
  obtain ⟨line, hline, hx⟩ := exists_of_mem_mapM hread (some x) (List.reduceOption_mem_iff.mp hx)
  exact clean_of_readLine (not_mem_of_mem_splitOn hline) hx

/-- A letter, a digit, an underscore or a hyphen. -/
def isWordChar (c : Char) : Bool := c.isAlphanum || c = '_' || c = '-'

/-- A word character is not whitespace. -/
theorem isWhitespace_of_isWordChar {c : Char} (h : isWordChar c = true) : isWhitespace c = false := by
  have hrange : 0x2D ≤ c.toNat ∧ c.toNat ≤ 0x7A := by
    simp only [isWordChar, Char.isAlphanum, Char.isAlpha, Char.isUpper, Char.isLower, Char.isDigit,
      Bool.or_eq_true, Bool.and_eq_true, decide_eq_true_eq, ge_iff_le, UInt32.le_iff_toNat_le] at h
    rcases h with (((h | h) | h) | rfl) | rfl
    · exact ⟨le_trans (by decide) h.1, le_trans h.2 (by decide)⟩
    · exact ⟨le_trans (by decide) h.1, le_trans h.2 (by decide)⟩
    · exact ⟨le_trans (by decide) h.1, le_trans h.2 (by decide)⟩
    · decide
    · decide
  simp only [isWhitespace, Bool.or_eq_false_iff, Bool.and_eq_false_iff, decide_eq_false_iff_not,
    beq_eq_false_iff_ne]
  omega

/-- A word is read as a key. -/
theorem key_of_word (groups : Bool) {s : Str} (hne : s ≠ []) (hword : ∀ c ∈ s, isWordChar c = true) :
    Key groups s := by
  have hmark : ∀ d, isWordChar d = false → d ∉ s := by
    intro d hd hmem
    rw [hword d hmem] at hd
    exact Bool.noConfusion hd
  have hblank : ∀ c ∈ s, isWhitespace c = false := fun c hc => isWhitespace_of_isWordChar (hword c hc)
  refine ⟨⟨hmark '\n' (by decide), trim_eq_self (fun c hc => hblank c (List.mem_of_mem_head? hc))
    fun c hc => hblank c (List.mem_of_mem_getLast? hc)⟩, hne, hmark '=' (by decide), fun c hc => ?_⟩
  have hmem := List.mem_of_mem_head? hc
  exact ⟨fun h => hmark '#' (by decide) (h ▸ hmem), fun h => hmark ';' (by decide) (h ▸ hmem),
    fun h => hmark '[' (by decide) (h ▸ hmem), fun _ h => hmark '\x7d' (by decide) (h ▸ hmem)⟩

/-- A nonempty literal of word characters is a key. -/
theorem key_toList (groups : Bool) (k : String) (h : k ≠ "" ∧ k.toList.all isWordChar = true) :
    Key groups k.toList :=
  key_of_word groups (fun hnil => h.1 (String.toList_eq_nil_iff.mp hnil)) (List.all_eq_true.mp h.2)

/-! ## Printing -/

/-- The text of a sign. -/
def Sign.text : Sign → Str
  | .header name => '[' :: (name ++ [']'])
  | .setting key value => key ++ " = ".toList ++ value
  | .opening key => key ++ " = \x7b".toList
  | .closing => ['\x7d']

/-- A line of a file: a comment with its mark, or a sign with the blanks in front of it. -/
inductive Line
  | blank
  | comment (text : Str)
  | sign (indent : ℕ) (s : Sign)

/-- The text of a line. -/
def Line.text : Line → Str
  | .blank => []
  | .comment text => text
  | .sign indent s => List.replicate indent ' ' ++ s.text

/-- What a line says. -/
def Line.sign? : Line → Option Sign
  | .sign _ s => some s
  | _ => none

/-- What a line remarks. -/
def Line.comment? : Line → Option Str
  | .comment text => some text
  | _ => none

/-- A blank line carries no sign. -/
@[simp] theorem Line.sign?_blank : Line.blank.sign? = none := rfl

/-- A comment carries no sign. -/
@[simp] theorem Line.sign?_comment (text : Str) : (Line.comment text).sign? = none := rfl

/-- A line that carries a sign carries that one. -/
@[simp] theorem Line.sign?_sign (indent : ℕ) (s : Sign) : (Line.sign indent s).sign? = some s := rfl

/-- A blank line is no comment. -/
@[simp] theorem Line.comment?_blank : Line.blank.comment? = none := rfl

/-- A comment carries its own text. -/
@[simp] theorem Line.comment?_comment (text : Str) : (Line.comment text).comment? = some text := rfl

/-- A line that carries a sign is no comment. -/
@[simp] theorem Line.comment?_sign (indent : ℕ) (s : Sign) : (Line.sign indent s).comment? = none :=
  rfl

/-- The text of a file. -/
def print (ls : List Line) : Str := ['\n'].intercalate (ls.map Line.text)

/-- Indentation is trimmed away. -/
theorem trim_replicate_append (n : ℕ) (s : Str) : trim (List.replicate n ' ' ++ s) = trim s := by
  induction n with
  | zero => rfl
  | succ n ih => rw [List.replicate_succ, List.cons_append, trim_white_cons (by decide), ih]

/-- A setting without the blanks at its end. -/
theorem trim_setting {key value : Str} (hkey : OneLine key) (hne : key ≠ []) (hvalue : OneLine value) :
    ∃ w, trim (key ++ " = ".toList ++ value) = key ++ ' ' :: '=' :: w ∧ trim w = value := by
  obtain ⟨c, rest, rfl⟩ := List.exists_cons_of_ne_nil hne
  have hc : isWhitespace c = false := head_trim hkey.2
  by_cases hnil : value = []
  · refine ⟨[], ?_, hnil.symm⟩
    rw [hnil, List.append_nil,
      show (c :: rest) ++ " = ".toList = (c :: rest ++ " =".toList) ++ " ".toList by simp,
      trim_append_blank (by decide)]
    refine trim_eq_self (fun d hd => ?_) (fun d hd => ?_)
    · rw [List.cons_append, List.head?_cons, Option.mem_some_iff] at hd
      rw [← hd, hc]
    · rw [List.getLast?_append_of_ne_nil _ (by decide)] at hd
      have hlast : " =".toList.getLast? = some '=' := rfl
      rw [hlast, Option.mem_some_iff] at hd
      rw [← hd]
      decide
  · refine ⟨' ' :: value, ?_, by rw [trim_white_cons (by decide), hvalue.2]⟩
    rw [show (c :: rest) ++ " = ".toList ++ value = c :: rest ++ ' ' :: '=' :: ' ' :: value by simp]
    refine trim_eq_self (fun d hd => ?_) (fun d hd => ?_)
    · rw [List.cons_append, List.head?_cons, Option.mem_some_iff] at hd
      rw [← hd, hc]
    · rw [show c :: rest ++ ' ' :: '=' :: ' ' :: value = (c :: rest ++ [' ', '=', ' ']) ++ value by simp,
        List.getLast?_append_of_ne_nil _ hnil] at hd
      exact (trim_eq_self_iff.mp hvalue.2).2 d hd

/-- A key, an equals sign and a value are read as a setting, or as the opening of a group. -/
theorem readLine_setting {groups : Bool} {key value : Str} {line : Str} (hkey : Key groups key)
    (hvalue : OneLine value) (hline : trim line = trim (key ++ " = ".toList ++ value)) :
    readLine groups line =
      some (some (if groups = true ∧ value = ['\x7b'] then .opening key else .setting key value)) := by
  obtain ⟨w, hw, htrim⟩ := trim_setting hkey.oneLine hkey.ne_nil hvalue
  obtain ⟨c, rest, rfl⟩ := List.exists_cons_of_ne_nil hkey.ne_nil
  obtain ⟨hhash, hsemicolon, hbracket, hbrace⟩ := hkey.start c rfl
  -- the key has no equals sign, so that the first one is the printed one
  have hsplit : splitOnce '=' (c :: (rest ++ ' ' :: '=' :: w)) = some (c :: rest ++ [' '], w) := by
    rw [show c :: (rest ++ ' ' :: '=' :: w) = (c :: rest ++ [' ']) ++ '=' :: w by simp]
    refine splitOnce_append w fun hm => ?_
    rcases List.mem_append.mp hm with hm | hm
    · exact hkey.equals hm
    · exact absurd hm (by decide)
  have hkeytrim : trim (c :: rest ++ [' ']) = c :: rest := by
    rw [trim_append_blank (by decide), hkey.oneLine.2]
  rw [readLine, hline, hw, List.cons_append]
  dsimp only
  rw [if_neg (not_or.mpr ⟨hhash, hsemicolon⟩), if_neg hbracket, if_neg (fun h => hbrace h.1 h.2),
    hsplit]
  dsimp only
  rw [hkeytrim, htrim, if_neg (List.cons_ne_nil c rest)]
  by_cases hopening : groups = true ∧ value = ['\x7b']
  · rw [if_pos hopening, if_pos hopening]
  · rw [if_neg hopening, if_neg hopening]

/-- A sign that can be read is read. -/
theorem readLine_text {groups : Bool} {s : Sign} (indent : ℕ) (h : s.Clean groups) :
    readLine groups (List.replicate indent ' ' ++ s.text) = some (some s) := by
  have hindent := trim_replicate_append indent s.text
  cases s with
  | header name =>
    obtain ⟨-, htrim⟩ : OneLine name := h
    have hself : trim ('[' :: (name ++ [']'])) = '[' :: (name ++ [']']) := by
      refine trim_eq_self (fun d hd => ?_) (fun d hd => ?_)
      · rw [List.head?_cons, Option.mem_some_iff] at hd
        rw [← hd]
        decide
      · rw [← List.cons_append, List.getLast?_concat, Option.mem_some_iff] at hd
        rw [← hd]
        decide
    rw [readLine, hindent, Sign.text, hself]
    dsimp only
    rw [if_neg (by decide), if_pos rfl, if_pos List.getLast?_concat, List.dropLast_concat, htrim]
  | setting key value =>
    obtain ⟨hkey, hvalue, hbrace⟩ := h
    rw [readLine_setting hkey hvalue hindent, if_neg fun h => hbrace h.1 h.2]
  | opening key =>
    obtain ⟨hgroups, hkey⟩ := h
    have hvalue : OneLine ['\x7b'] := by decide
    have htext : (Sign.opening key).text = key ++ " = ".toList ++ ['\x7b'] := by simp [Sign.text]
    rw [readLine_setting hkey hvalue (by rw [hindent, htext]), if_pos ⟨hgroups, rfl⟩]
  | closing =>
    have hgroups : groups = true := h
    rw [readLine, hindent, Sign.text, show trim ['\x7d'] = ['\x7d'] by decide]
    dsimp only
    rw [if_neg (by decide), if_neg (by decide), if_pos ⟨hgroups, rfl⟩]

/-- A sign that can be read has no line feed in its text. -/
theorem not_mem_text {groups : Bool} {s : Sign} (h : s.Clean groups) : '\n' ∉ s.text := by
  cases s with
  | header name =>
    have hname : '\n' ∉ name := h.1
    simp [Sign.text, hname]
  | setting key value =>
    have hkey : '\n' ∉ key := h.1.oneLine.1
    have hvalue : '\n' ∉ value := h.2.1.1
    simp [Sign.text, hkey, hvalue]
  | opening key =>
    have hkey : '\n' ∉ key := h.2.oneLine.1
    simp [Sign.text, hkey]
  | closing => decide

/-- A comment that starts with its mark and ends with its line, or a sign that can be read. -/
def Line.Clean (groups : Bool) : Line → Prop
  | .blank => True
  | .comment text => Comment text
  | .sign _ s => s.Clean groups

/-- A clean line is printed without a line break. -/
theorem Line.not_mem_text {groups : Bool} {l : Line} (h : l.Clean groups) : '\n' ∉ l.text := by
  cases l with
  | blank => exact List.not_mem_nil
  | comment text => exact h.2
  | sign indent s =>
    have hs := Ini.not_mem_text (s := s) h
    simp [Line.text, hs, List.mem_replicate]

/-- **A clean line, printed and read, gives its sign back.** -/
theorem Line.readLine_text {groups : Bool} {l : Line} (h : l.Clean groups) :
    readLine groups l.text = some l.sign? := by
  cases l with
  | blank => rfl
  | comment text =>
    have hmark : text.head? = some '#' := h.1
    have hhead : ∀ d ∈ text.head?, isWhitespace d = false := by
      intro d hd
      rw [hmark, Option.mem_some_iff] at hd
      rw [← hd]
      decide
    -- trimming takes nothing off the front, so that the line still starts with its mark
    obtain ⟨u, hu, hblank⟩ := exists_trim_append hhead
    rw [readLine, Line.text]
    cases htrim : trim text with
    | nil => rfl
    | cons c rest =>
      rw [htrim] at hu
      rw [hu, List.cons_append, List.head?_cons, Option.some.injEq] at hmark
      dsimp only
      rw [if_pos (Or.inl hmark)]
      rfl
  | sign indent s => exact Ini.readLine_text indent h

/-- Reading the texts of a list gives what they say. -/
theorem mapM_text {groups : Bool} {ls : List Line} (h : ∀ l ∈ ls, l.Clean groups) :
    (ls.map Line.text).mapM (readLine groups) = some (ls.map Line.sign?) := by
  induction ls with
  | nil => rfl
  | cons l ls ih =>
    rw [List.map_cons, List.mapM_cons, Line.readLine_text (h l List.mem_cons_self),
      ih fun l hl => h l (List.mem_cons_of_mem _ hl)]
    rfl

/-- **Reading back**: a file is read as what its lines say exactly when all of that can be read. Its
comments may say the same things as its settings, and need not be looked at on their own. -/
theorem readIni_print_iff {groups : Bool} {ls : List Line} (hne : ls ≠ [])
    (hcomments : (∀ s ∈ ls.filterMap Line.sign?, s.Clean groups) →
      ∀ text ∈ ls.filterMap Line.comment?, Comment text) :
    readIni groups (print ls) = some (ls.filterMap Line.sign?) ↔
      ∀ s ∈ ls.filterMap Line.sign?, s.Clean groups := by
  refine ⟨fun h => clean_of_readIni h, fun h => ?_⟩
  have hclean : ∀ l ∈ ls, l.Clean groups := by
    intro l hl
    cases l with
    | blank => exact trivial
    | comment text => exact hcomments h text (List.mem_filterMap.mpr ⟨_, hl, rfl⟩)
    | sign indent s => exact h s (List.mem_filterMap.mpr ⟨_, hl, rfl⟩)
  have hsplit : (print ls).splitOn '\n' = ls.map Line.text := by
    refine List.splitOn_intercalate '\n' (fun t ht => ?_) fun hnil => hne (List.map_eq_nil_iff.mp hnil)
    obtain ⟨l, hl, rfl⟩ := List.mem_map.mp ht
    exact Line.not_mem_text (hclean l hl)
  rw [readIni, hsplit, mapM_text hclean, Option.map_some, List.reduceOption, List.filterMap_map]
  rfl

/-! ## Putting files together -/

/-- Printing a list of lines writes the head, a line break, and the rest. -/
theorem print_cons (l : Line) {ls : List Line} (h : ls ≠ []) :
    print (l :: ls) = l.text ++ '\n' :: print ls := by
  obtain ⟨m, ms, rfl⟩ := List.exists_cons_of_ne_nil h
  rw [print, List.map_cons, List.map_cons, List.intercalate_cons_cons, print, List.map_cons,
    List.append_assoc, List.singleton_append]

/-- One line is printed without a line break after it. -/
@[simp] theorem print_singleton (l : Line) : print [l] = l.text := List.intercalate_singleton

/-- Two nonempty lists of lines are printed with one line break between them. -/
theorem print_append {ls ms : List Line} (hls : ls ≠ []) (hms : ms ≠ []) :
    print (ls ++ ms) = print ls ++ '\n' :: print ms := by
  induction ls with
  | nil => exact absurd rfl hls
  | cons l ls ih =>
    by_cases hnil : ls = []
    · rw [hnil, List.singleton_append, print_cons l hms, print_singleton]
    · rw [List.cons_append, print_cons l (List.append_ne_nil_of_left_ne_nil hnil ms), ih hnil,
        print_cons l hnil, List.append_assoc, List.cons_append]

/-- Lines that all end in a line feed, in front of a file. -/
theorem unlines_append_print (ls : List Line) {ms : List Line} (hms : ms ≠ []) :
    unlines (ls.map Line.text) ++ print ms = print (ls ++ ms) := by
  induction ls with
  | nil => rfl
  | cons l ls ih =>
    rw [List.cons_append, print_cons l (List.append_ne_nil_of_right_ne_nil ls hms), ← ih,
      List.map_cons, unlines, List.flatMap_cons, ← unlines, List.append_assoc, List.append_assoc,
      List.singleton_append]

/-- A file whose last line ends in a line feed. -/
theorem unlines_eq_print (ls : List Line) : unlines (ls.map Line.text) = print (ls ++ [.blank]) := by
  rw [← unlines_append_print ls (List.cons_ne_nil Line.blank []), print_singleton, Line.text,
    List.append_nil]

end Ini

end NfsKlldap
