import NfsKlldap.Idhelper.GroupStore
import NfsKlldap.Idhelper.NssGate

/-! # Repairs of arbitrary group stores (`ensure_nss_group_member_login`)

A repair reads and rewrites the lines of a store that somebody else may have written: blank lines,
comments and rows in any mix, several of them for one gid.

* **`IsGroupLine.repairRow_cases`** — what a repair finds in a line, and what it puts in its place;
* **`StoreFile.Repaired`** — what a repair does to a store;
* **`StoreFile.Settled`** — a store that a repair leaves alone. -/

namespace NfsKlldap

open Text

/-! ## Pieces and rows -/

/-- Pieces up to the bound are all the pieces. -/
theorem splitN_eq_splitOn {c : Char} {n : Nat} {s : Str} (h : (s.splitOn c).length ≤ n + 1) :
    splitN (n + 1) c s = s.splitOn c := by
  induction n generalizing s with
  | zero =>
    rcases eq_before_append c s with ⟨hc, -⟩ | ⟨r, hr⟩
    · rw [List.splitOn_eq_singleton hc]
      rfl
    · rw [hr, List.splitOn_append_cons_self_of_not_mem (not_mem_before c s)] at h
      have hpos : (r.splitOn c).length ≠ 0 := by simp
      rw [List.length_cons] at h
      omega
  | succ n ih =>
    rcases eq_before_append c s with ⟨hc, -⟩ | ⟨r, hr⟩
    · rw [List.splitOn_eq_singleton hc, splitN, splitOnce_eq_none_iff.mpr hc]
    · rw [hr, List.splitOn_append_cons_self_of_not_mem (not_mem_before c s)] at h ⊢
      rw [splitN_append n r (not_mem_before c s), ih (by simpa using h)]

/-- The characters of the pieces are those of the text. -/
theorem mem_of_mem_splitOn {c d : Char} {s p : Str} (h : p ∈ s.splitOn c) (hd : d ∈ p) : d ∈ s := by
  induction hn : s.length using Nat.strong_induction_on generalizing s with
  | h n ih =>
    rcases eq_before_append c s with ⟨hc, -⟩ | ⟨r, hr⟩
    · rw [List.splitOn_eq_singleton hc, List.mem_singleton] at h
      exact h ▸ hd
    · have hlen : r.length < n := by
        rw [← hn, hr, List.length_append, List.length_cons]
        omega
      rw [hr, List.splitOn_append_cons_self_of_not_mem (not_mem_before c s)] at h
      rw [hr, List.mem_append]
      rcases List.mem_cons.mp h with rfl | h
      · exact .inl hd
      · exact .inr (List.mem_cons_of_mem c (ih r.length hlen h rfl))

/-- Trimmed fields make a trimmed line. -/
theorem trim_intercalate_singleton {c : Char} (hc : isWhitespace c = false) {fields : List Str}
    (h : ∀ field ∈ fields, trim field = field) :
    trim ([c].intercalate fields) = [c].intercalate fields := by
  induction fields with
  | nil => rfl
  | cons field fields ih =>
    have hfield := h field List.mem_cons_self
    cases fields with
    | nil => simpa using hfield
    | cons field' fields =>
      have hrest := ih fun f hf => h f (List.mem_cons_of_mem _ hf)
      rw [List.intercalate_cons_cons, List.append_assoc, List.singleton_append]
      refine trim_eq_self (fun d hd => ?_) fun d hd => ?_
      · cases hf : field with
        | nil =>
          rw [hf] at hd
          obtain rfl : c = d := by simpa using hd
          exact hc
        | cons a l =>
          rw [hf] at hd
          rw [hf] at hfield
          exact (trim_eq_self_iff.mp hfield).1 d (by simpa using hd)
      · rw [List.getLast?_append_of_ne_nil _ (by simp)] at hd
        by_cases hnil : [c].intercalate (field' :: fields) = []
        · rw [hnil] at hd
          obtain rfl : c = d := by simpa using hd
          exact hc
        · rw [List.getLast?_cons_of_ne_nil hnil] at hd
          exact (trim_eq_self_iff.mp hrest).2 d hd

/-- **A row without blanks around its fields**, of which there are four at most. -/
structure IsGroupLine (line : Str) : Prop where
  short : (line.splitOn ':').length ≤ 4
  trimmed : ∀ field ∈ line.splitOn ':', trim field = field

/-- Whether a line is that of a group can be decided. -/
instance (line : Str) : Decidable (IsGroupLine line) :=
  decidable_of_iff ((line.splitOn ':').length ≤ 4 ∧ ∀ field ∈ line.splitOn ':', trim field = field)
    ⟨fun h => ⟨h.1, h.2⟩, fun h => ⟨h.short, h.trimmed⟩⟩

/-- A blank line, a comment or a row. -/
def IsStoreLine (line : Str) : Prop := isSkippedLine (trim line) = true ∨ IsGroupLine line

/-- Whether a line may be in a store can be decided. -/
instance (line : Str) : Decidable (IsStoreLine line) := inferInstanceAs (Decidable (_ ∨ _))

/-- The line of a group has no blanks around it. -/
theorem IsGroupLine.trim_eq {line : Str} (h : IsGroupLine line) : trim line = line := by
  have hjoin := trim_intercalate_singleton (show isWhitespace ':' = false by decide) h.trimmed
  rwa [List.intercalate_splitOn] at hjoin

/-- The members that a row lists, after the member field has got a login. -/
def addToField (field login : Str) : Str :=
  if field = [] then login else field ++ ',' :: login

/-- A login that can be appended to a member field. -/
structure IsNewMember (login : Str) : Prop where
  nonempty : login ≠ []
  colon : ':' ∉ login
  comma : ',' ∉ login
  blank : ∀ c ∈ login, isWhitespace c = false

/-! ## Member fields -/

namespace IsNewMember

variable {login field : Str}

/-- A new member has no blanks around it. -/
theorem trim_eq (h : IsNewMember login) : trim login = login :=
  trim_eq_self (fun c hc => h.blank c (List.mem_of_mem_head? hc))
    fun c hc => h.blank c (List.mem_of_getLast? hc)

/-- A field with a new member has no colon, if it had none. -/
theorem colon_addToField (h : IsNewMember login) (hfield : ':' ∉ field) :
    ':' ∉ addToField field login := by
  rw [addToField]
  split_ifs
  · exact h.colon
  · simpa using ⟨hfield, h.colon⟩

/-- What stands behind a member field with the login ends in the login. -/
theorem getLast?_addToField (h : IsNewMember login) {c : Char}
    (hc : c ∈ (':' :: addToField field login).getLast?) : isWhitespace c = false := by
  refine h.blank c (List.mem_of_getLast? ?_)
  rw [addToField] at hc
  split_ifs at hc
  · rwa [List.getLast?_cons_of_ne_nil h.nonempty] at hc
  · rwa [← List.cons_append, List.getLast?_append_of_ne_nil _ (by simp),
      List.getLast?_cons_of_ne_nil h.nonempty] at hc

/-- A field with a new member has no blanks around it, if it had none. -/
theorem trim_addToField (h : IsNewMember login) (hfield : trim field = field) :
    trim (addToField field login) = addToField field login := by
  refine trim_eq_self (fun c hc => ?_) fun c hc => ?_
  · rw [addToField] at hc
    split_ifs at hc with hnil
    · exact h.blank c (List.mem_of_mem_head? hc)
    · rw [List.head?_append_of_ne_nil _ hnil] at hc
      exact (trim_eq_self_iff.mp hfield).1 c hc
  · have hne : addToField field login ≠ [] := by
      rw [addToField]
      split_ifs <;> simp [h.nonempty]
    exact h.getLast?_addToField (by rwa [List.getLast?_cons_of_ne_nil hne])

/-- The login is the last of the members in the field. -/
theorem splitOn_addToField (h : IsNewMember login) :
    (addToField field login).splitOn ',' =
      (if field = [] then [] else field.splitOn ',') ++ [login] := by
  rw [addToField]
  split_ifs
  · exact List.splitOn_eq_singleton h.comma
  · rw [List.splitOn_append_cons_self, List.splitOn_eq_singleton h.comma]

/-- **A member field with the login** lists its members, and then the login. -/
theorem parseMembers_addToField (h : IsNewMember login) (hfield : trim field = field) :
    parseMembers (addToField field login) = parseMembers field ++ [login] := by
  have hlogin : ([login].map trim).filter (· ≠ []) = [login] := by
    simp [h.trim_eq, h.nonempty]
  rw [parseMembers, parseMembers, h.trim_addToField hfield, hfield, h.splitOn_addToField,
    List.map_append, List.filter_append, hlogin]
  split_ifs with hnil
  · subst hnil
    rfl
  · rfl

end IsNewMember

/-! ## Rows -/

/-- A row as a repair prints it. -/
def rowText (name gidField field : Str) : Str :=
  name ++ ":x:".toList ++ gidField ++ ':' :: field

section RowText

variable {name gidField field login : Str} {gid : UInt32}

/-- A row splits into its four fields. -/
theorem splitOn_rowText (hname : ':' ∉ name) (hgid : ':' ∉ gidField) (hfield : ':' ∉ field) :
    (rowText name gidField field).splitOn ':' = [name, ['x'], gidField, field] := by
  have hshape : rowText name gidField field =
      name ++ ':' :: (['x'] ++ ':' :: (gidField ++ ':' :: field)) := by
    simp [rowText]
  rw [hshape, List.splitOn_append_cons_self_of_not_mem hname,
    List.splitOn_append_cons_self_of_not_mem (by decide),
    List.splitOn_append_cons_self_of_not_mem hgid, List.splitOn_eq_singleton hfield]

/-- A row that a repair prints is a row. -/
theorem isGroupLine_rowText (hname : IsFieldName name) (hgid : ':' ∉ gidField)
    (hgidTrim : trim gidField = gidField) (hfield : ':' ∉ field) (htrim : trim field = field) :
    IsGroupLine (rowText name gidField field) := by
  constructor
  · rw [splitOn_rowText hname.colon hgid hfield]
    rfl
  · rw [splitOn_rowText hname.colon hgid hfield]
    have hx : trim ['x'] = ['x'] := by decide
    simp [hname.trimmed, hx, hgidTrim, htrim]

/-- A row is not skipped. -/
theorem isSkippedLine_rowText (hname : IsFieldName name) :
    isSkippedLine (rowText name gidField field) = false := by
  have hhash := hname.hash
  cases name with
  | nil => simp [rowText, isSkippedLine]
  | cons c name => simpa [rowText, isSkippedLine] using hhash

end RowText

/-- **What a row says**: nothing, or a name, a gid and members. -/
theorem IsGroupLine.parse_cases {line : Str} (h : IsGroupLine line)
    (hskip : isSkippedLine line = false) :
    (parseGroupRow line = none ∧ ∀ gid login, repairRow gid login line = .other) ∨
      ∃ name pw gidField rest gid, line.splitOn ':' = name :: pw :: gidField :: rest ∧
        rest.length ≤ 1 ∧ parseU32 gidField = some gid ∧
        parseGroupRow line = some ⟨name, gid, parseMembers (rest.headD [])⟩ := by
  have hsplit : splitN 4 ':' line = line.splitOn ':' := splitN_eq_splitOn h.short
  have hshort := h.short
  have htrimmed := h.trimmed
  rw [parseGroupRow, h.trim_eq]
  simp only [repairRow, h.trim_eq, hskip, hsplit, Bool.false_eq_true, if_false]
  rcases hfields : line.splitOn ':' with _ | ⟨name, _ | ⟨pw, _ | ⟨gidField, rest⟩⟩⟩
  · exact .inl ⟨rfl, fun _ _ => rfl⟩
  · exact .inl ⟨rfl, fun _ _ => rfl⟩
  · exact .inl ⟨rfl, fun _ _ => rfl⟩
  · rw [hfields] at hshort htrimmed
    dsimp only
    rw [htrimmed gidField (by simp), htrimmed name (by simp)]
    cases hgid : parseU32 gidField with
    | none => exact .inl ⟨rfl, fun _ _ => if_neg (by simp)⟩
    | some gid =>
      refine .inr ⟨name, pw, gidField, rest, gid, rfl, ?_, hgid, rfl⟩
      simp only [List.length_cons] at hshort
      omega

/-! ## Repaired lines -/

/-- A line stands for a line before a repair: it says the same, or it is a row of the gid with the
login as its last member. -/
def RepairsLine (gid : UInt32) (login line line' : Str) : Prop :=
  trim line' = trim line ∨ ∃ row, parseGroupRow line = some row ∧ row.gid = gid ∧
    parseGroupRow line' = some { row with members := row.members ++ [login] }

/-- A line that a repair writes: a row of the gid with the login in it. -/
structure IsRepairedRow (gid : UInt32) (login line : Str) : Prop where
  groupLine : IsGroupLine line
  feed : '\n' ∉ line
  closed : stripCr line = line
  complete : repairRow gid login line = .complete

section RepairedRow

variable {name gidField field login : Str} {gid : UInt32}

/-- A row of the gid that is printed with the login is such a line. -/
theorem isRepairedRow_rowText (hlogin : IsNewMember login) (hname : IsFieldName name)
    (hnameLf : '\n' ∉ name) (hgid : parseU32 gidField = some gid) (hgidColon : ':' ∉ gidField)
    (hgidTrim : trim gidField = gidField) (hgidLf : '\n' ∉ gidField) (hfield : ':' ∉ field)
    (hfieldTrim : trim field = field) (hfieldLf : '\n' ∉ field) :
    IsRepairedRow gid login (rowText name gidField (addToField field login)) ∧
      parseGroupRow (rowText name gidField (addToField field login)) =
        some ⟨name, gid, parseMembers field ++ [login]⟩ := by
  have hcolon := hlogin.colon_addToField hfield
  -- the printed row is trimmed, split into four fields and no comment
  have hline : IsGroupLine (rowText name gidField (addToField field login)) :=
    isGroupLine_rowText hname hgidColon hgidTrim hcolon (hlogin.trim_addToField hfieldTrim)
  have hskip : isSkippedLine (rowText name gidField (addToField field login)) = false :=
    isSkippedLine_rowText hname
  have hsplit := splitOn_rowText hname.colon hgidColon hcolon
  have hin : login ∈ (addToField field login).splitOn ',' := by
    rw [hlogin.splitOn_addToField]
    simp
  have hlogLf : '\n' ∉ login := fun hc => absurd (hlogin.blank _ hc) (by decide)
  refine ⟨⟨hline, ?_, ?_, ?_⟩, ?_⟩
  -- no line feed
  case refine_1 =>
    rw [rowText, addToField]
    split_ifs <;> simp [hnameLf, hgidLf, hfieldLf, hlogLf]
  -- no carriage return at the end
  case refine_2 =>
    refine if_neg fun hlast => ?_
    have hend : (rowText name gidField (addToField field login)).getLast? =
        (':' :: addToField field login).getLast? := by
      rw [rowText, List.getLast?_append_of_ne_nil _ (by simp)]
    rw [hend] at hlast
    exact absurd (hlogin.getLast?_addToField hlast) (by decide)
  -- repaired once more it lists the login already
  case refine_3 =>
    rw [repairRow, hline.trim_eq]
    simp only [hskip, hsplit, Bool.false_eq_true, if_false, hgid, if_true, List.headD_cons]
    exact if_pos hin
  -- and it reads as the row of the gid with the login at the end
  case refine_4 =>
    rw [parseGroupRow, hline.trim_eq]
    have hshort : ((rowText name gidField (addToField field login)).splitOn ':').length ≤ 4 :=
      hline.short
    simp only [hskip, Bool.false_eq_true, if_false, splitN_eq_splitOn hshort, hsplit, hgidTrim,
      hgid, hname.trimmed, List.headD_cons, hlogin.parseMembers_addToField hfieldTrim]
    rfl

end RepairedRow

/-- **What a repair finds in a line**: no row of the gid, a row that lists the login, or a row to be
printed again with it. -/
theorem IsStoreLine.repairRow_cases {line login : Str} (h : IsStoreLine line) (hlf : '\n' ∉ line)
    (hlogin : IsNewMember login) (gid : UInt32) :
    (repairRow gid login line = .other ∧ ∀ row, parseGroupRow line = some row → row.gid ≠ gid) ∨
      (repairRow gid login line = .complete ∧
        ∃ row, parseGroupRow line = some row ∧ row.gid = gid ∧ login ∈ row.members) ∨
      ∃ line', repairRow gid login line = .rebuilt line' ∧ IsRepairedRow gid login line' ∧
        RepairsLine gid login line line' := by
  -- a blank line or a comment is a row of nothing
  by_cases hskip : isSkippedLine (trim line) = true
  · refine .inl ⟨?_, fun row hrow => ?_⟩
    · rw [repairRow]
      exact if_pos hskip
    · rw [parseGroupRow] at hrow
      rw [show (if isSkippedLine (trim line) then none else _) = none from if_pos hskip] at hrow
      exact absurd hrow (by simp)
  have hgroup := h.resolve_left hskip
  rw [hgroup.trim_eq, Bool.not_eq_true] at hskip
  -- neither is a line whose gid does not read
  rcases hgroup.parse_cases hskip with ⟨hnone, hother⟩ |
    ⟨name, pw, gidField, rest, gid', hfields, hrest, hgid, hparse⟩
  · exact .inl ⟨hother gid login, fun row hrow => absurd (hnone.symm.trans hrow) (by simp)⟩
  have hfind : repairRow gid login line =
      if gid' = gid then
        if login ∈ (rest.headD []).splitOn ',' then .complete
        else .rebuilt (rowText name gidField (addToField (rest.headD []) login))
      else .other := by
    rw [repairRow, hgroup.trim_eq]
    simp only [hskip, hfields, hgid, Bool.false_eq_true, if_false, Option.some_inj]
    rfl
  -- a row of another gid is left as it is
  by_cases hsame : gid' = gid
  case neg =>
    refine .inl ⟨by rw [hfind, if_neg hsame], fun row hrow => ?_⟩
    rw [hparse, Option.some_inj] at hrow
    rw [← hrow]
    exact hsame
  subst hsame
  rw [if_pos rfl] at hfind
  have hmem : ∀ field ∈ name :: pw :: gidField :: rest,
      ':' ∉ field ∧ trim field = field ∧ '\n' ∉ field := by
    intro field hfield
    rw [← hfields] at hfield
    exact ⟨not_mem_of_mem_splitOn hfield, hgroup.trimmed field hfield,
      fun hc => hlf (mem_of_mem_splitOn hfield hc)⟩
  have hmembers : ':' ∉ rest.headD [] ∧ trim (rest.headD []) = rest.headD [] ∧
      '\n' ∉ rest.headD [] := by
    cases rest with
    | nil => simp [trim]
    | cons field rest => exact hmem field (by simp)
  -- what is left depends on the members field: the login stands there, or the row is printed again
  by_cases hin : login ∈ (rest.headD []).splitOn ','
  case pos =>
    refine .inr (.inl ⟨by rw [hfind, if_pos hin], _, hparse, rfl, ?_⟩)
    rw [parseMembers, hmembers.2.1, List.mem_filter, List.mem_map]
    exact ⟨⟨login, hin, hlogin.trim_eq⟩, by simpa using hlogin.nonempty⟩
  case neg =>
    have hnameField := hmem name (by simp)
    have hgidField := hmem gidField (by simp)
    -- a printed name that began with the hash sign would have made the line a comment
    have hname : IsFieldName name := by
      refine ⟨hnameField.1, hnameField.2.1, fun hhash => ?_⟩
      have hline : line.head? = some '#' := by
        have hbefore := head?_splitOn ':' line
        rw [hfields, List.head?_cons, Option.some_inj] at hbefore
        obtain ⟨t, ht⟩ : name <+: line := hbefore ▸ List.takeWhile_prefix _
        rw [← ht, List.head?_append, hhash]
        rfl
      simp [isSkippedLine, hline] at hskip
    obtain ⟨hrow, hparse'⟩ := isRepairedRow_rowText hlogin hname hnameField.2.2 hgid hgidField.1
      hgidField.2.1 hgidField.2.2 hmembers.1 hmembers.2.1 hmembers.2.2
    exact .inr (.inr ⟨_, by rw [hfind, if_neg hin], hrow, .inr ⟨_, hparse, rfl, hparse'⟩⟩)

/-! ## Repaired stores -/

/-- The lines of a store. -/
def StoreFile.storeLines (file : StoreFile) : List Str := lines (file.readToString.getD [])

/-- Every line of a store is blank, a comment or a row. -/
def StoreFile.IsRegular (file : StoreFile) : Prop := ∀ line ∈ file.storeLines, IsStoreLine line

/-- A store that a repair leaves alone: there is a row of the gid, and such rows list the login. -/
structure StoreFile.Settled (file : StoreFile) (gid : UInt32) (login : Str) : Prop where
  some : ∃ line ∈ file.storeLines, repairRow gid login line = .complete
  all : ∀ line ∈ file.storeLines,
    repairRow gid login line = .other ∨ repairRow gid login line = .complete

/-- **A repaired store**: there is a row of the gid, every such row lists the login, the lines stand
for those there were, in order, and at most one row was added. -/
structure StoreFile.Repaired (gid : UInt32) (login : Str) (file file' : StoreFile) : Prop where
  lists : file'.Lists gid login
  lines : ∃ kept added, file'.storeLines = kept ++ added ∧
    List.Forall₂ (RepairsLine gid login) file.storeLines kept ∧ added.length ≤ 1

/-- Settled stores are not written. -/
theorem ensureMemberAt_of_settled {fails : Nat → Bool} {gid : UInt32} {login : Str}
    {path : StorePath} {d : Disk} (hread : d.files path ≠ .unreadable)
    (h : (d.files path).Settled gid login) : ensureMemberAt fails gid login path d = (.ok (), d) := by
  have hsaw : ((d.files path).storeLines.any fun l => repairRow gid login l ≠ .other) = true := by
    obtain ⟨line, hline, hcomplete⟩ := h.some
    exact List.any_eq_true.mpr ⟨line, hline, by simp [hcomplete]⟩
  have hall : ((d.files path).storeLines.all fun l =>
      repairRow gid login l = .other ∨ repairRow gid login l = .complete) = true :=
    List.all_eq_true.mpr fun line hline => by simpa using h.all line hline
  rw [ensureMemberAt]
  cases hfile : d.files path with
  | unreadable => exact absurd hfile hread
  | missing =>
    rw [hfile] at hsaw hall
    exact if_pos ⟨hsaw, hall⟩
  | text content =>
    rw [hfile] at hsaw hall
    exact if_pos ⟨hsaw, hall⟩

/-- A reader of a settled store finds the login in every row of the gid. -/
theorem StoreFile.Settled.lists {file : StoreFile} {gid : UInt32} {login : Str}
    (h : file.Settled gid login) (hfile : file.IsRegular) (hlogin : IsNewMember login) :
    file.Lists gid login := by
  have hlf : ∀ line ∈ file.storeLines, '\n' ∉ line := fun line hline => not_mem_of_mem_lines hline
  constructor
  · obtain ⟨line, hline, hcomplete⟩ := h.some
    rcases (hfile line hline).repairRow_cases (hlf line hline) hlogin gid with
      ⟨hother, -⟩ | ⟨-, row, hrow, hgid, -⟩ | ⟨line', hrebuilt, -⟩
    · exact absurd (hcomplete.symm.trans hother) (by simp)
    · exact ⟨row, List.mem_filterMap.mpr ⟨line, hline, hrow⟩, hgid⟩
    · exact absurd (hcomplete.symm.trans hrebuilt) (by simp)
  · intro row hrow hgid
    obtain ⟨line, hline, hparse⟩ := List.mem_filterMap.mp hrow
    rcases (hfile line hline).repairRow_cases (hlf line hline) hlogin gid with
      ⟨-, hother⟩ | ⟨-, row', hrow', -, hmem⟩ | ⟨line', hrebuilt, -⟩
    · exact absurd hgid (hother row hparse)
    · obtain rfl := Option.some.inj (hparse.symm.trans hrow')
      exact hmem
    · rcases h.all line hline with hall | hall <;>
        exact absurd (hall.symm.trans hrebuilt) (by simp)

/-- The name of a row that is found in a regular store is a field of a line. -/
theorem StoreFile.IsRegular.findName {file : StoreFile} (h : file.IsRegular) {gid : UInt32}
    {name : Str} (hname : findName gid file = some name) : IsFieldName name ∧ '\n' ∉ name := by
  cases hread : file.readToString with
  | none => simp [NfsKlldap.findName, hread] at hname
  | some content =>
    have hlines : file.storeLines = lines content := by rw [storeLines, hread, Option.getD_some]
    simp only [NfsKlldap.findName, hread, bind, Option.bind_some] at hname
    obtain ⟨line, hline, hfound⟩ := List.exists_of_findSome?_eq_some hname
    have hlf : '\n' ∉ line := not_mem_of_mem_lines hline
    by_cases hskip : isSkippedLine (trim line) = true
    · rw [if_pos hskip] at hfound
      exact absurd hfound (by simp)
    · have hgroup := (h line (hlines ▸ hline)).resolve_left hskip
      rw [if_neg hskip, hgroup.trim_eq, splitN_eq_splitOn hgroup.short] at hfound
      rw [hgroup.trim_eq] at hskip
      split at hfound
      · rename_i name' pw gidField rest hfields
        obtain rfl : name' = name := by
          split at hfound
          · exact Option.some.inj hfound
          · exact absurd hfound (by simp)
        have hmem : name' ∈ line.splitOn ':' := by simp [hfields]
        refine ⟨⟨not_mem_of_mem_splitOn hmem, hgroup.trimmed name' hmem, fun hhash => hskip ?_⟩,
          fun hc => hlf (mem_of_mem_splitOn hmem hc)⟩
        have hbefore := head?_splitOn ':' line
        rw [hfields, List.head?_cons, Option.some_inj] at hbefore
        obtain ⟨t, ht⟩ : name' <+: line := hbefore ▸ List.takeWhile_prefix _
        rw [isSkippedLine, ← ht, List.head?_append, hhash]
        simp
      · exact absurd hfound (by simp)

/-- The group stores are regular. -/
def Disk.IsRegular (d : Disk) : Prop := ∀ path ∈ groupStores, (d.files path).IsRegular

/-- The name of a new row is a field. -/
theorem Disk.IsRegular.newRowName {d : Disk} (h : d.IsRegular) (gid : UInt32) :
    IsFieldName (newRowName gid d) ∧ '\n' ∉ newRowName gid d := by
  rw [NfsKlldap.newRowName]
  by_cases hnobody : gid = fallbackNobodyGid
  · rw [if_pos hnobody]
    exact ⟨isSaneLogin_nobody.isFieldName, by decide⟩
  rw [if_neg hnobody]
  cases hfound : (findName gid (d.files .nssGroup)).or (findName gid (d.files .extrausersGroup)) with
  | some name =>
    rcases Option.or_eq_some_iff.mp hfound with hfound | ⟨-, hfound⟩
    · exact (h .nssGroup (by decide)).findName hfound
    · exact (h .extrausersGroup (by decide)).findName hfound
  | none =>
    rw [Option.getD_none]
    split_ifs
    · exact ⟨isSaneLogin_root.isFieldName, by decide⟩
    · refine ⟨(isSaneLogin_cons_decimal (by decide) gid).isFieldName, fun hc => ?_⟩
      rcases List.mem_cons.mp hc with hc | hc
      · exact absurd hc (by decide)
      · exact not_mem_decimal (by decide) gid hc

/-! ## A repair -/

/-- A line that says the same is found the same. -/
theorem repairRow_congr (gid : UInt32) (login : Str) {line line' : Str} (h : trim line' = trim line) :
    repairRow gid login line' = repairRow gid login line := by
  rw [repairRow, repairRow, h]

/-- Without its carriage return a line may still be in a store. -/
theorem IsStoreLine.stripCr {line : Str} (h : IsStoreLine line) : IsStoreLine (stripCr line) := by
  rcases h with h | h
  · exact .inl (by rwa [trim_stripCr])
  · have hsame : Text.stripCr line = line := by
      refine if_neg fun hlast => ?_
      exact absurd ((trim_eq_self_iff.mp h.trim_eq).2 _ hlast) (by decide)
    rw [hsame]
    exact .inr h

section Repair

variable {fails : Nat → Bool} {d d' : Disk} {gid : UInt32} {login : Str} {path : StorePath}

/-- What a line becomes in a repair: a line that is not touched by the next one. -/
theorem IsStoreLine.repairedLine_spec {line : Str} (h : IsStoreLine line) (hlf : '\n' ∉ line)
    (hlogin : IsNewMember login) (gid : UInt32) :
    IsStoreLine (Text.stripCr (repairedLine gid login line)) ∧
      RepairsLine gid login line (Text.stripCr (repairedLine gid login line)) ∧
      (repairRow gid login (Text.stripCr (repairedLine gid login line)) = .other ↔
        repairRow gid login line = .other) ∧
      (repairRow gid login (Text.stripCr (repairedLine gid login line)) = .other ∨
        repairRow gid login (Text.stripCr (repairedLine gid login line)) = .complete) ∧
      '\n' ∉ repairedLine gid login line := by
  rcases h.repairRow_cases hlf hlogin gid with
    ⟨hfind, -⟩ | ⟨hfind, -⟩ | ⟨line', hfind, hrow, hrepairs⟩
  · have hsame : repairedLine gid login line = line := by rw [repairedLine, hfind]
    have hcongr := repairRow_congr gid login (trim_stripCr line)
    rw [hsame]
    exact ⟨h.stripCr, .inl (trim_stripCr line), by rw [hcongr], .inl (hcongr.trans hfind), hlf⟩
  · have hsame : repairedLine gid login line = line := by rw [repairedLine, hfind]
    have hcongr := repairRow_congr gid login (trim_stripCr line)
    rw [hsame]
    exact ⟨h.stripCr, .inl (trim_stripCr line), by rw [hcongr], .inr (hcongr.trans hfind), hlf⟩
  · have hnew : repairedLine gid login line = line' := by rw [repairedLine, hfind]
    rw [hnew, hrow.closed, hrow.complete, hfind]
    exact ⟨.inr hrow.groupLine, hrepairs, by simp, .inr rfl, hrow.feed⟩

/-- Some line of a store is a row of the gid. -/
def StoreFile.hasRow (file : StoreFile) (gid : UInt32) (login : Str) : Bool :=
  file.storeLines.any fun l => repairRow gid login l ≠ .other

/-- The lines that a repair writes. -/
def repairedLines (gid : UInt32) (login : Str) (path : StorePath) (d : Disk) : List Str :=
  let out := (d.files path).storeLines.map (repairedLine gid login)
  if (d.files path).hasRow gid login then out
  else out ++ [rowText (newRowName gid d) (decimal gid) login]

/-- A repair writes its lines, unless the store is settled. -/
theorem ensureMemberAt_eq (hread : d.files path ≠ .unreadable) :
    ensureMemberAt fails gid login path d =
      if (d.files path).hasRow gid login ∧ (d.files path).storeLines.all fun l =>
          repairRow gid login l = .other ∨ repairRow gid login l = .complete then
        (.ok (), d)
      else
        match writeAtomicIfChanged fails path
            (['\n'].intercalate (repairedLines gid login path d) ++ ['\n']) d with
        | (.ok _, d) => (.ok (), d)
        | (.error e, d) => (.error e, d) := by
  unfold ensureMemberAt repairedLines StoreFile.hasRow StoreFile.storeLines
  cases hstate : d.files path with
  | unreadable => exact absurd hstate hread
  | missing => rfl
  | text content => rfl

/-- Read back, the lines that a repair writes are regular and settled, and stand for the lines of the
store. -/
theorem repairedLines_spec (hfile : (d.files path).IsRegular) (hlogin : IsNewMember login)
    (hname : IsFieldName (newRowName gid d) ∧ '\n' ∉ newRowName gid d) {file' : StoreFile}
    (hfile' : file' = .text (unlines (repairedLines gid login path d))) :
    file'.IsRegular ∧ file'.Settled gid login ∧
      ∃ kept added, file'.storeLines = kept ++ added ∧
        List.Forall₂ (RepairsLine gid login) (d.files path).storeLines kept ∧ added.length ≤ 1 := by
  have hspec := fun line (hline : line ∈ (d.files path).storeLines) =>
    (hfile line hline).repairedLine_spec (not_mem_of_mem_lines hline) hlogin gid
  obtain ⟨hnew, -⟩ := isRepairedRow_rowText hlogin hname.1 hname.2
    (parseU32_decimal gid) (not_mem_decimal (by decide) gid) (trim_decimal gid)
    (not_mem_decimal (by decide) gid) (show ':' ∉ ([] : Str) by simp) rfl (by simp)
  set kept := (d.files path).storeLines.map fun line => stripCr (repairedLine gid login line)
    with hkept
  have hmem : ∀ l ∈ kept, IsStoreLine l ∧
      (repairRow gid login l = .other ∨ repairRow gid login l = .complete) := by
    intro l hl
    obtain ⟨line, hline, rfl⟩ := List.mem_map.mp hl
    exact ⟨(hspec line hline).1, (hspec line hline).2.2.2.1⟩
  have hforall : List.Forall₂ (RepairsLine gid login) (d.files path).storeLines kept := by
    rw [hkept, List.forall₂_map_right_iff, List.forall₂_same]
    exact fun line hline => (hspec line hline).2.1
  -- every written line is free of line feeds, so that they are read back one by one
  have hlines : file'.storeLines = (repairedLines gid login path d).map stripCr := by
    rw [hfile', StoreFile.storeLines, StoreFile.readToString, Option.getD_some]
    refine lines_unlines_map fun l hl => ?_
    rw [repairedLines] at hl
    split_ifs at hl
    · obtain ⟨line, hline, rfl⟩ := List.mem_map.mp hl
      exact (hspec line hline).2.2.2.2
    · rcases List.mem_append.mp hl with hl | hl
      · obtain ⟨line, hline, rfl⟩ := List.mem_map.mp hl
        exact (hspec line hline).2.2.2.2
      · rw [List.mem_singleton] at hl
        exact hl ▸ hnew.feed
  -- a row is added only where the store has none of the gid
  obtain ⟨added, hadded, hlength, hrows, hsome⟩ : ∃ added,
      (repairedLines gid login path d).map stripCr = kept ++ added ∧ added.length ≤ 1 ∧
      (∀ l ∈ added, IsRepairedRow gid login l) ∧
      ∃ l ∈ kept ++ added, repairRow gid login l = .complete := by
    rw [repairedLines]
    by_cases hrow : (d.files path).hasRow gid login = true
    · rw [if_pos hrow, List.map_map]
      refine ⟨[], (List.append_nil _).symm, by simp, by simp, ?_⟩
      obtain ⟨line, hline, hfound⟩ := List.any_eq_true.mp hrow
      rw [decide_eq_true_eq] at hfound
      obtain ⟨-, -, hother, hdone, -⟩ := hspec line hline
      rw [List.append_nil]
      exact ⟨_, List.mem_map_of_mem hline, hdone.resolve_left fun h => hfound (hother.mp h)⟩
    · rw [if_neg hrow, List.map_append, List.map_map, List.map_singleton]
      rw [show rowText (newRowName gid d) (decimal gid) (addToField [] login) =
        rowText (newRowName gid d) (decimal gid) login from rfl] at hnew
      rw [hnew.closed]
      exact ⟨[_], rfl, le_rfl, by simpa using hnew, _, by simp, hnew.complete⟩
  rw [hadded] at hlines
  refine ⟨fun l hl => ?_, ⟨by rwa [hlines], fun l hl => ?_⟩, kept, added, hlines, hforall, hlength⟩
  · rw [hlines, List.mem_append] at hl
    exact hl.elim (fun hl => (hmem l hl).1) fun hl => .inr (hrows l hl).groupLine
  · rw [hlines, List.mem_append] at hl
    exact hl.elim (fun hl => (hmem l hl).2) fun hl => .inr (hrows l hl).complete

/-- **A repair of one store**, when it succeeds, leaves a repaired store that the next repair leaves
alone. -/
theorem ensureMemberAt_repairs (hfile : (d.files path).IsRegular) (hlogin : IsNewMember login)
    (hname : IsFieldName (newRowName gid d) ∧ '\n' ∉ newRowName gid d)
    (h : ensureMemberAt fails gid login path d = (.ok (), d')) :
    (d'.files path).IsRegular ∧ (d'.files path).Settled gid login ∧
      StoreFile.Repaired gid login (d.files path) (d'.files path) ∧
      d'.files path ≠ .unreadable ∧ ∀ q ≠ path, d'.files q = d.files q := by
  have hread : d.files path ≠ .unreadable := by
    intro hunreadable
    rw [ensureMemberAt, hunreadable] at h
    exact absurd (congrArg Prod.fst h) (by simp)
  rw [ensureMemberAt_eq hread] at h
  split at h
  case isTrue hdone =>
    -- nothing to write: the store is settled as it is
    obtain rfl : d = d' := congrArg Prod.snd h
    have hset : (d.files path).Settled gid login := by
      have hall := fun line hline => List.all_eq_true.mp hdone.2 line hline
      obtain ⟨line, hline, hfound⟩ := List.any_eq_true.mp hdone.1
      simp only [decide_eq_true_eq] at hall hfound
      exact ⟨⟨line, hline, (hall line hline).resolve_left hfound⟩, hall⟩
    refine ⟨hfile, hset, ⟨hset.lists hfile hlogin, _, [], (List.append_nil _).symm, ?_, by simp⟩,
      hread, fun _ _ => rfl⟩
    exact List.forall₂_same.mpr fun line _ => .inl rfl
  case isFalse =>
    have hne : repairedLines gid login path d ≠ [] := by
      rw [repairedLines]
      by_cases hrow : (d.files path).hasRow gid login = true
      · rw [if_pos hrow]
        obtain ⟨line, hline, -⟩ := List.any_eq_true.mp hrow
        exact List.ne_nil_of_mem (List.mem_map_of_mem hline)
      · rw [if_neg hrow]
        simp
    rw [intercalate_append_newline hne] at h
    split at h
    · rename_i wrote d₁ hwrite
      obtain rfl : d₁ = d' := congrArg Prod.snd h
      obtain ⟨htext, hothers⟩ := writeAtomicIfChanged_of_ok hwrite
      obtain ⟨hreg, hset, hlines⟩ := repairedLines_spec hfile hlogin hname htext
      exact ⟨hreg, hset, ⟨hset.lists hreg hlogin, hlines⟩, by rw [htext]; simp, hothers⟩
    · exact absurd (congrArg Prod.fst h) (by simp)

/-- **A repair of the group stores**: when it succeeds, both stores are repaired, and the same repair
changes nothing any more. -/
theorem ensureNssGroupMemberLogin_repairs (hd : d.IsRegular) (hlogin : IsNewMember login)
    (h : ensureNssGroupMemberLogin fails gid login d = (.ok (), d')) :
    (∀ path ∈ groupStores, StoreFile.Repaired gid login (d.files path) (d'.files path)) ∧
      ∀ fails', ensureNssGroupMemberLogin fails' gid login d' = (.ok (), d') := by
  rw [ensureNssGroupMemberLogin, hlogin.trim_eq, if_neg hlogin.nonempty] at h
  split at h
  case h_2 => exact absurd (congrArg Prod.fst h) (by simp)
  case h_1 d₁ hfirst =>
    obtain ⟨hreg₁, hset₁, hrep₁, hread₁, hother₁⟩ := ensureMemberAt_repairs
      (hd .nssGroup (by decide)) hlogin (hd.newRowName gid) hfirst
    -- the first repair leaves the second store as it was
    have hd₁ : d₁.IsRegular := by
      intro path hpath
      by_cases hnss : path = .nssGroup
      · rw [hnss]
        exact hreg₁
      · rw [hother₁ path hnss]
        exact hd path hpath
    obtain ⟨hreg₂, hset₂, hrep₂, hread₂, hother₂⟩ := ensureMemberAt_repairs
      (hd₁ .extrausersGroup (by decide)) hlogin (hd₁.newRowName gid) h
    have hnss : d'.files .nssGroup = d₁.files .nssGroup := hother₂ .nssGroup (by decide)
    constructor
    · intro path hpath
      simp only [groupStores, List.mem_cons, List.not_mem_nil, or_false] at hpath
      rcases hpath with rfl | rfl
      · rw [hnss]
        exact hrep₁
      · rw [← hother₁ .extrausersGroup (by decide)]
        exact hrep₂
    -- settled stores are left alone, whatever a write would do
    · intro fails'
      rw [ensureNssGroupMemberLogin, hlogin.trim_eq, if_neg hlogin.nonempty,
        ensureMemberAt_of_settled (by rw [hnss]; exact hread₁) (by rw [hnss]; exact hset₁)]
      exact ensureMemberAt_of_settled hread₂ hset₂

end Repair

/-- Two rows of one gid and a comment in one store, nothing in the other. -/
def sharedGidDisk : Disk where
  files
    | .nssGroup => .text "# local\nstaff:x:5000:alice\n\nteam:x:5000:\n".toList
    | _ => .missing
  cacheFile := .missing
  writes := 0
  ops := 0

/-- A gid that two rows share is repaired in both of them. -/
theorem ensureNssGroupMemberLogin_repairs_sharedGid :
    let d' := (ensureNssGroupMemberLogin (fun _ => false) 5000 "bob".toList sharedGidDisk).2
    ((∀ path ∈ groupStores,
        StoreFile.Repaired 5000 "bob".toList (sharedGidDisk.files path) (d'.files path)) ∧
      ∀ fails', ensureNssGroupMemberLogin fails' 5000 "bob".toList d' = (.ok (), d')) ∧
    d'.files .nssGroup =
      .text "# local\nstaff:x:5000:alice,bob\n\nteam:x:5000:bob\n".toList ∧
    d'.files .extrausersGroup = .text "staff:x:5000:bob\n".toList := by
  have hregular : sharedGidDisk.IsRegular := by
    intro path hpath line hline
    revert line
    simp only [groupStores, List.mem_cons, List.not_mem_nil, or_false] at hpath
    rcases hpath with rfl | rfl <;> decide +kernel
  have hok : (ensureNssGroupMemberLogin (fun _ => false) 5000 "bob".toList sharedGidDisk).1.toBool =
      true := by decide +kernel
  have hrun : ensureNssGroupMemberLogin (fun _ => false) 5000 "bob".toList sharedGidDisk =
      (.ok (), (ensureNssGroupMemberLogin (fun _ => false) 5000 "bob".toList sharedGidDisk).2) := by
    refine Prod.ext ?_ rfl
    cases hresult : (ensureNssGroupMemberLogin (fun _ => false) 5000 "bob".toList sharedGidDisk).1 with
    | ok u => rfl
    | error e =>
      rw [hresult] at hok
      exact absurd hok Bool.false_ne_true
  have hlogin : IsNewMember "bob".toList := by
    refine ⟨by decide, by decide, by decide, fun c hc => ?_⟩
    have hchars : c = 'b' ∨ c = 'o' ∨ c = 'b' := by simpa using hc
    rcases hchars with rfl | rfl | rfl <;> decide
  exact ⟨ensureNssGroupMemberLogin_repairs hregular hlogin hrun, by decide +kernel,
    by decide +kernel⟩

end NfsKlldap
