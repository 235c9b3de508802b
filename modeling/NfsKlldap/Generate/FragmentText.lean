import NfsKlldap.Generate.Fragments
import NfsKlldap.Config.SharePaths
import NfsKlldap.Lib.ConfText
import NfsKlldap.Lib.Slices

/-! # What a fragment is read as

A fragment is meant to be one `EXPORT` block under a few comment lines. The name of the share is
pasted into a comment, the two paths are pasted into directives, none of them quoted.

* **`exportSigns`** — the one block an export stands for;
* **`WrittenPlainly`** — the path and the Pseudo path are read back as written, and no line of the
  name leaves the comment;
* **`readConf_fragmentText_iff`** — a fragment is read as its block exactly then. -/

namespace NfsKlldap

open Text ConfText

/-! ## The block of an export -/

/-- The `Read_Access_Check_Policy` directive, which an ACL export may leave out. -/
def readAccessLines : ReadAccessPolicyEmit → List (String × Str)
  | .omit => []
  | .pre => [("Read_Access_Check_Policy", "pre".toList)]
  | .post => [("Read_Access_Check_Policy", "post".toList)]

/-- The directive of a value that may be absent. -/
def optionalLines {α : Type} (key : String) (value : α → Str) (o : Option α) : List (String × Str) :=
  (o.map fun a => (key, value a)).toList

/-- The directives of an export, clients aside. -/
def exportLines (exportId : UInt16) (e : Export) : List (String × Str) :=
  [("Export_Id", natDecimal exportId.toNat), ("Path", e.path), ("Pseudo", e.pseudo)] ++
    (if e.navahi then [("Protocols", "3,4".toList)] else []) ++
    [("Disable_ACL", boolWord !e.enableAcl), ("SecType", e.secType), ("Squash", e.squash),
      ("Manage_Gids", boolWord e.manageGids)] ++
    readAccessLines e.readAccess ++
    optionalLines "PrefRead" (fun n => natDecimal n.toNat) e.prefs.1 ++
    optionalLines "PrefWrite" (fun n => natDecimal n.toNat) e.prefs.2 ++
    optionalLines "Attr_Expiration_Time" (fun n => (toString n.toInt).toList) e.attrExpirationTime

/-- The block of an export, clients and backend included. -/
def exportSigns (exportId : UInt16) (e : Export) : List Sign :=
  .opening "EXPORT".toList ::
    ((exportLines exportId e).map fun l => .directive l.1.toList l.2) ++
    [.opening "CLIENT".toList, .directive "Clients".toList "*".toList,
      .directive "Access_Type".toList (accessWord e),
      .directive "Protocols".toList (clientProtocols e), .closing,
      .opening "FSAL".toList, .directive "Name".toList "VFS".toList, .closing, .closing]

/-- What follows the clients in a block. -/
def fsalBlock : Str := "    FSAL \x7b\n        Name = VFS;\n    \x7d\n\x7d\n".toList

/-- Directives as they are written. -/
def writeLines (ls : List (String × Str)) : Str := ls.flatMap fun l => directiveLine l.1 l.2

/-- Lines are written one after the other. -/
theorem writeLines_cons (l : String × Str) (ls : List (String × Str)) :
    writeLines (l :: ls) = directiveLine l.1 l.2 ++ writeLines ls := rfl

/-- What is behind is written behind. -/
theorem writeLines_append (ls ls' : List (String × Str)) :
    writeLines (ls ++ ls') = writeLines ls ++ writeLines ls' := List.flatMap_append

/-- A directive that may be missing is written if it is there. -/
theorem writeLines_optionalLines {α : Type} (key : String) (value : α → Str) (o : Option α) :
    writeLines (optionalLines key value o) = optionalLine key (o.map value) := by
  cases o <;> simp [optionalLines, optionalLine, writeLines]

/-- The read access policy is written as its directive. -/
theorem writeLines_readAccessLines (p : ReadAccessPolicyEmit) :
    writeLines (readAccessLines p) = exportReadAccessLine p := by
  cases p <;> simp [readAccessLines, exportReadAccessLine, writeLines]

/-- A directive under a condition is written if it holds. -/
theorem writeLines_ite (b : Bool) (l : String × Str) :
    writeLines (if b then [l] else []) = if b then directiveLine l.1 l.2 else [] := by
  cases b
  · rfl
  · exact List.append_nil _

/-- A block is written directive by directive. -/
theorem exportBlock_eq (exportId : UInt16) (e : Export) : exportBlock exportId e =
    "EXPORT \x7b\n".toList ++ (writeLines (exportLines exportId e) ++
      (clientBlock e ++ fsalBlock)) := by
  have hnil : writeLines [] = [] := rfl
  delta exportBlock exportLines fsalBlock
  simp only [writeLines_append, writeLines_cons, hnil, writeLines_ite, writeLines_optionalLines,
    writeLines_readAccessLines]
  simp only [List.append_nil, List.append_assoc]

/-! ## Reading a block -/

/-- A line that is read back. -/
structure LineOk (l : String × Str) : Prop where
  key : Verbatim l.1.toList
  noEq : '=' ∉ l.1.toList
  value : Verbatim l.2

/-- Whether a directive can be read back can be decided. -/
instance (l : String × Str) : Decidable (LineOk l) :=
  decidable_of_iff (Verbatim l.1.toList ∧ '=' ∉ l.1.toList ∧ Verbatim l.2)
    ⟨fun h => ⟨h.1, h.2.1, h.2.2⟩, fun h => ⟨h.key, h.noEq, h.value⟩⟩

/-- A directive of plain words can be read back. -/
theorem LineOk.of {key : String} {value : Str} (hkey : Verbatim key.toList ∧ '=' ∉ key.toList)
    (hvalue : Verbatim value) : LineOk (key, value) :=
  ⟨hkey.1, hkey.2, hvalue⟩

/-- The text of a directive: blanks, the key, the sign, the value and a semicolon. -/
theorem directiveLine_eq (key : String) (value : Str) : directiveLine key value =
    "    ".toList ++ (key.toList ++ (' ' :: '=' :: (' ' :: value ++ ";\n".toList))) := by
  show "    ".toList ++ key.toList ++ " = ".toList ++ value ++ ";\n".toList = _
  simp only [List.append_assoc]
  rfl

/-- A directive that can be read back has no comment sign. -/
theorem not_mem_directiveLine {l : String × Str} (h : LineOk l) : '#' ∉ directiveLine l.1 l.2 := by
  have hkey : '#' ∉ l.1.toList := fun hc => (h.key.plain _ hc).2 rfl
  have hvalue : '#' ∉ l.2 := fun hc => (h.value.plain _ hc).2 rfl
  rw [directiveLine_eq]
  simp [hkey, hvalue]

/-- A directive is read as it is written. -/
theorem readPieces_directiveLine {l : String × Str} (h : LineOk l) (s : Str) :
    readPieces (directiveLine l.1 l.2 ++ s) =
      (readPieces s).map (.directive l.1.toList l.2 :: ·) := by
  have hkey : ∀ c ∈ "    ".toList ++ (l.1.toList ++ [' ']), isMark c = false := by
    simp only [List.forall_mem_append]
    exact ⟨not_isMark_of_isBlank (by decide), fun c hc => (h.key.plain c hc).1,
      not_isMark_of_isBlank (by decide)⟩
  have heq : '=' ∉ "    ".toList ++ (l.1.toList ++ [' ']) := by
    simp [h.noEq]
  have hvalue : ∀ c ∈ ' ' :: l.2, isMark c = false :=
    List.forall_mem_cons.mpr ⟨by decide, fun c hc => (h.value.plain c hc).1⟩
  have htrimKey : trim ("    ".toList ++ (l.1.toList ++ [' '])) = l.1.toList := by
    rw [trim_append_iff.mpr (by decide), trim_append_blank (by decide), h.key.trimmed]
  have hwhite : isWhitespace ' ' = true := by decide
  have htrimValue : trim (' ' :: l.2) = l.2 := (trim_white_cons hwhite l.2).trans h.value.trimmed
  have hline : readPieces ('\n' :: s) = readPieces s :=
    readPieces_blank_append (u := ['\n']) (by decide)
  have hread := readPieces_directive hkey heq hvalue ('\n' :: s)
  rw [htrimKey, htrimValue, hline] at hread
  rw [← hread, directiveLine_eq]
  simp

/-- **What is written is read**: the directives come back, in front of what is behind them. -/
theorem readPieces_writeLines {ls : List (String × Str)} (h : ∀ l ∈ ls, LineOk l) (s : Str) :
    readPieces (writeLines ls ++ s) =
      (readPieces s).map ((ls.map fun l => .directive l.1.toList l.2) ++ ·) := by
  induction ls with
  | nil => simp [writeLines]
  | cons l ls ih =>
    rw [writeLines_cons, List.append_assoc, readPieces_directiveLine (h l List.mem_cons_self),
      ih fun l' hl => h l' (List.mem_cons_of_mem l hl), Option.map_map]
    rfl

/-- Directives that can be read back have no comment sign. -/
theorem not_mem_writeLines {ls : List (String × Str)} (h : ∀ l ∈ ls, LineOk l) :
    '#' ∉ writeLines ls := by
  intro hc
  obtain ⟨l, hl, hc⟩ := List.mem_flatMap.mp hc
  exact not_mem_directiveLine (h l hl) hc

/-- The clients and the backend are read as they are written. -/
theorem readPieces_clientBlock (e : Export) :
    '#' ∉ clientBlock e ++ fsalBlock ∧ readPieces (clientBlock e ++ fsalBlock) =
      some [.opening "CLIENT".toList, .directive "Clients".toList "*".toList,
        .directive "Access_Type".toList (accessWord e),
        .directive "Protocols".toList (clientProtocols e), .closing,
        .opening "FSAL".toList, .directive "Name".toList "VFS".toList, .closing, .closing] := by
  have hclient : clientBlock e =
      "\n    CLIENT \x7b\n        Clients = *;\n        Access_Type = ".toList ++ accessWord e ++
        ";\n        Protocols = ".toList ++ clientProtocols e ++ ";\n    \x7d\n\n".toList := rfl
  rw [hclient, accessWord, clientProtocols]
  cases e.access <;> cases e.navahi <;> decide +kernel

/-- Numbers are read back. -/
theorem verbatim_of_isDigit {s : Str} (h : ∀ c ∈ s, c.isDigit = true) : Verbatim s where
  plain c hc := by
    have hd := h c hc
    have hne : ∀ d : Char, d.isDigit = false → c ≠ d := by
      rintro d hfalse rfl
      rw [hd] at hfalse
      exact absurd hfalse (by decide)
    exact ⟨by simp [isMark, hne ';' (by decide), hne '{' (by decide), hne '}' (by decide)],
      hne '#' (by decide)⟩
  trimmed := trim_eq_self
    (fun c hc => isWhitespace_of_isDigit (h c (List.mem_of_mem_head? hc)))
    (fun c hc => isWhitespace_of_isDigit (h c (List.mem_of_getLast? hc)))

/-- A number is read as it is written. -/
theorem verbatim_natDecimal (n : Nat) : Verbatim (natDecimal n) :=
  verbatim_of_isDigit fun _ => isDigit_of_mem_natDecimal

/-- A block is read as it is written when its values are read back. -/
theorem readPieces_exportBlock {exportId : UInt16} {e : Export}
    (h : ∀ l ∈ exportLines exportId e, LineOk l) :
    uncomment false (exportBlock exportId e) = exportBlock exportId e ∧
      readPieces (exportBlock exportId e) = some (exportSigns exportId e) := by
  obtain ⟨hclean, hread⟩ := readPieces_clientBlock e
  have hopening : "EXPORT \x7b\n".toList = "EXPORT ".toList ++ '{' :: "\n".toList := rfl
  rw [exportBlock_eq]
  constructor
  · refine uncomment_eq_self ?_
    rw [List.mem_append, List.mem_append, not_or, not_or]
    exact ⟨by decide, not_mem_writeLines h, hclean⟩
  · have hname : ∀ c ∈ "EXPORT ".toList, isMark c = false :=
      by simp [isMark]
    rw [hopening, List.append_assoc, List.cons_append, readPieces_append hname (by decide),
      readPieces_blank_append (by decide), readPieces_writeLines h, hread]
    rfl

/-- The directives of the two paths are in the block. -/
theorem path_mem_exportSigns (exportId : UInt16) (e : Export) :
    .directive "Path".toList e.path ∈ exportSigns exportId e ∧
      .directive "Pseudo".toList e.pseudo ∈ exportSigns exportId e := by
  have hmem : ∀ l ∈ exportLines exportId e,
      Sign.directive l.1.toList l.2 ∈ exportSigns exportId e := fun l hl =>
    List.mem_append_left _ (List.mem_cons_of_mem _
      (List.mem_map_of_mem (f := fun l : String × Str => Sign.directive l.1.toList l.2) hl))
  refine ⟨hmem ("Path", e.path) ?_, hmem ("Pseudo", e.pseudo) ?_⟩ <;>
  · delta exportLines
    simp only [List.mem_append, List.mem_cons, true_or, or_true]

/-! ## The comment lines -/

/-- The words of the mount table hold no line feed. -/
structure FsCapabilities.OneLine (caps : FsCapabilities) : Prop where
  fstype : '\n' ∉ caps.fstype
  options : ∀ o ∈ caps.mountOptions, '\n' ∉ o

/-- What a line of the mount table says is on one line. -/
theorem oneLine_caps {line : Str} {e : MountEntry} (hline : '\n' ∉ line)
    (h : parseMountinfoLine line = some e) : e.caps.OneLine := by
  have hword : ∀ w ∈ splitWhitespace line, '\n' ∉ w := fun w hw hc =>
    hline ((infix_of_mem_splitWhitespace hw).subset hc)
  rw [parseMountinfoLine] at h
  split at h
  · simp at h
  split at h
  · simp at h
  split at h
  · next hfs _ hrest =>
    obtain rfl := Option.some.inj h
    refine ⟨hword _ (List.mem_of_getElem? hfs), fun o ho hc => ?_⟩
    obtain ⟨w, hw, rfl⟩ := List.mem_map.mp (List.mem_filter.mp ho).1
    obtain ⟨word, hwords, hw⟩ := List.mem_flatMap.mp hw
    rw [← hrest] at hwords
    refine hword word (List.mem_of_mem_drop hwords) ?_
    rw [List.splitOn_eq_splitOnP] at hw
    exact (infix_of_mem_splitOnP hw).subset (mem_of_mem_trim hc)
  · simp at h

/-- What the first stage finds is on one line. -/
theorem oneLine_stageA (v : MountView) (path : Str) : (stageA v path).1.OneLine := by
  have hunknown : FsCapabilities.unknown.OneLine := 
    ⟨by decide, fun _ ho => (List.not_mem_nil ho).elim⟩
  rw [stageA]
  cases v.content with
  | none => exact hunknown
  | some content =>
    rw [Option.map_some, Option.getD_some, probeFromMountinfoWithRoot]
    split
    · next e he =>
      have hmem := (List.mem_filter.mp (maxByKey_eq_some_iff.mp he).mem).1
      obtain ⟨line, hline, hparse⟩ := List.mem_filterMap.mp hmem
      exact oneLine_caps (not_mem_of_mem_lines hline) hparse
    · exact hunknown

/-- The comment over a block ends with its line. -/
theorem comments_autoComment {caps : FsCapabilities} (h : caps.OneLine)
    (eff : EffectiveShareFlags) : Comments false (autoComment caps eff) false := by
  have hjoin : '\n' ∉ ",".toList.intercalate caps.mountOptions := fun hc =>
    (mem_intercalate hc).elim (by decide) fun ⟨o, ho, hmem⟩ => h.options o ho hmem
  have hfs : Comments true caps.fstype true := .inside h.fstype
  have hnil : Comments false [] false := ⟨rfl, rfl⟩
  delta autoComment
  split
  · extract_lets opts
    have hopts : Comments true opts true := by
      refine .inside ?_
      subst opts
      split
      · decide
      · simpa using hjoin
    split
    · refine .append (.append (.append (by decide) hfs) hopts) ?_
      simp only [String.toList_append]
      decide +kernel
    · exact hnil
  · split
    · refine .append (.append (by decide +kernel) hfs) (by decide +kernel)
    · exact hnil

/-- The block about advertising is made of comments. -/
theorem comments_navahiComment : Comments false navahiComment false := by
  delta navahiComment
  rw [String.toList_append]
  decide +kernel

/-! ## The fragments of an accepted config -/

/-- A share whose fields stay where they are pasted: the two paths are read back as written, and
every further line of the name, with the quote behind it, is a comment of its own. -/
structure Share.WrittenPlainly (s : Share) : Prop where
  path : Verbatim (trim s.containerPath)
  pseudo : Verbatim (normalizePseudo s.name s.pseudoPath)
  name : ∀ l ∈ ((s.name ++ ['"']).splitOn '\n').tail, isBlank (before '#' l) = true

section Accepted

variable {env : Environment} {c out : NfsKlldapConfig} {s : Share}

/-- The security of an accepted share comes from the list. -/
theorem verbatim_exportSecType (h : validateAndDerive env c = .ok out) (hs : s ∈ c.shares) :
    Verbatim (exportSecType out s.normalize) := by
  obtain ⟨hscalars, hok, rfl⟩ := validateAndDerive_eq_ok_iff.mp h
  have hbase : s.security.getD (derived env c).ganesha.defaultSecurity ∈ allowedSectypes := by
    cases hsec : s.security with
    | none => exact hscalars.defaultSecurity
    | some v => exact (hok.fields s hs).security v hsec
  have hlist : ∀ b ∈ allowedSectypes, Verbatim b ∧ Verbatim (b ++ ", sys".toList) := by decide
  rw [exportSecType]
  dsimp only
  split
  · exact (hlist _ hbase).2
  · exact (hlist _ hbase).1

/-- A squash mode that was accepted is read as it is written. -/
theorem verbatim_squash (h : validateAndDerive env c = .ok out) (hs : s ∈ c.shares) :
    Verbatim (s.squash.getD ganeshaDefaultSquash) := by
  obtain ⟨-, hok, -⟩ := validateAndDerive_eq_ok_iff.mp h
  cases hsq : s.squash with
  | none => decide
  | some v =>
    have hlist : ∀ b ∈ allowedSquash, Verbatim b := by decide
    exact hlist v ((hok.fields s hs).squash v hsq)

/-- A printed number of an accepted share is not negative. -/
theorem verbatim_attrExpiration (h : validateAndDerive env c = .ok out) (hs : s ∈ c.shares)
    {n : Int32} (hn : s.attrExpirationSecs = some n) : Verbatim (toString n.toInt).toList := by
  obtain ⟨-, hok, -⟩ := validateAndDerive_eq_ok_iff.mp h
  obtain ⟨k, hk⟩ := Int.eq_ofNat_of_zero_le ((hok.fields s hs).attrExpirationSecs n hn)
  rw [hk]
  have hrepr : (toString (k : Int)).toList = natDecimal k := Nat.toList_repr
  rw [hrepr]
  exact verbatim_natDecimal k

/-- Every line of an accepted share but the two paths is read back. -/
theorem lineOk_exportLines (h : validateAndDerive env c = .ok out) (hs : s ∈ c.shares)
    (v : MountView) (exportId : UInt16) (hpath : Verbatim (trim s.containerPath))
    (hpseudo : Verbatim (normalizePseudo s.name s.pseudoPath)) :
    ∀ l ∈ exportLines exportId (shareExport v out s.normalize), LineOk l := by
  have hbool : ∀ b : Bool, Verbatim (boolWord b) := by decide
  have hnat : ∀ n : Nat, Verbatim (natDecimal n) := verbatim_natDecimal
  have hpath' : Verbatim (servePathFor s.normalize) := by rwa [servePathFor_eq]
  have hpseudo' : Verbatim (deriveSharePseudo s.normalize) := by rwa [deriveSharePseudo_eq]
  -- an optional line is there with a value, or not there
  have hopt : ∀ {α : Type} (key : String) (value : α → Str) (o : Option α),
      Verbatim key.toList ∧ '=' ∉ key.toList → (∀ a ∈ o, Verbatim (value a)) →
        ∀ l ∈ optionalLines key value o, LineOk l := by
    intro α key value o hkey hvalue l hl
    obtain ⟨a, ha, rfl⟩ := Option.map_eq_some_iff.mp (Option.mem_toList.mp hl)
    exact .of hkey (hvalue a ha)
  have hread : ∀ (p : ReadAccessPolicyEmit), ∀ l ∈ readAccessLines p, LineOk l := by
    intro p
    cases p <;> decide
  delta exportLines
  simp only [List.forall_mem_append, List.forall_mem_cons]
  refine ⟨⟨⟨⟨⟨⟨⟨?_, ?_, ?_, by simp⟩, ?_⟩, ?_, ?_, ?_, ?_, by simp⟩, hread _⟩, ?_⟩, ?_⟩, ?_⟩
  · exact .of (by decide) (hnat _)
  · exact .of (by decide) hpath'
  · exact .of (by decide) hpseudo'
  · split <;> decide
  · exact .of (by decide) (hbool _)
  · exact .of (by decide) (verbatim_exportSecType h hs)
  · exact .of (by decide) (verbatim_squash (s := s) h hs)
  · exact .of (by decide) (hbool _)
  · exact hopt _ _ _ (by decide) fun n _ => hnat n.toNat
  · exact hopt _ _ _ (by decide) fun n _ => hnat n.toNat
  · exact hopt _ _ _ (by decide) fun n hn => verbatim_attrExpiration h hs hn

/-- The comment lines over a block leave blanks, unless the name gets out of its line. -/
theorem isBlank_fragmentHeader (name : Str) {caps : FsCapabilities} (hcaps : caps.OneLine)
    (eff : EffectiveShareFlags) (navahi : Bool) :
    inComment false (fragmentHeader name caps eff navahi) = false ∧
      (isBlank (uncomment false (fragmentHeader name caps eff navahi)) = true ↔
        ∀ l ∈ ((name ++ ['"']).splitOn '\n').tail, isBlank (before '#' l) = true) := by
  have hfirst : Comments false "# Generated from nfs-klldap.conf share \"".toList true := by
    decide +kernel
  have hrest : Comments false (autoComment caps eff ++ if navahi then navahiComment else []) false := by
    refine (comments_autoComment hcaps eff).append ?_
    cases navahi
    · exact ⟨rfl, rfl⟩
    · exact comments_navahiComment
  have hheader : fragmentHeader name caps eff navahi =
      "# Generated from nfs-klldap.conf share \"".toList ++ ((name ++ ['"']) ++ ['\n'] ++
        (autoComment caps eff ++ if navahi then navahiComment else [])) := by
    delta fragmentHeader
    simp only [List.append_assoc]
    rfl
  rw [hheader, inComment_append, hfirst.state, inComment_append, inComment_newline, hrest.state,
    ← (isBlank_uncomment_iff (name ++ ['"'])).2]
  refine ⟨rfl, ?_⟩
  rw [uncomment_append, isBlank_append, hfirst.state, uncomment_append, isBlank_append,
    inComment_newline, uncomment_append, isBlank_append]
  have hline : isBlank (uncomment (inComment true (name ++ ['"'])) ['\n']) = true := by
    cases inComment true (name ++ ['"']) <;> decide
  simp only [hfirst.blank, hline, hrest.blank, true_and, and_true]

/-- **The fragment of a share** is read as the block of its export exactly when the share is
written plainly. -/
theorem readConf_fragmentText_iff (h : validateAndDerive env c = .ok out) (hs : s ∈ c.shares)
    (v : MountView) (index : Nat) :
    readConf (fragmentText v out index s.normalize) =
        some (exportSigns (deriveExportId s.name (exportIdBase index))
          (shareExport v out s.normalize)) ↔
      s.WrittenPlainly := by
  generalize hid : deriveExportId s.name (exportIdBase index) = exportId
  -- the text is a header of comments and the block
  have htext : fragmentText v out index s.normalize =
      fragmentHeader s.name (stageA v (servePathFor s.normalize)).1 (shareFlags v s.normalize)
        (shareExport v out s.normalize).navahi ++
          exportBlock exportId (shareExport v out s.normalize) := by
    rw [← hid]
    rfl
  obtain ⟨hstate, hblank⟩ := isBlank_fragmentHeader s.name
    (oneLine_stageA v (servePathFor s.normalize)) (shareFlags v s.normalize)
    (shareExport v out s.normalize).navahi
  -- with plain paths the block is read, whatever comes before it; the name is in a comment
  have hread : Verbatim (trim s.containerPath) → Verbatim (normalizePseudo s.name s.pseudoPath) →
      (readConf (fragmentText v out index s.normalize) =
        some (exportSigns exportId (shareExport v out s.normalize)) ↔
          ∀ l ∈ ((s.name ++ ['"']).splitOn '\n').tail, isBlank (before '#' l) = true) := by
    intro hpath hpseudo
    obtain ⟨hclean, hblock⟩ := readPieces_exportBlock
      (lineOk_exportLines h hs v exportId hpath hpseudo)
    rw [readConf, htext, uncomment_append, hstate, hclean, ← hblank]
    exact readPieces_append_opening_iff hblock
  constructor
  -- both paths are among the signs that were read, and a sign is read verbatim
  · intro hconf
    obtain ⟨hpath, hpseudo⟩ := path_mem_exportSigns exportId (shareExport v out s.normalize)
    have hpath' := verbatim_of_mem_readConf hconf hpath
    have hpseudo' := verbatim_of_mem_readConf hconf hpseudo
    rw [show (shareExport v out s.normalize).path = servePathFor s.normalize from rfl,
      servePathFor_eq] at hpath'
    rw [show (shareExport v out s.normalize).pseudo = deriveSharePseudo s.normalize from rfl,
      deriveSharePseudo_eq] at hpseudo'
    exact ⟨hpath', hpseudo', (hread hpath' hpseudo').mp hconf⟩
  · intro hplain
    exact (hread hplain.path hplain.pseudo).mpr hplain.name

/-- **Fragments carry one export**: of an accepted config that is not refused, the file that is
staged for a share is read as the one block of its export exactly when the share is written
plainly, whatever the mount table and the probes say. -/
theorem stagedFragment_iff (h : validateAndDerive env c = .ok out) (t : CharTable) (v : MountView)
    {staged : List (Str × Str)} (hstaged : stageFragments t v out 0 out.shares = .ok staged)
    {i : Nat} (hs : c.shares[i]? = some s) :
    ∃ text, staged[i]? = some (fragmentBasename t i s.name, text) ∧
      (readConf text = some (exportSigns (deriveExportId s.name (exportIdBase i))
          (shareExport v out s.normalize)) ↔
        s.WrittenPlainly) := by
  refine ⟨fragmentText v out i s.normalize, ?_,
    readConf_fragmentText_iff h (List.mem_of_getElem? hs) v i⟩
  obtain ⟨-, rfl⟩ := stageFragments_eq_ok_iff.mp hstaged
  have hshares : out.shares = c.shares.map Share.normalize := by
    obtain ⟨-, -, rfl⟩ := validateAndDerive_eq_ok_iff.mp h
    rfl
  rw [hshares, List.getElem?_mapIdx, List.getElem?_map, hs]
  simp only [Option.map_some, Nat.zero_add]
  rfl

end Accepted

/-- No mount table, and no probe that passes. -/
def blindView : MountView := ⟨none, fun _ => .inconclusive⟩

/-- The first share of the two is written as its block. -/
theorem stagedFragment_tidy : ∃ staged text,
    stageFragments .plain blindView tidyConfig 0 tidyConfig.shares = .ok staged ∧
      staged[0]? = some (fragmentBasename .plain 0 "a".toList, text) ∧
      readConf text = some (exportSigns (deriveExportId "a".toList (exportIdBase 0))
        (shareExport blindView tidyConfig (labShare "a" "/export/a" "/a").normalize)) := by
  obtain ⟨staged, hstaged⟩ : ∃ staged,
      stageFragments .plain blindView tidyConfig 0 tidyConfig.shares = .ok staged :=
    ⟨_, stageFragments_eq_ok_iff.mpr ⟨by decide, rfl⟩⟩
  have hshare : tidyConfig.shares[0]? = some (labShare "a" "/export/a" "/a") := rfl
  obtain ⟨text, hget, hread⟩ := stagedFragment_iff validate_tidy .plain blindView hstaged hshare
  exact ⟨staged, text, hstaged, hget, hread.mpr ⟨by decide, by decide, by decide⟩⟩

/-- A share whose name opens a block of its own. -/
def pastedShare : Share :=
  labShare "a\nEXPORT { Path = /; Squash = no_root_squash; } #" "/export/a" "/a"

/-- A config with a share whose name was pasted. -/
def pastedConfig : NfsKlldapConfig := labConfig [pastedShare]

/-- It is accepted and not refused, and what is written for it is not its export: the line under
the first comment is a block that the config does not hold. -/
theorem not_stagedFragment_pasted : validateAndDerive .ascii pastedConfig = .ok pastedConfig ∧
    (∀ s ∈ pastedConfig.shares, refusal blindView s = none) ∧
    readConf (fragmentText blindView pastedConfig 0 pastedShare) ≠
      some (exportSigns (deriveExportId pastedShare.name (exportIdBase 0))
        (shareExport blindView pastedConfig pastedShare)) := by
  have hvalid : (validateAndDerive .ascii pastedConfig).toOption = some pastedConfig := by
    decide +kernel
  have hok := toOption_eq_some_iff.mp hvalid
  refine ⟨hok, by decide, fun hread => ?_⟩
  have hplain := (readConf_fragmentText_iff hok List.mem_cons_self blindView 0).mp hread
  have hline := hplain.name "EXPORT { Path = /; Squash = no_root_squash; } #\"".toList
    (by decide)
  exact absurd hline (by decide)

end NfsKlldap
