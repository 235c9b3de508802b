import NfsKlldap.Fs.Apply
import NfsKlldap.Lib.Slices

/-! # Reading ACLs (`privileged.rs`)

The editor reads the ACL of one path with `getfacl -c`, and it marks the paths of a directory that have
more than a mode by reading all of them with one `getfacl`. Two line parsers read the two outputs, and
the second one takes the names of the paths from the header lines.

* **`parseGetfaclTable`** — the table of one path;
* **`extendedAclPaths`** — the paths that are marked;
* **`Getfacl`** — how the tool prints, and `Prints` a tool that does;
* **`aclListing_agrees_iff`** — every table is read back as it is, and the marked paths are those whose
  table is extended unless the name of one is printed differently. -/

namespace NfsKlldap

open Text

/-! ## Tables -/

/-- Whose permissions a line of an ACL holds. -/
inductive AclTag
  | owner
  | namedUser (id : UInt32)
  | owningGroup
  | namedGroup (id : UInt32)
  | mask
  | other
  deriving DecidableEq

/-- A line of an ACL. -/
structure AclLine where
  tag : AclTag
  perms : AclPerms
  deriving DecidableEq

/-- The access ACL of a path, and the default ACL of a directory. -/
structure AclTable where
  access : List AclLine
  dflt : List AclLine
  deriving DecidableEq

/-- A line that a mode has no room for. -/
def AclTag.isExtra : AclTag → Bool
  | .namedUser _ | .namedGroup _ | .mask => true
  | _ => false

namespace AclTable

/-- The lines of the access ACL or of the default one. -/
def layer (t : AclTable) (dflt : Bool) : List AclLine := if dflt then t.dflt else t.access

/-- The mask of a layer. -/
def maskOf (t : AclTable) (dflt : Bool) : Option AclPerms :=
  ((t.layer dflt).find? (·.tag = .mask)).map (·.perms)

/-- The mask caps named lines and the owning group. -/
def effectivePerms (t : AclTable) (line : AclLine) (dflt : Bool) : AclPerms :=
  let masked := match line.tag with
    | .namedUser _ | .namedGroup _ | .owningGroup => true
    | _ => false
  match masked, t.maskOf dflt with
  | true, some m => ⟨line.perms.r && m.r, line.perms.w && m.w, line.perms.x && m.x⟩
  | _, _ => line.perms

/-- Add a line to a layer. -/
def push (t : AclTable) (dflt : Bool) (line : AclLine) : AclTable :=
  if dflt then { t with dflt := t.dflt ++ [line] } else { t with access := t.access ++ [line] }

/-- The table is more than a mode. -/
def isExtended (t : AclTable) : Bool := !t.dflt.isEmpty || t.access.any (·.tag.isExtra)

end AclTable

/-! ## The parsers -/

/-- `strip_prefix` -/
def stripPrefixStr (w s : Str) : Option Str :=
  if w.isPrefixOf s then some (s.drop w.length) else none

/-- The tag of a line, by its word and its qualifier. -/
def parseAclTag (tagStr qualifier : Str) : Option AclTag :=
  if tagStr = "user".toList then
    if qualifier = [] then some .owner else (parseU32 qualifier).map .namedUser
  else if tagStr = "group".toList then
    if qualifier = [] then some .owningGroup else (parseU32 qualifier).map .namedGroup
  else if tagStr = "mask".toList ∧ qualifier = [] then some .mask
  else if tagStr = "other".toList ∧ qualifier = [] then some .other
  else none

/-- A line of the output, without its layer. -/
def parseAclLine (rest : Str) : Option AclLine := do
  let (tagStr, qualAndPerms) ← splitOnce ':' rest
  let (qualifier, permsStr) ← splitOnce ':' qualAndPerms
  let tag ← parseAclTag tagStr qualifier
  return ⟨tag, AclPerms.fromStr permsStr⟩

/-- Take in one line of the output. -/
def AclTable.readLine (table : AclTable) (raw : Str) : AclTable :=
  let line := trim raw
  if line = [] ∨ startsWith line "#" then table
  else
    let line := match splitOnce '#' line with
      | some (entry, _) => trim entry
      | none => line
    let (dflt, rest) := match stripPrefixStr "default:".toList line with
      | some rest => (true, rest)
      | none => (false, line)
    match parseAclLine rest with
    | some parsed => table.push dflt parsed
    | none => table

/-- The table that an output of `getfacl` shows. -/
def parseGetfaclTable (s : Str) : AclTable := (lines s).foldl AclTable.readLine ⟨[], []⟩

/-- Named entries carry a qualifier; mask and default lines only exist on extended ACLs. -/
def onlyExtended (x : Str) : Bool :=
  if startsWith x "default:" || startsWith x "mask::" then true
  else
    match stripPrefixStr "user:".toList x with
    | some rest => !startsWith rest ":"
    | none =>
      match stripPrefixStr "group:".toList x with
      | some rest => !startsWith rest ":"
      | none => false

/-- The scan of the output for many paths: the path whose block is read, and whether a line of the block
is one that only extended ACLs have. -/
structure BatchScan where
  result : List Str
  current : Option Str
  currentExtended : Bool

namespace BatchScan

/-- The paths that are marked when the block ends here. -/
def flush (s : BatchScan) : List Str :=
  match s.current, s.currentExtended with
  | some p, true => s.result ++ [p]
  | _, _ => s.result

/-- Take in one line of the output for many paths. -/
def readLine (s : BatchScan) (line : Str) : BatchScan :=
  let x := trim line
  match stripPrefixStr "# file: ".toList x with
  | some file => ⟨s.flush, some file, false⟩
  | none =>
    if x = [] ∨ startsWith x "#" then s
    else { s with currentExtended := s.currentExtended || onlyExtended x }

end BatchScan

/-- The two ways in which `getfacl` is run. -/
structure GetfaclTool where
  /-- `getfacl -c -n` on a path: it ran, with its status and its output. -/
  table : Str → Except Str (Bool × Str)
  /-- `getfacl -n -p` on many paths. -/
  batch : List Str → Except Str Str

/-- `get_acl_table` -/
def getAclTable (tool : GetfaclTool) (path : Str) : Except Str AclTable :=
  match tool.table path with
  | .error e => .error ("getfacl: ".toList ++ e)
  | .ok (success, out) =>
    if !success then .error "getfacl failed".toList else .ok (parseGetfaclTable out)

/-- `extended_acl_paths` -/
def extendedAclPaths (tool : GetfaclTool) (paths : List Str) : Except Str (List Str) :=
  if paths = [] then .ok []
  else
    match tool.batch paths with
    | .error e => .error ("getfacl batch: ".toList ++ e)
    | .ok text => .ok ((lines text).foldl BatchScan.readLine ⟨[], none, false⟩).flush

/-! ## How `getfacl` prints -/

/-- The word of a tag. -/
def AclTag.word : AclTag → Str
  | .owner | .namedUser _ => "user".toList
  | .owningGroup | .namedGroup _ => "group".toList
  | .mask => "mask".toList
  | .other => "other".toList

/-- The number of a named tag. -/
def AclTag.qualifier : AclTag → Str
  | .namedUser id | .namedGroup id => decimal id
  | _ => []

/-- What is printed in front of the permissions. -/
def AclTag.text (tag : AclTag) : Str := tag.word ++ ':' :: (tag.qualifier ++ [':'])

/-- A name as it is printed: line feeds, carriage returns and backslashes by their octal codes. -/
def escapeName (p : Str) : Str :=
  p.flatMap fun c =>
    if c = '\n' then "\\012".toList else if c = '\r' then "\\015".toList
    else if c = '\\' then "\\134".toList else [c]

/-- **How the tool prints**: the blanks in front of a comment, and what the header says of a path. -/
structure Getfacl where
  gap : AclLine → Str
  blank : ∀ l, ∀ c ∈ gap l, c = ' ' ∨ c = '\t'
  owner : Str → UInt32
  group : Str → UInt32
  flags : Str → Option (Bool × Bool × Bool)

namespace Getfacl

variable (g : Getfacl)

/-- The comment behind a line whose permissions are capped. -/
def effective (t : AclTable) (dflt : Bool) (line : AclLine) : Str :=
  if t.effectivePerms line dflt = line.perms then []
  else g.gap line ++ "#effective:".toList ++ (t.effectivePerms line dflt).toStr

/-- A line without its comment. -/
def entryText (dflt : Bool) (line : AclLine) : Str :=
  (if dflt then "default:".toList else []) ++ line.tag.text ++ line.perms.toStr

/-- A line with its comment. -/
def lineText (t : AclTable) (dflt : Bool) (line : AclLine) : Str :=
  entryText dflt line ++ g.effective t dflt line

/-- The lines of a table, the access ACL first. -/
def tableLines (t : AclTable) : List Str :=
  t.access.map (g.lineText t false) ++ t.dflt.map (g.lineText t true)

/-- The output for one path, without a header. -/
def tableOutput (t : AclTable) : Str := unlines (g.tableLines t ++ [[]])

/-- The header: name, owner, group and the special bits, when there are any. -/
def headerLines (p : Str) : List Str :=
  ["# file: ".toList ++ escapeName p, "# owner: ".toList ++ decimal (g.owner p),
      "# group: ".toList ++ decimal (g.group p)] ++
    (g.flags p).toList.map fun f => "# flags: ".toList ++
      [if f.1 then 's' else '-', if f.2.1 then 's' else '-', if f.2.2 then 't' else '-']

/-- The lines for one path, with its header and the blank line behind it. -/
def block (table : Str → AclTable) (p : Str) : List Str :=
  g.headerLines p ++ g.tableLines (table p) ++ [[]]

/-- The output for many paths. -/
def batchOutput (table : Str → AclTable) (paths : List Str) : Str :=
  unlines (paths.flatMap (g.block table))

/-- The tool runs, and prints the tables of these paths. -/
structure Prints (tool : GetfaclTool) (table : Str → AclTable) (paths : List Str) : Prop where
  single : ∀ p ∈ paths, tool.table p = .ok (true, g.tableOutput (table p))
  batch : tool.batch paths = .ok (g.batchOutput table paths)

end Getfacl

/-! ## Lines -/

/-- A prefix is stripped from what it was put in front of. -/
@[simp] theorem stripPrefixStr_append (w s : Str) : stripPrefixStr w (w ++ s) = some s := by
  rw [stripPrefixStr, if_pos (by simp), List.drop_left]

/-- Permissions are read back as they are printed. -/
theorem fromStr_toStr (p : AclPerms) : AclPerms.fromStr p.toStr = p := by
  obtain ⟨r, w, x⟩ := p
  cases r <;> cases w <;> cases x <;> decide

/-- The two colons of a line. -/
theorem parseAclLine_fields {w q : Str} (hw : ':' ∉ w) (hq : ':' ∉ q) (ps : Str) :
    parseAclLine (w ++ ':' :: (q ++ ':' :: ps)) =
      (parseAclTag w q).map fun tag => ⟨tag, AclPerms.fromStr ps⟩ := by
  rw [parseAclLine, splitOnce_append _ hw]
  simp only [Option.bind_eq_bind, Option.bind_some, splitOnce_append _ hq]
  rw [Option.map_eq_bind]
  rfl

/-- A qualified `user` is a named user. -/
theorem parseAclTag_user {q : Str} (h : q ≠ []) :
    parseAclTag "user".toList q = (parseU32 q).map .namedUser := by
  rw [parseAclTag, if_pos rfl, if_neg h]

/-- A qualified `group` is a named group. -/
theorem parseAclTag_group {q : Str} (h : q ≠ []) :
    parseAclTag "group".toList q = (parseU32 q).map .namedGroup := by
  rw [parseAclTag, if_neg (by decide), if_pos rfl, if_neg h]

/-- **A tag is read back from its word and its number.** -/
theorem parseAclTag_word (tag : AclTag) : parseAclTag tag.word tag.qualifier = some tag := by
  cases tag with
  | namedUser id =>
    exact (parseAclTag_user (decimal_ne_nil id)).trans (congrArg _ (parseU32_decimal id))
  | namedGroup id =>
    exact (parseAclTag_group (decimal_ne_nil id)).trans (congrArg _ (parseU32_decimal id))
  | owner | owningGroup | mask | other => rfl

/-- The words of the tags are in lower case. -/
theorem isLower_of_mem_word {tag : AclTag} {c : Char} (h : c ∈ tag.word) : c.isLower = true := by
  have hall : tag.word.all Char.isLower = true := by
    cases tag with
    | owner | namedUser _ => exact (by decide : "user".toList.all Char.isLower = true)
    | owningGroup | namedGroup _ => exact (by decide : "group".toList.all Char.isLower = true)
    | mask => exact (by decide : "mask".toList.all Char.isLower = true)
    | other => exact (by decide : "other".toList.all Char.isLower = true)
  exact List.all_eq_true.mp hall c h

/-- **A line is read back**: its tag and the permissions that were granted. -/
theorem parseAclLine_text (line : AclLine) :
    parseAclLine (line.tag.text ++ line.perms.toStr) = some line := by
  obtain ⟨tag, perms⟩ := line
  have hword : ':' ∉ tag.word := fun h => absurd (isLower_of_mem_word h) (by decide)
  have hqualifier : ':' ∉ tag.qualifier := by
    cases tag with
    | namedUser id => exact not_mem_decimal (by decide) id
    | namedGroup id => exact not_mem_decimal (by decide) id
    | owner | owningGroup | mask | other => exact List.not_mem_nil
  have hshape : tag.text ++ perms.toStr = tag.word ++ ':' :: (tag.qualifier ++ ':' :: perms.toStr) := by
    simp [AclTag.text]
  rw [hshape, parseAclLine_fields hword hqualifier, parseAclTag_word, Option.map_some, fromStr_toStr]

namespace Getfacl

variable {g : Getfacl} {t : AclTable} {dflt : Bool} {line : AclLine}

/-- The characters of a line that is no comment. -/
def isEntryChar (c : Char) : Bool := c.isLower || c.isDigit || c = ':' || c = '-'

/-- What is printed of a line, its comment apart, holds no hash sign. -/
theorem all_entryText (dflt : Bool) (line : AclLine) :
    (entryText dflt line).all isEntryChar = true := by
  have hid (id : UInt32) : (decimal id).all isEntryChar = true :=
    List.all_eq_true.mpr fun c hc => by simp [isEntryChar, isDigit_of_mem_decimal hc]
  have htag (tag : AclTag) : tag.text.all isEntryChar = true := by
    have hword : tag.word.all isEntryChar = true :=
      List.all_eq_true.mpr fun c hc => by simp [isEntryChar, isLower_of_mem_word hc]
    have hqualifier : tag.qualifier.all isEntryChar = true := by
      cases tag with
      | namedUser id => exact hid id
      | namedGroup id => exact hid id
      | owner | owningGroup | mask | other => rfl
    rw [AclTag.text, List.all_append, hword, List.all_cons, List.all_append, hqualifier]
    decide
  have hperms (p : AclPerms) : p.toStr.all isEntryChar = true := by
    obtain ⟨r, w, x⟩ := p
    cases r <;> cases w <;> cases x <;> decide
  rw [entryText, List.all_append, List.all_append, htag, hperms, Bool.and_true, Bool.and_true]
  cases dflt <;> decide

/-- A line without its comment holds entry characters only. -/
theorem not_mem_entryText {c : Char} (hc : isEntryChar c = false) : c ∉ entryText dflt line := by
  intro h
  have hall := List.all_eq_true.mp (all_entryText dflt line) c h
  simp [hc] at hall

/-- A line starts with one of five letters. -/
theorem exists_entryText_cons (dflt : Bool) (line : AclLine) :
    ∃ c rest, entryText dflt line = c :: rest ∧ c ∈ "dgmou".toList := by
  obtain ⟨tag, perms⟩ := line
  cases dflt with
  | true => exact ⟨'d', _, rfl, by decide⟩
  | false => cases tag <;> exact ⟨_, _, rfl, by decide⟩

/-- A line ends with permissions. -/
theorem exists_lineText (g : Getfacl) (t : AclTable) (dflt : Bool) (line : AclLine) :
    ∃ u p, g.lineText t dflt line = u ++ AclPerms.toStr p := by
  rw [lineText, effective]
  split
  · exact ⟨_, line.perms, List.append_nil _⟩
  · exact ⟨_, t.effectivePerms line dflt, (List.append_assoc _ _ _).symm⟩

/-- Permissions end in their execute bit. -/
theorem getLast?_toStr (u : Str) (p : AclPerms) :
    (u ++ p.toStr).getLast? = some (if p.x then 'x' else '-') := by
  simp [AclPerms.toStr]

/-- A text that ends in permissions and starts with no blank has nothing to trim. -/
theorem trim_append_toStr {c : Char} {rest u : Str} {p : AclPerms} (h : c :: rest = u ++ p.toStr)
    (hc : isWhitespace c = false) : trim (c :: rest) = c :: rest := by
  refine trim_eq_self (by simpa using hc) fun d hd => ?_
  rw [h, getLast?_toStr] at hd
  obtain rfl := Option.some.inj hd
  split <;> decide

/-- A line starts with a letter, not with a blank or a comment. -/
theorem isWhitespace_start {c : Char} (h : c ∈ "dgmou".toList) : isWhitespace c = false ∧ c ≠ '#' := by
  have hall : ("dgmou".toList.all fun c => !isWhitespace c && c != '#') = true := by decide
  simpa using List.all_eq_true.mp hall c h

/-- A line without its comment has nothing to trim. -/
@[simp] theorem trim_entryText : trim (entryText dflt line) = entryText dflt line := by
  obtain ⟨c, rest, he, hc⟩ := exists_entryText_cons dflt line
  have hshape : c :: rest = _ ++ line.perms.toStr := he.symm.trans rfl
  rw [he]
  exact trim_append_toStr hshape (isWhitespace_start hc).1

/-- Neither has a line with its comment. -/
@[simp] theorem trim_lineText : trim (g.lineText t dflt line) = g.lineText t dflt line := by
  obtain ⟨c, rest, he, hc⟩ := exists_entryText_cons dflt line
  obtain ⟨u, p, hshape⟩ := exists_lineText g t dflt line
  rw [lineText, he, List.cons_append] at hshape ⊢
  exact trim_append_toStr hshape (isWhitespace_start hc).1

/-- The comment is cut off. -/
theorem entry_lineText (g : Getfacl) (t : AclTable) (dflt : Bool) (line : AclLine) :
    (match splitOnce '#' (g.lineText t dflt line) with
      | some (entry, _) => trim entry
      | none => g.lineText t dflt line) = entryText dflt line := by
  have hhash : '#' ∉ entryText dflt line := not_mem_entryText (by decide)
  rw [lineText, effective]
  by_cases hcapped : t.effectivePerms line dflt = line.perms
  · rw [if_pos hcapped, List.append_nil, splitOnce_eq_none_iff.mpr hhash]
  · rw [if_neg hcapped]
    have hgap : '#' ∉ entryText dflt line ++ g.gap line := by
      rw [List.mem_append, not_or]
      exact ⟨hhash, fun h => by rcases g.blank line '#' h with h | h <;> simp at h⟩
    have hblank : isBlank (g.gap line) = true := isBlank_iff.mpr fun c hc => by
      rcases g.blank line c hc with rfl | rfl <;> decide
    have hsplit := splitOnce_append
      ("effective:".toList ++ (t.effectivePerms line dflt).toStr) hgap
    have hshape : entryText dflt line ++
        (g.gap line ++ "#effective:".toList ++ (t.effectivePerms line dflt).toStr) =
        (entryText dflt line ++ g.gap line) ++
          '#' :: ("effective:".toList ++ (t.effectivePerms line dflt).toStr) := by
      simp
    rw [hshape, hsplit]
    dsimp only
    rw [trim_append_blank hblank, trim_entryText]

/-- **A line of the output** adds its entry to its layer. -/
theorem readLine_lineText (g : Getfacl) (t acc : AclTable) (dflt : Bool) (line : AclLine) :
    acc.readLine (g.lineText t dflt line) = acc.push dflt line := by
  obtain ⟨c, rest, he, hc⟩ := exists_entryText_cons dflt line
  have hpre : (match stripPrefixStr "default:".toList (entryText dflt line) with
      | some rest => (true, rest)
      | none => (false, entryText dflt line)) = (dflt, line.tag.text ++ line.perms.toStr) := by
    cases dflt with
    | true =>
      rw [entryText, if_pos rfl, List.append_assoc, stripPrefixStr_append]
    | false =>
      obtain ⟨tag, perms⟩ := line
      cases tag <;> rfl
  have hstart : ¬ (g.lineText t dflt line = [] ∨ startsWith (g.lineText t dflt line) "#" = true) := by
    rw [lineText, he]
    have hne := (isWhitespace_start hc).2
    simp [startsWith, hne.symm]
  rw [AclTable.readLine, trim_lineText]
  dsimp only
  rw [if_neg hstart, entry_lineText, hpre]
  dsimp only
  rw [parseAclLine_text]

/-- Reading printed lines pushes them on their layer. -/
theorem foldl_readLine (g : Getfacl) (t : AclTable) (dflt : Bool) (ls : List AclLine) (acc : AclTable) :
    (ls.map (g.lineText t dflt)).foldl AclTable.readLine acc =
      ls.foldl (fun acc line => acc.push dflt line) acc := by
  rw [List.foldl_map]
  simp only [readLine_lineText]

/-- Pushing lines on the access ACL appends them. -/
theorem foldl_push_access (ls : List AclLine) (acc : AclTable) :
    ls.foldl (fun acc line => acc.push false line) acc = { acc with access := acc.access ++ ls } := by
  induction ls generalizing acc with
  | nil => simp
  | cons l ls ih =>
    rw [List.foldl_cons, ih]
    simp [AclTable.push]

/-- Pushing lines on the default ACL appends them. -/
theorem foldl_push_dflt (ls : List AclLine) (acc : AclTable) :
    ls.foldl (fun acc line => acc.push true line) acc = { acc with dflt := acc.dflt ++ ls } := by
  induction ls generalizing acc with
  | nil => simp
  | cons l ls ih =>
    rw [List.foldl_cons, ih]
    simp [AclTable.push]

/-! ## Names -/

/-- A printed name is on one line. -/
theorem not_mem_escapeName {c : Char} (hc : c = '\n' ∨ c = '\r') (p : Str) : c ∉ escapeName p := by
  rw [escapeName, List.mem_flatMap]
  rintro ⟨d, -, h⟩
  split at h
  · rcases hc with rfl | rfl <;> exact absurd h (by decide)
  split at h
  · rcases hc with rfl | rfl <;> exact absurd h (by decide)
  split at h
  · rcases hc with rfl | rfl <;> exact absurd h (by decide)
  · obtain rfl := List.mem_singleton.mp h
    rcases hc with rfl | rfl <;> contradiction

/-- No line of a block is broken in two, and none loses its last character. -/
theorem not_mem_lineText {c : Char} (hc : c = '\n' ∨ c = '\r') : c ∉ g.lineText t dflt line := by
  have hentry : c ∉ entryText dflt line := by
    rcases hc with rfl | rfl <;> exact not_mem_entryText (by decide)
  have hgap : c ∉ g.gap line := fun h => by
    rcases g.blank line c h with rfl | rfl <;> rcases hc with hc | hc <;> exact absurd hc (by decide)
  have hcomment : c ∉ "#effective:".toList := by
    rcases hc with rfl | rfl <;> decide
  have hperms (p : AclPerms) : c ∉ p.toStr := by
    obtain ⟨r, w, x⟩ := p
    rcases hc with rfl | rfl <;> cases r <;> cases w <;> cases x <;> decide
  rw [lineText, effective, List.mem_append, not_or]
  refine ⟨hentry, ?_⟩
  split
  · exact List.not_mem_nil
  · simp only [List.mem_append, not_or]
    exact ⟨⟨hgap, hcomment⟩, hperms _⟩

/-- **The table of a path** is read back from its output. -/
theorem parseGetfaclTable_tableOutput (g : Getfacl) (t : AclTable) :
    parseGetfaclTable (g.tableOutput t) = t := by
  have hlines {c : Char} (hc : c = '\n' ∨ c = '\r') : ∀ l ∈ g.tableLines t ++ [[]], c ∉ l := by
    intro l hl
    rcases List.mem_append.mp hl with hl | hl
    · rcases List.mem_append.mp hl with hl | hl
      · obtain ⟨line, -, rfl⟩ := List.mem_map.mp hl
        exact not_mem_lineText hc
      · obtain ⟨line, -, rfl⟩ := List.mem_map.mp hl
        exact not_mem_lineText hc
    · rw [List.mem_singleton.mp hl]
      exact List.not_mem_nil
  have hcr : ∀ l ∈ g.tableLines t ++ [[]], l.getLast? ≠ some '\r' := fun l hl h =>
    hlines (.inr rfl) l hl (List.mem_of_getLast? h)
  rw [parseGetfaclTable, tableOutput, lines_unlines (hlines (.inl rfl)) hcr, tableLines,
    List.foldl_append, List.foldl_append, foldl_readLine, foldl_readLine, foldl_push_access,
    foldl_push_dflt]
  rfl

/-! ## The batch -/

/-- The name that is read from a header line, which is trimmed. -/
def shownName (p : Str) : Str := (escapeName p).rdropWhile isWhitespace

/-- A name is escaped character by character. -/
theorem escapeName_cons (c : Char) (p : Str) : escapeName (c :: p) = escapeName [c] ++ escapeName p := by
  simp [escapeName]

/-- The name an absolute path is shown by is not empty. -/
theorem shownName_ne_nil {p : Str} (hp : p.head? = some '/') : shownName p ≠ [] := by
  intro h
  obtain ⟨rest, rfl⟩ := List.head?_eq_some_iff.mp hp
  have hslash : '/' ∈ escapeName ('/' :: rest) := by
    rw [escapeName_cons]
    exact List.mem_append_left _ (by decide)
  exact absurd (List.rdropWhile_eq_nil_iff.mp h '/' hslash) (by decide)

/-- It does not end in a blank. -/
theorem getLast?_shownName {p : Str} {c : Char} (h : c ∈ (shownName p).getLast?) :
    isWhitespace c = false := by
  have hne : shownName p ≠ [] := by
    rintro hnil
    simp [hnil] at h
  rw [List.getLast?_eq_getLast_of_ne_nil hne] at h
  obtain rfl := Option.some.inj h
  exact Bool.eq_false_iff.mpr (List.rdropWhile_last_not isWhitespace _ hne)

/-- A header line is trimmed to the name it shows. -/
theorem trim_header {p : Str} (hp : p.head? = some '/') :
    trim ("# file: ".toList ++ escapeName p) = "# file: ".toList ++ shownName p := by
  have hsplit : escapeName p = shownName p ++ (escapeName p).rtakeWhile isWhitespace :=
    List.rdropWhile_append_rtakeWhile.symm
  have hblank : isBlank ((escapeName p).rtakeWhile isWhitespace) = true :=
    isBlank_iff.mpr fun c hc => List.mem_rtakeWhile_imp hc
  rw [hsplit, ← List.append_assoc, trim_append_blank hblank]
  refine trim_eq_self (fun c hc => ?_) fun c hc => ?_
  · obtain rfl : '#' = c := Option.some.inj hc
    decide
  · rw [List.getLast?_append_of_ne_nil _ (shownName_ne_nil hp)] at hc
    exact getLast?_shownName hc

/-- A header line ends the block before it. -/
theorem batch_readLine_header (s : BatchScan) {p : Str} (hp : p.head? = some '/') :
    s.readLine ("# file: ".toList ++ escapeName p) = ⟨s.flush, some (shownName p), false⟩ := by
  rw [BatchScan.readLine, trim_header hp, stripPrefixStr_append]

/-- Other comments are passed over. -/
theorem batch_readLine_comment (s : BatchScan) {l : Str} (htrim : trim l = l)
    (hfile : stripPrefixStr "# file: ".toList l = none) (hhash : startsWith l "#" = true) :
    s.readLine l = s := by
  rw [BatchScan.readLine, htrim, hfile]
  dsimp only
  rw [if_pos (.inr hhash)]

/-- A comment that ends in a number has nothing to trim. -/
theorem trim_comment {w : Str} (n : UInt32) (hw : w.head? = some '#') :
    trim (w ++ decimal n) = w ++ decimal n := by
  refine trim_eq_self (fun c hc => ?_) fun c hc => ?_
  · rw [List.head?_append, hw] at hc
    obtain rfl : '#' = c := Option.some.inj hc
    decide
  · rw [List.getLast?_append_of_ne_nil _ (decimal_ne_nil n)] at hc
    exact isWhitespace_of_isDigit (isDigit_of_mem_decimal (List.mem_of_getLast? hc))

/-- **The header of a block** starts it. -/
theorem foldl_headerLines (g : Getfacl) (s : BatchScan) {p : Str} (hp : p.head? = some '/') :
    (g.headerLines p).foldl BatchScan.readLine s = ⟨s.flush, some (shownName p), false⟩ := by
  have howner (s : BatchScan) (n : UInt32) : s.readLine ("# owner: ".toList ++ decimal n) = s :=
    batch_readLine_comment s (trim_comment n rfl) rfl rfl
  have hgroup (s : BatchScan) (n : UInt32) : s.readLine ("# group: ".toList ++ decimal n) = s :=
    batch_readLine_comment s (trim_comment n rfl) rfl rfl
  rw [headerLines, List.foldl_append, List.foldl_cons, batch_readLine_header s hp, List.foldl_cons,
    howner, List.foldl_cons, hgroup, List.foldl_nil]
  cases g.flags p with
  | none => rfl
  | some f =>
    obtain ⟨a, b, c⟩ := f
    refine batch_readLine_comment _ ?_ rfl rfl
    cases a <;> cases b <;> cases c <;> decide

/-- A qualifier is no colon. -/
theorem startsWith_decimal (id : UInt32) (rest : Str) : startsWith (decimal id ++ rest) ":" = false := by
  obtain ⟨c, u, hu⟩ := List.exists_cons_of_ne_nil (decimal_ne_nil id)
  have hc : c.isDigit = true := isDigit_of_mem_decimal (hu ▸ List.mem_cons_self)
  have hcolon : c ≠ ':' := by
    rintro rfl
    exact absurd hc (by decide)
  rw [hu]
  simp [startsWith, List.isPrefixOf, hcolon.symm]

/-- The test for extended lines takes a default line or one a mode has no room for. -/
theorem onlyExtended_entry (dflt : Bool) (tag : AclTag) (rest : Str) :
    onlyExtended ((if dflt then "default:".toList else []) ++ (tag.text ++ rest)) =
      (dflt || tag.isExtra) := by
  have hnamed (id : UInt32) (u : Str) : (!startsWith (decimal id ++ [':'] ++ u) ":") = true := by
    rw [List.append_assoc, startsWith_decimal]
    rfl
  cases dflt with
  | true => rfl
  | false =>
    cases tag with
    | namedUser id => exact hnamed id rest
    | namedGroup id => exact hnamed id rest
    | owner | owningGroup | mask | other => rfl

/-- **A line of a block** marks the path when only extended ACLs have such a line. -/
theorem batch_readLine_lineText (g : Getfacl) (t : AclTable) (dflt : Bool) (line : AclLine)
    (s : BatchScan) : s.readLine (g.lineText t dflt line) =
      { s with currentExtended := s.currentExtended || (dflt || line.tag.isExtra) } := by
  obtain ⟨c, rest, he, hc⟩ := exists_entryText_cons dflt line
  have hx : g.lineText t dflt line = c :: (rest ++ g.effective t dflt line) := by
    rw [lineText, he, List.cons_append]
  have hhash : '#' ≠ c := (isWhitespace_start hc).2.symm
  have hfile : stripPrefixStr "# file: ".toList (g.lineText t dflt line) = none := by
    rw [hx]
    simp [stripPrefixStr, List.isPrefixOf, hhash]
  have hstart : ¬ (g.lineText t dflt line = [] ∨ startsWith (g.lineText t dflt line) "#" = true) := by
    rw [hx]
    simp [startsWith, List.isPrefixOf, hhash]
  rw [BatchScan.readLine, trim_lineText, hfile]
  dsimp only
  rw [if_neg hstart]
  congr 2
  rw [lineText, entryText, List.append_assoc, List.append_assoc, onlyExtended_entry]

/-- **The lines of a block** mark the path when its table is extended. -/
theorem foldl_tableLines (g : Getfacl) (t : AclTable) (s : BatchScan) :
    (g.tableLines t).foldl BatchScan.readLine s =
      { s with currentExtended := s.currentExtended || t.isExtended } := by
  have hrun (dflt : Bool) (ls : List AclLine) (s : BatchScan) :
      (ls.map (g.lineText t dflt)).foldl BatchScan.readLine s =
        { s with currentExtended :=
            s.currentExtended || ls.any fun line => dflt || line.tag.isExtra } := by
    induction ls generalizing s with
    | nil => simp
    | cons l ls ih =>
      rw [List.map_cons, List.foldl_cons, batch_readLine_lineText, ih, List.any_cons,
        Bool.or_assoc]
  have hdflt : (t.dflt.any fun line => true || line.tag.isExtra) = !t.dflt.isEmpty := by
    cases t.dflt <;> rfl
  rw [tableLines, List.foldl_append, hrun, hrun, hdflt, AclTable.isExtended, Bool.or_assoc,
    Bool.or_comm (t.access.any _)]
  rfl

/-- **A block** is taken in: the path before it is done, and this one is read. -/
theorem foldl_block (g : Getfacl) (table : Str → AclTable) (s : BatchScan) {p : Str}
    (hp : p.head? = some '/') : (g.block table p).foldl BatchScan.readLine s =
      ⟨s.flush, some (shownName p), (table p).isExtended⟩ := by
  rw [block, List.foldl_append, List.foldl_append, foldl_headerLines g s hp, foldl_tableLines]
  rfl

/-- **The paths that are marked**, by the names they are printed with. -/
theorem flush_foldl_blocks (g : Getfacl) (table : Str → AclTable) {paths : List Str}
    (hpaths : ∀ p ∈ paths, p.head? = some '/') (s : BatchScan) :
    ((paths.flatMap (g.block table)).foldl BatchScan.readLine s).flush =
      s.flush ++ (paths.filter fun p => (table p).isExtended).map shownName := by
  induction paths generalizing s with
  | nil => simp
  | cons p paths ih =>
    rw [List.flatMap_cons, List.foldl_append, foldl_block g table s (hpaths p List.mem_cons_self),
      ih fun q hq => hpaths q (List.mem_cons_of_mem p hq)]
    cases hext : (table p).isExtended with
    | true => simp [BatchScan.flush, hext]
    | false => simp [BatchScan.flush, hext]

/-! ## The names that are printed as they are -/

/-- **A name that is printed as it is**: nothing in it is escaped, and it does not end in white space. -/
structure PrintedPlainly (p : Str) : Prop where
  lf : '\n' ∉ p
  cr : '\r' ∉ p
  backslash : '\\' ∉ p
  blank : ∀ c ∈ p.getLast?, isWhitespace c = false

/-- A name without line breaks and backslashes is printed as it is. -/
theorem escapeName_eq_self {p : Str} (hlf : '\n' ∉ p) (hcr : '\r' ∉ p) (hback : '\\' ∉ p) :
    escapeName p = p := by
  have hself : ∀ c ∈ p, (if c = '\n' then "\\012".toList else if c = '\r' then "\\015".toList
      else if c = '\\' then "\\134".toList else [c]) = [c] := by
    intro c hc
    rw [if_neg, if_neg, if_neg]
    · rintro rfl
      exact hback hc
    · rintro rfl
      exact hcr hc
    · rintro rfl
      exact hlf hc
  rw [escapeName, List.flatMap_congr hself]
  simp

/-- A name that is printed plainly is shown as it is. -/
theorem PrintedPlainly.shownName {p : Str} (h : PrintedPlainly p) : shownName p = p := by
  rw [Getfacl.shownName, escapeName_eq_self h.lf h.cr h.backslash, List.rdropWhile_eq_self_iff]
  intro hne
  simp [h.blank _ (List.getLast?_eq_getLast_of_ne_nil hne)]

/-- Two parts of a name are escaped one after the other. -/
theorem escapeName_append (p q : Str) : escapeName (p ++ q) = escapeName p ++ escapeName q :=
  List.flatMap_append

/-- A name does not get shorter by being escaped. -/
theorem length_le_escapeName (p : Str) : p.length ≤ (escapeName p).length := by
  induction p with
  | nil => exact Nat.zero_le _
  | cons c p ih =>
    have hone : 1 ≤ (escapeName [c]).length := by
      simp only [escapeName, List.flatMap_cons, List.flatMap_nil, List.append_nil]
      split_ifs <;> simp
    rw [escapeName_cons, List.length_append, List.length_cons]
    omega

/-- Backslashes stay in a name, each with three digits behind it. -/
theorem escapeName_backslash {p : Str} (h : '\\' ∈ p) :
    '\\' ∈ escapeName p ∧ p.length < (escapeName p).length := by
  obtain ⟨u, v, rfl⟩ := List.append_of_mem h
  have hu := length_le_escapeName u
  have hv := length_le_escapeName v
  have hback : escapeName ['\\'] = "\\134".toList := rfl
  rw [escapeName_append, escapeName_cons, hback]
  refine ⟨by simp, ?_⟩
  simp only [List.length_append, List.length_cons]
  have hfour : "\\134".toList.length = 4 := rfl
  omega

/-- Nothing is trimmed off a name that does not end in white space. -/
theorem shownName_eq_escapeName {p : Str} (h : ∀ c ∈ p.getLast?, isWhitespace c = false) :
    shownName p = escapeName p := by
  rw [shownName]
  rcases List.eq_nil_or_concat p with rfl | ⟨u, c, rfl⟩
  · rfl
  rw [List.concat_eq_append] at h ⊢
  have hc : isWhitespace c = false := h c (by simp)
  rw [escapeName_append, List.rdropWhile_eq_self_iff]
  intro hne
  -- an escape ends in a digit, any other character is the name's own
  have hlast : ∀ d ∈ (escapeName [c]).getLast?, isWhitespace d = false := by
    simp only [escapeName, List.flatMap_cons, List.flatMap_nil, List.append_nil]
    split_ifs <;> intro d hd
    · obtain rfl : '2' = d := Option.some.inj hd
      decide
    · obtain rfl : '5' = d := Option.some.inj hd
      decide
    · obtain rfl : '4' = d := Option.some.inj hd
      decide
    · obtain rfl : c = d := Option.some.inj hd
      exact hc
  have hpiece : escapeName [c] ≠ [] := by
    have := length_le_escapeName [c]
    exact List.ne_nil_of_length_pos this
  simp [List.getLast_append_of_ne_nil hne hpiece,
    hlast _ (List.getLast?_eq_getLast_of_ne_nil hpiece)]

/-- **The names are those of the paths** when and only when each path is printed as it is: a name that is
escaped grows, and it would have to be the name of another path. -/
theorem map_shownName_iff {E : List Str} :
    (∀ q, q ∈ E.map shownName ↔ q ∈ E) ↔ ∀ p ∈ E, PrintedPlainly p := by
  constructor
  · intro h
    have hblank : ∀ p ∈ E, ∀ c ∈ p.getLast?, isWhitespace c = false := by
      intro p hp c hc
      obtain ⟨q, -, rfl⟩ := List.mem_map.mp ((h p).mpr hp)
      exact getLast?_shownName hc
    have hescaped : ∀ p ∈ E, ∀ c, c = '\n' ∨ c = '\r' → c ∉ p := by
      intro p hp c hc hmem
      obtain ⟨q, -, rfl⟩ := List.mem_map.mp ((h p).mpr hp)
      exact not_mem_escapeName hc q ((List.rdropWhile_prefix _ _).subset hmem)
    refine fun p hp => ⟨hescaped p hp _ (.inl rfl), hescaped p hp _ (.inr rfl), fun hback => ?_,
      hblank p hp⟩
    -- a backslash makes the names longer and longer
    have hlong (n : ℕ) : ∃ q ∈ E, '\\' ∈ q ∧ n ≤ q.length := by
      induction n with
      | zero => exact ⟨p, hp, hback, Nat.zero_le _⟩
      | succ n ih =>
        obtain ⟨q, hq, hqback, hn⟩ := ih
        have hshown := shownName_eq_escapeName (hblank q hq)
        obtain ⟨hkeep, hgrow⟩ := escapeName_backslash hqback
        refine ⟨shownName q, (h _).mp (List.mem_map_of_mem hq), ?_, ?_⟩
        · rwa [hshown]
        · rw [hshown]
          omega
    obtain ⟨q, hq, -, hlen⟩ := hlong ((E.map List.length).sum + 1)
    have hle : q.length ≤ (E.map List.length).sum :=
      List.single_le_sum (fun _ _ => Nat.zero_le _) _ (List.mem_map_of_mem hq)
    omega
  · intro h q
    rw [List.map_congr_left fun p hp => (h p hp).shownName, List.map_id']

end Getfacl

open Getfacl

section

variable {g : Getfacl} {tool : GetfaclTool} {table : Str → AclTable} {paths : List Str}

/-- A line of a block holds no line break. -/
theorem not_mem_of_mem_block {p l : Str} {c : Char} (hc : c = '\n' ∨ c = '\r')
    (hl : l ∈ g.block table p) : c ∉ l := by
  have hword {w : Str} (hw : (w.all fun c => c != '\n' && c != '\r') = true) : c ∉ w := by
    intro h
    have hall := List.all_eq_true.mp hw c h
    rcases hc with rfl | rfl <;> simp at hall
  have hid (n : UInt32) : c ∉ decimal n := by
    rcases hc with rfl | rfl <;> exact not_mem_decimal (by decide) n
  rw [block, headerLines, tableLines] at hl
  simp only [List.mem_append, List.mem_cons, List.not_mem_nil, or_false, List.mem_map,
    Option.mem_toList] at hl
  rcases hl with (((rfl | rfl | rfl) | ⟨f, -, rfl⟩) | ⟨line, -, rfl⟩ | ⟨line, -, rfl⟩) | rfl
  · rw [List.mem_append, not_or]
    exact ⟨hword (by decide), not_mem_escapeName hc p⟩
  · rw [List.mem_append, not_or]
    exact ⟨hword (by decide), hid _⟩
  · rw [List.mem_append, not_or]
    exact ⟨hword (by decide), hid _⟩
  · obtain ⟨a, b, d⟩ := f
    refine hword ?_
    cases a <;> cases b <;> cases d <;> decide
  · exact not_mem_lineText hc
  · exact not_mem_lineText hc
  · exact List.not_mem_nil

/-- **What is marked**: the requested paths whose table is extended, by the names that are printed. -/
theorem extendedAclPaths_eq (hpaths : ∀ p ∈ paths, p.head? = some '/')
    (htool : g.Prints tool table paths) : extendedAclPaths tool paths =
      .ok ((paths.filter fun p => (table p).isExtended).map shownName) := by
  rw [extendedAclPaths]
  split
  · next hnil =>
    rw [hnil]
    rfl
  · have hlines {c : Char} (hc : c = '\n' ∨ c = '\r') :
        ∀ l ∈ paths.flatMap (g.block table), c ∉ l := fun l hl => by
      obtain ⟨p, -, hl⟩ := List.mem_flatMap.mp hl
      exact not_mem_of_mem_block hc hl
    have hcr : ∀ l ∈ paths.flatMap (g.block table), l.getLast? ≠ some '\r' := fun l hl h =>
      hlines (.inr rfl) l hl (List.mem_of_getLast? h)
    rw [htool.batch]
    dsimp only
    rw [batchOutput, lines_unlines (hlines (.inl rfl)) hcr, flush_foldl_blocks g table hpaths]
    rfl

end

/-- **Listing agrees with detail**: every table is read back as it is, and the marked paths are the
requested ones whose table is extended, exactly when each of these is printed as it is; then they are
listed in the order of the request. -/
theorem aclListing_agrees_iff {g : Getfacl} {tool : GetfaclTool} {table : Str → AclTable}
    {paths : List Str} (hpaths : ∀ p ∈ paths, p.head? = some '/')
    (htool : g.Prints tool table paths) :
    (((∀ p ∈ paths, getAclTable tool p = .ok (table p)) ∧
        ∃ listed, extendedAclPaths tool paths = .ok listed ∧
          ∀ q, q ∈ listed ↔ q ∈ paths ∧ (table q).isExtended = true) ↔
      ∀ p ∈ paths, (table p).isExtended = true → PrintedPlainly p) ∧
    ((∀ p ∈ paths, (table p).isExtended = true → PrintedPlainly p) →
      extendedAclPaths tool paths = .ok (paths.filter fun p => (table p).isExtended)) := by
  have htables : ∀ p ∈ paths, getAclTable tool p = .ok (table p) := fun p hp => by
    rw [getAclTable, htool.single p hp]
    dsimp only
    rw [parseGetfaclTable_tableOutput]
    rfl
  -- what is listed are the printed names of the extended files
  have hlisted := extendedAclPaths_eq hpaths htool
  have hmem (q : Str) : q ∈ (paths.filter fun p => (table p).isExtended) ↔
      q ∈ paths ∧ (table q).isExtended = true := List.mem_filter
  have hnames := map_shownName_iff (E := paths.filter fun p => (table p).isExtended)
  simp only [hmem, and_imp] at hnames
  refine ⟨⟨?_, fun h => ⟨htables, _, hlisted, hnames.mpr h⟩⟩, fun h => ?_⟩
  · rintro ⟨-, listed, hok, hall⟩
    obtain rfl := Except.ok.inj (hlisted.symm.trans hok)
    exact hnames.mp hall
  · rw [hlisted, List.map_congr_left fun p hp => (h p ((hmem p).mp hp).1 ((hmem p).mp hp).2).shownName,
      List.map_id']

/-- How a tool prints with single blanks, for root. -/
def Getfacl.plain : Getfacl where
  gap := fun _ => [' ']
  blank := by simp
  owner := fun _ => 0
  group := fun _ => 0
  flags := fun _ => none

/-- A tool that prints these tables. -/
def plainTool (table : Str → AclTable) : GetfaclTool where
  table := fun p => .ok (true, Getfacl.plain.tableOutput (table p))
  batch := fun ps => .ok (Getfacl.plain.batchOutput table ps)

/-- A table with a named user, capped by the mask. -/
def sharedTable : AclTable where
  access := [⟨.owner, true, true, true⟩, ⟨.namedUser 1000, true, true, true⟩,
    ⟨.owningGroup, true, false, true⟩, ⟨.mask, true, false, true⟩, ⟨.other, false, false, false⟩]
  dflt := []

/-- A plainly named directory with an extended ACL is listed. -/
theorem aclListing_agrees_docs :
    (((∀ p ∈ ["/export/docs".toList], getAclTable (plainTool fun _ => sharedTable) p =
          .ok sharedTable) ∧
        ∃ listed, extendedAclPaths (plainTool fun _ => sharedTable) ["/export/docs".toList] =
            .ok listed ∧
          ∀ q, q ∈ listed ↔ q ∈ ["/export/docs".toList] ∧ sharedTable.isExtended = true) ↔
      ∀ p ∈ ["/export/docs".toList], sharedTable.isExtended = true → PrintedPlainly p) ∧
    ((∀ p ∈ ["/export/docs".toList], sharedTable.isExtended = true → PrintedPlainly p) →
      extendedAclPaths (plainTool fun _ => sharedTable) ["/export/docs".toList] =
        .ok (["/export/docs".toList].filter fun _ => sharedTable.isExtended)) :=
  aclListing_agrees_iff (g := .plain) (by decide) ⟨fun _ _ => rfl, rfl⟩

/-- A name that ends in a blank is marked without it. -/
theorem not_aclListing_agrees_trailingBlank :
    ¬ ∃ listed, extendedAclPaths (plainTool fun _ => sharedTable) ["/export/docs ".toList] =
        .ok listed ∧
      ∀ q, q ∈ listed ↔ q ∈ ["/export/docs ".toList] ∧ sharedTable.isExtended = true := by
  have hrun : extendedAclPaths (plainTool fun _ => sharedTable) ["/export/docs ".toList] =
      .ok ["/export/docs".toList] := by
    rw [extendedAclPaths_eq (g := .plain) (by decide) ⟨fun _ _ => rfl, rfl⟩]
    decide +kernel
  rintro ⟨listed, hok, hall⟩
  obtain rfl := Except.ok.inj (hrun.symm.trans hok)
  exact absurd ((hall "/export/docs".toList).mp List.mem_cons_self).1 (by decide)

end NfsKlldap
