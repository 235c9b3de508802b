import NfsKlldap.Fs.Containment
import NfsKlldap.Lib.DirWalk

/-! # Applying permissions to a tree (`FsManager`)

Four walks go over the tree below a selected path: two that count what is in scope, one that changes
owner and mode, and one that edits ACLs in chunks, directories and files apart. What the calls of the
system answer is `FsOps`; what was called is kept in the order of the calls, and a walk that is
cancelled stops in front of an entry.

The counting walks and the changing ones agree entry by entry:

* `applyItems_spec`: every entry in scope is changed or is an error of its own;
* `aclAttempts_perm`: every entry in scope is handed to `setfacl` once, with its own edit. -/

namespace NfsKlldap

open Text UnixPath

/-! ## Modes and ACL edits -/

/-- How far an apply reaches from the selected node. -/
inductive ApplyScope
  | dirOnly
  | immediateFiles
  | all
  deriving DecidableEq

/-- The depth budget; `usize::MAX` is deeper than any tree. -/
def ApplyScope.maxDepth : ApplyScope → Option Nat
  | .dirOnly => some 0
  | .immediateFiles => some 1
  | .all => none

/-- What an apply writes. -/
structure ApplySpec where
  mode : UInt32
  scope : ApplyScope
  fileMode : Option UInt32
  deriving DecidableEq

/-- The options of a walk that changes owner and mode. -/
structure ApplyOptions where
  scope : ApplyScope
  fileMode : Option UInt32 := none
  continueOnError : Bool := false
  deriving DecidableEq

/-- Directories get `x` wherever `r` is granted. -/
def dirModeRImpliesX (mode : UInt32) : UInt32 := mode ||| ((mode &&& 0o444) >>> 2)

/-- The permissions of a named ACL entry. -/
structure AclPerms where
  r : Bool
  w : Bool
  x : Bool
  deriving DecidableEq

/-- Permissions as they are written in an ACL entry. -/
def AclPerms.fromStr (s : Str) : AclPerms :=
  let s := toAsciiLowercase (trim s)
  ⟨'r' ∈ s, 'w' ∈ s, 'x' ∈ s ∨ 'X' ∈ s⟩

/-- Permissions as they are written for `setfacl`. -/
def AclPerms.toStr (p : AclPerms) : Str :=
  [if p.r then 'r' else '-', if p.w then 'w' else '-', if p.x then 'x' else '-']

/-- The twin of `dirModeRImpliesX`. -/
def AclPerms.dirRImpliesX (p : AclPerms) : AclPerms := { p with x := p.x || p.r }

/-- Whom a named entry is for. -/
inductive AclEntryKind
  | user (id : UInt32)
  | group (id : UInt32)
  deriving DecidableEq

/-- An edit of an ACL; `dflt` edits the default layer. -/
inductive AclModification
  | set (kind : AclEntryKind) (perms : AclPerms) (dflt : Bool)
  | remove (kinds : List AclEntryKind) (dflt : Bool)
  | setMask (perms : AclPerms) (dflt : Bool)
  deriving DecidableEq

/-- The edit is one of the default layer. -/
def AclModification.defaultLayer : AclModification → Bool
  | .set _ _ dflt => dflt
  | .remove _ dflt => dflt
  | .setMask _ dflt => dflt

/-! ## Results and calls -/

/-- What a walk reports: how much it changed, and where it failed. -/
structure ApplyResult where
  changed : Nat := 0
  errors : List (Str × Str) := []
  skipped : Nat := 0
  /-- The first ten directories that gained execute. -/
  fusedDirs : List Str := []
  fusedDirCount : Nat := 0
  deriving DecidableEq

/-- The counters the poller reads. -/
structure ApplyProgress where
  total : Nat := 0
  processed : Nat := 0
  changed : Nat := 0
  skipped : Nat := 0
  errorCount : Nat := 0
  recentErrors : List (Str × Str) := []
  lastPath : Option Str := none
  deriving DecidableEq

/-- A call that changes something on disk. -/
inductive FsAction
  | chown (path : Str) (uid gid : UInt32)
  | chmod (path : Str) (mode : UInt32)
  | setfacl (paths : List Str) (edit : AclModification)
  deriving DecidableEq

/-- The tree, and the errors of the calls. -/
structure FsOps where
  node : Str → FsNode
  wellNamed : ∀ p, (node p).WellNamed
  chown : Str → UInt32 → UInt32 → Option Str
  chmod : Str → UInt32 → Option Str
  setfacl : List Str → AclModification → Option Str

/-- A run of a walk. -/
structure ApplyRun where
  result : ApplyResult := {}
  progress : ApplyProgress := {}
  actions : List FsAction := []
  deriving DecidableEq

namespace ApplyRun

/-- Note an error; only the ten most recent ones are shown. -/
def noteError (r : ApplyRun) (path message : Str) : ApplyRun :=
  let errs := r.progress.recentErrors ++ [(path, message)]
  { r with
    result := { r.result with errors := r.result.errors ++ [(path, message)] }
    progress :=
      { r.progress with
        errorCount := r.progress.errorCount + 1
        recentErrors := if errs.length > 10 then errs.drop 1 else errs } }

/-- Note an error of the walk that is not shown among the recent ones. -/
def noteQuietError (r : ApplyRun) (path message : Str) : ApplyRun :=
  { r with
    result := { r.result with errors := r.result.errors ++ [(path, message)] }
    progress := { r.progress with errorCount := r.progress.errorCount + 1 } }

/-- An entry is left out. -/
def skip (r : ApplyRun) : ApplyRun :=
  { r with
    result := { r.result with skipped := r.result.skipped + 1 }
    progress := { r.progress with skipped := r.progress.skipped + 1 } }

/-- Some entries are counted as processed. -/
def addProcessed (r : ApplyRun) (n : Nat) : ApplyRun :=
  { r with progress := { r.progress with processed := r.progress.processed + n } }

/-- Some entries are counted as changed. -/
def addChanged (r : ApplyRun) (n : Nat) : ApplyRun :=
  { r with
    result := { r.result with changed := r.result.changed + n }
    progress := { r.progress with changed := r.progress.changed + n } }

/-- The path that is worked on. -/
def atPath (r : ApplyRun) (path : Str) : ApplyRun :=
  { r with progress := { r.progress with lastPath := some path } }

/-- A call is made. -/
def call (r : ApplyRun) (a : FsAction) : ApplyRun := { r with actions := r.actions ++ [a] }

/-- Note a directory whose mode gained execute. -/
def noteFused (r : ApplyRun) (path : Str) : ApplyRun :=
  { r with
    result :=
      { r.result with
        fusedDirCount := r.result.fusedDirCount + 1
        fusedDirs :=
          if r.result.fusedDirs.length < 10 then r.result.fusedDirs ++ [path]
          else r.result.fusedDirs } }

/-- What was changed and what failed. -/
def touched (r : ApplyRun) : Nat := r.result.changed + r.result.errors.length

section Simp

variable (r : ApplyRun) (path message : Str) (n : Nat) (a : FsAction)

/-- Noting an error makes no call. -/
@[simp] theorem actions_noteError : (r.noteError path message).actions = r.actions := rfl

/-- Noting an error quietly makes no call. -/
@[simp] theorem actions_noteQuietError : (r.noteQuietError path message).actions = r.actions := rfl

/-- Leaving an entry out makes no call. -/
@[simp] theorem actions_skip : r.skip.actions = r.actions := rfl

/-- Counting what is processed makes no call. -/
@[simp] theorem actions_addProcessed : (r.addProcessed n).actions = r.actions := rfl

/-- Counting what is changed makes no call. -/
@[simp] theorem actions_addChanged : (r.addChanged n).actions = r.actions := rfl

/-- Naming the path makes no call. -/
@[simp] theorem actions_atPath : (r.atPath path).actions = r.actions := rfl

/-- A call comes last. -/
@[simp] theorem actions_call : (r.call a).actions = r.actions ++ [a] := rfl

/-- A fused note makes no call. -/
@[simp] theorem actions_noteFused : (r.noteFused path).actions = r.actions := rfl

/-- An error counts as touched. -/
@[simp] theorem touched_noteError : (r.noteError path message).touched = r.touched + 1 := by
  simp only [touched, noteError, List.length_append, List.length_singleton]
  omega

/-- What is left out is not touched. -/
@[simp] theorem touched_skip : r.skip.touched = r.touched := rfl

/-- What is processed is not touched by that. -/
@[simp] theorem touched_addProcessed : (r.addProcessed n).touched = r.touched := rfl

/-- What is changed counts as touched. -/
@[simp] theorem touched_addChanged : (r.addChanged n).touched = r.touched + n := by
  simp only [touched, addChanged]
  omega

/-- A quiet error is listed as well. -/
@[simp] theorem errors_noteQuietError :
    (r.noteQuietError path message).result.errors = r.result.errors ++ [(path, message)] := rfl

/-- Naming the path touches nothing. -/
@[simp] theorem touched_atPath : (r.atPath path).touched = r.touched := rfl

/-- A call by itself is not counted. -/
@[simp] theorem touched_call : (r.call a).touched = r.touched := rfl

/-- A fused note touches nothing. -/
@[simp] theorem touched_noteFused : (r.noteFused path).touched = r.touched := rfl

end Simp

end ApplyRun

/-- The items that are handled before a cancel is seen. -/
def untilCancel (cancelAt : Option Nat) (items : List (Except WalkError DirEntry)) :
    List (Except WalkError DirEntry) :=
  match cancelAt with
  | none => items
  | some n => items.take n

/-- A cancel that comes late enough is not seen. -/
theorem untilCancel_eq_self {cancelAt : Option Nat} {items : List (Except WalkError DirEntry)}
    (h : ∀ n, cancelAt = some n → items.length ≤ n) : untilCancel cancelAt items = items := by
  cases cancelAt with
  | none => rfl
  | some n => exact List.take_of_length_le (h n rfl)

/-! ## Counting -/

/-- The entry is changed under the options. -/
def shouldApplyEntry (e : DirEntry) (opts : ApplyOptions) : Bool :=
  if e.fileType = .symlink then false
  else
    match opts.scope with
    | .dirOnly => (e.fileType = .dir ∨ e.fileType = .file) ∧ e.depth = 0
    | .immediateFiles => e.fileType = .dir ∧ e.depth = 0 ∨ e.fileType = .file ∧ e.depth ≤ 1
    | .all => e.fileType = .dir ∨ e.fileType = .file

/-- The entry takes the ACL edit: default entries exist on directories only. -/
def aclEntryApplies (e : DirEntry) (opts : ApplyOptions) (defaultLayer : Bool) : Bool :=
  if defaultLayer ∧ e.fileType ≠ .dir then false else shouldApplyEntry e opts

/-- Count the entries in scope (`count_tree`). -/
def countTree (node : FsNode) (root : Str) (opts : ApplyOptions) (cancelAt : Option Nat)
    (p : ApplyProgress) : Nat × ApplyProgress :=
  (untilCancel cancelAt (node.walk opts.scope.maxDepth root)).foldl
    (fun acc item =>
      match item with
      | .error _ => acc
      | .ok e =>
        if e.fileType = .symlink then acc
        else if shouldApplyEntry e opts then
          (acc.1 + 1,
            { acc.2 with lastPath := some e.path, processed := acc.2.processed + 1 })
        else acc)
    (0, p)

/-- Count the entries an ACL edit is for. -/
def countAclTree (node : FsNode) (root : Str) (edit : AclModification) (opts : ApplyOptions)
    (cancelAt : Option Nat) (p : ApplyProgress) : Nat × ApplyProgress :=
  (untilCancel cancelAt (node.walk opts.scope.maxDepth root)).foldl
    (fun acc item =>
      match item with
      | .error _ => acc
      | .ok e =>
        if aclEntryApplies e opts edit.defaultLayer then
          (acc.1 + 1, { acc.2 with processed := acc.2.processed + 1 })
        else acc)
    (0, p)

/-! ## Owner and mode -/

/-- The path an error of a walk is shown with. -/
def WalkError.shownPath (e : WalkError) : Str := e.path.getD "<unknown>".toList

/-- The mode of an entry: directories take the normalized one, files the explicit one. -/
def entryMode (mode : UInt32) (opts : ApplyOptions) (e : DirEntry) : UInt32 :=
  if e.fileType = .dir then dirModeRImpliesX mode else opts.fileMode.getD mode

/-- One round of `apply_tree_with_progress`; an error stops the walk. -/
def applyItem (ops : FsOps) (uid gid mode : UInt32) (opts : ApplyOptions)
    (item : Except WalkError DirEntry) (r : ApplyRun) : ApplyRun × Option Str :=
  match item with
  | .error e =>
    let r := r.noteError e.shownPath e.message
    if opts.continueOnError then (r, none)
    else (r, some "aborted on walk error (continue_on_error=false)".toList)
  | .ok e =>
    if e.fileType = .symlink then (r.skip, none)
    else if !shouldApplyEntry e opts then (r.skip, none)
    else
      let r := (r.atPath e.path).call (.chown e.path uid gid)
      match ops.chown e.path uid gid with
      | some err =>
        let r := r.noteError e.path ("chown: ".toList ++ err)
        if opts.continueOnError then (r.addProcessed 1, none) else (r, some err)
      | none =>
        let r := r.call (.chmod e.path (entryMode mode opts e))
        match ops.chmod e.path (entryMode mode opts e) with
        | some err =>
          let r := r.noteError e.path ("chmod: ".toList ++ err)
          if opts.continueOnError then (r.addProcessed 1, none) else (r, some err)
        | none =>
          let r := r.addChanged 1
          let r :=
            if dirModeRImpliesX mode ≠ mode ∧ e.fileType = .dir then r.noteFused e.path else r
          (r.addProcessed 1, none)

/-- The rounds, up to an error that stops them. -/
def applyItems (ops : FsOps) (uid gid mode : UInt32) (opts : ApplyOptions) :
    List (Except WalkError DirEntry) → ApplyRun → ApplyRun × Option Str
  | [], r => (r, none)
  | item :: items, r =>
    match applyItem ops uid gid mode opts item r with
    | (r, some e) => (r, some e)
    | (r, none) => applyItems ops uid gid mode opts items r

/-- Change owner and mode below a path. -/
def applyTreeWithProgress (ops : FsOps) (root : Str) (uid gid mode : UInt32) (opts : ApplyOptions)
    (cancelAt : Option Nat) (p : ApplyProgress) : ApplyRun × Option Str :=
  applyItems ops uid gid mode opts
    (untilCancel cancelAt ((ops.node root).walk opts.scope.maxDepth root)) { progress := p }

/-! ## ACL edits -/

/-- Entries wait for `setfacl` in chunks. -/
def aclChunk : Nat := 64

/-- A run of the ACL walk with its two chunks. -/
structure AclRun extends ApplyRun where
  dirs : List Str := []
  files : List Str := []

/-- Hand a chunk to `setfacl`. -/
def flushChunk (ops : FsOps) (chunk : List Str) (edit : AclModification) (r : ApplyRun) :
    ApplyRun :=
  if chunk = [] then r
  else
    let r := r.call (.setfacl chunk edit)
    let r :=
      match ops.setfacl chunk edit with
      | none => r.addChanged chunk.length
      | some err =>
        r.noteError (chunk.headD []) ("setfacl on ".toList ++ natDecimal chunk.length ++
          " paths: ".toList ++ err)
    r.addProcessed chunk.length

/-- One round of `apply_acl_with_progress`. -/
def aclItem (ops : FsOps) (dirEdit fileEdit : AclModification) (opts : ApplyOptions)
    (r : AclRun) (item : Except WalkError DirEntry) : AclRun :=
  match item with
  | .error e => { r with toApplyRun := r.noteQuietError e.shownPath e.message }
  | .ok e =>
    if e.fileType = .symlink then { r with toApplyRun := r.skip }
    else if !aclEntryApplies e opts dirEdit.defaultLayer then { r with toApplyRun := r.skip }
    else if e.fileType = .dir then
      let dirs := r.dirs ++ [e.path]
      let run := r.toApplyRun.atPath e.path
      if aclChunk ≤ dirs.length then
        { r with toApplyRun := flushChunk ops dirs dirEdit run, dirs := [] }
      else { r with toApplyRun := run, dirs }
    else
      let files := r.files ++ [e.path]
      let run := r.toApplyRun.atPath e.path
      if aclChunk ≤ files.length then
        { r with toApplyRun := flushChunk ops files fileEdit run, files := [] }
      else { r with toApplyRun := run, files }

/-- Edit the ACLs below a path. -/
def applyAclTree (ops : FsOps) (root : Str) (dirEdit fileEdit : AclModification)
    (opts : ApplyOptions) (cancelAt : Option Nat) (p : ApplyProgress) : ApplyRun :=
  let r := (untilCancel cancelAt ((ops.node root).walk opts.scope.maxDepth root)).foldl
    (aclItem ops dirEdit fileEdit opts) { progress := p }
  flushChunk ops r.files fileEdit (flushChunk ops r.dirs dirEdit r.toApplyRun)

/-! ## What the walks do -/

/-- The entries among the items that are changed under the options. -/
def inScope (opts : ApplyOptions) (items : List (Except WalkError DirEntry)) : List DirEntry :=
  (visited items).filter (shouldApplyEntry · opts)

/-- How many directories could not be read. -/
def walkErrors (items : List (Except WalkError DirEntry)) : Nat :=
  items.countP fun item => !item.isOk

/-- The calls for one entry: the mode is changed only after the owner. -/
def entryCalls (ops : FsOps) (uid gid mode : UInt32) (opts : ApplyOptions) (e : DirEntry) :
    List FsAction :=
  .chown e.path uid gid ::
    if ops.chown e.path uid gid = none then [.chmod e.path (entryMode mode opts e)] else []

/-- Links are left out. -/
theorem shouldApplyEntry_symlink {e : DirEntry} {opts : ApplyOptions} (h : e.fileType = .symlink) :
    shouldApplyEntry e opts = false := by
  simp [shouldApplyEntry, h]

/-- An entry that cannot be read is not in scope. -/
theorem inScope_error (opts : ApplyOptions) (e : WalkError)
    (items : List (Except WalkError DirEntry)) :
    inScope opts (.error e :: items) = inScope opts items := rfl

/-- An entry is in scope when the options say so. -/
theorem inScope_ok (opts : ApplyOptions) (e : DirEntry)
    (items : List (Except WalkError DirEntry)) :
    inScope opts (.ok e :: items) =
      if shouldApplyEntry e opts = true then e :: inScope opts items else inScope opts items := by
  show List.filter _ (e :: visited items) = _
  rw [List.filter_cons]
  rfl

/-- A cancelled walk changes a part of what the whole walk changes. -/
theorem mem_inScope_of_untilCancel {opts : ApplyOptions} {cancelAt : Option Nat}
    {items : List (Except WalkError DirEntry)} {e : DirEntry}
    (h : e ∈ inScope opts (untilCancel cancelAt items)) : e ∈ inScope opts items := by
  rw [inScope, List.mem_filter, mem_visited] at h ⊢
  refine ⟨?_, h.2⟩
  cases cancelAt with
  | none => exact h.1
  | some n => exact List.mem_of_mem_take h.1

/-- The count is the number of entries in scope. -/
theorem countTree_fst (node : FsNode) (root : Str) (opts : ApplyOptions) (cancelAt : Option Nat)
    (p : ApplyProgress) :
    (countTree node root opts cancelAt p).1 =
      (inScope opts (untilCancel cancelAt (node.walk opts.scope.maxDepth root))).length := by
  unfold countTree
  generalize untilCancel cancelAt (node.walk opts.scope.maxDepth root) = items
  -- the count so far goes into the induction
  suffices h : ∀ n q, (items.foldl _ ((n, q) : Nat × ApplyProgress)).1 =
      n + (inScope opts items).length by
    rw [h, Nat.zero_add]
  induction items with
  | nil => intro n q; rfl
  | cons item items ih =>
    intro n q
    cases item with
    | error e => rw [List.foldl_cons, inScope_error]; exact ih n q
    | ok e =>
      rw [List.foldl_cons, inScope_ok]
      by_cases hlink : e.fileType = .symlink
      · simp only [hlink, if_true, shouldApplyEntry_symlink hlink, Bool.false_eq_true, if_false]
        exact ih n q
      by_cases happly : shouldApplyEntry e opts = true
      · simp only [hlink, if_false, happly, if_true, List.length_cons]
        rw [ih]
        omega
      · simp only [hlink, happly, Bool.false_eq_true, if_false]
        exact ih n q

section Apply

variable {ops : FsOps} {uid gid mode : UInt32} {opts : ApplyOptions}

/-- **One round**: an entry in scope is called for, and is changed or an error of its own. -/
theorem applyItem_spec (hgo : opts.continueOnError = true) (item : Except WalkError DirEntry)
    (r : ApplyRun) :
    ∃ r', applyItem ops uid gid mode opts item r = (r', none) ∧
      r'.actions = r.actions ++ (inScope opts [item]).flatMap (entryCalls ops uid gid mode opts) ∧
      r'.touched = r.touched + (inScope opts [item]).length + walkErrors [item] := by
  have hscope : inScope opts ([] : List (Except WalkError DirEntry)) = [] := rfl
  cases item with
  -- an entry that could not be read is noted and counted, and nothing is called for it
  | error e =>
    refine ⟨r.noteError e.shownPath e.message, by rw [applyItem, if_pos hgo], ?_, ?_⟩
    · rw [inScope_error, hscope, List.flatMap_nil, List.append_nil, ApplyRun.actions_noteError]
    · rw [inScope_error, hscope, ApplyRun.touched_noteError]
      rfl
  | ok e =>
    have herrors : walkErrors [.ok e] = 0 := rfl
    rw [herrors, inScope_ok, hscope]
    -- a link is skipped and never in scope
    by_cases hlink : e.fileType = .symlink
    · refine ⟨r.skip, by rw [applyItem, if_pos hlink], ?_, ?_⟩
      · simp [shouldApplyEntry_symlink hlink]
      · simp [shouldApplyEntry_symlink hlink]
    by_cases happly : shouldApplyEntry e opts = true
    · simp only [applyItem, hlink, if_false, happly, Bool.not_true, Bool.false_eq_true, if_true,
        List.flatMap_cons, List.flatMap_nil, List.append_nil, entryCalls, List.length_singleton, hgo]
      -- the mode is changed only when the owner could be
      cases ops.chown e.path uid gid with
      | some err => exact ⟨_, rfl, by simp, by simp⟩
      | none =>
        cases ops.chmod e.path (entryMode mode opts e) with
        | some err => exact ⟨_, rfl, by simp, by simp⟩
        | none =>
          refine ⟨_, rfl, ?_, ?_⟩
          · split <;> simp
          · split <;> simp
    -- out of scope
    · refine ⟨r.skip, ?_, ?_, ?_⟩
      · simp only [applyItem, hlink, if_false, happly, Bool.not_false, if_true]
      · simp [happly]
      · simp [happly]

/-- What is in scope is decided entry by entry. -/
theorem inScope_cons (item : Except WalkError DirEntry) (items : List (Except WalkError DirEntry)) :
    inScope opts (item :: items) = inScope opts [item] ++ inScope opts items := by
  rw [inScope, inScope, inScope, ← List.filter_append, ← visited_append]
  rfl

/-- The errors of a walk are counted entry by entry. -/
theorem walkErrors_cons (item : Except WalkError DirEntry)
    (items : List (Except WalkError DirEntry)) :
    walkErrors (item :: items) = walkErrors [item] + walkErrors items := by
  rw [walkErrors, walkErrors, walkErrors, ← List.countP_append]
  rfl

/-- **The whole walk** goes to its end, calls for every entry in scope, and every one of them is
changed or an error of its own. -/
theorem applyItems_spec (hgo : opts.continueOnError = true)
    (items : List (Except WalkError DirEntry)) (r : ApplyRun) :
    ∃ r', applyItems ops uid gid mode opts items r = (r', none) ∧
      r'.actions = r.actions ++ (inScope opts items).flatMap (entryCalls ops uid gid mode opts) ∧
      r'.touched = r.touched + (inScope opts items).length + walkErrors items := by
  induction items generalizing r with
  | nil => exact ⟨r, rfl, by simp [inScope, visited], by simp [inScope, visited, walkErrors]⟩
  | cons item items ih =>
    obtain ⟨r₁, hstep, hactions₁, htouched₁⟩ :=
      applyItem_spec hgo item r
    obtain ⟨r₂, hrest, hactions₂, htouched₂⟩ := ih r₁
    refine ⟨r₂, ?_, ?_, ?_⟩
    · rw [applyItems, hstep]
      exact hrest
    · rw [inScope_cons item items, List.flatMap_append, hactions₂, hactions₁, List.append_assoc]
    · rw [inScope_cons item items, walkErrors_cons item items, List.length_append, htouched₂,
        htouched₁]
      omega

end Apply

/-- The entries among the items an ACL edit of the layer is for. -/
def inAclScope (opts : ApplyOptions) (defaultLayer : Bool)
    (items : List (Except WalkError DirEntry)) : List DirEntry :=
  (visited items).filter (aclEntryApplies · opts defaultLayer)

/-- The edit an entry takes. -/
def entryEdit (dirEdit fileEdit : AclModification) (e : DirEntry) : Str × AclModification :=
  (e.path, if e.fileType = .dir then dirEdit else fileEdit)

/-- The paths handed to `setfacl`, with the edits. -/
def aclAttempts (actions : List FsAction) : List (Str × AclModification) :=
  actions.flatMap fun a =>
    match a with
    | .setfacl paths edit => paths.map (·, edit)
    | _ => []

/-- The attempts of two lists of calls come one after the other. -/
theorem aclAttempts_append (as bs : List FsAction) :
    aclAttempts (as ++ bs) = aclAttempts as ++ aclAttempts bs := List.flatMap_append

/-- An entry that cannot be read gets no ACL. -/
theorem inAclScope_error (opts : ApplyOptions) (defaultLayer : Bool) (e : WalkError)
    (items : List (Except WalkError DirEntry)) :
    inAclScope opts defaultLayer (.error e :: items) = inAclScope opts defaultLayer items := rfl

/-- An entry gets an ACL when the options and the layer say so. -/
theorem inAclScope_ok (opts : ApplyOptions) (defaultLayer : Bool) (e : DirEntry)
    (items : List (Except WalkError DirEntry)) :
    inAclScope opts defaultLayer (.ok e :: items) =
      if aclEntryApplies e opts defaultLayer = true then e :: inAclScope opts defaultLayer items
      else inAclScope opts defaultLayer items := by
  show List.filter _ (e :: visited items) = _
  rw [List.filter_cons]
  rfl

/-- A cancelled walk edits a part of what the whole walk edits. -/
theorem mem_inAclScope_of_untilCancel {opts : ApplyOptions} {defaultLayer : Bool}
    {cancelAt : Option Nat} {items : List (Except WalkError DirEntry)} {e : DirEntry}
    (h : e ∈ inAclScope opts defaultLayer (untilCancel cancelAt items)) :
    e ∈ inAclScope opts defaultLayer items := by
  rw [inAclScope, List.mem_filter, mem_visited] at h ⊢
  refine ⟨?_, h.2⟩
  cases cancelAt with
  | none => exact h.1
  | some n => exact List.mem_of_mem_take h.1

/-- The paths a call of `setfacl` is for. -/
def FsAction.aclPaths : FsAction → List Str
  | .setfacl paths _ => paths
  | _ => []

/-- A path is in some call exactly when it is attempted with some edit. -/
theorem exists_aclPaths_iff {actions : List FsAction} {x : Str} :
    (∃ a ∈ actions, x ∈ a.aclPaths) ↔ ∃ edit, (x, edit) ∈ aclAttempts actions := by
  constructor
  · rintro ⟨a, ha, hx⟩
    cases a with
    | setfacl paths edit =>
      exact ⟨edit, List.mem_flatMap.mpr ⟨_, ha, List.mem_map_of_mem hx⟩⟩
    | chown _ _ _ => exact nomatch hx
    | chmod _ _ => exact nomatch hx
  · rintro ⟨edit, h⟩
    obtain ⟨a, ha, hx⟩ := List.mem_flatMap.mp h
    cases a with
    | setfacl paths edit' =>
      obtain ⟨y, hy, heq⟩ := List.mem_map.mp hx
      cases heq
      exact ⟨_, ha, hy⟩
    | chown _ _ _ => exact nomatch hx
    | chmod _ _ => exact nomatch hx

/-- The count is the number of the entries that get an ACL, as far as the walk came. -/
theorem countAclTree_fst (node : FsNode) (root : Str) (edit : AclModification)
    (opts : ApplyOptions) (cancelAt : Option Nat) (p : ApplyProgress) :
    (countAclTree node root edit opts cancelAt p).1 =
      (inAclScope opts edit.defaultLayer
        (untilCancel cancelAt (node.walk opts.scope.maxDepth root))).length := by
  unfold countAclTree
  generalize untilCancel cancelAt (node.walk opts.scope.maxDepth root) = items
  suffices h : ∀ n q, (items.foldl _ ((n, q) : Nat × ApplyProgress)).1 =
      n + (inAclScope opts edit.defaultLayer items).length by
    rw [h, Nat.zero_add]
  induction items with
  | nil => intro n q; rfl
  | cons item items ih =>
    intro n q
    cases item with
    | error e => rw [List.foldl_cons, inAclScope_error]; exact ih n q
    | ok e =>
      rw [List.foldl_cons, inAclScope_ok]
      by_cases happly : aclEntryApplies e opts edit.defaultLayer = true
      · simp only [happly, if_true, List.length_cons]
        rw [ih]
        omega
      · simp only [happly, Bool.false_eq_true, if_false]
        exact ih n q

section Acl

variable {ops : FsOps} {dirEdit fileEdit : AclModification} {opts : ApplyOptions}

/-- What was handed to `setfacl` and what waits for it. -/
def AclRun.taken (dirEdit fileEdit : AclModification) (r : AclRun) : List (Str × AclModification) :=
  aclAttempts r.actions ++ (r.dirs.map (·, dirEdit) ++ r.files.map (·, fileEdit))

/-- Flushing a chunk attempts its paths, with the edit of the chunk. -/
theorem aclAttempts_flushChunk (ops : FsOps) (chunk : List Str) (edit : AclModification)
    (r : ApplyRun) :
    aclAttempts (flushChunk ops chunk edit r).actions =
      aclAttempts r.actions ++ chunk.map (·, edit) := by
  unfold flushChunk
  by_cases hnil : chunk = []
  · rw [if_pos hnil, hnil, List.map_nil, List.append_nil]
  · have hactions : ∀ o : Option Str, (match o with
        | none => (r.call (.setfacl chunk edit)).addChanged chunk.length
        | some err => (r.call (.setfacl chunk edit)).noteError (chunk.headD [])
          ("setfacl on ".toList ++ natDecimal chunk.length ++ " paths: ".toList ++ err)).actions =
        r.actions ++ [.setfacl chunk edit] := by
      intro o
      cases o <;> rfl
    simp only [hnil, if_false, ApplyRun.actions_addProcessed, hactions, aclAttempts_append]
    simp [aclAttempts]

/-- **One round**: an entry in scope waits for `setfacl`, or is handed to it. -/
theorem aclItem_taken (r : AclRun) (item : Except WalkError DirEntry) :
    ((aclItem ops dirEdit fileEdit opts r item).taken dirEdit fileEdit).Perm
      (r.taken dirEdit fileEdit ++
        (inAclScope opts dirEdit.defaultLayer [item]).map (entryEdit dirEdit fileEdit)) := by
  have hscope : inAclScope opts dirEdit.defaultLayer [] = [] := rfl
  cases item with
  | error e => simp [aclItem, AclRun.taken, inAclScope_error, hscope]
  | ok e =>
    rw [inAclScope_ok, hscope]
    -- a link is handed to nobody
    by_cases hlink : e.fileType = .symlink
    · have hno : aclEntryApplies e opts dirEdit.defaultLayer = false := by
        simp [aclEntryApplies, shouldApplyEntry_symlink hlink]
      simp [aclItem, hlink, hno, AclRun.taken]
    by_cases happly : aclEntryApplies e opts dirEdit.defaultLayer = true
    · simp only [aclItem, hlink, happly, if_true, if_false, Bool.not_true, Bool.false_eq_true,
        List.map_cons, List.map_nil, entryEdit]
      -- directories and files fill chunks of their own
      by_cases hdir : e.fileType = .dir
      · simp only [hdir, if_true]
        by_cases hfull : aclChunk ≤ (r.dirs ++ [e.path]).length
        -- a full chunk goes to `setfacl` at once
        · simp only [hfull, if_true, AclRun.taken, aclAttempts_flushChunk,
            ApplyRun.actions_atPath, List.map_append, List.map_cons, List.map_nil, List.nil_append,
            List.append_assoc]
          refine (List.Perm.append_left _ (List.Perm.append_left _ ?_))
          exact List.perm_append_comm
        -- else the path waits behind those of its kind
        · simp only [hfull, if_false, AclRun.taken, ApplyRun.actions_atPath, List.map_append,
            List.map_cons, List.map_nil, List.append_assoc]
          refine (List.Perm.append_left _ (List.Perm.append_left _ ?_))
          exact List.perm_append_comm
      · simp only [hdir, if_false]
        by_cases hfull : aclChunk ≤ (r.files ++ [e.path]).length
        · simp only [hfull, if_true, AclRun.taken, aclAttempts_flushChunk,
            ApplyRun.actions_atPath, List.map_append, List.map_cons, List.map_nil, List.append_nil,
            List.append_assoc]
          refine List.Perm.append_left _ ?_
          rw [← List.append_assoc]
          exact List.perm_append_comm
        · simp only [hfull, if_false, AclRun.taken, ApplyRun.actions_atPath, List.map_append,
            List.map_cons, List.map_nil, List.append_assoc]
          exact List.Perm.refl _
    -- out of scope
    · simp only [aclItem, hlink, happly, if_true, if_false, Bool.not_false, Bool.false_eq_true,
        List.map_nil, List.append_nil]
      exact List.Perm.refl _

/-- Who gets an ACL is decided entry by entry. -/
theorem inAclScope_cons (defaultLayer : Bool) (item : Except WalkError DirEntry)
    (items : List (Except WalkError DirEntry)) :
    inAclScope opts defaultLayer (item :: items) =
      inAclScope opts defaultLayer [item] ++ inAclScope opts defaultLayer items := by
  rw [inAclScope, inAclScope, inAclScope, ← List.filter_append, ← visited_append]
  rfl

/-- A walk takes in the entries that get an ACL, each with its edit, in some order. -/
theorem foldl_aclItem_taken (items : List (Except WalkError DirEntry)) (r : AclRun) :
    ((items.foldl (aclItem ops dirEdit fileEdit opts) r).taken dirEdit fileEdit).Perm
      (r.taken dirEdit fileEdit ++
        (inAclScope opts dirEdit.defaultLayer items).map (entryEdit dirEdit fileEdit)) := by
  induction items generalizing r with
  | nil => simp [inAclScope, visited]
  | cons item items ih =>
    rw [List.foldl_cons, inAclScope_cons _ item items, List.map_append, ← List.append_assoc]
    exact (ih _).trans ((aclItem_taken r item).append_right _)

/-- **Every entry in scope is handed to `setfacl` once**, with its own edit. -/
theorem aclAttempts_perm (ops : FsOps) (root : Str) (dirEdit fileEdit : AclModification)
    (opts : ApplyOptions) (cancelAt : Option Nat) (p : ApplyProgress) :
    (aclAttempts (applyAclTree ops root dirEdit fileEdit opts cancelAt p).actions).Perm
      ((inAclScope opts dirEdit.defaultLayer
        (untilCancel cancelAt ((ops.node root).walk opts.scope.maxDepth root))).map
          (entryEdit dirEdit fileEdit)) := by
  unfold applyAclTree
  simp only [aclAttempts_flushChunk]
  rw [List.append_assoc]
  exact foldl_aclItem_taken (untilCancel cancelAt ((ops.node root).walk opts.scope.maxDepth root))
    { progress := p }

/-- The call is `setfacl` with one of the two edits. -/
def FsAction.EditsWith (dirEdit fileEdit : AclModification) : FsAction → Prop
  | .setfacl _ edit => edit = dirEdit ∨ edit = fileEdit
  | _ => False

/-- Flushing a chunk edits with one of the two edits. -/
theorem flushChunk_calls {chunk : List Str} {edit : AclModification} {r : ApplyRun}
    (hedit : edit = dirEdit ∨ edit = fileEdit)
    (hr : ∀ a ∈ r.actions, a.EditsWith dirEdit fileEdit) :
    ∀ a ∈ (flushChunk ops chunk edit r).actions, a.EditsWith dirEdit fileEdit := by
  have hcall : ∀ a ∈ r.actions ++ [.setfacl chunk edit], a.EditsWith dirEdit fileEdit := by
    intro a ha
    rcases List.mem_append.mp ha with ha | ha
    · exact hr a ha
    · rw [List.mem_singleton.mp ha]
      exact hedit
  unfold flushChunk
  by_cases hnil : chunk = []
  · rw [if_pos hnil]
    exact hr
  · rw [if_neg hnil]
    cases ops.setfacl chunk edit with
    | none => exact hcall
    | some err => exact hcall

/-- An entry of the walk is edited with one of the two edits. -/
theorem aclItem_calls {r : AclRun} (hr : ∀ a ∈ r.actions, a.EditsWith dirEdit fileEdit)
    (item : Except WalkError DirEntry) :
    ∀ a ∈ (aclItem ops dirEdit fileEdit opts r item).actions, a.EditsWith dirEdit fileEdit := by
  unfold aclItem
  cases item with
  | error e => exact hr
  | ok e =>
    dsimp only
    split
    · exact hr
    · split
      · exact hr
      · split
        · split
          · exact flushChunk_calls (Or.inl rfl) hr
          · exact hr
        · split
          · exact flushChunk_calls (Or.inr rfl) hr
          · exact hr

/-- An ACL walk calls nothing but `setfacl`, with its two edits. -/
theorem applyAclTree_calls (root : Str) (cancelAt : Option Nat) (p : ApplyProgress) :
    ∀ a ∈ (applyAclTree ops root dirEdit fileEdit opts cancelAt p).actions,
      a.EditsWith dirEdit fileEdit := by
  have hwalk : ∀ (items : List (Except WalkError DirEntry)) (r : AclRun),
      (∀ a ∈ r.actions, a.EditsWith dirEdit fileEdit) →
      ∀ a ∈ (items.foldl (aclItem ops dirEdit fileEdit opts) r).actions,
        a.EditsWith dirEdit fileEdit := by
    intro items
    induction items with
    | nil => exact fun r hr => hr
    | cons item items ih => exact fun r hr => ih _ (aclItem_calls hr item)
  exact flushChunk_calls (Or.inr rfl)
    (flushChunk_calls (Or.inl rfl) (hwalk _ _ (fun a ha => (nomatch ha))))

/-- How many of the calls of `setfacl` failed. -/
def failedCalls (ops : FsOps) (actions : List FsAction) : Nat :=
  actions.countP fun a =>
    match a with
    | .setfacl paths edit => (ops.setfacl paths edit).isSome
    | _ => false

/-- A chunk that fails is one error. -/
theorem flushChunk_errors (ops : FsOps) (chunk : List Str) (edit : AclModification) (r : ApplyRun) :
    (flushChunk ops chunk edit r).result.errors.length + failedCalls ops r.actions =
      r.result.errors.length + failedCalls ops (flushChunk ops chunk edit r).actions := by
  unfold flushChunk
  by_cases hnil : chunk = []
  · rw [if_pos hnil]
  · rw [if_neg hnil]
    cases hcall : ops.setfacl chunk edit with
    | none =>
      show r.result.errors.length + failedCalls ops r.actions =
        r.result.errors.length + failedCalls ops (r.actions ++ [.setfacl chunk edit])
      simp [failedCalls, hcall]
    | some err =>
      show (r.result.errors ++ [_]).length + failedCalls ops r.actions =
        r.result.errors.length + failedCalls ops (r.actions ++ [.setfacl chunk edit])
      simp only [failedCalls, List.countP_append, List.length_append, List.length_singleton,
        List.countP_singleton, hcall, Option.isSome_some, if_true]
      omega

/-- An entry adds an error when it cannot be read, and one for each call that fails. -/
theorem aclItem_errors (ops : FsOps) (dirEdit fileEdit : AclModification) (opts : ApplyOptions)
    (r : AclRun) (item : Except WalkError DirEntry) :
    (aclItem ops dirEdit fileEdit opts r item).result.errors.length + failedCalls ops r.actions =
      r.result.errors.length + walkErrors [item] +
        failedCalls ops (aclItem ops dirEdit fileEdit opts r item).actions := by
  cases item with
  | error e =>
    have herror : walkErrors [.error e] = 1 := rfl
    simp only [aclItem, ApplyRun.errors_noteQuietError, ApplyRun.actions_noteQuietError,
      List.length_append, List.length_singleton, herror]
  -- an entry that is only put into a chunk adds nothing yet
  | ok e =>
    have hok : walkErrors [.ok e] = 0 := rfl
    rw [hok, Nat.add_zero]
    unfold aclItem
    dsimp only
    split
    · rfl
    · split
      · rfl
      · split
        · split
          · exact flushChunk_errors ops _ _ (r.toApplyRun.atPath e.path)
          · rfl
        · split
          · exact flushChunk_errors ops _ _ (r.toApplyRun.atPath e.path)
          · rfl

/-- The errors of a walk are what it could not read and what failed. -/
theorem foldl_aclItem_errors (ops : FsOps) (dirEdit fileEdit : AclModification)
    (opts : ApplyOptions) (items : List (Except WalkError DirEntry)) (r : AclRun) :
    (items.foldl (aclItem ops dirEdit fileEdit opts) r).result.errors.length +
        failedCalls ops r.actions =
      r.result.errors.length + walkErrors items +
        failedCalls ops (items.foldl (aclItem ops dirEdit fileEdit opts) r).actions := by
  induction items generalizing r with
  | nil => simp [walkErrors]
  | cons item items ih =>
    have hstep := aclItem_errors ops dirEdit fileEdit opts r item
    have hrest := ih (aclItem ops dirEdit fileEdit opts r item)
    rw [List.foldl_cons, walkErrors_cons item items]
    omega

/-- **The errors of an ACL walk** are the directories it could not read and the calls that failed. -/
theorem applyAclTree_errors (ops : FsOps) (root : Str) (dirEdit fileEdit : AclModification)
    (opts : ApplyOptions) (cancelAt : Option Nat) (p : ApplyProgress) :
    (applyAclTree ops root dirEdit fileEdit opts cancelAt p).result.errors.length =
      walkErrors (untilCancel cancelAt ((ops.node root).walk opts.scope.maxDepth root)) +
        failedCalls ops (applyAclTree ops root dirEdit fileEdit opts cancelAt p).actions := by
  unfold applyAclTree
  dsimp only
  have hwalk := foldl_aclItem_errors ops dirEdit fileEdit opts
    (untilCancel cancelAt ((ops.node root).walk opts.scope.maxDepth root)) { progress := p }
  generalize (untilCancel cancelAt ((ops.node root).walk opts.scope.maxDepth root)).foldl
    (aclItem ops dirEdit fileEdit opts) { progress := p } = r at hwalk ⊢
  have hdirs := flushChunk_errors ops r.dirs dirEdit r.toApplyRun
  have hfiles := flushChunk_errors ops r.files fileEdit
    (flushChunk ops r.dirs dirEdit r.toApplyRun)
  have hstart : failedCalls ops ([] : List FsAction) = 0 := rfl
  have hnone : ([] : List (Str × Str)).length = 0 := rfl
  dsimp only at hwalk
  omega

end Acl

/-! ## The requests -/

/-- The message of a path that is not allowed. -/
def outsideRoots : Str := "Path is outside allowed managed roots".toList

/-- The message of a mode with the setuid bit. -/
def refusingSetuid : Str := "Refusing setuid bit on a share path".toList

/-- The message of a file mode with special bits. -/
def refusingFileMode : Str :=
  "Refusing special bits (setuid/setgid/sticky) in the file mode".toList

/-- The path work is done on. -/
def targetPath (c : NfsKlldapConfig) (path : Str) : Except Str Str :=
  if isAllowed c (normalizePath path) then hostPathToContainerPath c (normalizePath path)
  else .error outsideRoots

/-- `count_applicable_with_live` -/
def countApplicableWithLive (c : NfsKlldapConfig) (ops : FsOps) (path : Str) (scope : ApplyScope)
    (cancelAt : Option Nat) (p : ApplyProgress) : Except Str Nat × ApplyProgress :=
  match targetPath c path with
  | .error e => (.error e, p)
  | .ok q =>
    let counted := countTree (ops.node q) q { scope, continueOnError := true } cancelAt p
    (.ok counted.1, counted.2)

/-- `apply_permissions_with_progress`; the error comes with the run so far. -/
def applyPermissionsWithProgress (c : NfsKlldapConfig) (ops : FsOps) (path : Str)
    (ownerUid groupGid : UInt32) (spec : ApplySpec) (cancelAt : Option Nat) (p : ApplyProgress) :
    ApplyRun × Option Str :=
  if !isAllowed c (normalizePath path) then ({ progress := p }, some outsideRoots)
  else if spec.mode &&& 0o4000 ≠ 0 then
    ({ progress := p }, some refusingSetuid)
  else if spec.fileMode.any fun fm => fm &&& ~~~0o777 ≠ 0 then
    ({ progress := p }, some refusingFileMode)
  else
    match hostPathToContainerPath c (normalizePath path) with
    | .error e => ({ progress := p }, some e)
    | .ok q =>
      let run := applyTreeWithProgress ops q ownerUid groupGid spec.mode
        { scope := spec.scope, fileMode := spec.fileMode, continueOnError := true } cancelAt p
      (run.1, run.2.map fun e => "apply failed: apply failed: ".toList ++ e)

/-- `count_acl_applicable_with_live` -/
def countAclApplicableWithLive (c : NfsKlldapConfig) (ops : FsOps) (path : Str)
    (edit : AclModification) (scope : ApplyScope) (cancelAt : Option Nat) (p : ApplyProgress) :
    Except Str Nat × ApplyProgress :=
  match targetPath c path with
  | .error e => (.error e, p)
  | .ok q =>
    let counted := countAclTree (ops.node q) q edit { scope } cancelAt p
    (.ok counted.1, counted.2)

/-- `apply_acl_with_progress` -/
def applyAclWithProgress (c : NfsKlldapConfig) (ops : FsOps) (path : Str)
    (dirEdit fileEdit : AclModification) (scope : ApplyScope) (cancelAt : Option Nat)
    (p : ApplyProgress) : ApplyRun × Option Str :=
  match targetPath c path with
  | .error e => ({ progress := p }, some e)
  | .ok q =>
    (applyAclTree ops q dirEdit fileEdit { scope, continueOnError := true } cancelAt p, none)

/-- `apply_acl_mod`: one edit of the path itself. -/
def applyAclMod (c : NfsKlldapConfig) (ops : FsOps) (path : Str) (edit : AclModification) :
    List FsAction × Except Str Str :=
  match targetPath c path with
  | .error e => ([], .error e)
  | .ok q =>
    ([.setfacl [q] edit],
      match ops.setfacl [q] edit with
      | none => .ok "ACL entry updated on disk".toList
      | some e => .error ("ACL apply failed: ".toList ++ e))

end NfsKlldap
