import NfsKlldap.Fs.Apply
import NfsKlldap.Web.AclGate

/-! # What an apply form asks for (`/apply` and `/acl-apply`)

A form is turned into a job before anything is changed: the owner and the group are resolved, the modes
are read, and every staged ACL edit is parsed, gated and resolved. What the handlers ask LDAP, the gate
and the filesystem for is `ApplyAnswers`, one answer for each question of the request.

`applyPermissions_eq_ok` lists what an admitted form has passed. -/

namespace NfsKlldap

open Text UnixPath

/-! ## Reading the fields -/

/-- `u32::from_str_radix(s, 8)` -/
def parseOctal (s : Str) : Option UInt32 :=
  let d := stripPlus s
  let v := Nat.ofDigitChars 8 d 0
  if d ≠ [] ∧ (d.all fun c => '0' ≤ c ∧ c ≤ '7') ∧ v < 2 ^ 32 then some (UInt32.ofNat v) else none

/-- Drop the first of the prefixes the text starts with, and trim what is left. -/
def stripIdLabel (inner : Str) : Str :=
  if startsWith inner "UID" || startsWith inner "uid" || startsWith inner "GID" ||
      startsWith inner "gid" then trim (inner.drop 3)
  else inner

/-- Strip an editor value like `Alice (1000)` down to `1000` or `Alice`. -/
def normalizeEditorSearchQuery (q : Str) : Option Str :=
  let s := trim q
  if s = [] then none
  else
    match rsplitOnce '(' s with
    | none => some s
    | some (before, after) =>
      let closed := s.getLast? = some ')'
      let digits := stripIdLabel (trim (if closed then after.dropLast else after))
      let name := trim before
      if digits ≠ [] ∧ digits.all Char.isDigit then some digits
      else if (closed ∨ digits = []) ∧ name ≠ [] then some name
      else some s

/-- The form of an apply. -/
structure ApplyForm where
  path : Str
  ownerUser : Str
  ownerGroup : Str
  mode : Str
  recursiveScope : Str := []
  fileMode : Str := []
  ownerUserUid : Str := []
  ownerGroupGid : Str := []
  aclOps : Str := []

/-- One staged ACL edit. -/
structure AclOpSpec where
  op : Str := []
  typ : Str := []
  id : Str := []
  name : Str := []
  perms : Str := []
  layer : Str := []
  deriving DecidableEq

/-- The form of a single ACL edit. -/
structure AclApplyForm where
  path : Str
  op : Str := []
  typ : Str := []
  id : Str := []
  name : Str := []
  perms : Str := []
  selected : Str := []
  layer : Str := []
  scope : Str := []

/-- Stat-only metadata for one node. -/
structure NodeMeta where
  uid : UInt32
  gid : UInt32
  mode : UInt32
  isDir : Bool
  deriving DecidableEq

/-- What a handler is told: by LDAP, one lookup after the other, by the filesystem, once for the owner
and once for the kind of the node, and by the gate. -/
structure ApplyAnswers where
  resolveUser : Nat → Str → Option Int32
  resolveGroup : Nat → Str → Option Int32
  ownerMeta : Option NodeMeta
  nodeMeta : Option NodeMeta
  gate : AclGateView

/-- Why a form is turned down. -/
inductive ApplyRefusal
  | userNotFound (name : Str)
  | groupNotFound (name : Str)
  | ownershipUnread
  | fileModeBits
  | opsUnparsed
  | gated (reason : Str)
  | defaultOnFile
  | principalUnresolved (name : Str)
  | unknownOp
  deriving DecidableEq

/-- The note of a refusal, as the panel shows it. -/
def ApplyRefusal.note : ApplyRefusal → Str
  | .userNotFound name =>
    "Could not find user ".toList ++ name ++ " in LLDAP (or invalid number).".toList
  | .groupNotFound name =>
    "Could not find group ".toList ++ name ++ " in LLDAP (or invalid number).".toList
  | .ownershipUnread =>
    "Owner/group left blank and the directory's current ownership could not be read ".toList ++
      "— nothing was changed.".toList
  | .fileModeBits =>
    "File mode may only contain read/write/execute bits — special bits ".toList ++
      "(setuid/setgid/sticky) are not allowed on files; nothing was changed.".toList
  | .opsUnparsed => "Staged ACL edits could not be parsed — nothing was changed.".toList
  | .gated reason =>
    "ACL editing is not available here: ".toList ++ reason ++ " — nothing was changed.".toList
  | .defaultOnFile =>
    "Default (inheritance) ACL entries apply to directories only — nothing was changed.".toList
  | .principalUnresolved name =>
    "Could not resolve ACL principal \"".toList ++ name ++
      "\" (unknown name or invalid id) — nothing was changed.".toList
  | .unknownOp => "Unknown op in the staged ACL batch — nothing was changed.".toList

/-! ## The owner -/

/-- What an owner field says. -/
inductive OwnerChoice
  | id (n : UInt32)
  | lookup
  | untouched
  deriving DecidableEq

/-- The hidden id wins, then a typed number, then the names of id 0. -/
def ownerChoice (idField typed : Str) : OwnerChoice :=
  match parseU32 (trim idField) with
  | some n => .id n
  | none =>
    match normalizeEditorSearchQuery typed with
    | none => .untouched
    | some t =>
      match parseU32 t with
      | some n => .id n
      | none =>
        if eqIgnoreAsciiCase t "nobody".toList || eqIgnoreAsciiCase t "root".toList then .id 0
        else .lookup

/-- The id of an owner field; `none` leaves the owner as it is. -/
def OwnerChoice.resolve (answer : Option Int32) (refusal : ApplyRefusal) :
    OwnerChoice → Except ApplyRefusal (Option UInt32)
  | .id n => .ok (some n)
  | .untouched => .ok none
  | .lookup =>
    match answer with
    | some v => .ok (some v.toUInt32)
    | none => .error refusal

/-- Fields that are left alone keep the current owner. -/
def currentOwner (owner group : Option UInt32) (found : Option NodeMeta) :
    Except ApplyRefusal (UInt32 × UInt32) :=
  match owner, group with
  | some u, some g => .ok (u, g)
  | _, _ =>
    match found with
    | some m => .ok (owner.getD m.uid, group.getD m.gid)
    | none => .error .ownershipUnread

/-! ## Modes and scope -/

/-- The node is known and is no directory. -/
def targetIsFile (found : Option NodeMeta) : Bool := (found.map fun m => !m.isDir).getD false

/-- The scope a field asks for. -/
def scopeOf (field : Str) : ApplyScope :=
  if field = "all".toList then .all
  else if field = "single".toList then .immediateFiles
  else .dirOnly

/-- The mode of the form, or the default one. -/
def ApplyForm.mainMode (form : ApplyForm) : UInt32 := (parseOctal form.mode).getD 0o770

/-- A file target never recurses. -/
def ApplyForm.scope (form : ApplyForm) (a : ApplyAnswers) : ApplyScope :=
  if targetIsFile a.nodeMeta then .dirOnly else scopeOf form.recursiveScope

/-- The mode of files in a recursive scope. -/
def ApplyForm.explicitFileMode (form : ApplyForm) (scope : ApplyScope) :
    Except ApplyRefusal (Option UInt32) :=
  if scope = .dirOnly then .ok none
  else
    let fm := (parseOctal form.fileMode).getD (form.mainMode &&& 0o666)
    if fm &&& ~~~0o777 ≠ 0 then .error .fileModeBits else .ok (some fm)

/-! ## ACL edits -/

/-- An ACL edit that is ready to run: for directories, for files, and what the log calls it. -/
structure PreparedOp where
  dirEdit : AclModification
  fileEdit : AclModification
  cmd : Str
  label : Str
  deriving DecidableEq

/-- The input of one ACL edit. -/
structure AclOpInput where
  op : Str
  isUser : Bool
  id : UInt32
  deleteKinds : List AclEntryKind
  perms : Str
  defaultLayer : Bool

/-- An entry as `setfacl` takes it. -/
def AclEntryKind.spec : AclEntryKind → Str
  | .user u => "u:".toList ++ decimal u
  | .group g => "g:".toList ++ decimal g

/-- Directories take the fused permissions, files what was written. An unknown op is no edit. -/
def buildAclModification (input : AclOpInput) (nodeIsDir : Bool) (path : Str) :
    Option (AclModification × AclModification × Str) :=
  let dflag := if input.defaultLayer then "-d ".toList else []
  let kind := if input.isUser then AclEntryKind.user input.id else .group input.id
  let literal := AclPerms.fromStr
    (if trim input.perms = [] then "r--".toList else trim input.perms)
  let fused := if nodeIsDir then literal.dirRImpliesX else literal
  if input.op = "mask".toList then
    some (.setMask fused input.defaultLayer, .setMask literal input.defaultLayer,
      "setfacl ".toList ++ dflag ++ "-m m::".toList ++ fused.toStr ++ ' ' :: path)
  else if input.op ∈ ["add".toList, "edit".toList, "set".toList] then
    some (.set kind fused input.defaultLayer, .set kind literal input.defaultLayer,
      "setfacl ".toList ++ dflag ++ "-m ".toList ++ kind.spec ++ ':' :: fused.toStr ++ ' ' :: path)
  else if input.op ∈ ["delete".toList, "del".toList] then
    let kinds := if input.deleteKinds = [] ∧ input.id > 0 then [kind] else input.deleteKinds
    let edit := AclModification.remove kinds input.defaultLayer
    some (edit, edit,
      "setfacl ".toList ++ dflag ++ "-x ".toList ++
        (if kinds = [] then "(no-op)".toList else [','].intercalate (kinds.map AclEntryKind.spec)) ++
        ' ' :: path)
  else none

/-- The op in lower case, as the handler compares it. -/
def AclOpSpec.opName (u : CaseMapping) (spec : AclOpSpec) : Str := u.toLowercase (trim spec.op)

/-- The edit is about a user. -/
def isUserType (u : CaseMapping) (typ : Str) : Bool :=
  u.toLowercase (trim typ) = "user".toList || u.toLowercase (trim typ) = "u".toList

/-- The edit is about the default ACL. -/
def isDefaultLayer (layer : Str) : Bool := eqIgnoreAsciiCase (trim layer) "default".toList

/-- The principal of an edit: its number, or what LDAP says about its name; 0 is nobody. -/
def aclPrincipal (id : UInt32) (name : Str) (wanted isUser : Bool) (a : ApplyAnswers) (n : Nat) :
    UInt32 :=
  if id = 0 ∧ wanted ∧ trim name ≠ [] then
    match normalizeEditorSearchQuery name with
    | none => id
    | some stripped =>
      match parseU32 stripped with
      | some m => m
      | none =>
        let answer := if isUser then a.resolveUser n stripped else a.resolveGroup n stripped
        (answer.map Int32.toUInt32).getD id
  else id

/-- The principal of a staged edit. -/
def AclOpSpec.principal (u : CaseMapping) (a : ApplyAnswers) (n : Nat) (spec : AclOpSpec) : UInt32 :=
  aclPrincipal ((parseU32 (trim spec.id)).getD 0) spec.name (spec.opName u ≠ "mask".toList)
    (isUserType u spec.typ) a n

/-- One staged edit, the `n`-th lookup being its own. -/
def AclOpSpec.prepare (u : CaseMapping) (a : ApplyAnswers) (path : Str) (n : Nat) (spec : AclOpSpec) :
    Except ApplyRefusal PreparedOp :=
  let isFile := targetIsFile a.nodeMeta
  if isDefaultLayer spec.layer && isFile then .error .defaultOnFile
  else
    let id := spec.principal u a n
    if id = 0 ∧ spec.opName u ≠ "mask".toList then .error (.principalUnresolved spec.name)
    else
      match buildAclModification
          { op := spec.opName u, isUser := isUserType u spec.typ, id, deleteKinds := [],
            perms := spec.perms, defaultLayer := isDefaultLayer spec.layer } (!isFile) path with
      | none => .error .unknownOp
      | some (dirEdit, fileEdit, cmd) => .ok { dirEdit, fileEdit, cmd, label := spec.opName u }

/-- The staged edits, one after the other. -/
def prepareAll (u : CaseMapping) (a : ApplyAnswers) (path : Str) :
    Nat → List AclOpSpec → Except ApplyRefusal (List PreparedOp)
  | _, [] => .ok []
  | n, spec :: specs => do
    let op ← spec.prepare u a path n
    let ops ← prepareAll u a path (n + 1) specs
    return op :: ops

/-- The staged batch of a form; `parse` is `serde_json::from_str`. -/
def stagedBatch (u : CaseMapping) (parse : Str → Option (List AclOpSpec)) (a : ApplyAnswers)
    (form : ApplyForm) : Except ApplyRefusal (List PreparedOp) :=
  if trim form.aclOps = [] then .ok []
  else
    match parse (trim form.aclOps) with
    | none => .error .opsUnparsed
    | some specs =>
      if specs ≠ [] ∧ !a.gate.editable then .error (.gated a.gate.short)
      -- the lookups of the owner come first
      else prepareAll u a form.path 1 specs

/-! ## The jobs -/

/-- What the task of an apply works with. -/
structure ApplyJob where
  path : Str
  uid : UInt32
  gid : UInt32
  spec : ApplySpec
  batch : List PreparedOp
  deriving DecidableEq

/-- **`apply_permissions` up to the claim of the slot.** -/
def applyPermissions (u : CaseMapping) (parse : Str → Option (List AclOpSpec)) (a : ApplyAnswers)
    (form : ApplyForm) : Except ApplyRefusal ApplyJob := do
  let owner ← (ownerChoice form.ownerUserUid form.ownerUser).resolve
    (a.resolveUser 0 form.ownerUser) (.userNotFound form.ownerUser)
  let group ← (ownerChoice form.ownerGroupGid form.ownerGroup).resolve
    (a.resolveGroup 0 form.ownerGroup) (.groupNotFound form.ownerGroup)
  let ids ← currentOwner owner group a.ownerMeta
  let fileMode ← form.explicitFileMode (form.scope a)
  let batch ← stagedBatch u parse a form
  let spec : ApplySpec := { mode := form.mainMode, scope := form.scope a, fileMode }
  return { path := form.path, uid := ids.1, gid := ids.2, spec, batch }

/-- What the task of an ACL edit works with. -/
structure AclJob where
  path : Str
  scope : ApplyScope
  op : PreparedOp
  deriving DecidableEq

/-- The number of the first selected principal. -/
def firstSelected (selected : Str) : Option UInt32 :=
  parseU32 (trim (afterLast ':' (before ',' selected)))

/-- The selected principals, `u:1001,g:3001`. -/
def selectedKinds (selected : Str) : List AclEntryKind :=
  (selected.splitOn ',').filterMap fun tok =>
    let t := trim tok
    let num := (parseU32 (trim (afterLast ':' t))).getD 0
    if num = 0 then none else some (if t.head? = some 'g' then .group num else .user num)

/-- **`acl_apply` up to the claim of the slot.** -/
def aclApply (u : CaseMapping) (a : ApplyAnswers) (form : AclApplyForm) :
    Except ApplyRefusal AclJob :=
  let op := u.toLowercase (trim form.op)
  let isUser := isUserType u form.typ
  let nodeIsDir := a.nodeMeta.map NodeMeta.isDir = some true
  let wanted := op ≠ "delete".toList ∧ op ≠ "mask".toList
  let deleting := op = "delete".toList ∨ op = "del".toList
  let id := aclPrincipal (((parseU32 (trim form.id)).orElse fun _ => firstSelected form.selected).getD 0)
    form.name wanted isUser a 0
  if !a.gate.editable then .error (.gated a.gate.short)
  else if isDefaultLayer form.layer ∧ ¬ nodeIsDir then .error .defaultOnFile
  else if id = 0 ∧ wanted then .error (.principalUnresolved form.name)
  else
    match buildAclModification
        { op, isUser, id
          deleteKinds := if deleting ∧ trim form.selected ≠ [] then selectedKinds form.selected else []
          perms := form.perms, defaultLayer := isDefaultLayer form.layer } nodeIsDir form.path with
    | none => .error .unknownOp
    | some (dirEdit, fileEdit, cmd) =>
      .ok
        { path := form.path
          scope := if nodeIsDir then scopeOf (trim form.scope) else .dirOnly
          op := { dirEdit, fileEdit, cmd, label := op } }

/-- An ACL edit is admitted through an open gate alone. -/
theorem aclApply_eq_ok {u : CaseMapping} {a : ApplyAnswers} {form : AclApplyForm} {job : AclJob}
    (h : aclApply u a form = .ok job) : a.gate.editable = true ∧ job.path = form.path := by
  unfold aclApply at h
  dsimp only at h
  by_cases hgate : (!a.gate.editable) = true
  · rw [if_pos hgate] at h
    exact nomatch h
  rw [if_neg hgate] at h
  refine ⟨by simpa using hgate, ?_⟩
  split at h
  · exact nomatch h
  · split at h
    · exact nomatch h
    · split at h
      · exact nomatch h
      · cases h
        rfl

/-! ## What is wrong with a form -/

/-- The ops an ACL edit knows. -/
def knownOps : List Str :=
  ["mask".toList, "add".toList, "edit".toList, "set".toList, "delete".toList, "del".toList]

/-- A staged edit that cannot be run: an unknown op, the default layer of a file, or nobody to grant
anything to. -/
def AclOpSpec.Bad (u : CaseMapping) (a : ApplyAnswers) (spec : AclOpSpec) (n : Nat) : Prop :=
  spec.opName u ∉ knownOps ∨
    isDefaultLayer spec.layer = true ∧ targetIsFile a.nodeMeta = true ∨
    spec.opName u ≠ "mask".toList ∧ spec.principal u a n = 0

/-- The owner field names somebody who is not found. -/
def OwnerUnknown (idField typed : Str) (answer : Option Int32) : Prop :=
  ownerChoice idField typed = .lookup ∧ answer = none

/-- **Something is wrong with the form.** -/
inductive Refusable (c : NfsKlldapConfig) (u : CaseMapping) (parse : Str → Option (List AclOpSpec))
    (a : ApplyAnswers) (form : ApplyForm) : Prop
  | outside (h : isAllowed c (normalizePath form.path) = false)
  | setuid (h : form.mainMode &&& 0o4000 ≠ 0)
  | fileBits (hscope : form.scope a ≠ .dirOnly)
    (h : (parseOctal form.fileMode).getD (form.mainMode &&& 0o666) &&& ~~~0o777 ≠ 0)
  | user (h : OwnerUnknown form.ownerUserUid form.ownerUser (a.resolveUser 0 form.ownerUser))
  | group (h : OwnerUnknown form.ownerGroupGid form.ownerGroup (a.resolveGroup 0 form.ownerGroup))
  | unread (h : ownerChoice form.ownerUserUid form.ownerUser = .untouched ∨
      ownerChoice form.ownerGroupGid form.ownerGroup = .untouched) (hmeta : a.ownerMeta = none)
  | unparsed (hne : trim form.aclOps ≠ []) (h : parse (trim form.aclOps) = none)
  | gated (hne : trim form.aclOps ≠ []) {specs : List AclOpSpec}
    (hspecs : parse (trim form.aclOps) = some specs) (hsome : specs ≠ [])
    (h : a.gate.editable = false)
  | badOp (hne : trim form.aclOps ≠ []) {specs : List AclOpSpec}
    (hspecs : parse (trim form.aclOps) = some specs) {spec : AclOpSpec} {n : Nat}
    (hmem : (spec, n) ∈ specs.zipIdx 1) (h : spec.Bad u a n)

/-- Exactly the known ops are edits. -/
theorem buildAclModification_isSome {input : AclOpInput} {nodeIsDir : Bool} {path : Str} :
    (buildAclModification input nodeIsDir path).isSome = true ↔ input.op ∈ knownOps := by
  have hknown : input.op ∈ knownOps ↔ input.op = "mask".toList ∨
      input.op ∈ ["add".toList, "edit".toList, "set".toList] ∨
        input.op ∈ ["delete".toList, "del".toList] := by
    show input.op ∈ "mask".toList :: (["add".toList, "edit".toList, "set".toList] ++
      ["delete".toList, "del".toList]) ↔ _
    rw [List.mem_cons, List.mem_append]
  rw [hknown]
  unfold buildAclModification
  dsimp only
  by_cases hmask : input.op = "mask".toList
  · rw [if_pos hmask]
    exact ⟨fun _ => Or.inl hmask, fun _ => rfl⟩
  rw [if_neg hmask]
  by_cases hset : input.op ∈ ["add".toList, "edit".toList, "set".toList]
  · rw [if_pos hset]
    exact ⟨fun _ => Or.inr (Or.inl hset), fun _ => rfl⟩
  rw [if_neg hset]
  by_cases hdelete : input.op ∈ ["delete".toList, "del".toList]
  · rw [if_pos hdelete]
    exact ⟨fun _ => Or.inr (Or.inr hdelete), fun _ => rfl⟩
  rw [if_neg hdelete]
  exact ⟨fun h => (nomatch h), fun h => (h.elim hmask fun h => h.elim hset hdelete).elim⟩

/-! ## What an admitted form has passed -/

section Admitted

variable {u : CaseMapping} {parse : Str → Option (List AclOpSpec)} {a : ApplyAnswers}

/-- An edit is prepared exactly when nothing is wrong with it. -/
theorem prepare_isOk_iff {path : Str} {n : Nat} {spec : AclOpSpec} :
    (∃ op, spec.prepare u a path n = .ok op) ↔ ¬ spec.Bad u a n := by
  unfold AclOpSpec.prepare AclOpSpec.Bad
  dsimp only
  by_cases hdefault : (isDefaultLayer spec.layer && targetIsFile a.nodeMeta) = true
  · rw [if_pos hdefault]
    rw [Bool.and_eq_true] at hdefault
    exact ⟨fun ⟨op, h⟩ => (nomatch h), fun h => absurd (Or.inr (Or.inl hdefault)) h⟩
  rw [if_neg hdefault]
  rw [Bool.and_eq_true] at hdefault
  by_cases hnobody : spec.principal u a n = 0 ∧ spec.opName u ≠ "mask".toList
  · rw [if_pos hnobody]
    exact ⟨fun ⟨op, h⟩ => (nomatch h), fun h => absurd (Or.inr (Or.inr hnobody.symm)) h⟩
  rw [if_neg hnobody]
  generalize hinput : (⟨spec.opName u, isUserType u spec.typ, spec.principal u a n, [], spec.perms,
    isDefaultLayer spec.layer⟩ : AclOpInput) = input
  have hop : input.op = spec.opName u := by rw [← hinput]
  cases hbuild : buildAclModification input (!targetIsFile a.nodeMeta) path with
  | none =>
    have hunknown : input.op ∉ knownOps := by
      rw [← buildAclModification_isSome, hbuild]
      simp
    exact ⟨fun ⟨op, h⟩ => (nomatch h), fun h => absurd (Or.inl (hop ▸ hunknown)) h⟩
  | some edits =>
    have hknown : input.op ∈ knownOps := by
      rw [← buildAclModification_isSome, hbuild]
      rfl
    refine ⟨fun _ h => ?_, fun _ => ⟨_, rfl⟩⟩
    rcases h with h | h | h
    · exact h (hop ▸ hknown)
    · exact hdefault h
    · exact hnobody h.symm

/-- A batch is prepared exactly when none of its edits is bad. -/
theorem prepareAll_isOk_iff {path : Str} {n : Nat} {specs : List AclOpSpec} :
    (∃ ops, prepareAll u a path n specs = .ok ops) ↔
      ∀ x ∈ specs.zipIdx n, ¬ AclOpSpec.Bad u a x.1 x.2 := by
  induction specs generalizing n with
  | nil => exact ⟨fun _ x hx => (nomatch hx), fun _ => ⟨[], rfl⟩⟩
  | cons spec specs ih =>
    rw [List.zipIdx_cons, List.forall_mem_cons, ← ih, ← prepare_isOk_iff]
    constructor
    · rintro ⟨ops, h⟩
      obtain ⟨op, hop, h⟩ := bind_eq_ok.mp h
      obtain ⟨rest, hrest, -⟩ := bind_eq_ok.mp h
      exact ⟨⟨op, hop⟩, rest, hrest⟩
    · rintro ⟨⟨op, hop⟩, rest, hrest⟩
      exact ⟨op :: rest, bind_eq_ok.mpr ⟨op, hop, bind_eq_ok.mpr ⟨rest, hrest, rfl⟩⟩⟩

/-- The edits of a form are prepared exactly when they parse, the gate is open for them, and none is
bad. -/
theorem stagedBatch_isOk_iff {form : ApplyForm} :
    (∃ ops, stagedBatch u parse a form = .ok ops) ↔
      (trim form.aclOps ≠ [] → ∃ specs, parse (trim form.aclOps) = some specs ∧
        (specs ≠ [] → a.gate.editable = true) ∧
        ∀ x ∈ specs.zipIdx 1, ¬ AclOpSpec.Bad u a x.1 x.2) := by
  unfold stagedBatch
  -- a blank field stages nothing
  by_cases hblank : trim form.aclOps = []
  · rw [if_pos hblank]
    exact ⟨fun _ hne => absurd hblank hne, fun _ => ⟨[], rfl⟩⟩
  rw [if_neg hblank]
  cases hparse : parse (trim form.aclOps) with
  | none =>
    refine ⟨fun ⟨ops, h⟩ => (nomatch h), fun h => ?_⟩
    obtain ⟨specs, hspecs, -⟩ := h hblank
    exact nomatch hspecs
  | some specs =>
    dsimp only
    -- the gate is asked only when there is something to edit
    by_cases hgate : specs ≠ [] ∧ (!a.gate.editable) = true
    · rw [if_pos hgate]
      refine ⟨fun ⟨ops, h⟩ => (nomatch h), fun h => ?_⟩
      obtain ⟨_, heq, hopen, -⟩ := h hblank
      cases heq
      have hclosed := hgate.2
      rw [hopen hgate.1] at hclosed
      exact nomatch hclosed
    · rw [if_neg hgate, prepareAll_isOk_iff]
      constructor
      · refine fun h _ => ⟨specs, rfl, fun hne => ?_, h⟩
        by_contra hclosed
        exact hgate ⟨hne, by simpa using hclosed⟩
      · intro h
        obtain ⟨_, heq, -, hgood⟩ := h hblank
        cases heq
        exact hgood

/-- Staged edits are admitted through an open gate alone. -/
theorem gate_of_mem_batch {form : ApplyForm} {batch : List PreparedOp} {op : PreparedOp}
    (h : stagedBatch u parse a form = .ok batch) (hop : op ∈ batch) : a.gate.editable = true := by
  have hgood := stagedBatch_isOk_iff.mp ⟨batch, h⟩
  unfold stagedBatch at h
  by_cases hblank : trim form.aclOps = []
  · rw [if_pos hblank] at h
    cases h
    exact nomatch hop
  rw [if_neg hblank] at h
  obtain ⟨specs, hspecs, hopen, -⟩ := hgood hblank
  refine hopen fun hnil => ?_
  rw [hspecs, hnil] at h
  cases h
  exact nomatch hop

/-- **An admitted form** has passed every check, and its job is what the fields say. -/
theorem applyPermissions_eq_ok {form : ApplyForm} {job : ApplyJob}
    (h : applyPermissions u parse a form = .ok job) :
    job.path = form.path ∧ job.spec.mode = form.mainMode ∧ job.spec.scope = form.scope a ∧
      form.explicitFileMode (form.scope a) = .ok job.spec.fileMode ∧
      stagedBatch u parse a form = .ok job.batch ∧
      ∃ owner group,
        (ownerChoice form.ownerUserUid form.ownerUser).resolve (a.resolveUser 0 form.ownerUser)
          (.userNotFound form.ownerUser) = .ok owner ∧
        (ownerChoice form.ownerGroupGid form.ownerGroup).resolve (a.resolveGroup 0 form.ownerGroup)
          (.groupNotFound form.ownerGroup) = .ok group ∧
        currentOwner owner group a.ownerMeta = .ok (job.uid, job.gid) := by
  obtain ⟨owner, howner, h⟩ := bind_eq_ok.mp h
  obtain ⟨group, hgroup, h⟩ := bind_eq_ok.mp h
  obtain ⟨ids, hids, h⟩ := bind_eq_ok.mp h
  obtain ⟨fileMode, hfile, h⟩ := bind_eq_ok.mp h
  obtain ⟨batch, hbatch, h⟩ := bind_eq_ok.mp h
  cases h
  exact ⟨rfl, rfl, rfl, hfile, hbatch, owner, group, howner, hgroup, hids⟩

/-- The file mode of a job has no special bits, and a scope of the node alone has none. -/
theorem explicitFileMode_eq_ok {form : ApplyForm} {scope : ApplyScope} {fileMode : Option UInt32}
    (h : form.explicitFileMode scope = .ok fileMode) :
    (scope = .dirOnly ∧ fileMode = none) ∨
      (scope ≠ .dirOnly ∧ ∃ fm, fileMode = some fm ∧ fm &&& ~~~0o777 = 0) := by
  unfold ApplyForm.explicitFileMode at h
  split at h
  · next hscope =>
    cases h
    exact Or.inl ⟨hscope, rfl⟩
  · next hscope =>
    dsimp only at h
    split at h
    · exact nomatch h
    · next hbits =>
      cases h
      exact Or.inr ⟨hscope, _, rfl, not_not.mp hbits⟩

/-- An owner is resolved unless it is unknown. -/
theorem resolve_isOk_iff {idField typed : Str} {answer : Option Int32} {refusal : ApplyRefusal} :
    (∃ id, (ownerChoice idField typed).resolve answer refusal = .ok id) ↔
      ¬ OwnerUnknown idField typed answer := by
  unfold OwnerUnknown OwnerChoice.resolve
  cases ownerChoice idField typed with
  | id n => exact ⟨fun _ h => (nomatch h.1), fun _ => ⟨_, rfl⟩⟩
  | untouched => exact ⟨fun _ h => (nomatch h.1), fun _ => ⟨_, rfl⟩⟩
  | lookup =>
    cases answer with
    | some v => exact ⟨fun _ h => (nomatch h.2), fun _ => ⟨_, rfl⟩⟩
    | none => exact ⟨fun ⟨id, h⟩ => (nomatch h), fun h => absurd ⟨rfl, rfl⟩ h⟩

/-- Only an owner that is left untouched resolves to no id. -/
theorem resolve_eq_none {choice : OwnerChoice} {answer : Option Int32} {refusal : ApplyRefusal}
    (h : choice.resolve answer refusal = .ok none) : choice = .untouched := by
  unfold OwnerChoice.resolve at h
  cases choice with
  | id n => exact nomatch h
  | untouched => rfl
  | lookup => cases answer <;> exact nomatch h

/-- **A form is admitted by the handler** when nothing is wrong with it. -/
theorem exists_job_of_not_refusable {c : NfsKlldapConfig} {form : ApplyForm}
    (h : ¬ Refusable c u parse a form) : ∃ job, applyPermissions u parse a form = .ok job := by
  obtain ⟨owner, howner⟩ := resolve_isOk_iff.mpr fun hu => h (.user hu)
  obtain ⟨group, hgroup⟩ := resolve_isOk_iff.mpr fun hg => h (.group hg)
  have hids : ∃ ids, currentOwner owner group a.ownerMeta = .ok ids := by
    unfold currentOwner
    split
    · exact ⟨_, rfl⟩
    · next hblank =>
      split
      · exact ⟨_, rfl⟩
      · next hmeta =>
        -- one of the two fields was left alone
        refine absurd (Refusable.unread ?_ hmeta) h
        cases owner with
        | none => exact Or.inl (resolve_eq_none howner)
        | some x =>
          cases group with
          | none => exact Or.inr (resolve_eq_none hgroup)
          | some y => exact absurd rfl (hblank x y rfl)
  obtain ⟨ids, hids⟩ := hids
  have hfile : ∃ fm, form.explicitFileMode (form.scope a) = .ok fm := by
    unfold ApplyForm.explicitFileMode
    split
    · exact ⟨_, rfl⟩
    · next hscope =>
      dsimp only
      split
      · next hbits => exact absurd (Refusable.fileBits hscope hbits) h
      · exact ⟨_, rfl⟩
  obtain ⟨fm, hfile⟩ := hfile
  have hbatch : ∃ ops, stagedBatch u parse a form = .ok ops := by
    refine stagedBatch_isOk_iff.mpr fun hne => ?_
    cases hparse : parse (trim form.aclOps) with
    | none => exact absurd (Refusable.unparsed hne hparse) h
    | some specs =>
      refine ⟨specs, rfl, fun hsome => ?_, fun x hx hbad => h (.badOp hne hparse hx hbad)⟩
      by_contra hclosed
      exact h (.gated hne hparse hsome (by simpa using hclosed))
  obtain ⟨batch, hbatch⟩ := hbatch
  exact ⟨_, bind_eq_ok.mpr ⟨owner, howner, bind_eq_ok.mpr ⟨group, hgroup,
    bind_eq_ok.mpr ⟨ids, hids, bind_eq_ok.mpr ⟨fm, hfile, bind_eq_ok.mpr ⟨batch, hbatch, rfl⟩⟩⟩⟩⟩⟩

end Admitted

end NfsKlldap
