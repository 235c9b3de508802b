import NfsKlldap.Fs.Apply

/-! # An apply touches exactly its scope

`ApplyScope.Covers` says, over the tree alone, what a scope is: the selected node, the node and the
files in it, or everything below it; never a link and never a special file. **`touchesScope_iff`** ties
the four walks to it: owner and mode are changed on what the scope covers, what is changed or fails adds
up to what was counted, and every counted entry is handed to `setfacl` once.

The exception is a selected node that is a link to a directory: the walk skips the link itself, but it
follows a link it starts at, and then reaches the entries of the directory behind it. -/

namespace NfsKlldap

open UnixPath

/-! ## What a scope is -/

/-- The scope covers what the names lead to. -/
def ApplyScope.Covers (ns : List Str) (t : FileType) : ApplyScope → Prop
  | .dirOnly => ns = [] ∧ (t = .dir ∨ t = .file)
  | .immediateFiles => ns = [] ∧ (t = .dir ∨ t = .file) ∨ ns.length = 1 ∧ t = .file
  | .all => t = .dir ∨ t = .file

/-- The path is one of those the scope selects from the node at `root`. -/
def Selects (scope : ApplyScope) (node : FsNode) (root x : Str) (t : FileType) : Prop :=
  ∃ ns, node.Has ns t ∧ scope.Covers ns t ∧ x = joinNames root ns

/-- The node is a link to a directory with something that the scope covers. -/
def LinkIntoScope (scope : ApplyScope) (node : FsNode) : Prop :=
  ∃ entries ns t, node = .link (.dir none entries) ∧ entries.Has ns t ∧ scope.Covers ns t

/-- `m'` is `m` with `x` added wherever `r` is set: for others, the group and the owner these are the
bits 0 and 2, 3 and 5, 6 and 8. No other bit changes. -/
def AddsXWhereR (m m' : UInt32) : Prop :=
  ∀ i, m'.toNat.testBit i = true ↔
    m.toNat.testBit i = true ∨ (i = 0 ∨ i = 3 ∨ i = 6) ∧ m.toNat.testBit (i + 2) = true

/-- The mode of what is selected: a directory gets the main mode with `x` wherever it has `r`, a file
its own mode, or the main one when there is none. -/
def ApplySpec.ModeOf (spec : ApplySpec) (t : FileType) (m : UInt32) : Prop :=
  if t = .dir then AddsXWhereR spec.mode m else m = spec.fileMode.getD spec.mode

/-- The bits of `r` for others, the group and the owner. -/
theorem testBit_0o444 (j : Nat) : Nat.testBit 0o444 j = true ↔ j = 2 ∨ j = 5 ∨ j = 8 := by
  by_cases hj : j < 9
  · have hsmall : ∀ j < 9, Nat.testBit 0o444 j = true ↔ j = 2 ∨ j = 5 ∨ j = 8 := by decide
    exact hsmall j hj
  · have hlarge : Nat.testBit 0o444 j = false :=
      Nat.testBit_lt_two_pow (lt_of_lt_of_le (by decide) (Nat.pow_le_pow_right (by decide)
        (Nat.le_of_not_lt hj)))
    rw [hlarge]
    refine iff_of_false Bool.false_ne_true ?_
    omega

/-- **The mode of a directory** is the requested one with `x` wherever that has `r`. -/
theorem eq_dirModeRImpliesX_iff {m m' : UInt32} : m' = dirModeRImpliesX m ↔ AddsXWhereR m m' := by
  have hbit : ∀ i, (dirModeRImpliesX m).toNat.testBit i = true ↔
      m.toNat.testBit i = true ∨ (i = 0 ∨ i = 3 ∨ i = 6) ∧ m.toNat.testBit (i + 2) = true := by
    intro i
    have hshift : (dirModeRImpliesX m).toNat = m.toNat ||| ((m.toNat &&& 0o444) >>> 2) := by
      rw [dirModeRImpliesX, UInt32.toNat_or, UInt32.toNat_shiftRight, UInt32.toNat_and]
      rfl
    rw [hshift, Nat.testBit_or, Nat.testBit_shiftRight, Nat.testBit_and, Nat.add_comm 2 i,
      Bool.or_eq_true, Bool.and_eq_true, testBit_0o444]
    refine or_congr_right (and_comm.trans (and_congr_left fun _ => ?_))
    omega
  constructor
  · rintro rfl
    exact hbit
  · intro h
    refine UInt32.toNat_inj.mp (Nat.eq_of_testBit_eq fun i => ?_)
    rw [Bool.eq_iff_iff, h i, hbit i]

/-- The walk sets the modes of the scope. -/
theorem modeOf_iff {spec : ApplySpec} {opts : ApplyOptions} (hopts : opts.fileMode = spec.fileMode)
    {e : DirEntry} {m : UInt32} : m = entryMode spec.mode opts e ↔ spec.ModeOf e.fileType m := by
  rw [entryMode, ApplySpec.ModeOf, hopts]
  split
  · exact eq_dirModeRImpliesX_iff
  · rfl

/-- Only directories and regular files are covered. -/
theorem ApplyScope.Covers.dir_or_file {scope : ApplyScope} {ns : List Str} {t : FileType}
    (h : scope.Covers ns t) : t = .dir ∨ t = .file := by
  cases scope with
  | dirOnly => exact h.2
  | immediateFiles =>
    rcases h with ⟨-, h⟩ | ⟨-, h⟩
    · exact h
    · exact Or.inr h
  | all => exact h

/-- A link is never covered. -/
theorem ApplyScope.Covers.not_symlink {scope : ApplyScope} {ns : List Str} {t : FileType}
    (h : scope.Covers ns t) : t ≠ .symlink := by
  rcases h.dir_or_file with rfl | rfl
  · exact FileType.noConfusion
  · exact FileType.noConfusion

/-- What is covered lies within the depth of the walk. -/
theorem ApplyScope.Covers.withinDepth {scope : ApplyScope} {ns : List Str} {t : FileType}
    (h : scope.Covers ns t) : withinDepth scope.maxDepth ns.length = true := by
  cases scope with
  | dirOnly => simp [NfsKlldap.withinDepth, ApplyScope.maxDepth, h.1]
  | immediateFiles =>
    rcases h with ⟨hns, -⟩ | ⟨hns, -⟩
    · simp [NfsKlldap.withinDepth, ApplyScope.maxDepth, hns]
    · simp [NfsKlldap.withinDepth, ApplyScope.maxDepth, hns]
  | all => rfl

/-- The test of the walk is the scope's, on an entry as deep as its names. -/
theorem shouldApplyEntry_iff {e : DirEntry} {opts : ApplyOptions} {ns : List Str}
    (hdepth : e.depth = ns.length) :
    shouldApplyEntry e opts = true ↔ opts.scope.Covers ns e.fileType := by
  obtain ⟨path, depth, type⟩ := e
  obtain ⟨scope, fileMode, go⟩ := opts
  cases hdepth
  cases type <;> cases scope <;>
    simp [shouldApplyEntry, ApplyScope.Covers, List.length_eq_zero_iff, Nat.le_one_iff_eq_zero_or_eq_one]

/-! ## The walk and the scope -/

section Walk

variable {node : FsNode} {root : Str} {opts : ApplyOptions} {e : DirEntry}

/-- What a walk changes is selected, or lies behind a link it starts at. -/
theorem mem_inScope_iff :
    e ∈ inScope opts (node.walk opts.scope.maxDepth root) ↔
      (∃ ns, node.Has ns e.fileType ∧ opts.scope.Covers ns e.fileType ∧
          e.path = joinNames root ns ∧ e.depth = ns.length) ∨
        ∃ entries ns, node = .link (.dir none entries) ∧ entries.Has ns e.fileType ∧
          opts.scope.Covers ns e.fileType ∧ e.path = joinNames root ns ∧ e.depth = ns.length := by
  rw [inScope, List.mem_filter, mem_visited]
  constructor
  · rintro ⟨hmem, happly⟩
    -- a link is walked but never in scope
    have htype : e.fileType ≠ .symlink := by
      intro hlink
      rw [shouldApplyEntry_symlink hlink] at happly
      exact Bool.false_ne_true happly
    rcases (FsNode.mem_walk_iff htype).mp hmem with
      ⟨ns, hns, hpath, hdepth, -⟩ | ⟨entries, hnode, ns, hns, hpath, hdepth, -⟩
    · exact Or.inl ⟨ns, hns, (shouldApplyEntry_iff hdepth).mp happly, hpath, hdepth⟩
    · exact Or.inr ⟨entries, ns, hnode, hns, (shouldApplyEntry_iff hdepth).mp happly, hpath, hdepth⟩
  · rintro (⟨ns, hns, hcovers, hpath, hdepth⟩ | ⟨entries, ns, hnode, hns, hcovers, hpath, hdepth⟩)
    · exact ⟨(FsNode.mem_walk_iff hcovers.not_symlink).mpr
        (Or.inl ⟨ns, hns, hpath, hdepth, hdepth ▸ hcovers.withinDepth⟩),
        (shouldApplyEntry_iff hdepth).mpr hcovers⟩
    · exact ⟨(FsNode.mem_walk_iff hcovers.not_symlink).mpr
        (Or.inr ⟨entries, hnode, ns, hns, hpath, hdepth, hdepth ▸ hcovers.withinDepth⟩),
        (shouldApplyEntry_iff hdepth).mpr hcovers⟩

/-- A link selects nothing. -/
theorem not_selects_link {scope : ApplyScope} {target : LinkTarget} {x : Str} {t : FileType} :
    ¬ Selects scope (.link target) root x t := by
  rintro ⟨ns, ⟨⟩, hcovers, -⟩
  exact hcovers.not_symlink rfl

/-- Without a link at its start the walk changes what the scope selects. -/
theorem exists_mem_inScope_iff (opts : ApplyOptions) (hlink : ¬ LinkIntoScope opts.scope node)
    {x : Str} {t : FileType} :
    (∃ e ∈ inScope opts (node.walk opts.scope.maxDepth root), e.path = x ∧ e.fileType = t) ↔
      Selects opts.scope node root x t := by
  constructor
  · rintro ⟨e, he, rfl, rfl⟩
    rcases mem_inScope_iff.mp he with
      ⟨ns, hns, hcovers, hpath, -⟩ | ⟨entries, ns, hnode, hns, hcovers, -⟩
    · exact ⟨ns, hns, hcovers, hpath⟩
    · exact absurd ⟨entries, ns, _, hnode, hns, hcovers⟩ hlink
  · rintro ⟨ns, hns, hcovers, rfl⟩
    exact ⟨⟨joinNames root ns, ns.length, t⟩,
      mem_inScope_iff.mpr (Or.inl ⟨ns, hns, hcovers, rfl, rfl⟩), rfl, rfl⟩

/-- An entry gets an ACL when it is in scope and, for the default layer, a directory. -/
theorem mem_inAclScope_iff {items : List (Except WalkError DirEntry)} {defaultLayer : Bool} :
    e ∈ inAclScope opts defaultLayer items ↔
      e ∈ inScope opts items ∧ (defaultLayer = true → e.fileType = .dir) := by
  rw [inAclScope, inScope, List.mem_filter, List.mem_filter, aclEntryApplies]
  cases defaultLayer with
  | false => simp
  | true =>
    by_cases hdir : e.fileType = .dir
    · simp [hdir]
    · simp [hdir]

end Walk

/-! ## The runs -/

section Runs

variable {c : NfsKlldapConfig} {ops : FsOps} {path : Str} {uid gid : UInt32} {spec : ApplySpec}

/-- What an apply works with. -/
def ApplySpec.options (spec : ApplySpec) : ApplyOptions :=
  { scope := spec.scope, fileMode := spec.fileMode, continueOnError := true }

/-- The items of the walk of a spec. -/
def ApplySpec.items (spec : ApplySpec) (ops : FsOps) (q : Str) : List (Except WalkError DirEntry) :=
  (ops.node q).walk spec.scope.maxDepth q

/-- An accepted apply is a walk of the mapped path. -/
theorem applyPermissions_accepted {cancelAt : Option Nat} {p : ApplyProgress}
    (h : (applyPermissionsWithProgress c ops path uid gid spec cancelAt p).2 = none) :
    spec.mode &&& 0o4000 = 0 ∧ (∀ fm, spec.fileMode = some fm → fm &&& ~~~0o777 = 0) ∧
      ∃ q, targetPath c path = .ok q ∧
        (applyPermissionsWithProgress c ops path uid gid spec cancelAt p).1 =
          (applyTreeWithProgress ops q uid gid spec.mode spec.options cancelAt p).1 := by
  unfold applyPermissionsWithProgress at h ⊢
  -- every check that fails ends the apply with an error
  by_cases hallowed : (!isAllowed c (normalizePath path)) = true
  · rw [if_pos hallowed] at h
    exact nomatch h
  rw [if_neg hallowed] at h ⊢
  by_cases hsetuid : spec.mode &&& 0o4000 ≠ 0
  · rw [if_pos hsetuid] at h
    exact nomatch h
  rw [if_neg hsetuid] at h ⊢
  by_cases hfile : (spec.fileMode.any fun fm => fm &&& ~~~0o777 ≠ 0) = true
  · rw [if_pos hfile] at h
    exact nomatch h
  rw [if_neg hfile] at h ⊢
  refine ⟨not_not.mp hsetuid, fun fm hfm => ?_, ?_⟩
  · rw [hfm] at hfile
    simpa using hfile
  · rw [Bool.not_eq_true', Bool.not_eq_false] at hallowed
    cases hmap : hostPathToContainerPath c (normalizePath path) with
    | error e =>
      rw [hmap] at h
      exact nomatch h
    | ok q => exact ⟨q, by rw [targetPath, if_pos hallowed, hmap], rfl⟩

/-- **The walk** over a tree calls owner and mode for what is in scope, in order, and touches no more. -/
theorem applyTree_spec (ops : FsOps) (q : Str) (uid gid : UInt32) (spec : ApplySpec)
    (cancelAt : Option Nat) (p : ApplyProgress) :
    ∃ r', applyTreeWithProgress ops q uid gid spec.mode spec.options cancelAt p = (r', none) ∧
      r'.actions = (inScope spec.options (untilCancel cancelAt (spec.items ops q))).flatMap
        (entryCalls ops uid gid spec.mode spec.options) ∧
      r'.touched = (inScope spec.options (untilCancel cancelAt (spec.items ops q))).length +
        walkErrors (untilCancel cancelAt (spec.items ops q)) := by
  have hgo : spec.options.continueOnError = true := rfl
  obtain ⟨r', hrun, hactions, htouched⟩ :=
    applyItems_spec hgo (untilCancel cancelAt (spec.items ops q)) { progress := p }
  refine ⟨r', hrun, hactions, ?_⟩
  rw [htouched]
  show 0 + _ + _ = _
  omega

end Runs

/-- A path with a target is allowed, and mapped to it. -/
theorem targetPath_eq_ok {c : NfsKlldapConfig} {path q : Str} (h : targetPath c path = .ok q) :
    isAllowed c (normalizePath path) = true ∧
      hostPathToContainerPath c (normalizePath path) = .ok q := by
  unfold targetPath at h
  split at h
  · next hallowed => exact ⟨hallowed, h⟩
  · exact nomatch h

/-- What is not refused is accepted. -/
theorem applyPermissions_accepts {c : NfsKlldapConfig} {ops : FsOps} {path q : Str}
    {uid gid : UInt32} {spec : ApplySpec} {cancelAt : Option Nat} {p : ApplyProgress}
    (hq : targetPath c path = .ok q) (hmode : spec.mode &&& 0o4000 = 0)
    (hfile : ∀ fm, spec.fileMode = some fm → fm &&& ~~~0o777 = 0) :
    (applyPermissionsWithProgress c ops path uid gid spec cancelAt p).2 = none := by
  obtain ⟨hallowed, hmap⟩ := targetPath_eq_ok hq
  have hfile' : (spec.fileMode.any fun fm => fm &&& ~~~0o777 ≠ 0) = false := by
    cases hfm : spec.fileMode with
    | none => rfl
    | some fm => simp [hfile fm hfm]
  obtain ⟨r', hr', -⟩ := applyTree_spec ops q uid gid spec cancelAt p
  simp only [ApplySpec.options] at hr'
  simp only [applyPermissionsWithProgress, hallowed, Bool.not_true, Bool.false_eq_true, if_false, hmode,
    ne_eq, not_true_eq_false, hfile', hmap, hr', Option.map_none]

/-- A refused apply calls nothing. -/
theorem applyPermissions_refused {c : NfsKlldapConfig} {ops : FsOps} {path : Str}
    {uid gid : UInt32} {spec : ApplySpec} {cancelAt : Option Nat} {p : ApplyProgress} {e : Str}
    (h : (applyPermissionsWithProgress c ops path uid gid spec cancelAt p).2 = some e) :
    (applyPermissionsWithProgress c ops path uid gid spec cancelAt p).1.actions = [] := by
  unfold applyPermissionsWithProgress at h ⊢
  split
  · rfl
  · next hallowed =>
    rw [if_neg hallowed] at h
    split
    · rfl
    · next hsetuid =>
      rw [if_neg hsetuid] at h
      split
      · rfl
      · next hfile =>
        rw [if_neg hfile] at h
        cases hmap : hostPathToContainerPath c (normalizePath path) with
        | error e => rfl
        | ok q =>
          -- a walk that goes on after errors comes to its end
          obtain ⟨r', hr', -⟩ := applyTree_spec ops q uid gid spec cancelAt p
          rw [hmap] at h
          simp only [ApplySpec.options] at hr'
          simp only [hr', Option.map_none] at h
          exact nomatch h

section Calls

variable {ops : FsOps} {uid gid mode : UInt32} {opts : ApplyOptions} {es : List DirEntry} {x : Str}

/-- The owner is set for the entries of the walk, to the owner that was asked for. -/
theorem chown_mem_calls_iff {u g : UInt32} :
    .chown x u g ∈ es.flatMap (entryCalls ops uid gid mode opts) ↔
      (∃ e ∈ es, e.path = x) ∧ u = uid ∧ g = gid := by
  rw [List.mem_flatMap]
  constructor
  · rintro ⟨e, he, hcall⟩
    rcases List.mem_cons.mp hcall with heq | hcall
    · cases heq
      exact ⟨⟨e, he, rfl⟩, rfl, rfl⟩
    · split at hcall
      · exact nomatch List.mem_singleton.mp hcall
      · exact nomatch hcall
  · rintro ⟨⟨e, he, rfl⟩, rfl, rfl⟩
    exact ⟨e, he, List.mem_cons_self⟩

/-- The mode is set for the entries whose owner could be set. -/
theorem chmod_mem_calls_iff {m : UInt32} :
    .chmod x m ∈ es.flatMap (entryCalls ops uid gid mode opts) ↔
      ∃ e ∈ es, e.path = x ∧ ops.chown x uid gid = none ∧ m = entryMode mode opts e := by
  rw [List.mem_flatMap]
  constructor
  · rintro ⟨e, he, hcall⟩
    rcases List.mem_cons.mp hcall with heq | hcall
    · exact nomatch heq
    · split at hcall
      · next hchown =>
        cases List.mem_singleton.mp hcall
        exact ⟨e, he, rfl, hchown, rfl⟩
      · exact nomatch hcall
  · rintro ⟨e, he, rfl, hchown, rfl⟩
    refine ⟨e, he, List.mem_cons_of_mem _ ?_⟩
    rw [if_pos hchown]
    exact List.mem_singleton_self _

end Calls

/-! ## The theorem -/

/-- **The walks touch exactly the scope.** `q` is the path the request is mapped to; a directory that
cannot be read is an error of its own. -/
structure TouchesScope (c : NfsKlldapConfig) (ops : FsOps) (path q : Str) (uid gid : UInt32)
    (spec : ApplySpec) (dirEdit fileEdit : AclModification) (p : ApplyProgress) : Prop where
  chowned : ∀ x u g,
    .chown x u g ∈ (applyPermissionsWithProgress c ops path uid gid spec none p).1.actions ↔
      (∃ t, Selects spec.scope (ops.node q) q x t) ∧ u = uid ∧ g = gid
  chmodded : ∀ x m,
    .chmod x m ∈ (applyPermissionsWithProgress c ops path uid gid spec none p).1.actions ↔
      ∃ t, Selects spec.scope (ops.node q) q x t ∧ ops.chown x uid gid = none ∧ spec.ModeOf t m
  counted : ∃ n, (countApplicableWithLive c ops path spec.scope none p).1 = .ok n ∧
    (applyPermissionsWithProgress c ops path uid gid spec none p).1.touched =
      n + walkErrors (spec.items ops q)
  attempted : ∀ x edit,
    (x, edit) ∈ aclAttempts
        (applyAclWithProgress c ops path dirEdit fileEdit spec.scope none p).1.actions ↔
      ∃ t, Selects spec.scope (ops.node q) q x t ∧ (dirEdit.defaultLayer = true → t = .dir) ∧
        edit = if t = .dir then dirEdit else fileEdit
  attemptedOnce : ((aclAttempts
    (applyAclWithProgress c ops path dirEdit fileEdit spec.scope none p).1.actions).map
      Prod.fst).Nodup
  attemptsCounted : (countAclApplicableWithLive c ops path dirEdit spec.scope none p).1 =
    .ok (aclAttempts
      (applyAclWithProgress c ops path dirEdit fileEdit spec.scope none p).1.actions).length
  defaultOnDirs : ∀ x edit,
    (x, edit) ∈ aclAttempts
        (applyAclWithProgress c ops path dirEdit fileEdit spec.scope none p).1.actions →
      edit.defaultLayer = true → Selects spec.scope (ops.node q) q x .dir

section Theorem

variable {c : NfsKlldapConfig} {ops : FsOps} {path q : Str} {uid gid : UInt32} {spec : ApplySpec}
  {dirEdit fileEdit : AclModification} {p : ApplyProgress}

/-- An ACL edit is attempted for the entries that get one, each with the edit of its type. -/
theorem mem_attempts_iff (hq : targetPath c path = .ok q) {x : Str} {edit : AclModification} :
    (x, edit) ∈ aclAttempts
        (applyAclWithProgress c ops path dirEdit fileEdit spec.scope none p).1.actions ↔
      ∃ e ∈ inAclScope spec.options dirEdit.defaultLayer (spec.items ops q),
        entryEdit dirEdit fileEdit e = (x, edit) := by
  simp only [applyAclWithProgress, hq]
  rw [(aclAttempts_perm ops q dirEdit fileEdit _ none p).mem_iff, List.mem_map]
  rfl

/-- An accepted pass without a cancel makes the calls for all that is in scope. -/
theorem posixRun_spec (hq : targetPath c path = .ok q)
    (haccepted : (applyPermissionsWithProgress c ops path uid gid spec none p).2 = none) :
    (applyPermissionsWithProgress c ops path uid gid spec none p).1.actions =
        (inScope spec.options (spec.items ops q)).flatMap
          (entryCalls ops uid gid spec.mode spec.options) ∧
      (applyPermissionsWithProgress c ops path uid gid spec none p).1.touched =
        (inScope spec.options (spec.items ops q)).length + walkErrors (spec.items ops q) := by
  obtain ⟨-, -, q', hq', hrun⟩ := applyPermissions_accepted haccepted
  cases hq.symm.trans hq'
  obtain ⟨r', hr', hactions, htouched⟩ := applyTree_spec ops q uid gid spec none p
  rw [hrun, hr']
  exact ⟨hactions, htouched⟩

/-- What lies behind a link at the start is changed, and is not selected. -/
theorem not_touchesScope_of_link (hq : targetPath c path = .ok q)
    (haccepted : (applyPermissionsWithProgress c ops path uid gid spec none p).2 = none)
    (hlink : LinkIntoScope spec.scope (ops.node q)) :
    ¬ TouchesScope c ops path q uid gid spec dirEdit fileEdit p := by
  intro htouches
  obtain ⟨entries, ns, t, hnode, hns, hcovers⟩ := hlink
  have hmem : (⟨joinNames q ns, ns.length, t⟩ : DirEntry) ∈
      inScope spec.options (spec.items ops q) :=
    mem_inScope_iff.mpr (Or.inr ⟨entries, ns, hnode, hns, hcovers, rfl, rfl⟩)
  have hcall : .chown (joinNames q ns) uid gid ∈
      (applyPermissionsWithProgress c ops path uid gid spec none p).1.actions := by
    rw [(posixRun_spec hq haccepted).1, chown_mem_calls_iff]
    exact ⟨⟨_, hmem, rfl⟩, rfl, rfl⟩
  obtain ⟨⟨t', ht'⟩, -⟩ := (htouches.chowned _ _ _).mp hcall
  rw [hnode] at ht'
  exact not_selects_link ht'

/-- Owners are changed on what the scope selects. -/
theorem chowned_iff (hq : targetPath c path = .ok q)
    (haccepted : (applyPermissionsWithProgress c ops path uid gid spec none p).2 = none)
    (hlink : ¬ LinkIntoScope spec.scope (ops.node q)) {x : Str} {u g : UInt32} :
    .chown x u g ∈ (applyPermissionsWithProgress c ops path uid gid spec none p).1.actions ↔
      (∃ t, Selects spec.scope (ops.node q) q x t) ∧ u = uid ∧ g = gid := by
  rw [(posixRun_spec hq haccepted).1, chown_mem_calls_iff]
  refine and_congr_left fun _ => ⟨?_, ?_⟩
  · rintro ⟨e, he, rfl⟩
    exact ⟨e.fileType, (exists_mem_inScope_iff _ hlink).mp ⟨e, he, rfl, rfl⟩⟩
  · rintro ⟨t, ht⟩
    obtain ⟨e, he, hpath, -⟩ := (exists_mem_inScope_iff spec.options hlink).mpr ht
    exact ⟨e, he, hpath⟩

/-- Modes are changed on what the scope selects and `chown` went through on. -/
theorem chmodded_iff (hq : targetPath c path = .ok q)
    (haccepted : (applyPermissionsWithProgress c ops path uid gid spec none p).2 = none)
    (hlink : ¬ LinkIntoScope spec.scope (ops.node q)) {x : Str} {m : UInt32} :
    .chmod x m ∈ (applyPermissionsWithProgress c ops path uid gid spec none p).1.actions ↔
      ∃ t, Selects spec.scope (ops.node q) q x t ∧ ops.chown x uid gid = none ∧
        spec.ModeOf t m := by
  rw [(posixRun_spec hq haccepted).1, chmod_mem_calls_iff]
  constructor
  · rintro ⟨e, he, rfl, hchown, hm⟩
    exact ⟨e.fileType, (exists_mem_inScope_iff _ hlink).mp ⟨e, he, rfl, rfl⟩, hchown,
      (modeOf_iff rfl).mp hm⟩
  · rintro ⟨t, ht, hchown, hm⟩
    obtain ⟨e, he, rfl, rfl⟩ := (exists_mem_inScope_iff spec.options hlink).mpr ht
    exact ⟨e, he, rfl, hchown, (modeOf_iff rfl).mpr hm⟩

/-- What `setfacl` is called on is selected, and takes the edit of its type. -/
theorem attempted_iff (hq : targetPath c path = .ok q)
    (hlink : ¬ LinkIntoScope spec.scope (ops.node q)) {x : Str} {edit : AclModification} :
    (x, edit) ∈ aclAttempts
        (applyAclWithProgress c ops path dirEdit fileEdit spec.scope none p).1.actions ↔
      ∃ t, Selects spec.scope (ops.node q) q x t ∧ (dirEdit.defaultLayer = true → t = .dir) ∧
        edit = if t = .dir then dirEdit else fileEdit := by
  rw [mem_attempts_iff hq]
  constructor
  · rintro ⟨e, he, heq⟩
    cases heq
    obtain ⟨hscope, hdir⟩ := mem_inAclScope_iff.mp he
    exact ⟨e.fileType, (exists_mem_inScope_iff _ hlink).mp ⟨e, hscope, rfl, rfl⟩, hdir, rfl⟩
  · rintro ⟨t, ht, hdir, rfl⟩
    obtain ⟨e, he, rfl, rfl⟩ := (exists_mem_inScope_iff spec.options hlink).mpr ht
    exact ⟨e, mem_inAclScope_iff.mpr ⟨he, hdir⟩, rfl⟩

/-- The attempts are those of the ACL walk below the mapped path. -/
theorem aclAttempts_perm_scope (hq : targetPath c path = .ok q) :
    (aclAttempts (applyAclWithProgress c ops path dirEdit fileEdit spec.scope none p).1.actions).Perm
      ((inAclScope { scope := spec.scope, continueOnError := true } dirEdit.defaultLayer
        ((ops.node q).walk spec.scope.maxDepth q)).map (entryEdit dirEdit fileEdit)) := by
  have hacl : (applyAclWithProgress c ops path dirEdit fileEdit spec.scope none p).1 =
      applyAclTree ops q dirEdit fileEdit { scope := spec.scope, continueOnError := true }
        none p := by
    simp only [applyAclWithProgress, hq]
  rw [hacl]
  exact aclAttempts_perm ops q dirEdit fileEdit
    { scope := spec.scope, continueOnError := true } none p

/-- No path is handed to `setfacl` twice: the walk visits every path once. -/
theorem attempted_nodup (hq : targetPath c path = .ok q) :
    ((aclAttempts
      (applyAclWithProgress c ops path dirEdit fileEdit spec.scope none p).1.actions).map
        Prod.fst).Nodup := by
  have hnodup : ((visited ((ops.node q).walk spec.scope.maxDepth q)).map DirEntry.path).Nodup :=
    FsNode.nodup_walk (ops.wellNamed q)
  rw [((aclAttempts_perm_scope hq).map Prod.fst).nodup_iff, List.map_map]
  exact hnodup.sublist (List.filter_sublist.map _)

/-- Without a link at its start an apply touches the scope. -/
theorem touchesScope_of_not_link (hq : targetPath c path = .ok q)
    (haccepted : (applyPermissionsWithProgress c ops path uid gid spec none p).2 = none)
    (hlayer : fileEdit.defaultLayer = dirEdit.defaultLayer)
    (hlink : ¬ LinkIntoScope spec.scope (ops.node q)) :
    TouchesScope c ops path q uid gid spec dirEdit fileEdit p := by
  refine ⟨fun x u g => chowned_iff hq haccepted hlink, fun x m => chmodded_iff hq haccepted hlink, ?_,
    fun x edit => attempted_iff hq hlink, attempted_nodup hq, ?_, fun x edit hmem hdefault => ?_⟩
  · refine ⟨(inScope spec.options (spec.items ops q)).length, ?_, (posixRun_spec hq haccepted).2⟩
    simp only [countApplicableWithLive, hq, countTree_fst]
    rfl
  · rw [(aclAttempts_perm_scope hq).length_eq, List.length_map]
    simp only [countAclApplicableWithLive, hq, countAclTree_fst]
    rfl
  · obtain ⟨t, ht, hdir, rfl⟩ := (attempted_iff hq hlink).mp hmem
    have hdefault' : dirEdit.defaultLayer = true := by
      split at hdefault
      · exact hdefault
      · rw [← hlayer]
        exact hdefault
    rw [← hdir hdefault']
    exact ht

/-- **The walks touch exactly the scope**, unless the node is a link to a directory with something the
scope covers. -/
theorem touchesScope_iff (hq : targetPath c path = .ok q)
    (haccepted : (applyPermissionsWithProgress c ops path uid gid spec none p).2 = none)
    (hlayer : fileEdit.defaultLayer = dirEdit.defaultLayer) :
    TouchesScope c ops path q uid gid spec dirEdit fileEdit p ↔
      ¬ LinkIntoScope spec.scope (ops.node q) :=
  ⟨fun htouches hlink => not_touchesScope_of_link hq haccepted hlink htouches,
    touchesScope_of_not_link hq haccepted hlayer⟩

end Theorem

/-! ### A tree, and a link to one -/

/-- One share, `/srv/a`, served at `/export/a`. -/
def oneShareConfig : NfsKlldapConfig where
  shares :=
    [{ name := "a".toList, hostPath := "/srv/a".toList, containerPath := "/export/a".toList }]

/-- A file, a link, and a directory with another file. -/
def smallListing : Listing :=
  .leaf "f".toList .file (.leaf "l".toList .symlink
    (.dir "d".toList none (.leaf "g".toList .file .nil) .nil))

/-- The names of the small listing are single components. -/
theorem smallListing_wellNamed : smallListing.WellNamed := by
  simp only [smallListing, Listing.WellNamed, GoodName, Listing.names]
  decide

/-- Nothing fails. -/
def FsOps.of (node : FsNode) (h : node.WellNamed) : FsOps where
  node := fun _ => node
  wellNamed := fun _ => h
  chown := fun _ _ _ => none
  chmod := fun _ _ => none
  setfacl := fun _ _ => none

/-- A directory with a file, a link and a directory with a file. -/
def smallTree : FsOps := .of (.dir none smallListing) smallListing_wellNamed

/-- A link to the same directory. -/
def linkedTree : FsOps := .of (.link (.dir none smallListing)) smallListing_wellNamed

/-- Everything below the node; the directories get `x` where they have `r`. -/
def smallSpec : ApplySpec where
  mode := 0o2640
  scope := .all
  fileMode := some 0o640

/-- Read access for a user. -/
def smallEdit : AclModification := .set (.user 1000) ⟨true, false, false⟩ false

/-- The walks touch exactly the scope of the small tree. -/
theorem touchesScope_smallTree :
    TouchesScope oneShareConfig smallTree "/srv/a".toList "/export/a".toList 1000 1000 smallSpec
      smallEdit smallEdit {} := by
  have hq : (targetPath oneShareConfig "/srv/a".toList).toOption = some "/export/a".toList := by
    decide +kernel
  refine (touchesScope_iff (toOption_eq_some_iff.mp hq) (by decide +kernel) rfl).mpr ?_
  rintro ⟨entries, ns, t, hnode, -⟩
  exact nomatch hnode

/-- **A link to a directory**: the files behind the link change their owner. -/
theorem not_touchesScope_linkedTree :
    (applyPermissionsWithProgress oneShareConfig linkedTree "/srv/a".toList 1000 1000 smallSpec
        none {}).2 = none ∧
      .chown "/export/a/d/g".toList 1000 1000 ∈ (applyPermissionsWithProgress oneShareConfig
        linkedTree "/srv/a".toList 1000 1000 smallSpec none {}).1.actions ∧
      ¬ TouchesScope oneShareConfig linkedTree "/srv/a".toList "/export/a".toList 1000 1000
        smallSpec smallEdit smallEdit {} := by
  have hq : (targetPath oneShareConfig "/srv/a".toList).toOption = some "/export/a".toList := by
    decide +kernel
  have haccepted : (applyPermissionsWithProgress oneShareConfig linkedTree "/srv/a".toList 1000
      1000 smallSpec none {}).2 = none := by decide +kernel
  refine ⟨haccepted, by decide +kernel,
    not_touchesScope_of_link (toOption_eq_some_iff.mp hq) haccepted ?_⟩
  exact ⟨smallListing, ["f".toList], .file, rfl, .leaf, Or.inr rfl⟩

end NfsKlldap
