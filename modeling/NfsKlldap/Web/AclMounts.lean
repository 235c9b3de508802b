import NfsKlldap.Web.ApplyTask

/-! # ACL writes and mounts

The gate looks at the mount of the selected node and at the one the share is served from. A recursive edit
walks on from the node, and the walk does not stop at a mount point.

**`aclWritesAllowed_iff`**: every path an edit is run on lies on a mount that allows it exactly when what
the edit reaches on other mounts than the node's does. -/

namespace NfsKlldap

open Text UnixPath

/-! ## The mount of a path -/

namespace MountView

/-- The mount a path lies on, by its mount point. -/
def mountOf (v : MountView) (path : Str) : Option Str := (verdictForSnapshot v path false).mountRoot

/-- The verdict on the mount a path lies on. -/
def verdictAt (v : MountView) (path : Str) : AclProbeVerdict := (verdictForSnapshot v path false).verdict

/-- **The mount allows ACL edits**: it is proven, or it is unverified and the share is served from it. -/
def Allows (v : MountView) (serve path : Str) : Prop :=
  v.verdictAt path = .capable ∨ v.verdictAt path = .inconclusive ∧ v.mountOf path = v.mountOf serve

end MountView

/-- The mount of a path is the last one with its mount point. -/
theorem resolveMountForPath_getLast {entries : List MountEntry} {path : Str} {e : MountEntry}
    (h : resolveMountForPath entries path = some e) :
    (entries.filter fun t => normalizePath t.mountPoint = normalizePath e.mountPoint).getLast? =
      some e := by
  obtain ⟨before, behind, hsplit, hbefore, hbehind⟩ := maxByKey_eq_some_iff.mp h
  have hunder : pathUnderMount (normalizePath path) (normalizePath e.mountPoint) = true := by
    have hmem : e ∈ entries.filter fun t =>
        pathUnderMount (normalizePath path) (normalizePath t.mountPoint) := by
      rw [hsplit]
      simp
    exact (List.mem_filter.mp hmem).2
  -- entries with the mount point are among those the path lies under
  have hsame : (entries.filter fun t => normalizePath t.mountPoint = normalizePath e.mountPoint) =
      (before ++ e :: behind).filter
        fun t => normalizePath t.mountPoint = normalizePath e.mountPoint := by
    rw [← hsplit, List.filter_filter]
    refine List.filter_congr fun t _ => ?_
    by_cases ht : normalizePath t.mountPoint = normalizePath e.mountPoint
    · simp [ht, hunder]
    · simp [ht]
  have hnone : (behind.filter fun t => normalizePath t.mountPoint = normalizePath e.mountPoint) =
      [] := by
    rw [List.filter_eq_nil_iff]
    intro t ht heq
    have hlt := hbehind t ht
    dsimp only at hlt
    rw [of_decide_eq_true heq] at hlt
    exact absurd hlt (lt_irrefl _)
  rw [hsame, List.filter_append, List.filter_cons_of_pos (by simp), hnone]
  simp

/-- Paths with one mount point lie on one mount. -/
theorem stageA_eq_of_mountOf {v : MountView} {x y : Str} (h : v.mountOf x = v.mountOf y) :
    stageA v x = stageA v y := by
  have hroots : (stageA v x).2 = (stageA v y).2 := h
  unfold stageA at hroots ⊢
  cases hcontent : v.content with
  | none => rfl
  | some content =>
    rw [hcontent] at hroots
    simp only [Option.map_some, Option.getD_some] at hroots ⊢
    unfold probeFromMountinfoWithRoot at hroots ⊢
    cases hx : resolveMountForPath (parseMountinfo content) x with
    | none =>
      cases hy : resolveMountForPath (parseMountinfo content) y with
      | none => rfl
      | some e =>
        rw [hx, hy] at hroots
        exact nomatch hroots
    | some d =>
      cases hy : resolveMountForPath (parseMountinfo content) y with
      | none =>
        rw [hx, hy] at hroots
        exact nomatch hroots
      | some e =>
        rw [hx, hy] at hroots
        have hpoint : d.mountPoint = e.mountPoint := Option.some.inj hroots
        have hlast := resolveMountForPath_getLast hx
        rw [hpoint, resolveMountForPath_getLast hy] at hlast
        rw [Option.some.inj hlast]

/-- What is allowed on a mount is allowed everywhere on it. -/
theorem MountView.Allows.of_mountOf {v : MountView} {serve x y : Str} (hy : v.Allows serve y)
    (h : v.mountOf x = v.mountOf y) : v.Allows serve x := by
  have hverdict : v.verdictAt x = v.verdictAt y := by
    show verdictCached v (stageA v x).1 (stageA v x).2 false = _
    rw [stageA_eq_of_mountOf h]
    rfl
  rcases hy with hy | ⟨hy, hroot⟩
  · exact Or.inl (hverdict.trans hy)
  · exact Or.inr ⟨hverdict.trans hy, h.trans hroot⟩

/-- **An open gate**: the selected node lies on a mount that allows the edit. -/
theorem allows_of_gate {c : NfsKlldapConfig} {v : MountView} {warn : Share → Str} {path q : Str}
    {s : Share} (hs : bestShareFor c path = some s) (hq : targetPath c path = .ok q)
    (hopen : (aclApplyGate c v warn path).editable = true) : v.Allows (servePathFor s) q := by
  have hmap : hostPathToContainerPath c path = .ok q :=
    hostPathToContainerPath_of_normalized (targetPath_eq_ok hq).2
  simp only [aclApplyGate, hs, hmap, Except.toOption, Option.getD_some] at hopen
  obtain ⟨hshare, hnode⟩ := aclCapabilityDecision_editable.mp hopen
  obtain ⟨hacl, hroot⟩ := shareLevelDecision_editable.mp hshare
  have hskip : decide (s.enableAcl = some false) = false := by simpa using hacl
  rw [hskip] at hroot hnode
  by_cases hmount : v.mountOf q = v.mountOf (servePathFor s)
  · -- the mount of the share: its verdict lets the share serve ACLs
    refine MountView.Allows.of_mountOf ?_ hmount
    rcases hroot with hcapable | ⟨-, hinconclusive⟩
    · exact Or.inl hcapable
    · exact Or.inr ⟨hinconclusive, rfl⟩
  · have hother : (verdictForSnapshot v q false).mountRoot ≠
        (verdictForSnapshot v (servePathFor s) false).mountRoot := hmount
    rw [if_pos hother] at hnode
    rcases hnode with hnone | hcapable
    · exact absurd hnone (Option.some_ne_none _)
    · exact Or.inl (Option.some.inj hcapable)

/-! ## Requests -/

/-- The calls of a request. -/
def ApplyRequest.actions (c : NfsKlldapConfig) (ops : FsOps) (u : CaseMapping)
    (parse : Str → Option (List AclOpSpec)) (a : ApplyAnswers) (inProgress claimed : Bool)
    (fate : TaskFate) : ApplyRequest → List FsAction
  | .staged form => (handleApply c ops u parse a inProgress claimed fate form).actions
  | .direct form => (handleAclApply c ops u a inProgress claimed fate form).actions

/-- The request is admitted, with the edits in the scope. -/
def ApplyRequest.Admitted (c : NfsKlldapConfig) (u : CaseMapping)
    (parse : Str → Option (List AclOpSpec)) (a : ApplyAnswers) (scope : ApplyScope)
    (edits : List PreparedOp) : ApplyRequest → Prop
  | .staged form => ¬ Refusable c u parse a form ∧
      ∃ job, applyPermissions u parse a form = .ok job ∧ job.spec.scope = scope ∧ job.batch = edits
  | .direct form => ∃ job, aclApply u a form = .ok job ∧ job.scope = scope ∧ [job.op] = edits

/-- The edits that come to be run: behind a directory that cannot be read only the first one is. -/
def runnableEdits (ops : FsOps) (q : Str) (scope : ApplyScope) (edits : List PreparedOp) :
    List PreparedOp :=
  if scope = .dirOnly ∨ walkErrors ((ops.node q).walk scope.maxDepth q) = 0 then edits
  else edits.take 1

/-- The same tree, with other answers of `setfacl`. -/
def FsOps.answering (ops : FsOps) (setfacl : List Str → AclModification → Option Str) : FsOps :=
  { ops with setfacl }

/-- The answers with the gate's own. -/
def ApplyAnswers.gatedBy (a : ApplyAnswers) (c : NfsKlldapConfig) (v : MountView) (warn : Share → Str)
    (path : Str) : ApplyAnswers :=
  { a with gate := aclApplyGate c v warn path }

/-- **ACL writes stay on mounts that allow them**, whatever `setfacl` answers and whatever befalls the
task. -/
def AclWritesAllowed (c : NfsKlldapConfig) (v : MountView) (warn : Share → Str) (ops : FsOps)
    (u : CaseMapping) (parse : Str → Option (List AclOpSpec)) (a : ApplyAnswers) (req : ApplyRequest) :
    Prop :=
  ∀ setfacl inProgress claimed fate s, bestShareFor c req.path = some s →
    ∀ call ∈ req.actions c (ops.answering setfacl) u parse (a.gatedBy c v warn req.path) inProgress
      claimed fate, ∀ x ∈ call.aclPaths, v.Allows (servePathFor s) x

/-- The edits reach another mount than the node's, one that does not allow them. -/
def EditsOtherMount (c : NfsKlldapConfig) (v : MountView) (warn : Share → Str) (ops : FsOps)
    (u : CaseMapping) (parse : Str → Option (List AclOpSpec)) (a : ApplyAnswers) (req : ApplyRequest) :
    Prop :=
  ∃ s q scope edits, bestShareFor c req.path = some s ∧ targetPath c req.path = .ok q ∧
    req.Admitted c u parse (a.gatedBy c v warn req.path) scope edits ∧
    ∃ op ∈ runnableEdits ops q scope edits, ∃ x, OpReaches c ops req.path scope op x ∧
      v.mountOf x ≠ v.mountOf q ∧ ¬ v.Allows (servePathFor s) x

/-! ## The theorem -/

section Theorem

variable {c : NfsKlldapConfig} {ops : FsOps} {u : CaseMapping}
  {parse : Str → Option (List AclOpSpec)} {a : ApplyAnswers} {req : ApplyRequest}
  {setfacl : List Str → AclModification → Option Str}

/-- What `setfacl` answers does not change which edits are run. -/
theorem runnableEdits_answering (q : Str) (scope : ApplyScope) (edits : List PreparedOp) :
    runnableEdits (ops.answering setfacl) q scope edits = runnableEdits ops q scope edits := rfl

/-- Nor does it change which paths an edit reaches. -/
theorem opReaches_answering (path : Str) (scope : ApplyScope) (op : PreparedOp) (x : Str) :
    OpReaches c (ops.answering setfacl) path scope op x = OpReaches c ops path scope op x := rfl

/-- A POSIX call edits no ACL. -/
theorem aclPaths_of_posix {x : FsAction} (h : x.IsPosix) : x.aclPaths = [] := by
  cases x with
  | chown _ _ _ => rfl
  | chmod _ _ => rfl
  | setfacl _ _ => exact h.elim

/-- Every call behind the POSIX pass is one of an edit that comes to be run. -/
theorem StagedTrace.exists_runnable {path q : Str} {scope : ApplyScope} {batch : List PreparedOp}
    {looked : Nat → Nat} {cancelAt : Option Nat} {segs : List (List FsAction)}
    (h : StagedTrace c ops path scope batch looked cancelAt segs) (hq : targetPath c path = .ok q)
    {call : FsAction} (hcall : call ∈ segs.flatten) :
    ∃ op ∈ runnableEdits ops q scope batch, ∀ x ∈ call.aclPaths, OpReaches c ops path scope op x := by
  obtain ⟨seg, hseg, hmem⟩ := List.mem_flatten.mp hcall
  obtain ⟨op, hop, hown⟩ := exists_of_forall₂ h.own hseg
  refine ⟨op, ?_, (hown call hmem).2⟩
  unfold runnableEdits
  split
  · exact List.mem_of_mem_take hop
  · next hstuck =>
    rw [not_or] at hstuck
    -- a second edit would have found every directory readable
    have hfew : segs.length ≤ 1 := by
      by_contra hmore
      exact hstuck.2 (h.read (by omega) hstuck.1 q hq)
    exact (List.take_prefix_take_left hfew).subset hop

/-- What a staged request edits is reached by an edit of an admitted one. -/
theorem staged_reached {form : ApplyForm} {inProgress claimed : Bool} {fate : TaskFate}
    {call : FsAction} {x : Str}
    (hcall : call ∈ (handleApply c ops u parse a inProgress claimed fate form).actions)
    (hx : x ∈ call.aclPaths) :
    a.gate.editable = true ∧ ∃ q scope edits, targetPath c form.path = .ok q ∧
      ApplyRequest.Admitted c u parse a scope edits (.staged form) ∧
      ∃ op ∈ runnableEdits ops q scope edits, OpReaches c ops form.path scope op x := by
  unfold handleApply at hcall
  -- no task, no call
  split at hcall
  · exact nomatch hcall
  cases hjob : applyPermissions u parse a form with
  | error reason =>
    rw [hjob] at hcall
    exact nomatch hcall
  | ok job =>
    rw [hjob] at hcall
    dsimp only at hcall
    split at hcall
    -- a call with ACL paths is not of the POSIX pass, so it belongs to some edit
    · obtain ⟨posix, segs, hactions, hcalls, -⟩ := applyTask_spec c ops job fate
      have hmem : call ∈ posix ++ segs.flatten := hactions ▸ hcall
      rcases List.mem_append.mp hmem with hposix | hstaged
      · rw [aclPaths_of_posix (hcalls.isPosix call hposix)] at hx
        exact nomatch hx
      · have hsegs : segs ≠ [] := by
          rintro rfl
          exact nomatch hstaged
        -- a refused job has no edits
        have haccepted : job.Accepted c := by
          by_contra hnot
          exact hsegs (hcalls.refused hnot).2
        obtain ⟨q, hq⟩ := haccepted.mapped
        obtain ⟨hpath, -, -, -, hbatch, -⟩ := applyPermissions_eq_ok hjob
        obtain ⟨op, hop, hreach⟩ := hcalls.trace.exists_runnable hq hstaged
        have hmember : op ∈ job.batch := by
          unfold runnableEdits at hop
          split at hop
          · exact hop
          · exact List.mem_of_mem_take hop
        rw [hpath] at hq hreach
        exact ⟨gate_of_mem_batch hbatch hmember, q, job.spec.scope, job.batch, hq,
          ⟨fun hbad => not_accepted_of_refusable hjob hbad haccepted, job, hjob, rfl, rfl⟩, op, hop,
          hreach x hx⟩
    · exact nomatch hcall

/-- What an edit of its own edits is reached by the edit. -/
theorem direct_reached (parse : Str → Option (List AclOpSpec)) {form : AclApplyForm}
    {inProgress claimed : Bool} {fate : TaskFate} {call : FsAction} {x : Str}
    (hcall : call ∈ (handleAclApply c ops u a inProgress claimed fate form).actions)
    (hx : x ∈ call.aclPaths) :
    a.gate.editable = true ∧ ∃ q scope edits, targetPath c form.path = .ok q ∧
      ApplyRequest.Admitted c u parse a scope edits (.direct form) ∧
      ∃ op ∈ runnableEdits ops q scope edits, OpReaches c ops form.path scope op x := by
  unfold handleAclApply at hcall
  -- no task, no call
  split at hcall
  · exact nomatch hcall
  cases hjob : aclApply u a form with
  | error reason =>
    rw [hjob] at hcall
    exact nomatch hcall
  | ok job =>
    rw [hjob] at hcall
    dsimp only at hcall
    split at hcall
    · obtain ⟨hopen, hpath⟩ := aclApply_eq_ok hjob
      have hreach := ((aclTask_spec c ops job fate).1 call hcall).2 x hx
      rw [hpath] at hreach
      obtain ⟨q, hq, -⟩ := id hreach
      refine ⟨hopen, q, job.scope, [job.op], hq, ⟨job, hjob, rfl, rfl⟩, job.op, ?_, hreach⟩
      unfold runnableEdits
      split <;> simp
    · exact nomatch hcall

/-- What is edited is reached by an edit of an admitted request, through an open gate. -/
theorem reached_of_action {inProgress claimed : Bool} {fate : TaskFate} {call : FsAction} {x : Str}
    (hcall : call ∈ req.actions c (ops.answering setfacl) u parse a inProgress claimed fate)
    (hx : x ∈ call.aclPaths) :
    a.gate.editable = true ∧ ∃ q scope edits, targetPath c req.path = .ok q ∧
      req.Admitted c u parse a scope edits ∧
      ∃ op ∈ runnableEdits ops q scope edits, OpReaches c ops req.path scope op x := by
  cases req with
  | staged form =>
    have hstaged : call ∈ (handleApply c (ops.answering setfacl) u parse a inProgress claimed fate
        form).actions := hcall
    have h := staged_reached hstaged hx
    simp only [runnableEdits_answering, opReaches_answering] at h
    exact h
  | direct form =>
    have hdirect : call ∈ (handleAclApply c (ops.answering setfacl) u a inProgress claimed fate
        form).actions := hcall
    have h := direct_reached parse hdirect hx
    simp only [runnableEdits_answering, opReaches_answering] at h
    exact h

/-- Nothing befalls the task. -/
def quietFate : TaskFate := ⟨none, fun _ => none⟩

/-- A task without a cancel and a panic is quiet. -/
theorem quietFate_quiet : quietFate.Quiet := ⟨rfl, fun _ => rfl⟩

/-- When nothing befalls the task and `setfacl` takes everything, all that is reached is edited. -/
theorem action_of_reached {q x : Str} {scope : ApplyScope} {edits : List PreparedOp} {op : PreparedOp}
    (hq : targetPath c req.path = .ok q) (hadmitted : req.Admitted c u parse a scope edits)
    (hop : op ∈ runnableEdits ops q scope edits) (hreach : OpReaches c ops req.path scope op x) :
    ∃ call ∈ req.actions c (ops.answering fun _ _ => none) u parse a false true quietFate,
      x ∈ call.aclPaths := by
  cases req with
  | direct form =>
    obtain ⟨job, hjob, rfl, rfl⟩ := hadmitted
    have hself : op = job.op := by
      unfold runnableEdits at hop
      split at hop
      · exact List.mem_singleton.mp hop
      · exact List.mem_singleton.mp (List.mem_of_mem_take hop)
    obtain ⟨call, hcall, hx⟩ := (aclTask_spec c (ops.answering fun _ _ => none) job quietFate).2
      quietFate_quiet x (by rw [(aclApply_eq_ok hjob).2, ← hself]; exact hreach)
    refine ⟨call, ?_, hx⟩
    simp only [ApplyRequest.actions, handleAclApply, hjob]
    exact hcall
  | staged form =>
    obtain ⟨hfine, job, hjob, rfl, rfl⟩ := hadmitted
    obtain ⟨posix, segs, hactions, -, hwhole⟩ :=
      applyTask_spec c (ops.answering fun _ _ => none) job quietFate
    have hpath := (applyPermissions_eq_ok hjob).1
    have hq' : targetPath c job.path = .ok q := by rw [hpath]; exact hq
    have htrace := (hwhole quietFate_quiet (accepted_of_not_refusable hjob hfine)).edits
    -- the edit is one of those that were run
    have hrun : op ∈ job.batch.take segs.length := by
      unfold runnableEdits at hop
      split at hop
      · next hreads =>
        rw [htrace.taken q hq' ⟨fun _ _ => rfl, fun hscope => hreads.resolve_left hscope⟩,
          List.take_length]
        exact hop
      · have hsome : 1 ≤ segs.length := by
          refine List.length_pos_of_ne_nil (htrace.first ?_)
          intro hnil
          rw [hnil] at hop
          exact nomatch hop
        exact (List.take_prefix_take_left hsome).subset hop
    obtain ⟨seg, hseg, hall⟩ := exists_of_forall₂ htrace.all.flip hrun
    obtain ⟨call, hcall, hx⟩ := hall x (by rw [hpath]; exact hreach)
    refine ⟨call, ?_, hx⟩
    simp only [ApplyRequest.actions, handleApply, hjob]
    show call ∈ (applyTask c (ops.answering fun _ _ => none) job quietFate).actions
    rw [hactions]
    exact List.mem_append_right _ (List.mem_flatten.mpr ⟨seg, hseg, hcall⟩)

/-- **ACL writes stay on mounts that allow them** exactly when the edits reach no other mount that does
not. -/
theorem aclWritesAllowed_iff (c : NfsKlldapConfig) (v : MountView) (warn : Share → Str) (ops : FsOps)
    (u : CaseMapping) (parse : Str → Option (List AclOpSpec)) (a : ApplyAnswers) (req : ApplyRequest) :
    AclWritesAllowed c v warn ops u parse a req ↔ ¬ EditsOtherMount c v warn ops u parse a req := by
  constructor
  · rintro hallowed ⟨s, q, scope, edits, hs, hq, hadmitted, op, hop, x, hreach, -, hbad⟩
    obtain ⟨call, hcall, hx⟩ := action_of_reached hq hadmitted hop hreach
    exact hbad (hallowed _ _ _ _ s hs call hcall x hx)
  · intro hother setfacl inProgress claimed fate s hs call hcall x hx
    obtain ⟨hopen, q, scope, edits, hq, hadmitted, op, hop, hreach⟩ := reached_of_action hcall hx
    by_cases hmount : v.mountOf x = v.mountOf q
    · exact (allows_of_gate hs hq hopen).of_mountOf hmount
    · by_contra hbad
      exact hother ⟨s, q, scope, edits, hs, hq, hadmitted, op, hop, x, hreach, hmount, hbad⟩

end Theorem

/-! ### A stick in a share -/

/-- The system on `ext4`, and a `vfat` filesystem on a directory of the share. -/
def stickMounts : MountView where
  content := some
    ("22 1 8:1 / / rw,relatime shared:1 - ext4 /dev/sda1 rw\n".toList ++
      "37 22 8:17 / /export/a/d rw - vfat /dev/sdb1 rw\n".toList)
  probed := fun _ => .capable

/-- An edit of everything below the share. -/
def wholeShareForm : AclApplyForm where
  path := "/srv/a".toList
  op := "set".toList
  typ := "user".toList
  id := "1001".toList
  perms := "rw-".toList
  scope := "all".toList

/-- The filesystem knows the directory; LDAP is not asked. -/
def shareAnswers : ApplyAnswers where
  resolveUser := fun _ _ => none
  resolveGroup := fun _ _ => none
  ownerMeta := none
  nodeMeta := some ⟨0, 0, 0o755, true⟩
  gate := gateOutsideShares

/-- **`setfacl` is run on `vfat`**: the gate is open for the share, and the walk goes on into the
directory that another filesystem is mounted on. -/
theorem not_aclWritesAllowed_stick :
    (aclApplyGate oneShareConfig stickMounts (fun _ => []) "/srv/a".toList).editable = true ∧
      stickMounts.verdictAt "/export/a/d/g".toList = .incapable ∧
      ¬ AclWritesAllowed oneShareConfig stickMounts (fun _ => []) smallTree
        Environment.ascii.toCaseMapping (fun _ => none) shareAnswers (.direct wholeShareForm) := by
  have hverdict : stickMounts.verdictAt "/export/a/d/g".toList = .incapable := by decide +kernel
  have hcall : .setfacl ["/export/a/f".toList, "/export/a/d/g".toList]
      (.set (.user 1001) ⟨true, true, false⟩ false) ∈
      (ApplyRequest.direct wholeShareForm).actions oneShareConfig
        (smallTree.answering smallTree.setfacl) Environment.ascii.toCaseMapping (fun _ => none)
        (shareAnswers.gatedBy oneShareConfig stickMounts (fun _ => []) "/srv/a".toList) false true
        quietFate := by decide +kernel
  refine ⟨by decide +kernel, hverdict, fun h => ?_⟩
  obtain ⟨s, hs⟩ : ∃ s, bestShareFor oneShareConfig "/srv/a".toList = some s :=
    Option.isSome_iff_exists.mp (by decide +kernel)
  rcases h _ _ _ _ s hs _ hcall "/export/a/d/g".toList (by simp [FsAction.aclPaths]) with
    hcapable | ⟨hinconclusive, -⟩
  · rw [hverdict] at hcapable
    exact nomatch hcapable
  · rw [hverdict] at hinconclusive
    exact nomatch hinconclusive

end NfsKlldap
