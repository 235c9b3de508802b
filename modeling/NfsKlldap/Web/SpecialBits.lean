import NfsKlldap.Web.ApplyTask

/-! # Special bits on files

The mode of a form reaches a file on three ways: as the explicit file mode and as the default derived
from the main mode, when a directory is the target, and as the main mode itself, when the target is a
file. The first two are checked for special bits. The third is checked for the setuid bit alone, which is
what a directory may not have.

**`noSpecialBits_iff`**: setgid and sticky reach a regular file exactly when the selected node is one, the
mode has one of the two, and the request gets as far as the `chmod`. -/

namespace NfsKlldap

open Text UnixPath

/-! ## Bits -/

/-- Masking distributes over a union on the right. -/
theorem and_or_left (a b d : UInt32) : a &&& (b ||| d) = a &&& b ||| a &&& d := by
  rw [← UInt32.toBitVec_inj]
  exact BitVec.and_or_distrib_left

/-- Masking distributes over a union on the left. -/
theorem and_or_right (a b d : UInt32) : (a ||| b) &&& d = a &&& d ||| b &&& d := by
  rw [← UInt32.toBitVec_inj]
  exact BitVec.and_or_distrib_right

/-- What has none of the bits of a mask has none of a smaller one. -/
theorem and_eq_zero_of_le {m big small : UInt32} (hle : small = big &&& small) (h : m &&& big = 0) :
    m &&& small = 0 := by
  rw [hle, ← UInt32.and_assoc, h, UInt32.zero_and]

/-- The mode of a directory has a special bit only if the mode of the form has it. -/
theorem dirModeRImpliesX_special {m : UInt32} (h : m &&& 0o4000 = 0) :
    dirModeRImpliesX m &&& 0o4000 = 0 := by
  have hgained : (0o444 : UInt32) >>> 2 &&& 0o4000 = 0 := by decide
  rw [dirModeRImpliesX, and_or_right, h, UInt32.shiftRight_and, UInt32.and_assoc, hgained,
    UInt32.and_zero, UInt32.or_self]

/-! ## What lies below the target -/

/-- A walk of everything below `q` finds something of the type at the path. -/
def FsOps.Finds (ops : FsOps) (q x : Str) (t : FileType) : Prop :=
  ∃ e ∈ visited ((ops.node q).walk none q), e.path = x ∧ e.fileType = t

/-- What is changed is found. -/
theorem mem_visited_of_mem_inScope {ops : FsOps} {q : Str} {opts : ApplyOptions} {e : DirEntry}
    (h : e ∈ inScope opts ((ops.node q).walk opts.scope.maxDepth q)) :
    e ∈ visited ((ops.node q).walk none q) := by
  rw [mem_visited]
  rcases mem_inScope_iff.mp h with
    ⟨ns, hns, hcovers, hpath, hdepth⟩ | ⟨entries, ns, hnode, hns, hcovers, hpath, hdepth⟩
  · exact (FsNode.mem_walk_iff hcovers.not_symlink).mpr (Or.inl ⟨ns, hns, hpath, hdepth, rfl⟩)
  · exact (FsNode.mem_walk_iff hcovers.not_symlink).mpr
      (Or.inr ⟨entries, hnode, ns, hns, hpath, hdepth, rfl⟩)

/-- Only one thing lies at a path. -/
theorem FsOps.Finds.fileType_eq {ops : FsOps} {q x : Str} {t : FileType} (h : ops.Finds q x t)
    {e : DirEntry} (he : e ∈ visited ((ops.node q).walk none q)) (hx : e.path = x) :
    e.fileType = t := by
  obtain ⟨e', he', hpath, rfl⟩ := h
  have heq := List.inj_on_of_nodup_map (FsNode.nodup_walk (ops.wellNamed q)) he he' (hx.trans hpath.symm)
  rw [heq]

/-- With a scope of the node alone, a file that is changed is the node itself. -/
theorem node_eq_file {ops : FsOps} {q : Str} {opts : ApplyOptions} {e : DirEntry}
    (hscope : opts.scope = .dirOnly) (hfile : e.fileType = .file)
    (h : e ∈ inScope opts ((ops.node q).walk opts.scope.maxDepth q)) :
    ops.node q = .file ∧ e.path = q := by
  rcases mem_inScope_iff.mp h with
    ⟨ns, hns, hcovers, hpath, -⟩ | ⟨entries, ns, -, hns, hcovers, -⟩
  · rw [hscope] at hcovers
    rw [hcovers.1] at hns hpath
    rw [hfile] at hns
    generalize ops.node q = node at hns
    cases hns with
    | file => exact ⟨rfl, hpath⟩
    | under hns => exact absurd rfl hns.ne_nil
  · rw [hscope] at hcovers
    exact absurd hcovers.1 hns.ne_nil

/-! ## The theorem -/

/-- **No special bits**: whatever befalls the request, no file gets setuid, setgid or sticky, and no
directory setuid. -/
def NoSpecialBits (c : NfsKlldapConfig) (ops : FsOps) (u : CaseMapping)
    (parse : Str → Option (List AclOpSpec)) (a : ApplyAnswers) (form : ApplyForm) : Prop :=
  ∀ inProgress claimed fate q, targetPath c form.path = .ok q → ∀ x m,
    .chmod x m ∈ (handleApply c ops u parse a inProgress claimed fate form).actions →
      (ops.Finds q x .file → m &&& 0o7000 = 0) ∧ (ops.Finds q x .dir → m &&& 0o4000 = 0)

/-- The form gives setgid or sticky to a file: nothing is wrong with it otherwise, the selected node is a
regular file, and the owner of the form can be set. -/
def SpecialBitsForFile (c : NfsKlldapConfig) (ops : FsOps) (u : CaseMapping)
    (parse : Str → Option (List AclOpSpec)) (a : ApplyAnswers) (form : ApplyForm) : Prop :=
  ¬ Refusable c u parse a form ∧ form.scope a = .dirOnly ∧ form.mainMode &&& 0o3000 ≠ 0 ∧
    ∃ q job, targetPath c form.path = .ok q ∧ ops.node q = .file ∧
      applyPermissions u parse a form = .ok job ∧ ops.chown q job.uid job.gid = none

section Theorem

variable {c : NfsKlldapConfig} {ops : FsOps} {u : CaseMapping}
  {parse : Str → Option (List AclOpSpec)} {a : ApplyAnswers} {form : ApplyForm}

/-- A `chmod` of a request is one of an admitted and accepted job, on an entry in scope. -/
theorem chmod_of_request {inProgress claimed : Bool} {fate : TaskFate} {q x : Str} {m : UInt32}
    (hq : targetPath c form.path = .ok q)
    (h : .chmod x m ∈ (handleApply c ops u parse a inProgress claimed fate form).actions) :
    ∃ job, applyPermissions u parse a form = .ok job ∧ ¬ Refusable c u parse a form ∧
      ∃ e ∈ inScope job.spec.options (job.spec.items ops q), e.path = x ∧
        ops.chown x job.uid job.gid = none ∧ m = entryMode job.spec.mode job.spec.options e := by
  -- a request that is to be refused has no calls
  have hgood : ¬ Refusable c u parse a form := by
    intro hbad
    unfold handleApply at h
    split at h
    · exact nomatch h
    · cases hjob : applyPermissions u parse a form with
      | error reason =>
        rw [hjob] at h
        exact nomatch h
      | ok job =>
        rw [hjob] at h
        dsimp only at h
        split at h
        · have hnone : (applyTask c ops job fate).actions = [] :=
            applyTask_refused (not_accepted_of_refusable hjob hbad)
          rw [ApplyReply.actions, hnone] at h
          exact nomatch h
        · exact nomatch h
  obtain ⟨job, hjob⟩ := exists_job_of_not_refusable hgood
  refine ⟨job, hjob, hgood, ?_⟩
  unfold handleApply at h
  rw [hjob] at h
  split at h
  · exact nomatch h
  dsimp only at h
  split at h
  -- the mode is changed by the pass over the tree
  · obtain ⟨posix, segs, hactions, hcalls, -⟩ := applyTask_spec c ops job fate
    rw [ApplyReply.actions, hactions, List.mem_append] at h
    rw [← (applyPermissions_eq_ok hjob).1] at hq
    rcases h with h | h
    · have hmem := (hcalls.pass q hq).subset h
      rw [ApplyJob.posixCalls, chmod_mem_calls_iff] at hmem
      exact hmem
    · -- the staged edits do not change modes
      obtain ⟨op, -, hedits, -⟩ := hcalls.trace.exists_op h
      exact hedits.elim
  · exact nomatch h

/-- The mode of a file that is changed has special bits only if the file is the node itself. -/
theorem file_mode_special {job : ApplyJob} (hjob : applyPermissions u parse a form = .ok job)
    (hgood : ¬ Refusable c u parse a form) {q : Str} {e : DirEntry}
    (he : e ∈ inScope job.spec.options (job.spec.items ops q)) (hfile : e.fileType = .file) :
    entryMode job.spec.mode job.spec.options e &&& 0o7000 = 0 ∨
      (form.scope a = .dirOnly ∧ form.mainMode &&& 0o3000 ≠ 0 ∧ ops.node q = .file ∧ e.path = q) := by
  obtain ⟨-, hmain, hscope, hfm, -⟩ := applyPermissions_eq_ok hjob
  have hmode : entryMode job.spec.mode job.spec.options e = job.spec.fileMode.getD form.mainMode := by
    rw [entryMode, if_neg (by rw [hfile]; decide), hmain]
    rfl
  rw [hmode]
  rcases explicitFileMode_eq_ok hfm with ⟨hdirOnly, hnone⟩ | ⟨-, fm, hsome, hbits⟩
  · rw [hnone, Option.getD_none]
    have hnode := node_eq_file (hscope.trans hdirOnly) hfile he
    by_cases hspecial : form.mainMode &&& 0o3000 = 0
    · refine Or.inl ?_
      have hsetuid : form.mainMode &&& 0o4000 = 0 := by
        by_contra h
        exact hgood (.setuid h)
      have hsplit : (0o7000 : UInt32) = 0o3000 ||| 0o4000 := by decide
      rw [hsplit, and_or_left, hspecial, hsetuid, UInt32.or_self]
    · exact Or.inr ⟨hdirOnly, hspecial, hnode⟩
  · rw [hsome, Option.getD_some]
    exact Or.inl (and_eq_zero_of_le (by decide) hbits)

/-- The selected file gets the mode of the form as it is. -/
theorem chmod_of_specialBitsForFile {q : Str} {job : ApplyJob} (hgood : ¬ Refusable c u parse a form)
    (hscope : form.scope a = .dirOnly) (hq : targetPath c form.path = .ok q)
    (hnode : ops.node q = .file) (hjob : applyPermissions u parse a form = .ok job)
    (hchown : ops.chown q job.uid job.gid = none) :
    .chmod q form.mainMode ∈
      (handleApply c ops u parse a false true ⟨none, fun _ => none⟩ form).actions := by
  obtain ⟨hpath, hmain, hscope', hfm, -⟩ := applyPermissions_eq_ok hjob
  obtain ⟨posix, segs, hactions, -, hwhole⟩ := applyTask_spec c ops job ⟨none, fun _ => none⟩
  have hrequest : (handleApply c ops u parse a false true ⟨none, fun _ => none⟩ form).actions =
      posix ++ segs.flatten := by
    rw [handleApply, hjob]
    exact hactions
  rw [← hpath] at hq
  -- undisturbed, the pass over the tree is whole
  have hposix : posix = job.posixCalls ops q :=
    (hwhole ⟨rfl, fun _ => rfl⟩ (accepted_of_not_refusable hjob hgood)).pass q hq
  -- the scope of a single node has no mode for files
  have hnone : job.spec.fileMode = none := by
    rcases explicitFileMode_eq_ok hfm with ⟨-, hnone⟩ | ⟨hne, -⟩
    · exact hnone
    · exact absurd hscope hne
  rw [hrequest, List.mem_append]
  refine Or.inl ?_
  rw [hposix, ApplyJob.posixCalls, chmod_mem_calls_iff]
  refine ⟨⟨q, 0, .file⟩, ?_, rfl, hchown, ?_⟩
  · refine mem_inScope_iff.mpr (Or.inl ⟨[], ?_, ?_, rfl, rfl⟩)
    · rw [hnode]
      exact .file
    · show ApplyScope.Covers [] .file job.spec.scope
      rw [hscope', hscope]
      exact ⟨rfl, Or.inr rfl⟩
  · rw [entryMode, if_neg FileType.noConfusion, hmain]
    show _ = job.spec.fileMode.getD _
    rw [hnone]
    rfl

/-- **Special bits never land on files**, unless the target itself is a file and the mode has them. -/
theorem noSpecialBits_iff (c : NfsKlldapConfig) (ops : FsOps) (u : CaseMapping)
    (parse : Str → Option (List AclOpSpec)) (a : ApplyAnswers) (form : ApplyForm) :
    NoSpecialBits c ops u parse a form ↔ ¬ SpecialBitsForFile c ops u parse a form := by
  constructor
  -- the file itself is found under the path, and gets the mode of the form
  · rintro hnone ⟨hgood, hscope, hspecial, q, job, hq, hnode, hjob, hchown⟩
    have hcall := chmod_of_specialBitsForFile hgood hscope hq hnode hjob hchown
    have hfinds : ops.Finds q q .file := by
      refine ⟨⟨q, 0, .file⟩, ?_, rfl, rfl⟩
      rw [hnode]
      exact List.mem_singleton_self _
    have hbits := (hnone false true ⟨none, fun _ => none⟩ q hq q form.mainMode hcall).1 hfinds
    exact hspecial (and_eq_zero_of_le (by decide) hbits)
  -- any other file gets the bits without the special ones, a directory never setuid
  · intro hbad inProgress claimed fate q hq x m hcall
    obtain ⟨job, hjob, hgood, e, he, hpath, hchown, rfl⟩ := chmod_of_request hq hcall
    have hvisited := mem_visited_of_mem_inScope he
    refine ⟨fun hfinds => ?_, fun hfinds => ?_⟩
    · rcases file_mode_special hjob hgood he (hfinds.fileType_eq hvisited hpath) with
        hfree | ⟨hscope, hspecial, hnode, hself⟩
      · exact hfree
      · rw [← hpath, hself] at hchown
        exact absurd ⟨hgood, hscope, hspecial, q, job, hq, hnode, hjob, hchown⟩ hbad
    · have hdir := hfinds.fileType_eq hvisited hpath
      rw [entryMode, if_pos hdir, (applyPermissions_eq_ok hjob).2.1]
      refine dirModeRImpliesX_special ?_
      by_contra h
      exact hgood (.setuid h)

end Theorem

/-! ### A file with setgid -/

/-- A share with one file in it. -/
def fileTree : FsOps := .of .file trivial

/-- A form for the file; the file panel sends no scope. -/
def setgidForm : ApplyForm where
  path := "/srv/a/f".toList
  ownerUser := []
  ownerGroup := []
  mode := "2770".toList
  ownerUserUid := "1000".toList
  ownerGroupGid := "1000".toList

/-- The filesystem knows the file; LDAP and the gate are not asked. -/
def fileAnswers : ApplyAnswers where
  resolveUser := fun _ _ => none
  resolveGroup := fun _ _ => none
  ownerMeta := none
  nodeMeta := some ⟨1000, 1000, 0o640, false⟩
  gate := gateOutsideShares

/-- **setgid lands on a file.** -/
theorem not_noSpecialBits_setgidForm :
    .chmod "/export/a/f".toList 0o2770 ∈
        (handleApply oneShareConfig fileTree Environment.ascii.toCaseMapping (fun _ => none)
          fileAnswers false true ⟨none, fun _ => none⟩ setgidForm).actions ∧
      fileTree.Finds "/export/a/f".toList "/export/a/f".toList .file ∧
      ¬ NoSpecialBits oneShareConfig fileTree Environment.ascii.toCaseMapping (fun _ => none)
        fileAnswers setgidForm := by
  have hcall : .chmod "/export/a/f".toList 0o2770 ∈
      (handleApply oneShareConfig fileTree Environment.ascii.toCaseMapping (fun _ => none)
        fileAnswers false true ⟨none, fun _ => none⟩ setgidForm).actions := by decide +kernel
  have hfinds : fileTree.Finds "/export/a/f".toList "/export/a/f".toList .file :=
    ⟨_, List.mem_singleton_self _, rfl, rfl⟩
  have hq : (targetPath oneShareConfig setgidForm.path).toOption = some "/export/a/f".toList := by
    decide +kernel
  refine ⟨hcall, hfinds, fun h => ?_⟩
  exact absurd ((h _ _ _ _ (toOption_eq_some_iff.mp hq) _ _ hcall).1 hfinds) (by decide)

end NfsKlldap
