import NfsKlldap.Web.ApplyTask

/-! # One apply at a time (`permission_tree.rs`)

Both endpoints share one slot, which holds the progress of the last apply. A handler looks at the slot
when it starts, prepares its job, claims the slot under one lock, and spawns a task that sets `finished`
in its progress on every way out, a drop guard included. Handlers, tasks and cancels interleave freely,
and so a step is what one of them does in one go.

* `ApplySlots.Step` lists the steps;
* `ApplySlots.Held` is the invariant: an apply that was claimed and is not over is the one in the slot;
* **`oneApply`** reads the safety of the slot off it, for any number of requests. -/

namespace NfsKlldap

open Text

variable {ι : Type*}

/-- What a spawned task works with. -/
inductive EditJob
  | permissions (job : ApplyJob)
  | acl (job : AclJob)

/-- What the task of a job does. -/
def EditJob.task (c : NfsKlldapConfig) (ops : FsOps) (fate : TaskFate) : EditJob → TaskRun
  | .permissions job => applyTask c ops job fate
  | .acl job => aclTask c ops job fate

/-- The handler of a request up to the claim of the slot. -/
def ApplyRequest.prepare (u : CaseMapping) (parse : Str → Option (List AclOpSpec)) (a : ApplyAnswers) :
    ApplyRequest → Except ApplyRefusal EditJob
  | .staged form => (applyPermissions u parse a form).map .permissions
  | .direct form => (aclApply u a form).map .acl

/-- Where a request stands. -/
inductive RequestPhase
  /-- It was not made yet. -/
  | absent
  | arrived (request : ApplyRequest)
  /-- The first look at the slot found no apply in flight. -/
  | unhindered (request : ApplyRequest)
  /-- On its way to the slot. -/
  | prepared (job : EditJob)
  /-- The slot is claimed, the task is not spawned yet. -/
  | claimed (job : EditJob)
  /-- The task runs, with these calls still to be made. -/
  | running (rest : List FsAction)
  /-- The task has set `finished`, and its drop guard is still to run. -/
  | finishing
  | ended
  | busy
  | refused (reason : ApplyRefusal)
  /-- The client is gone, and the handler with it. -/
  | left

/-- The request has claimed the slot. -/
def RequestPhase.HasClaimed : RequestPhase → Prop
  | .claimed _ | .running _ | .finishing | .ended => True
  | _ => False

/-- The request holds the slot: its task is still to end. -/
def RequestPhase.AtWork : RequestPhase → Prop
  | .claimed _ | .running _ => True
  | _ => False

/-- The handler is on its way to the slot. -/
def RequestPhase.OnItsWay : RequestPhase → Prop
  | .arrived _ | .unhindered _ | .prepared _ => True
  | _ => False

/-- A handler at work has claimed the slot. -/
theorem RequestPhase.AtWork.hasClaimed {phase : RequestPhase} (h : phase.AtWork) :
    phase.HasClaimed := by
  cases phase with
  | claimed _ => trivial
  | running _ => trivial
  | absent | arrived _ | unhindered _ | prepared _ | finishing | ended | busy | refused _ | left =>
    exact h.elim

/-- A handler on its way has not. -/
theorem RequestPhase.OnItsWay.not_hasClaimed {phase : RequestPhase} (h : phase.OnItsWay) :
    ¬ phase.HasClaimed := by
  cases phase with
  | arrived _ | unhindered _ | prepared _ => exact fun hclaimed => hclaimed
  | absent | claimed _ | running _ | finishing | ended | busy | refused _ | left => exact h.elim

/-- The flags of an `ApplyProgress`. -/
structure ApplyFlags where
  finished : Bool := false
  cancelled : Bool := false

/-- The slot, the progress of every request, and the calls so far. -/
structure ApplySlots (ι : Type*) where
  slot : Option ι
  flags : ι → ApplyFlags
  phase : ι → RequestPhase
  calls : List (ι × FsAction)

namespace ApplySlots

/-- No request was made yet. -/
def initial : ApplySlots ι := ⟨none, fun _ => {}, fun _ => .absent, []⟩

/-- An apply is in flight: its progress is in the slot and is not finished. -/
def applyInProgress (s : ApplySlots ι) : Bool := s.slot.any fun i => !(s.flags i).finished

/-- The claim, under one lock. -/
def tryClaimApplySlot (s : ApplySlots ι) (i : ι) : ApplySlots ι × Bool :=
  if s.applyInProgress then (s, false) else ({ s with slot := some i }, true)

variable [DecidableEq ι]

/-- A request moves to a phase. -/
def moveTo (s : ApplySlots ι) (i : ι) (phase : RequestPhase) : ApplySlots ι :=
  { s with phase := Function.update s.phase i phase }

/-- `finished.store(true)` -/
def finish (s : ApplySlots ι) (i : ι) : ApplySlots ι :=
  { s with flags := Function.update s.flags i { s.flags i with finished := true } }

/-- `cancelled.store(true)` -/
def cancel (s : ApplySlots ι) (i : ι) : ApplySlots ι :=
  { s with flags := Function.update s.flags i { s.flags i with cancelled := true } }

/-- The claim of a handler: without the slot it says that another apply is running. -/
def claim (s : ApplySlots ι) (i : ι) (job : EditJob) : ApplySlots ι :=
  let r := s.tryClaimApplySlot i
  r.1.moveTo i (if r.2 then .claimed job else .busy)

/-- **What can happen next.** A task works on the tree as it finds it, and any of its looks at the flag
may see a cancel, any of its blocking calls may panic. -/
inductive Step : ApplySlots ι → ApplySlots ι → Prop
  | arrive {s : ApplySlots ι} {i : ι} (request : ApplyRequest) (h : s.phase i = .absent) :
    Step s (s.moveTo i (.arrived request))
  | check {s : ApplySlots ι} {i : ι} {request : ApplyRequest} (h : s.phase i = .arrived request) :
    Step s (s.moveTo i (if s.applyInProgress then .busy else .unhindered request))
  | prepare {s : ApplySlots ι} {i : ι} {request : ApplyRequest} (u : CaseMapping)
    (parse : Str → Option (List AclOpSpec)) (a : ApplyAnswers)
    (h : s.phase i = .unhindered request) :
    Step s (s.moveTo i
      (match request.prepare u parse a with
      | .error reason => .refused reason
      | .ok job => .prepared job))
  | leave {s : ApplySlots ι} {i : ι} (h : (s.phase i).OnItsWay) : Step s (s.moveTo i .left)
  | claim {s : ApplySlots ι} {i : ι} {job : EditJob} (h : s.phase i = .prepared job) :
    Step s (s.claim i job)
  | spawn {s : ApplySlots ι} {i : ι} {job : EditJob} (c : NfsKlldapConfig) (ops : FsOps)
    (fate : TaskFate) (h : s.phase i = .claimed job) :
    Step s (s.moveTo i (.running (job.task c ops fate).actions))
  | call {s : ApplySlots ι} {i : ι} {action : FsAction} {rest : List FsAction}
    (h : s.phase i = .running (action :: rest)) :
    Step s ({ s with calls := s.calls ++ [(i, action)] }.moveTo i (.running rest))
  /-- A way out of the task: every one of them sets the flag. -/
  | finish {s : ApplySlots ι} {i : ι} (h : s.phase i = .running []) :
    Step s ((s.finish i).moveTo i .finishing)
  /-- The task panics, and the drop guard sets the flag. -/
  | panic {s : ApplySlots ι} {i : ι} {rest : List FsAction} (h : s.phase i = .running rest) :
    Step s ((s.finish i).moveTo i .ended)
  /-- The drop guard of a task that has set the flag. -/
  | drop {s : ApplySlots ι} {i : ι} (h : s.phase i = .finishing) :
    Step s ((s.finish i).moveTo i .ended)
  /-- `/cancel-apply` reaches the progress in the slot. -/
  | cancel {s : ApplySlots ι} {i : ι} (h : s.slot = some i) : Step s (s.cancel i)

/-- The states of any interleaving. -/
def Reachable (s : ApplySlots ι) : Prop := Relation.ReflTransGen Step initial s

/-- **The invariant**: whoever is at work is in the slot and is not finished; whoever is through with it
is finished; and only those who have claimed the slot are in it or make calls. -/
structure Held (s : ApplySlots ι) : Prop where
  fresh : ∀ i, ¬ (s.phase i).HasClaimed → (s.flags i).finished = false
  atWork : ∀ i, (s.phase i).AtWork → s.slot = some i ∧ (s.flags i).finished = false
  through : ∀ i, (s.phase i).HasClaimed → ¬ (s.phase i).AtWork → (s.flags i).finished = true
  callers : ∀ x ∈ s.calls, (s.phase x.1).HasClaimed
  holder : ∀ i, s.slot = some i → (s.phase i).HasClaimed

/-! ## One step -/

/-- The request that moves is in its new phase. -/
@[simp] theorem phase_moveTo_self (s : ApplySlots ι) (i : ι) (phase : RequestPhase) :
    (s.moveTo i phase).phase i = phase := by simp [moveTo]

/-- The others stay where they are. -/
theorem phase_moveTo_of_ne (s : ApplySlots ι) {i j : ι} (phase : RequestPhase) (h : j ≠ i) :
    (s.moveTo i phase).phase j = s.phase j := by simp [moveTo, h]

/-- A move leaves the flags. -/
@[simp] theorem flags_moveTo (s : ApplySlots ι) (i : ι) (phase : RequestPhase) :
    (s.moveTo i phase).flags = s.flags := rfl

/-- Finishing one progress finishes no other. -/
theorem finished_finish (s : ApplySlots ι) (i j : ι) :
    ((s.finish i).flags j).finished = if j = i then true else (s.flags j).finished := by
  by_cases h : j = i <;> simp [finish, h]

/-- A cancel finishes nothing. -/
@[simp] theorem finished_cancel (s : ApplySlots ι) (i j : ι) :
    ((s.cancel i).flags j).finished = (s.flags j).finished := by
  by_cases h : j = i <;> simp [cancel, h]

/-- A move that neither takes nor gives back the slot. -/
theorem Held.moveTo {s : ApplySlots ι} (h : s.Held) {i : ι} {phase : RequestPhase}
    (hwork : phase.AtWork ↔ (s.phase i).AtWork)
    (hclaimed : phase.HasClaimed ↔ (s.phase i).HasClaimed) : (s.moveTo i phase).Held := by
  have hworks : ∀ j, ((s.moveTo i phase).phase j).AtWork ↔ (s.phase j).AtWork := by
    intro j
    by_cases hj : j = i
    · rw [hj, phase_moveTo_self, hwork]
    · rw [phase_moveTo_of_ne s phase hj]
  have hclaims : ∀ j, ((s.moveTo i phase).phase j).HasClaimed ↔ (s.phase j).HasClaimed := by
    intro j
    by_cases hj : j = i
    · rw [hj, phase_moveTo_self, hclaimed]
    · rw [phase_moveTo_of_ne s phase hj]
  refine ⟨fun j hj => h.fresh j fun hold => hj ((hclaims j).mpr hold),
    fun j hj => h.atWork j ((hworks j).mp hj), fun j hj hnot => ?_, fun x hx => ?_, fun j hj => ?_⟩
  · exact h.through j ((hclaims j).mp hj) fun hat => hnot ((hworks j).mpr hat)
  · exact (hclaims x.1).mpr (h.callers x hx)
  · exact (hclaims j).mpr (h.holder j hj)

/-- A request without the slot moves on without it. -/
theorem Held.moveOn {s : ApplySlots ι} (h : s.Held) {i : ι} {phase : RequestPhase}
    (hi : ¬ (s.phase i).HasClaimed) (hnew : ¬ phase.HasClaimed) : (s.moveTo i phase).Held :=
  h.moveTo (iff_of_false (mt RequestPhase.AtWork.hasClaimed hnew)
    (mt RequestPhase.AtWork.hasClaimed hi)) (iff_of_false hnew hi)

omit [DecidableEq ι] in
/-- A request with the slot makes a call. -/
theorem Held.call {s : ApplySlots ι} (h : s.Held) {i : ι} (hi : (s.phase i).HasClaimed)
    (action : FsAction) : { s with calls := s.calls ++ [(i, action)] }.Held := by
  refine ⟨h.fresh, h.atWork, h.through, fun x hx => ?_, h.holder⟩
  rcases List.mem_append.mp hx with hold | hnew
  · exact h.callers x hold
  · rw [List.mem_singleton.mp hnew]
    exact hi

/-- The flag is set, and the request is through with the slot. -/
theorem Held.finish {s : ApplySlots ι} (h : s.Held) {i : ι} {phase : RequestPhase}
    (hclaimed : phase.HasClaimed) (hwork : ¬ phase.AtWork) :
    ((s.finish i).moveTo i phase).Held := by
  have hclaims : ∀ j, (s.phase j).HasClaimed → (((s.finish i).moveTo i phase).phase j).HasClaimed := by
    intro j hj
    by_cases hji : j = i
    · rw [hji, phase_moveTo_self]
      exact hclaimed
    · rw [phase_moveTo_of_ne _ phase hji]
      exact hj
  refine ⟨fun j hj => ?_, fun j hj => ?_, fun j hj hnot => ?_,
    fun x hx => hclaims x.1 (h.callers x hx), fun j hj => hclaims j (h.holder j hj)⟩
  · by_cases hji : j = i
    · rw [hji, phase_moveTo_self] at hj
      exact absurd hclaimed hj
    · rw [phase_moveTo_of_ne _ phase hji] at hj
      rw [flags_moveTo, finished_finish, if_neg hji, h.fresh j hj]
  · by_cases hji : j = i
    · rw [hji, phase_moveTo_self] at hj
      exact absurd hj hwork
    · rw [phase_moveTo_of_ne _ phase hji] at hj
      obtain ⟨hslot, hflag⟩ := h.atWork j hj
      exact ⟨hslot, by rw [flags_moveTo, finished_finish, if_neg hji, hflag]⟩
  · by_cases hji : j = i
    · rw [flags_moveTo, finished_finish, if_pos hji]
    · rw [phase_moveTo_of_ne _ phase hji] at hj hnot
      rw [flags_moveTo, finished_finish, if_neg hji, h.through j hj hnot]

omit [DecidableEq ι] in
/-- When no apply is in flight, nobody is at work. -/
theorem Held.idle {s : ApplySlots ι} (h : s.Held) (hfree : s.applyInProgress = false) (i : ι) :
    ¬ (s.phase i).AtWork := by
  intro hi
  obtain ⟨hslot, hflag⟩ := h.atWork i hi
  simp [applyInProgress, hslot, hflag] at hfree

/-- **The claim** of a request that is on its way: it takes the slot, or changes nothing. -/
theorem Held.claim {s : ApplySlots ι} (h : s.Held) {i : ι} {job : EditJob}
    (hi : s.phase i = .prepared job) : (s.claim i job).Held := by
  have hnot : ¬ (s.phase i).HasClaimed := by
    rw [hi]
    exact id
  unfold ApplySlots.claim tryClaimApplySlot
  cases hbusy : s.applyInProgress with
  | true => exact h.moveOn hnot id
  | false =>
    dsimp only
    refine ⟨fun j hj => ?_, fun j hj => ?_, fun j hj hwork => ?_, fun x hx => ?_, fun j hj => ?_⟩
    · by_cases hji : j = i
      · rw [hji, phase_moveTo_self] at hj
        exact absurd trivial hj
      · rw [phase_moveTo_of_ne _ _ hji] at hj
        exact h.fresh j hj
    · by_cases hji : j = i
      · rw [hji]
        exact ⟨rfl, h.fresh i hnot⟩
      · rw [phase_moveTo_of_ne _ _ hji] at hj
        exact absurd hj (h.idle hbusy j)
    · by_cases hji : j = i
      · rw [hji, phase_moveTo_self] at hwork
        exact absurd trivial hwork
      · rw [phase_moveTo_of_ne _ _ hji] at hj hwork
        exact h.through j hj hwork
    · by_cases hji : x.1 = i
      · rw [hji, phase_moveTo_self]
        trivial
      · rw [phase_moveTo_of_ne _ _ hji]
        exact h.callers x hx
    · rw [← Option.some.inj hj, phase_moveTo_self]
      trivial

/-- A step keeps the invariant. -/
theorem Held.step {s s' : ApplySlots ι} (h : s.Held) (hstep : Step s s') : s'.Held := by
  -- the slot changes hands in three ways only: claimed, finished, given up
  cases hstep with
  | arrive request hi => exact h.moveOn (by rw [hi]; exact id) id
  | check hi =>
    refine h.moveOn (by rw [hi]; exact id) ?_
    split <;> exact id
  | prepare u parse a hi =>
    refine h.moveOn (by rw [hi]; exact id) ?_
    split <;> exact id
  | leave hi => exact h.moveOn hi.not_hasClaimed id
  | claim hi => exact h.claim hi
  | spawn c ops fate hi => exact h.moveTo (by rw [hi]; exact Iff.rfl) (by rw [hi]; exact Iff.rfl)
  | call hi =>
    refine (h.call (by rw [hi]; trivial) _).moveTo ?_ ?_
    · show True ↔ (s.phase _).AtWork
      rw [hi]
      exact Iff.rfl
    · show True ↔ (s.phase _).HasClaimed
      rw [hi]
      exact Iff.rfl
  | finish hi => exact h.finish trivial fun hat => hat
  | panic hi => exact h.finish trivial fun hat => hat
  | drop hi => exact h.finish trivial fun hat => hat
  | cancel hi =>
    refine ⟨fun j hj => ?_, fun j hj => ?_, fun j hj hnot => ?_, h.callers, h.holder⟩
    · rw [finished_cancel]
      exact h.fresh j hj
    · rw [finished_cancel]
      exact h.atWork j hj
    · rw [finished_cancel]
      exact h.through j hj hnot

/-- **In every reachable state the slot is held by whoever works.** -/
theorem Reachable.held {s : ApplySlots ι} (h : s.Reachable) : s.Held := by
  induction h with
  | refl =>
    exact ⟨fun _ _ => rfl, fun _ hi => hi.elim, fun _ hi => hi.elim, fun x hx => (nomatch hx),
      fun i hi => (nomatch hi)⟩
  | tail _ hstep ih => exact ih.step hstep

/-! ## Safety -/

/-- A request has claimed the slot, and its progress is not finished. -/
def Unfinished (s : ApplySlots ι) (i : ι) : Prop :=
  (s.phase i).HasClaimed ∧ (s.flags i).finished = false

/-- **One apply at a time.** -/
structure OneApply (s : ApplySlots ι) : Prop where
  /-- At most one apply is unfinished, and it is the one in the slot. -/
  single : ∀ i j, s.Unfinished i → s.Unfinished j → i = j
  slot : ∀ i, s.Unfinished i → s.slot = some i
  /-- A claim that succeeds replaces no unfinished apply, and one that fails changes nothing. -/
  claimed : ∀ i, (s.tryClaimApplySlot i).2 = true → ∀ j, ¬ s.Unfinished j
  failed : ∀ i, (s.tryClaimApplySlot i).2 = false → (s.tryClaimApplySlot i).1 = s
  /-- A request that has not claimed the slot has changed nothing. -/
  unchanged : ∀ i, ¬ (s.phase i).HasClaimed → ∀ action, (i, action) ∉ s.calls
  /-- A task that still has calls to make is the unfinished one. -/
  working : ∀ i rest, s.phase i = .running rest → s.Unfinished i
  /-- A task that has ended has given the slot back: with no apply unfinished, the next claim succeeds. -/
  released : ∀ i, s.phase i = .ended → ¬ s.Unfinished i
  free : (∀ i, ¬ s.Unfinished i) → ∀ i, (s.tryClaimApplySlot i).2 = true

omit [DecidableEq ι] in
/-- A request that has claimed and is not finished is the one in the slot. -/
theorem Held.slot_of_unfinished {s : ApplySlots ι} (h : s.Held) {i : ι} (hi : s.Unfinished i) :
    s.slot = some i := by
  by_cases hwork : (s.phase i).AtWork
  · exact (h.atWork i hwork).1
  · have hfinished := h.through i hi.1 hwork
    rw [hi.2] at hfinished
    exact nomatch hfinished

omit [DecidableEq ι] in
/-- An apply is in flight exactly when some request is unfinished. -/
theorem Held.applyInProgress_iff {s : ApplySlots ι} (h : s.Held) :
    s.applyInProgress = true ↔ ∃ i, s.Unfinished i := by
  constructor
  · intro hbusy
    obtain ⟨i, hslot, hflag⟩ := Option.any_eq_true _ _ |>.mp hbusy
    exact ⟨i, h.holder i hslot, by simpa using hflag⟩
  · rintro ⟨i, hi⟩
    rw [applyInProgress, h.slot_of_unfinished hi, Option.any_some, hi.2]
    rfl

/-- **One apply at a time**, in every interleaving of requests, tasks and cancels. -/
theorem oneApply {s : ApplySlots ι} (h : s.Reachable) : s.OneApply := by
  have hheld := h.held
  refine ⟨fun i j hi hj => ?_, fun i hi => hheld.slot_of_unfinished hi, fun i hclaim j hj => ?_,
    fun i hclaim => ?_, fun i hi action hmem => hi (hheld.callers _ hmem), fun i rest hi => ?_,
    fun i hi hun => ?_, fun hfree i => ?_⟩
  -- two at work would both hold the slot
  · have hslot := hheld.slot_of_unfinished hi
    rw [hheld.slot_of_unfinished hj] at hslot
    exact (Option.some.inj hslot).symm
  · rw [tryClaimApplySlot, if_pos (hheld.applyInProgress_iff.mpr ⟨j, hj⟩)] at hclaim
    exact nomatch hclaim
  · unfold tryClaimApplySlot at hclaim ⊢
    split
    · rfl
    · next hidle =>
      rw [if_neg hidle] at hclaim
      exact nomatch hclaim
  · have hwork : (s.phase i).AtWork := by
      rw [hi]
      trivial
    exact ⟨hwork.hasClaimed, (hheld.atWork i hwork).2⟩
  -- a request that is through with an unfinished task is none
  · have hfinished := hheld.through i hun.1 (by rw [hi]; exact id)
    rw [hun.2] at hfinished
    exact nomatch hfinished
  · have hidle : ¬ s.applyInProgress = true := fun hbusy =>
      (hheld.applyInProgress_iff.mp hbusy).elim hfree
    rw [tryClaimApplySlot, if_neg hidle]

/-! ### Two requests at once -/

/-- The owner and the mode of a share. -/
def plainForm : ApplyForm where
  path := "/srv/a".toList
  ownerUser := []
  ownerGroup := []
  mode := "755".toList
  ownerUserUid := "0".toList
  ownerGroupGid := "0".toList

/-- Nobody is asked. -/
def noAnswers : ApplyAnswers where
  resolveUser := fun _ _ => none
  resolveGroup := fun _ _ => none
  ownerMeta := none
  nodeMeta := none
  gate := gateOutsideShares

/-- A change of one node. -/
def plainJob : ApplyJob where
  path := "/srv/a".toList
  uid := 0
  gid := 0
  spec := { mode := 0o755, scope := .dirOnly, fileMode := none }
  batch := []

/-- Two requests have passed the first look at the slot. -/
def bothPrepared : ApplySlots Bool where
  slot := none
  flags := fun _ => {}
  phase := fun _ => .prepared (.permissions plainJob)
  calls := []

/-- Two requests can both be prepared. -/
theorem bothPrepared_reachable : bothPrepared.Reachable := by
  have hprepare : (ApplyRequest.staged plainForm).prepare Environment.ascii.toCaseMapping (fun _ => none)
      noAnswers = .ok (.permissions plainJob) := by
    have hjob : (applyPermissions Environment.ascii.toCaseMapping (fun _ => none) noAnswers
        plainForm).toOption = some plainJob := by decide +kernel
    rw [ApplyRequest.prepare, toOption_eq_some_iff.mp hjob]
    rfl
  have harrive := (Relation.ReflTransGen.refl (r := Step) (a := initial)).tail
    (Step.arrive (i := false) (.staged plainForm) rfl) |>.tail
    (Step.arrive (i := true) (.staged plainForm) rfl)
  have hcheck := (harrive.tail (Step.check (i := false) rfl)).tail (Step.check (i := true) rfl)
  have hready := (hcheck.tail (Step.prepare (i := false) Environment.ascii.toCaseMapping (fun _ => none)
    noAnswers rfl)).tail (Step.prepare (i := true) Environment.ascii.toCaseMapping (fun _ => none)
    noAnswers rfl)
  rw [hprepare] at hready
  unfold Reachable
  convert hready using 1
  refine congrArg₂ (fun phase calls => ApplySlots.mk none (fun _ => {}) phase calls) ?_ rfl
  funext i
  cases i <;> rfl

/-- The first claim wins, and its task runs while the other request is turned away. -/
def oneRunning : ApplySlots Bool :=
  ((bothPrepared.claim false (.permissions plainJob)).claim true (.permissions plainJob)).moveTo false
    (.running ((EditJob.permissions plainJob).task oneShareConfig smallTree ⟨none, fun _ => none⟩).actions)

/-- With one task running, the other request is told so. -/
theorem oneApply_oneRunning :
    oneRunning.phase true = .busy ∧ oneRunning.Unfinished false ∧ oneRunning.OneApply := by
  have hreach : oneRunning.Reachable := by
    refine ((bothPrepared_reachable.tail (Step.claim (i := false) rfl)).tail
      (Step.claim (i := true) rfl)).tail (Step.spawn oneShareConfig smallTree _ rfl)
  exact ⟨rfl, ⟨trivial, rfl⟩, oneApply hreach⟩

end ApplySlots

end NfsKlldap
