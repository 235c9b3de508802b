import Mathlib

/-! # The recycle latch of the WebUI (`try_schedule_service_recycle`)

A save or a restart button asks the supervisor for a recycle by a delayed signal: SIGHUP for a
graceful apply of the shares, SIGUSR1 for a full restart. `restart_requested` holds the kind in
flight. The task that took the latch sends the signal, waits until the supervisor touches the marker
file or a timeout elapses, and lets go of the latch. A full restart that finds a shares apply in
flight upgrades the latch and sends a signal of its own; any other request that finds the latch taken
is dropped.

Tasks, the clock and the supervisor interleave freely. A dropped request relies on a signal that is
still to come, and the latch is held on after the signal has gone out: **`recycle_covered`** says
that no request is lost in a run in which every dropped one finds such a signal. -/

namespace NfsKlldap

/-- Which supervisor recycle a caller wants. -/
inductive RecycleKind where
  /-- SIGHUP: Ganesha rereads its exports. -/
  | sharesApply
  /-- SIGUSR1: every service restarts. -/
  | fullRestart
  deriving DecidableEq, Repr

/-- A signal does what a request asks for: the full recycle is a strict superset. -/
def RecycleKind.covers : RecycleKind → RecycleKind → Bool
  | .fullRestart, _ => true
  | .sharesApply, kind => kind = .sharesApply

/-- A recycle covers its own kind. -/
@[simp] theorem RecycleKind.covers_self (kind : RecycleKind) : kind.covers kind = true := by
  cases kind <;> rfl

/-- What becomes of a request. -/
inductive Scheduling where
  /-- The request takes the latch. -/
  | latched
  /-- A full restart upgrades a shares apply in flight. -/
  | escalated
  /-- The latch swallows the request. -/
  | deduped
  deriving DecidableEq, Repr

/-- The decision under the lock, from the kind in flight and the kind requested. -/
def trySchedule : Option RecycleKind → RecycleKind → Scheduling
  | none, _ => .latched
  | some .sharesApply, .fullRestart => .escalated
  | _, _ => .deduped

/-- The delay in front of a signal and the longest wait for the marker. -/
structure RecycleTiming where
  delay : Nat
  unlatchTimeout : Nat

/-- A task that a request has spawned. -/
inductive RecycleTask where
  /-- The latch is taken, the marker is not cleared yet. -/
  | arming (kind : RecycleKind)
  /-- The owner of the latch sleeps until its signal is due. -/
  | delaying (kind : RecycleKind) (latchAt due : Nat)
  /-- The owner of the latch has sent its signal and waits for the marker. -/
  | waiting (latchAt deadline : Nat)
  /-- The sender of an upgrade; it never owns the latch. -/
  | escalating (due : Nat)
  deriving DecidableEq, Repr

/-- The signal a task has still to send. -/
def RecycleTask.pending : RecycleTask → Option RecycleKind
  | .arming kind => some kind
  | .delaying kind _ _ => some kind
  | .waiting _ _ => none
  | .escalating _ => some .fullRestart

/-- A kind with a time: a request when it was made, or a signal when it was sent. -/
structure Stamped where
  kind : RecycleKind
  time : Nat
  deriving DecidableEq, Repr

/-- The latch, the marker file and the tasks, with all requests and signals so far. -/
structure Latch where
  clock : Nat
  restartRequested : Option RecycleKind
  /-- Modification time of the marker file. -/
  marker : Option Nat
  tasks : List RecycleTask
  requests : List Stamped
  sent : List Stamped
  deriving DecidableEq, Repr

namespace Latch

/-- Nothing was requested yet. -/
def initial : Latch := ⟨0, none, none, [], [], []⟩

/-- A call of `try_schedule_service_recycle` up to the spawn of its task. -/
def request (t : RecycleTiming) (kind : RecycleKind) (s : Latch) : Latch :=
  let s' := { s with requests := ⟨kind, s.clock⟩ :: s.requests }
  match trySchedule s.restartRequested kind with
  | .latched => { s' with restartRequested := some kind, tasks := .arming kind :: s.tasks }
  | .escalated =>
    { s' with
      restartRequested := some .fullRestart
      tasks := .escalating (s.clock + t.delay) :: s.tasks }
  | .deduped => s'

/-- The owner of the latch clears the marker and goes to sleep. -/
def arm (t : RecycleTiming) (kind : RecycleKind) (s : Latch) : Latch :=
  { s with
    marker := none
    tasks := .delaying kind s.clock (s.clock + t.delay) :: s.tasks.erase (.arming kind) }

/-- The owner of the latch sends its signal. One that does not reach the supervisor releases the
latch at once. -/
def send (t : RecycleTiming) (delivered : Bool) (kind : RecycleKind) (latchAt due : Nat)
    (s : Latch) : Latch :=
  let rest := s.tasks.erase (.delaying kind latchAt due)
  if !delivered then { s with restartRequested := none, tasks := rest }
  else
    { s with
      sent := ⟨kind, s.clock⟩ :: s.sent
      tasks := .waiting latchAt (s.clock + t.unlatchTimeout) :: rest }

/-- An upgrade sends its signal. -/
def sendEscalated (due : Nat) (s : Latch) : Latch :=
  { s with
    sent := ⟨.fullRestart, s.clock⟩ :: s.sent
    tasks := s.tasks.erase (.escalating due) }

/-- The supervisor has completed a recycle since `latchAt`. -/
def markerIsFresh (s : Latch) (latchAt : Nat) : Bool := s.marker.any fun mtime => latchAt ≤ mtime

/-- The owner lets go of the latch. -/
def unlatch (latchAt deadline : Nat) (s : Latch) : Latch :=
  { s with restartRequested := none, tasks := s.tasks.erase (.waiting latchAt deadline) }

/-- What can happen between two requests, with every signal deliverable. -/
inductive Step (t : RecycleTiming) : Latch → Latch → Prop where
  | tick (s : Latch) (n : Nat) : Step t s { s with clock := s.clock + n }
  | arm {s : Latch} {kind : RecycleKind} (h : .arming kind ∈ s.tasks) : Step t s (s.arm t kind)
  | send {s : Latch} (kind : RecycleKind) (latchAt due : Nat)
    (h : .delaying kind latchAt due ∈ s.tasks) (hdue : due ≤ s.clock) :
    Step t s (s.send t true kind latchAt due)
  | sendEscalated {s : Latch} {due : Nat} (h : .escalating due ∈ s.tasks) (hdue : due ≤ s.clock) :
    Step t s (s.sendEscalated due)
  /-- The supervisor completes a recycle and touches the marker. -/
  | touch (s : Latch) : Step t s { s with marker := some s.clock }
  | unlatch {s : Latch} {latchAt deadline : Nat} (h : .waiting latchAt deadline ∈ s.tasks)
    (hdone : s.markerIsFresh latchAt = true ∨ deadline ≤ s.clock) :
    Step t s (s.unlatch latchAt deadline)

/-- A run in which every request is `ok` in the state it finds. -/
inductive Run (t : RecycleTiming) (ok : Latch → RecycleKind → Prop) : Latch → Prop where
  | initial : Run t ok initial
  | request {s : Latch} (h : Run t ok s) (kind : RecycleKind) (hok : ok s kind) :
    Run t ok (s.request t kind)
  | step {s s' : Latch} (h : Run t ok s) (hs : Step t s s') : Run t ok s'

/-! ## Covered requests -/

/-- A signal at least as strong was sent no earlier than the request. -/
def Covered (s : Latch) (r : Stamped) : Prop :=
  ∃ sig ∈ s.sent, sig.kind.covers r.kind = true ∧ r.time ≤ sig.time

/-- A signal at least as strong is still to be sent. -/
def Awaited (s : Latch) (kind : RecycleKind) : Prop :=
  ∃ task ∈ s.tasks, ∃ sig, task.pending = some sig ∧ sig.covers kind = true

/-- The request is not swallowed, or it is swallowed while a signal for it is on its way. -/
def Heeds (s : Latch) (kind : RecycleKind) : Prop :=
  trySchedule s.restartRequested kind ≠ .deduped ∨ s.Awaited kind

/-- **No lost request**: a signal for every request was sent since, or is on its way. -/
def NoneLost (s : Latch) : Prop := ∀ r ∈ s.requests, s.Covered r ∨ s.Awaited r.kind

/-- Whether a request is covered is decidable. -/
instance (s : Latch) (r : Stamped) : Decidable (s.Covered r) :=
  inferInstanceAs (Decidable (∃ sig ∈ s.sent, _))

/-- Whether a kind is awaited is decidable. -/
instance (s : Latch) (kind : RecycleKind) : Decidable (s.Awaited kind) :=
  decidable_of_iff (∃ task ∈ s.tasks, (task.pending.any fun sig => sig.covers kind) = true) (by
    simp [Awaited, Option.any_eq_true])

/-- What a step does to requests and signals: a signal on its way stays on its way, or goes out
now. -/
structure Progress (s s' : Latch) : Prop where
  clock : s.clock ≤ s'.clock
  requests : s'.requests = s.requests
  sent : s.sent ⊆ s'.sent
  pending : ∀ task ∈ s.tasks, ∀ sig, task.pending = some sig →
    (∃ task' ∈ s'.tasks, task'.pending = some sig) ∨ ⟨sig, s.clock⟩ ∈ s'.sent

/-- A task that takes the place of another one and has the same signal to send. -/
theorem pending_of_replaced {tasks : List RecycleTask} {old new task : RecycleTask}
    {sig : RecycleKind} (hsame : new.pending = old.pending) (hmem : task ∈ tasks)
    (hsig : task.pending = some sig) :
    ∃ task' ∈ new :: tasks.erase old, task'.pending = some sig := by
  by_cases heq : task = old
  · exact ⟨new, List.mem_cons_self, by rw [hsame, ← heq, hsig]⟩
  · exact ⟨task, List.mem_cons_of_mem _ ((List.mem_erase_of_ne heq).mpr hmem), hsig⟩

/-- Every step makes progress. -/
theorem Step.progress {t : RecycleTiming} {s s' : Latch} (h : Step t s s') : Progress s s' := by
  cases h with
  | tick n =>
    exact ⟨Nat.le_add_right _ _, rfl, List.Subset.refl _,
      fun task hm sig hs => Or.inl ⟨task, hm, hs⟩⟩
  | touch => exact ⟨le_rfl, rfl, List.Subset.refl _, fun task hm sig hs => Or.inl ⟨task, hm, hs⟩⟩
  | arm hmem =>
    exact ⟨le_rfl, rfl, List.Subset.refl _,
      fun task hm sig hs => Or.inl (pending_of_replaced rfl hm hs)⟩
  | send kind latchAt due hmem hdue =>
    refine ⟨le_rfl, rfl, List.subset_cons_self _ _, fun task hm sig hs => ?_⟩
    -- the task that sends is done, the others are still pending
    by_cases heq : task = .delaying kind latchAt due
    · subst heq
      cases hs
      exact Or.inr List.mem_cons_self
    · exact Or.inl ⟨task, List.mem_cons_of_mem _ ((List.mem_erase_of_ne heq).mpr hm), hs⟩
  | @sendEscalated due hmem hdue =>
    refine ⟨le_rfl, rfl, List.subset_cons_self _ _, fun task hm sig hs => ?_⟩
    by_cases heq : task = .escalating due
    · subst heq
      cases hs
      exact Or.inr List.mem_cons_self
    · exact Or.inl ⟨task, (List.mem_erase_of_ne heq).mpr hm, hs⟩
  | @unlatch latchAt deadline hmem hdone =>
    refine ⟨le_rfl, rfl, List.Subset.refl _, fun task hm sig hs => Or.inl ⟨task, ?_, hs⟩⟩
    refine (List.mem_erase_of_ne ?_).mpr hm
    rintro rfl
    exact nomatch hs

/-! ## Runs -/

/-- The invariant of a run: no request lies in the future and none is lost. -/
structure Kept (s : Latch) : Prop where
  past : ∀ r ∈ s.requests, r.time ≤ s.clock
  noneLost : s.NoneLost

/-- Progress keeps every request covered or awaited. -/
theorem Kept.progress {s s' : Latch} (h : s.Kept) (hp : Progress s s') : s'.Kept := by
  refine ⟨fun r hr => ?_, fun r hr => ?_⟩
  · rw [hp.requests] at hr
    exact (h.past r hr).trans hp.clock
  · rw [hp.requests] at hr
    rcases h.noneLost r hr with ⟨sig, hsig, hcov, htime⟩ | ⟨task, htask, sig, hsig, hcov⟩
    · exact Or.inl ⟨sig, hp.sent hsig, hcov, htime⟩
    · rcases hp.pending task htask sig hsig with ⟨task', htask', hsig'⟩ | hsent
      · exact Or.inr ⟨task', htask', sig, hsig', hcov⟩
      · exact Or.inl ⟨_, hsent, hcov, h.past r hr⟩

/-- A request adds itself and at most one task. -/
theorem request_cases (t : RecycleTiming) (kind : RecycleKind) (s : Latch) :
    (s.request t kind).clock = s.clock ∧ (s.request t kind).sent = s.sent ∧
      (s.request t kind).requests = ⟨kind, s.clock⟩ :: s.requests ∧
      s.tasks ⊆ (s.request t kind).tasks ∧
      (trySchedule s.restartRequested kind ≠ .deduped → (s.request t kind).Awaited kind) := by
  unfold request
  cases hs : trySchedule s.restartRequested kind with
  | latched =>
    exact ⟨rfl, rfl, rfl, List.subset_cons_self _ _,
      fun _ => ⟨_, List.mem_cons_self, kind, rfl, kind.covers_self⟩⟩
  | escalated =>
    exact ⟨rfl, rfl, rfl, List.subset_cons_self _ _,
      fun _ => ⟨_, List.mem_cons_self, .fullRestart, rfl, rfl⟩⟩
  | deduped => exact ⟨rfl, rfl, rfl, List.Subset.refl _, fun h => absurd rfl h⟩

/-- A request that is heeded is kept. -/
theorem Kept.request {s : Latch} (h : s.Kept) (t : RecycleTiming) {kind : RecycleKind}
    (hheeds : s.Heeds kind) : (s.request t kind).Kept := by
  obtain ⟨hclock, hsent, hreq, htasks, hnew⟩ := request_cases t kind s
  have hawaited : ∀ k, s.Awaited k → (s.request t kind).Awaited k :=
    fun k ⟨task, htask, hsig⟩ => ⟨task, htasks htask, hsig⟩
  refine ⟨fun r hr => ?_, fun r hr => ?_⟩
  · rw [hreq] at hr
    rw [hclock]
    rcases List.mem_cons.mp hr with rfl | hr
    · exact le_rfl
    · exact h.past r hr
  · rw [hreq] at hr
    rcases List.mem_cons.mp hr with rfl | hr
    · rcases hheeds with hn | ha
      · exact Or.inr (hnew hn)
      · exact Or.inr (hawaited _ ha)
    · rcases h.noneLost r hr with ⟨sig, hsig, hcov⟩ | ha
      · exact Or.inl ⟨sig, hsent ▸ hsig, hcov⟩
      · exact Or.inr (hawaited _ ha)

/-- **In a run that heeds every request, each is covered or awaited.** -/
theorem Run.kept {t : RecycleTiming} {s : Latch} (h : Run t Heeds s) : s.Kept := by
  induction h with
  | initial => exact ⟨by simp [Latch.initial], by simp [NoneLost, Latch.initial]⟩
  | request _ kind hok ih => exact ih.request t hok
  | step _ hs ih => exact ih.progress hs.progress

/-- **No lost recycle request**, in every run in which a request that the latch swallows finds a
signal at least as strong still to be sent: for every request such a signal was sent since or is on
its way, and once all signals have gone out, every request is covered. -/
theorem recycle_covered {t : RecycleTiming} {s : Latch} (h : Run t Heeds s) :
    s.NoneLost ∧ ((∀ task ∈ s.tasks, task.pending = none) → ∀ r ∈ s.requests, s.Covered r) := by
  refine ⟨h.kept.noneLost, fun hnone r hr => ?_⟩
  rcases h.kept.noneLost r hr with hc | ⟨task, htask, sig, hsig, -⟩
  · exact hc
  · rw [hnone task htask] at hsig
    exact nomatch hsig

/-! ## A save after the signal -/

/-- The defaults: 1.4 s in front of a signal, 90 s for the marker. -/
def defaultTiming : RecycleTiming := ⟨1400, 90000⟩

/-- One shares save, with its signal on the way. -/
def firstSave : Latch := (initial.request defaultTiming .sharesApply).arm defaultTiming .sharesApply

/-- A first save is a run. -/
theorem run_firstSave (ok : Latch → RecycleKind → Prop) (hok : ok initial .sharesApply) :
    Run defaultTiming ok firstSave :=
  (Run.initial.request _ hok).step (.arm List.mem_cons_self)

/-- The signal has gone out. -/
def firstSignal : Latch :=
  { firstSave with clock := 1400 }.send defaultTiming true .sharesApply 0 1400

/-- A second save finds the latch still taken; then the supervisor completes the recycle of the
first one, and the latch is released. -/
def lateSave : Latch :=
  let late := { firstSignal with clock := 1500 }.request defaultTiming .sharesApply
  { late with marker := some late.clock }.unlatch 0 91400

/-- The second save is swallowed after the only signal was sent: nothing will ever apply it. -/
theorem not_recycle_covered_lateSave :
    Run defaultTiming (fun _ _ => True) lateSave ∧
      lateSave.requests = [⟨.sharesApply, 1500⟩, ⟨.sharesApply, 0⟩] ∧
      lateSave.sent = [⟨.sharesApply, 1400⟩] ∧ lateSave.tasks = [] ∧ ¬ lateSave.NoneLost := by
  have hsignal : Run defaultTiming (fun _ _ => True) firstSignal :=
    ((run_firstSave _ trivial).step (.tick _ 1400)).step (.send _ _ _ List.mem_cons_self (by decide))
  have hlate := ((hsignal.step (.tick _ 100)).request .sharesApply trivial).step (.touch _)
  refine ⟨hlate.step (.unlatch List.mem_cons_self (Or.inl (by decide))), by decide, by decide,
    by decide, fun h => ?_⟩
  have hlost := h ⟨.sharesApply, 1500⟩ (by decide)
  revert hlost
  decide

/-- A second save before the signal is covered by it. -/
theorem recycle_covered_earlySave :
    let s := ({ firstSave with clock := 700 }.request defaultTiming .sharesApply)
    let s := { s with clock := 1400 }.send defaultTiming true .sharesApply 0 1400
    s.requests = [⟨.sharesApply, 700⟩, ⟨.sharesApply, 0⟩] ∧ ∀ r ∈ s.requests, s.Covered r := by
  have hfirst := (run_firstSave Heeds (Or.inl (by decide))).step (.tick _ 700)
  have hsecond := hfirst.request .sharesApply (Or.inr (by decide))
  have hsent := (hsecond.step (.tick _ 700)).step
    (.send .sharesApply 0 1400 (by decide) (by decide))
  exact ⟨by decide, (recycle_covered hsent).2 (by decide)⟩

end Latch

end NfsKlldap
