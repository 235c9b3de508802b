import NfsKlldap.Supervisor.Effects

/-! # A Ganesha that is down is retried

Outside HOST_NFS mode the Idle tick revives Ganesha whenever `ganeshaManaged` is set and no live
process is tracked. The flag is set by a successful spawn alone and cleared by `stopGanesha`, so
everything hinges on what happens between the two:

* `Kept`: a tracked pid is a managed one. Hence a Ganesha that refuses to die, or one that is still
  running when a recycle wants to start it, stays under supervision.
* `Attended`: the flag is set, or some `startGanesha` that was **begun without the flag** got no
  process. Every start re-establishes it (`attended_startGanesha`), hence so does every recycle.

The second disjunct is real: after a failed start the flag stays clear and nothing looks at Ganesha
again (`not_ganeshaSupervised_coldWarmup`). -/

namespace NfsKlldap

open Relation

variable {o : Oracle} {s s' : Machine}

/-! ## Invariants of every run -/

/-- HOST_NFS mode is off throughout. -/
def HostNfsOff (o : Oracle) : Prop := ∀ c, o.resolveHostNfsMode c = false

/-- Tending keeps the mode. -/
theorem hostNfsMode_tend (h : Tend s s') : s'.hostNfsMode = s.hostNfsMode := by
  cases h with
  | elapse he => exact he.hostNfsMode
  | forget => rfl
  | launch => rfl
  | recover => rfl
  | hup pid => cases pid <;> rfl
  | note => rfl

/-- Any amount of tending keeps the mode. -/
theorem hostNfsMode_tends (h : Tends s s') : s'.hostNfsMode = s.hostNfsMode := by
  induction h with
  | refl => rfl
  | tail _ ht ih => exact (hostNfsMode_tend ht).trans ih

/-- Where no configuration asks for host NFS, nothing the supervisor does turns the mode on. -/
theorem hostNfsMode_effects (hoff : HostNfsOff o) (he : Effects o s s') (h : s.hostNfsMode = false) :
    s'.hostNfsMode = false := by
  induction he with
  | refl => exact h
  | tail _ he ih =>
    cases he with
    | tend ht => exact (hostNfsMode_tend ht).trans ih
    | unmanage => exact ih
    | generate => exact ih
    | setMode c => exact hoff c
    | started => exact ih
    | quit => exact ih

/-- A tracked pid is a managed one, as long as the supervisor runs. -/
def Kept (s : Machine) : Prop :=
  s.pids.ganesha.isSome = true → s.ganeshaManaged = true ∨ s.exited = true

/-- Tending tracks managed processes only. -/
theorem Kept.tend (h : Kept s) (ht : Tend s s') : Kept s' := by
  cases ht with
  | elapse he =>
    intro hs
    rw [he.managed, he.exited]
    exact h (he.tracked ▸ hs)
  | forget => exact fun hs => absurd hs Bool.false_ne_true
  | launch => exact fun _ => Or.inl rfl
  | recover _ hm _ => exact fun _ => Or.inl hm
  | hup pid => cases pid <;> exact h
  | note => exact h

/-- Any amount of tending tracks managed processes only. -/
theorem Kept.tends (h : Kept s) (ht : Tends s s') : Kept s' := by
  induction ht with
  | refl => exact h
  | tail _ ht ih => exact ih.tend ht

/-- **Whatever the supervisor does, a tracked pid stays a managed one.** -/
theorem Kept.effects (h : Kept s) (he : Effects o s s') : Kept s' := by
  induction he with
  | refl => exact h
  | tail _ he ih =>
    cases he with
    | tend ht => exact ih.tend ht
    | unmanage hn => exact fun hs => absurd hs (by simp [hn])
    | generate => exact ih
    | setMode => exact ih
    | started => exact ih
    -- the shutdown clears the flag over a pid it may have kept
    | quit => exact fun _ => Or.inr rfl

/-- Ganesha is managed, or a start that was begun without the flag failed. -/
def Attended (s : Machine) : Prop :=
  s.ganeshaManaged = true ∨ Event.startFailed false ∈ s.events ∨ s.exited = true

/-- Time keeps Ganesha attended. -/
theorem Attended.elapsed (h : Attended s) (he : Elapsed s s') : Attended s' := by
  rw [Attended, he.managed, he.events, he.exited]
  exact h

/-- Tending never takes the flag away. -/
theorem Attended.tend (h : Attended s) (ht : Tend s s') : Attended s' := by
  cases ht with
  | elapse he => exact h.elapsed he
  | forget => exact h
  | launch => exact Or.inl rfl
  | recover => exact h
  | hup pid => cases pid <;> exact h
  | note e =>
    rcases h with hm | he | hx
    · exact Or.inl hm
    · exact Or.inr (Or.inl (List.mem_cons_of_mem _ he))
    · exact Or.inr (Or.inr hx)

/-- Any amount of tending keeps Ganesha attended. -/
theorem Attended.tends (h : Attended s) (ht : Tends s s') : Attended s' := by
  induction ht with
  | refl => exact h
  | tail _ ht ih => exact ih.tend ht

/-- What is tracked is attended to. -/
theorem Kept.attended (h : Kept s) (hs : trackedLive o s = true) : Attended s := by
  obtain ⟨pid, hpid, -⟩ := (Option.any_eq_true _ _).mp hs
  rcases h (by simp [hpid]) with hm | hx
  · exact Or.inl hm
  · exact Or.inr (Or.inr hx)

/-- A failed start leaves the flag as it was. -/
theorem attended_note_startFailed (s : Machine) :
    Attended (s.note (.startFailed s.ganeshaManaged)) := by
  cases hm : s.ganeshaManaged with
  | true => exact Or.inl hm
  | false => exact Or.inr (Or.inl List.mem_cons_self)

/-! ## Every start and every recycle -/

/-- **A start leaves Ganesha attended**: refused, failed or done. -/
theorem attended_startGanesha (hk : Kept s) : Attended (startGanesha o s) := by
  unfold startGanesha
  dsimp only
  split_ifs with hlive hwarm hspawn
  -- refused: the live pid it was refused for is a managed one
  · exact (hk.tend (Tend.elapse (Elapsed.pass o s))).attended hlive
  · exact attended_note_startFailed _
  -- spawned: the flag is set, and confirming the pid keeps it
  · have hl : Attended (pass o (Machine.launch (pass o ((pass o s).track none)))) := Or.inl rfl
    exact hl.tends confirmGaneshaDaemonPidEnv_tends
  · exact attended_note_startFailed _

/-- A plan that stops and starts Ganesha leaves it attended at its end. -/
theorem attended_bringBackGanesha {plan : ServiceRecyclePlan} (hk : Kept s)
    (hoff : s.hostNfsMode = false) (hplan : plan.ganesha = .stopStart) :
    Attended (bringBackGanesha o plan s) := by
  have hr : Kept (ganeshaRunning o s).2 := hk.tends ganeshaRunning_tends
  unfold bringBackGanesha
  rw [if_pos (by simp [hoff, hplan])]
  dsimp only
  split
  -- still running after the stop: tracked, hence managed
  · next hrun => exact hr.attended hrun
  · exact attended_startGanesha (hr.tend (Tend.elapse (Elapsed.ensureGaneshaPrereqs o _)))

/-- **A recycle leaves Ganesha attended**: one that stops and starts it always, any other if it was
before. -/
theorem attended_executeRecyclePlan {plan : ServiceRecyclePlan} (hoff : HostNfsOff o)
    (hmode : s.hostNfsMode = false) (hk : Kept s)
    (h : plan.ganesha = .stopStart ∨ Attended s) : Attended (executeRecyclePlan o plan s) := by
  unfold executeRecyclePlan
  split
  · next hnoop =>
    rcases h with h | h
    · rw [ServiceRecyclePlan.ganesha_of_isNoop hnoop] at h
      cases h
    · exact h
  · have hdown : Effects o s _ := takeDownGanesha_effects plan
    have hmid := hdown.trans (restartIdentity_elapsed (o := o) (takeDownGanesha o plan s).1).effects
    refine Attended.elapsed ?_ (recycleFrontends_elapsed _)
    -- a plan that starts Ganesha at the end needs nothing from the first half
    have hback (hstart : (takeDownGanesha o plan s).1.ganesha = .stopStart) :
        Attended (bringBackGanesha o (takeDownGanesha o plan s).1
          (restartIdentity o (takeDownGanesha o plan s).1 (takeDownGanesha o plan s).2)) :=
      attended_bringBackGanesha (hk.effects hmid) (hostNfsMode_effects hoff hmid hmode) hstart
    -- by the action of the plan as it came in
    rcases takeDownGanesha_cases (o := o) plan hmode with
      ⟨hp, heq⟩ | ⟨hp, -, heq⟩ | ⟨-, hp, -⟩ | ⟨hp, heq⟩
    · have ha : Attended s := h.resolve_left (by simp [hp])
      rw [heq]
      exact (ha.elapsed (restartIdentity_elapsed _)).tends (bringBackGanesha_tends _)
    · have ha : Attended s := h.resolve_left (by simp [hp])
      rw [heq]
      exact ((ha.tends reloadGaneshaExports_tends).elapsed (restartIdentity_elapsed _)).tends
        (bringBackGanesha_tends _)
    · exact hback hp
    · exact hback (by rw [heq]; exact hp)

/-! ## Every tick -/

/-- What holds at the start of every tick. -/
structure Guarded (s : Machine) : Prop where
  hostNfsMode : s.hostNfsMode = false
  kept : Kept s
  attended : s.servicesStarted = true → Attended s

/-- Time keeps a guarded machine guarded. -/
theorem Guarded.elapsed (h : Guarded s) (he : Elapsed s s') : Guarded s' where
  hostNfsMode := he.hostNfsMode.trans h.hostNfsMode
  kept := h.kept.tend (Tend.elapse he)
  attended := fun hs => (h.attended (he.servicesStarted ▸ hs)).elapsed he

/-- Tending does not change whether the services are started. -/
theorem servicesStarted_tends (h : Tends s s') : s'.servicesStarted = s.servicesStarted := by
  induction h with
  | refl => rfl
  | tail _ ht ih =>
    rw [← ih]
    cases ht with
    | elapse he => exact he.servicesStarted
    | forget => rfl
    | launch => rfl
    | recover => rfl
    | hup pid => cases pid <;> rfl
    | note => rfl

/-- Tending keeps a guarded machine guarded. -/
theorem Guarded.tends (h : Guarded s) (ht : Tends s s') : Guarded s' where
  hostNfsMode := (hostNfsMode_tends ht).trans h.hostNfsMode
  kept := h.kept.tends ht
  attended := fun hs => (h.attended (servicesStarted_tends ht ▸ hs)).tends ht

/-- A generator run is none of Ganesha's business. -/
theorem Guarded.generate (h : Guarded s) (d : DerivedFiles) : Guarded (s.generate d) :=
  ⟨h.hostNfsMode, h.kept, h.attended⟩

/-- A regeneration keeps a guarded machine guarded. -/
theorem Guarded.regenerate (hoff : HostNfsOff o) (h : Guarded s) :
    Guarded (regenerateAndDiff o s).2 := by
  have hg := (h.elapsed (Elapsed.pass o s)).generate (o.generate (pass o s).clock).disk
  unfold regenerateAndDiff
  dsimp only
  split
  · exact hg.tends (ReflTransGen.single (Tend.note _))
  · exact ⟨hoff _, hg.kept, hg.attended⟩

/-- Once attended, it no longer matters that the services count as started. -/
theorem Guarded.of_attended (hmode : s.hostNfsMode = false) (hk : Kept s) (h : Attended s) :
    Guarded s := ⟨hmode, hk, fun _ => h⟩

/-- The end of a recycle that left Ganesha attended keeps the machine guarded. -/
theorem Guarded.finishRecycle (h : Guarded s) (ha : Attended s) : Guarded (finishRecycle o s) := by
  unfold NfsKlldap.finishRecycle
  split
  · have hs : Guarded { s with servicesStarted := true } :=
      Guarded.of_attended h.hostNfsMode h.kept ha
    exact hs.elapsed (Elapsed.startWatcher o _)
  · exact h

/-- A reload's plan leaves Ganesha attended. -/
theorem attended_applyChanges (hoff : HostNfsOff o) (changes : FingerprintChanges) (h : Guarded s) :
    Attended (applyChanges o changes s) := by
  have hp := h.tends (sighupPlan_tends (o := o) changes)
  have he : Attended
      (executeRecyclePlan o (sighupPlan o changes s).1 (sighupPlan o changes s).2) := by
    -- a scoped plan needs what held before, the full plan of a cold reload does not
    refine attended_executeRecyclePlan hoff hp.hostNfsMode hp.kept ?_
    by_cases hs : s.servicesStarted = true
    · exact Or.inr (hp.attended ((servicesStarted_tends (sighupPlan_tends changes)).trans hs))
    · left
      simp [sighupPlan, hs, planFullRecycle, h.hostNfsMode]
  unfold applyChanges
  dsimp only
  split
  · exact he.elapsed (Elapsed.reloadAvahiServices o _)
  · exact he

/-- A supervisor that has exited supervises nothing. -/
theorem Guarded.of_exited (hmode : s.hostNfsMode = false) (hx : s.exited = true) : Guarded s :=
  ⟨hmode, fun _ => Or.inr hx, fun _ => Or.inr (Or.inr hx)⟩

/-- The outcome of a recycle or a bring-up: a successful one leaves Ganesha attended. -/
structure Settles (r : Except String Unit × Machine) : Prop where
  guarded : Guarded r.2
  attended : r.1 = .ok () → Attended r.2

/-- A successful outcome may be followed by `finishRecycle`. -/
theorem Settles.finishRecycle (h : Guarded s) (ha : Attended s) :
    Settles (.ok (), finishRecycle o s) := by
  have hf := Guarded.finishRecycle (o := o) h ha
  refine ⟨hf, fun _ => ?_⟩
  unfold NfsKlldap.finishRecycle
  split
  · have hs : Attended { s with servicesStarted := true } := ha
    exact hs.elapsed (Elapsed.startWatcher o _)
  · exact ha

/-- A failed outcome of a guarded machine settles. -/
theorem Settles.error {e : String} (h : Guarded s) : Settles (.error e, s) :=
  ⟨h, fun hok => by cases hok⟩

/-- A reload settles. -/
theorem settles_handleSighup (hoff : HostNfsOff o) (h : Guarded s) : Settles (handleSighup o s) := by
  have hr := (h.tends (refreshTrackedGaneshaPid_tends (o := o))).regenerate hoff
  unfold handleSighup
  dsimp only
  split
  · exact Settles.error hr
  next changes _ =>
  -- past the regeneration the reload cannot fail any more
  have ha := attended_applyChanges hoff changes hr
  have he : Effects o _ _ := applyChanges_effects (o := o) (s := (regenerateAndDiff o
    (refreshTrackedGaneshaPid o s)).2) changes
  exact Settles.finishRecycle (Guarded.of_attended
    (hostNfsMode_effects hoff he hr.hostNfsMode) (hr.kept.effects he) ha) ha

/-- A full recycle settles. -/
theorem settles_handleFullRecycle (hoff : HostNfsOff o) (h : Guarded s) :
    Settles (handleFullRecycle o s) := by
  have hr := (h.tends (refreshTrackedGaneshaPid_tends (o := o))).regenerate hoff
  unfold handleFullRecycle
  dsimp only
  split
  · exact Settles.error hr
  · rw [hr.hostNfsMode]
    have ha := attended_executeRecyclePlan hoff hr.hostNfsMode hr.kept
      (Or.inl (rfl : (planFullRecycle false).ganesha = .stopStart))
    have he : Effects o _ _ := executeRecyclePlan_effects (o := o) (s := (regenerateAndDiff o
      (refreshTrackedGaneshaPid o s)).2) (planFullRecycle false)
    exact Settles.finishRecycle (Guarded.of_attended
      (hostNfsMode_effects hoff he hr.hostNfsMode) (hr.kept.effects he) ha) ha

/-- Starting the stack leaves Ganesha attended. -/
theorem attended_startStack (hmode : s.hostNfsMode = false) (hk : Kept s) :
    Attended (startStack o s) := by
  have hi := (Elapsed.restartSssdAndWait o s).trans (Elapsed.restartIdhelperAndWaitBulk o _)
  unfold startStack
  dsimp only
  rw [if_neg (by simp [hi.hostNfsMode, hmode])]
  have hp := hi.trans (Elapsed.ensureGaneshaPrereqs o _)
  exact (attended_startGanesha (hk.tend (Tend.elapse hp))).elapsed (Elapsed.startAvahi o _)

/-- A bring-up settles. -/
theorem settles_bringUpServices (h : Guarded s) : Settles (bringUpServices o s) := by
  have hg := (h.elapsed (Elapsed.pass o s)).generate (o.generate (pass o s).clock).disk
  unfold bringUpServices
  dsimp only
  split
  · exact Settles.error hg
  · have hs := hg.elapsed (Elapsed.lastSharesFingerprint _
      (((o.config ((pass o s).generate (o.generate (pass o s).clock).disk).clock).map
        LoadedConfig.sharesFingerprint).getD 0))
    exact ⟨hs.tends startStack_tends, fun _ => attended_startStack hs.hostNfsMode hs.kept⟩

/-- The services count as started from here on. -/
theorem Settles.started {r : Except String Unit × Machine} (h : Settles r) (hok : r.1 = .ok ()) :
    Guarded { r.2 with servicesStarted := true } :=
  ⟨h.guarded.hostNfsMode, h.guarded.kept, fun _ => h.attended hok⟩

/-- What follows a recycle keeps the machine guarded. -/
theorem guarded_afterRecycle {r : Except String Unit × Machine} (needWatcher : Bool)
    (h : Settles r) : Guarded (afterRecycle o needWatcher r) := by
  unfold afterRecycle
  split
  · next hok =>
    dsimp only
    split
    · exact (h.started hok).elapsed (Elapsed.startWatcher o _)
    · exact h.started hok
  · exact h.guarded

/-- What follows a bring-up keeps the machine guarded. -/
theorem guarded_afterBringUp {r : Except String Unit × Machine} (h : Settles r) :
    Guarded (afterBringUp o r) := by
  unfold afterBringUp
  split
  · next hok =>
    have hw := (h.started hok).elapsed (Elapsed.startWatcher o _)
    dsimp only
    split
    · exact (hw.tends waitForGaneshaReadiness_tends).elapsed (Elapsed.startWebui o _)
    · exact hw.elapsed (Elapsed.startWebui o _)
  · exact h.guarded

/-- What follows the start of a configured stack keeps the machine guarded. -/
theorem guarded_afterPreconfigured {r : Except String Unit × Machine} (h : Settles r) :
    Guarded (afterPreconfigured o r) := by
  unfold afterPreconfigured
  split
  · next hok =>
    have hs := h.started hok
    have hr := hs.tends (waitForGaneshaReadiness_tends (o := o))
    dsimp only
    split_ifs
    · exact (hr.elapsed (Elapsed.startWatcher o _)).elapsed (Elapsed.startWebui o _)
    · exact hr.elapsed (Elapsed.startWatcher o _)
    · exact (hs.elapsed (Elapsed.startWatcher o _)).elapsed (Elapsed.startWebui o _)
    · exact hs.elapsed (Elapsed.startWatcher o _)
  · exact Guarded.of_exited h.guarded.hostNfsMode rfl

/-- **A tick keeps the machine guarded.** -/
theorem guarded_loopTick (hoff : HostNfsOff o) (h : Guarded s) : Guarded (loopTick o s) := by
  unfold loopTick
  split_ifs
  · exact h
  -- the shutdown: nothing to supervise any more
  · have he : Effects o s _ := (Elapsed.pass o s).effects.trans stopGanesha_effects
    have hmode := hostNfsMode_effects hoff he h.hostNfsMode
    exact Guarded.of_exited (show (cleanup o s).hostNfsMode = false from hmode) rfl
  · refine Guarded.elapsed ?_ (Elapsed.pass o _)
    split
    · exact guarded_afterRecycle _ (settles_handleSighup hoff h)
    · exact guarded_afterRecycle _ (settles_handleFullRecycle hoff h)
    · exact guarded_afterBringUp (settles_bringUpServices h)
    · exact h.tends checkAndRespawnServices_tends

/-- A machine that has just booted is guarded. -/
theorem guarded_bootMachine (hoff : HostNfsOff o) (disk : DerivedFiles) :
    Guarded (bootMachine o disk) :=
  ⟨hoff 0, fun hs => absurd hs Bool.false_ne_true, fun hs => absurd hs Bool.false_ne_true⟩

/-- It is guarded at the first tick. -/
theorem guarded_runSupervisor (hoff : HostNfsOff o) (disk : DerivedFiles) :
    Guarded (runSupervisor o disk) := by
  have hb := guarded_bootMachine hoff disk
  unfold runSupervisor
  dsimp only
  split
  · exact Guarded.of_exited hb.hostNfsMode rfl
  split
  · exact guarded_afterPreconfigured (settles_bringUpServices hb)
  · have hw := hb.elapsed (Elapsed.startWebui o _)
    split
    · exact Guarded.of_exited hw.hostNfsMode rfl
    · exact hw

/-- **The machine is guarded after every number of ticks.** -/
theorem guarded_supervise (hoff : HostNfsOff o) (disk : DerivedFiles) (n : Nat) :
    Guarded (supervise o disk n) := by
  induction n with
  | zero => exact guarded_runSupervisor hoff disk
  | succ n ih => exact guarded_loopTick hoff ih

/-! ## Supervision -/

/-- The loop is about to make an Idle pass. -/
def IdleTick (o : Oracle) (s : Machine) : Prop :=
  s.exited = false ∧ o.shutdownRequested s.clock = false ∧ tickAction o s = .idle

/-- The tracked Ganesha is live, or the Idle pass sees that it is down. -/
def GaneshaSupervised (o : Oracle) (s : Machine) : Prop :=
  trackedLive o s = true ∨ respawnNeeded o s .ganesha = true

/-- **Ganesha is always supervised**, in every run in which no `startGanesha` begun without the
managed flag has failed its warm-up or its spawn: at the start of an Idle tick after the services
were started, Ganesha is live or the pass retries it. -/
theorem ganeshaSupervised_of_starts (o : Oracle) (disk : DerivedFiles) (n : Nat) (hoff : HostNfsOff o)
    (hstarts : Event.startFailed false ∉ (supervise o disk n).events)
    (hidle : IdleTick o (supervise o disk n))
    (hstarted : (supervise o disk n).servicesStarted = true) :
    GaneshaSupervised o (supervise o disk n) := by
  have hg := guarded_supervise hoff disk n
  -- the other two ways to be attended are excluded here
  have hm : (supervise o disk n).ganeshaManaged = true := by
    rcases hg.attended hstarted with hm | he | hx
    · exact hm
    · exact absurd he hstarts
    · exact absurd (hidle.1.symm.trans hx) Bool.false_ne_true
  cases hl : trackedLive o (supervise o disk n) with
  | true => exact Or.inl hl
  | false =>
    right
    simp [respawnNeeded, hm, hg.hostNfsMode, hl]

/-- A calm deployment in which the first Ganesha crashes during the first Idle pass. -/
def crashing : Oracle :=
  { calm ⟨"", "", ""⟩ with dies := fun c n => c == 24 && n == 0 }

/-- The crash is seen: at the next tick Ganesha is down and due for a respawn. -/
theorem ganeshaSupervised_crashing :
    trackedLive crashing (supervise crashing ⟨"", "", ""⟩ 1) = false ∧
      GaneshaSupervised crashing (supervise crashing ⟨"", "", ""⟩ 1) :=
  ⟨by decide +kernel,
    ganeshaSupervised_of_starts crashing ⟨"", "", ""⟩ 1 (fun _ => rfl) (by decide +kernel)
      ⟨by decide +kernel, by decide +kernel, by decide +kernel⟩ (by decide +kernel)⟩

/-- A calm deployment with one SIGUSR1. Ganesha exits on SIGTERM as it should, but the idhelper,
restarted by the same recycle, has the principals back only some ticks later. -/
def coldWarmup : Oracle :=
  { calm ⟨"", "", ""⟩ with
    fullRecycleRequested := fun c => c == 17
    dies := fun c _ => c == 22
    nssReady := fun c => c < 17 || 50 ≤ c }

/-- The recycle has stopped Ganesha, which clears the flag, and its start gave up on the warm-up.
Three ticks later the principals resolve, and no Idle pass starts Ganesha. -/
theorem not_ganeshaSupervised_coldWarmup :
    HostNfsOff coldWarmup ∧ IdleTick coldWarmup (supervise coldWarmup ⟨"", "", ""⟩ 3) ∧
      (supervise coldWarmup ⟨"", "", ""⟩ 3).servicesStarted = true ∧
      ¬ GaneshaSupervised coldWarmup (supervise coldWarmup ⟨"", "", ""⟩ 3) := by
  refine ⟨fun _ => rfl, ⟨by decide +kernel, by decide +kernel, by decide +kernel⟩,
    by decide +kernel, ?_⟩
  unfold GaneshaSupervised
  decide +kernel

end NfsKlldap
