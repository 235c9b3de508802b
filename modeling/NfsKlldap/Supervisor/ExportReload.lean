import NfsKlldap.Supervisor.Supervision
import NfsKlldap.Supervisor.Tracking

/-! # Reloads and the fragments on disk

`stale` says that the export fragments have changed since a Ganesha was last spawned or signalled. A
reload decides from the fragments before and after **its own** generator run, so it applies its own
changes and nothing else: what an earlier run has left behind is not seen again.

* `Applied`: no live Ganesha is stale, or the environment is to blame (`Event.losesReload`): a
  failed regeneration had changed the fragments under a live Ganesha, or a stale one outlived
  SIGKILL.
* A plan that signals Ganesha or stops and starts it establishes `Applied`
  (`applied_executeRecyclePlan`), and an unchanged directory keeps it.
* `Cold`: before the services are started there is no Ganesha, so that a bring-up has nothing to
  lose.

Both excuses are needed. After a hook that fails once the fragments are written, the next reload
finds them unchanged and passes Ganesha over (`not_reloadApplied_failedHook`). -/

namespace NfsKlldap

open Relation

variable {o : Oracle} {s s' : Machine}

/-! ## Fresh fragments -/

/-- Fragments have changed under a live Ganesha without its being signalled or restarted. -/
def Event.losesReload : Event → Bool
  | .startFailed _ => false
  | .survivedKill stale => stale
  | .regenerateFailed exportsChanged live => exportsChanged && live

/-- No live Ganesha is stale, or some event is to blame. -/
def Applied (s : Machine) : Prop :=
  s.ganeshas = [] ∨ s.stale = false ∨ ∃ e ∈ s.events, e.losesReload = true

/-- Time makes nothing stale. -/
theorem Applied.elapsed (h : Applied s) (he : Elapsed s s') : Applied s' := by
  rcases h with hg | hs
  · exact Or.inl (List.sublist_nil.mp (hg ▸ he.ganeshas))
  · exact Or.inr (by rwa [he.stale, he.events])

/-- Tending makes nothing stale. -/
theorem Applied.tend (h : Applied s) (ht : Tend s s') : Applied s' := by
  cases ht with
  | elapse he => exact h.elapsed he
  | forget => exact h
  -- a new process reads what is on disk
  | launch => exact Or.inr (Or.inl rfl)
  | recover => exact h
  | hup pid =>
    cases pid with
    | ganesha n => exact Or.inr (Or.inl rfl)
    | other n => exact h
  | note e =>
    rcases h with hg | hs | ⟨e', he', hl⟩
    · exact Or.inl hg
    · exact Or.inr (Or.inl hs)
    · exact Or.inr (Or.inr ⟨e', List.mem_cons_of_mem _ he', hl⟩)

/-- No amount of tending makes anything stale. -/
theorem Applied.tends (h : Applied s) (ht : Tends s s') : Applied s' := by
  induction ht with
  | refl => exact h
  | tail _ ht ih => exact ih.tend ht

/-- A Ganesha that could be stopped is gone; one that could not is stale with the environment's
blame, or not stale. -/
theorem applied_stopGanesha (h : Sound s) : Applied (stopGanesha o s) := by
  rcases stopGanesha_cases (o := o) (s := s) with hn | he
  · exact Or.inl ((h.effects stopGanesha_effects).ganeshas_of_none hn)
  -- the survivor: the event carries the staleness of this very moment
  · cases hs : (stopGanesha o s).stale with
    | false => exact Or.inr (Or.inl hs)
    | true => exact Or.inr (Or.inr ⟨_, he, hs⟩)

/-- A reload signals the one live Ganesha, if there is one. -/
theorem applied_reloadGaneshaExports (h : Sound s) : Applied (reloadGaneshaExports o s).2 := by
  have hr : Sound (refreshTrackedGaneshaPid o s) := h.tends refreshTrackedGaneshaPid_tends
  unfold reloadGaneshaExports
  dsimp only
  split
  · next hn => exact Or.inl (hr.ganeshas_of_none hn)
  next pid hpid =>
  have hp := hr.elapsed (Elapsed.pass o _)
  split
  · next hd =>
    exact Or.inl (hp.ganeshas_of_trackedDead
      (trackedDead_of_not_live (o := o) (s := pass o _) hpid (by simpa using hd)))
  -- live and signalled; if the pid is somebody else's, no Ganesha is live at all
  · cases pid with
    | ganesha n => exact Or.inr (Or.inl rfl)
    | other n => exact Or.inl (hp.ganeshas_of_other hpid)

/-- **A recycle that does not pass Ganesha over leaves no stale one behind**, one that does if there
was none before. -/
theorem applied_executeRecyclePlan {plan : ServiceRecyclePlan} (hmode : s.hostNfsMode = false)
    (hsound : Sound s) (h : plan.ganesha ≠ .skip ∨ Applied s) :
    Applied (executeRecyclePlan o plan s) := by
  unfold executeRecyclePlan
  split
  · next hnoop => exact h.resolve_left (not_not.mpr (ServiceRecyclePlan.ganesha_of_isNoop hnoop))
  -- the first half settles it; the second half only tends
  · have hdown : Applied (takeDownGanesha o plan s).2 := by
      have hr := applied_reloadGaneshaExports (o := o) hsound
      rcases takeDownGanesha_cases (o := o) plan hmode with
        ⟨hp, heq⟩ | ⟨-, -, heq⟩ | ⟨-, -, heq | heq⟩ | ⟨-, heq⟩
      · rw [heq]
        exact h.resolve_left (not_not.mpr hp)
      · rw [heq]
        exact hr
      · rw [heq]
        exact hr.tends ganeshaRunning_tends
      · rw [heq]
        exact applied_stopGanesha
          (hsound.tends (reloadGaneshaExports_tends.trans ganeshaRunning_tends))
      · rw [heq]
        exact applied_stopGanesha hsound
    exact ((hdown.elapsed (restartIdentity_elapsed _)).tends (bringBackGanesha_tends _)).elapsed
      (recycleFrontends_elapsed _)

/-! ## Regeneration -/

/-- A failed run is to blame for what it has changed; a successful one that changed no fragment
keeps things as they were. -/
theorem applied_regenerateAndDiff (h : Applied s)
    (hok : ∀ changes, (regenerateAndDiff o s).1 = .ok changes → changes.exportsChanged = false) :
    Applied (regenerateAndDiff o s).2 := by
  have hp := h.elapsed (Elapsed.pass o s)
  by_cases hsame : (o.generate (pass o s).clock).disk.exports = s.disk.exports
  · -- nothing was written: only time has passed
    have hg : Applied ((pass o s).generate (o.generate (pass o s).clock).disk) := by
      have hd : (pass o s).disk = s.disk := (Elapsed.pass o s).disk
      rcases hp with hp | hp | hp
      · exact Or.inl hp
      · exact Or.inr (Or.inl (by simp [Machine.generate, hp, hd, hsame]))
      · exact Or.inr (Or.inr hp)
    unfold regenerateAndDiff
    dsimp only
    split
    · exact hg.tend (Tend.note _)
    · exact hg
  · revert hok
    unfold regenerateAndDiff
    dsimp only
    split
    · intro _
      -- the failed run has changed the fragments
      by_cases hlive : (pass o s).ganeshas = []
      · exact Or.inl hlive
      · refine Or.inr (Or.inr ⟨_, List.mem_cons_self, ?_⟩)
        simp [Event.losesReload, Machine.generate, hsame, hlive]
    · intro hok
      -- the successful run reports the change, against the assumption
      exact absurd (hok _ rfl) (by simp [fingerprintExportsDir, Ne.symm hsame])

/-! ## Before the services are started -/

/-- There is no Ganesha, and none is managed. -/
structure Cold (s : Machine) : Prop where
  ganeshas : s.ganeshas = []
  managed : s.ganeshaManaged = false

/-- Time starts no Ganesha. -/
theorem Cold.elapsed (h : Cold s) (he : Elapsed s s') : Cold s' where
  ganeshas := List.sublist_nil.mp (h.ganeshas ▸ he.ganeshas)
  managed := he.managed.trans h.managed

/-- Where no Ganesha lives, none is stale. -/
theorem Cold.applied (h : Cold s) : Applied s := Or.inl h.ganeshas

/-- Dropping a dead pid starts no Ganesha. -/
theorem Cold.refresh (h : Cold s) : Cold (refreshTrackedGaneshaPid o s) := by
  have hp := h.elapsed (Elapsed.pass o s)
  unfold refreshTrackedGaneshaPid
  dsimp only
  split
  · exact ⟨hp.ganeshas, hp.managed⟩
  · exact hp

/-- A generator run starts no Ganesha. -/
theorem Cold.regenerate (h : Cold s) : Cold (regenerateAndDiff o s).2 := by
  have hp := h.elapsed (Elapsed.pass o s)
  unfold regenerateAndDiff
  dsimp only
  split
  · exact ⟨hp.ganeshas, hp.managed⟩
  · exact ⟨hp.ganeshas, hp.managed⟩

/-! ## Every tick -/

/-- What holds at the start of every tick. -/
structure Current (s : Machine) : Prop where
  hostNfsMode : s.hostNfsMode = false
  sound : Sound s
  applied : Applied s
  cold : s.servicesStarted = false → Cold s

/-- Time keeps a current machine current. -/
theorem Current.elapsed (h : Current s) (he : Elapsed s s') : Current s' where
  hostNfsMode := he.hostNfsMode.trans h.hostNfsMode
  sound := h.sound.elapsed he
  applied := h.applied.elapsed he
  cold := fun hs => (h.cold (he.servicesStarted ▸ hs)).elapsed he

/-- With the services started, tending is all right. -/
theorem Current.of_started (hmode : s.hostNfsMode = false) (hsound : Sound s) (happlied : Applied s)
    (hs : s.servicesStarted = true) : Current s :=
  ⟨hmode, hsound, happlied, fun hf => absurd (hf.symm.trans hs) Bool.false_ne_true⟩

/-- **A reload's plan leaves no stale Ganesha behind**, if there was none before where it finds nothing
to reload. -/
theorem applied_applyChanges (changes : FingerprintChanges) (hmode : s.hostNfsMode = false)
    (hsound : Sound s) (h : s.servicesStarted = true → changes.exportsChanged = false → Applied s) :
    Applied (applyChanges o changes s) := by
  have hp := sighupPlan_tends (o := o) (s := s) changes
  have he : Applied
      (executeRecyclePlan o (sighupPlan o changes s).1 (sighupPlan o changes s).2) := by
    refine applied_executeRecyclePlan ((hostNfsMode_tends hp).trans hmode)
      (hsound.tends hp) ?_
    by_cases hs : s.servicesStarted = true
    -- services up: a change means a plan that reaches Ganesha
    · by_cases hx : changes.exportsChanged = false
      · exact Or.inr ((h hs hx).tends hp)
      · left
        rw [sighupPlan, if_pos hs, hmode]
        exact fun hskip => hx (planFromChanges_ganesha_eq_skip.mp hskip)
    · left
      simp [sighupPlan, hs, planFullRecycle, hmode]
  unfold applyChanges
  dsimp only
  split
  · exact he.elapsed (Elapsed.reloadAvahiServices o _)
  · exact he

/-- The outcome of a recycle or a bring-up: it may be continued with the services started. -/
structure Delivers (r : Except String Unit × Machine) : Prop where
  hostNfsMode : r.2.hostNfsMode = false
  sound : Sound r.2
  applied : Applied r.2
  cold : r.1 ≠ .ok () → r.2.servicesStarted = false → Cold r.2

/-- The end of a recycle makes nothing stale. -/
theorem Applied.finishRecycle (h : Applied s) : Applied (finishRecycle o s) := by
  unfold NfsKlldap.finishRecycle
  split
  · have hs : Applied { s with servicesStarted := true } := h
    exact hs.elapsed (Elapsed.startWatcher o _)
  · exact h

/-- The regeneration that both kinds of recycle begin with. -/
theorem Current.regenerate (hoff : HostNfsOff o) (h : Current s) :
    (regenerateAndDiff o (refreshTrackedGaneshaPid o s)).2.hostNfsMode = false ∧
      Sound (regenerateAndDiff o (refreshTrackedGaneshaPid o s)).2 :=
  ⟨hostNfsMode_effects hoff regenerate_effects h.hostNfsMode, h.sound.effects regenerate_effects⟩

/-- A failed regeneration is to blame for what it has changed. -/
theorem delivers_error (hoff : HostNfsOff o) (h : Current s) {e : String}
    (he : (regenerateAndDiff o (refreshTrackedGaneshaPid o s)).1 = .error e) :
    Delivers (.error e, (regenerateAndDiff o (refreshTrackedGaneshaPid o s)).2) where
  hostNfsMode := (h.regenerate hoff).1
  sound := (h.regenerate hoff).2
  applied := by
    refine applied_regenerateAndDiff (h.applied.tends refreshTrackedGaneshaPid_tends) ?_
    intro changes hok
    rw [he] at hok
    cases hok
  cold := by
    intro _ hs
    refine (h.cold ?_).refresh.regenerate
    rw [← hs, servicesStarted_regenerate]
    exact (servicesStarted_tends refreshTrackedGaneshaPid_tends).symm

/-- A reload delivers what its generator run wrote. -/
theorem delivers_handleSighup (hoff : HostNfsOff o) (h : Current s) :
    Delivers (handleSighup o s) := by
  have hr := h.regenerate hoff
  unfold handleSighup
  dsimp only
  split
  · next he => exact delivers_error hoff h he
  next changes hok =>
  have ha : Applied
      (applyChanges o changes (regenerateAndDiff o (refreshTrackedGaneshaPid o s)).2) := by
    refine applied_applyChanges changes hr.1 hr.2 fun _ hx => ?_
    refine applied_regenerateAndDiff (h.applied.tends refreshTrackedGaneshaPid_tends) ?_
    intro changes' hok'
    rw [hok] at hok'
    cases hok'
    exact hx
  have he : Effects o _ _ := (applyChanges_effects (o := o) (s := (regenerateAndDiff o
    (refreshTrackedGaneshaPid o s)).2) changes).trans finishRecycle_effects
  exact ⟨hostNfsMode_effects hoff he hr.1, hr.2.effects he, ha.finishRecycle,
    fun hne => absurd rfl hne⟩

/-- A full recycle delivers what its generator run wrote. -/
theorem delivers_handleFullRecycle (hoff : HostNfsOff o) (h : Current s) :
    Delivers (handleFullRecycle o s) := by
  have hr := h.regenerate hoff
  unfold handleFullRecycle
  dsimp only
  split
  · next he => exact delivers_error hoff h he
  · rw [hr.1]
    have hplan : (planFullRecycle false).ganesha ≠ .skip := by decide
    have ha := applied_executeRecyclePlan (o := o) hr.1 hr.2 (Or.inl hplan)
    have he : Effects o _ _ := (executeRecyclePlan_effects (o := o) (s := (regenerateAndDiff o
      (refreshTrackedGaneshaPid o s)).2) (planFullRecycle false)).trans finishRecycle_effects
    exact ⟨hostNfsMode_effects hoff he hr.1, hr.2.effects he, ha.finishRecycle,
      fun hne => absurd rfl hne⟩

/-- A bring-up starts from a machine without Ganesha. -/
theorem delivers_bringUpServices (hoff : HostNfsOff o) (h : Current s)
    (hs : s.servicesStarted = false) : Delivers (bringUpServices o s) := by
  have he : Effects o s _ := bringUpServices_effects
  -- before the start there is no Ganesha to go stale
  have hg : Cold ((pass o s).generate (o.generate (pass o s).clock).disk) := by
    have hp := (h.cold hs).elapsed (Elapsed.pass o s)
    exact ⟨hp.ganeshas, hp.managed⟩
  refine ⟨hostNfsMode_effects hoff he h.hostNfsMode, h.sound.effects he, ?_, ?_⟩
  · unfold bringUpServices
    dsimp only
    split
    · exact hg.applied
    · exact (hg.applied.elapsed (Elapsed.lastSharesFingerprint _ _)).tends startStack_tends
  · unfold bringUpServices
    dsimp only
    split
    · exact fun _ _ => hg
    · exact fun hne => absurd rfl hne

/-- After a delivery the services may count as started. -/
theorem Delivers.started {r : Except String Unit × Machine} (h : Delivers r) :
    Current { r.2 with servicesStarted := true } :=
  Current.of_started h.hostNfsMode ⟨h.sound.present, h.sound.past⟩ h.applied rfl

/-- A failed delivery leaves the machine current as well. -/
theorem Delivers.failed {r : Except String Unit × Machine} {e : String} (h : Delivers r)
    (he : r.1 = .error e) : Current r.2 :=
  ⟨h.hostNfsMode, h.sound, h.applied, h.cold (by simp [he])⟩

/-- What follows a recycle keeps the machine current. -/
theorem current_afterRecycle {r : Except String Unit × Machine} (needWatcher : Bool)
    (h : Delivers r) : Current (afterRecycle o needWatcher r) := by
  unfold afterRecycle
  split
  · dsimp only
    split
    · exact h.started.elapsed (Elapsed.startWatcher o _)
    · exact h.started
  · next he => exact h.failed he

/-- With the services started a tick may go on tending. -/
theorem Current.tends (h : Current s) (hs : s.servicesStarted = true) (ht : Tends s s') :
    Current s' :=
  Current.of_started ((hostNfsMode_tends ht).trans h.hostNfsMode)
    (h.sound.tends ht) (h.applied.tends ht)
    ((servicesStarted_tends ht).trans hs)

/-- What follows a bring-up keeps the machine current. -/
theorem current_afterBringUp {r : Except String Unit × Machine} (h : Delivers r) :
    Current (afterBringUp o r) := by
  unfold afterBringUp
  split
  · have hw := h.started.elapsed (Elapsed.startWatcher o _)
    have hs := (Elapsed.startWatcher o { r.2 with servicesStarted := true }).servicesStarted
    dsimp only
    split
    · exact (hw.tends hs waitForGaneshaReadiness_tends).elapsed (Elapsed.startWebui o _)
    · exact hw.elapsed (Elapsed.startWebui o _)
  · next he => exact h.failed he

/-- Until the supervisor exits, every tick starts from a `Current` machine. -/
theorem current_loopTick (hoff : HostNfsOff o) (h : s.exited = true ∨ Current s) :
    (loopTick o s).exited = true ∨ Current (loopTick o s) := by
  unfold loopTick
  split_ifs with hx hshut
  · exact Or.inl hx
  · exact Or.inl rfl
  · have hc := h.resolve_left hx
    refine Or.inr (Current.elapsed ?_ (Elapsed.pass o _))
    split
    · exact current_afterRecycle _ (delivers_handleSighup hoff hc)
    · exact current_afterRecycle _ (delivers_handleFullRecycle hoff hc)
    · next hup =>
      exact current_afterBringUp
        (delivers_bringUpServices hoff hc (servicesStarted_of_bringUp hup))
    -- an Idle pass before the bring-up does not start Ganesha
    · cases hs : s.servicesStarted with
      | true => exact hc.tends hs checkAndRespawnServices_tends
      | false => exact hc.elapsed (checkAndRespawnServices_elapsed (hc.cold hs).managed)

/-- A machine that has just booted is current. -/
theorem current_bootMachine (hoff : HostNfsOff o) (disk : DerivedFiles) :
    Current (bootMachine o disk) :=
  ⟨hoff 0, sound_bootMachine o disk, Or.inl rfl, fun _ => ⟨rfl, rfl⟩⟩

/-- It is still current at the first tick, unless the supervisor has exited. -/
theorem current_runSupervisor (hoff : HostNfsOff o) (disk : DerivedFiles) :
    (runSupervisor o disk).exited = true ∨ Current (runSupervisor o disk) := by
  have hb := current_bootMachine hoff disk
  unfold runSupervisor
  dsimp only
  -- an exit before the first tick, or the services that are brought up first
  split
  · exact Or.inl rfl
  split
  · have hd := delivers_bringUpServices hoff hb rfl
    unfold afterPreconfigured
    split
    · right
      have hs := hd.started
      have hr := hs.tends rfl (waitForGaneshaReadiness_tends (o := o))
      dsimp only
      split_ifs
      · exact (hr.elapsed (Elapsed.startWatcher o _)).elapsed (Elapsed.startWebui o _)
      · exact hr.elapsed (Elapsed.startWatcher o _)
      · exact (hs.elapsed (Elapsed.startWatcher o _)).elapsed (Elapsed.startWebui o _)
      · exact hs.elapsed (Elapsed.startWatcher o _)
    · exact Or.inl rfl
  · split
    · exact Or.inl rfl
    · exact Or.inr (hb.elapsed (Elapsed.startWebui o _))

/-- **The machine is current after every number of ticks**, unless the supervisor has exited. -/
theorem current_supervise (hoff : HostNfsOff o) (disk : DerivedFiles) (n : Nat) :
    (supervise o disk n).exited = true ∨ Current (supervise o disk n) := by
  induction n with
  | zero => exact current_runSupervisor hoff disk
  | succ n ih => exact current_loopTick hoff ih

/-! ## No lost reload -/

/-- The loop is about to handle a SIGHUP with the services started. -/
def ReloadTick (o : Oracle) (s : Machine) : Prop :=
  s.exited = false ∧ o.shutdownRequested s.clock = false ∧ tickAction o s = .processSighup ∧
    s.servicesStarted = true

/-- If the reload succeeds, a running Ganesha has been signalled or restarted since the export
fragments on disk last changed. -/
def ReloadApplied (o : Oracle) (s : Machine) : Prop :=
  (handleSighup o s).1 = .ok () →
    (handleSighup o s).2.ganeshas ≠ [] → (handleSighup o s).2.stale = false

/-- What a successful reload has noted is still noted when its tick is over. -/
theorem events_loopTick_of_reload (ht : ReloadTick o s) (hok : (handleSighup o s).1 = .ok ()) :
    (loopTick o s).events = (handleSighup o s).2.events := by
  obtain ⟨hx, hshut, haction, -⟩ := ht
  unfold loopTick
  rw [if_neg (by simp [hx]), if_neg (by simp [hshut]), haction, (Elapsed.pass o _).events]
  dsimp only
  rw [afterRecycle, hok]
  dsimp only
  split
  · exact (Elapsed.startWatcher o _).events
  · rfl

/-- **No lost export reload**, in every run in which no failed regeneration has changed the
fragments under a live Ganesha and no stale Ganesha has outlived SIGKILL. -/
theorem reloadApplied_of_blameless (o : Oracle) (disk : DerivedFiles) (n : Nat) (hoff : HostNfsOff o)
    (ht : ReloadTick o (supervise o disk n))
    (hevents : ∀ e ∈ (supervise o disk (n + 1)).events, e.losesReload = false) :
    ReloadApplied o (supervise o disk n) := by
  intro hok hlive
  have hc := (current_supervise hoff disk n).resolve_left (by simp [ht.1])
  rcases (delivers_handleSighup hoff hc).applied with hg | hs | ⟨e, he, hl⟩
  · exact absurd hg hlive
  · exact hs
  · rw [← events_loopTick_of_reload ht hok] at he
    exact absurd (hevents e he) (by simp [hl])

/-- A calm deployment, reloaded at every tick; the generator writes `run` from the first on. -/
def reloading (run : Nat → GenerateRun) : Oracle :=
  { calm ⟨"old", "", ""⟩ with
    sighupRequested := fun c => 17 ≤ c
    generate := fun c => if c < 17 then ⟨⟨"old", "", ""⟩, .ok true, .ok ()⟩ else run c }

/-- New fragments reach the running Ganesha. -/
theorem reloadApplied_edit :
    let o := reloading fun _ => ⟨⟨"new", "", ""⟩, .ok true, .ok ()⟩
    (handleSighup o (supervise o ⟨"old", "", ""⟩ 0)).2.ganeshas = [0] ∧
      ReloadApplied o (supervise o ⟨"old", "", ""⟩ 0) := by
  refine ⟨by decide +kernel, reloadApplied_of_blameless _ _ 0 (fun _ => rfl) ?_ (by decide +kernel)⟩
  exact ⟨by decide +kernel, by decide +kernel, by decide +kernel, by decide +kernel⟩

/-- The first reload writes new fragments and then fails in its hook; the operator mends the hook
and reloads. -/
def failedHook : Oracle :=
  reloading fun c =>
    ⟨⟨"new", "", ""⟩, .ok true, if c < 20 then .error "post_generate_hook failed" else .ok ()⟩

/-- The second reload succeeds and finds the fragments unchanged; Ganesha goes on serving the old
ones. -/
theorem not_reloadApplied_failedHook :
    HostNfsOff failedHook ∧ ReloadTick failedHook (supervise failedHook ⟨"old", "", ""⟩ 1) ∧
      ¬ ReloadApplied failedHook (supervise failedHook ⟨"old", "", ""⟩ 1) := by
  refine ⟨fun _ => rfl,
    ⟨by decide +kernel, by decide +kernel, by decide +kernel, by decide +kernel⟩, fun h => ?_⟩
  have hstale := h (by decide +kernel) (by decide +kernel)
  exact absurd hstale (by decide +kernel)

-- the other excuse: a recycle that wrote new fragments could not kill the old Ganesha
example :
    let o := { reloading fun _ => ⟨⟨"new", "", ""⟩, .ok true, .ok ()⟩ with
      fullRecycleRequested := fun c => c == 17 }
    (handleSighup o (supervise o ⟨"old", "", ""⟩ 1)).1 = .ok () ∧
      (handleSighup o (supervise o ⟨"old", "", ""⟩ 1)).2.ganeshas = [0] ∧
      (handleSighup o (supervise o ⟨"old", "", ""⟩ 1)).2.stale = true := by
  decide +kernel

end NfsKlldap
