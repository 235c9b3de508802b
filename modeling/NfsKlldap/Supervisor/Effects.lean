import NfsKlldap.Supervisor.Loop

/-! # What a run of the supervisor consists of

`Effect` lists everything a tick can do: it tends a Ganesha it keeps, gives up one that is down,
regenerates the derived files, re-reads the mode, declares the services started, or quits. Every
function of the loop is a sequence of effects (`Effects`), hence so is a whole run
(`supervise_effects`): an invariant is proved once, effect by effect. -/

namespace NfsKlldap

open Relation

variable {o : Oracle} {s : Machine}

/-- One thing a tick can do. -/
inductive Effect (o : Oracle) : Machine → Machine → Prop
  | tend {s s' : Machine} (h : Tend s s') : Effect o s s'
  /-- Give up a Ganesha that is down. -/
  | unmanage {s : Machine} (h : s.pids.ganesha = none) :
      Effect o s { s with ganeshaManaged := false }
  | generate {s : Machine} (d : DerivedFiles) : Effect o s (s.generate d)
  | setMode {s : Machine} (c : Nat) : Effect o s { s with hostNfsMode := o.resolveHostNfsMode c }
  | started {s : Machine} : Effect o s { s with servicesStarted := true }
  | quit {s : Machine} (managed avahi : Bool) :
      Effect o s { s with ganeshaManaged := managed, avahiManaged := avahi, exited := true }

/-- A sequence of effects. -/
abbrev Effects (o : Oracle) : Machine → Machine → Prop := ReflTransGen (Effect o)

/-- Tending is among the things the supervisor does. -/
theorem Tends.effects {s' : Machine} (h : Tends s s') : Effects o s s' := by
  induction h with
  | refl => exact ReflTransGen.refl
  | tail _ h ih => exact ih.tail (Effect.tend h)

/-- Letting time pass is among the things the supervisor does. -/
theorem Elapsed.effects {s' : Machine} (h : Elapsed s s') : Effects o s s' := h.tends.effects

/-- A dead Ganesha is forgotten and given up. -/
theorem release_effects (h : TrackedDead s) : Effects o s s.release :=
  (ReflTransGen.single (Effect.tend (Tend.forget h))).tail (Effect.unmanage rfl)

/-- The end of a successful wait. -/
theorem release_awaitExit_effects {pid : Pid} {polls : Nat} (hs : s.pids.ganesha = some pid)
    (h : (awaitExit o pid polls s).1 = true) :
    Effects o s (awaitExit o pid polls s).2.release := by
  have he := awaitExit_elapsed (o := o) (s := s) pid polls
  -- the wait ended on a dead process, and only time has passed since the pid was read
  exact he.effects.trans
    (release_effects (trackedDead_of_not_live (he.tracked.trans hs) (awaitExit_dead h)))

/-- A stop tends, and unmanages a Ganesha that is gone. -/
theorem stopGanesha_effects : Effects o s (stopGanesha o s) := by
  have h₁ := refreshTrackedGaneshaPid_tends (o := o) (s := s)
  unfold stopGanesha
  dsimp only
  split
  · next hnone => exact h₁.effects.tail (Effect.unmanage hnone)
  next pid hpid =>
  have h₂ : Effects o s _ := h₁.effects.trans (Elapsed.pass o _).effects
  split_ifs with hdead hterm hkill
  · refine h₂.trans (release_effects ?_)
    exact trackedDead_of_not_live (o := o) (s := pass o _) hpid (by simpa using hdead)
  · exact h₂.trans (release_awaitExit_effects hpid hterm)
  all_goals
    -- both remaining exits come after the wait for SIGTERM
    have ht := awaitExit_elapsed (o := o) (s := pass o (refreshTrackedGaneshaPid o s)) pid
      (o.polls (pass o (refreshTrackedGaneshaPid o s)).clock)
    have hk := ht.trans (Elapsed.pass o _)
  · exact (h₂.trans hk.effects).trans (release_awaitExit_effects (hk.tracked.trans hpid) hkill)
  · exact ((h₂.trans hk.effects).trans (awaitExit_elapsed pid _).effects).tail
      (Effect.tend (Tend.note _))

/-- A stopped Ganesha is no longer tracked; one that could not be stopped has outlived SIGKILL. -/
theorem stopGanesha_cases :
    (stopGanesha o s).pids.ganesha = none ∨
      Event.survivedKill (stopGanesha o s).stale ∈ (stopGanesha o s).events := by
  unfold stopGanesha
  dsimp only
  split
  · next hnone => exact Or.inl hnone
  · split_ifs
    · exact Or.inl rfl
    · exact Or.inl rfl
    · exact Or.inl rfl
    -- the survivor of SIGKILL
    · exact Or.inr List.mem_cons_self

/-- A regeneration runs the generator, notes a failure and sets the mode. -/
theorem regenerateAndDiff_effects : Effects o s (regenerateAndDiff o s).2 := by
  have h : Effects o s _ :=
    (Elapsed.pass o s).effects.tail (Effect.generate (o.generate (pass o s).clock).disk)
  unfold regenerateAndDiff
  dsimp only
  split
  · exact h.tail (Effect.tend (Tend.note _))
  · exact (h.tail (Effect.setMode _)).trans (Elapsed.lastSharesFingerprint _ _).effects

/-- A regeneration starts no services. -/
theorem servicesStarted_regenerate :
    (regenerateAndDiff o s).2.servicesStarted = s.servicesStarted := by
  unfold regenerateAndDiff
  dsimp only
  split <;> rfl

/-- The first half of a recycle stops or signals Ganesha. -/
theorem takeDownGanesha_effects (plan : ServiceRecyclePlan) :
    Effects o s (takeDownGanesha o plan s).2 := by
  unfold takeDownGanesha
  split
  · exact ReflTransGen.refl
  split
  · exact ReflTransGen.refl
  · have hr : Effects o s _ := (reloadGaneshaExports_tends (o := o) (s := s)).effects
    dsimp only
    split
    · exact hr
    · have hg : Effects o s _ := hr.trans (ganeshaRunning_tends (o := o)).effects
      dsimp only
      split
      · exact hg.trans stopGanesha_effects
      · exact hg
  · exact stopGanesha_effects

/-- The first half of a recycle outside HOST_NFS mode, by the action of the plan. -/
theorem takeDownGanesha_cases (plan : ServiceRecyclePlan) (hmode : s.hostNfsMode = false) :
    (plan.ganesha = .skip ∧ takeDownGanesha o plan s = (plan, s)) ∨
    (plan.ganesha = .sighup ∧ (reloadGaneshaExports o s).1 = true ∧
      takeDownGanesha o plan s = (plan, (reloadGaneshaExports o s).2)) ∨
    (plan.ganesha = .sighup ∧ (takeDownGanesha o plan s).1.ganesha = .stopStart ∧
      ((takeDownGanesha o plan s).2 = (ganeshaRunning o (reloadGaneshaExports o s).2).2 ∨
        (takeDownGanesha o plan s).2 =
          stopGanesha o (ganeshaRunning o (reloadGaneshaExports o s).2).2)) ∨
    (plan.ganesha = .stopStart ∧ takeDownGanesha o plan s = (plan, stopGanesha o s)) := by
  unfold takeDownGanesha
  rw [if_neg (by simp [hmode])]
  cases hplan : plan.ganesha with
  | skip => exact Or.inl ⟨rfl, rfl⟩
  | stopStart => exact Or.inr (Or.inr (Or.inr ⟨rfl, rfl⟩))
  | sighup =>
    right
    dsimp only
    cases hreload : (reloadGaneshaExports o s).1 with
    | true => exact Or.inl ⟨rfl, rfl, rfl⟩
    | false =>
      -- the escalation: whatever still runs is stopped, and the plan now says stop/start
      refine Or.inr (Or.inl ⟨rfl, by simp [ganeshaSighupFailed, hplan], ?_⟩)
      rw [if_neg Bool.false_ne_true]
      dsimp only
      split
      · exact Or.inr rfl
      · exact Or.inl rfl

/-- The second half of a recycle only tends. -/
theorem bringBackGanesha_tends (plan : ServiceRecyclePlan) :
    Tends s (bringBackGanesha o plan s) := by
  unfold bringBackGanesha
  split
  · dsimp only
    split
    · exact ganeshaRunning_tends
    · exact (ganeshaRunning_tends.trans (Elapsed.ensureGaneshaPrereqs o _).tends).trans
        startGanesha_tends
  · exact ReflTransGen.refl

/-- Restarting the identity services leaves Ganesha alone. -/
theorem restartIdentity_elapsed (plan : ServiceRecyclePlan) :
    Elapsed s (restartIdentity o plan s) := by
  unfold restartIdentity
  dsimp only
  have hs : Elapsed s (if plan.restartSssd then restartSssdAndWait o s else s) := by
    split
    · exact Elapsed.restartSssdAndWait o s
    · exact Elapsed.refl s
  split
  · exact hs.trans (Elapsed.restartIdhelperAndWaitBulk o _)
  · exact hs

/-- Recycling the web interface leaves Ganesha alone. -/
theorem recycleWebui_elapsed (action : WebuiAction) : Elapsed s (recycleWebui o s action) := by
  cases action with
  | skip => exact Elapsed.refl s
  | restart => exact Elapsed.startWebui o s
  | reload => exact Elapsed.reloadWebui o s

/-- Recycling the front ends leaves Ganesha alone. -/
theorem recycleFrontends_elapsed (plan : ServiceRecyclePlan) :
    Elapsed s (recycleFrontends o plan s) := by
  have hw := recycleWebui_elapsed (o := o) (s := s) plan.webui
  unfold recycleFrontends
  dsimp only
  split
  · exact (hw.trans (Elapsed.stopAvahi o _)).trans (Elapsed.startAvahi o _)
  · exact hw

/-- A recycle is a run of effects. -/
theorem executeRecyclePlan_effects (plan : ServiceRecyclePlan) :
    Effects o s (executeRecyclePlan o plan s) := by
  unfold executeRecyclePlan
  split
  · exact ReflTransGen.refl
  · exact (((takeDownGanesha_effects plan).trans (restartIdentity_elapsed _).effects).trans
      (bringBackGanesha_tends _).effects).trans (recycleFrontends_elapsed _).effects

/-- The end of a recycle only marks the services as started. -/
theorem finishRecycle_effects : Effects o s (finishRecycle o s) := by
  unfold finishRecycle
  split
  · exact (ReflTransGen.single Effect.started).trans (Elapsed.startWatcher o _).effects
  · exact ReflTransGen.refl

/-- Planning a reload only tends. -/
theorem sighupPlan_tends (changes : FingerprintChanges) : Tends s (sighupPlan o changes s).2 := by
  unfold sighupPlan
  split
  · exact ganeshaRunning_tends
  · exact ReflTransGen.refl

/-- Both kinds of recycle begin by regenerating. -/
theorem regenerate_effects :
    Effects o s (regenerateAndDiff o (refreshTrackedGaneshaPid o s)).2 :=
  refreshTrackedGaneshaPid_tends.effects.trans regenerateAndDiff_effects

/-- Applying the changes of a regeneration is a run of effects. -/
theorem applyChanges_effects (changes : FingerprintChanges) :
    Effects o s (applyChanges o changes s) := by
  unfold applyChanges
  dsimp only
  have he : Effects o s _ := (sighupPlan_tends (o := o) (s := s) changes).effects.trans
    (executeRecyclePlan_effects (o := o) (sighupPlan o changes s).1)
  split
  · exact he.trans (Elapsed.reloadAvahiServices o _).effects
  · exact he

/-- A reload is a run of effects. -/
theorem handleSighup_effects : Effects o s (handleSighup o s).2 := by
  unfold handleSighup
  dsimp only
  have hr := regenerate_effects (o := o) (s := s)
  split
  · exact hr
  · exact (hr.trans (applyChanges_effects _)).trans finishRecycle_effects

/-- A full recycle is a run of effects. -/
theorem handleFullRecycle_effects : Effects o s (handleFullRecycle o s).2 := by
  unfold handleFullRecycle
  dsimp only
  have hr := regenerate_effects (o := o) (s := s)
  split
  · exact hr
  · exact (hr.trans (executeRecyclePlan_effects _)).trans finishRecycle_effects

/-- Starting the stack only tends. -/
theorem startStack_tends : Tends s (startStack o s) := by
  unfold startStack
  dsimp only
  have hi := (Elapsed.restartSssdAndWait o s).trans (Elapsed.restartIdhelperAndWaitBulk o _)
  split
  · exact hi.tends
  · exact ((hi.trans (Elapsed.ensureGaneshaPrereqs o _)).tends.trans startGanesha_tends).trans
      (Elapsed.startAvahi o _).tends

/-- A bring-up is a run of effects. -/
theorem bringUpServices_effects : Effects o s (bringUpServices o s).2 := by
  unfold bringUpServices
  dsimp only
  have hg : Effects o s _ :=
    (Elapsed.pass o s).effects.tail (Effect.generate (o.generate (pass o s).clock).disk)
  split
  · exact hg
  · exact (hg.trans (Elapsed.lastSharesFingerprint _ _).effects).trans startStack_tends.effects

/-- Waiting for Ganesha only tends. -/
theorem waitForGaneshaReadiness_tends : Tends s (waitForGaneshaReadiness o s) := by
  unfold waitForGaneshaReadiness
  split_ifs
  · exact ReflTransGen.refl
  · exact ReflTransGen.refl
  · exact refreshTrackedGaneshaPid_tends.trans (Elapsed.pass o _).tends

/-- A respawn only tends. -/
theorem respawnService_tends (service : Service) : Tends s (respawnService o s service) := by
  cases service with
  | webui => exact (Elapsed.startWebui o s).tends
  | watcher => exact (Elapsed.startWatcher o s).tends
  | sssd => exact (Elapsed.restartSssdAndWait o s).tends
  | idhelper => exact (Elapsed.restartIdhelperAndWaitBulk o s).tends
  | dbus => exact (Elapsed.ensureGaneshaPrereqs o s).tends
  | ganesha => exact startGanesha_tends
  | avahi => exact (Elapsed.startAvahi o s).tends

/-- Checking a service, and respawning it if it is down, only tends. -/
theorem checkAndRespawn_tends (now : Nat) (service : Service) :
    Tends s (checkAndRespawn o now s service) := by
  unfold checkAndRespawn
  dsimp only
  have hp := Elapsed.pass o s
  split
  · exact hp.tends
  · have hr := (hp.trans (Elapsed.respawn _ ((pass o s).respawn.decide service now).2)).tends
    split
    · exact hr.trans (respawnService_tends service)
    · exact hr

/-- The Idle pass only ever tends. -/
theorem checkAndRespawnServices_tends : Tends s (checkAndRespawnServices o s) := by
  unfold checkAndRespawnServices
  generalize o.now s.clock = now
  -- along the services in their order
  induction Service.all generalizing s with
  | nil => exact ReflTransGen.refl
  | cons service services ih => exact (checkAndRespawn_tends now service).trans ih

/-- The Idle pass does not start a Ganesha that is not managed. -/
theorem checkAndRespawnServices_elapsed (hm : s.ganeshaManaged = false) :
    Elapsed s (checkAndRespawnServices o s) := by
  have hstep (s : Machine) (now : Nat) (service : Service) (hm : s.ganeshaManaged = false) :
      Elapsed s (checkAndRespawn o now s service) := by
    unfold checkAndRespawn
    dsimp only
    have hp := Elapsed.pass o s
    split
    · exact hp
    next hneeded =>
    have hr := hp.trans (Elapsed.respawn _ ((pass o s).respawn.decide service now).2)
    split
    · cases service with
      | webui => exact hr.trans (Elapsed.startWebui o _)
      | watcher => exact hr.trans (Elapsed.startWatcher o _)
      | sssd => exact hr.trans (Elapsed.restartSssdAndWait o _)
      | idhelper => exact hr.trans (Elapsed.restartIdhelperAndWaitBulk o _)
      | dbus => exact hr.trans (Elapsed.ensureGaneshaPrereqs o _)
      -- the one case that could touch Ganesha is not reached without the flag
      | ganesha => exact absurd hneeded (by simp [respawnNeeded, hp.managed, hm])
      | avahi => exact hr.trans (Elapsed.startAvahi o _)
    · exact hr
  unfold checkAndRespawnServices
  generalize o.now s.clock = now
  induction Service.all generalizing s with
  | nil => exact Elapsed.refl s
  | cons service services ih =>
    have h := hstep s now service hm
    exact h.trans (ih (h.managed.trans hm))

/-- What follows a recycle adds a run of effects to it. -/
theorem afterRecycle_effects (needWatcher : Bool) {r : Except String Unit × Machine}
    (h : Effects o s r.2) : Effects o s (afterRecycle o needWatcher r) := by
  unfold afterRecycle
  split
  · have hs : Effects o s _ := h.tail Effect.started
    dsimp only
    split
    · exact hs.trans (Elapsed.startWatcher o _).effects
    · exact hs
  · exact h

/-- What follows a bring-up adds a run of effects to it. -/
theorem afterBringUp_effects {r : Except String Unit × Machine} (h : Effects o s r.2) :
    Effects o s (afterBringUp o r) := by
  unfold afterBringUp
  split
  · have hw : Effects o s _ := (h.tail Effect.started).trans (Elapsed.startWatcher o _).effects
    dsimp only
    split
    · exact (hw.trans waitForGaneshaReadiness_tends.effects).trans (Elapsed.startWebui o _).effects
    · exact hw.trans (Elapsed.startWebui o _).effects
  · exact h

/-- What follows the start of a configured stack adds a run of effects to it. -/
theorem afterPreconfigured_effects {r : Except String Unit × Machine} (h : Effects o s r.2) :
    Effects o s (afterPreconfigured o r) := by
  unfold afterPreconfigured
  split
  · have hs : Effects o s _ := h.tail Effect.started
    have hr : Effects o s _ := hs.trans (waitForGaneshaReadiness_tends (o := o)).effects
    dsimp only
    split_ifs
    · exact (hr.trans (Elapsed.startWatcher o _).effects).trans (Elapsed.startWebui o _).effects
    · exact hr.trans (Elapsed.startWatcher o _).effects
    · exact (hs.trans (Elapsed.startWatcher o _).effects).trans (Elapsed.startWebui o _).effects
    · exact hs.trans (Elapsed.startWatcher o _).effects
  · exact h.tail (Effect.quit _ _)

/-- **A tick of the loop is a run of effects.** -/
theorem loopTick_effects : Effects o s (loopTick o s) := by
  unfold loopTick
  split_ifs
  · exact ReflTransGen.refl
  · exact ((Elapsed.pass o s).effects.trans stopGanesha_effects).tail (Effect.quit false false)
  · refine ReflTransGen.trans ?_ (Elapsed.pass o _).effects
    split
    · exact afterRecycle_effects _ handleSighup_effects
    · exact afterRecycle_effects _ handleFullRecycle_effects
    · exact afterBringUp_effects bringUpServices_effects
    · exact checkAndRespawnServices_tends.effects

/-- **So is everything up to the first tick.** -/
theorem runSupervisor_effects (o : Oracle) (disk : DerivedFiles) :
    Effects o (bootMachine o disk) (runSupervisor o disk) := by
  unfold runSupervisor
  dsimp only
  split
  · exact ReflTransGen.single (Effect.quit _ _)
  split
  · exact afterPreconfigured_effects bringUpServices_effects
  · have hw : Effects o _ _ := (Elapsed.startWebui o (bootMachine o disk)).effects
    split
    · exact hw.tail (Effect.quit _ _)
    · exact hw

/-- **A run is a sequence of effects.** -/
theorem supervise_effects (o : Oracle) (disk : DerivedFiles) (n : Nat) :
    Effects o (bootMachine o disk) (supervise o disk n) := by
  induction n with
  | zero => exact runSupervisor_effects o disk
  | succ n ih => exact ih.trans loopTick_effects

end NfsKlldap
