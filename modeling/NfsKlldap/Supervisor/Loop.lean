import NfsKlldap.Supervisor.Ganesha

/-! # The supervisor loop (`supervisor/mod.rs`)

Bring-up, reload, forced recycle and the Idle pass, and the loop that picks one of them per tick.
`supervise o n` is the machine after `n` ticks against the environment `o`.

A reload regenerates the derived files and compares each of them with what was on disk **before this
run**; a step that fails leaves what it wrote so far (`GenerateRun.disk`) and returns early. -/

namespace NfsKlldap

/-! ## Regeneration -/

/-- Fingerprint deltas reported by `regenerateAndDiff`. -/
structure FingerprintChanges where
  exportsChanged : Bool
  identityChanged : Bool
  sharesChanged : Bool
  avahiChanged : Bool
  deriving DecidableEq, Repr

/-- The generator has written `d`. -/
def Machine.generate (s : Machine) (d : DerivedFiles) : Machine :=
  { s with disk := d, stale := s.stale || d.exports != s.disk.exports }

/-- How a generator run and its hooks ended, in the words of the caller: `spawn` for a generator
that could not be run, `exit` for one that failed. -/
def GenerateRun.result (run : GenerateRun) (spawn exit : String) : Except String Unit :=
  match run.status with
  | .error e => .error (spawn ++ e)
  | .ok false => .error exit
  | .ok true => run.hooks

/-- Regenerate all derived config and report which fingerprints moved (`regenerate_and_diff`). -/
def regenerateAndDiff (o : Oracle) (s : Machine) : Except String FingerprintChanges × Machine :=
  let before := s.disk
  let s := pass o s
  let run := o.generate s.clock
  let s := s.generate run.disk
  match run.result "generate on reload failed: " "config generate failed" with
  | .error e =>
    (.error e, s.note (.regenerateFailed (run.disk.exports != before.exports) (!s.ganeshas.isEmpty)))
  | .ok () =>
    -- the mode is re-read only after generator and hooks have succeeded
    let s := { s with hostNfsMode := o.resolveHostNfsMode s.clock }
    let sharesBefore := s.lastSharesFingerprint
    let sharesAfter := ((o.config s.clock).map LoadedConfig.sharesFingerprint).getD sharesBefore
    (.ok {
        exportsChanged := fingerprintExportsDir before != fingerprintExportsDir run.disk
        identityChanged := fingerprintIdentityArtifacts before != fingerprintIdentityArtifacts run.disk
        sharesChanged := sharesBefore != sharesAfter
        avahiChanged := fingerprintAvahiDir before != fingerprintAvahiDir run.disk },
      { s with lastSharesFingerprint := sharesAfter })

/-! ## Recycling -/

/-- First half of a recycle, and the plan as it stands afterwards: a reload that reached no Ganesha
has become a stop/start. -/
def takeDownGanesha (o : Oracle) (plan : ServiceRecyclePlan) (s : Machine) :
    ServiceRecyclePlan × Machine :=
  if s.hostNfsMode then (plan, s)
  else
    match plan.ganesha with
    | .skip => (plan, s)
    | .sighup =>
      let reload := reloadGaneshaExports o s
      if reload.1 then (plan, reload.2)
      else
        let running := ganeshaRunning o reload.2
        (ganeshaSighupFailed plan, if running.1 then stopGanesha o running.2 else running.2)
    | .stopStart => (plan, stopGanesha o s)

/-- Second half of a recycle: start Ganesha unless one is still running. -/
def bringBackGanesha (o : Oracle) (plan : ServiceRecyclePlan) (s : Machine) : Machine :=
  if !s.hostNfsMode && plan.ganesha = .stopStart then
    let running := ganeshaRunning o s
    if running.1 then running.2 else startGanesha o (ensureGaneshaPrereqs o running.2)
  else s

/-- The identity services between the halves. -/
def restartIdentity (o : Oracle) (plan : ServiceRecyclePlan) (s : Machine) : Machine :=
  let s := if plan.restartSssd then restartSssdAndWait o s else s
  if plan.restartIdhelper then restartIdhelperAndWaitBulk o s else s

/-- The WebUI's part of a recycle. -/
def recycleWebui (o : Oracle) (s : Machine) : WebuiAction → Machine
  | .skip => s
  | .restart => (startWebui o s).2
  | .reload => reloadWebui o s

/-- The WebUI and Avahi at the end. -/
def recycleFrontends (o : Oracle) (plan : ServiceRecyclePlan) (s : Machine) : Machine :=
  let s := recycleWebui o s plan.webui
  if plan.restartAvahi then startAvahi o (stopAvahi o s) else s

/-- Carry out a plan (`execute_recycle_plan`). -/
def executeRecyclePlan (o : Oracle) (plan : ServiceRecyclePlan) (s : Machine) : Machine :=
  if plan.isNoop then s
  else
    let down := takeDownGanesha o plan s
    recycleFrontends o down.1 (bringBackGanesha o down.1 (restartIdentity o down.1 down.2))

/-- Shared recycle epilogue (`finish_recycle`). -/
def finishRecycle (o : Oracle) (s : Machine) : Machine :=
  if !s.servicesStarted then (startWatcher o { s with servicesStarted := true }).2 else s

/-- The plan of a reload: scoped to the changes, or the full one while the services are down. -/
def sighupPlan (o : Oracle) (changes : FingerprintChanges) (s : Machine) :
    ServiceRecyclePlan × Machine :=
  if s.servicesStarted then
    let running := ganeshaRunning o s
    (planFromChanges changes.exportsChanged changes.identityChanged changes.sharesChanged
      s.hostNfsMode running.1, running.2)
  else (planFullRecycle s.hostNfsMode, s)

/-- The second half of a reload: carry out the plan, and have Avahi re-read its files unless the
plan bounced it. -/
def applyChanges (o : Oracle) (changes : FingerprintChanges) (s : Machine) : Machine :=
  let planned := sighupPlan o changes s
  let s := executeRecyclePlan o planned.1 planned.2
  if changes.avahiChanged && !planned.1.restartAvahi then reloadAvahiServices o s else s

/-- Scoped reload (`handle_sighup`). -/
def handleSighup (o : Oracle) (s : Machine) : Except String Unit × Machine :=
  let regen := regenerateAndDiff o (refreshTrackedGaneshaPid o s)
  match regen.1 with
  -- what was written stays on disk
  | .error e => (.error e, regen.2)
  | .ok changes => (.ok (), finishRecycle o (applyChanges o changes regen.2))

/-- Forced full recycle (`handle_full_recycle`). -/
def handleFullRecycle (o : Oracle) (s : Machine) : Except String Unit × Machine :=
  let regen := regenerateAndDiff o (refreshTrackedGaneshaPid o s)
  match regen.1 with
  | .error e => (.error e, regen.2)
  | .ok _ =>
    (.ok (), finishRecycle o (executeRecyclePlan o (planFullRecycle regen.2.hostNfsMode) regen.2))

/-! ## Bring-up -/

/-- The identity services, then Ganesha and Avahi unless the host serves NFS. -/
def startStack (o : Oracle) (s : Machine) : Machine :=
  let s := restartIdhelperAndWaitBulk o (restartSssdAndWait o s)
  if s.hostNfsMode then s else startAvahi o (startGanesha o (ensureGaneshaPrereqs o s))

/-- Generate, then start the services (`bring_up_services`). -/
def bringUpServices (o : Oracle) (s : Machine) : Except String Unit × Machine :=
  let s := pass o s
  let run := o.generate s.clock
  let s := s.generate run.disk
  match run.result "generate failed: " "Initial config generation failed" with
  | .error e => (.error e, s)
  | .ok () =>
    -- a config that does not load counts as no shares here, as the old ones in a reload
    let shares := ((o.config s.clock).map LoadedConfig.sharesFingerprint).getD 0
    (.ok (), startStack o { s with lastSharesFingerprint := shares })

/-- Probe the new Ganesha (`wait_for_ganesha_readiness`; the probes change nothing the supervisor
keeps). -/
def waitForGaneshaReadiness (o : Oracle) (s : Machine) : Machine :=
  if s.hostNfsMode then s
  else if !o.idhelperSocket s.clock then s
  else pass o (refreshTrackedGaneshaPid o s)

/-! ## The Idle pass -/

/-- A managed child is down (`respawn_needed`). -/
def respawnNeeded (o : Oracle) (s : Machine) : Service → Bool
  | .webui => s.pids.webui.any dead
  | .watcher => s.servicesStarted && s.pids.watcher.any dead
  | .sssd => s.servicesStarted && s.pids.sssd.any dead
  | .idhelper => s.servicesStarted && s.pids.idhelper.any dead
  | .dbus => s.servicesStarted && s.pids.dbus.any dead
  | .ganesha => s.ganeshaManaged && !s.hostNfsMode && !trackedLive o s
  | .avahi => s.avahiManaged && !s.hostNfsMode && !s.pids.avahi.any (processIsLive o s)
where
  dead (pid : Pid) : Bool := !processIsLive o s pid

/-- Revive a child (`respawn_service`). -/
def respawnService (o : Oracle) (s : Machine) : Service → Machine
  | .webui => (startWebui o s).2
  | .watcher => (startWatcher o s).2
  | .sssd => restartSssdAndWait o s
  | .idhelper => restartIdhelperAndWaitBulk o s
  | .dbus => ensureGaneshaPrereqs o s
  | .ganesha => startGanesha o s
  | .avahi => startAvahi o s

/-- One service of the Idle pass. -/
def checkAndRespawn (o : Oracle) (now : Nat) (s : Machine) (service : Service) : Machine :=
  let s := pass o s
  if !respawnNeeded o s service then s
  else
    -- the budget is charged before the attempt, whatever comes of it
    let decision := s.respawn.decide service now
    let s := { s with respawn := decision.2 }
    match decision.1 with
    | .go => respawnService o s service
    | _ => s

/-- Steady-state liveness (`check_and_respawn_services`). -/
def checkAndRespawnServices (o : Oracle) (s : Machine) : Machine :=
  Service.all.foldl (checkAndRespawn o (o.now s.clock)) s

/-! ## The loop -/

/-- Shut down (`cleanup`). -/
def cleanup (o : Oracle) (s : Machine) : Machine :=
  { stopGanesha o (pass o s) with ganeshaManaged := false, avahiManaged := false, exited := true }

/-- What this tick does. -/
def tickAction (o : Oracle) (s : Machine) : SupervisorLoopAction :=
  supervisorLoopTick s.servicesStarted (o.sighupRequested s.clock) (o.fullRecycleRequested s.clock)
    (o.setupWizardComplete s.clock) (if s.servicesStarted then .ready else o.startupStep s.clock)

/-- After a reload or a recycle: the services count as started, and a watcher that was never started
is; a failed one changes nothing more. -/
def afterRecycle (o : Oracle) (needWatcher : Bool) (r : Except String Unit × Machine) : Machine :=
  match r.1 with
  | .ok () =>
    let s := { r.2 with servicesStarted := true }
    if needWatcher then (startWatcher o s).2 else s
  | .error _ => r.2

/-- After a bring-up from the loop. -/
def afterBringUp (o : Oracle) (r : Except String Unit × Machine) : Machine :=
  match r.1 with
  | .ok () =>
    let s := (startWatcher o { r.2 with servicesStarted := true }).2
    let s := if !s.hostNfsMode && s.pids.ganesha.isSome then waitForGaneshaReadiness o s else s
    (startWebui o s).2
  | .error _ => r.2

/-- After the bring-up of a preconfigured deployment. -/
def afterPreconfigured (o : Oracle) (r : Except String Unit × Machine) : Machine :=
  match r.1 with
  | .ok () =>
    let s := { r.2 with servicesStarted := true }
    let s := (startWatcher o (if !s.hostNfsMode then waitForGaneshaReadiness o s else s)).2
    if !s.hostNfsMode then (startWebui o s).2 else s
  | .error _ => { r.2 with exited := true }

/-- One pass of the loop (`supervisor_loop`). -/
def loopTick (o : Oracle) (s : Machine) : Machine :=
  if s.exited then s
  else if o.shutdownRequested s.clock then cleanup o s
  else
    -- the tick ends by reaping children and sleeping
    pass o (match tickAction o s with
      | .processSighup => afterRecycle o s.pids.watcher.isNone (handleSighup o s)
      | .processFullRecycle => afterRecycle o s.pids.watcher.isNone (handleFullRecycle o s)
      | .bringUpServices => afterBringUp o (bringUpServices o s)
      | .idle => checkAndRespawnServices o s)

/-- Pid 1 before anything has happened, with `disk` as the last container left it. -/
def bootMachine (o : Oracle) (disk : DerivedFiles) : Machine where
  hostNfsMode := o.resolveHostNfsMode 0
  pids := {}
  servicesStarted := false
  ganeshaManaged := false
  avahiManaged := false
  lastSharesFingerprint := 0
  respawn := RespawnBudget.empty
  exited := false
  clock := 0
  ganeshas := []
  spawned := 0
  disk := disk
  stale := false
  history := []
  events := []

/-- Up to the loop (`run_supervisor`): the whole stack of a preconfigured deployment, else the WebUI
for the wizard. -/
def runSupervisor (o : Oracle) (disk : DerivedFiles) : Machine :=
  let s := bootMachine o disk
  match o.preflight with
  | .error _ => { s with exited := true }
  | .ok () =>
    if o.preconfigured s.clock then afterPreconfigured o (bringUpServices o s)
    else
      let r := startWebui o s
      match r.1 with
      | .error _ => { r.2 with exited := true }
      | .ok () => r.2

/-- The machine after `n` ticks of the loop. -/
def supervise (o : Oracle) (disk : DerivedFiles) : Nat → Machine
  | 0 => runSupervisor o disk
  | n + 1 => loopTick o (supervise o disk n)

/-- A calm environment: a preconfigured deployment in which every child starts and none dies, no
signal arrives and the generator has nothing new to write. -/
def calm (disk : DerivedFiles) : Oracle where
  dies := fun _ _ => false
  otherLive := fun _ _ => true
  polls := fun _ => 1
  spawns := fun _ => true
  spawnsOther := fun c => .ok c
  dbusRunning := fun _ => true
  idhelperSocket := fun _ => true
  nssReady := fun _ => true
  allowLdapDegraded := fun _ => false
  pidfile := fun _ => none
  config := fun _ => some ⟨1, false, false, true⟩
  resolveHostNfsMode := fun _ => false
  generate := fun _ => ⟨disk, .ok true, .ok ()⟩
  now := fromSecs
  shutdownRequested := fun _ => false
  sighupRequested := fun _ => false
  fullRecycleRequested := fun _ => false
  setupWizardComplete := fun _ => true
  startupStep := fun _ => .ready
  preconfigured := fun _ => true
  preflight := .ok ()

end NfsKlldap
