import NfsKlldap.Supervisor.RecyclePlan

/-! # The supervisor and the processes around it (`Supervisor`, `ChildPids`)

The state of pid 1 beside the part of the outside world its decisions depend on: which Ganeshas are
alive and what the generator has left on disk. Everything the supervisor does not decide is an
`Oracle`, a function of the clock: when a process dies, whether a spawn, a warm-up, a generator run
or a hook succeeds, which signals are pending. Quantifying over the oracle quantifies over every
schedule.

* `pass` lets time go by. It stands before every reading of the outside world, so that a process may
  die between any two of them. No signal has a forced effect: a process may survive SIGKILL, or exit
  without any signal.
* A pid is never reused (`Pid.ganesha n` is the `n`-th `ganesha.nfsd` the supervisor spawned), and a
  dead Ganesha stays dead (`pass` only removes).
* `Elapsed` is the **frame** of everything that concerns other services: Ganesha may have died in
  the meantime, and nothing else about it has changed.

Three fields are ghosts that no function reads: `stale`, `history` and `events`. Probe modes of the
test suite are left out. -/

namespace NfsKlldap

/-! ## State -/

/-- A process id. Pids are not reused: one Ganesha, one number. -/
inductive Pid where
  /-- The `n`-th `ganesha.nfsd` spawned by the supervisor. -/
  | ganesha (n : Nat)
  /-- Any other process. -/
  | other (n : Nat)
  deriving DecidableEq, Repr

/-- The children the supervisor keeps track of. -/
structure ChildPids where
  watcher : Option Pid := none
  sssd : Option Pid := none
  ganesha : Option Pid := none
  webui : Option Pid := none
  dbus : Option Pid := none
  idhelper : Option Pid := none
  avahi : Option Pid := none
  deriving DecidableEq, Repr

/-- The children other than Ganesha. -/
inductive Sidecar where
  | watcher
  | sssd
  | webui
  | dbus
  | idhelper
  | avahi
  deriving DecidableEq, Repr

/-- Write the pid of a sidecar. -/
def ChildPids.put (c : ChildPids) (p : Option Pid) : Sidecar → ChildPids
  | .watcher => { c with watcher := p }
  | .sssd => { c with sssd := p }
  | .webui => { c with webui := p }
  | .dbus => { c with dbus := p }
  | .idhelper => { c with idhelper := p }
  | .avahi => { c with avahi := p }

/-- Recording a sidecar's pid leaves Ganesha's. -/
@[simp] theorem ChildPids.put_ganesha (c : ChildPids) (p : Option Pid) (k : Sidecar) :
    (c.put p k).ganesha = c.ganesha := by
  cases k <;> rfl

/-- The derived files a reload compares: export fragments, identity artifacts, Navahi adverts. -/
structure DerivedFiles where
  exports : String
  identity : String
  avahi : String
  deriving DecidableEq, Repr

/-- Fingerprints are taken to be free of collisions: a fingerprint is the content itself. -/
def fingerprintExportsDir (d : DerivedFiles) : String := d.exports

/-- The fingerprint of the identity services' files. -/
def fingerprintIdentityArtifacts (d : DerivedFiles) : String := d.identity

/-- The fingerprint of the service files. -/
def fingerprintAvahiDir (d : DerivedFiles) : String := d.avahi

/-- A moment of a run: the tracked Ganesha and the live ones. -/
structure Moment where
  tracked : Option Pid
  live : List Nat
  deriving DecidableEq, Repr

/-- What the environment did to the supervisor, as far as the results ask. -/
inductive Event where
  /-- `start_ganesha` got no process: the warm-up was incomplete or the spawn failed. Beside it the
  `ganesha_managed` flag of that moment. -/
  | startFailed (managed : Bool)
  /-- A Ganesha outlived SIGKILL; beside it whether the fragments had changed since it was last
  spawned or signalled. -/
  | survivedKill (stale : Bool)
  /-- The generator or a hook failed during a reload; beside it whether the fragments on disk have
  changed all the same, and whether a Ganesha was live. -/
  | regenerateFailed (exportsChanged live : Bool)
  deriving DecidableEq, Repr

/-- The supervisor and its surroundings. -/
structure Machine where
  hostNfsMode : Bool
  pids : ChildPids
  servicesStarted : Bool
  ganeshaManaged : Bool
  avahiManaged : Bool
  lastSharesFingerprint : Nat
  respawn : RespawnBudget Service
  /-- The process has exited (`cleanup`, or an error before the loop). -/
  exited : Bool
  /-- The number of readings of the outside world so far. -/
  clock : Nat
  /-- The live `ganesha.nfsd` processes, oldest first. -/
  ganeshas : List Nat
  /-- How many `ganesha.nfsd` the supervisor has spawned. -/
  spawned : Nat
  disk : DerivedFiles
  /-- The export fragments have changed since a Ganesha was last spawned or signalled. -/
  stale : Bool
  history : List Moment
  events : List Event

/-- What `NfsKlldapConfig::load` yields, as far as the supervisor reads it. -/
structure LoadedConfig where
  sharesFingerprint : Nat
  navahiDiscovery : Bool
  krb5Shares : Bool
  ldapBindConfigured : Bool
  deriving DecidableEq, Repr

/-- A generator run with its hooks: what is on disk afterwards, whatever the outcome; how the
generator went (an error to run it at all, or its exit status); how the hooks went after. -/
structure GenerateRun where
  disk : DerivedFiles
  status : Except String Bool
  hooks : Except String Unit

/-- **The environment**: everything the supervisor does not decide, by the clock. -/
structure Oracle where
  /-- The Ganeshas that die. -/
  dies : Nat → Nat → Bool
  /-- Liveness of processes other than Ganesha. -/
  otherLive : Nat → Nat → Bool
  /-- How many times a wait polls before its deadline. -/
  polls : Nat → Nat
  /-- `ganesha.nfsd` can be spawned. -/
  spawns : Nat → Bool
  /-- Another child can be spawned: its pid, or the error. -/
  spawnsOther : Nat → Except String Nat
  dbusRunning : Nat → Bool
  idhelperSocket : Nat → Bool
  /-- `warm_principals_nss_ready` before the deadline. -/
  nssReady : Nat → Bool
  /-- `NFS_KLLDAP_ALLOW_LDAP_DEGRADED` is set. -/
  allowLdapDegraded : Nat → Bool
  /-- A pid read from `NFS_KLLDAP_GANESHA_DAEMON_PID_FILE`. -/
  pidfile : Nat → Option Pid
  config : Nat → Option LoadedConfig
  resolveHostNfsMode : Nat → Bool
  generate : Nat → GenerateRun
  /-- An `Instant`, in nanoseconds. -/
  now : Nat → Nat
  shutdownRequested : Nat → Bool
  sighupRequested : Nat → Bool
  fullRecycleRequested : Nat → Bool
  setupWizardComplete : Nat → Bool
  startupStep : Nat → StartupStep
  preconfigured : Nat → Bool
  /-- `preflight_checks` and `ensure_config_initialized`. -/
  preflight : Except String Unit

/-! ## Time and processes -/

/-- Record the present moment. -/
def Machine.mark (s : Machine) : Machine :=
  { s with history := ⟨s.pids.ganesha, s.ganeshas⟩ :: s.history }

/-- Time goes by, and some Ganeshas die. -/
def pass (o : Oracle) (s : Machine) : Machine :=
  Machine.mark { s with
    clock := s.clock + 1
    ganeshas := s.ganeshas.filter fun n => !o.dies s.clock n }

/-- The process exists and is no zombie (`process_is_live`). -/
def processIsLive (o : Oracle) (s : Machine) : Pid → Bool
  | .ganesha n => s.ganeshas.contains n
  | .other n => o.otherLive s.clock n

/-- Some process is tracked as Ganesha and alive. -/
def trackedLive (o : Oracle) (s : Machine) : Bool := s.pids.ganesha.any (processIsLive o s)

/-- Write the tracked pid. -/
def Machine.track (s : Machine) (p : Option Pid) : Machine :=
  Machine.mark { s with pids := { s.pids with ganesha := p } }

/-- Write the pid of a sidecar. -/
def Machine.put (s : Machine) (p : Option Pid) (k : Sidecar) : Machine :=
  { s with pids := s.pids.put p k }

/-- Record an event. -/
def Machine.note (s : Machine) (e : Event) : Machine := { s with events := e :: s.events }

/-! ## The frame -/

/-- From `s` to `s'` only time has passed as far as Ganesha is concerned. -/
structure Elapsed (s s' : Machine) : Prop where
  hostNfsMode : s'.hostNfsMode = s.hostNfsMode
  tracked : s'.pids.ganesha = s.pids.ganesha
  servicesStarted : s'.servicesStarted = s.servicesStarted
  managed : s'.ganeshaManaged = s.ganeshaManaged
  exited : s'.exited = s.exited
  ganeshas : s'.ganeshas.Sublist s.ganeshas
  disk : s'.disk = s.disk
  stale : s'.stale = s.stale
  events : s'.events = s.events
  history : ∀ m ∈ s'.history, m ∈ s.history ∨
    m.tracked = s.pids.ganesha ∧ m.live.Sublist s.ganeshas

namespace Elapsed

variable {s s' s'' : Machine}

/-- No time may pass at all. -/
theorem refl (s : Machine) : Elapsed s s :=
  ⟨rfl, rfl, rfl, rfl, rfl, List.Sublist.refl _, rfl, rfl, rfl, fun _ hm => Or.inl hm⟩

/-- Two stretches of time are one. -/
theorem trans (h : Elapsed s s') (h' : Elapsed s' s'') : Elapsed s s'' where
  hostNfsMode := h'.hostNfsMode.trans h.hostNfsMode
  tracked := h'.tracked.trans h.tracked
  servicesStarted := h'.servicesStarted.trans h.servicesStarted
  managed := h'.managed.trans h.managed
  exited := h'.exited.trans h.exited
  ganeshas := h'.ganeshas.trans h.ganeshas
  disk := h'.disk.trans h.disk
  stale := h'.stale.trans h.stale
  events := h'.events.trans h.events
  history := by
    -- a moment of the second stretch is no later than the end of the first
    intro m hm
    rcases h'.history m hm with hm | ⟨ht, hl⟩
    · exact h.history m hm
    · exact Or.inr ⟨ht.trans h.tracked, hl.trans h.ganeshas⟩

/-- A look at the clock lets time pass. -/
theorem pass (o : Oracle) (s : Machine) : Elapsed s (pass o s) where
  hostNfsMode := rfl
  tracked := rfl
  servicesStarted := rfl
  managed := rfl
  exited := rfl
  ganeshas := List.filter_sublist
  disk := rfl
  stale := rfl
  events := rfl
  history := by
    -- the one new moment is the present, after the deaths
    intro m hm
    rcases List.mem_cons.mp hm with rfl | hm
    · exact Or.inr ⟨rfl, List.filter_sublist⟩
    · exact Or.inl hm

/-- Recording a sidecar's pid leaves Ganesha alone. -/
theorem put (s : Machine) (p : Option Pid) (k : Sidecar) : Elapsed s (s.put p k) :=
  ⟨rfl, ChildPids.put_ganesha _ _ _, rfl, rfl, rfl, List.Sublist.refl _, rfl, rfl, rfl,
    fun _ hm => Or.inl hm⟩

/-- So does a note that the service files are managed. -/
theorem avahiManaged (s : Machine) (b : Bool) : Elapsed s { s with avahiManaged := b } :=
  ⟨rfl, rfl, rfl, rfl, rfl, List.Sublist.refl _, rfl, rfl, rfl, fun _ hm => Or.inl hm⟩

/-- So does the respawn budget. -/
theorem respawn (s : Machine) (b : RespawnBudget Service) : Elapsed s { s with respawn := b } :=
  ⟨rfl, rfl, rfl, rfl, rfl, List.Sublist.refl _, rfl, rfl, rfl, fun _ hm => Or.inl hm⟩

/-- So does the fingerprint of the shares. -/
theorem lastSharesFingerprint (s : Machine) (fp : Nat) :
    Elapsed s { s with lastSharesFingerprint := fp } :=
  ⟨rfl, rfl, rfl, rfl, rfl, List.Sublist.refl _, rfl, rfl, rfl, fun _ hm => Or.inl hm⟩

/-- No Ganesha comes to life by itself. -/
theorem not_mem {n : Nat} (h : Elapsed s s') (hn : n ∉ s.ganeshas) : n ∉ s'.ganeshas :=
  fun hm => hn (h.ganeshas.subset hm)

end Elapsed

/-! ## Other services

Each starts, stops or signals one child that is not Ganesha. -/

/-- Spawn a child and keep its pid. -/
def spawnChild (o : Oracle) (k : Sidecar) (s : Machine) : Except String Unit × Machine :=
  let s := pass o s
  match o.spawnsOther s.clock with
  | .error e => (.error e, s)
  | .ok n => (.ok (), s.put (some (.other n)) k)

/-- Stop the WebUI and start it again (`start_webui`). -/
def startWebui (o : Oracle) (s : Machine) : Except String Unit × Machine :=
  -- SIGTERM and 300 ms for a tracked one
  let s := if s.pids.webui.isSome then pass o s else s
  let r := spawnChild o .webui s
  match r.1 with
  | .error e => (.error ("webui spawn failed: " ++ e), r.2)
  | .ok () => (.ok (), pass o r.2)

/-- Reload the WebUI in place, or start it when it is down or the signal kills it (`reload_webui`). -/
def reloadWebui (o : Oracle) (s : Machine) : Machine :=
  let s := pass o s
  match s.pids.webui.filter (processIsLive o s) with
  | none => (startWebui o (s.put none .webui)).2
  | some pid =>
    let s := pass o s
    if processIsLive o s pid then s else (startWebui o (s.put none .webui)).2

/-- Restart SSSD and wait for its pipe (`restart_sssd_and_wait`). -/
def restartSssdAndWait (o : Oracle) (s : Machine) : Machine := pass o (spawnChild o .sssd s).2

/-- Restart the idhelper and wait for its first snapshot (`restart_idhelper_and_wait_bulk`). -/
def restartIdhelperAndWaitBulk (o : Oracle) (s : Machine) : Machine :=
  pass o (spawnChild o .idhelper s).2

/-- Start D-Bus unless it runs (`ensure_ganesha_prereqs`). -/
def ensureGaneshaPrereqs (o : Oracle) (s : Machine) : Machine :=
  let s := pass o s
  if o.dbusRunning s.clock then pass o s else pass o (spawnChild o .dbus s).2

/-- Start the config watcher (`start_watcher`). -/
def startWatcher (o : Oracle) (s : Machine) : Except String Unit × Machine :=
  let r := spawnChild o .watcher s
  match r.1 with
  | .error e => (.error ("watcher spawn failed: " ++ e), r.2)
  | .ok () => (.ok (), r.2)

/-- The `navahi_discovery` flag of the config on disk (`navahi_enabled`). -/
def navahiEnabled (o : Oracle) (s : Machine) : Bool :=
  (o.config s.clock).any LoadedConfig.navahiDiscovery

/-- Start Avahi when the config asks for it (`start_avahi`). -/
def startAvahi (o : Oracle) (s : Machine) : Machine :=
  let s := pass o s
  if !navahiEnabled o s then s
  -- no in-container NFS server to advertise
  else if s.hostNfsMode then s
  else if s.pids.avahi.any (processIsLive o s) then s
  else
    let r := spawnChild o .avahi (s.put none .avahi)
    match r.1 with
    | .error _ => r.2
    | .ok () => { r.2 with avahiManaged := true }

/-- Stop Avahi and forget it (`stop_avahi`; its waits change nothing the supervisor keeps). -/
def stopAvahi (o : Oracle) (s : Machine) : Machine :=
  let s := if s.pids.avahi.isSome then pass o s else s
  { s.put none .avahi with avahiManaged := false }

/-- Have Avahi re-read its service files (`reload_avahi_services`): a signal, no state. -/
def reloadAvahiServices (o : Oracle) (s : Machine) : Machine := pass o s

namespace Elapsed

variable (o : Oracle) (s : Machine)

/-- Spawning a sidecar leaves Ganesha alone. -/
theorem spawnChild (k : Sidecar) : Elapsed s (spawnChild o k s).2 := by
  unfold NfsKlldap.spawnChild
  dsimp only
  split
  · exact pass o s
  · exact (pass o s).trans (put _ _ _)

/-- Time may have passed, or not. -/
theorem pass_if (b : Bool) : Elapsed s (if b then NfsKlldap.pass o s else s) := by
  cases b with
  | true => exact pass o s
  | false => exact refl s

/-- Starting the web interface leaves Ganesha alone. -/
theorem startWebui : Elapsed s (startWebui o s).2 := by
  have h := (pass_if o s s.pids.webui.isSome).trans (spawnChild o _ .webui)
  unfold NfsKlldap.startWebui
  dsimp only
  split
  · exact h
  · exact h.trans (pass o _)

/-- Reloading the web interface leaves Ganesha alone. -/
theorem reloadWebui : Elapsed s (reloadWebui o s) := by
  unfold NfsKlldap.reloadWebui
  dsimp only
  have hp := pass o s
  split
  · exact (hp.trans (put _ _ _)).trans (startWebui o _)
  · split
    · exact hp.trans (pass o _)
    · exact ((hp.trans (pass o _)).trans (put _ _ _)).trans (startWebui o _)

/-- Restarting SSSD leaves Ganesha alone. -/
theorem restartSssdAndWait : Elapsed s (restartSssdAndWait o s) :=
  (spawnChild o s .sssd).trans (pass o _)

/-- Restarting the identity helper leaves Ganesha alone. -/
theorem restartIdhelperAndWaitBulk : Elapsed s (restartIdhelperAndWaitBulk o s) :=
  (spawnChild o s .idhelper).trans (pass o _)

/-- Starting what Ganesha needs leaves Ganesha alone. -/
theorem ensureGaneshaPrereqs : Elapsed s (ensureGaneshaPrereqs o s) := by
  unfold NfsKlldap.ensureGaneshaPrereqs
  dsimp only
  split
  · exact (pass o s).trans (pass o _)
  · exact ((pass o s).trans (spawnChild o _ .dbus)).trans (pass o _)

/-- Starting the watcher leaves Ganesha alone. -/
theorem startWatcher : Elapsed s (startWatcher o s).2 := by
  have h := spawnChild o s .watcher
  unfold NfsKlldap.startWatcher
  dsimp only
  split
  · exact h
  · exact h

/-- Starting the announcements leaves Ganesha alone. -/
theorem startAvahi : Elapsed s (startAvahi o s) := by
  unfold NfsKlldap.startAvahi
  dsimp only
  have hp := pass o s
  split_ifs with hn hh hl
  · exact hp
  · exact hp
  · exact hp
  · have h := (hp.trans (put _ none .avahi)).trans (spawnChild o _ .avahi)
    split
    · exact h
    · exact h.trans (avahiManaged _ true)

/-- Stopping the announcements leaves Ganesha alone. -/
theorem stopAvahi : Elapsed s (stopAvahi o s) :=
  ((pass_if o s s.pids.avahi.isSome).trans (put _ none .avahi)).trans (avahiManaged _ false)

/-- Reloading the announcements leaves Ganesha alone. -/
theorem reloadAvahiServices : Elapsed s (reloadAvahiServices o s) := pass o s

end Elapsed

end NfsKlldap
