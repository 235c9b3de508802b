import NfsKlldap.Supervisor.Machine

/-! # Starting, stopping and reloading Ganesha (`services.rs`, `supervisor/mod.rs`)

The six functions that write the tracked pid, each with its own check of liveness, and between any
two readings a process may die or refuse to.

* `Tend` says once what they can do to Ganesha: drop the pid of a dead one, spawn one when none is
  tracked, take up a live pid in place of a dead one, signal. `Tends` is a sequence of these.
* `stopGanesha` alone gives up a Ganesha that it brought down: it clears the tracked pid and
  `ganeshaManaged` together. One that survives SIGKILL stays tracked and managed.
-/

namespace NfsKlldap

open Relation

/-! ## The functions -/

/-- A `ganesha.nfsd` is spawned: it reads the fragments on disk, and its pid is tracked. -/
def Machine.launch (s : Machine) : Machine :=
  Machine.mark { s with
    pids := { s.pids with ganesha := some (.ganesha s.spawned) }
    ganeshaManaged := true
    ganeshas := s.ganeshas ++ [s.spawned]
    spawned := s.spawned + 1
    stale := false }

/-- SIGHUP to `pid` (`signal_process_hup`): a Ganesha re-reads the fragments. -/
def Machine.hup (s : Machine) : Pid → Machine
  | .ganesha _ => { s with stale := false }
  | .other _ => s

/-- Drop a dead tracked pid (`refresh_tracked_ganesha_pid`). -/
def refreshTrackedGaneshaPid (o : Oracle) (s : Machine) : Machine :=
  let s := pass o s
  if s.pids.ganesha.any fun pid => !processIsLive o s pid then s.track none else s

/-- Poll until `pid` is gone or `polls` further polls have passed. -/
def awaitExit (o : Oracle) (pid : Pid) : Nat → Machine → Bool × Machine
  | 0, s => (!processIsLive o (pass o s) pid, pass o s)
  | polls + 1, s =>
    if !processIsLive o (pass o s) pid then (true, pass o s) else awaitExit o pid polls (pass o s)

/-- Ganesha is down and given up: no pid, not managed. -/
def Machine.release (s : Machine) : Machine := { s.track none with ganeshaManaged := false }

/-- SIGTERM, wait, SIGKILL, wait (`stop_ganesha`). -/
def stopGanesha (o : Oracle) (s : Machine) : Machine :=
  let s := refreshTrackedGaneshaPid o s
  match s.pids.ganesha with
  | none => { s with ganeshaManaged := false }
  | some pid =>
    let s := pass o s
    if !processIsLive o s pid then s.release
    else
      -- SIGTERM, then poll until the deadline
      let term := awaitExit o pid (o.polls s.clock) s
      if term.1 then term.2.release
      else
        let s := pass o term.2
        -- SIGKILL, then poll once more
        let kill := awaitExit o pid (o.polls s.clock) s
        if kill.1 then kill.2.release
        else
          -- unkillable: keep it tracked
          kill.2.note (.survivedKill kill.2.stale)

/-- The first live `ganesha.nfsd` (`discover_ganesha_daemon_pid`). -/
def discoverGaneshaDaemonPid (s : Machine) : Option Pid := s.ganeshas.head?.map Pid.ganesha

/-- After a spawn: rediscover the daemon when the tracked pid has died
(`confirm_ganesha_daemon_pid_env`). -/
def confirmGaneshaDaemonPidEnv (o : Oracle) (s : Machine) : Machine :=
  if !s.ganeshaManaged then s
  else
    let s := pass o s
    if trackedLive o s then s
    else
      -- recovery only: the tracked pid has exited
      let s := pass o s
      match discoverGaneshaDaemonPid s with
      | some pid => if s.pids.ganesha ≠ some pid then s.track (some pid) else s
      | none =>
        let s := pass o s
        match o.pidfile s.clock with
        | some pid => if processIsLive o s pid then s.track (some pid) else s
        | none => s

/-- Every warm-up principal resolves through NSS before the deadline, unless nothing is to be waited
for (`warm_identity_principals_before_ganesha`). -/
def warmIdentityPrincipalsBeforeGanesha (o : Oracle) (s : Machine) : Bool :=
  if s.hostNfsMode then true
  else if (o.config s.clock).any fun cfg =>
      cfg.krb5Shares && !cfg.ldapBindConfigured && !o.allowLdapDegraded s.clock then false
  else o.nssReady s.clock || o.allowLdapDegraded s.clock

/-- Start Ganesha unless the tracked one is alive (`start_ganesha`). -/
def startGanesha (o : Oracle) (s : Machine) : Machine :=
  let s := pass o s
  -- a live tracked pid is a survivor of SIGKILL: no second daemon against it
  if trackedLive o s then s
  else
    -- the idhelper socket is waited for, but its absence stops nothing
    let s := pass o (s.track none)
    if !warmIdentityPrincipalsBeforeGanesha o s then s.note (.startFailed s.ganeshaManaged)
    else if o.spawns s.clock then confirmGaneshaDaemonPidEnv o (pass o s.launch)
    else s.note (.startFailed s.ganeshaManaged)

/-- Some live process is tracked as Ganesha (`ganesha_running`). -/
def ganeshaRunning (o : Oracle) (s : Machine) : Bool × Machine :=
  let s := pass o (refreshTrackedGaneshaPid o s)
  (trackedLive o s, s)

/-- Signal the tracked Ganesha to re-read its exports; whether there was one
(`reload_ganesha_exports`). -/
def reloadGaneshaExports (o : Oracle) (s : Machine) : Bool × Machine :=
  let s := refreshTrackedGaneshaPid o s
  match s.pids.ganesha with
  | none => (false, s)
  | some pid =>
    let s := pass o s
    if !processIsLive o s pid then (false, s.track none) else (true, s.hup pid)

/-! ## What they can do -/

/-- The tracked Ganesha, if it is one, is dead. -/
def TrackedDead (s : Machine) : Prop := ∀ n, s.pids.ganesha = some (.ganesha n) → n ∉ s.ganeshas

/-- One thing the supervisor can do to a Ganesha it keeps. -/
inductive Tend : Machine → Machine → Prop
  /-- Nothing: time passes, other services are attended to. -/
  | elapse {s s' : Machine} (h : Elapsed s s') : Tend s s'
  /-- A dead one is no longer tracked. -/
  | forget {s : Machine} (h : TrackedDead s) : Tend s (s.track none)
  /-- One is spawned while none is tracked. -/
  | launch {s : Machine} (h : s.pids.ganesha = none) : Tend s s.launch
  /-- A live process is tracked in the place of a dead one. -/
  | recover {s : Machine} {pid : Pid} (hdead : TrackedDead s) (hmanaged : s.ganeshaManaged = true)
      (hlive : ∀ n, pid = .ganesha n → n ∈ s.ganeshas) : Tend s (s.track (some pid))
  /-- The tracked one is signalled. -/
  | hup {s : Machine} (pid : Pid) : Tend s (s.hup pid)
  /-- The environment did something worth noting. -/
  | note {s : Machine} (e : Event) : Tend s (s.note e)

/-- A sequence of such things. -/
abbrev Tends : Machine → Machine → Prop := ReflTransGen Tend

/-- Letting time pass is tending. -/
theorem Elapsed.tends {s s' : Machine} (h : Elapsed s s') : Tends s s' :=
  ReflTransGen.single (Tend.elapse h)

section

variable {o : Oracle} {s : Machine}

/-- Time passing revives no one. -/
theorem TrackedDead.elapsed {s' : Machine} (h : TrackedDead s) (he : Elapsed s s') :
    TrackedDead s' := by
  intro n hn
  exact he.not_mem (h n (he.tracked ▸ hn))

/-- A tracked pid that is not live is no live Ganesha. -/
theorem trackedDead_of_not_live {pid : Pid} (hs : s.pids.ganesha = some pid)
    (h : processIsLive o s pid = false) : TrackedDead s := by
  intro n hn
  rw [hs, Option.some_inj] at hn
  rw [hn] at h
  simpa [processIsLive] using h

/-- If nothing that is tracked is alive, no Ganesha that is tracked is. -/
theorem trackedDead_of_not_trackedLive (h : trackedLive o s = false) : TrackedDead s := by
  intro n hn
  rw [trackedLive, hn] at h
  simpa [processIsLive] using h

/-- Dropping a dead pid is tending. -/
theorem refreshTrackedGaneshaPid_tends : Tends s (refreshTrackedGaneshaPid o s) := by
  have hp := (Elapsed.pass o s).tends
  unfold refreshTrackedGaneshaPid
  dsimp only
  split
  · next h =>
    -- the pid was seen dead just now
    obtain ⟨pid, hpid, hlive⟩ := (Option.any_eq_true _ _).mp h
    exact hp.tail (Tend.forget (trackedDead_of_not_live hpid (Bool.not_eq_true' _ ▸ hlive)))
  · exact hp

/-- Waiting for an exit lets time pass. -/
theorem awaitExit_elapsed (pid : Pid) (polls : Nat) : Elapsed s (awaitExit o pid polls s).2 := by
  -- one poll at a time; the state is that of the last reading
  induction polls generalizing s with
  | zero => exact Elapsed.pass o s
  | succ polls ih =>
    rw [awaitExit]
    split
    · exact Elapsed.pass o s
    · exact (Elapsed.pass o s).trans ih

/-- A wait ends early only on a dead process. -/
theorem awaitExit_dead {pid : Pid} {polls : Nat} (h : (awaitExit o pid polls s).1 = true) :
    processIsLive o (awaitExit o pid polls s).2 pid = false := by
  induction polls generalizing s with
  | zero =>
    rw [awaitExit] at h ⊢
    simpa using h
  | succ polls ih =>
    rw [awaitExit] at h ⊢
    split at h
    · next hd =>
      rw [if_pos hd]
      simpa using hd
    · next hd =>
      rw [if_neg hd]
      exact ih h

/-- Confirming the pid after a spawn is tending. -/
theorem confirmGaneshaDaemonPidEnv_tends : Tends s (confirmGaneshaDaemonPidEnv o s) := by
  unfold confirmGaneshaDaemonPidEnv
  split
  · exact ReflTransGen.refl
  next hm =>
  have hmanaged : s.ganeshaManaged = true := by simpa using hm
  have h₁ := Elapsed.pass o s
  dsimp only
  split
  · exact h₁.tends
  next hd =>
  -- from here on nothing that is tracked is alive, and it stays so
  have hdead := trackedDead_of_not_trackedLive (Bool.not_eq_true _ ▸ hd)
  have h₂ := Elapsed.pass o (pass o s)
  have hdead₂ := hdead.elapsed h₂
  split
  · next pid hpid =>
    split
    · refine (h₁.trans h₂).tends.tail (Tend.recover hdead₂ hmanaged ?_)
      rintro n rfl
      -- what is discovered is one of the live ones
      obtain ⟨m, hm, hmn⟩ := Option.map_eq_some_iff.mp hpid
      cases hmn
      exact List.mem_of_mem_head? hm
    · exact (h₁.trans h₂).tends
  · have h₃ := Elapsed.pass o (pass o (pass o s))
    have ht := ((h₁.trans h₂).trans h₃).tends
    split
    · next pid hpid =>
      split
      · next hlive =>
        refine ht.tail (Tend.recover (hdead₂.elapsed h₃) hmanaged ?_)
        rintro n rfl
        simpa [processIsLive] using hlive
      · exact ht
    · exact ht

/-- A start is tending. -/
theorem startGanesha_tends : Tends s (startGanesha o s) := by
  have h₁ := Elapsed.pass o s
  unfold startGanesha
  dsimp only
  split
  · exact h₁.tends
  next hd =>
  have h₂ := h₁.tends.tail (Tend.forget (trackedDead_of_not_trackedLive (Bool.not_eq_true _ ▸ hd)))
  -- the slot is empty before any of the three exits
  have h₃ := h₂.trans (Elapsed.pass o _).tends
  split_ifs with hw hs
  · exact h₃.tail (Tend.note _)
  · exact ((h₃.tail (Tend.launch rfl)).trans (Elapsed.pass o _).tends).trans
      confirmGaneshaDaemonPidEnv_tends
  · exact h₃.tail (Tend.note _)

/-- Asking whether Ganesha runs is tending. -/
theorem ganeshaRunning_tends : Tends s (ganeshaRunning o s).2 :=
  refreshTrackedGaneshaPid_tends.trans (Elapsed.pass o _).tends

/-- A signal to re-read the exports is tending. -/
theorem reloadGaneshaExports_tends : Tends s (reloadGaneshaExports o s).2 := by
  have h₁ := refreshTrackedGaneshaPid_tends (o := o) (s := s)
  unfold reloadGaneshaExports
  dsimp only
  split
  · exact h₁
  next pid hpid =>
  have h₂ := h₁.trans (Elapsed.pass o _).tends
  split
  · next hd =>
    have hdead := trackedDead_of_not_live (o := o) (s := pass o _) hpid (by simpa using hd)
    exact h₂.tail (Tend.forget hdead)
  · exact h₂.tail (Tend.hup pid)

end

end NfsKlldap
