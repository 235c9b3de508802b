import Mathlib

/-! # Decisions of the supervisor (`recycle_plan.rs`, `respawn.rs`, `startup.rs`)

The pure decisions of pid 1, each a function of what the loop has just read:

* `planFromChanges` and `planFullRecycle` choose what a reload and a forced recycle do to each
  service; `ganeshaSighupFailed` is the escalation after a reload that reached no Ganesha;
* `RespawnBudget.decide` rate-limits the revival of a dead child: at most `respawnBudget` attempts
  in a sliding `respawnWindow`, `respawnCooldown` apart;
* `supervisorLoopTick` picks the action of one pass of the loop.
-/

namespace NfsKlldap

/-! ## Recycle plans -/

/-- How Ganesha should be recycled when export fragments change. -/
inductive GaneshaAction where
  /-- Leave running. -/
  | skip
  /-- In-process export reload via SIGHUP. -/
  | sighup
  /-- Full stop/start when down, after a failed SIGHUP, or on a forced recycle. -/
  | stopStart
  deriving DecidableEq, Repr

/-- How the WebUI should pick up a config change. -/
inductive WebuiAction where
  | skip
  | reload
  | restart
  deriving DecidableEq, Repr

/-- Services to bounce given fingerprint deltas. -/
structure ServiceRecyclePlan where
  ganesha : GaneshaAction
  restartSssd : Bool
  restartIdhelper : Bool
  webui : WebuiAction
  identityStaged : Bool
  restartAvahi : Bool
  deriving DecidableEq, Repr

/-- No process is signalled or restarted (`is_noop`). -/
def ServiceRecyclePlan.isNoop (plan : ServiceRecyclePlan) : Bool :=
  plan.ganesha = .skip && !plan.restartSssd && !plan.restartIdhelper && plan.webui = .skip &&
    !plan.restartAvahi

/-- The shares-scoped auto plan from fingerprint deltas (`plan_from_changes`). -/
def planFromChanges (exportsChanged identityChanged sharesChanged hostNfsMode ganeshaRunning : Bool) :
    ServiceRecyclePlan where
  ganesha :=
    if hostNfsMode || !exportsChanged then .skip
    else if ganeshaRunning then .sighup
    else .stopStart
  restartSssd := false
  restartIdhelper := false
  webui := if exportsChanged || sharesChanged then .reload else .skip
  identityStaged := identityChanged
  restartAvahi := false

/-- The forced full recycle (`plan_full_recycle`). -/
def planFullRecycle (hostNfsMode : Bool) : ServiceRecyclePlan where
  ganesha := if hostNfsMode then .skip else .stopStart
  restartSssd := true
  restartIdhelper := true
  webui := .restart
  identityStaged := false
  restartAvahi := true

/-- After a failed in-process reload, escalate to full stop/start (`ganesha_sighup_failed`). -/
def ganeshaSighupFailed (plan : ServiceRecyclePlan) : ServiceRecyclePlan :=
  if plan.ganesha = .sighup then { plan with ganesha := .stopStart } else plan

/-- A noop plan leaves Ganesha alone. -/
theorem ServiceRecyclePlan.ganesha_of_isNoop {plan : ServiceRecyclePlan} (h : plan.isNoop = true) :
    plan.ganesha = .skip := by
  simp only [ServiceRecyclePlan.isNoop, Bool.and_eq_true, decide_eq_true_eq] at h
  exact h.1.1.1.1

/-- Outside HOST_NFS mode a reload passes Ganesha over exactly when no export fragment moved. -/
theorem planFromChanges_ganesha_eq_skip {exports identity shares running : Bool} :
    (planFromChanges exports identity shares false running).ganesha = .skip ↔ exports = false := by
  cases exports <;> cases running <;> simp [planFromChanges]

/-! ## The respawn budget -/

/-- The children the Idle tick can revive. -/
inductive Service where
  | dbus
  | sssd
  | idhelper
  | watcher
  | webui
  | ganesha
  | avahi
  deriving DecidableEq, Repr

/-- The services in the order of the Idle pass: dependencies first. -/
def Service.all : List Service := [.dbus, .sssd, .idhelper, .watcher, .webui, .ganesha, .avahi]

/-- A duration in seconds, in the nanoseconds of an `Instant`. -/
def fromSecs (n : Nat) : Nat := n * 1000000000

/-- `RESPAWN_WINDOW`. -/
def respawnWindow : Nat := fromSecs 600

/-- `RESPAWN_BUDGET`. -/
def respawnBudget : Nat := 3

/-- `RESPAWN_COOLDOWN`. -/
def respawnCooldown : Nat := fromSecs 10

/-- What the budget answers to a service that is down. -/
inductive RespawnDecision where
  | go
  | cooldown
  | exhausted (firstTime : Bool)
  deriving DecidableEq, Repr

/-- Per-service sliding-window budget: the attempt times still remembered, oldest first, and whether
the exhaustion of the current episode has been logged. -/
structure RespawnBudget (κ : Type) where
  attempts : κ → List Nat
  exhaustedLogged : κ → Bool

/-- No attempts yet (`RespawnBudget::default`). -/
def RespawnBudget.empty {κ : Type} : RespawnBudget κ := ⟨fun _ => [], fun _ => false⟩

/-- Whether a dead `service` is revived at the instant `now` (`RespawnBudget::decide`). -/
def RespawnBudget.decide {κ : Type} [DecidableEq κ] (b : RespawnBudget κ) (service : κ)
    (now : Nat) : RespawnDecision × RespawnBudget κ :=
  -- `duration_since` saturates at zero, as subtraction does here
  let hist := (b.attempts service).filter fun t => Decidable.decide (now - t < respawnWindow)
  let kept := { b with attempts := Function.update b.attempts service hist }
  if hist.getLast?.any fun last => Decidable.decide (now - last < respawnCooldown) then
    (.cooldown, kept)
  else if respawnBudget ≤ hist.length then
    (.exhausted (!b.exhaustedLogged service),
      { kept with exhaustedLogged := Function.update b.exhaustedLogged service true })
  else
    (.go,
      { attempts := Function.update b.attempts service (hist ++ [now])
        exhaustedLogged := Function.update b.exhaustedLogged service false })

/-! ## One pass of the loop -/

/-- Ordered startup steps before the main WebUI is available. -/
inductive StartupStep where
  | waitForPersistentVolume
  | setLdapUri
  | addBindCredentials
  | ready
  deriving DecidableEq, Repr

/-- What a tick of the loop does next. -/
inductive SupervisorLoopAction where
  | processSighup
  | processFullRecycle
  | bringUpServices
  | idle
  deriving DecidableEq, Repr

/-- The supervisor may start Ganesha and SSSD (`should_bring_up_services`). -/
def shouldBringUpServices (servicesStarted wizardComplete : Bool) (step : StartupStep) : Bool :=
  !servicesStarted && wizardComplete && step = .ready

/-- The action of one pass (`supervisor_loop_tick`; the flag the source returns beside it is dropped
by the loop). A forced recycle supersedes a simultaneous SIGHUP and coalesces into the bring-up
while the services are down. -/
def supervisorLoopTick (servicesStarted sighupPending fullRecyclePending wizardComplete : Bool)
    (step : StartupStep) : SupervisorLoopAction :=
  if fullRecyclePending then
    if shouldBringUpServices servicesStarted wizardComplete step then .bringUpServices
    else .processFullRecycle
  else if sighupPending then .processSighup
  else if shouldBringUpServices servicesStarted wizardComplete step then .bringUpServices
  else .idle

/-- The services are brought up only while they are down. -/
theorem servicesStarted_of_bringUp {started sighup recycle wizard : Bool} {step : StartupStep}
    (h : supervisorLoopTick started sighup recycle wizard step = .bringUpServices) :
    started = false := by
  cases started with
  | false => rfl
  | true =>
    -- with the services up neither branch that leads there is open
    simp only [supervisorLoopTick, shouldBringUpServices, Bool.not_true, Bool.false_and,
      Bool.false_eq_true, if_false] at h
    split_ifs at h

end NfsKlldap
