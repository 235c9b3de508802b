import Mathlib.Data.List.DropRight
import NfsKlldap.Supervisor.RecyclePlan

/-! # Runs of the respawn budget (`respawn.rs`)

The budget decides call by call; a run is the log of its answers. The calls for one service read and
write what is kept for it alone, so the answers for a service are a run of a `ServiceBudget`.

* **`RespawnBudget.answersFor_decideAll`** — the answers for a service, from its own calls;
* **`ServiceBudget.Remembers`** — the invariant: the attempts that are kept are the recent ones;
* **`Rationed`** — what a log of answers keeps to. -/

namespace NfsKlldap

/-! ## Logs -/

/-- The answers of a budget to calls for services at instants. -/
def RespawnBudget.decideAll {κ : Type} [DecidableEq κ] (b : RespawnBudget κ) :
    List (κ × Nat) → List (κ × Nat × RespawnDecision)
  | [] => []
  | (service, now) :: calls =>
    (service, now, (b.decide service now).1) :: (b.decide service now).2.decideAll calls

/-- The answers for one service. -/
def answersFor {κ : Type} [DecidableEq κ] (service : κ) (log : List (κ × Nat × RespawnDecision)) :
    List (Nat × RespawnDecision) :=
  (log.filter fun a => a.1 = service).map Prod.snd

/-- The instants of the attempts in a log. -/
def goTimes (log : List (Nat × RespawnDecision)) : List Nat :=
  (log.filter fun a => a.2 = .go).map Prod.fst

/-- The notices of exhaustion in a log: whether each was a first one. -/
def exhaustions (log : List (Nat × RespawnDecision)) : List Bool :=
  log.filterMap fun a => match a.2 with
    | .exhausted firstTime => some firstTime
    | _ => none

/-- **What a log of answers for a service keeps to**. -/
structure Rationed (log : List (Nat × RespawnDecision)) : Prop where
  /-- The attempts are a cooldown apart. -/
  spaced : (goTimes log).Pairwise fun t t' => t + respawnCooldown ≤ t'
  /-- A half-open interval as long as the window has no more attempts than the budget. -/
  windowed : ∀ start,
    ((goTimes log).filter fun t => start ≤ t ∧ t < start + respawnWindow).length ≤ respawnBudget ∧
    ((goTimes log).filter fun t => start < t ∧ t ≤ start + respawnWindow).length ≤ respawnBudget
  /-- What is refused comes in the cooldown of an attempt, or on a spent budget. -/
  refused : ∀ before now decision, before ++ [(now, decision)] <+: log → decision ≠ .go →
    (∃ t ∈ goTimes before, now - t < respawnCooldown) ∨
      respawnBudget ≤ ((goTimes before).filter fun t => now - t < respawnWindow).length
  /-- Of the notices that follow an attempt the first one is a first one, and no other. -/
  noticed : ∀ before now since, before ++ (now, .go) :: since <+: log →
    (∀ a ∈ since, a.2 ≠ .go) →
    exhaustions since = [] ∨ ∃ n, exhaustions since = true :: List.replicate n false

/-! ## One service -/

/-- What a budget keeps for one service. -/
structure ServiceBudget where
  attempts : List Nat
  exhaustedLogged : Bool

namespace ServiceBudget

/-- Nothing was attempted. -/
def empty : ServiceBudget := ⟨[], false⟩

/-- The attempts that are still in the window. -/
def recent (b : ServiceBudget) (now : Nat) : List Nat :=
  b.attempts.filter fun t => now - t < respawnWindow

/-- A decision for the service. -/
def decide (b : ServiceBudget) (now : Nat) : RespawnDecision × ServiceBudget :=
  if (b.recent now).getLast?.any fun last => Decidable.decide (now - last < respawnCooldown) then
    (.cooldown, ⟨b.recent now, b.exhaustedLogged⟩)
  else if respawnBudget ≤ (b.recent now).length then
    (.exhausted (!b.exhaustedLogged), ⟨b.recent now, true⟩)
  else (.go, ⟨b.recent now ++ [now], false⟩)

/-- The answers at instants. -/
def decideAll (b : ServiceBudget) : List Nat → List (Nat × RespawnDecision)
  | [] => []
  | now :: times => (now, (b.decide now).1) :: (b.decide now).2.decideAll times

end ServiceBudget

namespace RespawnBudget

variable {κ : Type} [DecidableEq κ]

/-- What is kept for a service. -/
def ofService (b : RespawnBudget κ) (service : κ) : ServiceBudget :=
  ⟨b.attempts service, b.exhaustedLogged service⟩

/-- Keep something else for a service. -/
def setService (b : RespawnBudget κ) (service : κ) (kept : ServiceBudget) : RespawnBudget κ where
  attempts := Function.update b.attempts service kept.attempts
  exhaustedLogged := Function.update b.exhaustedLogged service kept.exhaustedLogged

/-- A call is a decision for its service. -/
theorem decide_eq (b : RespawnBudget κ) (service : κ) (now : Nat) :
    b.decide service now = (((b.ofService service).decide now).1,
      b.setService service ((b.ofService service).decide now).2) := by
  have hrecent : (b.ofService service).recent now =
      (b.attempts service).filter fun t => Decidable.decide (now - t < respawnWindow) := rfl
  rw [decide, ServiceBudget.decide, hrecent]
  dsimp only
  by_cases hcool : (((b.attempts service).filter fun t =>
      Decidable.decide (now - t < respawnWindow)).getLast?.any fun last =>
        Decidable.decide (now - last < respawnCooldown)) = true
  · rw [if_pos hcool, if_pos hcool, setService, ofService]
    simp
  · rw [if_neg hcool, if_neg hcool]
    split_ifs <;> rfl

/-- A call for a service is decided on what is kept for it. -/
theorem decide_fst (b : RespawnBudget κ) (service : κ) (now : Nat) :
    (b.decide service now).1 = ((b.ofService service).decide now).1 := by
  rw [decide_eq]

/-- A decision about a service is a decision of its own budget. -/
theorem ofService_decide_self (b : RespawnBudget κ) (service : κ) (now : Nat) :
    (b.decide service now).2.ofService service = ((b.ofService service).decide now).2 := by
  rw [decide_eq, setService, ofService]
  simp

/-- A call for another service leaves it alone. -/
theorem ofService_decide_of_ne (b : RespawnBudget κ) {service other : κ} (h : other ≠ service)
    (now : Nat) : (b.decide other now).2.ofService service = b.ofService service := by
  rw [decide_eq]
  simp [setService, ofService, Function.update_of_ne h.symm]

/-- The answers for a service are those to its own calls. -/
theorem answersFor_decideAll (b : RespawnBudget κ) (service : κ) (calls : List (κ × Nat)) :
    answersFor service (b.decideAll calls) =
      (b.ofService service).decideAll ((calls.filter fun c => c.1 = service).map Prod.snd) := by
  induction calls generalizing b with
  | nil => rfl
  | cons call calls ih =>
    obtain ⟨other, now⟩ := call
    have ih' := ih (b.decide other now).2
    rw [answersFor] at ih' ⊢
    by_cases h : other = service
    · subst h
      rw [decideAll, List.filter_cons_of_pos (by simp), List.filter_cons_of_pos (by simp),
        List.map_cons, List.map_cons, ih', ServiceBudget.decideAll, decide_fst,
        ofService_decide_self]
    · rw [decideAll, List.filter_cons_of_neg (by simpa using h),
        List.filter_cons_of_neg (by simpa using h), ih', ofService_decide_of_ne b h]

end RespawnBudget

/-! ## What is kept, and what was answered -/

/-- The answers since the last attempt. -/
def sinceGo (log : List (Nat × RespawnDecision)) : List (Nat × RespawnDecision) :=
  log.rtakeWhile fun a => a.2 ≠ .go

section Logs

variable {log : List (Nat × RespawnDecision)} {now : Nat} {decision : RespawnDecision}

/-- A respawn adds its time to the times of the respawns. -/
theorem goTimes_concat_go : goTimes (log ++ [(now, .go)]) = goTimes log ++ [now] := by
  simp [goTimes]

/-- Any other decision adds none. -/
theorem goTimes_concat_of_ne (h : decision ≠ .go) :
    goTimes (log ++ [(now, decision)]) = goTimes log := by
  simp [goTimes, h]

/-- The exhaustion notices of two logs are counted together. -/
theorem exhaustions_append (log log' : List (Nat × RespawnDecision)) :
    exhaustions (log ++ log') = exhaustions log ++ exhaustions log' :=
  List.filterMap_append

/-- A respawn starts the stretch since the last one anew. -/
theorem sinceGo_concat_go : sinceGo (log ++ [(now, .go)]) = [] := by
  simp [sinceGo]

/-- Any other decision belongs to the stretch since the last respawn. -/
theorem sinceGo_concat_of_ne (h : decision ≠ .go) :
    sinceGo (log ++ [(now, decision)]) = sinceGo log ++ [(now, decision)] := by
  simp [sinceGo, h]

/-- What follows the last attempt. -/
theorem sinceGo_eq {before since : List (Nat × RespawnDecision)} (h : ∀ a ∈ since, a.2 ≠ .go) :
    sinceGo (before ++ (now, .go) :: since) = since := by
  induction since using List.reverseRecOn with
  | nil => exact sinceGo_concat_go
  | append_singleton since a ih =>
    have ha : a.2 ≠ .go := h a (by simp)
    rw [← List.cons_append, ← List.append_assoc, sinceGo_concat_of_ne ha,
      ih fun b hb => h b (List.mem_append_left _ hb)]

end Logs

namespace ServiceBudget

/-- **What a budget remembers of its answers**, at an instant: the attempts that are in the window
now or later, and whether there was a notice since the last one. -/
structure Remembers (b : ServiceBudget) (log : List (Nat × RespawnDecision)) (now : Nat) : Prop where
  recent : ∀ later, now ≤ later →
    b.recent later = (goTimes log).filter fun t => later - t < respawnWindow
  past : ∀ t ∈ goTimes log, t ≤ now
  fresh : b.exhaustedLogged = false → exhaustions (sinceGo log) = []
  logged : b.exhaustedLogged = true →
    ∃ n, exhaustions (sinceGo log) = true :: List.replicate n false

variable {b : ServiceBudget} {log : List (Nat × RespawnDecision)} {now later : Nat}

/-- A fresh budget remembers an empty log. -/
theorem Remembers.start (now : Nat) : empty.Remembers [] now where
  recent _ _ := rfl
  past := by simp [goTimes]
  fresh _ := rfl
  logged := by simp [empty]

/-- What is in the window later is in it now. -/
theorem recent_of_recent (attempts : List Nat) (logged : Bool) (h : now ≤ later) :
    (⟨b.recent now ++ attempts, logged⟩ : ServiceBudget).recent later =
      b.recent later ++ attempts.filter fun t => later - t < respawnWindow := by
  rw [recent, List.filter_append, recent, recent, List.filter_filter]
  congr 1
  refine List.filter_congr fun t _ => ?_
  rw [Bool.and_eq_left_iff_imp, decide_eq_true_eq, decide_eq_true_eq]
  omega

/-- What a decision says, and what it keeps. -/
theorem decide_cases (b : ServiceBudget) (now : Nat) :
    (b.decide now = (.cooldown, ⟨b.recent now, b.exhaustedLogged⟩) ∧
      ∃ t ∈ b.recent now, now - t < respawnCooldown) ∨
    (b.decide now = (.exhausted (!b.exhaustedLogged), ⟨b.recent now, true⟩) ∧
      respawnBudget ≤ (b.recent now).length) ∨
    (b.decide now = (.go, ⟨b.recent now ++ [now], false⟩) ∧
      (b.recent now).length < respawnBudget ∧
      ∀ t, (b.recent now).getLast? = some t → respawnCooldown ≤ now - t) := by
  rw [decide]
  -- the cool-down is asked first, the budget after it
  cases hlast : (b.recent now).getLast? with
  | none =>
    rw [List.getLast?_eq_none_iff] at hlast
    rw [if_neg (by simp), hlast]
    exact .inr (.inr ⟨rfl, by decide, by simp⟩)
  | some t =>
    have ht : t ∈ b.recent now := List.mem_of_getLast? hlast
    by_cases hcool : now - t < respawnCooldown
    · rw [if_pos (by simpa using hcool)]
      exact .inl ⟨rfl, t, ht, hcool⟩
    · rw [if_neg (by simpa using hcool)]
      by_cases hspent : respawnBudget ≤ (b.recent now).length
      · rw [if_pos hspent]
        exact .inr (.inl ⟨rfl, hspent⟩)
      · rw [if_neg hspent]
        refine .inr (.inr ⟨rfl, Nat.lt_of_not_le hspent, fun t' ht' => ?_⟩)
        rw [Option.some_inj] at ht'
        omega

/-- A refusal keeps what is remembered, but for the notices. -/
theorem Remembers.refuse {logged : Bool} {decision : RespawnDecision} (h : b.Remembers log now)
    (hnow : now ≤ later) (hgo : decision ≠ .go)
    (hfresh : logged = false → exhaustions (sinceGo log ++ [(later, decision)]) = [])
    (hlogged : logged = true → ∃ n,
      exhaustions (sinceGo log ++ [(later, decision)]) = true :: List.replicate n false) :
    Remembers ⟨b.recent later, logged⟩ (log ++ [(later, decision)]) later where
  recent after hafter := by
    have hkept := recent_of_recent (b := b) [] logged hafter
    rw [List.append_nil, List.filter_nil, List.append_nil] at hkept
    rw [hkept, h.recent after (hnow.trans hafter), goTimes_concat_of_ne hgo]
  past t ht := by
    rw [goTimes_concat_of_ne hgo] at ht
    exact (h.past t ht).trans hnow
  fresh hl := by
    rw [sinceGo_concat_of_ne hgo]
    exact hfresh hl
  logged hl := by
    rw [sinceGo_concat_of_ne hgo]
    exact hlogged hl

/-- A decision keeps what is remembered up to date. -/
theorem Remembers.decide (h : b.Remembers log now) (hnow : now ≤ later) :
    (b.decide later).2.Remembers (log ++ [(later, (b.decide later).1)]) later := by
  rcases b.decide_cases later with ⟨heq, -⟩ | ⟨heq, -⟩ | ⟨heq, -⟩
  -- refused within the cool-down: no notice is added
  case inl =>
    rw [heq]
    have hsame : exhaustions (sinceGo log ++ [(later, .cooldown)]) = exhaustions (sinceGo log) := by
      rw [exhaustions_append]
      exact List.append_nil _
    refine h.refuse hnow (by simp) (fun hl => ?_) fun hl => ?_
    · rw [hsame]
      exact h.fresh hl
    · rw [hsame]
      exact h.logged hl
  -- refused with the budget spent: the first notice, or one more behind it
  case inr.inl =>
    rw [heq]
    refine h.refuse hnow (by simp) (by simp) fun _ => ?_
    rw [exhaustions_append]
    cases hl : b.exhaustedLogged with
    | false =>
      rw [h.fresh hl]
      exact ⟨0, rfl⟩
    | true =>
      obtain ⟨n, hn⟩ := h.logged hl
      rw [hn]
      exact ⟨n + 1, by rw [List.replicate_succ']; rfl⟩
  -- a restart is remembered, and the notices begin anew
  case inr.inr =>
    rw [heq]
    constructor
    case recent =>
      intro after hafter
      rw [recent_of_recent [later] false hafter, h.recent after (hnow.trans hafter),
        goTimes_concat_go, List.filter_append]
    case past =>
      intro t ht
      rw [goTimes_concat_go, List.mem_append, List.mem_singleton] at ht
      rcases ht with ht | rfl
      · exact (h.past t ht).trans hnow
      · exact le_rfl
    case fresh =>
      intro _
      rw [sinceGo_concat_go]
      rfl
    case logged =>
      intro hl
      simp at hl

end ServiceBudget

/-! ## What the log keeps to -/

namespace Rationed

variable {b : ServiceBudget} {log : List (Nat × RespawnDecision)} {now later : Nat}

/-- The empty log is rationed. -/
theorem nil : Rationed [] where
  spaced := List.Pairwise.nil
  windowed _ := ⟨Nat.zero_le _, Nat.zero_le _⟩
  refused before now decision h := by simp at h
  noticed before now since h := by simp at h

/-- Attempts in an interval that is in the window of the last of them are no more than the budget. -/
theorem windowed_concat {p : Nat → Bool} (h : b.Remembers log now) (hnow : now ≤ later)
    (hroom : (b.recent later).length < respawnBudget)
    (hp : ((goTimes log).filter p).length ≤ respawnBudget)
    (hwindow : p later = true → ∀ t, p t = true → later - t < respawnWindow) :
    ((goTimes log ++ [later]).filter p).length ≤ respawnBudget := by
  rw [List.filter_append]
  by_cases hlater : p later = true
  · have hsub : ((goTimes log).filter p).length ≤ (b.recent later).length := by
      rw [h.recent later hnow]
      refine (List.monotone_filter_right _ fun t ht => ?_).length_le
      rw [decide_eq_true_eq]
      exact hwindow hlater t ht
    rw [List.filter_cons_of_pos hlater, List.length_append]
    exact Nat.succ_le_of_lt (hsub.trans_lt hroom)
  · rw [List.filter_cons_of_neg hlater]
    simpa using hp

/-- An attempt comes after the cooldown of those before it. -/
theorem spaced_concat (h : b.Remembers log now) (hnow : now ≤ later)
    (hcool : ∀ t, (b.recent later).getLast? = some t → respawnCooldown ≤ later - t)
    (hspaced : (goTimes log).Pairwise fun t t' => t + respawnCooldown ≤ t') :
    (goTimes log ++ [later]).Pairwise fun t t' => t + respawnCooldown ≤ t' := by
  rw [List.pairwise_append]
  refine ⟨hspaced, List.pairwise_singleton _ _, fun t ht t' ht' => ?_⟩
  rw [List.mem_singleton] at ht'
  subst ht'
  have hpast := (h.past t ht).trans hnow
  have hwindow : respawnCooldown ≤ respawnWindow := by decide
  by_cases hrecent : t' - t < respawnWindow
  case neg => omega
  case pos =>
    have hmem : t ∈ b.recent t' := by
      rw [h.recent t' hnow, List.mem_filter, decide_eq_true_eq]
      exact ⟨ht, hrecent⟩
    obtain ⟨last, hlast⟩ : ∃ last, (b.recent t').getLast? = some last := by
      rw [← Option.isSome_iff_exists, List.getLast?_isSome]
      exact List.ne_nil_of_mem hmem
    -- the last of the recent attempts is not before `t`
    have hle : t ≤ last := by
      obtain ⟨front, hfront⟩ := List.getLast?_eq_some_iff.mp hlast
      have hpair : (b.recent t').Pairwise (· ≤ ·) := by
        rw [h.recent t' hnow]
        exact (hspaced.imp fun h => le_of_add_le_left h).filter _
      rw [hfront] at hmem hpair
      rcases List.mem_append.mp hmem with hmem | hmem
      · exact (List.pairwise_append.mp hpair).2.2 t hmem last (List.mem_singleton_self last)
      · exact (List.mem_singleton.mp hmem).le
    have := hcool last hlast
    omega

/-- One more answer keeps to it. -/
theorem concat (hlog : Rationed log) (h : b.Remembers log now) (hnow : now ≤ later) :
    Rationed (log ++ [(later, (b.decide later).1)]) where
  spaced := by
    rcases b.decide_cases later with ⟨heq, -⟩ | ⟨heq, -⟩ | ⟨heq, -, hcool⟩
    -- a refusal adds no restart
    · rw [heq, goTimes_concat_of_ne (by simp)]
      exact hlog.spaced
    · rw [heq, goTimes_concat_of_ne (by simp)]
      exact hlog.spaced
    -- a restart comes after the cool-down of the last one
    · rw [heq, goTimes_concat_go]
      exact spaced_concat h hnow hcool hlog.spaced
  windowed start := by
    have hold := hlog.windowed start
    -- a window that holds the new restart had room for it
    rcases b.decide_cases later with ⟨heq, -⟩ | ⟨heq, -⟩ | ⟨heq, hroom, -⟩
    · rw [heq, goTimes_concat_of_ne (by simp)]
      exact hold
    · rw [heq, goTimes_concat_of_ne (by simp)]
      exact hold
    · rw [heq, goTimes_concat_go]
      constructor
      · refine windowed_concat h hnow hroom hold.1 fun hlater t ht => ?_
        simp only [decide_eq_true_eq] at hlater ht
        omega
      · refine windowed_concat h hnow hroom hold.2 fun hlater t ht => ?_
        simp only [decide_eq_true_eq] at hlater ht
        omega
  refused before now' decision hpre hgo := by
    rcases List.prefix_concat_iff.mp hpre with heq | hpre
    case inr => exact hlog.refused before now' decision hpre hgo
    -- the last answer itself: what it was decided on is what the log says
    case inl =>
      obtain ⟨rfl, hlast⟩ := List.append_inj' heq rfl
      obtain ⟨rfl, hdecision⟩ : now' = later ∧ decision = (b.decide later).1 := by simpa using hlast
      rw [← h.recent now' hnow]
      rcases b.decide_cases now' with ⟨-, t, ht, hcool⟩ | ⟨-, hspent⟩ | ⟨hd, -⟩
      · rw [h.recent now' hnow] at ht
        exact .inl ⟨t, List.mem_of_mem_filter ht, hcool⟩
      · exact .inr hspent
      · rw [hd] at hdecision
        exact absurd hdecision hgo
  noticed before now' since hpre hsince := by
    rcases List.prefix_concat_iff.mp hpre with heq | hpre
    case inr => exact hlog.noticed before now' since hpre hsince
    case inl =>
      have hkept := h.decide hnow
      rw [← heq] at hkept
      cases hl : (b.decide later).2.exhaustedLogged with
      | false =>
        have hfresh := hkept.fresh hl
        rw [sinceGo_eq hsince] at hfresh
        exact .inl hfresh
      | true =>
        have hlogged := hkept.logged hl
        rw [sinceGo_eq hsince] at hlogged
        exact .inr hlogged

/-- So does a run, from what is remembered of the answers before it. -/
theorem append_decideAll {times : List Nat} (hlog : Rationed log) (h : b.Remembers log now)
    (htimes : (now :: times).Pairwise (· ≤ ·)) : Rationed (log ++ b.decideAll times) := by
  induction times generalizing b log now with
  | nil =>
    rw [ServiceBudget.decideAll, List.append_nil]
    exact hlog
  | cons t times ih =>
    rw [List.pairwise_cons] at htimes
    have hnow : now ≤ t := htimes.1 t List.mem_cons_self
    have hrest := ih (hlog.concat h hnow) (h.decide hnow) htimes.2
    rw [List.append_assoc] at hrest
    exact hrest

end Rationed

/-- **The respawn budget**: with instants that do not go back, the answers for a service keep to its
budget and cooldown, and calls for other services do not change them. -/
theorem respawnBudget_rationed {κ : Type} [DecidableEq κ] (calls : List (κ × Nat))
    (hmono : (calls.map Prod.snd).Pairwise (· ≤ ·)) (service : κ) :
    Rationed (answersFor service (RespawnBudget.empty.decideAll calls)) ∧
      ∀ calls' : List (κ × Nat),
        (calls'.filter fun c => c.1 = service) = (calls.filter fun c => c.1 = service) →
        answersFor service (RespawnBudget.empty.decideAll calls') =
          answersFor service (RespawnBudget.empty.decideAll calls) := by
  constructor
  · rw [RespawnBudget.answersFor_decideAll]
    have hown : ((calls.filter fun c => c.1 = service).map Prod.snd).Pairwise (· ≤ ·) :=
      hmono.sublist (List.filter_sublist.map Prod.snd)
    have hrun := Rationed.nil.append_decideAll (ServiceBudget.Remembers.start 0)
      (List.pairwise_cons.mpr ⟨fun t _ => Nat.zero_le t, hown⟩)
    rw [List.nil_append] at hrun
    exact hrun
  · intro calls' hcalls
    rw [RespawnBudget.answersFor_decideAll, RespawnBudget.answersFor_decideAll, hcalls]

/-- Four attempts in a minute, of which the last one is refused. -/
theorem respawnBudget_rationed_crashLoop :
    let calls := [(Service.ganesha, fromSecs 10), (Service.webui, fromSecs 15),
      (Service.ganesha, fromSecs 20), (Service.ganesha, fromSecs 30), (Service.ganesha, fromSecs 40)]
    answersFor .ganesha (RespawnBudget.empty.decideAll calls) = [(fromSecs 10, .go),
      (fromSecs 20, .go), (fromSecs 30, .go), (fromSecs 40, .exhausted true)] ∧
    Rationed (answersFor .ganesha (RespawnBudget.empty.decideAll calls)) :=
  ⟨by decide +kernel, (respawnBudget_rationed _ (by decide +kernel) _).1⟩

end NfsKlldap
