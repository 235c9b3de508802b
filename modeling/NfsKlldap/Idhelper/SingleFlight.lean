import Mathlib

/-! # Single flights (`idhelper/daemon.rs`)

A burst of identical socket requests rides one resolve: the first client to claim a key leads, the
others wait in `FlightGuard::begin` until the key is released and come back as followers, without a
claim of their own. The registry is one set of keys behind one lock with one condition variable, so
a step is what a client does in one go while it holds the lock.

* `Flights.Step` lists the steps, with wake-ups that nobody asked for among them;
* `Flights.Tracked` is the invariant: the keys in flight are those of the undropped leaders, one
  leader a key;
* **`flights_safe`** reads the safety of the registry off it, for any number of clients. -/

namespace NfsKlldap

variable {ι κ : Type*}

/-- The guard `begin` returns. -/
structure FlightGuard (κ : Type*) where
  key : κ
  leader : Bool
  deriving DecidableEq, Repr

/-- Where a client stands. -/
inductive FlightClient (κ : Type*) where
  /-- Neither in `begin` nor in possession of a guard. -/
  | outside
  /-- Waiting on the condition variable. -/
  | blocked (key : κ)
  /-- Awake again, on its way to look at the set of keys. -/
  | woken (key : κ)
  | holding (guard : FlightGuard κ)
  deriving DecidableEq, Repr

/-- The keys in flight (`InFlight`), and the clients around them. -/
structure Flights (ι κ : Type*) where
  keys : Finset κ
  clients : ι → FlightClient κ

namespace Flights

/-- No key is in flight and no client has started. -/
def initial : Flights ι κ := ⟨∅, fun _ => .outside⟩

/-- Client `i` holds the undropped leader guard of `key`. -/
def Leads (s : Flights ι κ) (i : ι) (key : κ) : Prop := s.clients i = .holding ⟨key, true⟩

/-- Every client that waits on the condition variable wakes up, whatever its key. -/
def notifyAll (s : Flights ι κ) : Flights ι κ :=
  { s with
    clients := fun i =>
      match s.clients i with
      | .blocked key => .woken key
      | c => c }

/-- A wake-up changes no leader. -/
theorem leads_notifyAll {s : Flights ι κ} {j : ι} {key : κ} :
    s.notifyAll.Leads j key ↔ s.Leads j key := by
  unfold Leads notifyAll
  cases hc : s.clients j <;> simp [hc]

variable [DecidableEq ι]

/-- Client `i` moves to `c`. -/
def moveTo (s : Flights ι κ) (i : ι) (c : FlightClient κ) : Flights ι κ :=
  { s with clients := Function.update s.clients i c }

/-- A client that moves leads when it holds a flight as its leader; the others lead as before. -/
theorem leads_moveTo {s : Flights ι κ} {i j : ι} {c : FlightClient κ} {key : κ} :
    (s.moveTo i c).Leads j key ↔
      (j = i ∧ c = .holding ⟨key, true⟩) ∨ (j ≠ i ∧ s.Leads j key) := by
  by_cases hj : j = i <;> simp [Leads, moveTo, hj]

variable [DecidableEq κ]

/-- One pass through the loop of `begin` under the lock: wait while the key is in flight, else come
back with a guard. Only a caller that has not waited claims the key. -/
def attempt (s : Flights ι κ) (i : ι) (key : κ) (leader : Bool) : Flights ι κ :=
  if key ∈ s.keys then s.moveTo i (.blocked key)
  else { s with keys := if leader then insert key s.keys else s.keys }.moveTo i
    (.holding ⟨key, leader⟩)

/-- The drop of a guard: a follower has nothing to release. -/
def dropGuard (s : Flights ι κ) (i : ι) (guard : FlightGuard κ) : Flights ι κ :=
  if !guard.leader then s.moveTo i .outside
  else { s with keys := s.keys.erase guard.key }.moveTo i .outside |>.notifyAll

/-- What can happen next. -/
inductive Step : Flights ι κ → Flights ι κ → Prop where
  | begin {s : Flights ι κ} {i : ι} (key : κ) (h : s.clients i = .outside) :
    Step s (s.attempt i key true)
  /-- A waiting client wakes up without being notified. -/
  | spurious {s : Flights ι κ} {i : ι} {key : κ} (h : s.clients i = .blocked key) :
    Step s (s.moveTo i (.woken key))
  | recheck {s : Flights ι κ} {i : ι} {key : κ} (h : s.clients i = .woken key) :
    Step s (s.attempt i key false)
  | drop {s : Flights ι κ} {i : ι} {guard : FlightGuard κ} (h : s.clients i = .holding guard) :
    Step s (s.dropGuard i guard)

/-- The states of any interleaving. -/
def Reachable (s : Flights ι κ) : Prop := Relation.ReflTransGen Step initial s

/-- **The invariant**: the keys in flight are those of the undropped leaders, one leader a key. -/
structure Tracked (s : Flights ι κ) : Prop where
  mem_keys : ∀ key, key ∈ s.keys ↔ ∃ i, s.Leads i key
  unique : ∀ key i j, s.Leads i key → s.Leads j key → i = j

/-! ## One step -/

omit [DecidableEq κ] in
/-- A client that leads no key may move anywhere short of a leader guard. -/
theorem Tracked.moveTo {s : Flights ι κ} (h : s.Tracked) {i : ι} {c : FlightClient κ}
    (hi : ∀ key, ¬ s.Leads i key) (hc : ∀ key, c ≠ .holding ⟨key, true⟩) :
    (s.moveTo i c).Tracked := by
  have hiff : ∀ j key, (s.moveTo i c).Leads j key ↔ s.Leads j key := by
    intro j key
    rw [leads_moveTo]
    constructor
    · rintro (⟨-, heq⟩ | ⟨-, hl⟩)
      · exact absurd heq (hc key)
      · exact hl
    · intro hl
      refine Or.inr ⟨?_, hl⟩
      rintro rfl
      exact hi key hl
  refine ⟨fun key => ?_, fun key j k hj hk => ?_⟩
  · simp only [hiff]
    exact h.mem_keys key
  · exact h.unique key j k ((hiff j key).mp hj) ((hiff k key).mp hk)

/-- A pass through the loop by a client that leads no key. -/
theorem Tracked.attempt {s : Flights ι κ} (h : s.Tracked) {i : ι} (hi : ∀ key, ¬ s.Leads i key)
    (key : κ) (leader : Bool) : (s.attempt i key leader).Tracked := by
  unfold Flights.attempt
  split
  · exact h.moveTo hi (by simp)
  next hfree =>
  cases leader with
  | false => exact h.moveTo hi (by simp)
  | true =>
    -- nobody leads the key yet, so the claim makes a new leader and no second one
    have hnone : ∀ j, ¬ s.Leads j key := fun j hj => hfree ((h.mem_keys key).mpr ⟨j, hj⟩)
    refine ⟨fun k => ?_, fun k j l hj hl => ?_⟩
    · simp only [leads_moveTo]
      constructor
      · intro hk
        rcases Finset.mem_insert.mp hk with rfl | hk
        · exact ⟨i, Or.inl ⟨rfl, rfl⟩⟩
        · obtain ⟨j, hj⟩ := (h.mem_keys k).mp hk
          refine ⟨j, Or.inr ⟨?_, hj⟩⟩
          rintro rfl
          exact hi k hj
      · rintro ⟨j, ⟨-, heq⟩ | ⟨-, hj⟩⟩
        · cases heq
          exact Finset.mem_insert_self key s.keys
        · exact Finset.mem_insert_of_mem ((h.mem_keys k).mpr ⟨j, hj⟩)
    · rw [leads_moveTo] at hj hl
      rcases hj with ⟨rfl, heq⟩ | ⟨-, hj⟩ <;> rcases hl with ⟨rfl, heq'⟩ | ⟨-, hl⟩
      · rfl
      · cases heq
        exact absurd hl (hnone l)
      · cases heq'
        exact absurd hj (hnone j)
      · exact h.unique k j l hj hl

/-- Dropping a follower changes no key. -/
theorem keys_dropGuard_of_follower (s : Flights ι κ) (i : ι) {guard : FlightGuard κ}
    (hf : guard.leader = false) : (s.dropGuard i guard).keys = s.keys := by
  simp [dropGuard, hf, moveTo]

/-- The drop of a leader takes away the key with its only leader. -/
theorem Tracked.dropGuard {s : Flights ι κ} (h : s.Tracked) {i : ι} {guard : FlightGuard κ}
    (hi : s.clients i = .holding guard) : (s.dropGuard i guard).Tracked := by
  obtain ⟨key, leader⟩ := guard
  cases leader with
  -- a guard that does not lead takes no key away
  | false =>
    refine h.moveTo (fun k hk => ?_) (by simp)
    rw [Leads, hi] at hk
    simp at hk
  | true =>
    -- afterwards the others lead what they led
    have hiff : ∀ j k, (s.dropGuard i ⟨key, true⟩).Leads j k ↔ j ≠ i ∧ s.Leads j k := by
      intro j k
      change (notifyAll _).Leads j k ↔ _
      rw [leads_notifyAll, leads_moveTo]
      simp [Leads]
    refine ⟨fun k => ?_, fun k j l hj hl => ?_⟩
    · simp only [hiff]
      change k ∈ s.keys.erase key ↔ _
      rw [Finset.mem_erase, h.mem_keys]
      constructor
      · rintro ⟨hne, j, hj⟩
        refine ⟨j, ?_, hj⟩
        rintro rfl
        rw [Leads, hi] at hj
        cases hj
        exact hne rfl
      · rintro ⟨j, hne, hj⟩
        refine ⟨?_, j, hj⟩
        rintro rfl
        exact hne (h.unique k j i hj hi)
    · exact h.unique k j l ((hiff j k).mp hj).2 ((hiff l k).mp hl).2

/-! ## Every interleaving -/

omit [DecidableEq ι] [DecidableEq κ] in
/-- At the start every flight is tracked. -/
theorem tracked_initial : (initial : Flights ι κ).Tracked :=
  ⟨by simp [initial, Leads], by simp [initial, Leads]⟩

/-- Every step keeps the flights tracked. -/
theorem Tracked.step {s s' : Flights ι κ} (h : s.Tracked) (hs : Step s s') : s'.Tracked := by
  cases hs with
  | begin key hi => exact h.attempt (by simp [Leads, hi]) key true
  | spurious hi => exact h.moveTo (by simp [Leads, hi]) (by simp)
  | recheck hi => exact h.attempt (by simp [Leads, hi]) _ false
  | drop hi => exact h.dropGuard hi

/-- **In every reachable state** the flights are tracked. -/
theorem Reachable.tracked {s : Flights ι κ} (h : s.Reachable) : s.Tracked := by
  induction h with
  | refl => exact tracked_initial
  | tail _ hs ih => exact ih.step hs

/-- **Single-flight safety**: at every point of every interleaving the keys in flight are those of
the undropped leader guards, a key has at most one, the drop of a follower removes none, and
without an undropped guard no key is left. -/
theorem flights_safe {s : Flights ι κ} (h : s.Reachable) :
    (∀ key, key ∈ s.keys ↔ ∃ i, s.Leads i key) ∧
      (∀ key i j, s.Leads i key → s.Leads j key → i = j) ∧
      (∀ i guard, s.clients i = .holding guard → guard.leader = false →
        (s.dropGuard i guard).keys = s.keys) ∧
      ((∀ i guard, s.clients i ≠ .holding guard) → s.keys = ∅) := by
  have ht := h.tracked
  refine ⟨ht.mem_keys, ht.unique, fun i _ _ hf => s.keys_dropGuard_of_follower i hf, fun hnone => ?_⟩
  rw [Finset.eq_empty_iff_forall_notMem]
  intro key hkey
  obtain ⟨i, hi⟩ := (ht.mem_keys key).mp hkey
  exact hnone i _ hi

/-- One client leads a key while a second one waits for it. -/
theorem flights_safe_waiting :
    let s : Flights Nat Nat := (initial.attempt 0 7 true).attempt 1 7 true
    s.clients 0 = .holding ⟨7, true⟩ ∧ s.clients 1 = .blocked 7 ∧
      (∀ key, key ∈ s.keys ↔ ∃ i, s.Leads i key) := by
  refine ⟨by decide, by decide, (flights_safe ?_).1⟩
  have hfirst : Step (initial : Flights Nat Nat) (initial.attempt 0 7 true) := Step.begin 7 rfl
  have hsecond := Step.begin (i := 1) (s := (initial : Flights Nat Nat).attempt 0 7 true) 7
    (by decide)
  exact (Relation.ReflTransGen.single hfirst).tail hsecond

end Flights

end NfsKlldap
