import NfsKlldap.Supervisor.Effects

/-! # At most one Ganesha, and it is the tracked one

`Machine.mark` records the tracked pid and the live Ganeshas whenever time has passed and after
every write of the tracked pid, so that `history` holds every moment at which either has changed. A
moment is *sound* when at most one Ganesha is live and that one is tracked.

The invariant is `Sound`: the present moment and all past ones are sound. Each effect keeps it, for
its own reason: a pid is dropped or replaced only after it was seen dead, and a Ganesha is spawned
only while none is tracked, when none can be live. -/

namespace NfsKlldap

open Relation

/-- At most one Ganesha is live, and it is the tracked one. -/
structure Moment.Sound (m : Moment) : Prop where
  atMostOne : m.live.length ≤ 1
  tracked : ∀ n ∈ m.live, m.tracked = some (.ganesha n)

/-- The present moment. -/
def Machine.present (s : Machine) : Moment := ⟨s.pids.ganesha, s.ganeshas⟩

/-- The present moment and all past ones are sound. -/
structure Sound (s : Machine) : Prop where
  present : s.present.Sound
  past : ∀ m ∈ s.history, m.Sound

/-- Deaths keep a moment sound. -/
theorem Moment.Sound.sublist {m m' : Moment} (h : m.Sound) (ht : m'.tracked = m.tracked)
    (hl : m'.live.Sublist m.live) : m'.Sound where
  atMostOne := Nat.le_trans hl.length_le h.atMostOne
  tracked := fun n hn => ht.trans (h.tracked n (hl.subset hn))

/-- With nobody alive there is nothing to track. -/
theorem Moment.Sound.of_none {m : Moment} (h : m.live = []) : m.Sound where
  atMostOne := by simp [h]
  tracked := by simp [h]

section

variable {o : Oracle} {s s' : Machine}

/-- In a sound state, a tracked Ganesha that is dead means no Ganesha at all. -/
theorem Sound.ganeshas_of_trackedDead (h : Sound s) (hd : TrackedDead s) : s.ganeshas = [] :=
  List.eq_nil_iff_forall_not_mem.mpr fun n hn => hd n (h.present.tracked n hn) hn

/-- In a sound state where nothing is tracked, none is live. -/
theorem Sound.ganeshas_of_none (h : Sound s) (hn : s.pids.ganesha = none) : s.ganeshas = [] :=
  h.ganeshas_of_trackedDead fun n ht => by rw [hn] at ht; cases ht

/-- In a sound state where something else is tracked, none is live. -/
theorem Sound.ganeshas_of_other (h : Sound s) {n : Nat} (hn : s.pids.ganesha = some (.other n)) :
    s.ganeshas = [] :=
  h.ganeshas_of_trackedDead fun m ht => by rw [hn] at ht; cases ht

/-- Recording the moment keeps the pids sound. -/
theorem Sound.mark (h : Sound s) : Sound s.mark where
  present := h.present
  past := by
    intro m hm
    rcases List.mem_cons.mp hm with rfl | hm
    · exact h.present
    · exact h.past m hm

/-- While no Ganesha is live any pid may be written. -/
theorem Sound.track (h : Sound s) (hd : TrackedDead s) (p : Option Pid) : Sound (s.track p) :=
  Sound.mark ⟨Moment.Sound.of_none (h.ganeshas_of_trackedDead hd), h.past⟩

/-- A Ganesha spawned while none was tracked is the only one. -/
theorem Sound.launch (h : Sound s) (hn : s.pids.ganesha = none) : Sound s.launch := by
  refine Sound.mark ⟨?_, h.past⟩
  -- nothing was tracked, so nothing was alive: the new one is alone
  have hnil := h.ganeshas_of_none hn
  constructor
  · simp [Machine.present, hnil]
  · intro n hn
    simp only [Machine.present, hnil, List.nil_append, List.mem_singleton] at hn ⊢
    rw [hn]

/-- Time keeps the pids sound. -/
theorem Sound.elapsed (h : Sound s) (he : Elapsed s s') : Sound s' where
  present := h.present.sublist he.tracked he.ganeshas
  past := by
    intro m hm
    rcases he.history m hm with hm | ⟨ht, hl⟩
    · exact h.past m hm
    · exact h.present.sublist ht hl

/-- Tending keeps the pids sound. -/
theorem Sound.tend (h : Sound s) (ht : Tend s s') : Sound s' := by
  cases ht with
  | elapse he => exact h.elapsed he
  | forget hd => exact h.track hd none
  | launch hn => exact h.launch hn
  -- no live Ganesha is left behind: the tracked one is dead
  | recover hd _ _ => exact h.track hd _
  | hup pid =>
    cases pid with
    | ganesha n => exact ⟨h.present, h.past⟩
    | other n => exact h
  | note e => exact ⟨h.present, h.past⟩

/-- Any amount of tending keeps the pids sound. -/
theorem Sound.tends (h : Sound s) (ht : Tends s s') : Sound s' := by
  induction ht with
  | refl => exact h
  | tail _ ht ih => exact ih.tend ht

/-- Everything the supervisor does keeps the pids sound. -/
theorem Sound.effect (h : Sound s) (he : Effect o s s') : Sound s' := by
  cases he with
  | tend ht => exact h.tend ht
  | unmanage _ => exact ⟨h.present, h.past⟩
  | generate d => exact ⟨h.present, h.past⟩
  | setMode b => exact ⟨h.present, h.past⟩
  | started => exact ⟨h.present, h.past⟩
  | quit _ _ => exact ⟨h.present, h.past⟩

/-- Whatever the supervisor does, every moment of it is sound. -/
theorem Sound.effects (h : Sound s) (he : Effects o s s') : Sound s' := by
  induction he with
  | refl => exact h
  | tail _ he ih => exact ih.effect he

end

/-- A machine that has just booted is sound. -/
theorem sound_bootMachine (o : Oracle) (disk : DerivedFiles) : Sound (bootMachine o disk) where
  present := Moment.Sound.of_none rfl
  past := fun _ hm => absurd hm List.not_mem_nil

/-- **The pids are sound after every number of ticks.** -/
theorem sound_supervise (o : Oracle) (disk : DerivedFiles) (n : Nat) : Sound (supervise o disk n) :=
  (sound_bootMachine o disk).effects (supervise_effects o disk n)

/-- **No double spawn.** In every run, at every moment, at most one Ganesha is live, and a live one
is the tracked one: no write ever drops the pid of a live Ganesha. -/
theorem noDoubleSpawn (o : Oracle) (disk : DerivedFiles) (n : Nat) :
    (supervise o disk n).present.Sound ∧ ∀ m ∈ (supervise o disk n).history, m.Sound :=
  ⟨(sound_supervise o disk n).present, (sound_supervise o disk n).past⟩

end NfsKlldap
