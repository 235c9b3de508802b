import Mathlib

/-! # Stages that run until one fails

A program that brings several things up to date one after another, and stops at the first stage that
fails: what the stages before it have done stays done.

* **`runStages`** — the stages in their order;
* **`exists_of_runStages_error`** — a run that fails is a run up to a stage that fails;
* **`runStages_error_of_only`** — an error that only one stage raises. -/

namespace NfsKlldap

namespace Stages

variable {σ ε : Type*}

/-- A stage says how it went and leaves a state. -/
abbrev Stage (σ ε : Type*) := σ → Except ε Unit × σ

/-- Run the stages up to the first one that fails. -/
def runStages : List (Stage σ ε) → Stage σ ε
  | [], s => (.ok (), s)
  | f :: fs, s =>
    match f s with
    | (.ok (), s') => runStages fs s'
    | (.error e, s') => (.error e, s')

variable {f : Stage σ ε} {fs : List (Stage σ ε)} {s : σ} {e : ε}

/-- No stage leaves the state as it is. -/
@[simp] theorem runStages_nil : runStages ([] : List (Stage σ ε)) s = (.ok (), s) := rfl

/-- After a stage that succeeds the remaining ones run from its state. -/
theorem runStages_cons_ok (h : (f s).1 = .ok ()) :
    runStages (f :: fs) s = runStages fs (f s).2 := by
  rw [runStages, show f s = (.ok (), (f s).2) from Prod.ext h rfl]

/-- A stage that fails ends the run with its error and its state. -/
theorem runStages_cons_error (h : (f s).1 = .error e) :
    runStages (f :: fs) s = (.error e, (f s).2) := by
  rw [runStages, show f s = (.error e, (f s).2) from Prod.ext h rfl]

/-- When the first stages succeed, the others run from their state. -/
theorem runStages_append_ok {gs : List (Stage σ ε)} (h : (runStages fs s).1 = .ok ()) :
    runStages (fs ++ gs) s = runStages gs (runStages fs s).2 := by
  induction fs generalizing s with
  | nil => rfl
  | cons f fs ih =>
    cases hf : (f s).1 with
    | error e =>
      rw [runStages_cons_error hf] at h
      exact absurd h (by simp)
    | ok u =>
      rw [runStages_cons_ok hf] at h ⊢
      rw [List.cons_append, runStages_cons_ok hf, ih h]

/-- A run succeeds when its first stage does and the others do after it. -/
theorem runStages_cons_eq_ok_iff : (runStages (f :: fs) s).1 = .ok () ↔
    (f s).1 = .ok () ∧ (runStages fs (f s).2).1 = .ok () := by
  cases hf : (f s).1 with
  | error e => simp [runStages_cons_error hf]
  | ok u => simp [runStages_cons_ok hf]

/-- Two lists of stages succeed exactly when the first does, and the second after it. -/
theorem runStages_append_eq_ok_iff {gs : List (Stage σ ε)} : (runStages (fs ++ gs) s).1 = .ok () ↔
    (runStages fs s).1 = .ok () ∧ (runStages gs (runStages fs s).2).1 = .ok () := by
  induction fs generalizing s with
  | nil => simp
  | cons f fs ih =>
    cases hf : (f s).1 with
    | error e => simp [runStages_cons_error hf]
    | ok u => simp [runStages_cons_ok hf, ih]

/-- A run that fails gets to a stage that fails. -/
theorem exists_of_runStages_error (h : (runStages fs s).1 = .error e) :
    ∃ pre f post, fs = pre ++ f :: post ∧ (runStages pre s).1 = .ok () ∧
      (f (runStages pre s).2).1 = .error e ∧
        (runStages fs s).2 = (f (runStages pre s).2).2 := by
  induction fs generalizing s with
  | nil => simp at h
  | cons f fs ih =>
    cases hf : (f s).1 with
    | error e' =>
      rw [runStages_cons_error hf] at h ⊢
      obtain rfl := Except.error.inj h
      exact ⟨[], f, fs, rfl, rfl, hf, rfl⟩
    | ok u =>
      rw [runStages_cons_ok hf] at h ⊢
      obtain ⟨pre, g, post, rfl, hpre, hg, hs⟩ := ih h
      refine ⟨f :: pre, g, post, rfl, ?_, ?_, ?_⟩
      · rw [runStages_cons_ok hf, hpre]
      · rw [runStages_cons_ok hf, hg]
      · rw [runStages_cons_ok hf, hs]

/-- An error that only the stage `f` raises comes from there, after the stages before it. -/
theorem runStages_error_of_only {pre post : List (Stage σ ε)}
    (hpre : ∀ g ∈ pre, ∀ s, (g s).1 ≠ .error e) (hpost : ∀ g ∈ post, ∀ s, (g s).1 ≠ .error e)
    (h : (runStages (pre ++ f :: post) s).1 = .error e) :
    (runStages pre s).1 = .ok () ∧ (f (runStages pre s).2).1 = .error e ∧
      (runStages (pre ++ f :: post) s).2 = (f (runStages pre s).2).2 := by
  induction pre generalizing s with
  | nil =>
    rw [List.nil_append] at h ⊢
    cases hf : (f s).1 with
    | error e' =>
      rw [runStages_cons_error hf] at h ⊢
      exact ⟨rfl, hf.trans h, rfl⟩
    | ok u =>
      rw [runStages_cons_ok hf] at h
      obtain ⟨pre, g, rest, rfl, -, hg, -⟩ := exists_of_runStages_error h
      exact absurd hg (hpost g (by simp) _)
  | cons g pre ih =>
    rw [List.cons_append] at h ⊢
    cases hg : (g s).1 with
    | error e' =>
      rw [runStages_cons_error hg] at h
      exact absurd (hg.trans h) (hpre g List.mem_cons_self s)
    | ok u =>
      rw [runStages_cons_ok hg] at h ⊢
      rw [runStages_cons_ok hg]
      exact ih (fun g' hg' => hpre g' (List.mem_cons_of_mem _ hg')) h

end Stages

end NfsKlldap
