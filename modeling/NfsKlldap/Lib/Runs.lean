import Mathlib

/-! # Sequences of steps

* **`EveryStep`** — what holds of every step of a sequence, from the state it is taken in;
* **`everyStep_of_invariant`** — the rule of invariants for it. -/

namespace NfsKlldap

namespace Runs

variable {σ ρ : Type*} {next : σ → ρ → σ} {P Q : σ → ρ → Prop}

/-- What holds of every step of a sequence. -/
def EveryStep (next : σ → ρ → σ) (P : σ → ρ → Prop) : σ → List ρ → Prop
  | _, [] => True
  | s, r :: rs => P s r ∧ EveryStep next P (next s r) rs

/-- Equivalent step conditions hold along the same runs. -/
theorem everyStep_congr (h : ∀ s r, P s r ↔ Q s r) {s : σ} {rs : List ρ} :
    EveryStep next P s rs ↔ EveryStep next Q s rs := by
  induction rs generalizing s with
  | nil => rfl
  | cons r rs ih => rw [EveryStep, EveryStep, h, ih]

/-- A weaker step condition holds along every run that meets the stronger one. -/
theorem EveryStep.mono (h : ∀ s r, P s r → Q s r) {s : σ} {rs : List ρ}
    (hP : EveryStep next P s rs) : EveryStep next Q s rs := by
  induction rs generalizing s with
  | nil => trivial
  | cons r rs ih => exact ⟨h s r hP.1, ih hP.2⟩

/-- A conjunction holds along a run exactly when both conditions do. -/
theorem everyStep_and {s : σ} {rs : List ρ} : EveryStep next (fun s r => P s r ∧ Q s r) s rs ↔
    EveryStep next P s rs ∧ EveryStep next Q s rs := by
  induction rs generalizing s with
  | nil => exact ⟨fun _ => ⟨trivial, trivial⟩, fun _ => trivial⟩
  | cons r rs ih =>
    rw [EveryStep, EveryStep, EveryStep, ih]
    tauto

/-- A run in two parts meets a condition exactly when the first part does, and the second from where the
first ends. -/
theorem everyStep_append {s : σ} {rs rs' : List ρ} : EveryStep next P s (rs ++ rs') ↔
    EveryStep next P s rs ∧ EveryStep next P (rs.foldl next s) rs' := by
  induction rs generalizing s with
  | nil => exact ⟨fun h => ⟨trivial, h⟩, fun h => h.2⟩
  | cons r rs ih => rw [List.cons_append, EveryStep, EveryStep, ih, List.foldl_cons, and_assoc]

/-- An invariant carries a property of steps over a sequence. -/
theorem everyStep_of_invariant (inv : σ → Prop) {rs : List ρ}
    (hstep : ∀ s, ∀ r ∈ rs, inv s → P s r ∧ inv (next s r)) {s : σ} (hs : inv s) :
    EveryStep next P s rs := by
  induction rs generalizing s with
  | nil => trivial
  | cons r rs ih =>
    obtain ⟨hp, hinv⟩ := hstep s r List.mem_cons_self hs
    exact ⟨hp, ih (fun s' r' hr => hstep s' r' (List.mem_cons_of_mem r hr)) hinv⟩

/-- Where a property of steps is known, the invariant may need it. -/
theorem everyStep_of_invariant_of (inv : σ → Prop) {rs : List ρ}
    (hstep : ∀ s r, inv s → Q s r → P s r ∧ inv (next s r)) {s : σ} (hs : inv s)
    (hQ : EveryStep next Q s rs) : EveryStep next P s rs := by
  induction rs generalizing s with
  | nil => trivial
  | cons r rs ih =>
    obtain ⟨hp, hinv⟩ := hstep s r hs hQ.1
    exact ⟨hp, ih hinv hQ.2⟩

end Runs

end NfsKlldap
