import Mathlib

/-! # Things that are lent from a pool

A thing is opened by a holder, given back to a pool, lent to the next holder, and closed at some
point: after that it is nowhere any more.

* **`Place`** — where a thing is, and **`Moves`** how it gets about;
* **`MovesAll`** — what one step does to all things;
* **`closed_of_movesAll`** — a closed thing is never pooled or held again. -/

namespace NfsKlldap

namespace Lending

variable {κ γ : Type*}

/-- Where a thing is. -/
inductive Place (γ : Type*)
  | unopened
  | pooled
  | held (c : γ)
  | closed
  deriving DecidableEq

/-- How a thing gets from one place to another. -/
inductive Moves : Place γ → Place γ → Prop
  | stay (p : Place γ) : Moves p p
  | openBy (c : γ) : Moves .unopened (.held c)
  | lend (c : γ) : Moves .pooled (.held c)
  | giveBack (c : γ) : Moves (.held c) .pooled
  | close (p : Place γ) : Moves p .closed

/-- A closed place stays closed. -/
theorem eq_closed_of_moves {p : Place γ} (h : Moves .closed p) : p = .closed := by
  cases h <;> rfl

/-- What one step does to all things. -/
def MovesAll (place place' : κ → Place γ) : Prop := ∀ k, Moves (place k) (place' k)

/-- Every place may stay where it is. -/
theorem movesAll_refl (place : κ → Place γ) : MovesAll place place := fun k => .stay (place k)

/-- One thing moves, and the others stay. -/
theorem movesAll_update [DecidableEq κ] {place : κ → Place γ} {k : κ} {p : Place γ}
    (h : Moves (place k) p) : MovesAll place (Function.update place k p) := by
  intro k'
  by_cases hk : k' = k
  · subst hk
    rw [Function.update_self]
    exact h
  · rw [Function.update_of_ne hk]
    exact .stay _

/-- **Closed is final.** -/
theorem closed_of_movesAll {place place' : κ → Place γ}
    (h : Relation.ReflTransGen MovesAll place place') {k : κ} (hk : place k = .closed) :
    place' k = .closed := by
  induction h with
  | refl => exact hk
  | tail _ hstep ih =>
    have hmove := hstep k
    rw [ih] at hmove
    exact eq_closed_of_moves hmove

end Lending

end NfsKlldap
