import Mathlib

/-! # Pieces with a mark behind each

* **`framed_inj`** — where the mark is in no piece, the pieces can be told apart again;
* **`eq_iff_flatten_lengths`** — where texts are run together without a mark, their lengths must be
  known. -/

namespace NfsKlldap

namespace Framing

variable {α : Type*} {mark : α}

/-- Up to the first mark, and beyond it. -/
theorem append_mark_inj {x x' r r' : List α} (hx : mark ∉ x) (hx' : mark ∉ x') :
    x ++ mark :: r = x' ++ mark :: r' ↔ x = x' ∧ r = r' := by
  induction x generalizing x' with
  | nil =>
    cases x' with
    | nil => simp
    | cons a x' =>
      have hne : mark ≠ a := fun heq => hx' (heq ▸ List.mem_cons_self)
      simp [hne]
  | cons a x ih =>
    cases x' with
    | nil =>
      have hne : a ≠ mark := fun heq => hx (heq ▸ List.mem_cons_self)
      simp [hne]
    | cons a' x' =>
      have hx := fun h => hx (List.mem_cons_of_mem a h)
      have hx' := fun h => hx' (List.mem_cons_of_mem a' h)
      rw [List.cons_append, List.cons_append, List.cons.injEq, List.cons.injEq, ih hx hx', and_assoc]

/-- Pieces, and the mark behind each of them. -/
def framed (mark : α) (pieces : List (List α)) : List α := pieces.flatMap fun x => x ++ [mark]

/-- Framing a list writes its head, a mark, and the framed tail. -/
theorem framed_cons (x : List α) (xs : List (List α)) :
    framed mark (x :: xs) = x ++ mark :: framed mark xs := by
  rw [framed, List.flatMap_cons, List.append_assoc]
  rfl

/-- **Pieces without the mark** can be told apart. -/
theorem framed_inj {xs ys : List (List α)} (hxs : ∀ x ∈ xs, mark ∉ x) (hys : ∀ y ∈ ys, mark ∉ y) :
    framed mark xs = framed mark ys ↔ xs = ys := by
  induction xs generalizing ys with
  | nil =>
    cases ys with
    | nil => simp
    | cons y ys => simp [framed]
  | cons x xs ih =>
    cases ys with
    | nil => simp [framed]
    | cons y ys =>
      rw [List.forall_mem_cons] at hxs hys
      rw [framed_cons, framed_cons, append_mark_inj hxs.1 hys.1, ih hxs.2 hys.2, List.cons.injEq]

/-- **Pieces that are run together** are the same when they have the same lengths. -/
theorem eq_iff_flatten_lengths {L L' : List (List (List α))} :
    L = L' ↔ L.map List.flatten = L'.map List.flatten ∧
      L.map (List.map List.length) = L'.map (List.map List.length) := by
  refine ⟨fun h => h ▸ ⟨rfl, rfl⟩, fun ⟨hflat, hlen⟩ => ?_⟩
  have hinj : Function.Injective fun l : List (List α) => (l.flatten, l.map List.length) :=
    fun l l' h => List.eq_iff_flatten_eq.mpr (Prod.mk.inj h)
  refine List.map_injective_iff.mpr hinj ?_
  rw [← List.zip_map', ← List.zip_map', hflat, hlen]

end Framing

end NfsKlldap
