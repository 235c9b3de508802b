import Mathlib

/-! # Lists in step

Two lists are *in step* when they are related position by position (`List.Forall₂`). Ascending lists
over related keys are, whatever order they were built in, and loops over lists in step agree when
their bodies do. -/

namespace NfsKlldap

variable {α β γ : Type*} {R : α → β → Prop}

/-- Two strictly ascending lists whose elements are related to each other are related position by
position. -/
theorem forall₂_of_pairwise_lt [LinearOrder γ] {f : α → γ} {f' : β → γ} {l : List α} {l' : List β}
    (hl : l.Pairwise fun a b => f a < f b) (hl' : l'.Pairwise fun a b => f' a < f' b)
    (hkey : ∀ a b, R a b → f a = f' b) (hleft : ∀ a ∈ l, ∃ b ∈ l', R a b)
    (hright : ∀ b ∈ l', ∃ a ∈ l, R a b) : List.Forall₂ R l l' := by
  induction l generalizing l' with
  | nil =>
    cases l' with
    | nil => exact .nil
    | cons b l' =>
      obtain ⟨a, ha, -⟩ := hright b List.mem_cons_self
      simp at ha
  | cons a l ih =>
    cases l' with
    | nil =>
      obtain ⟨b, hb, -⟩ := hleft a List.mem_cons_self
      simp at hb
    | cons b l' =>
      rw [List.pairwise_cons] at hl hl'
      -- both heads are least, so they are each other's partners
      have hab : R a b := by
        obtain ⟨b', hb', hab'⟩ := hleft a List.mem_cons_self
        obtain ⟨a', ha', hab⟩ := hright b List.mem_cons_self
        rcases List.mem_cons.mp hb' with rfl | hb'
        · exact hab'
        · rcases List.mem_cons.mp ha' with rfl | ha'
          · exact hab
          · have h1 := hl'.1 b' hb'
            have h2 := hl.1 a' ha'
            rw [hkey a b' hab'] at h2
            rw [hkey a' b hab] at h2
            exact absurd h1 (lt_asymm h2)
      refine .cons hab (ih hl.2 hl'.2 ?_ ?_)
      · intro x hx
        obtain ⟨y, hy, hxy⟩ := hleft x (List.mem_cons_of_mem _ hx)
        rcases List.mem_cons.mp hy with rfl | hy
        · exact absurd (hl.1 x hx) (by rw [hkey a y hab, hkey x y hxy]; exact lt_irrefl _)
        · exact ⟨y, hy, hxy⟩
      · intro y hy
        obtain ⟨x, hx, hxy⟩ := hright y (List.mem_cons_of_mem _ hy)
        rcases List.mem_cons.mp hx with rfl | hx
        · exact absurd (hl'.1 y hy) (by rw [← hkey x b hab, ← hkey x y hxy]; exact lt_irrefl _)
        · exact ⟨x, hx, hxy⟩

/-- Folds over lists in step agree when their steps do. -/
theorem foldl_congr_forall₂ {f : γ → α → γ} {f' : γ → β → γ} {l : List α} {l' : List β}
    (h : List.Forall₂ R l l') (hf : ∀ m a b, R a b → f m a = f' m b) (m : γ) :
    l.foldl f m = l'.foldl f' m := by
  induction h generalizing m with
  | nil => rfl
  | cons hab _ ih => rw [List.foldl_cons, List.foldl_cons, hf m _ _ hab, ih]

/-- Two lists in step flatten to the same list when related members do. -/
theorem flatMap_congr_forall₂ {f : α → List γ} {f' : β → List γ} {l : List α} {l' : List β}
    (h : List.Forall₂ R l l') (hf : ∀ a b, R a b → f a = f' b) : l.flatMap f = l'.flatMap f' := by
  induction h with
  | nil => rfl
  | cons hab _ ih => rw [List.flatMap_cons, List.flatMap_cons, hf _ _ hab, ih]

end NfsKlldap
