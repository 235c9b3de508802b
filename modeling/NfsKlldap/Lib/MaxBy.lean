import Mathlib

/-! # The greatest element by a key

Two loops look for an element with the greatest key and differ in ties: `maxByKey` keeps the last one,
`firstMaxByKey` keeps the first one. `IsLastMax` and `IsFirstMax` say where the chosen element stands
among the others; they agree when no other element has as great a key. -/

namespace NfsKlldap

variable {α : Type*} (key : α → ℕ)

/-- `Iterator::max_by_key`: the last of the elements with the greatest key. -/
def maxByKey : List α → Option α
  | [] => none
  | a :: l =>
    match maxByKey l with
    | none => some a
    | some b => if key a ≤ key b then some b else some a

/-- A loop that replaces the best element by a strictly better one. -/
def keepFirst (best : Option α) (a : α) : Option α :=
  if best.all fun b => key b < key a then some a else best

/-- The first of the elements with the greatest key. -/
def firstMaxByKey (l : List α) : Option α := l.foldl (keepFirst key) none

/-- `b` is the last element with the greatest key. -/
def IsLastMax (l : List α) (b : α) : Prop :=
  ∃ l₁ l₂, l = l₁ ++ b :: l₂ ∧ (∀ a ∈ l₁, key a ≤ key b) ∧ ∀ a ∈ l₂, key a < key b

/-- `b` is the first element with the greatest key. -/
def IsFirstMax (l : List α) (b : α) : Prop :=
  ∃ l₁ l₂, l = l₁ ++ b :: l₂ ∧ (∀ a ∈ l₁, key a < key b) ∧ ∀ a ∈ l₂, key a ≤ key b

variable {key} {l : List α} {b : α}

/-- Only the empty list has no maximum. -/
@[simp] theorem maxByKey_eq_none_iff : maxByKey key l = none ↔ l = [] := by
  cases l with
  | nil => simp [maxByKey]
  | cons a l =>
    rw [maxByKey]
    split
    · simp
    · split <;> simp

/-- What the scan keeps is the last maximum. -/
theorem isLastMax_of_maxByKey (h : maxByKey key l = some b) : IsLastMax key l b := by
  induction l generalizing b with
  | nil => cases h
  | cons a l ih =>
    rw [maxByKey] at h
    split at h
    · next hnone =>
      cases h
      rw [maxByKey_eq_none_iff] at hnone
      exact ⟨[], [], by rw [hnone]; rfl, by simp, by simp⟩
    · next c hc =>
      obtain ⟨l₁, l₂, rfl, h₁, h₂⟩ := ih hc
      split at h
      · next hle =>
        cases h
        exact ⟨a :: l₁, l₂, rfl, by simpa [hle] using h₁, h₂⟩
      · next hlt =>
        cases h
        refine ⟨[], l₁ ++ c :: l₂, rfl, by simp, fun x hx => ?_⟩
        rcases List.mem_append.mp hx with hx | hx
        · have := h₁ x hx
          omega
        · rcases List.mem_cons.mp hx with rfl | hx
          · omega
          · have := h₂ x hx
            omega

/-- The loop continues with the best element of what it has seen. -/
theorem isFirstMax_foldl {acc : Option α} {l : List α} (seen : List α)
    (hacc : ∀ b ∈ acc, IsFirstMax key seen b) (hnone : acc = none → seen = [])
    (h : l.foldl (keepFirst key) acc = some b) : IsFirstMax key (seen ++ l) b := by
  induction l generalizing acc seen with
  | nil =>
    rw [List.append_nil]
    exact hacc b h
  | cons a l ih =>
    rw [List.foldl_cons] at h
    have hsplit : seen ++ a :: l = (seen ++ [a]) ++ l := by simp
    rw [hsplit]
    unfold keepFirst at h
    split at h
    -- the new element beats everything before it
    · next hall =>
      refine ih (seen ++ [a]) (fun b hb => ?_) (by simp) h
      cases hb
      refine ⟨seen, [], rfl, fun x hx => ?_, by simp⟩
      cases acc with
      | none => simp [hnone rfl] at hx
      | some c =>
        have hca : key c < key a := by simpa using hall
        obtain ⟨l₁, l₂, rfl, h₁, h₂⟩ := hacc c rfl
        rcases List.mem_append.mp hx with hx | hx
        · have := h₁ x hx
          omega
        · rcases List.mem_cons.mp hx with rfl | hx
          · exact hca
          · have := h₂ x hx
            omega
    -- it does not, so that it goes behind the best one
    · next hall =>
      refine ih (seen ++ [a]) (fun b hb => ?_) (fun hn => ?_) h
      · obtain ⟨l₁, l₂, rfl, h₁, h₂⟩ := hacc b hb
        have hba : key a ≤ key b := by
          rw [Option.mem_def.mp hb] at hall
          simpa using hall
        refine ⟨l₁, l₂ ++ [a], by simp, h₁, fun x hx => ?_⟩
        rcases List.mem_append.mp hx with hx | hx
        · exact h₂ x hx
        · rw [List.mem_singleton] at hx
          rwa [hx]
      · simp [hn] at hall

/-- What the strict scan keeps is the first maximum. -/
theorem isFirstMax_of_firstMaxByKey (h : firstMaxByKey key l = some b) : IsFirstMax key l b :=
  isFirstMax_foldl [] (by simp) (fun _ => rfl) h

/-- Once something is kept, something stays kept. -/
theorem foldl_keepFirst_isSome {acc : Option α} (h : acc.isSome) :
    (l.foldl (keepFirst key) acc).isSome := by
  induction l generalizing acc with
  | nil => exact h
  | cons a l ih =>
    refine ih ?_
    unfold keepFirst
    split
    · rfl
    · exact h

/-- Only the empty list has no first maximum. -/
@[simp] theorem firstMaxByKey_eq_none_iff : firstMaxByKey key l = none ↔ l = [] := by
  cases l with
  | nil => simp [firstMaxByKey]
  | cons a l =>
    have hsome : (l.foldl (keepFirst key) (some a)).isSome := foldl_keepFirst_isSome rfl
    refine iff_of_false (fun hnone => ?_) (by simp)
    have hnone : l.foldl (keepFirst key) (some a) = none := hnone
    rw [hnone] at hsome
    exact absurd hsome (by simp)

/-- The last maximum is in the list. -/
theorem IsLastMax.mem (h : IsLastMax key l b) : b ∈ l := by
  obtain ⟨l₁, l₂, rfl, -, -⟩ := h
  simp

/-- The first maximum is in the list. -/
theorem IsFirstMax.mem (h : IsFirstMax key l b) : b ∈ l := by
  obtain ⟨l₁, l₂, rfl, -, -⟩ := h
  simp

/-- No key is above that of the last maximum. -/
theorem IsLastMax.le (h : IsLastMax key l b) {a : α} (ha : a ∈ l) : key a ≤ key b := by
  obtain ⟨l₁, l₂, rfl, h₁, h₂⟩ := h
  rcases List.mem_append.mp ha with ha | ha
  · exact h₁ a ha
  · rcases List.mem_cons.mp ha with rfl | ha
    · exact le_rfl
    · exact (h₂ a ha).le

/-- No key is above that of the first maximum. -/
theorem IsFirstMax.le (h : IsFirstMax key l b) {a : α} (ha : a ∈ l) : key a ≤ key b := by
  obtain ⟨l₁, l₂, rfl, h₁, h₂⟩ := h
  rcases List.mem_append.mp ha with ha | ha
  · exact (h₁ a ha).le
  · rcases List.mem_cons.mp ha with rfl | ha
    · exact le_rfl
    · exact h₂ a ha

/-- A list has one last maximum. -/
theorem IsLastMax.unique {a : α} (ha : IsLastMax key l a) (hb : IsLastMax key l b) : a = b := by
  obtain ⟨l₁, l₂, rfl, ha₁, ha₂⟩ := ha
  obtain ⟨m₁, m₂, heq, hb₁, hb₂⟩ := hb
  rcases List.append_eq_append_iff.mp heq with ⟨u, rfl, hu⟩ | ⟨u, rfl, hu⟩
  · cases u with
    | nil => exact (List.cons.inj hu).1
    | cons x u =>
      obtain ⟨rfl, rfl⟩ := List.cons.inj hu
      have hab := hb₁ a (by simp)
      have hba := ha₂ b (by simp)
      omega
  · cases u with
    | nil => exact (List.cons.inj hu).1.symm
    | cons x u =>
      obtain ⟨rfl, rfl⟩ := List.cons.inj hu
      have hba := ha₁ b (by simp)
      have hab := hb₂ a (by simp)
      omega

/-- A list has one first maximum. -/
theorem IsFirstMax.unique {a : α} (ha : IsFirstMax key l a) (hb : IsFirstMax key l b) : a = b := by
  obtain ⟨l₁, l₂, rfl, ha₁, ha₂⟩ := ha
  obtain ⟨m₁, m₂, heq, hb₁, hb₂⟩ := hb
  rcases List.append_eq_append_iff.mp heq with ⟨u, rfl, hu⟩ | ⟨u, rfl, hu⟩
  · cases u with
    | nil => exact (List.cons.inj hu).1
    | cons x u =>
      obtain ⟨rfl, rfl⟩ := List.cons.inj hu
      have hab := hb₁ a (by simp)
      have hba := ha₂ b (by simp)
      omega
  · cases u with
    | nil => exact (List.cons.inj hu).1.symm
    | cons x u =>
      obtain ⟨rfl, rfl⟩ := List.cons.inj hu
      have hba := ha₁ b (by simp)
      have hab := hb₂ a (by simp)
      omega

/-- **The scan finds exactly the last maximum.** -/
theorem maxByKey_eq_some_iff : maxByKey key l = some b ↔ IsLastMax key l b := by
  refine ⟨isLastMax_of_maxByKey, fun h => ?_⟩
  have hne : maxByKey key l ≠ none := fun hnone => by
    rw [maxByKey_eq_none_iff] at hnone
    exact absurd h.mem (by simp [hnone])
  obtain ⟨a, ha⟩ := Option.ne_none_iff_exists'.mp hne
  rw [ha, (isLastMax_of_maxByKey ha).unique h]

/-- **The strict scan finds exactly the first maximum.** -/
theorem firstMaxByKey_eq_some_iff : firstMaxByKey key l = some b ↔ IsFirstMax key l b := by
  refine ⟨isFirstMax_of_firstMaxByKey, fun h => ?_⟩
  have hne : firstMaxByKey key l ≠ none := fun hnone => by
    rw [firstMaxByKey_eq_none_iff] at hnone
    exact absurd h.mem (by simp [hnone])
  obtain ⟨a, ha⟩ := Option.ne_none_iff_exists'.mp hne
  rw [ha, (isFirstMax_of_firstMaxByKey ha).unique h]

end NfsKlldap
