import Mathlib

/-! # Lists used as sets

Two ways a program keeps a set in a list.

* **`pushNew`** appends an element that is not there yet (`if !v.contains(&x) { v.push(x) }`);
  `pushAllNew` does so for a whole list. Elements already present keep their place.
* **`setInsert`** inserts into an ascending list without repetition, as a B-tree set does, and
  **`orInsert`** files a value under a key of an ascending association list unless the key is
  there, as `entry(k).or_insert(v)` on a B-tree map does. -/

namespace NfsKlldap

variable {α : Type*}

/-- A fold holds what it starts with, and what its steps add. -/
theorem mem_foldl_of_step {γ : Type*} {step : List α → γ → List α} {adds : γ → α → Prop}
    (hstep : ∀ l x b, b ∈ step l x → b ∈ l ∨ adds x b) {xs : List γ} {l : List α} {b : α}
    (h : b ∈ xs.foldl step l) : b ∈ l ∨ ∃ x ∈ xs, adds x b := by
  induction xs generalizing l with
  | nil => exact Or.inl h
  | cons x xs ih =>
    rcases ih h with hstart | ⟨y, hy, hadds⟩
    · rcases hstep l x b hstart with hl | hadds
      · exact Or.inl hl
      · exact Or.inr ⟨x, List.mem_cons_self, hadds⟩
    · exact Or.inr ⟨y, List.mem_cons_of_mem x hy, hadds⟩

section PushNew

variable [DecidableEq α]

/-- Append `a` unless it is there. -/
def pushNew (l : List α) (a : α) : List α := if a ∈ l then l else l ++ [a]

/-- Append every element of `as` that is not there yet. -/
def pushAllNew (l as : List α) : List α := as.foldl pushNew l

/-- Pushing nothing leaves the list. -/
@[simp] theorem pushAllNew_nil (l : List α) : pushAllNew l [] = l := rfl

/-- A list of elements is pushed from its head on. -/
@[simp] theorem pushAllNew_cons (l : List α) (a : α) (as : List α) :
    pushAllNew l (a :: as) = pushAllNew (pushNew l a) as := rfl

/-- Two lists of elements are pushed one after the other. -/
theorem pushAllNew_append (l as bs : List α) :
    pushAllNew l (as ++ bs) = pushAllNew (pushAllNew l as) bs := List.foldl_append

/-- After a push the list holds its old elements and the pushed one. -/
@[simp] theorem mem_pushNew {l : List α} {a b : α} : b ∈ pushNew l a ↔ b ∈ l ∨ b = a := by
  unfold pushNew
  split
  · rename_i h
    exact ⟨Or.inl, fun hb => hb.elim id fun hba => hba ▸ h⟩
  · simp

/-- After pushing a list, its elements are held besides the old ones. -/
@[simp] theorem mem_pushAllNew {l as : List α} {b : α} :
    b ∈ pushAllNew l as ↔ b ∈ l ∨ b ∈ as := by
  induction as generalizing l with
  | nil => simp
  | cons a as ih => rw [pushAllNew_cons, ih, mem_pushNew, List.mem_cons, or_assoc]

/-- A push keeps the list free of duplicates. -/
theorem nodup_pushNew {l : List α} (h : l.Nodup) (a : α) : (pushNew l a).Nodup := by
  unfold pushNew
  split
  · exact h
  · rename_i ha
    exact List.nodup_append.mpr ⟨h, List.nodup_singleton a, by
      intro b hb c hc hbc
      exact ha (List.mem_singleton.mp hc ▸ hbc ▸ hb)⟩

/-- Pushing what is already there changes nothing. -/
theorem pushAllNew_eq_self {l as : List α} (h : ∀ a ∈ as, a ∈ l) : pushAllNew l as = l := by
  induction as with
  | nil => rfl
  | cons a as ih =>
    rw [pushAllNew_cons, pushNew, if_pos (h a List.mem_cons_self)]
    exact ih fun b hb => h b (List.mem_cons_of_mem _ hb)

/-- Pushing distinct new elements is concatenation. -/
theorem pushAllNew_eq_append {l as : List α} (hnd : as.Nodup) (h : ∀ a ∈ as, a ∉ l) :
    pushAllNew l as = l ++ as := by
  induction as generalizing l with
  | nil => simp
  | cons a as ih =>
    rw [List.nodup_cons] at hnd
    rw [pushAllNew_cons, pushNew, if_neg (h a List.mem_cons_self), ih hnd.2]
    · simp
    · intro b hb
      have hba : b ≠ a := fun hba => hnd.1 (hba ▸ hb)
      simp [h b (List.mem_cons_of_mem _ hb), hba]

/-- Pushing elements extends the list at its end by distinct new ones. -/
theorem exists_pushAllNew_eq_append (l as : List α) :
    ∃ t, pushAllNew l as = l ++ t ∧ t.Nodup ∧ ∀ a ∈ t, a ∈ as ∧ a ∉ l := by
  induction as generalizing l with
  | nil => exact ⟨[], by simp, List.nodup_nil, by simp⟩
  | cons a as ih =>
    obtain ⟨t, ht, hnd, hmem⟩ := ih (pushNew l a)
    rw [pushAllNew_cons, ht]
    unfold pushNew at hmem ⊢
    split
    · rename_i ha
      rw [if_pos ha] at hmem
      exact ⟨t, rfl, hnd, fun b hb => ⟨List.mem_cons_of_mem _ (hmem b hb).1, (hmem b hb).2⟩⟩
    · rename_i ha
      rw [if_neg ha] at hmem
      refine ⟨a :: t, by simp, List.nodup_cons.mpr ⟨fun hat => ?_, hnd⟩, ?_⟩
      · exact (hmem a hat).2 (by simp)
      · intro b hb
        rcases List.mem_cons.mp hb with rfl | hb
        · exact ⟨List.mem_cons_self, ha⟩
        · exact ⟨List.mem_cons_of_mem _ (hmem b hb).1,
            fun hbl => (hmem b hb).2 (List.mem_append_left _ hbl)⟩

/-- Pushing the result once more changes nothing. -/
theorem pushAllNew_pushAllNew (l as : List α) :
    pushAllNew l (pushAllNew l as) = pushAllNew l as := by
  obtain ⟨t, ht, hnd, hmem⟩ := exists_pushAllNew_eq_append l as
  rw [ht, pushAllNew_append, pushAllNew_eq_self fun _ ha => ha]
  exact pushAllNew_eq_append hnd fun a ha => (hmem a ha).2

/-- Pushing commutes with filtering. -/
theorem filter_pushAllNew (p : α → Bool) (l as : List α) :
    (pushAllNew l as).filter p = pushAllNew (l.filter p) (as.filter p) := by
  induction as generalizing l with
  | nil => rfl
  | cons a as ih =>
    rw [pushAllNew_cons, ih, List.filter_cons]
    by_cases hp : p a = true
    · rw [if_pos hp, pushAllNew_cons, pushNew, pushNew]
      by_cases ha : a ∈ l
      · rw [if_pos ha, if_pos (List.mem_filter.mpr ⟨ha, hp⟩)]
      · rw [if_neg ha, if_neg fun h => ha (List.mem_filter.mp h).1, List.filter_append,
          List.filter_singleton, hp]
        rfl
    · rw [if_neg hp, pushNew]
      split
      · rfl
      · rw [List.filter_append, List.filter_singleton, Bool.eq_false_iff.mpr hp]
        simp

end PushNew

section Ordered

variable [LinearOrder α]

/-- Insert into an ascending list without repetition. -/
def setInsert (a : α) : List α → List α
  | [] => [a]
  | b :: l => if a < b then a :: b :: l else if a = b then b :: l else b :: setInsert a l

/-- An ordered insertion adds the inserted element and no other. -/
@[simp] theorem mem_setInsert {a b : α} {l : List α} : b ∈ setInsert a l ↔ b = a ∨ b ∈ l := by
  induction l with
  | nil => simp [setInsert]
  | cons c l ih =>
    rw [setInsert]
    split
    · simp
    · split
      · rename_i h
        subst h
        simp
      · rw [List.mem_cons, ih, List.mem_cons]
        tauto

variable {β : Type*}

/-- File `b` under `a` in an ascending association list, unless something is there. -/
def orInsert (a : α) (b : β) : List (α × β) → List (α × β)
  | [] => [(a, b)]
  | c :: l =>
    if a < c.1 then (a, b) :: c :: l else if a = c.1 then c :: l else c :: orInsert a b l

/-- What an ascending association list holds after filing `b` under `a`. -/
theorem mem_orInsert {a : α} {b : β} {l : List (α × β)} (hl : l.Pairwise fun c d => c.1 < d.1)
    {c : α × β} : c ∈ orInsert a b l ↔ c ∈ l ∨ (c = (a, b) ∧ a ∉ l.map Prod.fst) := by
  induction l with
  | nil => simp [orInsert]
  | cons d l ih =>
    rw [List.pairwise_cons] at hl
    rw [orInsert, List.map_cons, List.mem_cons, List.mem_cons]
    by_cases hlt : a < d.1
    · have hnot : a ∉ l.map Prod.fst := by
        intro h
        obtain ⟨e, he, rfl⟩ := List.mem_map.mp h
        exact lt_asymm hlt (hl.1 e he)
      rw [if_pos hlt, List.mem_cons, List.mem_cons]
      have hne : a ≠ d.1 := hlt.ne
      tauto
    · rw [if_neg hlt]
      by_cases heq : a = d.1
      · rw [if_pos heq, List.mem_cons]
        simp [heq]
      · rw [if_neg heq, List.mem_cons, ih hl.2]
        simp only [heq, false_or]
        tauto

/-- Filing keeps an association list ascending. -/
theorem pairwise_orInsert {a : α} {b : β} {l : List (α × β)}
    (hl : l.Pairwise fun c d => c.1 < d.1) : (orInsert a b l).Pairwise fun c d => c.1 < d.1 := by
  induction l with
  | nil => simp [orInsert]
  | cons d l ih =>
    obtain ⟨hd, htl⟩ := List.pairwise_cons.mp hl
    rw [orInsert]
    by_cases hlt : a < d.1
    · rw [if_pos hlt, List.pairwise_cons]
      refine ⟨?_, hl⟩
      intro c hc
      rcases List.mem_cons.mp hc with rfl | hc
      · exact hlt
      · exact hlt.trans (hd c hc)
    · rw [if_neg hlt]
      by_cases heq : a = d.1
      · rw [if_pos heq]
        exact hl
      · rw [if_neg heq, List.pairwise_cons]
        refine ⟨?_, ih htl⟩
        intro c hc
        rcases (mem_orInsert htl).mp hc with hc | ⟨rfl, -⟩
        · exact hd c hc
        · exact lt_of_le_of_ne (not_lt.mp hlt) (Ne.symm heq)

/-- Filing a list of values keeps, for each key, the first value filed under it. -/
theorem mem_foldl_orInsert {γ : Type*} (k : γ → α) (v : γ → β) (xs : List γ) {l : List (α × β)}
    (hl : l.Pairwise fun c d => c.1 < d.1) {c : α × β} :
    c ∈ xs.foldl (fun l x => orInsert (k x) (v x) l) l ↔
      c ∈ l ∨ (c.1 ∉ l.map Prod.fst ∧ (xs.find? fun x => k x = c.1).map v = some c.2) := by
  induction xs generalizing l with
  | nil => simp
  | cons x xs ih =>
    rw [List.foldl_cons, ih (pairwise_orInsert hl), mem_orInsert hl, List.find?_cons]
    -- after the first value the keys are those before it and its own
    have hkeys : c.1 ∉ (orInsert (k x) (v x) l).map Prod.fst ↔
        c.1 ∉ l.map Prod.fst ∧ c.1 ≠ k x := by
      have hmem : c.1 ∈ (orInsert (k x) (v x) l).map Prod.fst ↔
          c.1 ∈ l.map Prod.fst ∨ (c.1 = k x ∧ k x ∉ l.map Prod.fst) := by
        simp only [List.mem_map, mem_orInsert hl]
        constructor
        · rintro ⟨d, hd | ⟨rfl, hx⟩, hdc⟩
          · exact Or.inl ⟨d, hd, hdc⟩
          · exact Or.inr ⟨hdc.symm, hx⟩
        · rintro (⟨d, hd, hdc⟩ | ⟨hc, hx⟩)
          · exact ⟨d, Or.inl hd, hdc⟩
          · exact ⟨(k x, v x), Or.inr ⟨rfl, hx⟩, hc.symm⟩
      rw [hmem]
      by_cases hc : c.1 = k x
      · rw [hc]
        tauto
      · tauto
    rw [hkeys]
    by_cases hc : k x = c.1
    · simp only [hc, decide_true, Option.map_some, Option.some.injEq, ne_eq, not_true_eq_false,
        false_and, or_false, Prod.ext_iff, true_and, and_comm, eq_comm]
    · have hc' : c ≠ (k x, v x) := fun h => hc (by rw [h])
      simp [hc, hc', Ne.symm hc]

end Ordered

end NfsKlldap
