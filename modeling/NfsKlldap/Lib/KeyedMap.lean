import Mathlib

/-! # Hash maps whose key is a field of the value

A `KeyedMap key` is a finite map from keys to values in which the key of a value is a function of
the value. It is the list of its values in enumeration order, and the invariant that no two values
share a key is a field: a map with a duplicated or misfiled key cannot be built. Enumeration order
is unspecified for a hash map, so a statement that is to hold for every order quantifies over maps
whose lists are permutations of each other. -/

namespace NfsKlldap

/-- A finite map from `key a` to `a`, listed in enumeration order. -/
structure KeyedMap {α κ : Type*} (key : α → κ) where
  /-- The values, in enumeration order. -/
  values : List α
  /-- No two values are filed under one key. -/
  nodup : (values.map key).Nodup

namespace KeyedMap

variable {α κ : Type*} {key : α → κ}

/-- Two maps with the same values are equal. -/
@[ext] theorem ext {m m' : KeyedMap key} (h : m.values = m'.values) : m = m' := by
  cases m; cases m'; simpa using h

/-- The map without entries. -/
def empty : KeyedMap key := ⟨[], List.nodup_nil⟩

/-- The empty map has no values. -/
@[simp] theorem values_empty : (empty : KeyedMap key).values = [] := rfl

/-- Two values of a map under the same key are one value. -/
theorem eq_of_key_eq (m : KeyedMap key) {a b : α} (ha : a ∈ m.values) (hb : b ∈ m.values)
    (h : key a = key b) : a = b :=
  List.inj_on_of_nodup_map m.nodup ha hb h

/-- Keep the values that satisfy `p`. -/
def retain (m : KeyedMap key) (p : α → Bool) : KeyedMap key :=
  ⟨m.values.filter p, m.nodup.sublist (List.filter_sublist.map key)⟩

/-- Retaining filters the values. -/
@[simp] theorem values_retain (m : KeyedMap key) (p : α → Bool) :
    (m.retain p).values = m.values.filter p := rfl

/-- Rewrite the values without touching their keys. -/
def mapValues (m : KeyedMap key) (f : α → α) (hf : ∀ a, key (f a) = key a) : KeyedMap key :=
  ⟨m.values.map f, by
    rw [List.map_map, show key ∘ f = key from funext hf]
    exact m.nodup⟩

/-- Mapping the values maps the list of them. -/
@[simp] theorem values_mapValues (m : KeyedMap key) (f : α → α) (hf : ∀ a, key (f a) = key a) :
    (m.mapValues f hf).values = m.values.map f := rfl

variable [DecidableEq κ]

/-- The value filed under `k`. -/
def get? (m : KeyedMap key) (k : κ) : Option α := m.values.find? fun a => key a = k

/-- File `a` under its key, replacing what was there. -/
def insert (m : KeyedMap key) (a : α) : KeyedMap key :=
  ⟨m.values.filter (fun b => key b ≠ key a) ++ [a], by
    rw [List.map_append, List.nodup_append]
    refine ⟨m.nodup.sublist (List.filter_sublist.map key), by simp, ?_⟩
    intro k hk k' hk'
    obtain ⟨b, hb, rfl⟩ := List.mem_map.mp hk
    simp only [List.map_cons, List.map_nil, List.mem_singleton] at hk'
    simpa [hk'] using (List.mem_filter.mp hb).2⟩

/-- Drop the value filed under `k`. -/
def erase (m : KeyedMap key) (k : κ) : KeyedMap key := m.retain fun a => key a ≠ k

/-- Rewrite the value filed under `k` without touching its key. -/
def modify (m : KeyedMap key) (k : κ) (f : α → α) (hf : ∀ a, key (f a) = key a) : KeyedMap key :=
  m.mapValues (fun a => if key a = k then f a else a) fun a => by split <;> simp [hf]

/-- A lookup gives the value that is held under the key. -/
theorem get?_eq_some_iff {m : KeyedMap key} {k : κ} {a : α} :
    m.get? k = some a ↔ a ∈ m.values ∧ key a = k := by
  constructor
  · intro h
    exact ⟨List.mem_of_find?_eq_some h, by simpa using List.find?_some h⟩
  · rintro ⟨ha, rfl⟩
    obtain ⟨b, hb⟩ : ∃ b, m.get? (key a) = some b := by
      rw [← Option.isSome_iff_exists, get?, List.find?_isSome]
      exact ⟨a, ha, by simp⟩
    have hkb : key b = key a := by simpa using List.find?_some hb
    rw [hb, m.eq_of_key_eq (List.mem_of_find?_eq_some hb) ha hkb]

/-- A lookup gives nothing exactly when no held value has the key. -/
theorem get?_eq_none_iff {m : KeyedMap key} {k : κ} :
    m.get? k = none ↔ ∀ a ∈ m.values, key a ≠ k := by
  simp [get?]

/-- After an insertion the map holds the inserted value and every value under another key. -/
theorem mem_insert {m : KeyedMap key} {a b : α} :
    b ∈ (m.insert a).values ↔ (b ∈ m.values ∧ key b ≠ key a) ∨ b = a := by
  simp [insert]

/-- What is filed under a key after an insertion. -/
theorem get?_insert (m : KeyedMap key) (a : α) (k : κ) :
    (m.insert a).get? k = if key a = k then some a else m.get? k := by
  by_cases h : key a = k
  · rw [if_pos h, get?_eq_some_iff]
    exact ⟨mem_insert.mpr (Or.inr rfl), h⟩
  · rw [if_neg h]
    refine Option.ext fun b => ?_
    rw [get?_eq_some_iff, get?_eq_some_iff, mem_insert]
    constructor
    · rintro ⟨⟨hb, -⟩ | rfl, hk⟩
      · exact ⟨hb, hk⟩
      · exact absurd hk h
    · rintro ⟨hb, rfl⟩
      exact ⟨Or.inl ⟨hb, Ne.symm h⟩, rfl⟩

/-- Of insertions one after the other the last one under a key stands. -/
theorem get?_foldl_insert (xs : List α) (m : KeyedMap key) (k : κ) :
    (xs.foldl insert m).get? k = (xs.reverse.find? fun a => key a = k).or (m.get? k) := by
  induction xs generalizing m with
  | nil => rfl
  | cons a xs ih =>
    rw [List.foldl_cons, ih, get?_insert, List.reverse_cons, List.find?_append, Option.or_assoc]
    by_cases h : key a = k
    · simp [h]
    · simp [h]

/-- Insertions one after the other keep what is under no inserted key. -/
theorem mem_foldl_insert {β : Type*} {f : β → α} {xs : List β} {m : KeyedMap key} {a : α}
    (h : a ∈ (xs.foldl (fun m x => m.insert (f x)) m).values) :
    (a ∈ m.values ∧ ∀ x ∈ xs, key (f x) ≠ key a) ∨ ∃ x ∈ xs, a = f x := by
  induction xs generalizing m with
  | nil => exact Or.inl ⟨h, by simp⟩
  | cons x xs ih =>
    rcases ih h with ⟨hmem, hne⟩ | ⟨y, hy, rfl⟩
    · rcases mem_insert.mp hmem with ⟨hmem, hkey⟩ | rfl
      · exact Or.inl ⟨hmem, List.forall_mem_cons.mpr ⟨Ne.symm hkey, hne⟩⟩
      · exact Or.inr ⟨x, List.mem_cons_self, rfl⟩
    · exact Or.inr ⟨y, List.mem_cons_of_mem _ hy, rfl⟩

/-- Insertions under other keys keep a held value. -/
theorem mem_foldl_insert_of_ne {β : Type*} {f : β → α} {xs : List β} {m : KeyedMap key} {a : α}
    (h : a ∈ m.values) (hne : ∀ x ∈ xs, key (f x) ≠ key a) :
    a ∈ (xs.foldl (fun m x => m.insert (f x)) m).values := by
  induction xs generalizing m with
  | nil => exact h
  | cons x xs ih =>
    rw [List.forall_mem_cons] at hne
    exact ih (mem_insert.mpr (Or.inl ⟨h, Ne.symm hne.1⟩)) hne.2

/-- Insertions under distinct keys all stay. -/
theorem mem_foldl_insert_of_nodup {β : Type*} {f : β → α} {xs : List β} {m : KeyedMap key}
    (hnodup : (xs.map fun x => key (f x)).Nodup) {x : β} (hx : x ∈ xs) :
    f x ∈ (xs.foldl (fun m x => m.insert (f x)) m).values := by
  induction xs generalizing m with
  | nil => simp at hx
  | cons y xs ih =>
    rw [List.map_cons, List.nodup_cons] at hnodup
    rcases List.mem_cons.mp hx with rfl | hx
    · rw [List.foldl_cons]
      refine mem_foldl_insert_of_ne (mem_insert.mpr (Or.inr rfl)) fun z hz heq => ?_
      exact hnodup.1 (List.mem_map.mpr ⟨z, hz, heq⟩)
    · exact ih hnodup.2 hx

/-- Modifying a key changes the values under it and no other. -/
theorem values_modify (m : KeyedMap key) (k : κ) (f : α → α) (hf : ∀ a, key (f a) = key a) :
    (m.modify k f hf).values = m.values.map fun a => if key a = k then f a else a := rfl

end KeyedMap

/-! ## Enumeration order -/

section Order

variable {α κ : Type*} {key : α → κ} [LinearOrder κ] {l l' : List α}

/-- Sorting by keys that are not repeated forgets the order of enumeration. -/
theorem insertionSort_eq_of_perm (hp : l.Perm l') (hn : (l.map key).Nodup) :
    (l.insertionSort fun a b => key a ≤ key b) = l'.insertionSort fun a b => key a ≤ key b := by
  have htotal : Std.Total fun a b : α => key a ≤ key b := ⟨fun a b => le_total (key a) (key b)⟩
  have htrans : IsTrans α fun a b => key a ≤ key b := ⟨fun _ _ _ => le_trans⟩
  have hperm : (l.insertionSort fun a b => key a ≤ key b).Perm
      (l'.insertionSort fun a b => key a ≤ key b) :=
    (List.perm_insertionSort _ l).trans (hp.trans (List.perm_insertionSort _ l').symm)
  refine hperm.eq_of_pairwise (fun a b ha hb hab hba => ?_) (List.pairwise_insertionSort _ l)
    (List.pairwise_insertionSort _ l')
  rw [List.mem_insertionSort] at ha hb
  exact List.inj_on_of_nodup_map hn ha (hp.mem_iff.mpr hb) (le_antisymm hab hba)

/-- So does the choice of the least key. -/
theorem argmin_eq_of_perm (hp : l.Perm l') (hn : (l.map key).Nodup) :
    l.argmin key = l'.argmin key := by
  cases h : l.argmin key with
  | none =>
    rw [List.argmin_eq_none.mp h] at hp
    rw [List.nil_perm.mp hp, List.argmin_nil]
  | some a =>
    cases h' : l'.argmin key with
    | none =>
      rw [List.argmin_eq_none.mp h', List.perm_nil] at hp
      simp [hp] at h
    | some b =>
      have ha := List.argmin_mem h
      have hb := hp.mem_iff.mpr (List.argmin_mem h')
      have hab := List.le_of_mem_argmin hb h
      have hba := List.le_of_mem_argmin (hp.mem_iff.mp ha) h'
      rw [List.inj_on_of_nodup_map hn ha hb (le_antisymm hab hba)]

end Order

end NfsKlldap
