import Mathlib

/-! # First claim wins

Emitting rows under a set of keys already seen: a row is pushed only when its key is new, so of all
rows offered under one key the first one stands. A claim may also mark its key as seen without
pushing a row.

* **`Emit.claim`** is one step of such a loop, with the seen set and the rows so far;
* **`firsts`** lists the claims that win, and `claimAll_rows` says that the loop pushes exactly
  their rows;
* **`mem_firsts_iff`** reads the winners off the claim list: a claim wins when no earlier claim has
  its key. -/

namespace NfsKlldap

variable {κ ρ : Type*}

/-- The state of an emission loop: keys seen and rows pushed so far. -/
structure Emit (κ ρ : Type*) where
  /-- Keys that were claimed. -/
  seen : List κ
  /-- Rows pushed, in order. -/
  rows : List ρ

namespace Emit

/-- Nothing seen, nothing pushed. -/
def empty : Emit κ ρ := ⟨[], []⟩

variable [DecidableEq κ]

/-- Claim `k`: when it is new, mark it and push `row`. -/
def claim (e : Emit κ ρ) (k : κ) (row : Option ρ) : Emit κ ρ :=
  if k ∈ e.seen then e else ⟨k :: e.seen, e.rows ++ row.toList⟩

/-- Claims made one after the other. -/
def claimAll (e : Emit κ ρ) (cs : List (κ × Option ρ)) : Emit κ ρ :=
  cs.foldl (fun e c => e.claim c.1 c.2) e

/-- No claim leaves the table as it is. -/
@[simp] theorem claimAll_nil (e : Emit κ ρ) : e.claimAll [] = e := rfl

/-- A list of claims is made from its head on. -/
@[simp] theorem claimAll_cons (e : Emit κ ρ) (c : κ × Option ρ) (cs : List (κ × Option ρ)) :
    e.claimAll (c :: cs) = (e.claim c.1 c.2).claimAll cs := rfl

/-- Two lists of claims are made one after the other. -/
theorem claimAll_append (e : Emit κ ρ) (cs cs' : List (κ × Option ρ)) :
    e.claimAll (cs ++ cs') = (e.claimAll cs).claimAll cs' := List.foldl_append

end Emit

variable [DecidableEq κ]

/-- The winning claims, given the keys seen before. -/
def firsts : List κ → List (κ × Option ρ) → List (κ × Option ρ)
  | _, [] => []
  | seen, c :: cs => if c.1 ∈ seen then firsts seen cs else c :: firsts (c.1 :: seen) cs

/-- The loop pushes the rows of the winning claims. -/
theorem Emit.claimAll_rows (e : Emit κ ρ) (cs : List (κ × Option ρ)) :
    (e.claimAll cs).rows = e.rows ++ (firsts e.seen cs).filterMap Prod.snd := by
  induction cs generalizing e with
  | nil => simp [firsts]
  | cons c cs ih =>
    rw [claimAll_cons, ih, Emit.claim, firsts]
    by_cases h : c.1 ∈ e.seen
    · rw [if_pos h, if_pos h]
    · rw [if_neg h, if_neg h, List.filterMap_cons]
      cases c.2 <;> simp

/-- **The winners**: a claim wins exactly when its key was not seen before and no earlier claim has
that key. -/
theorem mem_firsts_iff {seen : List κ} {cs : List (κ × Option ρ)} {c : κ × Option ρ} :
    c ∈ firsts seen cs ↔
      c.1 ∉ seen ∧ ∃ pre post, cs = pre ++ c :: post ∧ c.1 ∉ pre.map Prod.fst := by
  induction cs generalizing seen with
  | nil => simp [firsts]
  | cons d cs ih =>
    rw [firsts]
    -- a claim whose key was seen is passed over, any other wins and its key is seen from then on
    by_cases h : d.1 ∈ seen
    · rw [if_pos h, ih]
      refine and_congr_right fun hc => ⟨?_, ?_⟩
      · rintro ⟨pre, post, rfl, hpre⟩
        refine ⟨d :: pre, post, rfl, ?_⟩
        rw [List.map_cons, List.mem_cons, not_or]
        exact ⟨fun hcd => hc (hcd ▸ h), hpre⟩
      · rintro ⟨pre, post, hcs, hpre⟩
        cases pre with
        -- the claim would be the one that was passed over
        | nil =>
          simp only [List.nil_append, List.cons.injEq] at hcs
          exact absurd (hcs.1 ▸ h) hc
        | cons x pre =>
          simp only [List.cons_append, List.cons.injEq] at hcs
          exact ⟨pre, post, hcs.2, fun h' => hpre (List.mem_cons_of_mem _ h')⟩
    · rw [if_neg h, List.mem_cons, ih]
      constructor
      -- the first of all, or a later winner
      · rintro (rfl | ⟨hc, pre, post, rfl, hpre⟩)
        · exact ⟨h, [], cs, rfl, by simp⟩
        · rw [List.mem_cons, not_or] at hc
          refine ⟨hc.2, d :: pre, post, rfl, ?_⟩
          rw [List.map_cons, List.mem_cons, not_or]
          exact ⟨hc.1, hpre⟩
      · rintro ⟨hc, pre, post, hcs, hpre⟩
        cases pre with
        | nil =>
          simp only [List.nil_append, List.cons.injEq] at hcs
          exact Or.inl hcs.1.symm
        | cons x pre =>
          simp only [List.cons_append, List.cons.injEq] at hcs
          rw [List.map_cons, List.mem_cons, not_or] at hpre
          refine Or.inr ⟨?_, pre, post, hcs.2, hpre.2⟩
          rw [List.mem_cons, not_or, hcs.1]
          exact ⟨hpre.1, hc⟩

/-- The winner of a key is the first claim on it. -/
theorem mem_firsts_iff_find? {seen : List κ} {cs : List (κ × Option ρ)} {c : κ × Option ρ} :
    c ∈ firsts seen cs ↔ c.1 ∉ seen ∧ cs.find? (fun d => d.1 = c.1) = some c := by
  rw [mem_firsts_iff, List.find?_eq_some_iff_append]
  refine and_congr_right fun _ => ⟨?_, ?_⟩
  · rintro ⟨pre, post, rfl, hpre⟩
    refine ⟨by simp, pre, post, rfl, ?_⟩
    intro d hd
    have hne : d.1 ≠ c.1 := fun h => hpre (h ▸ List.mem_map_of_mem hd)
    simpa using hne
  · rintro ⟨-, pre, post, rfl, hpre⟩
    refine ⟨pre, post, rfl, ?_⟩
    intro hc
    obtain ⟨d, hd, hdc⟩ := List.mem_map.mp hc
    have hne := hpre d hd
    simp [hdc] at hne

/-- No two winners share a key. -/
theorem nodup_keys_firsts (seen : List κ) (cs : List (κ × Option ρ)) :
    ((firsts seen cs).map Prod.fst).Nodup := by
  induction cs generalizing seen with
  | nil => simp [firsts]
  | cons c cs ih =>
    rw [firsts]
    by_cases h : c.1 ∈ seen
    · rw [if_pos h]
      exact ih seen
    · rw [if_neg h, List.map_cons, List.nodup_cons]
      refine ⟨?_, ih _⟩
      intro hc
      obtain ⟨d, hd, hdc⟩ := List.mem_map.mp hc
      exact (mem_firsts_iff.mp hd).1 (hdc ▸ List.mem_cons_self)

/-- Rows that carry the key they are claimed under have distinct keys. -/
theorem nodup_rows_firsts {key : ρ → κ} {seen : List κ} {cs : List (κ × Option ρ)}
    (h : ∀ k row, (k, some row) ∈ cs → key row = k) :
    (((firsts seen cs).filterMap Prod.snd).map key).Nodup := by
  have hsub : ∀ ds : List (κ × Option ρ), (∀ k row, (k, some row) ∈ ds → key row = k) →
      ((ds.filterMap Prod.snd).map key).Sublist (ds.map Prod.fst) := by
    intro ds hds
    induction ds with
    | nil => exact List.Sublist.slnil
    | cons d ds ih =>
      have ih' := ih fun k row hmem => hds k row (List.mem_cons_of_mem _ hmem)
      obtain ⟨k, row⟩ := d
      cases row with
      | none => exact ih'.cons _
      | some row =>
        simp only [List.filterMap_cons, List.map_cons, hds k row List.mem_cons_self]
        exact ih'.cons_cons _
  refine (nodup_keys_firsts seen cs).sublist (hsub _ ?_)
  intro k row hmem
  exact h k row (List.mem_of_find?_eq_some (mem_firsts_iff_find?.mp hmem).2)

/-- Some claim wins for every key that is claimed and was not seen before. -/
theorem exists_mem_firsts {seen : List κ} {cs : List (κ × Option ρ)} {k : κ} (hk : k ∉ seen)
    (h : k ∈ cs.map Prod.fst) : ∃ row, (k, row) ∈ firsts seen cs := by
  induction cs generalizing seen with
  | nil => simp at h
  | cons c cs ih =>
    rw [firsts]
    by_cases hc : c.1 ∈ seen
    · rw [if_pos hc]
      rw [List.map_cons, List.mem_cons] at h
      rcases h with rfl | h
      · exact absurd hc hk
      · exact ih hk h
    · rw [if_neg hc]
      by_cases hkc : k = c.1
      · exact ⟨c.2, by simp [hkc]⟩
      · rw [List.map_cons, List.mem_cons] at h
        obtain ⟨row, hrow⟩ := @ih (c.1 :: seen) (by simp [hk, hkc]) (h.resolve_left hkc)
        exact ⟨row, List.mem_cons_of_mem _ hrow⟩

/-- Claims on keys seen before do not matter. -/
theorem firsts_filter (seen : List κ) (cs : List (κ × Option ρ)) :
    firsts seen (cs.filter fun c => c.1 ∉ seen) = firsts seen cs := by
  suffices h : ∀ seen', seen ⊆ seen' →
      firsts seen' (cs.filter fun c => c.1 ∉ seen) = firsts seen' cs from h seen (List.Subset.refl _)
  induction cs with
  | nil => intro seen' _; rfl
  | cons c cs ih =>
    intro seen' hsub
    rw [List.filter_cons]
    by_cases h : c.1 ∈ seen
    · rw [if_neg (by simpa using h), ih seen' hsub, firsts, if_pos (hsub h)]
    · rw [if_pos (by simpa using h), firsts, firsts]
      by_cases h' : c.1 ∈ seen'
      · rw [if_pos h', if_pos h', ih seen' hsub]
      · rw [if_neg h', if_neg h', ih (c.1 :: seen') fun _ hx => List.mem_cons_of_mem _ (hsub hx)]

/-- **Late claims** matter only where no earlier claim has their key. -/
theorem firsts_append_congr {cs : List (κ × Option ρ)} {ds ds' : List (κ × Option ρ)}
    (h : (ds.filter fun d => d.1 ∉ cs.map Prod.fst) = ds'.filter fun d => d.1 ∉ cs.map Prod.fst) :
    firsts [] (cs ++ ds) = firsts [] (cs ++ ds') := by
  suffices hseen : ∀ seen : List κ,
      (ds.filter fun d => d.1 ∉ seen ++ cs.map Prod.fst)
        = (ds'.filter fun d => d.1 ∉ seen ++ cs.map Prod.fst) →
      firsts seen (cs ++ ds) = firsts seen (cs ++ ds') from hseen [] h
  clear h
  induction cs with
  | nil =>
    intro seen h
    simp only [List.map_nil, List.append_nil] at h
    rw [List.nil_append, List.nil_append, ← firsts_filter seen ds, h, firsts_filter seen ds']
  | cons c cs ih =>
    intro seen h
    rw [List.cons_append, List.cons_append, firsts, firsts]
    by_cases hc : c.1 ∈ seen
    · rw [if_pos hc, if_pos hc]
      refine ih seen ?_
      -- the key of the claim is seen already
      have hpred : ∀ d : κ × Option ρ, decide (d.1 ∉ seen ++ cs.map Prod.fst)
          = decide (d.1 ∉ seen ++ (c :: cs).map Prod.fst) := by
        intro d
        rw [decide_eq_decide, List.map_cons, List.mem_append, List.mem_append, List.mem_cons]
        refine not_congr ⟨fun hd => hd.imp_right Or.inr, ?_⟩
        rintro (hd | hd | hd)
        exacts [Or.inl hd, Or.inl (hd ▸ hc), Or.inr hd]
      rw [List.filter_congr fun d _ => hpred d, List.filter_congr fun d _ => hpred d, h]
    · rw [if_neg hc, if_neg hc]
      refine congrArg (c :: ·) (ih (c.1 :: seen) ?_)
      have hpred : ∀ d : κ × Option ρ, decide (d.1 ∉ c.1 :: seen ++ cs.map Prod.fst)
          = decide (d.1 ∉ seen ++ (c :: cs).map Prod.fst) := by
        intro d
        rw [decide_eq_decide, List.map_cons, List.mem_append, List.mem_append, List.mem_cons,
          List.mem_cons]
        tauto
      rw [List.filter_congr fun d _ => hpred d, List.filter_congr fun d _ => hpred d, h]

end NfsKlldap
