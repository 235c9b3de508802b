import Mathlib

/-! # A directory that a program keeps in step

A program owns some of the files of a directory. Each of its runs stages a list of files, writes
them one after another, each through a temporary sibling that is renamed over it, and then removes
the files it recognises as its own and has not written. Writes can fail and end the run; removals
that fail are ignored.

* **`sync`** — one run, and **`sync_eq`** what a successful one leaves;
* **`sync_exact_iff`** — the files of a kind are exactly the staged ones, and the other files are as
  they were, exactly when every stale file of the kind is recognised and removed and no temporary
  sibling was there before. -/

namespace NfsKlldap

namespace OwnedFiles

variable {ν κ : Type*}

/-- What the file under a name holds, for the names in a directory. -/
abbrev Dir (ν κ : Type*) := ν → Option κ

/-- How a write through a temporary sibling ends. -/
inductive WriteOutcome (κ : Type*)
  | written
  | unopened
  /-- The write or the rename failed, and this is left under the temporary name. -/
  | broken (left : Option κ)

/-- What can go wrong in a run. -/
structure Faults (ν κ : Type*) where
  /-- The writes, in their order. -/
  write : Nat → WriteOutcome κ
  /-- Whether what follows a write succeeds. -/
  finish : Nat → Bool
  /-- Whether the directory is listed to its end. -/
  listed : Bool
  /-- Whether the file of a name is reached and can be removed. -/
  removable : ν → Bool

/-- Nothing goes wrong. -/
def Faults.none : Faults ν κ := ⟨fun _ => .written, fun _ => true, true, fun _ => true⟩

variable [DecidableEq ν] (temp : ν → ν) (owned : ν → Bool) (f : Faults ν κ)

/-- Write a temporary sibling and rename it. -/
def atomicWrite (o : WriteOutcome κ) (name : ν) (text : κ) (d : Dir ν κ) : Bool × Dir ν κ :=
  match o with
  | .written => (true, Function.update (Function.update d (temp name) Option.none) name (some text))
  | .unopened => (false, d)
  | .broken left => (false, Function.update d (temp name) left)

/-- Write the staged files up to the first one that fails. -/
def writeAll : Nat → List (ν × κ) → Dir ν κ → Bool × Dir ν κ
  | _, [], d => (true, d)
  | i, (name, text) :: rest, d =>
    let (ok, d') := atomicWrite temp (f.write i) name text d
    if ok && f.finish i then writeAll (i + 1) rest d' else (false, d')

/-- Remove the owned files that were not written. -/
def prune (written : List ν) (d : Dir ν κ) : Dir ν κ := fun name =>
  if name ∉ written ∧ owned name = true ∧ f.removable name = true then Option.none else d name

/-- A prune removes the owned files that were not written and that can be removed, and no others. -/
theorem prune_apply (written : List ν) (d : Dir ν κ) (name : ν) :
    prune owned f written d name =
      if name ∉ written ∧ owned name = true ∧ f.removable name = true then Option.none
      else d name := rfl

/-- A run: write what is staged, then remove what is stale. -/
def sync (staged : List (ν × κ)) (d : Dir ν κ) : Bool × Dir ν κ :=
  let (ok, d') := writeAll temp f 0 staged d
  if ok then (f.listed, prune owned f (staged.map Prod.fst) d') else (false, d')

/-- The last text that is staged under a name. -/
def latest : List (ν × κ) → ν → Option κ
  | [], _ => Option.none
  | (n, text) :: rest, name => (latest rest name).or (if n = name then some text else Option.none)

/-! ## What is staged -/

/-- A name has no latest content exactly when it was not staged. -/
theorem latest_eq_none_iff {staged : List (ν × κ)} {name : ν} :
    latest staged name = Option.none ↔ name ∉ staged.map Prod.fst := by
  induction staged with
  | nil => simp [latest]
  | cons p rest ih =>
    rw [latest, Option.or_eq_none_iff, ih, List.map_cons, List.mem_cons, not_or, and_comm]
    by_cases h : p.1 = name
    · simp [h]
    · simp [h, Ne.symm h]

/-- Files with distinct names are all there. -/
theorem latest_eq_some {staged : List (ν × κ)} (hnodup : (staged.map Prod.fst).Nodup) {p : ν × κ}
    (hp : p ∈ staged) : latest staged p.1 = some p.2 := by
  induction staged with
  | nil => simp at hp
  | cons q rest ih =>
    rw [List.map_cons, List.nodup_cons] at hnodup
    rw [latest]
    rcases List.mem_cons.mp hp with rfl | hp
    · rw [latest_eq_none_iff.mpr hnodup.1]
      simp
    · rw [ih hnodup.2 hp]
      rfl

/-! ## Writing -/

/-- The names of a run do not clash with its temporary siblings. -/
def Apart (names : List ν) : Prop := ∀ a ∈ names, ∀ b ∈ names, temp a ≠ b

variable {temp owned f}

/-- A write that succeeds. -/
theorem writeAll_cons_ok {i : Nat} {name : ν} {text : κ} {rest : List (ν × κ)} {d : Dir ν κ}
    (hok : (writeAll temp f i ((name, text) :: rest) d).1 = true) :
    let d' := Function.update (Function.update d (temp name) Option.none) name (some text)
    (writeAll temp f (i + 1) rest d').1 = true ∧
      writeAll temp f i ((name, text) :: rest) d = writeAll temp f (i + 1) rest d' := by
  rw [writeAll] at hok ⊢
  cases hw : f.write i with
  | unopened => simp [atomicWrite, hw] at hok
  | broken left => simp [atomicWrite, hw] at hok
  | written =>
    cases hf : f.finish i with
    | false => simp [atomicWrite, hw, hf] at hok
    | true => exact ⟨by simpa [atomicWrite, hw, hf] using hok, by simp [atomicWrite]⟩

/-- What is written, when every write succeeds. -/
theorem writeAll_eq {i : Nat} {staged : List (ν × κ)} {d : Dir ν κ}
    (hapart : Apart temp (staged.map Prod.fst)) (hok : (writeAll temp f i staged d).1 = true)
    (name : ν) : (writeAll temp f i staged d).2 name =
      (latest staged name).or
        (if name ∈ (staged.map Prod.fst).map temp then Option.none else d name) := by
  induction staged generalizing i d with
  | nil => simp [writeAll, latest]
  | cons p rest ih =>
    obtain ⟨n, text⟩ := p
    have hrest : Apart temp (rest.map Prod.fst) := fun a ha b hb =>
      hapart a (List.mem_cons_of_mem _ ha) b (List.mem_cons_of_mem _ hb)
    -- the first file takes its place through its temporary sibling, the rest follows
    obtain ⟨hok', heq⟩ := writeAll_cons_ok hok
    rw [heq, ih hrest hok', latest, Option.or_assoc]
    congr 1
    by_cases hn : n = name
    · subst hn
      -- no temporary name is one of the files
      have hnot : n ∉ (rest.map Prod.fst).map temp := by
        intro hmem
        obtain ⟨a, ha, hta⟩ := List.mem_map.mp hmem
        exact hapart a (List.mem_cons_of_mem _ ha) n List.mem_cons_self hta
      rw [if_neg hnot, Function.update_self, if_pos rfl]
      rfl
    · rw [Function.update_of_ne (Ne.symm hn), if_neg hn, Option.none_or]
      by_cases ht : name = temp n
      · rw [ht, Function.update_self, ite_self, List.map_cons, List.map_cons,
          if_pos List.mem_cons_self]
      · rw [Function.update_of_ne ht]
        simp only [List.map_cons, List.mem_cons, ht, false_or]

/-- Names that are neither staged nor temporary siblings of staged ones are not touched. -/
theorem writeAll_frame {i : Nat} {staged : List (ν × κ)} {d : Dir ν κ} {name : ν}
    (hname : name ∉ staged.map Prod.fst) (htemp : name ∉ (staged.map Prod.fst).map temp) :
    (writeAll temp f i staged d).2 name = d name := by
  induction staged generalizing i d with
  | nil => rfl
  | cons p rest ih =>
    obtain ⟨n, text⟩ := p
    rw [List.map_cons, List.mem_cons, not_or] at hname
    rw [List.map_cons, List.map_cons, List.mem_cons, not_or] at htemp
    have hwrite : (atomicWrite temp (f.write i) n text d).2 name = d name := by
      cases f.write i with
      | unopened => rfl
      | broken left => exact Function.update_of_ne htemp.1 _ _
      | written =>
        exact (Function.update_of_ne hname.1 _ _).trans (Function.update_of_ne htemp.1 _ _)
    rw [writeAll]
    dsimp only
    split
    · rw [ih hname.2 htemp.2, hwrite]
    · exact hwrite

/-! ## A run -/

/-- What a successful run leaves. -/
theorem sync_eq {staged : List (ν × κ)} {d : Dir ν κ} (hapart : Apart temp (staged.map Prod.fst))
    (hok : (sync temp owned f staged d).1 = true) (name : ν) :
    (sync temp owned f staged d).2 name = (latest staged name).or
      (if name ∈ (staged.map Prod.fst).map temp ∨ owned name = true ∧ f.removable name = true
        then Option.none else d name) := by
  rw [sync] at hok ⊢
  dsimp only at hok ⊢
  split at hok
  · next hw =>
    rw [if_pos hw]
    refine (prune_apply _ _ _ _ name).trans ?_
    rw [writeAll_eq hapart hw]
    -- a staged name is not pruned
    cases hl : latest staged name with
    | some text =>
      have hmem : ¬ name ∉ staged.map Prod.fst := fun h => by
        simp [latest_eq_none_iff.mpr h] at hl
      rw [if_neg fun h => hmem h.1]
      rfl
    | none =>
      have hmem := latest_eq_none_iff.mp hl
      rw [Option.none_or, Option.none_or]
      by_cases ho : owned name = true ∧ f.removable name = true
      · rw [if_pos ⟨hmem, ho⟩, if_pos (Or.inr ho)]
      · rw [if_neg fun h => ho h.2]
        simp only [ho, or_false]
  · exact absurd hok Bool.false_ne_true

/-- A run in which nothing goes wrong succeeds. -/
theorem sync_none_ok (staged : List (ν × κ)) (d : Dir ν κ) :
    (sync temp owned Faults.none staged d).1 = true := by
  have hall : ∀ (rest : List (ν × κ)) (i : Nat) (d : Dir ν κ),
      (writeAll temp Faults.none i rest d).1 = true := by
    intro rest
    induction rest with
    | nil => exact fun _ _ => rfl
    | cons p rest ih => exact fun i d => ih (i + 1) _
  rw [sync]
  dsimp only
  rw [if_pos (hall staged 0 d)]
  rfl

/-- **A run is exact for a kind of files** when afterwards the files of the kind are the staged ones
and the other files are as they were. That is so exactly when the stale files of the kind are all
recognised and removed, and no temporary sibling was there before. -/
theorem sync_exact_iff (kind : ν → Prop) {staged : List (ν × κ)} {d : Dir ν κ}
    (hapart : Apart temp (staged.map Prod.fst)) (hkind : ∀ a ∈ staged.map Prod.fst, kind a)
    (htemp : ∀ a ∈ staged.map Prod.fst, ¬ kind (temp a)) (howned : ∀ a, owned a = true → kind a)
    (hok : (sync temp owned f staged d).1 = true) :
    ((∀ name, kind name → (sync temp owned f staged d).2 name = latest staged name) ∧
        ∀ name, ¬ kind name → (sync temp owned f staged d).2 name = d name) ↔
      (∀ name, kind name → name ∉ staged.map Prod.fst → d name ≠ Option.none →
        owned name = true ∧ f.removable name = true) ∧
      ∀ a ∈ staged.map Prod.fst, d (temp a) = Option.none := by
  simp only [sync_eq hapart hok]
  constructor
  · rintro ⟨hfiles, hothers⟩
    constructor
    -- a stale name that stays is not what was staged
    · intro name hk hnot hd
      have hfile := hfiles name hk
      have hmem : name ∉ (staged.map Prod.fst).map temp := by
        intro hmem
        obtain ⟨a, ha, rfl⟩ := List.mem_map.mp hmem
        exact htemp a ha hk
      rw [latest_eq_none_iff.mpr hnot, Option.none_or] at hfile
      by_contra ho
      rw [if_neg (not_or.mpr ⟨hmem, ho⟩)] at hfile
      exact hd hfile
    -- a temporary sibling is gone afterwards, so that it has to be absent before
    · intro a ha
      have hother := hothers (temp a) (htemp a ha)
      have hnone : latest staged (temp a) = Option.none :=
        latest_eq_none_iff.mpr fun hmem => hapart a ha _ hmem rfl
      rw [hnone, Option.none_or, if_pos (Or.inl (List.mem_map_of_mem ha))] at hother
      exact hother.symm
  · rintro ⟨hstale, htemps⟩
    constructor
    -- a name of the kind is staged, or owned and removed
    -- a name of another kind is touched at most as a temporary sibling
    · intro name hk
      cases hl : latest staged name with
      | some text => rfl
      | none =>
        rw [Option.none_or]
        split
        · rfl
        · next hnot =>
          by_contra hd
          exact hnot (Or.inr (hstale name hk (latest_eq_none_iff.mp hl) hd))
    · intro name hk
      have hnone : latest staged name = Option.none :=
        latest_eq_none_iff.mpr fun hmem => hk (hkind name hmem)
      rw [hnone, Option.none_or]
      split
      · next h =>
        rcases h with h | ⟨h, -⟩
        · obtain ⟨a, ha, rfl⟩ := List.mem_map.mp h
          exact (htemps a ha).symm
        · exact absurd (howned name h) hk
      · rfl

/-- What every write and the removals preserve holds after a run, however it ends. -/
theorem sync_induction (inv : Dir ν κ → Prop) {staged : List (ν × κ)}
    (hwrite : ∀ i, ∀ p ∈ staged, ∀ d, inv d → inv (atomicWrite temp (f.write i) p.1 p.2 d).2)
    (hprune : ∀ written d, inv d → inv (prune owned f written d)) {d : Dir ν κ} (hd : inv d) :
    inv (sync temp owned f staged d).2 := by
  have hall : ∀ (rest : List (ν × κ)) (i : Nat) (d : Dir ν κ), rest ⊆ staged → inv d →
      inv (writeAll temp f i rest d).2 := by
    intro rest
    induction rest with
    | nil => exact fun i d _ hd => hd
    | cons p rest ih =>
      intro i d hsub hd
      have hstep := hwrite i p (hsub List.mem_cons_self) d hd
      rw [writeAll]
      dsimp only
      split
      · exact ih (i + 1) _ (fun q hq => hsub (List.mem_cons_of_mem p hq)) hstep
      · exact hstep
  have hd' := hall staged 0 d (List.Subset.refl staged) hd
  rw [sync]
  dsimp only
  split
  · exact hprune _ _ hd'
  · exact hd'

end OwnedFiles

end NfsKlldap
