import NfsKlldap.Lib.MaxBy

/-! # Things that are put on top of each other

Things are put at the points of a forest one after the other, and each covers what lies below its
point. What is seen from a point is the thing that was put over it last (`topmost`). A lookup that goes
for the nearest point instead (`deepest`) sees the same as long as nothing is covered from above.

* **`Forest`** — the points over a point form a chain;
* **`deepest_eq_topmost_iff`** — the two lookups agree exactly when every list has at every point what
  the other one shows there;
* **`lastAt_eq_standing_iff`** — on one list: whatever is covered from above was replaced. -/

namespace NfsKlldap

variable {P V : Type*} (covers : P → P → Bool) (depth : P → ℕ)

/-- `covers q p`: the point `q` is `p` or lies over it. The points over a point form a chain, deeper and
deeper towards it. -/
structure Forest : Prop where
  refl : ∀ p, covers p p = true
  trans : ∀ {p q r}, covers p q = true → covers q r = true → covers p r = true
  chain : ∀ {p q r}, covers p r = true → covers q r = true → covers p q = true ∨ covers q p = true
  depth_lt : ∀ {p q}, covers p q = true → p ≠ q → depth p < depth q

/-- What is seen from a point: the last thing that was put over it. -/
def topmost (l : List (P × V)) (p : P) : Option (P × V) := l.reverse.find? fun a => covers a.1 p

/-- The last of the things at the deepest point over a point. -/
def deepest (l : List (P × V)) (p : P) : Option (P × V) :=
  maxByKey (fun a => depth a.1) (l.filter fun a => covers a.1 p)

variable {covers depth} {l es : List (P × V)} {p q : P} {a : P × V}

/-- The topmost entry is one of the list, and it covers the point. -/
theorem mem_of_topmost (h : topmost covers l p = some a) : a ∈ l ∧ covers a.1 p = true :=
  ⟨List.mem_reverse.mp (List.mem_of_find?_eq_some h), by simpa using List.find?_some h⟩

/-- A covered point has a topmost entry. -/
theorem topmost_isSome (h : a ∈ l) (hcovers : covers a.1 p = true) :
    (topmost covers l p).isSome = true :=
  List.find?_isSome.mpr ⟨a, List.mem_reverse.mpr h, hcovers⟩

/-- A point has no deepest entry exactly when nothing covers it. -/
theorem deepest_eq_none_iff : deepest covers depth l p = none ↔ ∀ b ∈ l, covers b.1 p = false := by
  rw [deepest, maxByKey_eq_none_iff, List.filter_eq_nil_iff]
  simp

/-- The first element with a property is the first with a weaker one. -/
theorem find?_eq_of_imp {α : Type*} {f g : α → Bool} {xs : List α} {x : α}
    (h : xs.find? f = some x) (hg : g x = true) (himp : ∀ y, g y = true → f y = true) :
    xs.find? g = some x := by
  rw [List.find?_eq_some_iff_append] at h ⊢
  obtain ⟨-, before, behind, rfl, hbefore⟩ := h
  refine ⟨hg, before, behind, rfl, fun y hy => ?_⟩
  cases hgy : g y with
  | false => rfl
  | true => simpa [himp y hgy] using hbefore y hy

/-- What is seen from a point is seen from every point in between. -/
theorem Forest.topmost_between (F : Forest covers depth) (h : topmost covers l p = some a)
    (hq : covers q p = true) (ha : covers a.1 q = true) : topmost covers l q = some a :=
  find?_eq_of_imp h ha fun _ hb => F.trans hb hq

variable [DecidableEq P]

/-- The last thing that was put at a point. -/
def lastAt (l : List (P × V)) (p : P) : Option (P × V) := l.reverse.find? fun a => a.1 = p

variable (covers) in
/-- What was put at a point, if it is seen from there. -/
def standing (l : List (P × V)) (p : P) : Option (P × V) :=
  (topmost covers l p).filter fun a => a.1 = p

/-- The last entry at a place is one of the list, at that place. -/
theorem mem_of_lastAt (h : lastAt l p = some a) : a ∈ l ∧ a.1 = p :=
  ⟨List.mem_reverse.mp (List.mem_of_find?_eq_some h), by simpa using List.find?_some h⟩

/-- Something was put at the point. -/
theorem lastAt_isSome (h : a ∈ l) : (lastAt l a.1).isSome = true :=
  List.find?_isSome.mpr ⟨a, List.mem_reverse.mpr h, decide_eq_true rfl⟩

/-- An entry stands at a place exactly when it is topmost there and is mounted there itself. -/
theorem standing_eq_some_iff :
    standing covers l p = some a ↔ topmost covers l p = some a ∧ a.1 = p := by
  rw [standing, Option.filter_eq_some_iff, decide_eq_true_eq]

namespace Forest

variable (F : Forest covers depth)

include F

/-- What is seen is seen from where it was put. -/
theorem standing_of_topmost (h : topmost covers l p = some a) : standing covers l a.1 = some a :=
  standing_eq_some_iff.mpr ⟨F.topmost_between h (mem_of_topmost h).2 (F.refl _), rfl⟩

/-- Of two points over a third one the deeper one lies below the other. -/
theorem covers_of_depth_le {r : P} (hp : covers p r = true) (hq : covers q r = true)
    (h : depth p ≤ depth q) : covers p q = true := by
  rcases F.chain hp hq with hpq | hqp
  · exact hpq
  · by_cases heq : q = p
    · rw [heq]
      exact F.refl p
    · exact absurd (F.depth_lt hqp heq) (by omega)

/-- What covers a place is at most as deep. -/
theorem depth_le (h : covers p q = true) : depth p ≤ depth q := by
  by_cases heq : p = q
  · rw [heq]
  · exact (F.depth_lt h heq).le

/-- **The deepest thing**: the last one at a point below all the others. -/
theorem deepest_eq_some_iff : deepest covers depth l p = some a ↔
    covers a.1 p = true ∧ lastAt l a.1 = some a ∧
      ∀ b ∈ l, covers b.1 p = true → covers b.1 a.1 = true := by
  rw [deepest, maxByKey_eq_some_iff]
  constructor
  · intro h
    have hmem := List.mem_filter.mp h.mem
    have hbelow : ∀ b ∈ l, covers b.1 p = true → covers b.1 a.1 = true := fun b hb hcovers =>
      F.covers_of_depth_le hcovers hmem.2 (h.le (List.mem_filter.mpr ⟨hb, hcovers⟩))
    refine ⟨hmem.2, ?_, hbelow⟩
    obtain ⟨before, behind, hsplit, -, hbehind⟩ := h
    -- the things at the point are among those over `p`
    have hat : (l.reverse.filter fun b => covers b.1 p).find? (fun b => b.1 = a.1) = some a := by
      rw [List.filter_reverse, hsplit, List.reverse_append, List.reverse_cons, List.find?_append,
        List.find?_append, List.find?_eq_none.mpr]
      · simp
      · intro b hb
        have hlt := hbehind b (List.mem_reverse.mp hb)
        dsimp only at hlt
        rw [decide_eq_true_eq]
        intro heq
        rw [heq] at hlt
        exact absurd hlt (lt_irrefl _)
    rw [List.find?_filter] at hat
    rw [lastAt, ← hat]
    congr 1
    funext b
    by_cases hb : b.1 = a.1
    · simp [hb, hmem.2]
    · simp [hb]
  · rintro ⟨hcovers, hlast, hbelow⟩
    obtain ⟨-, behind, before, hsplit, hbehind⟩ := List.find?_eq_some_iff_append.mp hlast
    have hl : l = before.reverse ++ a :: behind.reverse := by
      rw [← List.reverse_reverse l, hsplit]
      simp
    refine ⟨before.reverse.filter fun b => covers b.1 p, behind.reverse.filter fun b => covers b.1 p,
      ?_, ?_, ?_⟩
    · simp [hl, hcovers]
    · intro b hb
      obtain ⟨hmem, hb⟩ := List.mem_filter.mp hb
      exact F.depth_le (hbelow b (hl ▸ List.mem_append_left _ hmem) hb)
    · intro b hb
      obtain ⟨hmem, hb⟩ := List.mem_filter.mp hb
      have hne : b.1 ≠ a.1 := by simpa using hbehind b (List.mem_reverse.mp hmem)
      exact F.depth_lt
        (hbelow b (hl ▸ List.mem_append_right _ (List.mem_cons_of_mem _ hmem)) hb) hne

/-- What is at the point itself is the deepest. -/
theorem deepest_of_lastAt (h : lastAt l p = some a) : deepest covers depth l p = some a := by
  obtain ⟨-, rfl⟩ := mem_of_lastAt h
  exact F.deepest_eq_some_iff.mpr ⟨F.refl _, h, fun b _ hb => hb⟩

/-- **The two lookups agree** exactly when one list has at every point what the other one shows. -/
theorem deepest_eq_topmost_iff :
    (∀ p, deepest covers depth es p = topmost covers l p) ↔ ∀ p, lastAt es p = standing covers l p := by
  constructor
  · intro h p
    cases hlast : lastAt es p with
    | some a =>
      rw [eq_comm, standing_eq_some_iff, ← h, F.deepest_of_lastAt hlast]
      exact ⟨rfl, (mem_of_lastAt hlast).2⟩
    | none =>
      rw [eq_comm, Option.eq_none_iff_forall_ne_some]
      intro a hstanding
      obtain ⟨htop, rfl⟩ := standing_eq_some_iff.mp hstanding
      rw [← h] at htop
      have hsome := (F.deepest_eq_some_iff.mp htop).2.1
      exact absurd (hlast.symm.trans hsome) (by simp)
  · intro h p
    -- a thing of the first list leads to one of the second that is seen from its point
    have hseen : ∀ b ∈ es, ∃ b', b'.1 = b.1 ∧ topmost covers l b.1 = some b' := by
      intro b hb
      obtain ⟨b', hb'⟩ := Option.isSome_iff_exists.mp (lastAt_isSome hb)
      rw [h] at hb'
      obtain ⟨htop, heq⟩ := standing_eq_some_iff.mp hb'
      exact ⟨b', heq, htop⟩
    cases htop : topmost covers l p with
    | none =>
      rw [deepest_eq_none_iff]
      intro b hb
      by_contra hcovers
      rw [Bool.not_eq_false] at hcovers
      obtain ⟨b', heq, hb'⟩ := hseen b hb
      have hsome := topmost_isSome (mem_of_topmost hb').1 (heq ▸ hcovers)
      rw [htop] at hsome
      cases hsome
    | some a =>
      have hstanding := F.standing_of_topmost htop
      refine F.deepest_eq_some_iff.mpr ⟨(mem_of_topmost htop).2, (h _).trans hstanding,
        fun b hb hcovers => ?_⟩
      rcases F.chain hcovers (mem_of_topmost htop).2 with hba | hab
      · exact hba
      · obtain ⟨b', heq, hb'⟩ := hseen b hb
        rw [F.topmost_between htop hcovers hab] at hb'
        rw [Option.some.inj hb', heq]
        exact F.refl _

/-- **On one list** the two agree when whatever is covered from above was replaced. -/
theorem lastAt_eq_standing_iff :
    (∀ p, lastAt l p = standing covers l p) ↔ ∀ a ∈ l, ∀ b ∈ topmost covers l a.1, b.1 = a.1 := by
  constructor
  · intro h a ha b hb
    obtain ⟨c, hc⟩ := Option.isSome_iff_exists.mp (lastAt_isSome ha)
    rw [h] at hc
    obtain ⟨htop, heq⟩ := standing_eq_some_iff.mp hc
    rw [Option.mem_def, htop] at hb
    rw [← Option.some.inj hb, heq]
  · intro h p
    cases hlast : lastAt l p with
    | none =>
      rw [eq_comm, Option.eq_none_iff_forall_ne_some]
      intro a hstanding
      obtain ⟨htop, rfl⟩ := standing_eq_some_iff.mp hstanding
      have hsome := lastAt_isSome (mem_of_topmost htop).1
      rw [hlast] at hsome
      cases hsome
    | some a =>
      obtain ⟨hmem, rfl⟩ := mem_of_lastAt hlast
      obtain ⟨b, hb⟩ := Option.isSome_iff_exists.mp (topmost_isSome hmem (F.refl a.1))
      have heq := h a hmem b hb
      -- the last thing at the point is the last one over it
      have hsame : lastAt l a.1 = some b := find?_eq_of_imp hb (decide_eq_true heq) fun c hc => by
        rw [of_decide_eq_true hc]
        exact F.refl _
      rw [hlast] at hsame
      rw [Option.some.inj hsame, eq_comm, standing_eq_some_iff]
      rw [← Option.some.inj hsame] at hb ⊢
      exact ⟨hb, rfl⟩

end Forest

end NfsKlldap
