import NfsKlldap.Lib.UnixPath

/-! # Paths read lexically

What an absolute path stands for when no file system is asked: its names from left to right, where
`..` takes the last name away and does nothing at the root.

* **`reduce`** — the same reading without a place to start from: how many names a relative path
  takes away from the place, and which ones it adds; `climb_eq` puts the two together, and
  `lexical_below` reads a path below another one with it;
* **`Respells`** — two spellings of one path, by four edits of the text; `respells_iff` says that
  they are exactly the texts with one reading. -/

namespace NfsKlldap

namespace UnixPath

open Text

/-- One component on a stack of names, the last name on top. -/
def climbStep (stack : List Str) : Component → List Str
  | .normal name => name :: stack
  | .parentDir => stack.tail
  | .rootDir => stack
  | .curDir => stack

/-- Components from a place onwards. -/
def climb (stack : List Str) (cs : List Component) : List Str := cs.foldl climbStep stack

/-- Climbing two lists of components climbs the first and then the second. -/
theorem climb_append (stack : List Str) (cs ds : List Component) :
    climb stack (cs ++ ds) = climb (climb stack cs) ds := List.foldl_append

/-- The names an absolute path stands for, from the root down. -/
def lexical (p : Str) : List Str := (climb [] (body (p.splitOn '/'))).reverse

/-- The path lies at or under the other one. -/
def LexicallyUnder (root p : Str) : Prop := lexical root <+: lexical p

/-- Lying lexically under a root is decidable. -/
instance (root p : Str) : Decidable (LexicallyUnder root p) :=
  inferInstanceAs (Decidable (_ <+: _))

/-! ## Relative readings -/

/-- How many names the components take away from the place they start from, and the names they add
there, the last one on top. -/
def reduceStep (r : Nat × List Str) : Component → Nat × List Str
  | .normal name => (r.1, name :: r.2)
  | .parentDir => if r.2 = [] then (r.1 + 1, []) else (r.1, r.2.tail)
  | .rootDir => r
  | .curDir => r

/-- The reading of components without a place to start from. -/
def reduce (cs : List Component) : Nat × List Str := cs.foldl reduceStep (0, [])

/-- **A relative reading at a place**: take names away, then add names. -/
theorem climb_eq (stack : List Str) (cs : List Component) :
    climb stack cs = (reduce cs).2 ++ stack.drop (reduce cs).1 := by
  suffices h : ∀ r : Nat × List Str, cs.foldl climbStep (r.2 ++ stack.drop r.1)
      = (cs.foldl reduceStep r).2 ++ stack.drop (cs.foldl reduceStep r).1 from h (0, [])
  induction cs with
  | nil => exact fun _ => rfl
  | cons c cs ih =>
    intro r
    rw [List.foldl_cons, List.foldl_cons, ← ih]
    congr 1
    cases c with
    | rootDir => rfl
    | curDir => rfl
    | normal name => rfl
    | parentDir =>
      by_cases hr : r.2 = []
      · simp [climbStep, reduceStep, hr]
      · rw [climbStep, reduceStep, if_neg hr, List.tail_append_of_ne_nil hr]

/-- Without `..` nothing is taken away. -/
theorem reduce_of_no_parent {cs : List Component} (h : .parentDir ∉ cs) : (reduce cs).1 = 0 := by
  suffices hr : ∀ r : Nat × List Str, (cs.foldl reduceStep r).1 = r.1 from hr (0, [])
  induction cs with
  | nil => exact fun _ => rfl
  | cons c cs ih =>
    intro r
    rw [List.mem_cons, not_or] at h
    rw [List.foldl_cons, ih h.2]
    cases c with
    | parentDir => exact absurd rfl h.1
    | normal name => rfl
    | rootDir => rfl
    | curDir => rfl

/-- The components behind a path and a slash. -/
def tailComponents (root p : Str) : List Component := body ((p.drop (root.length + 1)).splitOn '/')

/-- The names of the place a path starts from that its `..` take away are entered again. -/
def ReturnsTo (root p : Str) : Prop :=
  (lexical root).drop ((lexical root).length - (reduce (tailComponents root p)).1)
    <+: (reduce (tailComponents root p)).2.reverse

/-- Coming back to the root is decidable. -/
instance (root p : Str) : Decidable (ReturnsTo root p) := inferInstanceAs (Decidable (_ <+: _))

/-- **A path below another one**: what its tail leaves of the names, and the names it adds. -/
theorem lexical_below (root tail : Str) : lexical (root ++ '/' :: tail) =
    (lexical root).take ((lexical root).length - (reduce (body (tail.splitOn '/'))).1)
      ++ (reduce (body (tail.splitOn '/'))).2.reverse := by
  rw [lexical, List.splitOn_append_cons_self, body_append, climb_append, climb_eq,
    List.reverse_append, List.reverse_drop, lexical, List.length_reverse]

/-- **A path that is textually below another one lies lexically under it** exactly when it returns
to what it climbs out of. -/
theorem lexicallyUnder_iff {root p : Str} (h : (root ++ "/".toList).isPrefixOf p = true) :
    LexicallyUnder root p ↔ ReturnsTo root p := by
  obtain ⟨tail, rfl⟩ := List.isPrefixOf_iff_prefix.mp h
  have htail : tailComponents root (root ++ "/".toList ++ tail) = body (tail.splitOn '/') := by
    simp [tailComponents]
  rw [LexicallyUnder, ReturnsTo, htail, List.append_assoc]
  change lexical root <+: lexical (root ++ '/' :: tail) ↔ _
  rw [lexical_below]
  generalize (lexical root).length - (reduce (body (tail.splitOn '/'))).1 = n
  refine Iff.trans ?_ (List.prefix_append_right_inj ((lexical root).take n))
  rw [List.take_append_drop]

/-- Without `..` in its tail a path returns to where it starts. -/
theorem returnsTo_of_no_parent {root p : Str} (h : .parentDir ∉ tailComponents root p) :
    ReturnsTo root p := by
  rw [ReturnsTo, reduce_of_no_parent h, Nat.sub_zero, List.drop_length]
  exact List.nil_prefix

/-! ## Spellings -/

/-- One edit of the pieces between the slashes that keeps the path: a piece that stands for nothing
is dropped, a name goes together with the `..` behind it, and a `..` at the root goes. -/
inductive Respelling : List Str → List Str → Prop
  | blank (pre post : List Str) {s : Str} (h : piece s = none) :
      Respelling (pre ++ s :: post) (pre ++ post)
  | back (pre post : List Str) {s t name : Str} (hs : piece s = some (.normal name))
      (ht : piece t = some .parentDir) : Respelling (pre ++ s :: t :: post) (pre ++ post)
  | root (post : List Str) {t : Str} (ht : piece t = some .parentDir) : Respelling (t :: post) post

/-- Two spellings of one path: edits lead from the pieces of one to those of the other. -/
def Respells (p q : Str) : Prop := Relation.EqvGen Respelling (p.splitOn '/') (q.splitOn '/')

/-- An edit keeps the reading. -/
theorem Respelling.climb_eq {ps qs : List Str} (h : Respelling ps qs) :
    climb [] (body ps) = climb [] (body qs) := by
  cases h with
  | blank pre post h => rw [body_append, body_append, body, body, List.filterMap_cons_none h]; rfl
  | back pre post hs ht =>
    rw [body_append, body_append, climb_append, climb_append]
    simp only [body, List.filterMap_cons_some hs, List.filterMap_cons_some ht]
    rfl
  | root post ht =>
    simp only [body, List.filterMap_cons_some ht]
    rfl

/-- Edits work in front of more pieces. -/
theorem eqvGen_append {ps qs : List Str} (h : Relation.EqvGen Respelling ps qs) (rs : List Str) :
    Relation.EqvGen Respelling (ps ++ rs) (qs ++ rs) := by
  induction h with
  | rel ps qs h =>
    refine .rel _ _ ?_
    cases h with
    | blank pre post h => simpa using Respelling.blank pre (post ++ rs) h
    | back pre post hs ht => simpa using Respelling.back pre (post ++ rs) hs ht
    | root _ ht => exact Respelling.root _ ht
  | refl ps => exact .refl _
  | symm ps qs _ ih => exact .symm _ _ ih
  | trans ps qs ss _ _ ih₁ ih₂ => exact .trans _ _ _ ih₁ ih₂

/-- A single piece has at most one component. -/
theorem body_singleton (p : Str) : body [p] = (piece p).toList := by
  cases hp : piece p <;> simp [body, hp]

/-- A piece is never a root or a dot. -/
theorem piece_cases (p : Str) :
    piece p = none ∨ piece p = some .parentDir ∨ piece p = some (.normal p) := by
  unfold piece
  split
  · exact Or.inl rfl
  · split
    · exact Or.inr (Or.inl rfl)
    · exact Or.inr (Or.inr rfl)

/-- The names of a reading are pieces. -/
theorem piece_of_mem_climb {ps : List Str} {name : Str} (h : name ∈ climb [] (body ps)) :
    piece name = some (.normal name) := by
  induction ps using List.reverseRecOn with
  | nil => simp [climb, body] at h
  | append_singleton ps p ih =>
    rw [body_append, climb_append, body_singleton] at h
    rcases piece_cases p with hp | hp | hp
    · rw [hp] at h
      exact ih h
    · rw [hp] at h
      exact ih (List.mem_of_mem_tail h)
    · rw [hp] at h
      rcases List.mem_cons.mp h with rfl | h
      · exact hp
      · exact ih h

/-- Pieces are edited into the names they stand for. -/
theorem eqvGen_climb (ps : List Str) :
    Relation.EqvGen Respelling ps (climb [] (body ps)).reverse := by
  induction ps using List.reverseRecOn with
  | nil => exact .refl _
  | append_singleton ps p ih =>
    refine .trans _ _ _ (eqvGen_append ih [p]) ?_
    rw [body_append, climb_append, body_singleton]
    have hnames : ∀ name ∈ climb [] (body ps), piece name = some (.normal name) :=
      fun name h => piece_of_mem_climb h
    generalize climb [] (body ps) = stack at hnames
    rcases piece_cases p with hp | hp | hp
    · rw [hp]
      simpa [climb] using Relation.EqvGen.rel _ _ (Respelling.blank stack.reverse [] hp)
    · rw [hp]
      cases stack with
      | nil => exact .rel _ _ (Respelling.root [] hp)
      | cons name stack =>
        have hname := hnames name List.mem_cons_self
        simpa [climb, climbStep] using
          Relation.EqvGen.rel _ _ (Respelling.back stack.reverse [] hname hp)
    · rw [hp]
      simpa [climb, climbStep] using Relation.EqvGen.refl (r := Respelling) (stack.reverse ++ [p])

/-- **Two texts are spellings of one path exactly when they are read alike.** -/
theorem respells_iff {p q : Str} : Respells p q ↔ lexical p = lexical q := by
  rw [lexical, lexical, List.reverse_inj]
  constructor
  · intro h
    have hstep : ∀ ps qs, Relation.EqvGen Respelling ps qs →
        climb [] (body ps) = climb [] (body qs) := by
      intro ps qs h
      induction h with
      | rel _ _ h => exact h.climb_eq
      | refl _ => rfl
      | symm _ _ _ ih => exact ih.symm
      | trans _ _ _ _ _ ih₁ ih₂ => exact ih₁.trans ih₂
    exact hstep _ _ h
  · intro h
    refine .trans _ _ _ (eqvGen_climb _) ?_
    rw [h]
    exact .symm _ _ (eqvGen_climb _)

/-- Being another spelling of a path is decidable. -/
instance (p q : Str) : Decidable (Respells p q) := decidable_of_iff _ respells_iff.symm

end UnixPath

end NfsKlldap
