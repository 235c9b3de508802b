import NfsKlldap.Lib.Text

/-! # Unix paths as texts

A path is the text it is written as; what it means is the list of its **components**. Repeated
slashes, slashes at the end and `.` between slashes do not count, a leading `.` does. Prefixes are
prefixes of components, and a path that is cut off a prefix keeps the text of what is left:

* `components_append_slash`: a slash joins two texts without mixing their components;
* `components_push`: a path that is joined to another one brings its components;
* `components_stripPrefix`: the components of a path are those of a prefix and those of the rest. -/

namespace NfsKlldap

namespace UnixPath

open Text

/-- A component of a path. -/
inductive Component
  | rootDir
  | curDir
  | parentDir
  | normal (name : Str)
  deriving DecidableEq

/-- What a piece between slashes stands for; an empty one and `.` stand for nothing. -/
def piece (s : Str) : Option Component :=
  if s = [] ∨ s = ['.'] then none
  else if s = ['.', '.'] then some .parentDir
  else some (.normal s)

/-- The components of the pieces. -/
def body (ps : List Str) : List Component := ps.filterMap piece

/-- The component in front of all pieces: the root, or a leading `.`. -/
def start (p : Str) : List Component :=
  if p.head? = some '/' then [.rootDir]
  else if (p.splitOn '/').head? = some ['.'] then [.curDir]
  else []

/-- `Path::components` -/
def components (p : Str) : List Component := start p ++ body (p.splitOn '/')

/-- `Path::starts_with` -/
def startsWithPath (p base : Str) : Bool := (components base).isPrefixOf (components p)

/-- The length of a text in bytes. -/
def osLen (p : Str) : Nat := (p.map Char.utf8Size).sum

/-- The byte length of a concatenation is the sum of the byte lengths. -/
theorem osLen_append (s t : Str) : osLen (s ++ t) = osLen s + osLen t := by
  simp [osLen]

/-- A nonempty text has a positive byte length. -/
theorem osLen_pos {s : Str} (h : s ≠ []) : 0 < osLen s := by
  obtain ⟨c, t, rfl⟩ := List.exists_cons_of_ne_nil h
  rw [osLen, List.map_cons, List.sum_cons]
  have := c.utf8Size_pos
  omega

/-- The pieces behind the first `n` components. -/
def dropPieces : Nat → List Str → List Str
  | 0, ps => ps
  | _ + 1, [] => []
  | n + 1, p :: ps => if (piece p).isNone then dropPieces (n + 1) ps else dropPieces n ps

/-- `Components::as_path`: pieces that stand for nothing go from both ends. -/
def asPath (ps : List Str) : Str :=
  ['/'].intercalate ((ps.dropWhile fun p => (piece p).isNone).rdropWhile fun p => (piece p).isNone)

/-- What is left of a path behind its first `n` components. -/
def rest (n : Nat) (p : Str) : Str :=
  if n = 0 then p else asPath (dropPieces (n - (start p).length) (p.splitOn '/'))

/-- `Path::strip_prefix` -/
def stripPrefix (p base : Str) : Option Str :=
  if startsWithPath p base then some (rest (components base).length p) else none

/-- `PathBuf::push`: an absolute path replaces the other one. -/
def push (base p : Str) : Str :=
  if p.head? = some '/' then p
  else if base = [] ∨ base.getLast? = some '/' then base ++ p
  else base ++ '/' :: p

/-! ## Slashes -/

/-- The empty path has no components. -/
@[simp] theorem components_nil : components [] = [] := by decide

/-- The components of two lists of pieces follow one another. -/
theorem body_append (ps qs : List Str) : body (ps ++ qs) = body ps ++ body qs :=
  List.filterMap_append

/-- What follows a slash does not change how a nonempty path starts. -/
theorem start_append_slash {b : Str} (hb : b ≠ []) (r : Str) : start (b ++ '/' :: r) = start b := by
  have hhead : (b ++ '/' :: r).head? = b.head? := by
    cases b with
    | nil => exact absurd rfl hb
    | cons c b => rfl
  have hpiece : ((b ++ '/' :: r).splitOn '/').head? = (b.splitOn '/').head? := by
    rw [List.splitOn_append_cons_self, List.head?_append_of_ne_nil _ (List.splitOn_ne_nil _ _)]
  rw [start, hhead, hpiece, start]

/-- A slash joins two texts without mixing their components. -/
theorem components_append_slash {b : Str} (hb : b ≠ []) (r : Str) :
    components (b ++ '/' :: r) = components b ++ body (r.splitOn '/') := by
  rw [components, start_append_slash hb, List.splitOn_append_cons_self, body_append, components,
    List.append_assoc]

/-- A path that starts with a slash starts at the root. -/
theorem components_slash (r : Str) : components ('/' :: r) = .rootDir :: body (r.splitOn '/') := by
  have hsplit : ('/' :: r).splitOn '/' = [] :: r.splitOn '/' := by
    simp [List.splitOn_cons_eq_if_modifyHead]
  rw [components, hsplit]
  rfl

/-- A slash at the end does not count. -/
theorem components_append_slash_end {b : Str} (hb : b ≠ []) :
    components (b ++ ['/']) = components b := by
  rw [components_append_slash hb]
  exact List.append_nil _

/-- Slashes at the end do not count. -/
theorem components_trimEndMatches {p : Str} (h : trimEndMatches '/' p ≠ []) :
    components (trimEndMatches '/' p) = components p := by
  induction p using List.reverseRecOn with
  | nil => exact absurd rfl h
  | append_singleton p c ih =>
    unfold trimEndMatches at h ih ⊢
    rw [List.rdropWhile_concat] at h ⊢
    by_cases hc : c = '/'
    · rw [if_pos (by simpa using hc)] at h ⊢
      have hp : p ≠ [] := by
        rintro rfl
        exact h rfl
      rw [ih h, hc, components_append_slash_end hp]
    · rw [if_neg (by simpa using hc)]

/-- A path that is nothing but slashes is the root. -/
theorem components_of_trimEndMatches_nil {p : Str} (hp : p ≠ []) (h : trimEndMatches '/' p = []) :
    components p = [.rootDir] := by
  unfold trimEndMatches at h
  rw [List.rdropWhile_eq_nil_iff] at h
  induction p using List.reverseRecOn with
  | nil => exact absurd rfl hp
  | append_singleton p c ih =>
    have hc : c = '/' := by simpa using h c (by simp)
    subst hc
    cases p with
    | nil => decide
    | cons d p =>
      rw [components_append_slash_end (by simp)]
      exact ih (by simp) fun x hx => h x (List.mem_append_left _ hx)

/-- A path that is not empty has a component. -/
theorem components_ne_nil {p : Str} (hp : p ≠ []) : components p ≠ [] := by
  cases p with
  | nil => exact absurd rfl hp
  | cons c p =>
    by_cases hc : c = '/'
    · rw [hc, components_slash]
      simp
    · intro hnil
      obtain ⟨hstart, hbody⟩ := List.append_eq_nil_iff.mp hnil
      have hsplit : (c :: p).splitOn '/' = (p.splitOn '/').modifyHead (c :: ·) := by
        simp [List.splitOn_cons_eq_if_modifyHead, hc]
      obtain ⟨q, qs, hq⟩ := List.exists_cons_of_ne_nil (List.splitOn_ne_nil '/' p)
      rw [hq, List.modifyHead_cons] at hsplit
      rw [start, if_neg (by simpa using hc), hsplit] at hstart
      rw [hsplit] at hbody
      have hpiece : piece (c :: q) = none := by
        by_contra hne
        obtain ⟨x, hx⟩ := Option.ne_none_iff_exists'.mp hne
        rw [body, List.filterMap_cons_some hx] at hbody
        exact absurd hbody (by simp)
      have hdot : c :: q = ['.'] := by
        unfold piece at hpiece
        split at hpiece
        · next h => exact h.resolve_left (by simp)
        · split at hpiece <;> cases hpiece
      rw [hdot] at hstart
      exact absurd hstart (by simp)

/-! ## Joining -/

/-- A path that is relative and does not start with `.` brings its components. -/
theorem components_push {base p : Str} (hp : start p = []) :
    components (push base p) = components base ++ components p := by
  have hrel : ¬ p.head? = some '/' := by
    intro h
    rw [start, if_pos h] at hp
    exact absurd hp (by simp)
  have hbody : components p = body (p.splitOn '/') := by rw [components, hp, List.nil_append]
  rw [push, if_neg hrel, hbody]
  by_cases hnil : base = []
  · rw [if_pos (Or.inl hnil), hnil, List.nil_append, components_nil, List.nil_append, hbody]
  by_cases hlast : base.getLast? = some '/'
  · rw [if_pos (Or.inr hlast)]
    obtain ⟨b, rfl⟩ := List.getLast?_eq_some_iff.mp hlast
    rw [List.append_assoc, List.singleton_append]
    cases b with
    | nil =>
      rw [List.nil_append, List.nil_append, components_slash]
      rfl
    | cons c b =>
      rw [components_append_slash (by simp), components_append_slash_end (by simp)]
  · rw [if_neg (by simp [hnil, hlast]), components_append_slash hnil]

/-! ## Cutting off -/

/-- Dropping the pieces of n components drops n components. -/
theorem body_dropPieces (n : Nat) (ps : List Str) : body (dropPieces n ps) = (body ps).drop n := by
  induction ps generalizing n with
  | nil => cases n <;> rfl
  | cons p ps ih =>
    cases n with
    | zero => rfl
    | succ n =>
      cases hp : piece p with
      | none =>
        rw [dropPieces, hp, Option.isNone_none, if_pos rfl, ih, body, body,
          List.filterMap_cons_none hp]
      | some c =>
        rw [dropPieces, hp, if_neg (by simp), ih, body, body, List.filterMap_cons_some hp,
          List.drop_succ_cons]

/-- The pieces that are left are pieces of the path. -/
theorem mem_dropPieces {n : Nat} {ps : List Str} {p : Str} (h : p ∈ dropPieces n ps) : p ∈ ps := by
  induction ps generalizing n with
  | nil => cases n <;> exact h
  | cons q ps ih =>
    cases n with
    | zero => exact h
    | succ n =>
      rw [dropPieces] at h
      split at h
      · exact List.mem_cons_of_mem _ (ih h)
      · exact List.mem_cons_of_mem _ (ih h)

/-- Leading pieces without a component may be dropped. -/
theorem body_dropWhile (ps : List Str) :
    body (ps.dropWhile fun p => (piece p).isNone) = body ps := by
  induction ps with
  | nil => rfl
  | cons p ps ih =>
    cases hp : piece p with
    | none =>
      rw [List.dropWhile_cons, hp, Option.isNone_none, if_pos rfl, ih, body, body,
        List.filterMap_cons_none hp]
    | some c => rw [List.dropWhile_cons, hp, if_neg (by simp)]

/-- Trailing pieces without a component may be dropped. -/
theorem body_rdropWhile (ps : List Str) :
    body (ps.rdropWhile fun p => (piece p).isNone) = body ps := by
  induction ps using List.reverseRecOn with
  | nil => rfl
  | append_singleton ps p ih =>
    rw [List.rdropWhile_concat]
    cases hp : piece p with
    | none =>
      rw [Option.isNone_none, if_pos rfl, ih, body_append]
      simp [body, hp]
    | some c => rw [if_neg (by simp)]

/-- The text of some pieces has their components, and neither a root nor a leading `.`. -/
theorem components_asPath {ps : List Str} (hps : ∀ p ∈ ps, '/' ∉ p) :
    components (asPath ps) = body ps ∧ start (asPath ps) = [] := by
  unfold asPath
  have hbody : body ((ps.dropWhile fun p => (piece p).isNone).rdropWhile
      fun p => (piece p).isNone) = body ps := by rw [body_rdropWhile, body_dropWhile]
  have hmem : ∀ p ∈ (ps.dropWhile fun p => (piece p).isNone).rdropWhile
      fun p => (piece p).isNone, '/' ∉ p := fun p hp =>
    hps p ((List.dropWhile_sublist _).subset ((List.rdropWhile_prefix _ _).subset hp))
  -- the first piece that is left stands for something
  have hfirst : ∀ p ∈ ((ps.dropWhile fun p => (piece p).isNone).rdropWhile
      fun p => (piece p).isNone).head?, (piece p).isNone = false := by
    intro p hp
    obtain ⟨u, hu⟩ := List.rdropWhile_prefix (fun p : Str => (piece p).isNone)
      (ps.dropWhile fun p => (piece p).isNone)
    have hhead := List.head?_dropWhile_not (fun p : Str => (piece p).isNone) ps
    rw [← hu, List.head?_append, Option.mem_def.mp hp] at hhead
    exact hhead
  generalize (ps.dropWhile fun p => (piece p).isNone).rdropWhile
    (fun p => (piece p).isNone) = qs at hbody hmem hfirst
  cases qs with
  | nil => exact ⟨by rw [← hbody]; decide, by decide⟩
  | cons q qs =>
    have hsplit : (['/'].intercalate (q :: qs)).splitOn '/' = q :: qs :=
      List.splitOn_intercalate '/' hmem (by simp)
    have hq := hfirst q rfl
    have hstart : start (['/'].intercalate (q :: qs)) = [] := by
      have hhead : ¬ (['/'].intercalate (q :: qs)).head? = some '/' := by
        cases q with
        | nil => exact absurd hq (by decide)
        | cons c q =>
          have hc : '/' ≠ c := fun h => hmem (c :: q) List.mem_cons_self (h ▸ List.mem_cons_self)
          cases qs <;> simp [List.intercalate_cons_cons, Ne.symm hc]
      have hdot : ¬ ((['/'].intercalate (q :: qs)).splitOn '/').head? = some ['.'] := by
        rw [hsplit, List.head?_cons, Option.some.injEq]
        rintro rfl
        exact absurd hq (by decide)
      rw [start, if_neg hhead, if_neg hdot]
    refine ⟨?_, hstart⟩
    rw [components, hstart, hsplit, List.nil_append, hbody]

/-- A piece does not hold the character the text was split at. -/
theorem not_mem_of_mem_splitOn {c : Char} {p q : Str} (h : q ∈ p.splitOn c) : c ∉ q := by
  induction p generalizing q with
  | nil =>
    rw [List.splitOn_nil, List.mem_singleton] at h
    simp [h]
  | cons d p ih =>
    rw [List.splitOn_cons_eq_if_modifyHead] at h
    obtain ⟨r, rs, hr⟩ := List.exists_cons_of_ne_nil (List.splitOn_ne_nil c p)
    rw [hr] at h ih
    split at h
    · rcases List.mem_cons.mp h with rfl | h
      · simp
      · exact ih h
    · next hd =>
      rw [List.modifyHead_cons] at h
      rcases List.mem_cons.mp h with rfl | h
      · have hr := ih (q := r) (by simp)
        simp only [List.mem_cons, not_or]
        exact ⟨fun heq => hd (by simp [heq]), hr⟩
      · exact ih (List.mem_cons_of_mem _ h)

/-- A path is its prefix and the rest; the rest is relative. -/
theorem components_stripPrefix {p base r : Str} (hbase : components base ≠ [])
    (h : stripPrefix p base = some r) :
    components p = components base ++ components r ∧ start r = [] := by
  unfold stripPrefix at h
  split at h
  · next hpre =>
    cases h
    obtain ⟨u, hu⟩ := List.isPrefixOf_iff_prefix.mp hpre
    have hlen : (components base).length ≠ 0 := by simpa using hbase
    have hstart : (start p).length ≤ (components base).length := by
      have : (start p).length ≤ 1 := by
        unfold start
        split
        · exact le_rfl
        · split <;> simp
      omega
    rw [rest, if_neg hlen]
    obtain ⟨hcomp, hs⟩ := components_asPath
      (fun q hq => not_mem_of_mem_splitOn (mem_dropPieces hq) :
        ∀ q ∈ dropPieces ((components base).length - (start p).length) (p.splitOn '/'), '/' ∉ q)
    refine ⟨?_, hs⟩
    have hdrop : (components p).drop (components base).length =
        (body (p.splitOn '/')).drop ((components base).length - (start p).length) := by
      rw [show components p = start p ++ body (p.splitOn '/') from rfl, List.drop_append,
        List.drop_eq_nil_of_le hstart, List.nil_append]
    rw [hcomp, body_dropPieces, ← hdrop, ← hu, List.drop_left]
  · cases h

/-- A prefix in components can be stripped. -/
theorem stripPrefix_isSome {p base : Str} (h : startsWithPath p base = true) :
    ∃ r, stripPrefix p base = some r := ⟨_, if_pos h⟩

end UnixPath

end NfsKlldap
