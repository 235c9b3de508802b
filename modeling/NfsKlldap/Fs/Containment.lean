import NfsKlldap.Config.Validate
import NfsKlldap.Lib.MaxBy
import NfsKlldap.Lib.UnixPath

/-! # Host paths and container paths (`FsManager`)

The permission tree speaks of paths on the host; work is done on the path the share serves inside the
container. A path is allowed when it lies under the host path of some share, and it is mapped through
one of those. A path with a parent component is refused by both.

The mapping is meant to go through the most specific share: a child wins over its parent for paths under
the child. What it compares is the length of the host paths in bytes, and a slash that is written twice
counts there, although it makes no component.

* `hostPathToContainerPath_contained`: a path is allowed exactly when it is mapped, and then it is the
  path some share serves with exactly the components that are left, so it stays under it;
* **`contained_iff`**: that share is a deepest one exactly when the first of the longest texts is. -/

namespace NfsKlldap

open Text UnixPath

/-! ## Paths and shares -/

/-- Trailing slashes do not count (`fs_probe::normalize_path`). -/
def normalizePath (path : Str) : Str :=
  if trimEndMatches '/' path = [] then "/".toList else trimEndMatches '/' path

/-- Some component is `..`. -/
def hasParentTraversal (path : Str) : Bool := (components path).any fun c => c = .parentDir

/-- The path is the host path of the share or lies below it. -/
def underShare (path : Str) (s : Share) : Bool :=
  startsWithPath (normalizePath path) (normalizePath s.hostPath)

/-- How specific a share is: the length of its host path. -/
def specificity (s : Share) : Nat := osLen (normalizePath s.hostPath)

/-- The path inside the container, through one share. -/
def containerPathIn (path : Str) (s : Share) : Str :=
  let rel := (stripPrefix (normalizePath path) (normalizePath s.hostPath)).getD []
  if rel = [] then servePathFor s else push (servePathFor s) rel

/-- Under the host path of any declared share. -/
def isAllowed (c : NfsKlldapConfig) (path : Str) : Bool :=
  !hasParentTraversal path &&
    (c.shares.map Share.hostPath).any fun root =>
      startsWithPath (normalizePath path) (normalizePath root)

/-- One round of the search for the most specific share. -/
def tryShare (path : Str) (best : Option (Nat × Str)) (s : Share) : Option (Nat × Str) :=
  if underShare path s then
    if best.all fun b => b.1 < specificity s then some (specificity s, containerPathIn path s)
    else best
  else best

/-- Map a host path to the container path of the matching share. -/
def hostPathToContainerPath (c : NfsKlldapConfig) (path : Str) : Except Str Str :=
  if hasParentTraversal path then
    .error ("Path ".toList ++ path ++ " contains a parent-directory traversal".toList)
  else
    match c.shares.foldl (tryShare path) none with
    | some b => .ok b.2
    | none =>
      .error ("Path ".toList ++ path ++ " is not under any configured share host_path".toList)

/-! ## Normal paths -/

/-- A normal path is not empty. -/
theorem normalizePath_ne_nil (path : Str) : normalizePath path ≠ [] := by
  unfold normalizePath
  split
  · decide
  · assumption

/-- Trimming keeps the components; only the empty path becomes the root. -/
theorem components_normalizePath {path : Str} (h : path ≠ []) :
    components (normalizePath path) = components path := by
  unfold normalizePath
  split
  · next hnil =>
    rw [components_of_trimEndMatches_nil h hnil]
    decide
  · next hne => exact components_trimEndMatches hne

/-- Trimming slashes neither adds nor removes a parent component. -/
theorem parentDir_mem_normalizePath_iff (path : Str) :
    Component.parentDir ∈ components (normalizePath path) ↔ hasParentTraversal path = true := by
  by_cases h : path = []
  · subst h
    decide
  · rw [components_normalizePath h, hasParentTraversal, List.any_eq_true]
    simp

/-- A path lies under a share when the components of the host path come first in it. -/
theorem underShare_iff {path : Str} {s : Share} :
    underShare path s = true ↔
      components (normalizePath s.hostPath) <+: components (normalizePath path) :=
  List.isPrefixOf_iff_prefix

/-- A share the path lies under: the path is its host path and some more components. -/
theorem containerPathIn_spec {path : Str} {s : Share} (h : underShare path s = true) :
    ∃ rest, components (normalizePath path) = components (normalizePath s.hostPath) ++ rest ∧
      components (containerPathIn path s) = components (servePathFor s) ++ rest ∧
      (rest = [] → containerPathIn path s = servePathFor s) := by
  obtain ⟨rel, hrel⟩ := stripPrefix_isSome h
  obtain ⟨hcomp, hstart⟩ :=
    components_stripPrefix (components_ne_nil (normalizePath_ne_nil s.hostPath)) hrel
  refine ⟨components rel, hcomp, ?_, fun hnil => ?_⟩
  · rw [containerPathIn, hrel, Option.getD_some]
    split
    · next hnil => rw [hnil, components_nil, List.append_nil]
    · exact components_push hstart
  · have hempty : rel = [] := by
      by_contra hne
      exact components_ne_nil hne hnil
    rw [containerPathIn, hrel, Option.getD_some, if_pos hempty]

/-! ## The most specific share -/

/-- The share a path is mapped through. -/
def mappedShare (c : NfsKlldapConfig) (path : Str) : Option Share :=
  firstMaxByKey specificity (c.shares.filter (underShare path))

/-- The search keeps the first of the shares with the longest host path, among those the path lies
under. -/
theorem foldl_tryShare (path : Str) (shares : List Share) (acc : Option Share) :
    shares.foldl (tryShare path) (acc.map fun s => (specificity s, containerPathIn path s)) =
      ((shares.filter (underShare path)).foldl (keepFirst specificity) acc).map
        fun s => (specificity s, containerPathIn path s) := by
  induction shares generalizing acc with
  | nil => rfl
  | cons s shares ih =>
    have hround : tryShare path (acc.map fun s => (specificity s, containerPathIn path s)) s =
        (if underShare path s then keepFirst specificity acc s else acc).map
          fun s => (specificity s, containerPathIn path s) := by
      unfold tryShare keepFirst
      cases acc with
      | none => cases underShare path s <;> rfl
      | some b =>
        cases underShare path s with
        | false => rfl
        | true =>
          by_cases hlt : specificity b < specificity s
          · simp [hlt]
          · simp [hlt]
    rw [List.foldl_cons, hround, ih, List.filter_cons]
    cases underShare path s <;> rfl

/-- The mapping is the one of the mapped share. -/
theorem hostPathToContainerPath_eq (c : NfsKlldapConfig) (path : Str) :
    hostPathToContainerPath c path =
      if hasParentTraversal path then
        .error ("Path ".toList ++ path ++ " contains a parent-directory traversal".toList)
      else
        match mappedShare c path with
        | some s => .ok (containerPathIn path s)
        | none =>
          .error ("Path ".toList ++ path ++ " is not under any configured share host_path".toList) := by
  have hfold : c.shares.foldl (tryShare path) none =
      (mappedShare c path).map fun s => (specificity s, containerPathIn path s) :=
    foldl_tryShare path c.shares none
  rw [hostPathToContainerPath, hfold]
  cases mappedShare c path <;> rfl

/-- A path is mapped through the mapped share, if it has no parent component. -/
theorem hostPathToContainerPath_eq_ok_iff {c : NfsKlldapConfig} {path q : Str} :
    hostPathToContainerPath c path = .ok q ↔
      hasParentTraversal path = false ∧
        ∃ s, mappedShare c path = some s ∧ q = containerPathIn path s := by
  rw [hostPathToContainerPath_eq]
  cases hasParentTraversal path with
  | true => simp
  | false =>
    cases mappedShare c path with
    | none => simp
    | some s => simp [eq_comm]

/-- A normal path is normal. -/
theorem normalizePath_idem (path : Str) : normalizePath (normalizePath path) = normalizePath path := by
  by_cases h : trimEndMatches '/' path = []
  · rw [normalizePath, normalizePath, if_pos h]
    decide
  · have hidem : trimEndMatches '/' (trimEndMatches '/' path) = trimEndMatches '/' path :=
      List.rdropWhile_idempotent (· = '/') path
    rw [show normalizePath path = trimEndMatches '/' path from if_neg h, normalizePath, hidem, if_neg h]

/-- Slashes at the end do not change what a path is mapped to. -/
theorem hostPathToContainerPath_of_normalized {c : NfsKlldapConfig} {path q : Str}
    (h : hostPathToContainerPath c (normalizePath path) = .ok q) :
    hostPathToContainerPath c path = .ok q := by
  obtain ⟨hparent, s, hs, rfl⟩ := hostPathToContainerPath_eq_ok_iff.mp h
  have hunder : underShare (normalizePath path) = underShare path := by
    funext t
    rw [underShare, underShare, normalizePath_idem]
  have hparent' : hasParentTraversal path = false := by
    rw [Bool.eq_false_iff]
    intro hdots
    have hmem := (parentDir_mem_normalizePath_iff path).mpr hdots
    rw [hasParentTraversal, List.any_eq_false] at hparent
    exact hparent _ hmem (by simp)
  refine hostPathToContainerPath_eq_ok_iff.mpr ⟨hparent', s, ?_, ?_⟩
  · rw [mappedShare, hunder] at hs
    exact hs
  · rw [containerPathIn, containerPathIn, normalizePath_idem]

/-- A path is allowed when it has no parent component and lies under some share. -/
theorem isAllowed_iff {c : NfsKlldapConfig} {path : Str} :
    isAllowed c path = true ↔
      hasParentTraversal path = false ∧ ∃ s ∈ c.shares, underShare path s = true := by
  simp [isAllowed, underShare]

/-- A path is allowed exactly when it is mapped, and then it is the path of a share with the longest host
path it lies under, as a text, extended by the components that are left, none of them a parent. -/
theorem hostPathToContainerPath_contained (c : NfsKlldapConfig) (path : Str) :
    (isAllowed c path = true ↔ ∃ q, hostPathToContainerPath c path = .ok q) ∧
      ∀ q, hostPathToContainerPath c path = .ok q → ∃ s ∈ c.shares, ∃ rest,
        components (normalizePath path) = components (normalizePath s.hostPath) ++ rest ∧
        (∀ t ∈ c.shares, components (normalizePath t.hostPath) <+: components (normalizePath path) →
          osLen (normalizePath t.hostPath) ≤ osLen (normalizePath s.hostPath)) ∧
        components q = components (servePathFor s) ++ rest ∧
        (rest = [] → q = servePathFor s) ∧
        Component.parentDir ∉ rest ∧
        components (servePathFor s) <+: components q := by
  constructor
  · rw [isAllowed_iff]
    simp only [hostPathToContainerPath_eq_ok_iff]
    constructor
    -- some share covers the path, so the search for the longest one finds one
    · rintro ⟨hparent, s, hs, hunder⟩
      have hne : mappedShare c path ≠ none := by
        rw [mappedShare, Ne, firstMaxByKey_eq_none_iff, List.filter_eq_nil_iff]
        exact fun h => h s hs hunder
      obtain ⟨t, ht⟩ := Option.ne_none_iff_exists'.mp hne
      exact ⟨_, hparent, t, ht, rfl⟩
    -- what the search finds is one of the shares that cover it
    · rintro ⟨q, hparent, s, hs, -⟩
      obtain ⟨hmem, hunder⟩ := List.mem_filter.mp (isFirstMax_of_firstMaxByKey hs).mem
      exact ⟨hparent, s, hmem, hunder⟩
  · intro q hq
    obtain ⟨hparent, s, hs, rfl⟩ := hostPathToContainerPath_eq_ok_iff.mp hq
    have hmax := isFirstMax_of_firstMaxByKey hs
    obtain ⟨hmem, hunder⟩ := List.mem_filter.mp hmax.mem
    -- what the share does not cover is carried over component by component
    obtain ⟨rest, hrest, hcomp, hroot⟩ := containerPathIn_spec hunder
    refine ⟨s, hmem, rest, hrest, fun t ht hpre => ?_, hcomp, hroot, fun hdotdot => ?_,
      ⟨rest, hcomp.symm⟩⟩
    · exact hmax.le (List.mem_filter.mpr ⟨ht, underShare_iff.mpr hpre⟩)
    -- a parent component would be one of the path, which was refused for it
    · have hpath : Component.parentDir ∈ components (normalizePath path) := by
        rw [hrest]
        exact List.mem_append_right _ hdotdot
      rw [parentDir_mem_normalizePath_iff, hparent] at hpath
      exact absurd hpath (by simp)

/-! ## The deepest share -/

/-- The path is the host path of the share or lies below it. -/
def Share.Holds (s : Share) (path : Str) : Prop :=
  components (normalizePath s.hostPath) <+: components (normalizePath path)

/-- How many components the host path of the share has. -/
def Share.depth (s : Share) : Nat := (components (normalizePath s.hostPath)).length

/-- No share that holds the path has more components. -/
def Deepest (c : NfsKlldapConfig) (path : Str) (s : Share) : Prop :=
  s ∈ c.shares ∧ s.Holds path ∧ ∀ t ∈ c.shares, t.Holds path → t.depth ≤ s.depth

/-- **Containment**: a path is allowed exactly when it is mapped, and then it is the path that a deepest
share serves, extended by the components that are left, none of them a parent. -/
structure Contained (c : NfsKlldapConfig) (path : Str) : Prop where
  allowed : isAllowed c path = true ↔ ∃ q, hostPathToContainerPath c path = .ok q
  mapped : ∀ q, hostPathToContainerPath c path = .ok q → ∃ s, Deepest c path s ∧ ∃ rest,
    components (normalizePath path) = components (normalizePath s.hostPath) ++ rest ∧
    components q = components (servePathFor s) ++ rest ∧
    Component.parentDir ∉ rest ∧
    components (servePathFor s) <+: components q

/-- The first of the shares that hold the path whose host path is the longest one in bytes. -/
def FirstLongestText (c : NfsKlldapConfig) (path : Str) (w : Share) : Prop :=
  ∃ before behind, c.shares = before ++ w :: behind ∧ w.Holds path ∧
    (∀ t ∈ before, t.Holds path → osLen (normalizePath t.hostPath) < osLen (normalizePath w.hostPath)) ∧
    ∀ t ∈ behind, t.Holds path → osLen (normalizePath t.hostPath) ≤ osLen (normalizePath w.hostPath)

/-- The share with the longest text is a deepest one, or it serves the same place as one: the host path
and the served path of the deepest share are its own, extended by the same components. -/
def LongestTextIsDeepest (c : NfsKlldapConfig) (path : Str) : Prop :=
  ∀ w, FirstLongestText c path w → ∃ s, Deepest c path s ∧ ∃ mid,
    components (normalizePath s.hostPath) = components (normalizePath w.hostPath) ++ mid ∧
    components (servePathFor s) = components (servePathFor w) ++ mid

section Deepest

variable {c : NfsKlldapConfig} {path : Str}

/-- The mapping goes through the first share with the longest text. -/
theorem mappedShare_eq_some_iff {w : Share} :
    mappedShare c path = some w ↔ FirstLongestText c path w := by
  rw [mappedShare, firstMaxByKey_eq_some_iff]
  constructor
  · rintro ⟨l₁, l₂, hsplit, h₁, h₂⟩
    obtain ⟨before, rest, hshares, hbefore, hrest⟩ := List.filter_eq_append_iff.mp hsplit
    obtain ⟨skipped, behind, hrest', hskipped, hw, hbehind⟩ := List.filter_eq_cons_iff.mp hrest
    refine ⟨before ++ skipped, behind, by rw [hshares, hrest', List.append_assoc],
      underShare_iff.mp hw, fun t ht hholds => ?_, fun t ht hholds => ?_⟩
    · rcases List.mem_append.mp ht with ht | ht
      · exact h₁ t (hbefore ▸ List.mem_filter.mpr ⟨ht, underShare_iff.mpr hholds⟩)
      · exact absurd (underShare_iff.mpr hholds) (hskipped t ht)
    · exact h₂ t (hbehind ▸ List.mem_filter.mpr ⟨ht, underShare_iff.mpr hholds⟩)
  · rintro ⟨before, behind, hshares, hw, h₁, h₂⟩
    refine ⟨before.filter (underShare path), behind.filter (underShare path), ?_, fun t ht => ?_,
      fun t ht => ?_⟩
    · rw [hshares, List.filter_append, List.filter_cons_of_pos (underShare_iff.mpr hw)]
    · obtain ⟨hmem, hunder⟩ := List.mem_filter.mp ht
      exact h₁ t hmem (underShare_iff.mp hunder)
    · obtain ⟨hmem, hunder⟩ := List.mem_filter.mp ht
      exact h₂ t hmem (underShare_iff.mp hunder)

/-- A share with the longest text is not deeper than a deepest one: its components come first. -/
theorem exists_mid {w s : Share} (hw : FirstLongestText c path w) (hs : Deepest c path s) :
    ∃ mid, components (normalizePath s.hostPath) = components (normalizePath w.hostPath) ++ mid := by
  obtain ⟨before, behind, hshares, hholds, -⟩ := hw
  have hmem : w ∈ c.shares := by
    rw [hshares]
    exact List.mem_append_right _ List.mem_cons_self
  obtain ⟨mid, hmid⟩ := List.prefix_of_prefix_length_le hholds hs.2.1 (hs.2.2 w hmem hholds)
  exact ⟨mid, hmid.symm⟩

/-- **Containment** holds exactly when the path is refused for a parent component, or the share with the
longest text is a deepest one or serves the same place. -/
theorem contained_iff (c : NfsKlldapConfig) (path : Str) :
    Contained c path ↔ hasParentTraversal path = true ∨ LongestTextIsDeepest c path := by
  obtain ⟨hallowed, hcontained⟩ := hostPathToContainerPath_contained c path
  constructor
  · rintro ⟨-, hmapped⟩
    cases hparent : hasParentTraversal path with
    | true => exact Or.inl rfl
    | false =>
      refine Or.inr fun w hw => ?_
      have hok : hostPathToContainerPath c path = .ok (containerPathIn path w) :=
        hostPathToContainerPath_eq_ok_iff.mpr ⟨hparent, w, mappedShare_eq_some_iff.mpr hw, rfl⟩
      obtain ⟨s, hs, rest, hrest, hserve, -⟩ := hmapped _ hok
      obtain ⟨mid, hmid⟩ := exists_mid hw hs
      obtain ⟨before, behind, -, hholds, -⟩ := hw
      obtain ⟨rest', hrest', hserve', -⟩ := containerPathIn_spec (underShare_iff.mpr hholds)
      -- what is left below the longest text is what lies between, and what is left below the deepest
      have hsplit : rest' = mid ++ rest := by
        rw [hrest', hmid, List.append_assoc] at hrest
        exact List.append_cancel_left hrest
      refine ⟨s, hs, mid, hmid, ?_⟩
      rw [hserve', hsplit, ← List.append_assoc] at hserve
      exact (List.append_cancel_right hserve).symm
  · intro hcond
    refine ⟨hallowed, fun q hq => ?_⟩
    obtain ⟨hparent, w, hw, rfl⟩ := hostPathToContainerPath_eq_ok_iff.mp hq
    rw [mappedShare_eq_some_iff] at hw
    rcases hcond with hcond | hcond
    · exact absurd (hparent.symm.trans hcond) Bool.false_ne_true
    · obtain ⟨s, hs, mid, hmid, hserve⟩ := hcond w hw
      obtain ⟨rest, hrest⟩ := hs.2.1
      obtain ⟨before, behind, -, hholds, -⟩ := hw
      obtain ⟨rest', hrest', hserve', -⟩ := containerPathIn_spec (underShare_iff.mpr hholds)
      have hsplit : rest' = mid ++ rest := by
        rw [hrest', hmid, List.append_assoc] at hrest
        exact (List.append_cancel_left hrest).symm
      have hcomp : components (containerPathIn path w) = components (servePathFor s) ++ rest := by
        rw [hserve', hsplit, hserve, List.append_assoc]
      refine ⟨s, hs, rest, hrest.symm, hcomp, fun hdotdot => ?_, ⟨rest, hcomp.symm⟩⟩
      have hpath : Component.parentDir ∈ components (normalizePath path) := by
        rw [← hrest]
        exact List.mem_append_right _ hdotdot
      rw [parentDir_mem_normalizePath_iff, hparent] at hpath
      exact absurd hpath Bool.false_ne_true

end Deepest

/-! ### A slash that is written more than once -/

/-- A share inside another one, whose host path is longer as a text. -/
def slashedConfig : NfsKlldapConfig :=
  homeConfig
    [{ homeShare "a".toList none with hostPath := "/srv////////a".toList },
     { homeShare "b".toList none with hostPath := "/srv/a/b".toList }]

/-- A path under the child is mapped through the parent. -/
theorem not_contained_slashed :
    validateAndDerive .ascii slashedConfig = .ok slashedConfig ∧
      hostPathToContainerPath slashedConfig "/srv/a/b/x".toList = .ok "/export/a/b/x".toList ∧
      ¬ Contained slashedConfig "/srv/a/b/x".toList := by
  have hvalid : (validateAndDerive .ascii slashedConfig).toOption = some slashedConfig := by
    decide +kernel
  have hmap : (hostPathToContainerPath slashedConfig "/srv/a/b/x".toList).toOption =
      some "/export/a/b/x".toList := by decide +kernel
  refine ⟨toOption_eq_some_iff.mp hvalid, toOption_eq_some_iff.mp hmap, fun h => ?_⟩
  obtain ⟨s, ⟨hs, -, hdeepest⟩, rest, -, hserve, -⟩ := h.mapped _ (toOption_eq_some_iff.mp hmap)
  have hchild := hdeepest { homeShare "b".toList none with hostPath := "/srv/a/b".toList }
    (List.mem_cons_of_mem _ (List.mem_singleton_self _))
    (List.isPrefixOf_iff_prefix.mp (by decide +kernel))
  rcases List.mem_cons.mp hs with rfl | hs
  · exact absurd hchild (by decide +kernel)
  · rw [List.mem_singleton.mp hs] at hserve
    have hfirst := congrArg (fun l => l[2]?) hserve
    exact absurd hfirst (by
      rw [List.getElem?_append_left (by decide +kernel)]
      decide +kernel)

end NfsKlldap
