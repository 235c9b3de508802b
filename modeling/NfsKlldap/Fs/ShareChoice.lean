import NfsKlldap.Fs.Containment
import NfsKlldap.Settings.RawOnly

/-! # Three searches for the share of a path

The ACL gate asks `bestShareFor` which share a path belongs to, the diagnosis has a search of its own,
and the mapping a third one. They differ in whether slashes at the end count and in who wins a tie:
the first two take the last share, the mapping takes the first.

**`sameShare_iff`** says when they choose the same share: among the shares the path lies under one has
to be ahead of the others in every one of the three orders. Two shares with equal host paths are not
refused by the validation, and then the gate asks about one share while the mapping leads into the
other. -/

namespace NfsKlldap

open Text UnixPath

/-! ## The searches -/

/-- The path lies under the host path as it is written. -/
def underShareRaw (path : Str) (s : Share) : Bool :=
  startsWithPath path s.hostPath || components path = components s.hostPath

/-- The share the ACL gate asks about: the last one with the longest host path. -/
def bestShareFor (c : NfsKlldapConfig) (path : Str) : Option Share :=
  maxByKey (fun s => osLen s.hostPath) (c.shares.filter (underShareRaw path))

/-- The share the diagnosis names. -/
def diagnosedShare (c : NfsKlldapConfig) (path : Str) : Option Share :=
  maxByKey specificity (c.shares.filter (underShare path))

/-- Diagnostic for permission-tree failures. -/
structure PathDiagnostic where
  allowed : Bool
  containerPath : Option Str
  containerExists : Bool
  servePath : Str

/-- Explain why a host path may fail. `isDir` says which paths are directories on disk. -/
def diagnosePath (isDir : Str → Bool) (c : NfsKlldapConfig) (path : Str) : PathDiagnostic where
  allowed := isAllowed c (normalizePath path)
  containerPath := (hostPathToContainerPath c path).toOption
  containerExists := (hostPathToContainerPath c path).toOption.any isDir
  servePath := ((diagnosedShare c path).map servePathFor).getD []

/-- **The three agree.** A path with a parent component is not mapped into any share. -/
def SameShare (c : NfsKlldapConfig) (path : Str) : Prop :=
  bestShareFor c path = diagnosedShare c path ∧
    (hasParentTraversal path = false → mappedShare c path = bestShareFor c path)

/-- One of the shares is ahead of the others: of those before it and of those behind it. -/
def Ahead (path : Str) (shares : List Share) (s : Share) : Prop :=
  ∃ before behind, shares = before ++ s :: behind ∧
    (∀ t ∈ before, osLen t.hostPath ≤ osLen s.hostPath ∧
      (specificity t < specificity s ∨
        hasParentTraversal path = true ∧ specificity t = specificity s)) ∧
    ∀ t ∈ behind, osLen t.hostPath < osLen s.hostPath ∧ specificity t < specificity s

/-! ## When they agree -/

section Agree

variable {c : NfsKlldapConfig} {path : Str}

/-- Only for the empty path it matters whether slashes at the end are trimmed. -/
theorem underShareRaw_eq (hpath : path ≠ []) {s : Share} (hs : s.hostPath ≠ []) :
    underShareRaw path s = underShare path s := by
  unfold underShareRaw underShare startsWithPath
  rw [components_normalizePath hpath, components_normalizePath hs]
  by_cases heq : components path = components s.hostPath
  · simp [heq]
  · simp [heq]

/-- The empty path lies under no share. -/
theorem underShareRaw_nil {s : Share} (hs : s.hostPath ≠ []) : underShareRaw [] s = false := by
  have hne := components_ne_nil hs
  rw [underShareRaw, startsWithPath, components_nil]
  cases hcomp : components s.hostPath with
  | nil => exact absurd hcomp hne
  | cons d ds => rfl

/-- The best share is the last of those with the longest host path. -/
theorem bestShareFor_eq (hhost : ∀ s ∈ c.shares, s.hostPath ≠ []) (hpath : path ≠ []) :
    bestShareFor c path =
      maxByKey (fun s => osLen s.hostPath) (c.shares.filter (underShare path)) := by
  rw [bestShareFor, List.filter_congr fun s hs => underShareRaw_eq hpath (hhost s hs)]

/-- The empty path has no best share. -/
theorem bestShareFor_nil (hhost : ∀ s ∈ c.shares, s.hostPath ≠ []) : bestShareFor c [] = none := by
  rw [bestShareFor, maxByKey_eq_none_iff, List.filter_eq_nil_iff]
  intro s hs
  simp [underShareRaw_nil (hhost s hs)]

/-- A share that is ahead is chosen by all three. -/
theorem chosen_of_ahead {shares : List Share} {s : Share} (h : Ahead path shares s) :
    maxByKey (fun s => osLen s.hostPath) shares = some s ∧ maxByKey specificity shares = some s ∧
      (hasParentTraversal path = false → firstMaxByKey specificity shares = some s) := by
  obtain ⟨before, behind, hsplit, hbefore, hbehind⟩ := h
  refine ⟨maxByKey_eq_some_iff.mpr ⟨before, behind, hsplit, fun t ht => (hbefore t ht).1,
    fun t ht => (hbehind t ht).1⟩, maxByKey_eq_some_iff.mpr ⟨before, behind, hsplit,
    fun t ht => ?_, fun t ht => (hbehind t ht).2⟩, fun hparent => ?_⟩
  · rcases (hbefore t ht).2 with hlt | ⟨-, heq⟩
    · exact hlt.le
    · exact heq.le
  · refine firstMaxByKey_eq_some_iff.mpr ⟨before, behind, hsplit, fun t ht => ?_,
      fun t ht => (hbehind t ht).2.le⟩
    rcases (hbefore t ht).2 with hlt | ⟨hyes, -⟩
    · exact hlt
    · exact absurd (hparent.symm.trans hyes) (by simp)

/-- A share that is chosen by all three is ahead. -/
theorem ahead_of_chosen {shares : List Share} {s : Share} (hnodup : shares.Nodup)
    (hraw : maxByKey (fun s => osLen s.hostPath) shares = some s)
    (hlast : maxByKey specificity shares = some s)
    (hfirst : hasParentTraversal path = false → firstMaxByKey specificity shares = some s) :
    Ahead path shares s := by
  obtain ⟨before, behind, rfl, hraw₁, hraw₂⟩ := maxByKey_eq_some_iff.mp hraw
  -- `s` occurs once, so the orders cut the list at the same place
  have hnot := List.nodup_append.mp hnodup
  have hbefore : s ∉ before := fun hs => hnot.2.2 s hs s List.mem_cons_self rfl
  have hbehind : s ∉ behind := (List.nodup_cons.mp hnot.2.1).1
  obtain ⟨m₁, m₂, heq, hlast₁, hlast₂⟩ := maxByKey_eq_some_iff.mp hlast
  obtain ⟨rfl, -, rfl⟩ := (List.append_cons_inj_of_notMem hbefore hbehind).mp heq
  refine ⟨before, behind, rfl, fun t ht => ⟨hraw₁ t ht, ?_⟩,
    fun t ht => ⟨hraw₂ t ht, hlast₂ t ht⟩⟩
  cases hparent : hasParentTraversal path with
  | true =>
    rcases (hlast₁ t ht).lt_or_eq with hlt | heq
    · exact Or.inl hlt
    · exact Or.inr ⟨rfl, heq⟩
  | false =>
    obtain ⟨n₁, n₂, heq', hfirst₁, -⟩ := firstMaxByKey_eq_some_iff.mp (hfirst hparent)
    obtain ⟨rfl, -, rfl⟩ := (List.append_cons_inj_of_notMem hbefore hbehind).mp heq'
    exact Or.inl (hfirst₁ t ht)

/-- **The searches agree** exactly when the path lies under no share, or is not empty and one of the
shares it lies under is ahead of the others. -/
theorem sameShare_iff {env : Environment} {raw : NfsKlldapConfig}
    (hvalid : validateAndDerive env raw = .ok c) :
    SameShare c path ↔
      c.shares.filter (underShare path) = [] ∨
        path ≠ [] ∧ ∃ s, Ahead path (c.shares.filter (underShare path)) s := by
  obtain ⟨-, hok, hc⟩ := validateAndDerive_eq_ok_iff.mp hvalid
  have hshares : c.shares = raw.shares.map Share.normalize := by rw [hc]
  -- validation leaves no empty host path and no two shares of one name
  have hhost : ∀ s ∈ c.shares, s.hostPath ≠ [] := by
    intro s hs
    rw [hshares] at hs
    obtain ⟨t, ht, rfl⟩ := List.mem_map.mp hs
    exact (hok.fields t ht).hostPath
  have hnodup : (c.shares.filter (underShare path)).Nodup := by
    refine List.Nodup.filter _ (List.Nodup.of_map Share.name ?_)
    rw [hshares, List.map_map]
    exact hok.names
  -- the empty path lies under every share, but the page's search gives up on it
  by_cases hpath : path = []
  · subst hpath
    rw [SameShare, bestShareFor_nil hhost, diagnosedShare, mappedShare]
    constructor
    · rintro ⟨hdiag, -⟩
      exact Or.inl (maxByKey_eq_none_iff.mp hdiag.symm)
    · rintro (hnil | ⟨hne, -⟩)
      · rw [hnil]
        exact ⟨rfl, fun _ => rfl⟩
      · exact absurd rfl hne
  · rw [SameShare, bestShareFor_eq hhost hpath, diagnosedShare, mappedShare]
    -- from here on only the list of the shares above the path matters
    generalize c.shares.filter (underShare path) = shares at hnodup ⊢
    constructor
    · rintro ⟨hdiag, hmapped⟩
      cases hbest : maxByKey (fun s => osLen s.hostPath) shares with
      | none => exact Or.inl (maxByKey_eq_none_iff.mp hbest)
      | some s =>
        rw [hbest] at hdiag hmapped
        exact Or.inr ⟨hpath, s, ahead_of_chosen hnodup hbest hdiag.symm hmapped⟩
    · rintro (hnil | ⟨-, s, hs⟩)
      · rw [hnil]
        exact ⟨rfl, fun _ => rfl⟩
      · obtain ⟨hbest, hdiag, hmapped⟩ := chosen_of_ahead hs
        rw [hbest, hdiag]
        exact ⟨rfl, hmapped⟩

end Agree

/-! ### Nested shares and equal host paths -/

/-- A share inside another one. -/
def nestedConfig : NfsKlldapConfig :=
  homeConfig [homeShare "a".toList none, { homeShare "b".toList none with
    hostPath := "/srv/a/b".toList }]

/-- For a path under two nested shares both searches choose the same one. -/
theorem sameShare_nested :
    validateAndDerive .ascii nestedConfig = .ok nestedConfig ∧
      SameShare nestedConfig "/srv/a/b/c".toList := by
  have hvalid : (validateAndDerive .ascii nestedConfig).toOption = some nestedConfig := by
    decide +kernel
  refine ⟨toOption_eq_some_iff.mp hvalid, (sameShare_iff (toOption_eq_some_iff.mp hvalid)).mpr ?_⟩
  refine Or.inr ⟨by decide, { homeShare "b".toList none with hostPath := "/srv/a/b".toList },
    [homeShare "a".toList none], [], by decide +kernel, by decide +kernel, by simp⟩

/-- Two shares of one directory; the first one has no ACLs. -/
def tiedConfig : NfsKlldapConfig :=
  homeConfig
    [{ homeShare "a".toList none with enableAcl := some false },
     { homeShare "b".toList none with
       hostPath := "/srv/a".toList
       enableAcl := some true }]

/-- The gate asks about the second share, and the path is mapped into the first one. -/
theorem not_sameShare_tied :
    validateAndDerive .ascii tiedConfig = .ok tiedConfig ∧
      (bestShareFor tiedConfig "/srv/a/x".toList).map Share.name = some "b".toList ∧
      (bestShareFor tiedConfig "/srv/a/x".toList).map Share.enableAcl = some (some true) ∧
      hostPathToContainerPath tiedConfig "/srv/a/x".toList = .ok "/export/a/x".toList ∧
      (mappedShare tiedConfig "/srv/a/x".toList).map Share.enableAcl = some (some false) ∧
      ¬ SameShare tiedConfig "/srv/a/x".toList := by
  have hvalid : (validateAndDerive .ascii tiedConfig).toOption = some tiedConfig := by
    decide +kernel
  have hmap : (hostPathToContainerPath tiedConfig "/srv/a/x".toList).toOption =
      some "/export/a/x".toList := by decide +kernel
  have hbest : (bestShareFor tiedConfig "/srv/a/x".toList).map Share.name = some "b".toList := by
    decide +kernel
  have hmapped : (mappedShare tiedConfig "/srv/a/x".toList).map Share.name = some "a".toList := by
    decide +kernel
  refine ⟨toOption_eq_some_iff.mp hvalid, hbest, by decide +kernel, toOption_eq_some_iff.mp hmap,
    by decide +kernel, fun h => ?_⟩
  rw [← h.2 (by decide), hmapped] at hbest
  exact absurd hbest (by decide)

end NfsKlldap
