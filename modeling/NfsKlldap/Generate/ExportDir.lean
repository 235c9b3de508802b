import NfsKlldap.Generate.Fragments
import NfsKlldap.Config.SharePaths
import NfsKlldap.Lib.OwnedFiles
import NfsKlldap.Lib.Runs
import NfsKlldap.Lib.UnixPath

/-! # The export directory over the runs (`write_export_fragments`, `write_ganesha_main`)

Every run stages the fragments of all shares, writes them, and then removes the fragments of shares
that are gone. The files are numbered from 10 on; the prune recognises two digits and a dash.

* **`writeExportFragments`** — one run on the directory;
* **`Tracks`** — the fragments are those of the config, under the names that the main file includes,
  and nothing else has changed;
* **`Sweepable`** — every fragment that is not of the config has a number of two digits and can be
  removed, and no temporary file lies under the name of a fragment of the config;
* **`exportDir_tracks_iff`** — in every sequence of runs the first holds of the successful ones
  exactly when the second does;
* **`exportDir_tracks_of_few`** — it does as long as no config has more than 90 shares. -/

namespace NfsKlldap

open Text OwnedFiles Runs

/-- The names of a directory, and their texts. -/
abbrev TextDir := Dir Str Str

/-- `tmp_sibling` -/
def tmpSibling (name : Str) : Str := name ++ ".klldap-tmp".toList

/-- What the prune takes for a fragment: `[0-9][0-9]-*.conf`. -/
def isPrunable (name : Str) : Bool :=
  ".conf".toList.isSuffixOf name && 7 ≤ UnixPath.osLen name &&
    match name with
    | a :: b :: c :: _ => a.isDigit && b.isDigit && c = '-'
    | _ => false

/-- The line of the main file that includes a fragment. -/
def includeLine (exportsDir name : Str) : Str :=
  "%include ".toList ++ exportsDir ++ '/' :: (name ++ ['\n'])

/-- The `%include` lines of `write_ganesha_main`. -/
def includeLines (t : CharTable) (exportsDir : Str) (cfg : NfsKlldapConfig) : List Str :=
  cfg.shares.mapIdx fun i s => includeLine exportsDir (fragmentBasename t i s.name)

/-- A run: the config it is given, what it sees of the mounts, and what goes wrong. -/
structure FragmentsRun where
  cfg : NfsKlldapConfig
  view : MountView
  /-- Whether the directory is there or can be created. -/
  created : Bool
  faults : Faults Str Str

/-- `write_export_fragments` -/
def writeExportFragments (t : CharTable) (r : FragmentsRun) (d : TextDir) :
    Except GenerateError Unit × TextDir :=
  match stageFragments t r.view r.cfg 0 r.cfg.shares with
  | .error e => (.error e, d)
  | .ok staged =>
    if !r.created then (.error .io, d)
    else
      -- nothing follows a write but the next one
      let (ok, d') :=
        sync tmpSibling isPrunable { r.faults with finish := fun _ => true } staged d
      (if ok then .ok () else .error .io, d')

/-! ## Names of fragments -/

/-- The names that follow the naming rule of fragments: a number of at least two digits, a dash, and
`.conf` at the end. -/
def isFragmentName (name : Str) : Bool :=
  2 ≤ (name.takeWhile Char.isDigit).length && (name.dropWhile Char.isDigit).head? = some '-' &&
    ".conf".toList.isSuffixOf name

/-- From ten on a number needs no zero in front. -/
theorem twoDigits_of_le {n : Nat} (h : 10 ≤ n) : twoDigits n = natDecimal n :=
  if_neg (by omega)

/-- The digits in front of the dash are the number. -/
theorem takeWhile_isDigit_natDecimal (n : Nat) (rest : Str) :
    (natDecimal n ++ '-' :: rest).takeWhile Char.isDigit = natDecimal n ∧
      (natDecimal n ++ '-' :: rest).dropWhile Char.isDigit = '-' :: rest := by
  have hdigits : ∀ c ∈ natDecimal n, c.isDigit = true := fun _ => isDigit_of_mem_natDecimal
  have hdash : Char.isDigit '-' = false := by decide
  constructor
  · rw [List.takeWhile_append_of_pos hdigits, List.takeWhile_cons_of_neg (by simp [hdash]),
      List.append_nil]
  · rw [List.dropWhile_append_of_pos hdigits, List.dropWhile_cons_of_neg (by simp [hdash])]

/-- The name of a fragment starts with the position of its share, counted from ten. -/
theorem fragmentBasename_eq (t : CharTable) (i : Nat) (name : Str) : fragmentBasename t i name =
    natDecimal (i + 10) ++ '-' :: (sanitizeName t name ++ ".conf".toList) := by
  rw [fragmentBasename, twoDigits_of_le (by omega)]

/-- The number of a fragment. -/
theorem takeWhile_fragmentBasename (t : CharTable) (i : Nat) (name : Str) :
    (fragmentBasename t i name).takeWhile Char.isDigit = natDecimal (i + 10) := by
  rw [fragmentBasename_eq, (takeWhile_isDigit_natDecimal _ _).1]

/-- From ten on a number has two digits or more. -/
theorem two_le_length_natDecimal {n : Nat} (h : 10 ≤ n) : 2 ≤ (natDecimal n).length := by
  by_contra hlt
  have hle : (natDecimal n).length ≤ 1 := by omega
  have := (Nat.length_toDigits_le_iff (by decide) (by decide)).mp hle
  omega

/-- The numbers of two digits. -/
theorem length_natDecimal_eq_two_iff {n : Nat} (h : 10 ≤ n) :
    (natDecimal n).length = 2 ↔ n < 100 := by
  have hle : (natDecimal n).length ≤ 2 ↔ n < 10 ^ 2 :=
    Nat.length_toDigits_le_iff (by decide) (by decide)
  have := two_le_length_natDecimal h
  omega

/-- Fragments are named by the rule. -/
theorem isFragmentName_fragmentBasename (t : CharTable) (i : Nat) (name : Str) :
    isFragmentName (fragmentBasename t i name) = true := by
  have hnumber := takeWhile_isDigit_natDecimal (i + 10) (sanitizeName t name ++ ".conf".toList)
  rw [isFragmentName, fragmentBasename_eq, hnumber.1, hnumber.2]
  have hsuffix : ".conf".toList.isSuffixOf
      (natDecimal (i + 10) ++ '-' :: (sanitizeName t name ++ ".conf".toList)) = true := by
    rw [List.isSuffixOf_iff_suffix]
    exact ⟨natDecimal (i + 10) ++ '-' :: sanitizeName t name, by simp⟩
  rw [hsuffix, decide_eq_true (two_le_length_natDecimal (by omega))]
  rfl

/-- Fragments of different positions have different names. -/
theorem fragmentBasename_injective {t : CharTable} {i j : Nat} {a b : Str}
    (h : fragmentBasename t i a = fragmentBasename t j b) : i = j := by
  have hnumber := congrArg (List.takeWhile Char.isDigit) h
  rw [takeWhile_fragmentBasename, takeWhile_fragmentBasename] at hnumber
  have := natDecimal_injective hnumber
  omega

/-- **What the prune recognises**: the fragments with a number of two digits. -/
theorem isPrunable_iff {name : Str} : isPrunable name = true ↔
    isFragmentName name = true ∧ (name.takeWhile Char.isDigit).length = 2 := by
  have hdash : Char.isDigit '-' = false := by decide
  constructor
  · intro h
    unfold isPrunable at h
    rw [Bool.and_eq_true, Bool.and_eq_true] at h
    obtain ⟨⟨hsuffix, -⟩, hshape⟩ := h
    split at hshape
    · next a b c rest =>
      simp only [Bool.and_eq_true, decide_eq_true_eq] at hshape
      obtain ⟨⟨ha, hb⟩, rfl⟩ := hshape
      rw [isFragmentName, hsuffix]
      simp [ha, hb, hdash]
    · exact absurd hshape Bool.false_ne_true
  · rintro ⟨h, hlen⟩
    simp only [isFragmentName, Bool.and_eq_true, decide_eq_true_eq] at h
    obtain ⟨⟨-, hhead⟩, hsuffix⟩ := h
    obtain ⟨a, b, hab⟩ := List.length_eq_two.mp hlen
    obtain ⟨rest, hrest⟩ : ∃ rest, name.dropWhile Char.isDigit = '-' :: rest :=
      List.head?_eq_some_iff.mp hhead
    have hname : name = a :: b :: '-' :: rest := by
      rw [← List.takeWhile_append_dropWhile (p := Char.isDigit) (l := name), hab, hrest]
      rfl
    have hdigits : ∀ c ∈ name.takeWhile Char.isDigit, c.isDigit = true := fun c hc =>
      List.mem_takeWhile_imp hc
    have ha : a.isDigit = true := hdigits a (by simp [hab])
    have hb : b.isDigit = true := hdigits b (by simp [hab])
    have hdot : Char.isDigit '.' = false := by decide
    -- the suffix starts behind the dash
    have hbehind : ".conf".toList <:+ rest := by
      have hsuf := List.isSuffixOf_iff_suffix.mp hsuffix
      rw [hname, List.suffix_cons_iff, List.suffix_cons_iff, List.suffix_cons_iff] at hsuf
      rcases hsuf with heq | heq | heq | hsuf
      · have hfirst : '.' = a := (List.cons.inj heq).1
        rw [← hfirst, hdot] at ha
        exact absurd ha Bool.false_ne_true
      · have hfirst : '.' = b := (List.cons.inj heq).1
        rw [← hfirst, hdot] at hb
        exact absurd hb Bool.false_ne_true
      · exact absurd (List.cons.inj heq).1 (by decide)
      · exact hsuf
    have hlong : 7 ≤ UnixPath.osLen name := by
      have hsize := List.length_le_sum_of_one_le (name.map Char.utf8Size) fun n hn => by
        obtain ⟨c, -, rfl⟩ := List.mem_map.mp hn
        exact c.utf8Size_pos
      have hrest : 5 ≤ rest.length := hbehind.length_le
      rw [List.length_map, hname, List.length_cons, List.length_cons, List.length_cons] at hsize
      rw [UnixPath.osLen, hname]
      omega
    unfold isPrunable
    rw [hsuffix, decide_eq_true hlong, hname]
    simp [ha, hb]

/-- Files that end like temporary siblings do not end otherwise. -/
theorem not_isSuffixOf_tmpSibling {w : Str} (hw : w ≠ []) (hlast : w.getLast? ≠ some 'p')
    (name : Str) : w.isSuffixOf (tmpSibling name) = false := by
  rw [Bool.eq_false_iff]
  intro h
  obtain ⟨u, hu⟩ := List.isSuffixOf_iff_suffix.mp h
  have heq : (u ++ w).getLast? = (name ++ ".klldap-tmp".toList).getLast? :=
    congrArg List.getLast? hu
  rw [List.getLast?_append_of_ne_nil _ hw, List.getLast?_append_of_ne_nil _ (by decide)] at heq
  exact hlast heq

/-- A temporary sibling is no fragment. -/
theorem not_isFragmentName_tmpSibling (name : Str) : isFragmentName (tmpSibling name) = false := by
  rw [isFragmentName, not_isSuffixOf_tmpSibling (by decide) (by decide), Bool.and_false]

/-! ## One run -/

section Run

variable {t : CharTable} {r : FragmentsRun} {d : TextDir}

/-- The names of the fragments of a config. -/
def fragmentNames (t : CharTable) (cfg : NfsKlldapConfig) : List Str :=
  cfg.shares.mapIdx fun i s => fragmentBasename t i s.name

/-- The files a run stages. -/
def fragmentFiles (t : CharTable) (v : MountView) (cfg : NfsKlldapConfig) : List (Str × Str) :=
  cfg.shares.mapIdx fun i s => (fragmentBasename t i s.name, fragmentText v cfg i s)

/-- The files of a run have the names of its fragments. -/
theorem map_fst_fragmentFiles (t : CharTable) (v : MountView) (cfg : NfsKlldapConfig) :
    (fragmentFiles t v cfg).map Prod.fst = fragmentNames t cfg := by
  rw [fragmentFiles, fragmentNames, List.mapIdx_eq_zipIdx_map, List.mapIdx_eq_zipIdx_map,
    List.map_map]
  rfl

/-- The fragments are those of the shares, each at its position. -/
theorem mem_fragmentNames {t : CharTable} {cfg : NfsKlldapConfig} {name : Str} :
    name ∈ fragmentNames t cfg ↔
      ∃ i s, cfg.shares[i]? = some s ∧ fragmentBasename t i s.name = name := by
  rw [fragmentNames, List.mem_iff_getElem?]
  simp only [List.getElem?_mapIdx, Option.map_eq_some_iff]

/-- No two fragments of a run have the same name. -/
theorem nodup_fragmentNames (t : CharTable) (cfg : NfsKlldapConfig) :
    (fragmentNames t cfg).Nodup := by
  rw [List.nodup_iff_getElem?_ne_getElem?]
  intro i j hij hj heq
  rw [fragmentNames, List.length_mapIdx] at hj
  rw [fragmentNames, List.getElem?_mapIdx, List.getElem?_mapIdx,
    List.getElem?_eq_getElem (hij.trans hj), List.getElem?_eq_getElem hj] at heq
  have := fragmentBasename_injective (Option.some.inj heq)
  omega

/-- What a run that succeeds has staged. -/
theorem writeExportFragments_eq_ok (h : (writeExportFragments t r d).1 = .ok ()) :
    (∀ s ∈ r.cfg.shares, refusal r.view s = none) ∧
    (sync tmpSibling isPrunable { r.faults with finish := fun _ => true }
        (fragmentFiles t r.view r.cfg) d).1 = true ∧
      (writeExportFragments t r d).2 =
        (sync tmpSibling isPrunable { r.faults with finish := fun _ => true }
          (fragmentFiles t r.view r.cfg) d).2 := by
  unfold writeExportFragments at h ⊢
  cases hs : stageFragments t r.view r.cfg 0 r.cfg.shares with
  | error e => simp [hs] at h
  | ok staged =>
    obtain ⟨hrefuse, hstaged⟩ := stageFragments_eq_ok_iff.mp hs
    simp only [Nat.zero_add] at hstaged
    rw [hs] at h
    subst hstaged
    cases hc : r.created with
    | false => simp [hc] at h
    | true =>
      simp only [hc, Bool.not_true, Bool.false_eq_true, if_false] at h ⊢
      refine ⟨hrefuse, ?_, rfl⟩
      by_contra hfail
      rw [← fragmentFiles, if_neg hfail] at h
      exact absurd h (by simp)

/-- **A refused run leaves the directory alone.** -/
theorem writeExportFragments_refused {msg : Str}
    (h : (writeExportFragments t r d).1 = .error (.generation msg)) :
    (writeExportFragments t r d).2 = d := by
  unfold writeExportFragments at h ⊢
  cases hs : stageFragments t r.view r.cfg 0 r.cfg.shares with
  | error e => rfl
  | ok staged =>
    rw [hs] at h
    dsimp only at h
    split at h
    · simp at h
    · dsimp only at h
      split at h <;> simp at h

/-- **The directory holds the export fragments of a config**, under the names of the `%include`
lines, and besides them it holds what it held before. -/
structure Tracks (t : CharTable) (v : MountView) (cfg : NfsKlldapConfig) (d d' : TextDir) : Prop where
  /-- The fragments of the shares have names of their own. -/
  names : (fragmentNames t cfg).Nodup
  texts : ∀ i s, cfg.shares[i]? = some s →
    d' (fragmentBasename t i s.name) = some (fragmentText v cfg i s)
  included : ∀ exportsDir name, isFragmentName name = true →
    (d' name ≠ none ↔ includeLine exportsDir name ∈ includeLines t exportsDir cfg)
  others : ∀ name, isFragmentName name = false → d' name = d name

/-- What a run can clean up: the fragments of other shares have a number of two digits and can be
removed, and nothing lies under a temporary name. -/
structure Sweepable (t : CharTable) (r : FragmentsRun) (d : TextDir) : Prop where
  stale : ∀ name, isFragmentName name = true → name ∉ fragmentNames t r.cfg → d name ≠ none →
    (name.takeWhile Char.isDigit).length = 2 ∧ r.faults.removable name = true
  temps : ∀ name ∈ fragmentNames t r.cfg, d (tmpSibling name) = none

/-- Exactly the fragments of the run are included. -/
theorem includeLine_mem_includeLines {exportsDir name : Str} {cfg : NfsKlldapConfig} :
    includeLine exportsDir name ∈ includeLines t exportsDir cfg ↔ name ∈ fragmentNames t cfg := by
  have hinj : ∀ a b : Str, includeLine exportsDir a = includeLine exportsDir b → a = b := by
    intro a b h
    have hname : '/' :: (a ++ ['\n']) = '/' :: (b ++ ['\n']) :=
      @List.append_cancel_left _ ("%include ".toList ++ exportsDir) _ _ h
    exact List.append_cancel_right (List.cons.inj hname).2
  have hlines : includeLines t exportsDir cfg =
      (fragmentNames t cfg).map (includeLine exportsDir) := by
    rw [includeLines, fragmentNames, List.mapIdx_eq_zipIdx_map, List.mapIdx_eq_zipIdx_map,
      List.map_map]
    rfl
  rw [hlines, List.mem_map]
  exact ⟨fun ⟨a, ha, h⟩ => hinj a name h ▸ ha, fun h => ⟨name, h, rfl⟩⟩

/-- **A successful run tracks the config** exactly when it can clean up. -/
theorem tracks_iff (h : (writeExportFragments t r d).1 = .ok ()) :
    Tracks t r.view r.cfg d (writeExportFragments t r d).2 ↔ Sweepable t r d := by
  obtain ⟨-, hok, heq⟩ := writeExportFragments_eq_ok h
  have hnames := map_fst_fragmentFiles t r.view r.cfg
  have hfragment : ∀ name ∈ fragmentNames t r.cfg, isFragmentName name = true := by
    intro name hname
    obtain ⟨i, s, -, rfl⟩ := mem_fragmentNames.mp hname
    exact isFragmentName_fragmentBasename t i s.name
  have hapart : Apart tmpSibling ((fragmentFiles t r.view r.cfg).map Prod.fst) := by
    intro a ha b hb hab
    rw [hnames] at hb
    have hb' := hfragment b hb
    rw [← hab, not_isFragmentName_tmpSibling] at hb'
    exact absurd hb' Bool.false_ne_true
  have hexact := sync_exact_iff (fun name => isFragmentName name = true) hapart
    (by rw [hnames]; exact hfragment)
    (fun a _ => by rw [not_isFragmentName_tmpSibling]; exact Bool.false_ne_true)
    (fun a ha => (isPrunable_iff.mp ha).1) hok
  rw [← heq, hnames] at hexact
  -- what lies under a fragment name
  have hlatest : ∀ i s, r.cfg.shares[i]? = some s →
      latest (fragmentFiles t r.view r.cfg) (fragmentBasename t i s.name) =
        some (fragmentText r.view r.cfg i s) := by
    intro i s hs
    have hmem : (fragmentBasename t i s.name, fragmentText r.view r.cfg i s) ∈
        fragmentFiles t r.view r.cfg := by
      rw [fragmentFiles, List.mem_iff_getElem?]
      exact ⟨i, by rw [List.getElem?_mapIdx, hs, Option.map_some]⟩
    exact latest_eq_some (by rw [hnames]; exact nodup_fragmentNames t r.cfg) hmem
  have hin : ∀ name, latest (fragmentFiles t r.view r.cfg) name ≠ none ↔
      name ∈ fragmentNames t r.cfg := by
    intro name
    rw [← hnames, ne_eq, latest_eq_none_iff, not_not]
  constructor
  · rintro ⟨-, htexts, hincluded, hothers⟩
    have hfiles : ∀ name, isFragmentName name = true →
        (writeExportFragments t r d).2 name = latest (fragmentFiles t r.view r.cfg) name := by
      intro name hk
      by_cases hname : name ∈ fragmentNames t r.cfg
      · obtain ⟨i, s, hs, rfl⟩ := mem_fragmentNames.mp hname
        rw [htexts i s hs, hlatest i s hs]
      · have hgone := not_iff_not.mpr ((hincluded [] name hk).trans includeLine_mem_includeLines)
        rw [not_not] at hgone
        rw [hgone.mpr hname]
        exact (not_not.mp (mt (hin name).mp hname)).symm
    obtain ⟨hstale, htemps⟩ := hexact.mp ⟨hfiles, fun name hk => hothers name (by simpa using hk)⟩
    exact ⟨fun name hk hnot hd => ⟨(isPrunable_iff.mp (hstale name hk hnot hd).1).2,
      (hstale name hk hnot hd).2⟩, htemps⟩
  · rintro ⟨hstale, htemps⟩
    obtain ⟨hfiles, hothers⟩ := hexact.mpr ⟨fun name hk hnot hd =>
      ⟨isPrunable_iff.mpr ⟨hk, (hstale name hk hnot hd).1⟩, (hstale name hk hnot hd).2⟩, htemps⟩
    refine ⟨nodup_fragmentNames t r.cfg, fun i s hs => ?_, fun exportsDir name hk => ?_,
      fun name hk => hothers name (by simp [hk])⟩
    · rw [hfiles _ (isFragmentName_fragmentBasename t i s.name), hlatest i s hs]
    · rw [hfiles name hk, hin, includeLine_mem_includeLines]

end Run

/-! ## Sequences of runs -/

section Runs

variable {t : CharTable}

/-- The directory after a run. -/
def afterRun (t : CharTable) (d : TextDir) (r : FragmentsRun) : TextDir :=
  (writeExportFragments t r d).2

/-- **The export directory over a sequence of runs**: every successful run leaves the fragments of
its config, under the included names, and touches no other file, exactly when every successful run
finds what it can clean up; and a refused run changes nothing. -/
theorem exportDir_tracks_iff (t : CharTable) (d : TextDir) (runs : List FragmentsRun) :
    EveryStep (afterRun t) (fun d r =>
        ((writeExportFragments t r d).1 = .ok () →
          Tracks t r.view r.cfg d (writeExportFragments t r d).2) ∧
        ∀ msg, (writeExportFragments t r d).1 = .error (.generation msg) →
          (writeExportFragments t r d).2 = d) d runs ↔
      EveryStep (afterRun t) (fun d r =>
        (writeExportFragments t r d).1 = .ok () → Sweepable t r d) d runs := by
  apply everyStep_congr
  intro d r
  constructor
  · exact fun h hok => (tracks_iff hok).mp (h.1 hok)
  · exact fun h => ⟨fun hok => (tracks_iff hok).mpr (h hok), fun msg => writeExportFragments_refused⟩

/-- The fragments of a directory have numbers of two digits, and no temporary siblings. -/
structure ShortNumbers (d : TextDir) : Prop where
  digits : ∀ name, isFragmentName name = true → d name ≠ none →
    (name.takeWhile Char.isDigit).length = 2
  temps : ∀ name, isFragmentName name = true → d (tmpSibling name) = none

/-- A run with at most 90 shares in which stale files can be removed and failed writes are cleaned
up. -/
structure FragmentsRun.Mild (r : FragmentsRun) : Prop where
  few : r.cfg.shares.length ≤ 90
  removable : ∀ name, r.faults.removable name = true
  clean : ∀ i left, r.faults.write i = .broken left → left = none

/-- Such a run keeps the numbers short. -/
theorem ShortNumbers.afterRun {d : TextDir} {r : FragmentsRun} (h : ShortNumbers d)
    (hr : r.Mild) : ShortNumbers (afterRun t d r) := by
  rw [NfsKlldap.afterRun, writeExportFragments]
  cases hs : stageFragments t r.view r.cfg 0 r.cfg.shares with
  | error e => exact h
  | ok staged =>
    dsimp only
    split
    · exact h
    -- the rule for a run: a write keeps it, and so does the prune
    refine sync_induction ShortNumbers ?_ ?_ h
    · intro i p hp d hd
      -- with at most ninety shares every number has two digits
      have hname : isFragmentName p.1 = true ∧ (p.1.takeWhile Char.isDigit).length = 2 := by
        obtain ⟨-, rfl⟩ := stageFragments_eq_ok_iff.mp hs
        obtain ⟨j, hj, rfl⟩ := List.mem_mapIdx.mp hp
        refine ⟨isFragmentName_fragmentBasename t _ _, ?_⟩
        rw [takeWhile_fragmentBasename, length_natDecimal_eq_two_iff (by omega)]
        have := hr.few
        omega
      -- a fragment's name is nobody's temporary name, and the other way round
      have htemp : ∀ name, isFragmentName name = true → tmpSibling name ≠ p.1 := by
        intro name _ heq
        have hfalse := not_isFragmentName_tmpSibling name
        rw [heq, hname.1] at hfalse
        exact absurd hfalse.symm Bool.false_ne_true
      have hnot : ∀ name, isFragmentName name = true → name ≠ tmpSibling p.1 := by
        rintro name hk rfl
        rw [not_isFragmentName_tmpSibling] at hk
        exact absurd hk Bool.false_ne_true
      have hclean : ShortNumbers (Function.update d (tmpSibling p.1) none) := by
        refine ⟨fun name hk hsome => ?_, fun name hk => ?_⟩
        · rw [Function.update_of_ne (hnot name hk)] at hsome
          exact hd.digits name hk hsome
        · rw [Function.update_apply]
          split
          · rfl
          · exact hd.temps name hk
      -- by how the write ends: before, in the midst of, or behind the temporary file
      cases hw : r.faults.write i with
      | unopened => simpa only [atomicWrite, hw] using hd
      | broken left =>
        obtain rfl := hr.clean i left hw
        simpa only [atomicWrite, hw] using hclean
      | written =>
        refine ⟨fun name hk hsome => ?_, fun name hk => ?_⟩
        · by_cases heq : name = p.1
          · exact heq ▸ hname.2
          · simp only [atomicWrite, Function.update_of_ne heq] at hsome
            exact hclean.digits name hk hsome
        · simp only [atomicWrite, Function.update_of_ne (htemp name hk)]
          exact hclean.temps name hk
    -- a prune adds no file
    · intro written d hd
      refine ⟨fun name hk hsome => hd.digits name hk fun hnone => hsome ?_, fun name hk => ?_⟩
      · rw [prune_apply, hnone, ite_self]
      · rw [prune_apply, hd.temps name hk, ite_self]

/-- **With few shares the directory tracks the config** over every sequence of runs. -/
theorem exportDir_tracks_of_few {d : TextDir} {runs : List FragmentsRun} (hd : ShortNumbers d)
    (hruns : ∀ r ∈ runs, r.Mild) :
    EveryStep (afterRun t) (fun d r => (writeExportFragments t r d).1 = .ok () →
      Tracks t r.view r.cfg d (writeExportFragments t r d).2) d runs := by
  refine everyStep_of_invariant ShortNumbers (fun d r hr h => ⟨fun hok => ?_, ?_⟩) hd
  · refine (tracks_iff hok).mpr ⟨fun name hk _ hsome => ⟨h.digits name hk hsome,
      (hruns r hr).removable name⟩, fun name hname => h.temps name ?_⟩
    obtain ⟨i, s, -, rfl⟩ := mem_fragmentNames.mp hname
    exact isFragmentName_fragmentBasename t i s.name
  · exact h.afterRun (hruns r hr)

end Runs

/-! ## A share that goes -/

/-- A share with a number. -/
def numberedShare (n : Nat) : Share where
  name := 's' :: natDecimal n
  hostPath := "/srv".toList
  pseudoPath := some ("/s".toList ++ natDecimal n)
  containerPath := "/export/s".toList ++ natDecimal n

/-- A config with `k` shares. -/
def numberedConfig (k : Nat) : NfsKlldapConfig := labConfig ((List.range k).map numberedShare)

/-- A run in which nothing goes wrong. -/
def numberedRun (k : Nat) : FragmentsRun where
  cfg := numberedConfig k
  view := ⟨none, fun _ => .inconclusive⟩
  created := true
  faults := .none

/-- A run with any number of plain shares succeeds. -/
theorem writeExportFragments_numberedRun (k : Nat) (d : TextDir) :
    (writeExportFragments .plain (numberedRun k) d).1 = .ok () := by
  have hrefuse : ∀ s ∈ (numberedRun k).cfg.shares, refusal (numberedRun k).view s = none := by
    intro s hs
    obtain ⟨n, -, rfl⟩ := List.mem_map.mp hs
    delta refusal
    rw [if_neg fun h => absurd h.1 (by simp [numberedShare]), if_neg (by simp [numberedShare])]
  rw [writeExportFragments, stageFragments_eq_ok_iff.mpr ⟨hrefuse, rfl⟩]
  change (if (sync tmpSibling isPrunable Faults.none _ d).1 = true then _ else _) = _
  exact if_pos (sync_none_ok _ d)

/-- A directory in which the 91st share was once written. -/
theorem not_exportDir_tracks_shrunk :
    validateAndDerive .ascii (numberedConfig 91) = .ok (numberedConfig 91) ∧
    validateAndDerive .ascii (numberedConfig 1) = .ok (numberedConfig 1) ∧
    ¬ EveryStep (afterRun .plain) (fun d r =>
        ((writeExportFragments .plain r d).1 = .ok () →
          Tracks .plain r.view r.cfg d (writeExportFragments .plain r d).2) ∧
        ∀ msg, (writeExportFragments .plain r d).1 = .error (.generation msg) →
          (writeExportFragments .plain r d).2 = d)
      (fun _ => none) [numberedRun 91, numberedRun 1] := by
  have hmany : (validateAndDerive .ascii (numberedConfig 91)).toOption =
      some (numberedConfig 91) := by decide +kernel
  have hone : (validateAndDerive .ascii (numberedConfig 1)).toOption =
      some (numberedConfig 1) := by decide +kernel
  refine ⟨toOption_eq_some_iff.mp hmany, toOption_eq_some_iff.mp hone, ?_⟩
  rintro ⟨⟨hfirst, -⟩, ⟨hsecond, -⟩, -⟩
  -- the fragment of the last share is written
  have hwritten := (hfirst (writeExportFragments_numberedRun 91 _)).texts 90 (numberedShare 90) rfl
  have hsweep := (tracks_iff (writeExportFragments_numberedRun 1 _)).mp
    (hsecond (writeExportFragments_numberedRun 1 _))
  -- and the next run cannot clean it up
  have hgone : fragmentBasename .plain 90 (numberedShare 90).name ∉
      fragmentNames .plain (numberedConfig 1) := by
    rw [mem_fragmentNames]
    rintro ⟨i, s, hs, heq⟩
    obtain rfl := fragmentBasename_injective heq
    have hnone : (numberedConfig 1).shares[90]? = none := rfl
    exact absurd (hnone.symm.trans hs) (by simp)
  have htwo := (hsweep.stale _ (isFragmentName_fragmentBasename .plain 90 _) hgone
    (by rw [afterRun, hwritten]; exact Option.some_ne_none _)).1
  rw [takeWhile_fragmentBasename, length_natDecimal_eq_two_iff (by decide)] at htwo
  exact absurd htwo (by decide)

end NfsKlldap
