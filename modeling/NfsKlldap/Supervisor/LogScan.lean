import NfsKlldap.Lib.Bytes

/-! # The log scans of the readiness check (`ganesha_readiness.rs`)

The check takes the length of the log, makes Ganesha look its principals up, and scans what was written
behind that position for the signatures of a failure. Meanwhile the log grows, and it may be rotated:
copied and truncated in place.

* **`scanLog`** — a scan, of which there are two;
* **`runLog`** — what becomes of the log, and `written` what was written into it;
* **`Scannable`** — what was written can be read back;
* **`logScans_exact_iff`** — then and only then the scans report exactly what was written. -/

namespace NfsKlldap

open Bytes

/-! ## The scans -/

/-- What makes a line a warning: of each group of words it has one, in any case. -/
abbrev LogPattern := List (List Bytes)

/-- The line matches the pattern, in one of its two forms. -/
def LogPattern.matchesLine (p : LogPattern) (ln : Bytes) : Bool :=
  p.all fun words => words.any fun w => w <:+: toAsciiLowercase ln

/-- `getgrouplist` fails. -/
def getgrouplistWarn : LogPattern :=
  [[ofAscii "my_getgrouplist_alloc"], [ofAscii "warn", ofAscii "failed, errno"]]

/-- A request for managed groups fails. -/
def managedGidsFailure : LogPattern :=
  [[ofAscii "attempt to fetch managed"], [ofAscii "failed"]]

/-- Some line of a text is a warning. -/
def hasMatch (p : LogPattern) (text : Bytes) : Bool := (lines text).any p.matchesLine

/-- `read_to_string`: the file is there, and it is a text. -/
def readToString (file : Option Bytes) : Option Bytes := file.filter fun log => validUtf8 log

/-- A scan of the log from an offset on; there is none when the scan panics. A log that is shorter than
the offset is scanned whole. -/
def scanLog (p : LogPattern) (file : Option Bytes) (fromOffset : ℕ) : Option Bool :=
  match readToString file with
  | none => some false
  | some content =>
    let tail :=
      if 0 < fromOffset ∧ fromOffset ≤ content.length then sliceFrom content fromOffset
      else some content
    tail.map (hasMatch p)

/-- `ganesha_log_has_getgrouplist_warn` -/
def ganeshaLogHasGetgrouplistWarn : Option Bytes → ℕ → Option Bool := scanLog getgrouplistWarn

/-- `ganesha_log_has_managed_gids_failure` -/
def ganeshaLogHasManagedGidsFailure : Option Bytes → ℕ → Option Bool := scanLog managedGidsFailure

/-- The verdict of `exercise_ganesha_uid2grp` on the log before and after the lookups: clean or not. -/
def exerciseGaneshaUid2grp (before after : Option Bytes) : Option (Bool × String) := do
  let logOffset := (before.map List.length).getD 0
  let warn ← ganeshaLogHasGetgrouplistWarn after logOffset
  let hasWarn ← if warn then some true else ganeshaLogHasManagedGidsFailure after logOffset
  return (!hasWarn, if hasWarn then "ganesha-uid2grp-exercise:warn-seen"
    else "ganesha-uid2grp-exercise:clean")

/-! ## What becomes of the log -/

/-- What happens to the log: the daemon appends to it, and the supervisor looks at its size. -/
inductive LogEvent where
  | append (text : Bytes)
  | rotate (capBytes : ℕ)

/-- `rotate_if_oversized` truncates the log in place. -/
def LogEvent.apply (log : Bytes) : LogEvent → Bytes
  | .append text => log ++ text
  | .rotate capBytes => if capBytes = 0 ∨ log.length ≤ capBytes then log else []

/-- The log after a list of events. -/
def runLog (log : Bytes) (evs : List LogEvent) : Bytes := evs.foldl LogEvent.apply log

/-- What was written, rotated away or not. -/
def written (evs : List LogEvent) : Bytes :=
  evs.flatMap fun
    | .append text => text
    | .rotate _ => []

/-- The log is what was there and what was written, or it was truncated and the end of that. -/
theorem runLog_cases (log : Bytes) (evs : List LogEvent) :
    runLog log evs = log ++ written evs ∨ runLog log evs <:+ written evs := by
  induction evs generalizing log with
  | nil => exact .inl (List.append_nil log).symm
  | cons ev evs ih =>
    cases ev with
    | append text =>
      rcases ih (log ++ text) with hall | hend
      · refine .inl ?_
        rw [runLog, List.foldl_cons]
        exact hall.trans (List.append_assoc _ _ _)
      · exact .inr (hend.trans (List.suffix_append text _))
    | rotate capBytes =>
      by_cases hkept : capBytes = 0 ∨ log.length ≤ capBytes
      · have hrun : runLog log (.rotate capBytes :: evs) = runLog log evs := by
          rw [runLog, List.foldl_cons, LogEvent.apply, if_pos hkept, runLog]
        rw [hrun]
        exact ih log
      · have hrun : runLog log (.rotate capBytes :: evs) = runLog [] evs := by
          rw [runLog, List.foldl_cons, LogEvent.apply, if_neg hkept, runLog]
        rw [hrun]
        rcases ih [] with hall | hend
        · exact .inr (by rw [hall]; exact List.suffix_rfl)
        · exact .inr hend

/-- The part of a log behind an offset, or all of it when it is shorter. -/
def scannedPart (log : Bytes) (offset : ℕ) : Bytes :=
  if 0 < offset ∧ offset ≤ log.length then log.drop offset else log

/-- What is scanned was written behind the offset. -/
theorem scannedPart_suffix (old : Bytes) (evs : List LogEvent) :
    scannedPart (runLog old evs) old.length <:+ written evs := by
  rw [scannedPart]
  rcases runLog_cases old evs with hall | hend
  · rw [hall]
    split
    · rw [List.drop_left]
    · next hzero =>
      have hold : old = [] := by
        by_contra hne
        exact hzero ⟨List.length_pos_of_ne_nil hne, by simp⟩
      rw [hold]
      exact List.suffix_rfl
  · split
    · exact (List.drop_suffix _ _).trans hend
    · exact hend

/-- A log that was not truncated is scanned from the offset on. -/
theorem scannedPart_of_append {old : Bytes} {evs : List LogEvent}
    (h : runLog old evs = old ++ written evs) :
    scannedPart (runLog old evs) old.length = written evs := by
  rw [scannedPart, h]
  split
  · exact List.drop_left
  · next hzero =>
    have hold : old = [] := by
      by_contra hne
      exact hzero ⟨List.length_pos_of_ne_nil hne, by simp⟩
    rw [hold]
    rfl

/-- What is a warning stays one in a longer line. -/
theorem LogPattern.matchesLine_of_infix {p : LogPattern} {l l' : Bytes} (h : l <:+: l')
    (hl : p.matchesLine l = true) : p.matchesLine l' = true := by
  simp only [matchesLine, List.all_eq_true, List.any_eq_true, decide_eq_true_eq] at hl ⊢
  intro words hwords
  obtain ⟨w, hw, hinfix⟩ := hl words hwords
  exact ⟨w, hw, hinfix.trans (h.map _)⟩

/-- A match in a suffix of the log is a match in the log. -/
theorem hasMatch_of_suffix {p : LogPattern} {s t : Bytes} (h : t <:+ s)
    (ht : hasMatch p t = true) : hasMatch p s = true := by
  rw [hasMatch, List.any_eq_true] at ht ⊢
  obtain ⟨l, hl, hmatch⟩ := ht
  obtain ⟨l', hl', hinfix⟩ := exists_line_of_suffix h hl
  exact ⟨l', hl', LogPattern.matchesLine_of_infix hinfix hmatch⟩

/-! ## What is reported -/

/-- **What was written can be read back**: the log is a text, and the offset does not lie inside a
character; the warnings that were written stand, one of them at least, in the part that is scanned. A log
that is no text holds no warning. -/
structure Scannable (p : LogPattern) (old : Bytes) (evs : List LogEvent) : Prop where
  text : validUtf8 (runLog old evs) = false → hasMatch p (written evs) = false
  boundary : validUtf8 (runLog old evs) = true → 0 < old.length →
    old.length ≤ (runLog old evs).length → isCharBoundary (runLog old evs) old.length = true
  kept : validUtf8 (runLog old evs) = true → hasMatch p (written evs) = true →
    hasMatch p (scannedPart (runLog old evs) old.length) = true

/-- A scan of a text whose offset is no position inside a character. -/
theorem scanLog_of_text {p : LogPattern} {log : Bytes} {offset : ℕ} (htext : validUtf8 log = true) :
    scanLog p (some log) offset =
      if 0 < offset ∧ offset ≤ log.length ∧ isCharBoundary log offset = false then none
      else some (hasMatch p (scannedPart log offset)) := by
  have hread : readToString (some log) = some log := by
    rw [readToString, Option.filter_some, if_pos htext]
  rw [scanLog, hread, scannedPart]
  dsimp only
  by_cases hinside : 0 < offset ∧ offset ≤ log.length
  · rw [if_pos hinside, if_pos hinside, sliceFrom]
    cases isCharBoundary log offset <;> simp [hinside]
  · rw [if_neg hinside, if_neg hinside, if_neg fun h => hinside ⟨h.1, h.2.1⟩]
    rfl

/-- A log that is no text has no warnings. -/
theorem scanLog_of_not_text {p : LogPattern} {log : Bytes} (offset : ℕ)
    (htext : validUtf8 log = false) : scanLog p (some log) offset = some false := by
  have hread : readToString (some log) = none := by
    rw [readToString, Option.filter_some, if_neg (by simp [htext])]
  rw [scanLog, hread]

/-- A scan reports exactly what was written when it can be read back. -/
theorem scanLog_exact_iff (p : LogPattern) (old : Bytes) (evs : List LogEvent) :
    scanLog p (some (runLog old evs)) old.length = some (hasMatch p (written evs)) ↔
      Scannable p old evs := by
  -- a log that is no text is not scanned
  cases htext : validUtf8 (runLog old evs) with
  | false =>
    rw [scanLog_of_not_text _ htext, Option.some.injEq, eq_comm]
    exact ⟨fun h => ⟨fun _ => h, fun h' => by simp [htext] at h', fun h' => by simp [htext] at h'⟩,
      fun h => h.text htext⟩
  | true =>
    rw [scanLog_of_text htext]
    constructor
    · intro h
      -- a scan that returns did not start inside a character
      have hinside : ¬(0 < old.length ∧ old.length ≤ (runLog old evs).length ∧
          isCharBoundary (runLog old evs) old.length = false) := by
        intro hinside
        rw [if_pos hinside] at h
        cases h
      rw [if_neg hinside, Option.some.injEq] at h
      refine ⟨fun h' => by simp [htext] at h', fun _ hpos hle => ?_, fun _ hmatch => h.trans hmatch⟩
      by_contra hboundary
      exact hinside ⟨hpos, hle, by simpa using hboundary⟩
    · intro h
      rw [if_neg, Option.some.injEq]
      -- it sees nothing but what was written
      · cases hwritten : hasMatch p (written evs) with
        | true => exact h.kept htext hwritten
        | false =>
          by_contra hscanned
          rw [Bool.not_eq_false] at hscanned
          rw [hasMatch_of_suffix (scannedPart_suffix old evs) hscanned] at hwritten
          cases hwritten
      · rintro ⟨hpos, hle, hboundary⟩
        rw [h.boundary htext hpos hle] at hboundary
        cases hboundary

/-- What can be read back of a log that was not truncated. -/
theorem scannable_iff_of_append {p : LogPattern} {old : Bytes} {evs : List LogEvent}
    (h : runLog old evs = old ++ written evs) : Scannable p old evs ↔
      (validUtf8 (old ++ written evs) = false → hasMatch p (written evs) = false) ∧
        (validUtf8 (old ++ written evs) = true →
          isCharBoundary (old ++ written evs) old.length = true) := by
  rw [← h]
  constructor
  · intro hscan
    refine ⟨hscan.text, fun htext => ?_⟩
    by_cases hpos : 0 < old.length
    · exact hscan.boundary htext hpos (by rw [h]; simp)
    · rw [isCharBoundary, Nat.eq_zero_of_not_pos hpos]
      rfl
  · rintro ⟨htext, hboundary⟩
    exact ⟨htext, fun hvalid _ _ => hboundary hvalid, fun _ hmatch => by
      rwa [scannedPart_of_append h]⟩

/-- **The log scans** never panic and report exactly the warnings that were written behind the offset,
when what was written can be read back, and not otherwise. -/
theorem logScans_exact_iff (old : Bytes) (evs : List LogEvent) :
    (ganeshaLogHasGetgrouplistWarn (some (runLog old evs)) old.length =
        some (hasMatch getgrouplistWarn (written evs)) ↔ Scannable getgrouplistWarn old evs) ∧
      (ganeshaLogHasManagedGidsFailure (some (runLog old evs)) old.length =
        some (hasMatch managedGidsFailure (written evs)) ↔ Scannable managedGidsFailure old evs) :=
  ⟨scanLog_exact_iff _ old evs, scanLog_exact_iff _ old evs⟩

/-- A warning line. -/
def warningLine : Bytes := ofAscii "my_getgrouplist_alloc: WARN" ++ [0x0A]

/-- A scan panics when a character was being written as the offset was taken; it sees no warning in a log
that is not UTF-8, nor one that is in front of the offset in a log that was truncated. -/
theorem not_logScan_exact :
    ganeshaLogHasGetgrouplistWarn (some (runLog [0x63, 0xC3] [.append ([0xA9, 0x0A] ++ warningLine)]))
        2 = none ∧
      ganeshaLogHasGetgrouplistWarn (some (runLog [0xFF, 0x0A] [.append warningLine])) 2 = some false ∧
      ganeshaLogHasGetgrouplistWarn (some (runLog (ofAscii "starting\n")
        [.rotate 4, .append warningLine])) 9 = some false ∧
      hasMatch getgrouplistWarn warningLine = true := by
  decide +kernel

/-- **The verdict of the exercise**: what was written can be read back, and it holds no warning. -/
theorem exerciseGaneshaUid2grp_of_scannable {old : Bytes} {evs : List LogEvent}
    (hwarn : Scannable getgrouplistWarn old evs) (hgids : Scannable managedGidsFailure old evs) :
    (exerciseGaneshaUid2grp (some old) (some (runLog old evs))).map Prod.fst =
      some (!(hasMatch getgrouplistWarn (written evs) || hasMatch managedGidsFailure (written evs))) := by
  have hwarn : ganeshaLogHasGetgrouplistWarn (some (runLog old evs)) old.length =
      some (hasMatch getgrouplistWarn (written evs)) := (scanLog_exact_iff _ old evs).mpr hwarn
  have hgids : ganeshaLogHasManagedGidsFailure (some (runLog old evs)) old.length =
      some (hasMatch managedGidsFailure (written evs)) := (scanLog_exact_iff _ old evs).mpr hgids
  simp only [exerciseGaneshaUid2grp, Option.map_some, Option.getD_some, hwarn, hgids]
  cases hasMatch getgrouplistWarn (written evs) <;>
    cases hasMatch managedGidsFailure (written evs) <;> rfl

end NfsKlldap
