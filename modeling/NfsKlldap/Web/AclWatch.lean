import NfsKlldap.Lib.KeyedMap
import NfsKlldap.Lib.Text
import NfsKlldap.Web.RecycleLatch

/-! # The ACL-capability watcher (`acl_watch`)

A generate run fixes whether a share is served with ACLs: an explicit `enable_acl` decides, and an
auto share follows the write probe on its serve root. A mount that gains or loses ACL support later
drifts from what is served. The watcher probes every share on an interval, keeps a baseline and a
streak for every auto share, and schedules a recycle for a reading that differs from the baseline on
two ticks in a row.

The baseline is meant to be the capability generate last acted on. Generate does not tell the
watcher, though: the baseline is the first reading after a start, and the reading of the last tick
that scheduled a recycle. **`drift_healed`** says that a recycle is only ever scheduled for a reading
that held for two ticks, and that every lasting drift is acted on in a run in which the baseline and
what generate serves do agree. -/

namespace NfsKlldap

/-- What the ACL write probe found out about a serve root. -/
inductive AclProbeVerdict where
  | capable
  | incapable
  | inconclusive
  deriving DecidableEq, Repr

/-- What the watcher and generate read of a share. -/
structure AclShare where
  name : Str
  /-- `none` is auto. -/
  enableAcl : Option Bool
  deriving DecidableEq, Repr

/-- The configured shares. Validation refuses a duplicate name. -/
abbrev AclShares := KeyedMap AclShare.name

/-- What the probe says of each share at one moment. -/
abbrev Capabilities := Str → AclProbeVerdict

/-- The capability of a share as a yes or no. -/
def Capabilities.capable (caps : Capabilities) (name : Str) : Bool := caps name = .capable

/-! ## The tracker -/

/-- Per-auto-share flip state: the capability generate last acted on, the previous tick's reading and
how long the current reading has held. -/
structure FlipState where
  baseline : Bool
  last : Bool
  streak : Nat
  deriving DecidableEq, Repr

/-- `saturating_add(1)` on a `u8`. -/
def saturatingSucc (n : Nat) : Nat := min (n + 1) 255

/-- Consecutive stable ticks a change must persist before it counts. -/
def flipStreak : Nat := 2

/-- A confirmed auto flip must not schedule recycles more often than this, in milliseconds. -/
def autoHupMinInterval : Nat := 600000

/-- Take in a reading. The flag says that a stable change from the baseline has persisted long enough
to act on. -/
def trackAutoFlip (st : FlipState) (current : Bool) : FlipState × Bool :=
  let st :=
    if current = st.last then { st with streak := saturatingSucc st.streak }
    else { st with streak := 1, last := current }
  (st, current != st.baseline && decide (flipStreak ≤ st.streak))

/-- Cross-tick state of the watcher. -/
structure FlipTracker where
  auto : Str → Option FlipState
  incap : Str → Option Nat
  lastAutoHup : Option Nat

/-- The state the loop starts with, and starts again with after a crash. -/
def FlipTracker.default : FlipTracker := ⟨fun _ => none, fun _ => none, none⟩

/-- Adopt the new capability as the baseline of every auto share. -/
def FlipTracker.adopt (tracker : FlipTracker) (now : Nat) : FlipTracker :=
  { tracker with
    lastAutoHup := some now
    auto := fun name => (tracker.auto name).map fun st => { st with baseline := st.last, streak := 0 } }

/-- Adopting a recycle takes the last reading of every share as its baseline. -/
theorem FlipTracker.adopt_auto (tracker : FlipTracker) (now : Nat) (name : Str) :
    (tracker.adopt now).auto name =
      (tracker.auto name).map fun st => { st with baseline := st.last, streak := 0 } := rfl

/-- The last automatic recycle is old enough. -/
def FlipTracker.rateOk (tracker : FlipTracker) (now : Nat) : Bool :=
  tracker.lastAutoHup.all fun t => autoHupMinInterval ≤ now - t

/-- The state of an auto share that meets the watcher for the first time. -/
def FlipState.fresh (capable : Bool) : FlipState := ⟨capable, capable, 0⟩

/-- The state of an auto share with the reading of this tick taken in. -/
def FlipTracker.observe (tracker : FlipTracker) (name : Str) (capable : Bool) : FlipState × Bool :=
  trackAutoFlip ((tracker.auto name).getD (.fresh capable)) capable

/-- A reading becomes the last one. -/
@[simp] theorem trackAutoFlip_last (st : FlipState) (current : Bool) :
    (trackAutoFlip st current).1.last = current := by
  unfold trackAutoFlip
  split
  · rename_i h
    exact h.symm
  · rfl

/-- A reading leaves the baseline. -/
@[simp] theorem trackAutoFlip_baseline (st : FlipState) (current : Bool) :
    (trackAutoFlip st current).1.baseline = st.baseline := by
  unfold trackAutoFlip
  split <;> rfl

/-- A reading starts or continues a streak. -/
theorem trackAutoFlip_streak_pos (st : FlipState) (current : Bool) :
    0 < (trackAutoFlip st current).1.streak := by
  unfold trackAutoFlip
  split
  · exact lt_min (Nat.succ_pos _) (by decide)
  · exact Nat.one_pos

/-- A share flips on a reading that the previous tick had as well and that is not the baseline. -/
theorem trackAutoFlip_snd_iff (st : FlipState) (current : Bool) :
    (trackAutoFlip st current).2 = true ↔
      current = st.last ∧ 0 < st.streak ∧ current ≠ st.baseline := by
  unfold trackAutoFlip flipStreak saturatingSucc
  split
  · rename_i h
    simp only [Bool.and_eq_true, bne_iff_ne, decide_eq_true_eq, h, true_and]
    rw [and_comm]
    exact and_congr_left fun _ => by omega
  · rename_i h
    simp [h]

/-! ## One tick -/

/-- The loop over the shares: the tracker so far, the first auto share that flipped and the explicit
shares that lost ACL support. -/
structure Scan where
  tracker : FlipTracker
  autoFlipShare : Option Str
  failing : List Str

/-- One share of the loop. -/
def scanShare (caps : Capabilities) (scan : Scan) (share : AclShare) : Scan :=
  match share.enableAcl with
  | none =>
    let (st, flipped) := scan.tracker.observe share.name (caps.capable share.name)
    { scan with
      tracker := { scan.tracker with auto := Function.update scan.tracker.auto share.name (some st) }
      autoFlipShare := scan.autoFlipShare.or (if flipped then some share.name else none) }
  | some true =>
    let streak :=
      if caps share.name = .incapable then
        saturatingSucc ((scan.tracker.incap share.name).getD 0)
      else 0
    { scan with
      tracker := { scan.tracker with incap := Function.update scan.tracker.incap share.name (some streak) }
      failing := if flipStreak ≤ streak then scan.failing ++ [share.name] else scan.failing }
  | some false => scan

/-- The loop over all shares. -/
def scanShares (shares : List AclShare) (caps : Capabilities) (tracker : FlipTracker) : Scan :=
  shares.foldl (scanShare caps) ⟨tracker, none, []⟩

/-- The scan of a share that is not called `name` leaves the entry of `name` alone. -/
theorem scanShare_auto_of_ne {caps : Capabilities} {scan : Scan} {share : AclShare} {name : Str}
    (h : name ≠ share.name) :
    (scanShare caps scan share).tracker.auto name = scan.tracker.auto name := by
  unfold scanShare
  split
  · exact Function.update_of_ne h _ _
  · rfl
  · rfl

/-- A scan leaves what is known of a share it does not see. -/
theorem foldl_scanShare_auto_of_not_mem {caps : Capabilities} {shares : List AclShare} {name : Str}
    (h : name ∉ shares.map AclShare.name) (scan : Scan) :
    (shares.foldl (scanShare caps) scan).tracker.auto name = scan.tracker.auto name := by
  induction shares generalizing scan with
  | nil => rfl
  | cons share shares ih =>
    rw [List.map_cons, List.mem_cons, not_or] at h
    rw [List.foldl_cons, ih h.2, scanShare_auto_of_ne h.1]

/-- The scan takes the reading of every auto share into its entry. -/
theorem foldl_scanShare_auto {caps : Capabilities} {shares : List AclShare} {share : AclShare}
    (hn : (shares.map AclShare.name).Nodup) (hmem : share ∈ shares) (hauto : share.enableAcl = none)
    (scan : Scan) :
    (shares.foldl (scanShare caps) scan).tracker.auto share.name =
      some (scan.tracker.observe share.name (caps.capable share.name)).1 := by
  induction shares generalizing scan with
  | nil => exact absurd hmem List.not_mem_nil
  | cons first shares ih =>
    rw [List.map_cons, List.nodup_cons] at hn
    rw [List.foldl_cons]
    rcases List.mem_cons.mp hmem with rfl | hmem
    · rw [foldl_scanShare_auto_of_not_mem hn.1, scanShare, hauto]
      exact Function.update_self _ _ _
    · have hne : share.name ≠ first.name := fun h => hn.1 (h ▸ List.mem_map_of_mem hmem)
      rw [ih hn.2 hmem, FlipTracker.observe, FlipTracker.observe, scanShare_auto_of_ne hne]

/-- Scanning a share leaves the time of the last automatic recycle. -/
theorem scanShare_lastAutoHup (caps : Capabilities) (scan : Scan) (share : AclShare) :
    (scanShare caps scan share).tracker.lastAutoHup = scan.tracker.lastAutoHup := by
  unfold scanShare
  split <;> rfl

/-- So does a whole scan. -/
theorem foldl_scanShare_lastAutoHup (caps : Capabilities) (shares : List AclShare) (scan : Scan) :
    (shares.foldl (scanShare caps) scan).tracker.lastAutoHup = scan.tracker.lastAutoHup := by
  induction shares generalizing scan with
  | nil => rfl
  | cons share shares ih => rw [List.foldl_cons, ih, scanShare_lastAutoHup]

/-- This tick makes an auto share flip. -/
def FlipTracker.flips (tracker : FlipTracker) (caps : Capabilities) (share : AclShare) : Bool :=
  share.enableAcl.isNone && (tracker.observe share.name (caps.capable share.name)).2

/-- The first share that flips. -/
theorem foldl_scanShare_autoFlipShare {caps : Capabilities} {shares : List AclShare}
    (hn : (shares.map AclShare.name).Nodup) (scan : Scan) :
    (shares.foldl (scanShare caps) scan).autoFlipShare =
      scan.autoFlipShare.or ((shares.find? (scan.tracker.flips caps)).map AclShare.name) := by
  induction shares generalizing scan with
  | nil => simp
  | cons share shares ih =>
    rw [List.map_cons, List.nodup_cons] at hn
    -- a scan of one share does not change what the tracker knows of another
    have hrest : shares.find? ((scanShare caps scan share).tracker.flips caps) =
        shares.find? (scan.tracker.flips caps) := by
      refine List.find?_congr fun other hother => ?_
      have hne : other.name ≠ share.name := fun h => hn.1 (h ▸ List.mem_map_of_mem hother)
      rw [FlipTracker.flips, FlipTracker.flips, FlipTracker.observe, FlipTracker.observe,
        scanShare_auto_of_ne hne]
    rw [List.foldl_cons, ih hn.2, hrest, List.find?_cons]
    unfold scanShare FlipTracker.flips
    split
    · rename_i hauto
      rw [hauto]
      cases h : (scan.tracker.observe share.name (caps.capable share.name)).2 <;>
        cases scan.autoFlipShare <;> simp [h]
    · rename_i hexplicit
      simp [hexplicit]
    · rename_i hexplicit
      simp [hexplicit]

/-- The banner about the explicit shares that fail. -/
def buildAlert (failing : List Str) : Option Str :=
  if failing.isEmpty then none
  else
    let quoted := failing.map fun n => "'".toList ++ n ++ "'".toList
    some ("enable_acl = true on ".toList ++ ", ".toList.intercalate quoted ++
      (" but the backing filesystem no longer stores POSIX ACLs — the next config reload will " ++
        "refuse to generate exports. Use the staging pattern (source_path) or set " ++
        "enable_acl = false.").toList)

/-- What one tick decided: the share a recycle was scheduled for, and the banner. -/
structure TickOutcome where
  scheduledFor : Option Str
  alert : Option Str
  deriving DecidableEq, Repr

/-- The share whose flip this tick acts on: one that flipped, past the rate limit, with a latch that
takes the request. -/
def Scan.actsOn (scan : Scan) (now : Nat) (latch : Option RecycleKind) : Option Str :=
  scan.autoFlipShare.filter fun _ =>
    scan.tracker.rateOk now && decide (trySchedule latch .sharesApply = .latched)

/-- The watcher with what is served, and what has been read and scheduled so far. -/
structure Watch where
  tracker : FlipTracker
  restartRequested : Option RecycleKind
  aclAlert : Option Str
  now : Nat
  /-- The ACL class of the last generate run, of every share it exported. -/
  served : Str → Option Bool
  /-- What the ticks have read, the latest first. -/
  readings : List Capabilities
  /-- When the last automatic recycle was scheduled. -/
  lastRecycle : Option Nat
  /-- An automatic recycle is scheduled and has not generated yet. -/
  owing : Bool

namespace Watch

/-- The container starts; nothing is served yet. -/
def initial : Watch := ⟨.default, none, none, 0, fun _ => none, [], none, false⟩

/-- `acl_reprobe_tick`. A tick that finds a recycle in flight reads nothing. `latch` is the latch
when the tick comes to ask for a recycle, after its probes. -/
def tick (shares : AclShares) (caps : Capabilities) (latch : Option RecycleKind) (s : Watch) :
    Watch × TickOutcome :=
  if s.restartRequested.isSome then (s, ⟨none, none⟩)
  else
    let scan := scanShares shares.values caps s.tracker
    let alert := buildAlert scan.failing
    let s := { s with readings := caps :: s.readings, aclAlert := alert }
    match scan.actsOn s.now latch with
    | some name =>
      ({ s with
          tracker := scan.tracker.adopt s.now
          restartRequested := some .sharesApply
          lastRecycle := some s.now
          owing := true },
        ⟨some name, alert⟩)
    | none => ({ s with tracker := scan.tracker, restartRequested := latch }, ⟨none, alert⟩)

/-- The ACL class generate gives a share (`compute_effective_flags_probed`). -/
def effectiveAcl (share : AclShare) (verdict : AclProbeVerdict) : Bool :=
  share.enableAcl.getD (decide (verdict = .capable))

/-- An explicit share on a filesystem that stores no ACLs makes generate refuse all exports. -/
def refuses (shares : AclShares) (caps : Capabilities) : Bool :=
  shares.values.any fun share => share.enableAcl = some true && caps share.name = .incapable

/-- A generate run. -/
def generate (shares : AclShares) (caps : Capabilities) (s : Watch) : Watch :=
  if refuses shares caps then s
  else
    { s with
      served := fun name => (shares.get? name).map fun share => effectiveAcl share (caps name)
      owing := false }

/-- What happens around the watcher. -/
inductive Event where
  | tick (caps : Capabilities) (latch : Option RecycleKind)
  | generate (caps : Capabilities)
  | elapse (ms : Nat)
  /-- The latch is taken or released by someone else. -/
  | setLatch (latch : Option RecycleKind)
  /-- The loop died and starts again. -/
  | respawn

/-- The state after an event. -/
def apply (shares : AclShares) (s : Watch) : Event → Watch
  | .tick caps latch => (s.tick shares caps latch).1
  | .generate caps => s.generate shares caps
  | .elapse ms => { s with now := s.now + ms }
  | .setLatch latch => { s with restartRequested := latch }
  | .respawn => { s with tracker := .default }

/-- A run in which every event is `ok` in the state it finds. -/
inductive Run (shares : AclShares) (ok : Watch → Event → Prop) : Watch → Prop where
  | initial : Run shares ok initial
  | event {s : Watch} (h : Run shares ok s) (e : Event) (hok : ok s e) :
    Run shares ok (s.apply shares e)

/-! ## What a tick does -/

variable {shares : AclShares}

/-- With a restart asked for, a tick does nothing. -/
theorem tick_skipped {s : Watch} (h : s.restartRequested.isSome) (caps : Capabilities)
    (latch : Option RecycleKind) : s.tick shares caps latch = (s, ⟨none, none⟩) := by
  rw [tick, if_pos h]

/-- A tick that runs either acts on a flip and adopts the readings, or keeps the baselines. -/
theorem tick_cases (shares : AclShares) {s : Watch} (h : s.restartRequested = none) (caps : Capabilities)
    (latch : Option RecycleKind) :
    let scan := scanShares shares.values caps s.tracker
    let s' := (s.tick shares caps latch).1
    s'.readings = caps :: s.readings ∧ s'.served = s.served ∧
      (s.tick shares caps latch).2.scheduledFor = scan.actsOn s.now latch ∧
      ((s'.tracker = scan.tracker.adopt s.now ∧ s'.lastRecycle = some s.now ∧ s'.owing = true) ∨
        (scan.actsOn s.now latch = none ∧ s'.tracker = scan.tracker ∧
          s'.lastRecycle = s.lastRecycle ∧ s'.owing = s.owing)) := by
  intro scan
  unfold tick
  rw [if_neg (by simp [h])]
  cases hacts : scan.actsOn s.now latch with
  | some name =>
    simp only [scan] at hacts
    simp [hacts, scan]
  | none =>
    simp only [scan] at hacts
    simp [hacts, scan]

/-- The entry of an auto share after the scan of a tick. -/
theorem scanShares_auto {share : AclShare} (hmem : share ∈ shares.values)
    (hauto : share.enableAcl = none) (caps : Capabilities) (tracker : FlipTracker) :
    (scanShares shares.values caps tracker).tracker.auto share.name =
      some (tracker.observe share.name (caps.capable share.name)).1 :=
  foldl_scanShare_auto shares.nodup hmem hauto _

/-- A scan reports the first share that has flipped. -/
theorem scanShares_autoFlipShare (caps : Capabilities) (tracker : FlipTracker) :
    (scanShares shares.values caps tracker).autoFlipShare =
      (shares.values.find? (tracker.flips caps)).map AclShare.name := by
  rw [scanShares, foldl_scanShare_autoFlipShare shares.nodup, Option.none_or]

/-- An auto share's entry holds the previous reading, and a streak that starts over starts at the
baseline. -/
def EntryOk (s : Watch) (share : AclShare) (st : FlipState) : Prop :=
  (∃ prev, s.readings.head? = some prev ∧ prev.capable share.name = st.last) ∧
    (st.streak = 0 → st.baseline = st.last)

/-- What holds in every run: the tracker's entries are sound, and its last recycle is the last
one. -/
structure Sound (shares : AclShares) (s : Watch) : Prop where
  entry : ∀ share ∈ shares.values, share.enableAcl = none →
    ∀ st, s.tracker.auto share.name = some st → s.EntryOk share st
  rate : ∀ t, s.tracker.lastAutoHup = some t → s.lastRecycle = some t

/-- **A tick keeps the watch sound.** -/
theorem Sound.tick {s : Watch} (h : s.Sound shares) (caps : Capabilities)
    (latch : Option RecycleKind) : (s.tick shares caps latch).1.Sound shares := by
  cases hflight : s.restartRequested with
  | some kind =>
    rw [tick_skipped (by simp [hflight])]
    exact h
  | none =>
    obtain ⟨hreadings, -, -, ⟨htracker, hlast, -⟩ | ⟨-, htracker, hlast, -⟩⟩ :=
      tick_cases shares hflight caps latch
    · refine ⟨fun share hmem hauto st hst => ?_, fun t ht => ?_⟩
      · rw [htracker, FlipTracker.adopt_auto, scanShares_auto hmem hauto] at hst
        cases hst
        exact ⟨⟨caps, by rw [hreadings]; rfl, by simp [FlipTracker.observe]⟩, fun _ => rfl⟩
      · rw [htracker] at ht
        exact hlast.trans ht
    · refine ⟨fun share hmem hauto st hst => ?_, fun t ht => ?_⟩
      · rw [htracker, scanShares_auto hmem hauto] at hst
        cases hst
        refine ⟨⟨caps, by rw [hreadings]; rfl, by simp [FlipTracker.observe]⟩, fun hzero => ?_⟩
        exact absurd hzero (trackAutoFlip_streak_pos _ _).ne'
      · rw [htracker, scanShares, foldl_scanShare_lastAutoHup] at ht
        exact hlast.trans (h.rate t ht)

/-- Every event keeps the watch sound. -/
theorem Sound.apply {s : Watch} (h : s.Sound shares) (e : Event) : (s.apply shares e).Sound shares := by
  cases e with
  | tick caps latch => exact h.tick caps latch
  | generate caps =>
    show (s.generate shares caps).Sound shares
    unfold generate
    split
    · exact h
    · exact ⟨h.entry, h.rate⟩
  | elapse ms => exact ⟨h.entry, h.rate⟩
  | setLatch latch => exact ⟨h.entry, h.rate⟩
  | respawn =>
    exact ⟨fun _ _ _ _ hst => absurd hst (Option.some_ne_none _).symm,
      fun _ ht => absurd ht (Option.some_ne_none _).symm⟩

/-- **The watch is sound in every run.** -/
theorem Run.sound {ok : Watch → Event → Prop} {s : Watch} (h : Run shares ok s) :
    s.Sound shares := by
  induction h with
  | initial => exact ⟨fun _ _ _ _ hst => (nomatch hst), fun _ ht => nomatch ht⟩
  | event _ e _ ih => exact ih.apply e

/-! ## Drift -/

/-- **No hasty recycle**: a tick schedules one only for an auto share whose reading is that of the
previous tick. -/
def Patient (shares : AclShares) (s : Watch) (caps : Capabilities) (latch : Option RecycleKind) :
    Prop :=
  ∀ name, (s.tick shares caps latch).2.scheduledFor = some name →
    (∃ share ∈ shares.values, share.name = name ∧ share.enableAcl = none) ∧
      ∃ prev, s.readings.head? = some prev ∧ prev.capable name = caps.capable name

/-- The class served of an auto share is not what the last two ticks have read. -/
def Drifts (s : Watch) (caps : Capabilities) (share : AclShare) : Prop :=
  share.enableAcl = none ∧
    (∃ prev, s.readings.head? = some prev ∧ prev.capable share.name = caps.capable share.name) ∧
    ∃ served, s.served share.name = some served ∧ served ≠ caps.capable share.name

/-- **Drift is healed**: with no recycle in flight and the last automatic one old enough, a tick that
finds a share drifting schedules a recycle. -/
def Heals (shares : AclShares) (s : Watch) (caps : Capabilities) (latch : Option RecycleKind) :
    Prop :=
  (∃ share ∈ shares.values, s.Drifts caps share) → s.restartRequested = none → latch = none →
    (∀ t, s.lastRecycle = some t → t + autoHupMinInterval ≤ s.now) →
    (s.tick shares caps latch).2.scheduledFor.isSome

/-- No tick of a sound watch is hasty. -/
theorem Sound.patient {s : Watch} (h : s.Sound shares) (caps : Capabilities)
    (latch : Option RecycleKind) : s.Patient shares caps latch := by
  intro name hname
  cases hflight : s.restartRequested with
  | some kind =>
    rw [tick_skipped (by simp [hflight])] at hname
    exact nomatch hname
  | none =>
    rw [(tick_cases shares hflight caps latch).2.2.1, Scan.actsOn, scanShares_autoFlipShare] at hname
    obtain ⟨share, hfind, rfl⟩ := Option.map_eq_some_iff.mp (Option.filter_eq_some_iff.mp hname).1
    have hmem := List.mem_of_find?_eq_some hfind
    have hflips := List.find?_some hfind
    rw [FlipTracker.flips, Bool.and_eq_true, Option.isNone_iff_eq_none, FlipTracker.observe,
      trackAutoFlip_snd_iff] at hflips
    obtain ⟨hauto, hsame, hstreak, -⟩ := hflips
    refine ⟨⟨share, hmem, rfl, hauto⟩, ?_⟩
    -- a fresh entry has no streak, so the share was tracked before
    cases hentry : s.tracker.auto share.name with
    | none => simp [hentry, FlipState.fresh] at hstreak
    | some st =>
      rw [hentry, Option.getD_some] at hsame
      obtain ⟨⟨prev, hprev, hlast⟩, -⟩ := h.entry share hmem hauto st hentry
      exact ⟨prev, hprev, hlast.trans hsame.symm⟩

/-- The baseline of every tracked auto share is the class that is served. -/
def BaselineServed (shares : AclShares) (s : Watch) : Prop :=
  ∀ share ∈ shares.values, share.enableAcl = none → ∀ st, s.tracker.auto share.name = some st →
    s.served share.name = some st.baseline

/-- Every auto share the watcher has no entry of reads as it is served. -/
def FreshServed (shares : AclShares) (s : Watch) (caps : Capabilities) : Prop :=
  ∀ share ∈ shares.values, share.enableAcl = none → s.tracker.auto share.name = none →
    s.served share.name = some (caps.capable share.name)

/-- **A sound watch heals drift** once its baselines are what is served. -/
theorem Sound.heals {s : Watch} (h : s.Sound shares) (hbase : s.BaselineServed shares)
    {caps : Capabilities} (hfresh : s.FreshServed shares caps) (latch : Option RecycleKind) :
    s.Heals shares caps latch := by
  rintro ⟨share, hmem, hauto, ⟨prev, hprev, hsteady⟩, served, hserved, hne⟩ hflight rfl hrate
  -- the state has been steady for a scan, and differs from the baseline
  have hflips : s.tracker.flips caps share = true := by
    rw [FlipTracker.flips, Bool.and_eq_true, Option.isNone_iff_eq_none, FlipTracker.observe,
      trackAutoFlip_snd_iff]
    refine ⟨hauto, ?_⟩
    cases hentry : s.tracker.auto share.name with
    | none =>
      rw [hfresh share hmem hauto hentry] at hserved
      exact absurd (Option.some.inj hserved).symm hne
    | some st =>
      rw [Option.getD_some]
      obtain ⟨⟨prev', hprev', hlast⟩, hzero⟩ := h.entry share hmem hauto st hentry
      cases hprev.symm.trans hprev'
      rw [hbase share hmem hauto st hentry] at hserved
      cases hserved
      have hcur : caps.capable share.name = st.last := hsteady.symm.trans hlast
      refine ⟨hcur, Nat.pos_of_ne_zero fun hz => hne ?_, hne.symm⟩
      exact (hzero hz).trans hcur.symm
  -- the last hang-up is long enough ago
  have hrateOk : (scanShares shares.values caps s.tracker).tracker.rateOk s.now = true := by
    rw [FlipTracker.rateOk, scanShares, foldl_scanShare_lastAutoHup, Option.all_eq_true]
    intro t ht
    have := hrate t (h.rate t ht)
    simp only [decide_eq_true_eq]
    omega
  rw [(tick_cases shares hflight caps none).2.2.1, Scan.actsOn, scanShares_autoFlipShare]
  obtain ⟨first, hfirst⟩ := Option.isSome_iff_exists.mp
    (List.find?_isSome.mpr ⟨share, hmem, hflips⟩)
  simp [hfirst, hrateOk, trySchedule, Option.filter]

/-! ## Runs -/

/-- Generate and the watcher go by the same capabilities: a tick runs only when a scheduled recycle
has generated, it meets no share for the first time that reads otherwise than it is served, and
generate finds every tracked auto share at its baseline. -/
def InStep (shares : AclShares) (s : Watch) : Event → Prop
  | .tick caps _ => s.restartRequested = none → s.owing = false ∧ s.FreshServed shares caps
  | .generate caps =>
    ∀ share ∈ shares.values, share.enableAcl = none → ∀ st, s.tracker.auto share.name = some st →
      caps.capable share.name = st.baseline
  | .elapse _ | .setLatch _ | .respawn => True

/-- A tick that schedules nothing keeps every baseline, and a new one is what is served. -/
theorem BaselineServed.tick {s : Watch} (h : s.BaselineServed shares) {caps : Capabilities}
    (hfresh : s.FreshServed shares caps) {s' : Watch} (hserved : s'.served = s.served)
    (htracker : s'.tracker = (scanShares shares.values caps s.tracker).tracker) :
    s'.BaselineServed shares := by
  intro share hmem hauto st hst
  rw [htracker, scanShares_auto hmem hauto] at hst
  cases hst
  rw [hserved, FlipTracker.observe, trackAutoFlip_baseline]
  cases hentry : s.tracker.auto share.name with
  | none => exact hfresh share hmem hauto hentry
  | some st => exact h share hmem hauto st hentry

/-- After a generate run that finds every tracked auto share at its baseline, the baselines are what
is served. -/
theorem baselineServed_generate {s : Watch} {caps : Capabilities} (hok : s.InStep shares (.generate caps))
    (hrefuses : refuses shares caps = false) : (s.generate shares caps).BaselineServed shares := by
  intro share hmem hauto st hst
  rw [generate, if_neg (by simp [hrefuses])] at hst ⊢
  have hget : shares.get? share.name = some share := KeyedMap.get?_eq_some_iff.mpr ⟨hmem, rfl⟩
  show (shares.get? share.name).map (fun share' => effectiveAcl share' (caps share.name)) = _
  rw [hget, Option.map_some, effectiveAcl, hauto, Option.getD_none, ← hok share hmem hauto st hst]
  rfl

/-- In a run in step, the baselines are what is served whenever nothing is owed. -/
theorem Run.baselineServed {s : Watch} (h : Run shares (InStep shares) s) (howing : s.owing = false) :
    s.BaselineServed shares := by
  induction h with
  | initial => exact fun _ _ _ _ hst => nomatch hst
  | @event s _ e hok ih =>
    cases e with
    | tick caps latch =>
      cases hflight : s.restartRequested with
      | some kind =>
        rw [apply, tick_skipped (by simp [hflight])] at howing ⊢
        exact ih howing
      | none =>
        obtain ⟨hpaid, hfresh⟩ := hok hflight
        obtain ⟨-, hserved, -, ⟨-, -, howes⟩ | ⟨-, htracker, -, -⟩⟩ :=
          tick_cases shares hflight caps latch
        · exact absurd (howes.symm.trans howing) (by decide)
        · exact (ih hpaid).tick hfresh hserved htracker
    | generate caps =>
      cases hrefuses : refuses shares caps with
      | true =>
        rw [apply, generate, if_pos hrefuses] at howing ⊢
        exact ih howing
      | false => exact baselineServed_generate hok hrefuses
    | elapse ms => exact ih howing
    | setLatch latch => exact ih howing
    | respawn => exact fun _ _ _ _ hst => nomatch hst

/-- **Lasting drift is healed**: in every run a recycle is only scheduled for a share whose reading
held for two ticks in a row, and in a run in which generate and the watcher go by the same
capabilities every tick heals. -/
theorem drift_healed (shares : AclShares) :
    (∀ s, Run shares (fun _ _ => True) s → ∀ caps latch, s.Patient shares caps latch) ∧
      ∀ s, Run shares (InStep shares) s → ∀ caps latch, s.InStep shares (.tick caps latch) →
        s.Heals shares caps latch := by
  refine ⟨fun s h caps latch => h.sound.patient caps latch, fun s h caps latch hok => ?_⟩
  intro hdrifts hflight
  obtain ⟨hpaid, hfresh⟩ := hok hflight
  exact h.sound.heals (h.baselineServed hpaid) hfresh latch hdrifts hflight

/-! ## A mount that loses ACL support -/

/-- One auto share. -/
def dataShare : AclShares := ⟨[⟨"data".toList, none⟩], by simp⟩

/-- The probe has the same verdict on every share. -/
def allShares (verdict : AclProbeVerdict) : Capabilities := fun _ => verdict

/-- The share is served with ACLs and the watcher knows it as capable; then it reads incapable
once. -/
def lostAcl : Watch :=
  ((initial.generate dataShare (allShares .capable)).tick dataShare (allShares .capable) none).1.tick
    dataShare (allShares .incapable) none |>.1

/-- The second incapable reading schedules the recycle. -/
theorem drift_healed_lostAcl :
    Run dataShare (InStep dataShare) lostAcl ∧
      (lostAcl.tick dataShare (allShares .incapable) none).2.scheduledFor = some "data".toList ∧
      lostAcl.Heals dataShare (allShares .incapable) none := by
  have hgenerate : Run dataShare (InStep dataShare) (initial.generate dataShare (allShares .capable)) :=
    Run.initial.event (.generate _) fun _ _ _ _ hst => nomatch hst
  have hfirst := hgenerate.event (.tick (allShares .capable) none) fun _ =>
    ⟨rfl, by simp [FreshServed, dataShare]; decide⟩
  have hlost : Run dataShare (InStep dataShare) lostAcl :=
    hfirst.event (.tick (allShares .incapable) none) fun _ =>
      ⟨by decide, by simp [FreshServed, dataShare]; decide⟩
  refine ⟨hlost, by decide,
    (drift_healed dataShare).2 lostAcl hlost (allShares .incapable) none fun _ => ?_⟩
  exact ⟨by decide, by simp [FreshServed, dataShare]; decide⟩

/-- The support is lost between the generate run and the first tick. -/
def lostEarly : Watch :=
  (initial.generate dataShare (allShares .capable)).tick dataShare (allShares .incapable) none |>.1

/-- The first tick takes the incapable reading for the baseline: the share stays served with ACLs,
and no tick does anything about it. -/
theorem not_heals_lostEarly :
    Run dataShare (fun _ _ => True) lostEarly ∧
      lostEarly.served "data".toList = some true ∧
      (lostEarly.tick dataShare (allShares .incapable) none).2.scheduledFor = none ∧
      ¬ lostEarly.Heals dataShare (allShares .incapable) none := by
  have hrun : Run dataShare (fun _ _ => True) lostEarly :=
    (Run.initial.event (.generate _) trivial).event (.tick _ none) trivial
  have hnone : (lostEarly.tick dataShare (allShares .incapable) none).2.scheduledFor = none := by
    decide
  refine ⟨hrun, by decide, hnone, fun h => ?_⟩
  have hdrifts : ∃ share ∈ dataShare.values, lostEarly.Drifts (allShares .incapable) share :=
    ⟨⟨"data".toList, none⟩, List.mem_singleton_self _, rfl, ⟨_, rfl, rfl⟩, true, by decide, by decide⟩
  have hsome := h hdrifts rfl rfl fun t ht => nomatch ht
  rw [hnone] at hsome
  exact nomatch hsome

end Watch

end NfsKlldap
