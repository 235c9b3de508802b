import NfsKlldap.Idhelper.LogObserver
import NfsKlldap.Identity.Realm
import NfsKlldap.Ldap.Resolver
import NfsKlldap.Lib.LastWrite
import NfsKlldap.Lib.Runs

/-! # What the log observer may ask for (`observer.rs`)

Ganesha logs a failed lookup on every request that meets it. The observer answers with heals: it has the
identities loaded again, the NSS files written and Ganesha signalled. Five limiters keep a flood of
lines from becoming a flood of heals: four maps from what a line names to when it was last answered,
and the time of the last heal of a group list. Two of the maps are pruned when they grow.

* **`Observing.detect`** — what a line makes the observer do;
* **`Observing.step`** — a line after the other, until one ends the observer;
* **`Due`**, **`Granted`** — a line is answered with exactly what nothing was done for within its window;
* **`granted_and_budget`** — so it is in every run: pruning never shows, and a span of time holds as many
  heals as it has windows, and one more. -/

namespace NfsKlldap

open Text LastWrite Runs

/-! ## What lines name -/

/-- `is_docker_bridge_ipv4`; octets have no leading zeros, so that they may be compared as texts. -/
def isDockerBridgeIpv4 (addr : Str) : Bool :=
  isIpv4 (trim addr) &&
    decide (((trim addr).splitOn '.').take 2 = ["172".toList, "17".toList])

/-- `extract_server_addr_from_ganesha_line`; nothing too where the slice would panic. -/
def extractServerAddr (line : Str) : Option Str :=
  match behind "server_addr".toList (toAsciiLowercase line) line with
  | some (some rest) =>
    match rest.dropWhile isWhitespace with
    | '=' :: rest =>
      let addr := (rest.dropWhile isWhitespace).takeWhile fun c =>
        !(isWhitespace c || c = '\x7d' || c = ')')
      if trim addr = [] then none else some (trim addr)
    | _ => none
  | _ => none

/-- The address `maybe_warn_bridge_server_addr` warns about. -/
def bridgeAddr (t : CharTable) (line : Str) : Option Str :=
  (extractServerAddr line).bind fun addr =>
    if isDockerBridgeIpv4 addr ∧ (extractLinuxNfsHostname t line).join.isSome then some addr else none

/-- The text behind the first occurrence of a word in the line. -/
def restBehind (w line : Str) : Option Str := (splitOnceStr w line).map Prod.snd

/-- The first number in a text. -/
def firstNumber (s : Str) : Option UInt32 :=
  ((s.splitOnP fun c => !c.isDigit).find? (· ≠ [])).bind parseU32

/-- `extract_user_from_getgrouplist_line` -/
def extractUserFromGetgrouplistLine (t : CharTable) (line : Str) : Option Str :=
  ["user:".toList, "user ".toList, "for user ".toList].findSome? fun pat =>
    (restBehind pat line).bind fun rest =>
      let tok := rest.takeWhile fun c => t.isAlphanumeric c || c ∈ ['@', '/', '.', '-']
      if tok = [] then none else some tok

/-- `extract_errno`: the number behind `errno:`. -/
def extractErrno (line : Str) : Option UInt32 := (restBehind "errno:".toList line).bind firstNumber

/-- `extract_ngroups`: the number behind `ngroups:`. -/
def extractNgroups (line : Str) : Option UInt32 := (restBehind "ngroups:".toList line).bind firstNumber

/-- `my_getgrouplist_alloc` complains. -/
def isGetgrouplistComplaint (line : Str) : Bool :=
  let low := toAsciiLowercase line
  containsStr "my_getgrouplist_alloc".toList low &&
    (containsStr "failed".toList low || containsStr "warn".toList low)

/-- The user a complaint is about, with what Ganesha saw. -/
def getgrouplistFailure (t : CharTable) (line : Str) : Option (Str × UInt32 × UInt32) :=
  if isGetgrouplistComplaint line then
    some ((extractUserFromGetgrouplistLine t line).getD "unknown".toList,
      (extractNgroups line).getD 0, (extractErrno line).getD 0)
  else none

/-- `extract_uid_from_managed_gids_failure`; the first of the two patterns that occurs decides. -/
def extractUidFromManagedGidsFailure (line : Str) : Option UInt32 :=
  let low := toAsciiLowercase line
  if containsStr "attempt to fetch managed_gids".toList low && containsStr "failed".toList low then
    ((restBehind "uid: ".toList low).or (restBehind "uid=".toList low)).bind firstNumber
  else none

/-- Ganesha could not map a principal of the line, or list its groups. -/
def isFailureLine (line : Str) : Bool :=
  containsStr "Could not map principal ".toList line || isGetgrouplistComplaint line

/-- `unmapped_principal_needs_heal`: users, and the server's own machine principals. -/
def unmappedPrincipalNeedsHeal (candidate realm : Str) (variants : List Str) : Bool :=
  if (classifyPrincipal candidate realm variants).1 then
    match splitOnce '/' (principalLocalPart candidate) with
    | some (_, serviceHost) => variants.any (eqIgnoreAsciiCase · (trim serviceHost))
    | none => false
  else true

/-! ## The observer -/

/-- What the observer does about a line. -/
inductive ObserverAction
  | warnBridge (addr : Str)
  /-- Reload, resolve the user and root, write the NSS files, signal Ganesha. -/
  | healGetgrouplist (user : Str) (ngroups errno : UInt32)
  | healUid (uid : UInt32)
  /-- A client machine is named, which is anonymous by design. -/
  | observeMachine (candidate : Str)
  | healPrincipal (candidate : Str) (sendSighup : Bool)
  | resolve (candidate : Str)
  deriving DecidableEq

/-- When the limiters last let something pass. -/
structure Observer where
  recently : PairMap Str Nat
  bridgeWarned : PairMap Str Nat
  healedUids : PairMap UInt32 Nat
  healedGetgrouplist : PairMap Str Nat
  lastGetgrouplistHeal : Option Nat

/-- At the start nothing has passed. -/
def Observer.new : Observer :=
  ⟨KeyedMap.empty, KeyedMap.empty, KeyedMap.empty, KeyedMap.empty, none⟩

/-- In nanoseconds; also the window of the heals. -/
def dedupWindow : Nat := 30 * 10 ^ 9

/-- The window of a candidate on a line that tells of a failure. -/
def failureDedupWindow : Nat := 2 * 10 ^ 9

/-- The floor between two heals of a group list. -/
def getgrouplistFloor : Nat := 5 * 10 ^ 9

section Limiter

variable {κ : Type} [DecidableEq κ]

/-- Nothing passed under the key within the window. -/
def isFresh (m : PairMap κ Nat) (k : κ) (window now : Nat) : Bool :=
  match m.lookup k with
  | none => true
  | some last => window ≤ now - last

/-- Keeps the rate-limit map small. -/
def pruned (m : PairMap κ Nat) (now : Nat) : PairMap κ Nat :=
  if 2048 < m.values.length then m.retain fun e => now - e.2 < dedupWindow else m

end Limiter

section Detectors

variable (t : CharTable) (realm : Str) (variants : List Str) (o : Observer) (line : Str) (now : Nat)

/-- `maybe_warn_bridge_server_addr`: an address of the bridge is warned about once in its window. -/
def maybeWarnBridgeServerAddr : Observer × List ObserverAction :=
  match bridgeAddr t line with
  | none => (o, [])
  | some addr =>
    if isFresh o.bridgeWarned addr dedupWindow now then
      ({ o with bridgeWarned := o.bridgeWarned.insert (addr, now) }, [.warnBridge addr])
    else (o, [])

/-- `detect_my_getgrouplist_failure_and_heal`: the window of the user is looked at before the floor. -/
def detectMyGetgrouplistFailureAndHeal : Observer × List ObserverAction :=
  match getgrouplistFailure t line with
  | none => (o, [])
  | some (user, ngroups, errno) =>
    if !isFresh o.healedGetgrouplist user dedupWindow now then (o, [])
    else if o.lastGetgrouplistHeal.any fun last => now - last < getgrouplistFloor then (o, [])
    else
      ({ o with
          healedGetgrouplist := pruned (o.healedGetgrouplist.insert (user, now)) now
          lastGetgrouplistHeal := some now },
        [.healGetgrouplist user ngroups errno])

/-- `detect_managed_gids_uid_failure_and_heal`: a uid is healed once in its window. -/
def detectManagedGidsUidFailureAndHeal : Observer × List ObserverAction :=
  match extractUidFromManagedGidsFailure line with
  | none => (o, [])
  | some uid =>
    if isFresh o.healedUids uid dedupWindow now then
      ({ o with healedUids := o.healedUids.insert (uid, now) }, [.healUid uid])
    else (o, [])

/-- How soon a candidate of the line may be looked at again. -/
def candidateWindow : Nat := if isFailureLine line then failureDedupWindow else dedupWindow

/-- What is done for a candidate that was let pass, the latest first. -/
def candidateActions (candidate : Str) : List ObserverAction :=
  if !unmappedPrincipalNeedsHeal candidate realm variants then [.observeMachine candidate]
  else
    .resolve candidate ::
      if isFailureLine line then
        [.healPrincipal candidate (containsStr "Could not map principal ".toList line)]
      else []

/-- The candidate of the line; nothing is left of the observer when the search for it panics. -/
def observeCandidate : Option (Observer × List ObserverAction) :=
  (extractCandidatePrincipal t line realm).map fun
    | none => (o, [])
    | some candidate =>
      if isFresh o.recently candidate (candidateWindow line) now then
        ({ o with recently := pruned (o.recently.insert (candidate, now)) now },
          candidateActions realm variants line candidate)
      else (o, [])

end Detectors

/-- How long the reader waits for the line, and then each detector before it looks at the clock. -/
structure Waits where
  bridge : Nat
  getgrouplist : Nat
  uid : Nat
  candidate : Nat

/-- The observer, what it has done and when, the latest first, and whether it still reads. -/
structure Observing where
  observer : Observer
  now : Nat
  done : List (Nat × ObserverAction)
  alive : Bool

namespace Observing

/-- At the start nothing has been done. -/
def start (now : Nat) : Observing := ⟨.new, now, [], true⟩

/-- A detector has looked at the clock. -/
def after (s : Observing) (wait : Nat) (detect : Nat → Observer × List ObserverAction) : Observing where
  observer := (detect (s.now + wait)).1
  now := s.now + wait
  done := (detect (s.now + wait)).2.map (s.now + wait, ·) ++ s.done
  alive := s.alive

variable (t : CharTable) (realm : Str) (variants : List Str)

/-- The three detectors in front of the candidate. -/
def detect (s : Observing) (line : Str) (w : Waits) : Observing :=
  let s := s.after w.bridge (maybeWarnBridgeServerAddr t s.observer line)
  let s := s.after w.getgrouplist (detectMyGetgrouplistFailureAndHeal t s.observer line)
  s.after w.uid (detectManagedGidsUidFailureAndHeal s.observer line)

/-- A line of the log, as it is read. -/
def step (s : Observing) (l : Str × Waits) : Observing :=
  if !s.alive then s
  else
    let s := s.detect t (trim l.1) l.2
    match observeCandidate t realm variants s.observer (trim l.1) (s.now + l.2.candidate) with
    | none => { s with alive := false }
    | some done => s.after l.2.candidate fun _ => done

end Observing

/-! ## What the limiters go by -/

/-- The key an action is limited by, where it is one of a kind. -/
abbrev Mark (κ : Type) := ObserverAction → Option κ

/-- Warnings, by address. -/
def bridgeMark : Mark Str
  | .warnBridge addr => some addr
  | _ => none

/-- Heals of a group list, by user. -/
def getgrouplistMark : Mark Str
  | .healGetgrouplist user _ _ => some user
  | _ => none

/-- Heals of a uid. -/
def uidMark : Mark UInt32
  | .healUid uid => some uid
  | _ => none

/-- Looking at a candidate ends with a resolve, or with the line for a client machine. -/
def candidateMark : Mark Str
  | .observeMachine candidate | .resolve candidate => some candidate
  | _ => none

/-- The heal of a candidate; it is limited together with the resolve that goes with it. -/
def healMark : Mark Str
  | .healPrincipal candidate _ => some candidate
  | _ => none

section Marks

variable {κ : Type} (mark : Mark κ) (k : κ) (window : Nat) (done : List (Nat × ObserverAction)) (now : Nat)

/-- The actions of a kind, each under its key with its time. -/
def marks : List (κ × Nat) := done.filterMap fun a => (mark a.2).map (·, a.1)

/-- Nothing of the kind was done under the key within the window. -/
def Quiet : Prop := ∀ a ∈ done, mark a.2 = some k → window ≤ now - a.1

/-- Nothing of the kind was done within the window. -/
def AllQuiet : Prop := ∀ a ∈ done, mark a.2 ≠ none → window ≤ now - a.1

/-- When something of the kind was done under the key. -/
def timesUnder [DecidableEq κ] : List Nat := (done.filter fun a => mark a.2 = some k).map Prod.fst

/-- When something of the kind was done. -/
def timesOf : List Nat := (done.filter fun a => (mark a.2).isSome).map Prod.fst

end Marks

/-- **What is due for a line**, and when: an answer to what the line names, when nothing of the kind was done
for it within the window. A candidate is resolved, and healed too when the line tells of a failure; a client
machine is observed only. -/
inductive Due (t : CharTable) (realm : Str) (variants : List Str) (done : List (Nat × ObserverAction))
    (now : Nat) (line : Str) (w : Waits) : Nat → ObserverAction → Prop
  | bridge (addr : Str) (hline : bridgeAddr t line = some addr)
    (hquiet : Quiet bridgeMark addr dedupWindow done (now + w.bridge)) :
    Due t realm variants done now line w (now + w.bridge) (.warnBridge addr)
  | getgrouplist (user : Str) (ngroups errno : UInt32)
    (hline : getgrouplistFailure t line = some (user, ngroups, errno))
    (hquiet : Quiet getgrouplistMark user dedupWindow done (now + w.bridge + w.getgrouplist))
    (hfloor : AllQuiet getgrouplistMark getgrouplistFloor done (now + w.bridge + w.getgrouplist)) :
    Due t realm variants done now line w (now + w.bridge + w.getgrouplist)
      (.healGetgrouplist user ngroups errno)
  | uid (uid : UInt32) (hline : extractUidFromManagedGidsFailure line = some uid)
    (hquiet : Quiet uidMark uid dedupWindow done (now + w.bridge + w.getgrouplist + w.uid)) :
    Due t realm variants done now line w (now + w.bridge + w.getgrouplist + w.uid) (.healUid uid)
  | machine (candidate : Str) (hline : extractCandidatePrincipal t line realm = some (some candidate))
    (hquiet : Quiet candidateMark candidate (candidateWindow line) done
      (now + w.bridge + w.getgrouplist + w.uid + w.candidate))
    (hneeds : unmappedPrincipalNeedsHeal candidate realm variants = false) :
    Due t realm variants done now line w (now + w.bridge + w.getgrouplist + w.uid + w.candidate)
      (.observeMachine candidate)
  | resolve (candidate : Str) (hline : extractCandidatePrincipal t line realm = some (some candidate))
    (hquiet : Quiet candidateMark candidate (candidateWindow line) done
      (now + w.bridge + w.getgrouplist + w.uid + w.candidate))
    (hneeds : unmappedPrincipalNeedsHeal candidate realm variants = true) :
    Due t realm variants done now line w (now + w.bridge + w.getgrouplist + w.uid + w.candidate)
      (.resolve candidate)
  | heal (candidate : Str) (hline : extractCandidatePrincipal t line realm = some (some candidate))
    (hquiet : Quiet candidateMark candidate (candidateWindow line) done
      (now + w.bridge + w.getgrouplist + w.uid + w.candidate))
    (hneeds : unmappedPrincipalNeedsHeal candidate realm variants = true)
    (hfail : isFailureLine line = true) :
    Due t realm variants done now line w (now + w.bridge + w.getgrouplist + w.uid + w.candidate)
      (.healPrincipal candidate (containsStr "Could not map principal ".toList line))

/-- **A line is answered with what is due**, once. `acts` is what is done about it. -/
structure Granted (t : CharTable) (realm : Str) (variants : List Str)
    (done : List (Nat × ObserverAction)) (now : Nat) (line : Str) (w : Waits)
    (acts : List (Nat × ObserverAction)) : Prop where
  due : ∀ time a, (time, a) ∈ acts ↔ Due t realm variants done now line w time a
  once : acts.Nodup

/-- How much is done in a span of time. -/
structure WithinBudget (done : List (Nat × ObserverAction)) : Prop where
  getgrouplist : OncePer getgrouplistFloor (timesOf getgrouplistMark done)
  getgrouplist_user : ∀ user, OncePer dedupWindow (timesUnder getgrouplistMark user done)
  uid : ∀ uid, OncePer dedupWindow (timesUnder uidMark uid done)
  bridge : ∀ addr, OncePer dedupWindow (timesUnder bridgeMark addr done)
  candidate : ∀ candidate, OncePer failureDedupWindow (timesUnder candidateMark candidate done)
  heal : ∀ candidate, OncePer failureDedupWindow (timesUnder healMark candidate done)

/-- The latest action is the first. -/
def Ordered (done : List (Nat × ObserverAction)) : Prop := done.Pairwise fun a b => b.1 ≤ a.1

section

variable {κ : Type} {mark : Mark κ} {k : κ} {window now : Nat} {done : List (Nat × ObserverAction)}
  {acts : List ObserverAction}

/-- A key is marked at the times of the actions under it. -/
theorem mem_marks {time : Nat} :
    (k, time) ∈ marks mark done ↔ ∃ a, (time, a) ∈ done ∧ mark a = some k := by
  rw [marks, List.mem_filterMap]
  constructor
  · rintro ⟨⟨time', a⟩, ha, heq⟩
    rw [Option.map_eq_some_iff] at heq
    obtain ⟨k', hk', hpair⟩ := heq
    obtain ⟨rfl, rfl⟩ := Prod.mk.inj hpair
    exact ⟨a, ha, hk'⟩
  · rintro ⟨a, ha, hk⟩
    exact ⟨(time, a), ha, by rw [hk, Option.map_some]⟩

/-- The marks of a kind are in the order of the actions. -/
theorem Ordered.marks (h : Ordered done) (mark : Mark κ) :
    (marks mark done).Pairwise fun a b => b.2 ≤ a.2 := by
  refine List.Pairwise.filterMap _ (fun a a' hle b hb b' hb' => ?_) h
  rw [Option.map_eq_some_iff] at hb hb'
  obtain ⟨k, -, rfl⟩ := hb
  obtain ⟨k', -, rfl⟩ := hb'
  exact hle

/-- What is done at one moment is in order. -/
theorem Ordered.append (h : Ordered done) (hpast : ∀ a ∈ done, a.1 ≤ now)
    (acts : List ObserverAction) : Ordered (acts.map (now, ·) ++ done) := by
  refine List.pairwise_append.mpr ⟨?_, h, fun a ha b hb => ?_⟩
  · exact List.pairwise_map.mpr (List.pairwise_of_forall fun _ _ => le_rfl)
  · obtain ⟨act, -, rfl⟩ := List.mem_map.mp ha
    exact hpast b hb

/-- What is done now lies in the past from now on. -/
theorem past_append (hpast : ∀ a ∈ done, a.1 ≤ now) (acts : List ObserverAction) :
    ∀ a ∈ acts.map (now, ·) ++ done, a.1 ≤ now := by
  intro a ha
  rcases List.mem_append.mp ha with ha | ha
  · obtain ⟨act, -, rfl⟩ := List.mem_map.mp ha
    exact le_rfl
  · exact hpast a ha

/-- What is done now is marked first. -/
theorem marks_append (mark : Mark κ) (acts : List ObserverAction) :
    marks mark (acts.map (now, ·) ++ done) =
      (acts.filterMap mark).map (·, now) ++ marks mark done := by
  rw [marks, List.filterMap_append, List.filterMap_map, List.map_filterMap]
  rfl

/-- What is of another kind does not count. -/
theorem quiet_append_iff (hacts : ∀ a ∈ acts, mark a ≠ some k) (time : Nat) :
    Quiet mark k window (acts.map (time, ·) ++ done) now ↔ Quiet mark k window done now := by
  refine ⟨fun h a ha => h a (List.mem_append_right _ ha), fun h a ha hmark => ?_⟩
  rcases List.mem_append.mp ha with ha | ha
  · obtain ⟨act, hact, rfl⟩ := List.mem_map.mp ha
    exact absurd hmark (hacts act hact)
  · exact h a ha hmark

/-- What is of another kind does not count for any key. -/
theorem allQuiet_append_iff (hacts : ∀ a ∈ acts, mark a = none) (time : Nat) :
    AllQuiet mark window (acts.map (time, ·) ++ done) now ↔ AllQuiet mark window done now := by
  refine ⟨fun h a ha => h a (List.mem_append_right _ ha), fun h a ha hmark => ?_⟩
  rcases List.mem_append.mp ha with ha | ha
  · obtain ⟨act, hact, rfl⟩ := List.mem_map.mp ha
    exact absurd (hacts act hact) hmark
  · exact h a ha hmark

end

section Limits

variable {κ : Type} [DecidableEq κ] {mark : Mark κ} {m : PairMap κ Nat} {k : κ} {window now now' : Nat}
  {done : List (Nat × ObserverAction)}

/-- A limiter lets something pass when its last time is a window back, and the pruning does not
matter. -/
theorem isFresh_iff (hm : Recalls id dedupWindow now (marks mark done) (lookIn m))
    (hdone : Ordered done) (hwindow : window ≤ dedupWindow) :
    isFresh m k window now = true ↔ Quiet mark k window done now := by
  -- what was pruned is too old to matter
  have hread := hm.bind_eq
    (fun (last : Nat) (hold : dedupWindow ≤ now - last) =>
      show (if window ≤ now - last then none else some last) = none from
        if_pos (le_trans hwindow hold)) k
  have hfresh : isFresh m k window now = true ↔
      ((lookIn m k).bind fun last => if window ≤ now - last then none else some last) = none := by
    rw [isFresh, show m.lookup k = lookIn m k from rfl]
    cases lookIn m k with
    | none => simp
    | some last => simp
  rw [hfresh, hread]
  constructor
  -- the last time under the key is the latest of all
  · intro hnone a ha hmark
    have hmem : (k, a.1) ∈ marks mark done := mem_marks.mpr ⟨a.2, ha, hmark⟩
    cases hlast : lastUnder (marks mark done) k with
    | none => exact absurd hmem (lastUnder_eq_none_iff.mp hlast a.1)
    | some last =>
      have hle : a.1 ≤ last :=
        le_of_lastUnder id (hdone.marks mark) hlast hmem
      rw [hlast, Option.bind_some] at hnone
      by_cases hw : window ≤ now - last
      · omega
      · rw [if_neg hw] at hnone
        exact absurd hnone (by simp)
  · intro hquiet
    cases hlast : lastUnder (marks mark done) k with
    | none => rfl
    | some last =>
      obtain ⟨a, ha, hmark⟩ := mem_marks.mp (mem_of_lastUnder hlast)
      rw [Option.bind_some, if_pos (hquiet _ ha hmark)]

/-- Pruning forgets only what is older than every window. -/
theorem recalls_pruned {log : List (κ × Nat)} (h : Recalls id dedupWindow now log (lookIn m)) :
    Recalls id dedupWindow now log (lookIn (pruned m now)) := by
  unfold pruned
  by_cases hlong : 2048 < m.values.length
  · rw [if_pos hlong]
    have hold : ∀ last : Nat, decide (now - last < dedupWindow) = false → dedupWindow ≤ now - last :=
      fun last hlast => by simpa using hlast
    exact h.retain hold
  · rw [if_neg hlong]
    exact h

/-- A limiter holds the last times of its kind, and they lie a window apart. -/
structure Limiter (mark : Mark κ) (window : Nat) (m : PairMap κ Nat) (now : Nat)
    (done : List (Nat × ObserverAction)) : Prop where
  recalls : Recalls id dedupWindow now (marks mark done) (lookIn m)
  spaced : ∀ k, Spaced window (timesUnder mark k done)

/-- What is done now under a key comes first among its times. -/
theorem timesUnder_append (mark : Mark κ) (k : κ) (acts : List ObserverAction) :
    timesUnder mark k (acts.map (now, ·) ++ done) =
      ((acts.filterMap mark).filter (· = k)).map (fun _ => now) ++ timesUnder mark k done := by
  rw [timesUnder, List.filter_append, List.map_append, timesUnder]
  congr 1
  induction acts with
  | nil => rfl
  | cons a acts ih =>
    rw [List.map_cons, List.filter_cons, List.filterMap_cons]
    cases hmark : mark a with
    | none => simpa [hmark] using ih
    | some k' => by_cases hk : k' = k <;> simpa [hmark, hk] using ih

/-- A limiter is right for as long as nothing is done. -/
theorem Limiter.wait (h : Limiter mark window m now done) (hle : now ≤ now') :
    Limiter mark window m now' done := ⟨h.recalls.wait hle, h.spaced⟩

/-- Something of another kind is done. -/
theorem Limiter.idle (h : Limiter mark window m now done) (acts : List ObserverAction)
    (hacts : ∀ a ∈ acts, mark a = none) :
    Limiter mark window m now (acts.map (now, ·) ++ done) := by
  have hnone : acts.filterMap mark = [] := List.filterMap_eq_nil_iff.mpr hacts
  refine ⟨?_, fun k => ?_⟩
  · rw [marks_append, hnone]
    exact h.recalls
  · rw [timesUnder_append, hnone]
    exact h.spaced k

/-- Something of the kind is let pass. -/
theorem Limiter.pass (h : Limiter mark window m now done) (acts : List ObserverAction)
    (hacts : acts.filterMap mark = [k])
    (hquiet : Quiet mark k window done now) (hpast : ∀ a ∈ done, a.1 ≤ now) :
    Limiter mark window (m.insert (k, now)) now (acts.map (now, ·) ++ done) := by
  refine ⟨?_, fun k' => ?_⟩
  · rw [marks_append, hacts]
    exact h.recalls.insert k now
  · rw [timesUnder_append, hacts]
    by_cases hk : k = k'
    · subst hk
      simp only [decide_true, List.filter_cons_of_pos, List.filter_nil, List.map_cons, List.map_nil,
        List.cons_append, List.nil_append]
      refine (h.spaced k).cons fun time htime => ?_
      obtain ⟨a, ha, rfl⟩ := List.mem_map.mp htime
      obtain ⟨hmem, hmark⟩ := List.mem_filter.mp ha
      have hback := hquiet a hmem (of_decide_eq_true hmark)
      have hle := hpast a hmem
      omega
    · rw [List.filter_cons_of_neg (by simpa using hk)]
      exact h.spaced k'

/-- A limiter is right after pruning too. -/
theorem Limiter.pruned (h : Limiter mark window m now done) :
    Limiter mark window (pruned m now) now done := ⟨recalls_pruned h.recalls, h.spaced⟩

end Limits

/-! ## What the detectors do -/

section Detectors

variable {t : CharTable} {realm : Str} {variants : List Str} {o o' : Observer} {line : Str} {now : Nat}
  {a : ObserverAction} {acts : List ObserverAction}

/-- A line is warned about when its address is fresh. -/
theorem mem_maybeWarnBridgeServerAddr : a ∈ (maybeWarnBridgeServerAddr t o line now).2 ↔
    ∃ addr, bridgeAddr t line = some addr ∧ isFresh o.bridgeWarned addr dedupWindow now = true ∧
      a = .warnBridge addr := by
  unfold maybeWarnBridgeServerAddr
  cases bridgeAddr t line with
  | none => simp
  | some addr => cases hfresh : isFresh o.bridgeWarned addr dedupWindow now <;> simp [hfresh]

/-- A group list is healed when its user is fresh and the floor has passed. -/
theorem mem_detectMyGetgrouplistFailureAndHeal :
    a ∈ (detectMyGetgrouplistFailureAndHeal t o line now).2 ↔
      ∃ user ngroups errno, getgrouplistFailure t line = some (user, ngroups, errno) ∧
        isFresh o.healedGetgrouplist user dedupWindow now = true ∧
        (∀ last ∈ o.lastGetgrouplistHeal, getgrouplistFloor ≤ now - last) ∧
        a = .healGetgrouplist user ngroups errno := by
  unfold detectMyGetgrouplistFailureAndHeal
  cases getgrouplistFailure t line with
  | none => simp
  | some failure =>
    obtain ⟨user, ngroups, errno⟩ := failure
    cases hfresh : isFresh o.healedGetgrouplist user dedupWindow now with
    | false => simp [hfresh]
    | true =>
      cases hlast : o.lastGetgrouplistHeal with
      | none => simp [hfresh]
      | some last =>
        by_cases hfloor : now - last < getgrouplistFloor
        · simp [hfresh, hfloor]
        · simp [hfresh, hfloor, not_lt.mp hfloor]

/-- A uid is healed when it is fresh. -/
theorem mem_detectManagedGidsUidFailureAndHeal :
    a ∈ (detectManagedGidsUidFailureAndHeal o line now).2 ↔
      ∃ uid, extractUidFromManagedGidsFailure line = some uid ∧
        isFresh o.healedUids uid dedupWindow now = true ∧ a = .healUid uid := by
  unfold detectManagedGidsUidFailureAndHeal
  cases extractUidFromManagedGidsFailure line with
  | none => simp
  | some uid => cases hfresh : isFresh o.healedUids uid dedupWindow now <;> simp [hfresh]

/-- A candidate is looked at when it is fresh. -/
theorem mem_observeCandidate (h : observeCandidate t realm variants o line now = some (o', acts)) :
    a ∈ acts ↔ ∃ candidate, extractCandidatePrincipal t line realm = some (some candidate) ∧
      isFresh o.recently candidate (candidateWindow line) now = true ∧
      a ∈ candidateActions realm variants line candidate := by
  rw [observeCandidate, Option.map_eq_some_iff] at h
  obtain ⟨found, hfound, hdone⟩ := h
  rw [hfound]
  cases found with
  | none =>
    obtain ⟨rfl, rfl⟩ := Prod.mk.inj hdone
    simp
  | some candidate =>
    simp only at hdone
    cases hfresh : isFresh o.recently candidate (candidateWindow line) now with
    | false =>
      rw [hfresh, if_neg (by simp)] at hdone
      obtain ⟨rfl, rfl⟩ := Prod.mk.inj hdone
      simp [hfresh]
    | true =>
      rw [hfresh, if_pos rfl] at hdone
      obtain ⟨rfl, rfl⟩ := Prod.mk.inj hdone
      simp [hfresh]

/-- What is done for a candidate is of its kind, and counts once. -/
theorem filterMap_candidateMark (candidate : Str) :
    (candidateActions realm variants line candidate).filterMap candidateMark = [candidate] := by
  unfold candidateActions
  cases unmappedPrincipalNeedsHeal candidate realm variants <;> cases isFailureLine line <;> rfl

/-- **What is done for a candidate**: a client machine is observed, and anybody else is resolved and,
after a failure, healed. -/
theorem mem_candidateActions {candidate : Str} :
    a ∈ candidateActions realm variants line candidate ↔
      (unmappedPrincipalNeedsHeal candidate realm variants = false ∧ a = .observeMachine candidate) ∨
      (unmappedPrincipalNeedsHeal candidate realm variants = true ∧
        (a = .resolve candidate ∨ isFailureLine line = true ∧
          a = .healPrincipal candidate (containsStr "Could not map principal ".toList line))) := by
  unfold candidateActions
  cases unmappedPrincipalNeedsHeal candidate realm variants <;> cases isFailureLine line <;> simp

/-- A candidate is healed at most as often as it is looked at. -/
theorem filterMap_healMark_sublist (candidate : Str) :
    ((candidateActions realm variants line candidate).filterMap healMark).Sublist
      ((candidateActions realm variants line candidate).filterMap candidateMark) := by
  rw [filterMap_candidateMark]
  unfold candidateActions
  cases unmappedPrincipalNeedsHeal candidate realm variants with
  | false => exact List.nil_sublist _
  | true =>
    cases isFailureLine line with
    | false => exact List.nil_sublist _
    | true => exact List.Sublist.refl _

/-- Nothing is done twice for a candidate. -/
theorem nodup_candidateActions (candidate : Str) :
    (candidateActions realm variants line candidate).Nodup := by
  unfold candidateActions
  cases unmappedPrincipalNeedsHeal candidate realm variants <;> cases isFailureLine line <;> simp

/-- It is of no other kind. -/
theorem marks_candidateActions {candidate : Str}
    (h : a ∈ candidateActions realm variants line candidate) :
    bridgeMark a = none ∧ getgrouplistMark a = none ∧ uidMark a = none := by
  rcases mem_candidateActions.mp h with ⟨-, rfl⟩ | ⟨-, rfl | ⟨-, rfl⟩⟩
  all_goals exact ⟨rfl, rfl, rfl⟩

/-- A warning is of no other kind. -/
theorem marks_of_bridge (h : a ∈ (maybeWarnBridgeServerAddr t o line now).2) :
    getgrouplistMark a = none ∧ uidMark a = none ∧ candidateMark a = none := by
  obtain ⟨addr, -, -, rfl⟩ := mem_maybeWarnBridgeServerAddr.mp h
  exact ⟨rfl, rfl, rfl⟩

/-- The heal of a group list is of no later kind. -/
theorem marks_of_getgrouplist (h : a ∈ (detectMyGetgrouplistFailureAndHeal t o line now).2) :
    uidMark a = none ∧ candidateMark a = none := by
  obtain ⟨user, ngroups, errno, -, -, -, rfl⟩ := mem_detectMyGetgrouplistFailureAndHeal.mp h
  exact ⟨rfl, rfl⟩

/-- The heal of a uid is no look at a candidate. -/
theorem marks_of_uid (h : a ∈ (detectManagedGidsUidFailureAndHeal o line now).2) :
    candidateMark a = none := by
  obtain ⟨uid, -, -, rfl⟩ := mem_detectManagedGidsUidFailureAndHeal.mp h
  rfl

/-- No window of a candidate is longer than the usual one. -/
theorem candidateWindow_le (line : Str) : candidateWindow line ≤ dedupWindow := by
  unfold candidateWindow failureDedupWindow dedupWindow
  split <;> omega

/-- No window of a candidate is shorter than the one behind a failure. -/
theorem le_candidateWindow (line : Str) : failureDedupWindow ≤ candidateWindow line := by
  unfold candidateWindow failureDedupWindow dedupWindow
  split <;> omega

end Detectors

/-! ## What is kept from line to line -/

/-- The limiters know what was done, and it lies its windows apart. -/
structure LimitersKept (s : Observing) : Prop where
  ordered : Ordered s.done
  past : ∀ a ∈ s.done, a.1 ≤ s.now
  bridge : Limiter bridgeMark dedupWindow s.observer.bridgeWarned s.now s.done
  getgrouplist : Limiter getgrouplistMark dedupWindow s.observer.healedGetgrouplist s.now s.done
  uid : Limiter uidMark dedupWindow s.observer.healedUids s.now s.done
  candidate : Limiter candidateMark failureDedupWindow s.observer.recently s.now s.done
  heals : ∀ candidate, (timesUnder healMark candidate s.done).Sublist
    (timesUnder candidateMark candidate s.done)
  lastHeal : s.observer.lastGetgrouplistHeal = (timesOf getgrouplistMark s.done).head?
  floor : Spaced getgrouplistFloor (timesOf getgrouplistMark s.done)

section Steps

variable {t : CharTable} {realm : Str} {variants : List Str} {s : Observing} {line : Str} {delay : Nat}

/-- At the start the limiters know all that was done, which is nothing. -/
theorem kept_start (now : Nat) : LimitersKept (Observing.start now) where
  ordered := List.Pairwise.nil
  past := by simp [Observing.start]
  bridge := ⟨recalls_empty, fun _ => List.Pairwise.nil⟩
  getgrouplist := ⟨recalls_empty, fun _ => List.Pairwise.nil⟩
  uid := ⟨recalls_empty, fun _ => List.Pairwise.nil⟩
  candidate := ⟨recalls_empty, fun _ => List.Pairwise.nil⟩
  heals _ := List.Sublist.refl _
  lastHeal := rfl
  floor := List.Pairwise.nil

/-- The limiters are right for as long as nothing is done. -/
theorem LimitersKept.wait (h : LimitersKept s) (wait : Nat) : LimitersKept { s with now := s.now + wait } where
  ordered := h.ordered
  past a ha := le_trans (h.past a ha) (Nat.le_add_right _ _)
  bridge := h.bridge.wait (Nat.le_add_right _ _)
  getgrouplist := h.getgrouplist.wait (Nat.le_add_right _ _)
  uid := h.uid.wait (Nat.le_add_right _ _)
  candidate := h.candidate.wait (Nat.le_add_right _ _)
  heals := h.heals
  lastHeal := h.lastHeal
  floor := h.floor

/-- The last heal of a group list stands for all of them. -/
theorem LimitersKept.floor_iff (h : LimitersKept s) (now : Nat) :
    (∀ last ∈ s.observer.lastGetgrouplistHeal, getgrouplistFloor ≤ now - last) ↔
      AllQuiet getgrouplistMark getgrouplistFloor s.done now := by
  have hmem : ∀ a, a ∈ s.done.filter (fun a => (getgrouplistMark a.2).isSome) ↔
      a ∈ s.done ∧ getgrouplistMark a.2 ≠ none := by
    intro a
    rw [List.mem_filter, Option.isSome_iff_ne_none]
  -- the newest of the heals stands in front
  have hordered : Ordered (s.done.filter fun a => (getgrouplistMark a.2).isSome) :=
    List.Pairwise.sublist List.filter_sublist h.ordered
  rw [h.lastHeal, timesOf, List.head?_map]
  unfold AllQuiet
  cases hheals : s.done.filter fun a => (getgrouplistMark a.2).isSome with
  | nil =>
    rw [hheals] at hmem
    refine iff_of_true (by simp) fun a ha hmark => ?_
    exact absurd ((hmem a).mpr ⟨ha, hmark⟩) List.not_mem_nil
  | cons latest earlier =>
    rw [hheals] at hmem hordered
    constructor
    · intro hlast a ha hmark
      have hback := hlast latest.1 (by simp)
      rcases List.mem_cons.mp ((hmem a).mpr ⟨ha, hmark⟩) with rfl | hearlier
      · exact hback
      · have hle : a.1 ≤ latest.1 := (List.pairwise_cons.mp hordered).1 a hearlier
        omega
    · intro hquiet last hlast
      rw [List.head?_cons, Option.map_some, Option.mem_some_iff] at hlast
      obtain ⟨hdone, hmark⟩ := (hmem latest).mp List.mem_cons_self
      exact hlast ▸ hquiet latest hdone hmark

/-- What is no heal of a group list leaves their times alone. -/
theorem timesOf_append_idle {acts : List ObserverAction} {done : List (Nat × ObserverAction)} {now : Nat}
    (hacts : ∀ a ∈ acts, getgrouplistMark a = none) :
    timesOf getgrouplistMark (acts.map (now, ·) ++ done) = timesOf getgrouplistMark done := by
  have hnone : (acts.map (now, ·)).filter (fun a => (getgrouplistMark a.2).isSome) = [] := by
    rw [List.filter_eq_nil_iff]
    intro a ha
    obtain ⟨act, hact, rfl⟩ := List.mem_map.mp ha
    simp [hacts act hact]
  rw [timesOf, List.filter_append, hnone, List.nil_append, timesOf]

/-- Heals stay behind their resolves, whatever is done at one moment. -/
theorem heals_append {acts : List ObserverAction} {done : List (Nat × ObserverAction)} {now : Nat}
    (h : ∀ candidate, (timesUnder healMark candidate done).Sublist
      (timesUnder candidateMark candidate done))
    (hacts : (acts.filterMap healMark).Sublist (acts.filterMap candidateMark)) (candidate : Str) :
    (timesUnder healMark candidate (acts.map (now, ·) ++ done)).Sublist
      (timesUnder candidateMark candidate (acts.map (now, ·) ++ done)) := by
  rw [timesUnder_append, timesUnder_append]
  exact ((hacts.filter _).map _).append (h candidate)

/-- The limiters are right after the first detector. -/
theorem LimitersKept.after_bridge (h : LimitersKept s) :
    LimitersKept (s.after delay (maybeWarnBridgeServerAddr t s.observer line)) := by
  have hwait := h.wait delay
  unfold Observing.after maybeWarnBridgeServerAddr
  cases bridgeAddr t line with
  | none => exact hwait
  | some addr =>
    cases hfresh : isFresh s.observer.bridgeWarned addr dedupWindow (s.now + delay) with
    | false =>
      simp only [hfresh]
      exact hwait
    | true =>
      have hquiet := (isFresh_iff hwait.bridge.recalls hwait.ordered le_rfl).mp hfresh
      simp only [hfresh]
      exact
        { ordered := hwait.ordered.append hwait.past [.warnBridge addr]
          past := past_append hwait.past [.warnBridge addr]
          bridge := hwait.bridge.pass [.warnBridge addr] rfl hquiet hwait.past
          getgrouplist := hwait.getgrouplist.idle [.warnBridge addr] (by simp [getgrouplistMark])
          uid := hwait.uid.idle [.warnBridge addr] (by simp [uidMark])
          candidate := hwait.candidate.idle [.warnBridge addr] (by simp [candidateMark])
          heals := heals_append hwait.heals (List.Sublist.refl _)
          lastHeal := hwait.lastHeal
          floor := hwait.floor }

/-- The limiters are right after the second detector. -/
theorem LimitersKept.after_getgrouplist (h : LimitersKept s) :
    LimitersKept (s.after delay (detectMyGetgrouplistFailureAndHeal t s.observer line)) := by
  have hwait := h.wait delay
  unfold Observing.after detectMyGetgrouplistFailureAndHeal
  -- nothing is done where the line shows no failure, the user was healed lately or the floor holds
  cases getgrouplistFailure t line with
  | none => exact hwait
  | some failure =>
    obtain ⟨user, ngroups, errno⟩ := failure
    cases hfresh : isFresh s.observer.healedGetgrouplist user dedupWindow (s.now + delay) with
    | false =>
      simp only [hfresh]
      exact hwait
    | true =>
      by_cases hfloor : (s.observer.lastGetgrouplistHeal.any fun last =>
          s.now + delay - last < getgrouplistFloor) = true
      · simp only [hfresh, hfloor]
        exact hwait
      · have hquiet := (isFresh_iff hwait.getgrouplist.recalls hwait.ordered le_rfl).mp hfresh
        -- a heal lies at least the floor behind: the observer's last one is the last of those done
        have hback : ∀ last ∈ timesOf getgrouplistMark s.done, last + getgrouplistFloor ≤ s.now + delay := by
          intro last hlast
          obtain ⟨a, ha, rfl⟩ := List.mem_map.mp hlast
          obtain ⟨hmem, hmark⟩ := List.mem_filter.mp ha
          have hlast : ∀ last ∈ s.observer.lastGetgrouplistHeal,
              getgrouplistFloor ≤ s.now + delay - last := by
            intro last hlast
            by_contra hlt
            exact hfloor ((Option.any_eq_true _ _).mpr ⟨last, hlast, by simpa using hlt⟩)
          have hquiet := (h.floor_iff (s.now + delay)).mp hlast a hmem
            (Option.isSome_iff_ne_none.mp hmark)
          have hle : a.1 ≤ s.now + delay := hwait.past a hmem
          omega
        simp only [hfresh, hfloor]
        exact
          { ordered := hwait.ordered.append hwait.past [.healGetgrouplist user ngroups errno]
            past := past_append hwait.past [.healGetgrouplist user ngroups errno]
            bridge := hwait.bridge.idle [.healGetgrouplist user ngroups errno] (by simp [bridgeMark])
            getgrouplist :=
              (hwait.getgrouplist.pass [.healGetgrouplist user ngroups errno] rfl hquiet
                hwait.past).pruned
            uid := hwait.uid.idle [.healGetgrouplist user ngroups errno] (by simp [uidMark])
            candidate :=
              hwait.candidate.idle [.healGetgrouplist user ngroups errno] (by simp [candidateMark])
            heals := heals_append hwait.heals (List.Sublist.refl _)
            lastHeal := rfl
            floor := hwait.floor.cons hback }

/-- The limiters are right after the third detector. -/
theorem LimitersKept.after_uid (h : LimitersKept s) :
    LimitersKept (s.after delay (detectManagedGidsUidFailureAndHeal s.observer line)) := by
  have hwait := h.wait delay
  unfold Observing.after detectManagedGidsUidFailureAndHeal
  cases extractUidFromManagedGidsFailure line with
  | none => exact hwait
  | some uid =>
    cases hfresh : isFresh s.observer.healedUids uid dedupWindow (s.now + delay) with
    | false =>
      simp only [hfresh]
      exact hwait
    | true =>
      have hquiet := (isFresh_iff hwait.uid.recalls hwait.ordered le_rfl).mp hfresh
      simp only [hfresh]
      exact
        { ordered := hwait.ordered.append hwait.past [.healUid uid]
          past := past_append hwait.past [.healUid uid]
          bridge := hwait.bridge.idle [.healUid uid] (by simp [bridgeMark])
          getgrouplist := hwait.getgrouplist.idle [.healUid uid] (by simp [getgrouplistMark])
          uid := hwait.uid.pass [.healUid uid] rfl hquiet hwait.past
          candidate := hwait.candidate.idle [.healUid uid] (by simp [candidateMark])
          heals := heals_append hwait.heals (List.Sublist.refl _)
          lastHeal := hwait.lastHeal
          floor := hwait.floor }

/-- The limiters are right after the candidate. -/
theorem LimitersKept.after_candidate (h : LimitersKept s) {r : Observer × List ObserverAction}
    (hr : observeCandidate t realm variants s.observer line (s.now + delay) = some r) :
    LimitersKept (s.after delay fun _ => r) := by
  have hwait := h.wait delay
  rw [observeCandidate, Option.map_eq_some_iff] at hr
  obtain ⟨found, -, rfl⟩ := hr
  cases found with
  | none => exact hwait
  | some candidate =>
    unfold Observing.after
    -- a candidate that is within its window is dropped
    cases hfresh : isFresh s.observer.recently candidate (candidateWindow line) (s.now + delay) with
    | false =>
      simp only [hfresh]
      exact hwait
    | true =>
      -- the window of the line is never shorter than the one that is promised
      have hquiet : Quiet candidateMark candidate failureDedupWindow s.done (s.now + delay) :=
        fun a ha hmark => le_trans (le_candidateWindow line)
          ((isFresh_iff hwait.candidate.recalls hwait.ordered (candidateWindow_le line)).mp hfresh a ha hmark)
      have hlast : timesOf getgrouplistMark
          ((candidateActions realm variants line candidate).map (s.now + delay, ·) ++ s.done) =
            timesOf getgrouplistMark s.done :=
        timesOf_append_idle fun a ha => (marks_candidateActions ha).2.1
      simp only [hfresh]
      exact
        { ordered := hwait.ordered.append hwait.past _
          past := past_append hwait.past _
          bridge := hwait.bridge.idle _ fun a ha => (marks_candidateActions ha).1
          getgrouplist := hwait.getgrouplist.idle _ fun a ha => (marks_candidateActions ha).2.1
          uid := hwait.uid.idle _ fun a ha => (marks_candidateActions ha).2.2
          candidate :=
            (hwait.candidate.pass _ (filterMap_candidateMark candidate) hquiet hwait.past).pruned
          heals := heals_append hwait.heals (filterMap_healMark_sublist candidate)
          lastHeal := hwait.lastHeal.trans (congrArg List.head? hlast.symm)
          floor := (congrArg (Spaced getgrouplistFloor) hlast).mpr hwait.floor }

/-- Each detector answers what its line names, when nothing of the kind was done within the window. -/
theorem LimitersKept.mem_bridge (h : LimitersKept s) {a : ObserverAction} :
    a ∈ (maybeWarnBridgeServerAddr t s.observer line (s.now + delay)).2 ↔
      ∃ addr, bridgeAddr t line = some addr ∧
        Quiet bridgeMark addr dedupWindow s.done (s.now + delay) ∧ a = .warnBridge addr := by
  rw [mem_maybeWarnBridgeServerAddr]
  exact exists_congr fun addr => and_congr_right fun _ => and_congr_left fun _ =>
    isFresh_iff (h.wait delay).bridge.recalls h.ordered le_rfl

/-- A group list is healed when its user was quiet, and all users were for the floor. -/
theorem LimitersKept.mem_getgrouplist (h : LimitersKept s) {a : ObserverAction} :
    a ∈ (detectMyGetgrouplistFailureAndHeal t s.observer line (s.now + delay)).2 ↔
      ∃ user ngroups errno, getgrouplistFailure t line = some (user, ngroups, errno) ∧
        Quiet getgrouplistMark user dedupWindow s.done (s.now + delay) ∧
        AllQuiet getgrouplistMark getgrouplistFloor s.done (s.now + delay) ∧
        a = .healGetgrouplist user ngroups errno := by
  rw [mem_detectMyGetgrouplistFailureAndHeal]
  refine exists_congr fun user => exists_congr fun _ => exists_congr fun _ => and_congr_right fun _ => ?_
  rw [isFresh_iff (h.wait delay).getgrouplist.recalls h.ordered le_rfl, h.floor_iff]

/-- A uid is healed when it was quiet. -/
theorem LimitersKept.mem_uid (h : LimitersKept s) {a : ObserverAction} :
    a ∈ (detectManagedGidsUidFailureAndHeal s.observer line (s.now + delay)).2 ↔
      ∃ uid, extractUidFromManagedGidsFailure line = some uid ∧
        Quiet uidMark uid dedupWindow s.done (s.now + delay) ∧ a = .healUid uid := by
  rw [mem_detectManagedGidsUidFailureAndHeal]
  exact exists_congr fun uid => and_congr_right fun _ => and_congr_left fun _ =>
    isFresh_iff (h.wait delay).uid.recalls h.ordered le_rfl

/-- A candidate is looked at when it was quiet. -/
theorem LimitersKept.mem_candidate (h : LimitersKept s) {a : ObserverAction} :
    a ∈ (observeCandidate t realm variants s.observer line (s.now + delay)).elim [] Prod.snd ↔
      ∃ candidate, extractCandidatePrincipal t line realm = some (some candidate) ∧
        Quiet candidateMark candidate (candidateWindow line) s.done (s.now + delay) ∧
        a ∈ candidateActions realm variants line candidate := by
  have hiff : ∀ candidate, isFresh s.observer.recently candidate (candidateWindow line) (s.now + delay) =
      true ↔ Quiet candidateMark candidate (candidateWindow line) s.done (s.now + delay) :=
    fun _ => isFresh_iff (h.wait delay).candidate.recalls h.ordered (candidateWindow_le line)
  cases hr : observeCandidate t realm variants s.observer line (s.now + delay) with
  | none =>
    have hpanic : extractCandidatePrincipal t line realm = none := by
      rw [observeCandidate, Option.map_eq_none_iff] at hr
      exact hr
    simp [hpanic]
  | some r =>
    rw [Option.elim_some, mem_observeCandidate hr]
    exact exists_congr fun candidate => and_congr_right fun _ => and_congr_left fun _ => hiff candidate

/-- The limiters are right after the three detectors. -/
theorem LimitersKept.detect (h : LimitersKept s) (w : Waits) : LimitersKept (s.detect t line w) :=
  h.after_bridge.after_getgrouplist.after_uid

/-- **A line** leaves the limiters right. -/
theorem LimitersKept.step (h : LimitersKept s) (l : Str × Waits) : LimitersKept (s.step t realm variants l) := by
  have hdetect : LimitersKept (s.detect t (trim l.1) l.2) := h.detect l.2
  unfold Observing.step
  cases s.alive with
  | false => exact h
  | true =>
    simp only [Bool.not_true, Bool.false_eq_true, if_false]
    cases hr : observeCandidate t realm variants (s.detect t (trim l.1) l.2).observer (trim l.1)
        ((s.detect t (trim l.1) l.2).now + l.2.candidate) with
    | none => exact { hdetect with }
    | some r => exact hdetect.after_candidate hr

/-- What is done lies its windows apart, so that a span of time holds little of it. -/
theorem LimitersKept.withinBudget (h : LimitersKept s) : WithinBudget s.done where
  getgrouplist := h.floor.oncePer (by decide)
  getgrouplist_user user := (h.getgrouplist.spaced user).oncePer (by decide)
  uid uid := (h.uid.spaced uid).oncePer (by decide)
  bridge addr := (h.bridge.spaced addr).oncePer (by decide)
  candidate candidate := (h.candidate.spaced candidate).oncePer (by decide)
  heal candidate :=
    Spaced.oncePer (by decide) (List.Pairwise.sublist (h.heals candidate) (h.candidate.spaced candidate))

end Steps

/-! ## A line -/

section Line

variable {t : CharTable} {realm : Str} {variants : List Str} {s : Observing} {l : Str × Waits}
  {o : Observer} {line : Str} {time now : Nat} {a : ObserverAction} {acts : List ObserverAction}

/-- What is done at one time has this time. -/
theorem mem_map_at : (time, a) ∈ acts.map (now, ·) ↔ time = now ∧ a ∈ acts := by
  rw [List.mem_map]
  constructor
  · rintro ⟨b, hb, heq⟩
    obtain ⟨rfl, rfl⟩ := Prod.mk.inj heq
    exact ⟨rfl, hb⟩
  · rintro ⟨rfl, ha⟩
    exact ⟨a, ha, rfl⟩

/-- What the four detectors do about the line, the candidate's first. -/
def lineActs (t : CharTable) (realm : Str) (variants : List Str) (s : Observing) (l : Str × Waits) :
    List (Nat × ObserverAction) :=
  let s₁ := s.after l.2.bridge (maybeWarnBridgeServerAddr t s.observer (trim l.1))
  let s₂ := s₁.after l.2.getgrouplist (detectMyGetgrouplistFailureAndHeal t s₁.observer (trim l.1))
  let s₃ := s₂.after l.2.uid (detectManagedGidsUidFailureAndHeal s₂.observer (trim l.1))
  ((observeCandidate t realm variants s₃.observer (trim l.1) (s₃.now + l.2.candidate)).elim []
      Prod.snd).map (s₃.now + l.2.candidate, ·) ++
    ((detectManagedGidsUidFailureAndHeal s₂.observer (trim l.1) s₃.now).2.map (s₃.now, ·) ++
      ((detectMyGetgrouplistFailureAndHeal t s₁.observer (trim l.1) s₂.now).2.map (s₂.now, ·) ++
        (maybeWarnBridgeServerAddr t s.observer (trim l.1) s₁.now).2.map (s₁.now, ·)))

/-- A line adds what its detectors do. -/
theorem done_step (halive : s.alive = true) :
    (s.step t realm variants l).done = lineActs t realm variants s l ++ s.done := by
  unfold Observing.step lineActs
  rw [halive]
  simp only [Bool.not_true, Bool.false_eq_true, if_false]
  unfold Observing.detect
  simp only
  cases observeCandidate t realm variants _ (trim l.1) _ with
  | none => simp [Observing.after]
  | some r => simp [Observing.after]

/-- A detector does one thing at most. -/
theorem nodup_bridge : (maybeWarnBridgeServerAddr t o line now).2.Nodup := by
  unfold maybeWarnBridgeServerAddr
  split
  · exact List.nodup_nil
  · split
    · exact List.nodup_singleton _
    · exact List.nodup_nil

/-- At most one group list is healed for a line. -/
theorem nodup_getgrouplist : (detectMyGetgrouplistFailureAndHeal t o line now).2.Nodup := by
  unfold detectMyGetgrouplistFailureAndHeal
  split
  · exact List.nodup_nil
  · split
    · exact List.nodup_nil
    · split
      · exact List.nodup_nil
      · exact List.nodup_singleton _

/-- At most one uid is healed for a line. -/
theorem nodup_uid : (detectManagedGidsUidFailureAndHeal o line now).2.Nodup := by
  unfold detectManagedGidsUidFailureAndHeal
  split
  · exact List.nodup_nil
  · split
    · exact List.nodup_singleton _
    · exact List.nodup_nil

/-- Nothing is done twice for the candidate of a line. -/
theorem nodup_candidate :
    ((observeCandidate t realm variants o line now).elim [] Prod.snd).Nodup := by
  unfold observeCandidate
  cases extractCandidatePrincipal t line realm with
  | none => exact List.nodup_nil
  | some found =>
    cases found with
    | none => exact List.nodup_nil
    | some candidate =>
      rw [Option.map_some, Option.elim_some]
      cases hfresh : isFresh o.recently candidate (candidateWindow line) now with
      | false =>
        simp only [hfresh]
        exact List.nodup_nil
      | true =>
        simp only [hfresh]
        exact nodup_candidateActions candidate

section LineAnswers

variable {done : List (Nat × ObserverAction)} {w : Waits} {C U G B : List ObserverAction}

/-- What the four detectors do, each when it goes by what was done before the line. -/
structure LineAnswers (t : CharTable) (realm : Str) (variants : List Str)
    (done : List (Nat × ObserverAction)) (now : Nat) (line : Str) (w : Waits)
    (C U G B : List ObserverAction) : Prop where
  bridge : ∀ a, a ∈ B ↔ ∃ addr, bridgeAddr t line = some addr ∧
    Quiet bridgeMark addr dedupWindow done (now + w.bridge) ∧ a = .warnBridge addr
  getgrouplist : ∀ a, a ∈ G ↔ ∃ user ngroups errno,
    getgrouplistFailure t line = some (user, ngroups, errno) ∧
    Quiet getgrouplistMark user dedupWindow done (now + w.bridge + w.getgrouplist) ∧
    AllQuiet getgrouplistMark getgrouplistFloor done (now + w.bridge + w.getgrouplist) ∧
    a = .healGetgrouplist user ngroups errno
  uid : ∀ a, a ∈ U ↔ ∃ uid, extractUidFromManagedGidsFailure line = some uid ∧
    Quiet uidMark uid dedupWindow done (now + w.bridge + w.getgrouplist + w.uid) ∧ a = .healUid uid
  candidate : ∀ a, a ∈ C ↔ ∃ candidate, extractCandidatePrincipal t line realm = some (some candidate) ∧
    Quiet candidateMark candidate (candidateWindow line) done
      (now + w.bridge + w.getgrouplist + w.uid + w.candidate) ∧
    a ∈ candidateActions realm variants line candidate
  onceB : B.Nodup
  onceG : G.Nodup
  onceU : U.Nodup
  onceC : C.Nodup

/-- All that is done about the line, the latest first. -/
def allActs (now : Nat) (w : Waits) (C U G B : List ObserverAction) : List (Nat × ObserverAction) :=
  C.map (now + w.bridge + w.getgrouplist + w.uid + w.candidate, ·) ++
    (U.map (now + w.bridge + w.getgrouplist + w.uid, ·) ++
      (G.map (now + w.bridge + w.getgrouplist, ·) ++ B.map (now + w.bridge, ·)))

/-- What is done about a line is done by one of the detectors, at its time. -/
theorem mem_allActs : (time, a) ∈ allActs now w C U G B ↔
    time = now + w.bridge + w.getgrouplist + w.uid + w.candidate ∧ a ∈ C ∨
      time = now + w.bridge + w.getgrouplist + w.uid ∧ a ∈ U ∨
        time = now + w.bridge + w.getgrouplist ∧ a ∈ G ∨ time = now + w.bridge ∧ a ∈ B := by
  rw [allActs, List.mem_append, List.mem_append, List.mem_append, mem_map_at, mem_map_at, mem_map_at,
    mem_map_at]

/-- What is done is due. -/
theorem LineAnswers.due_of_mem (h : LineAnswers t realm variants done now line w C U G B)
    (ha : (time, a) ∈ allActs now w C U G B) : Due t realm variants done now line w time a := by
  rcases mem_allActs.mp ha with ⟨rfl, hC⟩ | ⟨rfl, hU⟩ | ⟨rfl, hG⟩ | ⟨rfl, hB⟩
  · obtain ⟨candidate, hline, hquiet, hact⟩ := (h.candidate a).mp hC
    rcases mem_candidateActions.mp hact with ⟨hneeds, rfl⟩ | ⟨hneeds, rfl | ⟨hfail, rfl⟩⟩
    · exact .machine candidate hline hquiet hneeds
    · exact .resolve candidate hline hquiet hneeds
    · exact .heal candidate hline hquiet hneeds hfail
  · obtain ⟨uid, hline, hquiet, rfl⟩ := (h.uid a).mp hU
    exact .uid uid hline hquiet
  · obtain ⟨user, ngroups, errno, hline, hquiet, hfloor, rfl⟩ := (h.getgrouplist a).mp hG
    exact .getgrouplist user ngroups errno hline hquiet hfloor
  · obtain ⟨addr, hline, hquiet, rfl⟩ := (h.bridge a).mp hB
    exact .bridge addr hline hquiet

/-- What is due is done. -/
theorem LineAnswers.mem_of_due (h : LineAnswers t realm variants done now line w C U G B)
    (hdue : Due t realm variants done now line w time a) : (time, a) ∈ allActs now w C U G B := by
  rw [mem_allActs]
  cases hdue with
  | bridge addr hline hquiet =>
    exact .inr (.inr (.inr ⟨rfl, (h.bridge _).mpr ⟨addr, hline, hquiet, rfl⟩⟩))
  | getgrouplist user ngroups errno hline hquiet hfloor =>
    exact .inr (.inr (.inl ⟨rfl,
      (h.getgrouplist _).mpr ⟨user, ngroups, errno, hline, hquiet, hfloor, rfl⟩⟩))
  | uid uid hline hquiet => exact .inr (.inl ⟨rfl, (h.uid _).mpr ⟨uid, hline, hquiet, rfl⟩⟩)
  | machine candidate hline hquiet hneeds =>
    exact .inl ⟨rfl, (h.candidate _).mpr
      ⟨candidate, hline, hquiet, mem_candidateActions.mpr (.inl ⟨hneeds, rfl⟩)⟩⟩
  | resolve candidate hline hquiet hneeds =>
    exact .inl ⟨rfl, (h.candidate _).mpr
      ⟨candidate, hline, hquiet, mem_candidateActions.mpr (.inr ⟨hneeds, .inl rfl⟩)⟩⟩
  | heal candidate hline hquiet hneeds hfail =>
    exact .inl ⟨rfl, (h.candidate _).mpr
      ⟨candidate, hline, hquiet, mem_candidateActions.mpr (.inr ⟨hneeds, .inr ⟨hfail, rfl⟩⟩)⟩⟩

/-- The detectors do different things. -/
theorem LineAnswers.nodup (h : LineAnswers t realm variants done now line w C U G B) :
    (allActs now w C U G B).Nodup := by
  -- all acts bear one time, so that they differ as acts
  have hmap : ∀ (time : Nat) {acts : List ObserverAction}, acts.Nodup →
      (acts.map (time, ·)).Nodup :=
    fun time _ hacts => hacts.map fun _ _ heq => (Prod.mk.inj heq).2
  -- and no act bears the marks of two detectors
  refine List.nodup_append.mpr ⟨hmap _ h.onceC, List.nodup_append.mpr ⟨hmap _ h.onceU,
    List.nodup_append.mpr ⟨hmap _ h.onceG, hmap _ h.onceB, ?_⟩, ?_⟩, ?_⟩
  · rintro ⟨time, a⟩ ha b hb rfl
    obtain ⟨user, _, _, -, -, -, rfl⟩ := (h.getgrouplist a).mp (mem_map_at.mp ha).2
    obtain ⟨addr, -, -, heq⟩ := (h.bridge _).mp (mem_map_at.mp hb).2
    exact nomatch heq
  · rintro ⟨time, a⟩ ha b hb rfl
    obtain ⟨uid, -, -, rfl⟩ := (h.uid a).mp (mem_map_at.mp ha).2
    rcases List.mem_append.mp hb with hb | hb
    · obtain ⟨user, _, _, -, -, -, heq⟩ := (h.getgrouplist _).mp (mem_map_at.mp hb).2
      exact nomatch heq
    · obtain ⟨addr, -, -, heq⟩ := (h.bridge _).mp (mem_map_at.mp hb).2
      exact nomatch heq
  · rintro ⟨time, a⟩ ha b hb rfl
    obtain ⟨candidate, -, -, hact⟩ := (h.candidate a).mp (mem_map_at.mp ha).2
    obtain ⟨hbridge, hgetgrouplist, huid⟩ := marks_candidateActions hact
    rcases List.mem_append.mp hb with hb | hb
    · obtain ⟨uid, -, -, rfl⟩ := (h.uid _).mp (mem_map_at.mp hb).2
      exact nomatch huid
    · rcases List.mem_append.mp hb with hb | hb
      · obtain ⟨user, _, _, -, -, -, rfl⟩ := (h.getgrouplist _).mp (mem_map_at.mp hb).2
        exact nomatch hgetgrouplist
      · obtain ⟨addr, -, -, rfl⟩ := (h.bridge _).mp (mem_map_at.mp hb).2
        exact nomatch hbridge

/-- What the detectors do is what is due. -/
theorem LineAnswers.granted (h : LineAnswers t realm variants done now line w C U G B) :
    Granted t realm variants done now line w (allActs now w C U G B) where
  due _ _ := ⟨h.due_of_mem, h.mem_of_due⟩
  once := h.nodup

end LineAnswers

/-- **A line is answered with what is due**, when the limiters are right. -/
theorem granted_lineActs (h : LimitersKept s) :
    Granted t realm variants s.done s.now (trim l.1) l.2 (lineActs t realm variants s l) := by
  have h₁ : LimitersKept (s.after l.2.bridge (maybeWarnBridgeServerAddr t s.observer (trim l.1))) :=
    h.after_bridge
  have h₂ : LimitersKept (Observing.after _ l.2.getgrouplist
      (detectMyGetgrouplistFailureAndHeal t _ (trim l.1))) := h₁.after_getgrouplist
  have h₃ : LimitersKept (Observing.after _ l.2.uid (detectManagedGidsUidFailureAndHeal _ (trim l.1))) :=
    h₂.after_uid
  refine LineAnswers.granted ⟨fun a => h.mem_bridge, fun a => h₁.mem_getgrouplist.trans ?_,
    fun a => h₂.mem_uid.trans ?_, fun a => h₃.mem_candidate.trans ?_, nodup_bridge, nodup_getgrouplist,
    nodup_uid, nodup_candidate⟩
  · refine exists_congr fun user => exists_congr fun _ => exists_congr fun _ => and_congr_right fun _ => ?_
    have hother : ∀ a ∈ (maybeWarnBridgeServerAddr t s.observer (trim l.1) (s.now + l.2.bridge)).2,
        getgrouplistMark a = none := fun a ha => (marks_of_bridge ha).1
    exact and_congr (quiet_append_iff (fun a ha => by simp [hother a ha]) _)
      (and_congr_left' (allQuiet_append_iff hother _))
  · refine exists_congr fun uid => and_congr_right fun _ => and_congr_left' ?_
    exact (quiet_append_iff (fun a ha => by simp [(marks_of_getgrouplist ha).1]) _).trans
      (quiet_append_iff (fun a ha => by simp [(marks_of_bridge ha).2.1]) _)
  · refine exists_congr fun candidate => and_congr_right fun _ => and_congr_left' ?_
    exact ((quiet_append_iff (fun a ha => by simp [marks_of_uid ha]) _).trans
      (quiet_append_iff (fun a ha => by simp [(marks_of_getgrouplist ha).2]) _)).trans
      (quiet_append_iff (fun a ha => by simp [(marks_of_bridge ha).2.2]) _)

end Line

/-- **The observer keeps to its windows.** -/
theorem granted_and_budget (t : CharTable) (realm : Str) (variants : List Str) (now : Nat)
    (lines : List (Str × Waits)) :
    EveryStep (Observing.step t realm variants)
      (fun s l => s.alive = true → ∃ acts, (s.step t realm variants l).done = acts ++ s.done ∧
        Granted t realm variants s.done s.now (trim l.1) l.2 acts)
      (Observing.start now) lines ∧
    WithinBudget (lines.foldl (Observing.step t realm variants) (Observing.start now)).done := by
  constructor
  · exact everyStep_of_invariant LimitersKept
      (fun s l _ h => ⟨fun halive => ⟨_, done_step halive, granted_lineActs h⟩, h.step l⟩)
      (kept_start now)
  · have hkept : ∀ (lines : List (Str × Waits)) (s : Observing), LimitersKept s →
        LimitersKept (lines.foldl (Observing.step t realm variants) s) := by
      intro lines
      induction lines with
      | nil => exact fun s h => h
      | cons l lines ih => exact fun s h => ih _ (h.step l)
    exact (hkept lines _ (kept_start now)).withinBudget

end NfsKlldap
