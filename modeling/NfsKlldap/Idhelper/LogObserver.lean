import NfsKlldap.Identity.Principal
import NfsKlldap.Lib.Slices

/-! # The log observer (`observer.rs`)

The observer reads the log of Ganesha line by line and takes a principal out of a line, so that it can
be resolved before it is asked for. Nine stages look for one, each in its own place, and the first that
finds one answers. They cut the line at byte positions, and a cut inside a character panics, which ends
the observer.

* **`extractCandidatePrincipal`** — the stages, in order;
* **`StageAnswers`** — what a stage does on a line: it answers, and says when and what;
* **`Justified`** — what may be answered: a part of the line, or the principal of a host in it;
* **`extractCandidatePrincipal_justified_iff`** — the observer survives a line and answers what it may
  unless a character of several bytes ends the search for the start of an explicit principal. -/

namespace NfsKlldap

open Text UnixPath

/-- What a stage says of a line: nothing when it panics, else the principal it found. -/
abbrev Stage := Option (Option Str)

/-- The first stage that finds a principal answers. -/
def firstFound (stages : List Stage) : Stage := stages.findSomeM? id

/-! ## Host names -/

/-- `LOG_NOISE_TOKENS` -/
def logNoiseTokens : List Str :=
  ["nil".toList, "null".toList, "clientid".toList, "unique".toList, "counter".toList,
    "created".toList, "client".toList, "id".toList, "name".toList, "addr".toList,
    "refcount".toList, "cr".toList, "conf".toList, "unconf".toList, "debug".toList,
    "info".toList, "warning".toList, "error".toList, "ffff".toList, "linux".toList,
    "nfsv4".toList]

/-- Names that are no hosts: pointers, words of the log, versions. -/
def isNoiseHostname (x : Str) : Bool :=
  let s := toAsciiLowercase (trim x)
  startsWith s "0x" || s ∈ logNoiseTokens || startsWith s "nfsv" || startsWith s "nfs" ||
    (s.any Char.isDigit && '.' ∈ s)

/-- `is_ascii_hexdigit` -/
def isAsciiHexdigit (c : Char) : Bool :=
  c.isDigit || ('a' ≤ c && c ≤ 'f') || ('A' ≤ c && c ≤ 'F')

/-- The hosts that log lines name. The cut behind `0x` stands behind two characters of one byte. -/
def looksLikeClientHostname (x : Str) : Bool :=
  let s := trim x
  if osLen s < 2 ∨ 253 < osLen s then false
  else if 3 ≤ osLen s ∧ startsWith s "0x" ∧ s.drop 2 ≠ [] ∧ (s.drop 2).all isAsciiHexdigit then false
  else if !s.any Char.isAlpha then false
  else if isNoiseHostname s then false
  else if toAsciiLowercase s ∈ logNoiseTokens then false
  else if !s.all fun c => c.isAlphanum || c = '-' || c = '.' then false
  else if !s.any Char.isLower && '.' ∉ s then false
  else true

/-- The principal of a host: `host/<h>@<realm>`. -/
def hostPrincipal (realm h : Str) : Str := "host/".toList ++ h ++ '@' :: realm

/-! ## What stages look at -/

section

variable (t : CharTable)

/-- A letter, a digit or one of some other characters. -/
def isPart (extra : List Char) (c : Char) : Bool := t.isAlphanumeric c || c ∈ extra

/-- A character of a host name. -/
def isHostChar : Char → Bool := isPart t ['-', '.']

/-- Cut off what is no part of a host name on both sides. -/
def trimHost (w : Str) : Str := trimMatches (fun c => !isHostChar t c) w

end

/-- A word of the realm: it has an `@`, and the realm in any case. -/
def isOfRealm (realm w : Str) : Bool :=
  '@' ∈ w && containsStr (toAsciiLowercase realm) (toAsciiLowercase w)

/-- The first word, or the text when it has none. -/
def firstWord (s : Str) : Str := (splitWhitespace s).head?.getD s

/-- The text behind the first occurrence of a word. The word is looked for in `s`: the line, or the line
in lower case. -/
def behind (w s line : Str) : Option (Option Str) :=
  match find w s with
  | none => some none
  | some i => (sliceFrom line (i + osLen w)).map some

/-- Go on behind a word, when it occurs. -/
def onBehind (w s line : Str) (stage : Str → Stage) : Stage :=
  (behind w s line).bind fun
    | none => some none
    | some rest => stage rest

/-! ## The stages -/

/-- The legacy message of `uid2grp`. -/
def uid2grpPrincipal (line : Str) : Stage :=
  onBehind "Unsupported code path for principal ".toList line line fun rest =>
    let cand := trim (firstWord rest)
    some (if '@' ∈ cand then some cand else none)

/-- The markers of a lookup. -/
def lookupMarkers : List Str :=
  ["getpwnam".toList, "getpwuid_r for uid:".toList, "getgrouplist for uname:".toList,
    "getgrouplist".toList, "getgrnam".toList, "idmapper".toList]

/-- What separates the words of a lookup. -/
def isLookupDelim (c : Char) : Bool :=
  isWhitespace c || c ∈ ['(', ')', '"', '\'', '[', ']', ',', ':', '=', '<', '>']

section

variable (t : CharTable)

/-- Cut off what is no part of a principal on both sides. -/
def trimPrincipal (w : Str) : Str :=
  trimMatches (fun c => !isPart t ['@', '/', '.', '-', '_'] c) w

/-- A principal of the realm among the words of a lookup. -/
def lookupWord (realm w : Str) : Option Str :=
  let x := trim w
  if isOfRealm realm x && isOfRealm realm (trimPrincipal t x) then some (trimPrincipal t x) else none

/-- A host segment behind a marker. -/
def hostSegment (realm tail : Str) : Stage :=
  onBehind "host/".toList tail tail fun rest =>
    let short := rest.takeWhile (isHostChar t)
    some (if looksLikeClientHostname short && !isNoiseHostname short then
      some (hostPrincipal realm short) else none)

/-- The text between a bracket or a quote and the next one that closes. -/
def bracketed (tail : Str) (opening : Char) : Option (Option Str) :=
  match findChar (· = opening) tail with
  | none => some none
  | some op =>
    (sliceFrom tail (op + 1)).bind fun inner =>
      match findChar (· ∈ [')', '"', '\'', ']', '>']) inner with
      | none => some none
      | some closeRel => (sliceTo inner closeRel).map some

/-- A host among the words between brackets. -/
def bracketedWord (realm token : Str) : Option Str :=
  let x := trim token
  if x = [] || isNoiseHostname x then none
  else if looksLikeClientHostname x then some (hostPrincipal realm x)
  else none

/-- A host between brackets or quotes behind a marker. -/
def bracketedHost (realm tail : Str) (opening : Char) : Stage :=
  (bracketed tail opening).map fun inside? =>
    inside?.bind fun inside =>
      (inside.splitOnP fun c => !isHostChar t c).findSome? (bracketedWord realm)

/-- The words that a lookup is reported with. -/
def lookupWords : List Str :=
  ["failed".toList, "trying".toList, "returned".toList, "no".toList, "entry".toList,
    "missing".toList, "not".toList, "found".toList, "for".toList, "client".toList, "user".toList,
    "getpwnam".toList, "getgrouplist".toList]

/-- A bare host behind a marker: a host segment, or a name with a dot. -/
def bareHost (realm w : Str) : Option Str :=
  let x := trimMatches (fun c => !isPart t ['-', '.', '/'] c) w
  let xl := toAsciiLowercase x
  let short := trimStartMatches "host/".toList xl
  if x = [] || isNoiseHostname x || xl ∈ lookupWords then none
  else if startsWith xl "host/" && looksLikeClientHostname short then some (hostPrincipal realm short)
  else if '.' ∈ x && looksLikeClientHostname x then some (hostPrincipal realm x)
  else none

/-- What separates bare words. -/
def isBareDelim (c : Char) : Bool := isWhitespace c || c ∈ ['=', ':', ',']

/-- A host behind a marker. -/
def lookupHost (line realm m : Str) : Stage :=
  onBehind m (toAsciiLowercase line) line fun tail =>
    firstFound
      [hostSegment t realm tail,
        ['(', '"', '\'', '[', '<'].findSomeM? (bracketedHost t realm tail),
        some ((tail.splitOnP isBareDelim).findSome? (bareHost t realm))]

/-- The lookups of the name service: a principal of the realm anywhere, else a host behind one of the
markers. -/
def lookupPrincipal (line realm : Str) : Stage :=
  if lookupMarkers.any fun m => containsStr m (toAsciiLowercase line) then
    firstFound
      [some ((line.splitOnP isLookupDelim).findSome? (lookupWord t realm)),
        lookupMarkers.findSomeM? (lookupHost t line realm)]
  else some none

/-- `Get uid for …` -/
def getUidPrincipal (line realm : Str) : Stage :=
  onBehind "Get uid for ".toList line line fun rest =>
    let stop := (findChar (fun c => !isPart t ['@', '.', '-', '_', '/'] c) rest).getD (osLen rest)
    (sliceTo rest stop).map fun cand =>
      if isOfRealm realm (trim cand) then some (trim cand) else none

/-- The characters up to the end of a principal that is reported, when something follows it. -/
def unmappedName (realm rest : Str) : Stage :=
  match findChar (fun c => !isPart t ['@', '.', '-', '_'] c) rest with
  | none => some none
  | some stop => (sliceTo rest stop).map fun cand => if isOfRealm realm cand then some cand else none

/-- The characters around the first `@` of a principal that is reported. -/
def unmappedAround (realm rest : Str) : Stage :=
  match findChar (· = '@') rest with
  | none => some none
  | some atPos =>
    (sliceFrom rest (atPos + 1)).bind fun after =>
      let stop := (findChar (fun c => !isHostChar t c) after).getD (osLen rest - atPos - 1)
      (sliceTo rest (atPos + 1 + stop)).map fun cand =>
        if isOfRealm realm (firstWord cand) then some (firstWord cand) else none

/-- `Could not map principal …` -/
def unmappedPrincipal (line realm : Str) : Stage :=
  onBehind "Could not map principal ".toList line line fun rest =>
    firstFound [unmappedName t realm rest, unmappedAround t realm rest]

/-- A character in front of the `@` of an explicit principal. -/
def isPrincipalChar : Char → Bool := isPart t ['/', '.', '-', '_', ':']

/-- An explicit principal around the first `@`. It starts one byte behind the last character that is no
part of it, and it ends in front of the `@`, which is no part of a realm. -/
def explicitPrincipal (line realm : Str) : Stage :=
  match findChar (· = '@') line with
  | none => some none
  | some atPos =>
    (sliceTo line atPos).bind fun before =>
      let start := ((rfindChar (fun c => !isPrincipalChar t c) before).map (· + 1)).getD 0
      (sliceFrom line atPos).bind fun after =>
        let endRel := (findChar (fun c => !isPart t ['.', '-', '_', ':'] c) after).getD (osLen after)
        ((sliceTo line (atPos + endRel)).bind (sliceFrom · start)).map fun cand =>
          if isOfRealm realm cand then some cand else none

/-- The host of a client in brackets. -/
def clientGroupHost (inside : Str) : Option Str :=
  let groupLower := toAsciiLowercase inside
  if containsStr "linux".toList groupLower || containsStr "nfsv4".toList groupLower ||
      containsStr "Linux NFS".toList inside then
    (splitWhitespace inside).reverse.findSome? fun token =>
      let x := trimHost t token
      if looksLikeClientHostname x && !eqIgnoreAsciiCase x "linux".toList && !isNoiseHostname x then
        some x
      else none
  else none

/-- The bracketed parts of a text, of which the last one with a host counts. -/
def clientGroups (search : Str) (best : Option Str) : Stage :=
  match findChar (· = '(') search with
  | none => some best
  | some p =>
    match _hrest : sliceFrom search (p + 1) with
    | none => none
    | some rest =>
      match findChar (· = ')') rest with
      | none => some best
      | some stop =>
        match sliceTo rest stop, _hnext : sliceFrom rest (stop + 1) with
        | some inside, some next => clientGroups next ((clientGroupHost t inside).or best)
        | _, _ => none
termination_by search.length
decreasing_by exact (sliceFrom_length_lt _hnext).trans (sliceFrom_length_lt _hrest)

/-- A line about the inside of the server. -/
def isInternalBlob (lower : Str) : Bool :=
  containsStr "conf = (nil)".toList lower || containsStr "clientid=".toList lower ||
    containsStr "unique=".toList lower || containsStr "counter=".toList lower ||
    containsStr "cr_refcount".toList lower

/-- The words of client records that are no hosts. -/
def recordWords : List Str :=
  ["linux".toList, "nfsv4".toList, "created".toList, "client".toList, "name".toList, "nil".toList,
    "null".toList, "conf".toList, "unconf".toList, "clientid".toList, "unique".toList,
    "counter".toList, "stuff".toList, "token".toList, "other".toList, "value".toList, "key".toList,
    "loc".toList, "ref".toList, "addr".toList, "server".toList]

/-- What separates the words behind the protocol version. -/
def isVersionDelim (c : Char) : Bool := isWhitespace c || c ∈ ['(', ')', '[', ']', ':', '.']

/-- A host among the words behind the protocol version. -/
def recordWord (w : Str) : Option Str :=
  let x := trimHost t w
  if x = [] then none
  else if toAsciiLowercase x ∈ recordWords || isNoiseHostname x then none
  else if looksLikeClientHostname x then some x
  else none

/-- The host of `Linux NFSv4.x <host>`. -/
def extractLinuxNfsHostname (line : Str) : Stage :=
  onBehind "nfsv4".toList (toAsciiLowercase line) line fun suffix =>
    (clientGroups t suffix none).map fun best =>
      if best.isSome then best
      else if isInternalBlob (toAsciiLowercase line) then none
      else ((suffix.splitOnP isVersionDelim).drop 1).findSome? (recordWord t)

/-- The principal of a client in a client record. -/
def clientRecordPrincipal (line realm : Str) : Stage :=
  (extractLinuxNfsHostname t line).map fun host? =>
    host?.bind fun host =>
      if !eqIgnoreAsciiCase host "linux".toList && !eqIgnoreAsciiCase host "nfs".toList &&
          !isNoiseHostname host && looksLikeClientHostname host then
        some (hostPrincipal realm host)
      else none

/-- A host that a client record or a marker names. -/
def recordedHost (realm w : Str) : Option Str :=
  let x := trimHost t w
  if looksLikeClientHostname x && !isNoiseHostname x then some (hostPrincipal realm x) else none

/-- The legacy `name=(…)`. -/
def clientNamePrincipal (line realm : Str) : Stage :=
  onBehind "name=(".toList line line fun rest =>
    match findChar (· = ')') rest with
    | none => some none
    | some endp =>
      (sliceTo rest endp).map fun inside =>
        (splitWhitespace inside).getLast?.bind (recordedHost t realm)

/-- What separates the words behind the markers of client records. -/
def isRecordDelim (c : Char) : Bool := isWhitespace c || c ∈ ['=', '(', ')', ':', ',', '[', ']']

/-- A host behind a marker of client records. -/
def markedHost (line realm marker : Str) : Stage :=
  onBehind marker line line fun tail =>
    some ((tail.splitOnP isRecordDelim).findSome? (recordedHost t realm))

/-- A principal of the realm whose local part is a host. -/
def realmWord (realm word : Str) : Option Str :=
  let w := trim word
  if isOfRealm realm w then
    if isNoiseHostname (principalLocalPart w) || !looksLikeClientHostname (principalLocalPart w) then
      none
    else some w
  else none

/-- Explicit principals anywhere. -/
def anyRealmWord (line realm : Str) : Stage :=
  some (if containsStr (toAsciiLowercase realm) (toAsciiLowercase line) then
      (line.splitOnP fun c => isRecordDelim c || c = '"').findSome? (realmWord realm)
    else none)

/-- `extract_candidate_principal` -/
def extractCandidatePrincipal (line realm : Str) : Stage :=
  firstFound
    [uid2grpPrincipal line, lookupPrincipal t line realm, getUidPrincipal t line realm,
      unmappedPrincipal t line realm, explicitPrincipal t line realm,
      clientRecordPrincipal t line realm, clientNamePrincipal t line realm,
      ["fs_create_clid_name".toList, "client addr=".toList].findSomeM? (markedHost t line realm),
      anyRealmWord line realm]

end

/-! ## What a stage answers -/

/-- **What a stage does on a line**: it does not panic, it finds a candidate exactly when `found` holds,
and only one that is allowed. -/
def StageAnswers (found : Prop) (allowed : Str → Prop) (x : Stage) : Prop :=
  ∃ r, x = some r ∧ (r.isSome = true ↔ found) ∧ ∀ c ∈ r, allowed c

section

variable {found found' : Prop} {allowed : Str → Prop} {x : Stage} {l : List Stage}

/-- Only the truth of what is found matters. -/
theorem StageAnswers.congr (h : StageAnswers found allowed x) (hf : found ↔ found') :
    StageAnswers found' allowed x := by
  obtain ⟨r, hr, hfound, hall⟩ := h
  exact ⟨r, hr, hfound.trans hf, hall⟩

/-- A stage that finds nothing says nothing. -/
theorem stageAnswers_nothing (h : ¬ found) : StageAnswers found allowed (some none) :=
  ⟨none, rfl, by simpa using h, by simp⟩

/-- A stage says what it finds. -/
theorem stageAnswers_some {o : Option Str} (h : ∀ c ∈ o, allowed c) :
    StageAnswers (o.isSome = true) allowed (some o) :=
  ⟨o, rfl, Iff.rfl, h⟩

/-- A stage says something under a condition. -/
theorem stageAnswers_if {p : Prop} [Decidable p] {c : Str} (h : p → allowed c) :
    StageAnswers p allowed (some (if p then some c else none)) := by
  by_cases hp : p
  · rw [if_pos hp]
    exact ⟨some c, rfl, by simp [hp], by simpa using h hp⟩
  · rw [if_neg hp]
    exact stageAnswers_nothing hp

/-- A stage says the first thing that it finds in a list. -/
theorem stageAnswers_findSome {α : Type} {l : List α} {f : α → Option Str}
    (h : ∀ a ∈ l, ∀ c ∈ f a, allowed c) :
    StageAnswers (∃ a ∈ l, (f a).isSome = true) allowed (some (l.findSome? f)) := by
  refine ⟨l.findSome? f, rfl, List.findSome?_isSome_iff, fun c hc => ?_⟩
  obtain ⟨a, ha, hfa⟩ := List.exists_of_findSome?_eq_some hc
  exact h a ha c hfa

/-- One stage after the other. -/
theorem stageAnswers_findSomeM {α : Type} {l : List α} {f : α → Stage} {found : α → Prop}
    (h : ∀ a ∈ l, StageAnswers (found a) allowed (f a)) :
    StageAnswers (∃ a ∈ l, found a) allowed (l.findSomeM? f) := by
  induction l with
  | nil => exact stageAnswers_nothing (by simp)
  | cons a l ih =>
    obtain ⟨r, hr, hfound, hall⟩ := h a List.mem_cons_self
    have hrest := ih fun b hb => h b (List.mem_cons_of_mem a hb)
    rw [List.findSomeM?, hr]
    cases r with
    | none =>
      refine hrest.congr ?_
      have hna : ¬ found a := by simpa using hfound
      simp [hna]
    | some c => exact ⟨some c, rfl, by simpa using .inl (hfound.mp rfl), hall⟩

/-- Without stages nothing is found. -/
theorem stageAnswers_firstFound_nil : StageAnswers False allowed (firstFound []) := stageAnswers_nothing id

/-- The first stage that finds something says it. -/
theorem stageAnswers_firstFound_cons (hx : StageAnswers found allowed x)
    (hl : StageAnswers found' allowed (firstFound l)) :
    StageAnswers (found ∨ found') allowed (firstFound (x :: l)) := by
  obtain ⟨r, hr, hfound, hall⟩ := hx
  rw [firstFound, List.findSomeM?, hr]
  cases r with
  | none =>
    refine hl.congr ?_
    have hnot : ¬ found := by simpa using hfound
    simp [hnot]
  | some c => exact ⟨some c, rfl, by simpa using .inl (hfound.mp rfl), hall⟩

/-- The stages that come later are asked when the first ones find nothing. -/
theorem firstFound_append (l l' : List Stage) :
    firstFound (l ++ l') =
      (firstFound l).bind fun r => if r.isSome then some r else firstFound l' := by
  induction l with
  | nil => rfl
  | cons x l ih =>
    rw [List.cons_append, firstFound, firstFound, List.findSomeM?, List.findSomeM?]
    cases x with
    | none => rfl
    | some r =>
      cases r with
      | some c => rfl
      | none => exact ih

end

/-! ## What may be answered -/

/-- The text occurs in the line, up to ASCII case. -/
def OccursIn (h line : Str) : Prop := toAsciiLowercase h <:+: toAsciiLowercase line

/-- **What may be answered**: a part of the line with an `@`, or the principal of a host in the line. -/
def Justified (line realm c : Str) : Prop :=
  '@' ∈ c ∧ (c <:+: line ∨ ∃ h, c = hostPrincipal realm h ∧ OccursIn h line ∧
    looksLikeClientHostname h = true)

section

variable {line realm w : Str}

/-- A word of the realm has a sign. -/
theorem at_mem_of_isOfRealm (h : isOfRealm realm w = true) : '@' ∈ w := by
  rw [isOfRealm, Bool.and_eq_true, decide_eq_true_eq] at h
  exact h.1

/-- A word of the realm in the line is justified. -/
theorem justified_of_infix (hw : w <:+: line) (h : isOfRealm realm w = true) :
    Justified line realm w :=
  ⟨at_mem_of_isOfRealm h, .inl hw⟩

/-- The principal of a client host in the line is justified. -/
theorem justified_hostPrincipal (hw : OccursIn w line) (h : looksLikeClientHostname w = true) :
    Justified line realm (hostPrincipal realm w) :=
  ⟨by simp [hostPrincipal], .inr ⟨w, rfl, hw, h⟩⟩

/-- What is in the line occurs in it. -/
theorem occursIn_of_isInfix (h : w <:+: line) : OccursIn w line := h.map _

/-- What is in the line in lower case occurs in it. -/
theorem occursIn_of_isInfix_toAsciiLowercase (h : w <:+: toAsciiLowercase line) : OccursIn w line := by
  have hl := h.map Char.toLower
  rwa [← toAsciiLowercase, ← toAsciiLowercase, toAsciiLowercase_idem] at hl

end

/-- The text behind a word that is found is the end of the line, and the cut is never inside a
character: a text and its lower-case form have their characters at the same positions. -/
theorem behind_total {w s line : Str} (hs : s = line ∨ s = toAsciiLowercase line) :
    ∃ r, behind w s line = some r ∧ ∀ rest ∈ r, rest <:+ line := by
  rw [behind]
  cases hi : find w s with
  | none => exact ⟨none, rfl, by simp⟩
  | some i =>
    obtain ⟨u, v, rfl, rfl⟩ := find_eq_some hi
    obtain ⟨m, v', rfl, hm⟩ : ∃ m v', line = m ++ v' ∧ osLen m = osLen u + osLen w := by
      rcases hs with rfl | hlower
      · exact ⟨u ++ w, v, rfl, osLen_append u w⟩
      · obtain ⟨m, v', hline, hm, -⟩ := List.map_eq_append_iff.mp hlower.symm
        exact ⟨m, v', hline, by rw [← osLen_append, ← hm, ← toAsciiLowercase, osLen_toAsciiLowercase]⟩
    refine ⟨some v', ?_, by simp⟩
    dsimp only
    rw [← hm, sliceFrom_osLen, Option.map_some]

/-- A stage behind a word answers for the text behind it. -/
theorem stageAnswers_onBehind {w s line : Str} {stage : Str → Stage} {found : Str → Prop}
    {allowed : Str → Prop} (hs : s = line ∨ s = toAsciiLowercase line)
    (h : ∀ rest, rest <:+ line → StageAnswers (found rest) allowed (stage rest)) :
    StageAnswers (∃ rest, behind w s line = some (some rest) ∧ found rest) allowed
      (onBehind w s line stage) := by
  obtain ⟨r, hr, hrest⟩ := behind_total (w := w) hs
  rw [onBehind, hr]
  cases r with
  | none => exact stageAnswers_nothing (by simp)
  | some rest => exact (h rest (hrest rest rfl)).congr (by simp)

/-- The first word of a text is in it. -/
theorem firstWord_isInfix (s : Str) : firstWord s <:+: s := by
  rw [firstWord]
  cases h : (splitWhitespace s).head? with
  | none => exact List.infix_rfl
  | some w => exact infix_of_mem_splitWhitespace (List.mem_of_mem_head? h)

/-! ## The stages in front of the explicit principals -/

/-- The legacy message names a principal. -/
def Uid2grpNamed (line : Str) : Prop :=
  ∃ rest, behind "Unsupported code path for principal ".toList line line = some (some rest) ∧
    '@' ∈ trim (firstWord rest)

/-- The stage for `uid2grp` lines says what they name. -/
theorem uid2grpPrincipal_answers (line realm : Str) :
    StageAnswers (Uid2grpNamed line) (Justified line realm) (uid2grpPrincipal line) := by
  refine stageAnswers_onBehind (.inl rfl) fun rest hrest => ?_
  refine stageAnswers_if fun h => ⟨h, .inl ?_⟩
  exact ((trim_isInfix _).trans (firstWord_isInfix rest)).trans hrest.isInfix

section

variable (t : CharTable) (line realm : Str)

/-- A text names a host: in a host segment, between brackets or quotes, or bare. -/
def HostNamed (tail : Str) : Prop :=
  (∃ rest, behind "host/".toList tail tail = some (some rest) ∧
      (looksLikeClientHostname (rest.takeWhile (isHostChar t)) &&
        !isNoiseHostname (rest.takeWhile (isHostChar t))) = true) ∨
    (∃ opening ∈ ['(', '"', '\'', '[', '<'], ∃ inside, bracketed tail opening = some (some inside) ∧
      ∃ token ∈ inside.splitOnP fun c => !isHostChar t c, (bracketedWord realm token).isSome = true) ∨
    ∃ w ∈ tail.splitOnP isBareDelim, (bareHost t realm w).isSome = true

/-- A lookup of the name service names a principal of the realm, or a host behind a marker. -/
def LookupNamed : Prop :=
  (∃ m ∈ lookupMarkers, containsStr m (toAsciiLowercase line) = true) ∧
    ((∃ w ∈ line.splitOnP isLookupDelim, (lookupWord t realm w).isSome = true) ∨
      ∃ m ∈ lookupMarkers, ∃ tail, behind m (toAsciiLowercase line) line = some (some tail) ∧
        HostNamed t realm tail)

/-- `Get uid for …` names a principal of the realm. -/
def GetUidNamed : Prop :=
  ∃ rest, behind "Get uid for ".toList line line = some (some rest) ∧
    isOfRealm realm (trim (rest.takeWhile (isPart t ['@', '.', '-', '_', '/']))) = true

/-- `Could not map principal …` names a principal of the realm. -/
def UnmappedNamed : Prop :=
  ∃ rest, behind "Could not map principal ".toList line line = some (some rest) ∧
    (((∃ c ∈ rest, isPart t ['@', '.', '-', '_'] c = false) ∧
        isOfRealm realm (rest.takeWhile (isPart t ['@', '.', '-', '_'])) = true) ∨
      ∃ u after, splitOnce '@' rest = some (u, after) ∧
        isOfRealm realm (firstWord (u ++ '@' :: after.takeWhile (isHostChar t))) = true)

variable {t line realm}

/-- The stage for a `host/` segment says the host it names. -/
theorem hostSegment_answers {tail : Str} (htail : tail <:+ line) :
    StageAnswers (∃ rest, behind "host/".toList tail tail = some (some rest) ∧
      (looksLikeClientHostname (rest.takeWhile (isHostChar t)) &&
        !isNoiseHostname (rest.takeWhile (isHostChar t))) = true)
      (Justified line realm) (hostSegment t realm tail) := by
  refine stageAnswers_onBehind (.inl rfl) fun rest hrest => stageAnswers_if fun h => ?_
  have hinfix : rest.takeWhile (isHostChar t) <:+: line :=
    (List.takeWhile_prefix _).isInfix.trans (hrest.trans htail).isInfix
  exact justified_hostPrincipal (occursIn_of_isInfix hinfix) (Bool.and_eq_true_iff.mp h).1

/-- Brackets and quotes are characters of one byte. -/
theorem bracketed_total {opening : Char} (h1 : opening.utf8Size = 1) (tail : Str) :
    ∃ r, bracketed tail opening = some r ∧ ∀ inside ∈ r, inside <:+: tail := by
  rw [bracketed]
  cases hop : findChar (· = opening) tail with
  | none => exact ⟨none, rfl, by simp⟩
  | some op =>
    obtain ⟨u, c, v, rfl, hc, -, rfl⟩ := findChar_eq_some hop
    obtain rfl : c = opening := by simpa using hc
    dsimp only
    rw [sliceFrom_succ h1, Option.bind_some]
    cases hclose : findChar (· ∈ [')', '"', '\'', ']', '>']) v with
    | none => exact ⟨none, rfl, by simp⟩
    | some i =>
      obtain ⟨a, d, b, rfl, -, -, rfl⟩ := findChar_eq_some hclose
      refine ⟨some a, by simp, ?_⟩
      rintro inside ⟨⟩
      exact ⟨u ++ [c], d :: b, by simp⟩

/-- A word between brackets stands for a host that looks like a client. -/
theorem looksLikeClientHostname_of_bracketedWord {token c : Str}
    (h : c ∈ bracketedWord realm token) :
    c = hostPrincipal realm (trim token) ∧ looksLikeClientHostname (trim token) = true := by
  rw [bracketedWord] at h
  split at h
  · simp at h
  · split at h
    · next hlooks => exact ⟨(Option.some.inj h).symm, hlooks⟩
    · simp at h

/-- The stage for brackets says the first host between them. -/
theorem bracketedHost_answers {tail : Str} {opening : Char} (htail : tail <:+ line)
    (h1 : opening.utf8Size = 1) :
    StageAnswers (∃ inside, bracketed tail opening = some (some inside) ∧
        ∃ token ∈ inside.splitOnP fun c => !isHostChar t c,
          (bracketedWord realm token).isSome = true)
      (Justified line realm) (bracketedHost t realm tail opening) := by
  obtain ⟨r, hr, hinside⟩ := bracketed_total h1 tail
  rw [bracketedHost, hr]
  cases r with
  | none => exact stageAnswers_nothing (by simp)
  | some inside =>
    refine (stageAnswers_findSome (f := bracketedWord realm) fun token htoken c hc => ?_).congr (by simp)
    obtain ⟨rfl, hlooks⟩ := looksLikeClientHostname_of_bracketedWord hc
    refine justified_hostPrincipal (occursIn_of_isInfix ?_) hlooks
    exact (((trim_isInfix token).trans (infix_of_mem_splitOnP htoken)).trans
      (hinside inside rfl)).trans htail.isInfix

/-- A bare host of the line is justified. -/
theorem bareHost_justified {tail w c : Str} (htail : tail <:+ line)
    (hw : w ∈ tail.splitOnP isBareDelim) (hc : c ∈ bareHost t realm w) : Justified line realm c := by
  have hx : trimMatches (fun c => !isPart t ['-', '.', '/'] c) w <:+: line :=
    ((trimMatches_isInfix _ w).trans (infix_of_mem_splitOnP hw)).trans htail.isInfix
  rw [bareHost] at hc
  split at hc
  · simp at hc
  · split at hc
    · next h =>
      -- the host segment is cut from the word in lower case
      obtain rfl := Option.some.inj hc
      refine justified_hostPrincipal (occursIn_of_isInfix_toAsciiLowercase ?_)
        (Bool.and_eq_true_iff.mp h).2
      exact (trimStartMatches_suffix _ _).isInfix.trans (hx.map _)
    · split at hc
      · next h =>
        obtain rfl := Option.some.inj hc
        exact justified_hostPrincipal (occursIn_of_isInfix hx) (Bool.and_eq_true_iff.mp h).2
      · simp at hc

/-- The stage behind a word about lookups says the host that is named there. -/
theorem lookupHost_answers (m : Str) :
    StageAnswers (∃ tail, behind m (toAsciiLowercase line) line = some (some tail) ∧ HostNamed t realm tail)
      (Justified line realm) (lookupHost t line realm m) := by
  refine stageAnswers_onBehind (.inr rfl) fun tail htail => ?_
  refine (stageAnswers_firstFound_cons (hostSegment_answers htail)
    (stageAnswers_firstFound_cons (stageAnswers_findSomeM fun opening ho => bracketedHost_answers htail ?_)
      (stageAnswers_firstFound_cons
        (stageAnswers_findSome fun w hw c hc => bareHost_justified htail hw hc)
        stageAnswers_firstFound_nil))).congr ?_
  · rcases List.mem_cons.mp ho with rfl | ho
    · rfl
    · fin_cases ho <;> rfl
  · rw [HostNamed, or_false]

/-- A word about a lookup is justified. -/
theorem lookupWord_justified {w c : Str} (hw : w ∈ line.splitOnP isLookupDelim)
    (hc : c ∈ lookupWord t realm w) : Justified line realm c := by
  rw [lookupWord] at hc
  split at hc
  · next h =>
    obtain rfl := Option.some.inj hc
    refine justified_of_infix ?_ (Bool.and_eq_true_iff.mp h).2
    exact ((trimMatches_isInfix _ _).trans (trim_isInfix w)).trans (infix_of_mem_splitOnP hw)
  · simp at hc

/-- The stage for lookups says what they name. -/
theorem lookupPrincipal_answers :
    StageAnswers (LookupNamed t line realm) (Justified line realm) (lookupPrincipal t line realm) := by
  rw [lookupPrincipal, LookupNamed]
  split
  · next hany =>
    refine (stageAnswers_firstFound_cons
      (stageAnswers_findSome fun w hw c hc => lookupWord_justified hw hc)
      (stageAnswers_firstFound_cons (stageAnswers_findSomeM fun m _ => lookupHost_answers m)
        stageAnswers_firstFound_nil)).congr ?_
    rw [or_false, and_iff_right (List.any_eq_true.mp hany)]
  · next hany => exact stageAnswers_nothing fun h => hany (List.any_eq_true.mpr h.1)

/-- The stage for uid lookups says what they name. -/
theorem getUidPrincipal_answers :
    StageAnswers (GetUidNamed t line realm) (Justified line realm) (getUidPrincipal t line realm) := by
  refine stageAnswers_onBehind (.inl rfl) fun rest hrest => ?_
  dsimp only
  rw [sliceTo_findChar_getD, Option.map_some]
  refine stageAnswers_if fun h => justified_of_infix ?_ h
  exact ((trim_isInfix _).trans (List.takeWhile_prefix _).isInfix).trans hrest.isInfix

/-- The stage for a name that is not mapped says the principal at its start. -/
theorem unmappedName_answers {rest : Str} (hrest : rest <:+ line) :
    StageAnswers ((∃ c ∈ rest, isPart t ['@', '.', '-', '_'] c = false) ∧
        isOfRealm realm (rest.takeWhile (isPart t ['@', '.', '-', '_'])) = true)
      (Justified line realm) (unmappedName t realm rest) := by
  have hstop := sliceTo_findChar_getD (isPart t ['@', '.', '-', '_']) rest
  rw [unmappedName]
  cases h : findChar (fun c => !isPart t ['@', '.', '-', '_'] c) rest with
  | none =>
    refine stageAnswers_nothing fun hfound => ?_
    obtain ⟨c, hc, hpart⟩ := hfound.1
    simpa [hpart] using findChar_eq_none_iff.mp h c hc
  | some stop =>
    obtain ⟨u, c, v, hsplit, hc, -, -⟩ := findChar_eq_some h
    rw [h, Option.getD_some] at hstop
    dsimp only
    rw [hstop, Option.map_some]
    refine (stageAnswers_if fun hr => justified_of_infix ?_ hr).congr ?_
    · exact (List.takeWhile_prefix _).isInfix.trans hrest.isInfix
    · rw [and_iff_right]
      exact ⟨c, by simp [hsplit], by simpa using hc⟩

/-- The stage for a name around a sign says the principal it makes. -/
theorem unmappedAround_answers {rest : Str} (hrest : rest <:+ line) :
    StageAnswers (∃ u after, splitOnce '@' rest = some (u, after) ∧
        isOfRealm realm (firstWord (u ++ '@' :: after.takeWhile (isHostChar t))) = true)
      (Justified line realm) (unmappedAround t realm rest) := by
  rw [unmappedAround]
  cases h : findChar (· = '@') rest with
  -- without the sign the text is not a principal
  | none =>
    refine stageAnswers_nothing ?_
    rintro ⟨u, after, hsplit, -⟩
    have hat : '@' ∈ rest := by
      rw [(splitOnce_eq_some_iff.mp hsplit).1]
      simp
    simpa using findChar_eq_none_iff.mp h '@' hat
  | some atPos =>
    obtain ⟨u, c, after, rfl, hc, hu, rfl⟩ := findChar_eq_some h
    obtain rfl : c = '@' := by simpa using hc
    have hone : '@'.utf8Size = 1 := rfl
    have hlen : osLen (u ++ '@' :: after) - osLen u - 1 = osLen after := by
      rw [osLen_append, show osLen ('@' :: after) = 1 + osLen after from rfl]
      omega
    -- the sign is one byte long, so that a cut behind it falls between two characters
    have hcand (n : ℕ) : sliceTo (u ++ '@' :: after) (osLen u + 1 + n) =
        (sliceTo after n).map fun s => u ++ '@' :: s := by
      rw [Nat.add_assoc, sliceTo_append, ← hone, sliceTo_cons, Option.map_map]
      rfl
    dsimp only
    rw [sliceFrom_succ hone, Option.bind_some, hlen, hcand, sliceTo_findChar_getD, Option.map_some,
      Option.map_some]
    have hnot : '@' ∉ u := fun hmem => by simpa using hu '@' hmem
    refine (stageAnswers_if fun hr => justified_of_infix ?_ hr).congr ?_
    · refine (firstWord_isInfix _).trans (List.IsInfix.trans ?_ hrest.isInfix)
      refine List.IsPrefix.isInfix ((List.prefix_append_right_inj u).mpr ?_)
      exact (List.prefix_cons_inj '@').mpr (List.takeWhile_prefix _)
    · rw [splitOnce_append after hnot]
      simp

/-- The stage for names that are not mapped says what they name. -/
theorem unmappedPrincipal_answers :
    StageAnswers (UnmappedNamed t line realm) (Justified line realm) (unmappedPrincipal t line realm) := by
  refine stageAnswers_onBehind (.inl rfl) fun rest hrest => ?_
  refine (stageAnswers_firstFound_cons (unmappedName_answers hrest)
    (stageAnswers_firstFound_cons (unmappedAround_answers hrest) stageAnswers_firstFound_nil)).congr ?_
  rw [or_false]

/-! ## The explicit principals -/

variable (t line) in
/-- The last character in front of the first `@` that is no part of a principal. -/
def lastSeparator : Option Char := ((before '@' line).rdropWhile (isPrincipalChar t)).getLast?

/-- The sign is no part of a word unless it is asked for. -/
theorem isPart_at {extra : List Char} (h : '@' ∉ extra) : isPart t extra '@' = false := by
  rw [isPart, t.ascii '@' (by decide)]
  simpa using h

/-- The start of a candidate is searched for in front of the `@`: one byte behind the last character that
is no part of a principal. -/
theorem sliceFrom_start {u : Str} {r : Option Str}
    (hr : sliceFrom u (((rfindChar (fun c => !isPrincipalChar t c) u).map (· + 1)).getD 0) = r) :
    (∀ v ∈ r, v <:+ u) ∧
      (r = none ↔ ∃ d ∈ (u.rdropWhile (isPrincipalChar t)).getLast?, d.utf8Size ≠ 1) := by
  rw [rfindChar_eq] at hr
  obtain ⟨run, hrun⟩ := List.rdropWhile_prefix (isPrincipalChar t) u
  rcases List.eq_nil_or_concat (u.rdropWhile (isPrincipalChar t)) with hnil | ⟨w, d, hw⟩
  · rw [hnil, List.getLast?_nil, Option.map_none, Option.map_none, Option.getD_none,
      sliceFrom_zero] at hr
    subst hr
    simp [hnil]
  · refine ⟨fun v hv => sliceFrom_suffix (hr.trans hv), ?_⟩
    rw [List.concat_eq_append] at hw
    rw [hw] at hr hrun ⊢
    rw [List.getLast?_concat, Option.map_some, Option.map_some, Option.getD_some,
      List.dropLast_concat, ← hrun, List.append_assoc, sliceFrom_append, List.singleton_append,
      sliceFrom_one] at hr
    subst hr
    split
    · next h => simp [h]
    · next h => simp [h]

/-- **The search for an explicit principal** finds none: the candidate ends in front of the `@`. It panics
when the character it starts behind is longer than a byte. -/
theorem explicitPrincipal_eq :
    explicitPrincipal t line realm =
      if '@' ∈ line ∧ ∃ d ∈ lastSeparator t line, d.utf8Size ≠ 1 then none else some none := by
  rw [explicitPrincipal]
  cases h : findChar (· = '@') line with
  | none =>
    have hat : '@' ∉ line := fun hmem => by simpa using findChar_eq_none_iff.mp h '@' hmem
    rw [if_neg fun hc => hat hc.1]
  | some atPos =>
    obtain ⟨u, c, after, rfl, hc, hu, rfl⟩ := findChar_eq_some h
    obtain rfl : c = '@' := by simpa using hc
    have hnot : '@' ∉ u := fun hmem => by simpa using hu '@' hmem
    have hat : '@' ∈ u ++ '@' :: after := by simp
    -- the sign is no character of the part before it, so that the candidate stops there
    have hend : findChar (fun c => !isPart t ['.', '-', '_', ':'] c) ('@' :: after) = some 0 :=
      findChar_append_cons after (u := []) (by simp) (by rw [isPart_at (by decide)]; rfl)
    dsimp only
    rw [sliceTo_osLen, Option.bind_some, sliceFrom_osLen, Option.bind_some, hend, Option.getD_some,
      Nat.add_zero, sliceTo_osLen, Option.bind_some, lastSeparator, before_append after hnot]
    obtain ⟨r, hr⟩ : ∃ r, sliceFrom u
        (((rfindChar (fun c => !isPrincipalChar t c) u).map (· + 1)).getD 0) = r := ⟨_, rfl⟩
    obtain ⟨hsuffix, hnone⟩ := sliceFrom_start hr
    rw [hr]
    cases r with
    | none => rw [if_pos ⟨hat, hnone.mp rfl⟩, Option.map_none]
    | some v =>
      -- and such a candidate has no realm
      have hv : isOfRealm realm v = false := by
        have hvu : '@' ∉ v := fun hmem => hnot ((hsuffix v rfl).subset hmem)
        simp [isOfRealm, hvu]
      rw [if_neg fun hc => by simpa using hnone.mpr hc.2, Option.map_some, hv]
      rfl

/-! ## The stages behind them -/

/-- The host of a client group is in the text. -/
theorem infix_of_clientGroupHost {inside h : Str} (hh : h ∈ clientGroupHost t inside) :
    h <:+: inside := by
  rw [clientGroupHost] at hh
  split at hh
  · obtain ⟨token, htoken, hsome⟩ := List.exists_of_findSome?_eq_some hh
    dsimp only at hsome
    split at hsome
    · obtain rfl := Option.some.inj hsome
      exact (trimMatches_isInfix _ token).trans
        (infix_of_mem_splitWhitespace (List.mem_reverse.mp htoken))
    · simp at hsome
  · simp at hh

/-- Brackets are characters of one byte, so that the bracketed parts are cut out without a panic. -/
theorem clientGroups_total {search : Str} (best : Option Str) (hsearch : search <:+: line)
    (hbest : ∀ h ∈ best, h <:+: line) :
    ∃ r, clientGroups t search best = some r ∧ ∀ h ∈ r, h <:+: line := by
  -- induction on the length of what is still to be searched
  induction hn : search.length using Nat.strong_induction_on generalizing search best with
  | _ n ih =>
  rw [clientGroups]
  cases hp : findChar (· = '(') search with
  -- no bracket is open any more
  | none => exact ⟨best, rfl, hbest⟩
  | some p =>
    obtain ⟨u, c, rest, rfl, hc, -, rfl⟩ := findChar_eq_some hp
    obtain rfl : c = '(' := by simpa using hc
    have hrest : sliceFrom (u ++ '(' :: rest) (osLen u + 1) = some rest := sliceFrom_succ rfl u rest
    have hinrest : rest <:+: line :=
      List.IsInfix.trans ⟨u ++ ['('], [], by simp⟩ hsearch
    dsimp only
    split
    · next hnone => simp [hrest] at hnone
    next rest' hsome =>
    obtain rfl : rest = rest' := Option.some.inj (hrest.symm.trans hsome)
    cases hstop : findChar (· = ')') rest with
    -- an open bracket is not closed
    | none => exact ⟨best, rfl, hbest⟩
    | some stop =>
      obtain ⟨inside, d, next, rfl, hd, -, rfl⟩ := findChar_eq_some hstop
      obtain rfl : d = ')' := by simpa using hd
      have hnext : sliceFrom (inside ++ ')' :: next) (osLen inside + 1) = some next :=
        sliceFrom_succ rfl inside next
      dsimp only
      split
      -- the part in the brackets may become the best one so far, and the search goes on behind it
      · next inside' next' hi hn' =>
        obtain rfl : inside = inside' := Option.some.inj ((sliceTo_osLen _ _).symm.trans hi)
        obtain rfl : next = next' := Option.some.inj (hnext.symm.trans hn')
        refine ih next.length ?_ _ ?_ ?_ rfl
        · rw [← hn]
          simp only [List.length_append, List.length_cons]
          omega
        · exact List.IsInfix.trans ⟨inside ++ [')'], [], by simp⟩ hinrest
        · intro h hh
          rcases Option.or_eq_some_iff.mp hh with hhost | ⟨-, hbest'⟩
          · exact ((infix_of_clientGroupHost hhost).trans
              (List.prefix_append inside _).isInfix).trans hinrest
          · exact hbest h hbest'
      · next hno =>
        exact (hno inside next (sliceTo_osLen _ _) hnext).elim

/-- A word of a record is a host without the marks around it, and looks like a client. -/
theorem recordWord_spec {w h : Str} (hh : h ∈ recordWord t w) :
    h = trimHost t w ∧ looksLikeClientHostname h = true := by
  rw [recordWord] at hh
  split at hh
  · simp at hh
  split at hh
  · simp at hh
  split at hh
  · next hlooks =>
    obtain rfl := Option.some.inj hh
    exact ⟨rfl, hlooks⟩
  · simp at hh

/-- The host of a client record occurs in the line. -/
theorem extractLinuxNfsHostname_total (t : CharTable) (line : Str) :
    ∃ r, extractLinuxNfsHostname t line = some r ∧ ∀ h ∈ r, h <:+: line := by
  obtain ⟨r, hr, hsuffix⟩ := behind_total (w := "nfsv4".toList)
    (s := toAsciiLowercase line) (.inr rfl)
  rw [extractLinuxNfsHostname, onBehind, hr]
  cases r with
  | none => exact ⟨none, rfl, by simp⟩
  | some suffix =>
    have hin := (hsuffix suffix rfl).isInfix
    obtain ⟨best, hbest, hhosts⟩ := clientGroups_total (t := t) none hin (by simp)
    rw [Option.bind_some]
    dsimp only
    rw [hbest, Option.map_some]
    refine ⟨_, rfl, fun h hh => ?_⟩
    split at hh
    · exact hhosts h hh
    split at hh
    · simp at hh
    obtain ⟨w, hw, hword⟩ := List.exists_of_findSome?_eq_some hh
    rw [(recordWord_spec hword).1]
    exact ((trimMatches_isInfix _ w).trans
      (infix_of_mem_splitOnP (List.mem_of_mem_drop hw))).trans hin

/-- The stage for client records says a host of the line. -/
theorem clientRecordPrincipal_answers (t : CharTable) (line realm : Str) :
    ∃ found, StageAnswers found (Justified line realm) (clientRecordPrincipal t line realm) := by
  obtain ⟨r, hr, hhosts⟩ := extractLinuxNfsHostname_total t line
  rw [clientRecordPrincipal, hr, Option.map_some]
  refine ⟨_, stageAnswers_some fun c hc => ?_⟩
  obtain ⟨host, hhost, hc⟩ := Option.bind_eq_some_iff.mp hc
  split at hc
  · next h =>
    obtain rfl := Option.some.inj hc
    exact justified_hostPrincipal (occursIn_of_isInfix (hhosts host hhost))
      (Bool.and_eq_true_iff.mp h).2
  · simp at hc

/-- A recorded host of the line is justified. -/
theorem recordedHost_justified {w c : Str} (hw : w <:+: line) (hc : c ∈ recordedHost t realm w) :
    Justified line realm c := by
  rw [recordedHost] at hc
  split at hc
  · next h =>
    obtain rfl := Option.some.inj hc
    exact justified_hostPrincipal (occursIn_of_isInfix ((trimMatches_isInfix _ w).trans hw))
      (Bool.and_eq_true_iff.mp h).1
  · simp at hc

/-- The stage for client names says a host of the line. -/
theorem clientNamePrincipal_answers (t : CharTable) (line realm : Str) :
    ∃ found, StageAnswers found (Justified line realm) (clientNamePrincipal t line realm) := by
  have hrest (rest : Str) (hsuffix : rest <:+ line) : StageAnswers
      (∃ inside, (findChar (· = ')') rest).bind (sliceTo rest) = some inside ∧
        ((splitWhitespace inside).getLast?.bind (recordedHost t realm)).isSome = true)
      (Justified line realm)
      (match findChar (· = ')') rest with
        | none => some none
        | some endp =>
          (sliceTo rest endp).map fun inside =>
            (splitWhitespace inside).getLast?.bind (recordedHost t realm)) := by
    cases hend : findChar (· = ')') rest with
    | none => exact stageAnswers_nothing (by simp)
    | some endp =>
      obtain ⟨inside, d, v, rfl, -, -, rfl⟩ := findChar_eq_some hend
      dsimp only
      rw [Option.bind_some, sliceTo_osLen, Option.map_some]
      refine (stageAnswers_some fun c hc => ?_).congr (by simp)
      obtain ⟨last, hlast, hc⟩ := Option.bind_eq_some_iff.mp hc
      refine recordedHost_justified ?_ hc
      refine (infix_of_mem_splitWhitespace (List.mem_of_mem_getLast? hlast)).trans ?_
      exact (List.prefix_append inside _).isInfix.trans hsuffix.isInfix
  exact ⟨_, stageAnswers_onBehind (.inl rfl) hrest⟩

/-- The stage behind a marker says the first host behind it. -/
theorem markedHost_answers (marker : Str) :
    StageAnswers (∃ tail, behind marker line line = some (some tail) ∧
        ∃ w ∈ tail.splitOnP isRecordDelim, (recordedHost t realm w).isSome = true)
      (Justified line realm) (markedHost t line realm marker) := by
  refine stageAnswers_onBehind (.inl rfl) fun tail htail => stageAnswers_findSome fun w hw c hc => ?_
  exact recordedHost_justified ((infix_of_mem_splitOnP hw).trans htail.isInfix) hc

/-- The last stage says a word of the realm. -/
theorem anyRealmWord_answers (line realm : Str) :
    ∃ found, StageAnswers found (Justified line realm) (anyRealmWord line realm) := by
  refine ⟨_, stageAnswers_some fun c hc => ?_⟩
  split at hc
  · obtain ⟨word, hword, hc⟩ := List.exists_of_findSome?_eq_some hc
    rw [realmWord] at hc
    split at hc
    · next hrealm =>
      split at hc
      · simp at hc
      · obtain rfl := Option.some.inj hc
        exact justified_of_infix ((trim_isInfix word).trans (infix_of_mem_splitOnP hword)) hrealm
    · simp at hc
  · simp at hc

/-! ## What the observer survives -/

variable (t line realm) in
/-- A stage in front of the explicit principals finds a candidate. -/
def NamedBefore : Prop :=
  Uid2grpNamed line ∨ LookupNamed t line realm ∨ GetUidNamed t line realm ∨
    UnmappedNamed t line realm

/-- The stages in front say what the line names there. -/
theorem before_answers (t : CharTable) (line realm : Str) :
    StageAnswers (NamedBefore t line realm) (Justified line realm)
      (firstFound [uid2grpPrincipal line, lookupPrincipal t line realm,
        getUidPrincipal t line realm, unmappedPrincipal t line realm]) := by
  refine (stageAnswers_firstFound_cons (uid2grpPrincipal_answers line realm)
    (stageAnswers_firstFound_cons lookupPrincipal_answers
      (stageAnswers_firstFound_cons getUidPrincipal_answers
        (stageAnswers_firstFound_cons unmappedPrincipal_answers stageAnswers_firstFound_nil)))).congr ?_
  rw [NamedBefore, or_false]

/-- The stages behind say something justified. -/
theorem behind_answers (t : CharTable) (line realm : Str) :
    ∃ found, StageAnswers found (Justified line realm)
      (firstFound [clientRecordPrincipal t line realm, clientNamePrincipal t line realm,
        ["fs_create_clid_name".toList, "client addr=".toList].findSomeM? (markedHost t line realm),
        anyRealmWord line realm]) := by
  obtain ⟨_, hrecord⟩ := clientRecordPrincipal_answers t line realm
  obtain ⟨_, hname⟩ := clientNamePrincipal_answers t line realm
  obtain ⟨_, hword⟩ := anyRealmWord_answers line realm
  exact ⟨_, stageAnswers_firstFound_cons hrecord (stageAnswers_firstFound_cons hname
    (stageAnswers_firstFound_cons (stageAnswers_findSomeM fun marker _ => markedHost_answers marker)
      (stageAnswers_firstFound_cons hword stageAnswers_firstFound_nil)))⟩

end

/-- **The observer survives a line, and what it takes out of it is justified**, exactly when one of the
first four stages finds a candidate, or the line has no `@`, or the last character in front of its first
`@` that is no part of a principal is one byte long. -/
theorem extractCandidatePrincipal_justified_iff (t : CharTable) (line realm : Str) :
    (∃ r, extractCandidatePrincipal t line realm = some r ∧ ∀ c ∈ r, Justified line realm c) ↔
      NamedBefore t line realm ∨
        ('@' ∈ line → ∀ d ∈ lastSeparator t line, d.utf8Size = 1) := by
  obtain ⟨r, hr, hfound, hall⟩ := before_answers t line realm
  obtain ⟨_, hbehind⟩ := behind_answers t line realm
  have hsplit : extractCandidatePrincipal t line realm = _ :=
    firstFound_append
      [uid2grpPrincipal line, lookupPrincipal t line realm, getUidPrincipal t line realm,
        unmappedPrincipal t line realm]
      [explicitPrincipal t line realm, clientRecordPrincipal t line realm,
        clientNamePrincipal t line realm,
        ["fs_create_clid_name".toList, "client addr=".toList].findSomeM? (markedHost t line realm),
        anyRealmWord line realm]
  rw [hr, Option.bind_some] at hsplit
  rw [hsplit]
  cases r with
  | some c =>
    -- one of the first four stages answers
    exact iff_of_true ⟨some c, rfl, hall⟩ (.inl (hfound.mp rfl))
  | none =>
    have hnot : ¬ NamedBefore t line realm := by simpa using hfound
    rw [Option.isSome_none, if_neg Bool.false_ne_true, firstFound, List.findSomeM?,
      explicitPrincipal_eq]
    by_cases hsep : '@' ∈ line ∧ ∃ d ∈ lastSeparator t line, d.utf8Size ≠ 1
    · -- the start of the explicit principal lies inside a character
      rw [if_pos hsep]
      refine iff_of_false (by rintro ⟨r, h, -⟩; exact absurd h (by simp)) ?_
      rintro (hnamed | hone)
      · exact hnot hnamed
      · obtain ⟨hat, d, hd, hlong⟩ := hsep
        exact hlong (hone hat d hd)
    · rw [if_neg hsep]
      refine iff_of_true ?_ (.inr fun hat d hd => ?_)
      · obtain ⟨r, hr, -, hall⟩ := hbehind
        exact ⟨r, hr, hall⟩
      · by_contra hlong
        exact hsep ⟨hat, d, hd, hlong⟩

/-- A principal in typographic quotes ends the observer. -/
theorem not_extractCandidatePrincipal_quoted :
    ¬ ∃ r, extractCandidatePrincipal CharTable.plain "unknown principal ‘alice@EXAMPLE.COM’".toList
        "EXAMPLE.COM".toList = some r ∧
      ∀ c ∈ r, Justified "unknown principal ‘alice@EXAMPLE.COM’".toList "EXAMPLE.COM".toList c := by
  have hpanics : extractCandidatePrincipal CharTable.plain
      "unknown principal ‘alice@EXAMPLE.COM’".toList "EXAMPLE.COM".toList = none := by
    decide +kernel
  rintro ⟨r, hr, -⟩
  rw [hpanics] at hr
  exact absurd hr (by simp)

end NfsKlldap
