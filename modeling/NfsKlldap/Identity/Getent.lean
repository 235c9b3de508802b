import NfsKlldap.Lib.Text

/-! # Strict parsers for passwd and group rows (`nss/getent.rs`)

A passwd row is `name:passwd:uid:gid:gecos:home:shell`, a group row `name:passwd:gid:members`. Both
parsers trim the line and every field they keep, skip blank lines and comments, and read the fields
they do not need not at all. The round-trip lemmas say what a line has to look like for its fields
to be read back unchanged. -/

namespace NfsKlldap

open Text

/-- One passwd row: login name plus numeric uid and gid. -/
structure PasswdRow where
  name : Str
  uid : UInt32
  gid : UInt32
  deriving DecidableEq, Repr

/-- One group row: name, gid and member logins. -/
structure GroupRow where
  name : Str
  gid : UInt32
  members : List Str
  deriving DecidableEq, Repr

/-- A line without an entry: blank or a comment. -/
def isSkippedLine (line : Str) : Bool := line.isEmpty || line.head? == some '#'

/-- Parse a passwd row keeping the login name. -/
def parsePasswdRow (line : Str) : Option PasswdRow :=
  let line := trim line
  if isSkippedLine line then none
  else
    match splitN 7 ':' line with
    | name :: _ :: uid :: gid :: _ => do
      let uid ← parseU32 (trim uid)
      let gid ← parseU32 (trim gid)
      return ⟨trim name, uid, gid⟩
    | _ => none

/-- The members of a group row: comma-separated, trimmed, empty ones dropped. -/
def parseMembers (field : Str) : List Str :=
  (((trim field).splitOn ',').map trim).filter (· ≠ [])

/-- Parse a `getent group` row keeping name, gid and members. -/
def parseGroupRow (line : Str) : Option GroupRow :=
  let line := trim line
  if isSkippedLine line then none
  else
    match splitN 4 ':' line with
    | name :: _ :: gid :: rest => do
      let gid ← parseU32 (trim gid)
      return ⟨trim name, gid, parseMembers (rest.headD [])⟩
    | _ => none

/-- Parse a `getent passwd` line to its uid and gid. -/
def parseGetentPasswd (line : Str) : Option (UInt32 × UInt32) :=
  (parsePasswdRow line).map fun r => (r.uid, r.gid)

/-! ## Round trips -/

/-- Text that may stand as a name field: it is trimmed, has no separator in it and does not open a
comment. -/
structure IsFieldName (s : Str) : Prop where
  colon : ':' ∉ s
  trimmed : trim s = s
  hash : s.head? ≠ some '#'

/-- A line that opens with a field name and ends in something printable is not changed by `trim`
and not skipped. -/
theorem IsFieldName.line_eq {name rest : Str} (h : IsFieldName name)
    (hrest : ∀ c ∈ (':' :: rest).getLast?, isWhitespace c = false) :
    trim (name ++ ':' :: rest) = name ++ ':' :: rest ∧
      isSkippedLine (name ++ ':' :: rest) = false := by
  constructor
  · refine trim_eq_self ?_ ?_
    · intro c hc
      cases name with
      | nil =>
        obtain rfl : ':' = c := by simpa using hc
        decide
      | cons a l => exact (trim_eq_self_iff.mp h.trimmed).1 c (by simpa using hc)
    · intro c hc
      rw [List.getLast?_append_of_ne_nil _ (by simp)] at hc
      exact hrest c hc
  · have hh := h.hash
    cases name with
    | nil => simp [isSkippedLine]
    | cons a l => simpa [isSkippedLine] using hh

/-- **Passwd round trip**: a line built from a field name is read back as that name with the
printed uid and gid, whatever follows. -/
theorem parsePasswdRow_of_isFieldName {login rest : Str} (uid gid : UInt32) (h : IsFieldName login)
    (hrest : ∀ c ∈ (':' :: rest).getLast?, isWhitespace c = false) :
    parsePasswdRow (login ++ ":x:".toList ++ decimal uid ++ ':' :: decimal gid ++ ':' :: rest)
      = some ⟨login, uid, gid⟩ := by
  have hx : (':' : Char) ∉ ['x'] := by decide
  have hdec : ∀ n : UInt32, ':' ∉ decimal n := not_mem_decimal (by decide)
  have hshape : login ++ ":x:".toList ++ decimal uid ++ ':' :: decimal gid ++ ':' :: rest
      = login ++ ':' :: (['x'] ++ ':' :: (decimal uid ++ ':' :: (decimal gid ++ ':' :: rest))) := by
    simp
  have hlast : ∀ c ∈ (':' :: (['x'] ++ ':' :: (decimal uid ++ ':' ::
      (decimal gid ++ ':' :: rest)))).getLast?, isWhitespace c = false := by
    intro c hc
    refine hrest c ?_
    rwa [show ':' :: (['x'] ++ ':' :: (decimal uid ++ ':' :: (decimal gid ++ ':' :: rest)))
        = (':' :: 'x' :: ':' :: decimal uid ++ ':' :: decimal gid) ++ ':' :: rest by simp,
      List.getLast?_append_of_ne_nil _ (by simp)] at hc
  obtain ⟨htrim, hskip⟩ := h.line_eq hlast
  rw [hshape, parsePasswdRow, htrim, hskip]
  simp only [Bool.false_eq_true, if_false, splitN_append _ _ h.colon, splitN_append _ _ hx,
    splitN_append _ _ (hdec _), trim_decimal, parseU32_decimal, h.trimmed]
  rfl

/-- The name read off a passwd line is trimmed and has no separator in it. -/
theorem parsePasswdRow_name {line : Str} {row : PasswdRow} (h : parsePasswdRow line = some row) :
    ':' ∉ row.name ∧ trim row.name = row.name := by
  simp only [parsePasswdRow] at h
  split at h
  · simp at h
  · split at h
    · rename_i name x uid gid rest hs
      have hname : ':' ∉ name := by
        rw [splitN] at hs
        split at hs
        · rename_i p hp
          simp only [List.cons.injEq] at hs
          exact hs.1 ▸ (splitOnce_eq_some_iff.mp hp).2
        · simp at hs
      simp only [bind, pure, Option.bind_eq_some_iff, Option.some.injEq] at h
      obtain ⟨u, -, g, -, rfl⟩ := h
      exact ⟨fun hc => hname (mem_of_mem_trim hc), trim_trim name⟩
    · simp at h

/-- A member as the builder writes it: a field name without a comma that is not empty. -/
structure IsMemberName (s : Str) : Prop where
  nonempty : s ≠ []
  colon : ':' ∉ s
  comma : ',' ∉ s
  trimmed : trim s = s

/-- The member field joins with commas and is read back member by member. -/
theorem parseMembers_intercalate {ms : List Str} (h : ∀ m ∈ ms, IsMemberName m) :
    parseMembers ([','].intercalate ms) = ms := by
  unfold parseMembers
  by_cases hnil : ms = []
  · subst hnil
    decide
  · rw [trim_intercalate (fun m hm => (h m hm).nonempty) (fun m hm => (h m hm).trimmed),
      List.splitOn_intercalate ',' (fun m hm => (h m hm).comma) hnil]
    have hmap : ms.map trim = ms :=
      (List.map_congr_left fun m hm => (h m hm).trimmed).trans (List.map_id' ms)
    rw [hmap, List.filter_eq_self]
    intro m hm
    simpa using (h m hm).nonempty

/-- A group line in the shape the parsers see: four fields. -/
theorem groupLine_shape (name : Str) (gid : UInt32) (ms : List Str) :
    name ++ ":x:".toList ++ decimal gid ++ ':' :: [','].intercalate ms
      = name ++ ':' :: (['x'] ++ ':' :: (decimal gid ++ ':' :: [','].intercalate ms)) := by
  simp

/-- A group line of a field name and well-formed members is not changed by `trim` and not
skipped. -/
theorem groupLine_trimmed {name : Str} {ms : List Str} (gid : UInt32) (h : IsFieldName name)
    (hms : ∀ m ∈ ms, IsMemberName m) :
    trim (name ++ ':' :: (['x'] ++ ':' :: (decimal gid ++ ':' :: [','].intercalate ms)))
        = name ++ ':' :: (['x'] ++ ':' :: (decimal gid ++ ':' :: [','].intercalate ms)) ∧
      isSkippedLine (name ++ ':' :: (['x'] ++ ':' :: (decimal gid ++ ':' ::
        [','].intercalate ms))) = false := by
  refine h.line_eq ?_
  intro c hc
  rw [show ':' :: (['x'] ++ ':' :: (decimal gid ++ ':' :: [','].intercalate ms))
      = (':' :: 'x' :: ':' :: decimal gid) ++ (':' :: [','].intercalate ms) by simp,
    List.getLast?_append_of_ne_nil _ (by simp)] at hc
  by_cases hnil : [','].intercalate ms = []
  · rw [hnil] at hc
    obtain rfl : ':' = c := by simpa using hc
    decide
  · rw [List.getLast?_cons_of_ne_nil hnil] at hc
    have htrim : trim ([','].intercalate ms) = [','].intercalate ms :=
      trim_intercalate (fun m hm => (hms m hm).nonempty) (fun m hm => (hms m hm).trimmed)
    exact (trim_eq_self_iff.mp htrim).2 c hc

/-- **Group round trip**: a line built from a field name and well-formed members is read back with
that name, gid and member list. -/
theorem parseGroupRow_of_isFieldName {name : Str} {ms : List Str} (gid : UInt32)
    (h : IsFieldName name) (hms : ∀ m ∈ ms, IsMemberName m) :
    parseGroupRow (name ++ ":x:".toList ++ decimal gid ++ ':' :: [','].intercalate ms)
      = some ⟨name, gid, ms⟩ := by
  have hx : (':' : Char) ∉ ['x'] := by decide
  have hdec : ∀ n : UInt32, ':' ∉ decimal n := not_mem_decimal (by decide)
  obtain ⟨htrim, hskip⟩ := groupLine_trimmed gid h hms
  rw [groupLine_shape, parseGroupRow, htrim, hskip]
  simp only [Bool.false_eq_true, if_false, splitN_append _ _ h.colon, splitN_append _ _ hx,
    splitN_append _ _ (hdec _), trim_decimal, parseU32_decimal, h.trimmed]
  simp only [splitN, List.headD_cons, parseMembers_intercalate hms]
  rfl

end NfsKlldap
