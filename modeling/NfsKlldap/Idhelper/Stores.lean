import NfsKlldap.Idhelper.NssSnapshotSpec

/-! # The four NSS stores on disk (`idhelper/materialize.rs`)

Ganesha reads the stores through nss_wrapper, which reloads them when they change on disk. There are
two writers: `materializeNssWrappersAt` rewrites all four stores from the cache, and
`ensureNssGroupMemberLogin` appends one login to the rows of one gid. Both go through
`writeAtomicIfChanged`, which leaves a store alone that already holds the content.

A disk counts the renames over the stores (`writes`) and the attempts to write (`ops`); which
attempts fail is a parameter of the operations. -/

namespace NfsKlldap

open Text

/-- The output paths of `NssMaterializePaths`. -/
inductive StorePath where
  | nssPasswd
  | nssGroup
  | extrausersPasswd
  | extrausersGroup
  deriving DecidableEq, Repr

/-- A file as a reader finds it. -/
inductive StoreFile where
  | missing
  | unreadable
  | text (content : Str)
  deriving DecidableEq, Repr

/-- The text of a file that can be read. -/
def StoreFile.readToString : StoreFile → Option Str
  | text content => some content
  | _ => none

/-- The stores, the cache file, and what was written so far. -/
structure Disk where
  files : StorePath → StoreFile
  cacheFile : StoreFile
  /-- Renames over one of the four stores. -/
  writes : Nat
  /-- Attempts to write a file. -/
  ops : Nat

/-- An `io::Error`; the code looks at no more than the kind `NotFound`, which is a case of the file
itself here. -/
inductive DiskError where
  | read
  | write
  deriving DecidableEq, Repr

section Writers

variable (fails : Nat → Bool)

/-- Atomic write through a temporary file, skipped when the file already holds exactly `content`. -/
def writeAtomicIfChanged (path : StorePath) (content : Str) (d : Disk) :
    Except DiskError Bool × Disk :=
  if (d.files path).readToString = some content then (.ok false, d)
  else if fails d.ops then (.error .write, { d with ops := d.ops + 1 })
  else (.ok true,
    { d with
      files := Function.update d.files path (.text content)
      writes := d.writes + 1
      ops := d.ops + 1 })

/-- Writes one after the other up to the first error; tells whether any store was rewritten. -/
def writeAllIfChanged : List (StorePath × Str) → Bool → Disk → Except DiskError Bool × Disk
  | [], wrote, d => (.ok wrote, d)
  | pc :: rest, wrote, d =>
    match writeAtomicIfChanged fails pc.1 pc.2 d with
    | (.ok b, d) => writeAllIfChanged rest (wrote || b) d
    | (.error e, d) => (.error e, d)

/-- Write the passwd and group stores of nss_wrapper and of extrausers from the cache. True when any
of the four was rewritten. -/
def materializeNssWrappersAt (cache : IdCache) (ldap : LdapGroups) (d : Disk) :
    Except DiskError Bool × Disk :=
  let snapshot := buildNssSnapshot cache ldap
  let passwdContent := unlines snapshot.1
  let groupContent := unlines snapshot.2
  writeAllIfChanged fails [(.nssPasswd, passwdContent), (.nssGroup, groupContent),
    (.extrausersPasswd, passwdContent), (.extrausersGroup, groupContent)] false d

/-- `IdCache::write_to_file`. -/
def writeToFile (cache : IdCache) (d : Disk) : Except DiskError Unit × Disk :=
  if fails d.ops then (.error .write, { d with ops := d.ops + 1 })
  else (.ok (), { d with cacheFile := .text cache.fileText, ops := d.ops + 1 })

end Writers

/-! ## Appending a member -/

/-- The name of the first row with gid `gid` in a store. -/
def findName (gid : UInt32) (file : StoreFile) : Option Str := do
  let content ← file.readToString
  (lines content).findSome? fun line =>
    let t := trim line
    if isSkippedLine t then none
    else
      match splitN 4 ':' t with
      | name :: _ :: g :: _ => if parseU32 g = some gid then some name else none
      | _ => none

/-- What `ensureNssGroupMemberLogin` finds in a line. -/
inductive RowRepair where
  /-- The line is not a row of the gid. -/
  | other
  /-- A row of the gid that lists the login. -/
  | complete
  /-- A row of the gid without the login, with the line to put in its place. -/
  | rebuilt (line : Str)
  deriving DecidableEq, Repr

/-- Look for the login in the member field of a row with gid `gid`. -/
def repairRow (gid : UInt32) (login line : Str) : RowRepair :=
  let trimmed := trim line
  if isSkippedLine trimmed then .other
  else
    match trimmed.splitOn ':' with
    | name :: _ :: g :: rest =>
      if parseU32 g = some gid then
        let members := rest.headD []
        if login ∈ members.splitOn ',' then .complete
        else
          let newMembers := if members = [] then login else members ++ ',' :: login
          .rebuilt (name ++ ":x:".toList ++ g ++ ':' :: newMembers)
      else .other
    | _ => .other

/-- The line that stands in the place of `line` afterwards. -/
def repairedLine (gid : UInt32) (login line : Str) : Str :=
  match repairRow gid login line with
  | .rebuilt line' => line'
  | _ => line

/-- The name of a row that has to be created: the one either store has for the gid, else `root` or
`g` with the gid. -/
def newRowName (gid : UInt32) (d : Disk) : Str :=
  if gid = fallbackNobodyGid then "nobody".toList
  else ((findName gid (d.files .nssGroup)).or (findName gid (d.files .extrausersGroup))).getD
    (if gid = 0 then "root".toList else gidName gid)

/-- Ensure a login appears in the member field of the rows of a gid in one store; a missing row is
created. -/
def ensureMemberAt (fails : Nat → Bool) (gid : UInt32) (login : Str) (path : StorePath) (d : Disk) :
    Except DiskError Unit × Disk :=
  match d.files path with
  | .unreadable => (.error .read, d)
  | file =>
    let content := file.readToString.getD []
    let ls := lines content
    let saw := ls.any fun l => repairRow gid login l ≠ .other
    let out := ls.map (repairedLine gid login)
    let out :=
      if saw then out
      else out ++ [newRowName gid d ++ ":x:".toList ++ decimal gid ++ ':' :: login]
    -- every row of the gid lists the login already
    if saw ∧ ls.all fun l => repairRow gid login l = .other ∨ repairRow gid login l = .complete then
      (.ok (), d)
    else
      match writeAtomicIfChanged fails path (['\n'].intercalate out ++ ['\n']) d with
      | (.ok _, d) => (.ok (), d)
      | (.error e, d) => (.error e, d)

/-- Ensure a login appears in the member field for a gid in both group stores. -/
def ensureNssGroupMemberLogin (fails : Nat → Bool) (gid : UInt32) (login : Str) (d : Disk) :
    Except DiskError Unit × Disk :=
  let login := trim login
  if login = [] then (.ok (), d)
  else
    match ensureMemberAt fails gid login .nssGroup d with
    | (.ok _, d) => ensureMemberAt fails gid login .extrausersGroup d
    | (.error e, d) => (.error e, d)

/-! ## Writes that change nothing -/

section NoOp

variable (fails : Nat → Bool)

/-- A store that holds the content is left alone. -/
theorem writeAtomicIfChanged_of_eq {path : StorePath} {content : Str} {d : Disk}
    (h : d.files path = .text content) :
    writeAtomicIfChanged fails path content d = (.ok false, d) := by
  rw [writeAtomicIfChanged, if_pos (by rw [h]; rfl)]

/-- The stores hold the text of a snapshot. -/
structure Disk.Holds (d : Disk) (snapshot : List Str × List Str) : Prop where
  nssPasswd : d.files .nssPasswd = .text (unlines snapshot.1)
  nssGroup : d.files .nssGroup = .text (unlines snapshot.2)
  extrausersPasswd : d.files .extrausersPasswd = .text (unlines snapshot.1)
  extrausersGroup : d.files .extrausersGroup = .text (unlines snapshot.2)

/-- **Bulk guard**: stores that hold the snapshot of the cache are not written. -/
theorem materializeNssWrappersAt_of_holds {cache : IdCache} {ldap : LdapGroups} {d : Disk}
    (h : d.Holds (buildNssSnapshot cache ldap)) :
    materializeNssWrappersAt fails cache ldap d = (.ok false, d) := by
  simp only [materializeNssWrappersAt, writeAllIfChanged,
    writeAtomicIfChanged_of_eq fails h.nssPasswd, writeAtomicIfChanged_of_eq fails h.nssGroup,
    writeAtomicIfChanged_of_eq fails h.extrausersPasswd,
    writeAtomicIfChanged_of_eq fails h.extrausersGroup, Bool.or_self]

/-- A write that does not fail leaves the content in the store, and the other stores as they
were. -/
theorem writeAtomicIfChanged_of_not_fails (hf : ∀ n, fails n = false) (path : StorePath)
    (content : Str) (d : Disk) :
    ∃ b d', writeAtomicIfChanged fails path content d = (.ok b, d') ∧
      d'.files path = .text content ∧ ∀ q ≠ path, d'.files q = d.files q := by
  rw [writeAtomicIfChanged]
  split
  · rename_i h
    refine ⟨false, d, rfl, ?_, fun _ _ => rfl⟩
    cases hfile : d.files path with
    | text c => simpa [hfile, StoreFile.readToString] using h
    | missing => simp [hfile, StoreFile.readToString] at h
    | unreadable => simp [hfile, StoreFile.readToString] at h
  · rw [hf, if_neg (by decide)]
    exact ⟨true, _, rfl, by simp, fun q hq => by simp [hq]⟩

/-- **Bulk write**: without failures the stores hold the snapshot afterwards. -/
theorem materializeNssWrappersAt_of_not_fails (hf : ∀ n, fails n = false) (cache : IdCache)
    (ldap : LdapGroups) (d : Disk) :
    ∃ b d', materializeNssWrappersAt fails cache ldap d = (.ok b, d') ∧
      d'.Holds (buildNssSnapshot cache ldap) := by
  obtain ⟨b₁, d₁, h₁, hc₁, -⟩ := writeAtomicIfChanged_of_not_fails fails hf .nssPasswd
    (unlines (buildNssSnapshot cache ldap).1) d
  obtain ⟨b₂, d₂, h₂, hc₂, ho₂⟩ := writeAtomicIfChanged_of_not_fails fails hf .nssGroup
    (unlines (buildNssSnapshot cache ldap).2) d₁
  obtain ⟨b₃, d₃, h₃, hc₃, ho₃⟩ := writeAtomicIfChanged_of_not_fails fails hf .extrausersPasswd
    (unlines (buildNssSnapshot cache ldap).1) d₂
  obtain ⟨b₄, d₄, h₄, hc₄, ho₄⟩ := writeAtomicIfChanged_of_not_fails fails hf .extrausersGroup
    (unlines (buildNssSnapshot cache ldap).2) d₃
  refine ⟨false || b₁ || b₂ || b₃ || b₄, d₄, ?_, ?_⟩
  · simp only [materializeNssWrappersAt, writeAllIfChanged, h₁, h₂, h₃, h₄]
  refine ⟨?_, ?_, ?_, hc₄⟩
  · rw [ho₄ _ (by decide), ho₃ _ (by decide), ho₂ _ (by decide), hc₁]
  · rw [ho₄ _ (by decide), ho₃ _ (by decide), hc₂]
  · rw [ho₄ _ (by decide), hc₃]

/-- **What the appender finds in a printed row**: a row of the gid is complete when it lists the
login, else it is printed again with the login at the end. -/
theorem IsSaneGroup.repairRow_line {f : GroupFields} (h : IsSaneGroup f) (gid : UInt32)
    {login : Str} (hlogin : IsSaneLogin login) :
    repairRow gid login f.line =
      if f.gid = gid then
        if login ∈ f.members then .complete
        else .rebuilt { f with members := f.members ++ [login] }.line
      else .other := by
  have hms : ∀ m ∈ f.members, IsMemberName m := fun m hm => (h.members m hm).isMemberName
  have hdec : ':' ∉ decimal f.gid := not_mem_decimal (by decide) _
  have hmem : ':' ∉ [','].intercalate f.members := by
    intro hc
    rcases mem_intercalate hc with hc | ⟨m, hm, hc⟩
    · exact absurd hc (by decide)
    · exact (hms m hm).colon hc
  -- the printed row is split into its four fields again
  obtain ⟨htrim, hskip⟩ := groupLine_trimmed f.gid h.name.isFieldName hms
  rw [f.line_eq, groupLine_shape, repairRow, htrim, hskip]
  rw [List.splitOn_append_cons_self_of_not_mem h.name.isFieldName.colon,
    List.splitOn_append_cons_self_of_not_mem (by decide),
    List.splitOn_append_cons_self_of_not_mem hdec, List.splitOn_eq_singleton hmem]
  simp only [Bool.false_eq_true, if_false, parseU32_decimal, Option.some.injEq, List.headD_cons]
  by_cases hg : f.gid = gid
  · rw [if_pos hg, if_pos hg]
    have hin : login ∈ ([','].intercalate f.members).splitOn ',' ↔ login ∈ f.members := by
      by_cases hnil : f.members = []
      · -- an empty field splits into one empty member
        rw [hnil]
        exact iff_of_false (by simpa using hlogin.nonempty) List.not_mem_nil
      · rw [List.splitOn_intercalate ',' (fun m hm => (hms m hm).comma) hnil]
    -- what was joined is split again, so that the search looks at the members themselves
    by_cases hl : login ∈ f.members
    · exact (if_pos (hin.mpr hl)).trans (if_pos hl).symm
    · have hjoin : (if [','].intercalate f.members = [] then login
          else [','].intercalate f.members ++ ',' :: login) = [','].intercalate (f.members ++ [login]) := by
        by_cases hnil : f.members = []
        · simp [hnil]
        · -- no member is empty, so the field is not
          have hfield : [','].intercalate f.members ≠ [] := by
            intro hempty
            have hsplit := List.splitOn_intercalate ',' (fun m hm => (hms m hm).comma) hnil
            rw [hempty] at hsplit
            exact (hms [] (by rw [← hsplit]; simp)).nonempty rfl
          rw [if_neg hfield, intercalate_concat [','] login hnil, List.singleton_append]
      refine (if_neg (mt hin.mp hl)).trans ?_
      rw [if_neg hl, GroupFields.line_eq]
      exact congrArg (fun m => RowRepair.rebuilt
        (f.name ++ ":x:".toList ++ decimal f.gid ++ ':' :: m)) hjoin
  · rw [if_neg hg, if_neg hg]

/-- Sane rows print without line feeds and carriage returns. -/
theorem IsSaneGroup.line_feed {f : GroupFields} (h : IsSaneGroup f) :
    '\n' ∉ f.line ∧ f.line.getLast? ≠ some '\r' := by
  have hmem : ∀ c, isRealmLoginChar c = false → c ≠ ':' → c ≠ 'x' → c ≠ ',' →
      c.isDigit = false → c ∉ f.line := by
    intro c hc hcolon hx hcomma hdigit hmem
    simp only [f.line_eq, List.mem_append, List.mem_cons, List.not_mem_nil, or_false,
      show ":x:".toList = [':', 'x', ':'] from rfl] at hmem
    rcases hmem with ((hmem | hmem | hmem | hmem) | hmem) | hmem | hmem
    · exact h.name.not_mem hc hmem
    · exact hcolon hmem
    · exact hx hmem
    · exact hcolon hmem
    · exact not_mem_decimal hdigit _ hmem
    · exact hcolon hmem
    · rcases mem_intercalate hmem with hmem | ⟨m, hm, hmem⟩
      · exact hcomma (by simpa using hmem)
      · exact (h.members m hm).not_mem hc hmem
  refine ⟨hmem '\n' (by decide) (by decide) (by decide) (by decide) (by decide), ?_⟩
  intro hlast
  exact hmem '\r' (by decide) (by decide) (by decide) (by decide) (by decide)
    (List.mem_of_getLast? hlast)

/-- **Append guard**: a store of sane rows in which some row has the gid, and every such row lists
the login, is not written. -/
theorem ensureMemberAt_of_listed {gid : UInt32} {login : Str} {path : StorePath} {d : Disk}
    {rows : List GroupFields} (hfile : d.files path = .text (unlines (rows.map GroupFields.line)))
    (hsane : ∀ f ∈ rows, IsSaneGroup f) (hlogin : IsSaneLogin login) (hrow : ∃ f ∈ rows, f.gid = gid)
    (hlisted : ∀ f ∈ rows, f.gid = gid → login ∈ f.members) :
    ensureMemberAt fails gid login path d = (.ok (), d) := by
  have hlines : lines (unlines (rows.map GroupFields.line)) = rows.map GroupFields.line := by
    refine lines_unlines ?_ ?_
    · exact List.forall_mem_map.mpr fun f hf => (hsane f hf).line_feed.1
    · exact List.forall_mem_map.mpr fun f hf => (hsane f hf).line_feed.2
  have hrepair : ∀ f ∈ rows,
      repairRow gid login f.line = if f.gid = gid then .complete else .other := by
    intro f hf
    rw [(hsane f hf).repairRow_line gid hlogin]
    by_cases hg : f.gid = gid
    · rw [if_pos hg, if_pos hg, if_pos (hlisted f hf hg)]
    · rw [if_neg hg, if_neg hg]
  have hsaw : ((rows.map GroupFields.line).any fun l => repairRow gid login l ≠ .other) = true := by
    obtain ⟨f, hf, hg⟩ := hrow
    refine List.any_eq_true.mpr ⟨f.line, List.mem_map_of_mem hf, ?_⟩
    rw [hrepair f hf, if_pos hg]
    decide
  have hall : ((rows.map GroupFields.line).all fun l =>
      repairRow gid login l = .other ∨ repairRow gid login l = .complete) = true := by
    refine List.all_eq_true.mpr (List.forall_mem_map.mpr fun f hf => ?_)
    rw [hrepair f hf]
    by_cases hg : f.gid = gid
    · simp [hg]
    · simp [hg]
  simp only [ensureMemberAt, hfile, StoreFile.readToString, Option.getD_some, hlines, hsaw, hall,
    and_self, if_true]

end NoOp

end NfsKlldap
