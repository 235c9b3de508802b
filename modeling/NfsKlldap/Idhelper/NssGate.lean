import NfsKlldap.Idhelper.RoundTrip

/-! # The start-up gate (`ganesha_nss_contract`)

Before Ganesha starts, the identity pipeline looks its principals up the way Ganesha will: each in
the passwd store, under the principal itself, its local part and its host segment. Without the
nss_wrapper library the store is read as a file, and the candidates are tried in sorted order, so a
short name is asked for before the principal it was cut from.

* **`probeNssPasswdFromFile`**, **`evaluateNssContract`** — the lookup and the verdict;
* **`carriedLine`** — the line the printed rows have for a name;
* **`gateAccepts_iff`** — the gate accepts an entry exactly when the first of its names that the rows
  carry at all is carried by a row with the ids of the entry. -/

namespace NfsKlldap

open Text

/-- `MACHINE_UID`. -/
def machineUid : UInt32 := 0

/-! ## The reader -/

/-- Whether a path is a regular file. -/
def StoreFile.isFile : StoreFile → Bool
  | missing => false
  | _ => true

/-- The environment Ganesha is started in, and what the commands print there: `getent passwd NAME`
and `id -G NAME` on success. -/
structure GaneshaNssEnv where
  ldPreload : Option Str
  /-- `resolve_nss_wrapper_so` finds the library. -/
  wrapperSo : Bool
  getentPasswd : Str → Option Str
  idGroups : Str → Option Str

/-- The commands see the stores through nss_wrapper. -/
def GaneshaNssEnv.wrapperAvailable (env : GaneshaNssEnv) (d : Disk) : Bool :=
  env.ldPreload.any (· ≠ []) && env.wrapperSo && (d.files .nssPasswd).isFile
    && (d.files .nssGroup).isFile

/-- The names to look up: the principal, its local part and its host segment. -/
def lookupCandidates (principal : Str) : List Str :=
  let names := [principal]
  let short := principalLocalPart principal
  let names := if short ≠ principal then names ++ [short] else names
  let hostSeg := machineShortName principal
  if hostSeg ≠ short ∧ hostSeg ≠ principal then names ++ [hostSeg] else names

/-- Lookup names Ganesha may pass to getpwnam, sorted and without repetitions. -/
def nssLookupNames (principal : Str) : List Str :=
  ((lookupCandidates principal).insertionSort (· ≤ ·)).destutter (· ≠ ·)

/-- The line is an entry for `name`. -/
def isEntryFor (name line : Str) : Bool :=
  line.head? ≠ some '#' && !isBlank line && before ':' line = name

/-- Direct lookup in the passwd store. The first line found decides, also when it does not parse. -/
def probeNssPasswdFromFile (name : Str) (d : Disk) : Option (UInt32 × UInt32) := do
  let content ← (d.files .nssPasswd).readToString
  let line ← (nssLookupNames name).findSome? fun candidate =>
    (lines content).find? (isEntryFor candidate)
  parseGetentPasswd line

/-- `getent passwd NAME` in the environment. -/
def getentPasswd (env : GaneshaNssEnv) (name : Str) : Option (UInt32 × UInt32) := do
  let stdout ← env.getentPasswd name
  (lines stdout).findSome? parseGetentPasswd

/-- The getpwnam contract: the commands when nss_wrapper is there, else the file. -/
def probeNssPasswd (env : GaneshaNssEnv) (name : Str) (d : Disk) : Option (UInt32 × UInt32) :=
  let live :=
    if env.wrapperAvailable d then (nssLookupNames name).findSome? (getentPasswd env) else none
  live.or (probeNssPasswdFromFile name d)

/-- The numbers `id -G` prints for a literal login. -/
def probeNssGroupsExact (env : GaneshaNssEnv) (name : Str) (d : Disk) : Option (List UInt32) :=
  if !env.wrapperAvailable d then none
  else do
    let stdout ← env.idGroups name
    let gids := ((stdout.splitOnP isWhitespace).filter (· ≠ [])).filterMap parseU32
    if gids = [] then none else some gids

/-- The getgrouplist contract. -/
def probeNssGroups (env : GaneshaNssEnv) (name : Str) (d : Disk) : List UInt32 :=
  if !env.wrapperAvailable d then []
  else
    ((nssLookupNames name).findSome? fun candidate =>
      (probeNssGroupsExact env candidate d).filter (· ≠ [])).getD []

/-- A list of gids as the debug format prints it. -/
def debugGids (gids : List UInt32) : Str := '[' :: ", ".toList.intercalate (gids.map decimal) ++ [']']

/-- Both ids, as the messages show them. -/
def idsText (uid gid : UInt32) : Str := "uid=".toList ++ decimal uid ++ " gid=".toList ++ decimal gid

/-- The verdict on a principal, with the text that is reported. -/
def evaluateNssContract (principal : Str) (env : GaneshaNssEnv) (d : Disk) (expectMachine : Bool) :
    Bool × Str :=
  if !(d.files .nssPasswd).isFile then (false, "nss-contract:nss-passwd-missing".toList)
  else
    let live := env.wrapperAvailable d
    match probeNssPasswd env principal d with
    | none => (false, "nss-contract:passwd-miss:".toList ++ principal)
    | some (uid, gid) =>
      let gids := if live then probeNssGroups env principal d else [gid]
      let pref := if live then "nss-contract:ok".toList else "nss-contract:file-ok".toList
      if expectMachine then
        if uid ≠ machineUid ∨ gid ≠ machineGid then
          (false, "nss-contract:machine-uid-gid ".toList ++ idsText uid gid)
        else if gids ≠ [] ∧ gids ≠ [machineGid] ∧ machineGid ∉ gids then
          (false, "nss-contract:machine-groups ".toList ++ debugGids gids)
        else (true, pref)
      else if uid = fallbackNobodyUid ∨ gid = fallbackNobodyGid then
        (false, "nss-contract:user-fallback ".toList ++ idsText uid gid ++ " gids=".toList
          ++ debugGids gids)
      else if gids ≠ [] ∧ gids.all (fun g => g = fallbackNobodyGid || g = 0) then
        (false, "nss-contract:user-fallback-gids ".toList ++ debugGids gids ++ ' ' :: idsText uid gid)
      else if gids = [] ∧ live then
        (false, "nss-contract:user-no-groups ".toList ++ idsText uid gid)
      else
        (true, pref ++ ':' :: decimal uid ++ ':' :: decimal gid ++ ':' :: natDecimal gids.length
          ++ "gids".toList)

/-- The caller expects a machine behind a `host/` principal. -/
def expectsMachine (principal : Str) : Bool := startsWith principal "host/"

/-- The start-up check of a list of principals, with the failure tags. The socket probes are given
by whether they answer. -/
def warmPrincipalsNssReady (env : GaneshaNssEnv) (d : Disk) (socketGrps socketGrouplist : Str → Bool)
    (principals : List Str) : Bool × List Str :=
  let fails := principals.flatMap fun p =>
    let (ok, detail) := evaluateNssContract p env d (expectsMachine p)
    if !ok then [detail]
    else if !socketGrps p then ["socket-grps-miss:".toList ++ p]
    else if !socketGrouplist p then ["socket-grouplist-miss:".toList ++ p]
    else []
  (fails.isEmpty, fails)

/-- The check passes when every principal is accepted and answered on the socket. -/
theorem warmPrincipalsNssReady_iff {env : GaneshaNssEnv} {d : Disk}
    {socketGrps socketGrouplist : Str → Bool} {principals : List Str} :
    (warmPrincipalsNssReady env d socketGrps socketGrouplist principals).1 = true ↔
      ∀ p ∈ principals, (evaluateNssContract p env d (expectsMachine p)).1 = true ∧
        socketGrps p = true ∧ socketGrouplist p = true := by
  simp only [warmPrincipalsNssReady, List.isEmpty_iff, List.flatMap_eq_nil_iff]
  refine forall₂_congr fun p _ => ?_
  cases (evaluateNssContract p env d (expectsMachine p)).1 <;> cases socketGrps p <;>
    cases socketGrouplist p <;> simp

/-! ## Lookup names in order -/

/-- The tests in front of the pushes keep the list free of repetitions. -/
theorem lookupCandidates_eq (p : Str) :
    lookupCandidates p = pushAllNew [p] [principalLocalPart p, machineShortName p] := by
  simp only [lookupCandidates, pushAllNew_cons, pushAllNew_nil, pushNew, List.mem_singleton]
  by_cases hs : principalLocalPart p = p
  · simp [hs]
  · by_cases hm : machineShortName p = principalLocalPart p
    · simp [hs, hm]
    · simp [hs, hm]

/-- No lookup name is there twice. -/
theorem nodup_sorted_lookupCandidates (p : Str) :
    ((lookupCandidates p).insertionSort (· ≤ ·)).Nodup := by
  rw [(List.perm_insertionSort _ _).nodup_iff, lookupCandidates_eq]
  exact nodup_pushNew (nodup_pushNew (List.nodup_singleton p) _) _

/-- The lookup names are the candidates in sorted order. -/
theorem nssLookupNames_eq (p : Str) :
    nssLookupNames p = (lookupCandidates p).insertionSort (· ≤ ·) :=
  List.destutter_of_isChain _ _ (nodup_sorted_lookupCandidates p).isChain

/-- The lookup names ascend. -/
theorem nssLookupNames_pairwise (p : Str) : (nssLookupNames p).Pairwise (· < ·) := by
  rw [nssLookupNames_eq]
  exact (List.pairwise_insertionSort (· ≤ ·) _).imp₂ (fun _ _ => lt_of_le_of_ne)
    (nodup_sorted_lookupCandidates p)

/-- The lookup names are the principal, its local part and the short name of the machine. -/
theorem mem_nssLookupNames {p c : Str} : c ∈ nssLookupNames p ↔
    c = p ∨ c = principalLocalPart p ∨ c = machineShortName p := by
  rw [nssLookupNames_eq, List.mem_insertionSort, lookupCandidates_eq, mem_pushAllNew]
  simp

/-- In an ascending list, the first answer is that of the least element that answers. -/
theorem findSome?_eq_some_iff_of_pairwise {α β : Type*} [LinearOrder α] {l : List α}
    (hl : l.Pairwise (· < ·)) {f : α → Option β} {b : β} :
    l.findSome? f = some b ↔ ∃ a ∈ l, (∀ a' ∈ l, a' < a → f a' = none) ∧ f a = some b := by
  constructor
  · intro h
    obtain ⟨pre, a, post, rfl, ha, hpre⟩ := List.findSome?_eq_some_iff.mp h
    rw [List.pairwise_append, List.pairwise_cons] at hl
    refine ⟨a, by simp, ?_, ha⟩
    intro a' ha' hlt
    rcases List.mem_append.mp ha' with hmem | hmem
    · exact hpre a' hmem
    · rcases List.mem_cons.mp hmem with rfl | hmem
      · exact absurd hlt (lt_irrefl _)
      · exact absurd hlt (lt_asymm (hl.2.1.1 a' hmem))
  · rintro ⟨a, ha, hfirst, hfa⟩
    obtain ⟨pre, post, rfl⟩ := List.append_of_mem ha
    rw [List.pairwise_append] at hl
    refine List.findSome?_eq_some_iff.mpr ⟨pre, a, post, rfl, hfa, ?_⟩
    intro a' ha'
    exact hfirst a' (List.mem_append_left _ ha') (hl.2.2 a' ha' a List.mem_cons_self)

/-! ## The printed file -/

/-- A line feed behind a text that ends in something printable closes its last line. -/
theorem lines_append_newline {l : Str} (s : Str) (hne : l ≠ [])
    (hlast : ∀ c ∈ l.getLast?, c ≠ '\n' ∧ c ≠ '\r') : lines (l ++ '\n' :: s) = lines l ++ lines s := by
  obtain ⟨init, p, hp⟩ : ∃ init p, l.splitOn '\n' = init ++ [p] :=
    ⟨_, _, (List.dropLast_append_getLast (List.splitOn_ne_nil '\n' l)).symm⟩
  have hjoin : ['\n'].intercalate (init ++ [p]) = l := hp ▸ List.intercalate_splitOn '\n'
  -- the last piece ends where the text ends
  have hpl : p ≠ [] ∧ p.getLast? ≠ some '\r' := by
    by_cases hinit : init = []
    · subst hinit
      obtain rfl : p = l := by simpa using hjoin
      exact ⟨hne, fun h => (hlast '\r' h).2 rfl⟩
    · rw [intercalate_concat _ _ hinit] at hjoin
      have hsuffix : l.getLast? = ('\n' :: p).getLast? := by
        rw [← hjoin, List.getLast?_append_of_ne_nil _ (by simp)]
        rfl
      constructor
      · rintro rfl
        exact (hlast '\n' (by rw [hsuffix]; rfl)).1 rfl
      · intro h
        refine (hlast '\r' ?_).2 rfl
        rw [hsuffix, List.getLast?_cons_of_ne_nil (by rintro rfl; simp at h)]
        exact h
  obtain ⟨init', q, hq⟩ : ∃ init' q, s.splitOn '\n' = init' ++ [q] :=
    ⟨_, _, (List.dropLast_append_getLast (List.splitOn_ne_nil '\n' s)).symm⟩
  rw [lines, lines, lines, List.splitOn_append_cons_self, hp, hq, ← List.append_assoc]
  simp only [List.dropLast_concat, List.getLast?_concat]
  simp [stripCr, Option.filter_some, hpl.1, hpl.2]

/-- A file written line by line from texts that end in something printable is read text by text. -/
theorem lines_unlines_flatMap {ls : List Str}
    (h : ∀ l ∈ ls, l ≠ [] ∧ ∀ c ∈ l.getLast?, c ≠ '\n' ∧ c ≠ '\r') :
    lines (unlines ls) = ls.flatMap lines := by
  induction ls with
  | nil => rfl
  | cons l ls ih =>
    obtain ⟨hne, hlast⟩ := h l List.mem_cons_self
    rw [List.flatMap_cons, ← ih fun m hm => h m (List.mem_cons_of_mem _ hm),
      ← lines_append_newline _ hne hlast, unlines, unlines, List.flatMap_cons, List.append_assoc]
    rfl

/-- The physical line of a row that a reader takes for an entry of `name`. A row has more than one
line when its login or its gecos field holds a line feed. -/
def PasswdFields.lineFor (name : Str) (f : PasswdFields) : Option Str :=
  (lines f.line).find? (isEntryFor name)

/-- The rows of the entries: each entry has those of its logins that no entry in front of it has. -/
def entryRows (cache : IdCache) : List PasswdFields :=
  (firsts [] (allPasswdClaims cache)).filterMap Prod.snd

/-- The line that carries `name`: in the root row, else in the row of an entry (the first one that
looks like a root row is dropped), else in the row of nobody. -/
def carriedLine (cache : IdCache) (name : Str) : Option Str :=
  ((exactRootPasswd :: (entryRows cache).eraseP PasswdFields.isRootLine) ++ [nobodyPasswd]).findSome?
    (PasswdFields.lineFor name)

/-- A passwd line ends in its shell. -/
theorem PasswdFields.getLast?_line (f : PasswdFields) (h : f.shell ≠ []) :
    f.line.getLast? = f.shell.getLast? := by
  rw [PasswdFields.line, List.getLast?_append_of_ne_nil _ (by simp),
    show ':' :: (f.gecos ++ ':' :: (f.home ++ ':' :: f.shell))
      = (':' :: f.gecos ++ ':' :: f.home ++ [':']) ++ f.shell by simp,
    List.getLast?_append_of_ne_nil _ h]

/-- Every passwd row is the root row, the row of an entry, or nobody. -/
theorem mem_buildNssRows_passwd {cache : IdCache} {ldap : LdapGroups} {f : PasswdFields}
    (h : f ∈ (buildNssRows cache ldap).1) :
    f = exactRootPasswd ∨ f ∈ entryRows cache ∨ f = nobodyPasswd := by
  rw [buildNssRows_passwd, finishPasswd_eq, List.mem_append, List.mem_cons] at h
  rcases h with (h | h) | h
  · exact Or.inl h
  · exact Or.inr (Or.inl (List.mem_of_mem_eraseP h))
  · split at h
    · simp at h
    · exact Or.inr (Or.inr (by simpa using h))

/-- The entry for a name starts with it. -/
theorem login_of_isEntryFor {name line : Str} (h : isEntryFor name line = true) :
    before ':' line = name := by
  simp only [isEntryFor, Bool.and_eq_true, decide_eq_true_eq] at h
  exact h.2

/-- A line that opens with a name and a colon is an entry of the name. -/
theorem isEntryFor_append {w : Str} (hc : ':' ∉ w) (hhash : w.head? ≠ some '#') (t : Str) :
    isEntryFor w (w ++ ':' :: t) = true := by
  have hhead : (w ++ ':' :: t).head? ≠ some '#' := by
    cases w with
    | nil => simp
    | cons c w => simpa using hhash
  have hblank : isBlank (w ++ ':' :: t) = false := by
    rw [isBlank, List.isEmpty_eq_false_iff, ne_eq, trim_eq_nil_iff]
    intro h
    exact absurd (h ':' (by simp)) (by decide)
  simp only [isEntryFor, hhead, hblank, before_append t hc, ne_eq, not_false_eq_true, decide_true,
    Bool.not_false, Bool.and_self]

/-- The first line of a text keeps what stands in front of a colon in it. -/
theorem exists_mem_lines {w t : Str} (hlf : '\n' ∉ w) :
    ∃ t', w ++ ':' :: t' ∈ lines (w ++ ':' :: t) := by
  rcases eq_before_append '\n' t with ⟨hno, -⟩ | ⟨r, hr⟩
  · refine ⟨t, ?_⟩
    have hmem : '\n' ∉ w ++ ':' :: t := by simp [hlf, hno]
    simp [lines, List.splitOn_eq_singleton hmem]
  · have hmem : '\n' ∉ w ++ ':' :: before '\n' t := by simp [hlf, not_mem_before]
    have hpieces : (w ++ ':' :: t).splitOn '\n' = (w ++ ':' :: before '\n' t) :: r.splitOn '\n' := by
      rw [← List.splitOn_append_cons_self_of_not_mem hmem, List.append_assoc, List.cons_append, ← hr]
    have hstrip : ∃ t', stripCr (w ++ ':' :: before '\n' t) = w ++ ':' :: t' := by
      unfold stripCr
      split
      · rw [List.dropLast_append_of_ne_nil (by simp)]
        cases hb : before '\n' t with
        | nil =>
          rename_i h
          rw [hb, List.getLast?_append_of_ne_nil _ (by simp)] at h
          simp at h
        | cons c cs => exact ⟨(c :: cs).dropLast, rfl⟩
      · exact ⟨_, rfl⟩
    obtain ⟨t', ht'⟩ := hstrip
    refine ⟨t', ?_⟩
    obtain ⟨p, ps, hps⟩ := List.exists_cons_of_ne_nil (List.splitOn_ne_nil '\n' r)
    rw [lines, hpieces, hps, List.dropLast_cons_cons, List.map_cons, ht']
    exact List.mem_append_left _ List.mem_cons_self

/-- The first line of a row is an entry of what stands in front of its first colon. -/
theorem PasswdFields.lineFor_of_login {f : PasswdFields} {w : Str} (h : before ':' f.login = w)
    (hlf : '\n' ∉ w) (hhash : w.head? ≠ some '#') : (f.lineFor w).isSome = true := by
  obtain ⟨t, ht⟩ : ∃ t, f.line = w ++ ':' :: t := by
    rcases eq_before_append ':' f.line with ⟨hno, -⟩ | ⟨t, ht⟩
    · exact absurd (show ':' ∈ f.line by simp [PasswdFields.line]) hno
    · refine ⟨t, ?_⟩
      rw [← h, ← loginField_line]
      exact ht
  have hc : ':' ∉ w := h ▸ not_mem_before _ _
  obtain ⟨t', hmem⟩ := @exists_mem_lines w t hlf
  rw [PasswdFields.lineFor, List.find?_isSome, ht]
  refine ⟨w ++ ':' :: t', hmem, isEntryFor_append hc hhash t'⟩

/-- **What a reader finds in the printed file** under a name is the carried line. -/
theorem find?_passwdFile (cache : IdCache) (ldap : LdapGroups) (name : Str) :
    (lines (unlines (buildNssSnapshot cache ldap).1)).find? (isEntryFor name)
      = carriedLine cache name := by
  -- every row ends in the name of a shell, so that reading by lines takes the rows apart again
  have hlines : ∀ l ∈ (buildNssSnapshot cache ldap).1,
      l ≠ [] ∧ ∀ c ∈ l.getLast?, c ≠ '\n' ∧ c ≠ '\r' := by
    intro l hl
    obtain ⟨f, hf, rfl⟩ := List.mem_map.mp hl
    have hshell : f.shell.getLast? = some 'h' ∨ f.shell.getLast? = some 'n' := by
      rcases mem_buildNssRows_passwd hf with rfl | hf | rfl
      · exact Or.inl rfl
      · obtain ⟨x, -, hx⟩ := mem_passwdRows_iff.mp hf
        rw [hx]
        exact Or.inr rfl
      · exact Or.inr rfl
    have hne : f.shell ≠ [] := by
      intro h
      simp [h] at hshell
    rw [f.getLast?_line hne]
    refine ⟨by simp [PasswdFields.line], ?_⟩
    rcases hshell with h | h
    all_goals
      rw [h]
      simp
  rw [lines_unlines_flatMap hlines, List.find?_flatMap, buildNssSnapshot, buildNssRows_passwd,
    List.findSome?_map, finishPasswd_eq, carriedLine]
  change List.findSome? (PasswdFields.lineFor name) _ = _
  split
  · -- a row of nobody is there already, so that the appended one is not reached
    rename_i h
    obtain ⟨f, hf, hnobody⟩ := h
    have hkeep : f ∈ (entryRows cache).eraseP PasswdFields.isRootLine := by
      refine (List.mem_eraseP_of_neg ?_).mpr hf
      rw [PasswdFields.isRootLine_iff, hnobody]
      decide
    rw [List.append_nil, List.findSome?_append]
    -- under the name `nobody` that row is found first; any other name the appended row does not
    -- carry
    by_cases hname : name = "nobody".toList
    · subst hname
      have hline := f.lineFor_of_login hnobody (by decide) (by decide)
      have hsome : (List.findSome? (PasswdFields.lineFor "nobody".toList)
          (exactRootPasswd :: (entryRows cache).eraseP PasswdFields.isRootLine)).isSome = true := by
        rw [List.findSome?_isSome_iff]
        exact ⟨f, List.mem_cons_of_mem _ hkeep, hline⟩
      rw [Option.or_eq_left_of_isSome hsome]
      rfl
    · have hnone : nobodyPasswd.lineFor name = none := by
        have hlines : lines nobodyPasswd.line = [nobodyPasswd.line] := by decide
        have hlogin : before ':' nobodyPasswd.line = "nobody".toList := by decide
        rw [PasswdFields.lineFor, hlines, List.find?_eq_none]
        intro l hl hent
        rw [List.mem_singleton] at hl
        rw [← login_of_isEntryFor hent, hl, hlogin] at hname
        exact hname rfl
      simp [hnone, entryRows]
  · rfl

/-- A write that returns leaves the content in the store, and the other stores as they were. -/
theorem writeAtomicIfChanged_of_ok {fails : Nat → Bool} {path : StorePath} {content : Str}
    {d d' : Disk} {wrote : Bool}
    (h : writeAtomicIfChanged fails path content d = (.ok wrote, d')) :
    d'.files path = .text content ∧ ∀ q ≠ path, d'.files q = d.files q := by
  rw [writeAtomicIfChanged] at h
  split at h
  · rename_i hread
    obtain ⟨-, rfl⟩ : _ ∧ d = d' := by simpa using h
    refine ⟨?_, fun _ _ => rfl⟩
    cases hfile : d.files path with
    | text c => simpa [hfile, StoreFile.readToString] using hread
    | missing => simp [hfile, StoreFile.readToString] at hread
    | unreadable => simp [hfile, StoreFile.readToString] at hread
  · split at h
    · simp at h
    · simp only [Prod.mk.injEq] at h
      obtain ⟨-, rfl⟩ := h
      exact ⟨by simp, fun q hq => by simp [hq]⟩

/-- Writes that all return leave the content of the first path in place, when no later write has
the same path. -/
theorem writeAllIfChanged_head {fails : Nat → Bool} {path : StorePath} {content : Str}
    {rest : List (StorePath × Str)} (hrest : ∀ pc ∈ rest, pc.1 ≠ path) {acc wrote : Bool}
    {d d' : Disk} (h : writeAllIfChanged fails ((path, content) :: rest) acc d = (.ok wrote, d')) :
    d'.files path = .text content := by
  -- by induction on the later writes, each of another path
  have hkeep : ∀ (rest : List (StorePath × Str)), (∀ pc ∈ rest, pc.1 ≠ path) →
      ∀ (acc : Bool) (d : Disk), writeAllIfChanged fails rest acc d = (.ok wrote, d') →
        d'.files path = d.files path := by
    intro rest
    induction rest with
    | nil =>
      intro _ acc d h
      simp only [writeAllIfChanged, Prod.mk.injEq] at h
      rw [h.2]
    | cons pc rest ih =>
      intro hne acc d h
      rw [writeAllIfChanged] at h
      split at h
      · rename_i b d₁ hw
        rw [ih (fun q hq => hne q (List.mem_cons_of_mem _ hq)) _ _ h]
        exact (writeAtomicIfChanged_of_ok hw).2 path (hne pc List.mem_cons_self).symm
      · simp at h
  rw [writeAllIfChanged] at h
  split at h
  · rename_i b d₁ hw
    rw [hkeep rest hrest _ _ h]
    exact (writeAtomicIfChanged_of_ok hw).1
  · simp at h

/-- After a rewrite of the stores the passwd store holds the printed rows. -/
theorem nssPasswd_of_materialize {fails : Nat → Bool} {cache : IdCache} {ldap : LdapGroups}
    {d d' : Disk} {wrote : Bool}
    (h : materializeNssWrappersAt fails cache ldap d = (.ok wrote, d')) :
    d'.files .nssPasswd = .text (unlines (buildNssSnapshot cache ldap).1) :=
  writeAllIfChanged_head (by simp) h

/-- **The probe on a written store** answers with the carried line of the first lookup name that has
one. -/
theorem probeNssPasswdFromFile_eq {fails : Nat → Bool} {cache : IdCache} {ldap : LdapGroups}
    {d d' : Disk} {wrote : Bool}
    (h : materializeNssWrappersAt fails cache ldap d = (.ok wrote, d')) (name : Str) :
    probeNssPasswdFromFile name d'
      = ((nssLookupNames name).findSome? (carriedLine cache)).bind parseGetentPasswd := by
  simp only [probeNssPasswdFromFile, nssPasswd_of_materialize h, StoreFile.readToString, bind,
    Option.bind_some, find?_passwdFile]

/-! ## The gate -/

/-- The entries the gate is for: realm-qualified, in the alphabet of logins, and either a `host/`
machine or a user with proper ids and a local part that is not a number. -/
structure IsGateEntry (r : Resolved) : Prop where
  realm : principalHasRealm r.principal = true
  chars : ∀ c ∈ r.principal, isRealmLoginChar c = true
  kind : (r.kind = .machine ∧ expectsMachine r.principal = true) ∨
    (r.kind = .user ∧ isNumericLocalPrincipal r.principal = false ∧ r.gid ≠ 0 ∧
      r.uid ≠ fallbackNobodyUid ∧ r.gid ≠ fallbackNobodyGid)

/-- The gate finds the entry's ids in the passwd store, and accepts the entry. -/
structure GateAccepts (env : GaneshaNssEnv) (d : Disk) (r : Resolved) : Prop where
  probe : probeNssPasswdFromFile r.principal d = some (r.uid, r.gid)
  verdict : (evaluateNssContract r.principal env d (expectsMachine r.principal)).1 = true

/-- The entry has the ids its principal is expected to have, and the first of its lookup names that
the rows carry is carried by a line with its ids. -/
structure FirstNameAgrees (cache : IdCache) (r : Resolved) : Prop where
  machine : expectsMachine r.principal = true → r.uid = machineUid ∧ r.gid = machineGid
  first : ∃ name ∈ nssLookupNames r.principal,
    (∀ shorter ∈ nssLookupNames r.principal, shorter < name → carriedLine cache shorter = none) ∧
      (carriedLine cache name).bind parseGetentPasswd = some (r.uid, r.gid)

/-- In file mode the verdict on found ids looks at the ids only. -/
theorem evaluateNssContract_of_probe {env : GaneshaNssEnv} (hfile : env.wrapperSo = false) {p : Str}
    {d : Disk} {uid gid : UInt32} (hd : (d.files .nssPasswd).isFile = true)
    (h : probeNssPasswdFromFile p d = some (uid, gid)) (expectMachine : Bool) :
    (evaluateNssContract p env d expectMachine).1 = true ↔
      if expectMachine then uid = machineUid ∧ gid = machineGid
      else uid ≠ fallbackNobodyUid ∧ gid ≠ fallbackNobodyGid ∧ gid ≠ 0 := by
  have hlive : env.wrapperAvailable d = false := by simp [GaneshaNssEnv.wrapperAvailable, hfile]
  have hprobe : probeNssPasswd env p d = some (uid, gid) := by simp [probeNssPasswd, hlive, h]
  simp only [evaluateNssContract, hd, hlive, hprobe, Bool.not_true, Bool.false_eq_true, if_false]
  -- a machine is asked for the machine's ids, anybody else not to be nobody
  cases expectMachine with
  | true =>
    by_cases hids : uid = machineUid ∧ gid = machineGid
    · simp [hids.1, hids.2]
    · have hids' : uid ≠ machineUid ∨ gid ≠ machineGid := by tauto
      simp [hids, hids']
  | false =>
    by_cases hnobody : uid = fallbackNobodyUid ∨ gid = fallbackNobodyGid
    · simp only [Bool.false_eq_true, if_false, if_pos hnobody]
      tauto
    · rw [not_or] at hnobody
      by_cases hzero : gid = 0
      · have hne : (0 : UInt32) ≠ fallbackNobodyGid := by decide
        simp [hnobody.1, hzero, hne]
      · simp [hnobody.1, hnobody.2, hzero]

/-! ## What the condition means for rows of one line -/

/-- Every entry's rows are one line with the login in front of its first colon. -/
def SingleLines (cache : IdCache) : Prop :=
  ∀ f ∈ entryRows cache, ':' ∉ f.login ∧ '\n' ∉ f.line

/-- A row of one line is found under its login only. -/
theorem PasswdFields.lineFor_of_single {f : PasswdFields} (hc : ':' ∉ f.login)
    (hlf : '\n' ∉ f.line) {name : Str} (hhash : name.head? ≠ some '#') :
    f.lineFor name = if f.login = name then some f.line else none := by
  have hlines : lines f.line = [f.line] := by
    have hne : f.line ≠ [] := by simp [PasswdFields.line]
    simp [lines, List.splitOn_eq_singleton hlf, Option.filter_some, hne]
  have hlogin : before ':' f.line = f.login := by
    rw [← loginField, loginField_line, before_eq_self hc]
  rw [PasswdFields.lineFor, hlines, List.find?_singleton]
  split
  · rename_i h
    rw [if_pos (hlogin ▸ login_of_isEntryFor h)]
  · rename_i h
    rw [if_neg]
    intro hname
    subst hname
    refine h ?_
    obtain ⟨t, ht⟩ : ∃ t, f.line = f.login ++ ':' :: t := ⟨_, by simp [PasswdFields.line]; rfl⟩
    rw [ht]
    exact isEntryFor_append hc hhash t

/-- **The carried line of a held login** is the row of its first holder. -/
theorem carriedLine_of_firstHolder {cache : IdCache} (hsingle : SingleLines cache) {x : Resolved}
    {name : Str} (hx : FirstHolder cache x name) (hroot : before ':' name ≠ "root".toList)
    (hhash : name.head? ≠ some '#') : carriedLine cache name = some (passwdRow x name).line := by
  have hrow : passwdRow x name ∈ entryRows cache := mem_passwdRows_iff.mpr ⟨x, hx, rfl⟩
  have hkeep : passwdRow x name ∈ (entryRows cache).eraseP PasswdFields.isRootLine := by
    refine (List.mem_eraseP_of_neg ?_).mpr hrow
    rw [PasswdFields.isRootLine_iff]
    exact hroot
  have hfound : (passwdRow x name).lineFor name = some (passwdRow x name).line := by
    rw [PasswdFields.lineFor_of_single (hsingle _ hrow).1 (hsingle _ hrow).2 hhash]
    exact if_pos rfl
  obtain ⟨line, hline⟩ : ∃ line, ((exactRootPasswd ::
      (entryRows cache).eraseP PasswdFields.isRootLine).findSome?
        (PasswdFields.lineFor name)) = some line := by
    rw [← Option.isSome_iff_exists, List.findSome?_isSome_iff]
    exact ⟨_, List.mem_cons_of_mem _ hkeep, by rw [hfound]; rfl⟩
  rw [carriedLine, List.findSome?_append, hline, Option.some_or]
  obtain ⟨f, hf, hfl⟩ := List.exists_of_findSome?_eq_some hline
  rcases List.mem_cons.mp hf with rfl | hf
  · -- the root row answers for `root` only
    rw [PasswdFields.lineFor_of_single (by decide) (by decide) hhash] at hfl
    split at hfl
    · rename_i h
      exact absurd (h ▸ by decide : before ':' name = "root".toList) hroot
    · simp at hfl
  · have hf' := List.mem_of_mem_eraseP hf
    rw [PasswdFields.lineFor_of_single (hsingle f hf').1 (hsingle f hf').2 hhash] at hfl
    split at hfl
    · rename_i h
      obtain ⟨y, hy, hfy⟩ := mem_passwdRows_iff.mp hf'
      rw [h] at hy hfy
      -- two first holders of one login are filed under one key
      have hp : y.principal = x.principal :=
        le_antisymm (hy.first x hx.mem hx.emitted hx.login_mem)
          (hx.first y hy.mem hy.emitted hy.login_mem)
      have hyx : y = x := cache.eq_of_key_eq hy.mem hx.mem (by rw [Resolved.key, Resolved.key, hp])
      rw [← Option.some.inj hfl, hfy, hyx]
    · simp at hfl

/-- A login that nobody holds is not carried. -/
theorem carriedLine_eq_none {cache : IdCache} (hsingle : SingleLines cache) {name : Str}
    (hroot : name ≠ "root".toList) (hnobody : name ≠ "nobody".toList)
    (hhash : name.head? ≠ some '#') (h : ¬ ∃ x, FirstHolder cache x name) :
    carriedLine cache name = none := by
  rw [carriedLine, List.findSome?_eq_none_iff]
  intro f hf
  rw [List.mem_append, List.mem_cons, List.mem_singleton] at hf
  rcases hf with (rfl | hf) | rfl
  · rw [PasswdFields.lineFor_of_single (by decide) (by decide) hhash]
    exact if_neg (Ne.symm hroot)
  · have hf' := List.mem_of_mem_eraseP hf
    rw [PasswdFields.lineFor_of_single (hsingle f hf').1 (hsingle f hf').2 hhash, if_neg]
    rintro rfl
    obtain ⟨x, hx, -⟩ := mem_passwdRows_iff.mp hf'
    exact h ⟨x, hx⟩
  · rw [PasswdFields.lineFor_of_single (by decide) (by decide) hhash]
    exact if_neg (Ne.symm hnobody)

/-- The lookup names of a gate entry may stand as the name of a row. -/
theorem IsGateEntry.isFieldName {r : Resolved} (h : IsGateEntry r) {name : Str}
    (hname : name ∈ nssLookupNames r.principal) : IsFieldName name := by
  have hlocal : ∀ c ∈ principalLocalPart r.principal, c ∈ r.principal := fun c hc =>
    mem_of_mem_trim ((List.takeWhile_sublist _).mem hc)
  have hchars : ∀ c ∈ name, isRealmLoginChar c = true := by
    intro c hc
    refine h.chars c ?_
    rcases mem_nssLookupNames.mp hname with rfl | rfl | rfl
    · exact hc
    · exact hlocal c hc
    · exact hlocal c (mem_of_mem_afterLast hc)
  by_cases hne : name = []
  · rw [hne]
    exact ⟨by decide, by decide, by decide⟩
  · exact IsSaneLogin.isFieldName ⟨hne, hchars⟩

/-- The condition on the cached entries: the entry has the ids its principal is expected to have, and the
first holder of the least of its lookup names that is held at all has its ids. -/
structure FirstHolderAgrees (cache : IdCache) (r : Resolved) : Prop where
  machine : expectsMachine r.principal = true → r.uid = machineUid ∧ r.gid = machineGid
  first : ∃ name ∈ nssLookupNames r.principal,
    (∀ shorter ∈ nssLookupNames r.principal, shorter < name → ¬ ∃ x, FirstHolder cache x shorter) ∧
      ∃ x, FirstHolder cache x name ∧ x.uid = r.uid ∧ x.gid = r.gid

/-- **Reading the condition**: where all rows are single lines and none of the names is `root` or
`nobody`, the condition on the rows is the one on the cached entries. -/
theorem firstNameAgrees_iff {cache : IdCache} (hsingle : SingleLines cache) {r : Resolved}
    (hgate : IsGateEntry r) (hplain : ∀ name ∈ nssLookupNames r.principal,
      name ≠ "root".toList ∧ name ≠ "nobody".toList) :
    FirstNameAgrees cache r ↔ FirstHolderAgrees cache r := by
  -- under a plain name the carried line is the row of the first holder, and it reads as his ids
  have hheld : ∀ name ∈ nssLookupNames r.principal, ∀ x, FirstHolder cache x name →
      carriedLine cache name = some (passwdRow x name).line ∧
        parseGetentPasswd (passwdRow x name).line = some (x.uid, x.gid) := by
    intro name hname x hx
    have hfield := hgate.isFieldName hname
    constructor
    · refine carriedLine_of_firstHolder hsingle hx ?_ hfield.hash
      rw [before_eq_self hfield.colon]
      exact (hplain name hname).1
    · rw [parseGetentPasswd, (parse_passwdRow_iff hfield.hash).mpr ⟨hfield.colon, hfield.trimmed⟩]
      rfl
  -- and a name without a holder carries no line
  have hnone : ∀ name ∈ nssLookupNames r.principal,
      carriedLine cache name = none ↔ ¬ ∃ x, FirstHolder cache x name := by
    intro name hname
    constructor
    · rintro h ⟨x, hx⟩
      rw [(hheld name hname x hx).1] at h
      simp at h
    · exact carriedLine_eq_none hsingle (hplain name hname).1 (hplain name hname).2
        (hgate.isFieldName hname).hash
  constructor
  -- the name whose line gives the ids has a holder, since it carries a line
  · rintro ⟨hm, name, hname, hfirst, hids⟩
    refine ⟨hm, name, hname, fun s hs hlt => (hnone s hs).mp (hfirst s hs hlt), ?_⟩
    by_contra hno
    by_cases hx : ∃ x, FirstHolder cache x name
    · obtain ⟨x, hx⟩ := hx
      obtain ⟨hline, hparse⟩ := hheld name hname x hx
      rw [hline, Option.bind_some, hparse, Option.some.injEq, Prod.mk.injEq] at hids
      exact hno ⟨x, hx, hids⟩
    · rw [(hnone name hname).mpr hx] at hids
      simp at hids
  · rintro ⟨hm, name, hname, hfirst, x, hx, huid, hgid⟩
    obtain ⟨hline, hparse⟩ := hheld name hname x hx
    refine ⟨hm, name, hname, fun s hs hlt => (hnone s hs).mpr (hfirst s hs hlt), ?_⟩
    rw [hline, Option.bind_some, hparse, huid, hgid]

/-! ## The gate -/

/-- **The gate accepts what the builder prints exactly when the first name agrees.** On the passwd
store that a rewrite left behind, and without the nss_wrapper library, the probe returns the ids of
an entry and the verdict is positive iff the first of the entry's lookup names that any row carries
is carried by a line with these ids. Where the rows are single lines this is a condition on the cached
entries. -/
theorem gateAccepts_iff {fails : Nat → Bool} {cache : IdCache} {ldap : LdapGroups} {d d' : Disk}
    {wrote : Bool} (hwrite : materializeNssWrappersAt fails cache ldap d = (.ok wrote, d'))
    {env : GaneshaNssEnv} (hfile : env.wrapperSo = false) {r : Resolved} (hgate : IsGateEntry r) :
    (GateAccepts env d' r ↔ FirstNameAgrees cache r) ∧
      (SingleLines cache →
        (∀ name ∈ nssLookupNames r.principal, name ≠ "root".toList ∧ name ≠ "nobody".toList) →
        (GateAccepts env d' r ↔ FirstHolderAgrees cache r)) := by
  have hd : (d'.files .nssPasswd).isFile = true := by
    rw [nssPasswd_of_materialize hwrite]
    rfl
  -- the probe tries the names in order and stops at the first that carries a line
  have hprobe : probeNssPasswdFromFile r.principal d' = some (r.uid, r.gid) ↔
      ∃ name ∈ nssLookupNames r.principal,
        (∀ shorter ∈ nssLookupNames r.principal, shorter < name →
          carriedLine cache shorter = none) ∧
        (carriedLine cache name).bind parseGetentPasswd = some (r.uid, r.gid) := by
    rw [probeNssPasswdFromFile_eq hwrite, Option.bind_eq_some_iff]
    simp only [findSome?_eq_some_iff_of_pairwise (nssLookupNames_pairwise r.principal),
      Option.bind_eq_some_iff]
    constructor
    · rintro ⟨line, ⟨name, hname, hfirst, hline⟩, hparse⟩
      exact ⟨name, hname, hfirst, line, hline, hparse⟩
    · rintro ⟨name, hname, hfirst, line, hline, hparse⟩
      exact ⟨line, ⟨name, hname, hfirst, hline⟩, hparse⟩
  suffices hiff : GateAccepts env d' r ↔ FirstNameAgrees cache r from
    ⟨hiff, fun hsingle hplain => hiff.trans (firstNameAgrees_iff hsingle hgate hplain)⟩
  constructor
  -- the verdict asks of a machine principal that it has the machine's ids
  · intro h
    have hverdict := (evaluateNssContract_of_probe hfile hd h.probe _).mp h.verdict
    refine ⟨fun hm => ?_, hprobe.mp h.probe⟩
    rwa [if_pos hm] at hverdict
  · intro h
    have hp := hprobe.mpr h.first
    refine ⟨hp, (evaluateNssContract_of_probe hfile hd hp _).mpr ?_⟩
    by_cases hm : expectsMachine r.principal = true
    · rw [if_pos hm]
      exact h.machine hm
    · rw [if_neg hm]
      -- of anybody else that no id is zero, which the kind of the entry says
      rcases hgate.kind with ⟨-, hm'⟩ | ⟨-, -, hgid, huid, hgid'⟩
      · exact absurd hm' hm
      · exact ⟨huid, hgid', hgid⟩

/-! ## A user with the name of a host -/

/-- A machine. -/
def clientMachine : Resolved :=
  ⟨"host/client@R".toList, "client".toList, 0, 0, .machine, "machine".toList, []⟩

/-- A user with the name of the machine. -/
def clientUser : Resolved :=
  ⟨"client@R".toList, "client".toList, 1000, 1000, .user, "ldap".toList, []⟩

/-- Both cached. -/
def clientCache : IdCache := (KeyedMap.empty.insert clientMachine).insert clientUser

/-- A disk without stores. -/
def emptyDisk : Disk := ⟨fun _ => .missing, .missing, 0, 0⟩

/-- Nothing preloaded and no library: the gate reads the file. -/
def fileEnv : GaneshaNssEnv := ⟨none, false, fun _ => none, fun _ => none⟩

/-- The stores written from both entries. -/
def clientDisk : Disk := (materializeNssWrappersAt (fun _ => false) clientCache none emptyDisk).2

/-- The user holds the short name, so that the gate finds a user behind `host/client@R` and keeps
Ganesha from starting. -/
theorem not_gateAccepts_client : clientMachine ∈ clientCache.values ∧ IsGateEntry clientMachine ∧
    probeNssPasswdFromFile clientMachine.principal clientDisk = some (1000, 1000) ∧
      (evaluateNssContract clientMachine.principal fileEnv clientDisk
        (expectsMachine clientMachine.principal)).1 = false ∧
      ¬ GateAccepts fileEnv clientDisk clientMachine := by
  have hprobe : probeNssPasswdFromFile clientMachine.principal clientDisk = some (1000, 1000) := by
    decide +kernel
  have hverdict : (evaluateNssContract clientMachine.principal fileEnv clientDisk
      (expectsMachine clientMachine.principal)).1 = false := by decide +kernel
  refine ⟨by decide, ⟨by decide, List.all_eq_true.mp (by decide), Or.inl (by decide)⟩, hprobe,
    hverdict, fun h => ?_⟩
  rw [h.verdict] at hverdict
  exact absurd hverdict (by decide)

/-- The user itself passes the gate. -/
theorem gateAccepts_client : GateAccepts fileEnv clientDisk clientUser := by
  have hwrite : materializeNssWrappersAt (fun _ => false) clientCache none emptyDisk
      = (.ok true, clientDisk) := by
    rfl
  refine (gateAccepts_iff hwrite rfl
    ⟨by decide, List.all_eq_true.mp (by decide), Or.inr (by decide)⟩).1.mpr ?_
  refine ⟨by decide, "client".toList, by decide, by decide, by decide +kernel⟩

end NfsKlldap
