import NfsKlldap.Idhelper.Reachable
import NfsKlldap.Idhelper.RealmGuard
import NfsKlldap.Idhelper.SnapshotCongr

/-! # The cache file (`IdCache::write_to_file`, `IdCache::load_from_file`)

The daemon writes its cache to a file, one line for an entry with six fields between bars, and starts
from that file again. The format has no escapes and leaves the name out: loading derives it from the
principal, as the trailing segment of a local part with a slash in it, whatever the kind.

* `Reloadable` — the entries that survive this;
* **`persistent_iff`** — a reachable cache comes back as it was exactly when all its entries do. -/

namespace NfsKlldap

open Text

/-! ## Loading -/

/-- The word of a kind, read back. -/
def PrincipalKind.ofStr (s : Str) : PrincipalKind :=
  if s = "machine".toList then .machine else if s = "user".toList then .user else .unknown

/-- The name loading gives to a principal: machines use the trailing host segment as short name. -/
def loadedName (principal : Str) : Str :=
  if '/' ∈ principalLocalPart principal then machineShortName principal
  else principalLocalPart principal

/-- The supplemental field: comma-separated, what is no number is skipped. -/
def loadedSupps (field : Str) : List UInt32 := (field.splitOn ',').filterMap fun s => parseU32 (trim s)

/-- One line of the file; comments, blank lines and lines with too few fields are skipped. The
supplemental field is optional. -/
def loadLine (line : Str) : Option Resolved :=
  if line.head? = some '#' ∨ trim line = [] then none
  else
    match line.splitOn '|' with
    | principal :: uid :: gid :: kind :: source :: rest =>
      match parseU32 uid, parseU32 gid with
      | some uid, some gid =>
        some ⟨principal, loadedName principal, uid, gid, .ofStr kind, source,
          (rest.head?.map loadedSupps).getD []⟩
      | _, _ => none
    | _ => none

/-- The cache in a file; a file that cannot be opened holds none. -/
def loadFromFile (file : StoreFile) : IdCache :=
  (lines (file.readToString.getD [])).foldl
    (fun cache line =>
      match loadLine line with
      | some r => cache.insert r
      | none => cache) KeyedMap.empty

/-- The cache of the daemon after a restart: written without an error, then loaded. -/
def restarted (cache : IdCache) (d : Disk) : IdCache :=
  loadFromFile (writeToFile (fun _ => false) cache d).2.cacheFile

/-- The cache that is loaded holds the lines that can be read, the later ones over the earlier. -/
theorem loadFromFile_eq (file : StoreFile) : loadFromFile file
    = ((lines (file.readToString.getD [])).filterMap loadLine).foldl KeyedMap.insert
      KeyedMap.empty := by
  rw [loadFromFile, List.foldl_filterMap]
  congr
  funext cache line
  cases loadLine line <;> rfl

/-- Every entry of a loaded cache stands on a line of the file. -/
theorem exists_loadLine {file : StoreFile} {e : Resolved} (h : e ∈ (loadFromFile file).values) :
    ∃ line, '\n' ∉ line ∧ loadLine line = some e := by
  rw [loadFromFile_eq] at h
  rcases KeyedMap.mem_foldl_insert (f := id) h with ⟨hmem, -⟩ | ⟨x, hx, rfl⟩
  · simp at hmem
  · obtain ⟨line, hline, hload⟩ := List.mem_filterMap.mp hx
    exact ⟨line, not_mem_of_mem_lines hline, hload⟩

/-- What a line can hold: no bar and no comment sign in the principal, and the derived name. -/
theorem loadLine_eq_some {line : Str} {e : Resolved} (h : loadLine line = some e) :
    e.principal = before '|' line ∧ e.principal.head? ≠ some '#' ∧
      e.name = loadedName e.principal := by
  unfold loadLine at h
  split at h
  · simp at h
  next hskip =>
  rw [not_or] at hskip
  split at h
  next principal _ _ _ _ _ hsplit =>
    split at h
    · cases h
      have hp : principal = before '|' line := by
        have hhead := head?_splitOn '|' line
        rw [hsplit] at hhead
        simpa using hhead
      refine ⟨hp, fun hc => hskip.1 ?_, rfl⟩
      -- the principal opens the line
      rcases eq_before_append '|' line with ⟨-, hb⟩ | ⟨r, hr⟩
      · rw [← hb, ← hp]
        exact hc
      · rw [hr, ← hp, List.head?_append, hc]
        rfl
    · simp at h
  · simp at h

/-! ## Entries that survive -/

/-- An entry whose line is read back as the entry: the principal has no bar and no line feed in it
and is no comment, and a user has its local part for a name, without a slash. -/
structure Reloadable (e : Resolved) : Prop where
  bar : '|' ∉ e.principal
  line : '\n' ∉ e.principal
  comment : e.principal.head? ≠ some '#'
  name : e.kind = .user → '/' ∉ principalLocalPart e.principal ∧ e.name = principalLocalPart e.principal

/-- Whether an entry survives a reload can be decided. -/
instance (e : Resolved) : Decidable (Reloadable e) :=
  decidable_of_iff ('|' ∉ e.principal ∧ '\n' ∉ e.principal ∧ e.principal.head? ≠ some '#' ∧
      (e.kind = .user →
        '/' ∉ principalLocalPart e.principal ∧ e.name = principalLocalPart e.principal))
    ⟨fun h => ⟨h.1, h.2.1, h.2.2.1, h.2.2.2⟩, fun h => ⟨h.bar, h.line, h.comment, h.name⟩⟩

/-- What the file relies on beyond the principal, and every reachable entry has: a source that is one
of the daemon's words, and a name that comes from the principal. -/
structure EntryNamed (e : Resolved) : Prop where
  kind : e.kind = .user ∨ e.kind = .machine
  source : e.source ∈ "special".toList :: "bulk".toList :: lookupSources
  machine : e.kind = .machine → e.name = machineShortName e.principal
  user : e.kind = .user →
    e.name = principalLocalPart e.principal ∨ ∃ realm, e.principal = e.name ++ '@' :: realm

/-- Every entry that is filed has such a source and such a name. -/
theorem entryInvariant_named : EntryInvariant EntryNamed where
  supps h _ := ⟨h.kind, h.source, h.machine, h.user⟩
  machine _ _ _ := ⟨Or.inr rfl, by simp [machineResolved], fun _ => rfl, (nomatch ·)⟩
  user _ _ hsource := ⟨Or.inl rfl, by simp [hsource], (nomatch ·), fun _ => Or.inl rfl⟩
  seed _ realm _ _ _ :=
    ⟨Or.inl rfl, by simp [seedEntry], (nomatch ·), fun _ => Or.inr ⟨realm, rfl⟩⟩

/-- **The derived name** of a reachable entry is the one it has, unless it is a user and its name is
not its local part or has a slash in it. -/
theorem EntryNamed.name_iff {e : Resolved} (h : EntryNamed e) : e.name = loadedName e.principal ↔
    (e.kind = .user →
      '/' ∉ principalLocalPart e.principal ∧ e.name = principalLocalPart e.principal) := by
  unfold loadedName
  constructor
  · intro hname hu
    by_cases hslash : '/' ∈ principalLocalPart e.principal
    · -- the derived name has no slash, the local part of a user with such a name has none either
      rw [if_pos hslash, machineShortName] at hname
      have hfree : '/' ∉ e.name := hname ▸ not_mem_afterLast '/' _
      rcases h.user hu with heq | ⟨realm, heq⟩
      · exact absurd (heq ▸ hslash) hfree
      · have hat : '@' ∉ e.name := fun hmem =>
          at_not_mem_principalLocalPart e.principal (mem_of_mem_afterLast (hname ▸ hmem))
        have hlocal : ∀ c ∈ principalLocalPart e.principal, c ∈ e.name := by
          intro c hc
          rw [heq, principalLocalPart] at hc
          exact mem_of_mem_before_trim (by decide) hat hc
        exact absurd (hlocal '/' hslash) hfree
    · rw [if_neg hslash] at hname
      exact ⟨hslash, hname⟩
  · intro hname
    rcases h.kind with hk | hk
    · rw [if_neg (hname hk).1, (hname hk).2]
    · rw [h.machine hk, machineShortName]
      split
      · rfl
      next hslash => exact afterLast_eq_self hslash

/-! ## Writing -/

/-- The words of the daemon hold neither a bar nor a line feed. -/
theorem EntryNamed.source_clean {e : Resolved} (h : EntryNamed e) :
    '|' ∉ e.source ∧ '\n' ∉ e.source := by
  have hall : ("special".toList :: "bulk".toList :: lookupSources).all
      (fun s => decide ('|' ∉ s ∧ '\n' ∉ s)) = true := by decide
  simpa using List.all_eq_true.mp hall e.source h.source

/-- The name of a kind is in lower case. -/
theorem not_mem_asStr {c : Char} (hc : c.isLower = false) (k : PrincipalKind) : c ∉ k.asStr := by
  intro hmem
  have hall : k.asStr.all Char.isLower = true := by cases k <;> decide
  have := List.all_eq_true.mp hall c hmem
  simp [hc] at this

/-- The supplemental field holds digits and commas. -/
theorem mem_suppsField {c : Char} {supps : List UInt32}
    (h : c ∈ [','].intercalate (supps.map decimal)) : c = ',' ∨ c.isDigit = true := by
  rcases mem_intercalate h with hsep | ⟨m, hm, hc⟩
  · exact Or.inl (by simpa using hsep)
  · obtain ⟨g, -, rfl⟩ := List.mem_map.mp hm
    exact Or.inr (isDigit_of_mem_decimal hc)

/-- A list of gids is read as it is written. -/
theorem loadedSupps_intercalate (supps : List UInt32) :
    loadedSupps ([','].intercalate (supps.map decimal)) = supps := by
  by_cases hnil : supps = []
  · subst hnil
    decide
  · have hcomma : ∀ s ∈ supps.map decimal, ',' ∉ s := by
      intro s hs
      obtain ⟨g, -, rfl⟩ := List.mem_map.mp hs
      exact not_mem_decimal (by decide) g
    rw [loadedSupps, List.splitOn_intercalate ',' hcomma (by simpa using hnil), List.filterMap_map]
    simp

/-- **One line**: a reloadable entry is read back from its line. -/
theorem loadLine_cacheLine {e : Resolved} (hn : EntryNamed e) (h : Reloadable e) :
    loadLine (IdCache.cacheLine e) = some e := by
  have hfields : ∀ s ∈ [e.principal, decimal e.uid, decimal e.gid, e.kind.asStr, e.source,
      [','].intercalate (e.supplementalGids.map decimal)], '|' ∉ s := by
    have hsupps : '|' ∉ [','].intercalate (e.supplementalGids.map decimal) := fun hmem => by
      rcases mem_suppsField hmem with hc | hc
      · exact absurd hc (by decide)
      · exact absurd hc (by decide)
    simp only [List.forall_mem_cons]
    exact ⟨h.bar, not_mem_decimal (by decide) _, not_mem_decimal (by decide) _,
      not_mem_asStr (by decide) _, hn.source_clean.1, hsupps, by simp⟩
  have hsplit : (IdCache.cacheLine e).splitOn '|' = _ :=
    List.splitOn_intercalate '|' hfields (by simp)
  have hhead : (IdCache.cacheLine e).head? ≠ some '#' := by
    intro hc
    cases hp : e.principal with
    | nil => simp [IdCache.cacheLine, hp, List.intercalate] at hc
    | cons c t =>
      refine h.comment ?_
      simpa [IdCache.cacheLine, hp, List.intercalate] using hc
  have hblank : trim (IdCache.cacheLine e) ≠ [] := by
    rw [Ne, trim_eq_nil_iff]
    intro hall
    have hbar : '|' ∈ IdCache.cacheLine e := by simp [IdCache.cacheLine, List.intercalate]
    exact absurd (hall '|' hbar) (by decide)
  have hkind : PrincipalKind.ofStr e.kind.asStr = e.kind := by cases e.kind <;> decide
  rw [loadLine, if_neg (not_or.mpr ⟨hhead, hblank⟩), hsplit]
  simp only [parseU32_decimal, hkind, List.head?_cons, Option.map_some, Option.getD_some,
    loadedSupps_intercalate, ← hn.name_iff.mpr h.name]

/-- The lines of a reloadable cache come back from the file one by one. -/
theorem cacheLine_feed {e : Resolved} (hn : EntryNamed e) (h : Reloadable e) :
    '\n' ∉ IdCache.cacheLine e ∧ (IdCache.cacheLine e).getLast? ≠ some '\r' := by
  have hsupps : ∀ c ∈ [','].intercalate (e.supplementalGids.map decimal), c ≠ '\n' ∧ c ≠ '\r' := by
    intro c hc
    rcases mem_suppsField hc with rfl | hd
    · decide
    · constructor <;> rintro rfl <;> exact absurd hd (by decide)
  constructor
  · intro hmem
    rcases mem_intercalate hmem with hsep | ⟨s, hs, hc⟩
    · exact absurd hsep (by decide)
    · simp only [List.mem_cons, List.not_mem_nil, or_false] at hs
      rcases hs with rfl | rfl | rfl | rfl | rfl | rfl
      · exact h.line hc
      · exact not_mem_decimal (by decide) _ hc
      · exact not_mem_decimal (by decide) _ hc
      · exact not_mem_asStr (by decide) _ hc
      · exact hn.source_clean.2 hc
      · exact (hsupps _ hc).1 rfl
  · -- the line ends in its supplemental field, or in the bar in front of it
    have hline : IdCache.cacheLine e
        = ['|'].intercalate [e.principal, decimal e.uid, decimal e.gid, e.kind.asStr, e.source]
          ++ ('|' :: [','].intercalate (e.supplementalGids.map decimal)) := by
      simp [IdCache.cacheLine, List.intercalate]
    intro hlast
    rw [hline, List.getLast?_append_of_ne_nil _ (by simp)] at hlast
    rcases List.mem_cons.mp (List.mem_of_getLast? hlast) with hc | hc
    · exact absurd hc (by decide)
    · exact (hsupps _ hc).2 rfl

/-- **The file of a reloadable cache** holds its entries and nothing else. -/
theorem mem_restarted {cache : IdCache} (hn : cache.All EntryNamed) (h : cache.All Reloadable)
    (d : Disk) (e : Resolved) : e ∈ (restarted cache d).values ↔ e ∈ cache.values := by
  generalize hsorted : (cache.values.insertionSort fun a b => a.principal ≤ b.principal) = sorted
  have hperm : sorted.Perm cache.values := hsorted ▸ List.perm_insertionSort _ _
  -- no line of an entry holds a line feed or ends in a carriage return, so `lines` cuts where it
  -- was joined
  have hlines : ∀ l ∈ sorted.map IdCache.cacheLine, '\n' ∉ l ∧ l.getLast? ≠ some '\r' := by
    intro l hl
    obtain ⟨x, hx, rfl⟩ := List.mem_map.mp hl
    exact cacheLine_feed (hn x (hperm.mem_iff.mp hx)) (h x (hperm.mem_iff.mp hx))
  have hheader : ∀ l ∈ ["# nfs-klldap-idhelper cache v1".toList,
      "# principal|uid|gid|kind|source|supplemental (comma sep, may be empty)".toList],
      '\n' ∉ l ∧ l.getLast? ≠ some '\r' := by decide
  have hentries : (sorted.map IdCache.cacheLine).filterMap loadLine = sorted := by
    rw [List.filterMap_map, List.filterMap_congr (g := some), List.filterMap_some]
    intro x hx
    exact loadLine_cacheLine (hn x (hperm.mem_iff.mp hx)) (h x (hperm.mem_iff.mp hx))
  -- the two lines of the header are comments, which the loader passes over
  have hload : restarted cache d = sorted.foldl KeyedMap.insert KeyedMap.empty := by
    rw [restarted, loadFromFile_eq]
    simp only [writeToFile, Bool.false_eq_true, if_false, StoreFile.readToString, Option.getD_some,
      IdCache.fileText, hsorted]
    rw [lines_unlines, List.filterMap_append, hentries]
    · rfl
    · intro l hl
      rcases List.mem_append.mp hl with hl | hl
      · exact (hheader l hl).1
      · exact (hlines l hl).1
    · intro l hl
      rcases List.mem_append.mp hl with hl | hl
      · exact (hheader l hl).2
      · exact (hlines l hl).2
  rw [hload, ← hperm.mem_iff]
  constructor
  · intro he
    rcases KeyedMap.mem_foldl_insert (f := id) he with ⟨hmem, -⟩ | ⟨x, hx, rfl⟩
    · simp at hmem
    · exact hx
  · intro he
    -- the keys of one map differ, so that no entry read later takes the place of an earlier one
    have hnodup : (sorted.map fun x => Resolved.key (id x)).Nodup :=
      (hperm.map Resolved.key).nodup_iff.mpr cache.nodup
    exact KeyedMap.mem_foldl_insert_of_nodup (f := id) hnodup he

/-! ## Restarts -/

/-- **Persistence**: a restart gives back the same entry under every key, so that the stores are
built as before. -/
structure Persistent (cache : IdCache) (d : Disk) : Prop where
  entries : ∀ key, (restarted cache d).get? key = cache.get? key
  snapshot : ∀ ldap, buildNssSnapshot (restarted cache d) ldap = buildNssSnapshot cache ldap

/-- **When a cache survives a restart**: a reachable cache comes back as it was exactly when no
principal in it has a bar or a line feed or opens a comment, and every user is named by its local
part, without a slash. -/
theorem persistent_iff {cache : IdCache} (h : Reachable cache) (d : Disk) :
    Persistent cache d ↔ cache.All Reloadable := by
  have hn : cache.All EntryNamed := entryInvariant_named.reachable h
  constructor
  · intro hp e he
    have hget : (restarted cache d).get? e.key = some e :=
      (hp.entries e.key).trans (KeyedMap.get?_eq_some_iff.mpr ⟨he, rfl⟩)
    obtain ⟨line, hlf, hload⟩ := exists_loadLine (KeyedMap.get?_eq_some_iff.mp hget).1
    obtain ⟨hprincipal, hcomment, hname⟩ := loadLine_eq_some hload
    refine ⟨hprincipal ▸ not_mem_before '|' line, fun hmem => hlf ?_, hcomment,
      (hn e he).name_iff.mp hname⟩
    rw [hprincipal] at hmem
    exact (List.takeWhile_sublist _).mem hmem
  · intro hall
    have hmem := mem_restarted hn hall d
    have hperm : (restarted cache d).values.Perm cache.values :=
      (List.perm_ext_iff_of_nodup (restarted cache d).nodup.of_map cache.nodup.of_map).mpr hmem
    refine ⟨fun key => ?_, fun ldap => ?_⟩
    · cases hget : cache.get? key with
      | none =>
        rw [KeyedMap.get?_eq_none_iff] at hget ⊢
        exact fun e he => hget e ((hmem e).mp he)
      | some e =>
        rw [KeyedMap.get?_eq_some_iff] at hget ⊢
        exact ⟨(hmem e).mpr hget.1, hget.2⟩
    · refine buildNssSnapshot_reordered hperm ?_
      cases ldap with
      | none => exact Option.Rel.none
      | some groups => exact Option.Rel.some (List.Perm.refl _)

/-! ## A user with a slash in its name -/

/-- An outside world in which `getent` knows the user `alice/admin@R`. -/
def adminEnv : Env Unit :=
  { silentEnv with getent := fun name s =>
      (if name = "alice/admin@R".toList then
        some "alice/admin@R:x:1000:1000::/home/alice:/bin/sh\n".toList else none, s) }

/-- The cache of a daemon that was asked for `alice/admin@R`. -/
def adminCache : IdCache :=
  (resolvePrincipal adminEnv "R".toList [] "alice/admin@R".toList freshWorld).2.cache

/-- Before the restart the user is `alice/admin`, afterwards it is `admin`. -/
theorem not_persistent_admin :
    Reachable adminCache ∧ adminCache.values.map Resolved.name = ["alice/admin".toList] ∧
      (restarted adminCache freshWorld.disk).values.map Resolved.name = ["admin".toList] ∧
      ¬ Persistent adminCache freshWorld.disk := by
  have hnames : adminCache.values.map Resolved.name = ["alice/admin".toList] ∧
      (restarted adminCache freshWorld.disk).values.map Resolved.name = ["admin".toList] := by
    decide +kernel
  refine ⟨Reachable.resolve adminEnv Reachable.init _ _ _, hnames.1, hnames.2, fun h => ?_⟩
  have hentry := h.entries "alice/admin@R".toList
  revert hentry
  decide +kernel

/-- A cache that holds one machine survives. -/
theorem persistent_host : Persistent
    (resolvePrincipal silentEnv "R".toList [] "host/a@R".toList freshWorld).2.cache
      freshWorld.disk := by
  refine (persistent_iff (Reachable.resolve silentEnv Reachable.init _ _ _) freshWorld.disk).mpr ?_
  unfold IdCache.All
  decide

end NfsKlldap
