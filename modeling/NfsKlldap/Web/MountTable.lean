import NfsKlldap.Web.AclGate
import NfsKlldap.Lib.KeyedMap
import NfsKlldap.Lib.Stacking

/-! # The mount table and what is mounted (`fs_probe.rs`)

The kernel lists its mounts in the order they were made, with blanks and backslashes in names written in
octal. What is visible at a path is the mount that was put over it last. The lookups read the names as
they are written, and go for the longest mount point instead.

* **`acl_incapable_mounts_under`** is `aclIncapableMountsUnder`;
* **`visibleAt`** — the mount that is visible at a path;
* **`MountsResolved`** — both lookups agree with it, at every path;
* **`mountsResolved_iff`** — they do exactly when the table shows at every mount point what is visible
  there. -/

namespace NfsKlldap

open Text UnixPath

/-! ## ACL-incapable mounts below a root -/

/-- A mount below a root that cannot hold ACLs. -/
structure AclIncapableMount where
  mountPoint : Str
  fstype : Str
  deriving DecidableEq

/-- The last mount of every mount point, by mount point. -/
def lastMounts (entries : List MountEntry) : KeyedMap (Prod.fst : Str × MountEntry → Str) :=
  (entries.map fun e => (normalizePath e.mountPoint, e)).foldl KeyedMap.insert KeyedMap.empty

/-- `acl_incapable_mounts_under` -/
def aclIncapableMountsUnder (content : Option Str) (root : Str) : List AclIncapableMount :=
  match content with
  | none => []
  | some content =>
    let rootNorm := normalizePath root
    let visible := (lastMounts (parseMountinfo content)).values.insertionSort fun a b => a.1 ≤ b.1
    (visible.filter fun p => p.1 ≠ rootNorm && pathUnderMount p.1 rootNorm &&
        !aclCapableFromMount p.2.fstype p.2.superOptions p.2.mountSource).map fun p =>
      ⟨p.1, p.2.fstype⟩

/-! ## Absolute paths -/

/-- An absolute path without slashes at its end. -/
structure AbsPath where
  text : Str
  absolute : text.head? = some '/'
  normalized : normalizePath text = text
  deriving DecidableEq

namespace AbsPath

/-- The other path is this one or lies over it. -/
def covers (q p : AbsPath) : Bool := pathUnderMount p.text q.text

/-- The length of a path. -/
def depth (p : AbsPath) : ℕ := osLen p.text

/-- An absolute path is not empty. -/
theorem ne_nil (p : AbsPath) : p.text ≠ [] := by
  intro hnil
  have habsolute := p.absolute
  rw [hnil] at habsolute
  cases habsolute

/-- Two absolute paths with the same text are equal. -/
@[ext] theorem ext {p q : AbsPath} (h : p.text = q.text) : p = q := by
  cases p
  cases q
  cases h
  rfl

end AbsPath

/-- A path lies under a mount point that is it, or is the root, or is followed by a slash in it. -/
theorem pathUnderMount_iff {p q : Str} : pathUnderMount p q = true ↔
    p = q ∨ q = ['/'] ∧ p.head? = some '/' ∨ q ≠ ['/'] ∧ q ++ ['/'] <+: p := by
  rw [pathUnderMount, show "/".toList = ['/'] from rfl]
  split
  · next h => simp [h]
  · next h =>
    split
    · next hq =>
      rw [hq] at h
      simp [h, hq]
    · next hq => simp [h, hq]

/-- What lies over an absolute path is absolute. -/
theorem head?_of_pathUnderMount {p q : Str} (hp : p.head? = some '/') (hq : q ≠ [])
    (h : pathUnderMount p q = true) : q.head? = some '/' := by
  rcases pathUnderMount_iff.mp h with rfl | ⟨rfl, -⟩ | ⟨-, hpre⟩
  · exact hp
  · rfl
  · obtain ⟨c, t, rfl⟩ := List.exists_cons_of_ne_nil hq
    obtain ⟨u, rfl⟩ := hpre
    exact hp

/-- What lies under an absolute path is absolute. -/
theorem head?_of_under {p q : Str} (hq : q.head? = some '/') (h : pathUnderMount p q = true) :
    p.head? = some '/' := by
  rcases pathUnderMount_iff.mp h with rfl | ⟨-, hp⟩ | ⟨-, t, rfl⟩
  · exact hq
  · exact hp
  · simp [hq]

/-- Mount points form a forest. -/
theorem forest_absPath : Forest AbsPath.covers AbsPath.depth where
  refl p := pathUnderMount_iff.mpr (.inl rfl)
  -- the root covers everything; any other path covers what goes on behind its slash
  trans {p q r} hpq hqr := by
    refine pathUnderMount_iff.mpr ?_
    rcases pathUnderMount_iff.mp hqr with hrq | ⟨hq, hr⟩ | ⟨hq, hqr⟩
    · rw [hrq]
      exact pathUnderMount_iff.mp hpq
    · rcases pathUnderMount_iff.mp hpq with hqp | ⟨hp, -⟩ | ⟨-, hpq⟩
      · rw [← hqp]
        exact .inr (.inl ⟨hq, hr⟩)
      · exact .inr (.inl ⟨hp, hr⟩)
      · have hlen := hpq.length_le
        have hpos := List.length_pos_of_ne_nil p.ne_nil
        rw [hq, List.length_append, List.length_singleton] at hlen
        omega
    · rcases pathUnderMount_iff.mp hpq with hqp | ⟨hp, -⟩ | ⟨hp, hpq⟩
      · rw [← hqp]
        exact .inr (.inr ⟨hq, hqr⟩)
      · exact .inr (.inl ⟨hp, r.absolute⟩)
      · exact .inr (.inr ⟨hp, hpq.trans ((List.prefix_append _ _).trans hqr)⟩)
  -- two paths that begin a third one begin one another
  chain {p q r} hp hq := by
    simp only [AbsPath.covers, pathUnderMount_iff] at hp hq ⊢
    rcases hp with hrp | ⟨hp, -⟩ | ⟨hp, hpr⟩
    · rw [← hrp]
      exact .inr hq
    · exact .inl (.inr (.inl ⟨hp, q.absolute⟩))
    · rcases hq with hrq | ⟨hq, -⟩ | ⟨hq, hqr⟩
      · rw [← hrq]
        exact .inl (.inr (.inr ⟨hp, hpr⟩))
      · exact .inr (.inr (.inl ⟨hq, p.absolute⟩))
      · rcases List.prefix_or_prefix_of_prefix hpr hqr with hpq | hqp
        · rcases List.prefix_concat_iff.mp hpq with heq | hpq
          · exact .inl (.inl (List.append_cancel_right heq).symm)
          · exact .inl (.inr (.inr ⟨hp, hpq⟩))
        · rcases List.prefix_concat_iff.mp hqp with heq | hqp
          · exact .inr (.inl (List.append_cancel_right heq).symm)
          · exact .inr (.inr (.inr ⟨hq, hqp⟩))
  -- what goes on is longer
  depth_lt {p q} h hne := by
    rcases pathUnderMount_iff.mp h with hqp | ⟨hp, hq⟩ | ⟨-, t, ht⟩
    · exact absurd (AbsPath.ext hqp.symm) hne
    · obtain ⟨t, ht⟩ : ∃ t, q.text = '/' :: t := by
        cases hcase : q.text with
        | nil => simp [hcase] at hq
        | cons c t =>
          rw [hcase] at hq
          exact ⟨t, by rw [Option.some.inj hq]⟩
      have htne : t ≠ [] := by
        rintro rfl
        exact hne (AbsPath.ext (hp.trans ht.symm))
      rw [AbsPath.depth, AbsPath.depth, hp, ht, show '/' :: t = ['/'] ++ t from rfl, osLen_append]
      have := osLen_pos htne
      omega
    · rw [AbsPath.depth, AbsPath.depth, ← ht, osLen_append, osLen_append]
      have := osLen_pos (s := ['/']) (by simp)
      omega

/-! ## What the table shows -/

/-- The absolute path, if it is one, that a line is read to be mounted at. -/
def MountEntry.absPoint (e : MountEntry) : Option AbsPath :=
  if h : (normalizePath e.mountPoint).head? = some '/' then
    some ⟨normalizePath e.mountPoint, h, normalizePath_idem e.mountPoint⟩
  else none

/-- A mount point with what is read of the mount. -/
def MountEntry.reading (e : MountEntry) : Option (AbsPath × Str × FsCapabilities) :=
  e.absPoint.map fun p => (p, e.mountPoint, e.caps)

/-- The mounts of a table, as they are read. -/
def readings (content : Str) : List (AbsPath × Str × FsCapabilities) :=
  (parseMountinfo content).filterMap MountEntry.reading

/-- The mount point of an entry, normalized, as an absolute path. -/
theorem MountEntry.absPoint_eq_some_iff {e : MountEntry} {p : AbsPath} :
    e.absPoint = some p ↔ normalizePath e.mountPoint = p.text := by
  rw [absPoint]
  split
  · next h =>
    rw [Option.some.injEq]
    exact ⟨fun heq => congrArg AbsPath.text heq, fun heq => AbsPath.ext heq⟩
  · next h =>
    refine ⟨nofun, fun heq => absurd ?_ h⟩
    rw [heq]
    exact p.absolute

/-- A line whose mount point lies over an absolute path is read as a mount. -/
theorem MountEntry.exists_reading {e : MountEntry} {p : AbsPath}
    (h : pathUnderMount p.text (normalizePath e.mountPoint) = true) :
    ∃ q : AbsPath, q.text = normalizePath e.mountPoint ∧ e.reading = some (q, e.mountPoint, e.caps) := by
  have habsolute := head?_of_pathUnderMount p.absolute (normalizePath_ne_nil e.mountPoint) h
  refine ⟨⟨_, habsolute, normalizePath_idem e.mountPoint⟩, rfl, ?_⟩
  rw [reading, absPoint, dif_pos habsolute, Option.map_some]

/-- The greatest element by a key that a partial map keeps. -/
theorem maxByKey_filterMap {α β : Type*} {key : α → ℕ} {key' : β → ℕ} {f : α → Option β}
    {l : List α} (h : ∀ a ∈ l, ∃ b, f a = some b ∧ key' b = key a) :
    maxByKey key' (l.filterMap f) = (maxByKey key l).bind f := by
  induction l with
  | nil => rfl
  | cons a l ih =>
    obtain ⟨b, hb, hkey⟩ := h a List.mem_cons_self
    have ih := ih fun c hc => h c (List.mem_cons_of_mem _ hc)
    rw [List.filterMap_cons_some hb, maxByKey, maxByKey, ih]
    cases hmax : maxByKey key l with
    | none => simp [hb]
    | some c =>
      obtain ⟨d, hd, hkeyd⟩ := h c
        (List.mem_cons_of_mem _ (isLastMax_of_maxByKey hmax).mem)
      simp only [Option.bind_some, hd, hkey, hkeyd]
      split
      · exact hd.symm
      · exact hb.symm

/-- The lookup goes for the deepest mount point. -/
theorem probeFromMountinfoWithRoot_eq (content : Str) (p : AbsPath) :
    probeFromMountinfoWithRoot content p.text =
      ((deepest AbsPath.covers AbsPath.depth (readings content) p).map fun a =>
        (a.2.2, some a.2.1)).getD (.unknown, none) := by
  -- the entries above the path are those whose readings cover it
  have hfilter : ((readings content).filter fun a => AbsPath.covers a.1 p) =
      ((parseMountinfo content).filter fun e =>
        pathUnderMount p.text (normalizePath e.mountPoint)).filterMap MountEntry.reading := by
    rw [readings, List.filter_filterMap, List.filterMap_filter]
    refine List.filterMap_congr fun e _ => ?_
    by_cases h : pathUnderMount p.text (normalizePath e.mountPoint) = true
    · obtain ⟨q, hq, hreading⟩ := MountEntry.exists_reading h
      rw [hreading, if_pos h, Option.filter_some, if_pos]
      rw [AbsPath.covers, hq, h]
    · rw [if_neg h]
      cases hpoint : e.absPoint with
      | none => simp [MountEntry.reading, hpoint]
      | some q =>
        rw [MountEntry.reading, hpoint, Option.map_some, Option.filter_some, if_neg]
        rwa [AbsPath.covers, ← MountEntry.absPoint_eq_some_iff.mp hpoint]
  -- and the longest mount point is that of the deepest reading
  have hdeepest : deepest AbsPath.covers AbsPath.depth (readings content) p =
      (resolveMountForPath (parseMountinfo content) p.text).bind MountEntry.reading := by
    rw [deepest, hfilter, resolveMountForPath, p.normalized]
    refine maxByKey_filterMap fun e he => ?_
    obtain ⟨q, hq, hreading⟩ := MountEntry.exists_reading (List.mem_filter.mp he).2
    exact ⟨_, hreading, by rw [AbsPath.depth, hq]⟩
  rw [hdeepest, probeFromMountinfoWithRoot]
  cases hresolve : resolveMountForPath (parseMountinfo content) p.text with
  | none => rfl
  | some e =>
    have hunder := (List.mem_filter.mp (maxByKey_eq_some_iff.mp hresolve).mem).2
    rw [p.normalized] at hunder
    obtain ⟨q, -, hreading⟩ := MountEntry.exists_reading hunder
    rw [Option.bind_some, hreading]
    rfl

/-- The last line of a table with a mount point. -/
def lastEntry (content r : Str) : Option MountEntry :=
  (parseMountinfo content).reverse.find? fun e => normalizePath e.mountPoint = r

/-- What a table shows at a path stands in its last line with that mount point. -/
theorem lastAt_readings (content : Str) (p : AbsPath) :
    lastAt (readings content) p =
      (lastEntry content p.text).map fun e => (p, e.mountPoint, e.caps) := by
  have hpred : (fun e : MountEntry => e.reading.any fun a => a.1 = p) =
      fun e => decide (normalizePath e.mountPoint = p.text) := by
    funext e
    rw [MountEntry.reading, Option.any_map]
    by_cases h : normalizePath e.mountPoint = p.text
    · simp [MountEntry.absPoint_eq_some_iff.mpr h, h]
    · cases hpoint : e.absPoint with
      | none => simp [h]
      | some q =>
        have hne : q ≠ p := by
          rintro rfl
          exact h (MountEntry.absPoint_eq_some_iff.mp hpoint)
        simp [h, hne]
  rw [lastAt, readings, ← List.filterMap_reverse, List.find?_filterMap, hpred, lastEntry]
  cases hfind : (parseMountinfo content).reverse.find? fun e => normalizePath e.mountPoint = p.text with
  | none => rfl
  | some e =>
    have hpoint : normalizePath e.mountPoint = p.text := by simpa using List.find?_some hfind
    rw [Option.bind_some, MountEntry.reading, MountEntry.absPoint_eq_some_iff.mpr hpoint]
    rfl

/-- A mount point keeps the last entry of the table. -/
theorem get?_lastMounts (content r : Str) :
    (lastMounts (parseMountinfo content)).get? r = (lastEntry content r).map fun e => (r, e) := by
  rw [lastMounts, KeyedMap.get?_foldl_insert, ← List.map_reverse, List.find?_map, lastEntry]
  cases hfind : (parseMountinfo content).reverse.find? fun e => normalizePath e.mountPoint = r with
  | none => simpa [KeyedMap.get?, KeyedMap.empty, Function.comp_def] using hfind
  | some e =>
    have hpoint : normalizePath e.mountPoint = r := by simpa using List.find?_some hfind
    rw [show ((fun a : Str × MountEntry => decide (a.1 = r)) ∘
      fun e : MountEntry => (normalizePath e.mountPoint, e)) =
        fun e => decide (normalizePath e.mountPoint = r) from rfl, hfind]
    simp [hpoint]

/-- The incapable mounts below a root are those that the table shows last at their mount points. -/
theorem mem_aclIncapableMountsUnder {content : Str} {root : AbsPath} {m : AclIncapableMount} :
    m ∈ aclIncapableMountsUnder (some content) root.text ↔
      ∃ p raw caps, lastAt (readings content) p = some (p, raw, caps) ∧ p ≠ root ∧
        root.covers p = true ∧ caps.aclCapable = false ∧ m = ⟨p.text, caps.fstype⟩ := by
  simp only [aclIncapableMountsUnder, root.normalized, List.mem_map, List.mem_filter,
    List.mem_insertionSort, Bool.and_eq_true, decide_eq_true_eq, Bool.not_eq_true']
  constructor
  · rintro ⟨⟨r, e⟩, ⟨hmem, ⟨hne, hunder⟩, hincapable⟩, rfl⟩
    -- one entry is kept for each mount point, the last one
    have hget := KeyedMap.get?_eq_some_iff.mpr ⟨hmem, rfl⟩
    rw [get?_lastMounts] at hget
    obtain ⟨e', hlast, heq⟩ := Option.map_eq_some_iff.mp hget
    obtain ⟨-, rfl⟩ := Prod.mk.inj heq
    have hpoint : normalizePath e'.mountPoint = r := by simpa using List.find?_some hlast
    subst hpoint
    refine ⟨⟨_, head?_of_under root.absolute hunder, normalizePath_idem e'.mountPoint⟩,
      e'.mountPoint, e'.caps, ?_, fun h => hne (congrArg AbsPath.text h), hunder, hincapable, rfl⟩
    rw [lastAt_readings, hlast]
    rfl
  · rintro ⟨p, raw, caps, hlast, hne, hcovers, hincapable, rfl⟩
    rw [lastAt_readings] at hlast
    obtain ⟨e, he, heq⟩ := Option.map_eq_some_iff.mp hlast
    simp only [Prod.mk.injEq, true_and] at heq
    obtain ⟨rfl, rfl⟩ := heq
    refine ⟨(p.text, e), ⟨?_, ⟨fun h => hne (AbsPath.ext h), hcovers⟩, hincapable⟩, rfl⟩
    exact (KeyedMap.get?_eq_some_iff.mp ((get?_lastMounts content p.text).trans (by rw [he]; rfl))).1

/-- No mount is listed twice. -/
theorem nodup_aclIncapableMountsUnder (content : Option Str) (root : Str) :
    (aclIncapableMountsUnder content root).Nodup := by
  cases content with
  | none => exact List.nodup_nil
  | some content =>
    have hkeys := (lastMounts (parseMountinfo content)).nodup
    have hsorted : (((lastMounts (parseMountinfo content)).values.insertionSort fun a b =>
        a.1 ≤ b.1).map Prod.fst).Nodup :=
      ((List.perm_insertionSort _ _).map Prod.fst).nodup_iff.mpr hkeys
    have hpoints : ((aclIncapableMountsUnder (some content) root).map
        AclIncapableMount.mountPoint).Nodup := by
      simp only [aclIncapableMountsUnder, List.map_map]
      exact (List.filter_sublist.map Prod.fst).nodup hsorted
    exact hpoints.of_map _

/-! ## What is mounted -/

/-- A word of a line: not the separator, and without white space. -/
def IsWord (w : Str) : Prop := w ≠ [] ∧ (∀ c ∈ w, isWhitespace c = false) ∧ w ≠ ['-']

/-- A word is not empty, holds no blank, and is not the dash. -/
theorem isWord_iff {w : Str} :
    IsWord w ↔ (w ≠ [] ∧ (w.all fun c => !isWhitespace c) = true ∧ w ≠ ['-']) := by
  rw [IsWord, List.all_eq_true]
  simp

/-- Being a word is decidable. -/
instance (w : Str) : Decidable (IsWord w) := decidable_of_iff' _ isWord_iff

/-- A mount, as the kernel has it. Options are words, names are any texts. -/
structure KernelMount where
  id : ℕ
  parent : ℕ
  major : ℕ
  minor : ℕ
  root : AbsPath
  point : AbsPath
  options : Str
  optionalFields : List Str
  fstype : Str
  source : Str
  superOptions : List Str
  words : ∀ w ∈ options :: optionalFields, IsWord w
  superWords : ∀ w ∈ superOptions, w ≠ [] ∧ ∀ c ∈ w, isWhitespace c = false ∧ c ≠ ','
  superOptions_ne_nil : superOptions ≠ []

/-- Names in the table: blanks, line feeds and backslashes are written in octal. -/
def mangle (s : Str) : Str :=
  s.flatMap fun c =>
    if c = ' ' then "\\040".toList
    else if c = '\t' then "\\011".toList
    else if c = '\n' then "\\012".toList
    else if c = '\\' then "\\134".toList
    else [c]

namespace KernelMount

variable (m : KernelMount)

/-- The fields of the line of a mount. -/
def fields : List Str :=
  [natDecimal m.id, natDecimal m.parent, natDecimal m.major ++ ':' :: natDecimal m.minor,
    mangle m.root.text, mangle m.point.text, m.options] ++ m.optionalFields ++
    [['-'], mangle m.fstype, mangle m.source, [','].intercalate m.superOptions]

/-- The line of a mount. -/
def line : Str := [' '].intercalate m.fields

/-- What is to be known of the filesystem of a mount. -/
def caps : FsCapabilities :=
  ⟨m.fstype, m.superOptions, aclCapableFromMount m.fstype m.superOptions m.source⟩

end KernelMount

/-- The table of mounts, in the order they were made. -/
def mountinfo (ms : List KernelMount) : Str := unlines (ms.map KernelMount.line)

/-- **The mount that is visible at a path**: the last one that was put over it. -/
def visibleAt (ms : List KernelMount) (p : AbsPath) : Option KernelMount :=
  ms.reverse.find? fun m => m.point.covers p

/-- **The lookups agree with the kernel**: a probe finds the mount that is visible at the path, and the
incapable mounts below a root are the visible ones. -/
structure MountsResolved (ms : List KernelMount) : Prop where
  probe : ∀ p : AbsPath, probeFromMountinfoWithRoot (mountinfo ms) p.text =
    ((visibleAt ms p).map fun m => (m.caps, some m.point.text)).getD (.unknown, none)
  below : ∀ (root : AbsPath) (a : AclIncapableMount),
    a ∈ aclIncapableMountsUnder (some (mountinfo ms)) root.text ↔
      ∃ m, (∃ p, visibleAt ms p = some m) ∧ m.point ≠ root ∧ root.covers m.point = true ∧
        m.caps.aclCapable = false ∧ a = ⟨m.point.text, m.fstype⟩
  once : ∀ root : AbsPath, (aclIncapableMountsUnder (some (mountinfo ms)) root.text).Nodup

/-- What the table shows at a path: the last line with that mount point, as it is read. -/
def shownAt (ms : List KernelMount) (p : AbsPath) : Option (Str × FsCapabilities) :=
  (lastEntry (mountinfo ms) p.text).map fun e => (e.mountPoint, e.caps)

/-- What is visible at a path, if it was mounted there. -/
def mountedAt (ms : List KernelMount) (p : AbsPath) : Option (Str × FsCapabilities) :=
  ((visibleAt ms p).filter fun m => m.point = p).map fun m => (m.point.text, m.caps)

/-- **The table is faithful** when it shows at every path what is visible of what was mounted there. -/
def TableFaithful (ms : List KernelMount) : Prop := ∀ p, shownAt ms p = mountedAt ms p

/-- The mounts with their mount points. -/
def mounted (ms : List KernelMount) : List (AbsPath × Str × FsCapabilities) :=
  ms.map fun m => (m.point, m.point.text, m.caps)

/-- The topmost mount over a path is the one that is visible there. -/
theorem topmost_mounted (ms : List KernelMount) (p : AbsPath) :
    topmost AbsPath.covers (mounted ms) p =
      (visibleAt ms p).map fun m => (m.point, m.point.text, m.caps) := by
  rw [topmost, mounted, ← List.map_reverse, List.find?_map]
  rfl

/-- What stands at a mount point is what is mounted there and visible. -/
theorem standing_mounted (ms : List KernelMount) (p : AbsPath) :
    standing AbsPath.covers (mounted ms) p =
      (mountedAt ms p).map fun v => (p, v.1, v.2) := by
  rw [standing, topmost_mounted, mountedAt]
  cases visibleAt ms p with
  | none => rfl
  | some m =>
    by_cases h : m.point = p
    · simp [Option.filter_some, h]
    · simp [Option.filter_some, h]

/-- **A table is faithful exactly when the last entry of every mount point is the mount that stands
there.** -/
theorem tableFaithful_iff {ms : List KernelMount} : TableFaithful ms ↔
    ∀ p, lastAt (readings (mountinfo ms)) p = standing AbsPath.covers (mounted ms) p := by
  refine forall_congr' fun p => ?_
  rw [lastAt_readings, standing_mounted, shownAt]
  constructor
  · intro h
    rw [← h, Option.map_map]
    rfl
  · intro h
    have hvalues := congrArg (Option.map fun a : AbsPath × Str × FsCapabilities => a.2) h
    simpa [Option.map_map, Function.comp_def] using hvalues

/-- A mount is visible at its mount point if it is visible anywhere. -/
theorem visibleAt_point {ms : List KernelMount} {p : AbsPath} {m : KernelMount}
    (h : visibleAt ms p = some m) : visibleAt ms m.point = some m := by
  have hcovers : m.point.covers p = true := by simpa using List.find?_some h
  refine find?_eq_of_imp h (forest_absPath.refl m.point) fun n hn => ?_
  exact forest_absPath.trans hn hcovers

/-- A reading is known by what a probe answers of it. -/
theorem reading_injective {o o' : Option (AbsPath × Str × FsCapabilities)}
    (ho : ∀ a ∈ o, a.1.text = normalizePath a.2.1) (ho' : ∀ a ∈ o', a.1.text = normalizePath a.2.1)
    (h : ((o.map fun a => (a.2.2, some a.2.1)).getD (.unknown, none) : FsCapabilities × Option Str) =
      (o'.map fun a => (a.2.2, some a.2.1)).getD (.unknown, none)) : o = o' := by
  cases o with
  | none =>
    cases o' with
    | none => rfl
    | some a' => exact absurd (congrArg Prod.snd h) nofun
  | some a =>
    cases o' with
    | none => exact absurd (congrArg Prod.snd h) nofun
    | some a' =>
      obtain ⟨hcaps, hraw⟩ := Prod.mk.inj h
      have hraw := Option.some.inj hraw
      have hpoint : a.1 = a'.1 := AbsPath.ext (by rw [ho a rfl, ho' a' rfl, hraw])
      exact congrArg some (Prod.ext hpoint (Prod.ext hraw hcaps))

/-- An entry is read under its normalized mount point. -/
theorem text_of_mem_readings {content : Str} {a : AbsPath × Str × FsCapabilities}
    (h : a ∈ readings content) : a.1.text = normalizePath a.2.1 := by
  obtain ⟨e, -, he⟩ := List.mem_filterMap.mp h
  obtain ⟨p, hp, rfl⟩ := Option.map_eq_some_iff.mp he
  exact (MountEntry.absPoint_eq_some_iff.mp hp).symm

/-- A mount is held under its normalized mount point. -/
theorem text_of_mem_mounted {ms : List KernelMount} {a : AbsPath × Str × FsCapabilities}
    (h : a ∈ mounted ms) : a.1.text = normalizePath a.2.1 := by
  obtain ⟨m, -, rfl⟩ := List.mem_map.mp h
  exact m.point.normalized.symm

/-- The probe of a path is right exactly when the deepest entry over it is the topmost mount. -/
theorem probe_eq_iff {ms : List KernelMount} {p : AbsPath} :
    probeFromMountinfoWithRoot (mountinfo ms) p.text =
        ((visibleAt ms p).map fun m => (m.caps, some m.point.text)).getD (.unknown, none) ↔
      deepest AbsPath.covers AbsPath.depth (readings (mountinfo ms)) p =
        topmost AbsPath.covers (mounted ms) p := by
  have hvisible : ((visibleAt ms p).map fun m => (m.caps, some m.point.text)) =
      (topmost AbsPath.covers (mounted ms) p).map fun a => (a.2.2, some a.2.1) := by
    rw [topmost_mounted, Option.map_map]
    rfl
  rw [probeFromMountinfoWithRoot_eq, hvisible]
  constructor
  · refine reading_injective (fun a ha => ?_) fun a ha => ?_
    · exact text_of_mem_readings (mem_of_lastAt (forest_absPath.deepest_eq_some_iff.mp ha).2.1).1
    · exact text_of_mem_mounted (mem_of_topmost ha).1
  · intro h
    rw [h]

/-- **Mount resolution**: the lookups agree with the kernel exactly when the table is faithful. -/
theorem mountsResolved_iff_faithful (ms : List KernelMount) : MountsResolved ms ↔ TableFaithful ms := by
  constructor
  · intro h
    rw [tableFaithful_iff, ← forest_absPath.deepest_eq_topmost_iff]
    exact fun p => probe_eq_iff.mp (h.probe p)
  · intro h
    rw [tableFaithful_iff] at h
    refine ⟨fun p => probe_eq_iff.mpr (forest_absPath.deepest_eq_topmost_iff.mpr h p), ?_,
      fun root => nodup_aclIncapableMountsUnder _ _⟩
    intro root a
    rw [mem_aclIncapableMountsUnder]
    simp only [h, standing_eq_some_iff, topmost_mounted, Option.map_eq_some_iff, Prod.mk.injEq]
    constructor
    · rintro ⟨p, raw, caps, ⟨⟨m, hm, rfl, rfl, rfl⟩, -⟩, hne, hcovers, hincapable, rfl⟩
      exact ⟨m, ⟨_, hm⟩, hne, hcovers, hincapable, rfl⟩
    · rintro ⟨m, ⟨p, hp⟩, hne, hcovers, hincapable, rfl⟩
      exact ⟨m.point, m.point.text, m.caps, ⟨⟨m, visibleAt_point hp, rfl, rfl, rfl⟩, trivial⟩, hne,
        hcovers, hincapable, rfl⟩

/-! ## Plain names -/

/-- A name that stands in the table as it is. -/
def IsPlain (s : Str) : Prop := s ≠ [] ∧ ∀ c ∈ s, isWhitespace c = false ∧ c ≠ '\\'

/-- A mount with plain names. -/
structure KernelMount.Plain (m : KernelMount) : Prop where
  root : IsPlain m.root.text
  point : IsPlain m.point.text
  fstype : IsPlain m.fstype
  source : IsPlain m.source

/-- A plain name is printed as it is. -/
theorem mangle_of_isPlain {s : Str} (h : IsPlain s) : mangle s = s := by
  have hchar : ∀ c ∈ s, (if c = ' ' then "\\040".toList else if c = '\t' then "\\011".toList
      else if c = '\n' then "\\012".toList else if c = '\\' then "\\134".toList else [c]) = [c] := by
    intro c hc
    obtain ⟨hblank, hback⟩ := h.2 c hc
    have hne : c ≠ ' ' ∧ c ≠ '\t' ∧ c ≠ '\n' := by
      refine ⟨?_, ?_, ?_⟩ <;> rintro rfl <;> exact absurd hblank (by decide)
    rw [if_neg hne.1, if_neg hne.2.1, if_neg hne.2.2, if_neg hback]
  rw [mangle, List.flatMap_congr hchar]
  simp

/-- Words with blanks between them are read back. -/
theorem splitWhitespace_intercalate {ws : List Str}
    (h : ∀ w ∈ ws, w ≠ [] ∧ ∀ c ∈ w, isWhitespace c = false) :
    splitWhitespace ([' '].intercalate ws) = ws := by
  rw [splitWhitespace]
  induction ws with
  | nil => rfl
  | cons w ws ih =>
    obtain ⟨⟨hne, hw⟩, hws⟩ := List.forall_mem_cons.mp h
    cases ws with
    | nil =>
      rw [List.intercalate_singleton, List.splitOnP_eq_singleton hw]
      simp [hne]
    | cons v ws =>
      rw [List.intercalate_cons_cons, List.append_assoc, List.singleton_append,
        List.splitOnP_append_cons_of_forall_mem hw _ (by decide),
        List.filter_cons_of_pos (by simpa using hne), ih hws]

/-- A text without white space that is no separator. -/
theorem isWord_of_mem {w : Str} {c : Char} (hc : c ∈ w) (hne : c ≠ '-')
    (hw : ∀ d ∈ w, isWhitespace d = false) : IsWord w := by
  refine ⟨List.ne_nil_of_mem hc, hw, ?_⟩
  rintro rfl
  exact hne (List.mem_singleton.mp hc)

/-- A number is a word. -/
theorem isWord_natDecimal (n : ℕ) : IsWord (natDecimal n) := by
  obtain ⟨c, t, hct⟩ := List.exists_cons_of_ne_nil (natDecimal_ne_nil n)
  have hc : c ∈ natDecimal n := hct ▸ List.mem_cons_self
  refine isWord_of_mem hc ?_ fun d hd => isWhitespace_of_isDigit (isDigit_of_mem_natDecimal hd)
  rintro rfl
  exact absurd (isDigit_of_mem_natDecimal hc) (by decide)

namespace KernelMount

variable {m : KernelMount}

/-- The fields in front of the separator. -/
def front (m : KernelMount) : List Str :=
  [natDecimal m.id, natDecimal m.parent, natDecimal m.major ++ ':' :: natDecimal m.minor,
    m.root.text, m.point.text, m.options] ++ m.optionalFields

/-- A plain mount's line in two halves, about the dash. -/
theorem Plain.fields (h : m.Plain) : m.fields =
    m.front ++ ['-'] :: [m.fstype, m.source, [','].intercalate m.superOptions] := by
  rw [KernelMount.fields, mangle_of_isPlain h.root, mangle_of_isPlain h.point,
    mangle_of_isPlain h.fstype, mangle_of_isPlain h.source]
  rfl

/-- In front of the separator there are words. -/
theorem Plain.front (h : m.Plain) : ∀ w ∈ m.front, IsWord w := by
  have hdevice : IsWord (natDecimal m.major ++ ':' :: natDecimal m.minor) := by
    refine isWord_of_mem (c := ':') (by simp) (by decide) fun d hd => ?_
    rcases List.mem_append.mp hd with hd | hd
    · exact (isWord_natDecimal m.major).2.1 d hd
    · rcases List.mem_cons.mp hd with rfl | hd
      · decide
      · exact (isWord_natDecimal m.minor).2.1 d hd
  have hpath : ∀ p : AbsPath, IsPlain p.text → IsWord p.text := fun p hp =>
    isWord_of_mem (List.mem_of_mem_head? p.absolute) (by decide) fun d hd => (hp.2 d hd).1
  intro w hw
  simp only [KernelMount.front, List.mem_append, List.mem_cons, List.not_mem_nil, or_false] at hw
  rcases hw with (rfl | rfl | rfl | rfl | rfl | rfl) | hw
  · exact isWord_natDecimal _
  · exact isWord_natDecimal _
  · exact hdevice
  · exact hpath _ h.root
  · exact hpath _ h.point
  · exact m.words _ List.mem_cons_self
  · exact m.words _ (List.mem_cons_of_mem _ hw)

/-- The options of a filesystem are one word. -/
theorem superOptions_word (m : KernelMount) : [','].intercalate m.superOptions ≠ [] ∧
    ∀ c ∈ [','].intercalate m.superOptions, isWhitespace c = false := by
  constructor
  · obtain ⟨w, ws, hws⟩ := List.exists_cons_of_ne_nil m.superOptions_ne_nil
    have hw := m.superWords w (hws ▸ List.mem_cons_self)
    intro hnil
    have hhead := head?_intercalate (s := [',']) ws hw.1
    rw [← hws, hnil, List.head?_nil, eq_comm, List.head?_eq_none_iff] at hhead
    exact hw.1 hhead
  · intro c hc
    rcases mem_intercalate hc with hsep | ⟨w, hw, hmem⟩
    · rw [List.mem_singleton.mp hsep]
      decide
    · exact ((m.superWords w hw).2 c hmem).1

/-- The options of a filesystem are read back. -/
theorem superOptions_read (m : KernelMount) :
    ((([','].intercalate m.superOptions).splitOn ',').map trim).filter (· ≠ []) =
      m.superOptions := by
  have htrim : ∀ w ∈ m.superOptions, trim w = w := fun w hw =>
    trim_eq_self (fun c hc => ((m.superWords w hw).2 c (List.mem_of_mem_head? hc)).1)
      fun c hc => ((m.superWords w hw).2 c (List.mem_of_mem_getLast? hc)).1
  rw [List.splitOn_intercalate ',' (fun w hw hc => ((m.superWords w hw).2 ',' hc).2 rfl)
    m.superOptions_ne_nil, List.map_congr_left htrim, List.map_id']
  refine List.filter_eq_self.mpr fun w hw => ?_
  simpa using (m.superWords w hw).1

/-- No field is empty or holds white space. -/
theorem Plain.words (h : m.Plain) :
    ∀ w ∈ m.fields, w ≠ [] ∧ ∀ c ∈ w, isWhitespace c = false := by
  intro w hw
  rw [h.fields] at hw
  rcases List.mem_append.mp hw with hw | hw
  · exact ⟨(h.front w hw).1, (h.front w hw).2.1⟩
  · simp only [List.mem_cons, List.not_mem_nil, or_false] at hw
    rcases hw with rfl | rfl | rfl | rfl
    · exact ⟨List.cons_ne_nil _ _, fun c hc => by
        rw [List.mem_singleton.mp hc]
        decide⟩
    · exact ⟨h.fstype.1, fun c hc => (h.fstype.2 c hc).1⟩
    · exact ⟨h.source.1, fun c hc => (h.source.2 c hc).1⟩
    · exact m.superOptions_word

/-- There is no white space in a line but blanks. -/
theorem Plain.not_mem_line (h : m.Plain) {c : Char} (hblank : c ≠ ' ')
    (hc : isWhitespace c = true) : c ∉ m.line := by
  intro hmem
  rcases mem_intercalate hmem with hsep | ⟨w, hw, hcw⟩
  · exact hblank (List.mem_singleton.mp hsep)
  · rw [(h.words w hw).2 c hcw] at hc
    cases hc

/-- **The line of a mount with plain names is read as it is.** -/
theorem Plain.parse (h : m.Plain) : parseMountinfoLine m.line =
    some ⟨m.point.text, m.fstype, m.source, m.superOptions⟩ := by
  have hwords : splitWhitespace m.line = m.fields := splitWhitespace_intercalate h.words
  have hdash : m.fields.findIdx? (fun w => w = "-".toList) = some m.front.length := by
    have hnone : m.front.findIdx? (fun w => w = "-".toList) = none :=
      List.findIdx?_eq_none_iff.mpr fun w hw => by simpa using (h.front w hw).2.2
    rw [h.fields, List.findIdx?_append, hnone, List.findIdx?_cons, if_pos (by decide)]
    simp
  have hlength : ¬m.fields.length < 10 := by
    rw [h.fields, KernelMount.front]
    simp
  have hpoint : m.fields[4]? = some m.point.text := by
    rw [h.fields, KernelMount.front]
    rfl
  have hbehind : ∀ i, m.fields[m.front.length + (i + 1)]? =
      [m.fstype, m.source, [','].intercalate m.superOptions][i]? := by
    intro i
    rw [h.fields, List.getElem?_append_right (by omega), Nat.add_sub_cancel_left,
      List.getElem?_cons_succ]
  have hdrop : m.fields.drop (m.front.length + 3) = [[','].intercalate m.superOptions] := by
    rw [h.fields, List.drop_append, List.drop_eq_nil_of_le (by omega), Nat.add_sub_cancel_left]
    rfl
  rw [parseMountinfoLine, hwords, if_neg hlength, hdash]
  dsimp only
  rw [hpoint, hbehind 0, hbehind 1, hdrop]
  simpa using m.superOptions_read

end KernelMount

/-- **A table of plain names is read as it is.** -/
theorem readings_of_plain {ms : List KernelMount} (h : ∀ m ∈ ms, m.Plain) :
    readings (mountinfo ms) = mounted ms := by
  have hlines : lines (mountinfo ms) = ms.map KernelMount.line := by
    refine lines_unlines (fun l hl => ?_) fun l hl => ?_
    · obtain ⟨m, hm, rfl⟩ := List.mem_map.mp hl
      exact (h m hm).not_mem_line (by decide) (by decide)
    · obtain ⟨m, hm, rfl⟩ := List.mem_map.mp hl
      exact fun hlast =>
        (h m hm).not_mem_line (by decide) (by decide) (List.mem_of_getLast? hlast)
  rw [readings, parseMountinfo, hlines, List.filterMap_filterMap, List.filterMap_map, mounted,
    ← List.filterMap_eq_map]
  refine List.filterMap_congr fun m hm => ?_
  have hpoint : ∀ e : MountEntry, e.mountPoint = m.point.text → e.absPoint = some m.point :=
    fun e he => by rw [MountEntry.absPoint_eq_some_iff, he, m.point.normalized]
  rw [Function.comp_apply, (h m hm).parse, Option.bind_some, MountEntry.reading, hpoint _ rfl]
  rfl

/-- **Nothing is buried**: where a mount is covered from above, its mount point was used again. -/
def NoneBuried (ms : List KernelMount) : Prop :=
  ∀ m ∈ ms, ∀ t ∈ visibleAt ms m.point, t.point = m.point

/-- Whether no mount is buried is decidable. -/
instance (ms : List KernelMount) : Decidable (NoneBuried ms) :=
  inferInstanceAs (Decidable (∀ m ∈ ms, ∀ t ∈ visibleAt ms m.point, t.point = m.point))

/-- **With plain names, a table is faithful exactly when no mount is buried.** -/
theorem tableFaithful_iff_of_plain {ms : List KernelMount} (h : ∀ m ∈ ms, m.Plain) :
    TableFaithful ms ↔ NoneBuried ms := by
  rw [tableFaithful_iff, readings_of_plain h, forest_absPath.lastAt_eq_standing_iff]
  constructor
  · intro hall m hm t ht
    refine hall (m.point, m.point.text, m.caps) (List.mem_map_of_mem hm)
      (t.point, t.point.text, t.caps) ?_
    rw [Option.mem_def, topmost_mounted, ht]
    rfl
  · intro hall a ha b hb
    obtain ⟨m, hm, rfl⟩ := List.mem_map.mp ha
    rw [Option.mem_def, topmost_mounted] at hb
    obtain ⟨t, ht, rfl⟩ := Option.map_eq_some_iff.mp hb
    exact hall m hm t ht

/-- **Mount resolution**: the lookups agree with the kernel exactly when the table is faithful, and with
plain names that is when nothing is buried. -/
theorem mountsResolved_iff (ms : List KernelMount) :
    (MountsResolved ms ↔ TableFaithful ms) ∧
      ((∀ m ∈ ms, m.Plain) → (MountsResolved ms ↔ NoneBuried ms)) :=
  ⟨mountsResolved_iff_faithful ms, fun h =>
    (mountsResolved_iff_faithful ms).trans (tableFaithful_iff_of_plain h)⟩

/-! ### A mount over another one, and a blank in a name -/

/-- A mount of a device. -/
def deviceMount (id : ℕ) (point : AbsPath) (fstype : String) : KernelMount where
  id := id
  parent := 1
  major := 8
  minor := id
  root := ⟨"/".toList, by decide, by decide⟩
  point := point
  options := "rw,relatime".toList
  optionalFields := ["shared:1".toList]
  fstype := fstype.toList
  source := "/dev/sda1".toList
  superOptions := ["rw".toList]
  words := by decide +kernel
  superWords w hw := by
    rw [List.mem_singleton.mp hw]
    exact ⟨by decide, by simp [isWhitespace]⟩
  superOptions_ne_nil := by decide

/-- A directory below the exports is mounted over, and the filesystem inside it is hidden. -/
def buriedMounts : List KernelMount :=
  [deviceMount 1 ⟨"/".toList, by decide, by decide⟩ "ext4",
    deviceMount 2 ⟨"/export/a/b".toList, by decide, by decide⟩ "vfat",
    deviceMount 3 ⟨"/export/a".toList, by decide, by decide⟩ "ext4"]

/-- A filesystem on a directory with a blank in its name. -/
def blankMounts : List KernelMount :=
  [deviceMount 1 ⟨"/".toList, by decide, by decide⟩ "ext4",
    deviceMount 2 ⟨"/export/my media".toList, by decide, by decide⟩ "vfat"]

/-- The probe answers with the hidden mount, and it does not find the one with the blank. -/
theorem not_mountsResolved_buried_blank :
    ¬MountsResolved buriedMounts ∧ ¬MountsResolved blankMounts := by
  constructor
  · intro h
    have hprobe := h.probe ⟨"/export/a/b/c".toList, by decide, by decide⟩
    revert hprobe
    decide +kernel
  · intro h
    have hprobe := h.probe ⟨"/export/my media/c".toList, by decide, by decide⟩
    revert hprobe
    decide +kernel

end NfsKlldap
