import NfsKlldap.Lib.UnixPath

/-! # Walking a directory tree

What lies at a path is a file, a symbolic link, something else or a directory with its entries. A walk
(`WalkDir` without `follow_links`) visits a directory before its entries, down to a depth limit, and
reports a directory it cannot read behind that directory's own entry. Links are visited and not
followed, with one exception: **a link the walk starts at is followed** when it leads to a directory,
and its own entry still says that it is a link.

`Listing.Has` is the tree itself: which names lead to what. `mem_walk_iff` says that a walk visits
exactly what is there, as deep as the limit allows, and `nodup_walk` that it does so once. -/

namespace NfsKlldap

open UnixPath

/-- What `lstat` says of a path. -/
inductive FileType
  | dir
  | file
  | symlink
  | special
  deriving DecidableEq

/-- What is no directory. -/
inductive NodeKind
  | file
  | symlink
  | special
  deriving DecidableEq

/-- The file type a listing reports for a node that is no directory. -/
def NodeKind.toFileType : NodeKind → FileType
  | .file => .file
  | .symlink => .symlink
  | .special => .special

/-- The entries of a directory, in the order of `readdir`. `failure` is the error of a directory that
cannot be read. -/
inductive Listing
  | nil
  | leaf (name : Str) (type : NodeKind) (others : Listing)
  | dir (name : Str) (failure : Option Str) (entries others : Listing)
  deriving DecidableEq

/-- Where a link leads to. -/
inductive LinkTarget
  | broken (error : Str)
  | dir (failure : Option Str) (entries : Listing)
  | other
  deriving DecidableEq

/-- What lies at a path. -/
inductive FsNode
  | missing (error : Str)
  | file
  | special
  | link (target : LinkTarget)
  | dir (failure : Option Str) (entries : Listing)
  deriving DecidableEq

/-- An entry of a walk. -/
structure DirEntry where
  path : Str
  depth : Nat
  fileType : FileType
  deriving DecidableEq

/-- An error of a walk. -/
structure WalkError where
  path : Option Str
  message : Str
  deriving DecidableEq

/-! ## The walk -/

/-- The depth is within the limit. -/
def withinDepth (limit : Option Nat) (depth : Nat) : Bool := limit.all fun m => depth ≤ m

/-- The walk of what lies in the directory `path`, at `depth`. -/
def descend (limit : Option Nat) (depth : Nat) (path : Str) (failure : Option Str)
    (below : List (Except WalkError DirEntry)) : List (Except WalkError DirEntry) :=
  if withinDepth limit depth then
    match failure with
    | some e => [.error ⟨some path, e⟩]
    | none => below
  else []

/-- The walk of the entries of the directory `parent`, which lie at `depth`. -/
def Listing.walk (limit : Option Nat) (depth : Nat) (parent : Str) :
    Listing → List (Except WalkError DirEntry)
  | .nil => []
  | .leaf name type others =>
    .ok ⟨push parent name, depth, type.toFileType⟩ :: others.walk limit depth parent
  | .dir name failure entries others =>
    .ok ⟨push parent name, depth, .dir⟩ ::
      (descend limit (depth + 1) (push parent name) failure
        (entries.walk limit (depth + 1) (push parent name)) ++ others.walk limit depth parent)

/-- The walk of the entries of the directory the walk starts at. -/
def walkBelow (limit : Option Nat) (root : Str) (failure : Option Str) (entries : Listing) :
    List (Except WalkError DirEntry) :=
  descend limit 1 root failure (entries.walk limit 1 root)

/-- `WalkDir::new(root).follow_links(false).max_depth(limit)` -/
def FsNode.walk (limit : Option Nat) (root : Str) : FsNode → List (Except WalkError DirEntry)
  | .missing e => [.error ⟨some root, e⟩]
  | .file => [.ok ⟨root, 0, .file⟩]
  | .special => [.ok ⟨root, 0, .special⟩]
  | .link (.broken e) => [.error ⟨some root, e⟩]
  | .link (.dir failure entries) => .ok ⟨root, 0, .symlink⟩ :: walkBelow limit root failure entries
  | .link .other => [.ok ⟨root, 0, .symlink⟩]
  | .dir failure entries => .ok ⟨root, 0, .dir⟩ :: walkBelow limit root failure entries

/-! ## The tree -/

/-- The names lead from the directory to something of the type. What cannot be read is not there. -/
inductive Listing.Has : Listing → List Str → FileType → Prop
  | leaf {name : Str} {type : NodeKind} {others : Listing} :
    Has (.leaf name type others) [name] type.toFileType
  | dir {name : Str} {failure : Option Str} {entries others : Listing} :
    Has (.dir name failure entries others) [name] .dir
  | under {name : Str} {entries others : Listing} {ns : List Str} {t : FileType} :
    Has entries ns t → Has (.dir name none entries others) (name :: ns) t
  | leafOthers {name : Str} {type : NodeKind} {others : Listing} {ns : List Str} {t : FileType} :
    Has others ns t → Has (.leaf name type others) ns t
  | dirOthers {name : Str} {failure : Option Str} {entries others : Listing} {ns : List Str}
    {t : FileType} :
    Has others ns t → Has (.dir name failure entries others) ns t

/-- The names lead from the node to something of the type; no name is the node itself. A link leads
nowhere. -/
inductive FsNode.Has : FsNode → List Str → FileType → Prop
  | file : Has .file [] .file
  | special : Has .special [] .special
  | link {target : LinkTarget} : Has (.link target) [] .symlink
  | dir {failure : Option Str} {entries : Listing} : Has (.dir failure entries) [] .dir
  | under {entries : Listing} {ns : List Str} {t : FileType} :
    entries.Has ns t → Has (.dir none entries) ns t

/-- The path of the names below a path. -/
def joinNames (root : Str) (ns : List Str) : Str := ns.foldl push root

/-- A path into a listing has at least one component. -/
theorem Listing.Has.ne_nil {l : Listing} {ns : List Str} {t : FileType} (h : l.Has ns t) :
    ns ≠ [] := by
  induction h with
  | leaf => simp
  | dir => simp
  | under _ _ => simp
  | leafOthers _ ih => exact ih
  | dirOthers _ ih => exact ih

/-- A depth above one within the limit is within it too. -/
theorem withinDepth_of_le {limit : Option Nat} {m n : Nat} (h : m ≤ n)
    (hn : withinDepth limit n = true) : withinDepth limit m = true := by
  cases limit with
  | none => rfl
  | some k =>
    simp only [withinDepth, Option.all_some, decide_eq_true_eq] at hn ⊢
    omega

/-- An entry comes out of a descent exactly when the depth is within the limit, the directory could be
read, and the entry is found below it. -/
theorem mem_descend_iff {limit : Option Nat} {depth : Nat} {path : Str} {failure : Option Str}
    {below : List (Except WalkError DirEntry)} {e : DirEntry} :
    .ok e ∈ descend limit depth path failure below ↔
      withinDepth limit depth = true ∧ failure = none ∧ .ok e ∈ below := by
  unfold descend
  cases failure with
  | some e => by_cases h : withinDepth limit depth = true <;> simp [h]
  | none => by_cases h : withinDepth limit depth = true <;> simp [h]

section Walk

variable {limit : Option Nat} {depth : Nat} {parent : Str} {l : Listing} {e : DirEntry}

/-- What a walk visits is there. -/
theorem Listing.has_of_mem_walk (hdepth : withinDepth limit depth = true)
    (h : .ok e ∈ l.walk limit depth parent) :
    ∃ ns, l.Has ns e.fileType ∧ e.path = joinNames parent ns ∧ e.depth + 1 = depth + ns.length ∧
      withinDepth limit e.depth = true := by
  induction l generalizing depth parent with
  | nil => exact nomatch h
  | leaf name type others ih =>
    rcases List.mem_cons.mp h with heq | h
    · cases heq
      exact ⟨[name], .leaf, rfl, rfl, hdepth⟩
    · obtain ⟨ns, hns, hpath, hlen, hin⟩ := ih hdepth h
      exact ⟨ns, .leafOthers hns, hpath, hlen, hin⟩
  | dir name failure entries others ihEntries ihOthers =>
    rcases List.mem_cons.mp h with heq | h
    · cases heq
      exact ⟨[name], .dir, rfl, rfl, hdepth⟩
    rcases List.mem_append.mp h with h | h
    · obtain ⟨hin, rfl, hbelow⟩ := mem_descend_iff.mp h
      obtain ⟨ns, hns, hpath, hlen, hin⟩ := ihEntries hin hbelow
      refine ⟨name :: ns, .under hns, hpath, ?_, hin⟩
      rw [List.length_cons]
      omega
    · obtain ⟨ns, hns, hpath, hlen, hin⟩ := ihOthers hdepth h
      exact ⟨ns, .dirOthers hns, hpath, hlen, hin⟩

/-- What is there is visited, as deep as the limit allows. -/
theorem Listing.mem_walk_of_has {ns : List Str} {t : FileType} (h : l.Has ns t)
    (hin : withinDepth limit (depth + ns.length - 1) = true) :
    .ok ⟨joinNames parent ns, depth + ns.length - 1, t⟩ ∈ l.walk limit depth parent := by
  induction h generalizing depth parent with
  | leaf => exact List.mem_cons_self
  | dir => exact List.mem_cons_self
  | @under name entries others ns t hns ih =>
    have hlen : 0 < ns.length := List.length_pos_iff.mpr hns.ne_nil
    rw [List.length_cons] at hin ⊢
    have hdepth : depth + (ns.length + 1) - 1 = depth + 1 + ns.length - 1 := by omega
    rw [hdepth] at hin ⊢
    refine List.mem_cons_of_mem _ (List.mem_append_left _ ?_)
    exact mem_descend_iff.mpr ⟨withinDepth_of_le (by omega) hin, rfl, ih hin⟩
  | leafOthers _ ih => exact List.mem_cons_of_mem _ (ih hin)
  | dirOthers _ ih => exact List.mem_cons_of_mem _ (List.mem_append_right _ (ih hin))

end Walk

/-- The walk below a directory visits what lies there. -/
theorem mem_walkBelow_iff {limit : Option Nat} {root : Str} {failure : Option Str}
    {entries : Listing} {e : DirEntry} :
    .ok e ∈ walkBelow limit root failure entries ↔
      failure = none ∧ ∃ ns, entries.Has ns e.fileType ∧ e.path = joinNames root ns ∧
        e.depth = ns.length ∧ withinDepth limit e.depth = true := by
  rw [walkBelow, mem_descend_iff]
  constructor
  · rintro ⟨hin, hfailure, h⟩
    obtain ⟨ns, hns, hpath, hlen, hdepth⟩ := Listing.has_of_mem_walk hin h
    exact ⟨hfailure, ns, hns, hpath, by omega, hdepth⟩
  · rintro ⟨hfailure, ns, hns, hpath, hlen, hdepth⟩
    have hpos : 0 < ns.length := List.length_pos_iff.mpr hns.ne_nil
    have hsub : 1 + ns.length - 1 = ns.length := by omega
    refine ⟨withinDepth_of_le (by omega) hdepth, hfailure, ?_⟩
    have hmem : .ok ⟨joinNames root ns, 1 + ns.length - 1, e.fileType⟩ ∈ entries.walk limit 1 root :=
      Listing.mem_walk_of_has hns (by rw [hsub, ← hlen]; exact hdepth)
    rw [hsub, ← hpath, ← hlen] at hmem
    exact hmem

/-- **A walk visits what is there**, and what lies behind a link it starts at. Links are left aside. -/
theorem FsNode.mem_walk_iff {limit : Option Nat} {root : Str} {node : FsNode} {e : DirEntry}
    (htype : e.fileType ≠ .symlink) :
    .ok e ∈ node.walk limit root ↔
      (∃ ns, node.Has ns e.fileType ∧ e.path = joinNames root ns ∧ e.depth = ns.length ∧
          withinDepth limit e.depth = true) ∨
        ∃ entries, node = .link (.dir none entries) ∧ ∃ ns, entries.Has ns e.fileType ∧
          e.path = joinNames root ns ∧ e.depth = ns.length ∧ withinDepth limit e.depth = true := by
  have hzero : withinDepth limit 0 = true := by cases limit <;> simp [withinDepth]
  obtain ⟨path, depth, type⟩ := e
  -- an entry for the start itself
  have hself : ∀ t, (Except.ok ⟨path, depth, type⟩ : Except WalkError DirEntry) = .ok ⟨root, 0, t⟩ ↔
      type = t ∧ path = root ∧ depth = 0 := by
    intro t
    simp only [Except.ok.injEq, DirEntry.mk.injEq]
    tauto
  have hlink : ∀ target ns, ¬ (FsNode.link target).Has ns type := by
    rintro target ns ⟨⟩
    exact htype rfl
  cases node with
  | missing e =>
    simp only [FsNode.walk, List.mem_singleton, reduceCtorEq, false_and, exists_false, or_false,
      false_iff, not_exists, not_and]
    rintro ns ⟨⟩
  | file =>
    simp only [FsNode.walk, List.mem_singleton, hself, reduceCtorEq, false_and, exists_false, or_false]
    constructor
    · rintro ⟨rfl, rfl, rfl⟩
      exact ⟨[], .file, rfl, rfl, hzero⟩
    · rintro ⟨ns, ⟨⟩, hpath, hdepth, -⟩
      exact ⟨rfl, hpath, hdepth⟩
  | special =>
    simp only [FsNode.walk, List.mem_singleton, hself, reduceCtorEq, false_and, exists_false, or_false]
    constructor
    · rintro ⟨rfl, rfl, rfl⟩
      exact ⟨[], .special, rfl, rfl, hzero⟩
    · rintro ⟨ns, ⟨⟩, hpath, hdepth, -⟩
      exact ⟨rfl, hpath, hdepth⟩
  | link target =>
    simp only [hlink, false_and, exists_false, false_or, FsNode.link.injEq]
    cases target with
    | broken e => simp [FsNode.walk]
    | other =>
      simp only [FsNode.walk, List.mem_singleton, hself, reduceCtorEq, false_and, exists_false,
        iff_false, not_and]
      exact fun h => absurd h htype
    | dir failure entries =>
      simp only [FsNode.walk, List.mem_cons, hself, mem_walkBelow_iff, LinkTarget.dir.injEq]
      constructor
      · rintro (⟨h, -⟩ | ⟨rfl, h⟩)
        · exact absurd h htype
        · exact ⟨entries, ⟨rfl, rfl⟩, h⟩
      · rintro ⟨_, ⟨rfl, rfl⟩, h⟩
        exact Or.inr ⟨rfl, h⟩
  | dir failure entries =>
    simp only [FsNode.walk, List.mem_cons, hself, mem_walkBelow_iff, reduceCtorEq, false_and,
      exists_false, or_false]
    constructor
    · rintro (⟨rfl, rfl, rfl⟩ | ⟨rfl, ns, hns, hpath, hdepth, hin⟩)
      · exact ⟨[], .dir, rfl, rfl, hzero⟩
      · exact ⟨ns, .under hns, hpath, hdepth, hin⟩
    · rintro ⟨ns, hns, hpath, hdepth, hin⟩
      cases hns with
      | dir => exact Or.inl ⟨rfl, hpath, hdepth⟩
      | under hns => exact Or.inr ⟨rfl, ns, hns, hpath, hdepth, hin⟩

/-! ## Once each -/

/-- A name of an entry. -/
def GoodName (n : Str) : Prop := n ≠ [] ∧ '/' ∉ n

/-- The names in a directory, not those below. -/
def Listing.names : Listing → List Str
  | .nil => []
  | .leaf name _ others => name :: others.names
  | .dir name _ _ others => name :: others.names

/-- The names in every directory are names, and different ones. -/
def Listing.WellNamed : Listing → Prop
  | .nil => True
  | .leaf name _ others => GoodName name ∧ name ∉ others.names ∧ others.WellNamed
  | .dir name _ entries others =>
    GoodName name ∧ name ∉ others.names ∧ entries.WellNamed ∧ others.WellNamed

/-- Every name in the tree below the node, through a link to a directory as well, is one a directory can
hold. -/
def FsNode.WellNamed : FsNode → Prop
  | .link (.dir _ entries) => entries.WellNamed
  | .dir _ entries => entries.WellNamed
  | _ => True

/-- The entries among the items of a walk. -/
def visited (items : List (Except WalkError DirEntry)) : List DirEntry :=
  items.filterMap Except.toOption

/-- The visited entries are the successful items. -/
theorem mem_visited {items : List (Except WalkError DirEntry)} {e : DirEntry} :
    e ∈ visited items ↔ .ok e ∈ items := by
  rw [visited, List.mem_filterMap]
  constructor
  · rintro ⟨x, hx, he⟩
    cases x with
    | error _ => cases he
    | ok _ => cases he; exact hx
  · exact fun h => ⟨_, h, rfl⟩

/-- Visiting two lists of items one after the other visits both. -/
theorem visited_append (xs ys : List (Except WalkError DirEntry)) :
    visited (xs ++ ys) = visited xs ++ visited ys := List.filterMap_append

/-- A path into a listing starts with one of its names. -/
theorem Listing.Has.names {l : Listing} {ns : List Str} {t : FileType} (h : l.Has ns t) :
    ∃ n ms, ns = n :: ms ∧ n ∈ l.names := by
  induction h with
  | leaf => exact ⟨_, [], rfl, List.mem_cons_self⟩
  | dir => exact ⟨_, [], rfl, List.mem_cons_self⟩
  | under _ _ => exact ⟨_, _, rfl, List.mem_cons_self⟩
  | leafOthers _ ih =>
    obtain ⟨n, ms, hns, hn⟩ := ih
    exact ⟨n, ms, hns, List.mem_cons_of_mem _ hn⟩
  | dirOthers _ ih =>
    obtain ⟨n, ms, hns, hn⟩ := ih
    exact ⟨n, ms, hns, List.mem_cons_of_mem _ hn⟩

/-- Every component of a path into a well named listing is a good name. -/
theorem Listing.Has.good {l : Listing} {ns : List Str} {t : FileType} (h : l.Has ns t)
    (hl : l.WellNamed) : ∀ n ∈ ns, GoodName n := by
  induction h with
  | leaf => simpa using hl.1
  | dir => simpa using hl.1
  | under _ ih => exact List.forall_mem_cons.mpr ⟨hl.1, ih hl.2.2.1⟩
  | leafOthers _ ih => exact ih hl.2.2
  | dirOthers _ ih => exact ih hl.2.2.2

/-- What stands in front of the name of an entry. -/
def dirPrefix (p : Str) : Str := if p = [] ∨ p.getLast? = some '/' then p else p ++ ['/']

/-- Pushing a good name on a path appends it to the path's directory prefix. -/
theorem push_eq_dirPrefix (p : Str) {n : Str} (hn : GoodName n) : push p n = dirPrefix p ++ n := by
  have hhead : ¬ n.head? = some '/' := fun h => hn.2 (List.mem_of_mem_head? h)
  unfold push dirPrefix
  rw [if_neg hhead]
  split
  · rfl
  · simp

/-- Joining good names on a root appends them, separated by slashes, to the root's directory prefix. -/
theorem joinNames_eq {root : Str} {ns : List Str} (hne : ns ≠ []) (hgood : ∀ n ∈ ns, GoodName n) :
    joinNames root ns = dirPrefix root ++ ['/'].intercalate ns := by
  induction ns generalizing root with
  | nil => exact absurd rfl hne
  | cons n ns ih =>
    rw [List.forall_mem_cons] at hgood
    show joinNames (push root n) ns = _
    rw [push_eq_dirPrefix root hgood.1]
    cases ns with
    | nil => simp [joinNames]
    | cons m ns =>
      have hlast : ¬ (dirPrefix root ++ n = [] ∨ (dirPrefix root ++ n).getLast? = some '/') := by
        rw [List.append_eq_nil_iff, List.getLast?_append_of_ne_nil _ hgood.1.1]
        rintro (⟨-, h⟩ | h)
        · exact hgood.1.1 h
        · exact hgood.1.2 (List.mem_of_getLast? h)
      rw [ih (by simp) hgood.2, dirPrefix, if_neg hlast, List.intercalate_cons_cons]
      simp

/-- A path below another one is longer. -/
theorem joinNames_ne_self {root n : Str} {ns : List Str} (hgood : ∀ m ∈ n :: ns, GoodName m) :
    joinNames root (n :: ns) ≠ root := by
  intro heq
  rw [joinNames_eq (by simp) hgood] at heq
  have hlen := congrArg List.length heq
  rw [List.length_append] at hlen
  have hpre : root.length ≤ (dirPrefix root).length := by
    unfold dirPrefix
    split <;> simp
  have hpos : 0 < (['/'].intercalate (n :: ns)).length := by
    refine List.length_pos_iff.mpr fun hnil => ?_
    have hsplit := List.splitOn_intercalate '/' (fun m hm => (hgood m hm).2) (List.cons_ne_nil n ns)
    rw [hnil, List.splitOn_nil, List.cons.injEq] at hsplit
    exact (hgood n List.mem_cons_self).1 hsplit.1.symm
  omega

/-- Different names lead to different paths. -/
theorem joinNames_injective {root n m : Str} {ns ms : List Str} (hns : ∀ x ∈ n :: ns, GoodName x)
    (hms : ∀ x ∈ m :: ms, GoodName x) (h : joinNames root (n :: ns) = joinNames root (m :: ms)) :
    n :: ns = m :: ms := by
  rw [joinNames_eq (by simp) hns, joinNames_eq (by simp) hms] at h
  have hinter := List.append_cancel_left h
  rw [← List.splitOn_intercalate '/' (fun x hx => (hns x hx).2) (List.cons_ne_nil n ns), hinter,
    List.splitOn_intercalate '/' (fun x hx => (hms x hx).2) (List.cons_ne_nil m ms)]

section Nodup

variable {limit : Option Nat}

/-- What is visited in a directory starts with a name in it. -/
theorem Listing.exists_of_mem_visited {l : Listing} {depth : Nat} {parent : Str}
    (hl : l.WellNamed) (hdepth : withinDepth limit depth = true) {p : Str}
    (h : p ∈ (visited (l.walk limit depth parent)).map DirEntry.path) :
    ∃ n ms, n ∈ l.names ∧ p = joinNames parent (n :: ms) ∧ ∀ m ∈ n :: ms, GoodName m := by
  obtain ⟨e, he, rfl⟩ := List.mem_map.mp h
  obtain ⟨ns, hns, hpath, -⟩ := Listing.has_of_mem_walk hdepth (mem_visited.mp he)
  obtain ⟨n, ms, rfl, hn⟩ := hns.names
  exact ⟨n, ms, hn, hpath, hns.good hl⟩

/-- What is visited below a directory is visited once when the entries are. -/
theorem nodup_descend {depth : Nat} {path : Str} {failure : Option Str}
    {below : List (Except WalkError DirEntry)}
    (h : withinDepth limit depth = true → ((visited below).map DirEntry.path).Nodup) :
    ((visited (descend limit depth path failure below)).map DirEntry.path).Nodup := by
  unfold descend
  split
  · next hin =>
    cases failure with
    | some e => exact List.nodup_nil
    | none => exact h hin
  · exact List.nodup_nil

/-- A path visited below a directory is that directory's path with good names joined on. -/
theorem exists_of_mem_descend {depth : Nat} {path p : Str} {failure : Option Str}
    {entries : Listing} (hentries : entries.WellNamed)
    (h : p ∈ (visited (descend limit depth path failure (entries.walk limit depth path))).map
      DirEntry.path) :
    ∃ n ms, p = joinNames path (n :: ms) ∧ ∀ m ∈ n :: ms, GoodName m := by
  obtain ⟨e, he, rfl⟩ := List.mem_map.mp h
  obtain ⟨hin, -, he⟩ := mem_descend_iff.mp (mem_visited.mp he)
  obtain ⟨n, ms, -, hpath, hms⟩ := Listing.exists_of_mem_visited hentries hin
    (List.mem_map_of_mem (mem_visited.mpr he))
  exact ⟨n, ms, hpath, hms⟩

/-- A directory's own path and the paths below it differ from the paths beside it. -/
theorem Listing.not_mem_visited {l : Listing} {depth : Nat} {parent name : Str} {ms : List Str}
    (hl : l.WellNamed) (hdepth : withinDepth limit depth = true) (hnew : name ∉ l.names)
    (hms : ∀ m ∈ name :: ms, GoodName m) :
    joinNames parent (name :: ms) ∉ (visited (l.walk limit depth parent)).map DirEntry.path := by
  intro hmem
  obtain ⟨n, ns, hn, hpath, hns⟩ := Listing.exists_of_mem_visited hl hdepth hmem
  have heq := joinNames_injective hms hns hpath
  rw [List.cons.injEq] at heq
  exact hnew (heq.1 ▸ hn)

/-- **A walk visits no path twice.** -/
theorem Listing.nodup_walk {l : Listing} {depth : Nat} {parent : Str} (hl : l.WellNamed)
    (hdepth : withinDepth limit depth = true) :
    ((visited (l.walk limit depth parent)).map DirEntry.path).Nodup := by
  induction l generalizing depth parent with
  | nil => exact List.nodup_nil
  -- a name is not repeated among the others
  | leaf name type others ih =>
    obtain ⟨hgood, hnew, hothers⟩ := hl
    show (push parent name :: (visited (others.walk limit depth parent)).map DirEntry.path).Nodup
    exact List.nodup_cons.mpr ⟨Listing.not_mem_visited hothers hdepth hnew
      (by simpa using hgood : ∀ m ∈ [name], GoodName m), ih hothers hdepth⟩
  -- what lies in the directory has its path in front, which nothing else has
  | dir name failure entries others ihEntries ihOthers =>
    obtain ⟨hgood, hnew, hentries, hothers⟩ := hl
    show (push parent name :: (visited (descend limit (depth + 1) (push parent name) failure
      (entries.walk limit (depth + 1) (push parent name)) ++
        others.walk limit depth parent)).map DirEntry.path).Nodup
    rw [visited_append, List.map_append]
    refine List.nodup_cons.mpr ⟨fun hmem => ?_, List.nodup_append.mpr
      ⟨nodup_descend fun hin => ihEntries hentries hin, ihOthers hothers hdepth,
        fun p hp q hq heq => ?_⟩⟩
    · rcases List.mem_append.mp hmem with hmem | hmem
      · obtain ⟨m, ms, hpath, hms⟩ := exists_of_mem_descend hentries hmem
        exact joinNames_ne_self hms hpath.symm
      · exact Listing.not_mem_visited hothers hdepth hnew
          (by simpa using hgood : ∀ m ∈ [name], GoodName m) hmem
    · subst heq
      obtain ⟨m, ms, rfl, hms⟩ := exists_of_mem_descend hentries hp
      exact Listing.not_mem_visited hothers hdepth hnew
        (List.forall_mem_cons.mpr ⟨hgood, hms⟩) hq

/-- **A walk visits every path once.** -/
theorem FsNode.nodup_walk {node : FsNode} {root : Str} (hnode : node.WellNamed) :
    ((visited (node.walk limit root)).map DirEntry.path).Nodup := by
  -- a directory and what lies below it
  have hdir : ∀ failure entries t, entries.WellNamed →
      ((visited (.ok ⟨root, 0, t⟩ :: walkBelow limit root failure entries)).map
        DirEntry.path).Nodup := by
    intro failure entries t hentries
    show (root :: (visited (walkBelow limit root failure entries)).map DirEntry.path).Nodup
    refine List.nodup_cons.mpr ⟨fun hmem => ?_,
      nodup_descend fun hin => Listing.nodup_walk hentries hin⟩
    obtain ⟨n, ms, hpath, hms⟩ := exists_of_mem_descend hentries hmem
    exact joinNames_ne_self hms hpath.symm
  match node with
  | .missing _ => exact List.nodup_nil
  | .file => exact List.nodup_singleton _
  | .special => exact List.nodup_singleton _
  | .link (.broken _) => exact List.nodup_nil
  | .link (.dir failure entries) => exact hdir failure entries .symlink hnode
  | .link .other => exact List.nodup_singleton _
  | .dir failure entries => exact hdir failure entries .dir hnode

end Nodup

end NfsKlldap
