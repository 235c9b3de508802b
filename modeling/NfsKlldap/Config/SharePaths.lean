import NfsKlldap.Config.Validate
import NfsKlldap.Lib.LexicalPath

/-! # The paths of accepted shares

Validation compares the paths of the shares as texts: a path has to start with the container root
and a slash, and serve paths and Pseudo paths must not be spelled alike. The file system and Ganesha
read them as paths, where `..` climbs and slashes and dots repeat.

* **`PathsSafe`** — what is asked of the paths, read lexically;
* **`PlainlySpelled`** — no path climbs out of the root for good, and none is another spelling of a
  second one;
* **`pathsSafe_iff`** — an accepted config has the first exactly when its shares have the second. -/

namespace NfsKlldap

open Text UnixPath

/-- The paths of the shares stay inside the container root and do not collide, read lexically. -/
structure PathsSafe (c : NfsKlldapConfig) : Prop where
  container : ∀ s ∈ c.shares, LexicallyUnder c.storage.containerRoot s.containerPath
  source : ∀ s ∈ c.shares, ∀ p ∈ s.sourcePath, LexicallyUnder c.storage.containerRoot p
  serves : (c.shares.map fun s => lexical (servePathFor s)).Nodup
  pseudos : (c.shares.map fun s => lexical (deriveSharePseudo s)).Nodup
  notRoot : ∀ s ∈ c.shares, lexical (deriveSharePseudo s) ≠ []

/-- How the shares of a config file spell their paths: what a path climbs out of it enters again,
and no two serve paths or Pseudo paths, nor a Pseudo path and the root, differ by no more than
repeated slashes, dots, names taken back and climbs at the root. -/
structure PlainlySpelled (root : Str) (shares : List Share) : Prop where
  container : ∀ s ∈ shares, ReturnsTo root (trim s.containerPath)
  source : ∀ s ∈ shares, ∀ p ∈ normalizeBlank s.sourcePath, ReturnsTo root p
  serves : shares.Pairwise fun s t => ¬ Respells (trim s.containerPath) (trim t.containerPath)
  pseudos : shares.Pairwise fun s t =>
    ¬ Respells (normalizePseudo s.name s.pseudoPath) (normalizePseudo t.name t.pseudoPath)
  notRoot : ∀ s ∈ shares, ¬ Respells (normalizePseudo s.name s.pseudoPath) "/".toList

/-! ## Trailing slashes -/

/-- A slash at the end is not read. -/
theorem lexical_append_slash (p : Str) : lexical (p ++ ['/']) = lexical p := by
  rw [lexical, List.splitOn_append_cons_self, body_append, climb_append, lexical]
  rfl

/-- Slashes at the end do not change where a path leads. -/
theorem lexical_trimEndMatches (p : Str) : lexical (trimEndMatches '/' p) = lexical p := by
  induction p using List.reverseRecOn with
  | nil => rfl
  | append_singleton p c ih =>
    unfold trimEndMatches at ih ⊢
    rw [List.rdropWhile_concat]
    by_cases hc : c = '/'
    · rw [if_pos (by simpa using hc), ih, hc, lexical_append_slash]
    · rw [if_neg (by simpa using hc)]

/-- **A path that passes the prefix test** lies lexically under the root exactly when it returns to
what it climbs out of. -/
theorem lexicallyUnder_iff_of_underRoot {root p : Str}
    (h : underRoot (trimEndMatches '/' root) p = true) :
    LexicallyUnder root p ↔ ReturnsTo (trimEndMatches '/' root) p := by
  rw [LexicallyUnder, ← lexical_trimEndMatches root]
  generalize trimEndMatches '/' root = root at h ⊢
  rw [underRoot, Bool.or_eq_true, decide_eq_true_eq] at h
  rcases h with rfl | h
  · refine iff_of_true (List.prefix_refl _) (returnsTo_of_no_parent ?_)
    rw [tailComponents, List.drop_of_length_le (Nat.le_succ _)]
    decide
  · exact lexicallyUnder_iff h

/-! ## Pseudo paths -/

/-- A normalised Pseudo path starts with a slash. -/
theorem startsWith_normalizePseudo (name : Str) (pseudo : Option Str) :
    startsWith (normalizePseudo name pseudo) "/" = true := by
  rw [normalizePseudo]
  split
  · rfl
  · split
    · assumption
    · rfl

/-- The effective Pseudo path of an accepted share. -/
theorem deriveSharePseudo_eq (s : Share) :
    deriveSharePseudo s.normalize = normalizePseudo s.name s.pseudoPath :=
  if_pos (startsWith_normalizePseudo s.name s.pseudoPath)

/-- The serve path of an accepted share. -/
theorem servePathFor_eq (s : Share) : servePathFor s.normalize = trim s.containerPath :=
  trim_trim _

/-! ## Accepted configs -/

/-- Distinct readings are spellings of distinct paths. -/
theorem nodup_lexical_iff {shares : List Share} (path : Share → Str) :
    (shares.map fun s => lexical (path s)).Nodup ↔
      shares.Pairwise fun s t => ¬ Respells (path s) (path t) := by
  rw [List.Nodup, List.pairwise_map]
  exact List.Pairwise.iff fun s t => not_congr respells_iff.symm

/-- **When the paths of an accepted config are safe**: validation has made sure that they are
absolute, spelled below the root and spelled differently; they are safe exactly when no spelling
hides a climb or a second path. -/
theorem pathsSafe_iff {env : Environment} {c out : NfsKlldapConfig}
    (h : validateAndDerive env c = .ok out) :
    PathsSafe out ↔
      PlainlySpelled (trimEndMatches '/' (derived env c).storage.containerRoot) c.shares := by
  obtain ⟨-, hok, rfl⟩ := validateAndDerive_eq_ok_iff.mp h
  -- validation has put every path under the root as a text; what is left is where it leads
  have hcontainer : ∀ s ∈ c.shares, LexicallyUnder (derived env c).storage.containerRoot
      s.normalize.containerPath ↔
        ReturnsTo (trimEndMatches '/' (derived env c).storage.containerRoot)
          (trim s.containerPath) :=
    fun s hs => lexicallyUnder_iff_of_underRoot (hok.paths s hs).under
  have hsource : ∀ s ∈ c.shares, ∀ p ∈ normalizeBlank s.sourcePath,
      (LexicallyUnder (derived env c).storage.containerRoot p ↔
        ReturnsTo (trimEndMatches '/' (derived env c).storage.containerRoot) p) :=
    fun s hs p hp => lexicallyUnder_iff_of_underRoot ((hok.paths s hs).sourceUnder p hp)
  -- the root of the pseudo tree is a path without components
  have hroot : ∀ s : Share, lexical (deriveSharePseudo s.normalize) ≠ [] ↔
      ¬ Respells (normalizePseudo s.name s.pseudoPath) "/".toList := by
    intro s
    rw [respells_iff, deriveSharePseudo_eq]
    rfl
  -- the five parts one by one, in both directions
  constructor
  · rintro ⟨hc, hs, hserve, hpseudo, hnot⟩
    simp only [List.forall_mem_map, List.map_map] at hc hs hserve hpseudo hnot
    refine ⟨fun s hm => (hcontainer s hm).mp (hc s hm), fun s hm p hp =>
      (hsource s hm p hp).mp (hs s hm p hp), ?_, ?_, fun s hm => (hroot s).mp (hnot s hm)⟩
    · rw [← nodup_lexical_iff fun s => trim s.containerPath]
      simpa only [Function.comp_def, servePathFor_eq] using hserve
    · rw [← nodup_lexical_iff fun s => normalizePseudo s.name s.pseudoPath]
      simpa only [Function.comp_def, deriveSharePseudo_eq] using hpseudo
  · rintro ⟨hc, hs, hserve, hpseudo, hnot⟩
    rw [← nodup_lexical_iff fun s => trim s.containerPath] at hserve
    rw [← nodup_lexical_iff fun s => normalizePseudo s.name s.pseudoPath] at hpseudo
    constructor
    · exact List.forall_mem_map.mpr fun s hm => (hcontainer s hm).mpr (hc s hm)
    · exact List.forall_mem_map.mpr fun s hm p hp => (hsource s hm p hp).mpr (hs s hm p hp)
    · simpa only [List.map_map, Function.comp_def, servePathFor_eq] using hserve
    · simpa only [List.map_map, Function.comp_def, deriveSharePseudo_eq] using hpseudo
    · exact List.forall_mem_map.mpr fun s hm => (hroot s).mpr (hnot s hm)

/-! ## Plain paths -/

/-- An absolute path in which every piece is a name: nothing is empty, `.` or `..`. -/
structure Plain (p : Str) : Prop where
  absolute : p.head? = some '/'
  names : ∀ s ∈ (p.splitOn '/').tail, piece s = some (.normal s)

/-- Whether a path is plain can be decided. -/
instance (p : Str) : Decidable (Plain p) :=
  decidable_of_iff (p.head? = some '/' ∧ ∀ s ∈ (p.splitOn '/').tail, piece s = some (.normal s))
    ⟨fun h => ⟨h.1, h.2⟩, fun h => ⟨h.absolute, h.names⟩⟩

namespace Plain

variable {p q : Str}

/-- A plain path splits into an empty part in front of its first slash, and at least one name. -/
theorem splitOn_eq (h : Plain p) :
    p.splitOn '/' = [] :: (p.splitOn '/').tail ∧ (p.splitOn '/').tail ≠ [] := by
  have habs := h.absolute
  cases p with
  | nil => simp at habs
  | cons c p =>
    obtain rfl : c = '/' := by simpa using habs
    simp [List.splitOn_cons_eq_if_modifyHead, List.splitOn_ne_nil]

/-- A plain path stands for its pieces. -/
theorem lexical_eq (h : Plain p) : lexical p = (p.splitOn '/').tail := by
  have hnames := h.names
  rw [lexical, h.splitOn_eq.1, List.tail_cons]
  generalize (p.splitOn '/').tail = names at hnames
  suffices hclimb : ∀ stack : List Str, climb stack (body names) = names.reverse ++ stack by
    rw [show body ([] :: names) = body names from rfl, hclimb, List.append_nil,
      List.reverse_reverse]
  induction names with
  | nil => exact fun _ => rfl
  | cons s names ih =>
    intro stack
    rw [body, List.filterMap_cons_some (hnames s List.mem_cons_self)]
    refine (ih (fun t ht => hnames t (List.mem_cons_of_mem _ ht)) (s :: stack)).trans ?_
    simp

/-- Two plain spellings of one path are one text. -/
theorem eq_of_respells (hp : Plain p) (hq : Plain q) (h : Respells p q) : p = q := by
  rw [respells_iff, hp.lexical_eq, hq.lexical_eq] at h
  have hpieces : p.splitOn '/' = q.splitOn '/' :=
    hp.splitOn_eq.1.trans ((congrArg ([] :: ·) h).trans hq.splitOn_eq.1.symm)
  calc p = ['/'].intercalate (p.splitOn '/') := (List.intercalate_splitOn '/').symm
    _ = ['/'].intercalate (q.splitOn '/') := by rw [hpieces]
    _ = q := List.intercalate_splitOn '/'

/-- A plain path is not the root. -/
theorem not_respells_root (h : Plain p) : ¬ Respells p "/".toList := by
  rw [respells_iff, h.lexical_eq, show lexical "/".toList = [] by decide]
  exact h.splitOn_eq.2

/-- A plain path does not climb. -/
theorem returnsTo (h : Plain p) {root : Str} (hroot : underRoot root p = true) :
    ReturnsTo root p := by
  refine returnsTo_of_no_parent fun hmem => ?_
  obtain ⟨s, hs, hpiece⟩ := List.mem_filterMap.mp hmem
  rw [underRoot, Bool.or_eq_true, decide_eq_true_eq] at hroot
  rcases hroot with rfl | hroot
  · rw [List.drop_of_length_le (Nat.le_succ _)] at hs
    obtain rfl : s = [] := by simpa using hs
    exact absurd hpiece (by decide)
  · -- the pieces of the tail are pieces of the path
    obtain ⟨tail, rfl⟩ := List.isPrefixOf_iff_prefix.mp hroot
    have htail : (root ++ "/".toList ++ tail).drop (root.length + 1) = tail := by simp
    have hsplit : (root ++ "/".toList ++ tail).splitOn '/'
        = root.splitOn '/' ++ tail.splitOn '/' := by
      rw [List.append_assoc]
      exact List.splitOn_append_cons_self _ _
    rw [htail] at hs
    have hname := h.names s (by
      rw [hsplit, List.tail_append_of_ne_nil (List.splitOn_ne_nil _ _)]
      exact List.mem_append_right _ hs)
    rw [hname] at hpiece
    exact absurd hpiece (by simp)

end Plain

/-- **Plain paths are safe**: on shares whose paths are plain the text comparisons of validation
decide as the readings do. -/
theorem pathsSafe_of_plain {env : Environment} {c out : NfsKlldapConfig}
    (h : validateAndDerive env c = .ok out)
    (hplain : ∀ s ∈ c.shares, Plain (trim s.containerPath) ∧
      (∀ p ∈ normalizeBlank s.sourcePath, Plain p) ∧
        Plain (normalizePseudo s.name s.pseudoPath)) : PathsSafe out := by
  obtain ⟨-, hok, -⟩ := validateAndDerive_eq_ok_iff.mp h
  refine (pathsSafe_iff h).mpr ⟨fun s hs => (hplain s hs).1.returnsTo (hok.paths s hs).under,
    fun s hs p hp => ((hplain s hs).2.1 p hp).returnsTo ((hok.paths s hs).sourceUnder p hp), ?_, ?_,
    fun s hs => (hplain s hs).2.2.not_respells_root⟩
  · have hserves := List.pairwise_map.mp hok.serves
    refine hserves.imp_of_mem fun {s t} hs ht hne hre => hne ?_
    rw [servePathFor_eq, servePathFor_eq]
    exact (hplain s hs).1.eq_of_respells (hplain t ht).1 hre
  · have hpseudos := List.pairwise_map.mp hok.pseudos
    refine hpseudos.imp_of_mem fun {s t} hs ht hne hre => hne ?_
    rw [deriveSharePseudo_eq, deriveSharePseudo_eq]
    exact (hplain s hs).2.2.eq_of_respells (hplain t ht).2.2 hre

/-! ## Accepted configs whose paths are not safe -/

/-- A config as a file spells it out, with nothing left to derive. -/
def labConfig (shares : List Share) : NfsKlldapConfig where
  ldapUri := "ldaps://ldap.lab.lan".toList
  storage := { containerRoot := "/export".toList }
  sssd :=
    { ldapDefaultBindDn := "cn=admin".toList
      ldapDefaultAuthtok := "secret".toList
      port := some 636
      ldapUserSearchBase := some "dc=lab,dc=lan".toList
      ldapGroupSearchBase := some "dc=lab,dc=lan".toList }
  kerberos := { realm := some "LAB.LAN".toList }
  ganesha := { defaultSecurity := "krb5p".toList }
  shares := shares

/-- A share served from a path under a Pseudo path. -/
def labShare (name path pseudo : String) : Share where
  name := name.toList
  hostPath := "/srv".toList
  pseudoPath := some pseudo.toList
  containerPath := path.toList

/-- A share that is served from outside of the root, two that serve one directory, two with one
Pseudo path, and one that takes the root of the Pseudo file system. -/
def strayConfig : NfsKlldapConfig :=
  labConfig [labShare "a" "/export/../etc" "/a", labShare "b" "/export/b" "//a",
    labShare "c" "/export//b" "/."]

/-- Validation accepts it, and not one of the rules holds. -/
theorem not_pathsSafe_stray : validateAndDerive .ascii strayConfig = .ok strayConfig ∧
    ¬ PathsSafe strayConfig ∧
    (lexical "/export/../etc".toList = ["etc".toList] ∧
      lexical "/export//b".toList = lexical "/export/b".toList ∧
      lexical "//a".toList = lexical "/a".toList ∧ lexical "/.".toList = []) := by
  have hvalid : (validateAndDerive .ascii strayConfig).toOption = some strayConfig := by
    decide +kernel
  refine ⟨toOption_eq_some_iff.mp hvalid, fun h => ?_, by decide⟩
  have hroot := h.notRoot (labShare "c" "/export//b" "/.") (by decide)
  exact hroot (by decide)

/-- Two shares with plain paths. -/
def tidyConfig : NfsKlldapConfig :=
  labConfig [labShare "a" "/export/a" "/a", labShare "b" "/export/b" "/b"]

/-- The tidy config is accepted as it is. -/
theorem validate_tidy : validateAndDerive .ascii tidyConfig = .ok tidyConfig := by
  have hvalid : (validateAndDerive .ascii tidyConfig).toOption = some tidyConfig := by
    decide +kernel
  exact toOption_eq_some_iff.mp hvalid

/-- They are safe. -/
theorem pathsSafe_tidy : PathsSafe tidyConfig :=
  (pathsSafe_iff validate_tidy).mpr
    ⟨by decide, by decide, by decide +kernel, by decide +kernel, by decide⟩

end NfsKlldap
