import NfsKlldap.Ldap.Posix

/-! # Validating a config again

The structured editor validates a config that was validated when it was read, changes it and
validates it once more. Validation trims the texts it is given, but not the ones it derives: a Pseudo
path from the name of a share, a search base from the realm.

* **`derived_validated`** — what is derived again is what was derived, with the search bases trimmed;
* **`DerivesTrimmed`** — what is derived does not end in a blank;
* **`validateAndDerive_revalidates_iff`** — then and only then is an accepted config accepted as it is. -/

namespace NfsKlldap

open Text

/-! ## Normal forms -/

/-- The text ends in white space. -/
def endsBlank (s : Str) : Bool := s.getLast?.any isWhitespace

/-- Only the last part of a text decides whether it ends in a blank. -/
theorem endsBlank_append {s t : Str} (h : t ≠ []) : endsBlank (s ++ t) = endsBlank t := by
  rw [endsBlank, endsBlank, List.getLast?_append_of_ne_nil s h]

/-- Text that starts with something printable is trimmed unless it ends in white space. -/
theorem trim_cons_eq_self_iff {c : Char} {t : Str} (hc : isWhitespace c = false) :
    trim (c :: t) = c :: t ↔ endsBlank t = false := by
  rw [trim_eq_self_iff, endsBlank]
  cases t with
  | nil => simp [hc]
  | cons a t =>
    rw [List.getLast?_cons_cons]
    cases (a :: t).getLast? <;> simp [hc]

/-- A character that is no blank in front of a trimmed text leaves it trimmed. -/
theorem trim_cons {c : Char} {t : Str} (hc : isWhitespace c = false) (h : trim t = t) :
    trim (c :: t) = c :: t := by
  rw [trim_cons_eq_self_iff hc, endsBlank, Option.any_eq_false]
  exact (trim_eq_self_iff.mp h).2

/-- Trimming does not make a text blank. -/
theorem isBlank_trim (s : Str) : isBlank (trim s) = isBlank s := by
  rw [isBlank, trim_trim, isBlank]

/-- A setting without its blanks has none to lose. -/
@[simp] theorem normalizeBlank_normalizeBlank (v : Option Str) :
    normalizeBlank (normalizeBlank v) = normalizeBlank v := by
  cases v with
  | none => rfl
  | some s =>
    by_cases h : isBlank s = true
    · simp [normalizeBlank, h]
    · simp [normalizeBlank, h, isBlank_trim]

/-- What is left of a text is trimmed and not blank. -/
theorem of_mem_normalizeBlank {v : Option Str} {s : Str} (h : s ∈ normalizeBlank v) :
    trim s = s ∧ isBlank s = false := by
  obtain ⟨t, -, ht⟩ := Option.bind_eq_some_iff.mp h
  split at ht
  · cases ht
  · next hblank =>
    cases ht
    exact ⟨trim_trim t, by simpa [isBlank_trim] using hblank⟩

/-- Normalizing a Pseudo path with a leading slash trims it. -/
theorem normalizePseudo_some_slash (name t : Str) :
    normalizePseudo name (some ('/' :: t)) = trim ('/' :: t) := by
  obtain ⟨u, hu⟩ : ∃ u, trim ('/' :: t) = '/' :: u := by
    obtain ⟨rest, hrest, hblank⟩ := exists_trim_append (s := '/' :: t) (fun c hc => by
      rw [← Option.some.inj hc]
      decide)
    cases htrim : trim ('/' :: t) with
    | nil =>
      rw [htrim, List.nil_append] at hrest
      exact absurd (hblank '/' (hrest ▸ List.mem_cons_self)) (by decide)
    | cons a u =>
      rw [htrim, List.cons_append, List.cons.injEq] at hrest
      exact ⟨u, by rw [hrest.1]⟩
  have hne : isBlank ('/' :: t) = false := by
    rw [isBlank, hu]
    rfl
  simp [normalizePseudo, normalizeBlank, hne, hu, startsWith]

/-- The Pseudo path after validation: what is set, or the name, behind one slash. -/
theorem normalizePseudo_eq_cons (name : Str) (p : Option Str) :
    ∃ t, normalizePseudo name p = '/' :: t ∧
      (trim ('/' :: t) = '/' :: t ↔ (normalizeBlank p = none → endsBlank name = false)) := by
  unfold normalizePseudo
  cases hp : normalizeBlank p with
  | none => exact ⟨name, rfl, by simp [trim_cons_eq_self_iff (c := '/') (t := name) (by decide)]⟩
  | some t =>
    obtain ⟨htrim, hblank⟩ := of_mem_normalizeBlank hp
    dsimp only
    split
    · next hslash =>
      obtain ⟨u, rfl⟩ := List.isPrefixOf_iff_prefix.mp hslash
      exact ⟨u, rfl, by simpa using htrim⟩
    · exact ⟨t, rfl, by simpa using trim_cons (by decide) htrim⟩

/-- A Pseudo path is in normal form unless it was taken from a name that ends in a blank. -/
theorem normalizePseudo_idem_iff (name : Str) (p : Option Str) :
    normalizePseudo name (some (normalizePseudo name p)) = normalizePseudo name p ↔
      (normalizeBlank p = none → endsBlank name = false) := by
  obtain ⟨t, ht, hiff⟩ := normalizePseudo_eq_cons name p
  rw [ht, normalizePseudo_some_slash, hiff]

/-! ## Deriving again -/

/-- The search bases without the blanks around them. -/
def trimBases (c : NfsKlldapConfig) : NfsKlldapConfig :=
  { c with
    sssd :=
      { c.sssd with
        ldapUserSearchBase := normalizeBlank c.sssd.ldapUserSearchBase
        ldapGroupSearchBase := normalizeBlank c.sssd.ldapGroupSearchBase } }

/-- A variable replaces a setting once and for all. -/
theorem Environment.replacing_replacing (env : Environment) (name : String) (v : Option Str) :
    env.replacing name (env.replacing name v) = env.replacing name v := by
  unfold Environment.replacing
  split <;> rfl

/-- A variable over a setting that has a default. -/
def overridden (v : Option Str) (old dflt : Str) : Str :=
  if isBlank (v.getD old) then dflt else v.getD old

/-- A variable overrides a setting once and for all, and so does the default. -/
theorem Environment.overridden_overridden (env : Environment) (name : String) (old dflt : Str)
    (hdflt : isBlank dflt = false) :
    overridden (env.nonblank name) (overridden (env.nonblank name) old dflt) dflt =
      overridden (env.nonblank name) old dflt := by
  cases h : env.nonblank name with
  | some v => simp [overridden]
  | none =>
    by_cases hold : isBlank old = true
    · simp [overridden, hold, hdflt]
    · simp [overridden, hold]

/-- A default that was chosen already is chosen again. -/
theorem getD_getD_self {α : Type} (o : Option α) (a : α) : o.getD (o.getD a) = o.getD a := by
  cases o <;> rfl

/-- An alternative that was chosen already is chosen again. -/
theorem or_or_self {α : Type} (o p : Option α) : o.or (o.or p) = o.or p := by
  cases o <;> rfl

/-- The settings after an override and trimming. -/
theorem Environment.normalizeBlank_or (env : Environment) (name : String) (v : Option Str) :
    normalizeBlank ((env.nonblank name).or (normalizeBlank ((env.nonblank name).or v))) =
      normalizeBlank ((env.nonblank name).or v) := by
  cases h : env.nonblank name with
  | some w =>
    rw [Option.some_or]
    rfl
  | none => simp

/-- Deriving the security flavours sets one field, if it is not set. -/
theorem deriveSecurity_eq_ite (c : NfsKlldapConfig) :
    deriveSecurity c =
      { c with
        ganesha :=
          { c.ganesha with
            defaultSecurity :=
              if isBlank c.ganesha.defaultSecurity then NfsKlldap.defaultSecurity
              else c.ganesha.defaultSecurity } } := by
  unfold deriveSecurity
  split <;> rfl

/-- Deriving the container root sets one field, if it is not set. -/
theorem deriveContainerRoot_eq_ite (c : NfsKlldapConfig) :
    deriveContainerRoot c =
      { c with
        storage :=
          { containerRoot :=
              if isBlank c.storage.containerRoot then defaultContainerRoot
              else c.storage.containerRoot } } := by
  unfold deriveContainerRoot
  split <;> rfl

/-- The base DN of a realm is never blank. -/
theorem isBlank_baseDn (env : Environment) (realm : Str) : isBlank (baseDn env realm) = false := by
  rw [isBlank, List.isEmpty_eq_false_iff]
  intro hnil
  exact absurd (trim_eq_nil_iff.mp hnil 'd' List.mem_cons_self) (by decide)

/-- A search base that is set or derived is never blank. -/
theorem normalizeBlank_searchBase_or (env : Environment) (base main : Option Str) (realm : Str)
    (other : Option Str) :
    (normalizeBlank ((normalizeBlank base).or (some (((normalizeBlank main).filter fun v =>
        !isBlank v).getD (baseDn env realm))))).or other =
      normalizeBlank ((normalizeBlank base).or (some (((normalizeBlank main).filter fun v =>
        !isBlank v).getD (baseDn env realm)))) := by
  have hmain : isBlank (((normalizeBlank main).filter fun v => !isBlank v).getD
      (baseDn env realm)) = false := by
    cases hfilter : (normalizeBlank main).filter fun v => !isBlank v with
    | none => exact isBlank_baseDn env realm
    | some v => simpa using (Option.filter_eq_some_iff.mp hfilter).2
  cases hbase : normalizeBlank base with
  | none =>
    rw [Option.none_or, normalizeBlank, Option.bind_some, if_neg (by simp [hmain]), Option.some_or]
  | some v =>
    rw [Option.some_or, ← hbase, normalizeBlank_normalizeBlank, hbase, Option.some_or]

/-- **Deriving again** only trims the search bases. -/
theorem derived_validated (env : Environment) (c : NfsKlldapConfig) (shares : List Share) :
    derived env { derived env c with shares, ganesha := (derived env c).ganesha.tuned } =
      trimBases { derived env c with shares, ganesha := (derived env c).ganesha.tuned } := by
  have hroot := env.overridden_overridden "NFS_KLLDAP_STORAGE_CONTAINER_ROOT"
    c.storage.containerRoot defaultContainerRoot (by decide)
  have hsecurity := env.overridden_overridden "NFS_KLLDAP_GANESHA_DEFAULT_SECURITY"
    c.ganesha.defaultSecurity NfsKlldap.defaultSecurity (by decide)
  rw [overridden, overridden] at hroot hsecurity
  simp only [derived, deriveSecurity_eq_ite, deriveContainerRoot_eq_ite, deriveSssd, deriveRealm,
    normalizeBlanks, applyCoreEnvOverrides, trimBases, GaneshaSection.tuned, NfsKlldapConfig.mk.injEq,
    GaneshaSection.mk.injEq, StorageSection.mk.injEq, WebuiSection.mk.injEq, true_and, and_true,
    normalizeBlank_normalizeBlank, getD_getD_self, Option.or_assoc, or_or_self, Option.or_self,
    Environment.replacing_replacing, Environment.normalizeBlank_or, normalizeBlank_searchBase_or]
  refine ⟨hroot, hsecurity, ?_⟩
  split <;> rfl

/-! ## Tuning keys -/

/-- A list with commas, cut at the commas: all but the first piece start with a blank. -/
theorem commaList_cons (t : Str) (ts : List Str) :
    commaList (t :: ts) = [','].intercalate (t :: ts.map (' ' :: ·)) := by
  have hblank : ∀ (u : Str) (us : List Str),
      [','].intercalate ((' ' :: u) :: us) = ' ' :: [','].intercalate (u :: us) := by
    intro u us
    cases us with
    | nil => rfl
    | cons v us => simp only [List.intercalate_cons_cons, List.cons_append]
  rw [commaList]
  induction ts generalizing t with
  | nil => rfl
  | cons u ts ih =>
    rw [List.map_cons, List.intercalate_cons_cons, List.intercalate_cons_cons, ih u, hblank]
    simp

/-- Tokens are read back from the list they were written as. -/
theorem splitOn_commaList {ts : List Str} (hne : ts ≠ [])
    (h : ∀ t ∈ ts, t ∈ rootKrbPrincipalTokens) :
    (((commaList ts).splitOn ',').map fun t => toAsciiLowercase (trim t)).filter (· ≠ []) = ts := by
  have htoken : ∀ t ∈ rootKrbPrincipalTokens,
      t ≠ [] ∧ ',' ∉ t ∧ toAsciiLowercase (trim t) = t ∧
        toAsciiLowercase (trim (' ' :: t)) = t := by
    decide
  obtain ⟨t, ts, rfl⟩ := List.exists_cons_of_ne_nil hne
  obtain ⟨ht, hts⟩ := List.forall_mem_cons.mp h
  have hmap : (ts.map (' ' :: ·)).map (fun u => toAsciiLowercase (trim u)) = ts := by
    rw [List.map_map]
    refine (List.map_congr_left fun u hu => ?_).trans (List.map_id ts)
    exact (htoken u (hts u hu)).2.2.2
  rw [commaList_cons, List.splitOn_intercalate ',' _ (List.cons_ne_nil _ _), List.map_cons, hmap,
    (htoken t ht).2.2.1]
  · refine List.filter_eq_self.mpr fun u hu => ?_
    simpa using (htoken u (h u hu)).1
  · intro u hu
    rcases List.mem_cons.mp hu with rfl | hu
    · exact (htoken u ht).2.1
    · obtain ⟨v, hv, rfl⟩ := List.mem_map.mp hu
      simpa using (htoken v (hts v hv)).2.1

/-- The list of accepted tokens is neither blank nor has it blanks around it. -/
theorem normalizeBlank_commaList {ts : List Str} (hne : ts ≠ [])
    (h : ∀ t ∈ ts, t ∈ rootKrbPrincipalTokens) :
    normalizeBlank (some (commaList ts)) = some (commaList ts) := by
  have htoken : ∀ t ∈ rootKrbPrincipalTokens, t ≠ [] ∧ trim t = t := by decide
  have htrim : trim (commaList ts) = commaList ts :=
    trim_intercalate (fun t ht => (htoken t (h t ht)).1) fun t ht => (htoken t (h t ht)).2
  obtain ⟨t, ts, rfl⟩ := List.exists_cons_of_ne_nil hne
  have hnil : commaList (t :: ts) ≠ [] := by
    intro hnil
    have hhead := head?_intercalate (s := ", ".toList) ts (htoken t (h t List.mem_cons_self)).1
    rw [← commaList, hnil, List.head?_nil, eq_comm, List.head?_eq_none_iff] at hhead
    exact (htoken t (h t List.mem_cons_self)).1 hhead
  simp [normalizeBlank, isBlank, htrim, hnil]

/-- **The tuning keys are canonical** after one pass. -/
theorem GaneshaSection.TuningOk.tuned {g : GaneshaSection} (h : g.TuningOk) :
    g.tuned.TuningOk ∧ g.tuned.tuned = g.tuned := by
  have htokens : g.tuned.rootTokens = g.rootTokens := by
    rw [rootTokens, GaneshaSection.tuned]
    cases hts : g.rootTokens with
    | none => rfl
    | some ts =>
      obtain ⟨hne, hall⟩ := h.tokens ts hts
      rw [Option.map_some, normalizeBlank_commaList hne hall, Option.map_some,
        splitOn_commaList hne hall]
  refine ⟨⟨?_, h.attrExpirationSecs, h.manageGidsExpirationSecs, h.readdirResSize,
    h.readdirMaxCount, h.mallocTrimMinThresholdMb⟩, ?_⟩
  · rw [htokens]
    exact h.tokens
  · rw [GaneshaSection.tuned, htokens]
    rfl

/-! ## Shares -/

/-- A share is in normal form unless its Pseudo path was taken from a name that ends in a blank. -/
theorem Share.normalize_normalize_iff (s : Share) :
    s.normalize.normalize = s.normalize ↔
      (normalizeBlank s.pseudoPath = none → endsBlank s.name = false) := by
  rw [← normalizePseudo_idem_iff]
  simp [Share.normalize, Share.normalizeFields, Share.normalizeSource]

/-- Accepted shares are accepted in their normal form. -/
theorem SharesOk.normalized {root : Str} {shares : List Share} (h : SharesOk root shares)
    (hnormal : ∀ s ∈ shares, s.normalize.normalize = s.normalize) :
    SharesOk root (shares.map Share.normalize) := by
  -- whatever is read off a normalized share is the same after a second normalization
  have hmap : ∀ {β : Type} (f : Share → β),
      (shares.map Share.normalize).map (fun s => f s.normalize) =
        shares.map fun s => f s.normalize := by
    intro β f
    rw [List.map_map]
    exact List.map_congr_left fun s hs => congrArg f (hnormal s hs)
  constructor
  case fields =>
    rw [List.forall_mem_map]
    intro s hs
    obtain ⟨hname, hhost, hsec, hsq, hpr, hpw, hcp, hattr⟩ := h.fields s hs
    exact ⟨hname, hhost, hsec, hsq, hpr, hpw, hcp, hattr⟩
  case names =>
    rw [List.map_map]
    exact h.names
  -- trimming a trimmed path changes nothing, so the checks of the paths pass as before
  case paths =>
    rw [List.forall_mem_map]
    intro s hs
    obtain ⟨hne, habs, hunder, hsabs, hsunder⟩ := h.paths s hs
    have hpath : s.normalize.normalizeFields.containerPath = s.normalizeFields.containerPath :=
      trim_trim s.containerPath
    have hsource : normalizeBlank s.normalize.normalizeFields.sourcePath =
        normalizeBlank s.normalizeFields.sourcePath := normalizeBlank_normalizeBlank s.sourcePath
    constructor
    case containerPath => rwa [hpath]
    case absolute => rwa [hpath]
    case under => rwa [hpath]
    case sourceAbsolute => rwa [hsource]
    case sourceUnder => rwa [hsource]
  case pseudoRoot =>
    rw [List.forall_mem_map]
    intro s hs
    rw [hnormal s hs]
    exact h.pseudoRoot s hs
  case pseudos =>
    rw [hmap]
    exact h.pseudos
  case serves =>
    rw [hmap]
    exact h.serves
  case policies =>
    rw [List.forall_mem_map]
    exact h.policies

/-! ## Search bases -/

/-- `effective_realm`; a validated config has one. -/
def effectiveRealm (cfg : NfsKlldapConfig) : Str := cfg.kerberos.realm.getD []

/-- A search base that is derived is trimmed unless the realm ends in a blank. -/
theorem trim_baseDn_iff (env : Environment) (realm : Str) :
    trim (baseDn env realm) = baseDn env realm ↔ endsBlank (env.toLowercase realm) = false := by
  have hd : isWhitespace 'd' = false := by decide
  rw [show baseDn env realm = 'd' :: ("c=".toList ++
    replaceChar '.' ",dc=".toList (env.toLowercase realm)) from rfl, trim_cons_eq_self_iff hd]
  rcases List.eq_nil_or_concat (env.toLowercase realm) with hnil | ⟨init, c, hconcat⟩
  · rw [hnil]
    decide
  · have hreplace : replaceChar '.' ",dc=".toList (init ++ [c]) =
        replaceChar '.' ",dc=".toList init ++ if c = '.' then ",dc=".toList else [c] := by
      simp [replaceChar]
    rw [hconcat, List.concat_eq_append, hreplace, ← List.append_assoc]
    by_cases hc : c = '.'
    · rw [if_pos hc, hc, endsBlank_append (by decide), endsBlank_append (by decide)]
      decide
    · rw [if_neg hc, endsBlank_append (by simp), endsBlank_append (by simp)]

/-- What is used where no search base is set. -/
def mainSearchBase (env : Environment) (base : Option Str) (realm : Str) : Str :=
  ((normalizeBlank base).filter fun v => !isBlank v).getD (baseDn env realm)

/-- The main search base is in normal form unless it is made from a realm that ends in a blank. -/
theorem trim_mainSearchBase_iff (env : Environment) (base : Option Str) (realm : Str) :
    normalizeBlank (some (mainSearchBase env base realm)) = some (mainSearchBase env base realm) ↔
      (normalizeBlank base = none → endsBlank (env.toLowercase realm) = false) := by
  rw [mainSearchBase]
  cases hbase : normalizeBlank base with
  | none =>
    have hblank := isBlank_baseDn env realm
    simp [normalizeBlank, hblank, trim_baseDn_iff]
  | some b =>
    obtain ⟨htrim, hblank⟩ := of_mem_normalizeBlank hbase
    rw [Option.filter_some, if_pos (by simp [hblank]), Option.getD_some]
    simp [normalizeBlank, hblank, htrim]

/-- A search base is in normal form unless it falls back to one made from a realm that ends in a blank. -/
theorem searchBase_normal_iff (env : Environment) (explicit base : Option Str) (realm : Str) :
    normalizeBlank ((normalizeBlank explicit).or (some (mainSearchBase env base realm))) =
        (normalizeBlank explicit).or (some (mainSearchBase env base realm)) ↔
      (normalizeBlank explicit = none → normalizeBlank base = none →
        endsBlank (env.toLowercase realm) = false) := by
  cases h : normalizeBlank explicit with
  | none => simp [trim_mainSearchBase_iff]
  | some b =>
    rw [Option.some_or, ← h, normalizeBlank_normalizeBlank]
    simp [h]

/-! ## Validating again -/

/-- **What is derived does not end in a blank**: neither a name that serves as Pseudo path nor a realm
that serves as search base, in lower case. -/
structure DerivesTrimmed (env : Environment) (c : NfsKlldapConfig) : Prop where
  names : ∀ s ∈ c.shares, normalizeBlank s.pseudoPath = none → endsBlank s.name = false
  realm : normalizeBlank c.sssd.ldapUserSearchBase = none ∨
      normalizeBlank c.sssd.ldapGroupSearchBase = none → normalizeBlank c.sssd.ldapSearchBase = none →
    endsBlank (env.toLowercase (effectiveRealm (deriveRealm env (applyCoreEnvOverrides env c)))) =
      false

/-- **Validation leaves a config alone**: it accepts it as it is, and what the config says is what it
said. -/
def Revalidates (env : Environment) (c : NfsKlldapConfig) : Prop :=
  ∃ c', validateAndDerive env c = .ok c' ∧ c' = c ∧ effectiveRealm c' = effectiveRealm c ∧
    effectiveLdapSearchBases env c'.sssd (effectiveRealm c') =
      effectiveLdapSearchBases env c.sssd (effectiveRealm c) ∧
    c'.shares.map servePathFor = c.shares.map servePathFor ∧
    c'.shares.map deriveSharePseudo = c.shares.map deriveSharePseudo

/-- A config revalidates exactly when the loader gives back the config itself. -/
theorem revalidates_iff {env : Environment} {c : NfsKlldapConfig} :
    Revalidates env c ↔ validateAndDerive env c = .ok c := by
  constructor
  · rintro ⟨c', hok, rfl, -⟩
    exact hok
  · intro hok
    exact ⟨c, hok, rfl, rfl, rfl, rfl, rfl⟩

/-- The search bases of a derived config. -/
theorem trimBases_derived_iff (env : Environment) (c : NfsKlldapConfig) (shares : List Share) :
    trimBases { derived env c with shares, ganesha := (derived env c).ganesha.tuned } =
        { derived env c with shares, ganesha := (derived env c).ganesha.tuned } ↔
      (normalizeBlank c.sssd.ldapUserSearchBase = none ∨
          normalizeBlank c.sssd.ldapGroupSearchBase = none →
        normalizeBlank c.sssd.ldapSearchBase = none →
        endsBlank (env.toLowercase
          (effectiveRealm (deriveRealm env (applyCoreEnvOverrides env c)))) = false) := by
  have huser : (derived env c).sssd.ldapUserSearchBase =
      (normalizeBlank c.sssd.ldapUserSearchBase).or (some (mainSearchBase env c.sssd.ldapSearchBase
        (effectiveRealm (deriveRealm env (applyCoreEnvOverrides env c))))) := by
    rw [derived, deriveContainerRoot_eq_ite, deriveSecurity_eq_ite]
    rfl
  have hgroup : (derived env c).sssd.ldapGroupSearchBase =
      (normalizeBlank c.sssd.ldapGroupSearchBase).or (some (mainSearchBase env c.sssd.ldapSearchBase
        (effectiveRealm (deriveRealm env (applyCoreEnvOverrides env c))))) := by
    rw [derived, deriveContainerRoot_eq_ite, deriveSecurity_eq_ite]
    rfl
  -- trimming touches the two bases only, so that the config is fixed when they are
  have hfields : trimBases { derived env c with shares, ganesha := (derived env c).ganesha.tuned } =
        { derived env c with shares, ganesha := (derived env c).ganesha.tuned } ↔
      normalizeBlank (derived env c).sssd.ldapUserSearchBase =
          (derived env c).sssd.ldapUserSearchBase ∧
        normalizeBlank (derived env c).sssd.ldapGroupSearchBase =
          (derived env c).sssd.ldapGroupSearchBase := by
    constructor
    · intro h
      exact ⟨congrArg (fun c => c.sssd.ldapUserSearchBase) h,
        congrArg (fun c => c.sssd.ldapGroupSearchBase) h⟩
    · rintro ⟨h₁, h₂⟩
      rw [trimBases]
      simp only [h₁, h₂]
  -- each base is explicit, and then trimmed already, or ends as the realm does
  rw [hfields, huser, hgroup, searchBase_normal_iff, searchBase_normal_iff]
  constructor
  · rintro ⟨h₁, h₂⟩ (hnone | hnone)
    · exact h₁ hnone
    · exact h₂ hnone
  · intro h
    exact ⟨fun hnone => h (.inl hnone), fun hnone => h (.inr hnone)⟩

/-- **Validating twice**: an accepted config is accepted again, as it is, exactly when what was derived
for it does not end in a blank. -/
theorem validateAndDerive_revalidates_iff {env : Environment} {c out : NfsKlldapConfig}
    (h : validateAndDerive env c = .ok out) : Revalidates env out ↔ DerivesTrimmed env c := by
  obtain ⟨hscalars, hshares, hout⟩ := validateAndDerive_eq_ok_iff.mp h
  obtain ⟨htuning, htuned⟩ := hscalars.tuning.tuned
  have hderived := derived_validated env c (c.shares.map Share.normalize)
  have hbases := trimBases_derived_iff env c (c.shares.map Share.normalize)
  rw [← hout] at hderived hbases
  rw [revalidates_iff, validateAndDerive_eq_ok_iff, hderived]
  constructor
  case mp =>
    -- accepted as it is: the names and the realm are read off the fixed config
    rintro ⟨-, -, hagain⟩
    have hnames : out.shares = out.shares.map Share.normalize :=
      congrArg NfsKlldapConfig.shares hagain
    refine ⟨fun s hs => (s.normalize_normalize_iff).mp ?_, hbases.mp ?_⟩
    · rw [hout, List.map_map] at hnames
      exact (List.map_inj_left.mp hnames s hs).symm
    · have hsssd := congrArg NfsKlldapConfig.sssd hagain
      change out.sssd = (trimBases out).sssd at hsssd
      show { out with sssd := (trimBases out).sssd } = out
      rw [← hsssd]
  case mpr =>
    -- the checks passed once and see the same values again
    intro htrimmed
    have hsame : trimBases out = out := hbases.mpr htrimmed.realm
    have hnormal : ∀ s ∈ c.shares, s.normalize.normalize = s.normalize := fun s hs =>
      s.normalize_normalize_iff.mpr (htrimmed.names s hs)
    rw [hsame, hout]
    refine ⟨⟨hscalars.ldapUri, hscalars.sessionTimeout, hscalars.host, hscalars.realm,
      hscalars.defaultSecurity, hscalars.bindDn, hscalars.authtok, htuning⟩,
      hshares.normalized hnormal, ?_⟩
    have hagain : (c.shares.map Share.normalize).map Share.normalize =
        c.shares.map Share.normalize := by
      rw [List.map_map]
      exact List.map_congr_left hnormal
    simp only [htuned, hagain]

/-- A config with shares of these names. -/
def configOfNames (names : List String) : NfsKlldapConfig where
  ldapUri := "ldaps://ldap.example.org".toList
  sssd := { ldapDefaultBindDn := "uid=nfs".toList, ldapDefaultAuthtok := "secret".toList }
  kerberos := { realm := some "NFS.EXAMPLE.ORG".toList }
  shares := names.mapIdx fun i name =>
    { name := name.toList
      hostPath := "/srv".toList
      containerPath := "/export/".toList ++ natDecimal i }

/-- The Pseudo paths `/media` and `/media ` are different, until the second is trimmed. -/
theorem not_revalidates_trailingBlank :
    ∃ out, validateAndDerive .ascii (configOfNames ["media", "media "]) = .ok out ∧
      ¬Revalidates .ascii out := by
  have hok : ((validateAndDerive .ascii (configOfNames ["media", "media "])).toOption.bind
      fun out => if (validateAndDerive .ascii out).toOption = none then some out else none).isSome =
        true := by
    decide +kernel
  obtain ⟨out, hout⟩ := Option.isSome_iff_exists.mp hok
  obtain ⟨out, hfirst, hsecond⟩ := Option.bind_eq_some_iff.mp hout
  refine ⟨out, toOption_eq_some_iff.mp hfirst, fun hagain => ?_⟩
  rw [revalidates_iff] at hagain
  simp [hagain, Except.toOption] at hsecond

/-- The config of two plain shares is accepted, and what is accepted revalidates. -/
theorem revalidates_media :
    ∃ out, validateAndDerive .ascii (configOfNames ["media", "music"]) = .ok out ∧
      Revalidates .ascii out := by
  have hok : (validateAndDerive .ascii (configOfNames ["media", "music"])).toOption.isSome =
      true := by
    decide +kernel
  obtain ⟨out, hout⟩ := Option.isSome_iff_exists.mp hok
  rw [toOption_eq_some_iff] at hout
  exact ⟨out, hout, (validateAndDerive_revalidates_iff hout).mpr
    ⟨by decide +kernel, by decide +kernel⟩⟩

end NfsKlldap
