import NfsKlldap.Settings.ShareTable

/-! # Share fields without a control

The source path and the attribute expiration of a share have no control on its card, the Pseudo path
has none while it is disabled and neither has `navahi_insecure` while discovery is off. A save takes
them over from an old share, which it looks up **by the position of the row** and by its name only
when there is no old share at that position.

`FollowsShare` asks that the fields follow the share instead. **`rawOnly_follow_iff`** says that they
do exactly when the old share that stands where a row stands now agrees with the old share of the
row's name, or has nothing to give away when the name is new (`PositionAgrees`). -/

namespace NfsKlldap

open Text

/-! ## The fields -/

/-- The fields a save takes over; `navahi_insecure` is off unless it says so. -/
structure RawOnly where
  sourcePath : Option Str
  attrExpirationSecs : Option Int32
  pseudoPath : Option Str
  navahiInsecure : Bool
  deriving DecidableEq

/-- The fields of a share. -/
def Share.rawOnly (s : Share) : RawOnly :=
  ⟨s.sourcePath, s.attrExpirationSecs, s.pseudoPath, s.navahiInsecure = some true⟩

/-- The fields as a table of the document has them. -/
def Table.rawOnly (t : Table) : RawOnly :=
  ⟨t.str? "source_path".toList, t.i32? "attr_expiration_secs".toList, t.str? "pseudo_path".toList,
    t.bool? "navahi_insecure".toList = some true⟩

/-- The name in a table. -/
def Table.shareName (t : Table) : Option Str := t.str? "name".toList

/-- The `[[shares]]` tables of a text. -/
def savedTables (toml : TomlEdit) (text : Str) : List Table :=
  ((toml.parse text).bind fun d => (d.lookup "shares".toList).bind Item.asArrayOfTables).getD []

/-- The fields are the same; while discovery is on, `navahi_insecure` has a control. -/
structure SameRawOnly (discovery : Bool) (a b : RawOnly) : Prop where
  sourcePath : b.sourcePath = a.sourcePath
  attrExpirationSecs : b.attrExpirationSecs = a.attrExpirationSecs
  pseudoPath : b.pseudoPath = a.pseudoPath
  navahiInsecure : discovery = false → b.navahiInsecure = a.navahiInsecure

/-- **The fields follow the share**: a table with an old name has the fields of the old share, and
one with a new name has nothing but what its own card brings. -/
structure FollowsShare (cfg : NfsKlldapConfig) (cards : List ShareCard) (t : Table) : Prop where
  kept : ∀ o ∈ cfg.shares, t.shareName = some o.name →
    SameRawOnly cfg.navahiDiscovery o.rawOnly t.rawOnly
  fresh : (∀ o ∈ cfg.shares, t.shareName ≠ some o.name) →
    ∃ c ∈ cards, ∃ r, c.share = some r ∧ t.shareName = some r.name ∧
      SameRawOnly cfg.navahiDiscovery r.normalize.rawOnly t.rawOnly

/-! ## The rows and the old list

The condition speaks of three things the save is given: the old shares in their order, the raw
`[[shares]]` tables in theirs, and the rows. The old share that stands where the row stands now is
its *place*; past the end of the old list a row has none. -/

/-- A text with a slash in front. -/
def slashed (p : Str) : Str := if startsWith p "/" then p else '/' :: p

/-- The Pseudo path a row brings along, the default `/name` not counted. -/
def ownPseudo (r : Share) : Option Str := r.pseudoPath.filter fun p => slashed p ≠ '/' :: r.name

/-- A raw `[[shares]]` table has a Pseudo path, under the present key or the former one. -/
def Table.HasPseudo (t : Table) : Prop :=
  (t.lookup "pseudo_path".toList).isSome ∨ (t.lookup "export_path".toList).isSome

/-- Having a Pseudo path is decidable. -/
instance (t : Table) : Decidable t.HasPseudo := inferInstanceAs (Decidable (_ ∨ _))

/-- The place `p?` of the row `r` does for the old share `o` of its name. `raw?` is the raw table at
that position. -/
structure PlaceDoesFor (discovery : Bool) (p? : Option Share) (raw? : Option Table) (r o : Share) :
    Prop where
  sourcePath : ∀ p ∈ p?, p.sourcePath = o.sourcePath
  attrExpirationSecs : ∀ p ∈ p?, p.attrExpirationSecs = o.attrExpirationSecs
  /-- A row that ticks the box is the row of a share that has it ticked; the others go by the place. -/
  insecureTicked : discovery = false → r.navahiInsecure = some true → o.navahiInsecure = some true
  insecureTaken : discovery = false → r.navahiInsecure = none →
    ∀ p ∈ p?, p.navahiInsecure = some true ↔ o.navahiInsecure = some true
  /-- A row that submits a Pseudo path of its own submits the one of its share. -/
  pseudoSubmitted : ∀ q ∈ ownPseudo r, o.pseudoPath = some (slashed (trim q))
  /-- A row that submits none takes the one at the place where that is explicit. -/
  pseudoTaken : ownPseudo r = none → (∃ t ∈ raw?, t.HasPseudo) →
    ∀ p ∈ p?, o.pseudoPath = p.pseudoPath.map trim
  /-- Without an explicit one there it gets the default. -/
  pseudoDefault : ownPseudo r = none → (¬ ∃ t ∈ raw?, t.HasPseudo) →
    o.pseudoPath = some ('/' :: r.name)

/-- The place `p?` of the row `r`, which has a new name, has nothing to give away. -/
structure PlaceIsBare (discovery : Bool) (p? : Option Share) (raw? : Option Table) (r : Share) :
    Prop where
  sourcePath : ∀ p ∈ p?, p.sourcePath = none
  attrExpirationSecs : ∀ p ∈ p?, p.attrExpirationSecs = none
  navahiInsecure : discovery = false → r.navahiInsecure = none →
    ∀ p ∈ p?, p.navahiInsecure ≠ some true
  /-- An explicit Pseudo path there is the default of the row. -/
  pseudoPath : ownPseudo r = none → (∃ t ∈ raw?, t.HasPseudo) →
    ∀ p ∈ p?, p.pseudoPath.map trim = some ('/' :: r.name)

/-- **The place of the row is as good as its own share**, or gives nothing away when the name is
new. -/
structure PositionAgrees (cfg : NfsKlldapConfig) (doc : Document) (idx : Nat) (r : Share) : Prop where
  known : ∀ o ∈ cfg.shares, o.name = r.name →
    PlaceDoesFor cfg.navahiDiscovery cfg.shares[idx]? (shareTableAt doc idx) r o
  fresh : (∀ o ∈ cfg.shares, o.name ≠ r.name) →
    PlaceIsBare cfg.navahiDiscovery cfg.shares[idx]? (shareTableAt doc idx) r

section Decidable

variable (discovery : Bool) (p? : Option Share) (raw? : Option Table) (r o : Share)

/-- So is whether the raw table at the place, if there is one, has a Pseudo path. -/
instance : Decidable (∃ t ∈ raw?, t.HasPseudo) :=
  match raw? with
  | none => .isFalse fun ⟨_, ht, _⟩ => nomatch ht
  | some t => decidable_of_iff t.HasPseudo ⟨fun h => ⟨t, rfl, h⟩, fun ⟨_, rfl, h⟩ => h⟩

/-- Whether the place does for the old share is decidable, field by field. -/
instance : Decidable (PlaceDoesFor discovery p? raw? r o) :=
  decidable_of_iff
    ((∀ p ∈ p?, p.sourcePath = o.sourcePath) ∧
      (∀ p ∈ p?, p.attrExpirationSecs = o.attrExpirationSecs) ∧
      (discovery = false → r.navahiInsecure = some true → o.navahiInsecure = some true) ∧
      (discovery = false → r.navahiInsecure = none →
        ∀ p ∈ p?, p.navahiInsecure = some true ↔ o.navahiInsecure = some true) ∧
      (∀ q ∈ ownPseudo r, o.pseudoPath = some (slashed (trim q))) ∧
      (ownPseudo r = none → (∃ t ∈ raw?, t.HasPseudo) →
        ∀ p ∈ p?, o.pseudoPath = p.pseudoPath.map trim) ∧
      (ownPseudo r = none → (¬ ∃ t ∈ raw?, t.HasPseudo) → o.pseudoPath = some ('/' :: r.name)))
    ⟨fun ⟨hs, ha, hn, hn', hp, hp', hp''⟩ => ⟨hs, ha, hn, hn', hp, hp', hp''⟩,
      fun ⟨hs, ha, hn, hn', hp, hp', hp''⟩ => ⟨hs, ha, hn, hn', hp, hp', hp''⟩⟩

/-- Whether the place is bare is decidable, field by field. -/
instance : Decidable (PlaceIsBare discovery p? raw? r) :=
  decidable_of_iff
    ((∀ p ∈ p?, p.sourcePath = none) ∧ (∀ p ∈ p?, p.attrExpirationSecs = none) ∧
      (discovery = false → r.navahiInsecure = none → ∀ p ∈ p?, p.navahiInsecure ≠ some true) ∧
      (ownPseudo r = none → (∃ t ∈ raw?, t.HasPseudo) →
        ∀ p ∈ p?, p.pseudoPath.map trim = some ('/' :: r.name)))
    ⟨fun ⟨hs, ha, hn, hp⟩ => ⟨hs, ha, hn, hp⟩, fun ⟨hs, ha, hn, hp⟩ => ⟨hs, ha, hn, hp⟩⟩

/-- Agreeing with the position is decidable. -/
instance (cfg : NfsKlldapConfig) (doc : Document) (idx : Nat) :
    Decidable (PositionAgrees cfg doc idx r) :=
  decidable_of_iff
    ((∀ o ∈ cfg.shares, o.name = r.name →
        PlaceDoesFor cfg.navahiDiscovery cfg.shares[idx]? (shareTableAt doc idx) r o) ∧
      ((∀ o ∈ cfg.shares, o.name ≠ r.name) →
        PlaceIsBare cfg.navahiDiscovery cfg.shares[idx]? (shareTableAt doc idx) r))
    ⟨fun ⟨hown, hnew⟩ => ⟨hown, hnew⟩, fun ⟨hown, hnew⟩ => ⟨hown, hnew⟩⟩

end Decidable

/-! ## The written tables -/

/-- The written tables are those of the saved shares. -/
theorem savedTables_render (toml : TomlEdit) (base : Str) (d : Document) (shares : List Share) :
    savedTables toml (toml.render base (applySharesToTomlDoc d shares)) = shares.map shareTable := by
  rw [savedTables, toml.parse_render, Option.bind_some]
  unfold applySharesToTomlDoc
  dsimp only
  cases shares with
  | nil => rw [List.isEmpty_nil, if_pos rfl, Finmap.lookup_erase]; rfl
  | cons s shares =>
    rw [List.isEmpty_cons, if_neg Bool.false_ne_true, Finmap.lookup_insert]
    rfl

/-- A written table has its share's name. -/
theorem shareName_shareTable (s : Share) : (shareTable s).shareName = some s.name := by
  have hname := lookup_shareTable (s := s) (List.mem_of_getElem? (i := 0) rfl)
  simp only at hname
  rw [Table.shareName, Table.str?, hname]
  rfl

/-- A written table has its share's fields, an empty source path left out. -/
theorem rawOnly_shareTable (s : Share) :
    (shareTable s).rawOnly = { s.rawOnly with sourcePath := nonblank s.sourcePath } := by
  have hget : ∀ (n : Nat) {e : String × LeafType × Option Leaf}, (shareEntries s)[n]? = some e →
      (shareTable s).lookup e.1.toList = e.2.2 :=
    fun n e he => lookup_shareTable (List.mem_of_getElem? he)
  have hpseudo := hget 3 rfl
  have hattr := hget 14 rfl
  have hnavahi := hget 15 rfl
  have hsource := hget 16 rfl
  simp only [Table.rawOnly, Table.str?, Table.i32?, Table.bool?, hpseudo, hattr, hnavahi, hsource,
    bind_str_map, bind_i32_map_ofI32, Share.rawOnly, RawOnly.mk.injEq, true_and]
  by_cases h : s.navahiInsecure = some true
  · simp [h, Leaf.bool?]
  · simp [h]

/-! ## A save that writes -/

/-- A text that loads. -/
theorem loadText_eq_ok_iff {env : Environment} {toml : TomlEdit} {text : Str}
    {cfg : NfsKlldapConfig} : loadText env toml text = .ok cfg ↔
      ∃ doc raw, toml.parse text = some doc ∧ decodeConfig doc = some raw ∧
        validateAndDerive env raw = .ok cfg := by
  rw [loadText, bind_eq_ok, parseStr]
  constructor
  · rintro ⟨raw, hraw, hcfg⟩
    split at hraw
    · next c hc =>
      cases hraw
      obtain ⟨doc, hdoc, hc⟩ := Option.bind_eq_some_iff.mp hc
      exact ⟨doc, raw, hdoc, hc, hcfg⟩
    · cases hraw
  · rintro ⟨doc, raw, hdoc, hraw, hcfg⟩
    exact ⟨raw, by rw [hdoc, Option.bind_some, hraw], hcfg⟩

/-- A save of the shares writes when the gate and the rules let it. -/
theorem settingsSaveShares_eq_written_iff {env : Environment} {toml : TomlEdit}
    {probe : Str → AclProbeOutcome} {ok : Bool} {text w : Str} {file' : ConfFile}
    {form : SettingsForm} {cfg : NfsKlldapConfig} {doc : Document}
    (hdoc : toml.parse text = some doc) (hload : loadText env toml text = .ok cfg) :
    settingsSaveShares env toml probe ok (.text text) form = .written w file' ↔
      (requestedShares cfg doc form).find? (refusesAcl probe) = none ∧
      ∃ out, validateAndDerive env { cfg with shares := requestedShares cfg doc form } = .ok out ∧
        w = toml.render text (applySharesToTomlDoc doc out.shares) ∧
        file' = atomicWriteConfig ok (.text text) w := by
  have hcfg : loadOrDefault env toml (.text text) = cfg := by
    simp [loadOrDefault, ConfFile.load, ConfFile.readToString, hload]
  have hparse : parseOrEmpty toml (.text text) = doc := by
    simp [parseOrEmpty, ConfFile.readToString, hdoc]
  simp only [settingsSaveShares, hcfg, hparse]
  cases hacl : (requestedShares cfg doc form).find? (refusesAcl probe) with
  | some s => simp
  | none =>
    cases hvalid : validateAndDerive env { cfg with shares := requestedShares cfg doc form } with
    | error e => simp
    | ok out =>
      simp only [SaveOutcome.written.injEq, Except.ok.injEq, exists_eq_left', true_and]
      constructor
      · rintro ⟨rfl, rfl⟩
        exact ⟨rfl, rfl⟩
      · rintro ⟨rfl, rfl⟩
        exact ⟨rfl, rfl⟩

/-! ## What a row takes over -/

/-- Only a Pseudo path that is the default is stripped. -/
theorem stripAutoPseudo_cases (s : Share) :
    stripAutoPseudo s = s ∨
      (∃ p, s.pseudoPath = some p ∧
        (if startsWith p "/" = true then p else '/' :: p) = '/' :: s.name) ∧
      stripAutoPseudo s = { s with pseudoPath := none } := by
  unfold stripAutoPseudo
  cases hp : s.pseudoPath with
  | none => exact Or.inl rfl
  | some p =>
    by_cases hauto : (if startsWith p "/" = true then p else '/' :: p) = '/' :: s.name
    · exact Or.inr ⟨⟨p, rfl, hauto⟩, if_pos hauto⟩
    · exact Or.inl (if_neg hauto)

/-- Stripping the default changes nothing else. -/
theorem stripAutoPseudo_eq (s : Share) :
    stripAutoPseudo s = { s with pseudoPath := (stripAutoPseudo s).pseudoPath } := by
  rcases stripAutoPseudo_cases s with h | ⟨-, h⟩ <;> rw [h]

/-- The default is not seen in the normal form. -/
theorem normalizePseudo_auto {name p : Str} (hname : trim name = name)
    (h : (if startsWith p "/" = true then p else '/' :: p) = '/' :: name) :
    normalizePseudo name (some p) = '/' :: name := by
  split at h
  · next hslash =>
    subst h
    exact normalizePseudo_of_slash hslash (trim_cons (by decide) hname)
  · next hslash =>
    cases h
    by_cases hblank : isBlank name = true
    · simp [normalizePseudo, normalizeBlank, hblank]
    · simp [normalizePseudo, normalizeBlank, hblank, hname, hslash]

/-- Stripping the default and normalizing again gives the normalized path. -/
theorem normalizePseudo_strip {s : Share} (hname : trim s.name = s.name) :
    normalizePseudo s.name (stripAutoPseudo s).pseudoPath = normalizePseudo s.name s.pseudoPath := by
  rcases stripAutoPseudo_cases s with h | ⟨⟨p, hp, hauto⟩, h⟩
  · rw [h]
  · rw [h, hp, normalizePseudo_auto hname hauto]
    rfl

/-- What holds of every share that is read from a card. -/
theorem name_of_share {c : ShareCard} {r : Share} (h : c.share = some r) :
    trim r.name = r.name ∧ r.sourcePath = none ∧ r.attrExpirationSecs = none ∧
      (∀ q ∈ r.pseudoPath, isBlank q = false) ∧
      (r.navahiInsecure = none ∨ r.navahiInsecure = some true) := by
  unfold ShareCard.share at h
  dsimp only at h
  split at h
  · cases h
  · cases h
    refine ⟨trim_trim _, rfl, rfl, fun q hq => ?_, ?_⟩
    · simpa using (Option.filter_eq_some_iff.mp hq).2
    · dsimp only
      cases c.value .navahiInsecure with
      | none => exact Or.inl rfl
      | some v => exact Or.inr rfl

/-- What a row takes from the old share it is matched with. -/
theorem passthrough_eq (cfg : NfsKlldapConfig) (doc : Document) (idx : Nat) (s : Share) :
    passthrough cfg doc idx s =
      { s with
        pseudoPath := s.pseudoPath.or (((oldShareFor cfg.shares idx s.name).filter fun _ =>
          sharePseudoPathExplicitInRaw doc idx).bind Share.pseudoPath)
        sourcePath := s.sourcePath.or ((oldShareFor cfg.shares idx s.name).bind Share.sourcePath)
        attrExpirationSecs := s.attrExpirationSecs.or
          ((oldShareFor cfg.shares idx s.name).bind Share.attrExpirationSecs)
        navahiInsecure :=
          if cfg.navahiDiscovery then s.navahiInsecure
          else s.navahiInsecure.or
            ((oldShareFor cfg.shares idx s.name).bind Share.navahiInsecure) } := by
  unfold passthrough
  cases hold : oldShareFor cfg.shares idx s.name with
  | none => simp
  | some old =>
    simp only [Option.filter_some, Option.bind_some, Share.mk.injEq, true_and, and_true]
    refine ⟨?_, ?_⟩
    · cases hexp : sharePseudoPathExplicitInRaw doc idx <;> cases hp : s.pseudoPath <;> simp
    · cases cfg.navahiDiscovery <;> cases s.navahiInsecure <;> simp

/-- A row keeps its name. -/
theorem name_requestedShares (cfg : NfsKlldapConfig) (doc : Document) (form : SettingsForm) :
    (requestedShares cfg doc form).map Share.name =
      (collectSharesFromStructuredForm form).map Share.name := by
  refine List.ext_getElem? fun idx => ?_
  rw [requestedShares]
  simp only [List.getElem?_map, List.getElem?_mapIdx, Option.map_map]
  refine congrArg₂ Option.map (funext fun r => ?_) rfl
  simp only [Function.comp_apply, passthrough_eq]
  rw [stripAutoPseudo_eq]

/-- The Pseudo path of the table that is written for a row. -/
def savedPseudo (cfg : NfsKlldapConfig) (doc : Document) (idx : Nat) (r : Share) : Str :=
  normalizePseudo r.name ((stripAutoPseudo r).pseudoPath.or
    (((oldShareFor cfg.shares idx r.name).filter fun _ =>
      sharePseudoPathExplicitInRaw doc idx).bind Share.pseudoPath))

section Rows

variable {cfg : NfsKlldapConfig} {doc : Document} {idx : Nat} {r : Share}

/-- The fields of the table that is written for a row. -/
theorem rawOnly_saved (doc : Document) (idx : Nat)
    (hsource : ∀ o ∈ cfg.shares, normalizeBlank o.sourcePath = o.sourcePath)
    (hr : r.sourcePath = none ∧ r.attrExpirationSecs = none) :
    (shareTable (passthrough cfg doc idx (stripAutoPseudo r)).normalize).rawOnly =
      { sourcePath := (oldShareFor cfg.shares idx r.name).bind Share.sourcePath
        attrExpirationSecs := (oldShareFor cfg.shares idx r.name).bind Share.attrExpirationSecs
        pseudoPath := some (savedPseudo cfg doc idx r)
        navahiInsecure := decide ((if cfg.navahiDiscovery then r.navahiInsecure
          else r.navahiInsecure.or ((oldShareFor cfg.shares idx r.name).bind Share.navahiInsecure)) =
            some true) } := by
  have hstrip := stripAutoPseudo_eq r
  have hdonor : nonblank (normalizeBlank ((oldShareFor cfg.shares idx r.name).bind Share.sourcePath)) =
      (oldShareFor cfg.shares idx r.name).bind Share.sourcePath := by
    rw [nonblank_normalizeBlank]
    cases hold : oldShareFor cfg.shares idx r.name with
    | none => rfl
    | some old =>
      refine hsource old ?_
      rcases Option.or_eq_some_iff.mp hold with h | ⟨-, h⟩
      · exact List.mem_of_getElem? h
      · exact List.mem_of_find?_eq_some h
  rw [rawOnly_shareTable, passthrough_eq, hstrip]
  simp only [Share.rawOnly, Share.normalize, Share.normalizeFields, Share.normalizeSource, hr.1, hr.2,
    Option.none_or, hdonor, savedPseudo]

/-! ### The Pseudo path that is written -/

/-- What stripping leaves of a row is the Pseudo path it brings along. -/
theorem pseudoPath_stripAutoPseudo (r : Share) : (stripAutoPseudo r).pseudoPath = ownPseudo r := by
  unfold stripAutoPseudo ownPseudo slashed
  cases hp : r.pseudoPath with
  | none => exact hp
  | some p =>
    rw [Option.filter_some]
    by_cases hauto : (if startsWith p "/" = true then p else '/' :: p) = '/' :: r.name
    · simp [hauto]
    · simp [hauto, hp]

/-- A text that is not blank is written without the blanks around it and with a slash in front. -/
theorem normalizePseudo_of_not_blank (name : Str) {q : Str} (h : isBlank q = false) :
    normalizePseudo name (some q) = slashed (trim q) := by
  simp [normalizePseudo, normalizeBlank, h, slashed]

/-- The save's test looks at the raw table at the row's position. -/
theorem explicitInRaw_iff :
    sharePseudoPathExplicitInRaw doc idx = true ↔ ∃ t ∈ shareTableAt doc idx, t.HasPseudo := by
  rw [sharePseudoPathExplicitInRaw, Option.any_eq_true]
  refine exists_congr fun t => and_congr_right fun _ => ?_
  rw [Bool.or_eq_true, Table.HasPseudo]

/-- A path of its own is saved trimmed, with a slash in front. -/
theorem savedPseudo_submitted {q : Str} (hq : q ∈ ownPseudo r) (hblank : isBlank q = false) :
    savedPseudo cfg doc idx r = slashed (trim q) := by
  rw [savedPseudo, pseudoPath_stripAutoPseudo, hq, Option.some_or, normalizePseudo_of_not_blank _ hblank]

/-- Without one, the explicit path at the position is saved. -/
theorem savedPseudo_taken {p : Share} (hown : ownPseudo r = none)
    (hexp : ∃ t ∈ shareTableAt doc idx, t.HasPseudo) (hp : cfg.shares[idx]? = some p)
    (hslash : ∃ t, p.pseudoPath = some ('/' :: t)) :
    some (savedPseudo cfg doc idx r) = p.pseudoPath.map trim := by
  obtain ⟨t, ht⟩ := hslash
  rw [savedPseudo, pseudoPath_stripAutoPseudo, hown, Option.none_or, oldShareFor, hp, Option.some_or,
    Option.filter_some, if_pos (explicitInRaw_iff.mpr hexp), Option.bind_some, ht,
    normalizePseudo_some_slash, Option.map_some]

/-- Without either, the default is saved. -/
theorem savedPseudo_default (hown : ownPseudo r = none)
    (hexp : ¬ ∃ t ∈ shareTableAt doc idx, t.HasPseudo) :
    savedPseudo cfg doc idx r = '/' :: r.name := by
  have hraw : sharePseudoPathExplicitInRaw doc idx = false :=
    Bool.eq_false_iff.mpr fun h => hexp (explicitInRaw_iff.mp h)
  rw [savedPseudo, pseudoPath_stripAutoPseudo, hown, Option.none_or, hraw]
  simp [normalizePseudo, normalizeBlank]

/-- What is asked of the old list, so that a row takes over its fields as they are. -/
structure OldRows (cfg : NfsKlldapConfig) (doc : Document) : Prop where
  names : (cfg.shares.map Share.name).Nodup
  source : ∀ o ∈ cfg.shares, normalizeBlank o.sourcePath = o.sourcePath
  pseudo : ∀ o ∈ cfg.shares, ∃ t, o.pseudoPath = some ('/' :: t)
  /-- The raw tables are those of the old shares. -/
  raw : ∀ idx, (∃ t ∈ shareTableAt doc idx, t.HasPseudo) → ∃ p, cfg.shares[idx]? = some p

/-- **The Pseudo path of a row**: its own one, the explicit one at its place, or the default. -/
theorem savedPseudo_eq_iff (idx : Nat) (hold : OldRows cfg doc)
    (hblank : ∀ q ∈ r.pseudoPath, isBlank q = false) (x : Option Str) :
    some (savedPseudo cfg doc idx r) = x ↔
      (∀ q ∈ ownPseudo r, x = some (slashed (trim q))) ∧
      (ownPseudo r = none → (∃ t ∈ shareTableAt doc idx, t.HasPseudo) →
        ∀ p ∈ cfg.shares[idx]?, x = p.pseudoPath.map trim) ∧
      (ownPseudo r = none → (¬ ∃ t ∈ shareTableAt doc idx, t.HasPseudo) →
        x = some ('/' :: r.name)) := by
  -- a Pseudo path of its own, an explicit one at the place, or none
  cases hown : ownPseudo r with
  | some q =>
    rw [savedPseudo_submitted hown (hblank q (Option.filter_eq_some_iff.mp hown).1)]
    simp [eq_comm]
  | none =>
    by_cases hexp : ∃ t ∈ shareTableAt doc idx, t.HasPseudo
    · obtain ⟨p, hp⟩ := hold.raw idx hexp
      rw [savedPseudo_taken hown hexp hp (hold.pseudo p (List.mem_of_getElem? hp)), hp]
      constructor
      · rintro rfl
        exact ⟨nofun, fun _ _ p' hp' => Option.some.inj hp' ▸ rfl, fun _ hno => absurd hexp hno⟩
      · rintro ⟨-, htaken, -⟩
        exact (htaken rfl hexp p rfl).symm
    · rw [savedPseudo_default hown hexp]
      constructor
      · rintro rfl
        exact ⟨nofun, fun _ hyes => absurd hyes hexp, fun _ _ => rfl⟩
      · rintro ⟨-, -, hdefault⟩
        exact (hdefault rfl hexp).symm

/-- The Pseudo path of the card itself, as it is written for a share that takes over none. -/
theorem normalizePseudo_card (htrim : trim r.name = r.name)
    (hblank : ∀ q ∈ r.pseudoPath, isBlank q = false) :
    normalizePseudo r.name r.pseudoPath =
      ((ownPseudo r).map fun q => slashed (trim q)).getD ('/' :: r.name) := by
  rw [← normalizePseudo_strip htrim, pseudoPath_stripAutoPseudo]
  cases hown : ownPseudo r with
  | none => rfl
  | some q =>
    have hq : q ∈ r.pseudoPath := (Option.filter_eq_some_iff.mp hown).1
    exact normalizePseudo_of_not_blank _ (hblank q hq)

/-! ### One row -/

variable {discovery : Bool} {o : Share} {t : Table}

/-- A field of the place, or of the share itself past the end of the list. -/
theorem place_eq_iff {α : Type} (f : Share → α) (p? : Option Share) :
    f (p?.getD o) = f o ↔ ∀ p ∈ p?, f p = f o := by
  cases p? with
  | none => simp
  | some p => simp

/-- The row of an old share. -/
theorem sameRawOnly_known_iff (hold : OldRows cfg doc) (ho : o ∈ cfg.shares) (hname : o.name = r.name)
    (hfields : r.sourcePath = none ∧ r.attrExpirationSecs = none)
    (hblank : ∀ q ∈ r.pseudoPath, isBlank q = false)
    (hinsecure : r.navahiInsecure = none ∨ r.navahiInsecure = some true) :
    SameRawOnly cfg.navahiDiscovery o.rawOnly
        (shareTable (passthrough cfg doc idx (stripAutoPseudo r)).normalize).rawOnly ↔
      PlaceDoesFor cfg.navahiDiscovery cfg.shares[idx]? (shareTableAt doc idx) r o := by
  -- names are not repeated, so that the search by name finds the row itself
  have hfind : cfg.shares.find? (fun s => s.name = r.name) = some o := by
    cases hown : cfg.shares.find? fun s => s.name = r.name with
    | none => exact absurd hname (by simpa using List.find?_eq_none.mp hown o ho)
    | some o' =>
      have ho' : o'.name = r.name := by simpa using List.find?_some hown
      rw [List.inj_on_of_nodup_map hold.names (List.mem_of_find?_eq_some hown) ho
        (ho'.trans hname.symm)]
  -- whatever stands at the place gives the values, else the share of the name
  have hdonor : oldShareFor cfg.shares idx r.name = some (cfg.shares[idx]?.getD o) := by
    rw [oldShareFor, hfind]
    cases cfg.shares[idx]? <;> rfl
  have hpseudo := savedPseudo_eq_iff idx hold hblank o.pseudoPath
  rw [rawOnly_saved doc idx hold.source hfields]
  -- the flag is compared only while the discovery is off
  have hnavahi : (cfg.navahiDiscovery = false → decide ((if cfg.navahiDiscovery then r.navahiInsecure
      else r.navahiInsecure.or ((oldShareFor cfg.shares idx r.name).bind Share.navahiInsecure)) =
        some true) = o.rawOnly.navahiInsecure) ↔
      (cfg.navahiDiscovery = false → r.navahiInsecure = some true → o.navahiInsecure = some true) ∧
      (cfg.navahiDiscovery = false → r.navahiInsecure = none →
        ∀ p ∈ cfg.shares[idx]?, p.navahiInsecure = some true ↔ o.navahiInsecure = some true) := by
    have hplace := place_eq_iff (o := o) (fun s => decide (s.navahiInsecure = some true))
      cfg.shares[idx]?
    simp only [decide_eq_decide] at hplace
    rw [hdonor]
    cases cfg.navahiDiscovery with
    | true => simp
    | false =>
      rcases hinsecure with h | h
      · simpa [h, Share.rawOnly] using hplace
      · simp [h, Share.rawOnly]
  have hsource := place_eq_iff (o := o) Share.sourcePath cfg.shares[idx]?
  have hattr := place_eq_iff (o := o) Share.attrExpirationSecs cfg.shares[idx]?
  constructor
  · rintro ⟨hs, ha, hp, hn⟩
    rw [hdonor] at hs ha
    obtain ⟨hn, hn'⟩ := hnavahi.mp hn
    obtain ⟨hp, hp', hp''⟩ := hpseudo.mp hp
    exact ⟨hsource.mp hs, hattr.mp ha, hn, hn', hp, hp', hp''⟩
  · rintro ⟨hs, ha, hn, hn', hp, hp', hp''⟩
    refine ⟨?_, ?_, hpseudo.mpr ⟨hp, hp', hp''⟩, hnavahi.mpr ⟨hn, hn'⟩⟩
    · rw [hdonor]
      exact hsource.mpr hs
    · rw [hdonor]
      exact hattr.mpr ha

/-- The row of a new share. -/
theorem sameRawOnly_fresh_iff (hold : OldRows cfg doc) (hnew : ∀ o ∈ cfg.shares, o.name ≠ r.name)
    (htrim : trim r.name = r.name) (hfields : r.sourcePath = none ∧ r.attrExpirationSecs = none)
    (hblank : ∀ q ∈ r.pseudoPath, isBlank q = false)
    (hinsecure : r.navahiInsecure = none ∨ r.navahiInsecure = some true) :
    SameRawOnly cfg.navahiDiscovery r.normalize.rawOnly
        (shareTable (passthrough cfg doc idx (stripAutoPseudo r)).normalize).rawOnly ↔
      PlaceIsBare cfg.navahiDiscovery cfg.shares[idx]? (shareTableAt doc idx) r := by
  -- nobody has the name, so that only the place can give values
  have hdonor : oldShareFor cfg.shares idx r.name = cfg.shares[idx]? := by
    have hfind : cfg.shares.find? (fun s => s.name = r.name) = none :=
      List.find?_eq_none.mpr fun o ho => by simpa using hnew o ho
    rw [oldShareFor, hfind, Option.or_none]
  -- what a new share asks for: no source path, no timeout, its own Pseudo path
  have hrow : r.normalize.rawOnly =
      ⟨none, none, some (((ownPseudo r).map fun q => slashed (trim q)).getD ('/' :: r.name)),
        r.navahiInsecure = some true⟩ := by
    rw [← normalizePseudo_card htrim hblank]
    simp [Share.rawOnly, Share.normalize, Share.normalizeFields, Share.normalizeSource, hfields.1,
      hfields.2, normalizeBlank]
  have hpseudo := savedPseudo_eq_iff idx hold hblank
    (some (((ownPseudo r).map fun q => slashed (trim q)).getD ('/' :: r.name)))
  rw [rawOnly_saved doc idx hold.source hfields, hrow, hdonor]
  -- the flag is compared only while the discovery is off
  have hnavahi : (cfg.navahiDiscovery = false → decide ((if cfg.navahiDiscovery then r.navahiInsecure
      else r.navahiInsecure.or (cfg.shares[idx]?.bind Share.navahiInsecure)) = some true) =
        decide (r.navahiInsecure = some true)) ↔
      (cfg.navahiDiscovery = false → r.navahiInsecure = none →
        ∀ p ∈ cfg.shares[idx]?, p.navahiInsecure ≠ some true) := by
    cases cfg.navahiDiscovery with
    | true => simp
    | false =>
      rcases hinsecure with h | h
      · simp [h, Option.bind_eq_some_iff]
      · simp [h]
  constructor
  · rintro ⟨hs, ha, hp, hn⟩
    obtain ⟨-, htaken, -⟩ := hpseudo.mp hp
    refine ⟨fun p hp => Option.bind_eq_none_iff.mp hs p hp,
      fun p hp => Option.bind_eq_none_iff.mp ha p hp, hnavahi.mp hn, fun hown hexp p hp => ?_⟩
    have htaken := htaken hown hexp p hp
    rw [hown] at htaken
    exact htaken.symm
  · rintro ⟨hs, ha, hn, hp⟩
    refine ⟨Option.bind_eq_none_iff.mpr hs, Option.bind_eq_none_iff.mpr ha, hpseudo.mpr ⟨?_, ?_, ?_⟩,
      hnavahi.mpr hn⟩
    · intro q hq
      rw [hq]
      rfl
    · intro hown hexp p hmem
      rw [hown, hp hown hexp p hmem]
      rfl
    · intro hown _
      rw [hown]
      rfl

/-- One row: its fields follow its share exactly when its place agrees with it. -/
theorem followsShare_iff {cards : List ShareCard} {c : ShareCard} (hold : OldRows cfg doc)
    (hunique : ∀ c' ∈ cards, ∀ r', c'.share = some r' → r'.name = r.name → r' = r)
    (hc : c ∈ cards) (hr : c.share = some r) :
    FollowsShare cfg cards (shareTable (passthrough cfg doc idx (stripAutoPseudo r)).normalize) ↔
      PositionAgrees cfg doc idx r := by
  obtain ⟨htrim, hsource, hattr, hblank, hinsecure⟩ := name_of_share hr
  -- the stored row has the name that was submitted
  have hname : (shareTable (passthrough cfg doc idx (stripAutoPseudo r)).normalize).shareName =
      some r.name := by
    rw [shareName_shareTable, passthrough_eq, stripAutoPseudo_eq]
    rfl
  constructor
  · intro h
    refine ⟨fun o ho heq => ?_, fun hnew => ?_⟩
    · refine (sameRawOnly_known_iff hold ho heq ⟨hsource, hattr⟩ hblank hinsecure).mp ?_
      exact h.kept o ho (hname.trans (congrArg some heq.symm))
    · obtain ⟨c', hc', r', hr', hname', hsame⟩ := h.fresh fun o ho heq =>
        hnew o ho (Option.some.inj (heq.symm.trans hname))
      -- names are submitted once, so that the card with the name is this one
      have hrow : r' = r := hunique c' hc' r' hr' (Option.some.inj (hname'.symm.trans hname))
      rw [hrow] at hsame
      exact (sameRawOnly_fresh_iff hold hnew htrim ⟨hsource, hattr⟩ hblank hinsecure).mp hsame
  · intro h
    refine ⟨fun o ho heq => ?_, fun hnew => ⟨c, hc, r, hr, hname, ?_⟩⟩
    · have heq' : o.name = r.name := Option.some.inj (heq.symm.trans hname)
      exact (sameRawOnly_known_iff hold ho heq' ⟨hsource, hattr⟩ hblank hinsecure).mpr
        (h.known o ho heq')
    · have hnew' : ∀ o ∈ cfg.shares, o.name ≠ r.name := fun o ho heq =>
        hnew o ho (hname.trans (congrArg some heq.symm))
      exact (sameRawOnly_fresh_iff hold hnew' htrim ⟨hsource, hattr⟩ hblank hinsecure).mpr
        (h.fresh hnew')

end Rows

/-! ## All rows -/

/-- The shares of a config are those of its document. -/
theorem decodeShares_of_decodeConfig {doc : Document} {raw : NfsKlldapConfig}
    (h : decodeConfig doc = some raw) : decodeShares doc = some raw.shares := by
  unfold decodeConfig at h
  split at h
  · obtain ⟨shares, hshares, rfl⟩ := Option.map_eq_some_iff.mp h
    exact hshares
  · cases h

/-- What `mapM` makes of the element at a position stands at that position. -/
theorem exists_getElem?_of_mapM {α β : Type} {f : α → Option β} {l : List α} {l' : List β}
    (h : l.mapM f = some l') {i : Nat} {a : α} (ha : l[i]? = some a) :
    ∃ b, l'[i]? = some b ∧ f a = some b := by
  induction l generalizing l' i with
  | nil => simp at ha
  | cons x l ih =>
    rw [List.mapM_cons] at h
    obtain ⟨y, hy, h⟩ := Option.bind_eq_some_iff.mp h
    obtain ⟨ys, hys, h⟩ := Option.bind_eq_some_iff.mp h
    cases h
    cases i with
    | zero =>
      cases ha
      exact ⟨y, rfl, hy⟩
    | succ i => exact ih hys ha

/-- A raw table that is there was loaded as a share. -/
theorem exists_share_of_table {shares : List Share} {idx : Nat} {t : Table} {doc : Document}
    (hdec : decodeShares doc = some shares) (ht : t ∈ shareTableAt doc idx) :
    ∃ s, shares[idx]? = some s := by
  obtain ⟨ts, hts, hidx⟩ := Option.bind_eq_some_iff.mp ht
  obtain ⟨i, hi, hrows⟩ := Option.bind_eq_some_iff.mp hts
  unfold Item.asArrayOfTables at hrows
  split at hrows
  · cases hrows
    unfold decodeShares at hdec
    rw [hi] at hdec
    obtain ⟨s, hs, -⟩ := exists_getElem?_of_mapM hdec hidx
    exact ⟨s, hs⟩
  · cases hrows

/-- The shares of a config that was loaded. -/
theorem oldRows_of_load {env : Environment} {raw cfg : NfsKlldapConfig} {doc : Document}
    (hraw : decodeConfig doc = some raw) (hvalid : validateAndDerive env raw = .ok cfg) :
    OldRows cfg doc := by
  obtain ⟨-, hok, hcfg⟩ := validateAndDerive_eq_ok_iff.mp hvalid
  have hshares : cfg.shares = raw.shares.map Share.normalize := by rw [hcfg]
  refine ⟨?_, ?_, ?_, ?_⟩
  · rw [hshares, List.map_map]
    exact hok.names
  · rw [hshares]
    exact List.forall_mem_map.mpr fun s _ => normalizeBlank_normalizeBlank s.sourcePath
  · rw [hshares]
    refine List.forall_mem_map.mpr fun s _ => ?_
    obtain ⟨t, ht, -⟩ := normalizePseudo_eq_cons s.name s.pseudoPath
    exact ⟨t, congrArg some ht⟩
  · rintro idx ⟨t, ht, -⟩
    obtain ⟨s, hs⟩ := exists_share_of_table (decodeShares_of_decodeConfig hraw) ht
    exact ⟨s.normalize, by rw [hshares, List.getElem?_map, hs, Option.map_some]⟩

/-- **The fields follow the share** through a save exactly when the place of every row agrees with the
share of its name. -/
theorem rawOnly_follow_iff {env : Environment} {toml : TomlEdit} {probe : Str → AclProbeOutcome}
    {text w : Str} {file' : ConfFile} {form : SettingsForm} {cards : List ShareCard}
    {cfg : NfsKlldapConfig} {doc : Document} (hform : FormOf form cards)
    (hdoc : toml.parse text = some doc) (hload : loadText env toml text = .ok cfg)
    (hsave : settingsSaveShares env toml probe true (.text text) form = .written w file') :
    (∀ t ∈ savedTables toml w, FollowsShare cfg cards t) ↔
      ∀ idx r, (cards.filterMap ShareCard.share)[idx]? = some r → PositionAgrees cfg doc idx r := by
  obtain ⟨-, out, hout, rfl, -⟩ := (settingsSaveShares_eq_written_iff hdoc hload).mp hsave
  obtain ⟨doc', raw, hdoc', hraw, hvalid⟩ := loadText_eq_ok_iff.mp hload
  have hsame : doc' = doc := Option.some.inj (hdoc'.symm.trans hdoc)
  have hold : OldRows cfg doc := oldRows_of_load (hsame ▸ hraw) hvalid
  obtain ⟨-, hnew, hout⟩ := validateAndDerive_eq_ok_iff.mp hout
  have hcollect := collect_cards hform
  have houtShares : out.shares = (requestedShares cfg doc form).map Share.normalize := by rw [hout]
  -- the requested shares, row by row
  have hrow : ∀ idx, (savedTables toml (toml.render text (applySharesToTomlDoc doc out.shares)))[idx]? =
      ((cards.filterMap ShareCard.share)[idx]?).map fun r =>
        shareTable (passthrough cfg doc idx (stripAutoPseudo r)).normalize := by
    intro idx
    rw [savedTables_render, houtShares, requestedShares, hcollect]
    simp [List.getElem?_mapIdx, Function.comp_def]
  have hrequested : ((cards.filterMap ShareCard.share).map Share.name).Nodup := by
    rw [← hcollect, ← name_requestedShares cfg doc]
    exact hnew.names
  have hiff : ∀ idx r, (cards.filterMap ShareCard.share)[idx]? = some r →
      (FollowsShare cfg cards (shareTable (passthrough cfg doc idx (stripAutoPseudo r)).normalize) ↔
        PositionAgrees cfg doc idx r) := by
    intro idx r hidx
    obtain ⟨c, hc, hr⟩ := List.mem_filterMap.mp (List.mem_of_getElem? hidx)
    refine followsShare_iff hold (fun c' hc' r' hr' heq => ?_) hc hr
    exact List.inj_on_of_nodup_map hrequested (List.mem_filterMap.mpr ⟨c', hc', hr'⟩)
      (List.mem_of_getElem? hidx) heq
  constructor
  · intro h idx r hidx
    refine (hiff idx r hidx).mp (h _ (List.mem_of_getElem? (i := idx) ?_))
    rw [hrow, hidx, Option.map_some]
  · intro h t ht
    obtain ⟨idx, hidx⟩ := List.getElem?_of_mem ht
    rw [hrow] at hidx
    obtain ⟨r, hr, rfl⟩ := Option.map_eq_some_iff.mp hidx
    exact (hiff idx r hr).mpr (h idx r hr)

/-- The card of a row, as it is rendered. -/
def ShareTemplateRow.card (r : ShareTemplateRow) : ShareCard := ⟨UInt64.ofNat r.idx, r.value⟩

/-! ### Two shares -/

/-- The table of a share with the paths `/srv/<name>` and `/export/<name>`. -/
def homeTable (name : Str) (source : Option Str) : Table :=
  insertSome ((∅ : Table)
    |>.insert "name".toList (.str name)
    |>.insert "host_path".toList (.str ("/srv/".toList ++ name))
    |>.insert "container_path".toList (.str ("/export/".toList ++ name)))
    "source_path" (source.map .str)

/-- A document with little more than its shares. -/
def homeDoc (shares : List Table) : Document :=
  (∅ : Document)
    |>.insert "ldap_uri".toList (.leaf (.str "ldaps://ldap.home.lan".toList))
    |>.insert "sssd".toList (.table .block ((∅ : Table)
      |>.insert "ldap_default_bind_dn".toList (.str "cn=admin".toList)
      |>.insert "ldap_default_authtok".toList (.str "secret".toList)))
    |>.insert "shares".toList (.rows .block shares)

/-- Two shares, the first one staged. -/
def stagedDoc : Document :=
  homeDoc [homeTable "a".toList (some "/export/.a".toList), homeTable "b".toList none]

/-- A configuration of two shares, the first with a source path. -/
def stagedConfig : NfsKlldapConfig :=
  homeConfig [homeShare "a".toList (some "/export/.a".toList), homeShare "b".toList none]

/-- The text of `homeDoc`. -/
def stagedText : Str :=
  ("ldap_uri = \"ldaps://ldap.home.lan\"\n\n" ++
    "[sssd]\nldap_default_bind_dn = \"cn=admin\"\nldap_default_authtok = \"secret\"\n\n" ++
    "[[shares]]\nname = \"a\"\nhost_path = \"/srv/a\"\ncontainer_path = \"/export/a\"\n" ++
    "source_path = \"/export/.a\"\n\n" ++
    "[[shares]]\nname = \"b\"\nhost_path = \"/srv/b\"\ncontainer_path = \"/export/b\"\n").toList

/-- An editor that reads the staged text as the staged document. -/
noncomputable def stagedToml : TomlEdit :=
  .ofTexts [(stagedText, stagedDoc)] (by decide) (by decide +kernel)

/-- The staged text is read and loaded. -/
theorem load_staged : stagedToml.parse stagedText = some stagedDoc ∧
    loadText .ascii stagedToml stagedText = .ok stagedConfig := by
  have hparse : stagedToml.parse stagedText = some stagedDoc :=
    TomlEdit.parse_ofTexts (List.mem_singleton_self _)
  have hvalid : (decodeConfig stagedDoc).bind (fun c => (validateAndDerive .ascii c).toOption) =
      some stagedConfig := by decide +kernel
  obtain ⟨raw, hraw, hcfg⟩ := Option.bind_eq_some_iff.mp hvalid
  exact ⟨hparse, loadText_eq_ok_iff.mpr
    ⟨stagedDoc, raw, hparse, hraw, toOption_eq_some_iff.mp hcfg⟩⟩

/-- The rendered cards. -/
def stagedCards : List ShareCard :=
  (shareTemplateRows (fun _ => .incapable) stagedConfig stagedDoc).map ShareTemplateRow.card

/-- The form as it is rendered. -/
def stagedForm : SettingsForm := ⟨stagedCards.flatMap ShareCard.inputs, by decide +kernel⟩

/-- A card that was added. -/
def addedCard : ShareCard where
  idx := 2
  value
    | .name => some "c".toList
    | .host => some "/srv/c".toList
    | .containerPath => some "/export/c".toList
    | _ => none

/-- The form with a card added behind the others. -/
def addedForm : SettingsForm :=
  ⟨(stagedCards ++ [addedCard]).flatMap ShareCard.inputs, by decide +kernel⟩

/-- A row that is added behind the others moves none of them. -/
theorem followsShare_added :
    ∃ w file', settingsSaveShares .ascii stagedToml (fun _ => ⟨"ext4".toList, .capable⟩) true
        (.text stagedText) addedForm = .written w file' ∧
      ∀ t ∈ savedTables stagedToml w,
        FollowsShare stagedConfig (stagedCards ++ [addedCard]) t := by
  have hform : FormOf addedForm (stagedCards ++ [addedCard]) :=
    ⟨List.Perm.refl _, by decide +kernel⟩
  have hvalid : (validateAndDerive .ascii { stagedConfig with
      shares := requestedShares stagedConfig stagedDoc addedForm }).toOption.isSome = true := by
    decide +kernel
  obtain ⟨out, hout⟩ := Option.isSome_iff_exists.mp hvalid
  have hsave : settingsSaveShares .ascii stagedToml (fun _ => ⟨"ext4".toList, .capable⟩) true
      (.text stagedText) addedForm =
      .written (stagedToml.render stagedText (applySharesToTomlDoc stagedDoc out.shares))
        (.text (stagedToml.render stagedText (applySharesToTomlDoc stagedDoc out.shares))) :=
    (settingsSaveShares_eq_written_iff load_staged.1 load_staged.2).mpr
      ⟨by decide +kernel, out, toOption_eq_some_iff.mp hout, rfl, rfl⟩
  have hagrees : ∀ e ∈ ((stagedCards ++ [addedCard]).filterMap ShareCard.share).zipIdx,
      PositionAgrees stagedConfig stagedDoc e.2 e.1 := by decide +kernel
  refine ⟨_, _, hsave, (rawOnly_follow_iff hform load_staged.1 load_staged.2 hsave).mpr ?_⟩
  intro idx r hr
  exact hagrees (r, idx) (List.mk_mem_zipIdx_iff_getElem?.mpr hr)

/-- The form with the first card deleted. -/
def deletedForm : SettingsForm := ⟨(stagedCards.drop 1).flatMap ShareCard.inputs, by decide +kernel⟩

/-- The share that is left takes over the source path of the deleted one. -/
theorem not_followsShare_deleted :
    FormOf deletedForm (stagedCards.drop 1) ∧
    loadText .ascii stagedToml stagedText = .ok stagedConfig ∧
    ∃ w, settingsSaveShares .ascii stagedToml (fun _ => ⟨"ext4".toList, .capable⟩) true
        (.text stagedText) deletedForm = .written w (.text w) ∧
      ∃ t ∈ savedTables stagedToml w, t.rawOnly.sourcePath = some "/export/.a".toList ∧
        ¬ FollowsShare stagedConfig (stagedCards.drop 1) t := by
  refine ⟨⟨List.Perm.refl _, by decide +kernel⟩, load_staged.2, ?_⟩
  have hvalid : (validateAndDerive .ascii
      { stagedConfig with shares := requestedShares stagedConfig stagedDoc deletedForm }).toOption =
      some (homeConfig [{ homeShare "b".toList (some "/export/.a".toList) with
        rw := some true
        squash := some "no_root_squash".toList
        cacheProfile := some "Default".toList }]) := by decide +kernel
  refine ⟨_, (settingsSaveShares_eq_written_iff load_staged.1 load_staged.2).mpr
    ⟨by decide +kernel, _, toOption_eq_some_iff.mp hvalid, rfl, rfl⟩, ?_⟩
  rw [savedTables_render]
  refine ⟨_, List.mem_singleton_self _, by decide +kernel, fun h => ?_⟩
  have hkept := (h.kept (homeShare "b".toList none) (by decide +kernel) (by decide +kernel)).sourcePath
  exact absurd hkept (by decide +kernel)

end NfsKlldap
