import NfsKlldap.Settings.ShareTable
import NfsKlldap.Settings.Writers

/-! # The document after a structured save

The settings have addresses of their own, so every edit is there after the others: `editedLeaf` is
what a key holds in the end. A section that is written as an inline table takes no edit. The edits
are of the types the loader asks for, and the document stays well typed. -/

namespace NfsKlldap

open Text

/-- Standing apart is symmetric. -/
theorem Document.Apart.symm {sec key sec' key' : Str} (h : Document.Apart sec key sec' key') :
    Document.Apart sec' key' sec key := by
  rcases h with h | ⟨rfl, hne, hkey⟩
  · exact Or.inl (Ne.symm h)
  · exact Or.inr ⟨rfl, hne, Ne.symm hkey⟩

/-! ## One edit -/

/-- What the key of a setting holds after a save. -/
def editedLeaf (form : SettingsForm) (d : Document) (spec : FieldSpec) : Option Leaf :=
  if d.Editable spec.sec then (fieldEdit form spec).getD (d.get? spec.sec spec.key)
  else d.get? spec.sec spec.key

section Edits

variable {form : SettingsForm} {d : Document}

/-- An edit of a field leaves its key as `editedLeaf` says. -/
theorem get?_applyField (spec : FieldSpec) :
    (applyFieldToTomlDoc form d spec).get? spec.sec spec.key = editedLeaf form d spec := by
  unfold applyFieldToTomlDoc editedLeaf
  by_cases hed : d.Editable spec.sec
  · rw [if_pos hed]
    match fieldEdit form spec with
    | none => rfl
    | some none => exact Document.get?_removeKey hed spec.key
    | some (some v) => exact Document.get?_setKey hed spec.key v
  · rw [if_neg hed]
    match fieldEdit form spec with
    | none => rfl
    | some none =>
      exact congrArg (Document.get? · spec.sec spec.key)
        (Document.removeKey_of_not_editable hed spec.key)
    | some (some v) =>
      exact congrArg (Document.get? · spec.sec spec.key)
        (Document.setKey_of_not_editable hed spec.key v)

/-- It leaves every key that stands apart. -/
theorem get?_applyField_of_apart {sec key : Str} {spec : FieldSpec}
    (h : Document.Apart sec key spec.sec spec.key) :
    (applyFieldToTomlDoc form d spec).get? sec key = d.get? sec key := by
  unfold applyFieldToTomlDoc
  match fieldEdit form spec with
  | none => rfl
  | some none => exact Document.get?_removeKey_of_apart h
  | some (some v) => exact Document.get?_setKey_of_apart h v

/-- It leaves sections editable that were. -/
theorem editable_applyField {sec : Str} {spec : FieldSpec} (h : spec.sec = [] → sec ≠ spec.key) :
    (applyFieldToTomlDoc form d spec).Editable sec ↔ d.Editable sec := by
  unfold applyFieldToTomlDoc
  match fieldEdit form spec with
  | none => rfl
  | some none => exact Document.editable_removeKey h
  | some (some v) => exact Document.editable_setKey v h

/-! ## All edits -/

/-- Edits of fields that all stand apart leave a key. -/
theorem get?_foldl_of_apart {sec key : Str} {specs : List FieldSpec}
    (h : ∀ spec ∈ specs, Document.Apart sec key spec.sec spec.key) :
    (specs.foldl (applyFieldToTomlDoc form) d).get? sec key = d.get? sec key := by
  induction specs generalizing d with
  | nil => rfl
  | cons spec specs ih =>
    rw [List.forall_mem_cons] at h
    rw [List.foldl_cons, ih h.2, get?_applyField_of_apart h.1]

/-- Edits of addresses that do not overlap are all there in the end. -/
theorem get?_foldl_of_mem {specs : List FieldSpec} {spec : FieldSpec} (hspec : spec ∈ specs)
    (hapart : specs.Pairwise fun f g => Document.Apart f.sec f.key g.sec g.key)
    (hsec : ∀ f ∈ specs, f.sec = [] → spec.sec ≠ f.key) :
    (specs.foldl (applyFieldToTomlDoc form) d).get? spec.sec spec.key = editedLeaf form d spec := by
  induction specs generalizing d with
  | nil => exact nomatch hspec
  | cons f specs ih =>
    rw [List.pairwise_cons] at hapart
    rw [List.foldl_cons]
    rcases List.mem_cons.mp hspec with rfl | hmem
    · rw [get?_foldl_of_apart hapart.1, get?_applyField]
    · rw [ih hmem hapart.2 fun g hg => hsec g (List.mem_cons_of_mem _ hg)]
      unfold editedLeaf
      rw [get?_applyField_of_apart (hapart.1 spec hmem).symm]
      simp only [editable_applyField (hsec f List.mem_cons_self)]

end Edits

/-- Edits leave every entry that none of them stands in. -/
theorem lookup_foldl_fields {form : SettingsForm} {d : Document} {x : Str} {specs : List FieldSpec}
    (h : ∀ f ∈ specs, x ≠ Document.entryOf f.sec f.key) :
    (specs.foldl (applyFieldToTomlDoc form) d).lookup x = d.lookup x := by
  induction specs generalizing d with
  | nil => rfl
  | cons f specs ih =>
    rw [List.forall_mem_cons] at h
    rw [List.foldl_cons, ih h.2]
    unfold applyFieldToTomlDoc
    match fieldEdit form f with
    | none => rfl
    | some none => exact Document.lookup_removeKey_of_ne h.1
    | some (some v) => exact Document.lookup_setKey_of_ne v h.1

/-- The addresses of the settings do not overlap. -/
theorem fields_apart : fields.Pairwise fun f g => Document.Apart f.sec f.key g.sec g.key := by
  decide +kernel

/-- The key of a setting after a structured save. -/
theorem get?_structured (form : SettingsForm) (d : Document) {spec : FieldSpec}
    (hspec : spec ∈ fields) :
    (applyStructuredFormToTomlDoc form d).get? spec.sec spec.key = editedLeaf form d spec := by
  have hprobe : ∀ f ∈ fields, Document.entryOf f.sec f.key ≠ "probe".toList := by decide +kernel
  have hsec : ∀ f ∈ fields, ∀ g ∈ fields, g.sec = [] → f.sec ≠ g.key := by decide +kernel
  rw [applyStructuredFormToTomlDoc,
    Document.get?_eq_of_lookup_eq (lookup_applyProbeForm form _ (hprobe spec hspec))]
  exact get?_foldl_of_mem hspec fields_apart (hsec spec hspec)

/-! ## The types -/

/-- The type of the value a setting is written with. -/
def FieldKind.leafType : FieldKind → LeafType
  | .text => .str
  | .password => .str
  | .port => .u16
  | .u16OrClear => .u16
  | .boolAlways => .bool
  | .overrideText _ => .str
  | .overrideBool => .bool
  | .overrideSelect _ => .str

/-- A 16-bit integer has the type of one. -/
theorem hasType_ofU16 (n : UInt16) : (Leaf.ofU16 n).hasType .u16 = true := by
  simp [Leaf.hasType]

/-- **What an edit writes has the type of its field.** -/
theorem hasType_fieldEdit {form : SettingsForm} {spec : FieldSpec} {v : Leaf}
    (h : fieldEdit form spec = some (some v)) : v.hasType spec.kind.leafType = true := by
  unfold fieldEdit at h
  dsimp only at h
  -- one kind of field after another; a field that is left alone writes nothing
  cases hkind : spec.kind with
  | text =>
    rw [hkind] at h
    obtain ⟨x, -, hx⟩ := Option.map_eq_some_iff.mp h
    cases hx
    rfl
  | password =>
    rw [hkind] at h
    obtain ⟨x, -, hx⟩ := Option.map_eq_some_iff.mp h
    cases hx
    rfl
  | port =>
    rw [hkind] at h
    obtain ⟨x, -, hx⟩ := Option.map_eq_some_iff.mp h
    cases hx
    exact hasType_ofU16 x
  | u16OrClear =>
    rw [hkind] at h
    obtain ⟨x, -, hx⟩ := Option.bind_eq_some_iff.mp h
    split at hx
    · cases hx
    · obtain ⟨p, -, hp⟩ := Option.map_eq_some_iff.mp hx
      cases hp
      exact hasType_ofU16 p
  | boolAlways =>
    rw [hkind] at h
    cases h
    rfl
  | overrideText b =>
    rw [hkind] at h
    dsimp only at h
    split at h
    · obtain ⟨x, -, hx⟩ := Option.map_eq_some_iff.mp h
      split at hx
      · cases hx
      · cases hx
        rfl
    · cases h
  | overrideBool =>
    rw [hkind] at h
    dsimp only at h
    split at h
    · cases h
      rfl
    · cases h
  | overrideSelect dflt =>
    rw [hkind] at h
    dsimp only at h
    split at h
    · cases h
      rfl
    · cases h
      rfl

/-- A document with one entry changed is well typed when that entry is. -/
theorem wellTyped_of_lookup {d d' : Document} {x : Str} (h : d.wellTyped = true)
    (hother : ∀ y, y ≠ x → d'.lookup y = d.lookup y)
    (hroot : ∀ e ∈ rootSchema, e.1 = x →
      ((d'.lookup x).all fun i => i.leaf?.any fun v => v.hasType e.2) = true)
    (hsec : ∀ s ∈ configSchema, s.1 = x → d'.sectionConforms x s.2 = true) :
    d'.wellTyped = true := by
  rw [Document.wellTyped, Bool.and_eq_true, Document.rootConforms, List.all_eq_true,
    List.all_eq_true] at h ⊢
  refine ⟨fun e he => ?_, fun s hs => ?_⟩
  · by_cases heq : e.1 = x
    · rw [heq]
      exact hroot e he heq
    · rw [hother e.1 heq]
      exact h.1 e he
  · by_cases heq : s.1 = x
    · rw [heq]
      exact hsec s hs heq
    · rw [Document.sectionConforms_congr (hother s.1 heq)]
      exact h.2 s hs

/-- The addresses of the settings in the schema. -/
theorem fields_schema : ∀ f ∈ fields,
    (∀ e ∈ rootSchema, e.1 = Document.entryOf f.sec f.key → f.sec = [] ∧ e.2 = f.kind.leafType) ∧
      ∀ s ∈ configSchema, s.1 = Document.entryOf f.sec f.key →
        f.sec ≠ [] ∧ ∀ e ∈ s.2, e.1 = f.key → e.2 = f.kind.leafType := by
  decide +kernel

section WellTyped

variable {form : SettingsForm} {d : Document}

/-- Every section of a well-typed document conforms. -/
theorem sectionConforms_of_wellTyped (h : d.wellTyped = true) {s : Str × List (Str × LeafType)}
    (hs : s ∈ configSchema) : d.sectionConforms s.1 s.2 = true := by
  rw [Document.wellTyped, Bool.and_eq_true] at h
  exact List.all_eq_true.mp h.2 s hs

/-- Setting a field to a value of its type keeps a document well typed. -/
theorem wellTyped_setKey {spec : FieldSpec} (hspec : spec ∈ fields) (h : d.wellTyped = true)
    {v : Leaf} (hv : v.hasType spec.kind.leafType = true) :
    (d.setKey spec.sec spec.key v).wellTyped = true := by
  obtain ⟨hroot, hsec⟩ := fields_schema spec hspec
  refine wellTyped_of_lookup h (fun y hy => Document.lookup_setKey_of_ne v hy) (fun e he heq => ?_)
    fun s hs heq => ?_
  · obtain ⟨hnil, hty⟩ := hroot e he heq
    rw [Document.entryOf, if_pos hnil, Document.setKey, if_pos hnil, Finmap.lookup_insert]
    simp [Item.leaf?, hty, hv]
  · obtain ⟨hne, hty⟩ := hsec s hs heq
    have hentry : Document.entryOf spec.sec spec.key = spec.sec := if_neg hne
    rw [hentry] at heq ⊢
    rw [Document.setKey, if_neg hne]
    refine Document.sectionConforms_modifySection hne
      (heq ▸ sectionConforms_of_wellTyped h hs) fun t ht => Table.conforms_insert ht fun ty hmem => ?_
    have hkind : ty = spec.kind.leafType := hty (spec.key, ty) hmem rfl
    rw [hkind]
    exact hv

/-- Removing a field keeps a document well typed. -/
theorem wellTyped_removeKey {spec : FieldSpec} (hspec : spec ∈ fields) (h : d.wellTyped = true) :
    (d.removeKey spec.sec spec.key).wellTyped = true := by
  obtain ⟨hroot, hsec⟩ := fields_schema spec hspec
  refine wellTyped_of_lookup h (fun y hy => Document.lookup_removeKey_of_ne hy) (fun e he heq => ?_)
    fun s hs heq => ?_
  · obtain ⟨hnil, -⟩ := hroot e he heq
    rw [Document.entryOf, if_pos hnil, Document.removeKey, if_pos hnil, Finmap.lookup_erase]
    rfl
  · obtain ⟨hne, -⟩ := hsec s hs heq
    have hentry : Document.entryOf spec.sec spec.key = spec.sec := if_neg hne
    have hold := sectionConforms_of_wellTyped h hs
    rw [hentry] at heq ⊢
    rw [heq] at hold
    rw [Document.removeKey, if_neg hne]
    cases ht : (d.lookup spec.sec).bind Item.asTable with
    | none => exact hold
    | some t =>
      obtain ⟨i, hi, hit⟩ := Option.bind_eq_some_iff.mp ht
      cases Item.eq_of_asTable hit
      rw [Document.sectionConforms, hi] at hold
      show Document.sectionConforms (d.insert spec.sec (.table .block (t.erase spec.key))) _ _ = true
      rw [Document.sectionConforms, Finmap.lookup_insert]
      exact Table.conforms_erase spec.key hold

/-- The edits of a form keep a document well typed. -/
theorem wellTyped_foldl {specs : List FieldSpec} (hspecs : ∀ spec ∈ specs, spec ∈ fields)
    (h : d.wellTyped = true) : (specs.foldl (applyFieldToTomlDoc form) d).wellTyped = true := by
  induction specs generalizing d with
  | nil => exact h
  | cons spec specs ih =>
    rw [List.forall_mem_cons] at hspecs
    refine ih hspecs.2 ?_
    unfold applyFieldToTomlDoc
    cases hedit : fieldEdit form spec with
    | none => exact h
    | some o =>
      cases o with
      | none => exact wellTyped_removeKey hspecs.1 h
      | some v => exact wellTyped_setKey hspecs.1 h (hasType_fieldEdit hedit)

/-- `[probe]` holds two strings. -/
theorem wellTyped_probeKey {key : Str} (name : Str) (h : d.wellTyped = true) :
    (applyProbeKey form key name d).wellTyped = true := by
  have hschema : ∀ s ∈ configSchema, s.1 = "probe".toList → ∀ e ∈ s.2, e.2 = .str := by
    decide +kernel
  have hroot : ∀ e ∈ rootSchema, e.1 ≠ "probe".toList := by decide +kernel
  unfold applyProbeKey
  split
  · exact h
  · refine wellTyped_of_lookup h (fun y hy => Document.lookup_modifySection_of_ne _ hy)
      (fun e he heq => absurd heq (hroot e he)) fun s hs heq => ?_
    refine Document.sectionConforms_modifySection (by decide)
      (heq ▸ sectionConforms_of_wellTyped h hs) fun t ht => ?_
    split
    · exact Table.conforms_erase key ht
    · refine Table.conforms_insert ht fun ty hmem => ?_
      have hstr : ty = .str := hschema s hs heq (key, ty) hmem
      rw [hstr]
      rfl

/-- Dropping the probe section keeps a document well typed. -/
theorem wellTyped_erase_probe (h : d.wellTyped = true) :
    Document.wellTyped (d.erase "probe".toList) = true := by
  have hroot : ∀ e ∈ rootSchema, e.1 ≠ "probe".toList := by decide +kernel
  refine wellTyped_of_lookup h (fun y hy => Finmap.lookup_erase_ne hy)
    (fun e he heq => absurd heq (hroot e he)) fun s hs heq => ?_
  rw [Document.sectionConforms, Finmap.lookup_erase]
  rfl

/-- A structured save leaves a document of the right shape. -/
theorem wellTyped_structured (form : SettingsForm) (h : d.wellTyped = true) :
    (applyStructuredFormToTomlDoc form d).wellTyped = true := by
  have hfields : (fields.foldl (applyFieldToTomlDoc form) d).wellTyped = true :=
    wellTyped_foldl (fun _ hspec => hspec) h
  unfold applyStructuredFormToTomlDoc applyProbeFormToTomlDoc
  split
  · exact wellTyped_erase_probe hfields
  · dsimp only
    split
    · exact wellTyped_erase_probe (wellTyped_probeKey _ (wellTyped_probeKey _ hfields))
    · exact wellTyped_probeKey _ (wellTyped_probeKey _ hfields)

end WellTyped

/-! ## The values -/

/-- The switch of a field stands on Custom. -/
def custom (form : SettingsForm) (name : Str) : Bool := formFlag form (overrideInput name)

/-- The number that is submitted for a field that can be cleared. -/
def clearableU16 (form : SettingsForm) (name : Str) : Option (Option UInt16) :=
  (formStr form name).bind fun v => if isBlank v then some none else (parseU16 v).map some

section Values

variable {form : SettingsForm} {d : Document} {spec : FieldSpec}

/-- What a plain text field holds after its edit. -/
theorem str?_text (hkind : spec.kind = .text) :
    (editedLeaf form d spec).bind Leaf.str? =
      if d.Editable spec.sec then (formStr form spec.name).or (d.str? spec.sec spec.key)
      else d.str? spec.sec spec.key := by
  unfold editedLeaf fieldEdit
  rw [hkind]
  split
  · cases formStr form spec.name <;> rfl
  · rfl

/-- What a password field holds after its edit: a blank one is not taken. -/
theorem str?_password (hkind : spec.kind = .password) :
    (editedLeaf form d spec).bind Leaf.str? =
      if d.Editable spec.sec then
        (nonblank (formStr form spec.name)).or (d.str? spec.sec spec.key)
      else d.str? spec.sec spec.key := by
  unfold editedLeaf fieldEdit
  rw [hkind]
  split
  · show Option.bind ((((nonblank (formStr form spec.name)).map fun v => some (Leaf.str v))).getD _) _ = _
    cases nonblank (formStr form spec.name) <;> rfl
  · rfl

/-- What a port holds after its edit: one that does not parse is not taken. -/
theorem u16?_port (hkind : spec.kind = .port) :
    (editedLeaf form d spec).bind Leaf.u16? =
      if d.Editable spec.sec then
        ((formStr form spec.name).bind parseU16).or (d.u16? spec.sec spec.key)
      else d.u16? spec.sec spec.key := by
  unfold editedLeaf fieldEdit
  rw [hkind]
  split
  · show Option.bind ((((formStr form spec.name).bind parseU16).map
      fun p => some (Leaf.ofU16 p)).getD _) _ = _
    cases (formStr form spec.name).bind parseU16 with
    | none => rfl
    | some p => exact Leaf.u16?_ofU16 p
  · rfl

/-- What a clearable number holds after its edit. -/
theorem u16?_u16OrClear (hkind : spec.kind = .u16OrClear) :
    (editedLeaf form d spec).bind Leaf.u16? =
      if d.Editable spec.sec then (clearableU16 form spec.name).getD (d.u16? spec.sec spec.key)
      else d.u16? spec.sec spec.key := by
  unfold editedLeaf fieldEdit clearableU16
  rw [hkind]
  split
  · cases formStr form spec.name with
    | none => rfl
    | some v =>
      dsimp only [Option.bind_some]
      split
      · rfl
      · cases parseU16 v with
        | none => rfl
        | some p => exact Leaf.u16?_ofU16 p
  · rfl

/-- What a check box holds after its edit: it is always submitted. -/
theorem bool?_boolAlways (hkind : spec.kind = .boolAlways) :
    (editedLeaf form d spec).bind Leaf.bool? =
      if d.Editable spec.sec then some (formFlag form spec.name)
      else d.bool? spec.sec spec.key := by
  unfold editedLeaf fieldEdit
  rw [hkind]
  split <;> rfl

/-- What an Auto/Custom text holds after its edit. -/
theorem str?_overrideText {removeWhenBlank : Bool} (hkind : spec.kind = .overrideText removeWhenBlank) :
    (editedLeaf form d spec).bind Leaf.str? =
      if d.Editable spec.sec then
        if custom form spec.name then
          (formStr form spec.name).elim (d.str? spec.sec spec.key) fun v =>
            if isBlank v && removeWhenBlank then none else some v
        else none
      else d.str? spec.sec spec.key := by
  unfold editedLeaf fieldEdit custom
  rw [hkind]
  split
  · dsimp only
    split
    · cases formStr form spec.name with
      | none => rfl
      | some v =>
        dsimp only [Option.map_some, Option.getD_some, Option.elim_some]
        split <;> rfl
    · rfl
  · rfl

/-- What an Auto/Custom yes or no holds after its edit. -/
theorem bool?_overrideBool (hkind : spec.kind = .overrideBool) :
    (editedLeaf form d spec).bind Leaf.bool? =
      if d.Editable spec.sec then
        if custom form spec.name then some ((formBool form spec.name).getD false) else none
      else d.bool? spec.sec spec.key := by
  unfold editedLeaf fieldEdit custom
  rw [hkind]
  split
  · dsimp only
    split <;> rfl
  · rfl

/-- What an Auto/Custom choice holds after its edit. -/
theorem str?_overrideSelect {dflt : Str} (hkind : spec.kind = .overrideSelect dflt) :
    (editedLeaf form d spec).bind Leaf.str? =
      if d.Editable spec.sec then
        some (if custom form spec.name then (nonblank (formStr form spec.name)).getD dflt else dflt)
      else d.str? spec.sec spec.key := by
  unfold editedLeaf fieldEdit custom
  rw [hkind]
  split
  · dsimp only
    split <;> rfl
  · rfl

end Values

/-! ## The probe section -/

section Probe

variable {form : SettingsForm} {d : Document} {key key' : Str}

/-- The edit of a probe key leaves the section editable if it was. -/
theorem editable_probeKey (name : Str) :
    (applyProbeKey form key name d).Editable "probe".toList ↔ d.Editable "probe".toList := by
  unfold applyProbeKey
  split
  · rfl
  · by_cases hed : d.Editable "probe".toList
    · exact iff_of_true
        (Document.editable_of_lookup (Document.lookup_modifySection _ (by decide) hed)) hed
    · rw [Document.modifySection_of_not_editable _ hed]

/-- The identity that is submitted, with a blank one removed. -/
theorem str?_probeKey (name : Str) :
    (applyProbeKey form key name d).str? "probe".toList key =
      if d.Editable "probe".toList then
        (formStr form name).elim (d.str? "probe".toList key) blankToNone
      else d.str? "probe".toList key := by
  unfold applyProbeKey
  by_cases hed : d.Editable "probe".toList
  · rw [if_pos hed]
    cases formStr form name with
    | none => rfl
    | some v =>
      rw [Document.str?, Document.get?_modifySection key _ (by decide) hed, Option.elim_some,
        blankToNone]
      split
      · rw [Finmap.lookup_erase]
        rfl
      · rw [Finmap.lookup_insert]
        rfl
  · rw [if_neg hed]
    cases formStr form name with
    | none => rfl
    | some v => exact congrArg (Document.str? · _ _) (Document.modifySection_of_not_editable _ hed)

/-- It leaves the other probe keys. -/
theorem str?_probeKey_of_ne (name : Str) (h : key' ≠ key) :
    (applyProbeKey form key name d).str? "probe".toList key' = d.str? "probe".toList key' := by
  unfold applyProbeKey
  by_cases hed : d.Editable "probe".toList
  · cases formStr form name with
    | none => rfl
    | some v =>
      rw [Document.str?, Document.get?_modifySection key' _ (by decide) hed, Document.str?,
        ← Document.lookup_editable_section key' (by decide) hed]
      split
      · rw [Finmap.lookup_erase_ne h]
      · rw [Finmap.lookup_insert_of_ne _ h]
  · cases formStr form name with
    | none => rfl
    | some v => exact congrArg (Document.str? · _ _) (Document.modifySection_of_not_editable _ hed)

/-- An empty section reads like none. -/
theorem str?_erase_empty (h : (d.lookup "probe".toList).bind Item.asTable = some ∅) (key : Str) :
    Document.str? (d.erase "probe".toList) "probe".toList key = d.str? "probe".toList key := by
  obtain ⟨i, hi, hit⟩ := Option.bind_eq_some_iff.mp h
  cases Item.eq_of_asTable hit
  rw [Document.str?, Document.str?, Document.get?, Document.get?, if_neg (by decide),
    if_neg (by decide), Finmap.lookup_erase, hi]
  rfl

/-- The probe identities after a structured save. -/
theorem decodeProbe_structured (form : SettingsForm) (d : Document) :
    decodeProbe (applyStructuredFormToTomlDoc form d) =
      if formFlag form "auto_probe_ldap".toList then {}
      else if d.Editable "probe".toList then
        { userPrincipal := (formStr form "probe_user_principal".toList).elim
            (decodeProbe d).userPrincipal blankToNone
          clientHost := (formStr form "probe_client_host".toList).elim
            (decodeProbe d).clientHost blankToNone }
      else decodeProbe d := by
  -- no field of the form lies in the section of the probe
  have hlookup : (fields.foldl (applyFieldToTomlDoc form) d).lookup "probe".toList =
      d.lookup "probe".toList := lookup_foldl_fields (by decide +kernel)
  unfold applyStructuredFormToTomlDoc applyProbeFormToTomlDoc
  generalize fields.foldl (applyFieldToTomlDoc form) d = d₁ at hlookup
  have hstr : ∀ key, d₁.str? "probe".toList key = d.str? "probe".toList key := by
    intro key
    have hget : d₁.get? "probe".toList key = d.get? "probe".toList key := by
      refine Document.get?_eq_of_lookup_eq ?_
      rw [Document.entryOf, if_neg (by decide)]
      exact hlookup
    rw [Document.str?, hget, Document.str?]
  split
  -- the automatic probe drops the section
  · rw [decodeProbe, Document.str?, Document.str?, Document.get?, Document.get?,
      if_neg (by decide), if_neg (by decide), Finmap.lookup_erase]
    rfl
  · dsimp only
    generalize hd₂ : applyProbeKey form "client_host".toList "probe_client_host".toList
      (applyProbeKey form "user_principal".toList "probe_user_principal".toList d₁) = d₂
    -- the two keys are written one after the other, each leaving the other alone
    have hprobe : decodeProbe d₂ = if d.Editable "probe".toList then
        { userPrincipal := (formStr form "probe_user_principal".toList).elim
            (decodeProbe d).userPrincipal blankToNone
          clientHost := (formStr form "probe_client_host".toList).elim
            (decodeProbe d).clientHost blankToNone }
        else decodeProbe d := by
      subst hd₂
      have hed := Document.editable_congr hlookup
      rw [decodeProbe, str?_probeKey, str?_probeKey_of_ne _ (by decide), str?_probeKey,
        str?_probeKey_of_ne _ (by decide), hstr, hstr]
      simp only [editable_probeKey, hed]
      split <;> rfl
    split
    -- a section that has become empty is dropped, which reads the same
    · next hempty =>
      rw [← hprobe, decodeProbe, decodeProbe, str?_erase_empty hempty, str?_erase_empty hempty]
    · exact hprobe

end Probe

end NfsKlldap
