import NfsKlldap.Settings.Spec

/-! # What the config writers own

Four writers edit `nfs-klldap.conf`: the two saves of the settings page and two steps of the setup
wizard. Each re-reads the file, edits some keys of the document and writes it back. `AgreeOutside`
says that two documents differ at most in the keys a writer owns.

On a file that parses the edits stay within what the writer owns. All four take a file that does not
parse for an empty document, though, and what they write then replaces it: **`writer_keeps_iff`**
says exactly when the rest of the file survives. -/

namespace NfsKlldap

open Text

/-! ## Ownership -/

/-- What a writer may change: whole top-level entries, and single keys of sections. -/
structure Owned where
  entries : List Str
  keys : List (Str × Str)

/-- The documents agree outside what is owned. -/
structure AgreeOutside (o : Owned) (d d' : Document) : Prop where
  /-- An entry without an owned key is untouched. -/
  entry : ∀ x, x ∉ o.entries → (∀ k, (x, k) ∉ o.keys) → d'.lookup x = d.lookup x
  /-- A key that is not owned keeps its value. -/
  key : ∀ x k, x ≠ [] → x ∉ o.entries → (x, k) ∉ o.keys → d'.get? x k = d.get? x k
  /-- A section with owned keys stays a section, and an entry that cannot be edited stays as it
  is. -/
  table : ∀ x, x ∉ o.entries → d.lookup x ≠ none → d'.lookup x = d.lookup x ∨
    ∃ t t', d.lookup x = some (.table .block t) ∧ d'.lookup x = some (.table .block t')

namespace AgreeOutside

variable {o : Owned} {d d' d'' : Document}

/-- A document agrees with itself. -/
theorem refl (o : Owned) (d : Document) : AgreeOutside o d d :=
  ⟨fun _ _ _ => rfl, fun _ _ _ _ _ => rfl, fun _ _ _ => Or.inl rfl⟩

/-- Agreement outside the same part composes. -/
theorem trans (h : AgreeOutside o d d') (h' : AgreeOutside o d' d'') : AgreeOutside o d d'' := by
  refine ⟨fun x he hk => (h'.entry x he hk).trans (h.entry x he hk),
    fun x k hx he hk => (h'.key x k hx he hk).trans (h.key x k hx he hk), fun x he hne => ?_⟩
  rcases h.table x he hne with heq | ⟨t, t', ht, ht'⟩
  · rw [← heq] at hne ⊢
    exact h'.table x he hne
  · rcases h'.table x he (by simp [ht']) with heq' | ⟨t'', t''', ht'', ht'''⟩
    · exact Or.inr ⟨t, t', ht, heq'.trans ht'⟩
    · exact Or.inr ⟨t, t''', ht, ht'''⟩

/-- Only an owned entry differs. -/
theorem of_lookup {x : Str} (hx : x ∈ o.entries) (h : ∀ y, y ≠ x → d'.lookup y = d.lookup y) :
    AgreeOutside o d d' := by
  have hne : ∀ y, y ∉ o.entries → y ≠ x := fun y hy heq => hy (heq ▸ hx)
  refine ⟨fun y hy _ => h y (hne y hy), fun y k hy0 hy _ => ?_, fun y hy _ => Or.inl (h y (hne y hy))⟩
  rw [Document.get?, Document.get?, if_neg hy0, if_neg hy0, h y (hne y hy)]

/-- Only owned keys of one section differ. -/
theorem modifySection {sec : Str} {f : Table → Table} (hsec : sec ≠ [])
    (hany : ∃ k, (sec, k) ∈ o.keys)
    (hf : ∀ (t : Table) k, (sec, k) ∉ o.keys → (f t).lookup k = t.lookup k) :
    AgreeOutside o d (d.modifySection sec f) := by
  -- a section that is no table is left alone
  by_cases hed : d.Editable sec
  · refine ⟨fun x _ hk => ?_, fun x k hx _ hk => ?_, fun x _ hne => ?_⟩
    · refine Document.lookup_modifySection_of_ne f fun heq => ?_
      obtain ⟨k, hkey⟩ := hany
      exact hk k (heq ▸ hkey)
    · by_cases heq : x = sec
      · subst heq
        rw [Document.get?_modifySection k f hsec hed, hf _ k hk,
          Document.lookup_editable_section k hsec hed]
      · refine Document.get?_eq_of_lookup_eq ?_
        rw [Document.entryOf, if_neg hx, Document.lookup_modifySection_of_ne f heq]
    · by_cases heq : x = sec
      · subst heq
        obtain ⟨i, hi⟩ := Option.ne_none_iff_exists'.mp hne
        obtain ⟨t, ht⟩ := Option.isSome_iff_exists.mp ((hed.resolve_left hsec) i hi)
        cases Item.eq_of_asTable ht
        exact Or.inr ⟨t, _, hi, Document.lookup_modifySection f hsec hed⟩
      · exact Or.inl (Document.lookup_modifySection_of_ne f heq)
  · rw [Document.modifySection_of_not_editable f hed]
    exact refl o d

/-- The address is one the writer may change. -/
def Owns (o : Owned) (sec key : Str) : Prop :=
  if sec = [] then key ∈ o.entries else (sec, key) ∈ o.keys

/-- Setting a key of the part agrees outside of it. -/
theorem setKey {sec key : Str} (h : Owns o sec key) (v : Leaf) :
    AgreeOutside o d (d.setKey sec key v) := by
  by_cases hsec : sec = []
  · rw [Owns, if_pos hsec] at h
    exact of_lookup h fun y hy => by rw [Document.setKey, if_pos hsec, Finmap.lookup_insert_of_ne _ hy]
  · rw [Owns, if_neg hsec] at h
    rw [Document.setKey, if_neg hsec]
    refine modifySection hsec ⟨key, h⟩ fun t k hk => Finmap.lookup_insert_of_ne _ fun heq => hk ?_
    rwa [heq]

/-- Removing a key of the part agrees outside of it. -/
theorem removeKey {sec key : Str} (h : Owns o sec key) : AgreeOutside o d (d.removeKey sec key) := by
  by_cases hsec : sec = []
  · rw [Owns, if_pos hsec] at h
    exact of_lookup h fun y hy => by rw [Document.removeKey, if_pos hsec, Finmap.lookup_erase_ne hy]
  · rw [Owns, if_neg hsec] at h
    rw [Document.removeKey, if_neg hsec]
    cases ht : (d.lookup sec).bind Item.asTable with
    | none => exact refl o d
    | some t =>
      -- a section that is there is edited like one that may be created
      obtain ⟨i, hi, hit⟩ := Option.bind_eq_some_iff.mp ht
      cases Item.eq_of_asTable hit
      have hmod : d.insert sec (.table .block (t.erase key)) =
          d.modifySection sec fun t => t.erase key := by
        rw [Document.modifySection, hi]
      show AgreeOutside o d (d.insert sec (.table .block (t.erase key)))
      rw [hmod]
      refine modifySection hsec ⟨key, h⟩ fun t k hk => Finmap.lookup_erase_ne fun heq => hk ?_
      rwa [heq]

end AgreeOutside

/-! ## The wizard's writers (`setup.rs`) -/

/-- The document after step 2 of the wizard. -/
def applyLdapUri (uri : Str) (d : Document) : Document :=
  d.setKey [] "ldap_uri".toList (.str (trim uri))

/-- The document after step 3 of the wizard; an inline `sssd` is left alone. -/
def applyBindCreds (dn pw : Str) (d : Document) : Document :=
  d.modifySection "sssd".toList fun t =>
    (t.insert "ldap_default_bind_dn".toList (.str (trim dn))).insert
      "ldap_default_authtok".toList (.str pw)

/-- `write_ldap_uri`: the file afterwards. -/
def writeLdapUri (toml : TomlEdit) (ok : Bool) (file : ConfFile) (uri : Str) : ConfFile :=
  atomicWriteConfig ok file
    (toml.render (file.readToString.getD []) (applyLdapUri uri (parseOrEmpty toml file)))

/-- `write_bind_creds`: the file afterwards. -/
def writeBindCreds (toml : TomlEdit) (ok : Bool) (file : ConfFile) (dn pw : Str) : ConfFile :=
  atomicWriteConfig ok file
    (toml.render (file.readToString.getD []) (applyBindCreds dn pw (parseOrEmpty toml file)))

/-! ## The writers as one family -/

/-- A writer with what was submitted to it. -/
inductive ConfWriter where
  | structured (form : SettingsForm)
  | shares (form : SettingsForm)
  | ldapUri (uri : Str)
  | bindCreds (dn pw : Str)

/-- What a writer owns. The structured save owns the key of every setting and `[probe]` as a whole,
which it removes on Auto; the shares save owns the array of shares. -/
def ConfWriter.owned : ConfWriter → Owned
  | .structured _ =>
    { entries :=
        "probe".toList :: (fields.filter fun spec => spec.sec = []).map FieldSpec.key
      keys := (fields.filter fun spec => spec.sec ≠ []).map fun spec => (spec.sec, spec.key) }
  | .shares _ => { entries := ["shares".toList], keys := [] }
  | .ldapUri _ => { entries := ["ldap_uri".toList], keys := [] }
  | .bindCreds _ _ =>
    { entries := []
      keys := [("sssd".toList, "ldap_default_bind_dn".toList),
        ("sssd".toList, "ldap_default_authtok".toList)] }

/-- The config a structured save applies its form to. -/
def structuredBase (env : Environment) (toml : TomlEdit) (file : ConfFile) : NfsKlldapConfig :=
  match loadText env toml (file.readToString.getD []) with
  | .ok c => c
  | .error _ => {}

/-- The config a shares save validates. -/
def requestedConfig (env : Environment) (toml : TomlEdit) (file : ConfFile) (form : SettingsForm) :
    NfsKlldapConfig :=
  { loadOrDefault env toml file with
    shares := requestedShares (loadOrDefault env toml file) (parseOrEmpty toml file) form }

/-- The file after a writer ran. -/
def ConfWriter.run (env : Environment) (toml : TomlEdit) (probe : Str → AclProbeOutcome) (ok : Bool)
    (file : ConfFile) : ConfWriter → ConfFile
  | .structured form => (settingsSaveStructured env toml ok file form).file file
  | .shares form => (settingsSaveShares env toml probe ok file form).file file
  | .ldapUri uri => writeLdapUri toml ok file uri
  | .bindCreds dn pw => writeBindCreds toml ok file dn pw

/-- The checks before a write: the submitted settings must validate, and no share may demand ACLs of
a mount without. The wizard's writers check nothing. -/
def ConfWriter.Accepts (env : Environment) (toml : TomlEdit) (probe : Str → AclProbeOutcome)
    (file : ConfFile) : ConfWriter → Prop
  | .structured form =>
    ∃ c, validateAndDerive env (applyStructuredFormToConfig form (structuredBase env toml file)) =
      .ok c
  | .shares form =>
    (∀ s ∈ (requestedConfig env toml file form).shares, ¬ refusesAcl probe s) ∧
      ∃ c, validateAndDerive env (requestedConfig env toml file form) = .ok c
  | .ldapUri _ => True
  | .bindCreds _ _ => True

/-- What the file says. A missing file says nothing; `none` is no TOML. -/
def ConfFile.document? (toml : TomlEdit) : ConfFile → Option Document
  | .missing => some ∅
  | .binary _ => none
  | .text s => toml.parse s

/-- **Nothing outside is lost**: the bytes are the same, or the file holds a document before and
after, and the two agree outside what is owned. -/
def Keeps (toml : TomlEdit) (o : Owned) (file file' : ConfFile) : Prop :=
  file' = file ∨ ∃ d d', file.document? toml = some d ∧ file'.document? toml = some d' ∧
    AgreeOutside o d d'

/-! ## The edits stay within what is owned -/

/-- A field's edit agrees outside the part that owns it. -/
theorem agreeOutside_applyField {o : Owned} (form : SettingsForm) {spec : FieldSpec}
    (h : AgreeOutside.Owns o spec.sec spec.key) (d : Document) :
    AgreeOutside o d (applyFieldToTomlDoc form d spec) := by
  unfold applyFieldToTomlDoc
  match fieldEdit form spec with
  | none => exact AgreeOutside.refl o d
  | some none => exact AgreeOutside.removeKey h
  | some (some v) => exact AgreeOutside.setKey h v

/-- The edits of a form agree outside the part that owns them all. -/
theorem agreeOutside_foldl_fields {o : Owned} (form : SettingsForm) (specs : List FieldSpec)
    (h : ∀ spec ∈ specs, AgreeOutside.Owns o spec.sec spec.key) (d : Document) :
    AgreeOutside o d (specs.foldl (applyFieldToTomlDoc form) d) := by
  induction specs generalizing d with
  | nil => exact AgreeOutside.refl o d
  | cons spec specs ih =>
    exact (agreeOutside_applyField form (h spec List.mem_cons_self) d).trans
      (ih (fun spec' hspec' => h spec' (List.mem_cons_of_mem _ hspec')) _)

/-- `[probe]` is the only entry the probe form touches. -/
theorem lookup_applyProbeForm (form : SettingsForm) (d : Document) {x : Str}
    (hx : x ≠ "probe".toList) : (applyProbeFormToTomlDoc form d).lookup x = d.lookup x := by
  have hkey : ∀ key name (d : Document), (applyProbeKey form key name d).lookup x = d.lookup x := by
    intro key name d
    unfold applyProbeKey
    split
    · rfl
    · exact Document.lookup_modifySection_of_ne _ hx
  unfold applyProbeFormToTomlDoc
  split
  · exact Finmap.lookup_erase_ne hx
  · dsimp only
    split
    · rw [Finmap.lookup_erase_ne hx, hkey, hkey]
    · rw [hkey, hkey]

/-- **A structured edit changes nothing outside its own part.** -/
theorem agreeOutside_structured (form form' : SettingsForm) (d : Document) :
    AgreeOutside (ConfWriter.owned (.structured form')) d (applyStructuredFormToTomlDoc form d) := by
  refine (agreeOutside_foldl_fields form fields (fun spec hspec => ?_) d).trans
    (AgreeOutside.of_lookup List.mem_cons_self fun y hy => lookup_applyProbeForm form _ hy)
  unfold AgreeOutside.Owns
  split
  · next hsec =>
    refine List.mem_cons_of_mem _ (List.mem_map_of_mem (List.mem_filter.mpr ⟨hspec, ?_⟩))
    exact decide_eq_true hsec
  · next hsec =>
    exact List.mem_map_of_mem (List.mem_filter.mpr ⟨hspec, decide_eq_true hsec⟩)

/-- **A shares edit changes nothing outside its own part.** -/
theorem agreeOutside_shares (form : SettingsForm) (d : Document) (shares : List Share) :
    AgreeOutside (ConfWriter.owned (.shares form)) d (applySharesToTomlDoc d shares) := by
  refine AgreeOutside.of_lookup (List.mem_singleton_self _) fun y hy => ?_
  unfold applySharesToTomlDoc
  dsimp only
  split
  · exact Finmap.lookup_erase_ne hy
  · rw [Finmap.lookup_insert_of_ne _ hy, Finmap.lookup_erase_ne hy]

/-- **An edit of the bind credentials changes nothing outside its own part.** -/
theorem agreeOutside_bindCreds (dn pw : Str) (d : Document) :
    AgreeOutside (ConfWriter.owned (.bindCreds dn pw)) d (applyBindCreds dn pw d) := by
  refine AgreeOutside.modifySection (by decide) ⟨_, List.mem_cons_self⟩ fun t k hk => ?_
  have hdn : k ≠ "ldap_default_bind_dn".toList := fun heq => hk (heq ▸ List.mem_cons_self)
  have hpw : k ≠ "ldap_default_authtok".toList :=
    fun heq => hk (heq ▸ List.mem_cons_of_mem _ List.mem_cons_self)
  rw [Finmap.lookup_insert_of_ne _ hpw, Finmap.lookup_insert_of_ne _ hdn]

/-! ## What a writer leaves -/

/-- The document of a file that holds one. -/
theorem parseOrEmpty_of_document? {toml : TomlEdit} {file : ConfFile} {d : Document}
    (h : file.document? toml = some d) : parseOrEmpty toml file = d := by
  cases file with
  | missing =>
    cases h
    simp [parseOrEmpty, ConfFile.readToString]
  | binary bytes => cases h
  | text s =>
    rw [ConfFile.document?] at h
    simp [parseOrEmpty, ConfFile.readToString, h]

/-- A structured save refuses or writes by its validation alone. -/
theorem settingsSaveStructured_eq (env : Environment) (toml : TomlEdit) (ok : Bool)
    (file : ConfFile) (form : SettingsForm) :
    settingsSaveStructured env toml ok file form =
      match validateAndDerive env
        (applyStructuredFormToConfig form (structuredBase env toml file)) with
      | .error e => .refused ("Validation error: ".toList ++ e.display)
      | .ok _ =>
        .written
          (toml.render (file.readToString.getD [])
            (applyStructuredFormToTomlDoc form (parseOrEmpty toml file)))
          (atomicWriteConfig ok file (toml.render (file.readToString.getD [])
            (applyStructuredFormToTomlDoc form (parseOrEmpty toml file)))) :=
  rfl

/-- **A writer's run**: the file stays as it is, or it now holds the edited document. -/
theorem run_cases (env : Environment) (toml : TomlEdit) (probe : Str → AclProbeOutcome) (ok : Bool)
    (file : ConfFile) (w : ConfWriter) :
    (¬ (ok = true ∧ w.Accepts env toml probe file) ∧ w.run env toml probe ok file = file) ∨
      (ok = true ∧ w.Accepts env toml probe file) ∧ ∃ base d',
        w.run env toml probe ok file = .text (toml.render base d') ∧
          AgreeOutside w.owned (parseOrEmpty toml file) d' := by
  cases ok with
  -- without the right to write no writer does anything
  | false =>
    refine Or.inl ⟨fun h => Bool.false_ne_true h.1, ?_⟩
    cases w with
    -- each writer refuses what it does not accept and writes within its sections otherwise
    | structured form =>
      simp only [ConfWriter.run, settingsSaveStructured]
      split <;> rfl
    | shares form =>
      simp only [ConfWriter.run, settingsSaveShares]
      split
      · rfl
      · split <;> rfl
    | ldapUri uri => rfl
    | bindCreds dn pw => rfl
  | true =>
    cases w with
    | structured form =>
      cases hv : validateAndDerive env
          (applyStructuredFormToConfig form (structuredBase env toml file)) with
      | error e =>
        refine Or.inl ⟨?_, ?_⟩
        · rintro ⟨-, c, hc⟩
          cases hv.symm.trans hc
        · rw [ConfWriter.run, settingsSaveStructured_eq, hv]
          rfl
      | ok c =>
        refine Or.inr ⟨⟨rfl, c, hv⟩, file.readToString.getD [], _, ?_,
          agreeOutside_structured form form _⟩
        rw [ConfWriter.run, settingsSaveStructured_eq, hv]
        rfl
    | shares form =>
      cases hf : (requestedConfig env toml file form).shares.find? (refusesAcl probe) with
      | some s =>
        refine Or.inl ⟨?_, ?_⟩
        · rintro ⟨-, h, -⟩
          exact h s (List.mem_of_find?_eq_some hf) (List.find?_some hf)
        · unfold requestedConfig at hf
          simp only [ConfWriter.run, settingsSaveShares, hf, SaveOutcome.file]
      | none =>
        cases hv : validateAndDerive env (requestedConfig env toml file form) with
        | error e =>
          refine Or.inl ⟨?_, ?_⟩
          · rintro ⟨-, -, c, hc⟩
            cases hv.symm.trans hc
          · unfold requestedConfig at hf hv
            simp only [ConfWriter.run, settingsSaveShares, hf, hv, SaveOutcome.file]
        | ok c =>
          refine Or.inr ⟨⟨rfl, fun s hs => List.find?_eq_none.mp hf s hs, c, hv⟩,
            file.readToString.getD [], _, ?_, agreeOutside_shares form _ c.shares⟩
          unfold requestedConfig at hf hv
          simp only [ConfWriter.run, settingsSaveShares, hf, hv, SaveOutcome.file,
            atomicWriteConfig, if_true]
    | ldapUri uri =>
      exact Or.inr ⟨⟨rfl, trivial⟩, _, _, rfl,
        AgreeOutside.setKey (by unfold AgreeOutside.Owns; exact List.mem_singleton_self _) _⟩
    | bindCreds dn pw => exact Or.inr ⟨⟨rfl, trivial⟩, _, _, rfl, agreeOutside_bindCreds dn pw _⟩

/-- **When nothing is lost**: the rest of the file survives a writer exactly when the file holds a
document, or the file system refuses the write, or the checks do. -/
theorem writer_keeps_iff (env : Environment) (toml : TomlEdit) (probe : Str → AclProbeOutcome)
    (ok : Bool) (file : ConfFile) (w : ConfWriter) :
    Keeps toml w.owned file (w.run env toml probe ok file) ↔
      (file.document? toml).isSome ∨ ok = false ∨ ¬ w.Accepts env toml probe file := by
  rcases run_cases env toml probe ok file w with ⟨hno, hrun⟩ | ⟨⟨hok, hacc⟩, base, d', hrun, hagree⟩
  · refine iff_of_true (Or.inl hrun) (Or.inr ?_)
    rw [← Bool.not_eq_true]
    exact not_and_or.mp hno
  · have hdoc' : (w.run env toml probe ok file).document? toml = some d' := by
      rw [hrun, ConfFile.document?, toml.parse_render]
    constructor
    · rintro (heq | ⟨d, _, hd, -⟩)
      · rw [heq] at hdoc'
        exact Or.inl (by rw [hdoc']; rfl)
      · exact Or.inl (by rw [hd]; rfl)
    · rintro (hsome | hnok | hnacc)
      · obtain ⟨d, hd⟩ := Option.isSome_iff_exists.mp hsome
        rw [parseOrEmpty_of_document? hd] at hagree
        exact Or.inr ⟨d, d', hd, hdoc', hagree⟩
      · exact absurd (hok.symm.trans hnok) (by decide)
      · exact absurd hacc hnacc

/-- A file with a quote that is never closed. -/
def unclosedConf : ConfFile := .text "[storage]\ncontainer_root = \"/export\n".toList

/-- The library at work when the wizard saves its first URI. -/
noncomputable def firstUriToml : TomlEdit :=
  .ofTexts [("ldap_uri = \"ldaps://ldap.example\"\n".toList,
      applyLdapUri "ldaps://ldap.example".toList ∅)] (by decide) (by decide)

/-- Saving the URI leaves one line of the file: what it said about the storage is gone. -/
theorem not_keeps_unclosed :
    (ConfWriter.ldapUri "ldaps://ldap.example".toList).run .ascii firstUriToml
        (fun _ => ⟨"ext4".toList, .capable⟩) true unclosedConf =
      .text "ldap_uri = \"ldaps://ldap.example\"\n".toList ∧
    ¬ Keeps firstUriToml (ConfWriter.ldapUri "ldaps://ldap.example".toList).owned unclosedConf
      ((ConfWriter.ldapUri "ldaps://ldap.example".toList).run .ascii firstUriToml
        (fun _ => ⟨"ext4".toList, .capable⟩) true unclosedConf) := by
  have hnone : unclosedConf.document? firstUriToml = none := by
    exact TomlEdit.parse_ofTexts_eq_none (by decide) (by decide) (by decide)
  have hempty : parseOrEmpty firstUriToml unclosedConf = ∅ := by
    rw [parseOrEmpty, unclosedConf, ConfFile.readToString, Option.getD_some]
    rw [unclosedConf, ConfFile.document?] at hnone
    rw [hnone, Option.getD_none]
  have hrun : (ConfWriter.ldapUri "ldaps://ldap.example".toList).run .ascii firstUriToml
      (fun _ => ⟨"ext4".toList, .capable⟩) true unclosedConf =
      .text "ldap_uri = \"ldaps://ldap.example\"\n".toList := by
    rw [ConfWriter.run, writeLdapUri, hempty, atomicWriteConfig, if_pos rfl]
    exact congrArg ConfFile.text
      (TomlEdit.render_ofTexts (List.mem_singleton_self _) (List.nodup_singleton _) _)
  refine ⟨hrun, ?_⟩
  rw [hrun]
  rintro (heq | ⟨d, _, hd, -⟩)
  · exact absurd heq (by decide)
  · exact absurd (hnone.symm.trans hd) (by simp)

end NfsKlldap
