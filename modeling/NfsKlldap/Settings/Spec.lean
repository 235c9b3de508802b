import NfsKlldap.Settings.Shares

/-! # The scalar settings (`settings::spec`)

One `FieldSpec` row per setting drives both sides of a structured save: `fieldUpdate` says what a
submitted form does to the validated config, `fieldEdit` what it does to the document on disk. The
save validates the one and writes the other. -/

namespace NfsKlldap

open Text

/-- Typed value moved between form and config. -/
inductive FieldValue where
  | str (v : Option Str)
  | bool (v : Option Bool)
  | u16 (v : Option UInt16)
  deriving DecidableEq

/-- Persistence and behavior class of a field. -/
inductive FieldKind where
  /-- A submitted value is written verbatim. -/
  | text
  /-- A blank submission keeps the stored value. -/
  | password
  /-- An absent or unparsable port leaves both sides alone. -/
  | port
  /-- A blank submission clears; absent or unparsable leaves state alone. -/
  | u16OrClear
  /-- Checkbox persisted both ways on every save. -/
  | boolAlways
  /-- Auto/Custom text pair gated by `override_<name>`; Auto removes the key. -/
  | overrideText (removeWhenBlank : Bool)
  /-- Auto/Custom bool pair; Auto removes the key. -/
  | overrideBool
  /-- Auto/Custom select with a fixed default written when Auto or blank. -/
  | overrideSelect (default : Str)
  deriving DecidableEq

/-- One setting: its form input, where it lives in the document, and how the config takes it. -/
structure FieldSpec where
  name : Str
  sec : Str
  key : Str
  kind : FieldKind
  set : NfsKlldapConfig → FieldValue → NfsKlldapConfig

/-- Update `[sssd]`. -/
def NfsKlldapConfig.modifySssd (c : NfsKlldapConfig) (f : SssdSection → SssdSection) :
    NfsKlldapConfig :=
  { c with sssd := f c.sssd }

/-- The settings, in order. -/
def fields : List FieldSpec :=
  [ { name := "ldap_uri".toList, sec := [], key := "ldap_uri".toList, kind := .text
      set := fun c v => match v with
        | .str (some s) => { c with ldapUri := s }
        | _ => c },
    { name := "storage_container_root".toList, sec := "storage".toList
      key := "container_root".toList, kind := .text
      set := fun c v => match v with
        | .str (some s) => { c with storage := { containerRoot := s } }
        | _ => c },
    { name := "server_hostname".toList, sec := "server".toList, key := "hostname".toList
      kind := .overrideText false
      set := fun c v => match v with
        | .str s => { c with server := { hostname := s } }
        | _ => c },
    { name := "sssd_bind_dn".toList, sec := "sssd".toList, key := "ldap_default_bind_dn".toList
      kind := .text
      set := fun c v => match v with
        | .str (some s) => c.modifySssd fun x => { x with ldapDefaultBindDn := s }
        | _ => c },
    { name := "sssd_bind_pw".toList, sec := "sssd".toList, key := "ldap_default_authtok".toList
      kind := .password
      set := fun c v => match v with
        | .str (some s) => c.modifySssd fun x => { x with ldapDefaultAuthtok := s }
        | _ => c },
    { name := "sssd_port".toList, sec := "sssd".toList, key := "port".toList, kind := .port
      set := fun c v => match v with
        | .u16 (some p) => c.modifySssd fun x => { x with port := some p }
        | _ => c },
    { name := "sssd_search_base".toList, sec := "sssd".toList, key := "ldap_search_base".toList
      kind := .overrideText true
      set := fun c v => match v with
        | .str s => c.modifySssd fun x => { x with ldapSearchBase := s }
        | _ => c },
    { name := "sssd_user_base".toList, sec := "sssd".toList
      key := "ldap_user_search_base".toList, kind := .overrideText false
      set := fun c v => match v with
        | .str s => c.modifySssd fun x => { x with ldapUserSearchBase := s }
        | _ => c },
    { name := "sssd_group_base".toList, sec := "sssd".toList
      key := "ldap_group_search_base".toList, kind := .overrideText false
      set := fun c v => match v with
        | .str s => c.modifySssd fun x => { x with ldapGroupSearchBase := s }
        | _ => c },
    { name := "sssd_ldap_tls_reqcert".toList, sec := "sssd".toList
      key := "ldap_tls_reqcert".toList, kind := .overrideText true
      set := fun c v => match v with
        | .str s => c.modifySssd fun x => { x with ldapTlsReqcert := s }
        | _ => c },
    { name := "sssd_ldap_tls_cacert".toList, sec := "sssd".toList
      key := "ldap_tls_cacert".toList, kind := .overrideText true
      set := fun c v => match v with
        | .str s => c.modifySssd fun x => { x with ldapTlsCacert := s }
        | _ => c },
    { name := "sssd_ldap_id_use_start_tls".toList, sec := "sssd".toList
      key := "ldap_id_use_start_tls".toList, kind := .overrideBool
      set := fun c v => match v with
        | .bool b => c.modifySssd fun x => { x with ldapIdUseStartTls := b }
        | _ => c },
    { name := "sssd_enumerate".toList, sec := "sssd".toList, key := "enumerate".toList
      kind := .overrideBool
      set := fun c v => match v with
        | .bool b => c.modifySssd fun x => { x with enumerate := b }
        | _ => c },
    { name := "kllldap_ignored_attributes".toList, sec := "sssd".toList
      key := "kllldap_ignored_attributes".toList, kind := .boolAlways
      set := fun c v => match v with
        | .bool b => c.modifySssd fun x => { x with kllldapIgnoredAttributes := some (b.getD false) }
        | _ => c },
    { name := "navahi_discovery".toList, sec := [], key := "navahi_discovery".toList
      kind := .boolAlways
      set := fun c v => match v with
        | .bool b => { c with navahiDiscovery := b.getD false }
        | _ => c },
    { name := "kerberos_realm".toList, sec := "kerberos".toList, key := "realm".toList
      kind := .overrideText false
      set := fun c v => match v with
        | .str s => { c with kerberos := { realm := s } }
        | _ => c },
    { name := "ganesha_default_security".toList, sec := "ganesha".toList
      key := "default_security".toList, kind := .overrideSelect "krb5p".toList
      set := fun c v => match v with
        | .str (some s) => { c with ganesha := { c.ganesha with defaultSecurity := s } }
        | _ => c },
    { name := "webui_session_timeout_minutes".toList, sec := "webui".toList
      key := "session_timeout_minutes".toList, kind := .u16OrClear
      set := fun c v => match v with
        | .u16 p => { c with webui := { c.webui with sessionTimeoutMinutes := p } }
        | _ => c } ]

/-! ## Reading the form -/

/-- Checkbox truthiness: browsers submit `on`, the scripted saves use `true`. -/
def formFlag (form : SettingsForm) (name : Str) : Bool :=
  formStr form name = some "true".toList || formStr form name = some "on".toList

/-- A field as a yes or a no. -/
def formBool (form : SettingsForm) (name : Str) : Option Bool :=
  (formStr form name).map fun v => v = "true".toList || v = "on".toList

/-- The override checkbox of a field. -/
def overrideInput (name : Str) : Str := "override_".toList ++ name

/-- `trim().parse::<u16>()` -/
def parseU16 (v : Str) : Option UInt16 := (parseBits 16 (trim v)).map UInt16.ofNat

/-- A text as an optional setting. -/
def blankToNone (v : Str) : Option Str := if isBlank v then none else some v

/-- What a submitted form does to a field of the config; `none` leaves it alone. -/
def fieldUpdate (form : SettingsForm) (spec : FieldSpec) : Option FieldValue :=
  let overridden := formFlag form (overrideInput spec.name)
  match spec.kind with
  | .text => (formStr form spec.name).map fun v => .str (some v)
  | .password => ((formStr form spec.name).filter fun v => !isBlank v).map fun v => .str (some v)
  | .port => ((formStr form spec.name).bind parseU16).map fun p => .u16 (some p)
  | .u16OrClear => (formStr form spec.name).bind fun v =>
      if isBlank v then some (.u16 none) else (parseU16 v).map fun p => .u16 (some p)
  | .overrideText _ =>
      if overridden then (formStr form spec.name).map fun v => .str (blankToNone v) else none
  | .overrideBool => if overridden then some (.bool (formBool form spec.name)) else none
  | .boolAlways => some (.bool (some (formFlag form spec.name)))
  | .overrideSelect default =>
      if overridden then
        (formStr form spec.name).map fun v => .str (some (if isBlank v then default else v))
      else some (.str (some default))

/-- What a submitted form does to a key of the document: `none` leaves it alone, `some none` removes
it. -/
def fieldEdit (form : SettingsForm) (spec : FieldSpec) : Option (Option Leaf) :=
  let overridden := formFlag form (overrideInput spec.name)
  match spec.kind with
  | .text => (formStr form spec.name).map fun v => some (.str v)
  | .password => ((formStr form spec.name).filter fun v => !isBlank v).map fun v => some (.str v)
  | .port => ((formStr form spec.name).bind parseU16).map fun p => some (Leaf.ofU16 p)
  | .u16OrClear => (formStr form spec.name).bind fun v =>
      if isBlank v then some none else (parseU16 v).map fun p => some (Leaf.ofU16 p)
  | .overrideText removeWhenBlank =>
      if overridden then
        (formStr form spec.name).map fun v =>
          if isBlank v && removeWhenBlank then none else some (.str v)
      else some none
  | .overrideBool =>
      if overridden then some (some (.bool ((formBool form spec.name).getD false))) else some none
  | .boolAlways => some (some (.bool (formFlag form spec.name)))
  | .overrideSelect default =>
      if overridden then
        some (some (.str (((formStr form spec.name).filter fun v => !isBlank v).getD default)))
      else some (some (.str default))

/-! ## Both sides of a save -/

/-- `apply_field_to_config`. -/
def applyFieldToConfig (form : SettingsForm) (c : NfsKlldapConfig) (spec : FieldSpec) :
    NfsKlldapConfig :=
  match fieldUpdate form spec with
  | none => c
  | some v => spec.set c v

/-- `apply_field_to_toml_doc`. -/
def applyFieldToTomlDoc (form : SettingsForm) (d : Document) (spec : FieldSpec) : Document :=
  match fieldEdit form spec with
  | none => d
  | some none => d.removeKey spec.sec spec.key
  | some (some v) => d.setKey spec.sec spec.key v

/-- `apply_probe_form_to_config`. -/
def applyProbeFormToConfig (form : SettingsForm) (c : NfsKlldapConfig) : NfsKlldapConfig :=
  if formFlag form "auto_probe_ldap".toList then
    { c with probe := { userPrincipal := none, clientHost := none } }
  else
    { c with
      probe :=
        { userPrincipal :=
            ((formStr form "probe_user_principal".toList).map blankToNone).getD
              c.probe.userPrincipal
          clientHost :=
            ((formStr form "probe_client_host".toList).map blankToNone).getD c.probe.clientHost } }

/-- Persist one of the probe identities; `[probe]` is created when it is missing. -/
def applyProbeKey (form : SettingsForm) (key name : Str) (d : Document) : Document :=
  match formStr form name with
  | none => d
  | some v =>
    d.modifySection "probe".toList fun t => if isBlank v then t.erase key else t.insert key (.str v)

/-- Auto removes `[probe]`; otherwise the submitted identities are persisted, and an empty table
goes. -/
def applyProbeFormToTomlDoc (form : SettingsForm) (d : Document) : Document :=
  if formFlag form "auto_probe_ldap".toList then d.erase "probe".toList
  else
    let d := applyProbeKey form "user_principal".toList "probe_user_principal".toList d
    let d := applyProbeKey form "client_host".toList "probe_client_host".toList d
    if (d.lookup "probe".toList).bind Item.asTable = some ∅ then d.erase "probe".toList else d

/-- Apply the submitted form to the validated config side. -/
def applyStructuredFormToConfig (form : SettingsForm) (c : NfsKlldapConfig) : NfsKlldapConfig :=
  applyProbeFormToConfig form (fields.foldl (applyFieldToConfig form) c)

/-- Apply the submitted form to the on-disk document. -/
def applyStructuredFormToTomlDoc (form : SettingsForm) (d : Document) : Document :=
  applyProbeFormToTomlDoc form (fields.foldl (applyFieldToTomlDoc form) d)

/-- `settings_save_structured`. The file that cannot be read, parsed or validated counts as an empty
one. -/
def settingsSaveStructured (env : Environment) (toml : TomlEdit) (ok : Bool) (file : ConfFile)
    (form : SettingsForm) : SaveOutcome :=
  let text := file.readToString.getD []
  let cfg :=
    match loadText env toml text with
    | .ok c => c
    | .error _ => {}
  match validateAndDerive env (applyStructuredFormToConfig form cfg) with
  | .error e => .refused ("Validation error: ".toList ++ e.display)
  | .ok _ =>
    let content := toml.render text (applyStructuredFormToTomlDoc form (parseOrEmpty toml file))
    .written content (atomicWriteConfig ok file content)

end NfsKlldap
