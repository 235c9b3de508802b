import NfsKlldap.Settings.Edits
import NfsKlldap.Settings.RawOnly

/-! # Does a structured save persist what it validated?

A structured save reads its form twice. On the config that was loaded, which is derived already, it
finds what it validates; on the document it finds what it writes, and that is derived again when it is
loaded. The two part ways where a switch stands on Auto (the key goes from the document and stays in
the config), where a derived value has become explicit, and in sections that take no edit.

`Persists` lists, field by field, when they agree. **`structured_persists_iff`** says that these are
exactly the saves whose file loads and has the validated settings. -/

namespace NfsKlldap

open Text

/-! ## The settings -/

/-- The values of all fields, with the probe section, the realm and the search bases. -/
@[ext] structure Settings where
  ldapUri : Str
  containerRoot : Str
  hostname : Option Str
  bindDn : Str
  authtok : Str
  port : Option UInt16
  searchBase : Option Str
  userBase : Option Str
  groupBase : Option Str
  tlsReqcert : Option Str
  tlsCacert : Option Str
  startTls : Option Bool
  enumerate : Option Bool
  ignoredAttributes : Option Bool
  navahiDiscovery : Bool
  realm : Option Str
  defaultSecurity : Str
  sessionTimeout : Option UInt16
  probe : ProbeSection
  deriving DecidableEq

/-- The settings of a configuration. -/
def NfsKlldapConfig.settings (c : NfsKlldapConfig) : Settings where
  ldapUri := c.ldapUri
  containerRoot := c.storage.containerRoot
  hostname := c.server.hostname
  bindDn := c.sssd.ldapDefaultBindDn
  authtok := c.sssd.ldapDefaultAuthtok
  port := c.sssd.port
  searchBase := c.sssd.ldapSearchBase
  userBase := c.sssd.ldapUserSearchBase
  groupBase := c.sssd.ldapGroupSearchBase
  tlsReqcert := c.sssd.ldapTlsReqcert
  tlsCacert := c.sssd.ldapTlsCacert
  startTls := c.sssd.ldapIdUseStartTls
  enumerate := c.sssd.enumerate
  ignoredAttributes := c.sssd.kllldapIgnoredAttributes
  navahiDiscovery := c.navahiDiscovery
  realm := c.kerberos.realm
  defaultSecurity := c.ganesha.defaultSecurity
  sessionTimeout := c.webui.sessionTimeoutMinutes
  probe := c.probe

/-! ## Derivation, field by field -/

/-- The environment's bind DN. -/
def envBindDn (env : Environment) : Option Str :=
  (env.nonblank "NFS_KLLDAP_LLDAP_USER").or (env.nonblank "NFS_KLLDAP_SSSD_LDAP_DEFAULT_BIND_DN")

/-- The environment's bind password. -/
def envAuthtok (env : Environment) : Option Str :=
  (env.nonblank "NFS_KLLDAP_LLDAP_PW").or (env.nonblank "NFS_KLLDAP_SSSD_LDAP_DEFAULT_AUTHTOK")

/-- A blank text counts as its default. -/
def orDefault (dflt v : Str) : Str := if isBlank v then dflt else v

/-- The realm of a config with the URI `uri`. -/
def realmOf (env : Environment) (uri : Str) (realm : Option Str) : Option Str :=
  (env.nonblank "NFS_KLLDAP_KERBEROS_REALM").or
    (realm.or (deriveRealmFromUri env.toCaseMapping uri))

/-- The search base users and groups are looked for in by default. -/
def mainBase (env : Environment) (searchBase realm : Option Str) : Str :=
  (nonblank searchBase).getD (baseDn env (realm.getD []))

/-- `derive_security` as an update of one record. -/
theorem deriveSecurity_eq (c : NfsKlldapConfig) :
    deriveSecurity c =
      { c with
        ganesha :=
          { c.ganesha with
            defaultSecurity := orDefault NfsKlldap.defaultSecurity c.ganesha.defaultSecurity } } :=
  deriveSecurity_eq_ite c

/-- `derive_container_root` as an update of one record. -/
theorem deriveContainerRoot_eq (c : NfsKlldapConfig) :
    deriveContainerRoot c =
      { c with
        storage := { containerRoot := orDefault defaultContainerRoot c.storage.containerRoot } } :=
  deriveContainerRoot_eq_ite c

/-- What the settings of a config are once it is derived. -/
def derivedSettings (env : Environment) (c : NfsKlldapConfig) : Settings :=
  let uri := (env.nonblank "NFS_KLLDAP_LDAP_URI").getD c.ldapUri
  let realm := realmOf env uri c.kerberos.realm
  let searchBase := normalizeBlank c.sssd.ldapSearchBase
  { ldapUri := uri
    containerRoot := orDefault defaultContainerRoot
      ((env.nonblank "NFS_KLLDAP_STORAGE_CONTAINER_ROOT").getD c.storage.containerRoot)
    hostname := env.replacing "NFS_KLLDAP_SERVER_HOSTNAME" c.server.hostname
    bindDn := (envBindDn env).getD c.sssd.ldapDefaultBindDn
    authtok := (envAuthtok env).getD c.sssd.ldapDefaultAuthtok
    port := c.sssd.port.or (some (portOfUri uri))
    searchBase := searchBase
    userBase := (normalizeBlank c.sssd.ldapUserSearchBase).or (some (mainBase env searchBase realm))
    groupBase := (normalizeBlank c.sssd.ldapGroupSearchBase).or (some (mainBase env searchBase realm))
    tlsReqcert := normalizeBlank
      ((env.nonblank "NFS_KLLDAP_SSSD_LDAP_TLS_REQCERT").or c.sssd.ldapTlsReqcert)
    tlsCacert := normalizeBlank
      ((env.nonblank "NFS_KLLDAP_SSSD_LDAP_TLS_CACERT").or c.sssd.ldapTlsCacert)
    startTls := (env.flag "NFS_KLLDAP_SSSD_LDAP_ID_USE_START_TLS").or c.sssd.ldapIdUseStartTls
    enumerate := c.sssd.enumerate
    ignoredAttributes := (env.flag "NFS_KLLDAP_SSSD_KLLLDAP_IGNORED_ATTRIBUTES").or
      c.sssd.kllldapIgnoredAttributes
    navahiDiscovery := c.navahiDiscovery
    realm := realm
    defaultSecurity := orDefault NfsKlldap.defaultSecurity
      ((env.nonblank "NFS_KLLDAP_GANESHA_DEFAULT_SECURITY").getD c.ganesha.defaultSecurity)
    sessionTimeout := c.webui.sessionTimeoutMinutes
    probe := c.probe }

/-- **The settings of a derived configuration are the derived settings.** -/
theorem settings_derived (env : Environment) (c : NfsKlldapConfig) :
    (derived env c).settings = derivedSettings env c := by
  have hrealm : (env.nonblank "NFS_KLLDAP_KERBEROS_REALM").or
      (((env.nonblank "NFS_KLLDAP_KERBEROS_REALM").or c.kerberos.realm).or
        (deriveRealmFromUri env.toCaseMapping
          ((env.nonblank "NFS_KLLDAP_LDAP_URI").getD c.ldapUri))) =
      realmOf env ((env.nonblank "NFS_KLLDAP_LDAP_URI").getD c.ldapUri) c.kerberos.realm := by
    rw [realmOf]
    cases env.nonblank "NFS_KLLDAP_KERBEROS_REALM" <;> rfl
  rw [derived, deriveContainerRoot_eq, deriveSecurity_eq, derivedSettings, ← hrealm]
  rfl

/-! ## What a form asks for -/

section Requested

variable (form : SettingsForm) (name : Str)

/-- The text of an Auto/Custom pair: Auto keeps the old one. -/
def requestedText (old : Option Str) : Option Str :=
  if custom form name then (formStr form name).elim old blankToNone else old

/-- The yes or no of an Auto/Custom pair. -/
def requestedBool (old : Option Bool) : Option Bool :=
  if custom form name then formBool form name else old

/-- The choice of an Auto/Custom select: Auto is the default. -/
def requestedSelect (dflt old : Str) : Str :=
  if custom form name then (formStr form name).elim old (orDefault dflt) else dflt

/-- The probe identities. -/
def requestedProbe (old : ProbeSection) : ProbeSection :=
  if formFlag form "auto_probe_ldap".toList then {}
  else
    { userPrincipal :=
        (formStr form "probe_user_principal".toList).elim old.userPrincipal blankToNone
      clientHost := (formStr form "probe_client_host".toList).elim old.clientHost blankToNone }

end Requested

section Update

variable (form : SettingsForm) (c : NfsKlldapConfig) {f : FieldSpec}

/-- A plain text field takes over what is submitted. -/
theorem update_text (hkind : f.kind = .text) {u : Str → NfsKlldapConfig} {x : Str}
    (hset : ∀ v, f.set c (.str (some v)) = u v) (hx : u x = c) :
    applyFieldToConfig form c f = u ((formStr form f.name).getD x) := by
  unfold applyFieldToConfig fieldUpdate
  rw [hkind]
  cases formStr form f.name with
  | none => exact hx.symm
  | some v => exact hset v

/-- A password field takes over what is submitted and not blank. -/
theorem update_password (hkind : f.kind = .password) {u : Str → NfsKlldapConfig} {x : Str}
    (hset : ∀ v, f.set c (.str (some v)) = u v) (hx : u x = c) :
    applyFieldToConfig form c f = u ((nonblank (formStr form f.name)).getD x) := by
  have hupdate : fieldUpdate form f =
      (nonblank (formStr form f.name)).map fun v => FieldValue.str (some v) := by
    rw [fieldUpdate, hkind]
    rfl
  rw [applyFieldToConfig, hupdate]
  cases nonblank (formStr form f.name) with
  | none => exact hx.symm
  | some v => exact hset v

/-- A port takes over a submission that parses. -/
theorem update_port (hkind : f.kind = .port) {u : Option UInt16 → NfsKlldapConfig}
    {x : Option UInt16} (hset : ∀ p, f.set c (.u16 (some p)) = u (some p)) (hx : u x = c) :
    applyFieldToConfig form c f = u (((formStr form f.name).bind parseU16).or x) := by
  have hupdate : fieldUpdate form f =
      ((formStr form f.name).bind parseU16).map fun p => FieldValue.u16 (some p) := by
    rw [fieldUpdate, hkind]
  rw [applyFieldToConfig, hupdate]
  cases (formStr form f.name).bind parseU16 with
  | none => exact hx.symm
  | some p => exact hset p

/-- A clearable number takes over a submission that parses, and a blank one clears it. -/
theorem update_u16OrClear (hkind : f.kind = .u16OrClear) {u : Option UInt16 → NfsKlldapConfig}
    {x : Option UInt16} (hset : ∀ p, f.set c (.u16 p) = u p) (hx : u x = c) :
    applyFieldToConfig form c f = u ((clearableU16 form f.name).getD x) := by
  unfold applyFieldToConfig fieldUpdate clearableU16
  rw [hkind]
  cases formStr form f.name with
  | none => exact hx.symm
  | some v =>
    dsimp only [Option.bind_some]
    cases isBlank v with
    | true => exact hset none
    | false =>
      cases parseU16 v with
      | none => exact hx.symm
      | some p => exact hset (some p)

/-- An Auto/Custom text becomes what the form asks for. -/
theorem update_overrideText {b : Bool} (hkind : f.kind = .overrideText b)
    {u : Option Str → NfsKlldapConfig} {x : Option Str} (hset : ∀ v, f.set c (.str v) = u v)
    (hx : u x = c) :
    applyFieldToConfig form c f = u (requestedText form f.name x) := by
  unfold applyFieldToConfig fieldUpdate requestedText custom
  rw [hkind]
  cases formFlag form (overrideInput f.name) with
  | true =>
    cases formStr form f.name with
    | none => exact hx.symm
    | some v => exact hset (blankToNone v)
  | false => exact hx.symm

/-- An Auto/Custom yes or no becomes what the form asks for. -/
theorem update_overrideBool (hkind : f.kind = .overrideBool)
    {u : Option Bool → NfsKlldapConfig} {x : Option Bool} (hset : ∀ v, f.set c (.bool v) = u v)
    (hx : u x = c) :
    applyFieldToConfig form c f = u (requestedBool form f.name x) := by
  unfold applyFieldToConfig fieldUpdate requestedBool custom
  rw [hkind]
  cases formFlag form (overrideInput f.name) with
  | true => exact hset (formBool form f.name)
  | false => exact hx.symm

/-- A check box becomes what the form says. -/
theorem update_boolAlways (hkind : f.kind = .boolAlways) {u : Bool → NfsKlldapConfig}
    (hset : ∀ v, f.set c (.bool (some v)) = u v) :
    applyFieldToConfig form c f = u (formFlag form f.name) := by
  unfold applyFieldToConfig fieldUpdate
  rw [hkind]
  exact hset _

/-- An Auto/Custom choice becomes what the form asks for. -/
theorem update_overrideSelect {dflt : Str} (hkind : f.kind = .overrideSelect dflt)
    {u : Str → NfsKlldapConfig} {x : Str} (hset : ∀ v, f.set c (.str (some v)) = u v)
    (hx : u x = c) :
    applyFieldToConfig form c f = u (requestedSelect form f.name dflt x) := by
  unfold applyFieldToConfig fieldUpdate requestedSelect custom
  rw [hkind]
  cases formFlag form (overrideInput f.name) with
  | true =>
    cases formStr form f.name with
    | none => exact hx.symm
    | some v => exact hset (orDefault dflt v)
  | false => exact hset dflt

end Update

section Requested

variable (form : SettingsForm) (c : NfsKlldapConfig)

/-- The config a form asks for. -/
def requestedSettings : NfsKlldapConfig :=
  { c with
    ldapUri := (formStr form "ldap_uri".toList).getD c.ldapUri
    storage :=
      { containerRoot := (formStr form "storage_container_root".toList).getD c.storage.containerRoot }
    server := { hostname := requestedText form "server_hostname".toList c.server.hostname }
    sssd :=
      { c.sssd with
        ldapDefaultBindDn := (formStr form "sssd_bind_dn".toList).getD c.sssd.ldapDefaultBindDn
        ldapDefaultAuthtok :=
          (nonblank (formStr form "sssd_bind_pw".toList)).getD c.sssd.ldapDefaultAuthtok
        port := ((formStr form "sssd_port".toList).bind parseU16).or c.sssd.port
        ldapSearchBase := requestedText form "sssd_search_base".toList c.sssd.ldapSearchBase
        ldapUserSearchBase := requestedText form "sssd_user_base".toList c.sssd.ldapUserSearchBase
        ldapGroupSearchBase := requestedText form "sssd_group_base".toList c.sssd.ldapGroupSearchBase
        ldapTlsReqcert := requestedText form "sssd_ldap_tls_reqcert".toList c.sssd.ldapTlsReqcert
        ldapTlsCacert := requestedText form "sssd_ldap_tls_cacert".toList c.sssd.ldapTlsCacert
        ldapIdUseStartTls :=
          requestedBool form "sssd_ldap_id_use_start_tls".toList c.sssd.ldapIdUseStartTls
        enumerate := requestedBool form "sssd_enumerate".toList c.sssd.enumerate
        kllldapIgnoredAttributes := some (formFlag form "kllldap_ignored_attributes".toList) }
    navahiDiscovery := formFlag form "navahi_discovery".toList
    kerberos := { realm := requestedText form "kerberos_realm".toList c.kerberos.realm }
    ganesha :=
      { c.ganesha with
        defaultSecurity := requestedSelect form "ganesha_default_security".toList
          NfsKlldap.defaultSecurity c.ganesha.defaultSecurity }
    webui :=
      { c.webui with
        sessionTimeoutMinutes :=
          (clearableU16 form "webui_session_timeout_minutes".toList).getD
            c.webui.sessionTimeoutMinutes }
    probe := requestedProbe form c.probe }

/-- The probe part of a form updates the probe section alone. -/
theorem applyProbeFormToConfig_eq :
    applyProbeFormToConfig form c = { c with probe := requestedProbe form c.probe } := by
  unfold applyProbeFormToConfig requestedProbe
  split
  · rfl
  · cases formStr form "probe_user_principal".toList <;>
      cases formStr form "probe_client_host".toList <;> rfl

/-- **A form updates a configuration to what it asks for.** -/
theorem applyStructuredFormToConfig_eq :
    applyStructuredFormToConfig form c = requestedSettings form c := by
  -- one setting after the other
  have h0 := fun c => update_text form c (f := fields[0]) rfl
    (u := fun v => { c with ldapUri := v }) (fun _ => rfl) rfl
  have h1 := fun c => update_text form c (f := fields[1]) rfl
    (u := fun v => { c with storage := { containerRoot := v } }) (fun _ => rfl) rfl
  have h2 := fun c => update_overrideText form c (f := fields[2]) rfl
    (u := fun v => { c with server := { hostname := v } }) (fun _ => rfl) rfl
  have h3 := fun c => update_text form c (f := fields[3]) rfl
    (u := fun v => c.modifySssd fun x => { x with ldapDefaultBindDn := v }) (fun _ => rfl) rfl
  have h4 := fun c => update_password form c (f := fields[4]) rfl
    (u := fun v => c.modifySssd fun x => { x with ldapDefaultAuthtok := v }) (fun _ => rfl) rfl
  have h5 := fun c => update_port form c (f := fields[5]) rfl
    (u := fun v => c.modifySssd fun x => { x with port := v }) (fun _ => rfl) rfl
  have h6 := fun c => update_overrideText form c (f := fields[6]) rfl
    (u := fun v => c.modifySssd fun x => { x with ldapSearchBase := v }) (fun _ => rfl) rfl
  have h7 := fun c => update_overrideText form c (f := fields[7]) rfl
    (u := fun v => c.modifySssd fun x => { x with ldapUserSearchBase := v }) (fun _ => rfl) rfl
  have h8 := fun c => update_overrideText form c (f := fields[8]) rfl
    (u := fun v => c.modifySssd fun x => { x with ldapGroupSearchBase := v }) (fun _ => rfl) rfl
  have h9 := fun c => update_overrideText form c (f := fields[9]) rfl
    (u := fun v => c.modifySssd fun x => { x with ldapTlsReqcert := v }) (fun _ => rfl) rfl
  have h10 := fun c => update_overrideText form c (f := fields[10]) rfl
    (u := fun v => c.modifySssd fun x => { x with ldapTlsCacert := v }) (fun _ => rfl) rfl
  have h11 := fun c => update_overrideBool form c (f := fields[11]) rfl
    (u := fun v => c.modifySssd fun x => { x with ldapIdUseStartTls := v }) (fun _ => rfl) rfl
  have h12 := fun c => update_overrideBool form c (f := fields[12]) rfl
    (u := fun v => c.modifySssd fun x => { x with enumerate := v }) (fun _ => rfl) rfl
  have h13 := fun c => update_boolAlways form c (f := fields[13]) rfl
    (u := fun v => c.modifySssd fun x => { x with kllldapIgnoredAttributes := some v }) (fun _ => rfl)
  have h14 := fun c => update_boolAlways form c (f := fields[14]) rfl
    (u := fun v => { c with navahiDiscovery := v }) (fun _ => rfl)
  have h15 := fun c => update_overrideText form c (f := fields[15]) rfl
    (u := fun v => { c with kerberos := { realm := v } }) (fun _ => rfl) rfl
  have h16 := fun c => update_overrideSelect form c (f := fields[16]) rfl
    (u := fun v => { c with ganesha := { c.ganesha with defaultSecurity := v } }) (fun _ => rfl) rfl
  have h17 := fun c => update_u16OrClear form c (f := fields[17]) rfl
    (u := fun v => { c with webui := { c.webui with sessionTimeoutMinutes := v } }) (fun _ => rfl) rfl
  have hfold : fields.foldl (applyFieldToConfig form) c =
      applyFieldToConfig form (applyFieldToConfig form (applyFieldToConfig form
        (applyFieldToConfig form (applyFieldToConfig form (applyFieldToConfig form
        (applyFieldToConfig form (applyFieldToConfig form (applyFieldToConfig form
        (applyFieldToConfig form (applyFieldToConfig form (applyFieldToConfig form
        (applyFieldToConfig form (applyFieldToConfig form (applyFieldToConfig form
        (applyFieldToConfig form (applyFieldToConfig form (applyFieldToConfig form c fields[0])
          fields[1]) fields[2]) fields[3]) fields[4]) fields[5]) fields[6]) fields[7]) fields[8])
          fields[9]) fields[10]) fields[11]) fields[12]) fields[13]) fields[14]) fields[15])
          fields[16]) fields[17] := rfl
  rw [applyStructuredFormToConfig, applyProbeFormToConfig_eq, hfold, h0, h1, h2, h3, h4, h5, h6, h7,
    h8, h9, h10, h11, h12, h13, h14, h15, h16, h17]
  rfl

end Requested

/-! ## What the document then says -/

/-- The config of a well-typed document. -/
def configOf (d : Document) (shares : List Share) : NfsKlldapConfig where
  ldapUri := (d.str? [] "ldap_uri".toList).getD []
  navahiDiscovery := (d.bool? [] "navahi_discovery".toList).getD false
  storage := decodeStorage d
  server := decodeServer d
  sssd := decodeSssd d
  kerberos := decodeKerberos d
  ganesha := decodeGanesha d
  management := decodeManagement d
  probe := decodeProbe d
  host := decodeHost d
  webui := decodeWebui d
  shares := shares

/-- A document is decoded exactly when it is well typed and its shares are decoded. -/
theorem decodeConfig_eq_some_iff {d : Document} {c : NfsKlldapConfig} :
    decodeConfig d = some c ↔
      d.wellTyped = true ∧ ∃ shares, decodeShares d = some shares ∧ c = configOf d shares := by
  unfold decodeConfig
  split
  · next h => simp [h, configOf, eq_comm]
  · next h => simp [h]

section Saved

variable (form : SettingsForm) (d : Document)

/-- A structured edit leaves the shares. -/
theorem decodeShares_structured :
    decodeShares (applyStructuredFormToTomlDoc form d) = decodeShares d := by
  have hlookup : (applyStructuredFormToTomlDoc form d).lookup "shares".toList =
      d.lookup "shares".toList := by
    rw [applyStructuredFormToTomlDoc, lookup_applyProbeForm form _ (by decide)]
    exact lookup_foldl_fields (by decide +kernel)
  rw [decodeShares, hlookup, decodeShares]

/-- A default hides whether the section is there at all. -/
theorem orDefault_strOr {dflt : Str} (h : isBlank dflt = false) (e : Option Str) {sec : Str}
    (hsec : sec ≠ []) (key : Str) :
    orDefault dflt (e.getD (d.strOr sec key dflt)) =
      orDefault dflt (e.getD ((d.str? sec key).getD dflt)) := by
  cases e with
  | some w => rfl
  | none =>
    rw [Option.getD_none, Option.getD_none, Document.strOr]
    by_cases hsome : (d.lookup sec).isSome = true
    · rw [if_pos hsome]
    rw [if_neg hsome]
    have hnone := hsome
    have hstr : d.str? sec key = none := by
      rw [Document.str?, Document.get?, if_neg hsec, Option.not_isSome_iff_eq_none.mp hnone]
      rfl
    have hnil : isBlank [] = true := rfl
    rw [hstr, Option.getD_none, orDefault, orDefault, hnil, h, if_pos rfl,
      if_neg Bool.false_ne_true]

variable {n : Nat} (hn : n < fields.length)

/-- The text of a field after the whole edit is that after its own. -/
theorem str?_structured :
    (applyStructuredFormToTomlDoc form d).str? fields[n].sec fields[n].key =
      (editedLeaf form d fields[n]).bind Leaf.str? :=
  congrArg (·.bind Leaf.str?) (get?_structured form d (List.getElem_mem hn))

/-- So is the boolean. -/
theorem bool?_structured :
    (applyStructuredFormToTomlDoc form d).bool? fields[n].sec fields[n].key =
      (editedLeaf form d fields[n]).bind Leaf.bool? :=
  congrArg (·.bind Leaf.bool?) (get?_structured form d (List.getElem_mem hn))

/-- So is the number. -/
theorem u16?_structured :
    (applyStructuredFormToTomlDoc form d).u16? fields[n].sec fields[n].key =
      (editedLeaf form d fields[n]).bind Leaf.u16? :=
  congrArg (·.bind Leaf.u16?) (get?_structured form d (List.getElem_mem hn))

end Saved

/-! ## When the two agree -/

/-- A condition by cases on an option is decidable when both are. -/
instance decidableElim {α : Type} (o : Option α) (p : Prop) (q : α → Prop) [Decidable p]
    [∀ a, Decidable (q a)] : Decidable (o.elim p q) :=
  match o with
  | none => inferInstanceAs (Decidable p)
  | some a => inferInstanceAs (Decidable (q a))

/-- The URI a form asks for. -/
def newUri (env : Environment) (s : Settings) (form : SettingsForm) : Str :=
  (env.nonblank "NFS_KLLDAP_LDAP_URI").getD ((formStr form "ldap_uri".toList).getD s.ldapUri)

/-- The realm a form asks for. -/
def newRealm (env : Environment) (s : Settings) (form : SettingsForm) : Option Str :=
  realmOf env (newUri env s form) (requestedText form "kerberos_realm".toList s.realm)

/-- The default search base a form asks for. -/
def newBase (env : Environment) (s : Settings) (form : SettingsForm) : Str :=
  mainBase env (normalizeBlank (requestedText form "sssd_search_base".toList s.searchBase))
    (newRealm env s form)

/-- An Auto/Custom text that a blank submission clears: nothing was set before Auto, and an inline
section has what is submitted. -/
def TextKept (form : SettingsForm) (name : Str) (editable : Prop) (old : Option Str) : Prop :=
  if custom form name then
    editable ∨ ∀ v ∈ formStr form name, old = normalizeBlank (some v)
  else editable → old = none

/-- An Auto/Custom yes or no: Custom comes with its value. -/
def BoolKept (form : SettingsForm) (name : Str) (editable : Prop) (old : Option Bool) : Prop :=
  if custom form name then
    (editable → (formStr form name).isSome) ∧ (¬ editable → old = formBool form name)
  else editable → old = none

/-- A search base of users or groups. `explicit` is the one in the document, `base` the default: what
is left to derivation is derived as before. -/
def BaseKept (form : SettingsForm) (name : Str) (editable : Prop) (base : Str)
    (explicit old : Option Str) : Prop :=
  if custom form name then
    (formStr form name).elim ((normalizeBlank explicit).or (some base) = normalizeBlank old) fun v =>
      editable ∨ (normalizeBlank explicit).or (some base) = (normalizeBlank (some v)).or (some base)
  else
    (editable → some base = normalizeBlank old) ∧
      (¬ editable → (normalizeBlank explicit).or (some base) = normalizeBlank old)

/-- A structured save of `form` over the document `d` with the loaded settings `s` **persists what it
validates**. What the environment decides does not matter. -/
structure Persists (env : Environment) (s : Settings) (d : Document) (form : SettingsForm) : Prop where
  containerRoot : (env.nonblank "NFS_KLLDAP_STORAGE_CONTAINER_ROOT").isSome ∨
    d.Editable "storage".toList ∨
    ∀ v ∈ formStr form "storage_container_root".toList,
      s.containerRoot = orDefault defaultContainerRoot v
  /-- A Custom host name is not blank. -/
  hostname : (env.var "NFS_KLLDAP_SERVER_HOSTNAME".toList).isSome ∨
    if custom form "server_hostname".toList then
      ∀ v ∈ formStr form "server_hostname".toList,
        (d.Editable "server".toList → isBlank v = false) ∧
          (¬ d.Editable "server".toList → s.hostname = blankToNone v)
    else d.Editable "server".toList → s.hostname = none
  bindDn : (envBindDn env).isSome ∨ d.Editable "sssd".toList ∨
    ∀ v ∈ formStr form "sssd_bind_dn".toList, s.bindDn = v
  authtok : (envAuthtok env).isSome ∨ d.Editable "sssd".toList ∨
    ∀ v ∈ nonblank (formStr form "sssd_bind_pw".toList), s.authtok = v
  /-- A port that is not submitted is explicit, or the scheme stays. -/
  port : ((formStr form "sssd_port".toList).bind parseU16).elim
    ((d.u16? "sssd".toList "port".toList).isSome ∨
      portOfUri (newUri env s form) = portOfUri s.ldapUri)
    fun p => d.Editable "sssd".toList ∨
      (d.u16? "sssd".toList "port".toList).or (some (portOfUri (newUri env s form))) = some p
  searchBase : TextKept form "sssd_search_base".toList (d.Editable "sssd".toList) s.searchBase
  userBase : BaseKept form "sssd_user_base".toList (d.Editable "sssd".toList) (newBase env s form)
    (d.str? "sssd".toList "ldap_user_search_base".toList) s.userBase
  groupBase : BaseKept form "sssd_group_base".toList (d.Editable "sssd".toList) (newBase env s form)
    (d.str? "sssd".toList "ldap_group_search_base".toList) s.groupBase
  tlsReqcert : (env.nonblank "NFS_KLLDAP_SSSD_LDAP_TLS_REQCERT").isSome ∨
    TextKept form "sssd_ldap_tls_reqcert".toList (d.Editable "sssd".toList) s.tlsReqcert
  tlsCacert : (env.nonblank "NFS_KLLDAP_SSSD_LDAP_TLS_CACERT").isSome ∨
    TextKept form "sssd_ldap_tls_cacert".toList (d.Editable "sssd".toList) s.tlsCacert
  startTls : (env.flag "NFS_KLLDAP_SSSD_LDAP_ID_USE_START_TLS").isSome ∨
    BoolKept form "sssd_ldap_id_use_start_tls".toList (d.Editable "sssd".toList) s.startTls
  enumerate : BoolKept form "sssd_enumerate".toList (d.Editable "sssd".toList) s.enumerate
  ignoredAttributes : (env.flag "NFS_KLLDAP_SSSD_KLLLDAP_IGNORED_ATTRIBUTES").isSome ∨
    d.Editable "sssd".toList ∨
    s.ignoredAttributes = some (formFlag form "kllldap_ignored_attributes".toList)
  /-- A Custom realm is not blank, and one that is left to derivation is derived as before. -/
  realm : (env.nonblank "NFS_KLLDAP_KERBEROS_REALM").isSome ∨
    if custom form "kerberos_realm".toList then
      (formStr form "kerberos_realm".toList).elim
        ((d.str? "kerberos".toList "realm".toList).isSome ∨
          deriveRealmFromUri env.toCaseMapping (newUri env s form) = s.realm)
        fun v =>
          (d.Editable "kerberos".toList → isBlank v = false) ∧
            (¬ d.Editable "kerberos".toList →
              (d.str? "kerberos".toList "realm".toList).or
                  (deriveRealmFromUri env.toCaseMapping (newUri env s form)) =
                (blankToNone v).or (deriveRealmFromUri env.toCaseMapping (newUri env s form)))
    else
      ¬ d.Editable "kerberos".toList ∧ (d.str? "kerberos".toList "realm".toList).isSome ∨
        deriveRealmFromUri env.toCaseMapping (newUri env s form) = s.realm
  defaultSecurity : (env.nonblank "NFS_KLLDAP_GANESHA_DEFAULT_SECURITY").isSome ∨
    if custom form "ganesha_default_security".toList then
      (formStr form "ganesha_default_security".toList).elim
        (d.Editable "ganesha".toList → s.defaultSecurity = NfsKlldap.defaultSecurity)
        fun v => d.Editable "ganesha".toList ∨
          s.defaultSecurity = orDefault NfsKlldap.defaultSecurity v
    else d.Editable "ganesha".toList ∨ s.defaultSecurity = NfsKlldap.defaultSecurity
  sessionTimeout : d.Editable "webui".toList ∨
    ∀ p ∈ clearableU16 form "webui_session_timeout_minutes".toList, s.sessionTimeout = p
  probe : formFlag form "auto_probe_ldap".toList = true ∨ d.Editable "probe".toList ∨
    (∀ v ∈ formStr form "probe_user_principal".toList, s.probe.userPrincipal = blankToNone v) ∧
      ∀ v ∈ formStr form "probe_client_host".toList, s.probe.clientHost = blankToNone v

/-! ## Kind by kind -/

section Kinds

variable {E : Prop} [Decidable E]

/-- A default that is not blank is applied once. -/
@[simp] theorem orDefault_orDefault {dflt : Str} (h : isBlank dflt = false) (v : Str) :
    orDefault dflt (orDefault dflt v) = orDefault dflt v := by
  unfold orDefault
  cases hv : isBlank v with
  | true => rw [if_pos rfl, h, if_neg Bool.false_ne_true]
  | false => rw [if_neg Bool.false_ne_true, hv, if_neg Bool.false_ne_true]

/-- Nothing stays nothing. -/
theorem normalizeBlank_none : normalizeBlank none = none := rfl

/-- Clearing a blank text first makes no difference. -/
theorem normalizeBlank_blankToNone (v : Str) :
    normalizeBlank (blankToNone v) = normalizeBlank (some v) := by
  unfold blankToNone
  cases hv : isBlank v with
  | true => simp [normalizeBlank, hv]
  | false => rfl

/-- A text that is submitted as it is; `e` is what the environment says. -/
theorem plain_kept_iff (e sub x : Option Str) :
    e.getD ((if E then sub.or x else x).getD []) = e.getD (sub.getD (e.getD (x.getD []))) ↔
      e.isSome ∨ E ∨ ∀ v ∈ sub, e.getD (x.getD []) = v := by
  cases e with
  | some w => simp
  | none =>
    simp only [Option.getD_none, Option.isSome_none, Bool.false_eq_true, false_or]
    cases sub with
    | none => simp
    | some v =>
      by_cases hE : E
      · simp [hE]
      · simp [hE]

/-- A text with a default. -/
theorem default_kept_iff {dflt : Str} (h : isBlank dflt = false) (e sub x : Option Str) :
    orDefault dflt (e.getD ((if E then sub.or x else x).getD dflt)) =
        orDefault dflt (e.getD (sub.getD (orDefault dflt (e.getD (x.getD dflt))))) ↔
      e.isSome ∨ E ∨ ∀ v ∈ sub, orDefault dflt (e.getD (x.getD dflt)) = orDefault dflt v := by
  cases e with
  | some w => simp
  | none =>
    simp only [Option.getD_none, Option.isSome_none, Bool.false_eq_true, false_or]
    cases sub with
    | none => simp [h]
    | some v =>
      by_cases hE : E
      · simp [hE]
      · simp [hE]

/-- A host name, which Auto clears and a blank Custom one too. -/
theorem hostname_kept_iff (masked cus : Bool) (w sub x : Option Str) :
    (if masked then w else (if E then if cus then sub.elim x some else none else x)) =
        (if masked then w else if cus then
          sub.elim (if masked then w else x) blankToNone else if masked then w else x) ↔
      masked = true ∨
        if cus then ∀ v ∈ sub, (E → isBlank v = false) ∧
          (¬ E → (if masked then w else x) = blankToNone v)
        else E → (if masked then w else x) = none := by
  cases masked with
  | true => simp
  | false =>
    simp only [Bool.false_eq_true, if_false, false_or]
    cases cus with
    | false =>
      by_cases hE : E
      · simp [hE, eq_comm]
      · simp [hE]
    | true =>
      cases sub with
      | none => simp
      | some v =>
        by_cases hE : E
        · by_cases hv : isBlank v = true
          · simp [hE, blankToNone, hv]
          · simp [hE, blankToNone, hv]
        · simp [hE]

/-- A port, with the one of the scheme as its default. -/
theorem port_kept_iff (sub x : Option UInt16) (p q : UInt16) :
    (if E then sub.or x else x).or (some q) = (sub.or (x.or (some p))).or (some q) ↔
      sub.elim (x.isSome ∨ q = p) fun v => E ∨ x.or (some q) = some v := by
  cases sub with
  | none =>
    cases x with
    | none => simp
    | some y => simp
  | some v =>
    by_cases hE : E
    · simp [hE]
    · simp [hE]

/-- An Auto/Custom text that the environment may decide. -/
theorem text_kept_iff (form : SettingsForm) (name : Str) (e x : Option Str) :
    normalizeBlank (e.or (if E then if custom form name then
          (formStr form name).elim x fun v => if isBlank v && true then none else some v
        else none else x)) =
        normalizeBlank (e.or (requestedText form name (normalizeBlank (e.or x)))) ↔
      e.isSome ∨ TextKept form name E (normalizeBlank (e.or x)) := by
  unfold TextKept requestedText
  cases e with
  | some w => simp
  | none =>
    simp only [Option.none_or, Option.isSome_none, Bool.false_eq_true, false_or, Bool.and_true]
    cases custom form name with
    | false =>
      by_cases hE : E
      · simpa [hE, normalizeBlank_none] using eq_comm
      · simp [hE]
    | true =>
      cases formStr form name with
      | none => simp
      | some v =>
        have hblank : normalizeBlank (if isBlank v = true then none else some v) =
            normalizeBlank (some v) := normalizeBlank_blankToNone v
        by_cases hE : E
        · simp [hE, hblank, normalizeBlank_blankToNone]
        · simp [hE, normalizeBlank_blankToNone]

/-- An Auto/Custom yes or no that the environment may decide. -/
theorem bool_kept_iff (form : SettingsForm) (name : Str) (e x : Option Bool) :
    e.or (if E then if custom form name then some ((formBool form name).getD false) else none
        else x) = e.or (requestedBool form name (e.or x)) ↔
      e.isSome ∨ BoolKept form name E (e.or x) := by
  unfold BoolKept requestedBool
  cases e with
  | some w => simp
  | none =>
    simp only [Option.none_or, Option.isSome_none, Bool.false_eq_true, false_or]
    cases custom form name with
    | false =>
      by_cases hE : E
      · simp [hE, eq_comm]
      · simp [hE]
    | true =>
      by_cases hE : E
      · cases hv : formStr form name <;> simp [hE, formBool, hv]
      · simp [hE]

/-- A search base with a derived default. -/
theorem base_kept_iff (form : SettingsForm) (name : Str) (base : Str) {old : Option Str}
    (x : Option Str) (hold : normalizeBlank old ≠ none) :
    (normalizeBlank (if E then if custom form name then
          (formStr form name).elim x fun v => if isBlank v && false then none else some v
        else none else x)).or (some base) =
        (normalizeBlank (requestedText form name old)).or (some base) ↔
      BaseKept form name E base x old := by
  obtain ⟨o, ho⟩ := Option.ne_none_iff_exists'.mp hold
  unfold BaseKept requestedText
  simp only [Bool.and_false, Bool.false_eq_true, if_false]
  cases custom form name with
  | false =>
    by_cases hE : E
    · simp [hE, ho, normalizeBlank_none]
    · simp [hE, ho]
  | true =>
    cases formStr form name with
    | none =>
      by_cases hE : E
      · simp [hE, ho]
      · simp [hE, ho]
    | some v =>
      by_cases hE : E
      · simp [hE, normalizeBlank_blankToNone]
      · simp [hE, normalizeBlank_blankToNone]

/-- A check box that the environment may decide. -/
theorem flag_kept_iff (e x : Option Bool) (f : Bool) :
    e.or (if E then some f else x) = e.or (some f) ↔ e.isSome ∨ E ∨ e.or x = some f := by
  cases e with
  | some w => simp
  | none =>
    by_cases hE : E
    · simp [hE]
    · simp [hE]

/-- The realm, where both the old and the new one are no placeholder. -/
theorem realm_kept_iff (form : SettingsForm) (name : Str) {e x old dNew : Option Str}
    (hold : e = none → old.isSome) (hexplicit : e = none → x.isSome → old = x)
    (hnew : isKerberosPlaceholderRealm
      ((e.or ((requestedText form name old).or dNew)).getD []) = false) :
    e.or ((if E then if custom form name then
          (formStr form name).elim x fun v => if isBlank v && false then none else some v
        else none else x).or dNew) =
        e.or ((requestedText form name old).or dNew) ↔
      e.isSome ∨
        if custom form name then
          (formStr form name).elim (x.isSome ∨ dNew = old) fun v =>
            (E → isBlank v = false) ∧ (¬ E → x.or dNew = (blankToNone v).or dNew)
        else ¬ E ∧ x.isSome ∨ dNew = old := by
  cases e with
  | some w => simp
  | none =>
    obtain ⟨o, ho⟩ := Option.isSome_iff_exists.mp (hold rfl)
    subst ho
    have hx := hexplicit rfl
    simp only [Option.none_or, Option.isSome_none, Bool.false_eq_true, false_or, Bool.and_false,
      if_false] at hnew ⊢
    have hstays : x.or dNew = some o ↔ x.isSome ∨ dNew = some o := by
      cases x with
      | none => simp
      | some y => simpa using (hx rfl).symm
    unfold requestedText at hnew ⊢
    cases hcus : custom form name with
    | false =>
      by_cases hE : E
      · simp [hE]
      · simpa [hE] using hstays
    | true =>
      rw [hcus, if_pos rfl] at hnew
      cases hsub : formStr form name with
      | none => simpa using hstays
      | some v =>
        rw [hsub, Option.elim_some] at hnew
        by_cases hE : E
        · cases hv : isBlank v with
          | false => simp [hE, blankToNone, hv]
          | true =>
            -- a blank realm does not load
            refine iff_of_false (fun heq => ?_) (by simp [hE, hv])
            simp only [hE, if_true, Option.elim_some, Option.some_or] at heq
            rw [← heq, Option.getD_some, isKerberosPlaceholderRealm] at hnew
            rw [isBlank, List.isEmpty_iff] at hv
            simp [hv] at hnew
        · simp [hE]

/-- An Auto/Custom choice with a default. -/
theorem select_kept_iff (form : SettingsForm) (name : Str) {dflt : Str} (h : isBlank dflt = false)
    (e x : Option Str) :
    orDefault dflt (e.getD ((if E then
          some (if custom form name then (nonblank (formStr form name)).getD dflt else dflt)
        else x).getD dflt)) =
        orDefault dflt (e.getD
          (requestedSelect form name dflt (orDefault dflt (e.getD (x.getD dflt))))) ↔
      e.isSome ∨
        if custom form name then
          (formStr form name).elim (E → orDefault dflt (e.getD (x.getD dflt)) = dflt) fun v =>
            E ∨ orDefault dflt (e.getD (x.getD dflt)) = orDefault dflt v
        else E ∨ orDefault dflt (e.getD (x.getD dflt)) = dflt := by
  have hdflt : orDefault dflt dflt = dflt := by simp [orDefault]
  unfold requestedSelect
  -- the environment decides where it says anything
  cases e with
  | some w => simp
  | none =>
    simp only [Option.getD_none, Option.isSome_none, Bool.false_eq_true, false_or]
    -- Auto stands for the default, Custom for what was submitted
    cases custom form name with
    | false =>
      by_cases hE : E
      · simp [hE]
      · simp [hE, hdflt]
    | true =>
      cases hsub : formStr form name with
      | none =>
        by_cases hE : E
        · simpa [hE, nonblank, hdflt, h] using eq_comm
        · simp [hE, h]
      | some v =>
        have hv : (nonblank (some v)).getD dflt = orDefault dflt v := by
          cases hblank : isBlank v <;> simp [nonblank, Option.filter, orDefault, hblank]
        by_cases hE : E
        · simp [hE, hv]
        · simp [hE, h]

/-- The session timeout. -/
theorem timeout_kept_iff (sub : Option (Option UInt16)) (x : Option UInt16) :
    (if E then sub.getD x else x) = sub.getD x ↔ E ∨ ∀ p ∈ sub, x = p := by
  by_cases hE : E
  · simp [hE]
  · cases sub <;> simp [hE]

/-- The probe section, which an automatic probe clears. -/
theorem probe_kept_iff (form : SettingsForm) (x : ProbeSection) :
    (if formFlag form "auto_probe_ldap".toList then {}
      else if E then
        { userPrincipal :=
            (formStr form "probe_user_principal".toList).elim x.userPrincipal blankToNone
          clientHost := (formStr form "probe_client_host".toList).elim x.clientHost blankToNone }
      else x) = requestedProbe form x ↔
      formFlag form "auto_probe_ldap".toList = true ∨ E ∨
        (∀ v ∈ formStr form "probe_user_principal".toList, x.userPrincipal = blankToNone v) ∧
          ∀ v ∈ formStr form "probe_client_host".toList, x.clientHost = blankToNone v := by
  unfold requestedProbe
  cases formFlag form "auto_probe_ldap".toList with
  | true => simp
  | false =>
    by_cases hE : E
    · simp [hE]
    · have hone : ∀ (o : Option Str) (y : Option Str),
          y = o.elim y blankToNone ↔ ∀ v ∈ o, y = blankToNone v := by
        rintro (_ | v) y <;> simp
      obtain ⟨up, ch⟩ := x
      simp only [Bool.false_eq_true, if_false, hE, false_or, ProbeSection.mk.injEq, hone]

end Kinds

/-! ## Field by field -/

section Fields

variable {env : Environment} {form : SettingsForm} {d : Document} {shares : List Share}
  {cfg : NfsKlldapConfig}

/-- The settings that are loaded from the written document. -/
def savedSettings (env : Environment) (form : SettingsForm) (d : Document) (shares : List Share) :
    Settings :=
  derivedSettings env (configOf (applyStructuredFormToTomlDoc form d) shares)

/-- The saved URI is the one the form asks for. -/
theorem uri_saved (hcfg : cfg.settings = derivedSettings env (configOf d shares)) :
    (savedSettings env form d shares).ldapUri = newUri env cfg.settings form := by
  have huri := (str?_structured form d (n := 0) (by decide)).trans
    ((str?_text rfl).trans (if_pos (Or.inl rfl)))
  have hs : cfg.settings.ldapUri =
      (env.nonblank "NFS_KLLDAP_LDAP_URI").getD ((d.str? [] "ldap_uri".toList).getD []) :=
    congrArg Settings.ldapUri hcfg
  show (env.nonblank "NFS_KLLDAP_LDAP_URI").getD
    (((applyStructuredFormToTomlDoc form d).str? [] "ldap_uri".toList).getD []) = _
  rw [newUri, hs, show (applyStructuredFormToTomlDoc form d).str? [] "ldap_uri".toList = _ from huri]
  show (env.nonblank "NFS_KLLDAP_LDAP_URI").getD (((formStr form "ldap_uri".toList).or
    (d.str? [] "ldap_uri".toList)).getD []) = _
  cases env.nonblank "NFS_KLLDAP_LDAP_URI" <;> cases formStr form "ldap_uri".toList <;> rfl

/-- When the container root is saved as asked for. -/
theorem containerRoot_saved_iff (hcfg : cfg.settings = derivedSettings env (configOf d shares)) :
    (savedSettings env form d shares).containerRoot =
        (derivedSettings env (requestedSettings form cfg)).containerRoot ↔
      (env.nonblank "NFS_KLLDAP_STORAGE_CONTAINER_ROOT").isSome ∨ d.Editable "storage".toList ∨
        ∀ v ∈ formStr form "storage_container_root".toList,
          cfg.settings.containerRoot = orDefault defaultContainerRoot v := by
  have hdflt : isBlank defaultContainerRoot = false := by decide
  have hsaved : (applyStructuredFormToTomlDoc form d).str? "storage".toList
      "container_root".toList = _ :=
    (str?_structured form d (n := 1) (by decide)).trans (str?_text rfl)
  have hs : cfg.settings.containerRoot = _ :=
    (congrArg Settings.containerRoot hcfg).trans (orDefault_strOr d hdflt _ (by decide) _)
  show orDefault _ (Option.getD _ (Document.strOr _ _ _ _)) =
    orDefault _ (Option.getD _ (Option.getD _ cfg.settings.containerRoot)) ↔ _
  rw [orDefault_strOr _ hdflt _ (by decide), hsaved, hs]
  exact default_kept_iff hdflt _ _ _

/-- When the host name is. -/
theorem hostname_saved_iff (hcfg : cfg.settings = derivedSettings env (configOf d shares)) :
    (savedSettings env form d shares).hostname =
        (derivedSettings env (requestedSettings form cfg)).hostname ↔
      (env.var "NFS_KLLDAP_SERVER_HOSTNAME".toList).isSome ∨
        if custom form "server_hostname".toList then
          ∀ v ∈ formStr form "server_hostname".toList,
            (d.Editable "server".toList → isBlank v = false) ∧
              (¬ d.Editable "server".toList → cfg.settings.hostname = blankToNone v)
        else d.Editable "server".toList → cfg.settings.hostname = none := by
  have hsaved : (applyStructuredFormToTomlDoc form d).str? "server".toList "hostname".toList = _ :=
    (str?_structured form d (n := 2) (by decide)).trans (str?_overrideText rfl)
  have hs : cfg.settings.hostname = _ := congrArg Settings.hostname hcfg
  show (if _ then _ else (applyStructuredFormToTomlDoc form d).str? "server".toList
    "hostname".toList) = (if _ then _ else requestedText form _ cfg.settings.hostname) ↔ _
  rw [hsaved, hs, requestedText]
  simp only [Bool.and_false, Bool.false_eq_true, if_false]
  exact hostname_kept_iff _ _ _ _ _

/-- When the bind DN is. -/
theorem bindDn_saved_iff (hcfg : cfg.settings = derivedSettings env (configOf d shares)) :
    (savedSettings env form d shares).bindDn =
        (derivedSettings env (requestedSettings form cfg)).bindDn ↔
      (envBindDn env).isSome ∨ d.Editable "sssd".toList ∨
        ∀ v ∈ formStr form "sssd_bind_dn".toList, cfg.settings.bindDn = v := by
  have hsaved : (applyStructuredFormToTomlDoc form d).str? "sssd".toList
      "ldap_default_bind_dn".toList = _ :=
    (str?_structured form d (n := 3) (by decide)).trans (str?_text rfl)
  have hs : cfg.settings.bindDn = _ := congrArg Settings.bindDn hcfg
  show Option.getD _ (Option.getD (Document.str? _ _ _) _) =
    Option.getD _ (Option.getD _ cfg.settings.bindDn) ↔ _
  rw [hsaved, hs]
  exact plain_kept_iff _ _ _

/-- When the bind password is. -/
theorem authtok_saved_iff (hcfg : cfg.settings = derivedSettings env (configOf d shares)) :
    (savedSettings env form d shares).authtok =
        (derivedSettings env (requestedSettings form cfg)).authtok ↔
      (envAuthtok env).isSome ∨ d.Editable "sssd".toList ∨
        ∀ v ∈ nonblank (formStr form "sssd_bind_pw".toList), cfg.settings.authtok = v := by
  have hsaved : (applyStructuredFormToTomlDoc form d).str? "sssd".toList
      "ldap_default_authtok".toList = _ :=
    (str?_structured form d (n := 4) (by decide)).trans (str?_password rfl)
  have hs : cfg.settings.authtok = _ := congrArg Settings.authtok hcfg
  show Option.getD _ (Option.getD (Document.str? _ _ _) _) =
    Option.getD _ (Option.getD _ cfg.settings.authtok) ↔ _
  rw [hsaved, hs]
  exact plain_kept_iff _ _ _

/-- When the port is. -/
theorem port_saved_iff (hcfg : cfg.settings = derivedSettings env (configOf d shares)) :
    (savedSettings env form d shares).port =
        (derivedSettings env (requestedSettings form cfg)).port ↔
      ((formStr form "sssd_port".toList).bind parseU16).elim
        ((d.u16? "sssd".toList "port".toList).isSome ∨
          portOfUri (newUri env cfg.settings form) = portOfUri cfg.settings.ldapUri)
        fun p => d.Editable "sssd".toList ∨
          (d.u16? "sssd".toList "port".toList).or
            (some (portOfUri (newUri env cfg.settings form))) = some p := by
  have hsaved : (applyStructuredFormToTomlDoc form d).u16? "sssd".toList "port".toList = _ :=
    (u16?_structured form d (n := 5) (by decide)).trans (u16?_port rfl)
  have hs : cfg.settings.port = (d.u16? "sssd".toList "port".toList).or
      (some (portOfUri cfg.settings.ldapUri)) := by
    rw [hcfg]
    rfl
  show Option.or (Document.u16? _ _ _) (some (portOfUri (savedSettings env form d shares).ldapUri)) =
    Option.or (Option.or _ cfg.settings.port) (some (portOfUri (newUri env cfg.settings form))) ↔ _
  rw [uri_saved hcfg, hsaved, hs]
  exact port_kept_iff _ _ _ _

/-- When the search base is. -/
theorem searchBase_saved_iff (hcfg : cfg.settings = derivedSettings env (configOf d shares)) :
    (savedSettings env form d shares).searchBase =
        (derivedSettings env (requestedSettings form cfg)).searchBase ↔
      TextKept form "sssd_search_base".toList (d.Editable "sssd".toList) cfg.settings.searchBase := by
  have hsaved : (applyStructuredFormToTomlDoc form d).str? "sssd".toList
      "ldap_search_base".toList = _ :=
    (str?_structured form d (n := 6) (by decide)).trans (str?_overrideText rfl)
  have hs : cfg.settings.searchBase = _ := congrArg Settings.searchBase hcfg
  show normalizeBlank (Document.str? _ _ _) =
    normalizeBlank (requestedText form _ cfg.settings.searchBase) ↔ _
  rw [hsaved, hs]
  refine (text_kept_iff form "sssd_search_base".toList none _).trans ?_
  rw [Option.isSome_none, or_iff_right Bool.false_ne_true, Option.none_or]
  rfl

/-- When the certificate check is. -/
theorem tlsReqcert_saved_iff (hcfg : cfg.settings = derivedSettings env (configOf d shares)) :
    (savedSettings env form d shares).tlsReqcert =
        (derivedSettings env (requestedSettings form cfg)).tlsReqcert ↔
      (env.nonblank "NFS_KLLDAP_SSSD_LDAP_TLS_REQCERT").isSome ∨
        TextKept form "sssd_ldap_tls_reqcert".toList (d.Editable "sssd".toList)
          cfg.settings.tlsReqcert := by
  have hsaved : (applyStructuredFormToTomlDoc form d).str? "sssd".toList
      "ldap_tls_reqcert".toList = _ :=
    (str?_structured form d (n := 9) (by decide)).trans (str?_overrideText rfl)
  have hs : cfg.settings.tlsReqcert = _ := congrArg Settings.tlsReqcert hcfg
  show normalizeBlank (Option.or _ (Document.str? _ _ _)) =
    normalizeBlank (Option.or _ (requestedText form _ cfg.settings.tlsReqcert)) ↔ _
  rw [hsaved, hs]
  exact text_kept_iff form "sssd_ldap_tls_reqcert".toList _ _

/-- When the certificate is. -/
theorem tlsCacert_saved_iff (hcfg : cfg.settings = derivedSettings env (configOf d shares)) :
    (savedSettings env form d shares).tlsCacert =
        (derivedSettings env (requestedSettings form cfg)).tlsCacert ↔
      (env.nonblank "NFS_KLLDAP_SSSD_LDAP_TLS_CACERT").isSome ∨
        TextKept form "sssd_ldap_tls_cacert".toList (d.Editable "sssd".toList)
          cfg.settings.tlsCacert := by
  have hsaved : (applyStructuredFormToTomlDoc form d).str? "sssd".toList
      "ldap_tls_cacert".toList = _ :=
    (str?_structured form d (n := 10) (by decide)).trans (str?_overrideText rfl)
  have hs : cfg.settings.tlsCacert = _ := congrArg Settings.tlsCacert hcfg
  show normalizeBlank (Option.or _ (Document.str? _ _ _)) =
    normalizeBlank (Option.or _ (requestedText form _ cfg.settings.tlsCacert)) ↔ _
  rw [hsaved, hs]
  exact text_kept_iff form "sssd_ldap_tls_cacert".toList _ _

/-- When the choice of StartTLS is. -/
theorem startTls_saved_iff (hcfg : cfg.settings = derivedSettings env (configOf d shares)) :
    (savedSettings env form d shares).startTls =
        (derivedSettings env (requestedSettings form cfg)).startTls ↔
      (env.flag "NFS_KLLDAP_SSSD_LDAP_ID_USE_START_TLS").isSome ∨
        BoolKept form "sssd_ldap_id_use_start_tls".toList (d.Editable "sssd".toList)
          cfg.settings.startTls := by
  have hsaved : (applyStructuredFormToTomlDoc form d).bool? "sssd".toList
      "ldap_id_use_start_tls".toList = _ :=
    (bool?_structured form d (n := 11) (by decide)).trans (bool?_overrideBool rfl)
  have hs : cfg.settings.startTls = _ := congrArg Settings.startTls hcfg
  show Option.or _ (Document.bool? _ _ _) =
    Option.or _ (requestedBool form _ cfg.settings.startTls) ↔ _
  rw [hsaved, hs]
  exact bool_kept_iff form "sssd_ldap_id_use_start_tls".toList _ _

/-- When the choice to enumerate is. -/
theorem enumerate_saved_iff (hcfg : cfg.settings = derivedSettings env (configOf d shares)) :
    (savedSettings env form d shares).enumerate =
        (derivedSettings env (requestedSettings form cfg)).enumerate ↔
      BoolKept form "sssd_enumerate".toList (d.Editable "sssd".toList) cfg.settings.enumerate := by
  have hsaved : (applyStructuredFormToTomlDoc form d).bool? "sssd".toList "enumerate".toList = _ :=
    (bool?_structured form d (n := 12) (by decide)).trans (bool?_overrideBool rfl)
  have hs : cfg.settings.enumerate = _ := congrArg Settings.enumerate hcfg
  show Document.bool? _ _ _ = requestedBool form _ cfg.settings.enumerate ↔ _
  rw [hsaved, hs]
  refine (bool_kept_iff form "sssd_enumerate".toList none _).trans ?_
  rw [Option.isSome_none, or_iff_right Bool.false_ne_true, Option.none_or]
  rfl

/-- When the choice to ignore attributes is. -/
theorem ignoredAttributes_saved_iff
    (hcfg : cfg.settings = derivedSettings env (configOf d shares)) :
    (savedSettings env form d shares).ignoredAttributes =
        (derivedSettings env (requestedSettings form cfg)).ignoredAttributes ↔
      (env.flag "NFS_KLLDAP_SSSD_KLLLDAP_IGNORED_ATTRIBUTES").isSome ∨
        d.Editable "sssd".toList ∨
        cfg.settings.ignoredAttributes =
          some (formFlag form "kllldap_ignored_attributes".toList) := by
  have hsaved : (applyStructuredFormToTomlDoc form d).bool? "sssd".toList
      "kllldap_ignored_attributes".toList = _ :=
    (bool?_structured form d (n := 13) (by decide)).trans (bool?_boolAlways rfl)
  have hs : cfg.settings.ignoredAttributes = _ := congrArg Settings.ignoredAttributes hcfg
  show Option.or _ (Document.bool? _ _ _) = Option.or _ (some _) ↔ _
  rw [hsaved, hs]
  exact flag_kept_iff _ _ _

/-- Discovery is written at top level, on every save. -/
theorem navahiDiscovery_saved :
    (savedSettings env form d shares).navahiDiscovery =
      (derivedSettings env (requestedSettings form cfg)).navahiDiscovery := by
  have hsaved : (applyStructuredFormToTomlDoc form d).bool? [] "navahi_discovery".toList = _ :=
    (bool?_structured form d (n := 14) (by decide)).trans
      ((bool?_boolAlways rfl).trans (if_pos (Or.inl rfl)))
  show (Document.bool? _ _ _).getD false = formFlag form _
  rw [hsaved]
  rfl

/-- When the realm is. -/
theorem realm_saved_iff (hcfg : cfg.settings = derivedSettings env (configOf d shares))
    (hold : isKerberosPlaceholderRealm (cfg.settings.realm.getD []) = false)
    (hnew : isKerberosPlaceholderRealm ((newRealm env cfg.settings form).getD []) = false) :
    (savedSettings env form d shares).realm =
        (derivedSettings env (requestedSettings form cfg)).realm ↔
      (env.nonblank "NFS_KLLDAP_KERBEROS_REALM").isSome ∨
        if custom form "kerberos_realm".toList then
          (formStr form "kerberos_realm".toList).elim
            ((d.str? "kerberos".toList "realm".toList).isSome ∨
              deriveRealmFromUri env.toCaseMapping (newUri env cfg.settings form) =
                cfg.settings.realm)
            fun v =>
              (d.Editable "kerberos".toList → isBlank v = false) ∧
                (¬ d.Editable "kerberos".toList →
                  (d.str? "kerberos".toList "realm".toList).or
                      (deriveRealmFromUri env.toCaseMapping (newUri env cfg.settings form)) =
                    (blankToNone v).or
                      (deriveRealmFromUri env.toCaseMapping (newUri env cfg.settings form)))
        else
          ¬ d.Editable "kerberos".toList ∧ (d.str? "kerberos".toList "realm".toList).isSome ∨
            deriveRealmFromUri env.toCaseMapping (newUri env cfg.settings form) =
              cfg.settings.realm := by
  -- the realm is one of the fields that Custom opens
  have hsaved : (applyStructuredFormToTomlDoc form d).str? "kerberos".toList "realm".toList = _ :=
    (str?_structured form d (n := 15) (by decide)).trans (str?_overrideText rfl)
  have hs : cfg.settings.realm = (env.nonblank "NFS_KLLDAP_KERBEROS_REALM").or
      ((d.str? "kerberos".toList "realm".toList).or _) := congrArg Settings.realm hcfg
  show realmOf env (savedSettings env form d shares).ldapUri (Document.str? _ _ _) =
    realmOf env (newUri env cfg.settings form) (requestedText form _ cfg.settings.realm) ↔ _
  rw [uri_saved hcfg, realmOf, realmOf, hsaved]
  refine realm_kept_iff form "kerberos_realm".toList (fun _ => ?_) (fun henv hx => ?_) hnew
  · -- a realm that is accepted is there
    cases hr : cfg.settings.realm with
    | none => rw [hr] at hold; exact absurd hold (by decide)
    | some r => rfl
  · obtain ⟨x, hx⟩ := Option.isSome_iff_exists.mp hx
    have hx' : d.str? "kerberos".toList "realm".toList = some x := hx
    rw [hs, henv, hx']
    exact hx.symm

/-- When the default security is. -/
theorem defaultSecurity_saved_iff (hcfg : cfg.settings = derivedSettings env (configOf d shares)) :
    (savedSettings env form d shares).defaultSecurity =
        (derivedSettings env (requestedSettings form cfg)).defaultSecurity ↔
      (env.nonblank "NFS_KLLDAP_GANESHA_DEFAULT_SECURITY").isSome ∨
        if custom form "ganesha_default_security".toList then
          (formStr form "ganesha_default_security".toList).elim
            (d.Editable "ganesha".toList →
              cfg.settings.defaultSecurity = NfsKlldap.defaultSecurity)
            fun v => d.Editable "ganesha".toList ∨
              cfg.settings.defaultSecurity = orDefault NfsKlldap.defaultSecurity v
        else d.Editable "ganesha".toList ∨
          cfg.settings.defaultSecurity = NfsKlldap.defaultSecurity := by
  have hdflt : isBlank NfsKlldap.defaultSecurity = false := by decide
  have hsaved : (applyStructuredFormToTomlDoc form d).str? "ganesha".toList
      "default_security".toList = _ :=
    (str?_structured form d (n := 16) (by decide)).trans (str?_overrideSelect rfl)
  have hs : cfg.settings.defaultSecurity = _ :=
    (congrArg Settings.defaultSecurity hcfg).trans (orDefault_strOr d hdflt _ (by decide) _)
  show orDefault _ (Option.getD _ (Document.strOr _ _ _ _)) =
    orDefault _ (Option.getD _ (requestedSelect form _ _ cfg.settings.defaultSecurity)) ↔ _
  rw [orDefault_strOr _ hdflt _ (by decide), hsaved, hs]
  exact select_kept_iff form "ganesha_default_security".toList hdflt _ _

/-- When the session timeout is. -/
theorem sessionTimeout_saved_iff (hcfg : cfg.settings = derivedSettings env (configOf d shares)) :
    (savedSettings env form d shares).sessionTimeout =
        (derivedSettings env (requestedSettings form cfg)).sessionTimeout ↔
      d.Editable "webui".toList ∨
        ∀ p ∈ clearableU16 form "webui_session_timeout_minutes".toList,
          cfg.settings.sessionTimeout = p := by
  have hsaved : (applyStructuredFormToTomlDoc form d).u16? "webui".toList
      "session_timeout_minutes".toList = _ :=
    (u16?_structured form d (n := 17) (by decide)).trans (u16?_u16OrClear rfl)
  have hs : cfg.settings.sessionTimeout = _ := congrArg Settings.sessionTimeout hcfg
  show Document.u16? _ _ _ = Option.getD _ cfg.settings.sessionTimeout ↔ _
  rw [hsaved, hs]
  exact timeout_kept_iff _ _

/-- When the probe section is. -/
theorem probe_saved_iff (hcfg : cfg.settings = derivedSettings env (configOf d shares)) :
    (savedSettings env form d shares).probe =
        (derivedSettings env (requestedSettings form cfg)).probe ↔
      formFlag form "auto_probe_ldap".toList = true ∨ d.Editable "probe".toList ∨
        (∀ v ∈ formStr form "probe_user_principal".toList,
          cfg.settings.probe.userPrincipal = blankToNone v) ∧
          ∀ v ∈ formStr form "probe_client_host".toList,
            cfg.settings.probe.clientHost = blankToNone v := by
  have hs : cfg.settings.probe = decodeProbe d := congrArg Settings.probe hcfg
  show decodeProbe (applyStructuredFormToTomlDoc form d) =
    requestedProbe form cfg.settings.probe ↔ _
  rw [decodeProbe_structured, hs]
  exact probe_kept_iff form _

/-- The default search base is never blank. -/
theorem isBlank_mainBase (env : Environment) (searchBase realm : Option Str) :
    isBlank (mainBase env searchBase realm) = false := by
  unfold mainBase
  cases hbase : nonblank searchBase with
  | some b =>
    have hb := (Option.filter_eq_some_iff.mp hbase).2
    simpa using hb
  | none => exact isBlank_baseDn env _

/-- A derived search base is never blank. -/
theorem normalizeBlank_base_ne_none (env : Environment) (searchBase realm explicit : Option Str) :
    normalizeBlank ((normalizeBlank explicit).or (some (mainBase env searchBase realm))) ≠ none := by
  cases h : normalizeBlank explicit with
  | none => simp [normalizeBlank, isBlank_mainBase]
  | some b =>
    rw [Option.some_or, ← h, normalizeBlank_normalizeBlank, h]
    simp

/-- The search base of users; the one of groups is `groupBase_saved_iff`. `hbase` says that the
default is the same. -/
theorem userBase_saved_iff (hcfg : cfg.settings = derivedSettings env (configOf d shares))
    (hbase : mainBase env (savedSettings env form d shares).searchBase
      (savedSettings env form d shares).realm = newBase env cfg.settings form) :
    (savedSettings env form d shares).userBase =
        (derivedSettings env (requestedSettings form cfg)).userBase ↔
      BaseKept form "sssd_user_base".toList (d.Editable "sssd".toList) (newBase env cfg.settings form)
        (d.str? "sssd".toList "ldap_user_search_base".toList) cfg.settings.userBase := by
  have hsaved : (applyStructuredFormToTomlDoc form d).str? "sssd".toList
      "ldap_user_search_base".toList = _ :=
    (str?_structured form d (n := 7) (by decide)).trans (str?_overrideText rfl)
  have hold : normalizeBlank cfg.settings.userBase ≠ none := by
    rw [hcfg]
    exact normalizeBlank_base_ne_none env _ _ _
  show Option.or (normalizeBlank (Document.str? _ _ _)) (some (mainBase env
      (savedSettings env form d shares).searchBase (savedSettings env form d shares).realm)) =
    Option.or (normalizeBlank (requestedText form _ cfg.settings.userBase))
      (some (newBase env cfg.settings form)) ↔ _
  rw [hbase, hsaved]
  exact base_kept_iff form "sssd_user_base".toList _ _ hold

/-- When the base of the groups is, given the default base. -/
theorem groupBase_saved_iff (hcfg : cfg.settings = derivedSettings env (configOf d shares))
    (hbase : mainBase env (savedSettings env form d shares).searchBase
      (savedSettings env form d shares).realm = newBase env cfg.settings form) :
    (savedSettings env form d shares).groupBase =
        (derivedSettings env (requestedSettings form cfg)).groupBase ↔
      BaseKept form "sssd_group_base".toList (d.Editable "sssd".toList)
        (newBase env cfg.settings form)
        (d.str? "sssd".toList "ldap_group_search_base".toList) cfg.settings.groupBase := by
  have hsaved : (applyStructuredFormToTomlDoc form d).str? "sssd".toList
      "ldap_group_search_base".toList = _ :=
    (str?_structured form d (n := 8) (by decide)).trans (str?_overrideText rfl)
  have hold : normalizeBlank cfg.settings.groupBase ≠ none := by
    rw [hcfg]
    exact normalizeBlank_base_ne_none env _ _ _
  show Option.or (normalizeBlank (Document.str? _ _ _)) (some (mainBase env
      (savedSettings env form d shares).searchBase (savedSettings env form d shares).realm)) =
    Option.or (normalizeBlank (requestedText form _ cfg.settings.groupBase))
      (some (newBase env cfg.settings form)) ↔ _
  rw [hbase, hsaved]
  exact base_kept_iff form "sssd_group_base".toList _ _ hold

/-- **Field by field**: the loaded settings are the validated ones exactly when the save persists. -/
theorem savedSettings_eq_iff (hcfg : cfg.settings = derivedSettings env (configOf d shares))
    (hold : isKerberosPlaceholderRealm (cfg.settings.realm.getD []) = false)
    (hnew : isKerberosPlaceholderRealm ((newRealm env cfg.settings form).getD []) = false) :
    savedSettings env form d shares = derivedSettings env (requestedSettings form cfg) ↔
      Persists env cfg.settings d form := by
  -- the default base of the form, once the search base and the realm are kept
  have hbase : (savedSettings env form d shares).searchBase =
        (derivedSettings env (requestedSettings form cfg)).searchBase →
      (savedSettings env form d shares).realm =
        (derivedSettings env (requestedSettings form cfg)).realm →
      mainBase env (savedSettings env form d shares).searchBase
        (savedSettings env form d shares).realm = newBase env cfg.settings form := by
    intro hs hr
    rw [hs, hr]
    rfl
  rw [Settings.ext_iff]
  constructor
  · rintro ⟨-, h1, h2, h3, h4, h5, h6, h7, h8, h9, h10, h11, h12, h13, -, h15, h16, h17, h18⟩
    exact
      { containerRoot := (containerRoot_saved_iff hcfg).mp h1
        hostname := (hostname_saved_iff hcfg).mp h2
        bindDn := (bindDn_saved_iff hcfg).mp h3
        authtok := (authtok_saved_iff hcfg).mp h4
        port := (port_saved_iff hcfg).mp h5
        searchBase := (searchBase_saved_iff hcfg).mp h6
        userBase := (userBase_saved_iff hcfg (hbase h6 h15)).mp h7
        groupBase := (groupBase_saved_iff hcfg (hbase h6 h15)).mp h8
        tlsReqcert := (tlsReqcert_saved_iff hcfg).mp h9
        tlsCacert := (tlsCacert_saved_iff hcfg).mp h10
        startTls := (startTls_saved_iff hcfg).mp h11
        enumerate := (enumerate_saved_iff hcfg).mp h12
        ignoredAttributes := (ignoredAttributes_saved_iff hcfg).mp h13
        realm := (realm_saved_iff hcfg hold hnew).mp h15
        defaultSecurity := (defaultSecurity_saved_iff hcfg).mp h16
        sessionTimeout := (sessionTimeout_saved_iff hcfg).mp h17
        probe := (probe_saved_iff hcfg).mp h18 }
  · intro h
    have h6 := (searchBase_saved_iff hcfg).mpr h.searchBase
    have h15 := (realm_saved_iff hcfg hold hnew).mpr h.realm
    exact ⟨uri_saved hcfg, (containerRoot_saved_iff hcfg).mpr h.containerRoot,
      (hostname_saved_iff hcfg).mpr h.hostname, (bindDn_saved_iff hcfg).mpr h.bindDn,
      (authtok_saved_iff hcfg).mpr h.authtok, (port_saved_iff hcfg).mpr h.port, h6,
      (userBase_saved_iff hcfg (hbase h6 h15)).mpr h.userBase,
      (groupBase_saved_iff hcfg (hbase h6 h15)).mpr h.groupBase,
      (tlsReqcert_saved_iff hcfg).mpr h.tlsReqcert, (tlsCacert_saved_iff hcfg).mpr h.tlsCacert,
      (startTls_saved_iff hcfg).mpr h.startTls, (enumerate_saved_iff hcfg).mpr h.enumerate,
      (ignoredAttributes_saved_iff hcfg).mpr h.ignoredAttributes, navahiDiscovery_saved, h15,
      (defaultSecurity_saved_iff hcfg).mpr h.defaultSecurity,
      (sessionTimeout_saved_iff hcfg).mpr h.sessionTimeout, (probe_saved_iff hcfg).mpr h.probe⟩

end Fields

/-! ## Loading what was written -/

/-- The normal forms of the shares and of the tuning keys are no settings. -/
theorem settings_tuned (c : NfsKlldapConfig) (shares : List Share) :
    NfsKlldapConfig.settings { c with shares := shares, ganesha := c.ganesha.tuned } = c.settings :=
  rfl

/-- What validation accepts has the derived settings. -/
theorem settings_of_validate {env : Environment} {c out : NfsKlldapConfig}
    (h : validateAndDerive env c = .ok out) : out.settings = derivedSettings env c := by
  obtain ⟨-, -, hout⟩ := validateAndDerive_eq_ok_iff.mp h
  rw [hout, settings_tuned, settings_derived]

/-- The rules of the settings. -/
structure SettingsOk (s : Settings) : Prop where
  ldapUri : isBlank s.ldapUri = false
  sessionTimeout : ∀ m ∈ s.sessionTimeout, 5 ≤ m.toNat
  host : hostIsIp (extractHostFromUri s.ldapUri) = false
  realm : isKerberosPlaceholderRealm (s.realm.getD []) = false
  defaultSecurity : s.defaultSecurity ∈ allowedSectypes
  bindDn : isBlank s.bindDn = false
  authtok : isBlank s.authtok = false

/-- The rules of the scalar part read the settings and the tuning keys. -/
theorem scalarsOk_iff {c : NfsKlldapConfig} :
    ScalarsOk c ↔ SettingsOk c.settings ∧ c.ganesha.TuningOk := by
  constructor
  · rintro ⟨huri, htime, hip, hrealm, hsec, hdn, htok, htune⟩
    exact ⟨⟨huri, htime, hip, hrealm, hsec, hdn, htok⟩, htune⟩
  · rintro ⟨⟨huri, htime, hip, hrealm, hsec, hdn, htok⟩, htune⟩
    exact ⟨huri, htime, hip, hrealm, hsec, hdn, htok, htune⟩

/-- Derivation leaves the tuning keys alone. -/
theorem tuningOk_derived {env : Environment} {c : NfsKlldapConfig} :
    (derived env c).ganesha.TuningOk ↔ c.ganesha.TuningOk := by
  rw [derived, deriveContainerRoot_eq, deriveSecurity_eq]
  constructor
  · rintro ⟨htok, hattr, hgids, hres, hcount, htrim⟩
    exact ⟨htok, hattr, hgids, hres, hcount, htrim⟩
  · rintro ⟨htok, hattr, hgids, hres, hcount, htrim⟩
    exact ⟨htok, hattr, hgids, hres, hcount, htrim⟩

/-- What is accepted, in terms of the settings. -/
theorem validate_ok_iff {env : Environment} {c : NfsKlldapConfig} :
    (∃ out, validateAndDerive env c = .ok out) ↔
      SettingsOk (derivedSettings env c) ∧ c.ganesha.TuningOk ∧
        SharesOk (derivedSettings env c).containerRoot c.shares := by
  have hroot : (derivedSettings env c).containerRoot = (derived env c).storage.containerRoot :=
    (congrArg Settings.containerRoot (settings_derived env c)).symm
  simp only [validateAndDerive_eq_ok_iff, scalarsOk_iff, settings_derived, tuningOk_derived, hroot,
    and_assoc, exists_and_left, exists_eq, and_true]

/-- A structured save writes one key of `[ganesha]`. -/
theorem get?_ganesha_structured (form : SettingsForm) (d : Document) {key : Str}
    (hkey : key ≠ "default_security".toList) :
    (applyStructuredFormToTomlDoc form d).get? "ganesha".toList key =
      d.get? "ganesha".toList key := by
  have hfields : ∀ f ∈ fields, "ganesha".toList ≠ Document.entryOf f.sec f.key ∨
      "ganesha".toList = f.sec ∧ f.key = "default_security".toList := by decide +kernel
  have hentry : Document.entryOf "ganesha".toList key = "ganesha".toList := if_neg (by decide)
  have hprobe : Document.entryOf "ganesha".toList key ≠ "probe".toList := by
    rw [hentry]
    decide
  rw [applyStructuredFormToTomlDoc,
    Document.get?_eq_of_lookup_eq (lookup_applyProbeForm form _ hprobe)]
  refine get?_foldl_of_apart fun f hf => ?_
  rcases hfields f hf with hne | ⟨hsec, hk⟩
  · exact Or.inl (by rwa [hentry])
  · exact Or.inr ⟨hsec, by decide, fun heq => hkey (heq.trans hk)⟩

/-- A structured edit leaves the tuning within its bounds. -/
theorem tuningOk_structured {form : SettingsForm} {d : Document}
    (h : (decodeGanesha d).TuningOk) :
    (decodeGanesha (applyStructuredFormToTomlDoc form d)).TuningOk := by
  have hget := fun {key : Str} (hkey : key ≠ "default_security".toList) =>
    get?_ganesha_structured form d hkey
  have hganesha : decodeGanesha (applyStructuredFormToTomlDoc form d) =
      { decodeGanesha d with
        defaultSecurity := (decodeGanesha (applyStructuredFormToTomlDoc form d)).defaultSecurity } := by
    simp only [decodeGanesha, Document.str?, Document.bool?, Document.u32?, Document.u64?,
      Document.i32?, Document.strs?]
    rw [hget (by decide), hget (by decide), hget (by decide), hget (by decide), hget (by decide),
      hget (by decide), hget (by decide), hget (by decide), hget (by decide), hget (by decide),
      hget (by decide), hget (by decide), hget (by decide), hget (by decide)]
  rw [hganesha]
  obtain ⟨htok, hattr, hgids, hres, hcount, htrim⟩ := h
  exact ⟨htok, hattr, hgids, hres, hcount, htrim⟩

/-- Shares that were accepted under a root are accepted under another one when their normal forms
are. -/
theorem SharesOk.of_normalized {root root' : Str} {shares : List Share} (h : SharesOk root shares)
    (h' : SharesOk root' (shares.map Share.normalize)) : SharesOk root' shares where
  fields := h.fields
  names := h.names
  paths := by
    intro s hs
    obtain ⟨hne, habs, hunder, hsabs, hsunder⟩ := h'.paths _ (List.mem_map_of_mem hs)
    have hpath : s.normalize.normalizeFields.containerPath = s.normalizeFields.containerPath :=
      trim_trim _
    have hsource : normalizeBlank s.normalize.normalizeFields.sourcePath =
        normalizeBlank s.normalizeFields.sourcePath := normalizeBlank_normalizeBlank _
    rw [hpath] at hne habs hunder
    rw [hsource] at hsabs hsunder
    exact ⟨hne, habs, hunder, hsabs, hsunder⟩
  pseudoRoot := h.pseudoRoot
  pseudos := h.pseudos
  serves := h.serves
  policies := h.policies

/-- A form that validates is written over the document. -/
theorem settingsSaveStructured_eq_written {env : Environment} {toml : TomlEdit} {text : Str}
    {form : SettingsForm} {cfg validated : NfsKlldapConfig} {doc : Document}
    (hdoc : toml.parse text = some doc) (hload : loadText env toml text = .ok cfg)
    (hvalid : validateAndDerive env (applyStructuredFormToConfig form cfg) = .ok validated) :
    settingsSaveStructured env toml true (.text text) form =
      .written (toml.render text (applyStructuredFormToTomlDoc form doc))
        (.text (toml.render text (applyStructuredFormToTomlDoc form doc))) := by
  have hbase : structuredBase env toml (.text text) = cfg := by
    simp [structuredBase, ConfFile.readToString, hload]
  rw [settingsSaveStructured_eq, hbase, hvalid]
  simp [ConfFile.readToString, parseOrEmpty, hdoc, atomicWriteConfig]

/-- **A structured save persists what it validated** exactly when `Persists` holds of the loaded
settings, the document and the form. -/
theorem structured_persists_iff {env : Environment} {toml : TomlEdit} {text w : Str}
    {file' : ConfFile} {form : SettingsForm} {cfg validated : NfsKlldapConfig} {doc : Document}
    (hdoc : toml.parse text = some doc) (hload : loadText env toml text = .ok cfg)
    (hvalid : validateAndDerive env (applyStructuredFormToConfig form cfg) = .ok validated)
    (hsave : settingsSaveStructured env toml true (.text text) form = .written w file') :
    (∃ cfg', loadText env toml w = .ok cfg' ∧ cfg'.settings = validated.settings) ↔
      Persists env cfg.settings doc form := by
  obtain ⟨_, raw, hdoc', hraw, hcfg⟩ := loadText_eq_ok_iff.mp hload
  cases hdoc.symm.trans hdoc'
  obtain ⟨htyped, shares, hshares, rfl⟩ := decodeConfig_eq_some_iff.mp hraw
  rw [applyStructuredFormToConfig_eq] at hvalid
  have hold := settings_of_validate hcfg
  have hnew := settings_of_validate hvalid
  obtain ⟨hsettings, htuning, hsharesOk⟩ := validate_ok_iff.mp ⟨_, hcfg⟩
  obtain ⟨hsettings', -, hsharesOk'⟩ := validate_ok_iff.mp ⟨_, hvalid⟩
  have hshares' : (requestedSettings form cfg).shares = shares.map Share.normalize := by
    obtain ⟨-, -, rfl⟩ := validateAndDerive_eq_ok_iff.mp hcfg
    rfl
  have hrealm : isKerberosPlaceholderRealm (cfg.settings.realm.getD []) = false := by
    rw [hold]
    exact hsettings.realm
  have hrealm' : isKerberosPlaceholderRealm ((newRealm env cfg.settings form).getD []) = false :=
    hsettings'.realm
  rw [← savedSettings_eq_iff hold hrealm hrealm', hnew]
  have hw : w = toml.render text (applyStructuredFormToTomlDoc form doc) := by
    rw [← applyStructuredFormToConfig_eq] at hvalid
    rw [settingsSaveStructured_eq_written hdoc hload hvalid, SaveOutcome.written.injEq] at hsave
    exact hsave.1.symm
  have hparse : toml.parse w = some (applyStructuredFormToTomlDoc form doc) := by
    rw [hw, toml.parse_render]
  have hdecode : decodeConfig (applyStructuredFormToTomlDoc form doc) =
      some (configOf (applyStructuredFormToTomlDoc form doc) shares) :=
    decodeConfig_eq_some_iff.mpr ⟨wellTyped_structured form htyped, shares,
      (decodeShares_structured form doc).trans hshares, rfl⟩
  constructor
  · rintro ⟨cfg', hload', hsame⟩
    obtain ⟨_, raw', hdoc', hraw', hcfg'⟩ := loadText_eq_ok_iff.mp hload'
    cases hparse.symm.trans hdoc'
    cases hdecode.symm.trans hraw'
    rw [← hsame, settings_of_validate hcfg']
    rfl
  · intro hsame
    -- the rules hold of the saved settings, since they hold of the validated ones
    have hok : ∃ out, validateAndDerive env
        (configOf (applyStructuredFormToTomlDoc form doc) shares) = .ok out := by
      refine validate_ok_iff.mpr ⟨?_, tuningOk_structured htuning, ?_⟩
      · show SettingsOk (savedSettings env form doc shares)
        rw [hsame]
        exact hsettings'
      · show SharesOk (savedSettings env form doc shares).containerRoot shares
        rw [hsame]
        rw [hshares'] at hsharesOk'
        exact hsharesOk.of_normalized hsharesOk'
    obtain ⟨cfg', hcfg'⟩ := hok
    exact ⟨cfg', loadText_eq_ok_iff.mpr ⟨_, _, hparse, hdecode, hcfg'⟩,
      (settings_of_validate hcfg').trans hsame⟩

/-! ### Two saves -/

/-- A host name of its own and another bind DN. -/
def hostnameForm : SettingsForm where
  values :=
    [("ldap_uri".toList, "ldaps://ldap.home.lan".toList),
     ("override_server_hostname".toList, "true".toList),
     ("server_hostname".toList, "nas".toList),
     ("sssd_bind_dn".toList, "cn=reader".toList)]
  nodup := by decide +kernel

/-- A Custom host name on an editable section persists. -/
theorem persists_hostname :
    ∃ w cfg', settingsSaveStructured .ascii stagedToml true (.text stagedText) hostnameForm =
        .written w (.text w) ∧
      loadText .ascii stagedToml w = .ok cfg' ∧
      validateAndDerive .ascii (applyStructuredFormToConfig hostnameForm stagedConfig) =
        .ok { stagedConfig with
          server := { hostname := some "nas".toList }
          sssd :=
            { stagedConfig.sssd with
              ldapDefaultBindDn := "cn=reader".toList
              kllldapIgnoredAttributes := some false } } ∧
      cfg'.settings.hostname = some "nas".toList := by
  -- the form is accepted, with the host name in place
  have hvalid : (validateAndDerive .ascii
      (applyStructuredFormToConfig hostnameForm stagedConfig)).toOption =
      some { stagedConfig with
        server := { hostname := some "nas".toList }
        sssd :=
          { stagedConfig.sssd with
            ldapDefaultBindDn := "cn=reader".toList
            kllldapIgnoredAttributes := some false } } := by decide +kernel
  have hvalid := toOption_eq_some_iff.mp hvalid
  have hsave := settingsSaveStructured_eq_written load_staged.1 load_staged.2 hvalid
  -- field by field, the form asks for nothing that the document would not keep
  obtain ⟨cfg', hload', hsame⟩ :=
    (structured_persists_iff load_staged.1 load_staged.2 hvalid hsave).mpr
      { containerRoot := by decide +kernel
        hostname := by decide +kernel
        bindDn := by decide +kernel
        authtok := by decide +kernel
        port := by decide +kernel
        searchBase := by unfold TextKept; decide +kernel
        userBase := by unfold BaseKept; decide +kernel
        groupBase := by unfold BaseKept; decide +kernel
        tlsReqcert := by unfold TextKept; decide +kernel
        tlsCacert := by unfold TextKept; decide +kernel
        startTls := by unfold BoolKept; decide +kernel
        enumerate := by unfold BoolKept; decide +kernel
        ignoredAttributes := by decide +kernel
        realm := by decide +kernel
        defaultSecurity := by decide +kernel
        sessionTimeout := by decide +kernel
        probe := by decide +kernel }
  refine ⟨_, cfg', hsave, hload', hvalid, ?_⟩
  rw [hsame]
  rfl

/-- The switch of the realm stands on Custom, and its input is empty. -/
def blankRealmForm : SettingsForm where
  values :=
    [("override_kerberos_realm".toList, "true".toList), ("kerberos_realm".toList, [])]
  nodup := by decide +kernel

/-- The realm is derived for the validation, and the written one is empty: the save is accepted and
its file does not load. -/
theorem not_persists_blankRealm :
    loadText .ascii stagedToml stagedText = .ok stagedConfig ∧
    (∃ w, settingsSaveStructured .ascii stagedToml true (.text stagedText) blankRealmForm =
        .written w (.text w) ∧
      ∀ cfg', loadText .ascii stagedToml w ≠ .ok cfg') ∧
    ¬ ∀ w file', settingsSaveStructured .ascii stagedToml true (.text stagedText) blankRealmForm =
        .written w file' →
      ∃ cfg' validated, loadText .ascii stagedToml w = .ok cfg' ∧
        validateAndDerive .ascii (applyStructuredFormToConfig blankRealmForm stagedConfig) =
          .ok validated ∧
        cfg'.settings = validated.settings := by
  have hvalid : (validateAndDerive .ascii
      (applyStructuredFormToConfig blankRealmForm stagedConfig)).toOption.isSome = true := by
    decide +kernel
  obtain ⟨validated, hvalid⟩ := Option.isSome_iff_exists.mp hvalid
  have hsave := settingsSaveStructured_eq_written load_staged.1 load_staged.2
    (toOption_eq_some_iff.mp hvalid)
  have hrefused : (decodeConfig (applyStructuredFormToTomlDoc blankRealmForm stagedDoc)).bind
      (fun c => (validateAndDerive .ascii c).toOption) = none := by decide +kernel
  have hnot : ∀ cfg', loadText .ascii stagedToml (stagedToml.render stagedText
      (applyStructuredFormToTomlDoc blankRealmForm stagedDoc)) ≠ .ok cfg' := by
    intro cfg' hload
    obtain ⟨_, raw, hdoc, hraw, hcfg⟩ := loadText_eq_ok_iff.mp hload
    rw [stagedToml.parse_render, Option.some.injEq] at hdoc
    subst hdoc
    rw [hraw, Option.bind_some, hcfg] at hrefused
    exact nomatch hrefused
  refine ⟨load_staged.2, ⟨_, hsave, hnot⟩, fun h => ?_⟩
  obtain ⟨cfg', _, hload, -⟩ := h _ _ hsave
  exact hnot cfg' hload

end NfsKlldap
