import NfsKlldap.Generate.ServiceConf
import NfsKlldap.Lib.Ini

/-! # What the services read (`generate/mod.rs`)

`sssd.conf`, `idmapd.conf` and `krb5.conf` are put together from texts of the config with `format!`, and
none of the texts is quoted. Read back as the lines, sections and groups that the services take them
for, the files say what the config says as long as no text breaks out of its line.

* **`sssdSigns`**, **`idmapSigns`**, **`krb5Signs`** — what the files are to say;
* **`nodup_sssdDomainSettings`** — no setting of the domain is there twice;
* **`serviceTexts_iff`** — the files say it exactly when the texts that come from the config fit on
  their lines. -/

namespace NfsKlldap

open Text Ini

/-! ## What the files are to say -/

/-- A section with its settings. -/
def iniSection (name : Str) (settings : List (String × Str)) : List Sign :=
  .header name :: settings.map fun s => .setting s.1.toList s.2

/-- The name of the SSSD domain. -/
def sssdDomainName (cfg : NfsKlldapConfig) : Str := (nonEmpty cfg.sssd.domain).getD "default".toList

/-- The authentication provider as it is written. -/
def sssdAuthProvider (cfg : NfsKlldapConfig) : Str :=
  (nonEmpty cfg.sssd.authProvider).getD "ldap".toList

/-- The settings of the directory. -/
def sssdDirectorySettings (env : Environment) (cfg : NfsKlldapConfig) : List (String × Str) :=
  [("id_provider", "ldap".toList),
    ("auth_provider", sssdAuthProvider cfg),
    ("ldap_uri", cfg.ldapUri),
    ("ldap_search_base", ldapSearchBase env cfg.sssd (effectiveRealm cfg)),
    ("ldap_default_bind_dn", cfg.sssd.ldapDefaultBindDn),
    ("ldap_default_authtok", cfg.sssd.ldapDefaultAuthtok),
    ("cache_credentials", "true".toList)]

/-- How long entries are kept. -/
def sssdCacheSettings (s : SssdSection) : List (String × Str) :=
  [("entry_cache_timeout", decimal (s.entryCacheTimeout.getD 180)),
    ("entry_negative_timeout", decimal (s.entryNegativeTimeout.getD 60))]

/-- Where users are, and the names of their attributes. -/
def sssdUserSettings (userBase : Str) (mapping : PosixAttributeMapping) : List (String × Str) :=
  [("ldap_user_search_base", userBase),
    ("ldap_user_search_scope", "sub".toList),
    ("ldap_user_object_class", mapping.userObjectClass),
    ("ldap_user_name", mapping.userName),
    ("ldap_user_uid_number", mapping.userUidNumber),
    ("ldap_user_gid_number", mapping.userGidNumber),
    ("ldap_user_home_directory", mapping.userHomeDirectory),
    ("ldap_user_shell", mapping.userShell)]

/-- Where groups are, and the names of their attributes but for the members. -/
def sssdGroupSettings (groupBase : Str) (mapping : PosixAttributeMapping) : List (String × Str) :=
  [("ldap_group_search_base", groupBase),
    ("ldap_group_search_scope", "sub".toList),
    ("ldap_group_object_class", mapping.groupObjectClass),
    ("ldap_group_name", mapping.groupName),
    ("ldap_group_gid_number", mapping.groupGidNumber)]

/-- What the directory is like, and who may come in. -/
def sssdSchemaSettings (s : SssdSection) : List (String × Str) :=
  [("ldap_schema", settingOr s.ldapSchema "rfc2307bis"),
    ("ldap_pwd_policy", "none".toList),
    ("ldap_id_mapping", "false".toList),
    ("enumerate", boolWord (s.enumerate.getD false)),
    ("access_provider", (nonEmpty s.accessProvider).getD "permit".toList)]

/-- A setting that may be left out. -/
def optionalPair (key : String) (value : Option Str) : List (String × Str) :=
  (value.map fun v => [(key, v)]).getD []

/-- The settings of Kerberos and TLS. -/
def sssdSecuritySettings (cfg : NfsKlldapConfig) : List (String × Str) :=
  let s := cfg.sssd
  let kdcHost := extractHostFromUri cfg.ldapUri
  (if settingOr s.authProvider "ldap" = "krb5".toList then
      ("chpass_provider", "krb5".toList) ::
        if s.krb5Validate.isNone then [("krb5_validate", "false".toList)] else []
    else []) ++
  [("krb5_realm", effectiveRealm cfg),
    ("krb5_server", ((nonEmpty s.krb5Server).map trim).getD kdcHost),
    ("krb5_kpasswd", ((nonEmpty s.krb5Kpasswd).map trim).getD kdcHost)] ++
  optionalPair "ldap_tls_reqcert" ((nonEmpty s.ldapTlsReqcert).map trim) ++
  optionalPair "ldap_tls_cacert" ((nonEmpty s.ldapTlsCacert).map trim) ++
  optionalPair "ldap_id_use_start_tls" (s.ldapIdUseStartTls.map boolWord) ++
  optionalPair "ldap_user_fullname" ((nonEmpty s.ldapUserFullname).map trim) ++
  optionalPair "krb5_validate" (s.krb5Validate.map boolWord) ++
  optionalPair "krb5_store_password_if_offline" (s.krb5StorePasswordIfOffline.map boolWord) ++
  if startsWith cfg.ldapUri "ldap://" && s.ldapAuthDisableTlsNeverUseInProduction.getD true then
    [("ldap_auth_disable_tls_never_use_in_production", "true".toList)]
  else []

/-- The attributes the directory need not be asked for. -/
def ignoredAttributeSettings (s : SssdSection) : List (String × Str) :=
  if s.kllldapIgnoredAttributes.getD true then
    [("ignored_user_attributes", tomlArrayLiteral recommendedIgnoredUserAttributes),
      ("ignored_group_attributes", tomlArrayLiteral recommendedIgnoredGroupAttributes)]
  else []

/-- The settings of the domain, in the order of the file. -/
def sssdDomainSettings (env : Environment) (cfg : NfsKlldapConfig) : List (String × Str) :=
  let bases := effectiveLdapSearchBases env cfg.sssd (effectiveRealm cfg)
  let mapping := resolvePosixAttributeMapping cfg.sssd
  sssdDirectorySettings env cfg ++ sssdCacheSettings cfg.sssd ++ sssdUserSettings bases.1 mapping ++
    sssdGroupSettings bases.2 mapping ++ [("ldap_group_member", mapping.groupMember)] ++
    sssdSchemaSettings cfg.sssd ++ sssdSecuritySettings cfg ++ ignoredAttributeSettings cfg.sssd

/-- What `sssd.conf` is to say. -/
def sssdSigns (env : Environment) (cfg : NfsKlldapConfig) : List Sign :=
  iniSection "sssd".toList
      [("config_file_version", "2".toList), ("services", "nss, pam".toList),
        ("domains", sssdDomainName cfg)] ++
    iniSection "nss".toList [("filter_users", "root".toList), ("filter_groups", "root".toList)] ++
    iniSection ("domain/".toList ++ sssdDomainName cfg) (sssdDomainSettings env cfg)

/-- What `idmapd.conf` is to say. -/
def idmapSigns (cfg : NfsKlldapConfig) : List Sign :=
  iniSection "General".toList
      [("Verbosity", "0".toList), ("Domain", nfsv4Domain cfg), ("Local-Realms", nfsv4Domain cfg)] ++
    iniSection "Mapping".toList
      [("Nobody-User", "nobody".toList), ("Nobody-Group", "nogroup".toList)] ++
    iniSection "Translation".toList
      [("Method", "nsswitch".toList), ("GSS-Methods", "nsswitch".toList)]

/-- What `krb5.conf` is to say: the realm has a group, and the names of its hosts map to it. -/
def krb5Signs (env : Environment) (cfg : NfsKlldapConfig) : List Sign :=
  let realm := effectiveRealm cfg
  let realmLower := env.toLowercase realm
  let kdcHost := extractHostFromUri cfg.ldapUri
  iniSection "libdefaults".toList
      [("default_realm", realm), ("dns_lookup_realm", "false".toList),
        ("dns_lookup_kdc", "false".toList), ("rdns", "false".toList),
        ("ticket_lifetime", "24h".toList), ("renew_lifetime", "7d".toList),
        ("forwardable", "true".toList)] ++
    .header "realms".toList :: .opening realm ::
      [.setting "kdc".toList kdcHost, .setting "admin_server".toList kdcHost, .closing] ++
    [.header "domain_realm".toList, .setting ('.' :: realmLower) realm, .setting realmLower realm]

/-! ## The files as lines -/

/-- A setting on a line of its own. -/
def settingOn (indent : ℕ) (s : String × Str) : Line := .sign indent (.setting s.1.toList s.2)

/-- The lines of `sssd.conf` in front of the options of the directory. -/
def sssdFrontLines (env : Environment) (cfg : NfsKlldapConfig) : List Line :=
  [.comment generatedLine,
    .comment ("# Realm: ".toList ++ effectiveRealm cfg ++ " | domain: ".toList ++ sssdDomainName cfg ++
      " | auth: ".toList ++ sssdAuthProvider cfg ++ " | enumerate: ".toList ++
      boolWord (cfg.sssd.enumerate.getD false)),
    .blank,
    .sign 0 (.header "sssd".toList),
    settingOn 0 ("config_file_version", "2".toList),
    settingOn 0 ("services", "nss, pam".toList),
    settingOn 0 ("domains", sssdDomainName cfg),
    .blank,
    .sign 0 (.header "nss".toList),
    settingOn 0 ("filter_users", "root".toList),
    settingOn 0 ("filter_groups", "root".toList),
    .blank,
    .sign 0 (.header ("domain/".toList ++ sssdDomainName cfg))] ++
  (sssdDirectorySettings env cfg).map (settingOn 0) ++
  .comment "# SSSD entry cache timeouts from nfs-klldap.conf (defaults below)".toList ::
    (sssdCacheSettings cfg.sssd).map (settingOn 0)

/-- The lines of the attributes. -/
def sssdAttributeLines (s : SssdSection) (userBase groupBase : Str)
    (mapping : PosixAttributeMapping) : List Line :=
  (sssdUserSettings userBase mapping).map (settingOn 0) ++
    .blank :: (sssdGroupSettings groupBase mapping).map (settingOn 0) ++
    [.comment "# For KLLDAP + rfc2307bis we recommend \"member\" (DNs) or \"uniqueMember\\\"".toList,
      .comment "# Defaults to \"member\" when kllldap_ignored_attributes is active.".toList,
      settingOn 0 ("ldap_group_member", mapping.groupMember),
      .blank] ++
    (sssdSchemaSettings s).map (settingOn 0) ++
    [.comment "# Informational (computed from active POSIX attribute mappings above):".toList,
      .comment "# ldap_user_extra_attrs only *adds* (it does not restrict).".toList,
      .comment "# Shown for reference/debugging only:".toList,
      .comment (settingLine "#ldap_user_attributes" ([','].intercalate (userAttrList s mapping))),
      .comment (settingLine "#ldap_group_attributes" ([','].intercalate (groupAttrList mapping)))]

/-- The lines on the attributes the directory need not be asked for. -/
def ignoredAttributeLines : List Line :=
  let rule := "# -----------------------------------------------------------------------------".toList
  [.comment rule,
    .comment "# KLLDAP server-side ignored attributes".toList,
    .comment rule,
    .comment "# SSSD and similar clients request many AD-compat attributes.".toList,
    .comment "# KLLDAP does not store them.".toList,
    .comment "# Without server-side ignores".toList,
    .comment "# logs fill with \"unknown attribute\" noise and some".toList,
    .comment "# clients retry aggressively (TLS disconnects, high CPU)".toList,
    .comment "# Keep [sssd] kllldap_ignored_attributes = true (default) in nfs-klldap.conf.".toList,
    .comment "#".toList,
    .comment "# ldap_group_member = \"member\" when ignores are enabled (not legacy memberUid)".toList,
    .comment "#".toList,
    .comment "# To disable: add \"kllldap_ignored_attributes = false\" in nfs-klldap.conf".toList,
    .comment rule,
    settingOn 0 ("ignored_user_attributes", tomlArrayLiteral recommendedIgnoredUserAttributes),
    settingOn 0 ("ignored_group_attributes", tomlArrayLiteral recommendedIgnoredGroupAttributes)]

/-- The lines of `sssd.conf`. -/
def sssdLines (env : Environment) (cfg : NfsKlldapConfig) : List Line :=
  let bases := effectiveLdapSearchBases env cfg.sssd (effectiveRealm cfg)
  sssdFrontLines env cfg ++
    (sssdAttributeLines cfg.sssd bases.1 bases.2 (resolvePosixAttributeMapping cfg.sssd) ++
      (sssdSecuritySettings cfg).map (settingOn 0)) ++
    if cfg.sssd.kllldapIgnoredAttributes.getD true then ignoredAttributeLines ++ [.blank] else []

/-- The lines of `idmapd.conf`. -/
def idmapLines (cfg : NfsKlldapConfig) : List Line :=
  [.comment generatedLine,
    .comment "# Routes user@REALM via nsswitch + getpwnam (nss_wrapper/sssd) for krb5*.".toList,
    .blank,
    .sign 0 (.header "General".toList),
    settingOn 0 ("Verbosity", "0".toList),
    settingOn 0 ("Domain", nfsv4Domain cfg),
    settingOn 0 ("Local-Realms", nfsv4Domain cfg),
    .blank,
    .sign 0 (.header "Mapping".toList),
    settingOn 0 ("Nobody-User", "nobody".toList),
    settingOn 0 ("Nobody-Group", "nogroup".toList),
    .blank,
    .sign 0 (.header "Translation".toList),
    settingOn 0 ("Method", "nsswitch".toList),
    settingOn 0 ("GSS-Methods", "nsswitch".toList),
    .comment ("# krb5/krb5p/krb5i: nsswitch + UseGetpwnam=true (getpwuid_r + getgrouplist LogInfo); " ++
      "see ganesha-ctl id-resolve").toList]

/-- The lines of `krb5.conf`. -/
def krb5Lines (env : Environment) (cfg : NfsKlldapConfig) : List Line :=
  let realm := effectiveRealm cfg
  let realmLower := env.toLowercase realm
  let kdcHost := extractHostFromUri cfg.ldapUri
  [.sign 0 (.header "libdefaults".toList),
    settingOn 4 ("default_realm", realm),
    settingOn 4 ("dns_lookup_realm", "false".toList),
    settingOn 4 ("dns_lookup_kdc", "false".toList),
    settingOn 4 ("rdns", "false".toList),
    settingOn 4 ("ticket_lifetime", "24h".toList),
    settingOn 4 ("renew_lifetime", "7d".toList),
    settingOn 4 ("forwardable", "true".toList),
    .blank,
    .sign 0 (.header "realms".toList),
    .sign 4 (.opening realm),
    settingOn 8 ("kdc", kdcHost),
    settingOn 8 ("admin_server", kdcHost),
    .sign 4 .closing,
    .blank,
    .sign 0 (.header "domain_realm".toList),
    .sign 4 (.setting ('.' :: realmLower) realm),
    .sign 4 (.setting realmLower realm)]

/-! ## The texts are these lines -/

/-- A setting at the left margin is the line of its key and value. -/
theorem text_settingOn (s : String × Str) : (settingOn 0 s).text = settingLine s.1 s.2 := by
  rw [settingOn, Line.text, List.replicate_zero, List.nil_append]
  rfl

/-- A setting that is always the same, as the source has it. -/
theorem settingLine_toList (key value : String) :
    settingLine key value.toList = (key ++ " = " ++ value).toList := by
  rw [String.toList_append, String.toList_append]
  rfl

/-- The block of attributes, line by line. -/
theorem ldapAttributeLines_eq (s : SssdSection) (userBase groupBase : Str)
    (mapping : PosixAttributeMapping) :
    ldapAttributeLines s userBase groupBase mapping =
      (sssdAttributeLines s userBase groupBase mapping).map Line.text := by
  simp only [ldapAttributeLines, sssdAttributeLines, sssdUserSettings, sssdGroupSettings,
    sssdSchemaSettings, List.map_cons, List.map_nil, List.cons_append, List.nil_append,
    text_settingOn, settingLine_toList]
  rfl

/-- A setting that may be missing is a line or none. -/
theorem optionalSetting_eq (key : String) (value : Option Str) :
    optionalSetting key value = ((optionalPair key value).map (settingOn 0)).map Line.text := by
  cases value with
  | none => rfl
  | some v => rw [optionalPair, Option.map_some, Option.getD_some, List.map_singleton,
      List.map_singleton, text_settingOn, optionalSetting, Option.map_some, Option.getD_some]

/-- The block of security settings, line by line. -/
theorem ldapSecurityLines_eq (cfg : NfsKlldapConfig) :
    ldapSecurityLines cfg = ((sssdSecuritySettings cfg).map (settingOn 0)).map Line.text := by
  simp only [ldapSecurityLines, sssdSecuritySettings, List.map_append, ← optionalSetting_eq]
  congr 1
  · congr 8
    · by_cases hkrb5 : settingOr cfg.sssd.authProvider "ldap" = "krb5".toList
      · rw [if_pos hkrb5, if_pos hkrb5]
        by_cases hvalidate : cfg.sssd.krb5Validate.isNone = true
        · rw [if_pos hvalidate, if_pos hvalidate]
          simp only [List.map_cons, List.map_nil, text_settingOn, settingLine_toList]
          rfl
        · rw [if_neg hvalidate, if_neg hvalidate]
          simp only [List.map_cons, List.map_nil, text_settingOn, settingLine_toList]
          rfl
      · rw [if_neg hkrb5, if_neg hkrb5]
        rfl
    · rw [text_settingOn]
    · simp only [List.map_cons, List.map_nil, text_settingOn]
  · split
    · simp only [List.map_cons, List.map_nil, text_settingOn, settingLine_toList]
      rfl
    · rfl

/-- The block about ignored attributes, line by line. -/
theorem kllldapIgnoredAttributesCommentBlock_eq :
    kllldapIgnoredAttributesCommentBlock = print (ignoredAttributeLines ++ [.blank]) := by
  rw [← unlines_eq_print]
  rfl

/-- **The options of the domain**, line by line. -/
theorem buildLdapDomainOptions_eq (cfg : NfsKlldapConfig) (userBase groupBase : Str)
    (mapping : PosixAttributeMapping) :
    buildLdapDomainOptions cfg userBase groupBase mapping =
      print ((sssdAttributeLines cfg.sssd userBase groupBase mapping ++
        (sssdSecuritySettings cfg).map (settingOn 0)) ++
        if cfg.sssd.kllldapIgnoredAttributes.getD true then ignoredAttributeLines ++ [.blank]
        else []) := by
  have hne : sssdAttributeLines cfg.sssd userBase groupBase mapping ++
      (sssdSecuritySettings cfg).map (settingOn 0) ≠ [] := by
    simp [sssdAttributeLines]
  rw [buildLdapDomainOptions, ldapAttributeLines_eq, ldapSecurityLines_eq, ← List.map_append]
  by_cases hignored : cfg.sssd.kllldapIgnoredAttributes.getD true = true
  · rw [if_pos hignored, if_pos hignored,
      print_append hne (List.append_ne_nil_of_right_ne_nil _ (List.cons_ne_nil _ [])),
      kllldapIgnoredAttributesCommentBlock_eq, print, print]
  · rw [if_neg hignored, if_neg hignored, List.append_nil, List.append_nil, print]

/-- `sssd.conf`, line by line. -/
theorem sssdConf_eq (env : Environment) (cfg : NfsKlldapConfig) :
    sssdConf env cfg = print (sssdLines env cfg) := by
  have hne : ∀ bases : Str × Str,
      (sssdAttributeLines cfg.sssd bases.1 bases.2 (resolvePosixAttributeMapping cfg.sssd) ++
        (sssdSecuritySettings cfg).map (settingOn 0)) ++
        (if cfg.sssd.kllldapIgnoredAttributes.getD true then ignoredAttributeLines ++ [.blank]
          else []) ≠ [] := by
    intro bases
    simp [sssdAttributeLines]
  rw [sssdLines, List.append_assoc, ← unlines_append_print _ (hne _), ← buildLdapDomainOptions_eq,
    sssdConf]
  congr 2
  simp only [sssdFrontLines, sssdDirectorySettings, sssdCacheSettings, List.map_cons, List.map_nil,
    List.cons_append, List.nil_append, text_settingOn, settingLine_toList]
  rfl

/-- `idmapd.conf`, line by line. -/
theorem idmapConf_eq (cfg : NfsKlldapConfig) :
    idmapConf cfg = print (idmapLines cfg ++ [.blank]) := by
  rw [← unlines_eq_print, idmapConf, idmapLines]
  simp only [List.map_cons, List.map_nil, Line.text, settingOn, Sign.text, List.replicate,
    List.nil_append, settingLine]
  rfl

/-- `krb5.conf`, line by line. -/
theorem krb5Conf_eq (env : Environment) (cfg : NfsKlldapConfig) :
    krb5Conf env cfg = print (krb5Lines env cfg ++ [.blank]) := by
  rw [← unlines_eq_print, krb5Conf, krb5Lines]
  simp only [List.map_cons, List.map_nil, Line.text, settingOn, Sign.text, List.replicate,
    List.nil_append, List.cons_append, settingLine]
  rfl

/-! ## What the lines say -/

/-- A setting is a sign of its key and value. -/
@[simp] theorem sign?_settingOn (indent : ℕ) (s : String × Str) :
    (settingOn indent s).sign? = some (.setting s.1.toList s.2) := rfl

/-- A setting is no comment. -/
@[simp] theorem comment?_settingOn (indent : ℕ) (s : String × Str) :
    (settingOn indent s).comment? = none := rfl

/-- Settings are signs, one for each. -/
@[simp] theorem filterMap_sign?_settingOn (indent : ℕ) (settings : List (String × Str)) :
    (settings.map (settingOn indent)).filterMap Line.sign? =
      settings.map fun s => .setting s.1.toList s.2 := by
  rw [List.filterMap_map, ← List.filterMap_eq_map]
  rfl

/-- Settings hold no comments. -/
@[simp] theorem filterMap_comment?_settingOn (indent : ℕ) (settings : List (String × Str)) :
    (settings.map (settingOn indent)).filterMap Line.comment? = [] := by
  rw [List.filterMap_map, List.filterMap_eq_nil_iff]
  exact fun _ _ => rfl

/-- The signs among the lines of `sssd.conf` are those it is meant to have. -/
theorem filterMap_sign?_sssdLines (env : Environment) (cfg : NfsKlldapConfig) :
    (sssdLines env cfg).filterMap Line.sign? = sssdSigns env cfg := by
  have hignored : (if cfg.sssd.kllldapIgnoredAttributes.getD true then
      ignoredAttributeLines ++ [.blank] else []).filterMap Line.sign? =
      (ignoredAttributeSettings cfg.sssd).map fun s => .setting s.1.toList s.2 := by
    rw [ignoredAttributeSettings]
    split
    · rfl
    · rfl
  rw [sssdLines, List.filterMap_append, hignored]
  simp only [sssdFrontLines, sssdAttributeLines, sssdSigns, iniSection, sssdDomainSettings,
    List.filterMap_append, List.filterMap_cons, sign?_settingOn, filterMap_sign?_settingOn,
    Line.sign?_blank, Line.sign?_comment, Line.sign?_sign, List.map_append, List.map_cons,
    List.map_nil, List.append_assoc, List.cons_append, List.nil_append]

/-- The signs among the lines of `idmapd.conf` are those it is meant to have. -/
theorem filterMap_sign?_idmapLines (cfg : NfsKlldapConfig) :
    (idmapLines cfg ++ [Line.blank]).filterMap Line.sign? = idmapSigns cfg := by
  simp only [idmapLines, idmapSigns, iniSection, List.filterMap_cons, List.filterMap_nil,
    sign?_settingOn, Line.sign?_blank, Line.sign?_comment, Line.sign?_sign, List.map_cons,
    List.map_nil, List.cons_append, List.nil_append]

/-- The signs among the lines of `krb5.conf` are those it is meant to have. -/
theorem filterMap_sign?_krb5Lines (env : Environment) (cfg : NfsKlldapConfig) :
    (krb5Lines env cfg ++ [Line.blank]).filterMap Line.sign? = krb5Signs env cfg := by
  simp only [krb5Lines, krb5Signs, iniSection, List.filterMap_cons, List.filterMap_nil,
    sign?_settingOn, Line.sign?_blank, Line.sign?_sign, List.map_cons,
    List.map_nil, List.cons_append, List.nil_append]

/-! ## The texts of the config -/

/-- The texts of the config that are in `sssd.conf`, as it has them. -/
def sssdValues (env : Environment) (cfg : NfsKlldapConfig) : List Str :=
  let s := cfg.sssd
  let bases := effectiveLdapSearchBases env s (effectiveRealm cfg)
  let mapping := resolvePosixAttributeMapping s
  let kdcHost := extractHostFromUri cfg.ldapUri
  [sssdDomainName cfg, sssdAuthProvider cfg, cfg.ldapUri,
    ldapSearchBase env s (effectiveRealm cfg), s.ldapDefaultBindDn, s.ldapDefaultAuthtok, bases.1,
    mapping.userObjectClass, mapping.userName, mapping.userUidNumber, mapping.userGidNumber,
    mapping.userHomeDirectory, mapping.userShell, bases.2, mapping.groupObjectClass,
    mapping.groupName, mapping.groupGidNumber, mapping.groupMember,
    settingOr s.ldapSchema "rfc2307bis", (nonEmpty s.accessProvider).getD "permit".toList,
    effectiveRealm cfg, ((nonEmpty s.krb5Server).map trim).getD kdcHost,
    ((nonEmpty s.krb5Kpasswd).map trim).getD kdcHost] ++
  ((nonEmpty s.ldapTlsReqcert).map trim).toList ++ ((nonEmpty s.ldapTlsCacert).map trim).toList ++
    ((nonEmpty s.ldapUserFullname).map trim).toList

/-- The texts of the config that are in `krb5.conf`: the realm is there as a key and as a value. -/
def Krb5Readable (env : Environment) (cfg : NfsKlldapConfig) : Prop :=
  Key true (effectiveRealm cfg) ∧ Value true (effectiveRealm cfg) ∧
    Key true (env.toLowercase (effectiveRealm cfg)) ∧ Value true (extractHostFromUri cfg.ldapUri)

/-- The keys of the domain's section, in the order of the file; where `krb5_validate` stands depends on
whether the config has it. -/
def sssdDomainKeys (validate : Bool) : List String :=
  ["id_provider", "auth_provider", "ldap_uri", "ldap_search_base", "ldap_default_bind_dn",
    "ldap_default_authtok", "cache_credentials", "entry_cache_timeout", "entry_negative_timeout",
    "ldap_user_search_base", "ldap_user_search_scope", "ldap_user_object_class", "ldap_user_name",
    "ldap_user_uid_number", "ldap_user_gid_number", "ldap_user_home_directory", "ldap_user_shell",
    "ldap_group_search_base", "ldap_group_search_scope", "ldap_group_object_class", "ldap_group_name",
    "ldap_group_gid_number", "ldap_group_member", "ldap_schema", "ldap_pwd_policy", "ldap_id_mapping",
    "enumerate", "access_provider"] ++
  ("chpass_provider" :: (if validate then [] else ["krb5_validate"])) ++
  ["krb5_realm", "krb5_server", "krb5_kpasswd"] ++ ["ldap_tls_reqcert"] ++ ["ldap_tls_cacert"] ++
  ["ldap_id_use_start_tls"] ++ ["ldap_user_fullname"] ++
  (if validate then ["krb5_validate"] else []) ++ ["krb5_store_password_if_offline"] ++
  ["ldap_auth_disable_tls_never_use_in_production"] ++
  ["ignored_user_attributes", "ignored_group_attributes"]

/-- No key of the domain is there twice. -/
theorem nodup_sssdDomainKeys (validate : Bool) : (sssdDomainKeys validate).Nodup := by
  cases validate with
  | false => decide
  | true => decide

/-- The keys of the domain are read as keys. -/
theorem key_of_mem_sssdDomainKeys (validate : Bool) :
    ∀ k ∈ sssdDomainKeys validate, Key false k.toList := by
  have hwords : ∀ validate, ∀ k ∈ sssdDomainKeys validate,
      k ≠ "" ∧ k.toList.all isWordChar = true := by
    intro validate
    cases validate with
    | false => decide
    | true => decide
  exact fun k hk => key_toList false k (hwords validate k hk)

/-- A setting that may be missing has its key or none. -/
theorem keys_optionalPair (key : String) (value : Option Str) :
    ((optionalPair key value).map Prod.fst).Sublist [key] := by
  cases value with
  | none => exact List.nil_sublist _
  | some v => exact List.Sublist.refl _

/-- The settings of the domain have its keys, in their order. -/
theorem keys_sssdDomainSettings (env : Environment) (cfg : NfsKlldapConfig) :
    ((sssdDomainSettings env cfg).map Prod.fst).Sublist
      (sssdDomainKeys cfg.sssd.krb5Validate.isSome) := by
  -- the settings that depend on others, one group after the other
  have hchpass : ((if settingOr cfg.sssd.authProvider "ldap" = "krb5".toList then
      ("chpass_provider", "krb5".toList) ::
        if cfg.sssd.krb5Validate.isNone then [("krb5_validate", "false".toList)] else []
      else []).map Prod.fst).Sublist
      ("chpass_provider" :: if cfg.sssd.krb5Validate.isSome then [] else ["krb5_validate"]) := by
    split
    · rw [List.map_cons]
      refine List.Sublist.cons_cons _ ?_
      cases cfg.sssd.krb5Validate with
      | none => exact List.Sublist.refl _
      | some v => exact List.Sublist.refl _
    · exact List.nil_sublist _
  have hvalidate : ((optionalPair "krb5_validate" (cfg.sssd.krb5Validate.map boolWord)).map
      Prod.fst).Sublist (if cfg.sssd.krb5Validate.isSome then ["krb5_validate"] else []) := by
    cases cfg.sssd.krb5Validate with
    | none => exact List.Sublist.refl _
    | some v => exact List.Sublist.refl _
  have htls : ((if startsWith cfg.ldapUri "ldap://" &&
      cfg.sssd.ldapAuthDisableTlsNeverUseInProduction.getD true then
      [("ldap_auth_disable_tls_never_use_in_production", "true".toList)] else []).map
      Prod.fst).Sublist
      ["ldap_auth_disable_tls_never_use_in_production"] := by
    split
    · exact List.Sublist.refl _
    · exact List.nil_sublist _
  have hignored : ((ignoredAttributeSettings cfg.sssd).map Prod.fst).Sublist
      ["ignored_user_attributes", "ignored_group_attributes"] := by
    rw [ignoredAttributeSettings]
    split
    · exact List.Sublist.refl _
    · exact List.nil_sublist _
  -- group by group, in the order they are printed
  rw [sssdDomainSettings, sssdSecuritySettings, sssdDomainKeys]
  simp only [List.map_append, ← List.append_assoc]
  refine List.Sublist.append (.append (.append (.append (.append (.append (.append (.append (.append
    (.append ?_ hchpass) ?_) ?_) ?_) ?_) ?_) hvalidate) ?_) htls) hignored
  · exact List.Sublist.refl _
  · exact List.Sublist.refl _
  · exact keys_optionalPair _ _
  · exact keys_optionalPair _ _
  · exact keys_optionalPair _ _
  · exact keys_optionalPair _ _
  · exact keys_optionalPair _ _

/-- **No setting of the domain is there twice**, whatever the config says. -/
theorem nodup_sssdDomainSettings (env : Environment) (cfg : NfsKlldapConfig) :
    ((sssdDomainSettings env cfg).map Prod.fst).Nodup :=
  (keys_sssdDomainSettings env cfg).nodup (nodup_sssdDomainKeys _)

/-! ## When the signs can be read -/

/-- The words for yes and no are on one line. -/
theorem oneLine_boolWord (b : Bool) : OneLine (boolWord b) := by
  cases b with
  | false => decide
  | true => decide

/-- A number is on one line. -/
theorem oneLine_decimal (n : UInt32) : OneLine (decimal n) := by
  refine ⟨not_mem_decimal (by decide) n, trim_eq_self (fun c hc => ?_) (fun c hc => ?_)⟩
  · exact isWhitespace_of_isDigit (isDigit_of_mem_decimal (List.mem_of_mem_head? hc))
  · exact isWhitespace_of_isDigit (isDigit_of_mem_decimal (List.mem_of_mem_getLast? hc))

/-- A list of names without line feeds is on one line. -/
theorem oneLine_tomlArrayLiteral {names : List String} (h : ∀ n ∈ names, '\n' ∉ n.toList) :
    OneLine (tomlArrayLiteral names) := by
  refine ⟨fun hmem => ?_, trim_eq_self (fun c hc => ?_) (fun c hc => ?_)⟩
  · rw [tomlArrayLiteral, List.mem_cons, List.mem_append] at hmem
    rcases hmem with hmem | hmem | hmem
    · exact absurd hmem (by decide)
    · rcases mem_intercalate hmem with hsep | ⟨text, htext, hmem⟩
      · exact absurd hsep (by decide)
      · obtain ⟨n, hn, rfl⟩ := List.mem_map.mp htext
        rw [List.mem_cons, List.mem_append] at hmem
        exact hmem.elim (by decide) fun hmem => hmem.elim (h n hn) (by decide)
    · exact absurd hmem (by decide)
  · rw [tomlArrayLiteral, List.head?_cons, Option.mem_some_iff] at hc
    rw [← hc]
    decide
  · rw [tomlArrayLiteral, ← List.cons_append, List.getLast?_concat, Option.mem_some_iff] at hc
    rw [← hc]
    decide

/-- A section can be read when its name is on one line and its settings can be read. -/
theorem clean_iniSection_iff {groups : Bool} {name : Str} {settings : List (String × Str)} :
    (∀ s ∈ iniSection name settings, s.Clean groups) ↔
      OneLine name ∧ ∀ p ∈ settings, Key groups p.1.toList ∧ Value groups p.2 := by
  rw [iniSection, List.forall_mem_cons, List.forall_mem_map]
  rfl

/-- What holds of a setting that may be missing holds of its value, if there is one. -/
theorem forall_optionalPair_iff {key : String} {value : Option Str} {P : Str → Prop} :
    (∀ p ∈ optionalPair key value, P p.2) ↔ ∀ v ∈ value.toList, P v := by
  cases value with
  | none => simp [optionalPair]
  | some v => simp [optionalPair]

/-- The settings of the domain are on one line each when the texts of the config are. -/
theorem oneLine_sssdDomainSettings_iff (env : Environment) (cfg : NfsKlldapConfig) :
    (OneLine (sssdDomainName cfg) ∧ ∀ p ∈ sssdDomainSettings env cfg, OneLine p.2) ↔
      ∀ v ∈ sssdValues env cfg, OneLine v := by
  -- settings that are words of the generator are on one line
  have hchpass : ∀ p ∈ (if settingOr cfg.sssd.authProvider "ldap" = "krb5".toList then
      ("chpass_provider", "krb5".toList) ::
        if cfg.sssd.krb5Validate.isNone then [("krb5_validate", "false".toList)] else []
      else []), OneLine p.2 := by
    split
    · rw [List.forall_mem_cons]
      refine ⟨by decide, ?_⟩
      split
      · exact fun p hp => by rw [List.mem_singleton.mp hp]; decide
      · exact List.forall_mem_nil _
    · exact List.forall_mem_nil _
  have hoptional : ∀ value : Option Bool, ∀ v ∈ (value.map boolWord).toList, OneLine v := by
    intro value
    cases value with
    | none => exact fun v hv => absurd hv List.not_mem_nil
    | some b => exact fun v hv => by rw [List.mem_singleton.mp hv]; exact oneLine_boolWord b
  have htls : ∀ p ∈ (if startsWith cfg.ldapUri "ldap://" &&
      cfg.sssd.ldapAuthDisableTlsNeverUseInProduction.getD true then
      [("ldap_auth_disable_tls_never_use_in_production", "true".toList)] else []), OneLine p.2 := by
    split
    · exact fun p hp => by rw [List.mem_singleton.mp hp]; decide
    · exact List.forall_mem_nil _
  have hignored : ∀ p ∈ ignoredAttributeSettings cfg.sssd, OneLine p.2 := by
    rw [ignoredAttributeSettings]
    split
    · rw [List.forall_mem_cons, List.forall_mem_singleton]
      exact ⟨oneLine_tomlArrayLiteral (by decide), oneLine_tomlArrayLiteral (by decide)⟩
    · exact List.forall_mem_nil _
  -- the defaults are, too
  have hldap : OneLine "ldap".toList := by decide
  have htrue : OneLine "true".toList := by decide
  have hfalse : OneLine "false".toList := by decide
  have hsub : OneLine "sub".toList := by decide
  have hnone : OneLine "none".toList := by decide
  -- what is left on the other side are the texts of the config
  simp only [sssdDomainSettings, sssdDirectorySettings, sssdCacheSettings, sssdUserSettings,
    sssdGroupSettings, sssdSchemaSettings, sssdSecuritySettings, sssdValues, List.forall_mem_append,
    List.forall_mem_cons, forall_optionalPair_iff, iff_true_intro hchpass,
    iff_true_intro (hoptional _), iff_true_intro htls, iff_true_intro hignored, hldap, htrue, hfalse,
    hsub, hnone, oneLine_boolWord, oneLine_decimal, List.not_mem_nil, IsEmpty.forall_iff,
    implies_true, and_true, true_and, and_assoc]

/-- `sssd.conf` can be read when the texts of the config are on one line each. -/
theorem clean_sssdSigns_iff (env : Environment) (cfg : NfsKlldapConfig) :
    (∀ s ∈ sssdSigns env cfg, s.Clean false) ↔ ∀ v ∈ sssdValues env cfg, OneLine v := by
  rw [← oneLine_sssdDomainSettings_iff, sssdSigns, List.forall_mem_append, List.forall_mem_append,
    clean_iniSection_iff, clean_iniSection_iff, clean_iniSection_iff]
  constructor
  · rintro ⟨⟨⟨-, hsssd⟩, -⟩, -, hdomain⟩
    have hname := (hsssd ("domains", sssdDomainName cfg) (by simp)).2.1
    exact ⟨hname, fun p hp => (hdomain p hp).2.1⟩
  · rintro ⟨hname, hdomain⟩
    refine ⟨⟨⟨by decide, ?_⟩, by decide, ?_⟩, oneLine_append (by decide) hname (by decide), ?_⟩
    · rw [List.forall_mem_cons, List.forall_mem_cons, List.forall_mem_singleton]
      exact ⟨⟨key_toList false "config_file_version" (by decide), by decide⟩,
        ⟨key_toList false "services" (by decide), by decide⟩,
        key_toList false "domains" (by decide), hname, nofun⟩
    · rw [List.forall_mem_cons, List.forall_mem_singleton]
      exact ⟨⟨key_toList false "filter_users" (by decide), by decide⟩,
        key_toList false "filter_groups" (by decide), by decide⟩
    · intro p hp
      have hkey := (keys_sssdDomainSettings env cfg).subset (List.mem_map_of_mem hp)
      exact ⟨key_of_mem_sssdDomainKeys _ _ hkey, hdomain p hp, nofun⟩

/-- `idmapd.conf` can be read when the domain is on one line. -/
theorem clean_idmapSigns_iff (cfg : NfsKlldapConfig) :
    (∀ s ∈ idmapSigns cfg, s.Clean false) ↔ OneLine (nfsv4Domain cfg) := by
  rw [idmapSigns, List.forall_mem_append, List.forall_mem_append, clean_iniSection_iff,
    clean_iniSection_iff, clean_iniSection_iff]
  constructor
  · rintro ⟨⟨⟨-, hgeneral⟩, -⟩, -⟩
    exact (hgeneral ("Domain", nfsv4Domain cfg) (by simp)).2.1
  · intro hdomain
    refine ⟨⟨⟨by decide, ?_⟩, by decide, ?_⟩, by decide, ?_⟩
    · rw [List.forall_mem_cons, List.forall_mem_cons, List.forall_mem_singleton]
      exact ⟨⟨key_toList false "Verbosity" (by decide), by decide⟩,
        ⟨key_toList false "Domain" (by decide), hdomain, nofun⟩,
        key_toList false "Local-Realms" (by decide), hdomain, nofun⟩
    · rw [List.forall_mem_cons, List.forall_mem_singleton]
      exact ⟨⟨key_toList false "Nobody-User" (by decide), by decide⟩,
        key_toList false "Nobody-Group" (by decide), by decide⟩
    · rw [List.forall_mem_cons, List.forall_mem_singleton]
      exact ⟨⟨key_toList false "Method" (by decide), by decide⟩,
        key_toList false "GSS-Methods" (by decide), by decide⟩

/-- `krb5.conf` can be read when the realm and the host fit. -/
theorem clean_krb5Signs_iff (env : Environment) (cfg : NfsKlldapConfig) :
    (∀ s ∈ krb5Signs env cfg, s.Clean true) ↔ Krb5Readable env cfg := by
  rw [krb5Signs, List.append_assoc, List.forall_mem_append, clean_iniSection_iff]
  simp only [List.cons_append, List.nil_append, List.forall_mem_cons, Sign.Clean]
  constructor
  · rintro ⟨⟨-, ⟨-, hvalue⟩, -⟩, -, ⟨-, hrealm⟩, ⟨-, hkdc⟩, -, -, -, -, ⟨hlower, -⟩, -⟩
    exact ⟨hrealm, hvalue, hlower, hkdc⟩
  · rintro ⟨hrealm, hvalue, hlower, hkdc⟩
    -- the name with a dot in front of it starts with the dot
    have hdotted : Key true ('.' :: env.toLowercase (effectiveRealm cfg)) := by
      have hdot : OneLine ['.'] := by decide
      refine ⟨oneLine_append hdot hlower.oneLine (by decide), List.cons_ne_nil _ _, fun hmem => ?_,
        fun c hc => ?_⟩
      · exact (List.mem_cons.mp hmem).elim (by decide) hlower.equals
      · rw [List.head?_cons, Option.mem_some_iff] at hc
        rw [← hc]
        decide
    refine ⟨⟨by decide, ⟨key_toList true "default_realm" (by decide), hvalue⟩,
        ⟨key_toList true "dns_lookup_realm" (by decide), by decide⟩,
        ⟨key_toList true "dns_lookup_kdc" (by decide), by decide⟩,
        ⟨key_toList true "rdns" (by decide), by decide⟩,
        ⟨key_toList true "ticket_lifetime" (by decide), by decide⟩,
        ⟨key_toList true "renew_lifetime" (by decide), by decide⟩,
        ⟨key_toList true "forwardable" (by decide), by decide⟩, List.forall_mem_nil _⟩,
      by decide, ⟨trivial, hrealm⟩, ⟨key_toList true "kdc" (by decide), hkdc⟩,
      ⟨key_toList true "admin_server" (by decide), hkdc⟩, trivial, by decide, ⟨hdotted, hvalue⟩,
      ⟨hlower, hvalue⟩, List.forall_mem_nil _⟩

/-! ## The comments -/

/-- The attributes that are listed in a comment are among the texts of the file. -/
theorem not_mem_userAttrList {s : SssdSection} {mapping : PosixAttributeMapping}
    (hmapping : ∀ a ∈ [mapping.userName, mapping.userUidNumber, mapping.userGidNumber,
      mapping.userHomeDirectory, mapping.userShell], OneLine a)
    (hfullname : ∀ f ∈ ((nonEmpty s.ldapUserFullname).map trim).toList, OneLine f) :
    ∀ a ∈ userAttrList s mapping, '\n' ∉ a := by
  have hattrs : ∀ a ∈ [mapping.userName, mapping.userUidNumber, mapping.userGidNumber,
      mapping.userHomeDirectory, mapping.userShell, "objectClass".toList], '\n' ∉ a := by
    intro a ha
    rcases List.mem_append.mp (show a ∈ [mapping.userName, mapping.userUidNumber,
      mapping.userGidNumber, mapping.userHomeDirectory, mapping.userShell] ++
        ["objectClass".toList] from ha) with ha | ha
    · exact (hmapping a ha).1
    · rw [List.mem_singleton.mp ha]
      decide
  rw [userAttrList]
  cases hname : (nonEmpty s.ldapUserFullname).map trim with
  | none => exact hattrs
  | some f =>
    rw [hname] at hfullname
    dsimp only
    split
    · exact hattrs
    · rw [List.forall_mem_append]
      exact ⟨hattrs, fun a ha => (hfullname a ha).1⟩

/-- A setting whose key starts with `#` is a comment. -/
theorem comment_settingLine {key : String} {values : List Str} (hmark : key.toList.head? = some '#')
    (hkey : '\n' ∉ key.toList) (hvalues : ∀ v ∈ values, '\n' ∉ v) :
    Comment (settingLine key ([','].intercalate values)) := by
  refine ⟨?_, fun hmem => ?_⟩
  · rw [settingLine, List.append_assoc, List.head?_append, hmark, Option.some_or]
  · rw [settingLine] at hmem
    rcases List.mem_append.mp hmem with hmem | hmem
    · exact (List.mem_append.mp hmem).elim hkey (by decide)
    · rcases mem_intercalate hmem with hsep | ⟨v, hv, hmem⟩
      · exact absurd hsep (by decide)
      · exact hvalues v hv hmem

/-- The comments of `sssd.conf` are on one line each. -/
theorem comment_sssdLines {env : Environment} {cfg : NfsKlldapConfig}
    (h : ∀ v ∈ sssdValues env cfg, OneLine v) :
    ∀ text ∈ (sssdLines env cfg).filterMap Line.comment?, Comment text := by
  have hignored : ∀ text ∈ (if cfg.sssd.kllldapIgnoredAttributes.getD true then
      ignoredAttributeLines ++ [.blank] else []).filterMap Line.comment?, Comment text := by
    split
    · decide +kernel
    · exact fun text ht => absurd ht List.not_mem_nil
  simp only [sssdValues, List.forall_mem_append, List.forall_mem_cons] at h
  obtain ⟨⟨⟨⟨hdomain, hauth, -, -, -, -, -, -, hname, huid, hgid, hhome, hshell, -, -, hgroup,
    hgroupGid, hmember, -, -, hrealm, -⟩, -⟩, -⟩, hfullname⟩ := h
  have husers := not_mem_userAttrList (List.forall_mem_cons.mpr ⟨hname, List.forall_mem_cons.mpr
    ⟨huid, List.forall_mem_cons.mpr ⟨hgid, List.forall_mem_cons.mpr
      ⟨hhome, List.forall_mem_singleton.mpr hshell⟩⟩⟩⟩) hfullname
  have hgroups : ∀ a ∈ groupAttrList (resolvePosixAttributeMapping cfg.sssd), '\n' ∉ a := by
    rw [groupAttrList, List.forall_mem_cons, List.forall_mem_cons, List.forall_mem_cons,
      List.forall_mem_singleton]
    exact ⟨hgroup.1, hgroupGid.1, hmember.1, by decide⟩
  have hsummary : Comment ("# Realm: ".toList ++ effectiveRealm cfg ++ " | domain: ".toList ++
      sssdDomainName cfg ++ " | auth: ".toList ++ sssdAuthProvider cfg ++ " | enumerate: ".toList ++
      boolWord (cfg.sssd.enumerate.getD false)) := by
    have hword := (oneLine_boolWord (cfg.sssd.enumerate.getD false)).1
    refine ⟨rfl, ?_⟩
    simp only [List.mem_append, not_or]
    exact ⟨⟨⟨⟨⟨⟨⟨by decide, hrealm.1⟩, by decide⟩, hdomain.1⟩, by decide⟩, hauth.1⟩, by decide⟩, hword⟩
  simp only [sssdLines, sssdFrontLines, sssdAttributeLines, List.filterMap_append,
    List.filterMap_cons, comment?_settingOn, filterMap_comment?_settingOn, Line.comment?_blank,
    Line.comment?_comment, Line.comment?_sign, List.filterMap_nil, List.forall_mem_append,
    List.forall_mem_cons, List.not_mem_nil, IsEmpty.forall_iff, implies_true, and_true, true_and]
  exact ⟨⟨⟨⟨by decide +kernel, hsummary⟩, by decide +kernel⟩,
    ⟨⟨by decide +kernel, by decide +kernel⟩, by decide +kernel, by decide +kernel, by decide +kernel,
      comment_settingLine rfl (by decide) husers, comment_settingLine rfl (by decide) hgroups⟩⟩,
    hignored⟩

/-- **What the services read**: `sssd.conf`, `idmapd.conf` and `krb5.conf` say what they are to say, line
by line, exactly when the texts of the config that they hold are texts of one line without blanks around
them; in `krb5.conf` the realm and its name in lower case are keys too. No setting of the domain is there
twice, in any case. -/
theorem serviceTexts_iff (env : Environment) (cfg : NfsKlldapConfig) :
    (readIni false (sssdConf env cfg) = some (sssdSigns env cfg) ↔
      ∀ v ∈ sssdValues env cfg, OneLine v) ∧
    (readIni false (idmapConf cfg) = some (idmapSigns cfg) ↔ OneLine (nfsv4Domain cfg)) ∧
    (readIni true (krb5Conf env cfg) = some (krb5Signs env cfg) ↔ Krb5Readable env cfg) ∧
    ((sssdDomainSettings env cfg).map Prod.fst).Nodup := by
  refine ⟨?_, ?_, ?_, nodup_sssdDomainSettings env cfg⟩
  -- each text is printed lines: the signs among them come back when they are clean, comments never
  -- count
  · rw [sssdConf_eq, ← filterMap_sign?_sssdLines, ← clean_sssdSigns_iff, ← filterMap_sign?_sssdLines]
    refine readIni_print_iff (List.append_ne_nil_of_left_ne_nil
      (List.append_ne_nil_of_left_ne_nil (List.cons_ne_nil _ _) _) _) fun hclean => ?_
    rw [filterMap_sign?_sssdLines, clean_sssdSigns_iff] at hclean
    exact comment_sssdLines hclean
  · rw [idmapConf_eq, ← filterMap_sign?_idmapLines, ← clean_idmapSigns_iff,
      ← filterMap_sign?_idmapLines]
    refine readIni_print_iff (List.append_ne_nil_of_left_ne_nil (List.cons_ne_nil _ _) _) fun _ => ?_
    simp only [idmapLines, List.filterMap_append, List.filterMap_cons, comment?_settingOn,
      Line.comment?_blank, Line.comment?_comment, Line.comment?_sign, List.filterMap_nil,
      List.forall_mem_append, List.forall_mem_cons, List.not_mem_nil, IsEmpty.forall_iff,
      implies_true, and_true]
    exact ⟨by decide +kernel, by decide +kernel, by decide +kernel⟩
  · rw [krb5Conf_eq, ← filterMap_sign?_krb5Lines, ← clean_krb5Signs_iff, ← filterMap_sign?_krb5Lines]
    refine readIni_print_iff (List.append_ne_nil_of_left_ne_nil (List.cons_ne_nil _ _) _) fun _ => ?_
    simp only [krb5Lines, List.filterMap_append, List.filterMap_cons, comment?_settingOn,
      Line.comment?_blank, Line.comment?_sign, List.append_nil, List.filterMap_nil]
    exact fun text htext => absurd htext List.not_mem_nil

end NfsKlldap