import NfsKlldap.Generate.ExportDir
import NfsKlldap.Config.Revalidate

/-! # The texts of the service configurations (`generate/mod.rs`, `ignored_attributes.rs`)

What a config is written to for the services: `sssd.conf`, `krb5.conf`, `idmapd.conf`, `nfs.conf` and
the main file of Ganesha, which includes the fragments. -/

namespace NfsKlldap

open Text

/-- `nfsv4_domain` -/
def nfsv4Domain (cfg : NfsKlldapConfig) : Str := toAsciiUppercase (effectiveRealm cfg)

/-- The first line of the generated files. -/
def generatedLine : Str :=
  "# GENERATED by nfs-klldap-config — do not edit (source: nfs-klldap.conf)".toList

/-- `key = value` -/
def settingLine (key : String) (value : Str) : Str := key.toList ++ " = ".toList ++ value

/-- A line for a setting that may be left out. -/
def optionalSetting (key : String) (value : Option Str) : List Str :=
  (value.map fun v => [settingLine key v]).getD []

/-! ## `sssd.conf` -/

/-- `RECOMMENDED_IGNORED_USER_ATTRIBUTES` -/
def recommendedIgnoredUserAttributes : List String :=
  ["accountexpires", "authorizedservice", "gecos", "host", "krblastpwdchange",
    "krbpasswordexpiration", "loginallowedtimemap", "logindisabled", "loginexpirationtime",
    "nsaccountlock", "passkey", "pwdattribute", "rhost", "shadowexpire", "shadowflag",
    "shadowinactive", "shadowlastchange", "shadowmax", "shadowmin", "shadowwarning", "sudohost",
    "useraccountcontrol", "usercertificate;binary", "userpassword"]

/-- `RECOMMENDED_IGNORED_GROUP_ATTRIBUTES` -/
def recommendedIgnoredGroupAttributes : List String := ["memberuid", "userpassword", "sudohost"]

/-- A TOML array of texts. -/
def tomlArrayLiteral (names : List String) : Str :=
  '[' :: (", ".toList.intercalate (names.map fun n => '"' :: (n.toList ++ ['"'])) ++ [']'])

/-- `get_kllldap_ignored_attributes_comment_block` -/
def kllldapIgnoredAttributesCommentBlock : Str :=
  let rule := "# -----------------------------------------------------------------------------".toList
  unlines
    [rule,
      "# KLLDAP server-side ignored attributes".toList,
      rule,
      "# SSSD and similar clients request many AD-compat attributes.".toList,
      "# KLLDAP does not store them.".toList,
      "# Without server-side ignores".toList,
      "# logs fill with \"unknown attribute\" noise and some".toList,
      "# clients retry aggressively (TLS disconnects, high CPU)".toList,
      "# Keep [sssd] kllldap_ignored_attributes = true (default) in nfs-klldap.conf.".toList,
      "#".toList,
      "# ldap_group_member = \"member\" when ignores are enabled (not legacy memberUid)".toList,
      "#".toList,
      "# To disable: add \"kllldap_ignored_attributes = false\" in nfs-klldap.conf".toList,
      rule,
      settingLine "ignored_user_attributes" (tomlArrayLiteral recommendedIgnoredUserAttributes),
      settingLine "ignored_group_attributes" (tomlArrayLiteral recommendedIgnoredGroupAttributes)]

/-- The attributes of a user, the full name last if there is one that is not among the others. -/
def userAttrList (s : SssdSection) (mapping : PosixAttributeMapping) : List Str :=
  let attrs := [mapping.userName, mapping.userUidNumber, mapping.userGidNumber,
    mapping.userHomeDirectory, mapping.userShell, "objectClass".toList]
  match (nonEmpty s.ldapUserFullname).map trim with
  | some f => if attrs.any fun x => eqIgnoreAsciiCase x f then attrs else attrs ++ [f]
  | none => attrs

/-- The attributes that are listed for a group. -/
def groupAttrList (mapping : PosixAttributeMapping) : List Str :=
  [mapping.groupName, mapping.groupGidNumber, mapping.groupMember, "objectClass".toList]

/-- The bases, classes and attributes of `build_ldap_domain_options`. -/
def ldapAttributeLines (s : SssdSection) (userBase groupBase : Str)
    (mapping : PosixAttributeMapping) : List Str :=
  [settingLine "ldap_user_search_base" userBase,
    "ldap_user_search_scope = sub".toList,
    settingLine "ldap_user_object_class" mapping.userObjectClass,
    settingLine "ldap_user_name" mapping.userName,
    settingLine "ldap_user_uid_number" mapping.userUidNumber,
    settingLine "ldap_user_gid_number" mapping.userGidNumber,
    settingLine "ldap_user_home_directory" mapping.userHomeDirectory,
    settingLine "ldap_user_shell" mapping.userShell,
    [],
    settingLine "ldap_group_search_base" groupBase,
    "ldap_group_search_scope = sub".toList,
    settingLine "ldap_group_object_class" mapping.groupObjectClass,
    settingLine "ldap_group_name" mapping.groupName,
    settingLine "ldap_group_gid_number" mapping.groupGidNumber,
    "# For KLLDAP + rfc2307bis we recommend \"member\" (DNs) or \"uniqueMember\\\"".toList,
    "# Defaults to \"member\" when kllldap_ignored_attributes is active.".toList,
    settingLine "ldap_group_member" mapping.groupMember,
    [],
    settingLine "ldap_schema" (settingOr s.ldapSchema "rfc2307bis"),
    "ldap_pwd_policy = none".toList,
    "ldap_id_mapping = false".toList,
    settingLine "enumerate" (boolWord (s.enumerate.getD false)),
    settingLine "access_provider" ((nonEmpty s.accessProvider).getD "permit".toList),
    "# Informational (computed from active POSIX attribute mappings above):".toList,
    "# ldap_user_extra_attrs only *adds* (it does not restrict).".toList,
    "# Shown for reference/debugging only:".toList,
    settingLine "#ldap_user_attributes" ([','].intercalate (userAttrList s mapping)),
    settingLine "#ldap_group_attributes" ([','].intercalate (groupAttrList mapping))]

/-- The Kerberos and TLS settings of `build_ldap_domain_options`. -/
def ldapSecurityLines (cfg : NfsKlldapConfig) : List Str :=
  let s := cfg.sssd
  let kdcHost := extractHostFromUri cfg.ldapUri
  (if settingOr s.authProvider "ldap" = "krb5".toList then
      "chpass_provider = krb5".toList ::
        if s.krb5Validate.isNone then ["krb5_validate = false".toList] else []
    else []) ++
  [settingLine "krb5_realm" (effectiveRealm cfg),
    settingLine "krb5_server" (((nonEmpty s.krb5Server).map trim).getD kdcHost),
    settingLine "krb5_kpasswd" (((nonEmpty s.krb5Kpasswd).map trim).getD kdcHost)] ++
  optionalSetting "ldap_tls_reqcert" ((nonEmpty s.ldapTlsReqcert).map trim) ++
  optionalSetting "ldap_tls_cacert" ((nonEmpty s.ldapTlsCacert).map trim) ++
  optionalSetting "ldap_id_use_start_tls" (s.ldapIdUseStartTls.map boolWord) ++
  optionalSetting "ldap_user_fullname" ((nonEmpty s.ldapUserFullname).map trim) ++
  optionalSetting "krb5_validate" (s.krb5Validate.map boolWord) ++
  optionalSetting "krb5_store_password_if_offline" (s.krb5StorePasswordIfOffline.map boolWord) ++
  if startsWith cfg.ldapUri "ldap://" && s.ldapAuthDisableTlsNeverUseInProduction.getD true then
    ["ldap_auth_disable_tls_never_use_in_production = true".toList]
  else []

/-- `build_ldap_domain_options`: no newline at the end, unless the comment block follows. -/
def buildLdapDomainOptions (cfg : NfsKlldapConfig) (userBase groupBase : Str)
    (mapping : PosixAttributeMapping) : Str :=
  ['\n'].intercalate (ldapAttributeLines cfg.sssd userBase groupBase mapping ++
      ldapSecurityLines cfg) ++
    if cfg.sssd.kllldapIgnoredAttributes.getD true then
      '\n' :: kllldapIgnoredAttributesCommentBlock
    else []

/-- The text of `write_sssd_conf`. -/
def sssdConf (env : Environment) (cfg : NfsKlldapConfig) : Str :=
  let realm := effectiveRealm cfg
  let domainName := (nonEmpty cfg.sssd.domain).getD "default".toList
  let authProvider := (nonEmpty cfg.sssd.authProvider).getD "ldap".toList
  let bases := effectiveLdapSearchBases env cfg.sssd realm
  unlines
    [generatedLine,
      "# Realm: ".toList ++ realm ++ " | domain: ".toList ++ domainName ++ " | auth: ".toList ++
        authProvider ++ " | enumerate: ".toList ++ boolWord (cfg.sssd.enumerate.getD false),
      [],
      "[sssd]".toList,
      "config_file_version = 2".toList,
      "services = nss, pam".toList,
      settingLine "domains" domainName,
      [],
      "[nss]".toList,
      "filter_users = root".toList,
      "filter_groups = root".toList,
      [],
      "[domain/".toList ++ domainName ++ [']'],
      "id_provider = ldap".toList,
      settingLine "auth_provider" authProvider,
      settingLine "ldap_uri" cfg.ldapUri,
      settingLine "ldap_search_base" (ldapSearchBase env cfg.sssd realm),
      settingLine "ldap_default_bind_dn" cfg.sssd.ldapDefaultBindDn,
      settingLine "ldap_default_authtok" cfg.sssd.ldapDefaultAuthtok,
      "cache_credentials = true".toList,
      "# SSSD entry cache timeouts from nfs-klldap.conf (defaults below)".toList,
      settingLine "entry_cache_timeout" (decimal (cfg.sssd.entryCacheTimeout.getD 180)),
      settingLine "entry_negative_timeout" (decimal (cfg.sssd.entryNegativeTimeout.getD 60))] ++
    buildLdapDomainOptions cfg bases.1 bases.2 (resolvePosixAttributeMapping cfg.sssd)

/-! ## `krb5.conf`, `idmapd.conf` and `nfs.conf` -/

/-- The text of `write_krb5_conf`. -/
def krb5Conf (env : Environment) (cfg : NfsKlldapConfig) : Str :=
  let realm := effectiveRealm cfg
  let realmLower := env.toLowercase realm
  let kdcHost := extractHostFromUri cfg.ldapUri
  unlines
    ["[libdefaults]".toList,
      settingLine "    default_realm" realm,
      "    dns_lookup_realm = false".toList,
      "    dns_lookup_kdc = false".toList,
      "    rdns = false".toList,
      "    ticket_lifetime = 24h".toList,
      "    renew_lifetime = 7d".toList,
      "    forwardable = true".toList,
      [],
      "[realms]".toList,
      "    ".toList ++ realm ++ " = \x7b".toList,
      settingLine "        kdc" kdcHost,
      settingLine "        admin_server" kdcHost,
      "    \x7d".toList,
      [],
      "[domain_realm]".toList,
      "    .".toList ++ realmLower ++ " = ".toList ++ realm,
      "    ".toList ++ realmLower ++ " = ".toList ++ realm]

/-- The text of `write_idmap_conf`. -/
def idmapConf (cfg : NfsKlldapConfig) : Str :=
  unlines
    [generatedLine,
      "# Routes user@REALM via nsswitch + getpwnam (nss_wrapper/sssd) for krb5*.".toList,
      [],
      "[General]".toList,
      "Verbosity = 0".toList,
      settingLine "Domain" (nfsv4Domain cfg),
      settingLine "Local-Realms" (nfsv4Domain cfg),
      [],
      "[Mapping]".toList,
      "Nobody-User = nobody".toList,
      "Nobody-Group = nogroup".toList,
      [],
      "[Translation]".toList,
      "Method = nsswitch".toList,
      "GSS-Methods = nsswitch".toList,
      ("# krb5/krb5p/krb5i: nsswitch + UseGetpwnam=true (getpwuid_r + getgrouplist LogInfo); " ++
        "see ganesha-ctl id-resolve").toList]

/-- The text of `write_nfs_conf`, which does not depend on the config. -/
def nfsConf : Str :=
  unlines
    [generatedLine,
      "[general]".toList,
      "pipefs-directory=/run/rpc_pipefs".toList,
      [],
      "[gssd]".toList,
      "use-machine-creds=0".toList]

/-! ## The main file of Ganesha -/

/-- `ganesha_debug_enabled` -/
def ganeshaDebugEnabled (env : Environment) : Bool := (env.flag "GANESHA_DEBUG").getD false

/-- The path of the keytab. -/
def keytabPath (env : Environment) : Str :=
  (env.nonblank "NFS_KLLDAP_KEYTAB_PATH").getD "/etc/krb5.keytab".toList

/-- How long identity lookups are trusted: the setting, or the first of the two settings that were
called `manage_gids_expiration`, as far as it fits in 32 bits. -/
def idmappedValidity (cfg : NfsKlldapConfig) : UInt32 :=
  let fits (v : UInt64) : UInt32 := if v.toNat < 2 ^ 32 then v.toUInt32 else 4294967295
  (cfg.ganesha.idmappedValiditySecs.or
    ((cfg.ganesha.manageGidsExpirationSecs.or
      (cfg.shares.filterMap (·.manageGidsExpiration)).min?).map fits)).getD 180

/-- The line for the gids of RPC tokens. -/
def rpcCredLine (cfg : NfsKlldapConfig) : Str :=
  (if cfg.ganesha.enableRpcCredFallback.getD true then
    "    enable_rpc_cred_fallback = true;  # RPC token gids when uid2grp fails; may mask " ++
      "incomplete nss_wrapper membership."
  else
    "    enable_rpc_cred_fallback = false;  # fail closed on uid2grp miss (idhelper " ++
      "authoritative).").toList

/-- A directive without its newline. -/
def directive (key : String) (value : Str) : Str :=
  "    ".toList ++ key.toList ++ " = ".toList ++ value ++ [';']

/-- The core parameters of Ganesha. -/
def nfsCoreParam (cfg : NfsKlldapConfig) : List Str :=
  let g := cfg.ganesha
  ["NFS_CORE_PARAM \x7b".toList,
    directive "Protocols" (if cfg.navahiDiscovery then "3,4".toList else "4".toList),
    "    Enable_UDP = false;".toList,
    "    Bind_addr = 0.0.0.0;".toList,
    "    NFS_Port = 2049;".toList,
    "    Enable_RQUOTA = false;".toList,
    "    Enable_NLM = false;".toList] ++
  (if cfg.navahiDiscovery then
    ["    # Navahi: v3 MOUNT namespace = Pseudo; fixed MNT port for firewalls.".toList,
      "    Mount_Path_Pseudo = true;".toList,
      "    MNT_Port = 20048;".toList]
  else []) ++
  ["    Allow_Set_Io_Flusher_Fail = true;".toList,
    rpcCredLine cfg,
    "    # Bound concurrent uid->groups resolutions hitting SSSD/LLDAP (0 = unlimited).".toList,
    directive "Max_Uid_To_Group_Reqs" (decimal (g.maxUidToGroupReqs.getD 64)),
    directive "Readdir_Res_Size" (decimal (g.readdirResSize.getD 32768))] ++
  ((g.readdirMaxCount.map fun v => [directive "Readdir_Max_Count" (decimal v)]).getD []) ++
  ["    # Extra getattr-per-READ is an ESXi EOF workaround; fleet is Fedora immutable.".toList,
    directive "Getattrs_In_Complete_Read" (boolWord (g.getattrsInCompleteRead.getD false)),
    "    # Return freed heap to the OS on long-running operation (threshold in MB).".toList,
    directive "Enable_malloc_trim" (boolWord (g.mallocTrim.getD true)),
    directive "Malloc_trim_MinThreshold" (decimal (g.mallocTrimMinThresholdMb.getD 1024)),
    "\x7d".toList,
    []]

/-- Names and Kerberos. -/
def directoryServices (env : Environment) (cfg : NfsKlldapConfig) : List Str :=
  ["DIRECTORY_SERVICES \x7b".toList,
    directive "DomainName" (nfsv4Domain cfg),
    "    Pwnam_Implementation = nsswitch;".toList,
    ("    Pwutils_Use_Fully_Qualified_Names = true;  # principal2uid uses user@ form; " ++
      "getgrouplist uses passwd login from getpwuid_r.").toList,
    "    # Principal service-name parts granted root. Deliberately excludes `host`".toList,
    "    # so enrolled client machine keytabs cannot act as root on exports.".toList,
    directive "Root_Kerberos_Principal"
      (cfg.ganesha.rootKerberosPrincipals.getD "nfs, root".toList),
    "    # Seconds identity lookups AND getgroups() results under Manage_Gids stay".toList,
    "    # trusted — the single group-trust window on 9.13 (the old core-param".toList,
    "    # spelling warns and is no longer emitted). Group-change propagation =".toList,
    "    # SSSD entry_cache_timeout + this value.".toList,
    directive "Idmapped_User_Time_Validity" (decimal (idmappedValidity cfg)),
    directive "Idmapped_Group_Time_Validity" (decimal (idmappedValidity cfg)),
    "    # Failed-lookup memory: new LDAP users/groups become visible within this window.".toList,
    directive "Negative_Cache_Time_Validity"
      (decimal (cfg.ganesha.negativeCacheValiditySecs.getD 60)),
    "\x7d".toList,
    [],
    "NFS_KRB5 \x7b".toList,
    "    PrincipalName = \"nfs\";".toList,
    "    KeytabPath = \"".toList ++ keytabPath env ++ "\";".toList,
    "    Active_krb5 = TRUE;".toList,
    "\x7d".toList,
    []]

/-- The protocol and the defaults of the exports. -/
def exportDefaults (cfg : NfsKlldapConfig) : List Str :=
  ["NFSV4 \x7b".toList,
    "    Only_Numeric_Owners = true;".toList,
    "    Allow_Numeric_Owners = true;".toList,
    "    UseGetpwnam = true;".toList,
    "    RecoveryBackend = fs;".toList,
    "    # Must be volume-backed (nfs-klldap-host.yaml) so clients reclaim locks/opens".toList,
    "    # through grace after a container recreate, not just a process restart.".toList,
    "    RecoveryRoot = /var/lib/nfs/ganesha;".toList,
    "    Lease_Lifetime = 60;".toList,
    "    # Grace must be >= lease or a restarting server can refuse reclaims".toList,
    "    # (9.13 warns on 45/60); 90/60 is the upstream pairing.".toList,
    "    Grace_Period = 90;".toList,
    "\x7d".toList,
    [],
    "EXPORT_DEFAULTS \x7b".toList,
    directive "SecType" cfg.ganesha.defaultSecurity,
    "    Protocols = 4;".toList,
    "    # Attribute/ACL cache window; 0 = always fresh (getattr per op).".toList,
    directive "Attr_Expiration_Time"
      (toString (cfg.ganesha.attrExpirationSecs.getD 60).toInt).toList,
    "\x7d".toList]

/-- What is logged. -/
def ganeshaLog (env : Environment) : List Str :=
  if ganeshaDebugEnabled env then
    ["LOG \x7b".toList, "    Default_Log_Level = DEBUG;".toList, "    Components \x7b".toList,
      "        CLIENTID = FULL_DEBUG;".toList, "        SESSIONS = FULL_DEBUG;".toList,
      "        IDMAPPER = FULL_DEBUG;".toList, "        NFS_V4_ACL = DEBUG;".toList,
      "        NFS4 = DEBUG;".toList, "        DISPATCH = DEBUG;".toList,
      "        XPRT = DEBUG;".toList, "    \x7d".toList, "\x7d".toList, []]
  else
    ["LOG \x7b".toList, "    Default_Log_Level = INFO;".toList, "    Components \x7b".toList,
      "        CLIENTID = EVENT;".toList, "        SESSIONS = EVENT;".toList,
      "        IDMAPPER = EVENT;".toList, "        XPRT = EVENT;".toList, "    \x7d".toList,
      "\x7d".toList, []]

/-- The text of `write_ganesha_main`. -/
def ganeshaConf (t : CharTable) (env : Environment) (exportsDir : Str) (cfg : NfsKlldapConfig) :
    Str :=
  unlines (nfsCoreParam cfg ++ directoryServices env cfg ++ exportDefaults cfg ++ ganeshaLog env) ++
    (includeLines t exportsDir cfg).flatten

end NfsKlldap
