import NfsKlldap.Lib.Toml

/-! # The data model of `nfs-klldap.conf`

The config structures, what a parsed document decodes to, and the environment variables that override
it. A section that is missing takes the `Default` of its structure, which is blank throughout; a
section that is present takes the default of each missing key, which is not always blank. A key of
the wrong type fails the whole load, an unknown key is ignored. -/

namespace NfsKlldap

/-! ## Sections -/

/-- The section `[storage]`. -/
structure StorageSection where
  containerRoot : Str := []
  deriving DecidableEq

/-- The section `[server]`. -/
structure ServerSection where
  hostname : Option Str := none
  deriving DecidableEq

/-- The section `[sssd]`. -/
structure SssdSection where
  ldapDefaultBindDn : Str := []
  ldapDefaultAuthtok : Str := []
  port : Option UInt16 := none
  ldapUserSearchBase : Option Str := none
  ldapGroupSearchBase : Option Str := none
  ldapSearchBase : Option Str := none
  ldapTlsReqcert : Option Str := none
  ldapTlsCacert : Option Str := none
  ldapIdUseStartTls : Option Bool := none
  enumerate : Option Bool := none
  ldapUserObjectClass : Option Str := none
  ldapGroupObjectClass : Option Str := none
  ldapUserName : Option Str := none
  ldapUserUidNumber : Option Str := none
  ldapUserGidNumber : Option Str := none
  ldapUserHomeDirectory : Option Str := none
  ldapUserShell : Option Str := none
  ldapUserFullname : Option Str := none
  ldapGroupName : Option Str := none
  ldapGroupGidNumber : Option Str := none
  ldapGroupMember : Option Str := none
  domain : Option Str := none
  kllldapIgnoredAttributes : Option Bool := none
  authProvider : Option Str := none
  chpassProvider : Option Str := none
  ldapSchema : Option Str := none
  ldapIdMapping : Option Bool := none
  ldapAuthDisableTlsNeverUseInProduction : Option Bool := none
  accessProvider : Option Str := none
  useFullyQualifiedNames : Option Bool := none
  krb5Server : Option Str := none
  krb5Kpasswd : Option Str := none
  krb5Validate : Option Bool := none
  krb5StorePasswordIfOffline : Option Bool := none
  ldapUserPrincipalName : Option Str := none
  entryCacheTimeout : Option UInt32 := none
  entryNegativeTimeout : Option UInt32 := none
  deriving DecidableEq

/-- The section `[kerberos]`. -/
structure KerberosSection where
  realm : Option Str := none
  deriving DecidableEq

/-- The section `[ganesha]`. -/
structure GaneshaSection where
  defaultSecurity : Str := []
  postGenerateHook : Option Str := none
  warmPrincipals : List Str := []
  enableRpcCredFallback : Option Bool := none
  idmappedValiditySecs : Option UInt32 := none
  rootKerberosPrincipals : Option Str := none
  manageGidsExpirationSecs : Option UInt64 := none
  negativeCacheValiditySecs : Option UInt32 := none
  maxUidToGroupReqs : Option UInt32 := none
  readdirResSize : Option UInt32 := none
  readdirMaxCount : Option UInt32 := none
  getattrsInCompleteRead : Option Bool := none
  mallocTrim : Option Bool := none
  mallocTrimMinThresholdMb : Option UInt32 := none
  attrExpirationSecs : Option Int32 := none
  deriving DecidableEq

/-- The section `[management]`. -/
structure ManagementSection where
  webuiAdminGroup : Option Str := none
  deriving DecidableEq

/-- Startup identity-probe identities; unset auto-picks from the directory. -/
structure ProbeSection where
  userPrincipal : Option Str := none
  clientHost : Option Str := none
  deriving DecidableEq

/-- The section `[host]`. -/
structure HostSection where
  hostNfs : Option Bool := none
  deriving DecidableEq

/-- The section `[webui]`. -/
structure WebuiSection where
  tls : Option Bool := none
  tlsCert : Option Str := none
  tlsKey : Option Str := none
  sessionTimeoutMinutes : Option UInt16 := none
  deriving DecidableEq

/-- One `[[shares]]` table. -/
structure Share where
  name : Str
  hostPath : Str
  /-- Client Pseudo path, `/name` by default. -/
  pseudoPath : Option Str := none
  security : Option Str := none
  rw : Option Bool := none
  squash : Option Str := none
  cacheProfile : Option Str := none
  prefRead : Option UInt64 := none
  prefWrite : Option UInt64 := none
  /-- `none` is auto. -/
  enableAcl : Option Bool := none
  manageGids : Option Bool := none
  readAccessPolicy : Option Str := none
  manageGidsExpiration : Option UInt64 := none
  containerPath : Str
  sourcePath : Option Str := none
  attrExpirationSecs : Option Int32 := none
  navahiInsecure : Option Bool := none
  /-- Retired; a share that has it fails generate. -/
  umask : Option Str := none
  deriving DecidableEq

/-- The config of `nfs-klldap.conf`. The load-time warnings about unknown share keys are left out. -/
structure NfsKlldapConfig where
  ldapUri : Str := []
  navahiDiscovery : Bool := false
  storage : StorageSection := {}
  server : ServerSection := {}
  sssd : SssdSection := {}
  kerberos : KerberosSection := {}
  ganesha : GaneshaSection := {}
  management : ManagementSection := {}
  probe : ProbeSection := {}
  host : HostSection := {}
  webui : WebuiSection := {}
  shares : List Share := []
  deriving DecidableEq

/-- Why a config is refused. -/
inductive ConfigError where
  | io
  | parse
  | validation (msg : Str)
  deriving DecidableEq

/-! ## What a document decodes to -/

/-- The keys of every section, with their types. -/
def configSchema : List (Str × List (Str × LeafType)) :=
  [
    ("storage".toList,
      [("container_root".toList, .str)]),
    ("server".toList,
      [("hostname".toList, .str)]),
    ("sssd".toList,
      [("ldap_default_bind_dn".toList, .str), ("ldap_default_authtok".toList, .str),
       ("port".toList, .u16), ("ldap_user_search_base".toList, .str),
       ("ldap_group_search_base".toList, .str), ("ldap_search_base".toList, .str),
       ("ldap_tls_reqcert".toList, .str), ("ldap_tls_cacert".toList, .str),
       ("ldap_id_use_start_tls".toList, .bool), ("enumerate".toList, .bool),
       ("ldap_user_object_class".toList, .str), ("ldap_group_object_class".toList, .str),
       ("ldap_user_name".toList, .str), ("ldap_user_uid_number".toList, .str),
       ("ldap_user_gid_number".toList, .str), ("ldap_user_home_directory".toList, .str),
       ("ldap_user_shell".toList, .str), ("ldap_user_fullname".toList, .str),
       ("ldap_group_name".toList, .str), ("ldap_group_gid_number".toList, .str),
       ("ldap_group_member".toList, .str), ("domain".toList, .str),
       ("kllldap_ignored_attributes".toList, .bool), ("auth_provider".toList, .str),
       ("chpass_provider".toList, .str), ("ldap_schema".toList, .str),
       ("ldap_id_mapping".toList, .bool),
       ("ldap_auth_disable_tls_never_use_in_production".toList, .bool),
       ("access_provider".toList, .str), ("use_fully_qualified_names".toList, .bool),
       ("krb5_server".toList, .str), ("krb5_kpasswd".toList, .str),
       ("krb5_validate".toList, .bool), ("krb5_store_password_if_offline".toList, .bool),
       ("ldap_user_principal_name".toList, .str), ("entry_cache_timeout".toList, .u32),
       ("entry_negative_timeout".toList, .u32)]),
    ("kerberos".toList,
      [("realm".toList, .str)]),
    ("ganesha".toList,
      [("default_security".toList, .str), ("post_generate_hook".toList, .str),
       ("warm_principals".toList, .strs), ("enable_rpc_cred_fallback".toList, .bool),
       ("idmapped_validity_secs".toList, .u32), ("root_kerberos_principals".toList, .str),
       ("manage_gids_expiration_secs".toList, .u64),
       ("negative_cache_validity_secs".toList, .u32), ("max_uid_to_group_reqs".toList, .u32),
       ("readdir_res_size".toList, .u32), ("readdir_max_count".toList, .u32),
       ("getattrs_in_complete_read".toList, .bool), ("malloc_trim".toList, .bool),
       ("malloc_trim_min_threshold_mb".toList, .u32), ("attr_expiration_secs".toList, .i32)]),
    ("management".toList,
      [("webui_admin_group".toList, .str)]),
    ("probe".toList,
      [("user_principal".toList, .str), ("client_host".toList, .str)]),
    ("host".toList,
      [("host_nfs".toList, .bool)]),
    ("webui".toList,
      [("tls".toList, .bool), ("tls_cert".toList, .str), ("tls_key".toList, .str),
       ("session_timeout_minutes".toList, .u16)])]

/-- The top-level values. -/
def rootSchema : List (Str × LeafType) :=
  [("ldap_uri".toList, .str), ("navahi_discovery".toList, .bool)]

/-- The keys of a `[[shares]]` table. `export_path` is the old name of `pseudo_path`. -/
def shareSchema : List (Str × LeafType) :=
  [("name".toList, .str), ("host_path".toList, .str), ("pseudo_path".toList, .str),
   ("export_path".toList, .str), ("security".toList, .str), ("rw".toList, .bool),
   ("squash".toList, .str), ("cache_profile".toList, .str), ("pref_read".toList, .u64),
   ("pref_write".toList, .u64), ("enable_acl".toList, .bool), ("manage_gids".toList, .bool),
   ("read_access_policy".toList, .str), ("manage_gids_expiration".toList, .u64),
   ("container_path".toList, .str), ("source_path".toList, .str),
   ("attr_expiration_secs".toList, .i32), ("navahi_insecure".toList, .bool),
   ("umask".toList, .str)]

/-- A `[[shares]]` table: three keys are required, and the old name must not stand beside the new
one. -/
def decodeShare (t : Table) : Option Share :=
  if t.conforms shareSchema && (t.lookup "name".toList).isSome &&
      (t.lookup "host_path".toList).isSome && (t.lookup "container_path".toList).isSome &&
      !((t.lookup "pseudo_path".toList).isSome && (t.lookup "export_path".toList).isSome) then
    some
      { name := (t.str? "name".toList).getD []
        hostPath := (t.str? "host_path".toList).getD []
        pseudoPath := (t.str? "pseudo_path".toList).or (t.str? "export_path".toList)
        security := t.str? "security".toList
        rw := t.bool? "rw".toList
        squash := t.str? "squash".toList
        cacheProfile := t.str? "cache_profile".toList
        prefRead := t.u64? "pref_read".toList
        prefWrite := t.u64? "pref_write".toList
        enableAcl := t.bool? "enable_acl".toList
        manageGids := t.bool? "manage_gids".toList
        readAccessPolicy := t.str? "read_access_policy".toList
        manageGidsExpiration := t.u64? "manage_gids_expiration".toList
        containerPath := (t.str? "container_path".toList).getD []
        sourcePath := t.str? "source_path".toList
        attrExpirationSecs := t.i32? "attr_expiration_secs".toList
        navahiInsecure := t.bool? "navahi_insecure".toList
        umask := t.str? "umask".toList }
  else none

/-- The shares of a document. An empty array is no share, whatever it is meant to hold. -/
def decodeShares (d : Document) : Option (List Share) :=
  match d.lookup "shares".toList with
  | none => some []
  | some (.rows _ ts) => ts.mapM decodeShare
  | some (.leaf (.strs [])) => some []
  | some _ => none

/-- Every key that is present has the type the structures ask for. -/
def Document.wellTyped (d : Document) : Bool :=
  d.rootConforms rootSchema && configSchema.all fun s => d.sectionConforms s.1 s.2

/-- The default of `[storage] container_root`. -/
def defaultContainerRoot : Str := "/export".toList

/-- The default of `[ganesha] default_security`. -/
def defaultSecurity : Str := "krb5p".toList

/-- A string key with a default of its own, which a missing section does not take. -/
def Document.strOr (d : Document) (sec key dflt : Str) : Str :=
  if (d.lookup sec).isSome then (d.str? sec key).getD dflt else []

/-- `[storage]`, as it is read from a document. -/
def decodeStorage (d : Document) : StorageSection where
  containerRoot := d.strOr "storage".toList "container_root".toList defaultContainerRoot

/-- `[server]`, as it is read from a document. -/
def decodeServer (d : Document) : ServerSection where
  hostname := d.str? "server".toList "hostname".toList

/-- `[sssd]`, as it is read from a document. -/
def decodeSssd (d : Document) : SssdSection where
  ldapDefaultBindDn := (d.str? "sssd".toList "ldap_default_bind_dn".toList).getD []
  ldapDefaultAuthtok := (d.str? "sssd".toList "ldap_default_authtok".toList).getD []
  port := d.u16? "sssd".toList "port".toList
  ldapUserSearchBase := d.str? "sssd".toList "ldap_user_search_base".toList
  ldapGroupSearchBase := d.str? "sssd".toList "ldap_group_search_base".toList
  ldapSearchBase := d.str? "sssd".toList "ldap_search_base".toList
  ldapTlsReqcert := d.str? "sssd".toList "ldap_tls_reqcert".toList
  ldapTlsCacert := d.str? "sssd".toList "ldap_tls_cacert".toList
  ldapIdUseStartTls := d.bool? "sssd".toList "ldap_id_use_start_tls".toList
  enumerate := d.bool? "sssd".toList "enumerate".toList
  ldapUserObjectClass := d.str? "sssd".toList "ldap_user_object_class".toList
  ldapGroupObjectClass := d.str? "sssd".toList "ldap_group_object_class".toList
  ldapUserName := d.str? "sssd".toList "ldap_user_name".toList
  ldapUserUidNumber := d.str? "sssd".toList "ldap_user_uid_number".toList
  ldapUserGidNumber := d.str? "sssd".toList "ldap_user_gid_number".toList
  ldapUserHomeDirectory := d.str? "sssd".toList "ldap_user_home_directory".toList
  ldapUserShell := d.str? "sssd".toList "ldap_user_shell".toList
  ldapUserFullname := d.str? "sssd".toList "ldap_user_fullname".toList
  ldapGroupName := d.str? "sssd".toList "ldap_group_name".toList
  ldapGroupGidNumber := d.str? "sssd".toList "ldap_group_gid_number".toList
  ldapGroupMember := d.str? "sssd".toList "ldap_group_member".toList
  domain := d.str? "sssd".toList "domain".toList
  kllldapIgnoredAttributes := d.bool? "sssd".toList "kllldap_ignored_attributes".toList
  authProvider := d.str? "sssd".toList "auth_provider".toList
  chpassProvider := d.str? "sssd".toList "chpass_provider".toList
  ldapSchema := d.str? "sssd".toList "ldap_schema".toList
  ldapIdMapping := d.bool? "sssd".toList "ldap_id_mapping".toList
  ldapAuthDisableTlsNeverUseInProduction := d.bool? "sssd".toList "ldap_auth_disable_tls_never_use_in_production".toList
  accessProvider := d.str? "sssd".toList "access_provider".toList
  useFullyQualifiedNames := d.bool? "sssd".toList "use_fully_qualified_names".toList
  krb5Server := d.str? "sssd".toList "krb5_server".toList
  krb5Kpasswd := d.str? "sssd".toList "krb5_kpasswd".toList
  krb5Validate := d.bool? "sssd".toList "krb5_validate".toList
  krb5StorePasswordIfOffline := d.bool? "sssd".toList "krb5_store_password_if_offline".toList
  ldapUserPrincipalName := d.str? "sssd".toList "ldap_user_principal_name".toList
  entryCacheTimeout := d.u32? "sssd".toList "entry_cache_timeout".toList
  entryNegativeTimeout := d.u32? "sssd".toList "entry_negative_timeout".toList

/-- `[kerberos]`, as it is read from a document. -/
def decodeKerberos (d : Document) : KerberosSection where
  realm := d.str? "kerberos".toList "realm".toList

/-- `[ganesha]`, as it is read from a document. -/
def decodeGanesha (d : Document) : GaneshaSection where
  defaultSecurity := d.strOr "ganesha".toList "default_security".toList NfsKlldap.defaultSecurity
  postGenerateHook := d.str? "ganesha".toList "post_generate_hook".toList
  warmPrincipals := (d.strs? "ganesha".toList "warm_principals".toList).getD []
  enableRpcCredFallback := d.bool? "ganesha".toList "enable_rpc_cred_fallback".toList
  idmappedValiditySecs := d.u32? "ganesha".toList "idmapped_validity_secs".toList
  rootKerberosPrincipals := d.str? "ganesha".toList "root_kerberos_principals".toList
  manageGidsExpirationSecs := d.u64? "ganesha".toList "manage_gids_expiration_secs".toList
  negativeCacheValiditySecs := d.u32? "ganesha".toList "negative_cache_validity_secs".toList
  maxUidToGroupReqs := d.u32? "ganesha".toList "max_uid_to_group_reqs".toList
  readdirResSize := d.u32? "ganesha".toList "readdir_res_size".toList
  readdirMaxCount := d.u32? "ganesha".toList "readdir_max_count".toList
  getattrsInCompleteRead := d.bool? "ganesha".toList "getattrs_in_complete_read".toList
  mallocTrim := d.bool? "ganesha".toList "malloc_trim".toList
  mallocTrimMinThresholdMb := d.u32? "ganesha".toList "malloc_trim_min_threshold_mb".toList
  attrExpirationSecs := d.i32? "ganesha".toList "attr_expiration_secs".toList

/-- `[management]`, as it is read from a document. -/
def decodeManagement (d : Document) : ManagementSection where
  webuiAdminGroup := d.str? "management".toList "webui_admin_group".toList

/-- The probe settings of `[management]`, as they are read from a document. -/
def decodeProbe (d : Document) : ProbeSection where
  userPrincipal := d.str? "probe".toList "user_principal".toList
  clientHost := d.str? "probe".toList "client_host".toList

/-- `[host]`, as it is read from a document. -/
def decodeHost (d : Document) : HostSection where
  hostNfs := d.bool? "host".toList "host_nfs".toList

/-- `[webui]`, as it is read from a document. -/
def decodeWebui (d : Document) : WebuiSection where
  tls := d.bool? "webui".toList "tls".toList
  tlsCert := d.str? "webui".toList "tls_cert".toList
  tlsKey := d.str? "webui".toList "tls_key".toList
  sessionTimeoutMinutes := d.u16? "webui".toList "session_timeout_minutes".toList

/-- The config a document stands for, without validation. -/
def decodeConfig (d : Document) : Option NfsKlldapConfig :=
  if d.wellTyped then
    (decodeShares d).map fun shares =>
      { ldapUri := (d.str? [] "ldap_uri".toList).getD []
        navahiDiscovery := (d.bool? [] "navahi_discovery".toList).getD false
        storage := decodeStorage d
        server := decodeServer d
        sssd := decodeSssd d
        kerberos := decodeKerberos d
        ganesha := decodeGanesha d
        management := decodeManagement d
        probe := decodeProbe d
        host := decodeHost d
        webui := decodeWebui d
        shares := shares }
  else none

/-- `parse_str`: a text that is no TOML and a document of the wrong shape are refused alike. -/
def parseStr (toml : TomlEdit) (text : Str) : Except ConfigError NfsKlldapConfig :=
  match (toml.parse text).bind decodeConfig with
  | some cfg => .ok cfg
  | none => .error .parse

end NfsKlldap
