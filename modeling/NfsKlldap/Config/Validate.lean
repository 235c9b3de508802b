import NfsKlldap.Config.Model
import NfsKlldap.Identity.Realm

/-! # Validation and derivation (`validate_and_derive`)

Environment variables override the file, blank texts count as unset, the realm, the port and the
search bases are derived where they are not set, and every share is brought into normal form. The
first rule that is broken refuses the whole config.

`validateAndDerive` is the code's own sequence of steps. **`validateAndDerive_eq_ok_iff`** takes it
apart: a config is accepted when its scalar part and its shares satisfy their rules, and what comes
out is the derived scalar part with the normal forms of the shares. -/

namespace NfsKlldap

open Text

/-- The process environment, with the case mappings of the standard library. -/
structure Environment extends CaseMapping where
  var : Str → Option Str

namespace Environment

/-- No variable set, and the case mappings of ASCII texts. -/
def ascii : Environment where
  toUppercase := List.map Char.toUpper
  toLowercase := List.map Char.toLower
  var _ := none

/-- A variable that is set and not blank, trimmed. -/
def nonblank (env : Environment) (name : String) : Option Str :=
  (env.var name.toList).bind fun v => if isBlank v then none else some (trim v)

/-- A variable that replaces a setting as soon as it is set; blank unsets. -/
def replacing (env : Environment) (name : String) (old : Option Str) : Option Str :=
  if (env.var name.toList).isSome then env.nonblank name else old

/-- A variable that is read as a yes or no as soon as it is set. -/
def flag (env : Environment) (name : String) : Option Bool :=
  (env.var name.toList).map fun v =>
    toAsciiLowercase (trim v) ∈ ["true".toList, "1".toList, "yes".toList, "on".toList]

end Environment

/-- `HOST_NFS` wins over `NFS_KLLDAP_HOST_NFS`. -/
def hostNfsFromEnv (env : Environment) : Option Bool :=
  (env.flag "HOST_NFS").or (env.flag "NFS_KLLDAP_HOST_NFS")

/-- `NFS_KLLDAP_WEBUI_TLS` signals TLS at a reverse proxy. -/
def webuiTlsDisabled (env : Environment) : Bool :=
  (env.var "NFS_KLLDAP_WEBUI_TLS".toList).any fun v =>
    toAsciiLowercase (trim v) ∈ ["off".toList, "false".toList, "0".toList, "no".toList]

/-- Apply the overrides for core options. -/
def applyCoreEnvOverrides (env : Environment) (c : NfsKlldapConfig) : NfsKlldapConfig :=
  { c with
    ldapUri := (env.nonblank "NFS_KLLDAP_LDAP_URI").getD c.ldapUri
    kerberos := { realm := (env.nonblank "NFS_KLLDAP_KERBEROS_REALM").or c.kerberos.realm }
    server := { hostname := env.replacing "NFS_KLLDAP_SERVER_HOSTNAME" c.server.hostname }
    host := { hostNfs := (hostNfsFromEnv env).or c.host.hostNfs }
    storage :=
      { containerRoot :=
          (env.nonblank "NFS_KLLDAP_STORAGE_CONTAINER_ROOT").getD c.storage.containerRoot }
    ganesha :=
      { c.ganesha with
        defaultSecurity :=
          (env.nonblank "NFS_KLLDAP_GANESHA_DEFAULT_SECURITY").getD c.ganesha.defaultSecurity
        postGenerateHook := env.replacing "NFS_KLLDAP_POST_GENERATE_HOOK" c.ganesha.postGenerateHook }
    management :=
      { webuiAdminGroup :=
          env.replacing "NFS_KLLDAP_MANAGEMENT_WEBUI_ADMIN_GROUP" c.management.webuiAdminGroup }
    sssd :=
      { c.sssd with
        ldapDefaultBindDn :=
          ((env.nonblank "NFS_KLLDAP_LLDAP_USER").or
            (env.nonblank "NFS_KLLDAP_SSSD_LDAP_DEFAULT_BIND_DN")).getD c.sssd.ldapDefaultBindDn
        ldapDefaultAuthtok :=
          ((env.nonblank "NFS_KLLDAP_LLDAP_PW").or
            (env.nonblank "NFS_KLLDAP_SSSD_LDAP_DEFAULT_AUTHTOK")).getD c.sssd.ldapDefaultAuthtok
        kllldapIgnoredAttributes :=
          (env.flag "NFS_KLLDAP_SSSD_KLLLDAP_IGNORED_ATTRIBUTES").or
            c.sssd.kllldapIgnoredAttributes
        ldapTlsReqcert := (env.nonblank "NFS_KLLDAP_SSSD_LDAP_TLS_REQCERT").or c.sssd.ldapTlsReqcert
        ldapTlsCacert := (env.nonblank "NFS_KLLDAP_SSSD_LDAP_TLS_CACERT").or c.sssd.ldapTlsCacert
        ldapIdUseStartTls :=
          (env.flag "NFS_KLLDAP_SSSD_LDAP_ID_USE_START_TLS").or c.sssd.ldapIdUseStartTls }
    webui :=
      { c.webui with
        tls :=
          if (env.var "NFS_KLLDAP_WEBUI_TLS".toList).isSome then some (!webuiTlsDisabled env)
          else c.webui.tls
        tlsCert := (env.nonblank "NFS_KLLDAP_WEBUI_TLS_CERT").or c.webui.tlsCert
        tlsKey := (env.nonblank "NFS_KLLDAP_WEBUI_TLS_KEY").or c.webui.tlsKey } }

/-! ## Derivation -/

/-- A blank text is no text; another one is trimmed. -/
def normalizeBlank (v : Option Str) : Option Str :=
  v.bind fun s => if isBlank s then none else some (trim s)

/-- The blank texts of `[sssd]` and `[webui]`. -/
def normalizeBlanks (c : NfsKlldapConfig) : NfsKlldapConfig :=
  { c with
    sssd :=
      { c.sssd with
        ldapSearchBase := normalizeBlank c.sssd.ldapSearchBase
        ldapUserSearchBase := normalizeBlank c.sssd.ldapUserSearchBase
        ldapGroupSearchBase := normalizeBlank c.sssd.ldapGroupSearchBase
        ldapTlsReqcert := normalizeBlank c.sssd.ldapTlsReqcert
        ldapTlsCacert := normalizeBlank c.sssd.ldapTlsCacert
        ldapUserObjectClass := normalizeBlank c.sssd.ldapUserObjectClass
        ldapGroupObjectClass := normalizeBlank c.sssd.ldapGroupObjectClass
        ldapUserName := normalizeBlank c.sssd.ldapUserName
        ldapUserUidNumber := normalizeBlank c.sssd.ldapUserUidNumber
        ldapUserGidNumber := normalizeBlank c.sssd.ldapUserGidNumber
        ldapUserHomeDirectory := normalizeBlank c.sssd.ldapUserHomeDirectory
        ldapUserShell := normalizeBlank c.sssd.ldapUserShell
        ldapUserFullname := normalizeBlank c.sssd.ldapUserFullname
        ldapGroupName := normalizeBlank c.sssd.ldapGroupName
        ldapGroupGidNumber := normalizeBlank c.sssd.ldapGroupGidNumber
        ldapGroupMember := normalizeBlank c.sssd.ldapGroupMember
        domain := normalizeBlank c.sssd.domain
        authProvider := normalizeBlank c.sssd.authProvider
        chpassProvider := normalizeBlank c.sssd.chpassProvider
        ldapSchema := normalizeBlank c.sssd.ldapSchema
        krb5Server := normalizeBlank c.sssd.krb5Server
        krb5Kpasswd := normalizeBlank c.sssd.krb5Kpasswd }
    webui :=
      { c.webui with
        tlsCert := normalizeBlank c.webui.tlsCert
        tlsKey := normalizeBlank c.webui.tlsKey } }

/-- A realm that is missing is derived from the URI; the environment wins. -/
def deriveRealm (env : Environment) (c : NfsKlldapConfig) : NfsKlldapConfig :=
  { c with
    kerberos :=
      { realm := (env.nonblank "NFS_KLLDAP_KERBEROS_REALM").or
          (c.kerberos.realm.or (deriveRealmFromUri env.toCaseMapping c.ldapUri)) } }

/-- Empty, or one of the two upper-case placeholders. -/
def isKerberosPlaceholderRealm (r : Str) : Bool :=
  let t := trim r
  t = [] ||
    (!(t.any fun c => 'a' ≤ c && c ≤ 'z') &&
      (toAsciiUppercase t = "EXAMPLE.COM".toList || toAsciiUppercase t = "EXAMPLE".toList))

/-- The port that goes with the scheme of the URI. -/
def portOfUri (uri : Str) : UInt16 := if startsWith uri "ldaps://" then 636 else 389

/-- The search base of a realm. -/
def baseDn (env : Environment) (realm : Str) : Str :=
  "dc=".toList ++ replaceChar '.' ",dc=".toList (env.toLowercase realm)

/-- The port and the search bases that are not set. -/
def deriveSssd (env : Environment) (c : NfsKlldapConfig) : NfsKlldapConfig :=
  let mainSearchBase :=
    (c.sssd.ldapSearchBase.filter fun v => !isBlank v).getD
      (baseDn env (c.kerberos.realm.getD []))
  { c with
    sssd :=
      { c.sssd with
        port := c.sssd.port.or (some (portOfUri c.ldapUri))
        ldapUserSearchBase := c.sssd.ldapUserSearchBase.or (some mainSearchBase)
        ldapGroupSearchBase := c.sssd.ldapGroupSearchBase.or (some mainSearchBase) } }

/-- The default security. -/
def deriveSecurity (c : NfsKlldapConfig) : NfsKlldapConfig :=
  if isBlank c.ganesha.defaultSecurity then
    { c with ganesha := { c.ganesha with defaultSecurity := NfsKlldap.defaultSecurity } }
  else c

/-- The default container root. -/
def deriveContainerRoot (c : NfsKlldapConfig) : NfsKlldapConfig :=
  if isBlank c.storage.containerRoot then
    { c with storage := { containerRoot := defaultContainerRoot } }
  else c

/-! ## The rules -/

/-- Refuse the config with `msg` unless `p`. -/
def check (p : Bool) (msg : Str) : Except ConfigError Unit :=
  if p then .ok () else .error (.validation msg)

/-- A check passes exactly when its condition holds. -/
@[simp] theorem check_eq_ok {p : Bool} {msg : Str} {u : Unit} : check p msg = .ok u ↔ p = true := by
  unfold check
  split <;> simp_all

/-- Forgetting the error keeps the result. -/
theorem toOption_eq_some_iff {ε α : Type} {x : Except ε α} {a : α} :
    x.toOption = some a ↔ x = .ok a := by
  cases x <;> simp [Except.toOption]

/-- A chain succeeds exactly when both of its steps do. -/
theorem bind_eq_ok {ε α β : Type} {x : Except ε α} {f : α → Except ε β} {b : β} :
    x >>= f = .ok b ↔ ∃ a, x = .ok a ∧ f a = .ok b := by
  cases x with
  | error e => simp [bind, Except.bind]
  | ok a => simp [bind, Except.bind]

/-- A name in single quotes. -/
def quoted (s : Str) : Str := "'".toList ++ s ++ "'".toList

/-- A list with commas. -/
def commaList (ss : List Str) : Str := ", ".toList.intercalate ss

/-- The security flavours that a config may list. -/
def allowedSectypes : List Str := ["krb5p".toList, "krb5i".toList, "krb5".toList]

/-- The squash modes that a config may name. -/
def allowedSquash : List Str :=
  ["no_root_squash".toList, "root_squash".toList, "root_id_squash".toList, "all_squash".toList]

/-- The `read_access_check_policy` values that a share may have. -/
def readAccessPolicies : List Str := ["pre".toList, "post".toList]

/-- The words that stand for roots in `root_kerberos_principal`. -/
def rootKrbPrincipalTokens : List Str :=
  ["none".toList, "nfs".toList, "root".toList, "host".toList, "all".toList]

/-- The cache profiles of Ganesha. -/
def cacheProfiles : List Str :=
  ["Default".toList, "Read - Basic".toList, "Read - Heavy".toList, "Mixed Use".toList,
   "Write - Heavy".toList]

/-- The sizes of a cache profile, in bytes. -/
def resolveCacheProfile (profile : Str) : Option (UInt64 × UInt64) :=
  let t := trim profile
  if t = "Default".toList then some (1048576, 1048576)
  else if t = "Read - Basic".toList then some (4194304, 4194304)
  else if t = "Read - Heavy".toList then some (16777216, 8388608)
  else if t = "Mixed Use".toList then some (4194304, 4194304)
  else if t = "Write - Heavy".toList then some (2097152, 16777216)
  else none

/-- The bounds of `pref_read` and `pref_write`. -/
def prefMin : Nat := 512

/-- The largest preferred size of a transfer. -/
def prefMax : Nat := 64 * 1024 * 1024

/-- A preferred size, if it is given, lies between the bounds. -/
def prefInRange (v : Option UInt64) : Bool := v.all fun n => prefMin ≤ n.toNat && n.toNat ≤ prefMax

/-- The Pseudo path of a share after validation: the explicit one with a leading slash, or `/name`. -/
def normalizePseudo (name : Str) (pseudo : Option Str) : Str :=
  match normalizeBlank pseudo with
  | none => '/' :: name
  | some t => if startsWith t "/" then t else '/' :: t

/-- The Pseudo path of a share (`derive_share_pseudo`). -/
def deriveSharePseudo (s : Share) : Str :=
  let raw := s.pseudoPath.getD ('/' :: s.name)
  if startsWith raw "/" then raw else '/' :: raw

/-- The path Ganesha serves (`serve_path_for`). -/
def servePathFor (s : Share) : Str := trim s.containerPath

/-- First loop over the shares: fields that stand for themselves. -/
def checkShare (seen : List Str) (s : Share) : Except ConfigError Share := do
  check (!isBlank s.name) "share name cannot be empty".toList
  check (s.name ∉ seen)
    ("duplicate share name ".toList ++ quoted s.name ++
      " — names must be unique for short clean NFS paths".toList)
  check (s.hostPath ≠ [])
    ("share ".toList ++ quoted s.name ++
      " requires host_path (absolute path on the Docker host)".toList)
  check (s.security.all (· ∈ allowedSectypes))
    ("share ".toList ++ quoted s.name ++ " security must be one of ".toList ++
      commaList allowedSectypes ++ " (got ".toList ++ quoted (s.security.getD []) ++ ")".toList)
  check (s.squash.all (· ∈ allowedSquash))
    ("share ".toList ++ quoted s.name ++ " squash must be one of ".toList ++
      commaList allowedSquash ++ " (got ".toList ++ quoted (s.squash.getD []) ++ ")".toList)
  check (prefInRange s.prefRead)
    ("share ".toList ++ quoted s.name ++ " pref_read must be between ".toList ++
      natDecimal prefMin ++ " and ".toList ++ natDecimal prefMax ++ " bytes (got ".toList ++
      natDecimal (s.prefRead.getD 0).toNat ++
      (") — use e.g. 1048576 for 1 MiB (Min/ISO) or 16777216 for 16 MiB " ++
        "(Max/streaming)").toList)
  check (prefInRange s.prefWrite)
    ("share ".toList ++ quoted s.name ++ " pref_write must be between ".toList ++
      natDecimal prefMin ++ " and ".toList ++ natDecimal prefMax ++ " bytes (got ".toList ++
      natDecimal (s.prefWrite.getD 0).toNat ++ ")".toList)
  check (s.cacheProfile.all fun p => (resolveCacheProfile p).isSome)
    ("share ".toList ++ quoted s.name ++ " cache_profile must be one of: ".toList ++
      commaList cacheProfiles ++ " (got ".toList ++ quoted (s.cacheProfile.getD []) ++ ")".toList)
  check (s.attrExpirationSecs.all fun v => 0 ≤ v.toInt)
    ("share ".toList ++ quoted s.name ++
      " attr_expiration_secs must be >= 0 (0 = attribute caching off), got ".toList ++
      (toString (s.attrExpirationSecs.getD 0).toInt).toList)
  return { s with
    containerPath := trim s.containerPath
    pseudoPath := some (normalizePseudo s.name s.pseudoPath) }

/-- The shares one after the other, each against the names in front of it. -/
def checkShares : List Str → List Share → Except ConfigError (List Share)
  | _, [] => .ok []
  | seen, s :: rest => do
    let s' ← checkShare seen s
    let rest' ← checkShares (s.name :: seen) rest
    return s' :: rest'

/-- The path is the root itself or lies below it. -/
def underRoot (root path : Str) : Bool := path = root || (root ++ "/".toList).isPrefixOf path

/-- Second loop: the paths inside the container. -/
def checkPaths (root : Str) (s : Share) : Except ConfigError Share := do
  check (s.containerPath ≠ [])
    ("share ".toList ++ quoted s.name ++
      " requires container_path (absolute path inside the container; maps to Ganesha Path=)".toList)
  check (startsWith s.containerPath "/")
    ("share ".toList ++ quoted s.name ++ " container_path must be absolute (got ".toList ++
      quoted s.containerPath ++ ")".toList)
  check (underRoot root s.containerPath)
    ("share ".toList ++ quoted s.name ++ " container_path ".toList ++ quoted s.containerPath ++
      " must be under storage.container_root ".toList ++ quoted root)
  let source := normalizeBlank s.sourcePath
  check (source.all fun p => startsWith p "/")
    ("share ".toList ++ quoted s.name ++ " source_path must be absolute (got ".toList ++
      quoted (source.getD []) ++ ")".toList)
  check (source.all (underRoot root))
    ("share ".toList ++ quoted s.name ++ " source_path ".toList ++ quoted (source.getD []) ++
      " must be under storage.container_root ".toList ++ quoted root)
  return { s with sourcePath := source }

/-- Third loop: Pseudo paths and serve paths that would collide in the export table. -/
def checkDistinct : List Str → List Str → List Share → Except ConfigError Unit
  | _, _, [] => .ok ()
  | seenPseudo, seenServe, s :: rest => do
    let pseudo := deriveSharePseudo s
    let serve := servePathFor s
    check (pseudo ≠ "/".toList)
      ("share ".toList ++ quoted s.name ++
        (": pseudo_path '/' collides with the NFSv4 pseudo-fs root; use a distinct path " ++
          "like /").toList ++ s.name)
    check (pseudo ∉ seenPseudo)
      ("share ".toList ++ quoted s.name ++ ": duplicate Pseudo path ".toList ++ quoted pseudo ++
        " — each export needs a unique pseudo_path".toList)
    check (serve ∉ seenServe)
      ("share ".toList ++ quoted s.name ++ ": duplicate container_path ".toList ++ quoted serve ++
        " — two exports cannot serve the same Path".toList)
    checkDistinct (pseudo :: seenPseudo) (serve :: seenServe) rest

/-- Fourth loop: the read policy. A `post` without ACLs only draws a warning. -/
def checkReadPolicy (s : Share) : Except ConfigError Unit :=
  check (s.readAccessPolicy.all fun p => toAsciiLowercase (trim p) ∈ readAccessPolicies)
    ("share ".toList ++ quoted s.name ++ " read_access_policy must be one of ".toList ++
      commaList readAccessPolicies ++ " (got ".toList ++ quoted (s.readAccessPolicy.getD []) ++
      ")".toList)

/-- The loops over the shares. -/
def validateShares (containerRoot : Str) (shares : List Share) :
    Except ConfigError (List Share) := do
  let shares ← checkShares [] shares
  let shares ← shares.mapM (checkPaths (trimEndMatches '/' containerRoot))
  checkDistinct [] [] shares
  shares.forM checkReadPolicy
  return shares

/-- `validate_ganesha_tuning`. -/
def validateGaneshaTuning (g : GaneshaSection) : Except ConfigError GaneshaSection := do
  let tokens := (normalizeBlank g.rootKerberosPrincipals).map fun raw =>
    ((raw.splitOn ',').map fun t => toAsciiLowercase (trim t)).filter (· ≠ [])
  check (tokens.all (· ≠ []))
    ("ganesha.root_kerberos_principals must contain at least one token " ++
      "(none|nfs|root|host|all); use \"none\" to grant root to no principal").toList
  check (tokens.all fun ts => ts.all (· ∈ rootKrbPrincipalTokens))
    ("ganesha.root_kerberos_principals token ".toList ++
      quoted (((tokens.getD []).find? (· ∉ rootKrbPrincipalTokens)).getD []) ++
      " invalid — allowed: ".toList ++ commaList rootKrbPrincipalTokens)
  check (g.attrExpirationSecs.all fun v => 0 ≤ v.toInt)
    ("ganesha.attr_expiration_secs must be >= 0 (0 = attribute caching off), got ".toList ++
      (toString (g.attrExpirationSecs.getD 0).toInt).toList)
  check (g.manageGidsExpirationSecs.all fun v => v.toNat ≤ 7 * 24 * 60 * 60)
    ("ganesha.manage_gids_expiration_secs must be <= 604800 (7 days), got ".toList ++
      natDecimal (g.manageGidsExpirationSecs.getD 0).toNat)
  check (g.readdirResSize.all fun v => 4096 ≤ v.toNat && v.toNat ≤ 64 * 1024 * 1024)
    ("ganesha.readdir_res_size must be between 4096 and 67108864 bytes, got ".toList ++
      natDecimal (g.readdirResSize.getD 0).toNat)
  check (g.readdirMaxCount.all fun v => 32 ≤ v.toNat && v.toNat ≤ 1024 * 1024)
    ("ganesha.readdir_max_count must be between 32 and 1048576 entries, got ".toList ++
      natDecimal (g.readdirMaxCount.getD 0).toNat)
  check (g.mallocTrimMinThresholdMb ≠ some 0)
    "ganesha.malloc_trim_min_threshold_mb must be >= 1 (value is in MB)".toList
  return { g with rootKerberosPrincipals := tokens.map commaList }

/-- `validate_and_derive`. -/
def validateAndDerive (env : Environment) (c : NfsKlldapConfig) :
    Except ConfigError NfsKlldapConfig := do
  let c := applyCoreEnvOverrides env c
  check (!isBlank c.ldapUri) "ldap_uri is required".toList
  let c := normalizeBlanks c
  check (c.webui.sessionTimeoutMinutes.all fun m => 5 ≤ m.toNat)
    "webui.session_timeout_minutes must be at least 5 (minutes)".toList
  check (!hostIsIp (extractHostFromUri c.ldapUri))
    ("LDAP IP addresses are not supported, DNS resolution is required for " ++ "operation.").toList
  let c := deriveRealm env c
  check (!isKerberosPlaceholderRealm (c.kerberos.realm.getD []))
    ("kerberos.realm is required (auto-derivation from ldap_uri failed or produced a " ++
      "placeholder).\nSet [kerberos] realm = \"YOUR.REALM\" in nfs-klldap.conf, or provide " ++
      "NFS_KLLDAP_KERBEROS_REALM env var.\nExample: realm = \"KRB.EXAMPLE.COM\"").toList
  let c := deriveSecurity (deriveSssd env c)
  check (c.ganesha.defaultSecurity ∈ allowedSectypes)
    ("ganesha.default_security must be one of ".toList ++ commaList allowedSectypes ++
      " (got ".toList ++ quoted c.ganesha.defaultSecurity ++ ")".toList)
  let c := deriveContainerRoot c
  let shares ← validateShares c.storage.containerRoot c.shares
  check (!isBlank c.sssd.ldapDefaultBindDn) "sssd.ldap_default_bind_dn is required".toList
  check (!isBlank c.sssd.ldapDefaultAuthtok)
    "sssd.ldap_default_authtok is required (use a strong secret)".toList
  let ganesha ← validateGaneshaTuning c.ganesha
  return { c with shares, ganesha }

/-- `NfsKlldapConfig::load` of a file that can be read. -/
def loadText (env : Environment) (toml : TomlEdit) (text : Str) :
    Except ConfigError NfsKlldapConfig := do
  let c ← parseStr toml text
  validateAndDerive env c

/-! ## Accepted shares -/

/-- The rules of a share's own fields. -/
structure Share.FieldsOk (s : Share) : Prop where
  name : isBlank s.name = false
  hostPath : s.hostPath ≠ []
  security : ∀ v ∈ s.security, v ∈ allowedSectypes
  squash : ∀ v ∈ s.squash, v ∈ allowedSquash
  prefRead : prefInRange s.prefRead = true
  prefWrite : prefInRange s.prefWrite = true
  cacheProfile : ∀ v ∈ s.cacheProfile, (resolveCacheProfile v).isSome
  attrExpirationSecs : ∀ v ∈ s.attrExpirationSecs, 0 ≤ v.toInt

/-- The rules of a share's paths, which lie below the container root. -/
structure Share.PathsOk (root : Str) (s : Share) : Prop where
  containerPath : s.containerPath ≠ []
  absolute : startsWith s.containerPath "/" = true
  under : underRoot root s.containerPath = true
  sourceAbsolute : ∀ v ∈ normalizeBlank s.sourcePath, startsWith v "/" = true
  sourceUnder : ∀ v ∈ normalizeBlank s.sourcePath, underRoot root v = true

/-- The read policy is one of the two, in any case. -/
def Share.ReadPolicyOk (s : Share) : Prop :=
  ∀ v ∈ s.readAccessPolicy, toAsciiLowercase (trim v) ∈ readAccessPolicies

/-- The first loop's normal form. -/
def Share.normalizeFields (s : Share) : Share :=
  { s with
    containerPath := trim s.containerPath
    pseudoPath := some (normalizePseudo s.name s.pseudoPath) }

/-- The second loop's normal form. -/
def Share.normalizeSource (s : Share) : Share :=
  { s with sourcePath := normalizeBlank s.sourcePath }

/-- The normal form of a share. -/
def Share.normalize (s : Share) : Share := s.normalizeFields.normalizeSource

/-- A share passes with its fields in order and a name that is new. -/
theorem checkShare_eq_ok_iff {seen : List Str} {s s' : Share} :
    checkShare seen s = .ok s' ↔ s.FieldsOk ∧ s.name ∉ seen ∧ s' = s.normalizeFields := by
  simp only [checkShare, bind_eq_ok, check_eq_ok, exists_const, pure, Except.pure, Except.ok.injEq,
    Bool.not_eq_true', decide_eq_true_eq, Option.all_eq_true]
  constructor
  · rintro ⟨hname, hseen, hhost, hsec, hsq, hpr, hpw, hcp, hattr, rfl⟩
    exact ⟨⟨hname, hhost, hsec, hsq, hpr, hpw, hcp, hattr⟩, hseen, rfl⟩
  · rintro ⟨⟨hname, hhost, hsec, hsq, hpr, hpw, hcp, hattr⟩, hseen, rfl⟩
    exact ⟨hname, hseen, hhost, hsec, hsq, hpr, hpw, hcp, hattr, rfl⟩

/-- The shares pass with their fields in order and names of their own. -/
theorem checkShares_eq_ok_iff {seen : List Str} {shares out : List Share} :
    checkShares seen shares = .ok out ↔
      (∀ s ∈ shares, s.FieldsOk ∧ s.name ∉ seen) ∧ (shares.map Share.name).Nodup ∧
        out = shares.map Share.normalizeFields := by
  induction shares generalizing seen out with
  | nil => simp [checkShares, eq_comm]
  | cons s rest ih =>
    simp only [checkShares, bind_eq_ok, checkShare_eq_ok_iff, ih, pure, Except.pure,
      Except.ok.injEq, List.mem_cons, forall_eq_or_imp, List.map_cons, List.nodup_cons, not_or]
    constructor
    · rintro ⟨_, ⟨hok, hseen, rfl⟩, _, ⟨hrest, hnodup, rfl⟩, rfl⟩
      refine ⟨⟨⟨hok, hseen⟩, fun t ht => ⟨(hrest t ht).1, (hrest t ht).2.2⟩⟩, ⟨?_, hnodup⟩, rfl⟩
      intro hmem
      obtain ⟨t, ht, hname⟩ := List.mem_map.mp hmem
      exact (hrest t ht).2.1 hname
    · rintro ⟨⟨⟨hok, hseen⟩, hrest⟩, ⟨hnew, hnodup⟩, rfl⟩
      refine ⟨_, ⟨hok, hseen, rfl⟩, _, ⟨fun t ht => ?_, hnodup, rfl⟩, rfl⟩
      exact ⟨(hrest t ht).1, fun h => hnew (h ▸ List.mem_map_of_mem ht), (hrest t ht).2⟩

/-- The paths of a share pass when they are in order; the source path is normalised. -/
theorem checkPaths_eq_ok_iff {root : Str} (s s' : Share) :
    checkPaths root s = .ok s' ↔ s.PathsOk root ∧ s' = s.normalizeSource := by
  simp only [checkPaths, bind_eq_ok, check_eq_ok, exists_const, pure, Except.pure, Except.ok.injEq,
    decide_eq_true_eq, Option.all_eq_true]
  constructor
  · rintro ⟨hne, habs, hunder, hsabs, hsunder, rfl⟩
    exact ⟨⟨hne, habs, hunder, hsabs, hsunder⟩, rfl⟩
  · rintro ⟨⟨hne, habs, hunder, hsabs, hsunder⟩, rfl⟩
    exact ⟨hne, habs, hunder, hsabs, hsunder, rfl⟩

/-- A loop whose body succeeds exactly on `P`, with result `g`. -/
theorem mapM_eq_ok_iff {ε α β : Type} {f : α → Except ε β} {P : α → Prop} {g : α → β}
    (h : ∀ a b, f a = .ok b ↔ P a ∧ b = g a) {l : List α} {out : List β} :
    l.mapM f = .ok out ↔ (∀ a ∈ l, P a) ∧ out = l.map g := by
  induction l generalizing out with
  | nil => simp [pure, Except.pure, eq_comm]
  | cons a l ih =>
    simp only [List.mapM_cons, bind_eq_ok, h, ih, pure, Except.pure, Except.ok.injEq,
      List.mem_cons, forall_eq_or_imp, List.map_cons]
    constructor
    · rintro ⟨_, ⟨ha, rfl⟩, _, ⟨hl, rfl⟩, rfl⟩
      exact ⟨⟨ha, hl⟩, rfl⟩
    · rintro ⟨⟨ha, hl⟩, rfl⟩
      exact ⟨_, ⟨ha, rfl⟩, _, ⟨hl, rfl⟩, rfl⟩

/-- The shares are distinct when no Pseudo path and no serve path is there twice. -/
theorem checkDistinct_eq_ok_iff {seenPseudo seenServe : List Str} {shares : List Share} {u : Unit} :
    checkDistinct seenPseudo seenServe shares = .ok u ↔
      (∀ s ∈ shares, deriveSharePseudo s ≠ "/".toList ∧ deriveSharePseudo s ∉ seenPseudo ∧
        servePathFor s ∉ seenServe) ∧
      (shares.map deriveSharePseudo).Nodup ∧ (shares.map servePathFor).Nodup := by
  induction shares generalizing seenPseudo seenServe with
  | nil => simp [checkDistinct]
  | cons s rest ih =>
    simp only [checkDistinct, bind_eq_ok, check_eq_ok, exists_const, decide_eq_true_eq, ih,
      List.mem_cons, forall_eq_or_imp, List.map_cons, List.nodup_cons, not_or, List.mem_map,
      not_exists, not_and]
    constructor
    · rintro ⟨hroot, hp, hs, hrest, hpn, hsn⟩
      exact ⟨⟨⟨hroot, hp, hs⟩, fun t ht =>
        ⟨(hrest t ht).1, (hrest t ht).2.1.2, (hrest t ht).2.2.2⟩⟩,
        ⟨fun t ht => (hrest t ht).2.1.1, hpn⟩, ⟨fun t ht => (hrest t ht).2.2.1, hsn⟩⟩
    · rintro ⟨⟨⟨hroot, hp, hs⟩, hrest⟩, ⟨hpnew, hpn⟩, hsnew, hsn⟩
      exact ⟨hroot, hp, hs, fun t ht =>
        ⟨(hrest t ht).1, ⟨hpnew t ht, (hrest t ht).2.1⟩, hsnew t ht, (hrest t ht).2.2⟩, hpn, hsn⟩

/-- The read policies pass when each of them is in order. -/
theorem forM_checkReadPolicy_eq_ok_iff {shares : List Share} {u : Unit} :
    shares.forM checkReadPolicy = .ok u ↔ ∀ s ∈ shares, s.ReadPolicyOk := by
  induction shares with
  | nil => simp [pure, Except.pure]
  | cons s rest ih =>
    show (checkReadPolicy s >>= fun _ => rest.forM checkReadPolicy) = .ok u ↔ _
    simp only [bind_eq_ok, ih, checkReadPolicy, check_eq_ok, exists_const, Option.all_eq_true,
      decide_eq_true_eq, List.mem_cons, forall_eq_or_imp]
    rfl

/-- What validation asks of the shares, with the container root they have to lie in. -/
structure SharesOk (containerRoot : Str) (shares : List Share) : Prop where
  fields : ∀ s ∈ shares, s.FieldsOk
  names : (shares.map Share.name).Nodup
  paths : ∀ s ∈ shares, s.normalizeFields.PathsOk (trimEndMatches '/' containerRoot)
  pseudoRoot : ∀ s ∈ shares, deriveSharePseudo s.normalize ≠ "/".toList
  pseudos : (shares.map fun s => deriveSharePseudo s.normalize).Nodup
  serves : (shares.map fun s => servePathFor s.normalize).Nodup
  policies : ∀ s ∈ shares, s.ReadPolicyOk

/-- **The shares pass** exactly when they are in order, and come out in normal form. -/
theorem validateShares_eq_ok_iff {root : Str} {shares out : List Share} :
    validateShares root shares = .ok out ↔
      SharesOk root shares ∧ out = shares.map Share.normalize := by
  have hnorm : Share.normalizeSource ∘ Share.normalizeFields = Share.normalize := rfl
  simp only [validateShares, bind_eq_ok, checkShares_eq_ok_iff, mapM_eq_ok_iff checkPaths_eq_ok_iff,
    checkDistinct_eq_ok_iff, forM_checkReadPolicy_eq_ok_iff, exists_const, pure, Except.pure,
    Except.ok.injEq, List.not_mem_nil, not_false_eq_true, and_true]
  constructor
  · rintro ⟨_, ⟨hf, hn, rfl⟩, _, ⟨hp, rfl⟩, ⟨hr, hpn, hsn⟩, hpol, rfl⟩
    -- the checks behind the normalization look at normalized shares
    rw [List.map_map, hnorm] at *
    refine ⟨⟨hf, hn, fun s hs => hp _ (List.mem_map_of_mem hs),
      fun s hs => hr s.normalize (List.mem_map_of_mem hs), ?_, ?_,
      fun s hs => hpol s.normalize (List.mem_map_of_mem hs)⟩, rfl⟩
    · rwa [List.map_map] at hpn
    · rwa [List.map_map] at hsn
  · rintro ⟨⟨hf, hn, hp, hr, hpn, hsn, hpol⟩, rfl⟩
    refine ⟨_, ⟨hf, hn, rfl⟩, _, ⟨?_, rfl⟩, ?_⟩
    · simpa using hp
    · rw [List.map_map, hnorm]
      refine ⟨⟨by simpa using hr, ?_, ?_⟩, ?_, rfl⟩
      · rwa [List.map_map]
      · rwa [List.map_map]
      · simpa [Share.ReadPolicyOk, Share.normalize, Share.normalizeFields, Share.normalizeSource]
          using hpol

/-! ## Accepted configs -/

/-- The tokens of `root_kerberos_principals`, in lower case. -/
def GaneshaSection.rootTokens (g : GaneshaSection) : Option (List Str) :=
  (normalizeBlank g.rootKerberosPrincipals).map fun raw =>
    ((raw.splitOn ',').map fun t => toAsciiLowercase (trim t)).filter (· ≠ [])

/-- The rules of the `[ganesha]` tuning keys. -/
structure GaneshaSection.TuningOk (g : GaneshaSection) : Prop where
  tokens : ∀ ts ∈ g.rootTokens, ts ≠ [] ∧ ∀ t ∈ ts, t ∈ rootKrbPrincipalTokens
  attrExpirationSecs : ∀ v ∈ g.attrExpirationSecs, 0 ≤ v.toInt
  manageGidsExpirationSecs : ∀ v ∈ g.manageGidsExpirationSecs, v.toNat ≤ 7 * 24 * 60 * 60
  readdirResSize : ∀ v ∈ g.readdirResSize, 4096 ≤ v.toNat ∧ v.toNat ≤ 64 * 1024 * 1024
  readdirMaxCount : ∀ v ∈ g.readdirMaxCount, 32 ≤ v.toNat ∧ v.toNat ≤ 1024 * 1024
  mallocTrimMinThresholdMb : g.mallocTrimMinThresholdMb ≠ some 0

/-- The canonical form of the tuning keys. -/
def GaneshaSection.tuned (g : GaneshaSection) : GaneshaSection :=
  { g with rootKerberosPrincipals := g.rootTokens.map commaList }

/-- The tuning of Ganesha passes exactly when it is in order. -/
theorem validateGaneshaTuning_eq_ok_iff {g g' : GaneshaSection} :
    validateGaneshaTuning g = .ok g' ↔ g.TuningOk ∧ g' = g.tuned := by
  simp only [validateGaneshaTuning, bind_eq_ok, check_eq_ok, exists_const, pure, Except.pure,
    Except.ok.injEq, decide_eq_true_eq, Option.all_eq_true, Bool.and_eq_true, List.all_eq_true]
  constructor
  · rintro ⟨hne, htok, hattr, hgids, hres, hcount, htrim, rfl⟩
    exact ⟨⟨fun ts hts => ⟨hne ts hts, htok ts hts⟩, hattr, hgids, hres, hcount, htrim⟩, rfl⟩
  · rintro ⟨⟨htok, hattr, hgids, hres, hcount, htrim⟩, rfl⟩
    exact ⟨fun ts hts => (htok ts hts).1, fun ts hts => (htok ts hts).2, hattr, hgids, hres, hcount,
      htrim, rfl⟩

/-- The config with everything derived that does not concern the shares. -/
def derived (env : Environment) (c : NfsKlldapConfig) : NfsKlldapConfig :=
  deriveContainerRoot (deriveSecurity (deriveSssd env (deriveRealm env (normalizeBlanks
    (applyCoreEnvOverrides env c)))))

/-- What validation asks of a derived config, its shares apart. -/
structure ScalarsOk (c : NfsKlldapConfig) : Prop where
  ldapUri : isBlank c.ldapUri = false
  sessionTimeout : ∀ m ∈ c.webui.sessionTimeoutMinutes, 5 ≤ m.toNat
  host : hostIsIp (extractHostFromUri c.ldapUri) = false
  realm : isKerberosPlaceholderRealm (c.kerberos.realm.getD []) = false
  defaultSecurity : c.ganesha.defaultSecurity ∈ allowedSectypes
  bindDn : isBlank c.sssd.ldapDefaultBindDn = false
  authtok : isBlank c.sssd.ldapDefaultAuthtok = false
  tuning : c.ganesha.TuningOk

/-- **Accepted configs**: validation succeeds exactly when the derived scalar part and the shares
satisfy their rules, and it answers with the derived scalar part and the shares in normal form. -/
theorem validateAndDerive_eq_ok_iff {env : Environment} {c out : NfsKlldapConfig} :
    validateAndDerive env c = .ok out ↔
      ScalarsOk (derived env c) ∧ SharesOk (derived env c).storage.containerRoot c.shares ∧
        out = { derived env c with
          shares := c.shares.map Share.normalize
          ganesha := (derived env c).ganesha.tuned } := by
  unfold validateAndDerive derived
  -- the rules read fields that the later steps leave alone
  have hshares₁ : (applyCoreEnvOverrides env c).shares = c.shares := rfl
  generalize applyCoreEnvOverrides env c = c₁ at hshares₁ ⊢
  simp only [bind_eq_ok, check_eq_ok, exists_const, pure, Except.pure, Except.ok.injEq,
    decide_eq_true_eq, Option.all_eq_true, Bool.not_eq_true', validateShares_eq_ok_iff,
    validateGaneshaTuning_eq_ok_iff]
  have huri₂ : (normalizeBlanks c₁).ldapUri = c₁.ldapUri := rfl
  have hshares₂ : (normalizeBlanks c₁).shares = c₁.shares := rfl
  generalize normalizeBlanks c₁ = c₂ at huri₂ hshares₂ ⊢
  have huri₃ : (deriveRealm env c₂).ldapUri = c₂.ldapUri := rfl
  have hwebui₃ : (deriveRealm env c₂).webui = c₂.webui := rfl
  have hshares₃ : (deriveRealm env c₂).shares = c₂.shares := rfl
  generalize deriveRealm env c₂ = c₃ at huri₃ hwebui₃ hshares₃ ⊢
  have huri₅ : (deriveSecurity (deriveSssd env c₃)).ldapUri = c₃.ldapUri := by
    unfold deriveSecurity; split <;> rfl
  have hwebui₅ : (deriveSecurity (deriveSssd env c₃)).webui = c₃.webui := by
    unfold deriveSecurity; split <;> rfl
  have hrealm₅ : (deriveSecurity (deriveSssd env c₃)).kerberos = c₃.kerberos := by
    unfold deriveSecurity; split <;> rfl
  have hshares₅ : (deriveSecurity (deriveSssd env c₃)).shares = c₃.shares := by
    unfold deriveSecurity; split <;> rfl
  generalize deriveSecurity (deriveSssd env c₃) = c₅ at huri₅ hwebui₅ hrealm₅ hshares₅ ⊢
  have huri₆ : (deriveContainerRoot c₅).ldapUri = c₅.ldapUri := by
    unfold deriveContainerRoot; split <;> rfl
  have hwebui₆ : (deriveContainerRoot c₅).webui = c₅.webui := by
    unfold deriveContainerRoot; split <;> rfl
  have hrealm₆ : (deriveContainerRoot c₅).kerberos = c₅.kerberos := by
    unfold deriveContainerRoot; split <;> rfl
  have hganesha₆ : (deriveContainerRoot c₅).ganesha = c₅.ganesha := by
    unfold deriveContainerRoot; split <;> rfl
  have hshares₆ : (deriveContainerRoot c₅).shares = c₅.shares := by
    unfold deriveContainerRoot; split <;> rfl
  generalize deriveContainerRoot c₅ = c₆ at huri₆ hwebui₆ hrealm₆ hganesha₆ hshares₆ ⊢
  have hshares : c₆.shares = c.shares := by
    rw [hshares₆, hshares₅, hshares₃, hshares₂, hshares₁]
  have huri : c₆.ldapUri = c₁.ldapUri := by rw [huri₆, huri₅, huri₃, huri₂]
  rw [hshares, huri₂, ← huri, ← hwebui₃, ← hwebui₅, ← hwebui₆, ← hrealm₅, ← hrealm₆, ← hganesha₆]
  constructor
  · rintro ⟨huri, htime, hip, hrealm, hsec, _, ⟨hok, rfl⟩, hdn, htok, _, ⟨htune, rfl⟩, rfl⟩
    exact ⟨⟨huri, htime, hip, hrealm, hsec, hdn, htok, htune⟩, hok, rfl⟩
  · rintro ⟨⟨huri, htime, hip, hrealm, hsec, hdn, htok, htune⟩, hok, rfl⟩
    exact ⟨huri, htime, hip, hrealm, hsec, _, ⟨hok, rfl⟩, hdn, htok, _, ⟨htune, rfl⟩, rfl⟩

/-! ### A small config -/

/-- A config with little more than its shares, as it is loaded. -/
def homeConfig (shares : List Share) : NfsKlldapConfig where
  ldapUri := "ldaps://ldap.home.lan".toList
  storage := { containerRoot := "/export".toList }
  sssd :=
    { ldapDefaultBindDn := "cn=admin".toList
      ldapDefaultAuthtok := "secret".toList
      port := some 636
      ldapUserSearchBase := some "dc=home,dc=lan".toList
      ldapGroupSearchBase := some "dc=home,dc=lan".toList }
  kerberos := { realm := some "HOME.LAN".toList }
  ganesha := { defaultSecurity := "krb5p".toList }
  shares := shares

/-- A share of such a config, with the paths `/srv/<name>` and `/export/<name>`. -/
def homeShare (name : Str) (source : Option Str) : Share where
  name := name
  hostPath := "/srv/".toList ++ name
  pseudoPath := some ('/' :: name)
  containerPath := "/export/".toList ++ name
  sourcePath := source

end NfsKlldap
