import NfsKlldap.Settings.Form
import NfsKlldap.Web.AclWatch

/-! # Saving the shares (`settings_save_shares`)

The save collects the shares of the form, fills in the fields that have no control from the old
config, refuses an explicit ACL demand on a mount that provably stores none, validates, and rewrites
the `[[shares]]` array of the document. Everything else in the document stays. -/

namespace NfsKlldap

open Text

/-! ## The config file -/

/-- What the config path holds. -/
inductive ConfFile where
  | missing
  /-- Bytes that are no UTF-8 text. -/
  | binary (bytes : List UInt8)
  | text (s : Str)
  deriving DecidableEq

/-- `read_to_string`. -/
def ConfFile.readToString : ConfFile → Option Str
  | .text s => some s
  | _ => none

/-- Write a sibling and rename it; `ok` says that the file system lets it happen. -/
def atomicWriteConfig (ok : Bool) (file : ConfFile) (content : Str) : ConfFile :=
  if ok then .text content else file

/-- `NfsKlldapConfig::load`. -/
def ConfFile.load (env : Environment) (toml : TomlEdit) (file : ConfFile) :
    Except ConfigError NfsKlldapConfig :=
  match file.readToString with
  | some s => loadText env toml s
  | none => .error .io

/-- The loaded config, or the default one when there is none that validates. -/
def loadOrDefault (env : Environment) (toml : TomlEdit) (file : ConfFile) : NfsKlldapConfig :=
  match file.load env toml with
  | .ok c => c
  | .error _ => {}

/-- The document of the file, or an empty one. -/
def parseOrEmpty (toml : TomlEdit) (file : ConfFile) : Document :=
  (toml.parse (file.readToString.getD [])).getD ∅

/-! ## The passthrough -/

/-- A Pseudo path that is the default `/name` is not persisted. -/
def stripAutoPseudo (s : Share) : Share :=
  match s.pseudoPath with
  | none => s
  | some p =>
    let norm := if startsWith p "/" then p else '/' :: p
    if norm = '/' :: s.name then { s with pseudoPath := none } else s

/-- The old share a row is matched with: the one at its position, or else the one of its name. -/
def oldShareFor (oldShares : List Share) (idx : Nat) (name : Str) : Option Share :=
  (oldShares[idx]?).or (oldShares.find? fun s => s.name = name)

/-- Fill in what the form has no control for. -/
def passthrough (oldCfg : NfsKlldapConfig) (doc : Document) (idx : Nat) (s : Share) : Share :=
  match oldShareFor oldCfg.shares idx s.name with
  | none => s
  | some old =>
    { s with
      pseudoPath :=
        if s.pseudoPath.isNone && sharePseudoPathExplicitInRaw doc idx then old.pseudoPath
        else s.pseudoPath
      sourcePath := s.sourcePath.or old.sourcePath
      attrExpirationSecs := s.attrExpirationSecs.or old.attrExpirationSecs
      navahiInsecure :=
        if !oldCfg.navahiDiscovery && s.navahiInsecure.isNone then old.navahiInsecure
        else s.navahiInsecure }

/-- The shares a form asks for. -/
def requestedShares (oldCfg : NfsKlldapConfig) (doc : Document) (form : SettingsForm) : List Share :=
  ((collectSharesFromStructuredForm form).map stripAutoPseudo).mapIdx (passthrough oldCfg doc)

/-! ## The ACL gate -/

/-- What a fresh probe of a serve path finds. -/
structure AclProbeOutcome where
  fstype : Str
  verdict : AclProbeVerdict
  deriving DecidableEq

/-- A known mount that cannot store ACLs refuses an explicit demand. -/
def refusesAcl (probe : Str → AclProbeOutcome) (s : Share) : Bool :=
  s.enableAcl = some true && (probe (servePathFor s)).fstype ≠ "unknown".toList &&
    (probe (servePathFor s)).verdict = .incapable

/-! ## The `[[shares]]` array -/

/-- Write a key when there is a value for it. -/
def insertSome (t : Table) (key : String) (v : Option Leaf) : Table :=
  match v with
  | none => t
  | some v => t.insert key.toList v

/-- The table of a share. A key at its default is left out, `squash` excepted. -/
def shareTable (s : Share) : Table :=
  let t : Table := (∅ : Table)
    |>.insert "name".toList (.str s.name)
    |>.insert "host_path".toList (.str s.hostPath)
    |>.insert "container_path".toList (.str s.containerPath)
  let t := insertSome t "pseudo_path" (s.pseudoPath.map .str)
  let t := insertSome t "security" (s.security.map .str)
  let t := insertSome t "rw" (if s.rw.getD true then none else some (.bool false))
  let t := insertSome t "squash" (s.squash.map .str)
  let t := insertSome t "cache_profile" ((s.cacheProfile.filter fun p => !isBlank p).map .str)
  let t := insertSome t "pref_read"
    (if s.cacheProfile.isSome then none else s.prefRead.map Leaf.ofU64)
  let t := insertSome t "pref_write"
    (if s.cacheProfile.isSome then none else s.prefWrite.map Leaf.ofU64)
  let t := insertSome t "enable_acl" (s.enableAcl.map .bool)
  let t := insertSome t "manage_gids" (s.manageGids.map .bool)
  let t := insertSome t "read_access_policy"
    ((s.readAccessPolicy.filter fun p => !isBlank p).map .str)
  let t := insertSome t "manage_gids_expiration" (s.manageGidsExpiration.map Leaf.ofU64)
  let t := insertSome t "attr_expiration_secs" (s.attrExpirationSecs.map Leaf.ofI32)
  let t := insertSome t "navahi_insecure"
    (if s.navahiInsecure = some true then some (.bool true) else none)
  insertSome t "source_path" ((s.sourcePath.filter fun p => !isBlank p).map .str)

/-- Replace only the `[[shares]]` array. -/
def applySharesToTomlDoc (doc : Document) (shares : List Share) : Document :=
  let doc := doc.erase "shares".toList
  if shares.isEmpty then doc
  else doc.insert "shares".toList (.rows .block (shares.map shareTable))

/-! ## The save -/

/-- What becomes of a save. -/
inductive SaveOutcome where
  | refused (msg : Str)
  /-- The text handed to the file system, and the file afterwards. -/
  | written (text : Str) (file : ConfFile)
  deriving DecidableEq

/-- The file after a save. -/
def SaveOutcome.file (before : ConfFile) : SaveOutcome → ConfFile
  | .refused _ => before
  | .written _ after => after

/-- How an error is shown. -/
def ConfigError.display : ConfigError → Str
  | .io => "IO error".toList
  | .parse => "TOML parse error".toList
  | .validation msg => "Validation error: ".toList ++ msg

/-- The message about a demand the gate refuses. -/
def aclRefusalMessage (probe : Str → AclProbeOutcome) (s : Share) : Str :=
  "share ".toList ++ quoted s.name ++ ": enable_acl = true but serve path ".toList ++
    quoted (servePathFor s) ++ " (fstype=".toList ++ (probe (servePathFor s)).fstype ++
    (") cannot store                  POSIX ACLs — use the staging pattern (source_path) or " ++
      "leave ACL off/auto.").toList

/-- `settings_save_shares`, up to the reload and the recycle it schedules after a write. -/
def settingsSaveShares (env : Environment) (toml : TomlEdit) (probe : Str → AclProbeOutcome)
    (ok : Bool) (file : ConfFile) (form : SettingsForm) : SaveOutcome :=
  let text := file.readToString.getD []
  let doc := parseOrEmpty toml file
  let oldCfg := loadOrDefault env toml file
  let cfg := { oldCfg with shares := requestedShares oldCfg doc form }
  match cfg.shares.find? (refusesAcl probe) with
  | some s => .refused (aclRefusalMessage probe s)
  | none =>
    match validateAndDerive env cfg with
    | .error e => .refused ("Validation error: ".toList ++ e.display)
    | .ok cfg =>
      let content := toml.render text (applySharesToTomlDoc doc cfg.shares)
      .written content (atomicWriteConfig ok file content)

end NfsKlldap
