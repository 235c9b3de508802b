import NfsKlldap.Config.Validate
import NfsKlldap.Lib.KeyedMap

/-! # The shares form (`settings_form`)

The shares editor submits one group of inputs per row, `share_<field>_<idx>`. A row counts when its
name, host path and container path are not blank, and the rows are taken in the order of their
indices. Checkboxes speak by being present, selects by their value; fields without a control stay
unset here and are filled in by the save. -/

namespace NfsKlldap

open Text

/-- The submitted inputs, by name. -/
abbrev SettingsForm := KeyedMap (Prod.fst : Str × Str → Str)

/-- The value of an input. -/
def formStr (form : SettingsForm) (name : Str) : Option Str := (form.get? name).map Prod.snd

/-- One row of the shares form. -/
structure ShareFormRow where
  idx : Nat
  name : Str
  host : Str
  pseudoPath : Option Str
  security : Option Str
  rw : Bool
  rootSquash : Bool
  cacheProfile : Option Str
  prefRead : Option Str
  prefWrite : Option Str
  enableAcl : Option Bool
  manageGids : Option Bool
  readAccessPolicy : Option Str
  manageGidsExpiration : Option UInt64
  containerPath : Str
  sourcePath : Option Str
  navahiInsecure : Option Bool
  deriving DecidableEq

/-- The profile that goes with a pair of sizes, for old configs without a profile. -/
def inferProfileFromPrefs (pr pw : Option UInt64) : Str :=
  if pr = some 1048576 ∧ pw = some 1048576 then "Default".toList
  else if pr = some 4194304 ∧ pw = some 4194304 then "Read - Basic".toList
  else if pr = some 16777216 ∧ pw = some 8388608 then "Read - Heavy".toList
  else if pr = some 2097152 ∧ pw = some 16777216 then "Write - Heavy".toList
  else "Default".toList

/-- A yes, a no, or neither. -/
def parseTriBool (v : Str) : Option Bool :=
  if trim v = "true".toList then some true
  else if trim v = "false".toList then some false
  else none

/-- The name of an input: `share_<field>_<idx>`. -/
def shareInput (field : String) (idx : Nat) : Str :=
  "share_".toList ++ field.toList ++ "_".toList ++ natDecimal idx

/-- The value of a field of the share card with this number. -/
def shareField (form : SettingsForm) (field : String) (idx : Nat) : Option Str :=
  formStr form (shareInput field idx)

/-- Same lookup with blank values dropped. -/
def shareFieldNonblank (form : SettingsForm) (field : String) (idx : Nat) : Option Str :=
  (shareField form field idx).filter fun v => !isBlank v

/-- `parse::<u64>` -/
def parseU64 (s : Str) : Option UInt64 := (parseBits 64 s).map UInt64.ofNat

/-- The index in the name of a `share_name_` input. -/
def shareNameIdx (input : Str) : Option Nat :=
  if "share_name_".toList.isPrefixOf input then parseBits 64 (input.drop "share_name_".toList.length)
  else none

/-- The row `idx` with the submitted name `v`. -/
def shareFormRow (form : SettingsForm) (idx : Nat) (v : Str) : Option ShareFormRow :=
  let name := trim v
  let host := trim ((shareField form "host" idx).getD [])
  let containerPath := trim ((shareField form "container_path" idx).getD [])
  if name = [] ∨ host = [] ∨ containerPath = [] then none
  else
    some
      { idx, name, host, containerPath
        pseudoPath := shareFieldNonblank form "pseudo" idx
        security := shareFieldNonblank form "security" idx
        rw := ((shareField form "rw" idx).map fun v => decide (trim v = "true".toList)).getD true
        rootSquash := (shareField form "root_squash" idx).isSome
        cacheProfile := shareFieldNonblank form "cache_profile" idx
        prefRead := shareFieldNonblank form "pref_read" idx
        prefWrite := shareFieldNonblank form "pref_write" idx
        enableAcl := (shareField form "enable_acl" idx).bind parseTriBool
        manageGids := (shareField form "manage_gids" idx).bind parseTriBool
        readAccessPolicy := (shareField form "read_access_policy" idx).bind fun v =>
          if trim v = "pre".toList then some "pre".toList
          else if trim v = "post".toList then some "post".toList
          else none
        manageGidsExpiration :=
          (shareField form "manage_gids_expiration" idx).bind fun v => parseU64 (trim v)
        sourcePath := shareFieldNonblank form "source_path" idx
        navahiInsecure := (shareField form "navahi_insecure" idx).map fun _ => true }

/-- The share a row stands for. `umask` is retired, and the attribute expiration has no control. -/
def ShareFormRow.toShare (r : ShareFormRow) : Share where
  name := r.name
  hostPath := r.host
  pseudoPath := r.pseudoPath
  security := r.security
  rw := some r.rw
  cacheProfile := some (r.cacheProfile.getD "Default".toList)
  prefRead := r.prefRead.bind parseU64
  prefWrite := r.prefWrite.bind parseU64
  enableAcl := r.enableAcl
  manageGids := r.manageGids
  readAccessPolicy := r.readAccessPolicy
  manageGidsExpiration := r.manageGidsExpiration
  containerPath := r.containerPath
  sourcePath := r.sourcePath
  umask := none
  attrExpirationSecs := none
  navahiInsecure := r.navahiInsecure
  squash := some (if r.rootSquash then "root_squash".toList else "no_root_squash".toList)

/-- The rows of a form, in the order of their inputs. -/
def shareFormRows (form : SettingsForm) : List ShareFormRow :=
  form.values.filterMap fun input =>
    (shareNameIdx input.1).bind fun idx => shareFormRow form idx input.2

/-- The shares of a form, in the order of their indices. -/
def collectSharesFromStructuredForm (form : SettingsForm) : List Share :=
  ((shareFormRows form).insertionSort fun r r' => r.idx ≤ r'.idx).map ShareFormRow.toShare

/-! ## Explicit Pseudo paths -/

/-- The `[[shares]]` table at a position of the document. -/
def shareTableAt (doc : Document) (idx : Nat) : Option Table :=
  ((doc.lookup "shares".toList).bind Item.asArrayOfTables).bind fun ts => ts[idx]?

/-- The raw table at this position has a Pseudo path, under the present key or the former one. -/
def sharePseudoPathExplicitInRaw (doc : Document) (idx : Nat) : Bool :=
  (shareTableAt doc idx).any fun t =>
    (t.lookup "pseudo_path".toList).isSome || (t.lookup "export_path".toList).isSome

/-- The explicit Pseudo path of the editor, with a leading slash. -/
def sharePseudoPathFromRaw (doc : Document) (idx : Nat) : Str :=
  match shareTableAt doc idx with
  | none => []
  | some t =>
    let key :=
      if (t.lookup "pseudo_path".toList).isSome then "pseudo_path".toList else "export_path".toList
    let raw := trim ((t.str? key).getD [])
    if raw = [] then [] else if startsWith raw "/" then raw else '/' :: raw

end NfsKlldap
