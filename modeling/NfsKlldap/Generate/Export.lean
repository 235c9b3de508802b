import NfsKlldap.Config.Validate
import NfsKlldap.Web.AclWatch

/-! # What is exported of a share (`write_export_fragments`)

Generate writes one `EXPORT` block per share. `effectiveExport` is what the block says of the share,
with the defaults of absent keys filled in, and the source path next to it, which staging reads. -/

namespace NfsKlldap

open Text

/-- Whether an export serves ACLs (`compute_effective_flags_probed`). -/
def effectiveEnableAcl (caps : Str → AclProbeVerdict) (s : Share) : Bool :=
  s.enableAcl.getD (caps (servePathFor s) = .capable)

/-- The `Read_Access_Check_Policy` line. -/
inductive ReadAccessPolicyEmit where
  | omit
  | pre
  | post
  deriving DecidableEq

/-- `compute_read_access_policy_emit`: `post` means something on the ACL path only. -/
def computeReadAccessPolicyEmit (policy : Option Str) (enableAcl : Bool) : ReadAccessPolicyEmit :=
  match policy with
  | some raw =>
    if toAsciiLowercase (trim raw) = "post".toList then if enableAcl then .post else .pre else .pre
  | none => if enableAcl then .omit else .pre

/-- The share can be discovered: discovery is on, and the share allows insecure access to it. -/
def shareNavahiEffective (cfg : NfsKlldapConfig) (s : Share) : Bool :=
  cfg.navahiDiscovery && s.navahiInsecure = some true

/-- The default of `squash`. -/
def ganeshaDefaultSquash : Str := "root_squash".toList

/-- The `SecType` line. Discovery clients speak `sys` only, which goes last. -/
def exportSecType (cfg : NfsKlldapConfig) (s : Share) : Str :=
  let baseSec := s.security.getD cfg.ganesha.defaultSecurity
  if shareNavahiEffective cfg s && !(baseSec.splitOn ',').any (fun t => trim t = "sys".toList) then
    baseSec ++ ", sys".toList
  else baseSec

/-- The sizes of the `PrefRead` and `PrefWrite` lines; a profile wins over the raw keys. -/
def exportPrefs (s : Share) : Option UInt64 × Option UInt64 :=
  match s.cacheProfile.bind resolveCacheProfile with
  | some (r, w) => (some r, some w)
  | none => (s.prefRead, s.prefWrite)

/-- The export of a share. -/
structure Export where
  path : Str
  pseudo : Str
  secType : Str
  access : Bool
  squash : Str
  prefs : Option UInt64 × Option UInt64
  attrExpirationTime : Option Int32
  enableAcl : Bool
  manageGids : Bool
  readAccess : ReadAccessPolicyEmit
  sourcePath : Option Str
  navahi : Bool
  deriving DecidableEq

/-- The export that is in effect for a share, after its filesystem was looked at. -/
def effectiveExport (caps : Str → AclProbeVerdict) (cfg : NfsKlldapConfig) (s : Share) : Export where
  path := servePathFor s
  pseudo := deriveSharePseudo s
  secType := exportSecType cfg s
  access := s.rw.getD true
  squash := s.squash.getD ganeshaDefaultSquash
  prefs := exportPrefs s
  attrExpirationTime := s.attrExpirationSecs
  enableAcl := effectiveEnableAcl caps s
  manageGids := s.manageGids.getD true
  readAccess := computeReadAccessPolicyEmit s.readAccessPolicy (effectiveEnableAcl caps s)
  sourcePath := s.sourcePath
  navahi := shareNavahiEffective cfg s

/-- The export under a name. -/
def exportNamed (caps : Str → AclProbeVerdict) (cfg : NfsKlldapConfig) (name : Str) : Option Export :=
  (cfg.shares.find? fun s => s.name = name).map (effectiveExport caps cfg)

end NfsKlldap
