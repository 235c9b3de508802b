import NfsKlldap.Generate.Export
import NfsKlldap.Idhelper.Cache
import NfsKlldap.Web.AclGate

/-! # Export fragments (`generate/directives.rs`, `generate/fragments.rs`)

One `EXPORT` block per share, each in a file of its own. All blocks are built before the first file
is written; a share that asks for ACLs on a filesystem without them, or that still has a `umask`,
refuses the whole run. -/

namespace NfsKlldap

open Text

/-- Why generating failed. -/
inductive GenerateError where
  | io
  | generation (msg : Str)
  deriving DecidableEq

/-! ## Names and ids -/

/-- `sanitize_name`: what is not a letter, a digit, a dash or an underscore becomes a dash. -/
def sanitizeName (t : CharTable) (s : Str) : Str :=
  s.map fun c => if t.isAlphanumeric c || c = '-' || c = '_' then c else '-'

/-- The hash of a name in `derive_export_id`. -/
def exportNameHash (name : Str) : UInt32 :=
  (IdCache.utf8Bytes name).foldl (fun h b => (h * 16777619) ^^^ b.toUInt32) 0x811c9dc5

/-- The ids that are left above a base. -/
def exportIdSpan (base : UInt16) : UInt32 := min 55000 (max (65535 - base.toUInt32) 1)

/-- `derive_export_id` -/
def deriveExportId (name : Str) (base : UInt16) : UInt16 :=
  (base.toUInt32 + exportNameHash name % exportIdSpan base).toUInt16

/-- The base of the share at an index, in the 16-bit arithmetic of a release build. -/
def exportIdBase (index : Nat) : UInt16 := 1000 + UInt16.ofNat index * 10

/-- At least two digits. -/
def twoDigits (n : Nat) : Str := if n < 10 then '0' :: natDecimal n else natDecimal n

/-- `fragment_basename` -/
def fragmentBasename (t : CharTable) (index : Nat) (name : Str) : Str :=
  twoDigits (index + 10) ++ '-' :: (sanitizeName t name ++ ".conf".toList)

/-! ## Flags -/

/-- The flags of an export after the file and the probe. -/
structure EffectiveShareFlags where
  enableAcl : Bool
  manageGids : Bool
  /-- The probe, and not the file, turned ACLs off. -/
  autoApplied : Bool
  /-- The probe, and not the file, turned ACLs on. -/
  autoEnabled : Bool
  deriving DecidableEq

/-- `compute_effective_flags_probed` -/
def computeEffectiveFlagsProbed (s : Share) (caps : FsCapabilities) (verdict : AclProbeVerdict) :
    EffectiveShareFlags :=
  let enableAcl := s.enableAcl.getD (verdict = .capable)
  { enableAcl
    manageGids := s.manageGids.getD true
    autoApplied := !caps.aclCapable && s.enableAcl.isNone
    autoEnabled := enableAcl && s.enableAcl.isNone }

/-- `acl_probe_verdict`: the mount table decides first, then the tools. -/
def aclProbeVerdict (v : MountView) (caps : FsCapabilities) (path : Str) : AclProbeVerdict :=
  if !caps.aclCapable then .incapable else v.probed path

/-- The verdict of a share; one that turns ACLs off is not probed. -/
def shareVerdict (v : MountView) (s : Share) : AclProbeVerdict :=
  let caps := (stageA v (servePathFor s)).1
  if s.enableAcl = some false then verdictFromCaps caps
  else aclProbeVerdict v caps (servePathFor s)

/-- What a share is allowed, after its filesystem was looked at. -/
def shareFlags (v : MountView) (s : Share) : EffectiveShareFlags :=
  computeEffectiveFlagsProbed s (stageA v (servePathFor s)).1 (shareVerdict v s)

/-! ## Lines -/

/-- A line of an export block. -/
def directiveLine (key : String) (value : Str) : Str :=
  "    ".toList ++ key.toList ++ " = ".toList ++ value ++ ";\n".toList

/-- `true` and `false` in a block. -/
def boolWord (b : Bool) : Str := if b then "true".toList else "false".toList

/-- The comment over a block whose ACL setting the probe decided. -/
def autoComment (caps : FsCapabilities) (eff : EffectiveShareFlags) : Str :=
  if !eff.enableAcl then
    let opts :=
      if caps.mountOptions = [] then []
      else " (".toList ++ ",".toList.intercalate caps.mountOptions ++ ")".toList
    if eff.autoApplied then
      "# Auto-detected: ".toList ++ caps.fstype ++ opts ++
        (" — cannot store POSIX ACLs. The 9.13 VFS backend\n" ++
        "# fetches ACLs on every attribute refresh, so exports on this filesystem are\n" ++
        "# expected to fail attribute fetches regardless of Disable_ACL; stage onto an\n" ++
        "# ACL-capable serve tree. See docs/ganesha-architecture.md" ++
        "#acl-and-filesystem-compatibility\n").toList
    else []
  else if eff.autoEnabled then
    "# Auto-enabled: enable_acl unset and the ACL write probe passed on ".toList ++ caps.fstype ++
      (".\n# See docs/ganesha-architecture.md#acl-and-filesystem-compatibility\n").toList
  else []

/-- The comment over the block of a share that is advertised. -/
def navahiComment : Str :=
  ("# Navahi: advertised via mDNS; NFSv3 + AUTH_SYS click-mount enabled " ++
    "(navahi_discovery + navahi_insecure).\n").toList

/-- `export_read_access_line` -/
def exportReadAccessLine : ReadAccessPolicyEmit → Str
  | .omit => []
  | .pre => directiveLine "Read_Access_Check_Policy" "pre".toList
  | .post => directiveLine "Read_Access_Check_Policy" "post".toList

/-- An optional line. -/
def optionalLine (key : String) (value : Option Str) : Str :=
  (value.map (directiveLine key)).getD []

/-- What clients may do. -/
def accessWord (e : Export) : Str := if e.access then "RW".toList else "RO".toList

/-- The protocols of an export block, and of its clients. -/
def clientProtocols (e : Export) : Str := if e.navahi then "3,4".toList else "4".toList

/-- The clients of an export. -/
def clientBlock (e : Export) : Str :=
  "\n    CLIENT \x7b\n        Clients = *;\n        Access_Type = ".toList ++ accessWord e ++
    ";\n        Protocols = ".toList ++ clientProtocols e ++ ";\n    \x7d\n\n".toList

/-- The comment lines over a block. -/
def fragmentHeader (name : Str) (caps : FsCapabilities) (eff : EffectiveShareFlags)
    (navahi : Bool) : Str :=
  "# Generated from nfs-klldap.conf share \"".toList ++ name ++ "\"\n".toList ++
    autoComment caps eff ++ if navahi then navahiComment else []

/-- The block of an export. -/
def exportBlock (exportId : UInt16) (e : Export) : Str :=
  "EXPORT \x7b\n".toList ++
    directiveLine "Export_Id" (natDecimal exportId.toNat) ++
    directiveLine "Path" e.path ++
    directiveLine "Pseudo" e.pseudo ++
    (if e.navahi then directiveLine "Protocols" "3,4".toList else []) ++
    directiveLine "Disable_ACL" (boolWord !e.enableAcl) ++
    directiveLine "SecType" e.secType ++
    directiveLine "Squash" e.squash ++
    directiveLine "Manage_Gids" (boolWord e.manageGids) ++
    exportReadAccessLine e.readAccess ++
    optionalLine "PrefRead" (e.prefs.1.map fun n => natDecimal n.toNat) ++
    optionalLine "PrefWrite" (e.prefs.2.map fun n => natDecimal n.toNat) ++
    optionalLine "Attr_Expiration_Time"
      (e.attrExpirationTime.map fun n => (toString n.toInt).toList) ++
    clientBlock e ++
    "    FSAL \x7b\n        Name = VFS;\n    \x7d\n\x7d\n".toList

/-- What is exported of a share, as the mount table and the probe decide. -/
def shareExport (v : MountView) (cfg : NfsKlldapConfig) (s : Share) : Export :=
  effectiveExport (fun _ => shareVerdict v s) cfg s

/-- The text of the fragment of the share at an index. -/
def fragmentText (v : MountView) (cfg : NfsKlldapConfig) (index : Nat) (s : Share) : Str :=
  let e := shareExport v cfg s
  fragmentHeader s.name (stageA v (servePathFor s)).1 (shareFlags v s) e.navahi ++
    exportBlock (deriveExportId s.name (exportIdBase index)) e

/-! ## The run -/

/-- Why a share refuses the run. -/
def refusal (v : MountView) (s : Share) : Option Str :=
  if s.enableAcl = some true ∧ shareVerdict v s = .incapable then
    some ("share ".toList ++ quoted s.name ++ ": enable_acl = true but serve path ".toList ++
      quoted (servePathFor s) ++ " (fstype=".toList ++ (stageA v (servePathFor s)).1.fstype ++
      (") cannot store POSIX ACLs. Refusing to emit a broken ACL export. Escape: use the " ++
      "staging pattern — set source_path to the data tree and container_path to an " ++
      "ACL-capable serve tree, with the post-generate sync hook " ++
      "(examples/post-generate-staging-sync.sh, " ++
      "docs/ganesha-architecture.md#acl-and-filesystem-compatibility) — or set " ++
      "enable_acl = false.").toList)
  else if s.umask.isSome then
    some ("share ".toList ++ quoted s.name ++
      (": the umask key is retired — Ganesha 9.13 dropped per-export FSAL Umask, and " ++
      "creation-mode enveloping now lives in default (inheritance) ACL entries plus setgid " ++
      "(the permission panel's Inherit tab; " ++
      "docs/ganesha-architecture.md#nfs-create-inheritance-umask-and-acl-default-entries). " ++
      "Remove `umask` from this share to generate.").toList)
  else none

/-- The loop over the shares: the files to write, or the first refusal. -/
def stageFragments (t : CharTable) (v : MountView) (cfg : NfsKlldapConfig) :
    Nat → List Share → Except GenerateError (List (Str × Str))
  | _, [] => .ok []
  | index, s :: rest =>
    match refusal v s with
    | some msg => .error (.generation msg)
    | none => do
      let staged ← stageFragments t v cfg (index + 1) rest
      return (fragmentBasename t index s.name, fragmentText v cfg index s) :: staged

/-! ## What the loop stages -/

/-- **The staged files**: one per share, unless a share refuses the run. -/
theorem stageFragments_eq_ok_iff {t : CharTable} {v : MountView} {cfg : NfsKlldapConfig}
    {index : Nat} {shares : List Share} {staged : List (Str × Str)} :
    stageFragments t v cfg index shares = .ok staged ↔
      (∀ s ∈ shares, refusal v s = none) ∧
        staged = shares.mapIdx fun i s =>
          (fragmentBasename t (index + i) s.name, fragmentText v cfg (index + i) s) := by
  induction shares generalizing index staged with
  | nil => simp [stageFragments, eq_comm]
  | cons s rest ih =>
    rw [stageFragments, List.forall_mem_cons, List.mapIdx_cons]
    cases hr : refusal v s with
    | some msg => simp
    | none =>
      simp only [bind_eq_ok, ih, pure, Except.pure, Except.ok.injEq, true_and, Nat.add_zero]
      have hshift : ∀ i : Nat, index + 1 + i = index + (i + 1) := fun i => by omega
      constructor
      · rintro ⟨_, ⟨hrest, rfl⟩, rfl⟩
        exact ⟨hrest, by simp only [hshift]⟩
      · rintro ⟨hrest, rfl⟩
        exact ⟨_, ⟨hrest, rfl⟩, by simp only [hshift]⟩

/-- A run that is not staged is refused by a share. -/
theorem stageFragments_eq_error {t : CharTable} {v : MountView} {cfg : NfsKlldapConfig}
    {index : Nat} {shares : List Share} {e : GenerateError}
    (h : stageFragments t v cfg index shares = .error e) :
    ∃ s ∈ shares, ∃ msg, refusal v s = some msg ∧ e = .generation msg := by
  induction shares generalizing index with
  | nil => simp [stageFragments] at h
  | cons s rest ih =>
    rw [stageFragments] at h
    cases hr : refusal v s with
    | some msg =>
      rw [hr] at h
      cases h
      exact ⟨s, List.mem_cons_self, msg, hr, rfl⟩
    | none =>
      rw [hr] at h
      cases hs : stageFragments t v cfg (index + 1) rest with
      | ok staged => simp [hs, bind, Except.bind, pure, Except.pure] at h
      | error e' =>
        rw [hs] at h
        cases h
        obtain ⟨s', hs', msg, hmsg, he⟩ := ih hs
        exact ⟨s', List.mem_cons_of_mem s hs', msg, hmsg, he⟩

end NfsKlldap
