import NfsKlldap.Fs.ShareChoice
import NfsKlldap.Identity.Snapshot
import NfsKlldap.Web.AclWatch

/-! # Where ACL edits are allowed

Whether a filesystem stores ACLs is a matter of its mount: the mount table rules some filesystems out,
and a write probe proves or refutes the others. The gate of the ACL endpoints asks about two mounts,
the one the share is served from and the one the selected node lies on, and lets the edit through when
the share serves ACLs and the node is on the same mount or on one that is proven. -/

namespace NfsKlldap

open Text UnixPath

/-! ## The mount table (`fs_probe.rs`) -/

/-- A line of `/proc/self/mountinfo`. -/
structure MountEntry where
  mountPoint : Str
  fstype : Str
  mountSource : Str
  superOptions : List Str
  deriving DecidableEq

/-- A line of the mount table, if it has all its fields. -/
def parseMountinfoLine (line : Str) : Option MountEntry :=
  let parts := splitWhitespace line
  if parts.length < 10 then none
  else
    match parts.findIdx? (· = "-".toList) with
    | none => none
    | some dash =>
      match parts[4]?, parts[dash + 1]?, parts[dash + 2]?, parts.drop (dash + 3) with
      | some mountPoint, some fstype, some mountSource, option :: options =>
        some
          { mountPoint, fstype, mountSource
            superOptions := (((option :: options).flatMap (·.splitOn ',')).map trim).filter (· ≠ []) }
      | _, _, _, _ => none

/-- The mount table, without the lines that do not parse. -/
def parseMountinfo (content : Str) : List MountEntry := (lines content).filterMap parseMountinfoLine

/-- The path lies at the mount point or below it. -/
def pathUnderMount (path mountPoint : Str) : Bool :=
  if path = mountPoint then true
  else if mountPoint = "/".toList then path.head? = some '/'
  else (mountPoint ++ "/".toList).isPrefixOf path

/-- The mount a path lies on: the last one of those with the longest mount point. -/
def resolveMountForPath (entries : List MountEntry) (path : Str) : Option MountEntry :=
  maxByKey (fun e => osLen (normalizePath e.mountPoint))
    (entries.filter fun e => pathUnderMount (normalizePath path) (normalizePath e.mountPoint))

/-- What the table says about POSIX ACLs on the mount. -/
def aclCapableFromMount (fstype : Str) (options : List Str) (mountSource : Str) : Bool :=
  if options.any (eqIgnoreAsciiCase · "noacl".toList) then false
  else if toAsciiLowercase fstype ∈ ["vfat".toList, "fat".toList, "msdos".toList, "exfat".toList] then
    false
  else if toAsciiLowercase fstype ∈ ["ntfs".toList, "ntfs3".toList, "fuseblk".toList] then false
  else !containsStr "ntfs".toList (toAsciiLowercase mountSource)

/-- What the mount table says of a filesystem. -/
structure FsCapabilities where
  fstype : Str
  mountOptions : List Str
  aclCapable : Bool
  deriving DecidableEq

/-- What is not found in the mount table. -/
def FsCapabilities.unknown : FsCapabilities := ⟨"unknown".toList, [], false⟩

/-- The capabilities of a mount. -/
def MountEntry.caps (e : MountEntry) : FsCapabilities :=
  ⟨e.fstype, e.superOptions, aclCapableFromMount e.fstype e.superOptions e.mountSource⟩

/-- The capabilities, and the mount point. -/
def probeFromMountinfoWithRoot (content path : Str) : FsCapabilities × Option Str :=
  match resolveMountForPath (parseMountinfo content) path with
  | some e => (e.caps, some e.mountPoint)
  | none => (.unknown, none)

/-- `verdict_from_caps`: without the write probe. -/
def verdictFromCaps (caps : FsCapabilities) : AclProbeVerdict :=
  if caps.aclCapable then .inconclusive else .incapable

/-! ## Verdicts (`acl_capability.rs`) -/

/-- The mount table of a request, and what the write probe says of a mount, now or in the cache. -/
structure MountView where
  content : Option Str
  probed : Str → AclProbeVerdict

/-- Stage A; an unreadable table says nothing. -/
def stageA (v : MountView) (path : Str) : FsCapabilities × Option Str :=
  (v.content.map fun content => probeFromMountinfoWithRoot content path).getD (.unknown, none)

/-- The verdict on a mount, with the write probe behind it unless it is skipped. -/
def verdictCached (v : MountView) (caps : FsCapabilities) (mountRoot : Option Str)
    (skipWriteProbe : Bool) : AclProbeVerdict :=
  if caps.fstype = "unknown".toList then .inconclusive
  else if !caps.aclCapable then .incapable
  else if skipWriteProbe then verdictFromCaps caps
  else
    match mountRoot with
    -- only what is unknown has no mount point, and that is decided above
    | none => .inconclusive
    | some root => v.probed root

/-- Resolved capabilities for a path plus the verdict. -/
structure ProbeOutcome where
  caps : FsCapabilities
  mountRoot : Option Str
  verdict : AclProbeVerdict
  deriving DecidableEq

/-- The verdict on the mount a path lies on. -/
def verdictForSnapshot (v : MountView) (path : Str) (skipWriteProbe : Bool) : ProbeOutcome where
  caps := (stageA v path).1
  mountRoot := (stageA v path).2
  verdict := verdictCached v (stageA v path).1 (stageA v path).2 skipWriteProbe

/-! ## The gate (`permission_tree.rs`) -/

/-- Whether the editor is live, and what the panel says about it. -/
structure AclGateView where
  editable : Bool
  pill : Str
  pillClass : Str
  short : Str
  long : Str
  deriving DecidableEq

/-- A gate that is closed. -/
def AclGateView.off (short long : Str) : AclGateView :=
  ⟨false, "off".toList, "off".toList, short, long⟩

/-- A gate that is open without a word. -/
def AclGateView.on (pill : Str) : AclGateView := ⟨true, pill, "on".toList, [], []⟩

/-- The gate of a path under no share. -/
def gateOutsideShares : AclGateView := .off "Not under a configured share.".toList []

/-- The filesystem warning behind a text. -/
def joinWarn (warn base : Str) : Str := if warn = [] then base else base ++ ' ' :: warn

/-- What the panel says while the ACLs of a share are off. -/
def offHelp : Str :=
  "Extended ACLs already on disk still enforce kernel-side on the 9.13 build; ".toList ++
    "turn ACLs on for this share to manage them here.".toList

/-- The decision from the verdict on the serve root alone. -/
def shareLevelDecision (enableAcl : Option Bool) (root : AclProbeVerdict) (warn : Str) :
    AclGateView :=
  match enableAcl, root with
  | some false, _ =>
    .off "ACL is off for this share.".toList
      (joinWarn warn ("enable_acl = false in the share config. ".toList ++ offHelp))
  | some true, .capable => .on "on".toList
  | none, .capable => .on "auto".toList
  | some true, .inconclusive =>
    ⟨true, "on (unverified)".toList, "warn".toList, "ACL on — filesystem support unverified.".toList,
      joinWarn warn
        ("The POSIX ACL write probe was inconclusive, but enable_acl = true ".toList ++
          "so the export serves ACLs. Verify with verify-ganesha.sh.".toList)⟩
  | some true, .incapable =>
    .off "ACL is on in config, but this filesystem can't store ACLs.".toList
      (joinWarn warn
        ("The serve path failed the POSIX ACL probe, ".toList ++
          "so the next config reload will refuse to generate exports. ".toList ++
          "Stage onto an ACL-capable tree (source_path) or set enable_acl = false.".toList))
  | none, _ =>
    .off "ACL auto: off — filesystem support unproven.".toList
      (joinWarn warn
        ("enable_acl is unset (auto): ".toList ++
          "ACL turns on automatically once the serve path passes the write probe. ".toList ++ offHelp))

/-- The decision narrowed by the node's own mount. -/
def aclCapabilityDecision (enableAcl : Option Bool) (root : AclProbeVerdict)
    (node : Option AclProbeVerdict) (warn : Str) : AclGateView :=
  let base := shareLevelDecision enableAcl root warn
  if base.editable then
    match node with
    | some .incapable =>
      .off "This folder is on a filesystem that can't store ACLs (submount).".toList
        (joinWarn warn
          ("The share serves ACLs, but this subtree is a mount (vfat/ntfs or ".toList ++
            "similar) that cannot hold POSIX ACLs. Editing is disabled here.".toList))
    | some .inconclusive =>
      .off "This submount's ACL support is unverified.".toList
        (joinWarn warn
          ("The share serves ACLs, but the POSIX ACL probe on this submount was ".toList ++
            "inconclusive, so editing is disabled here until it is verified.".toList))
    | _ => base
  else base

/-- **The gate of the ACL endpoints.** `warn` is the filesystem warning of the share. -/
def aclApplyGate (c : NfsKlldapConfig) (v : MountView) (warn : Share → Str) (path : Str) :
    AclGateView :=
  match bestShareFor c path with
  | none => gateOutsideShares
  | some s =>
    let skip := s.enableAcl = some false
    let root := verdictForSnapshot v (servePathFor s) skip
    let nodePath := (hostPathToContainerPath c path).toOption.getD (servePathFor s)
    let node := verdictForSnapshot v nodePath skip
    -- only another mount can override the decision for the share
    aclCapabilityDecision s.enableAcl root.verdict
      (if node.mountRoot ≠ root.mountRoot then some node.verdict else none) (warn s)

/-! ## What an open gate says -/

/-- The share lets edits through unless it is switched off, on a proven root, or on an unverified one
when it is switched on. -/
theorem shareLevelDecision_editable {enableAcl : Option Bool} {root : AclProbeVerdict} {warn : Str} :
    (shareLevelDecision enableAcl root warn).editable = true ↔
      enableAcl ≠ some false ∧ (root = .capable ∨ enableAcl = some true ∧ root = .inconclusive) := by
  -- the texts stay closed: only the flag is computed
  have hflag : (shareLevelDecision enableAcl root warn).editable =
      (decide (enableAcl ≠ some false) && (decide (root = .capable) ||
        decide (enableAcl = some true) && decide (root = .inconclusive))) := by
    rcases enableAcl with _ | _ | _ <;> cases root <;> rfl
  rw [hflag]
  simp

/-- The gate opens where the share does and the node's own mount is proven or none. -/
theorem aclCapabilityDecision_editable {enableAcl : Option Bool} {root : AclProbeVerdict}
    {node : Option AclProbeVerdict} {warn : Str} :
    (aclCapabilityDecision enableAcl root node warn).editable = true ↔
      (shareLevelDecision enableAcl root warn).editable = true ∧
        (node = none ∨ node = some .capable) := by
  -- the node's mount is looked at only where the share is open
  by_cases hbase : (shareLevelDecision enableAcl root warn).editable = true
  · have hflag : (aclCapabilityDecision enableAcl root node warn).editable =
        match node with
        | none => true
        | some .capable => true
        | _ => false := by
      simp only [aclCapabilityDecision, hbase, if_true]
      rcases node with _ | _ | _ | _
      · exact hbase
      · exact hbase
      · rfl
      · rfl
    rw [hflag]
    rcases node with _ | _ | _ | _ <;> simp [hbase]
  · have heq : aclCapabilityDecision enableAcl root node warn =
        shareLevelDecision enableAcl root warn := by
      unfold aclCapabilityDecision
      exact if_neg hbase
    rw [heq]
    simp [hbase]

end NfsKlldap
