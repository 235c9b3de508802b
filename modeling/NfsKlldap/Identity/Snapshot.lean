import NfsKlldap.Lib.KeyedMap
import NfsKlldap.Lib.PushNew
import NfsKlldap.Identity.Principal

/-! # Directory snapshots (`ldap/resolver.rs`)

The identity map an LDAP resolver hands out: posix users and groups by name. Directory ids are
signed 32-bit numbers; the NSS side casts them to unsigned ones bit for bit (`Int32.toUInt32`). -/

namespace NfsKlldap

open Text

/-- `FALLBACK_NOBODY_UID`. -/
def fallbackNobodyUid : UInt32 := 65534

/-- `FALLBACK_NOBODY_GID`. -/
def fallbackNobodyGid : UInt32 := 65534

/-- `MACHINE_GID`. -/
def machineGid : UInt32 := 0

/-- A posix user of the directory. -/
structure PosixUserEntry where
  uid : Int32
  gid : Int32
  display : Str

/-- A posix group of the directory with its member login names. -/
structure PosixGroupEntry where
  gid : Int32
  display : Str
  members : List Str

/-- Users by directory name. -/
abbrev UserMap := KeyedMap (Prod.fst : Str × PosixUserEntry → Str)

/-- Groups by directory name. -/
abbrev GroupMap := KeyedMap (Prod.fst : Str × PosixGroupEntry → Str)

/-- Snapshot of the resolver caches. -/
structure IdMapSnapshot where
  users : UserMap
  groups : GroupMap

/-- The snapshot of a resolver that loaded nothing. -/
def IdMapSnapshot.empty : IdMapSnapshot := ⟨KeyedMap.empty, KeyedMap.empty⟩

/-- A group lists a machine: by host short name, local part or principal, or through the login
`root` it is mapped to. -/
def PosixGroupEntry.hitsMachine (entry : PosixGroupEntry) (principal : Str) : Bool :=
  entry.members.any fun m =>
    let m := trim m
    eqIgnoreAsciiCase m (machineShortName principal)
      || eqIgnoreAsciiCase m (principalLocalPart principal)
      || eqIgnoreAsciiCase m principal
      || eqIgnoreAsciiCase m "root".toList

/-- Supplemental gids from snapshot group membership for a machine principal. -/
def machineSupplementalGidsFromSnapshot (principal : Str) (snap : IdMapSnapshot) : List Int32 :=
  let supps := snap.groups.values.foldl (fun supps kv =>
    if kv.2.gid = 0 then supps
    else if kv.2.hitsMachine principal then pushNew supps kv.2.gid else supps) []
  supps.insertionSort (· ≤ ·)

/-- Primary (0) and supplemental gids for a machine Kerberos principal. -/
def machineGroupGidsForPrincipal (principal : Str) (snap : IdMapSnapshot) : List Int32 :=
  (machineSupplementalGidsFromSnapshot principal snap).foldl
    (fun gids g => if g ≠ 0 then pushNew gids g else gids) [0]

end NfsKlldap
