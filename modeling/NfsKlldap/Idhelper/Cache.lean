import NfsKlldap.Lib.KeyedMap
import NfsKlldap.Identity.Principal

/-! # The identity cache (`idhelper/common.rs`)

`IdCache` maps a normalised principal to the identity it resolved to. Entries are filed under
`normalize_principal` of their own principal and the code only rewrites fields that do not enter the
key, so the cache is a `KeyedMap`: a misfiled entry cannot be built. -/

namespace NfsKlldap

open Text

/-- What a principal stands for. -/
inductive PrincipalKind where
  | user
  | machine
  | unknown
  deriving DecidableEq, Repr

/-- The word for a kind in the cache file and in socket replies. -/
def PrincipalKind.asStr : PrincipalKind → Str
  | .user => "user".toList
  | .machine => "machine".toList
  | .unknown => "unknown".toList

/-- A resolved identity. -/
structure Resolved where
  principal : Str
  name : Str
  uid : UInt32
  gid : UInt32
  kind : PrincipalKind
  source : Str
  /-- Supplemental (non-primary) groups of this principal. -/
  supplementalGids : List UInt32
  deriving DecidableEq, Repr

/-- The cache key of an entry. -/
def Resolved.key (r : Resolved) : Str := normalizePrincipal r.principal

/-- The gids an entry claims: its primary gid, then its supplemental ones. -/
def Resolved.claimedGids (r : Resolved) : List UInt32 := r.gid :: r.supplementalGids

/-- The same entry with other supplemental groups. -/
def Resolved.withSupplementalGids (r : Resolved) (supps : List UInt32) : Resolved :=
  { r with supplementalGids := supps }

/-- New gids leave the key as it is. -/
@[simp] theorem Resolved.key_withSupplementalGids (r : Resolved) (supps : List UInt32) :
    (r.withSupplementalGids supps).key = r.key := rfl

/-- The identity cache: normalised principal to entry. -/
abbrev IdCache := KeyedMap Resolved.key

namespace IdCache

/-- Removes users but keeps machine principals like `host/` and `nfs/`. -/
def pruneNonMachineUsers (cache : IdCache) : IdCache := cache.retain fun r => r.kind = .machine

/-- Drop rows whose principal lacks a real `@REALM`. -/
def pruneMalformedPrincipals (cache : IdCache) : IdCache :=
  cache.retain fun r => principalHasRealm r.principal

/-- Drop user rows whose local part is purely numeric (uid/gid reverse-map pollution). -/
def pruneNumericUserEntries (cache : IdCache) : IdCache :=
  cache.retain fun r => r.kind = .machine || !isNumericLocalPrincipal r.principal

/-! ## Content fingerprint and cache file -/

/-- `FNV1A_SEED`. -/
def fnv1aSeed : UInt64 := 0xcbf29ce484222325

/-- The UTF-8 bytes of a text. -/
def utf8Bytes (s : Str) : List UInt8 := s.flatMap String.utf8EncodeChar

/-- The four bytes of a 32-bit number, least significant first. -/
def toLeBytes (n : UInt32) : List UInt8 :=
  [n.toUInt8, (n >>> 8).toUInt8, (n >>> 16).toUInt8, (n >>> 24).toUInt8]

/-- The bytes one entry feeds to the fingerprint. -/
def fingerprintBytes (r : Resolved) : List UInt8 :=
  utf8Bytes r.key ++ utf8Bytes r.name ++ toLeBytes r.uid ++ toLeBytes r.gid
    ++ utf8Bytes r.kind.asStr ++ r.supplementalGids.flatMap toLeBytes

/-- Hash of the cache content in key order, so that an unchanged cache is not written again. -/
def contentFingerprint (cache : IdCache) : UInt64 :=
  ((cache.values.insertionSort fun a b => a.key ≤ b.key).flatMap fingerprintBytes).foldl
    (fun h b => (h * 0x100000001b3) ^^^ b.toUInt64) fnv1aSeed

/-- One line of the cache file: `principal|uid|gid|kind|source|supplemental`. -/
def cacheLine (e : Resolved) : Str :=
  ['|'].intercalate [e.principal, decimal e.uid, decimal e.gid, e.kind.asStr, e.source,
    [','].intercalate (e.supplementalGids.map decimal)]

/-- The text `write_to_file` writes: two header comments and the entries by principal. -/
def fileText (cache : IdCache) : Str :=
  unlines (["# nfs-klldap-idhelper cache v1".toList,
      "# principal|uid|gid|kind|source|supplemental (comma sep, may be empty)".toList]
    ++ (cache.values.insertionSort fun a b => a.principal ≤ b.principal).map cacheLine)

end IdCache

end NfsKlldap
