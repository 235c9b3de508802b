import NfsKlldap.Idhelper.Cache

/-! # Values in LDAP filters (`ldap/filter.rs`) -/

namespace NfsKlldap

open Text

/-- A byte of a value: the specials of filters and the control characters are escaped, and a byte
above 127 becomes the character with its number. -/
def escapeFilterByte (b : UInt8) : Str :=
  if b = 42 then "\\2a".toList
  else if b = 40 then "\\28".toList
  else if b = 41 then "\\29".toList
  else if b = 92 then "\\5c".toList
  else if b ≤ 31 ∨ b = 127 then ['\\', Nat.digitChar (b.toNat / 16), Nat.digitChar (b.toNat % 16)]
  else [Char.ofNat b.toNat]

/-- `escape_ldap_filter` -/
def escapeLdapFilter (s : Str) : Str := (IdCache.utf8Bytes s).flatMap escapeFilterByte

end NfsKlldap
