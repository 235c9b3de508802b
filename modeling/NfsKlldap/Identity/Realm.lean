import NfsKlldap.Lib.Text

/-! # The host and the realm of an LDAP URI (`krb5::realm`)

The realm is the domain of the host in the URI. A host that is a literal address has none, and
`host_is_ip` recognises it by the address grammar of the standard library: four decimal octets, or
hexadecimal groups with at most one `::` and possibly four octets at the end. -/

namespace NfsKlldap

open Text

/-- The two case mappings of the standard library that go by the Unicode tables. -/
structure CaseMapping where
  toUppercase : Str → Str
  toLowercase : Str → Str

/-- The host part of a URI. -/
def extractHostFromUri (uri : Str) : Str :=
  let after :=
    match splitOnceStr "://".toList uri with
    | none => uri
    | some (_, rest) => ((splitOnceStr "://".toList rest).map Prod.fst).getD rest
  let bracketed :=
    match after with
    | '[' :: rest => (splitOnce ']' rest).map Prod.fst
    | _ => none
  bracketed.getD (after.takeWhile fun c => c ≠ ':' && c ≠ '/')

/-- The domain of the host, in upper case. -/
def deriveRealmFromUri (u : CaseMapping) (uri : Str) : Option Str :=
  let host := extractHostFromUri uri
  if host = [] then none
  else some (u.toUppercase (((splitOnce '.' host).map Prod.snd).getD host))

/-- A decimal octet without leading zeros. -/
def isOctet (s : Str) : Bool :=
  s ≠ [] && s.length ≤ 3 && s.all Char.isDigit && (s.length = 1 || s.head? ≠ some '0') &&
    Nat.ofDigitChars 10 s 0 ≤ 255

/-- A text is an IPv4 address: four numbers up to 255, without leading zeros. -/
def isIpv4 (s : Str) : Bool :=
  let parts := s.splitOn '.'
  parts.length = 4 && parts.all isOctet

/-- A group of one to four hexadecimal digits. -/
def isHexGroup (s : Str) : Bool :=
  s ≠ [] && s.length ≤ 4 &&
    s.all fun c => c.isDigit || ('a' ≤ c && c ≤ 'f') || ('A' ≤ c && c ≤ 'F')

/-- How many 16-bit units the groups stand for; only the last one may be an IPv4 address. -/
def ipv6Units : List Str → Option Nat
  | [] => some 0
  | [g] => if isHexGroup g then some 1 else if isIpv4 g then some 2 else none
  | g :: gs => if isHexGroup g then (ipv6Units gs).map (· + 1) else none

/-- The groups between the colons. -/
def colonGroups (s : Str) : List Str := if s = [] then [] else s.splitOn ':'

/-- A text is an IPv6 address. -/
def isIpv6 (s : Str) : Bool :=
  match splitOnceStr "::".toList s with
  | none => ipv6Units (colonGroups s) = some 8
  | some (head, tail) =>
    (colonGroups head).all isHexGroup &&
      (ipv6Units (colonGroups tail)).any fun n => (colonGroups head).length + n ≤ 7

/-- The host is a literal IP address. -/
def hostIsIp (host : Str) : Bool :=
  let h :=
    match host with
    | '[' :: rest => if rest.getLast? = some ']' then rest.dropLast else host
    | _ => host
  isIpv4 h || isIpv6 h

end NfsKlldap
