import NfsKlldap.Lib.FirstClaim
import NfsKlldap.Identity.Snapshot
import NfsKlldap.Idhelper.Logins

/-! # The NSS snapshot builder (`build_nss_snapshot`)

From the cache and an optional map of directory groups the builder computes the lines of the passwd
and group stores. Rows are kept here as their fields (`PasswdFields`, `GroupFields`) up to the last
step, and `line` prints them, so that what a line was built from can be compared with what a parser
reads.

Group rows are emitted by four passes that share one set of seen gids: the directory groups, the
gids each entry claims with the private-group stub of its uid, the supplemental gids of uid-0
entries, and the root row. Each pass is a list of claims on gids; `Emit` keeps the first one. -/

namespace NfsKlldap

open Text

/-- The fields of a passwd(5) line. -/
structure PasswdFields where
  login : Str
  uid : UInt32
  gid : UInt32
  gecos : Str
  home : Str
  shell : Str
  deriving DecidableEq, Repr

/-- The passwd(5) line. -/
def PasswdFields.line (f : PasswdFields) : Str :=
  f.login ++ ":x:".toList ++ decimal f.uid ++ ':' :: decimal f.gid
    ++ ':' :: (f.gecos ++ ':' :: (f.home ++ ':' :: f.shell))

/-- Build a full group(5) line with optional member list; members are comma-separated logins. -/
def groupLineWithMembers (gid : UInt32) (gname : Str) (members : List Str) : Str :=
  if members = [] then gname ++ ":x:".toList ++ decimal gid ++ [':']
  else gname ++ ":x:".toList ++ decimal gid ++ ':' :: [','].intercalate members

/-- The fields of a group(5) line. -/
structure GroupFields where
  gid : UInt32
  name : Str
  members : List Str
  deriving DecidableEq, Repr

/-- The group(5) line. -/
def GroupFields.line (f : GroupFields) : Str := groupLineWithMembers f.gid f.name f.members

/-- Directory groups as handed to the builder: none, or a map by directory name. -/
abbrev LdapGroups := Option GroupMap

/-- The entries of the directory groups. -/
def LdapGroups.entries (ldap : LdapGroups) : List (Str × PosixGroupEntry) :=
  (ldap.map KeyedMap.values).getD []

/-! ## Names and members -/

/-- The stable fallback name of a group that the directory does not have. -/
def gidName (g : UInt32) : Str := 'g' :: decimal g

/-- Directory display name of a gid, else the fallback. Ties on the gid resolve by lowest map key,
so that repeated builds emit identical bytes. -/
def gnameForGid (gid : UInt32) (ldap : LdapGroups) (fallback : Str) : Str :=
  if gid = fallbackNobodyGid then "nobody".toList
  else
    match (ldap.entries.filter fun kv => kv.2.gid.toUInt32 = gid).argmin Prod.fst with
    | some kv => sanitizeForNss kv.2.display
    | none => sanitizeForNss fallback

/-- Minimal gid-0 members; machine logins belong on supplemental groups, not here. -/
def minimalRootGroupMembers : List Str := ["root".toList, "daemon".toList, "bin".toList]

/-- The gid-0 row with its minimal members. -/
def rootGroupRow : GroupFields := ⟨0, "root".toList, minimalRootGroupMembers⟩

/-- The group(5) row for the primary gid of an entry. -/
def groupLineFor (r : Resolved) : GroupFields :=
  if r.gid = 0 then rootGroupRow
  else if r.gid = fallbackNobodyGid then ⟨fallbackNobodyGid, "nobody".toList, []⟩
  else ⟨r.gid, sanitizeForNss r.name, []⟩

/-- The realm-qualified entries of the cache, in order of their principals. -/
def nssItems (cache : IdCache) : List Resolved :=
  (cache.values.filter fun r => principalHasRealm r.principal).insertionSort
    fun a b => a.principal ≤ b.principal

/-- Supplemental gids that uid-0 and gid-0 principals require, over the whole cache. -/
def rootSupplementalGidsFromCache (cache : IdCache) : List UInt32 :=
  (cache.values.foldl (fun supps r =>
    if (r.uid = 0 ∨ r.gid = 0) ∧ principalHasRealm r.principal then
      r.supplementalGids.foldl (fun supps g => if g ≠ 0 then pushNew supps g else supps) supps
    else supps) []).insertionSort (· ≤ ·)

/-- Member lists by gid; a gid that is not filed has no members. -/
abbrev MembersByGid := UInt32 → List Str

/-- Append to the member list of a gid. -/
def MembersByGid.push (m : MembersByGid) (g : UInt32) (logins : List Str) : MembersByGid :=
  Function.update m g (m g ++ logins)

/-- Append to the member list of a gid what it does not have yet. -/
def MembersByGid.pushNew (m : MembersByGid) (g : UInt32) (logins : List Str) : MembersByGid :=
  Function.update m g (pushAllNew (m g) logins)

/-- Primary-gid members, for directory groups with empty member lists. -/
def usersByGid (items : List Resolved) : MembersByGid :=
  items.foldl (fun m r =>
    if r.kind = .user ∧ r.gid ≠ 0 ∧ !isNumericLocalPrincipal r.principal then
      let short := sanitizeForNss r.name
      let m := m.push r.gid [short]
      if principalHasRealm r.principal then
        let at_ := principalRealmLoginForNss r.principal
        if at_ ≠ short then m.push r.gid [at_] else m
      else m
    else m) fun _ => []

/-- The logins an entry is emitted under. -/
def emittedLogins (r : Resolved) : List Str :=
  (nssPasswdLoginsFor r).filter fun login => !isNumericLogin login

/-- What an entry adds to the member list of each non-zero gid it claims: the login `root` for a
machine, its own logins for everybody else. -/
def memberLogins (r : Resolved) : List Str :=
  if r.kind = .machine then ["root".toList] else emittedLogins r

/-- Members of every gid that cached entries claim, primary and supplemental. -/
def membersByGid (items : List Resolved) (rootSupps : List UInt32) : MembersByGid :=
  let m := items.foldl (fun m r => r.claimedGids.foldl (fun m g =>
    if g = 0 then m else MembersByGid.pushNew m g (memberLogins r)) m) fun _ => []
  rootSupps.foldl (fun m g => m.pushNew g ["root".toList]) m

/-! ## Claims on gids and logins -/

/-- A claim on a gid: the row to push, or none when the gid is only marked as seen. -/
abbrev GroupClaim := UInt32 × Option GroupFields

/-- One directory group per signed gid, the one with the lowest map key, in gid order. -/
def ldapByGid (ldap : LdapGroups) : List (Int × PosixGroupEntry) :=
  (ldap.entries.insertionSort fun a b => a.1 ≤ b.1).foldl
    (fun m kv => orInsert kv.2.gid.toInt kv.2 m) []

/-- The row of a directory group: its own members, then those the cache knows. -/
def ldapRow (users members : MembersByGid) (entry : PosixGroupEntry) : GroupFields :=
  let gid := entry.gid.toUInt32
  let gname := sanitizeForNss entry.display
  let gname := if gid = fallbackNobodyGid then "nobody".toList else gname
  let ms := entry.members.map sanitizeForNss
  let ms := pushAllNew ms (users gid)
  ⟨gid, gname, pushAllNew ms (members gid)⟩

/-- The claims of the directory pass. -/
def ldapClaims (ldap : LdapGroups) (users members : MembersByGid) : List GroupClaim :=
  (ldapByGid ldap).map fun e => (e.2.gid.toUInt32, some (ldapRow users members e.2))

/-- A row whose member list is completed with the login `root`. -/
def rootMemberRow (ldap : LdapGroups) (members : MembersByGid) (g : UInt32) : GroupFields :=
  ⟨g, gnameForGid g ldap (gidName g), pushNew (members g) "root".toList⟩

/-- The row of a gid that `r` claims first. -/
def claimedRow (ldap : LdapGroups) (members : MembersByGid) (r : Resolved) (g : UInt32) :
    GroupFields :=
  if g = 0 then rootGroupRow
  else if r.kind = .machine then rootMemberRow ldap members g
  else if g ≠ 0 then
    let gname := gnameForGid g ldap (gidName g)
    let gname := if g = fallbackNobodyGid then "nobody".toList else gname
    let short := sanitizeForNss r.name
    let mems := pushNew (members g) short
    let mems :=
      if principalHasRealm r.principal then
        let at_ := principalRealmLoginForNss r.principal
        if at_ ≠ short then pushNew mems at_ else mems
      else mems
    ⟨g, gname, mems⟩
  else groupLineFor r

/-- The private-group stub of a uid, without members. -/
def stubRow (uid : UInt32) : GroupFields := ⟨uid, 'u' :: decimal uid, []⟩

/-- The stub claim of an entry whose uid is not its gid; uid 0 is marked as seen without a row. -/
def stubClaims (r : Resolved) : List GroupClaim :=
  if r.uid ≠ r.gid then [(r.uid, if r.uid = 0 then none else some (stubRow r.uid))] else []

/-- The group claims of one entry: every gid it claims, then its stub. -/
def groupClaims (ldap : LdapGroups) (members : MembersByGid) (r : Resolved) : List GroupClaim :=
  r.claimedGids.map (fun g => (g, some (claimedRow ldap members r g))) ++ stubClaims r

/-- The passwd row of an entry under one of its logins. -/
def passwdRow (r : Resolved) (login : Str) : PasswdFields :=
  ⟨login, r.uid, r.gid, gecosFor r, "/nonexistent".toList, "/usr/sbin/nologin".toList⟩

/-- The passwd claims of one entry. -/
def passwdClaims (r : Resolved) : List (Str × Option PasswdFields) :=
  (emittedLogins r).map fun login => (login, some (passwdRow r login))

/-! ## The builder -/

/-- The rows emitted so far, with the logins and gids seen. -/
structure NssEmit where
  passwd : Emit Str PasswdFields
  group : Emit UInt32 GroupFields

/-- The body of the emission loop; numeric principals are skipped. -/
def emitEntry (ldap : LdapGroups) (members : MembersByGid) (st : NssEmit) (r : Resolved) :
    NssEmit :=
  if isNumericLocalPrincipal r.principal then st
  else ⟨st.passwd.claimAll (passwdClaims r), st.group.claimAll (groupClaims ldap members r)⟩

/-- The exact root passwd row. -/
def exactRootPasswd : PasswdFields :=
  ⟨"root".toList, 0, 0, "root".toList, "/root".toList, "/bin/sh".toList⟩

/-- The fallback row for nobody. -/
def nobodyPasswd : PasswdFields :=
  ⟨"nobody".toList, fallbackNobodyUid, fallbackNobodyGid, "nfs-klldap fallback".toList,
    "/nonexistent".toList, "/usr/sbin/nologin".toList⟩

/-- Final guarantee for groups: the root row leads with its minimal members. -/
def finishGroups (rows : List GroupFields) : List GroupFields :=
  rootGroupRow :: rows.filter fun f => !"root:x:0:".toList.isPrefixOf f.line

/-- Final guarantee for passwd: the exact root row leads (a prior root row is replaced), and nobody
is present. The tests look at line prefixes. -/
def finishPasswd (rows : List PasswdFields) : List PasswdFields :=
  let isRoot : PasswdFields → Bool := fun f => "root:".toList.isPrefixOf f.line
  let rows :=
    if !rows.any isRoot then exactRootPasswd :: rows else exactRootPasswd :: rows.eraseP isRoot
  if !rows.any fun f => "nobody:".toList.isPrefixOf f.line then rows ++ [nobodyPasswd] else rows

/-- The passwd and group rows of the cache and the directory groups. -/
def buildNssRows (cache : IdCache) (ldap : LdapGroups) : List PasswdFields × List GroupFields :=
  let items := nssItems cache
  let users := usersByGid items
  let rootSupps := rootSupplementalGidsFromCache cache
  let members := membersByGid items rootSupps
  let st : NssEmit := ⟨Emit.empty, Emit.empty.claimAll (ldapClaims ldap users members)⟩
  let st := items.foldl (emitEntry ldap members) st
  let group := rootSupps.foldl (fun e g => e.claim g (some (rootMemberRow ldap members g))) st.group
  let rows := if 0 ∉ group.seen then group.rows ++ [rootGroupRow] else group.rows
  (finishPasswd st.passwd.rows, finishGroups rows)

/-- Build passwd and group line vectors from the cache and the directory groups. -/
def buildNssSnapshot (cache : IdCache) (ldap : LdapGroups) : List Str × List Str :=
  let rows := buildNssRows cache ldap
  (rows.1.map PasswdFields.line, rows.2.map GroupFields.line)

end NfsKlldap
