import NfsKlldap.Config.Validate

/-! # LDAP attribute names and search bases (`ldap/posix.rs`)

The names of the POSIX attributes, from the settings where they are given and by default otherwise,
and the two bases that users and groups are searched under. -/

namespace NfsKlldap

open Text

/-- `non_empty` -/
def nonEmpty (v : Option Str) : Option Str := v.filter fun s => !isBlank s

/-- A setting without the blanks around it, or the default. -/
def settingOr (v : Option Str) (dflt : String) : Str := ((nonEmpty v).map trim).getD dflt.toList

/-- The names of the attributes and object classes. -/
structure PosixAttributeMapping where
  userObjectClass : Str
  groupObjectClass : Str
  userName : Str
  userUidNumber : Str
  userGidNumber : Str
  userHomeDirectory : Str
  userShell : Str
  userFullName : Str
  groupName : Str
  groupGidNumber : Str
  groupMember : Str
  userPrincipalName : Str

/-- `resolve_posix_attribute_mapping`, on the settings that `sssd_resolver_inputs` passes on. -/
def resolvePosixAttributeMapping (s : SssdSection) : PosixAttributeMapping where
  userObjectClass := settingOr s.ldapUserObjectClass "posixAccount"
  groupObjectClass := settingOr s.ldapGroupObjectClass "posixGroup"
  userName := settingOr s.ldapUserName "uid"
  userUidNumber := settingOr s.ldapUserUidNumber "uidNumber"
  userGidNumber := settingOr s.ldapUserGidNumber "gidNumber"
  userHomeDirectory := settingOr s.ldapUserHomeDirectory "homeDirectory"
  userShell := settingOr s.ldapUserShell "loginShell"
  userFullName := settingOr s.ldapUserFullname "displayName"
  groupName := settingOr s.ldapGroupName "cn"
  groupGidNumber := settingOr s.ldapGroupGidNumber "gidNumber"
  groupMember :=
    settingOr s.ldapGroupMember
      (if s.kllldapIgnoredAttributes.getD true then "member" else "memberUid")
  userPrincipalName := settingOr s.ldapUserPrincipalName "krbPrincipalName"

/-- The base of all searches. -/
def ldapSearchBase (env : Environment) (s : SssdSection) (realm : Str) : Str :=
  (nonEmpty s.ldapSearchBase).getD (baseDn env realm)

/-- `effective_ldap_search_bases` -/
def effectiveLdapSearchBases (env : Environment) (s : SssdSection) (realm : Str) : Str × Str :=
  let searchBase := ldapSearchBase env s realm
  ((nonEmpty s.ldapUserSearchBase).getD searchBase,
    (nonEmpty s.ldapGroupSearchBase).getD searchBase)

end NfsKlldap
