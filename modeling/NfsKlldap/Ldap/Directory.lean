import NfsKlldap.Ldap.Resolver

/-! # A directory that does not change

The entries of a directory, what a search of it returns, and what an entry says about a user or a
group. The server decides which entries are under a base and which values match a value in a filter;
it returns the attributes that were asked for, up to case.

* **`LdapDirectory.search`** — a search;
* **`LdapDirectory.Posix`** — users and groups have unique names and ids and lie under the bases;
* **`LdapDirectory.Serves`** — a resolver searches this directory, and no search fails. -/

namespace NfsKlldap

open Text

/-- An entry of a directory. -/
structure LdapEntry where
  dn : Str
  attrs : List (Str × List Str)
  deriving DecidableEq

namespace LdapEntry

/-- The values of an attribute. -/
def valuesOf (e : LdapEntry) (name : Str) : List Str :=
  ((e.attrs.find? fun p => eqIgnoreAsciiCase p.1 name).map Prod.snd).getD []

/-- What a search returns of an entry. -/
def returned (e : LdapEntry) (names : List Str) : SearchEntry where
  dn := e.dn
  attrs := (names.filter fun n => e.valuesOf n ≠ []).map fun n => (n, e.valuesOf n)

/-- `(objectClass=..)` -/
def hasClass (e : LdapEntry) (cls : Str) : Bool :=
  cls = ['*'] || (e.valuesOf "objectClass".toList).any fun c => eqIgnoreAsciiCase c cls

variable (m : PosixAttributeMapping) (e : LdapEntry)

/-- The name of a user. -/
def userName : Option Str := (e.valuesOf m.userName).head?

/-- The uid of a user, if it is a number. -/
def uid : Option Int32 := (e.valuesOf m.userUidNumber).head?.bind parseI32

/-- The primary gid of a user, if it is a number, with blanks around it or not. -/
def primaryGid : Option Int32 := (e.valuesOf m.userGidNumber).head?.bind fun s => parseI32 (trim s)

/-- The name of a group. -/
def groupName : Option Str := (e.valuesOf m.groupName).head?

/-- The gid of a group, if it is a number. -/
def gid : Option Int32 := (e.valuesOf m.groupGidNumber).head?.bind parseI32

/-- The logins in the values of some attributes. -/
def loginsIn (attrs : List Str) : List Str :=
  attrs.foldl (fun out attr => pushAllNew out (((e.valuesOf attr).map memberLogin).filter (· ≠ []))) []

/-- The complete member list of a group. -/
def members : List Str :=
  e.loginsIn [m.groupMember, "uniqueMember".toList, "memberUid".toList]

end LdapEntry

/-- A directory and its server. -/
structure LdapDirectory where
  entries : List LdapEntry
  /-- An entry, by its DN, is under a base. -/
  under : Str → Str → Bool
  /-- A value of an attribute matches a value in a filter. -/
  matchesValue : Str → Str → Str → Bool

namespace LdapDirectory

variable (d : LdapDirectory)

/-- An entry satisfies an assertion. -/
def satisfies (assertion : Option (Str × Str)) (e : LdapEntry) : Bool :=
  assertion.all fun a => (e.valuesOf a.1).any fun v => d.matchesValue a.1 v a.2

/-- A search. -/
def search (req : Search) : List SearchEntry :=
  (d.entries.filter fun e => d.under e.dn req.base &&
    (e.hasClass req.objectClass && d.satisfies req.assertion e)).map (·.returned req.attrs)

/-- The resolver searches this directory. -/
def Serves (env : ResolverEnv) : Prop := ∀ n req, env.search n req = some (d.search req)

variable (env : ResolverEnv)

/-- The users of the directory. -/
def users : List LdapEntry := d.entries.filter fun e => e.hasClass env.attrs.userObjectClass

/-- The groups of the directory. -/
def groups : List LdapEntry := d.entries.filter fun e => e.hasClass env.attrs.groupObjectClass

/-- **A directory of users and groups**: they have names and ids of their own, and lie under the
bases that are searched for them. -/
structure Posix : Prop where
  userNamed : ∀ e ∈ d.users env, e.userName env.attrs ≠ none
  userNames : ((d.users env).map (·.userName env.attrs)).Nodup
  userIds : ((d.users env).filterMap (·.uid env.attrs)).Nodup
  groupNamed : ∀ e ∈ d.groups env, e.groupName env.attrs ≠ none
  groupNames : ((d.groups env).map (·.groupName env.attrs)).Nodup
  groupIds : ((d.groups env).filterMap (·.gid env.attrs)).Nodup
  usersUnder : ∀ e ∈ d.users env, ∀ base ∈ env.userBases, d.under e.dn base = true
  groupsUnder : ∀ e ∈ d.groups env, ∀ base ∈ env.groupBases, d.under e.dn base = true

end LdapDirectory

/-! ## What is read from what is returned -/

namespace LdapEntry

variable {e : LdapEntry} {names : List Str}

/-- Attribute names are matched up to case. -/
theorem valuesOf_toAsciiLowercase (e : LdapEntry) (name : Str) :
    e.valuesOf (toAsciiLowercase name) = e.valuesOf name := by
  simp [valuesOf, eqIgnoreAsciiCase]

/-- What is returned of an entry are the attributes that were asked for and have values. -/
theorem get_returned (e : LdapEntry) (names : List Str) (n : Str) :
    (e.returned names).get n =
      if n ∈ names ∧ e.valuesOf n ≠ [] then some (e.valuesOf n) else none := by
  rw [SearchEntry.get, returned]
  dsimp only
  induction names with
  | nil => simp
  | cons a rest ih =>
    by_cases ha : e.valuesOf a = []
    · rw [List.filter_cons_of_neg (by simpa using ha), ih]
      by_cases hn : n = a
      · subst hn
        simp [ha]
      · simp [hn]
    · rw [List.filter_cons_of_pos (by simpa using ha), List.map_cons, List.find?_cons]
      by_cases hn : a = n
      · subst hn
        simp [ha]
      · rw [decide_eq_false hn]
        simpa [Ne.symm hn] using ih

/-- The first value of an attribute that was asked for. -/
theorem extractFirstAttr_returned (e : LdapEntry) {n : Str} (h : n ∈ names) :
    extractFirstAttr (e.returned names) n = (e.valuesOf n).head? := by
  rw [extractFirstAttr, get_returned, get_returned, valuesOf_toAsciiLowercase]
  by_cases hv : e.valuesOf n = []
  · simp [hv]
  · obtain ⟨v, rest, hcons⟩ := List.exists_cons_of_ne_nil hv
    simp [h, hcons]

/-- An attribute is asked for, under its name or in lower case. -/
def AskedFor (names : List Str) (attr : Str) : Prop := attr ∈ names ∨ toAsciiLowercase attr ∈ names

/-- Whether an attribute is asked for can be decided. -/
instance (names : List Str) (attr : Str) : Decidable (AskedFor names attr) :=
  inferInstanceAs (Decidable (_ ∨ _))

/-- The values that are read of an attribute: none when it was not asked for. -/
theorem values_returned (e : LdapEntry) (names : List Str) (attr : Str) :
    (((e.returned names).get attr).or ((e.returned names).get (toAsciiLowercase attr))).getD [] =
      if AskedFor names attr then e.valuesOf attr else [] := by
  rw [get_returned, get_returned, valuesOf_toAsciiLowercase]
  by_cases hv : e.valuesOf attr = []
  · simp [hv]
  · by_cases hname : attr ∈ names
    · simp [AskedFor, hname, hv]
    · by_cases hlower : toAsciiLowercase attr ∈ names
      · simp [AskedFor, hname, hlower, hv]
      · simp [AskedFor, hname, hlower]

/-- The values of an attribute that was not asked for add no login. -/
theorem loginsIn_filter_askedFor (e : LdapEntry) (names attrs : List Str) :
    attrs.foldl (fun out attr => pushAllNew out
      (((if AskedFor names attr then e.valuesOf attr else []).map memberLogin).filter (· ≠ []))) [] =
        e.loginsIn (attrs.filter (AskedFor names ·)) := by
  rw [loginsIn, List.foldl_filter]
  congr 1
  funext out attr
  by_cases h : AskedFor names attr
  · simp [h]
  · simp [h]

/-- **The members that are read** are the logins under the member attributes that were asked for. -/
theorem extractGroupMembers_returned (e : LdapEntry) (names : List Str) (memberAttr : Str) :
    extractGroupMembers (e.returned names) memberAttr =
      e.loginsIn ([memberAttr, "uniqueMember".toList, "memberUid".toList].filter (AskedFor names ·)) := by
  rw [extractGroupMembers]
  simp only [values_returned]
  rw [← loginsIn_filter_askedFor]
  show List.foldl _ [] ([memberAttr, "uniqueMember".toList, "memberUid".toList] ++
    ["memberuid".toList]) = _
  rw [List.foldl_append, List.foldl_cons, List.foldl_nil]
  -- the fourth name is the third one in lower case
  refine pushAllNew_eq_self fun a ha => ?_
  have hlower : toAsciiLowercase "memberuid".toList = toAsciiLowercase "memberUid".toList := by
    decide +kernel
  have hself : e.valuesOf "memberuid".toList = e.valuesOf "memberUid".toList := by
    rw [← valuesOf_toAsciiLowercase, hlower, valuesOf_toAsciiLowercase]
  have hname : toAsciiLowercase "memberUid".toList = "memberuid".toList := by decide +kernel
  rw [hself] at ha
  have hasked : AskedFor names "memberuid".toList → AskedFor names "memberUid".toList := by
    rintro (h | h)
    · exact .inr (hname ▸ h)
    · exact .inr (hlower ▸ h)
  rw [List.foldl_cons, List.foldl_cons, List.foldl_cons, List.foldl_nil, mem_pushAllNew]
  by_cases h : AskedFor names "memberuid".toList
  · rw [if_pos h] at ha
    rw [if_pos (hasked h)]
    exact .inr ha
  · rw [if_neg h] at ha
    exact absurd ha List.not_mem_nil

end LdapEntry

namespace LdapDirectory

variable {d : LdapDirectory} {env : ResolverEnv}

/-- A search for users under one of their bases. -/
theorem search_users (h : d.Posix env) {base : Str} (hbase : base ∈ env.userBases)
    (assertion : Option (Str × Str)) (names : List Str) :
    d.search ⟨base, env.attrs.userObjectClass, assertion, names⟩ =
      ((d.users env).filter (d.satisfies assertion)).map (·.returned names) := by
  rw [search, users, List.filter_filter]
  congr 1
  refine List.filter_congr fun e he => ?_
  cases hclass : e.hasClass env.attrs.userObjectClass with
  | false => simp
  | true => simp [h.usersUnder e (List.mem_filter.mpr ⟨he, hclass⟩) base hbase]

/-- A search for groups under one of their bases. -/
theorem search_groups (h : d.Posix env) {base : Str} (hbase : base ∈ env.groupBases)
    (assertion : Option (Str × Str)) (names : List Str) :
    d.search ⟨base, env.attrs.groupObjectClass, assertion, names⟩ =
      ((d.groups env).filter (d.satisfies assertion)).map (·.returned names) := by
  rw [search, groups, List.filter_filter]
  congr 1
  refine List.filter_congr fun e he => ?_
  cases hclass : e.hasClass env.attrs.groupObjectClass with
  | false => simp
  | true => simp [h.groupsUnder e (List.mem_filter.mpr ⟨he, hclass⟩) base hbase]

/-- A name is that of one user. -/
theorem Posix.eq_of_userName (h : d.Posix env) {e e' : LdapEntry} (he : e ∈ d.users env)
    (he' : e' ∈ d.users env) (hn : e.userName env.attrs = e'.userName env.attrs) : e = e' :=
  List.inj_on_of_nodup_map h.userNames he he' hn

/-- A name is that of one group. -/
theorem Posix.eq_of_groupName (h : d.Posix env) {e e' : LdapEntry} (he : e ∈ d.groups env)
    (he' : e' ∈ d.groups env) (hn : e.groupName env.attrs = e'.groupName env.attrs) : e = e' :=
  List.inj_on_of_nodup_map h.groupNames he he' hn

end LdapDirectory

end NfsKlldap
