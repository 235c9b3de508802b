import NfsKlldap.Lib.PushNew
import NfsKlldap.Idhelper.Cache
import NfsKlldap.Identity.Getent

/-! # Passwd logins of a resolved principal (`idhelper/materialize.rs`)

Which passwd login names a cache entry is emitted under, and what they look like as text. A user
gets its sanitised short name and its sanitised `user@REALM` form; a machine also gets its local
part, which is inserted as it is. -/

namespace NfsKlldap

open Text

/-- Logins that are only digits are skipped; they break getpwuid for real users. -/
def isNumericLogin (login : Str) : Bool := !login.isEmpty && login.all Char.isDigit

/-- Characters a sanitised login keeps. -/
def isLoginChar (c : Char) : Bool := c.isAlphanum || c = '_' || c = '-' || c = '.'

/-- Characters the `user@REALM` form keeps. -/
def isRealmLoginChar (c : Char) : Bool := isLoginChar c || c = '@' || c = '/'

/-- Replace the characters outside `keep` by `_`; never returns an empty text. -/
def sanitizeWith (keep : Char → Bool) (name : Str) : Str :=
  let out := name.map fun c => if keep c then c else '_'
  if out = [] then "unknown".toList else out

/-- Sanitise a string for use as a passwd login name (allow alnum and `_`, `-`, `.`). -/
def sanitizeForNss (name : Str) : Str := sanitizeWith isLoginChar name

/-- Passwd login for `user@REALM` and `host/NAME@REALM` principals: keeps `@` and `/`. -/
def principalRealmLoginForNss (principal : Str) : Str := sanitizeWith isRealmLoginChar principal

/-- The passwd login names to emit for a resolved principal, in ascending order. -/
def nssPasswdLoginsFor (r : Resolved) : List Str :=
  let short := sanitizeForNss r.name
  let s := setInsert short []
  if r.kind = .machine ∧ principalHasRealm r.principal then
    let localPart := principalLocalPart r.principal
    let s := if localPart ≠ short then setInsert localPart s else s
    setInsert (principalRealmLoginForNss r.principal) s
  else if principalHasRealm r.principal then
    let at_ := principalRealmLoginForNss r.principal
    if at_ ≠ short then setInsert at_ s else s
  else s

/-- Gecos: principal or name, colon-free for libnss-extrausers. -/
def gecosFor (r : Resolved) : Str :=
  (if principalHasRealm r.principal then r.principal else r.name).filter (· ≠ ':')

/-! ## What sanitised text looks like -/

/-- A character of a login is not white. -/
theorem isWhitespace_of_isRealmLoginChar {c : Char} (h : isRealmLoginChar c = true) :
    isWhitespace c = false := by
  have hne : c.toNat ≠ 0x20 ∧ c.toNat ≠ 0x85 ∧ ¬ c.toNat ≤ 13 ∧ ¬ 0xA0 ≤ c.toNat := by
    simp only [isRealmLoginChar, isLoginChar, Bool.or_eq_true, decide_eq_true_eq] at h
    rcases h with ((((h | rfl) | rfl) | rfl) | rfl) | rfl
    · simp only [Char.isAlphanum, Char.isAlpha, Char.isUpper, Char.isLower, Char.isDigit,
        Bool.or_eq_true, Bool.and_eq_true, decide_eq_true_eq, UInt32.le_iff_toNat_le,
        ge_iff_le] at h
      change ((65 ≤ c.toNat ∧ c.toNat ≤ 90) ∨ (97 ≤ c.toNat ∧ c.toNat ≤ 122)) ∨
        (48 ≤ c.toNat ∧ c.toNat ≤ 57) at h
      omega
    all_goals decide
  simp only [isWhitespace, Bool.or_eq_false_iff, Bool.and_eq_false_iff, decide_eq_false_iff_not,
    beq_eq_false_iff_ne]
  omega

/-- Sanitised text is made of kept characters. -/
theorem mem_sanitizeWith {keep : Char → Bool} (hall : "unknown_".toList.all keep = true)
    {name : Str} {c : Char} (h : c ∈ sanitizeWith keep name) : keep c = true := by
  have hkeep := List.all_eq_true.mp hall
  simp only [sanitizeWith] at h
  split at h
  · exact hkeep c (by revert h; simp; tauto)
  · obtain ⟨a, -, rfl⟩ := List.mem_map.mp h
    split
    · assumption
    · exact hkeep '_' (by decide)

/-- A sanitised name is not empty. -/
theorem sanitizeWith_ne_nil (keep : Char → Bool) (name : Str) : sanitizeWith keep name ≠ [] := by
  simp only [sanitizeWith]
  split
  · decide
  · assumption

/-- A login in the sanitised alphabet: not empty, and only letters, digits and `_-.@/`. -/
structure IsSaneLogin (login : Str) : Prop where
  nonempty : login ≠ []
  chars : ∀ c ∈ login, isRealmLoginChar c = true

/-- For a fixed text both are evaluated. -/
theorem IsSaneLogin.of_all {login : Str} (hne : login ≠ [])
    (hall : login.all isRealmLoginChar = true) : IsSaneLogin login :=
  ⟨hne, List.all_eq_true.mp hall⟩

/-- A sanitised name is a sane login. -/
theorem isSaneLogin_sanitizeForNss (name : Str) : IsSaneLogin (sanitizeForNss name) where
  nonempty := sanitizeWith_ne_nil _ _
  chars c hc := by
    have h : isLoginChar c = true := mem_sanitizeWith (by decide) hc
    simp [isRealmLoginChar, h]

/-- The login of a principal is sane. -/
theorem isSaneLogin_principalRealmLoginForNss (p : Str) :
    IsSaneLogin (principalRealmLoginForNss p) where
  nonempty := sanitizeWith_ne_nil _ _
  chars _ hc := mem_sanitizeWith (by decide) hc

namespace IsSaneLogin

variable {login : Str}

/-- A character outside the alphabet does not occur. -/
theorem not_mem (h : IsSaneLogin login) {c : Char} (hc : isRealmLoginChar c = false) :
    c ∉ login := by
  intro hmem
  simp [h.chars c hmem] at hc

/-- A sane login has no blanks around it. -/
theorem trim_eq (h : IsSaneLogin login) : trim login = login :=
  trim_eq_self
    (fun c hc => isWhitespace_of_isRealmLoginChar (h.chars c (List.mem_of_mem_head? hc)))
    (fun c hc => isWhitespace_of_isRealmLoginChar (h.chars c (List.mem_of_getLast? hc)))

/-- A sane login may stand as the name of a row. -/
theorem isFieldName (h : IsSaneLogin login) : IsFieldName login where
  colon := h.not_mem (by decide)
  trimmed := h.trim_eq
  hash hh := h.not_mem (c := '#') (by decide) (List.mem_of_mem_head? hh)

/-- A sane login may stand in a member list. -/
theorem isMemberName (h : IsSaneLogin login) : IsMemberName login where
  nonempty := h.nonempty
  colon := h.not_mem (by decide)
  comma := h.not_mem (by decide)
  trimmed := h.trim_eq

end IsSaneLogin

/-- The realm form of a realm-qualified principal keeps its `@`. -/
theorem at_mem_principalRealmLoginForNss {p : Str} (h : principalHasRealm p = true) :
    '@' ∈ principalRealmLoginForNss p := by
  have hp : '@' ∈ p := mem_of_mem_trim (at_mem_of_principalHasRealm h)
  simp only [principalRealmLoginForNss, sanitizeWith]
  split
  · rename_i hnil
    simp only [List.map_eq_nil_iff] at hnil
    simp [hnil] at hp
  · exact List.mem_map.mpr ⟨'@', hp, by decide⟩

/-- The realm form is not numeric. -/
theorem isNumericLogin_principalRealmLoginForNss {p : Str} (h : principalHasRealm p = true) :
    isNumericLogin (principalRealmLoginForNss p) = false := by
  have hat := at_mem_principalRealmLoginForNss h
  simp only [isNumericLogin, Bool.and_eq_false_iff, List.all_eq_false]
  exact Or.inr ⟨'@', hat, by decide⟩

/-- A short name is numeric only when the name is. -/
theorem isNumericLogin_of_sanitizeForNss {name : Str}
    (h : isNumericLogin (sanitizeForNss name) = true) : isNumericLogin name = true := by
  simp only [sanitizeForNss, sanitizeWith] at h
  split at h
  · exact absurd h (by decide)
  · simp only [isNumericLogin, Bool.and_eq_true, List.all_eq_true, List.mem_map] at h ⊢
    refine ⟨by simpa using h.1, fun c hc => ?_⟩
    have hdigit := h.2 _ ⟨c, hc, rfl⟩
    split at hdigit
    · exact hdigit
    · exact absurd hdigit (by decide)

/-! ## Membership in the login set -/

/-- **The logins of a realm-qualified entry**: the short name, the realm form and, for a machine,
the raw local part. -/
theorem mem_nssPasswdLoginsFor {r : Resolved} (h : principalHasRealm r.principal = true)
    {login : Str} : login ∈ nssPasswdLoginsFor r ↔
      login = sanitizeForNss r.name ∨ login = principalRealmLoginForNss r.principal ∨
        (r.kind = .machine ∧ login = principalLocalPart r.principal) := by
  simp only [nssPasswdLoginsFor, h, and_true, if_true]
  by_cases hk : r.kind = .machine
  · simp only [hk, if_true, mem_setInsert, true_and]
    split
    · simp only [mem_setInsert, List.not_mem_nil, or_false]
      tauto
    · rename_i hl
      simp only [not_not] at hl
      simp only [mem_setInsert, List.not_mem_nil, or_false, hl]
      tauto
  · simp only [hk, if_false, false_and, or_false]
    split
    · simp only [mem_setInsert, List.not_mem_nil, or_false]
      tauto
    · rename_i hl
      simp only [not_not] at hl
      simp [hl]

/-- A login of a realm-qualified entry is sane unless it is a machine's raw local part. -/
theorem isSaneLogin_or_local {r : Resolved} (h : principalHasRealm r.principal = true)
    {login : Str} (hl : login ∈ nssPasswdLoginsFor r) :
    IsSaneLogin login ∨ (r.kind = .machine ∧ login = principalLocalPart r.principal) := by
  rcases (mem_nssPasswdLoginsFor h).mp hl with rfl | rfl | hm
  · exact Or.inl (isSaneLogin_sanitizeForNss _)
  · exact Or.inl (isSaneLogin_principalRealmLoginForNss _)
  · exact Or.inr hm

/-- Every realm-qualified entry has a login that is not numeric. -/
theorem realmLogin_mem {r : Resolved} (h : principalHasRealm r.principal = true) :
    principalRealmLoginForNss r.principal ∈ nssPasswdLoginsFor r :=
  (mem_nssPasswdLoginsFor h).mpr (Or.inr (Or.inl rfl))

end NfsKlldap
