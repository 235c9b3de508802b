import NfsKlldap.Ldap.Resolver
import NfsKlldap.Lib.LdapFilter

/-! # Names in search filters (`ldap/filter.rs`, `ldap/resolver.rs`)

A name that was typed is escaped byte by byte and put into the text of a filter, which the server reads
back. The special characters survive this; a byte above 127 comes out as a character of its own, which is
two bytes for the server.

* **`tokens_escapeLdapFilter`** — what an escaped name consists of;
* **`FilterFaithful`** — the server reads the name that was typed;
* **`filterFaithful_iff`** — it does for ASCII names. -/

namespace NfsKlldap

open Text Utf8 LdapFilter

/-! ## The filters -/

/-- A filter for one object class and one name. -/
structure NameFilter where
  objectClass : Str
  attr : Str
  name : Str

/-- `(&(objectClass={})({}={}))` -/
def NameFilter.text (f : NameFilter) : Str :=
  "(&(objectClass=".toList ++ (f.objectClass ++ (")(".toList ++
    (f.attr ++ '=' :: (escapeLdapFilter f.name ++ "))".toList))))

/-- `user_filter_by_name`, and the first pass of `resolve_user`. -/
def userFilterByName (m : PosixAttributeMapping) (name : Str) : NameFilter :=
  ⟨m.userObjectClass, m.userName, name⟩

/-- The second pass of `resolve_user`. -/
def userFilterByPrincipal (m : PosixAttributeMapping) (name : Str) : NameFilter :=
  ⟨m.userObjectClass, m.userPrincipalName, name⟩

/-- `group_filter_by_name`, and the search of `resolve_group`. -/
def groupFilterByName (m : PosixAttributeMapping) (name : Str) : NameFilter :=
  ⟨m.groupObjectClass, m.groupName, name⟩

/-- All filters with a name that was typed. -/
def nameFilters (m : PosixAttributeMapping) (name : Str) : List NameFilter :=
  [userFilterByName m name, userFilterByPrincipal m name, groupFilterByName m name]

/-- The text of the filter of a search. -/
def Search.filterText (req : Search) : Str :=
  match req.assertion with
  | none => "(objectClass=".toList ++ req.objectClass ++ [')']
  | some (attr, value) =>
    "(&(objectClass=".toList ++ (req.objectClass ++ (")(".toList ++
      (attr ++ '=' :: (value ++ "))".toList))))

/-- A search for a name sends the filter for it. -/
theorem NameFilter.text_eq (f : NameFilter) (base : Str) (attrs : List Str) :
    f.text = Search.filterText ⟨base, f.objectClass, some (f.attr, escapeLdapFilter f.name), attrs⟩ :=
  rfl

/-! ## What a name is read as -/

/-- The byte is escaped. -/
def EscapesByte (b : UInt8) : Prop := b ∈ [42, 40, 41, 92] ∨ b ≤ 31 ∨ b = 127

/-- Which bytes are escaped can be decided. -/
instance : DecidablePred EscapesByte := fun _ => inferInstanceAs (Decidable (_ ∨ _))

/-- What stands for a byte of the name. -/
def filterToken (b : UInt8) : Token :=
  if EscapesByte b then .escaped b else .plain (Char.ofNat b.toNat)

/-- A hexadecimal digit stands for its value. -/
theorem hexValue_digitChar {n : ℕ} (h : n < 16) : hexValue (Nat.digitChar n) = some n := by
  have hall : ∀ i : Fin 16, hexValue (Nat.digitChar i) = some i.val := by decide
  exact hall ⟨n, h⟩

/-- A byte that is escaped is one token. -/
theorem tokens_escapeFilterByte (b : UInt8) (s : Str) :
    tokens (escapeFilterByte b ++ s) = (tokens s).map (filterToken b :: ·) := by
  have hb := b.toNat_lt
  rw [escapeFilterByte, filterToken]
  by_cases h42 : b = 42
  · subst h42
    exact tokens_escaped (show hexValue '2' = _ from rfl) (show hexValue 'a' = _ from rfl) s
  by_cases h40 : b = 40
  · subst h40
    exact tokens_escaped (show hexValue '2' = _ from rfl) (show hexValue '8' = _ from rfl) s
  by_cases h41 : b = 41
  · subst h41
    exact tokens_escaped (show hexValue '2' = _ from rfl) (show hexValue '9' = _ from rfl) s
  by_cases h92 : b = 92
  · subst h92
    exact tokens_escaped (show hexValue '5' = _ from rfl) (show hexValue 'c' = _ from rfl) s
  rw [if_neg h42, if_neg h40, if_neg h41, if_neg h92]
  by_cases hcontrol : b ≤ 31 ∨ b = 127
  · rw [if_pos hcontrol, if_pos (show EscapesByte b from .inr hcontrol)]
    refine (tokens_escaped (hexValue_digitChar (by omega)) (hexValue_digitChar (by omega)) s).trans ?_
    rw [Nat.div_add_mod, UInt8.ofNat_toNat]
  · have hplain : ¬ EscapesByte b := by
      rintro (hmem | hor)
      · simp [h42, h40, h41, h92] at hmem
      · exact hcontrol hor
    rw [if_neg hcontrol, if_neg hplain]
    refine tokens_cons (fun heq => h92 (UInt8.toNat_inj.mp ?_)) s
    rw [← toNat_ofNat_byte b, heq]
    rfl

/-- **What an escaped name consists of**, byte by byte. -/
theorem tokens_escapeLdapFilter (name : Str) :
    tokens (escapeLdapFilter name) = some ((encode name).map filterToken) := by
  have hbytes : ∀ bs : List UInt8,
      tokens (bs.flatMap escapeFilterByte) = some (bs.map filterToken) := by
    intro bs
    induction bs with
    | nil => rfl
    | cons b bs ih => rw [List.flatMap_cons, tokens_escapeFilterByte, ih, Option.map_some, List.map_cons]
  exact hbytes (encode name)

/-- No special character is left over. -/
theorem isEscaped_escapeLdapFilter (name : Str) : IsEscaped (escapeLdapFilter name) := by
  refine ⟨_, tokens_escapeLdapFilter name, fun c hc hmem => ?_⟩
  obtain ⟨b, -, hb⟩ := List.mem_map.mp hmem
  rw [filterToken] at hb
  split at hb
  · cases hb
  · next hplain =>
    have hchar := Token.plain.inj hb
    have hnat : b.toNat = c.toNat := by rw [← toNat_ofNat_byte b, hchar]
    have hcode : c.toNat ∈ specials.map Char.toNat := List.mem_map_of_mem hc
    rw [← hnat] at hcode
    have hall : ∀ n ∈ specials.map Char.toNat, EscapesByte (UInt8.ofNat n) := by decide
    exact hplain (UInt8.ofNat_toNat (x := b) ▸ hall _ hcode)

/-! ## The bytes the server gets -/

/-- The token of an ASCII byte stands for this byte. -/
theorem bytes_filterToken {b : UInt8} (h : b.toNat < 128) : (filterToken b).bytes = [b] := by
  rw [filterToken]
  split
  · rfl
  · exact encodeChar_byte h

/-- A byte beyond ASCII becomes two. -/
theorem length_bytes_filterToken {b : UInt8} (h : ¬ b.toNat < 128) :
    (filterToken b).bytes.length = 2 := by
  have hplain : ¬ EscapesByte b := by
    rintro (hmem | hle | rfl)
    · simp only [List.mem_cons, List.not_mem_nil, or_false] at hmem
      rcases hmem with rfl | rfl | rfl | rfl
      all_goals exact h (by decide)
    · exact h ((UInt8.le_iff_toNat_le.mp hle).trans_lt (by decide))
    · exact h (by decide)
  rw [filterToken, if_neg hplain]
  exact (length_encodeChar_byte b).trans (if_neg h)

/-- The escaped name is longer by the bytes beyond ASCII. -/
theorem length_flatMap_filterToken (bs : List UInt8) :
    (bs.flatMap fun b => (filterToken b).bytes).length =
      bs.length + bs.countP fun b => ¬ b.toNat < 128 := by
  induction bs with
  | nil => rfl
  | cons b bs ih =>
    rw [List.flatMap_cons, List.length_append, ih, List.length_cons, List.countP_cons]
    by_cases h : b.toNat < 128
    · rw [bytes_filterToken h, List.length_singleton]
      simp only [h, not_true_eq_false, decide_false, Bool.false_eq_true, if_false]
      omega
    · rw [length_bytes_filterToken h]
      simp only [h, not_false_eq_true, decide_true, if_true]
      omega

/-- **The server decodes the name that was typed** when it is ASCII. -/
theorem decodeValue_escapeLdapFilter_iff {name : Str} :
    decodeValue (escapeLdapFilter name) = some (encode name) ↔ ∀ c ∈ name, c.toNat < 128 := by
  rw [decodeValue, tokens_escapeLdapFilter, Option.map_some, List.flatMap_map, Option.some_inj,
    ← ascii_iff]
  constructor
  · intro h b hb
    have hlength := length_flatMap_filterToken (encode name)
    rw [h] at hlength
    have hnone : (encode name).countP (fun b => ¬ b.toNat < 128) = 0 := by omega
    simpa using List.countP_eq_zero.mp hnone b hb
  · intro h
    rw [List.flatMap_congr fun b hb => bytes_filterToken (h b hb), List.flatMap_singleton']

/-! ## Whom a filter matches -/

/-- An object class that a filter may hold as it is. -/
def IsPlainClass (objectClass : Str) : Prop := ∀ c ∈ specials, c ∉ objectClass

/-- The names of the schema are names. -/
structure PosixAttributeMapping.Plain (m : PosixAttributeMapping) : Prop where
  userObjectClass : IsPlainClass m.userObjectClass
  groupObjectClass : IsPlainClass m.groupObjectClass
  userName : IsAttr m.userName
  userPrincipalName : IsAttr m.userPrincipalName
  groupName : IsAttr m.groupName

/-- The filter matches the entries of its class that have exactly its name. -/
def NameFilter.MatchesName (f : NameFilter) : Prop :=
  ∃ read, LdapFilter.read f.text = some read ∧ ∀ e : Entry, read.Matches e ↔
    encode f.objectClass ∈ e "objectClass".toList ∧ encode f.name ∈ e f.attr

/-- A plain class has no special characters. -/
theorem IsPlainClass.isEscaped {objectClass : Str} (h : IsPlainClass objectClass) :
    IsEscaped objectClass := by
  refine ⟨_, tokens_plain (h '\\' (by decide)), fun c hc hmem => ?_⟩
  obtain ⟨d, hd, hcd⟩ := List.mem_map.mp hmem
  exact h c hc (Token.plain.inj hcd ▸ hd)

/-- A plain class stands for itself. -/
theorem IsPlainClass.decodeValue_eq {objectClass : Str} (h : IsPlainClass objectClass) :
    decodeValue objectClass = some (encode objectClass) := by
  rw [decodeValue, tokens_plain (h '\\' (by decide)), Option.map_some, List.flatMap_map]
  rfl

/-- **A name filter matches the name** when the server reads the name back. -/
theorem NameFilter.matchesName {f : NameFilter} (hclass : IsPlainClass f.objectClass)
    (hattr : IsAttr f.attr) (hname : decodeValue (escapeLdapFilter f.name) = some (encode f.name)) :
    f.MatchesName := by
  have htext : f.text =
      conjText "objectClass".toList f.objectClass f.attr (escapeLdapFilter f.name) := rfl
  rw [NameFilter.MatchesName, htext]
  exact matches_read_conj (by decide +kernel) hattr hclass.isEscaped
    (isEscaped_escapeLdapFilter _) hclass.decodeValue_eq hname

/-- **The server reads the name that was typed**: its bytes, no special character among them, and every
filter matches exactly this name. -/
structure FilterFaithful (name : Str) : Prop where
  decodes : decodeValue (escapeLdapFilter name) = some (encode name)
  escaped : IsEscaped (escapeLdapFilter name)
  matchesName : ∀ m : PosixAttributeMapping, m.Plain → ∀ f ∈ nameFilters m name, f.MatchesName

/-- **Names that reach the server** are the ASCII ones. -/
theorem filterFaithful_iff {name : Str} : FilterFaithful name ↔ ∀ c ∈ name, c.toNat < 128 := by
  constructor
  · exact fun h => decodeValue_escapeLdapFilter_iff.mp h.decodes
  · intro hascii
    have hdecodes := decodeValue_escapeLdapFilter_iff.mpr hascii
    refine ⟨hdecodes, isEscaped_escapeLdapFilter name, fun m hm f hf => ?_⟩
    simp only [nameFilters, List.mem_cons, List.not_mem_nil, or_false] at hf
    rcases hf with rfl | rfl | rfl
    · exact NameFilter.matchesName hm.userObjectClass hm.userName hdecodes
    · exact NameFilter.matchesName hm.userObjectClass hm.userPrincipalName hdecodes
    · exact NameFilter.matchesName hm.groupObjectClass hm.groupName hdecodes

/-- The two bytes of `é` come out as four. -/
theorem not_filterFaithful_accent : ¬ FilterFaithful "andré".toList := fun h =>
  absurd h.decodes (by decide +kernel)

end NfsKlldap
