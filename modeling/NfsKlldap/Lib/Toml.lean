import NfsKlldap.Lib.Text

/-! # TOML documents with edits

A configuration file as its readers and writers see it: a map of top-level keys to values, sections
and arrays of tables, two levels deep. What lies deeper, and the kinds of value no reader looks into,
are kept apart as opaque values. Key order, comments and layout carry no meaning, so a table is a
finite map; they do show up in the text, which the editing library derives from the text the document
was parsed from.

A section written as an inline table reads like any other and cannot be edited: `setKey` and
`removeKey` leave it alone. `TomlEdit` is the library itself, with the one property its users rely
on: what it renders, it parses back. -/

namespace NfsKlldap

/-- There are countably many characters. -/
instance countableChar : Countable Char := Function.Injective.countable fun _ _ h => Char.toNat_inj.mp h

/-- There are countably many 64-bit integers. -/
instance countableInt64 : Countable Int64 := Function.Injective.countable fun _ _ h => Int64.toInt_inj.mp h

/-- There are countably many finite maps between countable types. -/
instance countableFinmap {α : Type*} {β : α → Type*} [Countable α] [∀ a, Countable (β a)] :
    Countable (Finmap β) :=
  Function.Injective.countable fun _ _ h => Finmap.ext h

/-- A value that is not a table. -/
inductive Leaf where
  | str (s : Str)
  | int (n : Int64)
  | bool (b : Bool)
  /-- An array of strings. -/
  | strs (ss : List Str)
  /-- The remaining values (floats, dates, other arrays, deeper tables), numbered. -/
  | other (id : Nat)
  deriving DecidableEq, Countable

namespace Leaf

/-- The value as a string. -/
def str? : Leaf → Option Str
  | str s => some s
  | _ => none

/-- The value as a boolean. -/
def bool? : Leaf → Option Bool
  | bool b => some b
  | _ => none

/-- The value as an array of strings. -/
def strs? : Leaf → Option (List Str)
  | strs ss => some ss
  | _ => none

/-- A number that is not negative and below `bound`. -/
def natBelow? (bound : Nat) : Leaf → Option Nat
  | int n => if 0 ≤ n.toInt ∧ n.toInt < bound then some n.toInt.toNat else none
  | _ => none

/-- The value as an unsigned 16-bit integer. -/
def u16? (v : Leaf) : Option UInt16 := (v.natBelow? (2 ^ 16)).map UInt16.ofNat

/-- The value as an unsigned 32-bit integer. -/
def u32? (v : Leaf) : Option UInt32 := (v.natBelow? (2 ^ 32)).map UInt32.ofNat

/-- The value as an unsigned 64-bit integer. -/
def u64? (v : Leaf) : Option UInt64 := (v.natBelow? (2 ^ 64)).map UInt64.ofNat

/-- The value as a signed 32-bit integer. -/
def i32? : Leaf → Option Int32
  | int n => if -2 ^ 31 ≤ n.toInt ∧ n.toInt < 2 ^ 31 then some (Int32.ofInt n.toInt) else none
  | _ => none

/-- The cast of a number to the type of TOML integers. -/
def ofU64 (n : UInt64) : Leaf := .int (Int64.ofNat n.toNat)

/-- An unsigned 16-bit integer as a value. -/
def ofU16 (n : UInt16) : Leaf := .int (Int64.ofNat n.toNat)

/-- A signed 32-bit integer as a value. -/
def ofI32 (n : Int32) : Leaf := .int n.toInt64

/-- An unsigned 16-bit integer is read back as written. -/
@[simp] theorem u16?_ofU16 (n : UInt16) : (ofU16 n).u16? = some n := by
  have hlt : n.toNat < 2 ^ 16 := n.toNat_lt
  have hint : (Int64.ofNat n.toNat).toInt = n.toNat := Int64.toInt_ofNat_of_lt (by omega)
  rw [u16?, ofU16, natBelow?, if_pos ⟨by omega, by omega⟩, hint]
  simp

/-- A signed 32-bit integer is read back as written. -/
@[simp] theorem i32?_ofI32 (n : Int32) : (ofI32 n).i32? = some n := by
  have hint : n.toInt64.toInt = n.toInt := Int32.toInt_toInt64 n
  have hle := n.le_toInt
  have hlt := n.toInt_lt
  rw [ofI32, i32?, if_pos ⟨by rw [hint]; exact hle, by rw [hint]; exact hlt⟩, hint]
  simp

/-- A number below `2 ^ 63` survives the cast; a larger one turns negative and is refused. -/
theorem u64?_ofU64 (n : UInt64) : (ofU64 n).u64? = if n.toNat < 2 ^ 63 then some n else none := by
  have hlt : n.toNat < 2 ^ 64 := n.toNat_lt
  rw [u64?, ofU64, natBelow?]
  by_cases h : n.toNat < 2 ^ 63
  · have hint : (Int64.ofNat n.toNat).toInt = n.toNat := Int64.toInt_ofNat_of_lt h
    rw [if_pos ⟨by omega, by omega⟩, if_pos h, hint]
    simp
  · have hint : (Int64.ofNat n.toNat).toInt = n.toNat - 2 ^ 64 := by
      rw [Int64.toInt_ofNat', Int.bmod_def]
      simp only [Int64.size]
      omega
    rw [if_neg (by omega), if_neg h]
    rfl

end Leaf

/-- The types a reader may ask for. -/
inductive LeafType where
  | str
  | bool
  | strs
  | u16
  | u32
  | u64
  | i32
  deriving DecidableEq, Repr

/-- The value is of the type. -/
def Leaf.hasType (v : Leaf) : LeafType → Bool
  | .str => v.str?.isSome
  | .bool => v.bool?.isSome
  | .strs => v.strs?.isSome
  | .u16 => v.u16?.isSome
  | .u32 => v.u32?.isSome
  | .u64 => v.u64?.isSome
  | .i32 => v.i32?.isSome

/-- A table of values. -/
abbrev Table := Finmap fun _ : Str => Leaf

namespace Table

/-- The string under a key. -/
def str? (t : Table) (key : Str) : Option Str := (t.lookup key).bind Leaf.str?

/-- The boolean under a key. -/
def bool? (t : Table) (key : Str) : Option Bool := (t.lookup key).bind Leaf.bool?

/-- The array of strings under a key. -/
def strs? (t : Table) (key : Str) : Option (List Str) := (t.lookup key).bind Leaf.strs?

/-- The unsigned 16-bit integer under a key. -/
def u16? (t : Table) (key : Str) : Option UInt16 := (t.lookup key).bind Leaf.u16?

/-- The unsigned 32-bit integer under a key. -/
def u32? (t : Table) (key : Str) : Option UInt32 := (t.lookup key).bind Leaf.u32?

/-- The unsigned 64-bit integer under a key. -/
def u64? (t : Table) (key : Str) : Option UInt64 := (t.lookup key).bind Leaf.u64?

/-- The signed 32-bit integer under a key. -/
def i32? (t : Table) (key : Str) : Option Int32 := (t.lookup key).bind Leaf.i32?

/-- Every key of the schema that is present has its type. Other keys are free. -/
def conforms (t : Table) (schema : List (Str × LeafType)) : Bool :=
  schema.all fun e => (t.lookup e.1).all fun v => v.hasType e.2

/-- A table conforms exactly when every value under a key of the schema has its type. -/
theorem conforms_iff {t : Table} {schema : List (Str × LeafType)} :
    t.conforms schema = true ↔
      ∀ e ∈ schema, ∀ v, t.lookup e.1 = some v → v.hasType e.2 = true := by
  simp [conforms, Option.all_eq_true]

/-- The empty table conforms to every schema. -/
@[simp] theorem conforms_empty (schema : List (Str × LeafType)) :
    (∅ : Table).conforms schema = true := by
  simp [conforms_iff]

/-- Writing values of the right type keeps a table in shape. -/
theorem conforms_insert {t : Table} {schema : List (Str × LeafType)} {key : Str} {v : Leaf}
    (h : t.conforms schema = true) (hv : ∀ ty, (key, ty) ∈ schema → v.hasType ty = true) :
    conforms (t.insert key v) schema = true := by
  rw [conforms_iff] at h ⊢
  intro e he w hw
  by_cases hkey : e.1 = key
  · rw [hkey, Finmap.lookup_insert] at hw
    cases hw
    exact hv e.2 (hkey ▸ he)
  · rw [Finmap.lookup_insert_of_ne _ hkey] at hw
    exact h e he w hw

/-- Erasing a key keeps a table conforming. -/
theorem conforms_erase {t : Table} {schema : List (Str × LeafType)} (key : Str)
    (h : t.conforms schema = true) : conforms (t.erase key) schema = true := by
  rw [conforms_iff] at h ⊢
  intro e he w hw
  by_cases hkey : e.1 = key
  · rw [hkey, Finmap.lookup_erase] at hw
    exact nomatch hw
  · rw [Finmap.lookup_erase_ne hkey] at hw
    exact h e he w hw

end Table

/-- How a table is written: under a header of its own, or inline as a value. -/
inductive TableStyle where
  | block
  | inline
  deriving DecidableEq, Countable

/-- A top-level entry. -/
inductive Item where
  | leaf (v : Leaf)
  | table (style : TableStyle) (t : Table)
  /-- An array of tables. -/
  | rows (style : TableStyle) (ts : List Table)
  deriving DecidableEq, Countable

/-- A document: its top-level entries. -/
abbrev Document := Finmap fun _ : Str => Item

namespace Item

/-- The table of a section, however it is written. -/
def entries? : Item → Option Table
  | table _ t => some t
  | _ => none

/-- The table of a section that can be edited. -/
def asTable : Item → Option Table
  | table .block t => some t
  | _ => none

/-- The tables of an array that is written under headers. -/
def asArrayOfTables : Item → Option (List Table)
  | rows .block ts => some ts
  | _ => none

/-- The value of a plain entry. -/
def leaf? : Item → Option Leaf
  | leaf v => some v
  | _ => none

/-- Only a block table can be edited as a table. -/
theorem eq_of_asTable {i : Item} {t : Table} (h : i.asTable = some t) :
    i = table .block t := by
  unfold asTable at h
  split at h
  · cases h
    rfl
  · exact nomatch h

end Item

namespace Document

/-- The value under `key` in `sec`, or at top level when `sec` is empty. -/
def get? (d : Document) (sec key : Str) : Option Leaf :=
  if sec = [] then (d.lookup key).bind Item.leaf?
  else ((d.lookup sec).bind Item.entries?).bind (Finmap.lookup key)

/-- The string under a section's key. -/
def str? (d : Document) (sec key : Str) : Option Str := (d.get? sec key).bind Leaf.str?

/-- The boolean under a section's key. -/
def bool? (d : Document) (sec key : Str) : Option Bool := (d.get? sec key).bind Leaf.bool?

/-- The array of strings under a section's key. -/
def strs? (d : Document) (sec key : Str) : Option (List Str) := (d.get? sec key).bind Leaf.strs?

/-- The unsigned 16-bit integer under a section's key. -/
def u16? (d : Document) (sec key : Str) : Option UInt16 := (d.get? sec key).bind Leaf.u16?

/-- The unsigned 32-bit integer under a section's key. -/
def u32? (d : Document) (sec key : Str) : Option UInt32 := (d.get? sec key).bind Leaf.u32?

/-- The unsigned 64-bit integer under a section's key. -/
def u64? (d : Document) (sec key : Str) : Option UInt64 := (d.get? sec key).bind Leaf.u64?

/-- The signed 32-bit integer under a section's key. -/
def i32? (d : Document) (sec key : Str) : Option Int32 := (d.get? sec key).bind Leaf.i32?

/-- The entries of the schema that are present are values of their type. -/
def rootConforms (d : Document) (schema : List (Str × LeafType)) : Bool :=
  schema.all fun e => (d.lookup e.1).all fun i => i.leaf?.any fun v => v.hasType e.2

/-- The section `sec` is missing or a table that conforms to the schema. -/
def sectionConforms (d : Document) (sec : Str) (schema : List (Str × LeafType)) : Bool :=
  (d.lookup sec).all fun i => i.entries?.any fun t => t.conforms schema

/-- Apply `f` to the section `sec`, which is created when it is missing. -/
def modifySection (d : Document) (sec : Str) (f : Table → Table) : Document :=
  match d.lookup sec with
  | none => d.insert sec (.table .block (f ∅))
  | some (.table .block t) => d.insert sec (.table .block (f t))
  | some _ => d

/-- Write `v` under `key`. -/
def setKey (d : Document) (sec key : Str) (v : Leaf) : Document :=
  if sec = [] then d.insert key (.leaf v) else d.modifySection sec fun t => t.insert key v

/-- Remove `key`. -/
def removeKey (d : Document) (sec key : Str) : Document :=
  if sec = [] then d.erase key
  else
    match (d.lookup sec).bind Item.asTable with
    | some t => d.insert sec (.table .block (t.erase key))
    | none => d

/-- An edit of `sec` takes effect: the section is missing or written under a header. -/
def Editable (d : Document) (sec : Str) : Prop :=
  sec = [] ∨ ∀ i, d.lookup sec = some i → (i.asTable).isSome

/-- Being editable is decidable. -/
instance (d : Document) (sec : Str) : Decidable (d.Editable sec) :=
  decidable_of_iff (sec = [] ∨ ((d.lookup sec).all fun i => i.asTable.isSome) = true) (by
    simp [Editable, Option.all_eq_true])

/-! ## What an edit changes -/

/-- Modifying a section keeps every other entry. -/
theorem lookup_modifySection_of_ne {d : Document} {sec x : Str} (f : Table → Table) (h : x ≠ sec) :
    (d.modifySection sec f).lookup x = d.lookup x := by
  unfold modifySection
  split
  · rw [Finmap.lookup_insert_of_ne _ h]
  · rw [Finmap.lookup_insert_of_ne _ h]
  · rfl

/-- An edit of a section leaves a table written under a header there. -/
theorem lookup_modifySection {d : Document} {sec : Str} (f : Table → Table) (hsec : sec ≠ [])
    (h : d.Editable sec) :
    (d.modifySection sec f).lookup sec =
      some (.table .block (f (((d.lookup sec).bind Item.asTable).getD ∅))) := by
  unfold modifySection
  split
  · rename_i hnone
    rw [Finmap.lookup_insert, hnone]
    rfl
  · rename_i t ht
    rw [Finmap.lookup_insert, ht]
    rfl
  · rename_i i hne hi
    obtain ⟨t, ht⟩ := Option.isSome_iff_exists.mp ((h.resolve_left hsec) i hi)
    cases Item.eq_of_asTable ht
    exact absurd rfl (hne t)

/-- A section that cannot be edited is not modified. -/
theorem modifySection_of_not_editable {d : Document} {sec : Str} (f : Table → Table)
    (h : ¬ d.Editable sec) : d.modifySection sec f = d := by
  unfold Editable at h
  push Not at h
  obtain ⟨hsec, i, hi, hne⟩ := h
  unfold modifySection
  rw [hi]
  split
  · rename_i hnone
    exact nomatch hnone
  · rename_i t ht
    cases ht
    simp [Item.asTable] at hne
  · rfl

/-- The top-level entry that holds `key` of `sec`. -/
def entryOf (sec key : Str) : Str := if sec = [] then key else sec

/-- Setting a key keeps every entry but the one it stands in. -/
theorem lookup_setKey_of_ne {d : Document} {sec key x : Str} (v : Leaf) (h : x ≠ entryOf sec key) :
    (d.setKey sec key v).lookup x = d.lookup x := by
  unfold entryOf at h
  unfold setKey
  split at h
  · rename_i hsec
    rw [if_pos hsec, Finmap.lookup_insert_of_ne _ h]
  · rename_i hsec
    rw [if_neg hsec, lookup_modifySection_of_ne _ h]

/-- Removing a key keeps every entry but the one it stands in. -/
theorem lookup_removeKey_of_ne {d : Document} {sec key x : Str} (h : x ≠ entryOf sec key) :
    (d.removeKey sec key).lookup x = d.lookup x := by
  unfold entryOf at h
  unfold removeKey
  split at h
  · rename_i hsec
    rw [if_pos hsec, Finmap.lookup_erase_ne h]
  · rename_i hsec
    rw [if_neg hsec]
    split
    · rw [Finmap.lookup_insert_of_ne _ h]
    · rfl

/-- A key's value depends on the entry it stands in only. -/
theorem get?_eq_of_lookup_eq {d d' : Document} {sec key : Str}
    (h : d'.lookup (entryOf sec key) = d.lookup (entryOf sec key)) :
    d'.get? sec key = d.get? sec key := by
  by_cases hsec : sec = []
  · rw [entryOf, if_pos hsec] at h
    rw [get?, get?, if_pos hsec, if_pos hsec, h]
  · rw [entryOf, if_neg hsec] at h
    rw [get?, get?, if_neg hsec, if_neg hsec, h]

/-- Two addresses that do not overlap: they lie in different top-level entries, or under different
keys of one section. -/
def Apart (sec key sec' key' : Str) : Prop :=
  entryOf sec key ≠ entryOf sec' key' ∨ (sec = sec' ∧ sec ≠ [] ∧ key ≠ key')

/-- Standing apart is decidable. -/
instance (sec key sec' key' : Str) : Decidable (Apart sec key sec' key') :=
  inferInstanceAs (Decidable (_ ∨ _))

/-- The section of an address, read after an edit of one of its keys. -/
theorem get?_modifySection {d : Document} {sec : Str} (key : Str) (f : Table → Table)
    (hsec : sec ≠ []) (h : d.Editable sec) :
    (d.modifySection sec f).get? sec key =
      (f (((d.lookup sec).bind Item.asTable).getD ∅)).lookup key := by
  rw [get?, if_neg hsec, lookup_modifySection f hsec h]
  rfl

/-- An editable section answers a key from its table. -/
theorem lookup_editable_section {d : Document} {sec : Str} (key : Str) (hsec : sec ≠ [])
    (h : d.Editable sec) :
    (((d.lookup sec).bind Item.asTable).getD ∅).lookup key = d.get? sec key := by
  rw [get?, if_neg hsec]
  cases hl : d.lookup sec with
  | none => rfl
  | some i =>
    obtain ⟨t, ht⟩ := Option.isSome_iff_exists.mp ((h.resolve_left hsec) i hl)
    cases Item.eq_of_asTable ht
    rfl

/-- What is written can be read. -/
theorem get?_setKey {d : Document} {sec : Str} (h : d.Editable sec) (key : Str) (v : Leaf) :
    (d.setKey sec key v).get? sec key = some v := by
  by_cases hsec : sec = []
  · rw [setKey, if_pos hsec, get?, if_pos hsec, Finmap.lookup_insert]
    rfl
  · rw [setKey, if_neg hsec, get?_modifySection key _ hsec h, Finmap.lookup_insert]

/-- Setting a key of a section that cannot be edited does nothing. -/
theorem setKey_of_not_editable {d : Document} {sec : Str} (h : ¬ d.Editable sec) (key : Str)
    (v : Leaf) : d.setKey sec key v = d := by
  rw [setKey, if_neg fun hsec => h (Or.inl hsec), modifySection_of_not_editable _ h]

/-- A write changes nothing else. -/
theorem get?_setKey_of_apart {d : Document} {sec key sec' key' : Str}
    (h : Apart sec' key' sec key) (v : Leaf) :
    (d.setKey sec key v).get? sec' key' = d.get? sec' key' := by
  rcases h with hentry | ⟨rfl, hsec, hkey⟩
  · exact get?_eq_of_lookup_eq (lookup_setKey_of_ne v hentry)
  · by_cases hed : d.Editable sec'
    · rw [setKey, if_neg hsec, get?_modifySection key' _ hsec hed,
        Finmap.lookup_insert_of_ne _ hkey, lookup_editable_section key' hsec hed]
    · rw [setKey_of_not_editable hed]

/-- What is removed is gone. -/
theorem get?_removeKey {d : Document} {sec : Str} (h : d.Editable sec) (key : Str) :
    (d.removeKey sec key).get? sec key = none := by
  by_cases hsec : sec = []
  · rw [removeKey, if_pos hsec, get?, if_pos hsec, Finmap.lookup_erase]
    rfl
  · rw [removeKey, if_neg hsec, get?, if_neg hsec]
    cases hl : d.lookup sec with
    | none => rw [Option.bind_none, hl]; rfl
    | some i =>
      obtain ⟨t, ht⟩ := Option.isSome_iff_exists.mp ((h.resolve_left hsec) i hl)
      cases Item.eq_of_asTable ht
      rw [Option.bind_some, Item.asTable, Finmap.lookup_insert, Option.bind_some, Item.entries?,
        Option.bind_some, Finmap.lookup_erase]

/-- Removing a key of a section that cannot be edited does nothing. -/
theorem removeKey_of_not_editable {d : Document} {sec : Str} (h : ¬ d.Editable sec) (key : Str) :
    d.removeKey sec key = d := by
  unfold Editable at h
  push Not at h
  obtain ⟨hsec, i, hi, hne⟩ := h
  rw [removeKey, if_neg hsec, hi, Option.bind_some, Option.not_isSome_iff_eq_none.mp hne]

/-- A removal changes nothing else. -/
theorem get?_removeKey_of_apart {d : Document} {sec key sec' key' : Str}
    (h : Apart sec' key' sec key) : (d.removeKey sec key).get? sec' key' = d.get? sec' key' := by
  rcases h with hentry | ⟨rfl, hsec, hkey⟩
  · exact get?_eq_of_lookup_eq (lookup_removeKey_of_ne hentry)
  · rw [removeKey, if_neg hsec]
    cases ht : (d.lookup sec').bind Item.asTable with
    | none => rfl
    | some t =>
      obtain ⟨i, hi, hit⟩ := Option.bind_eq_some_iff.mp ht
      cases Item.eq_of_asTable hit
      rw [get?, get?, if_neg hsec, if_neg hsec, hi, Finmap.lookup_insert, Option.bind_some,
        Option.bind_some, Item.entries?, Item.entries?, Option.bind_some, Option.bind_some,
        Finmap.lookup_erase_ne hkey]

/-! ## Editable sections stay editable -/

/-- Whether a section can be edited depends on its entry only. -/
theorem editable_congr {d d' : Document} {sec : Str} (h : d'.lookup sec = d.lookup sec) :
    d'.Editable sec ↔ d.Editable sec := by
  rw [Editable, Editable, h]

/-- A section that is a block table can be edited. -/
theorem editable_of_lookup {d : Document} {sec : Str} {t : Table}
    (h : d.lookup sec = some (.table .block t)) : d.Editable sec := by
  refine Or.inr fun i hi => ?_
  cases h.symm.trans hi
  rfl

/-- Setting a key keeps the sections editable that were. -/
theorem editable_setKey {d : Document} {sec key sec' : Str} (v : Leaf) (h : sec = [] → sec' ≠ key) :
    (d.setKey sec key v).Editable sec' ↔ d.Editable sec' := by
  by_cases hentry : sec' = entryOf sec key
  · by_cases hsec : sec = []
    · rw [entryOf, if_pos hsec] at hentry
      exact absurd hentry (h hsec)
    · rw [entryOf, if_neg hsec] at hentry
      subst hentry
      by_cases hed : d.Editable sec'
      · rw [setKey, if_neg hsec]
        exact iff_of_true (editable_of_lookup (lookup_modifySection _ hsec hed)) hed
      · rw [setKey_of_not_editable hed]
  · exact editable_congr (lookup_setKey_of_ne v hentry)

/-- Removing a key keeps the sections editable that were. -/
theorem editable_removeKey {d : Document} {sec key sec' : Str} (h : sec = [] → sec' ≠ key) :
    (d.removeKey sec key).Editable sec' ↔ d.Editable sec' := by
  by_cases hentry : sec' = entryOf sec key
  · by_cases hsec : sec = []
    · rw [entryOf, if_pos hsec] at hentry
      exact absurd hentry (h hsec)
    · rw [entryOf, if_neg hsec] at hentry
      subst hentry
      rw [removeKey, if_neg hsec]
      cases ht : (d.lookup sec').bind Item.asTable with
      | none => rfl
      | some t =>
        obtain ⟨i, hi, hit⟩ := Option.bind_eq_some_iff.mp ht
        cases Item.eq_of_asTable hit
        exact iff_of_true (editable_of_lookup (Finmap.lookup_insert _)) (editable_of_lookup hi)
  · exact editable_congr (lookup_removeKey_of_ne hentry)

/-! ## Edits of the right type keep a document in shape -/

/-- Whether a section conforms depends on its entry only. -/
theorem sectionConforms_congr {d d' : Document} {sec : Str} (h : d'.lookup sec = d.lookup sec)
    (schema : List (Str × LeafType)) :
    d'.sectionConforms sec schema = d.sectionConforms sec schema := by
  rw [sectionConforms, sectionConforms, h]

/-- Whether the root conforms depends on the entries of the schema only. -/
theorem rootConforms_congr {d d' : Document} {schema : List (Str × LeafType)}
    (h : ∀ e ∈ schema, d'.lookup e.1 = d.lookup e.1) :
    d'.rootConforms schema = d.rootConforms schema := by
  rw [rootConforms, rootConforms, Bool.eq_iff_iff, List.all_eq_true, List.all_eq_true]
  exact forall₂_congr fun e he => by rw [h e he]

/-- A conforming modification keeps a section conforming. -/
theorem sectionConforms_modifySection {d : Document} {sec : Str} {schema : List (Str × LeafType)}
    {f : Table → Table} (hsec : sec ≠ []) (h : d.sectionConforms sec schema = true)
    (hf : ∀ t : Table, t.conforms schema = true → (f t).conforms schema = true) :
    (d.modifySection sec f).sectionConforms sec schema = true := by
  by_cases hed : d.Editable sec
  · rw [sectionConforms, lookup_modifySection f hsec hed]
    refine hf _ ?_
    cases hl : d.lookup sec with
    | none => exact Table.conforms_empty schema
    | some i =>
      obtain ⟨t, ht⟩ := Option.isSome_iff_exists.mp ((hed.resolve_left hsec) i hl)
      cases Item.eq_of_asTable ht
      rw [sectionConforms, hl] at h
      exact h
  · rw [modifySection_of_not_editable f hed]
    exact h

end Document

/-! ## The editing library -/

/-- A comment-preserving TOML library. The text of a document that was parsed from `base` and then
edited keeps the comments and the layout of `base`. -/
structure TomlEdit where
  parse : Str → Option Document
  /-- The text of an edited document, from the text it was parsed from. -/
  render : Str → Document → Str
  parse_nil : parse [] = some ∅
  /-- What is rendered is parsed back. -/
  parse_render : ∀ base d, parse (render base d) = some d

attribute [simp] TomlEdit.parse_nil TomlEdit.parse_render

namespace TomlEdit

/-- Some way to write a document down. -/
noncomputable def encode (d : Document) : Str :=
  List.replicate ((exists_injective_nat Document).choose d) 'x'

/-- Different documents are encoded differently. -/
theorem encode_injective : Function.Injective encode := by
  intro d d' h
  have hlen := congrArg List.length h
  simp only [encode, List.length_replicate] at hlen
  exact (exists_injective_nat Document).choose_spec hlen

/-- A text that is listed once is found. -/
theorem find?_text {texts : List (Str × Document)} (hnodup : (texts.map Prod.fst).Nodup)
    {e : Str × Document} (he : e ∈ texts) : (texts.find? fun e' => e'.1 = e.1) = some e := by
  cases hf : texts.find? fun e' => e'.1 = e.1 with
  | none => simpa using List.find?_eq_none.mp hf e he
  | some e' =>
    have hkey : e'.1 = e.1 := by simpa using List.find?_some hf
    rw [List.inj_on_of_nodup_map hnodup (List.mem_of_find?_eq_some hf) he hkey]

/-- A library that reads and writes the texts of a list; any other document gets a text that starts
with a null character. -/
noncomputable def ofTexts (texts : List (Str × Document)) (hnodup : (texts.map Prod.fst).Nodup)
    (hplain : ∀ e ∈ texts, e.1 ≠ [] ∧ e.1.head? ≠ some '\x00') : TomlEdit where
  parse s :=
    if s = [] then some ∅
    else
      match texts.find? fun e => e.1 = s with
      | some e => some e.2
      | none => if s.head? = some '\x00' then Function.partialInv encode s.tail else none
  render _ d :=
    match texts.find? fun e => e.2 = d with
    | some e => e.1
    | none => '\x00' :: encode d
  parse_nil := by simp
  parse_render := by
    intro base d
    cases hd : texts.find? fun e => e.2 = d with
    | some e =>
      have hmem := List.mem_of_find?_eq_some hd
      have heq : e.2 = d := by simpa using List.find?_some hd
      simp [find?_text hnodup hmem, (hplain e hmem).1, heq]
    | none =>
      have hfind : texts.find? (fun e => e.1 = '\x00' :: encode d) = none := by
        refine List.find?_eq_none.mpr fun e he hkey => (hplain e he).2 ?_
        simp [of_decide_eq_true hkey]
      simp [hfind, Function.partialInv_left encode_injective]

section ofTexts

variable {texts : List (Str × Document)} {hnodup : (texts.map Prod.fst).Nodup}
  {hplain : ∀ e ∈ texts, e.1 ≠ [] ∧ e.1.head? ≠ some '\x00'}

/-- The document of a listed text. -/
theorem parse_ofTexts {s : Str} {d : Document} (h : (s, d) ∈ texts) :
    (ofTexts texts hnodup hplain).parse s = some d := by
  have hfind : texts.find? (fun e => e.1 = s) = some (s, d) := find?_text hnodup h
  show (if s = [] then _ else _) = _
  rw [if_neg (hplain _ h).1, hfind]

/-- A plain text that is not listed is no document. -/
theorem parse_ofTexts_eq_none {s : Str} (hne : s ≠ []) (hhead : s.head? ≠ some '\x00')
    (h : ∀ e ∈ texts, e.1 ≠ s) : (ofTexts texts hnodup hplain).parse s = none := by
  have hfind : texts.find? (fun e => e.1 = s) = none :=
    List.find?_eq_none.mpr fun e he => by simpa using h e he
  show (if s = [] then _ else _) = _
  rw [if_neg hne, hfind]
  exact if_neg hhead

/-- The text of a listed document. -/
theorem render_ofTexts {s : Str} {d : Document} (h : (s, d) ∈ texts)
    (hinj : (texts.map Prod.snd).Nodup) (base : Str) :
    (ofTexts texts hnodup hplain).render base d = s := by
  have hfind : texts.find? (fun e => e.2 = d) = some (s, d) := by
    cases hf : texts.find? (fun e => e.2 = d) with
    | none => simpa using List.find?_eq_none.mp hf (s, d) h
    | some e =>
      have hdoc : e.2 = d := by simpa using List.find?_some hf
      rw [List.inj_on_of_nodup_map hinj (List.mem_of_find?_eq_some hf) h hdoc]
  show (match texts.find? (fun e => e.2 = d) with | some e => _ | none => _) = _
  rw [hfind]

end ofTexts

end TomlEdit

end NfsKlldap
