import NfsKlldap.Config.Revalidate
import NfsKlldap.Settings.Cards

/-! # What a saved share reads back as

`apply_shares_to_toml_doc` leaves defaults out of the table of a share, so a share that is written
and loaded again is not the share that was written: `Share.stored` is. The array of shares is all
that changes in the document, and **`load_saved`** says what the next load finds. -/

namespace NfsKlldap

open Text

/-! ## The table of a share -/

/-- The keys of the table, with their types and the values they are written with. -/
def shareEntries (s : Share) : List (String × LeafType × Option Leaf) :=
  [ ("name", .str, some (.str s.name)),
    ("host_path", .str, some (.str s.hostPath)),
    ("container_path", .str, some (.str s.containerPath)),
    ("pseudo_path", .str, s.pseudoPath.map .str),
    ("security", .str, s.security.map .str),
    ("rw", .bool, if s.rw.getD true then none else some (.bool false)),
    ("squash", .str, s.squash.map .str),
    ("cache_profile", .str, (nonblank s.cacheProfile).map .str),
    ("pref_read", .u64, if s.cacheProfile.isSome then none else s.prefRead.map Leaf.ofU64),
    ("pref_write", .u64, if s.cacheProfile.isSome then none else s.prefWrite.map Leaf.ofU64),
    ("enable_acl", .bool, s.enableAcl.map .bool),
    ("manage_gids", .bool, s.manageGids.map .bool),
    ("read_access_policy", .str, (nonblank s.readAccessPolicy).map .str),
    ("manage_gids_expiration", .u64, s.manageGidsExpiration.map Leaf.ofU64),
    ("attr_expiration_secs", .i32, s.attrExpirationSecs.map Leaf.ofI32),
    ("navahi_insecure", .bool, if s.navahiInsecure = some true then some (.bool true) else none),
    ("source_path", .str, (nonblank s.sourcePath).map .str) ]

/-- The keys and types alone. -/
def shareKeys : List (String × LeafType) :=
  (shareEntries { name := [], hostPath := [], containerPath := [] }).map fun e => (e.1, e.2.1)

/-- The keys of the entries, with their types, are those of every share. -/
theorem map_shareEntries (s : Share) :
    ((shareEntries s).map fun e => (e.1, e.2.1)) = shareKeys := rfl

/-- A share's table is its entries, inserted one after the other. -/
theorem shareTable_eq (s : Share) :
    shareTable s = (shareEntries s).foldl (fun t e => insertSome t e.1 e.2.2) ∅ := rfl

section Entries

variable {entries : List (String × LeafType × Option Leaf)} {t : Table}

/-- An insertion leaves the other keys. -/
theorem lookup_insertSome_of_ne {key : String} {k : Str} (v : Option Leaf) (h : k ≠ key.toList) :
    (insertSome t key v).lookup k = t.lookup k := by
  cases v with
  | none => rfl
  | some v => exact Finmap.lookup_insert_of_ne _ h

/-- Insertions leave a key that is none of theirs. -/
theorem lookup_foldl_of_ne {k : Str} (h : ∀ e ∈ entries, k ≠ e.1.toList) :
    (entries.foldl (fun t e => insertSome t e.1 e.2.2) t).lookup k = t.lookup k := by
  induction entries generalizing t with
  | nil => rfl
  | cons e entries ih =>
    rw [List.forall_mem_cons] at h
    rw [List.foldl_cons, ih h.2, lookup_insertSome_of_ne _ h.1]

/-- Under distinct keys every value can be read. -/
theorem lookup_foldl_of_mem (hnodup : (entries.map fun e => e.1.toList).Nodup)
    (ht : ∀ e ∈ entries, t.lookup e.1.toList = none) {e : String × LeafType × Option Leaf}
    (he : e ∈ entries) :
    (entries.foldl (fun t e => insertSome t e.1 e.2.2) t).lookup e.1.toList = e.2.2 := by
  induction entries generalizing t with
  | nil => exact nomatch he
  | cons e' entries ih =>
    rw [List.map_cons, List.nodup_cons] at hnodup
    rw [List.forall_mem_cons] at ht
    have hne : ∀ e ∈ entries, e.1.toList ≠ e'.1.toList := fun e he heq =>
      hnodup.1 (heq ▸ List.mem_map_of_mem he)
    rw [List.foldl_cons]
    rcases List.mem_cons.mp he with rfl | he
    · rw [lookup_foldl_of_ne fun e he => Ne.symm (hne e he)]
      cases hv : e.2.2 with
      | none => exact ht.1
      | some v => exact Finmap.lookup_insert _
    · refine ih hnodup.2 (fun e he => ?_) he
      rw [lookup_insertSome_of_ne _ (hne e he)]
      exact ht.2 e he

/-- Insertions of values of their types keep a table conforming. -/
theorem conforms_foldl {schema : List (Str × LeafType)} (ht : t.conforms schema = true)
    (h : ∀ e ∈ entries, ∀ v ∈ e.2.2, ∀ ty, (e.1.toList, ty) ∈ schema → v.hasType ty = true) :
    (entries.foldl (fun t e => insertSome t e.1 e.2.2) t).conforms schema = true := by
  induction entries generalizing t with
  | nil => exact ht
  | cons e entries ih =>
    rw [List.forall_mem_cons] at h
    rw [List.foldl_cons]
    refine ih ?_ h.2
    cases hv : e.2.2 with
    | none => exact ht
    | some v => exact Table.conforms_insert ht (h.1 v hv)

end Entries

/-- **A share's table holds each entry under its key.** -/
theorem lookup_shareTable {s : Share} {e : String × LeafType × Option Leaf}
    (he : e ∈ shareEntries s) : (shareTable s).lookup e.1.toList = e.2.2 := by
  have hnodup : ((shareEntries s).map fun e => e.1.toList).Nodup := by
    have hmap : ((shareEntries s).map fun e => e.1.toList) = shareKeys.map fun e => e.1.toList :=
      rfl
    rw [hmap]
    decide +kernel
  rw [shareTable_eq]
  exact lookup_foldl_of_mem hnodup (fun _ _ => Finmap.lookup_empty _) he

/-- It holds nothing under any other key. -/
theorem lookup_shareTable_none (s : Share) {k : Str} (h : ∀ e ∈ shareKeys, k ≠ e.1.toList) :
    (shareTable s).lookup k = none := by
  rw [shareTable_eq, lookup_foldl_of_ne fun e he => ?_, Finmap.lookup_empty]
  exact h (e.1, e.2.1) (map_shareEntries s ▸ List.mem_map_of_mem he)

/-! ## Reading it back -/

/-- The share a written share reads back as. -/
def Share.stored (s : Share) : Share :=
  { s with
    rw := if s.rw.getD true then none else some false
    cacheProfile := nonblank s.cacheProfile
    prefRead := if s.cacheProfile.isSome then none else s.prefRead
    prefWrite := if s.cacheProfile.isSome then none else s.prefWrite
    readAccessPolicy := nonblank s.readAccessPolicy
    navahiInsecure := if s.navahiInsecure = some true then some true else none
    sourcePath := nonblank s.sourcePath
    umask := none }

/-- Every number survives the cast to a signed one. -/
structure Share.Storable (s : Share) : Prop where
  manageGidsExpiration : ∀ n ∈ s.manageGidsExpiration, n.toNat < 2 ^ 63
  prefRead : ∀ n ∈ s.prefRead, n.toNat < 2 ^ 63
  prefWrite : ∀ n ∈ s.prefWrite, n.toNat < 2 ^ 63

/-- A 64-bit number that fits a signed one is read back as written. -/
theorem bind_u64_map_ofU64 {o : Option UInt64} (h : ∀ n ∈ o, n.toNat < 2 ^ 63) :
    (o.map Leaf.ofU64).bind Leaf.u64? = o := by
  cases o with
  | none => rfl
  | some n => rw [Option.map_some, Option.bind_some, Leaf.u64?_ofU64, if_pos (h n rfl)]

/-- A signed 32-bit number is read back as written. -/
theorem bind_i32_map_ofI32 (o : Option Int32) : (o.map Leaf.ofI32).bind Leaf.i32? = o := by
  cases o <;> simp

/-- A text is read back as written. -/
theorem bind_str_map (o : Option Str) : (o.map Leaf.str).bind Leaf.str? = o := by
  cases o <;> rfl

/-- A boolean is read back as written. -/
theorem bind_bool_map (o : Option Bool) : (o.map Leaf.bool).bind Leaf.bool? = o := by
  cases o <;> rfl

/-- The values of the table are of their types. -/
theorem hasType_shareEntries {s : Share} (h : s.Storable) :
    ∀ e ∈ shareEntries s, ∀ v ∈ e.2.2, v.hasType e.2.1 = true := by
  have hstr : ∀ o : Option Str, ∀ v ∈ o.map Leaf.str, v.hasType .str = true := by
    rintro (_ | x) v ⟨⟩; rfl
  have hbool : ∀ o : Option Bool, ∀ v ∈ o.map Leaf.bool, v.hasType .bool = true := by
    rintro (_ | x) v ⟨⟩; rfl
  have hi32 : ∀ o : Option Int32, ∀ v ∈ o.map Leaf.ofI32, v.hasType .i32 = true := by
    rintro (_ | x) v ⟨⟩
    simp [Leaf.hasType]
  have hu64 : ∀ o : Option UInt64, (∀ n ∈ o, n.toNat < 2 ^ 63) →
      ∀ v ∈ o.map Leaf.ofU64, v.hasType .u64 = true := by
    rintro (_ | x) hx v ⟨⟩
    rw [Leaf.hasType, Leaf.u64?_ofU64, if_pos (hx x rfl)]
    rfl
  have hite : ∀ (p : Prop) [Decidable p] (o : Option Leaf) (ty : LeafType),
      (∀ v ∈ o, v.hasType ty = true) → ∀ v ∈ (if p then none else o), v.hasType ty = true := by
    intro p _ o ty ho v hv
    split at hv
    · exact nomatch hv
    · exact ho v hv
  simp only [shareEntries, List.forall_mem_cons, List.not_mem_nil, false_imp_iff, implies_true,
    and_true]
  refine ⟨hstr (some _), hstr (some _), hstr (some _), hstr _, hstr _, hite _ _ _ (hbool (some _)),
    hstr _, hstr _, hite _ _ _ (hu64 _ h.prefRead), hite _ _ _ (hu64 _ h.prefWrite), hbool _, hbool _,
    hstr _, hu64 _ h.manageGidsExpiration, hi32 _, ?_, hstr _⟩
  intro v hv
  split at hv
  · cases hv; rfl
  · exact nomatch hv

/-- The table of a storable share conforms to the schema. -/
theorem conforms_shareTable {s : Share} (h : s.Storable) :
    (shareTable s).conforms shareSchema = true := by
  have hschema : ∀ e ∈ shareKeys, ∀ e' ∈ shareSchema, e'.1 = e.1.toList → e'.2 = e.2 := by
    decide +kernel
  rw [shareTable_eq]
  refine conforms_foldl (Table.conforms_empty _) fun e he v hv ty hty => ?_
  have hkey : (e.1, e.2.1) ∈ shareKeys := map_shareEntries s ▸ List.mem_map_of_mem he
  have hty' : ty = e.2.1 := hschema _ hkey _ hty rfl
  rw [hty']
  exact hasType_shareEntries h e he v hv

/-- **A saved share** is read back in its stored form. -/
theorem decodeShare_shareTable {s : Share} (h : s.Storable) :
    decodeShare (shareTable s) = some s.stored := by
  -- every key of the table is read where it was written
  have hget : ∀ (n : Nat) {e : String × LeafType × Option Leaf}, (shareEntries s)[n]? = some e →
      (shareTable s).lookup e.1.toList = e.2.2 :=
    fun n e he => lookup_shareTable (List.mem_of_getElem? he)
  have hname := hget 0 rfl
  have hhost := hget 1 rfl
  have hcontainer := hget 2 rfl
  have hpseudo := hget 3 rfl
  have hsecurity := hget 4 rfl
  have hrw := hget 5 rfl
  have hsquash := hget 6 rfl
  have hprofile := hget 7 rfl
  have hread := hget 8 rfl
  have hwrite := hget 9 rfl
  have hacl := hget 10 rfl
  have hgids := hget 11 rfl
  have hpolicy := hget 12 rfl
  have hexp := hget 13 rfl
  have hattr := hget 14 rfl
  have hnavahi := hget 15 rfl
  have hsource := hget 16 rfl
  -- the two old spellings are never written
  have hexport : (shareTable s).lookup "export_path".toList = none :=
    lookup_shareTable_none s (by decide +kernel)
  have humask : (shareTable s).lookup "umask".toList = none :=
    lookup_shareTable_none s (by decide +kernel)
  rw [decodeShare, conforms_shareTable h, hname, hhost, hcontainer, hexport]
  simp only [Option.isSome_some, Option.isSome_none, Bool.and_false, Bool.and_true, Bool.not_false,
    if_true, Table.str?, Table.bool?, Table.u64?, Table.i32?, hname, hhost, hcontainer, hpseudo,
    hsecurity, hrw, hsquash, hprofile, hread, hwrite, hacl, hgids, hpolicy, hexp, hattr, hnavahi,
    hsource, hexport, humask, bind_str_map, bind_bool_map, bind_i32_map_ofI32,
    bind_u64_map_ofU64 h.manageGidsExpiration]
  -- the sizes are left out where a profile says them
  have hprefs : ∀ o : Option UInt64, (∀ n ∈ o, n.toNat < 2 ^ 63) →
      (if s.cacheProfile.isSome = true then none else o.map Leaf.ofU64).bind Leaf.u64? =
        if s.cacheProfile.isSome = true then none else o := by
    intro o ho
    split
    · rfl
    · exact bind_u64_map_ofU64 ho
  rw [hprefs _ h.prefRead, hprefs _ h.prefWrite]
  simp only [Share.stored, Option.some.injEq, Share.mk.injEq, true_and]
  refine ⟨rfl, rfl, Option.or_none, ?_, rfl, ?_, rfl⟩
  · split <;> rfl
  · split <;> rfl

/-! ## The document after a save -/

/-- Writing the shares leaves every other entry. -/
theorem lookup_applyShares {d : Document} (shares : List Share) {x : Str} (hx : x ≠ "shares".toList) :
    (applySharesToTomlDoc d shares).lookup x = d.lookup x := by
  unfold applySharesToTomlDoc
  dsimp only
  split
  · exact Finmap.lookup_erase_ne hx
  · rw [Finmap.lookup_insert_of_ne _ hx, Finmap.lookup_erase_ne hx]

/-- **Storable shares are read back as they are stored.** -/
theorem decodeShares_applyShares (d : Document) {shares : List Share}
    (h : ∀ s ∈ shares, s.Storable) :
    decodeShares (applySharesToTomlDoc d shares) = some (shares.map Share.stored) := by
  unfold applySharesToTomlDoc decodeShares
  dsimp only
  cases shares with
  | nil => rw [List.isEmpty_nil, if_pos rfl, Finmap.lookup_erase, List.map_nil]
  | cons s shares =>
    rw [List.isEmpty_cons, if_neg Bool.false_ne_true, Finmap.lookup_insert]
    generalize s :: shares = all at h
    induction all with
    | nil => rfl
    | cons s all ih =>
      rw [List.forall_mem_cons] at h
      have ih := ih h.2
      simp only at ih ⊢
      rw [List.map_cons, List.mapM_cons, decodeShare_shareTable h.1, ih]
      rfl

/-- The entries a config is read from, the shares apart. -/
def scalarEntries : List Str :=
  rootSchema.map Prod.fst ++ configSchema.map Prod.fst

/-- Documents that agree on the scalar entries are read alike, up to the shares. -/
theorem decodeConfig_congr {d d' : Document} {raw : NfsKlldapConfig} {shares : List Share}
    (h : ∀ x ∈ scalarEntries, d'.lookup x = d.lookup x) (hraw : decodeConfig d = some raw)
    (hshares : decodeShares d' = some shares) :
    decodeConfig d' = some { raw with shares := shares } := by
  have hget : ∀ (sec key : Str), Document.entryOf sec key ∈ scalarEntries →
      d'.get? sec key = d.get? sec key :=
    fun sec key hmem => Document.get?_eq_of_lookup_eq (h _ hmem)
  -- a section is compared key by key
  have hsec : ∀ x ∈ configSchema.map Prod.fst, ∀ key, d'.get? x key = d.get? x key := by
    intro x hx key
    have hne : x ≠ [] := fun h0 => absurd (h0 ▸ hx) (by decide)
    refine hget x key ?_
    rw [Document.entryOf, if_neg hne]
    exact List.mem_append_right _ hx
  -- typing looks at the scalar entries too, the shares apart
  have htyped : d'.wellTyped = d.wellTyped := by
    unfold Document.wellTyped
    congr 1
    · exact Document.rootConforms_congr fun e he =>
        h e.1 (List.mem_append_left _ (List.mem_map_of_mem he))
    · rw [Bool.eq_iff_iff, List.all_eq_true, List.all_eq_true]
      refine forall₂_congr fun e he => ?_
      rw [Document.sectionConforms_congr (h e.1 (List.mem_append_right _ (List.mem_map_of_mem he)))]
  unfold decodeConfig at hraw ⊢
  rw [htyped]
  split at hraw
  · next htrue =>
    rw [if_pos htrue, hshares]
    obtain ⟨old, -, rfl⟩ := Option.map_eq_some_iff.mp hraw
    have hroot : ∀ key, key ∈ rootSchema.map Prod.fst → d'.get? [] key = d.get? [] key :=
      fun key hkey => hget [] key (List.mem_append_left _ hkey)
    have hstorage := h "storage".toList (by decide)
    have hganesha := h "ganesha".toList (by decide)
    simp only [Option.map_some, decodeStorage, decodeServer, decodeSssd, decodeKerberos,
      decodeGanesha, decodeManagement, decodeProbe, decodeHost, decodeWebui, Document.strOr,
      Document.str?, Document.bool?, Document.strs?, Document.u16?, Document.u32?, Document.u64?,
      Document.i32?, hroot "ldap_uri".toList (by decide), hroot "navahi_discovery".toList (by decide),
      hstorage, hganesha, hsec "storage".toList (by decide), hsec "server".toList (by decide),
      hsec "sssd".toList (by decide), hsec "kerberos".toList (by decide),
      hsec "ganesha".toList (by decide), hsec "management".toList (by decide),
      hsec "probe".toList (by decide), hsec "host".toList (by decide),
      hsec "webui".toList (by decide)]
  · cases hraw

/-! ## Normal forms stay normal -/

/-- What normalizing leaves is not blank. -/
theorem nonblank_normalizeBlank (v : Option Str) : nonblank (normalizeBlank v) = normalizeBlank v := by
  cases v with
  | none => rfl
  | some s =>
    by_cases h : isBlank s = true
    · simp [normalizeBlank, nonblank, h]
    · have htrim : isBlank (trim s) = isBlank s := by rw [isBlank, trim_trim, isBlank]
      simp [normalizeBlank, nonblank, h, htrim, Option.filter]

/-- A Pseudo path in normal form is left alone. -/
theorem normalizePseudo_of_slash {name p : Str} (hslash : startsWith p "/" = true)
    (htrim : trim p = p) : normalizePseudo name (some p) = p := by
  have hne : isBlank p = false := by
    rw [isBlank, htrim]
    cases p with
    | nil => exact absurd hslash (by decide)
    | cons c p => rfl
  simp [normalizePseudo, normalizeBlank, hne, htrim, hslash]

/-- The Pseudo path of a share with a trimmed name starts with a slash and is trimmed. -/
theorem normalizePseudo_normal {name : Str} (hname : trim name = name) (p : Option Str) :
    startsWith (normalizePseudo name p) "/" = true ∧
      trim (normalizePseudo name p) = normalizePseudo name p := by
  have hslash : ∀ t : Str, startsWith ('/' :: t) "/" = true := fun t => by
    simp [startsWith]
  unfold normalizePseudo
  cases hp : normalizeBlank p with
  | none => exact ⟨hslash name, trim_cons (by decide) hname⟩
  | some t =>
    have ht : trim t = t := by
      obtain ⟨s, rfl, hs⟩ := Option.bind_eq_some_iff.mp hp
      split at hs
      · cases hs
      · cases hs
        exact trim_trim s
    dsimp only
    split
    · next h => exact ⟨h, ht⟩
    · exact ⟨hslash t, trim_cons (by decide) ht⟩

/-- The stored form of a normal share is normal. -/
theorem normalize_stored {s : Share} (hname : trim s.name = s.name) :
    s.normalize.stored.normalize = s.normalize.stored := by
  obtain ⟨hslash, htrim⟩ := normalizePseudo_normal hname s.pseudoPath
  simp only [Share.normalize, Share.normalizeFields, Share.normalizeSource, Share.stored,
    trim_trim, nonblank_normalizeBlank, normalizeBlank_normalizeBlank,
    normalizePseudo_of_slash hslash htrim]

/-- What is stored of accepted shares is accepted. -/
theorem SharesOk.stored {root : Str} {shares : List Share} (h : SharesOk root shares)
    (hnames : ∀ s ∈ shares, trim s.name = s.name) :
    SharesOk root (shares.map fun s => s.normalize.stored) := by
  -- the stored form only forgets blank values, so that each check passes as before
  have hnonblank : ∀ (o : Option Str) (v : Str), v ∈ nonblank o → v ∈ o :=
    fun o v hv => (Option.mem_filter_iff.mp hv).1
  constructor
  · rintro _ hs'
    obtain ⟨s, hs, rfl⟩ := List.mem_map.mp hs'
    obtain ⟨hname, hhost, hsec, hsq, hpr, hpw, hcp, hattr⟩ := h.fields s hs
    refine ⟨hname, hhost, hsec, hsq, ?_, ?_, fun v hv => hcp v (hnonblank _ v hv), hattr⟩
    · show prefInRange (if s.cacheProfile.isSome = true then none else s.prefRead) = true
      split
      · rfl
      · exact hpr
    · show prefInRange (if s.cacheProfile.isSome = true then none else s.prefWrite) = true
      split
      · rfl
      · exact hpw
  · rw [List.map_map]
    exact h.names
  · rintro _ hs'
    obtain ⟨s, hs, rfl⟩ := List.mem_map.mp hs'
    obtain ⟨hne, habs, hunder, hsabs, hsunder⟩ := h.paths s hs
    have hpath : s.normalize.stored.normalizeFields.containerPath = trim s.containerPath :=
      trim_trim _
    have hsource : normalizeBlank s.normalize.stored.normalizeFields.sourcePath =
        normalizeBlank s.normalizeFields.sourcePath := by
      show normalizeBlank (nonblank (normalizeBlank s.sourcePath)) = normalizeBlank s.sourcePath
      rw [nonblank_normalizeBlank, normalizeBlank_normalizeBlank]
    exact ⟨hpath ▸ hne, hpath ▸ habs, hpath ▸ hunder, hsource ▸ hsabs, hsource ▸ hsunder⟩
  · rintro _ hs'
    obtain ⟨s, hs, rfl⟩ := List.mem_map.mp hs'
    rw [normalize_stored (hnames s hs)]
    exact h.pseudoRoot s hs
  · rw [List.map_map]
    refine (List.map_congr_left fun s hs => ?_) ▸ h.pseudos
    rw [Function.comp_apply, normalize_stored (hnames s hs)]
    rfl
  · rw [List.map_map]
    refine (List.map_congr_left fun s hs => ?_) ▸ h.serves
    rw [Function.comp_apply, normalize_stored (hnames s hs)]
    rfl
  · rintro _ hs' v hv
    obtain ⟨s, hs, rfl⟩ := List.mem_map.mp hs'
    exact h.policies s hs v (hnonblank _ v hv)

/-! ## The next load -/

/-- Derivation does not look at the shares. -/
theorem derived_shares (env : Environment) (c : NfsKlldapConfig) (shares : List Share) :
    derived env { c with shares := shares } = { derived env c with shares := shares } := by
  have hsecurity : ∀ c : NfsKlldapConfig, deriveSecurity { c with shares := shares } =
      { deriveSecurity c with shares := shares } := by
    intro c
    unfold deriveSecurity
    split <;> rfl
  have hroot : ∀ c : NfsKlldapConfig, deriveContainerRoot { c with shares := shares } =
      { deriveContainerRoot c with shares := shares } := by
    intro c
    unfold deriveContainerRoot
    split <;> rfl
  unfold derived
  rw [← hroot, ← hsecurity]
  rfl

/-- The container root that a config validates its shares against. -/
theorem containerRoot_derived (env : Environment) (c : NfsKlldapConfig) :
    (derived env c).storage.containerRoot =
      let root := (env.nonblank "NFS_KLLDAP_STORAGE_CONTAINER_ROOT").getD c.storage.containerRoot
      if isBlank root then defaultContainerRoot else root := by
  have hsecurity : ∀ c : NfsKlldapConfig, (deriveSecurity c).storage = c.storage := by
    intro c
    unfold deriveSecurity
    split <;> rfl
  have hroot : ∀ c : NfsKlldapConfig, (deriveContainerRoot c).storage.containerRoot =
      if isBlank c.storage.containerRoot then defaultContainerRoot
      else c.storage.containerRoot := by
    intro c
    unfold deriveContainerRoot
    split <;> rfl
  rw [derived, hroot, hsecurity]
  rfl

/-- A derived config keeps its container root. -/
theorem containerRoot_idem (env : Environment) {c c' : NfsKlldapConfig}
    (h : c'.storage = (derived env c).storage) :
    (derived env c').storage.containerRoot = (derived env c).storage.containerRoot := by
  have hdefault : isBlank defaultContainerRoot = false := by decide
  rw [containerRoot_derived, h, containerRoot_derived]
  cases henv : env.nonblank "NFS_KLLDAP_STORAGE_CONTAINER_ROOT" with
  | some v => rfl
  | none =>
    simp only [Option.getD_none]
    split
    · rw [if_neg (by rw [hdefault]; decide)]
    · rfl

/-- **The load after a save**: the scalar part is the one before, and the shares are the saved ones
in their stored form. -/
theorem load_saved {env : Environment} {toml : TomlEdit} {doc : Document}
    {raw cfg out : NfsKlldapConfig} {shares : List Share} (hraw : decodeConfig doc = some raw)
    (hcfg : validateAndDerive env raw = .ok cfg)
    (hout : validateAndDerive env { cfg with shares := shares } = .ok out)
    (hnames : ∀ s ∈ shares, trim s.name = s.name) (hfit : ∀ s ∈ out.shares, s.Storable)
    (base : Str) :
    loadText env toml (toml.render base (applySharesToTomlDoc doc out.shares)) =
      .ok { cfg with shares := shares.map fun s => s.normalize.stored } := by
  obtain ⟨hscalars, hshares, hcfg⟩ := validateAndDerive_eq_ok_iff.mp hcfg
  obtain ⟨-, hok, hout⟩ := validateAndDerive_eq_ok_iff.mp hout
  have houtShares : out.shares = shares.map Share.normalize := by rw [hout]
  -- only the shares of the document are others
  have hdoc : decodeConfig (applySharesToTomlDoc doc out.shares) =
      some { raw with shares := out.shares.map Share.stored } :=
    decodeConfig_congr (fun x hx => lookup_applyShares _ fun heq => absurd (heq ▸ hx) (by decide))
      hraw (decodeShares_applyShares doc hfit)
  -- the derived root is derived again, the same
  have hroot : (derived env { cfg with shares := shares }).storage.containerRoot =
      (derived env raw).storage.containerRoot := containerRoot_idem env (by rw [hcfg])
  rw [hroot] at hok
  -- what is stored of accepted shares is accepted
  have hvalid : validateAndDerive env { raw with shares := out.shares.map Share.stored } =
      .ok { cfg with shares := shares.map fun s => s.normalize.stored } := by
    rw [validateAndDerive_eq_ok_iff, derived_shares, houtShares, List.map_map]
    refine ⟨⟨hscalars.1, hscalars.2, hscalars.3, hscalars.4, hscalars.5, hscalars.6, hscalars.7,
      hscalars.8⟩, hok.stored hnames, ?_⟩
    have hnormal : (shares.map (Share.stored ∘ Share.normalize)).map Share.normalize =
        shares.map fun s => s.normalize.stored := by
      rw [List.map_map]
      exact List.map_congr_left fun s hs => normalize_stored (hnames s hs)
    rw [hnormal, hcfg]
  have hparse : parseStr toml (toml.render base (applySharesToTomlDoc doc out.shares)) =
      .ok { raw with shares := out.shares.map Share.stored } := by
    rw [parseStr, toml.parse_render, Option.bind_some, hdoc]
  rw [loadText, hparse]
  exact hvalid

end NfsKlldap
