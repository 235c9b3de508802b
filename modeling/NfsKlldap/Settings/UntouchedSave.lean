import NfsKlldap.Settings.RawOnly

/-! # Saving the shares without touching them

The page renders every share into a card, the browser submits the card, and the save reads a share
from it again. What a card cannot show is lost on the way: an absent `squash` shows as an unchecked
box, which is submitted as `no_root_squash`, and raw sizes show as the profile that is closest.

`KeepsExport` lists what survives the round trip. **`untouched_export_iff`** says that an untouched
save exports every share as before exactly when all of them are of that kind. -/

namespace NfsKlldap

open Text

/-! ## The share of a rendered row -/

/-- The profile an untouched card submits. -/
def renderedProfile (s : Share) : Str :=
  selectValue cacheProfiles
    ((nonblank s.cacheProfile).getD (inferProfileFromPrefs s.prefRead s.prefWrite))

/-- The share that is read from the untouched card of `s`. -/
def untouchedShare (shown : Str → AclProbeVerdict) (cfg : NfsKlldapConfig) (doc : Document) (idx : Nat)
    (s : Share) : Share where
  name := trim s.name
  hostPath := trim s.hostPath
  containerPath := trim s.containerPath
  pseudoPath :=
    if effectiveEnableAcl shown s then
      nonblank (some (if sharePseudoPathExplicitInRaw doc idx then sharePseudoPathFromRaw doc idx
        else deriveSharePseudo s))
    else none
  security := s.security
  rw := some (s.rw.getD true)
  squash :=
    some (if s.squash = some "root_squash".toList then "root_squash".toList
      else "no_root_squash".toList)
  cacheProfile := some (renderedProfile s)
  enableAcl := s.enableAcl
  manageGids := s.manageGids
  readAccessPolicy := s.readAccessPolicy.filter (· ∈ readAccessPolicies)
  manageGidsExpiration := s.manageGidsExpiration
  navahiInsecure := if shareNavahiEffective cfg s then some true else none

/-- A select shows one of its options. -/
theorem selectValue_mem {options : List Str} (h : options ≠ []) (v : Str) :
    selectValue options v ∈ options := by
  unfold selectValue
  split
  · next hv => exact hv
  · cases options with
    | nil => exact absurd rfl h
    | cons o options => exact List.mem_cons_self

/-- A text that is not blank is kept. -/
theorem nonblank_of_isBlank {v : Str} (h : isBlank v = false) : nonblank (some v) = some v := by
  simp [nonblank, Option.filter, h]

/-- A select that offers every value gives the value back. -/
theorem parseTriBool_triText (o : Option Bool) :
    parseTriBool (selectValue ["auto".toList, "true".toList, "false".toList] (triText o)) = o := by
  rcases o with _ | _ | _ <;> decide

/-- The security select brings an allowed flavour back, and none as none. -/
theorem nonblank_security {s : Share} (h : ∀ v ∈ s.security, v ∈ allowedSectypes) :
    nonblank (some (selectValue ([] :: allowedSectypes) (s.security.getD []))) = s.security := by
  have hallowed : ∀ v ∈ allowedSectypes, isBlank v = false := by decide
  cases hsec : s.security with
  | none => decide
  | some v =>
    have hv := h v hsec
    rw [Option.getD_some, selectValue, if_pos (List.mem_cons_of_mem _ hv),
      nonblank_of_isBlank (hallowed v hv)]

/-- The profile that is shown is not blank. -/
theorem nonblank_renderedProfile (s : Share) :
    nonblank (some (renderedProfile s)) = some (renderedProfile s) := by
  have hprofiles : ∀ v ∈ cacheProfiles, isBlank v = false := by decide
  exact nonblank_of_isBlank (hprofiles _ (selectValue_mem (by decide) _))

/-- The policy select brings a known policy back, and none otherwise. -/
theorem readPolicy_rendered (o : Option Str) :
    (let v := selectValue ["auto".toList, "pre".toList, "post".toList]
      (if o = some "pre".toList then "pre".toList
        else if o = some "post".toList then "post".toList else "auto".toList)
    if trim v = "pre".toList then some "pre".toList
    else if trim v = "post".toList then some "post".toList
    else none) = o.filter (· ∈ readAccessPolicies) := by
  by_cases hpre : o = some "pre".toList
  · subst hpre
    decide
  · by_cases hpost : o = some "post".toList
    · subst hpost
      decide
    · have hnone : o.filter (· ∈ readAccessPolicies) = none := by
        refine Option.filter_eq_none_iff.mpr fun v hv hmem => ?_
        simp only [readAccessPolicies, List.mem_cons, List.not_mem_nil, or_false,
          decide_eq_true_eq] at hmem
        rcases hmem with rfl | rfl
        · exact hpre hv
        · exact hpost hv
      rw [if_neg hpre, if_neg hpost, hnone]
      decide

/-- The number that is shown parses back to itself. -/
theorem parse_manageGidsExpiration (o : Option UInt64) :
    parseU64 (trim ((o.map fun n => natDecimal n.toNat).getD [])) = o := by
  cases o with
  | none => decide
  | some n =>
    rw [Option.map_some, Option.getD_some, trim_natDecimal, parseU64,
      parseBits_natDecimal n.toNat_lt]
    simp

/-- The card of a rendered row: only a blank host path makes it count for nothing. -/
theorem share_card {shown : Str → AclProbeVerdict} {cfg : NfsKlldapConfig} {doc : Document}
    {idx : Nat} {s : Share} (hname : isBlank s.name = false)
    (hsec : ∀ v ∈ s.security, v ∈ allowedSectypes) (hpath : trim s.containerPath ≠ []) :
    (shareTemplateRow shown cfg doc idx s).card.share =
      if isBlank s.hostPath then none else some (untouchedShare shown cfg doc idx s) := by
  have hname' : trim s.name ≠ [] := by simpa [isBlank] using hname
  -- each control says what the row shows, read as the form reads it
  have hrw : (decide (trim (if s.rw.getD true = true then "true".toList else "false".toList) =
      "true".toList)) = s.rw.getD true := by
    cases s.rw.getD true <;> decide
  have hpolicy := readPolicy_rendered s.readAccessPolicy
  dsimp only at hpolicy
  simp only [ShareCard.share, ShareTemplateRow.card, ShareTemplateRow.value, shareTemplateRow,
    Option.getD_some, hname', hpath, false_or, or_false, Option.map_some, Option.bind_some, hrw,
    nonblank_security hsec, parseTriBool_triText, parse_manageGidsExpiration, hpolicy,
    isBlank, List.isEmpty_iff]
  split
  · rfl
  · simp only [Option.some.injEq, untouchedShare, Share.mk.injEq, true_and, and_true]
    refine ⟨?_, ?_, ?_, ?_⟩
    · cases effectiveEnableAcl shown s <;> rfl
    · by_cases h : s.squash = some "root_squash".toList
      · simp only [h, decide_true, if_true, Option.isSome_some]
      · simp only [h, decide_false, Bool.false_eq_true, if_false, Option.isSome_none]
    · exact congrArg (·.getD "Default".toList) (nonblank_renderedProfile s)
    · rw [shareNavahiEffective]
      cases cfg.navahiDiscovery && decide (s.navahiInsecure = some true) <;> rfl

/-! ## The Pseudo path -/

/-- What decoding a share's table says about it. -/
theorem decodeShare_eq_some {t : Table} {s : Share} (h : decodeShare t = some s) :
    t.conforms shareSchema = true ∧
      s.pseudoPath = (t.str? "pseudo_path".toList).or (t.str? "export_path".toList) ∧
      s.manageGidsExpiration = t.u64? "manage_gids_expiration".toList := by
  unfold decodeShare at h
  split at h
  · next hok =>
    simp only [Bool.and_eq_true] at hok
    cases h
    exact ⟨hok.1.1.1.1, rfl, rfl⟩
  · cases h

/-- The Pseudo path the page reads from the document is the one that was loaded. -/
theorem pseudoFromRaw_of_decode {doc : Document} {shares : List Share} {idx : Nat} {s : Share}
    (hdec : decodeShares doc = some shares) (hs : shares[idx]? = some s)
    (hexp : sharePseudoPathExplicitInRaw doc idx = true) :
    sharePseudoPathFromRaw doc idx =
      let raw := trim (s.pseudoPath.getD [])
      if raw = [] then [] else if startsWith raw "/" then raw else '/' :: raw := by
  rw [sharePseudoPathExplicitInRaw, Option.any_eq_true] at hexp
  obtain ⟨t, ht, hexp⟩ := hexp
  obtain ⟨ts, hts, hidx⟩ := Option.bind_eq_some_iff.mp ht
  obtain ⟨i, hi, hrows⟩ := Option.bind_eq_some_iff.mp hts
  -- a document that was decoded has its shares as blocks
  have hblock : i = .rows .block ts := by
    unfold Item.asArrayOfTables at hrows
    split at hrows
    · cases hrows
      rfl
    · cases hrows
  have hmap : ts.mapM decodeShare = some shares := by
    rw [decodeShares, hi, hblock] at hdec
    exact hdec
  obtain ⟨s', hs', hshare⟩ := exists_getElem?_of_mapM hmap hidx
  cases hs.symm.trans hs'
  obtain ⟨hconforms, hpseudo, -⟩ := decodeShare_eq_some hshare
  -- the raw key and the decoded field prefer the same of the two names
  have hkey : t.str? (if (t.lookup "pseudo_path".toList).isSome then "pseudo_path".toList
      else "export_path".toList) = s.pseudoPath := by
    rw [hpseudo]
    cases hl : t.lookup "pseudo_path".toList with
    | none => rw [Option.isSome_none, if_neg Bool.false_ne_true, Table.str?, Table.str?, hl]; rfl
    | some v =>
      have hstr : v.str?.isSome = true :=
        Table.conforms_iff.mp hconforms ("pseudo_path".toList, .str) (by decide) v hl
      obtain ⟨p, hp⟩ := Option.isSome_iff_exists.mp hstr
      rw [Option.isSome_some, if_pos rfl, Table.str?, hl, Option.bind_some, hp, Option.some_or]
  rw [sharePseudoPathFromRaw, ht]
  simp only [hkey]

/-- The derived Pseudo path of a trimmed name is the normalized one. -/
theorem deriveSharePseudo_normalize {s : Share} (hname : trim s.name = s.name) :
    deriveSharePseudo s.normalize = normalizePseudo s.name s.pseudoPath :=
  if_pos (normalizePseudo_normal hname s.pseudoPath).1

section Rows

variable {shown caps : Str → AclProbeVerdict} {cfg : NfsKlldapConfig} {doc : Document}
  {shares : List Share} {idx : Nat} {s : Share}

/-- What the Pseudo control shows is the Pseudo path, or nothing where that is the default. -/
theorem shown_pseudo (hdec : decodeShares doc = some shares) (hs : shares[idx]? = some s)
    (hname : trim s.name = s.name) :
    let v := if sharePseudoPathExplicitInRaw doc idx then sharePseudoPathFromRaw doc idx
      else deriveSharePseudo s.normalize
    v = normalizePseudo s.name s.pseudoPath ∨
      v = [] ∧ normalizePseudo s.name s.pseudoPath = '/' :: s.name := by
  dsimp only
  split
  · next hexp =>
    rw [pseudoFromRaw_of_decode hdec hs hexp, normalizePseudo, normalizeBlank]
    cases s.pseudoPath with
    | none => exact Or.inr ⟨rfl, rfl⟩
    | some p =>
      by_cases hblank : trim p = []
      · simp [isBlank, hblank]
      · simp [isBlank, hblank]
  · exact Or.inl (deriveSharePseudo_normalize hname)

/-- The Pseudo path after an untouched save. -/
theorem normalizePseudo_untouched (hdec : decodeShares doc = some shares)
    (hs : shares[idx]? = some s) (hname : trim s.name = s.name) :
    normalizePseudo s.name ((stripAutoPseudo (untouchedShare shown cfg doc idx s.normalize)).pseudoPath.or
      (if sharePseudoPathExplicitInRaw doc idx then s.normalize.pseudoPath else none)) =
      if effectiveEnableAcl shown s.normalize || sharePseudoPathExplicitInRaw doc idx then
        normalizePseudo s.name s.pseudoPath
      else '/' :: s.name := by
  obtain ⟨hslash, htrim⟩ := normalizePseudo_normal hname s.pseudoPath
  have hidem : normalizePseudo s.name (some (normalizePseudo s.name s.pseudoPath)) =
      normalizePseudo s.name s.pseudoPath := normalizePseudo_of_slash hslash htrim
  have hblank : isBlank (normalizePseudo s.name s.pseudoPath) = false := by
    rw [isBlank, htrim]
    cases hp : normalizePseudo s.name s.pseudoPath with
    | nil => rw [hp] at hslash; exact absurd hslash (by decide)
    | cons c p => rfl
  -- what the card submits is the Pseudo path, up to the default
  have hsubmitted : effectiveEnableAcl shown s.normalize = true →
      normalizePseudo s.name (untouchedShare shown cfg doc idx s.normalize).pseudoPath =
        normalizePseudo s.name s.pseudoPath := by
    intro hacl
    have hv := shown_pseudo hdec hs hname
    simp only [untouchedShare, hacl, if_true]
    rcases hv with hv | ⟨hv, hauto⟩
    · rw [hv, nonblank_of_isBlank hblank, hidem]
    · rw [hv, hauto]
      rfl
  have hstrip : normalizePseudo s.name
      (stripAutoPseudo (untouchedShare shown cfg doc idx s.normalize)).pseudoPath =
      normalizePseudo s.name (untouchedShare shown cfg doc idx s.normalize).pseudoPath := by
    have htrim' : (untouchedShare shown cfg doc idx s.normalize).name = s.name := hname
    have := normalizePseudo_strip (s := untouchedShare shown cfg doc idx s.normalize)
      (by rw [htrim', hname])
    rwa [htrim'] at this
  cases hp : (stripAutoPseudo (untouchedShare shown cfg doc idx s.normalize)).pseudoPath with
  | some p =>
    rw [hp] at hstrip
    have hacl : effectiveEnableAcl shown s.normalize = true := by
      by_contra hoff
      have hnone : (untouchedShare shown cfg doc idx s.normalize).pseudoPath = none := if_neg hoff
      rcases stripAutoPseudo_cases (untouchedShare shown cfg doc idx s.normalize) with h | ⟨-, h⟩
      · rw [h, hnone] at hp
        cases hp
      · rw [h] at hp
        cases hp
    rw [Option.some_or, hstrip, hsubmitted hacl, hacl, Bool.true_or, if_pos rfl]
  | none =>
    rw [hp] at hstrip
    rw [Option.none_or]
    cases hexp : sharePseudoPathExplicitInRaw doc idx with
    | true =>
      rw [Bool.or_true, if_pos rfl, if_pos rfl]
      exact hidem
    | false =>
      rw [Bool.or_false, if_neg Bool.false_ne_true]
      split
      · next hacl => rw [hstrip, hsubmitted hacl]
      · rfl

end Rows

/-! ## What survives -/

/-- The sizes that are shown as a profile of the same sizes. -/
def inferableSizes : List (Option UInt64 × Option UInt64) :=
  [(some 1048576, some 1048576), (some 4194304, some 4194304), (some 16777216, some 8388608),
   (some 2097152, some 16777216)]

/-- The export of the loaded share `s` at position `idx` survives an untouched save. `shown` are the
verdicts the page was rendered with, `caps` those of generate. -/
structure KeepsExport (shown caps : Str → AclProbeVerdict) (doc : Document) (idx : Nat) (s : Share) :
    Prop where
  /-- The name has no white space around it. -/
  name : trim s.name = s.name
  hostPath : isBlank s.hostPath = false
  /-- The key is there, with one of the two values the box stands for. -/
  squash : s.squash = some "root_squash".toList ∨ s.squash = some "no_root_squash".toList
  /-- The profile is spelled as the select offers it, or it is the one the select falls back to. -/
  cacheProfile : ∀ p ∈ s.cacheProfile, p ∈ cacheProfiles ∨ trim p = "Default".toList
  sizes : s.cacheProfile = none → (s.prefRead, s.prefWrite) ∈ inferableSizes
  /-- On an ACL export, the policy is spelled as the select offers it. -/
  readAccessPolicy : effectiveEnableAcl caps s = true →
    ∀ p ∈ s.readAccessPolicy, p ∈ readAccessPolicies
  /-- The Pseudo path is submitted, or known to be explicit, or the default. -/
  pseudoPath : effectiveEnableAcl shown s = true ∨ sharePseudoPathExplicitInRaw doc idx = true ∨
    s.pseudoPath = some ('/' :: s.name)

/-- The squash check box keeps exactly the two values it can show. -/
theorem squash_kept_iff (o : Option Str) :
    (if o = some "root_squash".toList then "root_squash".toList else "no_root_squash".toList) =
        o.getD ganeshaDefaultSquash ↔
      o = some "root_squash".toList ∨ o = some "no_root_squash".toList := by
  cases o with
  | none => decide
  | some v =>
    by_cases h : v = "root_squash".toList
    · subst h
      decide
    · have hne : some v ≠ some "root_squash".toList := fun heq => h (Option.some.inj heq)
      rw [if_neg hne, Option.getD_some, Option.some.injEq, Option.some.injEq, eq_comm]
      exact ⟨Or.inr, fun hv => hv.resolve_left h⟩

/-- Only one profile has the sizes of the default one. -/
theorem resolveCacheProfile_eq_default {p : Str} :
    resolveCacheProfile p = resolveCacheProfile "Default".toList ↔ trim p = "Default".toList := by
  have hdefault : resolveCacheProfile "Default".toList = some (1048576, 1048576) := by decide
  rw [hdefault]
  unfold resolveCacheProfile
  dsimp only
  constructor
  · intro h
    by_contra hne
    rw [if_neg hne] at h
    split at h
    · exact absurd h (by decide)
    · split at h
      · exact absurd h (by decide)
      · split at h
        · exact absurd h (by decide)
        · split at h
          · exact absurd h (by decide)
          · exact nomatch h
  · intro h
    rw [if_pos h]

/-- A known profile gives its two transfer sizes. -/
theorem exportPrefs_of_resolve {s : Share} {p : Str} {r w : UInt64} (hp : s.cacheProfile = some p)
    (h : resolveCacheProfile p = some (r, w)) : exportPrefs s = (some r, some w) := by
  rw [exportPrefs, hp, Option.bind_some, h]

/-- The sizes that are inferred are those of the inferred profile. -/
theorem resolve_inferProfile (pr pw : Option UInt64) :
    inferProfileFromPrefs pr pw ∈ cacheProfiles ∧
      ((pr, pw) ∈ inferableSizes ↔
        (resolveCacheProfile (inferProfileFromPrefs pr pw)).map (fun x => (some x.1, some x.2)) =
          some (pr, pw)) := by
  have hmem : (pr, pw) ∈ inferableSizes ↔ (pr = some 1048576 ∧ pw = some 1048576) ∨
      (pr = some 4194304 ∧ pw = some 4194304) ∨ (pr = some 16777216 ∧ pw = some 8388608) ∨
      (pr = some 2097152 ∧ pw = some 16777216) := by
    simp only [inferableSizes, List.mem_cons, List.not_mem_nil, or_false, Prod.mk.injEq]
  unfold inferProfileFromPrefs
  by_cases h₁ : pr = some 1048576 ∧ pw = some 1048576
  · obtain ⟨rfl, rfl⟩ := h₁
    decide
  · by_cases h₂ : pr = some 4194304 ∧ pw = some 4194304
    · obtain ⟨rfl, rfl⟩ := h₂
      decide
    · by_cases h₃ : pr = some 16777216 ∧ pw = some 8388608
      · obtain ⟨rfl, rfl⟩ := h₃
        decide
      · by_cases h₄ : pr = some 2097152 ∧ pw = some 16777216
        · obtain ⟨rfl, rfl⟩ := h₄
          decide
        · rw [if_neg h₁, if_neg h₂, if_neg h₃, if_neg h₄, hmem]
          refine ⟨by decide, iff_of_false (by tauto) fun h => h₁ ?_⟩
          have hdefault : (resolveCacheProfile "Default".toList).map (fun x => (some x.1, some x.2)) =
              some (some 1048576, some 1048576) := by decide
          rw [hdefault] at h
          cases h
          exact ⟨rfl, rfl⟩

/-- The sizes survive when the profile does, or when they have one. -/
theorem prefs_kept_iff {s : Share} (hok : ∀ p ∈ s.cacheProfile, (resolveCacheProfile p).isSome) :
    (resolveCacheProfile (renderedProfile s)).map (fun x => (some x.1, some x.2)) =
        some (exportPrefs s) ↔
      (∀ p ∈ s.cacheProfile, p ∈ cacheProfiles ∨ trim p = "Default".toList) ∧
        (s.cacheProfile = none → (s.prefRead, s.prefWrite) ∈ inferableSizes) := by
  cases hprofile : s.cacheProfile with
  -- without a profile the page infers one from the sizes
  | none =>
    obtain ⟨hmem, hiff⟩ := resolve_inferProfile s.prefRead s.prefWrite
    have hrendered : renderedProfile s = inferProfileFromPrefs s.prefRead s.prefWrite := by
      rw [renderedProfile, hprofile]
      exact if_pos hmem
    have hprefs : exportPrefs s = (s.prefRead, s.prefWrite) := by
      rw [exportPrefs, hprofile]
      rfl
    rw [hrendered, hprefs, ← hiff]
    simp
  | some p =>
    obtain ⟨⟨r, w⟩, hrw⟩ := Option.isSome_iff_exists.mp (hok p hprofile)
    -- a profile that resolves is not blank, and is rendered as it stands if it is listed
    have hblank : isBlank p = false := by
      by_contra hb
      have htrim : trim p = [] := by simpa [isBlank] using hb
      have hnil : resolveCacheProfile [] = none := by decide
      rw [resolveCacheProfile, htrim] at hrw
      exact absurd (hnil.symm.trans hrw) (by simp)
    have hrendered : renderedProfile s = selectValue cacheProfiles p := by
      rw [renderedProfile, hprofile, nonblank_of_isBlank hblank]
      rfl
    rw [exportPrefs_of_resolve hprofile hrw, hrendered]
    simp only [Option.mem_def, Option.some.injEq, forall_eq', reduceCtorEq, false_imp_iff, and_true]
    have hmap : ∀ o : Option (UInt64 × UInt64),
        o.map (fun x => (some x.1, some x.2)) = some (some r, some w) ↔ o = some (r, w) := by
      rintro (_ | ⟨a, b⟩) <;> simp
    rw [hmap, ← hrw]
    by_cases hmem : p ∈ cacheProfiles
    · exact iff_of_true (congrArg resolveCacheProfile (if_pos hmem)) (Or.inl hmem)
    · rw [selectValue, if_neg hmem, eq_comm]
      exact resolveCacheProfile_eq_default.trans ⟨Or.inr, fun h => h.resolve_left hmem⟩

/-- The policy survives when it is spelled as it is offered, or when it does not matter. -/
theorem readAccess_kept_iff (o : Option Str) (acl : Bool) :
    computeReadAccessPolicyEmit (nonblank (o.filter (· ∈ readAccessPolicies))) acl =
        computeReadAccessPolicyEmit o acl ↔
      (acl = true → ∀ p ∈ o, p ∈ readAccessPolicies) := by
  have hpolicies : ∀ v ∈ readAccessPolicies, isBlank v = false := by decide
  cases o with
  | none => exact iff_of_true rfl fun _ p hp => nomatch hp
  | some p =>
    by_cases hp : p ∈ readAccessPolicies
    · have hfilter : nonblank ((some p).filter (· ∈ readAccessPolicies)) = some p := by
        rw [Option.filter_some, if_pos (decide_eq_true hp), nonblank_of_isBlank (hpolicies p hp)]
      rw [hfilter]
      exact iff_of_true rfl fun _ q hq => by cases hq; exact hp
    · have hfilter : nonblank ((some p).filter (· ∈ readAccessPolicies)) = none := by
        rw [Option.filter_some, if_neg (by rwa [decide_eq_true_eq])]
        rfl
      rw [hfilter]
      cases acl with
      | true =>
        refine iff_of_false ?_ fun h => hp (h rfl p rfl)
        show ReadAccessPolicyEmit.omit ≠
          if toAsciiLowercase (trim p) = "post".toList then .post else .pre
        split <;> decide
      | false =>
        refine iff_of_true ?_ fun h => nomatch h
        show ReadAccessPolicyEmit.pre =
          if toAsciiLowercase (trim p) = "post".toList then .pre else .pre
        rw [ite_self]

/-! ## The saved row -/

section Saved

variable {shown caps : Str → AclProbeVerdict} {cfg : NfsKlldapConfig} {doc : Document} {idx : Nat}
  {s : Share}

/-- What the untouched row of `s` is stored as. -/
def resavedShare (shown : Str → AclProbeVerdict) (cfg : NfsKlldapConfig) (doc : Document) (idx : Nat)
    (s : Share) : Share :=
  (passthrough cfg doc idx (stripAutoPseudo (untouchedShare shown cfg doc idx s))).normalize.stored

/-- The share an untouched card saves, written out. -/
theorem resavedShare_eq (shown : Str → AclProbeVerdict) (doc : Document)
    (hidx : cfg.shares[idx]? = some s)
    (hpath : trim s.containerPath = s.containerPath)
    (hsource : normalizeBlank s.sourcePath = s.sourcePath) :
    resavedShare shown cfg doc idx s =
      { untouchedShare shown cfg doc idx s with
        pseudoPath := some (normalizePseudo (trim s.name)
          ((stripAutoPseudo (untouchedShare shown cfg doc idx s)).pseudoPath.or
            (if sharePseudoPathExplicitInRaw doc idx then s.pseudoPath else none)))
        containerPath := s.containerPath
        rw := if s.rw.getD true then none else some false
        readAccessPolicy := nonblank (s.readAccessPolicy.filter (· ∈ readAccessPolicies))
        sourcePath := s.sourcePath
        attrExpirationSecs := s.attrExpirationSecs
        navahiInsecure := if s.navahiInsecure = some true then some true else none } := by
  -- the row at the index is the share itself
  have hold : oldShareFor cfg.shares idx (trim s.name) = some s := by
    rw [oldShareFor, hidx, Option.some_or]
  have hstored : nonblank s.sourcePath = s.sourcePath := by
    rw [← hsource, nonblank_normalizeBlank]
  rw [resavedShare, passthrough_eq, stripAutoPseudo_eq]
  simp only [Share.normalize, Share.normalizeFields, Share.normalizeSource, Share.stored,
    untouchedShare, hold, Option.filter_some, Option.bind_some, Option.none_or, hsource, hstored, hpath,
    nonblank_renderedProfile, Option.isSome_some, if_true, Option.getD_some,
    Share.mk.injEq, true_and, and_true]
  refine ⟨?_, ?_⟩
  · cases sharePseudoPathExplicitInRaw doc idx <;> rfl
  · rw [shareNavahiEffective]
    cases cfg.navahiDiscovery
    · simp only [Bool.false_and, Bool.false_eq_true, if_false, Option.none_or]
    · by_cases h : s.navahiInsecure = some true
      · simp only [h, decide_true, Bool.and_true, if_true]
      · simp only [h, decide_false, Bool.and_false, Bool.false_eq_true, if_false, if_true,
          reduceCtorEq]

/-- The rows keep their names, up to white space. -/
theorem name_resavedShare (hidx : cfg.shares[idx]? = some s)
    (hpath : trim s.containerPath = s.containerPath)
    (hsource : normalizeBlank s.sourcePath = s.sourcePath) :
    (resavedShare shown cfg doc idx s).name = trim s.name := by
  rw [resavedShare_eq shown doc hidx hpath hsource]
  rfl

/-- The Pseudo path survives when it is submitted, explicit or the default. -/
theorem pseudo_kept_iff (shown : Str → AclProbeVerdict) {shares : List Share}
    (hdec : decodeShares doc = some shares) (hs : shares[idx]? = some s)
    (hidx : cfg.shares[idx]? = some s.normalize)
    (hname : trim s.name = s.name) :
    deriveSharePseudo (resavedShare shown cfg doc idx s.normalize) = deriveSharePseudo s.normalize ↔
      effectiveEnableAcl shown s.normalize = true ∨ sharePseudoPathExplicitInRaw doc idx = true ∨
        s.normalize.pseudoPath = some ('/' :: s.name) := by
  -- what is saved is the path of the document, or the one made of the name
  have hsaved : (resavedShare shown cfg doc idx s.normalize).pseudoPath =
      some (if effectiveEnableAcl shown s.normalize || sharePseudoPathExplicitInRaw doc idx then
        normalizePseudo s.name s.pseudoPath else '/' :: s.name) := by
    rw [resavedShare_eq shown doc hidx (trim_trim _) (normalizeBlank_normalizeBlank _),
      ← normalizePseudo_untouched hdec hs hname]
    show some (normalizePseudo (trim s.name) _) = _
    rw [hname]
  have hderive : deriveSharePseudo (resavedShare shown cfg doc idx s.normalize) =
      if effectiveEnableAcl shown s.normalize || sharePseudoPathExplicitInRaw doc idx then
        normalizePseudo s.name s.pseudoPath else '/' :: s.name := by
    rw [deriveSharePseudo, hsaved, Option.getD_some]
    refine if_pos ?_
    split
    · exact (normalizePseudo_normal hname s.pseudoPath).1
    · simp [startsWith]
  rw [hderive, deriveSharePseudo_normalize hname]
  split
  · next h => exact iff_of_true rfl (by rwa [← or_assoc, ← Bool.or_eq_true, or_iff_left_of_imp fun _ => h])
  · next h =>
    rw [Bool.or_eq_true, not_or] at h
    rw [or_iff_right h.1, or_iff_right h.2, eq_comm]
    exact (Option.some.injEq _ _).symm.to_iff

/-- **One row**: its export survives exactly when what the card shows stands for it. -/
theorem export_resaved_iff {shares : List Share} (hdec : decodeShares doc = some shares)
    (hs : shares[idx]? = some s) (hidx : cfg.shares[idx]? = some s.normalize)
    (hname : trim s.name = s.name) (hhost : isBlank s.hostPath = false)
    (hok : ∀ p ∈ s.cacheProfile, (resolveCacheProfile p).isSome) :
    effectiveExport caps cfg (resavedShare shown cfg doc idx s.normalize) =
        effectiveExport caps cfg s.normalize ↔
      KeepsExport shown caps doc idx s.normalize := by
  have hpseudo := pseudo_kept_iff shown hdec hs hidx hname
  have heq := resavedShare_eq shown doc hidx (trim_trim _) (normalizeBlank_normalizeBlank _)
  generalize resavedShare shown cfg doc idx s.normalize = r at hpseudo heq ⊢
  -- the fields that every card gives back
  have hpath : servePathFor r = servePathFor s.normalize := by rw [heq]; rfl
  have hacl : effectiveEnableAcl caps r = effectiveEnableAcl caps s.normalize := by rw [heq]; rfl
  have hnavahi : shareNavahiEffective cfg r = shareNavahiEffective cfg s.normalize := by
    rw [heq, shareNavahiEffective, shareNavahiEffective]
    by_cases h : s.normalize.navahiInsecure = some true
    · rw [if_pos h, h]
    · rw [if_neg h, decide_eq_false h]
      rfl
  have hsec : exportSecType cfg r = exportSecType cfg s.normalize := by
    rw [exportSecType, exportSecType, hnavahi]
    rw [heq]
    rfl
  have haccess : r.rw.getD true = s.normalize.rw.getD true := by
    rw [heq]
    show (if s.normalize.rw.getD true = true then none else some false).getD true = _
    cases s.normalize.rw.getD true <;> rfl
  have hgids : r.manageGids = s.normalize.manageGids := by rw [heq]; rfl
  have hattr : r.attrExpirationSecs = s.normalize.attrExpirationSecs := by rw [heq]
  have hsource : r.sourcePath = s.normalize.sourcePath := by rw [heq]
  -- the ones that have a condition
  have hsquash : r.squash.getD ganeshaDefaultSquash = s.normalize.squash.getD ganeshaDefaultSquash ↔
      s.normalize.squash = some "root_squash".toList ∨
        s.normalize.squash = some "no_root_squash".toList := by
    rw [← squash_kept_iff, heq]
    rfl
  have hprefs : exportPrefs r = exportPrefs s.normalize ↔
      (∀ p ∈ s.normalize.cacheProfile, p ∈ cacheProfiles ∨ trim p = "Default".toList) ∧
        (s.normalize.cacheProfile = none →
          (s.normalize.prefRead, s.normalize.prefWrite) ∈ inferableSizes) := by
    have hresolve : (resolveCacheProfile (renderedProfile s.normalize)).isSome :=
      (by decide : ∀ p ∈ cacheProfiles, (resolveCacheProfile p).isSome) _
        (selectValue_mem (by decide) _)
    obtain ⟨⟨a, b⟩, hab⟩ := Option.isSome_iff_exists.mp hresolve
    have hprofile : r.cacheProfile = some (renderedProfile s.normalize) := by rw [heq]; rfl
    rw [← prefs_kept_iff (s := s.normalize) hok, hab, exportPrefs_of_resolve hprofile hab,
      Option.map_some, Option.some.injEq]
  have hread : computeReadAccessPolicyEmit r.readAccessPolicy (effectiveEnableAcl caps r) =
      computeReadAccessPolicyEmit s.normalize.readAccessPolicy (effectiveEnableAcl caps s.normalize) ↔
      (effectiveEnableAcl caps s.normalize = true →
        ∀ p ∈ s.normalize.readAccessPolicy, p ∈ readAccessPolicies) := by
    rw [← readAccess_kept_iff, hacl, heq]
  rw [effectiveExport, effectiveExport, Export.mk.injEq, hpath, hsec, haccess, hattr, hgids, hsource,
    hnavahi, hpseudo, hsquash, hprefs, hread, hacl]
  constructor
  · rintro ⟨-, hp, -, -, hsq, ⟨hprofile, hsizes⟩, -, -, -, hpolicy, -, -⟩
    exact ⟨hname, hhost, hsq, hprofile, hsizes, hpolicy, hp⟩
  · rintro ⟨-, -, hsq, hprofile, hsizes, hpolicy, hp⟩
    exact ⟨rfl, hp, rfl, rfl, hsq, ⟨hprofile, hsizes⟩, rfl, rfl, rfl, hpolicy, rfl, rfl⟩

end Saved

/-! ## All rows -/

/-- The form of the page when nobody touches it. -/
def UntouchedForm (shown : Str → AclProbeVerdict) (cfg : NfsKlldapConfig) (doc : Document)
    (form : SettingsForm) : Prop :=
  ∃ cards, FormOf form cards ∧
    cards.map (fun c => (c.idx.toNat, c.value)) =
      (shareTemplateRows shown cfg doc).map fun r => (r.idx, r.value)

/-- The exports under all names are compared row by row. -/
theorem find?_mapIdx_iff {α β κ : Type} [DecidableEq κ] {key : α → κ} {l : List α} {g : Nat → α → α}
    (hnodup : (l.map key).Nodup) (hkey : ∀ i a, l[i]? = some a → key (g i a) = key a) (e : α → β) :
    (∀ k, ((l.mapIdx g).find? fun a => key a = k).map e = (l.find? fun a => key a = k).map e) ↔
      ∀ i a, l[i]? = some a → e (g i a) = e a := by
  -- the keys stay in place, so that they stay distinct
  have hkeys : (l.mapIdx g).map key = l.map key := by
    refine List.ext_getElem? fun i => ?_
    simp only [List.getElem?_map, List.getElem?_mapIdx, Option.map_map]
    cases ha : l[i]? with
    | none => rfl
    | some a => exact congrArg some (hkey i a ha)
  -- and a row and its new form are found under the same key
  have hfind : ∀ i a, l[i]? = some a →
      (l.find? fun b => key b = key a) = some a ∧
        ((l.mapIdx g).find? fun b => key b = key a) = some (g i a) := by
    intro i a ha
    refine ⟨KeyedMap.get?_eq_some_iff (m := ⟨l, hnodup⟩) |>.mpr ⟨List.mem_of_getElem? ha, rfl⟩,
      KeyedMap.get?_eq_some_iff (m := ⟨l.mapIdx g, hkeys ▸ hnodup⟩) |>.mpr ⟨?_, hkey i a ha⟩⟩
    refine List.mem_of_getElem? (i := i) ?_
    rw [List.getElem?_mapIdx, ha, Option.map_some]
  constructor
  · intro h i a ha
    have hk := h (key a)
    rw [(hfind i a ha).1, (hfind i a ha).2] at hk
    exact Option.some.inj hk
  · intro h k
    cases hl : l.find? fun a => key a = k with
    | some a =>
      obtain rfl : key a = k := by simpa using List.find?_some hl
      obtain ⟨i, ha⟩ := List.getElem?_of_mem (List.mem_of_find?_eq_some hl)
      rw [(hfind i a ha).2, Option.map_some, Option.map_some, h i a ha]
    | none =>
      rw [Option.map_none, Option.map_eq_none_iff, List.find?_eq_none]
      intro b hb hbk
      obtain ⟨i, hi⟩ := List.getElem?_of_mem hb
      rw [List.getElem?_mapIdx] at hi
      obtain ⟨a, ha, rfl⟩ := Option.map_eq_some_iff.mp hi
      refine List.find?_eq_none.mp hl a (List.mem_of_getElem? ha) ?_
      rw [hkey i a ha] at hbk
      exact hbk

section All

variable {shown caps : Str → AclProbeVerdict} {cfg : NfsKlldapConfig} {doc : Document}
  {form : SettingsForm}

/-- What is collected from an untouched form. -/
theorem collect_untouched (h : UntouchedForm shown cfg doc form)
    (hname : ∀ s ∈ cfg.shares, isBlank s.name = false)
    (hsec : ∀ s ∈ cfg.shares, ∀ v ∈ s.security, v ∈ allowedSectypes)
    (hpath : ∀ s ∈ cfg.shares, trim s.containerPath ≠ []) :
    collectSharesFromStructuredForm form =
      cfg.shares.zipIdx.filterMap fun e =>
        if isBlank e.1.hostPath then none else some (untouchedShare shown cfg doc e.2 e.1) := by
  obtain ⟨cards, hform, hcards⟩ := h
  have hshare : cards.filterMap ShareCard.share =
      (shareTemplateRows shown cfg doc).filterMap fun r => r.card.share := by
    -- only what a card submits counts, not its index
    have hvalue := congrArg (List.filterMap fun v : Nat × (ShareControl → Option Str) =>
      ShareCard.share ⟨0, v.2⟩) hcards
    rw [List.filterMap_map, List.filterMap_map] at hvalue
    exact hvalue
  rw [collect_cards hform, hshare, shareTemplateRows, List.mapIdx_eq_zipIdx_map, List.filterMap_map]
  refine List.filterMap_congr fun e he => ?_
  have hs : e.1 ∈ cfg.shares := (List.mem_zipIdx' he).2 ▸ List.getElem_mem _
  exact share_card (hname e.1 hs) (hsec e.1 hs) (hpath e.1 hs)

/-- A save that keeps every name loses no row and leaves no white space to trim. -/
theorem untouched_names {l collected : List Share} (hnodup : (l.map Share.name).Nodup)
    (hcollect : collected = l.zipIdx.filterMap fun e =>
      if isBlank e.1.hostPath then none else some (untouchedShare shown cfg doc e.2 e.1))
    (hsub : l.map Share.name ⊆ collected.map Share.name) :
    ∀ s ∈ l, isBlank s.hostPath = false ∧ trim s.name = s.name := by
  intro s hs
  -- no row is lost, since there are as many names as before
  have hlength : collected.length = l.zipIdx.length := by
    have hle := hnodup.length_le_of_subset hsub
    rw [List.length_map, List.length_map, ← List.length_zipIdx (i := 0)] at hle
    refine Nat.le_antisymm ?_ hle
    rw [hcollect]
    exact List.length_filterMap_le _ _
  constructor
  · obtain ⟨i, hi⟩ := List.getElem?_of_mem hs
    rw [hcollect] at hlength
    have hsome := List.filterMap_length_eq_length.mp hlength (s, i)
      (List.mk_mem_zipIdx_iff_getElem?.mpr hi)
    by_contra hblank
    rw [Bool.not_eq_false] at hblank
    simp [hblank] at hsome
  · obtain ⟨r, hr, hname⟩ := List.mem_map.mp (hsub (List.mem_map_of_mem hs))
    rw [hcollect] at hr
    obtain ⟨e, -, he⟩ := List.mem_filterMap.mp hr
    split at he
    · exact nomatch he
    · cases he
      rw [← hname]
      exact trim_trim _

/-- With every host path in place, the shares that are stored are the rows one by one. -/
theorem requested_untouched (hcollect : collectSharesFromStructuredForm form =
      cfg.shares.zipIdx.filterMap fun e =>
        if isBlank e.1.hostPath then none else some (untouchedShare shown cfg doc e.2 e.1))
    (hhost : ∀ s ∈ cfg.shares, isBlank s.hostPath = false) :
    (requestedShares cfg doc form).map (fun s => s.normalize.stored) =
      cfg.shares.mapIdx (resavedShare shown cfg doc) := by
  have hrows : collectSharesFromStructuredForm form =
      cfg.shares.mapIdx (untouchedShare shown cfg doc) := by
    rw [hcollect, List.mapIdx_eq_zipIdx_map, ← List.filterMap_eq_map]
    refine List.filterMap_congr fun e he => ?_
    have hs : e.1 ∈ cfg.shares := (List.mem_zipIdx' he).2 ▸ List.getElem_mem _
    rw [hhost e.1 hs, if_neg Bool.false_ne_true]
    rfl
  refine List.ext_getElem? fun i => ?_
  rw [requestedShares, hrows]
  simp only [List.getElem?_map, List.getElem?_mapIdx, Option.map_map]
  rfl

end All

/-! ### Numbers of a document -/

/-- A number that is read from a document fits a signed one. -/
theorem u64?_lt {v : Leaf} {n : UInt64} (h : v.u64? = some n) : n.toNat < 2 ^ 63 := by
  obtain ⟨k, hk, rfl⟩ := Option.map_eq_some_iff.mp h
  unfold Leaf.natBelow? at hk
  split at hk
  · next i =>
    split at hk
    · next hi =>
      cases hk
      have hlt : i.toInt.toNat < 2 ^ 63 := by
        have := i.toInt_lt
        omega
      rw [UInt64.toNat_ofNat_of_lt' (lt_trans hlt (by decide))]
      exact hlt
    · cases hk
  · cases hk

/-- Every decoded share comes from a table. -/
theorem decodeShares_mem {doc : Document} {shares : List Share} (h : decodeShares doc = some shares)
    {s : Share} (hs : s ∈ shares) : ∃ t, decodeShare t = some s := by
  have hmapM : ∀ (ts : List Table) (l : List Share), ts.mapM decodeShare = some l → s ∈ l →
      ∃ t, decodeShare t = some s := by
    intro ts
    induction ts with
    | nil =>
      intro l hl hmem
      cases hl
      exact nomatch hmem
    | cons t ts ih =>
      intro l hl hmem
      rw [List.mapM_cons] at hl
      obtain ⟨a, ha, hl⟩ := Option.bind_eq_some_iff.mp hl
      obtain ⟨as, has, hl⟩ := Option.bind_eq_some_iff.mp hl
      cases hl
      rcases List.mem_cons.mp hmem with rfl | hmem
      · exact ⟨t, ha⟩
      · exact ih as has hmem
  unfold decodeShares at h
  split at h
  · cases h
    exact nomatch hs
  · exact hmapM _ _ h hs
  · cases h
    exact nomatch hs
  · cases h

/-- A number that was loaded can be stored again. -/
theorem manageGidsExpiration_lt {doc : Document} {shares : List Share}
    (h : decodeShares doc = some shares) {s : Share} (hs : s ∈ shares) :
    ∀ n ∈ s.manageGidsExpiration, n.toNat < 2 ^ 63 := by
  obtain ⟨t, ht⟩ := decodeShares_mem h hs
  intro n hn
  rw [(decodeShare_eq_some ht).2.2] at hn
  obtain ⟨v, -, hv⟩ := Option.bind_eq_some_iff.mp hn
  exact u64?_lt hv

/-! ## The round trip -/

section Loaded

variable {env : Environment} {doc : Document} {raw cfg : NfsKlldapConfig}
  {shown : Str → AclProbeVerdict} {form : SettingsForm}

/-- A property of all loaded shares. -/
theorem forall_loaded {P : Share → Prop} (hshares : cfg.shares = raw.shares.map Share.normalize)
    (h : ∀ s ∈ raw.shares, P s.normalize) : ∀ s ∈ cfg.shares, P s := by
  rw [hshares]
  exact List.forall_mem_map.mpr h

/-- What is collected from the untouched form of a config that was loaded. -/
theorem collect_loaded (hvalid : validateAndDerive env raw = .ok cfg)
    (hform : UntouchedForm shown cfg doc form) :
    collectSharesFromStructuredForm form =
      cfg.shares.zipIdx.filterMap fun e =>
        if isBlank e.1.hostPath then none else some (untouchedShare shown cfg doc e.2 e.1) := by
  obtain ⟨-, hok, hcfg⟩ := validateAndDerive_eq_ok_iff.mp hvalid
  have hshares : cfg.shares = raw.shares.map Share.normalize := by rw [hcfg]
  refine collect_untouched hform (forall_loaded hshares fun s hs => (hok.fields s hs).name)
    (forall_loaded hshares fun s hs => (hok.fields s hs).security)
    (forall_loaded hshares fun s hs => ?_)
  show trim (trim s.containerPath) ≠ []
  rw [trim_trim]
  exact (hok.paths s hs).containerPath

/-- Every row can be read back once it is written. -/
theorem storable_untouched (hraw : decodeConfig doc = some raw)
    (hvalid : validateAndDerive env raw = .ok cfg) (hform : UntouchedForm shown cfg doc form) :
    ∀ r ∈ collectSharesFromStructuredForm form, trim r.name = r.name ∧ r.Storable := by
  obtain ⟨-, -, hcfg⟩ := validateAndDerive_eq_ok_iff.mp hvalid
  have hexp : ∀ s ∈ cfg.shares, ∀ n ∈ s.manageGidsExpiration, n.toNat < 2 ^ 63 :=
    forall_loaded (by rw [hcfg]) fun s hs n hn =>
      manageGidsExpiration_lt (decodeShares_of_decodeConfig hraw) hs n hn
  intro r hr
  rw [collect_loaded hvalid hform] at hr
  obtain ⟨e, he, her⟩ := List.mem_filterMap.mp hr
  have hs : e.1 ∈ cfg.shares := (List.mem_zipIdx' he).2 ▸ List.getElem_mem _
  split at her
  · exact nomatch her
  · cases her
    exact ⟨trim_trim _, hexp e.1 hs, fun n hn => (nomatch hn), fun n hn => (nomatch hn)⟩

/-- The load after the save of an untouched form. -/
theorem load_untouched {toml : TomlEdit} {out : NfsKlldapConfig} (hraw : decodeConfig doc = some raw)
    (hvalid : validateAndDerive env raw = .ok cfg) (hform : UntouchedForm shown cfg doc form)
    (hout : validateAndDerive env { cfg with shares := requestedShares cfg doc form } = .ok out)
    (base : Str) :
    loadText env toml (toml.render base (applySharesToTomlDoc doc out.shares)) =
      .ok { cfg with shares := (requestedShares cfg doc form).map fun s => s.normalize.stored } := by
  have hrow := storable_untouched hraw hvalid hform
  refine load_saved hraw hvalid hout (fun s hs => ?_) (fun s hs => ?_) base
  · have hmem := List.mem_map_of_mem (f := Share.name) hs
    rw [name_requestedShares] at hmem
    obtain ⟨r, hr, heq⟩ := List.mem_map.mp hmem
    rw [← heq]
    exact (hrow r hr).1
  · rw [(validateAndDerive_eq_ok_iff.mp hout).2.2] at hs
    obtain ⟨r, hr, rfl⟩ := List.mem_map.mp hs
    obtain ⟨i, hi⟩ := List.getElem?_of_mem hr
    rw [requestedShares, List.getElem?_mapIdx, List.getElem?_map, Option.map_map] at hi
    obtain ⟨c, hc, rfl⟩ := Option.map_eq_some_iff.mp hi
    obtain ⟨-, hgids, hread, hwrite⟩ := hrow c (List.mem_of_getElem? hc)
    rw [Function.comp_apply, passthrough_eq, stripAutoPseudo_eq]
    exact ⟨hgids, hread, hwrite⟩

/-- The exports of the stored shares, compared with those of the loaded ones. -/
theorem exports_same_iff (caps : Str → AclProbeVerdict) (hraw : decodeConfig doc = some raw)
    (hvalid : validateAndDerive env raw = .ok cfg) (hform : UntouchedForm shown cfg doc form) :
    (∀ name, exportNamed caps { cfg with
      shares := (requestedShares cfg doc form).map fun s => s.normalize.stored } name =
        exportNamed caps cfg name) ↔
      ∀ idx s, cfg.shares[idx]? = some s → KeepsExport shown caps doc idx s := by
  obtain ⟨-, hok, hcfg⟩ := validateAndDerive_eq_ok_iff.mp hvalid
  have hshares : cfg.shares = raw.shares.map Share.normalize := by rw [hcfg]
  have hnodup : (cfg.shares.map Share.name).Nodup := by
    rw [hshares, List.map_map]
    exact hok.names
  have hcollect := collect_loaded hvalid hform
  have hraws : ∀ {idx : Nat} {s : Share}, cfg.shares[idx]? = some s →
      ∃ rs, raw.shares[idx]? = some rs ∧ Share.normalize rs = s := by
    intro idx s hs
    rw [hshares, List.getElem?_map] at hs
    exact Option.map_eq_some_iff.mp hs
  -- with every host path in place and every name trimmed, row by row
  have hrows : (∀ s ∈ cfg.shares, isBlank s.hostPath = false ∧ trim s.name = s.name) →
      ((∀ name, exportNamed caps { cfg with
        shares := (requestedShares cfg doc form).map fun s => s.normalize.stored } name =
          exportNamed caps cfg name) ↔
        ∀ idx s, cfg.shares[idx]? = some s → KeepsExport shown caps doc idx s) := by
    intro hplain
    have hkey : ∀ idx s, cfg.shares[idx]? = some s →
        (resavedShare shown cfg doc idx s).name = s.name := by
      intro idx s hs
      obtain ⟨rs, -, rfl⟩ := hraws hs
      rw [name_resavedShare hs (trim_trim _) (normalizeBlank_normalizeBlank _)]
      exact (hplain _ (List.mem_of_getElem? hs)).2
    rw [requested_untouched hcollect fun s hs => (hplain s hs).1]
    refine (find?_mapIdx_iff hnodup hkey (effectiveExport caps cfg)).trans ?_
    refine forall₃_congr fun idx s hs => ?_
    obtain ⟨rs, hrs, rfl⟩ := hraws hs
    obtain ⟨hhost, hname⟩ := hplain _ (List.mem_of_getElem? hs)
    exact export_resaved_iff (decodeShares_of_decodeConfig hraw) hrs hs hname hhost
      (hok.fields rs (List.mem_of_getElem? hrs)).cacheProfile
  constructor
  · intro h
    refine (hrows (untouched_names hnodup hcollect fun name hname => ?_)).mp h
    -- a name that still has an export is the name of a row
    obtain ⟨s, hs, rfl⟩ := List.mem_map.mp hname
    have hsome : (exportNamed caps cfg s.name).isSome := by
      rw [exportNamed, Option.isSome_map]
      exact List.find?_isSome.mpr ⟨s, hs, decide_eq_true rfl⟩
    rw [← h, exportNamed, Option.isSome_map, List.find?_isSome] at hsome
    obtain ⟨r, hr, hrname⟩ := hsome
    rw [← name_requestedShares cfg doc, ← of_decide_eq_true hrname]
    obtain ⟨q, hq, rfl⟩ := List.mem_map.mp hr
    exact List.mem_map.mpr ⟨q, hq, rfl⟩
  · intro h
    refine (hrows fun s hs => ?_).mpr h
    obtain ⟨idx, hidx⟩ := List.getElem?_of_mem hs
    exact ⟨(h idx s hidx).hostPath, (h idx s hidx).name⟩

end Loaded

/-- **An untouched save** exports every share as before exactly when every share is of the kind a
card can show. -/
theorem untouched_export_iff {env : Environment} {toml : TomlEdit} {probe : Str → AclProbeOutcome}
    {shown : Str → AclProbeVerdict} {text w : Str} {file' : ConfFile} {form : SettingsForm}
    {cfg : NfsKlldapConfig} {doc : Document} (caps : Str → AclProbeVerdict)
    (hform : UntouchedForm shown cfg doc form) (hdoc : toml.parse text = some doc)
    (hload : loadText env toml text = .ok cfg)
    (hsave : settingsSaveShares env toml probe true (.text text) form = .written w file') :
    (∃ cfg', loadText env toml w = .ok cfg' ∧
      ∀ name, exportNamed caps cfg' name = exportNamed caps cfg name) ↔
      ∀ idx s, cfg.shares[idx]? = some s → KeepsExport shown caps doc idx s := by
  obtain ⟨-, out, hout, rfl, -⟩ := (settingsSaveShares_eq_written_iff hdoc hload).mp hsave
  obtain ⟨doc', raw, hdoc', hraw, hvalid⟩ := loadText_eq_ok_iff.mp hload
  cases hdoc.symm.trans hdoc'
  rw [load_untouched hraw hvalid hform hout text, ← exports_same_iff caps hraw hvalid hform]
  constructor
  · rintro ⟨cfg', hcfg', h⟩
    cases hcfg'
    exact h
  · intro h
    exact ⟨_, rfl, h⟩

/-! ### A share the card can show -/

/-- The document of one share with `squash` and a profile. -/
def squashedDoc : Document :=
  homeDoc [(homeTable "a".toList none)
    |>.insert "squash".toList (.str "root_squash".toList)
    |>.insert "cache_profile".toList (.str "Default".toList)]

/-- One share that squashes nobody but root. -/
def squashedConfig : NfsKlldapConfig :=
  homeConfig [{ homeShare "a".toList none with
    squash := some "root_squash".toList
    cacheProfile := some "Default".toList }]

/-- Its text. -/
def squashedText : Str :=
  ("ldap_uri = \"ldaps://ldap.home.lan\"\n\n" ++
    "[sssd]\nldap_default_bind_dn = \"cn=admin\"\nldap_default_authtok = \"secret\"\n\n" ++
    "[[shares]]\nname = \"a\"\nhost_path = \"/srv/a\"\ncontainer_path = \"/export/a\"\n" ++
    "squash = \"root_squash\"\ncache_profile = \"Default\"\n").toList

/-- An editor that reads this text as its document. -/
noncomputable def squashedToml : TomlEdit :=
  .ofTexts [(squashedText, squashedDoc)] (by decide) (by decide +kernel)

/-- The form of a config with the rows as they are rendered. -/
def squashedForm : SettingsForm :=
  ⟨((shareTemplateRows (fun _ => .incapable) squashedConfig squashedDoc).map
    ShareTemplateRow.card).flatMap ShareCard.inputs, by decide +kernel⟩

/-- A share with an explicit `squash` and a profile is exported as before. -/
theorem untouched_squashed :
    ∃ w file', settingsSaveShares .ascii squashedToml (fun _ => ⟨"ext4".toList, .capable⟩) true
        (.text squashedText) squashedForm = .written w file' ∧
      ∃ cfg', loadText .ascii squashedToml w = .ok cfg' ∧
        ∀ name, exportNamed (fun _ => .incapable) cfg' name =
          exportNamed (fun _ => .incapable) squashedConfig name := by
  have hdoc : squashedToml.parse squashedText = some squashedDoc :=
    TomlEdit.parse_ofTexts (List.mem_singleton_self _)
  have hvalid : (decodeConfig squashedDoc).bind (fun c => (validateAndDerive .ascii c).toOption) =
      some squashedConfig := by decide +kernel
  obtain ⟨raw, hraw, hcfg⟩ := Option.bind_eq_some_iff.mp hvalid
  have hload : loadText .ascii squashedToml squashedText = .ok squashedConfig :=
    loadText_eq_ok_iff.mpr ⟨squashedDoc, raw, hdoc, hraw, toOption_eq_some_iff.mp hcfg⟩
  have hform : UntouchedForm (fun _ => .incapable) squashedConfig squashedDoc squashedForm :=
    ⟨_, ⟨List.Perm.refl _, by decide +kernel⟩, rfl⟩
  have hout : (validateAndDerive .ascii { squashedConfig with
      shares := requestedShares squashedConfig squashedDoc squashedForm }).toOption.isSome = true := by
    decide +kernel
  obtain ⟨out, hout⟩ := Option.isSome_iff_exists.mp hout
  have hsave : settingsSaveShares .ascii squashedToml (fun _ => ⟨"ext4".toList, .capable⟩) true
      (.text squashedText) squashedForm =
      .written (squashedToml.render squashedText (applySharesToTomlDoc squashedDoc out.shares))
        (.text (squashedToml.render squashedText (applySharesToTomlDoc squashedDoc out.shares))) :=
    (settingsSaveShares_eq_written_iff hdoc hload).mpr
      ⟨by decide +kernel, out, toOption_eq_some_iff.mp hout, rfl, rfl⟩
  refine ⟨_, _, hsave, (untouched_export_iff _ hform hdoc hload hsave).mpr fun idx s hs => ?_⟩
  cases idx with
  | zero =>
    cases hs
    exact ⟨by decide, by decide, Or.inl rfl, by decide, fun h => (nomatch h), by decide, by decide⟩
  | succ n => exact nomatch hs

/-- Without the key, the rendered box is unchecked, and saving the page turns squashing off. -/
theorem not_untouched_staged :
    UntouchedForm (fun _ => .incapable) stagedConfig stagedDoc stagedForm ∧
    loadText .ascii stagedToml stagedText = .ok stagedConfig ∧
    (∀ s ∈ stagedConfig.shares, s.umask = none) ∧
    ∃ w, settingsSaveShares .ascii stagedToml (fun _ => ⟨"ext4".toList, .capable⟩) true
        (.text stagedText) stagedForm = .written w (.text w) ∧
      (∃ cfg', loadText .ascii stagedToml w = .ok cfg' ∧
        (exportNamed (fun _ => .incapable) stagedConfig "a".toList).map Export.squash =
          some "root_squash".toList ∧
        (exportNamed (fun _ => .incapable) cfg' "a".toList).map Export.squash =
          some "no_root_squash".toList) ∧
      ¬ ∃ cfg', loadText .ascii stagedToml w = .ok cfg' ∧
        ∀ name, exportNamed (fun _ => .incapable) cfg' name =
          exportNamed (fun _ => .incapable) stagedConfig name := by
  have hform : UntouchedForm (fun _ => .incapable) stagedConfig stagedDoc stagedForm :=
    ⟨_, ⟨List.Perm.refl _, by decide +kernel⟩, rfl⟩
  obtain ⟨hdoc, hload⟩ := load_staged
  obtain ⟨doc', raw, hdoc', hraw, hvalid⟩ := loadText_eq_ok_iff.mp hload
  cases hdoc.symm.trans hdoc'
  have hout : (validateAndDerive .ascii { stagedConfig with
      shares := requestedShares stagedConfig stagedDoc stagedForm }).toOption.isSome = true := by
    decide +kernel
  obtain ⟨out, hout⟩ := Option.isSome_iff_exists.mp hout
  rw [toOption_eq_some_iff] at hout
  -- what was written loads again, with the shares that the form asks for
  have hloaded : loadText .ascii stagedToml
      (stagedToml.render stagedText (applySharesToTomlDoc stagedDoc out.shares)) = _ :=
    load_untouched hraw hvalid hform hout stagedText
  -- the export of the share, before and after
  have hbefore : (exportNamed (fun _ => .incapable) stagedConfig "a".toList).map Export.squash =
      some "root_squash".toList := by decide +kernel
  have hafter : (exportNamed (fun _ => .incapable) { stagedConfig with
      shares := (requestedShares stagedConfig stagedDoc stagedForm).map fun s => s.normalize.stored }
      "a".toList).map Export.squash = some "no_root_squash".toList := by decide +kernel
  refine ⟨hform, hload, by decide, _, (settingsSaveShares_eq_written_iff hdoc hload).mpr
    ⟨by decide +kernel, out, hout, rfl, rfl⟩, ⟨_, hloaded, hbefore, hafter⟩, ?_⟩
  rintro ⟨cfg', hcfg', hsame⟩
  cases hloaded.symm.trans hcfg'
  rw [hsame, hbefore] at hafter
  exact absurd hafter (by decide)

end NfsKlldap
