import NfsKlldap.Identity.Principal

/-! # The canonical form of a principal (`krb5/principal.rs`)

Caches, the realm guard and the logins all take a principal in its canonical form. Where the configured
realm is not blank, one of three things is done to the trimmed text:

* a blank principal stays blank;
* a principal without a realm gets the configured one;
* a principal with text behind its **first** `@` is normalised, and keeps what is behind its last one.

`CanonicalizesTo` lists the three, and **`CanonicalForm`** is what is relied on. -/

namespace NfsKlldap

open Text

/-- **What becomes of a principal**, for a realm that is not blank. -/
inductive CanonicalizesTo (p realm : Str) : Str → Prop
  | blank (h : trim p = []) : CanonicalizesTo p realm []
  | filled {l : Str} (hl : '@' ∉ l) (h : trim p = l ∧ l ≠ [] ∨ trim p = l ++ ['@']) :
    CanonicalizesTo p realm (l ++ '@' :: toAsciiUppercase (trim realm))
  | kept {l r : Str} (h : splitOnce '@' (trim p) = some (l, r)) (hr : trim r ≠ []) :
    CanonicalizesTo p realm (normalizePrincipal p)

variable {p realm : Str}

/-- Uppercasing leaves no text blank. -/
theorem toAsciiUppercase_ne_nil {s : Str} (h : s ≠ []) : toAsciiUppercase s ≠ [] := by
  rwa [toAsciiUppercase, ne_eq, List.map_eq_nil_iff]

/-- Behind the `@` of a trimmed text, blank means empty. -/
theorem eq_nil_of_trim_eq_append {l r : Str} (h : trim p = l ++ '@' :: r) (hr : trim r = []) :
    r = [] := by
  by_contra hne
  have hlast := (trim_eq_self_iff.mp (trim_trim p)).2 (r.getLast hne) (by
    rw [h, List.getLast?_append_of_ne_nil _ (by simp), List.getLast?_cons_of_ne_nil hne]
    exact List.getLast?_eq_some_getLast hne)
  rw [trim_eq_nil_iff.mp hr _ (List.getLast_mem hne)] at hlast
  exact absurd hlast (by decide)

/-- Every principal canonicalises to its canonical form. -/
theorem canonicalizesTo (hrealm : trim realm ≠ []) :
    CanonicalizesTo p realm (canonicalizePrincipal p realm) := by
  have hne : toAsciiUppercase (trim realm) ≠ [] := toAsciiUppercase_ne_nil hrealm
  -- without a sign, with nothing behind it, or with a realm of its own
  cases h : splitOnce '@' (trim p) with
  | none =>
    have hat := splitOnce_eq_none_iff.mp h
    by_cases hp : trim p = []
    · have hcanon : canonicalizePrincipal p realm = normalizePrincipal [] := by
        simp [canonicalizePrincipal, hne, hp, splitOnce]
      rw [hcanon]
      exact .blank hp
    · have hcanon : canonicalizePrincipal p realm =
          trim p ++ '@' :: toAsciiUppercase (trim realm) := by
        simp only [canonicalizePrincipal, h, if_neg hne, if_pos (Or.inr hp)]
      rw [hcanon]
      exact .filled hat (.inl ⟨rfl, hp⟩)
  | some x =>
    obtain ⟨l, r⟩ := x
    by_cases hr : trim r = []
    · obtain ⟨hp, hl⟩ := splitOnce_eq_some_iff.mp h
      have hcanon : canonicalizePrincipal p realm = l ++ '@' :: toAsciiUppercase (trim realm) := by
        simp only [canonicalizePrincipal, h, if_neg hne, if_pos hr]
      rw [hcanon]
      exact .filled hl (.inr (by rw [hp, eq_nil_of_trim_eq_append hp hr]))
    · rw [canonicalizePrincipal_of_split realm h hr]
      exact .kept h hr

/-! ## A realm that was filled in -/

section Filled

variable {l : Str}

/-- What the realm is put behind is the local part. -/
theorem principalLocalPart_of_filled (hl : '@' ∉ l)
    (h : trim p = l ∧ l ≠ [] ∨ trim p = l ++ ['@']) : principalLocalPart p = l := by
  rcases h with ⟨h, -⟩ | h
  · rw [principalLocalPart, h, before_eq_self hl]
  · rw [principalLocalPart, h, before_append [] hl]

/-- The realm that is filled in is the one behind the sign. -/
theorem splitOnce_filled (hl : '@' ∉ l) (h : trim p = l ∧ l ≠ [] ∨ trim p = l ++ ['@']) :
    splitOnce '@' (trim (l ++ '@' :: toAsciiUppercase (trim realm))) =
      some (l, toAsciiUppercase (trim realm)) := by
  rw [trim_qualified (fun c hc => ?_) (by rw [trim_toAsciiUppercase, trim_trim])]
  · exact splitOnce_append _ hl
  · rw [← principalLocalPart_of_filled hl h] at hc
    exact head_principalLocalPart hc

/-- Before, there was no realm. -/
theorem lastRealm_of_filled (hl : '@' ∉ l) (h : trim p = l ∧ l ≠ [] ∨ trim p = l ++ ['@']) :
    ∀ r ∈ lastRealm p, r = [] := by
  intro r hr
  rw [lastRealm] at hr
  rcases h with ⟨h, -⟩ | h
  · rw [h, rsplitOnce_eq_none_iff.mpr hl] at hr
    cases hr
  · rw [h, rsplitOnce_eq_some_iff.mpr ⟨rfl, List.not_mem_nil⟩] at hr
    obtain rfl : [] = r := by simpa [toAsciiUppercase, trim] using hr
    rfl

/-- Afterwards, it is the configured one. -/
theorem lastRealm_filled (hat : '@' ∉ realm) (hl : '@' ∉ l)
    (h : trim p = l ∧ l ≠ [] ∨ trim p = l ++ ['@']) :
    lastRealm (l ++ '@' :: toAsciiUppercase (trim realm)) = some (toAsciiUppercase (trim realm)) := by
  obtain ⟨hp, -⟩ : trim (l ++ '@' :: toAsciiUppercase (trim realm)) =
      l ++ '@' :: toAsciiUppercase (trim realm) ∧ _ :=
    splitOnce_eq_some_iff.mp (splitOnce_filled hl h)
  have hreal : '@' ∉ toAsciiUppercase (trim realm) := fun hmem => by
    obtain ⟨c, hc, hup⟩ := List.mem_map.mp hmem
    exact hat (mem_of_mem_trim ((toUpper_eq_at_iff c).mp hup ▸ hc))
  rw [lastRealm, hp, rsplitOnce_eq_some_iff.mpr ⟨rfl, hreal⟩]
  simp [trim_toAsciiUppercase]

end Filled

/-! ## What the canonical form keeps -/

namespace CanonicalizesTo

variable {q : Str}

/-- The canonical form has the local part of the principal. -/
theorem principalLocalPart_eq (h : CanonicalizesTo p realm q) :
    principalLocalPart q = principalLocalPart p := by
  cases h with
  | blank h => rw [← principalLocalPart_trim p, h]
  | filled hl h =>
    rw [← (splitOnce_trim (splitOnce_filled hl h)).2, principalLocalPart_of_filled hl h]
  | kept h hr => exact principalLocalPart_normalizePrincipal p

/-- A canonical form is normal. -/
theorem normalizePrincipal_eq (h : CanonicalizesTo p realm q) : normalizePrincipal q = q := by
  cases h with
  | blank h => rfl
  | filled hl h =>
    rw [normalizePrincipal_of_split (splitOnce_filled hl h), trim_toAsciiUppercase, trim_trim,
      toAsciiUppercase_idem]
  | kept h hr => exact normalizePrincipal_idem p

/-- A canonical form is its own canonical form. -/
theorem canonicalizePrincipal_eq (hrealm : trim realm ≠ []) (h : CanonicalizesTo p realm q) :
    canonicalizePrincipal q realm = q := by
  have hnorm := h.normalizePrincipal_eq
  cases h with
  | blank h =>
    simp [canonicalizePrincipal, trim, splitOnce, normalizePrincipal]
  | filled hl h =>
    rw [canonicalizePrincipal_of_split realm (splitOnce_filled hl h), hnorm]
    rw [trim_toAsciiUppercase, trim_trim]
    exact toAsciiUppercase_ne_nil hrealm
  | kept h hr =>
    rw [canonicalizePrincipal_of_split realm (splitOnce_normalizePrincipal h), hnorm]
    rw [trim_toAsciiUppercase, trim_trim]
    exact toAsciiUppercase_ne_nil hr

/-- Filling a realm in brings no foreign one. -/
theorem classifyPrincipal_eq (hat : '@' ∉ realm) (h : CanonicalizesTo p realm q)
    (variants : List Str) :
    classifyPrincipal q realm variants = classifyPrincipal p realm variants := by
  have hlocal := h.principalLocalPart_eq
  cases h with
  | blank h => exact classifyPrincipal_congr hlocal (by rw [lastRealm, lastRealm, h]; rfl) _ _
  | filled hl h =>
    refine classifyPrincipal_of_noForeignRealm hlocal (fun r hr => .inr ?_)
      (fun r hr => .inl (lastRealm_of_filled hl h r hr)) _
    rw [lastRealm_filled hat hl h] at hr
    exact (Option.some.inj hr).symm
  | kept h hr => exact classifyPrincipal_congr hlocal (lastRealm_normalizePrincipal p) _ _

end CanonicalizesTo

/-! ## A realm in the canonical form -/

/-- The principal ends in an `@` that is not its first one. -/
def EndsInSecondAt (p : Str) : Prop := ∃ l, trim p = l ++ ['@'] ∧ '@' ∈ l

/-- A principal with text behind its first `@` lacks a realm when it ends in another one. -/
theorem principalHasRealm_iff_of_split {l r : Str} (h : splitOnce '@' (trim p) = some (l, r))
    (hr : trim r ≠ []) : principalHasRealm p = true ↔ ¬ EndsInSecondAt p := by
  obtain ⟨hp, hl⟩ := splitOnce_eq_some_iff.mp h
  have hat : '@' ∈ trim p := by simp [hp]
  obtain ⟨⟨a, b⟩, hsplit⟩ := Option.ne_none_iff_exists'.mp
    (mt rsplitOnce_eq_none_iff.mp (not_not.mpr hat))
  obtain ⟨hab, hb⟩ := rsplitOnce_eq_some_iff.mp hsplit
  have hrealm : principalHasRealm p = true ↔ trim b ≠ [] := by
    simp [principalHasRealm, hsplit]
  rw [hrealm]
  refine not_congr ⟨fun hblank => ⟨a, ?_, ?_⟩, ?_⟩
  · rw [hab, eq_nil_of_trim_eq_append hab hblank]
  · -- with no other `@`, the first one would be the last
    by_contra ha
    rw [hab, splitOnce_append b ha] at h
    obtain ⟨-, rfl⟩ := Prod.mk.inj (Option.some.inj h)
    exact hr hblank
  · rintro ⟨l', hl', -⟩
    rw [hl', rsplitOnce_eq_some_iff.mpr ⟨rfl, List.not_mem_nil⟩] at hsplit
    obtain ⟨-, rfl⟩ := Prod.mk.inj (Option.some.inj hsplit)
    rfl

/-- A canonical form has a realm unless the principal ends in a second sign. -/
theorem CanonicalizesTo.principalHasRealm_iff {q : Str} (hrealm : trim realm ≠ []) (hat : '@' ∉ realm)
    (h : CanonicalizesTo p realm q) (hp : trim p ≠ []) :
    principalHasRealm q = true ↔ ¬ EndsInSecondAt p := by
  cases h with
  | blank h => exact absurd h hp
  | filled hl h =>
    refine iff_of_true ?_ ?_
    · rw [principalHasRealm_eq, lastRealm_filled hat hl h]
      simpa using toAsciiUppercase_ne_nil hrealm
    · rintro ⟨l', hl', hmem⟩
      rcases h with ⟨h, -⟩ | h
      · exact hl (h ▸ hl' ▸ List.mem_append_left _ hmem)
      · obtain ⟨rfl, -⟩ := List.append_inj' (h.symm.trans hl') rfl
        exact hl hmem
  | kept h hr => rw [principalHasRealm_normalizePrincipal, principalHasRealm_iff_of_split h hr]

/-- **What is relied on** of the canonical form of a principal. -/
structure CanonicalForm (p realm : Str) : Prop where
  normalize_idem : normalizePrincipal (normalizePrincipal p) = normalizePrincipal p
  canonicalize_idem :
    canonicalizePrincipal (canonicalizePrincipal p realm) realm = canonicalizePrincipal p realm
  normalized : normalizePrincipal (canonicalizePrincipal p realm) = canonicalizePrincipal p realm
  hasRealm : trim p ≠ [] → principalHasRealm (canonicalizePrincipal p realm) = true
  localPart : principalLocalPart (canonicalizePrincipal p realm) = principalLocalPart p
  verdict : principalHasRealm p = false ∨ lastRealm p = some (toAsciiUppercase (trim realm)) →
    ∀ variants, (classifyPrincipal (canonicalizePrincipal p realm) realm variants).1 =
      (classifyPrincipal p realm variants).1

/-- **Principals with a canonical form**: all but those that end in an `@` and have one before. -/
theorem canonicalForm_iff (hrealm : trim realm ≠ []) (hat : '@' ∉ realm) :
    CanonicalForm p realm ↔ ¬ EndsInSecondAt p := by
  have h : CanonicalizesTo p realm (canonicalizePrincipal p realm) := canonicalizesTo hrealm
  constructor
  · intro hform
    by_cases hp : trim p = []
    · rintro ⟨l, hl, -⟩
      rw [hp] at hl
      exact absurd hl (by simp)
    · exact (h.principalHasRealm_iff hrealm hat hp).mp (hform.hasRealm hp)
  · intro hend
    exact {
      normalize_idem := normalizePrincipal_idem p
      canonicalize_idem := h.canonicalizePrincipal_eq hrealm
      normalized := h.normalizePrincipal_eq
      hasRealm := fun hp => (h.principalHasRealm_iff hrealm hat hp).mpr hend
      localPart := h.principalLocalPart_eq
      verdict := fun _ variants => congrArg Prod.fst (h.classifyPrincipal_eq hat variants) }

/-- A host principal without a realm has a canonical form. -/
theorem canonicalForm_host : CanonicalForm "host/client".toList "EXAMPLE.COM".toList :=
  (canonicalForm_iff (by decide +kernel) (by decide)).mpr fun ⟨l, hl, _⟩ => by
    have hlast := congrArg List.getLast? hl
    rw [List.getLast?_concat] at hlast
    exact absurd hlast (by decide +kernel)

/-- `alice@EXAMPLE.COM@` counts as a principal with a realm where realms are filled in, and as one
without where they are asked for. -/
theorem not_canonicalForm_secondAt :
    ¬ CanonicalForm "alice@EXAMPLE.COM@".toList "EXAMPLE.COM".toList := fun h =>
  absurd (h.hasRealm (by decide +kernel)) (by decide +kernel)

end NfsKlldap
