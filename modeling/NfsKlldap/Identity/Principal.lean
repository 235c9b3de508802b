import NfsKlldap.Lib.Text

/-! # Kerberos principals (`krb5/principal.rs`)

A principal is text of the form `local@REALM`. The functions below read it with three different
cuts, which agree on well-formed principals only:

* `principalLocalPart`, `canonicalizePrincipal` and `normalizePrincipal` cut at the **first** `@`;
* `principalHasRealm` and `classifyPrincipal` look behind the **last** `@`. -/

namespace NfsKlldap

open Text

/-- Prefixes for machine principals that match Ganesha `Root_Kerberos_Principal`. -/
def machinePrincipalPrefixes : List Str := ["host/".toList, "nfs/".toList, "root/".toList]

/-- The local part before `@`; the whole text when the principal is unqualified. -/
def principalLocalPart (p : Str) : Str := before '@' (trim p)

/-- True when the local part is only ASCII digits (uid/gid reverse-map noise). -/
def isNumericLocalPrincipal (p : Str) : Bool :=
  let localPart := principalLocalPart p
  !localPart.isEmpty && localPart.all Char.isDigit

/-- The trailing segment of a machine principal's local part: `client` for `host/client@REALM`. -/
def machineShortName (principal : Str) : Str := afterLast '/' (principalLocalPart principal)

/-- True when the principal has a non-blank realm after its last `@`. -/
def principalHasRealm (p : Str) : Bool :=
  match rsplitOnce '@' (trim p) with
  | some (_, r) => !(trim r).isEmpty
  | none => false

/-- Normalise for cache lookup: uppercase realm, trimmed ends. -/
def normalizePrincipal (p : Str) : Str :=
  let p := trim p
  match splitOnce '@' p with
  | some (_, r) => principalLocalPart p ++ '@' :: toAsciiUppercase (trim r)
  | none => p

/-- Fill an empty or missing realm from the configured Kerberos realm. -/
def canonicalizePrincipal (p realm : Str) : Str :=
  let p := trim p
  let realmU := toAsciiUppercase (trim realm)
  if realmU = [] then normalizePrincipal p
  else
    match splitOnce '@' p with
    | some (localPart, r) =>
      if trim r = [] then localPart ++ '@' :: realmU else normalizePrincipal p
    | none => if '/' ∈ p ∨ p ≠ [] then p ++ '@' :: realmU else normalizePrincipal p

/-- Why a principal was classified the way it was. -/
inductive ClassifyReason where
  | machinePrefix (localPart : Str)
  | realmMismatch (pRealm realm : Str)
  | serverHost (variant : Str)
  | bareService
  | regularUser
  deriving DecidableEq, Repr

/-- The text of a classification reason. -/
def ClassifyReason.text : ClassifyReason → Str
  | machinePrefix localPart => "matches well-known machine prefix in ".toList ++ localPart
  | realmMismatch pRealm realm =>
    "principal realm ".toList ++ pRealm ++ " != configured ".toList ++ realm
  | serverHost variant => "matches server host principal for ".toList ++ variant
  | bareService => "bare machine service name".toList
  | regularUser => "treated as regular user principal".toList

/-- The local part starts with a machine prefix, up to ASCII case. -/
def hasMachinePrefix (localLower : Str) : Bool :=
  machinePrincipalPrefixes.any fun pref => pref.isPrefixOf localLower

/-- Classify machine and user principals for Ganesha `Root_Kerberos_Principal`. -/
def classifyPrincipal (principal realm : Str) (serverVariants : List Str) :
    Bool × ClassifyReason :=
  let principal := trim principal
  let localPart := toAsciiLowercase (principalLocalPart principal)
  -- machine prefixes are structural: the realm is not looked at
  if hasMachinePrefix localPart then (true, .machinePrefix localPart)
  else
    let realmU := toAsciiUppercase (trim realm)
    let pRealm := match rsplitOnce '@' principal with
      | some (_, r) => toAsciiUppercase (trim r)
      | none => []
    if realmU ≠ [] ∧ '@' ∈ principal ∧ pRealm ≠ [] ∧ pRealm ≠ realmU then
      (false, .realmMismatch pRealm realmU)
    else
      match serverVariants.find? fun v =>
          localPart = "host/".toList ++ toAsciiLowercase v
            ∨ localPart = "nfs/".toList ++ toAsciiLowercase v with
      | some v => (true, .serverHost v)
      | none =>
        if localPart = "host".toList ∨ localPart = "nfs".toList ∨ localPart = "root".toList then
          (true, .bareService)
        else (false, .regularUser)

/-! ## Local parts -/

/-- The local part never holds an `@`. -/
theorem at_not_mem_principalLocalPart (p : Str) : '@' ∉ principalLocalPart p := not_mem_before _ _

/-- Blanks around a principal do not change its local part. -/
@[simp] theorem principalLocalPart_trim (p : Str) :
    principalLocalPart (trim p) = principalLocalPart p := by
  rw [principalLocalPart, principalLocalPart, trim_trim]

/-- The local part is what was put in front of the first `@`. -/
theorem principalLocalPart_append {l : Str} (hat : '@' ∉ l)
    (hhead : ∀ c ∈ l.head?, isWhitespace c = false) (r : Str) :
    principalLocalPart (l ++ '@' :: r) = l := by
  obtain ⟨u, hu, hblank⟩ := exists_trim_append (s := l ++ '@' :: r) (by
    intro c hc
    cases l with
    | nil =>
      obtain rfl : '@' = c := by simpa using hc
      decide
    | cons a l => exact hhead c (by simpa using hc))
  -- the `@` is not trimmed off
  have hmem : '@' ∈ trim (l ++ '@' :: r) := by
    have hmem : '@' ∈ trim (l ++ '@' :: r) ++ u := by
      rw [← hu]
      simp
    rcases List.mem_append.mp hmem with h | h
    · exact h
    · exact absurd (hblank _ h) (by decide)
  rcases eq_before_append '@' (trim (l ++ '@' :: r)) with ⟨hno, -⟩ | ⟨t, ht⟩
  · exact absurd hmem hno
  · rw [ht, List.append_assoc, List.cons_append] at hu
    exact ((append_cons_inj hat (not_mem_before _ _)).mp hu).1.symm

/-- The local part does not start with white space. -/
theorem head_principalLocalPart {p : Str} {c : Char} (h : c ∈ (principalLocalPart p).head?) :
    isWhitespace c = false := by
  have hp : principalLocalPart p <+: trim p := List.takeWhile_prefix _
  cases hs : principalLocalPart p with
  | nil => simp [hs] at h
  | cons a l =>
    rw [hs] at h hp
    obtain ⟨r, hr⟩ := hp
    obtain rfl : a = c := by simpa using h
    exact head_trim hr.symm

/-- A realm-qualified principal holds an `@`. -/
theorem at_mem_of_principalHasRealm {p : Str} (h : principalHasRealm p = true) : '@' ∈ trim p := by
  unfold principalHasRealm at h
  split at h
  · rename_i l r hs
    obtain ⟨hp, -⟩ := rsplitOnce_eq_some_iff.mp hs
    simp [hp]
  · simp at h

/-! ## Normalised principals -/

/-- The realm behind the last `@`, trimmed and uppercased. -/
def lastRealm (p : Str) : Option Str :=
  (rsplitOnce '@' (trim p)).map fun x => toAsciiUppercase (trim x.2)

/-- A principal has a realm when something is behind its last sign. -/
theorem principalHasRealm_eq (p : Str) :
    principalHasRealm p = ((lastRealm p).map fun r => !r.isEmpty).getD false := by
  rw [principalHasRealm, lastRealm]
  cases rsplitOnce '@' (trim p) with
  | none => rfl
  | some x => simp [toAsciiUppercase]

/-- Cutting a request at its first `@` gives its local part. -/
theorem splitOnce_trim {p l r : Str} (h : splitOnce '@' (trim p) = some (l, r)) :
    trim p = l ++ '@' :: r ∧ l = principalLocalPart p := by
  obtain ⟨hp, hl⟩ := splitOnce_eq_some_iff.mp h
  refine ⟨hp, ?_⟩
  rw [principalLocalPart, hp, before_append r hl]

/-- A principal with a sign gets its realm in upper case. -/
theorem normalizePrincipal_of_split {p l r : Str} (h : splitOnce '@' (trim p) = some (l, r)) :
    normalizePrincipal p = l ++ '@' :: toAsciiUppercase (trim r) := by
  rw [normalizePrincipal, h, principalLocalPart_trim, ← (splitOnce_trim h).2]

/-- A principal without a sign is trimmed only. -/
theorem normalizePrincipal_of_none {p : Str} (h : splitOnce '@' (trim p) = none) :
    normalizePrincipal p = trim p := by
  rw [normalizePrincipal, h]

/-- Nothing is trimmed off a principal that neither starts nor ends in white space. -/
theorem trim_qualified {l r : Str} (hhead : ∀ c ∈ l.head?, isWhitespace c = false) (hr : trim r = r) :
    trim (l ++ '@' :: r) = l ++ '@' :: r := by
  refine trim_eq_self ?_ ?_
  · intro c hc
    cases l with
    | nil =>
      obtain rfl : '@' = c := by simpa using hc
      decide
    | cons a l => exact hhead c (by simpa using hc)
  · intro c hc
    rw [List.getLast?_append_of_ne_nil _ (by simp)] at hc
    by_cases hnil : r = []
    · rw [hnil] at hc
      obtain rfl : '@' = c := by simpa using hc
      decide
    · rw [List.getLast?_cons_of_ne_nil hnil] at hc
      exact (trim_eq_self_iff.mp hr).2 c hc

/-- A normalised principal is trimmed. -/
@[simp] theorem trim_normalizePrincipal (p : Str) :
    trim (normalizePrincipal p) = normalizePrincipal p := by
  cases h : splitOnce '@' (trim p) with
  | none => rw [normalizePrincipal_of_none h, trim_trim]
  | some x =>
    obtain ⟨l, r⟩ := x
    rw [normalizePrincipal_of_split h]
    refine trim_qualified (fun c hc => ?_) (by rw [trim_toAsciiUppercase, trim_trim])
    rw [(splitOnce_trim h).2] at hc
    exact head_principalLocalPart hc

/-- Normalising cuts at the same first `@`. -/
theorem splitOnce_normalizePrincipal {p l r : Str} (h : splitOnce '@' (trim p) = some (l, r)) :
    splitOnce '@' (trim (normalizePrincipal p)) = some (l, toAsciiUppercase (trim r)) := by
  rw [trim_normalizePrincipal, normalizePrincipal_of_split h]
  exact splitOnce_append _ (splitOnce_eq_some_iff.mp h).2

/-- Normalising keeps the local part. -/
@[simp] theorem principalLocalPart_normalizePrincipal (p : Str) :
    principalLocalPart (normalizePrincipal p) = principalLocalPart p := by
  cases h : splitOnce '@' (trim p) with
  | none => rw [normalizePrincipal_of_none h, principalLocalPart_trim]
  | some x =>
    obtain ⟨l, r⟩ := x
    rw [← (splitOnce_trim (splitOnce_normalizePrincipal h)).2, (splitOnce_trim h).2]

/-- Normalising twice is normalising once. -/
@[simp] theorem normalizePrincipal_idem (p : Str) :
    normalizePrincipal (normalizePrincipal p) = normalizePrincipal p := by
  cases h : splitOnce '@' (trim p) with
  | none =>
    rw [normalizePrincipal_of_none h, normalizePrincipal_of_none (by rw [trim_trim, h]), trim_trim]
  | some x =>
    obtain ⟨l, r⟩ := x
    rw [normalizePrincipal_of_split (splitOnce_normalizePrincipal h), trim_toAsciiUppercase,
      trim_trim, toAsciiUppercase_idem, normalizePrincipal_of_split h]

/-- Normalising keeps the realm behind the last `@`. -/
@[simp] theorem lastRealm_normalizePrincipal (p : Str) :
    lastRealm (normalizePrincipal p) = lastRealm p := by
  cases h : splitOnce '@' (trim p) with
  | none => rw [normalizePrincipal_of_none h, lastRealm, lastRealm, trim_trim]
  | some x =>
    obtain ⟨l, r⟩ := x
    obtain ⟨hp, -⟩ := splitOnce_trim h
    -- the rest ends where the trimmed request ends, so only its front is trimmed
    have hr : trim r = r.dropWhile isWhitespace := by
      refine trim_eq_dropWhile ?_
      intro c hc
      refine (trim_eq_self_iff.mp (trim_trim p)).2 c ?_
      have hne : r ≠ [] := by
        rintro rfl
        simp at hc
      rwa [hp, List.getLast?_append_of_ne_nil _ (by simp), List.getLast?_cons_of_ne_nil hne]
    rw [lastRealm, lastRealm, trim_normalizePrincipal, normalizePrincipal_of_split h, hp,
      rsplitOnce_append_cons, rsplitOnce_append_cons, rsplitOnce_toAsciiUppercase]
    cases hsplit : rsplitOnce '@' r with
    | none =>
      have hat : '@' ∉ trim r := fun hmem => rsplitOnce_eq_none_iff.mp hsplit (mem_of_mem_trim hmem)
      rw [rsplitOnce_eq_none_iff.mpr hat]
      simp [trim_toAsciiUppercase]
    | some y =>
      obtain ⟨a, b⟩ := y
      obtain ⟨hab, hb⟩ := rsplitOnce_eq_some_iff.mp hsplit
      have hdrop : (a ++ '@' :: b).dropWhile isWhitespace
          = a.dropWhile isWhitespace ++ '@' :: b := by
        rw [List.dropWhile_append]
        split
        · rename_i hnil
          rw [List.isEmpty_iff.mp hnil]
          rfl
        · rfl
      have htrim : rsplitOnce '@' (trim r) = some (a.dropWhile isWhitespace, b) := by
        rw [hr, hab, hdrop]
        exact rsplitOnce_eq_some_iff.mpr ⟨rfl, hb⟩
      simp [htrim, trim_toAsciiUppercase]

/-- The normal form has a realm when the principal has one. -/
@[simp] theorem principalHasRealm_normalizePrincipal (p : Str) :
    principalHasRealm (normalizePrincipal p) = principalHasRealm p := by
  rw [principalHasRealm_eq, principalHasRealm_eq, lastRealm_normalizePrincipal]

/-- The normal form is numeric when the principal is. -/
@[simp] theorem isNumericLocalPrincipal_normalizePrincipal (p : Str) :
    isNumericLocalPrincipal (normalizePrincipal p) = isNumericLocalPrincipal p := by
  rw [isNumericLocalPrincipal, isNumericLocalPrincipal, principalLocalPart_normalizePrincipal]

/-- A principal with a realm behind its last `@` has something behind its first one. -/
theorem split_of_principalHasRealm {p : Str} (h : principalHasRealm p = true) :
    ∃ l r, splitOnce '@' (trim p) = some (l, r) ∧ trim r ≠ [] := by
  obtain ⟨⟨l, r⟩, hsplit⟩ := Option.ne_none_iff_exists'.mp
    (mt splitOnce_eq_none_iff.mp (not_not.mpr (at_mem_of_principalHasRealm h)))
  refine ⟨l, r, hsplit, ?_⟩
  intro hblank
  rw [principalHasRealm_eq, lastRealm, (splitOnce_trim hsplit).1, rsplitOnce_append_cons] at h
  have hat : '@' ∉ r := fun hmem => by
    have := trim_eq_nil_iff.mp hblank '@' hmem
    revert this
    decide
  simp [rsplitOnce_eq_none_iff.mpr hat, hblank, toAsciiUppercase] at h

/-- A request whose realm is not blank is canonical once it is normalised. -/
theorem canonicalizePrincipal_of_split {p l r : Str} (realm : Str)
    (h : splitOnce '@' (trim p) = some (l, r)) (hr : trim r ≠ []) :
    canonicalizePrincipal p realm = normalizePrincipal p := by
  have hnorm : normalizePrincipal (trim p) = normalizePrincipal p := by
    rw [normalizePrincipal, normalizePrincipal, trim_trim]
  rw [canonicalizePrincipal, h]
  simp only [hr, if_false, hnorm, ite_self]

/-- The realm that a classification reads off. -/
theorem classifiedRealm_eq (p : Str) : (match rsplitOnce '@' (trim p) with
    | some (_, r) => toAsciiUppercase (trim r)
    | none => []) = (lastRealm p).getD [] := by
  rw [lastRealm]
  cases rsplitOnce '@' (trim p) <;> rfl

/-- A principal has an `@` exactly when a realm, be it empty, can be read off it. -/
theorem at_mem_trim_iff {p : Str} : '@' ∈ trim p ↔ (lastRealm p).isSome = true := by
  rw [lastRealm, Option.isSome_map, ← Option.ne_none_iff_isSome, ne_eq, rsplitOnce_eq_none_iff,
    not_not]

/-- Classification looks at the local part and at the realm behind the last `@` only. -/
theorem classifyPrincipal_congr {p p' : Str} (hl : principalLocalPart p = principalLocalPart p')
    (hr : lastRealm p = lastRealm p') (realm : Str) (variants : List Str) :
    classifyPrincipal p realm variants = classifyPrincipal p' realm variants := by
  simp only [classifyPrincipal, principalLocalPart_trim, classifiedRealm_eq, at_mem_trim_iff, hl, hr]

/-- No realm is behind the last `@`, or the configured one. -/
def NoForeignRealm (p realm : Str) : Prop :=
  ∀ r ∈ lastRealm p, r = [] ∨ r = toAsciiUppercase (trim realm)

/-- Without a foreign realm, classification looks at the local part only. -/
theorem classifyPrincipal_of_noForeignRealm {p p' realm : Str}
    (hl : principalLocalPart p = principalLocalPart p') (h : NoForeignRealm p realm)
    (h' : NoForeignRealm p' realm) (variants : List Str) :
    classifyPrincipal p realm variants = classifyPrincipal p' realm variants := by
  have hnot : ∀ {q : Str}, NoForeignRealm q realm → ¬ (toAsciiUppercase (trim realm) ≠ [] ∧
      (lastRealm q).isSome = true ∧ (lastRealm q).getD [] ≠ [] ∧
        (lastRealm q).getD [] ≠ toAsciiUppercase (trim realm)) := by
    rintro q hq ⟨-, hsome, hne, hforeign⟩
    obtain ⟨r, hr⟩ := Option.isSome_iff_exists.mp hsome
    rw [hr] at hne hforeign
    rcases hq r hr with rfl | rfl
    · exact hne rfl
    · exact hforeign rfl
  simp only [classifyPrincipal, principalLocalPart_trim, classifiedRealm_eq, at_mem_trim_iff, hl,
    if_neg (hnot h), if_neg (hnot h')]

end NfsKlldap
