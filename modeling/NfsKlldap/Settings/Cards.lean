import NfsKlldap.Generate.Export
import NfsKlldap.Settings.Shares

/-! # The share cards (`share_card.html`, `build_settings_template`)

The settings page shows one card per share, and every control of a card submits one input under a
name with the index of its card. A disabled control and an unchecked box submit nothing, and a select
without a matching option falls back to its first.

A form is described by its cards in the order of their indices. What `collect` reads from it is the
cards one by one: **`collect_cards`**. -/

namespace NfsKlldap

open Text

/-! ## Controls and cards -/

/-- The controls of a share card. -/
inductive ShareControl where
  | name
  | host
  | containerPath
  | pseudo
  | security
  | rw
  | rootSquash
  | navahiInsecure
  | cacheProfile
  | enableAcl
  | manageGids
  | readAccessPolicy
  | manageGidsExpiration
  deriving DecidableEq

namespace ShareControl

/-- The field in the name of the input. -/
def field : ShareControl → String
  | name => "name"
  | host => "host"
  | containerPath => "container_path"
  | pseudo => "pseudo"
  | security => "security"
  | rw => "rw"
  | rootSquash => "root_squash"
  | navahiInsecure => "navahi_insecure"
  | cacheProfile => "cache_profile"
  | enableAcl => "enable_acl"
  | manageGids => "manage_gids"
  | readAccessPolicy => "read_access_policy"
  | manageGidsExpiration => "manage_gids_expiration"

/-- The controls other than the name. -/
def others : List ShareControl :=
  [host, containerPath, pseudo, security, rw, rootSquash, navahiInsecure, cacheProfile, enableAcl,
    manageGids, readAccessPolicy, manageGidsExpiration]

/-- Every control is the name or one of the others. -/
theorem mem_all (ctl : ShareControl) : ctl ∈ name :: others := by
  cases ctl <;> decide

/-- Two controls do not share a field name. -/
theorem field_injective {ctl ctl' : ShareControl} (h : ctl.field.toList = ctl'.field.toList) :
    ctl = ctl' := by
  cases ctl <;> cases ctl' <;> first | rfl | exact absurd h (by decide)

end ShareControl

/-- A card with what its controls submit. -/
structure ShareCard where
  idx : UInt64
  value : ShareControl → Option Str

/-- The input of a control. -/
def ShareCard.input (c : ShareCard) (ctl : ShareControl) : Option (Str × Str) :=
  (c.value ctl).map fun v => (shareInput ctl.field c.idx.toNat, v)

/-- The inputs of a card. -/
def ShareCard.inputs (c : ShareCard) : List (Str × Str) :=
  (ShareControl.name :: ShareControl.others).filterMap c.input

/-- The form submits the inputs of the cards, which stand in the order of their indices. -/
structure FormOf (form : SettingsForm) (cards : List ShareCard) : Prop where
  inputs : form.values.Perm (cards.flatMap ShareCard.inputs)
  sorted : cards.Pairwise fun c c' => c.idx.toNat < c'.idx.toNat

/-! ## Names of inputs -/

/-- The name of an input is `share_`, its field, an underscore and its number. -/
theorem shareInput_eq (field : String) (idx : Nat) :
    shareInput field idx = ("share_".toList ++ field.toList) ++ '_' :: natDecimal idx := by
  unfold shareInput
  exact List.append_assoc _ _ _

/-- The index stands behind the last underscore. -/
theorem rsplitOnce_shareInput (field : String) (idx : Nat) :
    rsplitOnce '_' (shareInput field idx) =
      some ("share_".toList ++ field.toList, natDecimal idx) := by
  rw [shareInput_eq]
  refine rsplitOnce_eq_some_iff.mpr ⟨rfl, ?_⟩
  exact not_mem_natDecimal (c := '_') (by decide) idx

/-- **Two inputs of one name are the same control of the same card.** -/
theorem shareInput_injective {field field' : String} {idx idx' : Nat}
    (h : shareInput field idx = shareInput field' idx') :
    field.toList = field'.toList ∧ idx = idx' := by
  have heq := congrArg (rsplitOnce '_') h
  rw [rsplitOnce_shareInput, rsplitOnce_shareInput] at heq
  simp only [Option.some.injEq, Prod.mk.injEq, List.append_cancel_left_eq] at heq
  exact ⟨heq.1, natDecimal_injective heq.2⟩

/-- The name input of a card gives the card's number back. -/
theorem shareNameIdx_name {idx : Nat} (h : idx < 2 ^ 64) :
    shareNameIdx (shareInput ShareControl.name.field idx) = some idx :=
  parseBits_natDecimal h

/-- No other control is taken for a name input. -/
theorem shareNameIdx_of_ne {ctl : ShareControl} (h : ctl ∈ ShareControl.others) (idx : Nat) :
    shareNameIdx (shareInput ctl.field idx) = none := by
  cases ctl <;> first | rfl | exact absurd h (by decide)

/-! ## What a form submits -/

section Fields

variable {form : SettingsForm} {cards : List ShareCard} {c : ShareCard}

/-- The inputs of a card are those of its controls that have a value. -/
theorem mem_inputs {name v : Str} : (name, v) ∈ c.inputs ↔
    ∃ ctl, c.value ctl = some v ∧ shareInput ctl.field c.idx.toNat = name := by
  simp only [ShareCard.inputs, List.mem_filterMap, ShareCard.input, Option.map_eq_some_iff,
    Prod.mk.injEq]
  constructor
  · rintro ⟨ctl, -, w, hw, hname, rfl⟩
    exact ⟨ctl, hw, hname⟩
  · rintro ⟨ctl, hw, hname⟩
    exact ⟨ctl, ctl.mem_all, v, hw, hname, rfl⟩

/-- Cards with one index are one card. -/
theorem FormOf.eq_of_idx_eq (h : FormOf form cards) {c' : ShareCard} (hc : c ∈ cards)
    (hc' : c' ∈ cards) (heq : c.idx.toNat = c'.idx.toNat) : c = c' := by
  refine List.inj_on_of_nodup_map (f := fun c : ShareCard => c.idx.toNat) ?_ hc hc' heq
  exact List.pairwise_map.mpr (h.sorted.imp fun hlt => hlt.ne)

/-- A form of cards answers a name with the input of that name, whatever card it is on. -/
theorem formStr_eq_some_iff (h : FormOf form cards) {name v : Str} :
    formStr form name = some v ↔ ∃ c ∈ cards, (name, v) ∈ c.inputs := by
  rw [formStr, Option.map_eq_some_iff]
  constructor
  · rintro ⟨⟨x, w⟩, hx, rfl⟩
    obtain ⟨hmem, rfl⟩ := KeyedMap.get?_eq_some_iff.mp hx
    exact List.mem_flatMap.mp (h.inputs.mem_iff.mp hmem)
  · intro hc
    refine ⟨(name, v), KeyedMap.get?_eq_some_iff.mpr ⟨?_, rfl⟩, rfl⟩
    exact h.inputs.mem_iff.mpr (List.mem_flatMap.mpr hc)

/-- The input of a control is that of its card. -/
theorem shareField_control (h : FormOf form cards) (hc : c ∈ cards) (ctl : ShareControl) :
    shareField form ctl.field c.idx.toNat = c.value ctl := by
  refine Option.ext fun v => ?_
  rw [shareField, formStr_eq_some_iff h]
  constructor
  · rintro ⟨c', hc', hmem⟩
    obtain ⟨ctl', hv, hname⟩ := mem_inputs.mp hmem
    obtain ⟨hfield, hidx⟩ := shareInput_injective hname
    rw [h.eq_of_idx_eq hc hc' hidx.symm, ← ShareControl.field_injective hfield]
    exact hv
  · intro hv
    exact ⟨c, hc, mem_inputs.mpr ⟨ctl, hv, rfl⟩⟩

/-- A field without a control is not submitted. -/
theorem shareField_no_control (h : FormOf form cards) {field : String}
    (hfield : ∀ ctl : ShareControl, ctl.field.toList ≠ field.toList) (idx : Nat) :
    shareField form field idx = none := by
  refine Option.eq_none_iff_forall_ne_some.mpr fun v hv => ?_
  obtain ⟨c, -, hmem⟩ := (formStr_eq_some_iff h).mp hv
  obtain ⟨ctl, -, hname⟩ := mem_inputs.mp hmem
  exact hfield ctl (shareInput_injective hname).1

end Fields

/-! ## The share of a card -/

/-- A text that is not blank. -/
def nonblank (v : Option Str) : Option Str := v.filter fun v => !isBlank v

/-- The share a card stands for; a card without a name, a host path or a container path is
skipped. -/
def ShareCard.share (c : ShareCard) : Option Share :=
  let name := trim ((c.value .name).getD [])
  let host := trim ((c.value .host).getD [])
  let containerPath := trim ((c.value .containerPath).getD [])
  if name = [] ∨ host = [] ∨ containerPath = [] then none
  else
    some
      { name
        hostPath := host
        containerPath
        pseudoPath := nonblank (c.value .pseudo)
        security := nonblank (c.value .security)
        rw := some (((c.value .rw).map fun v => decide (trim v = "true".toList)).getD true)
        squash :=
          some (if (c.value .rootSquash).isSome then "root_squash".toList
            else "no_root_squash".toList)
        cacheProfile := some ((nonblank (c.value .cacheProfile)).getD "Default".toList)
        enableAcl := (c.value .enableAcl).bind parseTriBool
        manageGids := (c.value .manageGids).bind parseTriBool
        readAccessPolicy := (c.value .readAccessPolicy).bind fun v =>
          if trim v = "pre".toList then some "pre".toList
          else if trim v = "post".toList then some "post".toList
          else none
        manageGidsExpiration :=
          (c.value .manageGidsExpiration).bind fun v => parseU64 (trim v)
        navahiInsecure := (c.value .navahiInsecure).map fun _ => true }

section Collect

variable {form : SettingsForm} {cards : List ShareCard}

/-- The row of a card. -/
def cardRow (form : SettingsForm) (c : ShareCard) : Option ShareFormRow :=
  (c.value .name).bind fun v => shareFormRow form c.idx.toNat v

/-- The row of a card has the card's number. -/
theorem idx_of_cardRow {c : ShareCard} {r : ShareFormRow} (h : cardRow form c = some r) :
    r.idx = c.idx.toNat := by
  obtain ⟨v, -, hr⟩ := Option.bind_eq_some_iff.mp h
  simp only [shareFormRow] at hr
  split at hr
  · cases hr
  · cases hr
    rfl

/-- **A card's row becomes the share the card shows.** -/
theorem toShare_cardRow (h : FormOf form cards) {c : ShareCard} (hc : c ∈ cards) :
    (cardRow form c).map ShareFormRow.toShare = c.share := by
  unfold cardRow ShareCard.share
  cases hname : c.value .name with
  -- without a name the card makes no row
  | none => simp [trim]
  | some v =>
    -- the fields of the controls are read at their values
    have hfield : ∀ ctl : ShareControl, shareField form ctl.field c.idx.toNat = c.value ctl :=
      shareField_control h hc
    -- three fields have no control on the page
    have hsource : shareField form "source_path" c.idx.toNat = none :=
      shareField_no_control h (fun ctl => by cases ctl <;> decide) _
    have hread : shareField form "pref_read" c.idx.toNat = none :=
      shareField_no_control h (fun ctl => by cases ctl <;> decide) _
    have hwrite : shareField form "pref_write" c.idx.toNat = none :=
      shareField_no_control h (fun ctl => by cases ctl <;> decide) _
    have hhost : shareField form "host" c.idx.toNat = c.value .host := hfield .host
    have hcontainer : shareField form "container_path" c.idx.toNat =
        c.value .containerPath := hfield .containerPath
    have hpseudo : shareField form "pseudo" c.idx.toNat = c.value .pseudo := hfield .pseudo
    have hsecurity : shareField form "security" c.idx.toNat = c.value .security := hfield .security
    have hrw : shareField form "rw" c.idx.toNat = c.value .rw := hfield .rw
    have hsquash : shareField form "root_squash" c.idx.toNat =
        c.value .rootSquash := hfield .rootSquash
    have hnavahi : shareField form "navahi_insecure" c.idx.toNat =
        c.value .navahiInsecure := hfield .navahiInsecure
    have hprofile : shareField form "cache_profile" c.idx.toNat =
        c.value .cacheProfile := hfield .cacheProfile
    have hacl : shareField form "enable_acl" c.idx.toNat = c.value .enableAcl := hfield .enableAcl
    have hgids : shareField form "manage_gids" c.idx.toNat =
        c.value .manageGids := hfield .manageGids
    have hpolicy : shareField form "read_access_policy" c.idx.toNat =
        c.value .readAccessPolicy := hfield .readAccessPolicy
    have hexp : shareField form "manage_gids_expiration" c.idx.toNat =
        c.value .manageGidsExpiration := hfield .manageGidsExpiration
    simp only [Option.bind_some, shareFormRow, shareFieldNonblank, hhost, hcontainer, hpseudo,
      hsecurity, hrw, hsquash, hnavahi, hprofile, hacl, hgids, hpolicy, hexp, hsource, hread, hwrite,
      Option.getD_some]
    split
    · rfl
    · rfl

/-- The inputs of a card make one row at most. -/
theorem filterMap_inputs (form : SettingsForm) (c : ShareCard) :
    (c.inputs.filterMap fun input =>
      (shareNameIdx input.1).bind fun idx => shareFormRow form idx input.2) =
      (cardRow form c).toList := by
  have hothers : (ShareControl.others.filterMap fun ctl => (c.input ctl).bind fun input =>
      (shareNameIdx input.1).bind fun idx => shareFormRow form idx input.2) = [] := by
    refine List.filterMap_eq_nil_iff.mpr fun ctl hctl => ?_
    rw [ShareCard.input, Option.bind_map]
    refine Option.bind_eq_none_iff.mpr fun v _ => ?_
    rw [Function.comp_apply, shareNameIdx_of_ne hctl, Option.bind_none]
  rw [ShareCard.inputs, List.filterMap_filterMap, List.filterMap_cons, hothers, ShareCard.input,
    cardRow]
  cases hname : c.value .name with
  | none => rfl
  | some v =>
    rw [Option.map_some, Option.bind_some, Option.bind_some,
      shareNameIdx_name c.idx.toNat_lt, Option.bind_some]
    cases shareFormRow form c.idx.toNat v <;> rfl

/-- **The cards one by one**: collection reads the share of each card, in the order of their
indices. -/
theorem collect_cards (h : FormOf form cards) :
    collectSharesFromStructuredForm form = cards.filterMap ShareCard.share := by
  have hperm : (shareFormRows form).Perm (cards.filterMap (cardRow form)) := by
    have hflat := h.inputs.filterMap fun input : Str × Str =>
      (shareNameIdx input.1).bind fun idx => shareFormRow form idx input.2
    rw [List.filterMap_flatMap] at hflat
    simp only [filterMap_inputs] at hflat
    rwa [List.filterMap_eq_flatMap_toList]
  have hsorted : (cards.filterMap (cardRow form)).Pairwise fun r r' => r.idx < r'.idx := by
    refine List.pairwise_filterMap.mpr (h.sorted.imp fun hlt r hr r' hr' => ?_)
    rw [idx_of_cardRow hr, idx_of_cardRow hr']
    exact hlt
  have hnodup : ((shareFormRows form).map ShareFormRow.idx).Nodup :=
    (hperm.map _).nodup_iff.mpr (List.pairwise_map.mpr (hsorted.imp fun hlt => hlt.ne))
  rw [collectSharesFromStructuredForm, insertionSort_eq_of_perm hperm hnodup,
    List.Pairwise.insertionSort_eq (hsorted.imp fun hlt => hlt.le), List.map_filterMap]
  exact List.filterMap_congr fun c hc => toShare_cardRow h hc

end Collect

/-! ## Rendering -/

/-- What a card shows of a share; chips and warnings are left out. -/
structure ShareTemplateRow where
  idx : Nat
  name : Str
  hostPath : Str
  pseudoPath : Str
  pseudoEditable : Bool
  containerPath : Str
  security : Str
  rw : Bool
  rootSquash : Bool
  cacheProfile : Str
  enableAcl : Str
  manageGids : Str
  readAccessPolicy : Str
  manageGidsExpiration : Option UInt64
  navahiInsecure : Bool
  navahiGlobal : Bool

/-- The texts of a tri-state select. -/
def triText : Option Bool → Str
  | some true => "true".toList
  | some false => "false".toList
  | none => "auto".toList

/-- The row of a share (`build_settings_template`). -/
def shareTemplateRow (caps : Str → AclProbeVerdict) (cfg : NfsKlldapConfig) (doc : Document)
    (idx : Nat) (s : Share) : ShareTemplateRow where
  idx := idx
  name := s.name
  hostPath := s.hostPath
  pseudoPath :=
    if sharePseudoPathExplicitInRaw doc idx then sharePseudoPathFromRaw doc idx
    else deriveSharePseudo s
  pseudoEditable := effectiveEnableAcl caps s
  containerPath := s.containerPath
  security := s.security.getD []
  rw := s.rw.getD true
  rootSquash := s.squash = some "root_squash".toList
  cacheProfile := (nonblank s.cacheProfile).getD (inferProfileFromPrefs s.prefRead s.prefWrite)
  enableAcl := triText s.enableAcl
  manageGids := triText s.manageGids
  readAccessPolicy :=
    if s.readAccessPolicy = some "pre".toList then "pre".toList
    else if s.readAccessPolicy = some "post".toList then "post".toList
    else "auto".toList
  manageGidsExpiration := s.manageGidsExpiration
  navahiInsecure := s.navahiInsecure = some true
  navahiGlobal := cfg.navahiDiscovery

/-- The value of a select: the option that is marked, or the first one. -/
def selectValue (options : List Str) (v : Str) : Str :=
  if v ∈ options then v else options.headD []

/-- What the card of a row submits when nobody touches it (`share_card.html`). -/
def ShareTemplateRow.value (r : ShareTemplateRow) : ShareControl → Option Str
  | .name => some r.name
  | .host => some r.hostPath
  | .containerPath => some r.containerPath
  | .pseudo => if r.pseudoEditable then some r.pseudoPath else none
  | .security => some (selectValue ([] :: allowedSectypes) r.security)
  | .rw => some (if r.rw then "true".toList else "false".toList)
  | .rootSquash => if r.rootSquash then some "on".toList else none
  | .navahiInsecure => if r.navahiGlobal && r.navahiInsecure then some "on".toList else none
  | .cacheProfile => some (selectValue cacheProfiles r.cacheProfile)
  | .enableAcl =>
    some (selectValue ["auto".toList, "true".toList, "false".toList] r.enableAcl)
  | .manageGids =>
    some (selectValue ["auto".toList, "true".toList, "false".toList] r.manageGids)
  | .readAccessPolicy =>
    some (selectValue ["auto".toList, "pre".toList, "post".toList] r.readAccessPolicy)
  | .manageGidsExpiration => some ((r.manageGidsExpiration.map fun n => natDecimal n.toNat).getD [])

/-- The rows of the page. -/
def shareTemplateRows (caps : Str → AclProbeVerdict) (cfg : NfsKlldapConfig) (doc : Document) :
    List ShareTemplateRow :=
  cfg.shares.mapIdx (shareTemplateRow caps cfg doc)

end NfsKlldap
