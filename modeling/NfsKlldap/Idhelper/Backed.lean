import NfsKlldap.Idhelper.GroupCalls
import NfsKlldap.Idhelper.RealmGuard

/-! # Group answers and the group stores

Ganesha is told the gids of a user over the socket, and `getgrouplist` reads them from the member
lists of the group stores. Both should agree: what was once told for a user should stay listed for
it, whatever is asked for others afterwards.

A call for another principal may rewrite the stores from the cache, and the rewrite empties the row
of a gid that the private-group stub of an earlier entry takes. The repairs that follow are those of
the caller, so they bring back nobody else.

* **`runCalls`** — calls one after the other, with everything that was told;
* **`CallEffect`** — what one call does to the cache and the stores;
* **`Backed`** — the invariant, and **`backed_runCalls`** — it survives runs in which no rewrite
  meets a stub on a gid that is owed. -/

namespace NfsKlldap

open Text

/-- The calls that answer with gids. -/
inductive GroupCall where
  | resolvePrincipal (realm : Str) (variants : List Str) (request : Str)
  | resolveGidsAndMaterialize (realm : Str) (variants : List Str) (request : Str) (force : Bool)

/-- What was told: an answer and a gid that came with it. -/
abbrev Told := List (Resolved × UInt32)

namespace GroupCall

/-- The cache key of the principal that is asked for. -/
def key : GroupCall → Str
  | resolvePrincipal realm _ request => normalizePrincipal (canonicalizePrincipal (trim request) realm)
  | resolveGidsAndMaterialize realm _ request _ =>
    normalizePrincipal (canonicalizePrincipal (trim request) realm)

section

variable {σ : Type*} (env : Env σ)

/-- The state after the call. -/
def run : GroupCall → World σ → World σ
  | resolvePrincipal realm variants request, w =>
    (NfsKlldap.resolvePrincipal env realm variants request w).2
  | resolveGidsAndMaterialize realm variants request force, w =>
    (NfsKlldap.resolveGidsAndMaterialize env realm variants request force w).2

/-- The gids the call returns, with the answer they are for. The synthetic root is nobody's
principal. -/
def returned : GroupCall → World σ → Told
  | resolvePrincipal realm variants request, w =>
    let r := (NfsKlldap.resolvePrincipal env realm variants request w).1
    [(r, r.gid)]
  | resolveGidsAndMaterialize realm variants request force, w =>
    if isRootRequest request then []
    else
      (NfsKlldap.resolveGidsAndMaterialize env realm variants request force w).1.map
        ((NfsKlldap.resolvePrincipal env realm variants request w).1, ·)

/-- What the call tells for a user of a realm. -/
def told (call : GroupCall) (w : World σ) : Told :=
  (call.returned env w).filter fun t => t.1.IsRealmUser

/-- What the last rewrite of the stores in the call reads, if there is one. -/
def rewrite : GroupCall → World σ → Option (IdCache × LdapGroups)
  | resolvePrincipal realm variants request, w => principalRewrite env realm variants request w
  | resolveGidsAndMaterialize realm variants request force, w =>
    gidsRewrite env realm variants request force w

end

end GroupCall

/-- Calls one after the other, each in an environment of its own, with everything that was told. -/
def runCalls {σ : Type*} : List (Env σ × GroupCall) → Told → World σ → Told × World σ
  | [], told, w => (told, w)
  | s :: rest, told, w => runCalls rest (told ++ s.2.told s.1 w) (s.2.run s.1 w)

/-- The stores back the answer of a gid: both group stores hold a row of the gid, and every such row
lists each login of the entry that is not numeric. -/
def Disk.Backs (d : Disk) (e : Resolved) (g : UInt32) : Prop :=
  ∀ path ∈ groupStores, (∃ row ∈ (d.files path).groupRows, row.gid = g) ∧
    ∀ row ∈ (d.files path).groupRows, row.gid = g → ∀ login ∈ nssPasswdLoginsFor e,
      isNumericLogin login = false → login ∈ row.members

/-- Whether a gid is backed can be decided. -/
instance (d : Disk) (e : Resolved) (g : UInt32) : Decidable (d.Backs e g) := by
  unfold Disk.Backs
  infer_instance

/-- A user with a realm has a gid backed when all of its logins are listed under it. -/
theorem Disk.backs_iff {d : Disk} {e : Resolved} (hrealm : principalHasRealm e.principal = true)
    {g : UInt32} : d.Backs e g ↔ ∀ l ∈ emittedLogins e, d.Lists g l := by
  simp only [Disk.Backs, Disk.Lists, StoreFile.Lists, emittedLogins, List.mem_filter,
    Bool.not_eq_true', and_imp]
  constructor
  · intro h l hl hn path hpath
    exact ⟨(h path hpath).1, fun row hrow hg => (h path hpath).2 row hrow hg l hl hn⟩
  · intro h path hpath
    -- every entry of a realm has a login
    have hlogin := h _ (realmLogin_mem hrealm) (isNumericLogin_principalRealmLoginForNss hrealm)
    exact ⟨(hlogin path hpath).1, fun row hrow hg l hl hn => (h l hl hn path hpath).2 row hrow hg⟩

/-! ## Entries over calls -/

/-- The same user, perhaps with other supplemental gids and another source. -/
structure Resolved.SameUser (e r : Resolved) : Prop where
  principal : e.principal = r.principal
  name : e.name = r.name
  kind : e.kind = r.kind

/-- The same user has the same logins. -/
theorem Resolved.SameUser.emittedLogins {e r : Resolved} (h : e.SameUser r) :
    NfsKlldap.emittedLogins e = NfsKlldap.emittedLogins r := by
  simp only [NfsKlldap.emittedLogins, nssPasswdLoginsFor, h.principal, h.name, h.kind]

/-- The same user has the same key. -/
theorem Resolved.SameUser.key {e r : Resolved} (h : e.SameUser r) : e.key = r.key := by
  rw [Resolved.key, Resolved.key, h.principal]

/-- An entry that kept its fields and lost no gid. -/
structure Resolved.Kept (e e' : Resolved) : Prop where
  same : e'.SameUser e
  gid : e'.gid = e.gid
  supps : ∀ g ∈ e.supplementalGids, g ∈ e'.supplementalGids

/-- An entry that stays as it is is kept. -/
theorem Resolved.Kept.refl (e : Resolved) : e.Kept e := ⟨⟨rfl, rfl, rfl⟩, rfl, fun _ h => h⟩

/-- An entry that is kept claims no fewer gids. -/
theorem Resolved.Kept.claimedGids {e e' : Resolved} (h : e.Kept e') {g : UInt32}
    (hg : g ∈ e.claimedGids) : g ∈ e'.claimedGids := by
  rcases List.mem_cons.mp hg with rfl | hg
  · exact List.mem_cons.mpr (Or.inl h.gid.symm)
  · exact List.mem_cons.mpr (Or.inr (h.supps g hg))

/-- What one call does: the entries that were there are kept, only the one under the key is new or
changed, and its gids are listed unless nothing happened to it. Without a rewrite the stores keep
what they list. -/
structure CallEffect (fails : Nat → Bool) (key : Str) (told : Told)
    (rewrite : Option (IdCache × LdapGroups)) {σ : Type*} (w w' : World σ) : Prop where
  pruned : CachePruned w'.cache
  kept : ∀ e ∈ w.cache.values, ∃ e' ∈ w'.cache.values, e.Kept e'
  others : ∀ e ∈ w'.cache.values, e.key ≠ key → e ∈ w.cache.values
  answered : ∀ t ∈ told, ∃ e ∈ w'.cache.values, e.key = key ∧ e.SameUser t.1 ∧ t.2 ∈ e.claimedGids
  own : ∀ e ∈ w'.cache.values, e.key = key → e.IsRealmUser →
    (e ∈ w.cache.values ∧ rewrite = none ∧ ∀ t ∈ told, t.2 = e.gid) ∨
      ∀ g ∈ e.claimedGids, ∀ l ∈ emittedLogins e, w'.disk.Lists g l
  quiet : rewrite = none → w.disk.Keeps w'.disk ∧
    ∀ e ∈ w'.cache.values, ∃ e₀ ∈ w.cache.values, e₀.kind = e.kind
  rewritten : ∀ c ldap, rewrite = some (c, ldap) → c = w'.cache ∧
    ∃ d, (materializeNssWrappersAt fails c ldap d).2.Keeps w'.disk

/-- A call that leaves the cache alone and repairs the stores at most. -/
theorem CallEffect.of_eq {fails : Nat → Bool} {key : Str} {told : Told} {σ : Type*} {w w' : World σ}
    (hw : CachePruned w.cache) (hcache : w'.cache = w.cache) (hkeep : w.disk.Keeps w'.disk)
    (htold : ∀ t ∈ told, ∃ e ∈ w.cache.values, e.key = key ∧ e.SameUser t.1 ∧ t.2 = e.gid) :
    CallEffect fails key told none w w' where
  pruned := by rwa [hcache]
  kept e he := ⟨e, by rwa [hcache], .refl e⟩
  others e he _ := by rwa [hcache] at he
  answered t ht := by
    obtain ⟨e, he, hk, hsame, hg⟩ := htold t ht
    exact ⟨e, by rwa [hcache], hk, hsame, List.mem_cons.mpr (Or.inl hg)⟩
  own e he hk _ := by
    rw [hcache] at he
    refine Or.inl ⟨he, rfl, fun t ht => ?_⟩
    obtain ⟨e', he', hk', -, hg⟩ := htold t ht
    rw [hg, w.cache.eq_of_key_eq he he' (hk.trans hk'.symm)]
  quiet _ := ⟨hkeep, fun e he => ⟨e, by rwa [hcache] at he, rfl⟩⟩
  rewritten _ _ h := by simp at h

section

variable {σ : Type*} {env : Env σ} (hfails : ∀ n, env.fails n = false)

include hfails

/-- **A request for a principal.** -/
theorem PrincipalOutcome.callEffect {q : Str} {w w' : World σ} {r : Resolved}
    {rewrite : Option (IdCache × LdapGroups)} (h : PrincipalOutcome env q w r w' rewrite)
    (hw : CachePruned w.cache) :
    CallEffect env.fails (normalizePrincipal q) ([(r, r.gid)].filter fun t => t.1.IsRealmUser)
      rewrite w w' := by
  -- what is told is the gid of the answer, to a user of a realm
  have htold : ∀ t ∈ [(r, r.gid)].filter fun t => t.1.IsRealmUser, t = (r, r.gid) ∧
      r.IsRealmUser := by
    intro t ht
    obtain ⟨ht, huser⟩ := List.mem_filter.mp ht
    obtain rfl := List.mem_singleton.mp ht
    exact ⟨rfl, by simpa using huser⟩
  cases h with
  | @hit e hget =>
    obtain ⟨he, hk⟩ := KeyedMap.get?_eq_some_iff.mp hget
    refine .of_eq hw rfl (.refl _) fun t ht => ⟨e, he, hk, ?_⟩
    obtain ⟨rfl, -⟩ := htold t ht
    exact ⟨⟨rfl, rfl, rfl⟩, rfl⟩
  | rejected hnum =>
    exact .of_eq hw rfl (.refl _) fun t ht => absurd (htold t ht).2.kind (by simp [rejectedNumeric])
  | closed s =>
    exact .of_eq hw rfl (.refl _) fun t ht => absurd (htold t ht).2.kind (by simp [failClosed])
  | unfiled hget hr hrealm hsrc hopen hcache hfiles =>
    refine .of_eq hw hcache (.of_files hfiles) fun t ht => ?_
    have hyes := (htold t ht).2.realm
    rw [hr, hrealm] at hyes
    exact absurd hyes (by decide)
  | filed gids ldap d hget hr hrealm hnum hkind hsrc hopen hnone hprimary hmem hfiles =>
    have hold : ∀ e ∈ w.cache.values, e.key ≠ normalizePrincipal q :=
      KeyedMap.get?_eq_none_iff.mp hget
    have hnew : (r.withSupplementalGids (firstSupps r gids)).key = normalizePrincipal q := by
      rw [Resolved.key_withSupplementalGids, Resolved.key, hr]
    refine ⟨?_, ?_, ?_, ?_, ?_, fun h => by simp at h, ?_⟩
    · intro e he
      rcases (hmem e).mp he with he | rfl
      · exact hw e he
      · exact ⟨by rw [← hr] at hrealm; exact hrealm, Or.inr (by rw [← hr] at hnum; exact hnum)⟩
    · exact fun e he => ⟨e, (hmem e).mpr (Or.inl he), .refl e⟩
    · intro e he hk
      rcases (hmem e).mp he with he | rfl
      · exact he
      · exact absurd hnew hk
    · intro t ht
      obtain ⟨rfl, -⟩ := htold t ht
      exact ⟨_, (hmem _).mpr (Or.inr rfl), hnew, ⟨rfl, rfl, rfl⟩, List.mem_cons_self⟩
    · intro e he hk huser
      rcases (hmem e).mp he with he | rfl
      · exact absurd hk (hold e he)
      · have hku : r.kind = .user := huser.kind
        obtain ⟨-, hall⟩ := ensureMemberLogins_lists hfails hku huser.realm gids
          (materializeNssWrappersAt_lists hfails w'.cache ldap d).1
        refine Or.inr fun g hg l hl path hpath => ?_
        rw [hfiles]
        refine hall g ?_ l (List.mem_filter.mp hl).1 path hpath
        -- every gid of a fresh user was computed for it
        rcases List.mem_cons.mp hg with hg | hg
        · rw [primaryGid, hku, if_neg (by decide)] at hprimary
          exact hg ▸ hprimary
        · simp only [Resolved.withSupplementalGids, firstSupps, hku, reduceCtorEq, if_false,
            mem_mergedSupps, hnone, List.not_mem_nil, or_false] at hg
          exact hg.1
    · intro c ldap' hsome
      simp only [Option.some.injEq, Prod.mk.injEq] at hsome
      obtain ⟨rfl, rfl⟩ := hsome
      exact ⟨rfl, d, (keeps_ensureMemberLogins hfails r gids _).trans (.of_files hfiles)⟩

/-- What a group request finds after the request for its principal was answered. -/
structure Answered (q : Str) (w : World σ) (r : Resolved) (w₁ : World σ) : Prop where
  key : normalizePrincipal r.principal = normalizePrincipal q
  pruned : CachePruned w₁.cache
  old : ∀ e ∈ w.cache.values, e ∈ w₁.cache.values
  others : ∀ e ∈ w₁.cache.values, e.key ≠ normalizePrincipal q → e ∈ w.cache.values
  own : ∀ e ∈ w₁.cache.values, e.key = normalizePrincipal q → e.IsRealmUser →
    e.SameUser r ∧ e.gid = r.gid
  filed : r.IsRealmUser → ∃ e ∈ w₁.cache.values, e.key = normalizePrincipal q ∧ e.SameUser r ∧
    e.gid = r.gid
  cached : r.source = "cache".toList → w₁ = w

omit hfails in
/-- A request for a principal that does not fail closed finds its entry. -/
theorem PrincipalOutcome.answered {q : Str} {w w₁ : World σ} {r : Resolved}
    {rewrite : Option (IdCache × LdapGroups)} (h : PrincipalOutcome env q w r w₁ rewrite)
    (hw : CachePruned w.cache) (hopen : isUnresolvedFailClosed r = false) : Answered q w r w₁ := by
  cases h with
  | @hit e hget =>
    obtain ⟨he, hk⟩ := KeyedMap.get?_eq_some_iff.mp hget
    refine ⟨hk, hw, fun _ h => h, fun _ h _ => h, fun e' he' hk' _ => ?_, fun _ => ?_, fun _ => rfl⟩
    · obtain rfl := w.cache.eq_of_key_eq he' he (hk'.trans hk.symm)
      exact ⟨⟨rfl, rfl, rfl⟩, rfl⟩
    · exact ⟨e, he, hk, ⟨rfl, rfl, rfl⟩, rfl⟩
  | rejected hnum =>
    refine ⟨rfl, hw, fun _ h => h, fun _ h _ => h, fun e he hk huser => ?_, fun h => ?_, fun _ => rfl⟩
    · -- no user under the key is numeric
      have hnot := huser.not_numeric
      rw [← isNumericLocalPrincipal_normalizePrincipal, show normalizePrincipal e.principal
        = normalizePrincipal q from hk, isNumericLocalPrincipal_normalizePrincipal, hnum] at hnot
      exact absurd hnot (by decide)
    · exact absurd h.kind (by simp [rejectedNumeric])
  -- failed closed, against the assumption
  | closed s => exact absurd hopen (by simp)
  -- without a realm nothing is filed, and there was no entry before
  | unfiled hget hr hrealm hsrc _ hcache hfiles =>
    have hold : ∀ e ∈ w.cache.values, e.key ≠ normalizePrincipal q :=
      KeyedMap.get?_eq_none_iff.mp hget
    refine ⟨by rw [hr], by rwa [hcache], by rw [hcache]; exact fun _ h => h,
      by rw [hcache]; exact fun _ h _ => h, fun e he hk _ => ?_, fun h => ?_,
      fun h => absurd h hsrc⟩
    · rw [hcache] at he
      exact absurd hk (hold e he)
    · have hyes := h.realm
      rw [hr, hrealm] at hyes
      exact absurd hyes (by decide)
  -- the entry that was filed is the answer, and it is the only new one
  | filed gids ldap d hget hr hrealm hnum hkind hsrc _ hnone hprimary hmem hfiles =>
    have hold : ∀ e ∈ w.cache.values, e.key ≠ normalizePrincipal q :=
      KeyedMap.get?_eq_none_iff.mp hget
    have hnew : (r.withSupplementalGids (firstSupps r gids)).key = normalizePrincipal q := by
      rw [Resolved.key_withSupplementalGids, Resolved.key, hr]
    refine ⟨by rw [hr], fun e he => ?_, fun e he => (hmem e).mpr (Or.inl he), fun e he hk => ?_,
      fun e he hk _ => ?_, fun _ => ?_, fun h => absurd h hsrc⟩
    · rcases (hmem e).mp he with he | rfl
      · exact hw e he
      · exact ⟨by rw [← hr] at hrealm; exact hrealm, Or.inr (by rw [← hr] at hnum; exact hnum)⟩
    · rcases (hmem e).mp he with he | rfl
      · exact he
      · exact absurd hnew hk
    · rcases (hmem e).mp he with he | rfl
      · exact absurd hk (hold e he)
      · exact ⟨⟨rfl, rfl, rfl⟩, rfl⟩
    · exact ⟨_, (hmem _).mpr (Or.inr rfl), hnew, ⟨rfl, rfl, rfl⟩, rfl⟩

omit hfails in
/-- A refusal changes nothing. -/
theorem PrincipalOutcome.eq_of_closed {q : Str} {w w₁ : World σ} {r : Resolved}
    {rewrite : Option (IdCache × LdapGroups)} (h : PrincipalOutcome env q w r w₁ rewrite)
    (hclosed : isUnresolvedFailClosed r = true) : w₁.cache = w.cache ∧ w₁.disk = w.disk := by
  cases h with
  | hit hget => exact ⟨rfl, rfl⟩
  | rejected hnum => exact ⟨rfl, rfl⟩
  | closed s => exact ⟨rfl, rfl⟩
  | unfiled hget hr hrealm hsrc hopen => exact absurd (hopen.symm.trans hclosed) (by decide)
  | filed gids ldap d hget hr hrealm hnum hkind hsrc hopen =>
    exact absurd (hopen.symm.trans hclosed) (by decide)

/-- What a group request did with the gids it found for the entry of its answer: it persisted them on the
entry, wrote the stores again when it was forced or the answer was new, and listed the entry under them. -/
structure Persisted (env : Env σ) (key : Str) (r : Resolved) (force : Bool) (gids answer : List UInt32)
    (ldap : LdapGroups) (d : Disk) (w₁ w₂ : World σ) : Prop where
  primary : primaryGid r ∈ gids
  answered : ∀ g, g ∈ answer ↔ g ∈ gids ∨
    ∃ e, w₁.cache.get? key = some e ∧ g ∈ mergedSupps e gids
  cache : w₂.cache = w₁.cache.setSupps key fun e => mergedSupps e gids
  files : d.files = w₁.disk.files
  disk : w₂.disk = ensureMemberLogins env r answer
    (if force ∨ r.source ≠ "cache".toList then ensureMemberLogins env r answer
      (materializeNssWrappersAt env.fails w₂.cache ldap d).2 else d)

section Persisted

variable {q : Str} {w w₁ w₂ : World σ} {r : Resolved} {force : Bool} {gids answer : List UInt32}
  {ldap : LdapGroups} {d : Disk}

omit hfails in
/-- The entries are those that were there, with gids persisted on the one under the key. -/
theorem Persisted.mem_iff {key : Str} (hp : Persisted env key r force gids answer ldap d w₁ w₂)
    {e : Resolved} : e ∈ w₂.cache.values ↔ ∃ e₁ ∈ w₁.cache.values,
      e = if e₁.key = key then e₁.withSupplementalGids (mergedSupps e₁ gids) else e₁ := by
  rw [hp.cache, IdCache.mem_setSupps]

omit hfails in
/-- An answered gid is claimed by the entry, and the other way round. -/
theorem Persisted.mem_answer_iff {key : Str} (hp : Persisted env key r force gids answer ldap d w₁ w₂)
    {e₁ : Resolved} (he₁ : e₁ ∈ w₁.cache.values) (hk : e₁.key = key) (hgid : e₁.gid = r.gid)
    (hu : r.kind = .user) {g : UInt32} :
    g ∈ answer ↔ g ∈ (e₁.withSupplementalGids (mergedSupps e₁ gids)).claimedGids := by
  have hprimary := hp.primary
  rw [primaryGid, hu, if_neg (by decide)] at hprimary
  have hget : w₁.cache.get? key = some e₁ := KeyedMap.get?_eq_some_iff.mpr ⟨he₁, hk⟩
  rw [hp.answered, Resolved.claimedGids, List.mem_cons]
  constructor
  · rintro (hg | ⟨e, he, hg⟩)
    · by_cases hge : g = e₁.gid
      · exact Or.inl hge
      · exact Or.inr (mem_mergedSupps.mpr (Or.inl ⟨hg, hge⟩))
    · rw [hget, Option.some.injEq] at he
      exact Or.inr (he ▸ hg)
  · rintro (hg | hg)
    · exact Or.inl (by rw [show g = r.gid from hg.trans hgid]; exact hprimary)
    · exact Or.inr ⟨e₁, hget, hg⟩

omit hfails in
/-- A group request leaves the cache pruned. -/
theorem Answered.pruned_persisted (h : Answered q w r w₁)
    (hp : Persisted env (normalizePrincipal q) r force gids answer ldap d w₁ w₂) :
    CachePruned w₂.cache := by
  intro e he
  obtain ⟨e₁, he₁, rfl⟩ := hp.mem_iff.mp he
  have hpruned := h.pruned e₁ he₁
  split <;> exact hpruned

omit hfails in
/-- No entry is lost, and none loses a gid. -/
theorem Answered.kept_persisted (h : Answered q w r w₁)
    (hp : Persisted env (normalizePrincipal q) r force gids answer ldap d w₁ w₂) :
    ∀ e ∈ w.cache.values, ∃ e' ∈ w₂.cache.values, e.Kept e' := by
  intro e he
  refine ⟨_, hp.mem_iff.mpr ⟨e, h.old e he, rfl⟩, ?_⟩
  split
  · exact ⟨⟨rfl, rfl, rfl⟩, rfl, fun g hg => mem_mergedSupps.mpr (Or.inr hg)⟩
  · exact .refl e

omit hfails in
/-- The entries under other keys stay as they are. -/
theorem Answered.others_persisted (h : Answered q w r w₁)
    (hp : Persisted env (normalizePrincipal q) r force gids answer ldap d w₁ w₂) :
    ∀ e ∈ w₂.cache.values, e.key ≠ normalizePrincipal q → e ∈ w.cache.values := by
  intro e he hk
  obtain ⟨e₁, he₁, rfl⟩ := hp.mem_iff.mp he
  by_cases hk₁ : e₁.key = normalizePrincipal q
  · rw [if_pos hk₁] at hk
    exact absurd hk₁ hk
  · rw [if_neg hk₁] at hk ⊢
    exact h.others e₁ he₁ hk

omit hfails in
/-- What is told of a user is on its entry. -/
theorem Answered.answered_persisted (h : Answered q w r w₁)
    (hp : Persisted env (normalizePrincipal q) r force gids answer ldap d w₁ w₂) :
    ∀ t ∈ (answer.map (r, ·)).filter fun t => t.1.IsRealmUser, ∃ e ∈ w₂.cache.values,
      e.key = normalizePrincipal q ∧ e.SameUser t.1 ∧ t.2 ∈ e.claimedGids := by
  intro t ht
  obtain ⟨ht, huser⟩ := List.mem_filter.mp ht
  obtain ⟨g, hg, rfl⟩ := List.mem_map.mp ht
  obtain ⟨e₁, he₁, hk, hsame, hgid⟩ := h.filed (by simpa using huser)
  have hu : r.kind = .user := (of_decide_eq_true huser).kind
  refine ⟨_, hp.mem_iff.mpr ⟨e₁, he₁, rfl⟩, ?_⟩
  rw [if_pos hk]
  exact ⟨hk, ⟨hsame.principal, hsame.name, hsame.kind⟩, (hp.mem_answer_iff he₁ hk hgid hu).mp hg⟩

/-- The entry under the key is listed under all of its gids. -/
theorem Answered.lists_persisted (h : Answered q w r w₁)
    (hp : Persisted env (normalizePrincipal q) r force gids answer ldap d w₁ w₂)
    (hprints : (∃ e ∈ w.cache.values, e.kind = .user) → w.disk.PrintsGroups) :
    ∀ e ∈ w₂.cache.values, e.key = normalizePrincipal q → e.IsRealmUser →
      ∀ g ∈ e.claimedGids, ∀ l ∈ emittedLogins e, w₂.disk.Lists g l := by
  intro e he hk huser
  obtain ⟨e₁, he₁, rfl⟩ := hp.mem_iff.mp he
  have hk₁ : e₁.key = normalizePrincipal q := by
    by_contra hk₁
    rw [if_neg hk₁] at hk
    exact hk₁ hk
  rw [if_pos hk₁] at huser ⊢
  obtain ⟨hsame, hgid⟩ := h.own e₁ he₁ hk₁ ⟨huser.kind, huser.realm, huser.not_numeric⟩
  have hu : r.kind = .user := hsame.kind.symm.trans huser.kind
  have hrealm : principalHasRealm r.principal = true := hsame.principal ▸ huser.realm
  -- the group store is there: it was written just now, or when the user was first cached
  have hbase : (if force ∨ r.source ≠ "cache".toList then ensureMemberLogins env r answer
      (materializeNssWrappersAt env.fails w₂.cache ldap d).2 else d).PrintsGroups := by
    split
    · exact (keeps_ensureMemberLogins hfails r answer _).prints
        (materializeNssWrappersAt_lists hfails _ _ _).1
    · rename_i hhit
      push Not at hhit
      obtain rfl := h.cached hhit.2
      exact (Disk.Keeps.of_files hp.files).prints (hprints ⟨e₁, he₁, huser.kind⟩)
  obtain ⟨-, hall⟩ := ensureMemberLogins_lists hfails hu hrealm answer hbase
  intro g hg l hl
  rw [hp.disk]
  refine hall g ((hp.mem_answer_iff he₁ hk₁ hgid hu).mpr hg) l ?_
  have hlogins : emittedLogins (e₁.withSupplementalGids (mergedSupps e₁ gids)) = emittedLogins r :=
    Resolved.SameUser.emittedLogins ⟨hsame.principal, hsame.name, hsame.kind⟩
  rw [hlogins] at hl
  exact (List.mem_filter.mp hl).1

/-- Without a rewrite the stores keep what they list, and no entry is new. -/
theorem Answered.quiet_persisted (h : Answered q w r w₁)
    (hp : Persisted env (normalizePrincipal q) r force gids answer ldap d w₁ w₂)
    (hhit : ¬ (force ∨ r.source ≠ "cache".toList)) : w.disk.Keeps w₂.disk ∧
      ∀ e ∈ w₂.cache.values, ∃ e₀ ∈ w.cache.values, e₀.kind = e.kind := by
  have hdisk := hp.disk
  rw [if_neg hhit] at hdisk
  push Not at hhit
  obtain rfl := h.cached hhit.2
  refine ⟨?_, fun e he => ?_⟩
  · rw [hdisk]
    exact (Disk.Keeps.of_files hp.files).trans (keeps_ensureMemberLogins hfails r answer d)
  · obtain ⟨e₁, he₁, rfl⟩ := hp.mem_iff.mp he
    refine ⟨e₁, he₁, ?_⟩
    split <;> rfl

/-- A rewrite is that of the new cache, with the repairs behind it. -/
theorem Persisted.rewritten {key : Str} (hp : Persisted env key r force gids answer ldap d w₁ w₂)
    (hwrite : force ∨ r.source ≠ "cache".toList) :
    (materializeNssWrappersAt env.fails w₂.cache ldap d).2.Keeps w₂.disk := by
  rw [hp.disk, if_pos hwrite]
  exact (keeps_ensureMemberLogins hfails r answer _).trans (keeps_ensureMemberLogins hfails r answer _)

/-- **An answered group request** persists what it found on the entry of the answer and lists the
entry under all of its gids. -/
theorem Answered.callEffect (h : Answered q w r w₁)
    (hp : Persisted env (normalizePrincipal q) r force gids answer ldap d w₁ w₂)
    (hprints : (∃ e ∈ w.cache.values, e.kind = .user) → w.disk.PrintsGroups) :
    CallEffect env.fails (normalizePrincipal q)
      ((answer.map (r, ·)).filter fun t => t.1.IsRealmUser)
      (if force ∨ r.source ≠ "cache".toList then some (w₂.cache, ldap) else none) w w₂ where
  pruned := h.pruned_persisted hp
  kept := h.kept_persisted hp
  others := h.others_persisted hp
  answered := h.answered_persisted hp
  own e he hk huser := Or.inr (h.lists_persisted hfails hp hprints e he hk huser)
  quiet hnone := h.quiet_persisted hfails hp fun hwrite => by
    rw [if_pos hwrite] at hnone
    exact nomatch hnone
  rewritten c ldap' hsome := by
    by_cases hwrite : force ∨ r.source ≠ "cache".toList
    · rw [if_pos hwrite, Option.some.injEq, Prod.mk.injEq] at hsome
      obtain ⟨rfl, rfl⟩ := hsome
      exact ⟨rfl, d, hp.rewritten hfails hwrite⟩
    · rw [if_neg hwrite] at hsome
      exact nomatch hsome

end Persisted

/-- **A group request.** -/
theorem callEffect_resolveGids (realm : Str) (variants : List Str) (request : Str) (force : Bool)
    {w : World σ} (hw : CachePruned w.cache)
    (hprints : (∃ e ∈ w.cache.values, e.kind = .user) → w.disk.PrintsGroups) :
    CallEffect env.fails (normalizePrincipal (canonicalizePrincipal (trim request) realm))
      ((GroupCall.resolveGidsAndMaterialize realm variants request force).told env w)
      (gidsRewrite env realm variants request force w) w
      (resolveGidsAndMaterialize env realm variants request force w).2 := by
  have hout := principalOutcome env realm variants request hw
  generalize hq : canonicalizePrincipal (trim request) realm = q at hout ⊢
  by_cases hroot : isRootRequest request = true
  · -- nothing is told, and the login `root` is repaired at most
    have htold : (GroupCall.resolveGidsAndMaterialize realm variants request force).told env w = [] := by
      simp [GroupCall.told, GroupCall.returned, hroot]
    rw [htold, gidsRewrite, if_pos hroot]
    simp only [resolveGidsAndMaterialize, resolveGidsAndMaterializeWith, hroot, if_true]
    refine .of_eq hw rfl ?_ (by simp)
    dsimp only
    split
    · exact keeps_ensureRoot hfails _ _
    · exact .refl _
  rw [Bool.not_eq_true] at hroot
  generalize hres : resolvePrincipal env realm variants request w = res at hout
  obtain ⟨r, w₁⟩ := res
  dsimp only at hout
  -- failed closed: the answer is empty and nothing is rewritten
  by_cases hclosed : isUnresolvedFailClosed r = true
  · have hrun : resolveGidsAndMaterialize env realm variants request force w = ([], w₁) := by
      rw [resolvePrincipal] at hres
      simp only [resolveGidsAndMaterialize, resolveGidsAndMaterializeWith, hroot, hres, hclosed,
        Bool.false_eq_true, if_false, if_true]
    have htold : (GroupCall.resolveGidsAndMaterialize realm variants request force).told env w = [] := by
      simp [GroupCall.told, GroupCall.returned, hroot, hrun]
    obtain ⟨hcache, hdisk⟩ := hout.eq_of_closed hclosed
    rw [htold, gidsRewrite, hroot, hres, if_neg (by decide), if_pos hclosed, hrun]
    exact .of_eq hw hcache (.of_files (by rw [hdisk])) (by simp)
  rw [Bool.not_eq_true] at hclosed
  -- answered: what the entry guarantees, and what the request does with it
  generalize hgids : computeGidsForResolved env r request w₁.ext = found
  obtain ⟨gids, s⟩ := found
  obtain ⟨answer, w₂, d, hrun, hanswer, hcache, hfiles, hdisk⟩ :=
    resolveGids_open env realm variants force hroot hres hclosed hgids
  have hprimary : primaryGid r ∈ gids := by
    have hprimary := primaryGid_mem_computeGids env r request w₁.ext
    rwa [hgids] at hprimary
  have hfound := hout.answered hw hclosed
  rw [hfound.key] at hanswer hcache
  have heffect := hfound.callEffect hfails ⟨hprimary, hanswer, hcache, hfiles, hdisk⟩ hprints
  simp only [GroupCall.told, GroupCall.returned, gidsRewrite, hroot, hrun, hres, hclosed, hgids,
    Bool.false_eq_true, if_false]
  exact heffect

/-- **One call.** -/
theorem GroupCall.callEffect (call : GroupCall) {w : World σ} (hw : CachePruned w.cache)
    (hprints : (∃ e ∈ w.cache.values, e.kind = .user) → w.disk.PrintsGroups) :
    CallEffect env.fails call.key (call.told env w) (call.rewrite env w) w (call.run env w) := by
  cases call with
  | resolvePrincipal realm variants request =>
    exact (principalOutcome env realm variants request hw).callEffect hfails hw
  | resolveGidsAndMaterialize realm variants request force =>
    exact callEffect_resolveGids hfails realm variants request force hw hprints

end

/-! ## Runs -/

/-- The gids that are owed to a cached user: its primary one, which the next request for it is
answered with, and those that were told. -/
def owedGids (told : Told) (e : Resolved) : List UInt32 :=
  e.gid :: (told.filter fun t => t.1.key = e.key).map Prod.snd

/-- A user is owed its primary gid and the gids that were told of it. -/
theorem mem_owedGids {told : Told} {e : Resolved} {g : UInt32} :
    g ∈ owedGids told e ↔ g = e.gid ∨ ∃ t ∈ told, t.1.key = e.key ∧ t.2 = g := by
  simp [owedGids, and_assoc]

section

variable {σ : Type*}

/-- If the call rewrites the stores, no stub takes a gid that is owed to somebody else. -/
def GroupCall.Safe (env : Env σ) (call : GroupCall) (told : Told) (w : World σ) : Prop :=
  match call.rewrite env w with
  | none => True
  | some (cache, ldap) => ∀ e ∈ cache.values, e.IsRealmUser → e.key ≠ call.key →
    ∀ g ∈ owedGids told e, g ≠ 0 → ¬ StubShadowed cache ldap g

/-- Whether a call is safe can be decided. -/
instance (env : Env σ) (call : GroupCall) (told : Told) (w : World σ) :
    Decidable (call.Safe env told w) := by
  unfold GroupCall.Safe
  split <;> infer_instance

/-- Every call of the run is safe. -/
def CallsSafe : List (Env σ × GroupCall) → Told → World σ → Prop
  | [], _, _ => True
  | s :: rest, told, w =>
    s.2.Safe s.1 told w ∧ CallsSafe rest (told ++ s.2.told s.1 w) (s.2.run s.1 w)

/-- The invariant: what was told is in the cache, and what is owed to a cached user is listed in the
stores. -/
structure Backed (told : Told) (w : World σ) : Prop where
  pruned : CachePruned w.cache
  prints : (∃ e ∈ w.cache.values, e.kind = .user) → w.disk.PrintsGroups
  cached : ∀ t ∈ told, t.1.IsRealmUser ∧ ∃ e ∈ w.cache.values, e.SameUser t.1 ∧ t.2 ∈ e.claimedGids
  listed : ∀ e ∈ w.cache.values, e.IsRealmUser → ∀ g ∈ owedGids told e, g ≠ 0 →
    ∀ l ∈ emittedLogins e, w.disk.Lists g l

/-- An empty cache is backed by any stores. -/
theorem backed_of_empty {w : World σ} (h : w.cache.values = []) : Backed [] w where
  pruned e he := by simp [h] at he
  prints := by simp [h]
  cached := by simp
  listed e he := by simp [h] at he

/-- What a user is owed is claimed by its entry. -/
theorem Backed.mem_claimedGids {told : Told} {w : World σ} (h : Backed told w) {e : Resolved}
    (he : e ∈ w.cache.values) {g : UInt32} (hg : g ∈ owedGids told e) : g ∈ e.claimedGids := by
  rcases mem_owedGids.mp hg with rfl | ⟨t, ht, hk, rfl⟩
  · exact List.mem_cons_self
  · obtain ⟨-, e', he', hsame, hclaim⟩ := h.cached t ht
    rwa [w.cache.eq_of_key_eq he he' (hk.symm.trans hsame.key.symm)]

/-- **One call keeps the invariant.** -/
theorem Backed.run {told : Told} {w : World σ} (h : Backed told w) {env : Env σ}
    (hfails : ∀ n, env.fails n = false) {call : GroupCall} (hsafe : call.Safe env told w) :
    Backed (told ++ call.told env w) (call.run env w) := by
  have heffect := call.callEffect hfails h.pruned h.prints
  have htold : ∀ t ∈ call.told env w, t.1.IsRealmUser :=
    fun t ht => of_decide_eq_true (List.mem_filter.mp ht).2
  -- an entry of the new cache claims what it is owed
  have hcached : ∀ t ∈ told ++ call.told env w, t.1.IsRealmUser ∧
      ∃ e ∈ (call.run env w).cache.values, e.SameUser t.1 ∧ t.2 ∈ e.claimedGids := by
    intro t ht
    rcases List.mem_append.mp ht with ht | ht
    · obtain ⟨huser, e, he, hsame, hclaim⟩ := h.cached t ht
      obtain ⟨e', he', hkept⟩ := heffect.kept e he
      exact ⟨huser, e', he', ⟨hkept.same.principal.trans hsame.principal,
        hkept.same.name.trans hsame.name, hkept.same.kind.trans hsame.kind⟩,
        hkept.claimedGids hclaim⟩
    · obtain ⟨e, he, -, hsame, hclaim⟩ := heffect.answered t ht
      exact ⟨htold t ht, e, he, hsame, hclaim⟩
  have hprints : (∃ e ∈ (call.run env w).cache.values, e.kind = .user) →
      (call.run env w).disk.PrintsGroups := by
    rintro ⟨e, he, hk⟩
    cases hrewrite : call.rewrite env w with
    | none =>
      obtain ⟨hkeep, hold⟩ := heffect.quiet hrewrite
      obtain ⟨e₀, he₀, hk₀⟩ := hold e he
      exact hkeep.prints (h.prints ⟨e₀, he₀, hk₀.trans hk⟩)
    | some input =>
      obtain ⟨-, d, hkeep⟩ := heffect.rewritten input.1 input.2 hrewrite
      exact hkeep.prints (materializeNssWrappersAt_lists hfails _ _ _).1
  refine ⟨heffect.pruned, hprints, hcached, ?_⟩
  intro e he huser g hg hg0 l hl
  -- what was owed before the call stays listed when nothing was rewritten
  have hquiet : call.rewrite env w = none → e ∈ w.cache.values → g ∈ owedGids told e →
      (call.run env w).disk.Lists g l := by
    intro hrewrite hold hgold
    exact (heffect.quiet hrewrite).1.disk_lists (h.prints ⟨e, hold, huser.kind⟩)
      (h.listed e hold huser g hgold hg0 l hl)
  by_cases hk : e.key = call.key
  · rcases heffect.own e he hk huser with ⟨hold, hrewrite, hgids⟩ | hall
    · refine hquiet hrewrite hold (mem_owedGids.mpr ?_)
      rcases mem_owedGids.mp hg with hg | ⟨t, ht, htk, rfl⟩
      · exact Or.inl hg
      · rcases List.mem_append.mp ht with ht | ht
        · exact Or.inr ⟨t, ht, htk, rfl⟩
        · exact Or.inl (hgids t ht)
    · refine hall g ?_ l hl
      rcases mem_owedGids.mp hg with rfl | ⟨t, ht, htk, rfl⟩
      · exact List.mem_cons_self
      · obtain ⟨-, e', he', hsame, hclaim⟩ := hcached t ht
        rwa [(call.run env w).cache.eq_of_key_eq he he' (htk.symm.trans hsame.key.symm)]
  · -- the call is for somebody else, so nothing new is owed to this entry
    have hold := heffect.others e he hk
    have hgold : g ∈ owedGids told e := by
      rcases mem_owedGids.mp hg with rfl | ⟨t, ht, htk, rfl⟩
      · exact List.mem_cons_self
      · rcases List.mem_append.mp ht with ht | ht
        · exact mem_owedGids.mpr (Or.inr ⟨t, ht, htk, rfl⟩)
        · obtain ⟨e', -, hk', hsame, -⟩ := heffect.answered t ht
          exact absurd (htk.symm.trans (hsame.key.symm.trans hk')) hk
    cases hrewrite : call.rewrite env w with
    | none => exact hquiet hrewrite hold hgold
    | some input =>
      obtain ⟨cache, ldap⟩ := input
      obtain ⟨rfl, d, hkeep⟩ := heffect.rewritten cache ldap hrewrite
      rw [GroupCall.Safe, hrewrite] at hsafe
      obtain ⟨hprint, hlist⟩ := materializeNssWrappersAt_lists hfails (call.run env w).cache ldap d
      exact hkeep.disk_lists hprint (hlist e he huser g (h.mem_claimedGids hold hgold) hg0
        (hsafe e he huser hk g hgold hg0) l hl)

/-- **Runs keep the invariant.** -/
theorem backed_runCalls {steps : List (Env σ × GroupCall)} {told : Told} {w : World σ}
    (h : Backed told w) (hfails : ∀ s ∈ steps, ∀ n, s.1.fails n = false)
    (hsafe : CallsSafe steps told w) :
    Backed (runCalls steps told w).1 (runCalls steps told w).2 := by
  induction steps generalizing told w with
  | nil => exact h
  | cons s rest ih =>
    rw [List.forall_mem_cons] at hfails
    exact ih (h.run hfails.1 hsafe.1) hfails.2 hsafe.2

/-- **Group answers stay backed by the stores**: in a run of safe calls, whatever was told for a user
of a realm is listed for it in both group stores at the end. -/
theorem backs_of_told {steps : List (Env σ × GroupCall)} {w : World σ} (hstart : Backed [] w)
    (hfails : ∀ s ∈ steps, ∀ n, s.1.fails n = false) (hsafe : CallsSafe steps [] w) :
    ∀ t ∈ (runCalls steps [] w).1, t.2 ≠ 0 → (runCalls steps [] w).2.disk.Backs t.1 t.2 := by
  intro t ht hg
  have h := backed_runCalls hstart hfails hsafe
  obtain ⟨huser, e, he, hsame, -⟩ := h.cached t ht
  have heuser : e.IsRealmUser :=
    ⟨hsame.kind.trans huser.kind, by rw [hsame.principal]; exact huser.realm,
      by rw [hsame.principal]; exact huser.not_numeric⟩
  rw [Disk.backs_iff huser.realm, ← hsame.emittedLogins]
  exact h.listed e he heuser t.2 (mem_owedGids.mpr (Or.inr ⟨t, ht, hsame.key.symm, rfl⟩)) hg

/-- Whether the calls of a run are safe can be decided, one after the other. -/
instance decidableCallsSafe : (steps : List (Env σ × GroupCall)) → (told : Told) → (w : World σ) →
    Decidable (CallsSafe steps told w)
  | [], _, _ => .isTrue trivial
  | s :: rest, told, w =>
    have := decidableCallsSafe rest (told ++ s.2.told s.1 w) (s.2.run s.1 w)
    inferInstanceAs (Decidable (_ ∧ _))

end

/-! ## A group that a stub takes away

`bob` has the primary gid 1000 and is told so. Then `alice`, whose uid is 1000, is resolved for the
first time, and the rewrite empties the row. A request for `carol` instead does no harm. -/

/-- `getent` knows three users, and there is no directory. -/
def getentEnv : Env Unit :=
  { silentEnv with
    getent := fun name s =>
      (if name = "alice@R".toList then some "alice@R:x:1000:500::/:/bin/sh".toList
        else if name = "bob@R".toList then some "bob@R:x:1001:1000::/:/bin/sh".toList
        else if name = "carol@R".toList then some "carol@R:x:1002:500::/:/bin/sh".toList
        else none, s) }

/-- A group request for `bob`, then a request for somebody else. -/
def bobThen (next : Str) : List (Env Unit × GroupCall) :=
  [(getentEnv, .resolveGidsAndMaterialize "R".toList [] "bob@R".toList false),
    (getentEnv, .resolvePrincipal "R".toList [] next)]

/-- What `bob` is told. -/
def bobTold : Resolved × UInt32 :=
  (⟨"bob@R".toList, "bob".toList, 1001, 1000, .user, "sss".toList, []⟩, 1000)

/-- Nothing fails in the run about `bob`. -/
theorem fails_bobThen (next : Str) : ∀ s ∈ bobThen next, ∀ n, s.1.fails n = false := by
  intro s hs n
  rcases List.mem_pair.mp hs with rfl | rfl <;> rfl

/-- The group store after `alice` was resolved. -/
theorem nssGroup_bobThen_alice :
    (runCalls (bobThen "alice@R".toList) [] freshWorld).2.disk.files .nssGroup
      = .text ("root:x:0:root,daemon,bin\ng500:x:500:alice,alice@R\n".toList
        ++ "u1000:x:1000:\nu1001:x:1001:\n".toList) := by decide +kernel

/-- **`bob` was told 1000 and is in no row of it any more**, although the run starts from an empty
cache. -/
theorem not_backs_bob :
    Backed [] freshWorld ∧ (∀ s ∈ bobThen "alice@R".toList, ∀ n, s.1.fails n = false) ∧
      bobTold ∈ (runCalls (bobThen "alice@R".toList) [] freshWorld).1 ∧
      ¬ (runCalls (bobThen "alice@R".toList) [] freshWorld).2.disk.Backs bobTold.1 bobTold.2 := by
  refine ⟨backed_of_empty rfl, fails_bobThen _, by decide +kernel, fun h => ?_⟩
  have hrows := (h .nssGroup (by decide)).2 ⟨"u1000".toList, 1000, []⟩
    (by rw [nssGroup_bobThen_alice]; decide +kernel) rfl "bob".toList (by decide +kernel)
    (by decide)
  simp at hrows

/-- The rewrite for `carol` meets no stub on the gid of `bob`. -/
theorem callsSafe_bobThen_carol : CallsSafe (bobThen "carol@R".toList) [] freshWorld := by
  refine ⟨by decide +kernel, ?_, trivial⟩
  have htold : ([] : Told) ++ GroupCall.told getentEnv (.resolveGidsAndMaterialize "R".toList []
      "bob@R".toList false) freshWorld = [bobTold] := by decide +kernel
  have hrewrite : (GroupCall.rewrite getentEnv (.resolvePrincipal "R".toList [] "carol@R".toList)
      (GroupCall.run getentEnv (.resolveGidsAndMaterialize "R".toList [] "bob@R".toList false)
        freshWorld)).map (fun input => input.1.values)
      = some [bobTold.1, ⟨"carol@R".toList, "carol".toList, 1002, 500, .user, "sss".toList, []⟩] := by
    decide +kernel
  dsimp only
  rw [htold, GroupCall.Safe]
  split
  · trivial
  · rename_i cache ldap hsome
    rw [hsome, Option.map_some, Option.some.injEq] at hrewrite
    dsimp only at hrewrite
    -- no cached uid is a gid, so no stub takes one
    have hshadow : ¬ StubShadowed cache ldap 1000 := by
      rintro ⟨-, r, hr, -, huid, -⟩
      rw [hrewrite] at hr
      rcases List.mem_pair.mp hr with rfl | rfl <;> exact absurd huid (by decide)
    intro e he _ hk g hg _
    rw [hrewrite] at he
    rcases List.mem_pair.mp he with rfl | rfl
    · have hg1000 : g = 1000 := by
        rw [show owedGids [bobTold] bobTold.1 = [1000, 1000] by decide +kernel] at hg
        simpa using hg
      rwa [hg1000]
    · exact absurd (by decide +kernel) hk

/-- After a request for `carol` he is still listed. -/
theorem backs_of_told_bob :
    bobTold ∈ (runCalls (bobThen "carol@R".toList) [] freshWorld).1 ∧
      (runCalls (bobThen "carol@R".toList) [] freshWorld).2.disk.Backs bobTold.1 bobTold.2 := by
  have htold : bobTold ∈ (runCalls (bobThen "carol@R".toList) [] freshWorld).1 := by decide +kernel
  exact ⟨htold, backs_of_told (backed_of_empty rfl) (fails_bobThen _) callsSafe_bobThen_carol
    bobTold htold (by decide)⟩

end NfsKlldap
