import NfsKlldap.Idhelper.GroupStore
import NfsKlldap.Idhelper.Membership
import NfsKlldap.Idhelper.ResolveSpec

/-! # What a request does to the group stores

A request either leaves the group stores to repairs, which only add members, or it ends with a
rewrite of the stores from the cache and repairs after it. `principalRewrite` and `gidsRewrite` say
which of the two, and what the rewrite reads.

* **`ensureMemberLogins_lists`** — the repairs for a user list its logins under every gid;
* **`materializeNssWrappersAt_lists`** — a rewrite lists every user under the gids it claims, unless
  a stub takes the gid;
* **`principalOutcome`** — the five ways a request for a principal ends;
* **`resolveGids_open`** — what a group request adds to an answered request. -/

namespace NfsKlldap

open Text

/-! ## Repairs one after the other -/

/-- Steps that keep what is listed, each listing something of its own, list all of it. -/
theorem Disk.Keeps.foldl {α : Type*} {f : Disk → α → Disk} {P : α → UInt32 → Str → Prop}
    {s : List α} (hstep : ∀ d : Disk, d.PrintsGroups → ∀ a ∈ s, d.Keeps (f d a) ∧
      ∀ g l, P a g l → (f d a).Lists g l) {d : Disk} (hd : d.PrintsGroups) :
    d.Keeps (s.foldl f d) ∧ ∀ a ∈ s, ∀ g l, P a g l → (s.foldl f d).Lists g l := by
  induction s generalizing d with
  | nil => exact ⟨.refl d, by simp⟩
  | cons a s ih =>
    obtain ⟨hkeep, hown⟩ := hstep d hd a List.mem_cons_self
    obtain ⟨hrest, hall⟩ := ih (fun d hd b hb => hstep d hd b (List.mem_cons_of_mem a hb))
      (hkeep.prints hd)
    refine ⟨hkeep.trans hrest, List.forall_mem_cons.mpr ⟨fun g l hl => ?_, hall⟩⟩
    exact hrest.disk_lists (hkeep.prints hd) (hown g l hl)

section

variable {σ : Type*} {env : Env σ} (hfails : ∀ n, env.fails n = false)

include hfails

/-- The logins are listed under the gid afterwards. -/
theorem ensureLogins_lists (gid : UInt32) {s : List Str} (hlogins : ∀ l ∈ s, IsSaneLogin l)
    {d : Disk} (hd : d.PrintsGroups) : d.Keeps (ensureLogins env gid s d) ∧
      ∀ l ∈ s, (ensureLogins env gid s d).Lists gid l := by
  obtain ⟨hkeep, hall⟩ := Disk.Keeps.foldl (P := fun login g l => g = gid ∧ l = login)
    (fun d hd login hlogin => by
      obtain ⟨hkeep, hlist⟩ := ensureNssGroupMemberLogin_lists hfails gid hd (hlogins login hlogin)
      refine ⟨hkeep, ?_⟩
      rintro g l ⟨rfl, rfl⟩
      exact hlist) hd
  exact ⟨hkeep, fun l hl => hall l hl gid l ⟨rfl, rfl⟩⟩

/-- **The repairs for a user** list its logins under every gid. -/
theorem ensureMemberLogins_lists {r : Resolved} (hk : r.kind = .user)
    (hrealm : principalHasRealm r.principal = true) (gids : List UInt32) {d : Disk}
    (hd : d.PrintsGroups) : d.Keeps (ensureMemberLogins env r gids d) ∧
      ∀ g ∈ gids, ∀ l ∈ nssPasswdLoginsFor r, (ensureMemberLogins env r gids d).Lists g l := by
  have hsane : ∀ l ∈ nssPasswdLoginsFor r, IsSaneLogin l := by
    intro l hl
    rcases isSaneLogin_or_local hrealm hl with h | ⟨h, -⟩
    · exact h
    · exact absurd (hk.symm.trans h) (by decide)
  obtain ⟨hkeep, hall⟩ := Disk.Keeps.foldl
    (f := fun d g => ensureLogins env g (nssPasswdLoginsFor r) d)
    (P := fun gid g l => g = gid ∧ l ∈ nssPasswdLoginsFor r) (s := gids)
    (fun d hd gid _ => by
      obtain ⟨hkeep, hlist⟩ := ensureLogins_lists hfails gid hsane hd
      refine ⟨hkeep, ?_⟩
      rintro g l ⟨rfl, hl⟩
      exact hlist l hl) hd
  -- two more repairs follow, and neither takes anything away
  obtain ⟨hkeep₁, -⟩ := ensureLogins_lists hfails r.gid (s := [sanitizeForNss r.name])
    (by simpa using isSaneLogin_sanitizeForNss r.name) (hkeep.prints hd)
  have hkeep₂ := hkeep.trans hkeep₁
  simp only [ensureMemberLogins, hk, hrealm, and_self, if_true]
  cases hat : (nssPasswdLoginsFor r).find? fun l => '@' ∈ l with
  | none =>
    refine ⟨hkeep₂, fun g hg l hl => ?_⟩
    exact hkeep₁.disk_lists (hkeep.prints hd) (hall g hg g l ⟨rfl, hl⟩)
  | some at_ =>
    obtain ⟨hkeep₃, -⟩ := ensureLogins_lists hfails r.gid (s := [at_])
      (by simpa using hsane at_ (List.mem_of_find?_eq_some hat)) (hkeep₂.prints hd)
    refine ⟨hkeep₂.trans hkeep₃, fun g hg l hl => ?_⟩
    exact hkeep₃.disk_lists (hkeep₂.prints hd)
      (hkeep₁.disk_lists (hkeep.prints hd) (hall g hg g l ⟨rfl, hl⟩))

/-- Repairs of the login `root` take no member away. -/
theorem keeps_ensureRoot (gids : List UInt32) (d : Disk) :
    d.Keeps (gids.foldl (fun d g => ensureLogins env g ["root".toList] d) d) := by
  have hroot : ∀ l ∈ ["root".toList], IsSaneLogin l := by simpa using isSaneLogin_root
  refine .of_prints fun hd => (Disk.Keeps.foldl (P := fun _ _ _ => False) ?_ hd).1
  intro d hd g _
  exact ⟨(ensureLogins_lists hfails g hroot hd).1, fun _ _ h => h.elim⟩

/-- **Repairs take no member away.** -/
theorem keeps_ensureMemberLogins (r : Resolved) (gids : List UInt32) (d : Disk) :
    d.Keeps (ensureMemberLogins env r gids d) := by
  have hroot : ∀ l ∈ ["root".toList], IsSaneLogin l := by simpa using isSaneLogin_root
  by_cases huser : r.kind = .user ∧ principalHasRealm r.principal
  · exact .of_prints fun hd => (ensureMemberLogins_lists hfails huser.1 huser.2 gids hd).1
  · simp only [ensureMemberLogins, if_neg huser]
    split
    · refine .of_prints fun hd => (Disk.Keeps.foldl (P := fun _ _ _ => False) ?_ hd).1
      intro d hd g _
      refine ⟨?_, fun _ _ h => h.elim⟩
      split
      · exact (ensureLogins_lists hfails g hroot hd).1
      · exact .refl d
    · exact .refl d

end

/-! ## Rewrites -/

/-- A user with a realm whose local part is not a number. -/
structure Resolved.IsRealmUser (r : Resolved) : Prop where
  kind : r.kind = .user
  realm : principalHasRealm r.principal = true
  not_numeric : isNumericLocalPrincipal r.principal = false

/-- Whether a principal is a user of a realm can be decided. -/
instance (r : Resolved) : Decidable r.IsRealmUser :=
  decidable_of_iff (r.kind = .user ∧ principalHasRealm r.principal = true ∧
    isNumericLocalPrincipal r.principal = false)
    ⟨fun h => ⟨h.1, h.2.1, h.2.2⟩, fun h => ⟨h.kind, h.realm, h.not_numeric⟩⟩

section

variable {σ : Type*} {env : Env σ} (hfails : ∀ n, env.fails n = false)

include hfails

/-- **A rewrite** lists every user under the gids it claims, unless a stub takes the gid. -/
theorem materializeNssWrappersAt_lists (cache : IdCache) (ldap : LdapGroups) (d : Disk) :
    (materializeNssWrappersAt env.fails cache ldap d).2.PrintsGroups ∧
      ∀ e ∈ cache.values, e.IsRealmUser → ∀ g ∈ e.claimedGids, g ≠ 0 → ¬ StubShadowed cache ldap g →
        ∀ l ∈ emittedLogins e, (materializeNssWrappersAt env.fails cache ldap d).2.Lists g l := by
  obtain ⟨b, d', hrun, hholds⟩ := materializeNssWrappersAt_of_not_fails env.fails hfails cache ldap d
  rw [hrun]
  have hprints : ∀ path ∈ groupStores, (d'.files path).Prints (buildNssRows cache ldap).2 := by
    intro path hpath
    simp only [groupStores, List.mem_cons, List.not_mem_nil, or_false] at hpath
    rcases hpath with rfl | rfl
    · exact ⟨hholds.nssGroup, fun f hf => isSaneGroup_of_mem_buildNssRows hf⟩
    · exact ⟨hholds.extrausersGroup, fun f hf => isSaneGroup_of_mem_buildNssRows hf⟩
  refine ⟨fun path hpath => ⟨_, hprints path hpath⟩, ?_⟩
  intro e he huser g hg hg0 hshadow l hl path hpath
  obtain ⟨hrow, hall⟩ := membershipComplete_iff_rows.mp ((membershipComplete_iff he huser.realm
    huser.kind huser.not_numeric hg0 hg).mpr hshadow)
  exact (hprints path hpath).lists_iff.mpr ⟨hrow, fun f hf hfg => hall f hf hfg l hl⟩

end

/-! ## Requests for a principal -/

section

variable {σ : Type*} (env : Env σ)

/-- The directory groups that a rewrite reads. -/
def rewriteGroups (s : σ) : LdapGroups :=
  let ready := env.resolverReady s
  if ready.1 then some (env.snapshot ready.2).groups else none

/-- The answer of a request that the cache does not have. -/
def missAnswer (realm : Str) (variants : List Str) (principal : Str) (w : World σ) : Resolved × σ :=
  if (classifyPrincipal principal realm variants).1 then (machineResolved principal, w.ext)
  else resolveUserPath env w.disk principal w.ext

/-- What the rewrite of the stores reads that a request for a principal ends with, if there is
one. -/
def principalRewrite (realm : Str) (variants : List Str) (request : Str) (w : World σ) :
    Option (IdCache × LdapGroups) :=
  let q := canonicalizePrincipal (trim request) realm
  if isNumericLocalPrincipal q ∨ (w.cache.get? (normalizePrincipal q)).isSome then none
  else
    let answer := missAnswer env realm variants q w
    if isUnresolvedFailClosed answer.1 ∨ !principalHasRealm q then none
    else some ((resolvePrincipal env realm variants request w).2.cache,
      rewriteGroups env (computeGidsForResolved env answer.1 answer.1.principal answer.2).2)

/-- The supplemental gids that a fresh answer is filed with. -/
def firstSupps (r : Resolved) (gids : List UInt32) : List UInt32 :=
  if r.kind = .machine then gids.filter (· ≠ r.gid) else mergedSupps r gids

/-- A cache of realm entries whose users are not numeric: what the prunes leave. -/
def CachePruned (cache : IdCache) : Prop :=
  ∀ e ∈ cache.values, principalHasRealm e.principal = true ∧
    (e.kind = .machine ∨ isNumericLocalPrincipal e.principal = false)

/-- The ways a request for the principal `q` ends: with an answer, a new state, and the input of a
rewrite when there was one. -/
inductive PrincipalOutcome (q : Str) (w : World σ) :
    Resolved → World σ → Option (IdCache × LdapGroups) → Prop where
  /-- The cache has the principal. -/
  | hit {e : Resolved} (hget : w.cache.get? (normalizePrincipal q) = some e) :
    PrincipalOutcome q w { e with source := "cache".toList } w none
  /-- A reverse lookup. -/
  | rejected (hnum : isNumericLocalPrincipal q = true) :
    PrincipalOutcome q w (rejectedNumeric q) w none
  /-- Nobody knows the realm principal. -/
  | closed (s : σ) : PrincipalOutcome q w (failClosed q) { w with ext := s } none
  /-- An answer for a principal without a realm, which is not cached. -/
  | unfiled {r : Resolved} {w' : World σ} (hget : w.cache.get? (normalizePrincipal q) = none)
    (hr : r.principal = q) (hrealm : principalHasRealm q = false) (hsrc : r.source ≠ "cache".toList)
    (hopen : isUnresolvedFailClosed r = false) (hcache : w'.cache = w.cache)
    (hfiles : w'.disk.files = w.disk.files) : PrincipalOutcome q w r w' none
  /-- A machine or a user was filed with its gids. -/
  | filed {r : Resolved} {w' : World σ} (gids : List UInt32) (ldap : LdapGroups) (d : Disk)
    (hget : w.cache.get? (normalizePrincipal q) = none) (hr : r.principal = q)
    (hrealm : principalHasRealm q = true) (hnum : isNumericLocalPrincipal q = false)
    (hkind : r.kind = .user ∨ r.kind = .machine) (hsrc : r.source ≠ "cache".toList)
    (hopen : isUnresolvedFailClosed r = false) (hnone : r.supplementalGids = [])
    (hprimary : primaryGid r ∈ gids)
    (hmem : ∀ e, e ∈ w'.cache.values ↔ e ∈ w.cache.values ∨
      e = r.withSupplementalGids (firstSupps r gids))
    (hfiles : w'.disk.files = (ensureMemberLogins env r gids
      (materializeNssWrappersAt env.fails w'.cache ldap d).2).files) :
    PrincipalOutcome q w r w' (some (w'.cache, ldap))

/-- The fresh answers. -/
theorem missAnswer_cases (realm : Str) (variants : List Str) (q : Str) (w : World σ) :
    (missAnswer env realm variants q w).1 = failClosed q ∨
      ((missAnswer env realm variants q w).1.principal = q ∧
        (missAnswer env realm variants q w).1.source ≠ "cache".toList ∧
        isUnresolvedFailClosed (missAnswer env realm variants q w).1 = false ∧
        (missAnswer env realm variants q w).1.supplementalGids = [] ∧
        (principalHasRealm q = true → (missAnswer env realm variants q w).1.kind = .user ∨
          (missAnswer env realm variants q w).1.kind = .machine)) := by
  rw [missAnswer]
  split
  · have hsrc : "special".toList ≠ "cache".toList := by decide
    exact Or.inr ⟨rfl, hsrc, rfl, rfl, fun _ => Or.inr rfl⟩
  · rcases resolveUserPath_cases env w.disk q w.ext with
      ⟨ids, hids, ha⟩ | ⟨-, -, ha⟩ | ⟨-, hno, ha⟩
    · have hsrc := source_of_resolveViaNss env hids
      rw [ha]
      refine Or.inr ⟨rfl, ?_, ?_, rfl, fun _ => Or.inl rfl⟩
      · intro h
        rw [show ids.2.2 = "cache".toList from h] at hsrc
        revert hsrc
        decide
      · rw [isUnresolvedFailClosed, decide_eq_false_iff_not]
        intro h
        rw [show ids.2.2 = resolveFailClosedSource from h] at hsrc
        revert hsrc
        decide
    · exact Or.inl ha
    · have hsrc : "direct".toList ≠ "cache".toList := by decide
      rw [ha]
      exact Or.inr ⟨rfl, hsrc, rfl, rfl, fun h => absurd (hno.symm.trans h) (by decide)⟩

/-- A pruned cache is filed as it is. -/
theorem filedCache_of_pruned {cache : IdCache} (h : CachePruned cache) {r : Resolved}
    (hnum : isNumericLocalPrincipal r.principal = false) :
    filedCache cache r = if principalHasRealm r.principal then cache.insert r else cache := by
  have hprune : ∀ c : IdCache, CachePruned c → c.pruneMalformedPrincipals.pruneNumericUserEntries = c := by
    intro c hc
    refine KeyedMap.ext ?_
    simp only [IdCache.pruneNumericUserEntries, IdCache.pruneMalformedPrincipals,
      KeyedMap.values_retain, List.filter_filter]
    refine List.filter_eq_self.mpr fun e he => ?_
    obtain ⟨hrealm, hkind⟩ := hc e he
    simpa [hrealm] using hkind
  rw [filedCache]
  split
  · rename_i hr
    refine hprune _ fun e he => ?_
    rcases KeyedMap.mem_insert.mp he with ⟨he, -⟩ | rfl
    · exact h e he
    · exact ⟨hr, Or.inr hnum⟩
  · exact hprune _ h

/-- The first encounter ends with a rewrite of the stores and repairs. -/
theorem persistFirst_disk (r : Resolved) (supps : List UInt32 → Resolved → List UInt32)
    (w : World σ) : ∃ d, (persistFirst env r supps w).disk
      = ensureMemberLogins env r (computeGidsForResolved env r r.principal w.ext).1
        (materializeNssWrappersAt env.fails (persistFirst env r supps w).cache
          (rewriteGroups env (computeGidsForResolved env r r.principal w.ext).2) d).2 := by
  simp only [persistFirst]
  cases w.cache.get? (normalizePrincipal r.principal) <;> exact ⟨_, rfl⟩

/-- Warming SSSD and writing the cache file leave the cache and the stores alone. -/
theorem storeResolved_frame (refresh : World σ → World σ) (r : Resolved) (w : World σ) :
    ∃ changed, (storeResolved env refresh r w).cache
        = (materializeFresh env refresh changed r { w with cache := filedCache w.cache r }).cache ∧
      (storeResolved env refresh r w).disk.files
        = (materializeFresh env refresh changed r
          { w with cache := filedCache w.cache r }).disk.files := by
  have hwarm : ∀ w : World σ, (warmSssd env r w).disk = w.disk := by
    intro w
    unfold warmSssd
    split <;> rfl
  refine ⟨decide (w.cache.contentFingerprint ≠ (filedCache w.cache r).contentFingerprint ∨ r.uid = 0),
    ?_, ?_⟩
  · simp only [storeResolved, warmSssd_cache]
    split <;> rfl
  · simp only [storeResolved, hwarm]
    split
    · exact (writeToFile_stores _ _ _).1
    · rfl

/-- **Filing a machine or a user of a realm** adds one entry and ends with a rewrite of the stores
and repairs. -/
theorem storeResolved_filed (refresh : World σ → World σ) {r : Resolved} {w : World σ}
    (hw : CachePruned w.cache) (hget : w.cache.get? r.key = none)
    (hrealm : principalHasRealm r.principal = true)
    (hnum : isNumericLocalPrincipal r.principal = false)
    (hkind : r.kind = .user ∨ r.kind = .machine) :
    (∀ e, e ∈ (storeResolved env refresh r w).cache.values ↔ e ∈ w.cache.values ∨
        e = r.withSupplementalGids
          (firstSupps r (computeGidsForResolved env r r.principal w.ext).1)) ∧
      ∃ d, (storeResolved env refresh r w).disk.files
        = (ensureMemberLogins env r (computeGidsForResolved env r r.principal w.ext).1
          (materializeNssWrappersAt env.fails (storeResolved env refresh r w).cache
            (rewriteGroups env (computeGidsForResolved env r r.principal w.ext).2) d).2).files := by
  obtain ⟨changed, hcache, hfiles⟩ := storeResolved_frame env refresh r w
  have hfiled : filedCache w.cache r = w.cache.insert r := by
    rw [filedCache_of_pruned hw hnum, if_pos hrealm]
  have hold : ∀ e ∈ w.cache.values, e.key ≠ r.key := KeyedMap.get?_eq_none_iff.mp hget
  rw [hfiles, hcache]
  simp only [materializeFresh, hrealm, if_true, hfiled]
  -- the entry under the key is the fresh one
  have hmem : ∀ f : Resolved → List UInt32, ∀ e,
      e ∈ (IdCache.setSupps (w.cache.insert r) r.key f).values ↔
      e ∈ w.cache.values ∨ e = r.withSupplementalGids (f r) := by
    intro f e
    rw [IdCache.mem_setSupps]
    constructor
    · rintro ⟨e₀, he₀, rfl⟩
      rcases KeyedMap.mem_insert.mp he₀ with ⟨he₀, hk⟩ | rfl
      · rw [if_neg hk]
        exact Or.inl he₀
      · rw [if_pos rfl]
        exact Or.inr rfl
    · rintro (he | rfl)
      · exact ⟨e, KeyedMap.mem_insert.mpr (Or.inl ⟨he, hold e he⟩), by rw [if_neg (hold e he)]⟩
      · exact ⟨r, KeyedMap.mem_insert.mpr (Or.inr rfl), by rw [if_pos rfl]⟩
  rcases hkind with hk | hk
  · simp only [hk, persistFirst_cache, firstSupps, reduceCtorEq, if_false]
    obtain ⟨d, hd⟩ := persistFirst_disk env r (fun gids e => mergedSupps e gids)
      { w with cache := w.cache.insert r }
    refine ⟨hmem _, d, ?_⟩
    rw [hd, persistFirst_cache]
  · simp only [hk, persistFirst_cache, firstSupps, if_true]
    obtain ⟨d, hd⟩ := persistFirst_disk env r (fun gids e => gids.filter (· ≠ e.gid))
      { w with cache := w.cache.insert r }
    refine ⟨hmem _, d, ?_⟩
    rw [hd, persistFirst_cache]

/-- The primary gid is among the computed ones. -/
theorem primaryGid_mem_computeGids (r : Resolved) (q : Str) (s : σ) :
    primaryGid r ∈ (computeGidsForResolved env r q s).1 := by
  simp only [computeGidsForResolved, primaryGid]
  split
  · split <;> exact mem_pushAllNew.mpr (Or.inl (List.mem_singleton_self _))
  · split <;> exact mem_pushAllNew.mpr (Or.inl (List.mem_singleton_self _))

/-- **A request for a principal** ends in one of the five ways. -/
theorem principalOutcome (realm : Str) (variants : List Str) (request : Str) {w : World σ}
    (hw : CachePruned w.cache) :
    PrincipalOutcome env (canonicalizePrincipal (trim request) realm) w
      (resolvePrincipal env realm variants request w).1
      (resolvePrincipal env realm variants request w).2
      (principalRewrite env realm variants request w) := by
  generalize hq : canonicalizePrincipal (trim request) realm = q
  simp only [principalRewrite, hq]
  -- a numeric request, a hit in the cache, or a miss that asks the sources
  rcases resolvePrincipal_cases env realm variants hq w with
    ⟨hnum, hres⟩ | ⟨hnum, ⟨e, hget, hres⟩ | ⟨hget, hres⟩⟩
  · rw [hres, if_pos (Or.inl hnum)]
    exact .rejected hnum
  · rw [hres, if_pos (Or.inr (by rw [hget]; rfl))]
    exact .hit hget
  · rw [if_neg (by rw [hnum, hget]; decide)]
    have hmiss : resolveMiss env (refreshWith env id id realm variants) realm variants q w
        = if isUnresolvedFailClosed (missAnswer env realm variants q w).1 then
            ((missAnswer env realm variants q w).1,
              { w with ext := (missAnswer env realm variants q w).2 })
          else ((missAnswer env realm variants q w).1,
            storeResolved env (refreshWith env id id realm variants)
              (missAnswer env realm variants q w).1
              { w with ext := (missAnswer env realm variants q w).2 }) := rfl
    rw [hres, hmiss]
    -- a miss ends in the closed answer or in an identity that some source gave
    rcases missAnswer_cases env realm variants q w with
      hclosed | ⟨hr, hsrc, hopen, hnone, hkind⟩
    · rw [hclosed, if_pos (isUnresolvedFailClosed_failClosed q),
        if_pos (Or.inl (isUnresolvedFailClosed_failClosed q))]
      exact .closed _
    · rw [if_neg (by rw [hopen]; decide)]
      -- only a principal with a realm is filed
      by_cases hrealm : principalHasRealm q = true
      · rw [if_neg (by rw [hopen, hrealm]; decide)]
        generalize missAnswer env realm variants q w = answer at hr hsrc hopen hnone hkind
        obtain ⟨r, s⟩ := answer
        dsimp only at hr hsrc hopen hnone hkind ⊢
        subst hr
        obtain ⟨hmem, d, hfiles⟩ := storeResolved_filed env (refreshWith env id id realm variants)
          (w := { w with ext := s }) hw hget hrealm hnum (hkind hrealm)
        exact .filed _ _ d hget rfl hrealm hnum (hkind hrealm) hsrc hopen hnone
          (primaryGid_mem_computeGids env r _ s) hmem hfiles
      · have hno : principalHasRealm q = false := by simpa using hrealm
        rw [if_pos (Or.inr (by rw [hno]; rfl))]
        generalize missAnswer env realm variants q w = answer at hr hsrc hopen hnone hkind
        obtain ⟨r, s⟩ := answer
        dsimp only at hr hsrc hopen hnone hkind ⊢
        subst hr
        obtain ⟨changed, hcache, hfiles⟩ := storeResolved_frame env
          (refreshWith env id id realm variants) r { w with ext := s }
        refine .unfiled hget rfl hno hsrc hopen ?_ ?_
        · rw [hcache]
          simp only [materializeFresh, hno, Bool.false_eq_true, if_false]
          rw [filedCache_of_pruned hw hnum, if_neg hrealm]
        · rw [hfiles]
          simp only [materializeFresh, hno, Bool.false_eq_true, if_false]

/-! ## Group requests -/

/-- What the last rewrite of the stores reads in a group request, if there is one. -/
def gidsRewrite (realm : Str) (variants : List Str) (request : Str) (force : Bool) (w : World σ) :
    Option (IdCache × LdapGroups) :=
  if isRootRequest request then none
  else
    let answer := resolvePrincipal env realm variants request w
    if isUnresolvedFailClosed answer.1 then none
    else if force ∨ answer.1.source ≠ "cache".toList then
      some ((resolveGidsAndMaterialize env realm variants request force w).2.cache,
        rewriteGroups env (computeGidsForResolved env answer.1 request answer.2.ext).2)
    else none

/-- The gids of the answer: those computed for it, and what the cache has after they were
persisted. -/
theorem mem_persistSupps {r : Resolved} {gids : List UInt32} {w : World σ} {g : UInt32} :
    g ∈ (persistSupps env r gids w).1 ↔ g ∈ gids ∨
      ∃ e, w.cache.get? (normalizePrincipal r.principal) = some e ∧ g ∈ mergedSupps e gids := by
  unfold persistSupps
  cases hget : w.cache.get? (normalizePrincipal r.principal) with
  | none => simp
  | some e => simp

/-- **An answered group request** persists the gids it found, rewrites the stores unless the answer
came from the cache, and repairs them. -/
theorem resolveGids_open (realm : Str) (variants : List Str) {request : Str} (force : Bool)
    {w w₁ : World σ} {r : Resolved} {gids : List UInt32} {s : σ} (hroot : isRootRequest request = false)
    (hres : resolvePrincipal env realm variants request w = (r, w₁))
    (hopen : isUnresolvedFailClosed r = false)
    (hgids : computeGidsForResolved env r request w₁.ext = (gids, s)) :
    ∃ answer w₂ d, resolveGidsAndMaterialize env realm variants request force w = (answer, w₂) ∧
      (∀ g, g ∈ answer ↔ g ∈ gids ∨
        ∃ e, w₁.cache.get? (normalizePrincipal r.principal) = some e ∧ g ∈ mergedSupps e gids) ∧
      w₂.cache = w₁.cache.setSupps (normalizePrincipal r.principal) (fun e => mergedSupps e gids) ∧
      d.files = w₁.disk.files ∧
      w₂.disk = ensureMemberLogins env r answer
        (if force ∨ r.source ≠ "cache".toList then ensureMemberLogins env r answer
          (materializeNssWrappersAt env.fails w₂.cache (rewriteGroups env s) d).2 else d) := by
  -- the request as one equation, with the three steps after the answer in their order
  have hrun : resolveGidsAndMaterialize env realm variants request force w
      = ((persistSupps env r gids { w₁ with ext := s }).1,
        let w₂ := (persistSupps env r gids { w₁ with ext := s }).2
        let answer := (persistSupps env r gids { w₁ with ext := s }).1
        let w₃ :=
          if force ∨ r.source ≠ "cache".toList then ensureNssMaterializedFor env r answer w₂ else w₂
        { w₃ with disk := ensureMemberLogins env r answer w₃.disk }) := by
    rw [resolvePrincipal] at hres
    simp only [resolveGidsAndMaterialize, resolveGidsAndMaterializeWith, hroot, hres, hopen, hgids,
      Bool.false_eq_true, if_false]
  -- filing the gids asks the outside nothing
  have hext : (persistSupps env r gids { w₁ with ext := s }).2.ext = s := by
    unfold persistSupps
    split
    · dsimp only
      split <;> rfl
    · rfl
  refine ⟨_, _, (persistSupps env r gids { w₁ with ext := s }).2.disk, hrun,
    fun g => mem_persistSupps env, ?_, (persistSupps_disk env r gids { w₁ with ext := s }).1, ?_⟩
  · rw [← persistSupps_cache env r gids { w₁ with ext := s }]
    dsimp only
    split <;> rfl
  · dsimp only
    split
    · simp only [ensureNssMaterializedFor, hext]
      rfl
    · rfl

end

end NfsKlldap
