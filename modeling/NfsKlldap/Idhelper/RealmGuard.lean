import NfsKlldap.Idhelper.ResolveSpec

/-! # The realm guard

A principal of a foreign realm must not inherit the identity of a local user with the same short
name. The resolver guards this by asking only for the full principal whenever the principal has a
realm, and by failing closed when nobody answers. The guard looks behind the **last** `@`, while the
realm of a request stands behind the **first** one, so a request like `alice@OTHER@` slips through.

* **`GuardedAnswer`**, **`GuardedGids`** — the answers that keep the guard;
* **`realmGuard_iff`** — for which foreign requests every answer keeps it. -/

namespace NfsKlldap

open Text

/-! ## Guarded answers -/

section

variable {σ : Type*} (env : Env σ)

/-- Somebody answers a lookup of the name `full`, and of no other name: `getent`, one of the passwd
stores, the test override, the directory snapshot or a live directory query. -/
inductive FullLookup (d : Disk) (full : Str) (uid gid : UInt32) : Prop where
  | getent (s : σ) (stdout : Str) (hout : (env.getent full s).1 = some stdout)
      (hids : parseGetentPasswd ((lines stdout).headD []) = some (uid, gid))
  | passwdFile (path : StorePath) (hpath : path = .extrausersPasswd ∨ path = .nssPasswd)
      (hids : lookupPasswdFile (d.files path) full = some (uid, gid))
  | forced (hids : forcedLdapUidGid env full = some (uid, gid))
  | snapshot (s : σ) (hids : snapshotIds (env.snapshot s) full = some (uid, gid))
  | live (s : σ) (hids : (uidGidFromUserResolve env full s).1 = some (uid, gid))

/-- The answers to a request for the principal `full` that keep the realm guard. A principal that
nobody knows is answered fail-closed: nothing is cached, no store is written, and the reply is an
error and not nobody. -/
inductive GuardedAnswer (full : Str) (w : World σ) : Resolved → World σ → Prop where
  | cached (e : Resolved) (hget : w.cache.get? (normalizePrincipal full) = some e) :
      GuardedAnswer full w { e with source := "cache".toList } w
  | looked (uid gid : UInt32) (src : Str) (w' : World σ)
      (hlook : FullLookup env w.disk full uid gid) :
      GuardedAnswer full w ⟨full, principalLocalPart full, uid, gid, .user, src, []⟩ w'
  | numeric (hnum : isNumericLocalPrincipal full = true) :
      GuardedAnswer full w (rejectedNumeric full) w
  | failClosed (w' : World σ) (huncached : w'.cache.get? (normalizePrincipal full) = none)
      (hcache : w'.cache = w.cache) (hdisk : w'.disk = w.disk)
      (hnobody : (failClosed full).uid ≠ fallbackNobodyUid)
      (hreply : formatResolveSocketLine (NfsKlldap.failClosed full)
        = "ERR unresolved principal\n".toList) :
      GuardedAnswer full w (NfsKlldap.failClosed full) w'

/-- The gids answered to a group request that keep the guard: nothing for a principal that fails
closed, else the primary gid of a guarded answer, gids cached for the full principal, and group
answers for the full principal (as requested or as normalised). -/
inductive GuardedGids (request full : Str) (w : World σ) (gids : List UInt32) (w' : World σ) :
    Prop where
  | failClosed (hans : GuardedAnswer env full w (failClosed full) w') (hgids : gids = [])
  | answered (r : Resolved) (w₁ : World σ) (hans : GuardedAnswer env full w r w₁)
      (hgids : ∀ g ∈ gids, g = primaryGid r ∨
        (∃ e, w.cache.get? (normalizePrincipal full) = some e ∧ g ∈ e.supplementalGids) ∨
        ∃ q s, (q = request ∨ q = full) ∧ g ∈ groupAnswers env q s)

/-! ## Lookups of realm principals -/

/-- A directory round for a realm principal asks for the full name only. -/
theorem fullLookup_of_tryResolve {d : Disk} {full : Str} {s : σ} {ids : UInt32 × UInt32}
    (hrealm : principalHasRealm full = true) (h : (tryResolve env full s).1 = some ids) :
    FullLookup env d full ids.1 ids.2 := by
  simp only [tryResolve, uidGidFromSnapshot, resolveIdentityCandidates, hrealm, Bool.not_true,
    Bool.false_eq_true, if_false, if_true, Option.or_none, Option.none_or, Option.map_none,
    ite_self, Option.map_eq_some_iff, Option.or_eq_some_iff] at h
  obtain ⟨_, ⟨ids', hids, rfl⟩ | ⟨-, ids', hids, rfl⟩, rfl⟩ := h
  · exact .snapshot s hids
  · exact .live s hids

/-- **A realm principal is looked up under its full name only.** -/
theorem fullLookup_of_resolveViaNss {d : Disk} {full : Str} {s : σ} {ids : SourcedIds}
    (htrim : trim full = full) (hrealm : principalHasRealm full = true)
    (h : (resolveViaNss env d full s).1 = some ids) : FullLookup env d full ids.1 ids.2.1 := by
  simp only [resolveViaNss, htrim, hrealm, Bool.not_true, Bool.false_eq_true, false_and,
    if_false] at h
  -- the answer of the plain sources, or else that of the directory
  split at h
  · rename_i ids' hids
    obtain rfl : ids' = ids := by simpa using h
    simp only [resolveIdentityCandidates, Option.map_none, ite_self, Option.or_none, Option.none_or,
      Option.or_eq_some_iff] at hids
    -- `getent`, one of the two files, or the answer that is forced by the environment
    rcases hids with hids | ⟨-, hids⟩
    · simp only [resolveGetent, Option.or_eq_some_iff, Option.map_eq_some_iff,
        Option.bind_eq_some_iff] at hids
      rcases hids with ⟨x, ⟨stdout, hout, hx⟩, rfl⟩ | ⟨-, ⟨x, hx, rfl⟩ | ⟨-, x, hx, rfl⟩⟩
      · exact .getent s stdout hout hx
      · exact .passwdFile .extrausersPasswd (Or.inl rfl) hx
      · exact .passwdFile .nssPasswd (Or.inr rfl) hx
    · split at hids
      · obtain ⟨x, hx, rfl⟩ := Option.map_eq_some_iff.mp hids
        exact .forced hx
      · simp at hids
  · obtain ⟨x, hx, rfl⟩ := Option.map_eq_some_iff.mp h
    -- the directory is asked for the principal as it stands, at most twice
    simp only [resolveViaStructuredLdap] at hx
    split at hx
    · simp at hx
    · split at hx
      · rename_i ids' hids
        obtain rfl : ids' = x := by simpa using hx
        exact fullLookup_of_tryResolve env hrealm hids
      · split at hx
        · rename_i ids' hids
          obtain rfl : ids' = x := by simpa using hx
          exact fullLookup_of_tryResolve env hrealm hids
        · simp at hx

/-! ## Guarded requests -/

/-- What the guard can vouch for: numeric principals, and realm principals that are not taken for a
machine. -/
def GuardCovers (realm : Str) (variants : List Str) (p : Str) : Prop :=
  isNumericLocalPrincipal p = true ∨
    (principalHasRealm p = true ∧ (classifyPrincipal p realm variants).1 = false)

/-- The answer to a request that the guard covers is guarded. -/
theorem guardedAnswer_of_covers (realm : Str) (variants : List Str) {p full : Str}
    (hfull : canonicalizePrincipal (trim p) realm = full) (htrim : trim full = full)
    (hcov : GuardCovers realm variants full) (w : World σ) :
    GuardedAnswer env full w (resolvePrincipal env realm variants p w).1
      (resolvePrincipal env realm variants p w).2 := by
  -- rejected, from the cache, or looked up
  rcases resolvePrincipal_cases env realm variants hfull w with
    ⟨hnum, h⟩ | ⟨hnum, ⟨e, hget, h⟩ | ⟨hget, h⟩⟩
  · rw [h]
    exact .numeric hnum
  · rw [h]
    exact .cached e hget
  · obtain ⟨hrealm, hclass⟩ := hcov.resolve_left (by simp [hnum])
    rw [h]
    -- the guard covers neither a machine nor a principal without a realm
    rcases resolveMiss_cases env (refreshWith env id id realm variants) realm variants full w with
      ⟨hm, -⟩ | ⟨-, ⟨ids, s, hids, hmiss⟩ | ⟨-, -, s, hmiss⟩ | ⟨hno, -⟩⟩
    · rw [hclass] at hm
      exact absurd hm (by decide)
    · rw [hmiss]
      exact .looked _ _ _ _ (fullLookup_of_resolveViaNss env htrim hrealm hids)
    · rw [hmiss]
      exact .failClosed _ hget rfl rfl (by simp [failClosed, resolveUnresolvedId,
        fallbackNobodyUid]) rfl
    · rw [hrealm] at hno
      exact absurd hno (by decide)

/-- Gids that come from the answer and from what is cached under its key afterwards are guarded. -/
theorem guardedGids_of_answer {realm : Str} {variants : List Str} {p full : Str} {force : Bool}
    {w w₁ : World σ} {r : Resolved} (hroot : isRootRequest p = false)
    (hans : resolvePrincipal env realm variants p w = (r, w₁))
    (hclosed : isUnresolvedFailClosed r = false) (hguard : GuardedAnswer env full w r w₁)
    (hsupps : r.kind = .machine → ∀ g ∈ r.supplementalGids,
      ∃ e, w.cache.get? (normalizePrincipal full) = some e ∧ g ∈ e.supplementalGids)
    (hentry : ∀ e, w₁.cache.get? (normalizePrincipal r.principal) = some e →
      ∀ g ∈ e.supplementalGids, g = primaryGid r ∨
        (∃ e, w.cache.get? (normalizePrincipal full) = some e ∧ g ∈ e.supplementalGids) ∨
        ∃ s, g ∈ groupAnswers env full s) :
    GuardedGids env p full w (resolveGidsAndMaterialize env realm variants p force w).1
      (resolveGidsAndMaterialize env realm variants p force w).2 := by
  refine .answered r w₁ hguard fun g hg => ?_
  rcases mem_resolveGids env realm variants force hroot hans hclosed hg with hg | ⟨e, he, hg⟩
  · rcases mem_computeGids env hg with hg | ⟨hk, hg⟩ | ⟨s, hg⟩
    · exact Or.inl hg
    · exact Or.inr (Or.inl (hsupps hk g hg))
    · exact Or.inr (Or.inr ⟨p, s, Or.inl rfl, hg⟩)
  · rcases hentry e he g hg with hg | hg | ⟨s, hg⟩
    · exact Or.inl hg
    · exact Or.inr (Or.inl hg)
    · exact Or.inr (Or.inr ⟨full, s, Or.inr rfl, hg⟩)

/-- The gids answered to a group request that the guard covers are guarded. -/
theorem guardedGids_of_covers (realm : Str) (variants : List Str) {p full : Str}
    (hfull : canonicalizePrincipal (trim p) realm = full) (htrim : trim full = full)
    (hat : '@' ∈ trim p) (hcov : GuardCovers realm variants full) (force : Bool) (w : World σ) :
    GuardedGids env p full w (resolveGidsAndMaterialize env realm variants p force w).1
      (resolveGidsAndMaterialize env realm variants p force w).2 := by
  have hroot := isRootRequest_of_at hat
  have hguard := guardedAnswer_of_covers env realm variants hfull htrim hcov w
  -- rejected, answered from the cache, or looked up
  rcases resolvePrincipal_cases env realm variants hfull w with
    ⟨-, h⟩ | ⟨hnum, ⟨e, hget, h⟩ | ⟨-, h⟩⟩
  · rw [h] at hguard
    exact guardedGids_of_answer env hroot h rfl hguard (by simp [rejectedNumeric])
      fun e he g hg => Or.inr (Or.inl ⟨e, he, hg⟩)
  · rw [h] at hguard
    have hkey : normalizePrincipal e.principal = normalizePrincipal full :=
      (KeyedMap.get?_eq_some_iff.mp hget).2
    exact guardedGids_of_answer env hroot h rfl hguard (fun _ g hg => ⟨e, hget, hg⟩)
      fun e' he' g hg => Or.inr (Or.inl ⟨e', by rw [← hkey]; exact he', hg⟩)
  · obtain ⟨hrealm, hclass⟩ := hcov.resolve_left (by simp [hnum])
    -- a guarded principal is no machine, so that it is found under its full name or not at all
    rcases resolveMiss_cases env (refreshWith env id id realm variants) realm variants full w with
      ⟨hm, -⟩ | ⟨-, ⟨ids, s, hids, hmiss⟩ | ⟨-, -, s, hmiss⟩ | ⟨hno, -⟩⟩
    · rw [hclass] at hm
      exact absurd hm (by decide)
    · rw [hmiss] at h
      rw [h] at hguard
      have hsrc := source_of_resolveViaNss env hids
      refine guardedGids_of_answer env hroot h ?_ hguard (by simp) ?_
      · simp only [isUnresolvedFailClosed, decide_eq_false_iff_not]
        intro hclosed
        rw [hclosed] at hsrc
        revert hsrc
        decide
      · -- the entry under the key is the answer, with gids computed for the full principal
        intro e he g hg
        obtain ⟨hmem, hkey⟩ := KeyedMap.get?_eq_some_iff.mp he
        rcases mem_storeResolved env _ (by simp) hmem with ⟨-, -, hne⟩ | ⟨-, -, supps, rfl, hsub⟩
        · exact absurd hkey (hne hrealm)
        · rcases hsub g hg with hg | hg
          · rcases mem_computeGids env hg with hg | ⟨hk, -⟩ | ⟨s', hg⟩
            · exact Or.inl hg
            · simp at hk
            · exact Or.inr (Or.inr ⟨s', hg⟩)
          · simp at hg
    · rw [hmiss] at h
      rw [h] at hguard
      rw [resolvePrincipal] at h
      simp only [resolveGidsAndMaterialize, resolveGidsAndMaterializeWith, hroot, h,
        isUnresolvedFailClosed_failClosed, Bool.false_eq_true, if_false, if_true]
      exact .failClosed hguard rfl
    · rw [hrealm] at hno
      exact absurd hno (by decide)

end

/-! ## Requests of foreign realms -/

/-- A request of a foreign realm: the text behind its first `@` is not blank and is not the
configured realm, and its local part has no machine prefix. -/
structure ForeignRequest (p realm : Str) : Prop where
  realm_ne : ∃ l r, splitOnce '@' (trim p) = some (l, r) ∧ trim r ≠ [] ∧
    toAsciiUppercase (trim r) ≠ toAsciiUppercase (trim realm)
  no_machine_prefix : hasMachinePrefix (toAsciiLowercase (principalLocalPart p)) = false

/-- The realm guard holds for a request: whatever the cache, the stores and the lookups say, the
answers to the request and to the group request for it are guarded. -/
def RealmGuarded (p realm : Str) (variants : List Str) : Prop :=
  ∀ (σ : Type) (env : Env σ) (w : World σ),
    GuardedAnswer env (normalizePrincipal p) w (resolvePrincipal env realm variants p w).1
        (resolvePrincipal env realm variants p w).2 ∧
      ∀ force, GuardedGids env p (normalizePrincipal p) w
        (resolveGidsAndMaterialize env realm variants p force w).1
        (resolveGidsAndMaterialize env realm variants p force w).2

/-- An outside world in which nobody answers. -/
def silentEnv : Env Unit where
  getent _ s := (none, s)
  sssCache _ s := s
  testForceLdapUidGid := none
  resolverReady s := (false, s)
  snapshot _ := IdMapSnapshot.empty
  loadFullIdentities s := s
  resolveUser _ s := (none, s)
  resolveGroupsForPrincipal _ s := ([], s)
  resolveGroupByGid _ s := s
  serverVariants := []
  fails _ := false

/-- An empty cache over a disk without files. -/
def freshWorld : World Unit :=
  ⟨KeyedMap.empty, ⟨fun _ => .missing, .missing, 0, 0⟩, ()⟩

/-- Without a cache entry, a guarded answer is a user that was looked up, a numeric rejection or
fails closed. -/
theorem GuardedAnswer.cases_of_uncached {σ : Type*} {env : Env σ} {full : Str} {w w' : World σ}
    {r : Resolved} (h : GuardedAnswer env full w r w')
    (hget : w.cache.get? (normalizePrincipal full) = none) :
    (r.kind = .user ∧ FullLookup env w.disk full r.uid r.gid) ∨
      isNumericLocalPrincipal full = true ∨ r = NfsKlldap.failClosed full := by
  cases h with
  | cached e he => simp [hget] at he
  | looked _ _ _ _ hlook => exact Or.inl ⟨rfl, hlook⟩
  | numeric hnum => exact Or.inr (Or.inl hnum)
  | failClosed => exact Or.inr (Or.inr rfl)

/-- **Which foreign requests the guard covers.** For a request of a foreign realm without a machine
prefix, the guard holds for every cache and every assignment of answers exactly when the local part
is a number, or the request also has a realm behind its last `@` and is not taken for a bare machine
service. -/
theorem realmGuard_iff {p realm : Str} (variants : List Str) (h : ForeignRequest p realm) :
    RealmGuarded p realm variants ↔ isNumericLocalPrincipal p = true ∨
      (principalHasRealm p = true ∧ (classifyPrincipal p realm variants).1 = false) := by
  obtain ⟨l, r, hsplit, hr, -⟩ := h.realm_ne
  have hat : '@' ∈ trim p := by
    rw [(splitOnce_trim hsplit).1]
    simp
  have hfull : canonicalizePrincipal (trim p) realm = normalizePrincipal p := by
    rw [canonicalizePrincipal_of_split realm (p := trim p) (by rwa [trim_trim]) hr,
      normalizePrincipal, normalizePrincipal, trim_trim]
  have hclass : classifyPrincipal (normalizePrincipal p) realm variants
      = classifyPrincipal p realm variants :=
    classifyPrincipal_congr (principalLocalPart_normalizePrincipal p)
      (lastRealm_normalizePrincipal p) realm variants
  have hcov : GuardCovers realm variants (normalizePrincipal p) ↔
      isNumericLocalPrincipal p = true ∨
        (principalHasRealm p = true ∧ (classifyPrincipal p realm variants).1 = false) := by
    rw [GuardCovers, isNumericLocalPrincipal_normalizePrincipal,
      principalHasRealm_normalizePrincipal, hclass]
  rw [← hcov]
  constructor
  · intro hall
    -- in a silent world the answer is already determined by the shape of the request
    obtain ⟨hguard, -⟩ := hall Unit silentEnv freshWorld
    have hcases := hguard.cases_of_uncached rfl
    rcases resolvePrincipal_cases silentEnv realm variants hfull freshWorld with
      ⟨hnum, -⟩ | ⟨-, ⟨e, hget, -⟩ | ⟨-, hmiss⟩⟩
    · exact Or.inl hnum
    · exact absurd hget (by simp [freshWorld, KeyedMap.get?])
    rcases resolveMiss_cases silentEnv (refreshWith silentEnv id id realm variants) realm variants
        (normalizePrincipal p) freshWorld with
      ⟨-, ha⟩ | ⟨hm, ⟨ids, s, hids, -⟩ | ⟨hrealm, -⟩ | ⟨-, -, s, ha⟩⟩
    · rw [hmiss, ha] at hcases
      rcases hcases with ⟨hk, -⟩ | hnum | heq
      · simp [machineResolved] at hk
      · exact Or.inl hnum
      · have hkind := congrArg Resolved.kind heq
        simp [machineResolved, failClosed] at hkind
    · have hnone : (resolveViaNss silentEnv freshWorld.disk (normalizePrincipal p)
          freshWorld.ext).1 = none := by
        simp [resolveViaNss, resolveIdentityCandidates, resolveGetent, silentEnv, freshWorld,
          lookupPasswdFile, StoreFile.readToString, forcedLdapUidGid, resolveViaStructuredLdap]
      rw [hnone] at hids
      exact absurd hids (by simp)
    · exact Or.inr ⟨hrealm, hm⟩
    · rw [hmiss, ha] at hcases
      rcases hcases with ⟨hk, -⟩ | hnum | heq
      · simp [nobodyFallback] at hk
      · exact Or.inl hnum
      · have huid := congrArg Resolved.uid heq
        simp [nobodyFallback, failClosed, fallbackNobodyUid, resolveUnresolvedId] at huid
  · intro hcov' σ env w
    exact ⟨guardedAnswer_of_covers env realm variants hfull (trim_normalizePrincipal p) hcov' w,
      fun force => guardedGids_of_covers env realm variants hfull (trim_normalizePrincipal p) hat
        hcov' force w⟩

/-! ## A request with a trailing `@` -/

/-- An outside world in which `getent` knows the local user `alice`. -/
def aliceEnv : Env Unit :=
  { silentEnv with getent := fun name s =>
      (if name = "alice".toList then some "alice:x:1000:1000::/home/alice:/bin/sh\n".toList
        else none, s) }

/-- That world has no answer for any other name. -/
theorem not_fullLookup_aliceEnv {full : Str} (h : full ≠ "alice".toList) (uid gid : UInt32) :
    ¬ FullLookup aliceEnv freshWorld.disk full uid gid := by
  rintro (⟨s, stdout, hout, -⟩ | ⟨path, -, hids⟩ | hids | ⟨s, hids⟩ | ⟨s, hids⟩)
  · simp only [aliceEnv, if_neg h] at hout
    exact absurd hout (by simp)
  · exact absurd hids (by simp [freshWorld, lookupPasswdFile, StoreFile.readToString])
  · rw [forcedLdapUidGid, show aliceEnv.testForceLdapUidGid = none from rfl] at hids
    split at hids <;> exact absurd hids (by simp)
  · rw [show aliceEnv.snapshot s = IdMapSnapshot.empty from rfl] at hids
    exact absurd hids (by simp [snapshotIds, IdMapSnapshot.empty, KeyedMap.get?])
  · rw [uidGidFromUserResolve, show aliceEnv.resolveUser full s = (none, s) from rfl] at hids
    exact absurd hids (by simp)

/-- A request with a second sign at its end is for another realm. -/
theorem foreignRequest_alice : ForeignRequest "alice@OTHER@".toList "R".toList :=
  ⟨⟨"alice".toList, "OTHER@".toList, by decide, by decide, by decide⟩, by decide⟩

/-- `alice@OTHER@` is answered with the uid of the local user `alice`. -/
theorem not_realmGuarded_alice :
    ForeignRequest "alice@OTHER@".toList "R".toList ∧
      (resolvePrincipal aliceEnv "R".toList [] "alice@OTHER@".toList freshWorld).1
        = ⟨"alice@OTHER@".toList, "alice".toList, 1000, 1000, .user, "sss".toList, []⟩ ∧
      ¬ RealmGuarded "alice@OTHER@".toList "R".toList [] := by
  have hanswer : (resolvePrincipal aliceEnv "R".toList [] "alice@OTHER@".toList freshWorld).1
      = ⟨"alice@OTHER@".toList, "alice".toList, 1000, 1000, .user, "sss".toList, []⟩ := by decide
  refine ⟨foreignRequest_alice, hanswer, ?_⟩
  intro h
  obtain ⟨hguard, -⟩ := h Unit aliceEnv freshWorld
  have hcases := hguard.cases_of_uncached rfl
  rw [hanswer] at hcases
  rcases hcases with ⟨-, hlook⟩ | hnum | heq
  · exact not_fullLookup_aliceEnv (by decide) _ _ hlook
  · revert hnum
    decide
  · have hkind : PrincipalKind.user = .unknown := congrArg Resolved.kind heq
    exact absurd hkind (by decide)

/-- Without the trailing `@` the guard holds. -/
theorem realmGuarded_alice : RealmGuarded "alice@OTHER".toList "R".toList [] := by
  refine (realmGuard_iff [] ⟨⟨"alice".toList, "OTHER".toList, by decide, by decide, by decide⟩,
    by decide⟩).mpr (Or.inr ⟨by decide, by decide⟩)

end NfsKlldap
