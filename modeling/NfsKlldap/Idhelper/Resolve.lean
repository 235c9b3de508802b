import NfsKlldap.Idhelper.Lookup

/-! # Resolving principals (`idhelper/resolve.rs`)

`resolvePrincipal` answers a request from the cache or from the lookups, files fresh answers in the
cache and brings the NSS stores up to date; `resolveGidsAndMaterialize` answers a group request on
top of it; `refreshSupplementalNssForCachedUsers` runs the group request for every cached principal.

The three call each other in a circle: a fresh entry of unknown kind makes `resolvePrincipal` run
the refresh. The circle is opened with a parameter `refresh` and closed again below. No fresh entry
of unknown kind has a realm (`storeResolved_congr`), so the parameter is never called and the closed
functions satisfy the source's recursive equations (`resolvePrincipal_eq`). -/

namespace NfsKlldap

open Text

/-- The state of the idhelper and of what it talks to. -/
structure World (σ : Type*) where
  cache : IdCache
  disk : Disk
  ext : σ

/-! ## Answers -/

/-- `RESOLVE_FAIL_CLOSED_SOURCE`. -/
def resolveFailClosedSource : Str := "unresolved-fail-closed".toList

/-- `RESOLVE_UNRESOLVED_UID` and `RESOLVE_UNRESOLVED_GID`, distinct from root and nobody. -/
def resolveUnresolvedId : UInt32 := 0xFFFFFFFF

/-- The answer carries the fail-closed tag. -/
def isUnresolvedFailClosed (r : Resolved) : Bool := r.source = resolveFailClosedSource

/-- The answer for a realm principal that nobody knows. -/
def failClosed (principal : Str) : Resolved :=
  ⟨principal, principalLocalPart principal, resolveUnresolvedId, resolveUnresolvedId, .unknown,
    resolveFailClosedSource, []⟩

/-- What fails closed is known to. -/
@[simp] theorem isUnresolvedFailClosed_failClosed (principal : Str) :
    isUnresolvedFailClosed (failClosed principal) = true := rfl

/-- Socket response for the RESOLVE verb. -/
def formatResolveSocketLine (r : Resolved) : Str :=
  if isUnresolvedFailClosed r then "ERR unresolved principal\n".toList
  else "OK ".toList ++ ['|'].intercalate
    [r.principal, decimal r.uid, decimal r.gid, r.kind.asStr, r.source] ++ ['\n']

/-- The answer to uid/gid reverse lookups, which must not be cached as principals. -/
def rejectedNumeric (principal : Str) : Resolved :=
  ⟨principal, principalLocalPart (normalizePrincipal principal), fallbackNobodyUid,
    fallbackNobodyGid, .unknown, "rejected-numeric".toList, []⟩

/-- Machine principals map to 0:0. -/
def machineResolved (principal : Str) : Resolved :=
  ⟨principal, machineShortName principal, 0, 0, .machine, "special".toList, []⟩

/-- The answer for a principal without realm that nobody knows. -/
def nobodyFallback (principal : Str) : Resolved :=
  ⟨principal, principalLocalPart principal, fallbackNobodyUid, fallbackNobodyGid, .unknown,
    "direct".toList, []⟩

/-- The fallback to nobody does not fail closed. -/
@[simp] theorem isUnresolvedFailClosed_nobodyFallback (principal : Str) :
    isUnresolvedFailClosed (nobodyFallback principal) = false := rfl

section Resolve

variable {σ : Type*} (env : Env σ)

/-- The user path: look the principal up, else fail closed or fall back to nobody. -/
def resolveUserPath (d : Disk) (principal : Str) (s : σ) : Resolved × σ :=
  let looked := resolveViaNss env d principal s
  match looked.1 with
  | some ids =>
    let ready := env.resolverReady looked.2
    let s := if ready.1 then env.resolveGroupByGid ids.2.1.toInt32 ready.2 else ready.2
    (⟨principal, principalLocalPart principal, ids.1, ids.2.1, .user, ids.2.2, []⟩, s)
  | none =>
    if principalHasRealm principal then (failClosed principal, looked.2)
    else (nobodyFallback principal, looked.2)

/-! ## Bringing the stores up to date -/

/-- Repairs whose result is ignored, one login after the other on one gid. -/
def ensureLogins (gid : UInt32) (logins : List Str) (d : Disk) : Disk :=
  logins.foldl (fun d login => (ensureNssGroupMemberLogin env.fails gid login d).2) d

/-- Ensure login `root` appears on supplemental group rows. -/
def ensureRootOnSupplementalGroups (gids : List UInt32) (d : Disk) : Disk :=
  gids.foldl (fun d g => if g ≠ 0 then ensureLogins env g ["root".toList] d else d) d

/-- Ensure the logins of a realm user on the rows of its gids, and `root` on those of a machine. -/
def ensureMemberLogins (r : Resolved) (gids : List UInt32) (d : Disk) : Disk :=
  let logins := nssPasswdLoginsFor r
  if r.kind = .user ∧ principalHasRealm r.principal then
    let d := gids.foldl (fun d g => ensureLogins env g logins d) d
    let d := ensureLogins env r.gid [sanitizeForNss r.name] d
    match logins.find? fun l => '@' ∈ l with
    | some at_ => ensureLogins env r.gid [at_] d
    | none => d
  else if r.kind = .machine then ensureRootOnSupplementalGroups env gids d
  else d

/-- Rewrite the stores from the cache, then ensure the logins of the entry. -/
def ensureNssMaterializedFor (r : Resolved) (gids : List UInt32) (w : World σ) : World σ :=
  let ready := env.resolverReady w.ext
  let groups : LdapGroups := if ready.1 then some (env.snapshot ready.2).groups else none
  let d := (materializeNssWrappersAt env.fails w.cache groups w.disk).2
  { w with disk := ensureMemberLogins env r gids d, ext := ready.2 }

/-! ## Supplemental gids of an entry -/

/-- The supplemental gids an entry has after `gids` were found: those that are not its primary gid,
and the prior ones. -/
def mergedSupps (e : Resolved) (gids : List UInt32) : List UInt32 :=
  pushAllNew (gids.filter (· ≠ e.gid)) e.supplementalGids

/-- Rewrite the supplemental gids of the entry under a key. -/
def IdCache.setSupps (cache : IdCache) (key : Str) (f : Resolved → List UInt32) : IdCache :=
  cache.modify key (fun e => e.withSupplementalGids (f e))
    fun e => e.key_withSupplementalGids (f e)

/-- Write the cache file; the result is ignored. -/
def writeCacheFile (w : World σ) : World σ :=
  { w with disk := (writeToFile env.fails w.cache w.disk).2 }

/-- First encounter: persist the gids that were found on the inserted entry and bring the stores up
to date. -/
def persistFirst (resolved : Resolved) (supps : List UInt32 → Resolved → List UInt32)
    (w : World σ) : World σ :=
  let q := computeGidsForResolved env resolved resolved.principal w.ext
  let w := { w with ext := q.2 }
  let w :=
    match w.cache.get? (normalizePrincipal resolved.principal) with
    | some _ => writeCacheFile env
      { w with cache := w.cache.setSupps (normalizePrincipal resolved.principal) (supps q.1) }
    | none => w
  ensureNssMaterializedFor env resolved q.1 w

/-- The cache with a fresh answer in it, pruned. -/
def filedCache (cache : IdCache) (resolved : Resolved) : IdCache :=
  IdCache.pruneNumericUserEntries (IdCache.pruneMalformedPrincipals
    (if principalHasRealm resolved.principal then cache.insert resolved else cache))

/-- Bring the stores up to date with a fresh realm answer: users and machines get their
supplemental groups on first encounter, anything else is materialized when the cache changed. -/
def materializeFresh (refresh : World σ → World σ) (changed : Bool) (resolved : Resolved)
    (w : World σ) : World σ :=
  if principalHasRealm resolved.principal then
    match resolved.kind with
    | .user => persistFirst env resolved (fun gids e => mergedSupps e gids) w
    | .machine => persistFirst env resolved (fun gids e => gids.filter (· ≠ e.gid)) w
    | .unknown =>
      if changed then
        let ready := env.resolverReady w.ext
        let groups : LdapGroups := if ready.1 then some (env.snapshot ready.2).groups else none
        refresh { w with
          disk := (materializeNssWrappersAt env.fails w.cache groups w.disk).2
          ext := ready.2 }
      else w
  else w

/-- Warm SSSD and getent after a successful user resolve. -/
def warmSssd (resolved : Resolved) (w : World σ) : World σ :=
  if resolved.uid ≠ 0 ∧ resolved.uid ≠ fallbackNobodyUid then
    { w with ext := (env.getent resolved.name (env.sssCache resolved.name w.ext)).2 }
  else w

/-- File a fresh answer: insert it, prune, bring the stores and the cache file up to date, and warm
SSSD. -/
def storeResolved (refresh : World σ → World σ) (resolved : Resolved) (w : World σ) : World σ :=
  let filed := filedCache w.cache resolved
  let changed : Bool :=
    w.cache.contentFingerprint ≠ filed.contentFingerprint ∨ resolved.uid = 0
  let w := materializeFresh env refresh changed resolved { w with cache := filed }
  let w := if changed then writeCacheFile env w else w
  warmSssd env resolved w

/-! ## Requests -/

/-- A request that the cache does not answer. -/
def resolveMiss (refresh : World σ → World σ) (realm : Str) (variants : List Str) (principal : Str)
    (w : World σ) : Resolved × World σ :=
  let isMachine := (classifyPrincipal principal realm variants).1
  let answer :=
    if isMachine then (machineResolved principal, w.ext)
    else resolveUserPath env w.disk principal w.ext
  let w := { w with ext := answer.2 }
  if isUnresolvedFailClosed answer.1 then (answer.1, w)
  else (answer.1, storeResolved env refresh answer.1 w)

/-- `resolve_principal` over a given refresh. -/
def resolvePrincipalWith (refresh : World σ → World σ) (realm : Str) (variants : List Str)
    (request : Str) (w : World σ) : Resolved × World σ :=
  let principal := canonicalizePrincipal (trim request) realm
  let norm := normalizePrincipal principal
  if isNumericLocalPrincipal principal then (rejectedNumeric principal, w)
  else
    match w.cache.get? norm with
    | some existing =>
      if isNumericLocalPrincipal existing.principal then
        resolveMiss env refresh realm variants principal { w with cache := w.cache.erase norm }
      else ({ existing with source := "cache".toList }, w)
    | none => resolveMiss env refresh realm variants principal w

/-- Persist the gids found for a principal on its cache entry; the gids the entry has join the
answer. -/
def persistSupps (r : Resolved) (gids : List UInt32) (w : World σ) : List UInt32 × World σ :=
  match w.cache.get? (normalizePrincipal r.principal) with
  | some entry =>
    let supps := mergedSupps entry gids
    let w :=
      if entry.supplementalGids ≠ supps then
        writeCacheFile env { w with
          cache := w.cache.setSupps (normalizePrincipal r.principal) fun _ => supps }
      else w
    (pushAllNew gids supps, w)
  | none => (gids, w)

/-- The request is for the synthetic root. -/
def isRootRequest (request : Str) : Bool :=
  eqIgnoreAsciiCase (trim request) "root".toList || trim request = "0".toList

/-- `resolve_gids_and_materialize` over a given refresh. -/
def resolveGidsAndMaterializeWith (refresh : World σ → World σ) (realm : Str) (variants : List Str)
    (request : Str) (forceMaterialize : Bool) (w : World σ) : List UInt32 × World σ :=
  if isRootRequest request then
    let supps := rootSupplementalGidsFromCache w.cache
    let gids := mergeGroupGids machineGid supps
    let d :=
      if forceMaterialize then supps.foldl (fun d g => ensureLogins env g ["root".toList] d) w.disk
      else w.disk
    (gids, { w with disk := d })
  else
    let answer := resolvePrincipalWith env refresh realm variants request w
    let r := answer.1
    let w := answer.2
    if isUnresolvedFailClosed r then ([], w)
    else
      let q := computeGidsForResolved env r request w.ext
      let persisted := persistSupps env r q.1 { w with ext := q.2 }
      let gids := persisted.1
      let w := persisted.2
      let w :=
        if forceMaterialize ∨ r.source ≠ "cache".toList then ensureNssMaterializedFor env r gids w
        else w
      -- repairs files after any bulk clobber, also on a cache hit
      (gids, { w with disk := ensureMemberLogins env r gids w.disk })

/-- The cached principals that the refresh visits. -/
def refreshPrincipals (cache : IdCache) : List Str :=
  (cache.values.filter fun r =>
    (r.kind = .user ∨ r.kind = .machine) ∧ principalHasRealm r.principal).map Resolved.principal

/-- The refresh loop over the principals of the cache, in an order that the hash map picks. -/
def refreshWith (refresh : World σ → World σ) (order : List Str → List Str) (realm : Str)
    (variants : List Str) (w : World σ) : World σ :=
  (order (refreshPrincipals w.cache)).foldl
    (fun w p => (resolveGidsAndMaterializeWith env refresh realm variants p true w).2) w

/-! ## Closing the circle -/

/-- Resolve principals and materialize the stores when the cache changes. -/
def resolvePrincipal (realm : Str) (variants : List Str) (request : Str) (w : World σ) :
    Resolved × World σ :=
  resolvePrincipalWith env (refreshWith env id id realm variants) realm variants request w

/-- Resolve the groups of a principal and bring the stores up to date. -/
def resolveGidsAndMaterialize (realm : Str) (variants : List Str) (request : Str)
    (forceMaterialize : Bool) (w : World σ) : List UInt32 × World σ :=
  resolveGidsAndMaterializeWith env (refreshWith env id id realm variants) realm variants request
    forceMaterialize w

/-- Re-materialize supplemental rows for every cached principal. True when any of the four stores
changed on disk. -/
def refreshSupplementalNssForCachedUsers (order : List Str → List Str) (realm : Str)
    (variants : List Str) (w : World σ) : Bool × World σ :=
  let w' := refreshWith env (refreshWith env id id realm variants) order realm variants w
  (w'.disk.writes ≠ w.disk.writes, w')

/-- The refresh is not called on answers that are not of unknown kind. -/
theorem storeResolved_congr (refresh refresh' : World σ → World σ) {resolved : Resolved}
    (h : resolved.kind = .unknown → principalHasRealm resolved.principal = false) (w : World σ) :
    storeResolved env refresh resolved w = storeResolved env refresh' resolved w := by
  have hfresh : ∀ changed w, materializeFresh env refresh changed resolved w
      = materializeFresh env refresh' changed resolved w := by
    intro changed w
    unfold materializeFresh
    by_cases hrealm : principalHasRealm resolved.principal = true
    · cases hk : resolved.kind with
      | user => rfl
      | machine => rfl
      | unknown => simp [h hk] at hrealm
    · rw [if_neg hrealm, if_neg hrealm]
  simp only [storeResolved, hfresh]

/-- The answers of the user path. -/
theorem resolveUserPath_cases (d : Disk) (principal : Str) (s : σ) :
    (∃ ids, (resolveViaNss env d principal s).1 = some ids ∧
        (resolveUserPath env d principal s).1
          = ⟨principal, principalLocalPart principal, ids.1, ids.2.1, .user, ids.2.2, []⟩) ∨
      ((resolveViaNss env d principal s).1 = none ∧ principalHasRealm principal = true ∧
        (resolveUserPath env d principal s).1 = failClosed principal) ∨
      ((resolveViaNss env d principal s).1 = none ∧ principalHasRealm principal = false ∧
        (resolveUserPath env d principal s).1 = nobodyFallback principal) := by
  cases h : (resolveViaNss env d principal s).1 with
  | some ids => exact Or.inl ⟨ids, rfl, by simp only [resolveUserPath, h]⟩
  | none =>
    by_cases hrealm : principalHasRealm principal = true
    · exact Or.inr (Or.inl ⟨rfl, hrealm, by simp only [resolveUserPath, h, hrealm, if_true]⟩)
    · refine Or.inr (Or.inr ⟨rfl, by simpa using hrealm, ?_⟩)
      simp only [resolveUserPath, h, if_neg hrealm]

/-- **The refresh parameter does not matter**: no request reaches it. -/
theorem resolveMiss_congr (refresh refresh' : World σ → World σ) (realm : Str)
    (variants : List Str) (principal : Str) (w : World σ) :
    resolveMiss env refresh realm variants principal w
      = resolveMiss env refresh' realm variants principal w := by
  unfold resolveMiss
  by_cases hm : (classifyPrincipal principal realm variants).1 = true
  · simp only [hm, if_true]
    rw [storeResolved_congr env refresh refresh' (by simp [machineResolved])]
  · simp only [hm, if_false, Bool.false_eq_true]
    rcases resolveUserPath_cases env w.disk principal w.ext with
      ⟨ids, -, ha⟩ | ⟨-, -, ha⟩ | ⟨-, hrealm, ha⟩
    · rw [ha, storeResolved_congr env refresh refresh' (by simp)]
    · rw [ha, if_pos (isUnresolvedFailClosed_failClosed _),
        if_pos (isUnresolvedFailClosed_failClosed _)]
    · rw [ha, storeResolved_congr env refresh refresh' fun _ => hrealm]

/-- Which refresh a resolve is given does not matter: it never runs it. -/
theorem resolvePrincipalWith_congr (refresh refresh' : World σ → World σ) :
    resolvePrincipalWith env refresh = resolvePrincipalWith env refresh' := by
  funext realm variants request w
  simp only [resolvePrincipalWith, resolveMiss_congr env refresh refresh']

/-- The recursive equation of the source: the refresh that `resolvePrincipal` would run is the one
that visits the cache with `resolvePrincipal` itself. -/
theorem resolvePrincipal_eq (order : List Str → List Str) (realm : Str) (variants : List Str) :
    resolvePrincipal env realm variants = resolvePrincipalWith env
      (fun w => (refreshSupplementalNssForCachedUsers env order realm variants w).2) realm
      variants := by
  funext request w
  exact congrFun (congrFun (congrFun (congrFun (resolvePrincipalWith_congr env _ _) realm)
    variants) request) w

/-- One step of the refresh loop is a group request. -/
theorem refreshSupplementalNssForCachedUsers_snd (order : List Str → List Str) (realm : Str)
    (variants : List Str) (w : World σ) :
    (refreshSupplementalNssForCachedUsers env order realm variants w).2 =
      (order (refreshPrincipals w.cache)).foldl
        (fun w p => (resolveGidsAndMaterialize env realm variants p true w).2) w := rfl

/-- **The rule of the refresh loop**: what holds at first and survives a group request for a cached
principal holds at the end, provided no request takes a principal out of the cache. -/
theorem refresh_rule {order : List Str → List Str} (horder : ∀ l, (order l).Perm l) (realm : Str)
    (variants : List Str) {P : World σ → Prop} {w : World σ} (hinit : P w)
    (hstep : ∀ w, P w → ∀ e ∈ w.cache.values,
      P (resolveGidsAndMaterialize env realm variants e.principal true w).2 ∧
        ∀ x ∈ w.cache.values,
          ∃ x' ∈ (resolveGidsAndMaterialize env realm variants e.principal true w).2.cache.values,
            x'.principal = x.principal) :
    P (refreshSupplementalNssForCachedUsers env order realm variants w).2 := by
  rw [refreshSupplementalNssForCachedUsers_snd]
  have hps : ∀ p ∈ order (refreshPrincipals w.cache), ∃ e ∈ w.cache.values, e.principal = p := by
    intro p hp
    rw [(horder _).mem_iff, refreshPrincipals, List.mem_map] at hp
    obtain ⟨e, he, rfl⟩ := hp
    exact ⟨e, (List.mem_filter.mp he).1, rfl⟩
  -- induction on the principals still to visit, all of them in the cache
  generalize order (refreshPrincipals w.cache) = ps at hps
  induction ps generalizing w with
  | nil => exact hinit
  | cons p ps ih =>
    rw [List.forall_mem_cons] at hps
    obtain ⟨⟨e, he, rfl⟩, hps⟩ := hps
    obtain ⟨hP, hkept⟩ := hstep w hinit e he
    refine ih hP fun p hp => ?_
    obtain ⟨x, hx, rfl⟩ := hps p hp
    exact hkept x hx

end Resolve

end NfsKlldap
