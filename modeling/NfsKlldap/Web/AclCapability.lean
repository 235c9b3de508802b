import NfsKlldap.Ldap.Resolver
import NfsKlldap.Lib.LastWrite
import NfsKlldap.Lib.Runs
import NfsKlldap.Web.AclGate

/-! # The cache of the write probe (`acl_capability.rs`)

The write probe is run once for a mount and its verdict is kept. A lookup classifies the mount anew
from the mount table of its request, takes the kept verdict if it was found out on the same filesystem
and is young enough, and otherwise runs the probe and keeps what it says. The lock is not held while
the probe runs, so other requests ask, file and drop verdicts in between. Every filing sweeps out what
is older than eight lifetimes.

* **`verdictCached`** — a lookup, in one piece;
* **`Serving.step`** — lookups of many requests, in any order;
* **`verdictCached_eq`** — a lookup is the gate's, with the kept verdicts for what it knows;
* **`ask_iff_recalled`** — what is answered without a probe is what the last probe of the mount said
  since the verdicts were dropped, and the sweeps never show. -/

namespace NfsKlldap

open Text LastWrite Runs

/-- A verdict, and what it was found out on. -/
structure CacheEntry where
  verdict : AclProbeVerdict
  fstype : Str
  options : List Str
  probeDir : Str
  probedAt : Nat
  deriving DecidableEq

/-- Mount-keyed cache of write-probe verdicts. -/
structure AclCapabilityCache where
  entries : PairMap Str CacheEntry
  /-- A thread panicked while it held the lock for writing. -/
  poisoned : Bool
  /-- How long a verdict is kept, in seconds. -/
  ttl : Nat

/-- What a lookup asks for. -/
structure CapabilityLookup where
  caps : FsCapabilities
  mountRoot : Option Str
  probeDir : Str
  skipWriteProbe : Bool
  forceRefresh : Bool
  deriving DecidableEq

/-- `INCONCLUSIVE_TTL`, in nanoseconds. -/
def inconclusiveTtl : Nat := 30 * 10 ^ 9

namespace AclCapabilityCache

/-- `value` is `NFS_KLLDAP_ACL_PROBE_TTL_SECS`. -/
def newFromEnv (value : Option Str) : AclCapabilityCache where
  entries := KeyedMap.empty
  poisoned := false
  ttl := (value.bind (parseBits 64)).getD 300

/-- `invalidate_all`; a poisoned lock is left alone. -/
def invalidateAll (c : AclCapabilityCache) : AclCapabilityCache :=
  if c.poisoned then c else { c with entries := KeyedMap.empty }

/-- How long a verdict is kept, in nanoseconds. -/
def ttlFor (c : AclCapabilityCache) : AclProbeVerdict → Nat
  | .inconclusive => inconclusiveTtl
  | .capable | .incapable => c.ttl * 10 ^ 9

/-- What a lookup reads out of the entry of its mount. -/
def read (c : AclCapabilityCache) (now : Nat) (caps : FsCapabilities) (probeDir : Str)
    (entry : CacheEntry) : Option AclProbeVerdict :=
  -- a remount that changed the filesystem
  if entry.fstype ≠ caps.fstype ∨ entry.options ≠ caps.mountOptions then none
  else if entry.verdict = .inconclusive ∧ entry.probeDir ≠ probeDir then none
  else if now - entry.probedAt < c.ttlFor entry.verdict then some entry.verdict
  else none

/-- The verdict that is kept for a mount, if it may still be used. -/
def cachedHit (c : AclCapabilityCache) (now : Nat) (root : Str) (caps : FsCapabilities)
    (probeDir : Str) : Option AclProbeVerdict :=
  if c.poisoned then none else (c.entries.lookup root).bind (c.read now caps probeDir)

/-- Eight lifetimes are more seconds than a duration holds. -/
def HorizonOverflows (c : AclCapabilityCache) : Prop := 2 ^ 64 ≤ c.ttl * 8

/-- Whether the horizon overflows is decidable. -/
instance (c : AclCapabilityCache) : Decidable c.HorizonOverflows :=
  inferInstanceAs (Decidable (_ ≤ _))

/-- What is older than this is swept out, in nanoseconds. -/
def horizon (c : AclCapabilityCache) : Nat := c.ttl * 8 * 10 ^ 9

/-- Keep a verdict, and sweep out what is past the horizon. -/
def store (c : AclCapabilityCache) (now : Nat) (root : Str) (caps : FsCapabilities) (probeDir : Str)
    (verdict : AclProbeVerdict) : AclCapabilityCache :=
  if c.poisoned then c
  -- the product panics, and the lock is held
  else if c.HorizonOverflows then { c with poisoned := true }
  else
    { c with
      entries := (c.entries.retain fun e => now - e.2.probedAt < c.horizon).insert
        (root, ⟨verdict, caps.fstype, caps.mountOptions, probeDir, now⟩) }

/-- `verdict_cached` up to the probe: the answer, unless the probe has to be run. -/
def ask (c : AclCapabilityCache) (now : Nat) (l : CapabilityLookup) : Option AclProbeVerdict :=
  if l.caps.fstype = "unknown".toList then some .inconclusive
  else if !l.caps.aclCapable then some .incapable
  else if l.skipWriteProbe then some (verdictFromCaps l.caps)
  else
    match l.mountRoot with
    | none => none
    | some root => if l.forceRefresh then none else c.cachedHit now root l.caps l.probeDir

/-- `verdict_cached` behind the probe. A mount without a mount point is not kept. -/
def file (c : AclCapabilityCache) (now : Nat) (l : CapabilityLookup) (verdict : AclProbeVerdict) :
    AclCapabilityCache :=
  match l.mountRoot with
  | none => c
  | some root => c.store now root l.caps l.probeDir verdict

/-- `verdict_cached`, where nobody else comes between; the probe ends at the time `later`. -/
def verdictCached (c : AclCapabilityCache) (now later : Nat) (l : CapabilityLookup)
    (probe : Str → AclProbeVerdict) : AclProbeVerdict × AclCapabilityCache :=
  match c.ask now l with
  | some v => (v, c)
  | none => (probe l.probeDir, c.file later l (probe l.probeDir))

/-- A lookup is the one the gate makes, when what the cache knows stands for the probe. -/
theorem verdictCached_eq (c : AclCapabilityCache) (now later : Nat) (l : CapabilityLookup)
    (probe : Str → AclProbeVerdict) (content : Option Str)
    (hroot : l.mountRoot = none → l.caps = .unknown) :
    (c.verdictCached now later l probe).1 =
      NfsKlldap.verdictCached
        { content
          probed := fun root =>
            (if l.forceRefresh then none else c.cachedHit now root l.caps l.probeDir).getD
              (probe l.probeDir) }
        l.caps l.mountRoot l.skipWriteProbe := by
  unfold verdictCached ask NfsKlldap.verdictCached
  -- what is decided without a probe is decided alike
  by_cases hknown : l.caps.fstype = "unknown".toList
  · rw [if_pos hknown, if_pos hknown]
  rw [if_neg hknown, if_neg hknown]
  by_cases hcapable : (!l.caps.aclCapable) = true
  · rw [if_pos hcapable, if_pos hcapable]
  rw [if_neg hcapable, if_neg hcapable]
  by_cases hskip : l.skipWriteProbe = true
  · rw [if_pos hskip, if_pos hskip]
  rw [if_neg hskip, if_neg hskip]
  cases hmount : l.mountRoot with
  | none =>
    rw [hroot hmount] at hknown
    exact absurd rfl hknown
  | some root =>
    simp only
    cases (if l.forceRefresh then none else c.cachedHit now root l.caps l.probeDir) with
    | none => rfl
    | some v => rfl

end AclCapabilityCache

/-! ## Many requests -/

/-- The cache, the time, the lookups whose probe is running, and everything that was filed since the
verdicts were last dropped, the newest first. The last is not in the program: it says what the cache
stands for. -/
structure Serving where
  cache : AclCapabilityCache
  now : Nat
  probing : List CapabilityLookup
  filed : List (Str × CacheEntry)

/-- What can happen next. -/
inductive ServingEvent
  | ask (l : CapabilityLookup)
  /-- The probe of one of the running lookups ends. -/
  | probed (i : Nat) (verdict : AclProbeVerdict)
  | invalidateAll
  | pass (time : Nat)

namespace Serving

/-- Before the first request. -/
def start (c : AclCapabilityCache) (now : Nat) : Serving := ⟨c, now, [], []⟩

/-- One event of the server: a lookup that may start a probe, a probe that ends, or the rest. -/
def step (s : Serving) : ServingEvent → Serving
  | .ask l =>
    if (s.cache.ask s.now l).isSome then s else { s with probing := s.probing ++ [l] }
  | .probed i verdict =>
    match s.probing[i]? with
    | none => s
    | some l =>
      { s with
        cache := s.cache.file s.now l verdict
        probing := s.probing.eraseIdx i
        filed :=
          (l.mountRoot.map fun root =>
              (root, CacheEntry.mk verdict l.caps.fstype l.caps.mountOptions l.probeDir s.now)).toList
            ++ s.filed }
  | .invalidateAll => { s with cache := s.cache.invalidateAll, filed := [] }
  | .pass time => { s with now := s.now + time }

end Serving

/-! ## What a lookup may be told without a probe -/

/-- The mount table alone decides. -/
def CapabilityLookup.Decided (l : CapabilityLookup) (v : AclProbeVerdict) : Prop :=
  (l.caps.fstype = "unknown".toList ∧ v = .inconclusive) ∨
  (l.caps.fstype ≠ "unknown".toList ∧ l.caps.aclCapable = false ∧ v = .incapable) ∨
  (l.caps.fstype ≠ "unknown".toList ∧ l.caps.aclCapable = true ∧ l.skipWriteProbe = true ∧
    v = .inconclusive)

/-- The verdict was found out on the filesystem the lookup sees, and in its directory if the
directory may be what kept the probe from finding out. -/
structure CacheEntry.Fits (e : CacheEntry) (l : CapabilityLookup) : Prop where
  fstype : e.fstype = l.caps.fstype
  options : e.options = l.caps.mountOptions
  probeDir : e.verdict = .inconclusive → e.probeDir = l.probeDir

/-- The last verdict on the mount fits and is young, and nothing forbids to use it. -/
def Recalled (ttl : Nat) (filed : List (Str × CacheEntry)) (now : Nat) (l : CapabilityLookup)
    (v : AclProbeVerdict) : Prop :=
  l.caps.fstype ≠ "unknown".toList ∧ l.caps.aclCapable = true ∧ l.skipWriteProbe = false ∧
  l.forceRefresh = false ∧ ∃ root e, l.mountRoot = some root ∧ lastUnder filed root = some e ∧
    e.Fits l ∧ e.verdict = v ∧
    now - e.probedAt < if v = .inconclusive then inconclusiveTtl else ttl * 10 ^ 9

namespace AclCapabilityCache

variable {c : AclCapabilityCache} {now : Nat} {l : CapabilityLookup} {v : AclProbeVerdict}

/-- An inconclusive verdict has its own lifetime. -/
theorem ttlFor_eq (c : AclCapabilityCache) (v : AclProbeVerdict) :
    c.ttlFor v = if v = .inconclusive then inconclusiveTtl else c.ttl * 10 ^ 9 := by
  cases v with
  | inconclusive => rw [if_pos rfl, ttlFor]
  | capable | incapable => rw [if_neg (by simp), ttlFor]

/-- An entry is read exactly while it fits the lookup and is younger than its lifetime. -/
theorem read_eq_some_iff {e : CacheEntry} :
    c.read now l.caps l.probeDir e = some v ↔
      e.Fits l ∧ e.verdict = v ∧ now - e.probedAt < c.ttlFor v := by
  unfold read
  by_cases hfs : e.fstype ≠ l.caps.fstype ∨ e.options ≠ l.caps.mountOptions
  · rw [if_pos hfs]
    refine iff_of_false (by simp) fun h => ?_
    exact hfs.elim (fun hne => hne h.1.fstype) fun hne => hne h.1.options
  rw [if_neg hfs]
  rw [not_or, not_not, not_not] at hfs
  by_cases hdir : e.verdict = .inconclusive ∧ e.probeDir ≠ l.probeDir
  · rw [if_pos hdir]
    exact iff_of_false (by simp) fun h => hdir.2 (h.1.probeDir hdir.1)
  rw [if_neg hdir]
  have hfits : e.Fits l := by
    refine ⟨hfs.1, hfs.2, fun h => ?_⟩
    by_contra hne
    exact hdir ⟨h, hne⟩
  by_cases hyoung : now - e.probedAt < c.ttlFor e.verdict
  · rw [if_pos hyoung, Option.some_inj]
    constructor
    · rintro rfl
      exact ⟨hfits, rfl, hyoung⟩
    · exact fun h => h.2.1
  · rw [if_neg hyoung]
    refine iff_of_false (by simp) ?_
    rintro ⟨-, rfl, hlt⟩
    exact hyoung hlt

/-- What a lookup is told is decided by the mount table or read out of the cache. -/
theorem ask_eq_some_iff :
    c.ask now l = some v ↔ l.Decided v ∨
      (l.caps.fstype ≠ "unknown".toList ∧ l.caps.aclCapable = true ∧ l.skipWriteProbe = false ∧
        l.forceRefresh = false ∧ ∃ root, l.mountRoot = some root ∧
          c.cachedHit now root l.caps l.probeDir = some v) := by
  unfold ask CapabilityLookup.Decided
  by_cases hknown : l.caps.fstype = "unknown".toList
  · rw [if_pos hknown, Option.some_inj]
    constructor
    · exact fun h => Or.inl (Or.inl ⟨hknown, h.symm⟩)
    · rintro ((⟨-, hv⟩ | ⟨hne, -⟩ | ⟨hne, -⟩) | ⟨hne, -⟩)
      · exact hv.symm
      all_goals exact absurd hknown hne
  rw [if_neg hknown]
  -- from here on the name of the filesystem is only carried along
  generalize "unknown".toList = unknown at hknown ⊢
  cases hcapable : l.caps.aclCapable with
  | false =>
    rw [if_pos (by simp), Option.some_inj]
    constructor
    · exact fun h => Or.inl (Or.inr (Or.inl ⟨hknown, rfl, h.symm⟩))
    · rintro ((⟨heq, -⟩ | ⟨-, -, hv⟩ | ⟨-, hfalse, -⟩) | ⟨-, hfalse, -⟩)
      · exact absurd heq hknown
      · exact hv.symm
      all_goals exact absurd hfalse (by simp)
  | true =>
    rw [if_neg (by simp)]
    cases hskip : l.skipWriteProbe with
    | true =>
      have hverdict : verdictFromCaps l.caps = .inconclusive := if_pos hcapable
      rw [if_pos rfl, hverdict, Option.some_inj]
      constructor
      · exact fun h => Or.inl (Or.inr (Or.inr ⟨hknown, rfl, rfl, h.symm⟩))
      · rintro ((⟨heq, -⟩ | ⟨-, hfalse, -⟩ | ⟨-, -, -, hv⟩) | ⟨-, -, hfalse, -⟩)
        · exact absurd heq hknown
        · exact absurd hfalse (by simp)
        · exact hv.symm
        · exact absurd hfalse (by simp)
    | false =>
      rw [if_neg (by simp)]
      cases hmount : l.mountRoot with
      | none => simp [hknown]
      | some root => cases hforce : l.forceRefresh <;> simp [hknown]

end AclCapabilityCache

/-! ## The cache stands for what was filed -/

namespace Serving

/-- The lifetime is the one of the start, the cache holds of what was filed all that is not swept out,
and where the horizon fits into a duration no thread has panicked. -/
structure Sound (ttl : Nat) (s : Serving) : Prop where
  ttl_eq : s.cache.ttl = ttl
  recalls : s.cache.poisoned = false →
    Recalls CacheEntry.probedAt s.cache.horizon s.now s.filed (lookIn s.cache.entries)
  poisoned : s.cache.poisoned = true → s.cache.HorizonOverflows

variable {ttl : Nat} {s : Serving}

/-- A server that starts with an empty, unpoisoned cache is sound. -/
theorem sound_start (c : AclCapabilityCache) (now : Nat) (hempty : c.entries = KeyedMap.empty)
    (hpoison : c.poisoned = false) : Sound c.ttl (start c now) where
  ttl_eq := rfl
  recalls _ := by
    show Recalls _ _ _ [] (lookIn c.entries)
    rw [hempty]
    exact recalls_empty
  poisoned h := absurd h (by simp [start, hpoison])

/-- A filing is a sweep and then a write. -/
theorem Sound.store (h : Sound ttl s) {root : Str} {caps : FsCapabilities} {probeDir : Str}
    {verdict : AclProbeVerdict} {probing : List CapabilityLookup} :
    Sound ttl
      { cache := s.cache.store s.now root caps probeDir verdict
        now := s.now
        probing
        filed := (root, ⟨verdict, caps.fstype, caps.mountOptions, probeDir, s.now⟩) :: s.filed } := by
  unfold AclCapabilityCache.store
  cases hpoison : s.cache.poisoned with
  | true =>
    rw [if_pos rfl]
    exact ⟨h.ttl_eq, fun hp => absurd (hp.symm.trans hpoison) (by simp), fun _ => h.poisoned hpoison⟩
  | false =>
    rw [if_neg (by simp)]
    by_cases hover : s.cache.HorizonOverflows
    · rw [if_pos hover]
      exact ⟨h.ttl_eq, fun hp => absurd hp (by simp), fun _ => hover⟩
    · rw [if_neg hover]
      refine ⟨h.ttl_eq, fun _ => ?_, fun hp => absurd hp (by simp)⟩
      have hswept : ∀ e : CacheEntry,
          decide (s.now - e.probedAt < s.cache.horizon) = false → s.cache.horizon ≤ s.now - e.probedAt :=
        fun e he => by simpa using he
      exact ((h.recalls hpoison).retain hswept).insert root _

/-- **Every event keeps the server sound.** -/
theorem Sound.step (h : Sound ttl s) (e : ServingEvent) : Sound ttl (s.step e) := by
  cases e with
  -- a question files nothing, the answer to its probe does
  | ask l =>
    by_cases hask : (s.cache.ask s.now l).isSome = true
    · rw [Serving.step, if_pos hask]
      exact h
    · rw [Serving.step, if_neg hask]
      exact ⟨h.ttl_eq, h.recalls, h.poisoned⟩
  | probed i verdict =>
    rw [Serving.step]
    cases hi : s.probing[i]? with
    | none => exact h
    | some l =>
      simp only [AclCapabilityCache.file]
      cases hmount : l.mountRoot with
      | none => exact ⟨h.ttl_eq, h.recalls, h.poisoned⟩
      | some root => exact h.store
  | invalidateAll =>
    show Sound ttl { s with cache := s.cache.invalidateAll, filed := [] }
    unfold AclCapabilityCache.invalidateAll
    -- a poisoned cache is not cleared, and remembers nothing
    cases hpoison : s.cache.poisoned with
    | true =>
      rw [if_pos rfl]
      exact ⟨h.ttl_eq, fun hp => absurd (hp.symm.trans hpoison) (by simp), fun _ => h.poisoned hpoison⟩
    | false =>
      rw [if_neg (by simp)]
      exact ⟨h.ttl_eq, fun _ => recalls_empty, fun hp => absurd hp (by simp)⟩
  | pass time =>
    exact ⟨h.ttl_eq, fun hp => (h.recalls hp).wait (Nat.le_add_right _ _), h.poisoned⟩

/-- What is kept fits into the horizon, if the lifetime is at least four seconds. -/
theorem ttlFor_le_horizon {c : AclCapabilityCache} (h : 4 ≤ c.ttl) (v : AclProbeVerdict) :
    c.ttlFor v ≤ c.horizon := by
  rw [AclCapabilityCache.ttlFor_eq, AclCapabilityCache.horizon]
  by_cases hv : v = .inconclusive
  · rw [if_pos hv, inconclusiveTtl]
    exact Nat.mul_le_mul_right _ (by omega)
  · rw [if_neg hv]
    exact Nat.mul_le_mul_right _ (by omega)

/-- What the kept verdicts answer was filed last for the mount. -/
theorem Sound.recalled (h : Sound ttl s) {l : CapabilityLookup} {v : AclProbeVerdict}
    (hask : s.cache.ask s.now l = some v) : l.Decided v ∨ Recalled ttl s.filed s.now l v := by
  refine (AclCapabilityCache.ask_eq_some_iff.mp hask).imp_right ?_
  rintro ⟨hknown, hcapable, hskip, hforce, root, hmount, hhit⟩
  rw [AclCapabilityCache.cachedHit] at hhit
  cases hpoison : s.cache.poisoned with
  | true => simp [hpoison] at hhit
  | false =>
    rw [hpoison, if_neg (by simp), Option.bind_eq_some_iff] at hhit
    obtain ⟨e, he, hread⟩ := hhit
    obtain ⟨hfits, hverdict, hyoung⟩ := AclCapabilityCache.read_eq_some_iff.mp hread
    rw [AclCapabilityCache.ttlFor_eq, h.ttl_eq] at hyoung
    exact ⟨hknown, hcapable, hskip, hforce, root, e, hmount, (h.recalls hpoison).held he, hfits,
      hverdict, hyoung⟩

/-- What was filed last for the mount is answered, as long as it is young. -/
theorem Sound.ask_of_recalled (h : Sound ttl s) (hlow : 4 ≤ ttl) (hhigh : ttl < 2 ^ 61)
    {l : CapabilityLookup} {v : AclProbeVerdict}
    (hrecalled : l.Decided v ∨ Recalled ttl s.filed s.now l v) : s.cache.ask s.now l = some v := by
  refine AclCapabilityCache.ask_eq_some_iff.mpr (hrecalled.imp_right ?_)
  rintro ⟨hknown, hcapable, hskip, hforce, root, e, hmount, hlast, hfits, hverdict, hyoung⟩
  refine ⟨hknown, hcapable, hskip, hforce, root, hmount, ?_⟩
  have hpoison : s.cache.poisoned = false := by
    by_contra hp
    have hover : 2 ^ 64 ≤ s.cache.ttl * 8 := h.poisoned (by simpa using hp)
    rw [h.ttl_eq] at hover
    omega
  rw [AclCapabilityCache.cachedHit, hpoison, if_neg (by simp)]
  have hold : ∀ e : CacheEntry, s.cache.horizon ≤ s.now - e.probedAt →
      s.cache.read s.now l.caps l.probeDir e = none := by
    intro e he
    refine Option.eq_none_iff_forall_ne_some.mpr fun v hv => ?_
    have hlt := (AclCapabilityCache.read_eq_some_iff.mp hv).2.2
    have hle := ttlFor_le_horizon (c := s.cache) (h.ttl_eq ▸ hlow) v
    omega
  show (lookIn s.cache.entries root).bind _ = _
  rw [(h.recalls hpoison).bind_eq hold, hlast, Option.bind_some,
    AclCapabilityCache.read_eq_some_iff, AclCapabilityCache.ttlFor_eq, h.ttl_eq]
  exact ⟨hfits, hverdict, hyoung⟩

/-- **Verdicts without a probe.** Whatever requests ask, file and drop verdicts, in any order and with
any time between: what a lookup is told without a probe is decided by the mount table alone, or the
last probe of its mount that ended since the verdicts were dropped said it, on the filesystem the
lookup sees and less than its lifetime ago. With a lifetime of at least four seconds all such
verdicts are told: sweeping never costs a probe. -/
theorem ask_iff_recalled (value : Option Str) (now : Nat) (es : List ServingEvent) :
    EveryStep step
      (fun s e => ∀ l v, e = .ask l →
        (s.cache.ask s.now l = some v →
          l.Decided v ∨ Recalled (AclCapabilityCache.newFromEnv value).ttl s.filed s.now l v) ∧
        (4 ≤ s.cache.ttl → s.cache.ttl < 2 ^ 61 →
          l.Decided v ∨ Recalled (AclCapabilityCache.newFromEnv value).ttl s.filed s.now l v →
          s.cache.ask s.now l = some v))
      (start (AclCapabilityCache.newFromEnv value) now) es := by
  refine everyStep_of_invariant (Sound (AclCapabilityCache.newFromEnv value).ttl)
    (fun s e _ hs => ⟨fun l v _ => ⟨hs.recalled, fun hlow hhigh => ?_⟩, hs.step e⟩)
    (sound_start _ now rfl rfl)
  rw [hs.ttl_eq] at hlow hhigh
  exact hs.ask_of_recalled hlow hhigh

end Serving

end NfsKlldap
