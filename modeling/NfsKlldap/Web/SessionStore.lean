import NfsKlldap.Web.Sessions

/-! # Sessions across restarts (`auth.rs`)

The session map is mirrored to a sidecar file, so that a restart of the WebUI logs nobody out. The file
holds whole seconds, a restart reads back what has not expired, and it writes nothing.

* `StoreRun.Step` is any operation at any later time, restarts among them;
* `StoreRun.Mirrored` is the invariant: the file has the map, and beyond it only what had expired when the
  process started;
* `StoreRun.Capped` bounds what becomes of one token: its session is never extended;
* **`sessions_safe`** reads the safety of the store off the two. -/

namespace NfsKlldap

open Text

variable {F : Type*}

/-! ## The sidecar -/

/-- Times are nanoseconds since the epoch. -/
def nanosPerSecond : Nat := 1000000000

/-- On-disk session entry, with the hash it is filed under. -/
structure PersistedSession where
  tokenHash : Str
  username : Str
  expiresUnix : Nat
  deriving DecidableEq

/-- What the sidecar holds, by token hash. -/
abbrev PersistedSessions := KeyedMap PersistedSession.tokenHash

/-- When the entry expires. -/
def PersistedSession.expiresAt (p : PersistedSession) : Nat := p.expiresUnix * nanosPerSecond

/-- The session an entry is read back as. -/
def PersistedSession.restored (p : PersistedSession) : Session := ⟨p.tokenHash, p.username, p.expiresAt⟩

/-- The entry a session is written as. -/
def Session.persisted (s : Session) : PersistedSession :=
  ⟨s.tokenHash, s.username, s.expiresAt / nanosPerSecond⟩

/-- `serde_json` on the sidecar: what was written is read back, in any order. -/
structure SessionCodec (F : Type*) where
  toText : PersistedSessions → F
  fromText : F → Option PersistedSessions
  roundTrip : ∀ m, ∃ m', fromText (toText m) = some m' ∧ m'.values.Perm m.values

/-- What is written of a map. -/
def persistedSessions (m : Sessions) : PersistedSessions where
  values := m.values.map Session.persisted
  nodup := by
    rw [List.map_map]
    exact m.nodup

/-- All sessions of a file. -/
def restoredSessions (m : PersistedSessions) : Sessions where
  values := m.values.map PersistedSession.restored
  nodup := by
    rw [List.map_map]
    exact m.nodup

/-- What a sidecar holds; a file that cannot be read or parsed holds nothing. -/
def sidecarEntries (codec : SessionCodec F) (sidecar : Option F) : List PersistedSession :=
  ((sidecar.bind codec.fromText).map KeyedMap.values).getD []

/-- **The unexpired sessions of the sidecar**; any read or parse failure means starting empty. -/
def loadSessions (codec : SessionCodec F) (now : Nat) (sidecar : Option F) : Sessions :=
  match sidecar.bind codec.fromText with
  | none => .empty
  | some entries => (restoredSessions entries).retain fun s => now < s.expiresAt

/-! ## The manager -/

/-- The sessions in memory, and the sidecar they are mirrored to. -/
structure AuthManager (F : Type*) where
  sessions : Sessions
  /-- The file, if it can be read. -/
  sidecar : Option F
  sessionTtl : Nat

/-- Twelve hours. -/
def defaultSessionTtl : Nat := 12 * 3600 * nanosPerSecond

namespace AuthManager

variable (codec : SessionCodec F) (sha256 : List UInt8 → List UInt8)

/-- The manager at start: what the sidecar holds is restored. -/
def new (now : Nat) (sessionTtl : Option Nat) (sidecar : Option F) : AuthManager F where
  sessions := loadSessions codec now sidecar
  sidecar := sidecar
  sessionTtl := sessionTtl.getD defaultSessionTtl

/-- The map becomes `m`, and the sidecar its mirror. -/
def persistSessions (m : Sessions) (a : AuthManager F) : AuthManager F :=
  { a with sessions := m, sidecar := some (codec.toText (persistedSessions m)) }

/-- The clock is read for the expiry first, and again under the lock. -/
def createPrivilegedSession (madeAt now : Nat) (token username : Str) (a : AuthManager F) :
    AuthManager F :=
  let session : Session := ⟨hashToken sha256 token, username, madeAt + a.sessionTtl⟩
  a.persistSessions codec ((a.sessions.insert session).retain fun s => now < s.expiresAt)

/-- The user of a token; a session that has expired is dropped. -/
def validate (now : Nat) (token : Str) (a : AuthManager F) : Option Str × AuthManager F :=
  match a.sessions.get? (hashToken sha256 token) with
  | none => (none, a)
  | some s =>
    if now < s.expiresAt then (some s.username, a)
    else (none, a.persistSessions codec (a.sessions.erase (hashToken sha256 token)))

/-- `logout`: the session of the token is dropped, and the sidecar is written. -/
def logout (token : Str) (a : AuthManager F) : AuthManager F :=
  if (a.sessions.get? (hashToken sha256 token)).isSome then
    a.persistSessions codec (a.sessions.erase (hashToken sha256 token))
  else a

/-- Drop every session of the user but the one of the acting token; the number of dropped sessions comes
first. -/
def invalidateSessionsForUserExcept (username keepToken : Str) (a : AuthManager F) :
    Nat × AuthManager F :=
  let m := a.sessions.retain fun s => s.username ≠ username ∨ s.tokenHash = hashToken sha256 keepToken
  let dropped := a.sessions.values.length - m.values.length
  (dropped, if dropped > 0 then a.persistSessions codec m else { a with sessions := m })

/-- The sessions in the sidecar. -/
def stored (a : AuthManager F) : List PersistedSession := sidecarEntries codec a.sidecar

/-- **The sidecar mirrors the map**: entry by entry, with the expiries in whole seconds. -/
def Mirrors (a : AuthManager F) : Prop :=
  (a.stored codec).Perm (persistedSessions a.sessions).values

end AuthManager

/-! ## Runs -/

/-- What is asked of the store. -/
inductive AuthOp
  | create (madeAt : Nat) (token username : Str)
  | validate (token : Str)
  | logout (token : Str)
  | invalidate (username keepToken : Str)
  | restart (sessionTtl : Option Nat)

/-- An operation on the manager; a restart reads the sidecar anew. -/
def AuthManager.run (codec : SessionCodec F) (sha256 : List UInt8 → List UInt8) (now : Nat)
    (a : AuthManager F) : AuthOp → AuthManager F
  | .create madeAt token username => a.createPrivilegedSession codec sha256 madeAt now token username
  | .validate token => (a.validate codec sha256 now token).2
  | .logout token => a.logout codec sha256 token
  | .invalidate username keepToken =>
    (a.invalidateSessionsForUserExcept codec sha256 username keepToken).2
  | .restart sessionTtl => .new codec now sessionTtl a.sidecar

/-- The clock never runs backwards within an operation. -/
def AuthOp.MadeBy (now : Nat) : AuthOp → Prop
  | .create madeAt _ _ => madeAt ≤ now
  | _ => True

/-- A new session is handed out under the token. -/
def AuthOp.Creates (token : Str) : AuthOp → Prop
  | .create _ t _ => t = token
  | _ => False

/-- The manager of the running process, the time of the last operation, and the time the process
started. -/
structure StoreRun (F : Type*) extends AuthManager F where
  clock : Nat
  startedAt : Nat

namespace StoreRun

variable (codec : SessionCodec F) (sha256 : List UInt8 → List UInt8)

/-- The first process, over whatever sidecar there is. -/
def start (now : Nat) (sessionTtl : Option Nat) (sidecar : Option F) : StoreRun F :=
  { AuthManager.new codec now sessionTtl sidecar with clock := now, startedAt := now }

/-- The store after an operation. -/
def after (now : Nat) (op : AuthOp) (s : StoreRun F) : StoreRun F :=
  { s.toAuthManager.run codec sha256 now op with
    clock := now
    startedAt := match op with
      | .restart _ => now
      | _ => s.startedAt }

/-- One operation, at a time that has not passed. -/
def Step (ok : AuthOp → Prop) (s s' : StoreRun F) : Prop :=
  ∃ now op, ok op ∧ op.MadeBy now ∧ s.clock ≤ now ∧ s' = s.after codec sha256 now op

/-- The stores of any run. -/
def Reachable (s : StoreRun F) : Prop :=
  ∃ now sessionTtl sidecar,
    Relation.ReflTransGen (Step codec sha256 fun _ => True) (start codec now sessionTtl sidecar) s

/-- A run in which the token is not handed out anew. -/
def Later (token : Str) : StoreRun F → StoreRun F → Prop :=
  Relation.ReflTransGen (Step codec sha256 fun op => ¬ op.Creates token)

end StoreRun

/-! ## What an operation does -/

section Ops

variable {codec : SessionCodec F} {sha256 : List UInt8 → List UInt8} {now t : Nat}
  {a : AuthManager F} {op : AuthOp}

/-- The sidecar of a map that was persisted. -/
theorem AuthManager.stored_persistSessions (m : Sessions) :
    ((a.persistSessions codec m).stored codec).Perm (persistedSessions m).values := by
  obtain ⟨m', hread, hperm⟩ := codec.roundTrip (persistedSessions m)
  simp only [AuthManager.stored, sidecarEntries, AuthManager.persistSessions, Option.bind_some, hread,
    Option.map_some, Option.getD_some]
  exact hperm

/-- A written sidecar holds the sessions in memory. -/
theorem AuthManager.mem_stored_persistSessions {m : Sessions} {p : PersistedSession} :
    p ∈ (a.persistSessions codec m).stored codec ↔ ∃ x ∈ m.values, x.persisted = p := by
  rw [(AuthManager.stored_persistSessions m).mem_iff]
  exact List.mem_map

/-- A restart reads back the entries that have not expired. -/
theorem mem_loadSessions {sidecar : Option F} {x : Session} :
    x ∈ (loadSessions codec now sidecar).values ↔
      ∃ p ∈ sidecarEntries codec sidecar, now < p.expiresAt ∧ p.restored = x := by
  unfold loadSessions sidecarEntries
  cases sidecar.bind codec.fromText with
  | none => exact ⟨fun h => (nomatch h), fun ⟨p, hp, _⟩ => (nomatch hp)⟩
  | some entries =>
    simp only [KeyedMap.values_retain, restoredSessions, List.mem_filter, List.mem_map,
      decide_eq_true_eq, Option.map_some, Option.getD_some]
    constructor
    · rintro ⟨⟨p, hp, rfl⟩, hlive⟩
      exact ⟨p, hp, hlive, rfl⟩
    · rintro ⟨p, hp, hlive, rfl⟩
      exact ⟨⟨p, hp, rfl⟩, hlive⟩

/-- A restored session is written back as it was. -/
@[simp] theorem persisted_restored (p : PersistedSession) : p.restored.persisted = p := by
  have hsecs : p.expiresUnix * nanosPerSecond / nanosPerSecond = p.expiresUnix :=
    Nat.mul_div_cancel _ (by decide)
  show (⟨p.tokenHash, p.username, p.expiresUnix * nanosPerSecond / nanosPerSecond⟩ : PersistedSession) =
    p
  rw [hsecs]

/-- Whole seconds never add to a session. -/
theorem expiresAt_persisted_le (x : Session) : x.persisted.expiresAt ≤ x.expiresAt :=
  Nat.div_mul_le_self _ _

/-- The session a creation files. -/
def AuthOp.newSession (sha256 : List UInt8 → List UInt8) (sessionTtl : Nat) : AuthOp → Option Session
  | .create madeAt token username => some ⟨hashToken sha256 token, username, madeAt + sessionTtl⟩
  | _ => none

/-- The session of the token is one the operation is about. -/
def AuthOp.ActsOn (sha256 : List UInt8 → List UInt8) (token : Str) (m : Sessions) : AuthOp → Prop
  | .create _ t _ => t = token
  | .validate t => t = token
  | .logout t => t = token
  | .invalidate username keepToken => token ≠ keepToken ∧
      ∃ x ∈ m.values, x.tokenHash = hashToken sha256 token ∧ x.username = username
  | .restart _ => True

/-- **An operation other than a restart** leaves the manager as it is, or persists a map of old sessions
and the new one. -/
theorem AuthManager.run_cases (codec : SessionCodec F) (sha256 : List UInt8 → List UInt8) (now : Nat)
    (a : AuthManager F) (hop : ∀ sessionTtl, op ≠ .restart sessionTtl) :
    a.run codec sha256 now op = a ∨
      ∃ m, a.run codec sha256 now op = a.persistSessions codec m ∧
        ∀ x ∈ m.values, x ∈ a.sessions.values ∨ op.newSession sha256 a.sessionTtl = some x := by
  have hkept : ∀ p, ∀ x ∈ (a.sessions.retain p).values, x ∈ a.sessions.values := by
    intro p x hx
    exact (List.mem_filter.mp hx).1
  cases op with
  | create madeAt token username =>
    refine Or.inr ⟨_, rfl, fun x hx => ?_⟩
    rcases KeyedMap.mem_insert.mp (List.mem_filter.mp hx).1 with ⟨hold, -⟩ | rfl
    · exact Or.inl hold
    · exact Or.inr rfl
  | validate token =>
    simp only [AuthManager.run, AuthManager.validate]
    split
    · exact Or.inl rfl
    · split
      · exact Or.inl rfl
      · exact Or.inr ⟨_, rfl, fun x hx => Or.inl (hkept _ x hx)⟩
  | logout token =>
    simp only [AuthManager.run, AuthManager.logout]
    split
    · exact Or.inr ⟨_, rfl, fun x hx => Or.inl (hkept _ x hx)⟩
    · exact Or.inl rfl
  | invalidate username keepToken =>
    simp only [AuthManager.run, AuthManager.invalidateSessionsForUserExcept]
    split
    · exact Or.inr ⟨_, rfl, fun x hx => Or.inl (hkept _ x hx)⟩
    · next hnone =>
      -- nothing was dropped, so the map is the old one
      have hsame : a.sessions.retain (fun s => s.username ≠ username ∨
          s.tokenHash = hashToken sha256 keepToken) = a.sessions := by
        refine KeyedMap.ext (List.filter_sublist.eq_of_length_le ?_)
        rw [gt_iff_lt, Nat.not_lt, Nat.le_zero] at hnone
        exact Nat.sub_eq_zero_iff_le.mp hnone
      rw [hsame]
      exact Or.inl rfl
  | restart sessionTtl => exact absurd rfl (hop sessionTtl)

/-- Whether a token is valid is decided by the sessions in memory. -/
theorem validate_fst (token : Str) :
    (a.validate codec sha256 t token).1 = (validateToken sha256 t token a.sessions).1 := by
  unfold AuthManager.validate validateToken
  cases a.sessions.get? (hashToken sha256 token) with
  | none => rfl
  | some x =>
    dsimp only
    split <;> rfl

/-- A token validates exactly when it belongs to a live session. -/
theorem validateToken_eq_some_iff {token username : Str} {m : Sessions} :
    (validateToken sha256 t token m).1 = some username ↔
      ∃ x ∈ liveAt t m, x.tokenHash = hashToken sha256 token ∧ x.username = username := by
  unfold validateToken
  cases hget : m.get? (hashToken sha256 token) with
  | none =>
    refine ⟨fun h => (nomatch h), fun ⟨x, hx, hkey, _⟩ => ?_⟩
    exact absurd hkey (KeyedMap.get?_eq_none_iff.mp hget x hx.1)
  | some x =>
    obtain ⟨hmem, hkey⟩ := KeyedMap.get?_eq_some_iff.mp hget
    dsimp only
    split
    · next hlive =>
      refine ⟨fun h => ⟨x, ⟨hmem, hlive⟩, hkey, Option.some.inj h⟩, fun ⟨y, hy, hykey, hyname⟩ => ?_⟩
      rw [m.eq_of_key_eq hmem hy.1 (hkey.trans hykey.symm), hyname]
    · next hdead =>
      refine ⟨fun h => (nomatch h), fun ⟨y, hy, hykey, _⟩ => ?_⟩
      rw [m.eq_of_key_eq hmem hy.1 (hkey.trans hykey.symm)] at hdead
      exact absurd hy.2 hdead

/-- An operation keeps the unexpired sessions it is not about, and makes none for other tokens. -/
theorem liveAt_run (hinj : Function.Injective (hashToken sha256)) {token : Str}
    (hother : ¬ op.ActsOn sha256 token a.sessions) (ht : now ≤ t) {x : Session}
    (hkey : x.tokenHash = hashToken sha256 token) :
    x ∈ liveAt t (a.run codec sha256 now op).sessions ↔ x ∈ liveAt t a.sessions := by
  -- hashes of different tokens differ, so that the session is not under any other key
  have hne : ∀ t', ¬ t' = token → x.tokenHash ≠ hashToken sha256 t' := by
    intro t' ht' heq
    exact ht' (hinj (heq.symm.trans hkey))
  have herase : ∀ t', ¬ t' = token → (x ∈ liveAt t (a.sessions.erase (hashToken sha256 t')) ↔
      x ∈ liveAt t a.sessions) := by
    intro t' ht'
    simp [liveAt, KeyedMap.erase, hne t' ht']
  cases op with
  -- a new session drops what has expired, and nothing else
  | create madeAt t' username =>
    have hnew : x ≠ ⟨hashToken sha256 t', username, madeAt + a.sessionTtl⟩ := by
      rintro rfl
      exact hne t' hother rfl
    simp only [AuthManager.run, AuthManager.createPrivilegedSession, AuthManager.persistSessions, liveAt,
      KeyedMap.values_retain, List.mem_filter, KeyedMap.mem_insert, Set.mem_ofPred_eq, decide_eq_true_eq]
    constructor
    · rintro ⟨⟨⟨hold, -⟩ | hx, -⟩, hlive⟩
      · exact ⟨hold, hlive⟩
      · exact absurd hx hnew
    · rintro ⟨hold, hlive⟩
      exact ⟨⟨Or.inl ⟨hold, hne t' hother⟩, ht.trans_lt hlive⟩, hlive⟩
  | validate t' =>
    simp only [AuthManager.run, AuthManager.validate]
    split
    · exact Iff.rfl
    · split
      · exact Iff.rfl
      · exact herase t' hother
  | logout t' =>
    simp only [AuthManager.run, AuthManager.logout]
    split
    · exact herase t' hother
    · exact Iff.rfl
  -- what is dropped is of the user and not the kept one
  | invalidate username keepToken =>
    have hmap : (a.run codec sha256 now (.invalidate username keepToken)).sessions =
        a.sessions.retain fun s =>
          s.username ≠ username ∨ s.tokenHash = hashToken sha256 keepToken := by
      simp only [AuthManager.run, AuthManager.invalidateSessionsForUserExcept]
      split <;> rfl
    rw [hmap]
    simp only [liveAt, KeyedMap.values_retain, List.mem_filter, decide_eq_true_eq, Set.mem_ofPred_eq]
    constructor
    · rintro ⟨⟨hx, -⟩, hlive⟩
      exact ⟨hx, hlive⟩
    · rintro ⟨hx, hlive⟩
      refine ⟨⟨hx, ?_⟩, hlive⟩
      by_contra hdropped
      rw [not_or, not_not] at hdropped
      refine hother ⟨?_, x, hx, hkey, hdropped.1⟩
      rintro rfl
      exact hdropped.2 hkey
  | restart sessionTtl => exact absurd trivial hother

end Ops

/-! ## The mirror -/

namespace StoreRun

variable {codec : SessionCodec F} {sha256 : List UInt8 → List UInt8} {s s' : StoreRun F}

/-- **The invariant**: the sidecar has the map, and beyond it only what had expired when the process
started. -/
structure Mirrored (codec : SessionCodec F) (s : StoreRun F) : Prop where
  held : ∀ x ∈ s.sessions.values, x.persisted ∈ s.stored codec
  stale : ∀ p ∈ s.stored codec,
    (∃ x ∈ s.sessions.values, x.persisted = p) ∨ p.expiresAt ≤ s.startedAt
  started : s.startedAt ≤ s.clock

/-- A process that has just started. -/
theorem Mirrored.new (now : Nat) (sessionTtl : Option Nat) (sidecar : Option F) :
    (start codec now sessionTtl sidecar).Mirrored codec := by
  refine ⟨fun x hx => ?_, fun p hp => ?_, le_rfl⟩
  · obtain ⟨p, hp, -, rfl⟩ := mem_loadSessions.mp hx
    rw [persisted_restored]
    exact hp
  · by_cases hlive : now < p.expiresAt
    · exact Or.inl ⟨p.restored, mem_loadSessions.mpr ⟨p, hp, hlive, rfl⟩, persisted_restored p⟩
    · exact Or.inr (not_lt.mp hlive)

/-- **What an operation does to the store.** -/
theorem after_cases (codec : SessionCodec F) (sha256 : List UInt8 → List UInt8) (now : Nat)
    (op : AuthOp) (s : StoreRun F) :
    (∃ sessionTtl, op = .restart sessionTtl) ∨
      ((s.after codec sha256 now op).startedAt = s.startedAt ∧
        ((s.after codec sha256 now op).toAuthManager = s.toAuthManager ∨
          ∃ m, (s.after codec sha256 now op).toAuthManager = s.persistSessions codec m ∧
            ∀ x ∈ m.values, x ∈ s.sessions.values ∨ op.newSession sha256 s.sessionTtl = some x)) := by
  by_cases hop : ∃ sessionTtl, op = .restart sessionTtl
  · exact Or.inl hop
  · have hnot : ∀ sessionTtl, op ≠ .restart sessionTtl := fun sessionTtl heq => hop ⟨sessionTtl, heq⟩
    refine Or.inr ⟨?_, AuthManager.run_cases codec sha256 now s.toAuthManager hnot⟩
    cases op with
    | restart sessionTtl => exact absurd rfl (hnot sessionTtl)
    | create _ _ _ | validate _ | logout _ | invalidate _ _ => rfl

/-- **Every step keeps the sidecar in step with the memory.** -/
theorem Mirrored.step {ok : AuthOp → Prop} (h : s.Mirrored codec) (hstep : Step codec sha256 ok s s') :
    s'.Mirrored codec := by
  obtain ⟨now, op, -, -, hclock, rfl⟩ := hstep
  rcases after_cases codec sha256 now op s with ⟨sessionTtl, rfl⟩ | ⟨hstarted, hrun⟩
  · exact Mirrored.new now sessionTtl s.sidecar
  · have hlate : (s.after codec sha256 now op).startedAt ≤ now := by
      rw [hstarted]
      exact h.started.trans hclock
    rcases hrun with hsame | ⟨m, hm, -⟩
    · refine ⟨?_, ?_, hlate⟩
      · rw [hsame]
        exact h.held
      · rw [hsame, hstarted]
        exact h.stale
    · -- the sidecar was written just now
      refine ⟨?_, ?_, hlate⟩
      · rw [hm]
        exact fun x hx => AuthManager.mem_stored_persistSessions.mpr ⟨x, hx, rfl⟩
      · rw [hm]
        exact fun p hp => Or.inl (AuthManager.mem_stored_persistSessions.mp hp)

/-- **It is in step in every reachable state.** -/
theorem Reachable.mirrored (h : s.Reachable codec sha256) : s.Mirrored codec := by
  obtain ⟨now, sessionTtl, sidecar, hrun⟩ := h
  induction hrun with
  | refl => exact Mirrored.new now sessionTtl sidecar
  | tail _ hstep ih => exact ih.step hstep

/-! ## One token -/

/-- **A bound on the sessions of one hash**, in the map and in the sidecar. -/
structure Capped (codec : SessionCodec F) (key : Str) (e : Nat) (s : StoreRun F) : Prop where
  live : ∀ x ∈ s.sessions.values, x.tokenHash = key → x.expiresAt ≤ e
  onDisk : ∀ p ∈ s.stored codec, p.tokenHash = key → p.expiresAt ≤ max e s.clock

/-- Without a new session for the token the bound stays, restarts included. -/
theorem Capped.step (hinj : Function.Injective (hashToken sha256)) {token : Str} {e : Nat}
    (h : s.Capped codec (hashToken sha256 token) e)
    (hstep : Step codec sha256 (fun op => ¬ op.Creates token) s s') :
    s'.Capped codec (hashToken sha256 token) e := by
  obtain ⟨now, op, hok, -, hclock, rfl⟩ := hstep
  have hdisk : ∀ p ∈ s.stored codec, p.tokenHash = hashToken sha256 token →
      p.expiresAt ≤ max e now := fun p hp hkey => (h.onDisk p hp hkey).trans (max_le_max le_rfl hclock)
  rcases after_cases codec sha256 now op s with ⟨sessionTtl, rfl⟩ | ⟨-, hsame | ⟨m, hm, hold⟩⟩
  · refine ⟨fun x hx hkey => ?_, hdisk⟩
    obtain ⟨p, hp, hlive, rfl⟩ := mem_loadSessions.mp hx
    -- the entry has not expired, so it is the bound that holds and not the clock
    exact (le_max_iff.mp (hdisk p hp hkey)).resolve_right (not_le.mpr hlive)
  · refine ⟨?_, ?_⟩
    · rw [hsame]
      exact h.live
    · rw [hsame]
      exact hdisk
  · have hlive : ∀ x ∈ m.values, x.tokenHash = hashToken sha256 token → x.expiresAt ≤ e := by
      intro x hx hkey
      rcases hold x hx with hx | hnew
      · exact h.live x hx hkey
      · cases op with
        | create madeAt t username =>
          cases hnew
          exact absurd (hinj hkey) hok
        | validate _ | logout _ | invalidate _ _ | restart _ => exact nomatch hnew
    refine ⟨?_, ?_⟩
    · rw [hm]
      exact hlive
    · rw [hm]
      intro p hp hkey
      obtain ⟨x, hx, rfl⟩ := AuthManager.mem_stored_persistSessions.mp hp
      exact ((expiresAt_persisted_le x).trans (hlive x hx hkey)).trans (le_max_left _ _)

/-- A bound on the lifetime of a token's session stays one. -/
theorem Capped.later (hinj : Function.Injective (hashToken sha256)) {token : Str} {e : Nat}
    (h : s.Capped codec (hashToken sha256 token) e) (hlater : Later codec sha256 token s s') :
    s'.Capped codec (hashToken sha256 token) e := by
  induction hlater with
  | refl => exact h
  | tail _ hstep ih => exact ih.step hinj hstep

/-- Past the bound the token does not validate. -/
theorem Capped.validate_eq_none {token : Str} {e now : Nat}
    (h : s.Capped codec (hashToken sha256 token) e) (hnow : e ≤ now) :
    (s.validate codec sha256 now token).1 = none := by
  rw [validate_fst]
  by_contra hsome
  obtain ⟨username, hvalid⟩ := Option.ne_none_iff_exists'.mp hsome
  obtain ⟨x, hx, hkey, -⟩ := validateToken_eq_some_iff.mp hvalid
  exact absurd hx.2 (not_lt.mpr ((h.live x hx.1 hkey).trans hnow))

/-- A session is its own bound. -/
theorem Mirrored.capped (h : s.Mirrored codec) {x : Session} (hx : x ∈ s.sessions.values) :
    s.Capped codec x.tokenHash x.expiresAt := by
  have hlive : ∀ y ∈ s.sessions.values, y.tokenHash = x.tokenHash → y.expiresAt ≤ x.expiresAt := by
    intro y hy hkey
    rw [s.sessions.eq_of_key_eq hy hx hkey]
  refine ⟨hlive, fun p hp hkey => ?_⟩
  rcases h.stale p hp with ⟨y, hy, rfl⟩ | hexpired
  · exact ((expiresAt_persisted_le y).trans (hlive y hy hkey)).trans (le_max_left _ _)
  · exact (hexpired.trans h.started).trans (le_max_right _ _)

/-- A hash without a session is over, also in the sidecar. -/
theorem Mirrored.capped_of_absent (h : s.Mirrored codec) {key : Str}
    (habsent : ∀ x ∈ s.sessions.values, x.tokenHash ≠ key) : s.Capped codec key s.clock := by
  refine ⟨fun x hx hkey => absurd hkey (habsent x hx), fun p hp hkey => ?_⟩
  rcases h.stale p hp with ⟨y, hy, rfl⟩ | hexpired
  · exact absurd hkey (habsent y hy)
  · exact (hexpired.trans h.started).trans (le_max_right _ _)

/-- The clock does not go back. -/
theorem Later.clock_le {token : Str} (h : Later codec sha256 token s s') : s.clock ≤ s'.clock := by
  induction h with
  | refl => exact le_rfl
  | tail _ hstep ih =>
    obtain ⟨now, op, -, -, hclock, rfl⟩ := hstep
    exact ih.trans hclock

/-- A token without a session never validates again, unless it is handed out anew. -/
theorem Mirrored.gone (hinj : Function.Injective (hashToken sha256)) (h : s.Mirrored codec)
    {token : Str} (habsent : ∀ x ∈ s.sessions.values, x.tokenHash ≠ hashToken sha256 token)
    (hlater : Later codec sha256 token s s') {t : Nat} (ht : s'.clock ≤ t) :
    (s'.validate codec sha256 t token).1 = none :=
  ((h.capped_of_absent habsent).later hinj hlater).validate_eq_none (hlater.clock_le.trans ht)

/-- After a logout no session has the token. -/
theorem absent_logout (now : Nat) (token : Str) :
    ∀ x ∈ (s.after codec sha256 now (.logout token)).sessions.values,
      x.tokenHash ≠ hashToken sha256 token := by
  show ∀ x ∈ (s.toAuthManager.logout codec sha256 token).sessions.values, _
  unfold AuthManager.logout
  split
  · intro x hx
    simpa using (List.mem_filter.mp hx).2
  · next hnone =>
    rw [Bool.not_eq_true, Option.isSome_eq_false_iff, Option.isNone_iff_eq_none] at hnone
    exact KeyedMap.get?_eq_none_iff.mp hnone

/-- Invalidating a user's sessions keeps the others, and the one of the kept token. -/
theorem sessions_invalidate (now : Nat) (username keepToken : Str) :
    (s.after codec sha256 now (.invalidate username keepToken)).sessions = s.sessions.retain fun x =>
      x.username ≠ username ∨ x.tokenHash = hashToken sha256 keepToken := by
  show (s.toAuthManager.invalidateSessionsForUserExcept codec sha256 username keepToken).2.sessions = _
  simp only [AuthManager.invalidateSessionsForUserExcept]
  split <;> rfl

/-- After an invalidation no other session of the user has its token. -/
theorem absent_invalidate (hinj : Function.Injective (hashToken sha256)) (now : Nat)
    {username keepToken token : Str} (hne : token ≠ keepToken) {x : Session}
    (hx : x ∈ s.sessions.values) (hkey : x.tokenHash = hashToken sha256 token)
    (hname : x.username = username) :
    ∀ y ∈ (s.after codec sha256 now (.invalidate username keepToken)).sessions.values,
      y.tokenHash ≠ hashToken sha256 token := by
  rw [sessions_invalidate]
  intro y hy hykey
  obtain ⟨hold, hkept⟩ := List.mem_filter.mp hy
  rw [s.sessions.eq_of_key_eq hold hx (hykey.trans hkey.symm)] at hkept
  rcases of_decide_eq_true hkept with hother | hkeep
  · exact hother hname
  · exact hne (hinj (hkey.symm.trans hkeep))

/-! ## The store is safe -/

/-- **The session store** after a run: what the sidecar holds, and what becomes of the sessions. -/
structure Safe (codec : SessionCodec F) (sha256 : List UInt8 → List UInt8) (s : StoreRun F) : Prop where
  /-- The sidecar holds the map, with the expiries in whole seconds. -/
  held : ∀ x ∈ s.sessions.values, x.persisted ∈ s.stored codec
  /-- What it holds besides had expired when the process started. -/
  stale : ∀ p ∈ s.stored codec,
    (∃ x ∈ s.sessions.values, x.persisted = p) ∨ p.expiresAt ≤ s.startedAt
  /-- It is exactly the map after every operation that changes the map. -/
  written : ∀ now op, (∀ sessionTtl, op ≠ .restart sessionTtl) →
    (s.after codec sha256 now op).sessions ≠ s.sessions →
    (s.after codec sha256 now op).Mirrors codec
  /-- A token that was logged out never validates again. -/
  loggedOut : ∀ now token s' t, s.clock ≤ now →
    Later codec sha256 token (s.after codec sha256 now (.logout token)) s' → s'.clock ≤ t →
    (s'.validate codec sha256 t token).1 = none
  /-- Nor does one that was invalidated. -/
  invalidated : ∀ now username keepToken token s' t, s.clock ≤ now → token ≠ keepToken →
    (∃ x ∈ s.sessions.values, x.tokenHash = hashToken sha256 token ∧ x.username = username) →
    Later codec sha256 token (s.after codec sha256 now (.invalidate username keepToken)) s' →
    s'.clock ≤ t → (s'.validate codec sha256 t token).1 = none
  /-- Nor does one whose session has expired. -/
  expired : ∀ x ∈ s.sessions.values, ∀ token s' t, x.tokenHash = hashToken sha256 token →
    Later codec sha256 token s s' → x.expiresAt ≤ t → (s'.validate codec sha256 t token).1 = none
  /-- A restart never extends a session. -/
  restarted : ∀ now sessionTtl, s.clock ≤ now →
    ∀ x' ∈ (s.after codec sha256 now (.restart sessionTtl)).sessions.values, ∃ x ∈ s.sessions.values,
      x.tokenHash = x'.tokenHash ∧ x.username = x'.username ∧ x'.expiresAt ≤ x.expiresAt
  /-- An operation changes neither the validity nor the user of any other token. -/
  others : ∀ now op token, ¬ op.ActsOn sha256 token s.sessions → ∀ t, now ≤ t →
    ((s.after codec sha256 now op).validate codec sha256 t token).1 =
      (s.validate codec sha256 t token).1

/-- **The session store is safe**, in every run with restarts at any point. -/
theorem sessions_safe (hinj : Function.Injective (hashToken sha256)) (h : s.Reachable codec sha256) :
    s.Safe codec sha256 := by
  have hm := h.mirrored
  have hstep : ∀ now op, op.MadeBy now → s.clock ≤ now →
      (s.after codec sha256 now op).Mirrored codec := by
    intro now op hmade hclock
    have hs : Step codec sha256 (fun _ => True) s (s.after codec sha256 now op) :=
      ⟨now, op, trivial, hmade, hclock, rfl⟩
    exact hm.step hs
  -- the clauses about one step come from the step, those about later from the invariant
  refine ⟨hm.held, hm.stale, fun now op hop hchanged => ?_, fun now token s' t hclock hlater ht => ?_,
    fun now username keepToken token s' t hclock hne ⟨x, hx, hkey, hname⟩ hlater ht => ?_,
    fun x hx token s' t hkey hlater ht => ?_, fun now sessionTtl hclock x' hx' => ?_,
    fun now op token hother t ht => ?_⟩
  · rcases after_cases codec sha256 now op s with ⟨sessionTtl, heq⟩ | ⟨-, hsame | ⟨m, hwritten, -⟩⟩
    · exact absurd heq (hop sessionTtl)
    · rw [hsame] at hchanged
      exact absurd rfl hchanged
    · rw [hwritten]
      exact AuthManager.stored_persistSessions m
  · exact (hstep now (.logout token) trivial hclock).gone hinj (absent_logout now token) hlater ht
  · exact (hstep now (.invalidate username keepToken) trivial hclock).gone hinj
      (absent_invalidate hinj now hne hx hkey hname) hlater ht
  · have hcap := hm.capped hx
    rw [hkey] at hcap
    exact (hcap.later hinj hlater).validate_eq_none ht
  -- a restart reads back only what was live when it was written
  · obtain ⟨p, hp, hlive, rfl⟩ := mem_loadSessions.mp hx'
    rcases hm.stale p hp with ⟨x, hx, rfl⟩ | hexpired
    · exact ⟨x, hx, rfl, rfl, expiresAt_persisted_le x⟩
    · exact absurd ((hexpired.trans hm.started).trans hclock) (not_le.mpr hlive)
  -- another's operation
  · rw [validate_fst, validate_fst]
    refine Option.ext fun username => ?_
    rw [validateToken_eq_some_iff, validateToken_eq_some_iff]
    refine exists_congr fun x => ?_
    constructor
    · rintro ⟨hx, hkey, hname⟩
      exact ⟨(liveAt_run hinj hother ht hkey).mp hx, hkey, hname⟩
    · rintro ⟨hx, hkey, hname⟩
      exact ⟨(liveAt_run hinj hother ht hkey).mpr hx, hkey, hname⟩

/-! ### A restart after an expiry -/

/-- A file is what it holds. -/
def plainCodec : SessionCodec PersistedSessions := ⟨id, some, fun m => ⟨m, rfl, .refl _⟩⟩

/-- Without a hash, different tokens have different keys. -/
theorem hashToken_id_injective : Function.Injective (hashToken id) :=
  hexEncode_injective.comp utf8_injective

/-- A session of one second in a new store. -/
def oneSessionStore : StoreRun PersistedSessions :=
  (start plainCodec 0 (some nanosPerSecond) none).after plainCodec id 0
    (.create 0 "t".toList "localhost".toList)

/-- The WebUI restarts a second after the session has expired. -/
def staleStore : StoreRun PersistedSessions :=
  oneSessionStore.after plainCodec id (2 * nanosPerSecond) (.restart none)

/-- The store with one session is reachable. -/
theorem oneSessionStore_reachable : oneSessionStore.Reachable plainCodec id := by
  refine ⟨0, some nanosPerSecond, none, .single ?_⟩
  exact ⟨0, .create 0 "t".toList "localhost".toList, trivial, le_rfl, le_rfl, rfl⟩

/-- The store with a stale sidecar is reachable. -/
theorem staleStore_reachable : staleStore.Reachable plainCodec id := by
  obtain ⟨now, sessionTtl, sidecar, hrun⟩ := oneSessionStore_reachable
  refine ⟨now, sessionTtl, sidecar, hrun.tail ?_⟩
  exact ⟨2 * nanosPerSecond, .restart none, trivial, trivial, Nat.zero_le _, rfl⟩

/-- **The sidecar still holds the expired session**, and the map does not. -/
theorem not_mirrors_staleStore :
    staleStore.Reachable plainCodec id ∧ staleStore.sessions.values = [] ∧
      (staleStore.stored plainCodec).map PersistedSession.username = ["localhost".toList] ∧
      ¬ staleStore.Mirrors plainCodec := by
  have hempty : staleStore.sessions.values = [] := by decide +kernel
  have hstored : (staleStore.stored plainCodec).map PersistedSession.username =
      ["localhost".toList] := by decide +kernel
  refine ⟨staleStore_reachable, hempty, hstored, fun h => ?_⟩
  have hlen := h.length_eq
  have hone : (staleStore.stored plainCodec).length = 1 := by
    simpa using congrArg List.length hstored
  rw [persistedSessions, List.length_map, hempty, hone] at hlen
  exact nomatch hlen

/-- While the session lasts it validates. -/
theorem sessions_safe_oneSessionStore :
    (oneSessionStore.validate plainCodec id 0 "t".toList).1 = some "localhost".toList ∧
      oneSessionStore.Safe plainCodec id :=
  ⟨by decide +kernel, sessions_safe hashToken_id_injective oneSessionStore_reachable⟩

end StoreRun

end NfsKlldap
