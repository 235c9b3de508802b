import NfsKlldap.Lib.Lending
import NfsKlldap.Lib.Runs
import NfsKlldap.Lib.Text

/-! # The connection pool of the resolver (`ldap/resolver.rs`)

Searches reuse bound connections. A search takes the last connection of the pool that is bound as its
DN and has not idled, or connects afresh; a connection that answers goes back to the pool, one that
fails is closed. Any number of searches run at a time, and each step of one of them is a step here.

* **`PoolState.step`** — one step of a search, of the server or of the clock;
* **`Places`** — where the connections are, which every step moves along `Lending.Moves`;
* **`PoolSafe`** — what holds in every state reached;
* **`Heals`** — the search returns what the directory answers;
* **`connPool_heals_iff`** — when it does. -/

namespace NfsKlldap

open Text Lending Runs

/-! ## The pool -/

/-- A bound connection, whom it authenticated as, and when it was last used. -/
structure PooledConn where
  ldap : Nat
  boundAs : Str
  lastUsed : Nat
  deriving DecidableEq

/-- `POOL_IDLE_MAX`, in nanoseconds. -/
def poolIdleMax : Nat := 300 * 10 ^ 9

/-- `POOL_MAX_CONNS` -/
def poolMaxConns : Nat := 4

/-- `pool_entry_stale` -/
def poolEntryStale (lastUsed now : Nat) : Bool := poolIdleMax < now - lastUsed

/-- `take_pooled_conn`: what has idled or is bound as someone else is closed, and the last one of the
others is taken. -/
def takePooledConn (bindDn : Str) (now : Nat) (pool : List PooledConn) :
    Option PooledConn × List PooledConn :=
  let kept := pool.filter fun p => p.boundAs = bindDn && !poolEntryStale p.lastUsed now
  (kept.getLast?, kept.dropLast)

/-- `store_pooled_conn`: a full pool takes no more. -/
def storePooledConn (ldap : Nat) (bindDn : Str) (now : Nat) (pool : List PooledConn) :
    List PooledConn :=
  if poolMaxConns ≤ pool.length then pool else pool ++ [⟨ldap, bindDn, now⟩]

/-! ## Searches -/

variable {β α : Type}

/-- What comes back from the worker of an attempt, if anything does in time. -/
inductive WorkOutcome (α : Type) where
  | entries (rs : α)
  | failed (e : Str)
  | timedOut (secs : Nat)
  deriving DecidableEq

/-- Where a search is: before an attempt, with the worker of an attempt on a pooled or a fresh
connection, with the answer in hand, or at its end. -/
inductive SearchPhase (α : Type) where
  | taking (attempt : Nat)
  | working (attempt : Nat) (pooled : Option Nat)
  | storing (ldap : Nat) (rs : α)
  | done (res : Except Str α)

/-- A call of `service_search`. -/
structure SearchCall (β α : Type) where
  bindDn : Str
  query : β
  phase : SearchPhase α
  /-- How many steps the call has taken. -/
  turns : Nat

/-- The pool, the calls, the connections as the server knows them, and the clock. -/
structure PoolState (β α : Type) where
  pool : List PooledConn
  calls : Nat → Option (SearchCall β α)
  /-- The connections are numbered in the order they are opened in. -/
  opened : Nat
  bindings : Nat → Str
  dead : Nat → Bool
  /-- The connections on which an operation has failed. -/
  failed : List Nat
  clock : Nat

/-- What happens. -/
inductive PoolEvent (β α : Type) where
  | call (c : Nat) (bindDn : Str) (query : β)
  | take (c : Nat)
  | work (c : Nat) (o : WorkOutcome α)
  | store (c : Nat)
  | die (ldap : Nat)
  | tick (n : Nat)

/-- After an attempt that failed: one on a pooled connection is followed by the next one, also when
there is none left. -/
def afterFailure (attempt : Nat) (reused : Bool) (e : Str) : SearchPhase α :=
  if reused then
    if attempt + 1 < 3 then .taking (attempt + 1) else .done (.error "exhausted retries".toList)
  else if attempt = 2 then .done (.error e)
  else .taking (attempt + 1)

/-- The error of an attempt that does not come back. -/
def timedOutText (secs : Nat) : Str :=
  "ldap operation timed out after ".toList ++ natDecimal secs ++ ['s']

namespace PoolState

/-- A call takes a step. -/
def advance (s : PoolState β α) (c : Nat) (call : SearchCall β α) (phase : SearchPhase α) :
    PoolState β α :=
  { s with
    calls := Function.update s.calls c (some { call with phase := phase, turns := call.turns + 1 }) }

/-- The worker of an attempt comes back from a pooled connection. -/
def workPooled (s : PoolState β α) (c : Nat) (call : SearchCall β α) (attempt ldap : Nat) :
    WorkOutcome α → PoolState β α
  | .entries rs =>
    -- no answer comes over a dead connection
    if s.dead ldap then s else s.advance c call (.storing ldap rs)
  | .failed e => { s.advance c call (afterFailure attempt true e) with failed := ldap :: s.failed }
  | .timedOut secs => s.advance c call (.done (.error (timedOutText secs)))

/-- The worker of an attempt comes back from a connection of its own, which it has bound unless it
failed. -/
def workFresh (s : PoolState β α) (c : Nat) (call : SearchCall β α) (attempt : Nat) :
    WorkOutcome α → PoolState β α
  | .entries rs =>
    { s.advance c call (.storing s.opened rs) with
      opened := s.opened + 1
      bindings := Function.update s.bindings s.opened call.bindDn }
  | .failed e =>
    { s.advance c call (afterFailure attempt false e) with
      opened := s.opened + 1
      failed := s.opened :: s.failed }
  | .timedOut secs =>
    { s.advance c call (.done (.error (timedOutText secs))) with opened := s.opened + 1 }

/-- An attempt takes a connection. -/
def takeFor (s : PoolState β α) (c : Nat) (call : SearchCall β α) (attempt : Nat) :
    PoolState β α :=
  let (taken, pool) := takePooledConn call.bindDn s.clock s.pool
  { s.advance c call (.working attempt (taken.map PooledConn.ldap)) with pool := pool }

/-- A call that has its answer gives the connection back, and returns. -/
def storeFor (s : PoolState β α) (c : Nat) (call : SearchCall β α) (ldap : Nat) (rs : α) :
    PoolState β α :=
  { s.advance c call (.done (.ok rs)) with
    pool := storePooledConn ldap call.bindDn s.clock s.pool }

/-- A call starts. -/
def enter (s : PoolState β α) (c : Nat) (bindDn : Str) (query : β) : PoolState β α :=
  { s with calls := Function.update s.calls c (some ⟨bindDn, query, .taking 0, 0⟩) }

/-- One step. What cannot happen changes nothing. -/
def step (s : PoolState β α) : PoolEvent β α → PoolState β α
  | .call c bindDn query => if (s.calls c).isSome then s else s.enter c bindDn query
  | .take c =>
    match s.calls c with
    | some call =>
      match call.phase with
      | .taking attempt => s.takeFor c call attempt
      | _ => s
    | none => s
  | .work c o =>
    match s.calls c with
    | some call =>
      match call.phase with
      | .working attempt (some ldap) => s.workPooled c call attempt ldap o
      | .working attempt none => s.workFresh c call attempt o
      | _ => s
    | none => s
  | .store c =>
    match s.calls c with
    | some call =>
      match call.phase with
      | .storing ldap rs => s.storeFor c call ldap rs
      | _ => s
    | none => s
  | .die ldap => if ldap < s.opened then { s with dead := Function.update s.dead ldap true } else s
  | .tick n => { s with clock := s.clock + n }

/-- Before the first search. -/
def init : PoolState β α := ⟨[], fun _ => none, 0, fun _ => [], fun _ => false, [], 0⟩

end PoolState

/-! ## What a step can do -/

/-- The steps, with what each needs. -/
inductive PoolMove (s : PoolState β α) : PoolEvent β α → PoolState β α → Prop where
  | stay (ev : PoolEvent β α) : PoolMove s ev s
  | enter {c : Nat} {bindDn : Str} {query : β} (hc : s.calls c = none) :
      PoolMove s (.call c bindDn query) (s.enter c bindDn query)
  | take {c : Nat} {call : SearchCall β α} {attempt : Nat} (hc : s.calls c = some call)
      (hphase : call.phase = .taking attempt) : PoolMove s (.take c) (s.takeFor c call attempt)
  | workPooled {c : Nat} {call : SearchCall β α} {attempt ldap : Nat} {o : WorkOutcome α}
      (hc : s.calls c = some call) (hphase : call.phase = .working attempt (some ldap)) :
      PoolMove s (.work c o) (s.workPooled c call attempt ldap o)
  | workFresh {c : Nat} {call : SearchCall β α} {attempt : Nat} {o : WorkOutcome α}
      (hc : s.calls c = some call) (hphase : call.phase = .working attempt none) :
      PoolMove s (.work c o) (s.workFresh c call attempt o)
  | store {c : Nat} {call : SearchCall β α} {ldap : Nat} {rs : α} (hc : s.calls c = some call)
      (hphase : call.phase = .storing ldap rs) : PoolMove s (.store c) (s.storeFor c call ldap rs)
  | die {ldap : Nat} (h : ldap < s.opened) :
      PoolMove s (.die ldap) { s with dead := Function.update s.dead ldap true }
  | tick (n : Nat) : PoolMove s (.tick n) { s with clock := s.clock + n }

section Steps

variable {s : PoolState β α} {c : Nat} {call : SearchCall β α}

/-- A call that is taking takes. -/
theorem step_take {attempt : Nat} (hc : s.calls c = some call)
    (hphase : call.phase = .taking attempt) : s.step (.take c) = s.takeFor c call attempt := by
  simp only [PoolState.step, hc, hphase]

/-- A call with a pooled connection works on it. -/
theorem step_workPooled {attempt ldap : Nat} {o : WorkOutcome α} (hc : s.calls c = some call)
    (hphase : call.phase = .working attempt (some ldap)) :
    s.step (.work c o) = s.workPooled c call attempt ldap o := by
  simp only [PoolState.step, hc, hphase]

/-- A call without a connection works on a fresh one. -/
theorem step_workFresh {attempt : Nat} {o : WorkOutcome α} (hc : s.calls c = some call)
    (hphase : call.phase = .working attempt none) :
    s.step (.work c o) = s.workFresh c call attempt o := by
  simp only [PoolState.step, hc, hphase]

/-- A call that is storing stores. -/
theorem step_store {ldap : Nat} {rs : α} (hc : s.calls c = some call)
    (hphase : call.phase = .storing ldap rs) : s.step (.store c) = s.storeFor c call ldap rs := by
  simp only [PoolState.step, hc, hphase]

/-- **Every step is one of these.** -/
theorem poolMove_step (s : PoolState β α) (ev : PoolEvent β α) : PoolMove s ev (s.step ev) := by
  cases ev with
  | call c bindDn query =>
    rw [PoolState.step]
    split
    · exact .stay _
    · exact .enter (by simp_all)
  -- a step of a call that is not waiting for it changes nothing
  | take c =>
    cases hc : s.calls c with
    | none => simpa only [PoolState.step, hc] using .stay _
    | some call =>
      cases hphase : call.phase with
      | taking attempt =>
        rw [step_take hc hphase]
        exact .take hc hphase
      | working attempt pooled => simpa only [PoolState.step, hc, hphase] using .stay _
      | storing ldap rs => simpa only [PoolState.step, hc, hphase] using .stay _
      | done res => simpa only [PoolState.step, hc, hphase] using .stay _
  -- the work of a call differs with the connection it holds
  | work c o =>
    cases hc : s.calls c with
    | none => simpa only [PoolState.step, hc] using .stay _
    | some call =>
      cases hphase : call.phase with
      | working attempt pooled =>
        cases pooled with
        | some ldap =>
          rw [step_workPooled hc hphase]
          exact .workPooled hc hphase
        | none =>
          rw [step_workFresh hc hphase]
          exact .workFresh hc hphase
      | taking attempt => simpa only [PoolState.step, hc, hphase] using .stay _
      | storing ldap rs => simpa only [PoolState.step, hc, hphase] using .stay _
      | done res => simpa only [PoolState.step, hc, hphase] using .stay _
  | store c =>
    cases hc : s.calls c with
    | none => simpa only [PoolState.step, hc] using .stay _
    | some call =>
      cases hphase : call.phase with
      | storing ldap rs =>
        rw [step_store hc hphase]
        exact .store hc hphase
      | taking attempt => simpa only [PoolState.step, hc, hphase] using .stay _
      | working attempt pooled => simpa only [PoolState.step, hc, hphase] using .stay _
      | done res => simpa only [PoolState.step, hc, hphase] using .stay _
  -- only an open connection dies
  | die ldap =>
    rw [PoolState.step]
    split
    · exact .die ‹_›
    · exact .stay _
  | tick n => exact .tick n

end Steps

/-! ## Where the connections are -/

/-- The connection that a search has in hand. -/
def SearchPhase.conn : SearchPhase α → Option Nat
  | .working _ pooled => pooled
  | .storing ldap _ => some ldap
  | _ => none

/-- After a failure a call has nothing in hand. -/
@[simp] theorem conn_afterFailure (attempt : Nat) (reused : Bool) (e : Str) :
    (afterFailure attempt reused e : SearchPhase α).conn = none := by
  unfold afterFailure
  split_ifs <;> rfl

/-- A call has a connection in hand. -/
def PoolState.Holds (s : PoolState β α) (c ldap : Nat) : Prop :=
  ∃ call, s.calls c = some call ∧ call.phase.conn = some ldap

/-- **Where the connections are**: in the pool, with a call, or closed; those on which an operation
failed are closed. A connection is bound as what the pool or its call takes it for. -/
structure Places (s : PoolState β α) (place : Nat → Place Nat) : Prop where
  pooled : ∀ k, place k = .pooled ↔ k ∈ s.pool.map PooledConn.ldap
  held : ∀ k c, place k = .held c ↔ s.Holds c k
  unopened : ∀ k, place k = .unopened ↔ s.opened ≤ k
  nodup : (s.pool.map PooledConn.ldap).Nodup
  failed : ∀ k ∈ s.failed, place k = .closed
  pooledAs : ∀ p ∈ s.pool, s.bindings p.ldap = p.boundAs
  heldAs : ∀ c call k, s.calls c = some call → call.phase.conn = some k →
    s.bindings k = call.bindDn
  bounded : s.pool.length ≤ poolMaxConns

/-- At the start no connection has been opened. -/
theorem places_init : Places (PoolState.init : PoolState β α) fun _ => .unopened where
  pooled _ := by simp [PoolState.init]
  held _ _ := by simp [PoolState.init, PoolState.Holds]
  unopened _ := by simp [PoolState.init]
  nodup := List.nodup_nil
  failed _ h := absurd h List.not_mem_nil
  pooledAs _ h := absurd h List.not_mem_nil
  heldAs _ _ _ h := by simp [PoolState.init] at h
  bounded := Nat.zero_le _

section Moving

variable {s : PoolState β α} {place : Nat → Place Nat} {c : Nat} {call : SearchCall β α}
  {q : SearchPhase α}

/-- The call that advances is in its new phase, one turn on. -/
theorem advance_calls_self (s : PoolState β α) (c : Nat) (call : SearchCall β α)
    (q : SearchPhase α) : (s.advance c call q).calls c =
      some { call with phase := q, turns := call.turns + 1 } :=
  Function.update_self ..

/-- The other calls stay in their phases. -/
theorem advance_calls_of_ne {c' : Nat} (h : c' ≠ c) :
    (s.advance c call q).calls c' = s.calls c' :=
  Function.update_of_ne h ..

/-- The call that advances holds what its new phase has in hand. -/
theorem holds_advance_self {s' : PoolState β α} (hcalls : s'.calls = (s.advance c call q).calls)
    {k : Nat} : s'.Holds c k ↔ q.conn = some k := by
  rw [PoolState.Holds, hcalls, advance_calls_self]
  simp

/-- The other calls hold what they held. -/
theorem holds_advance_of_ne {s' : PoolState β α} (hcalls : s'.calls = (s.advance c call q).calls)
    {c' k : Nat} (h : c' ≠ c) : s'.Holds c' k ↔ s.Holds c' k := by
  rw [PoolState.Holds, PoolState.Holds, hcalls, advance_calls_of_ne h]

/-- What is pooled or held has been opened. -/
theorem Places.lt_opened (h : Places s place) {k : Nat} (hk : place k ≠ .unopened) :
    k < s.opened := by
  by_contra hlt
  exact hk ((h.unopened k).mpr (Nat.le_of_not_lt hlt))

/-- The connection of a call is with it. -/
theorem Places.eq_held (h : Places s place) (hc : s.calls c = some call) {k : Nat}
    (hk : call.phase.conn = some k) : place k = .held c :=
  (h.held k c).mpr ⟨call, hc, hk⟩

/-- A call with nothing in hand holds no connection. -/
theorem Places.ne_held (h : Places s place) (hc : s.calls c = some call) (hnone : call.phase.conn = none)
    (k : Nat) : place k ≠ .held c := by
  intro hk
  obtain ⟨call', hcall', hconn⟩ := (h.held k c).mp hk
  rw [hc, Option.some_inj] at hcall'
  subst hcall'
  exact absurd (hnone.symm.trans hconn) (by simp)

/-- Held connections stay bound as their calls want them, when the one in hand after the step is. -/
theorem Places.heldAs_advance {s' : PoolState β α} (h : Places s place)
    (hcalls : s'.calls = (s.advance c call q).calls)
    (hbound : ∀ k, q.conn = some k → s'.bindings k = call.bindDn)
    (hbindings : ∀ k < s.opened, s'.bindings k = s.bindings k) (c' : Nat) (call' : SearchCall β α)
    (k : Nat) (hcall : s'.calls c' = some call') (hk : call'.phase.conn = some k) :
    s'.bindings k = call'.bindDn := by
  rw [hcalls] at hcall
  by_cases hc' : c' = c
  · subst hc'
    rw [advance_calls_self, Option.some_inj] at hcall
    subst hcall
    exact hbound k hk
  · rw [advance_calls_of_ne hc'] at hcall
    have hplace := h.eq_held hcall hk
    rw [hbindings k (h.lt_opened (by simp [hplace])), h.heldAs c' call' k hcall hk]

/-- **The rule for a step of a call** that leaves the pool as it is: its connection goes where
`place'` says, and the others stay. -/
theorem Places.advance {s' : PoolState β α} {place' : Nat → Place Nat} (h : Places s place)
    (hc : s.calls c = some call) (hcalls : s'.calls = (s.advance c call q).calls)
    (hpool : s'.pool = s.pool)
    (hpooled : ∀ k, place' k = .pooled ↔ place k = .pooled)
    (hself : ∀ k, place' k = .held c ↔ q.conn = some k)
    (hother : ∀ k c', c' ≠ c → (place' k = .held c' ↔ place k = .held c'))
    (hunopened : ∀ k, place' k = .unopened ↔ s'.opened ≤ k)
    (hfailed : ∀ k ∈ s'.failed, place' k = .closed)
    (hbound : ∀ k, q.conn = some k → s'.bindings k = call.bindDn)
    (hbindings : ∀ k < s.opened, s'.bindings k = s.bindings k) : Places s' place' where
  pooled k := by rw [hpooled, h.pooled, hpool]
  held k c' := by
    by_cases hc' : c' = c
    · subst hc'
      rw [hself, holds_advance_self hcalls]
    · rw [hother k c' hc', h.held, holds_advance_of_ne hcalls hc']
  unopened := hunopened
  nodup := by rw [hpool]; exact h.nodup
  failed := hfailed
  pooledAs p hp := by
    rw [hpool] at hp
    have hplace := (h.pooled p.ldap).mpr (List.mem_map_of_mem hp)
    rw [hbindings p.ldap (h.lt_opened (by simp [hplace])), h.pooledAs p hp]
  heldAs := h.heldAs_advance hcalls hbound hbindings
  bounded := by rw [hpool]; exact h.bounded

/-- A call lets its connection go. -/
theorem Places.release {s' : PoolState β α} {k : Nat} (h : Places s place)
    (hc : s.calls c = some call) (hk : call.phase.conn = some k) (hphase : q.conn = none)
    (hcalls : s'.calls = (s.advance c call q).calls) (hpool : s'.pool = s.pool)
    (hopened : s'.opened = s.opened) (hbindings : s'.bindings = s.bindings)
    (hfailed : ∀ k' ∈ s'.failed, k' = k ∨ k' ∈ s.failed) :
    Places s' (Function.update place k .closed) := by
  have hplace := h.eq_held hc hk
  refine h.advance hc hcalls hpool ?_ ?_ ?_ ?_ ?_ ?_ (fun k' _ => by rw [hbindings])
  · intro k'
    by_cases hk' : k' = k
    · subst hk'
      simp [hplace]
    · rw [Function.update_of_ne hk']
  · intro k'
    by_cases hk' : k' = k
    · subst hk'
      simp [hphase]
    · rw [Function.update_of_ne hk', hphase]
      refine iff_of_false (fun hheld => hk' ?_) (by simp)
      -- the call has one connection in hand
      obtain ⟨call', hcall', hconn⟩ := (h.held k' c).mp hheld
      rw [hc, Option.some_inj] at hcall'
      subst hcall'
      exact Option.some.inj (hconn.symm.trans hk)
  · intro k' c' hc'
    by_cases hk' : k' = k
    · subst hk'
      simp [hplace, Ne.symm hc']
    · rw [Function.update_of_ne hk']
  · intro k'
    rw [hopened]
    by_cases hk' : k' = k
    · subst hk'
      simp [h.lt_opened (k := k') (by simp [hplace])]
    · rw [Function.update_of_ne hk', h.unopened]
  · intro k' hk'
    rcases hfailed k' hk' with rfl | hold
    · exact Function.update_self ..
    · by_cases hne : k' = k
      · subst hne
        exact Function.update_self ..
      · rw [Function.update_of_ne hne, h.failed k' hold]
  · intro k' hk'
    rw [hphase] at hk'
    exact absurd hk' (by simp)

/-- A call opens a connection, and keeps it or lets it go. -/
theorem Places.openFresh {s' : PoolState β α} {p : Place Nat} (h : Places s place)
    (hc : s.calls c = some call) (hnone : call.phase.conn = none)
    (hp : q.conn = some s.opened ∧ p = .held c ∨ q.conn = none ∧ p = .closed)
    (hcalls : s'.calls = (s.advance c call q).calls) (hpool : s'.pool = s.pool)
    (hopened : s'.opened = s.opened + 1) (hbindings : ∀ k < s.opened, s'.bindings k = s.bindings k)
    (hbound : q.conn = some s.opened → s'.bindings s.opened = call.bindDn)
    (hfailed : ∀ k ∈ s'.failed, k = s.opened ∧ p = .closed ∨ k ∈ s.failed) :
    Places s' (Function.update place s.opened p) := by
  -- the new number was unopened, so that nobody held or pooled it
  have hplace : place s.opened = .unopened := (h.unopened _).mpr le_rfl
  have hnot := h.ne_held hc hnone
  refine h.advance hc hcalls hpool ?_ ?_ ?_ ?_ ?_ ?_ hbindings
  -- the pool is as it was
  · intro k
    by_cases hk : k = s.opened
    · subst hk
      rcases hp with ⟨-, rfl⟩ | ⟨-, rfl⟩ <;> simp [hplace]
    · rw [Function.update_of_ne hk]
  -- the call holds the new connection, or none
  · intro k
    by_cases hk : k = s.opened
    · subst hk
      rcases hp with ⟨hphase, rfl⟩ | ⟨hphase, rfl⟩ <;> simp [hphase]
    · rw [Function.update_of_ne hk]
      refine iff_of_false (hnot k) fun hconn => ?_
      rcases hp with ⟨hphase, -⟩ | ⟨hphase, -⟩
      · exact hk (Option.some.inj (hconn.symm.trans hphase))
      · exact absurd (hconn.symm.trans hphase) (by simp)
  -- nobody else is given it
  · intro k c' hc'
    by_cases hk : k = s.opened
    · subst hk
      rcases hp with ⟨-, rfl⟩ | ⟨-, rfl⟩ <;> simp [hplace, Ne.symm hc']
    · rw [Function.update_of_ne hk]
  · intro k
    rw [hopened]
    by_cases hk : k = s.opened
    · subst hk
      rcases hp with ⟨-, rfl⟩ | ⟨-, rfl⟩ <;> simp
    · rw [Function.update_of_ne hk, h.unopened]
      omega
  -- and what had failed stays closed
  · intro k hk
    rcases hfailed k hk with ⟨rfl, rfl⟩ | hold
    · exact Function.update_self ..
    · by_cases hne : k = s.opened
      · subst hne
        exact absurd ((h.failed _ hold).symm.trans hplace) (by simp)
      · rw [Function.update_of_ne hne, h.failed k hold]
  · intro k hk
    rcases hp with ⟨hphase, -⟩ | ⟨hphase, -⟩
    · obtain rfl := Option.some.inj (hk.symm.trans hphase)
      exact hbound hphase
    · exact absurd (hk.symm.trans hphase) (by simp)

/-- What is taken and what is left are the connections of the pool that can be used, in their
order. -/
theorem takePooledConn_append (bindDn : Str) (now : Nat) (pool : List PooledConn) :
    (takePooledConn bindDn now pool).2 ++ (takePooledConn bindDn now pool).1.toList =
      pool.filter fun p => p.boundAs = bindDn && !poolEntryStale p.lastUsed now := by
  rw [takePooledConn]
  dsimp only
  cases hlast : (pool.filter fun p => p.boundAs = bindDn && !poolEntryStale p.lastUsed now).getLast?
    with
  | none =>
    rw [List.getLast?_eq_none_iff.mp hlast]
    rfl
  | some p =>
    obtain ⟨rest, hrest⟩ := List.getLast?_eq_some_iff.mp hlast
    rw [hrest]
    simp

/-- Where the connections are after a call has taken one: the ones it passed over are closed. -/
def takenPlace (place : Nat → Place Nat) (c : Nat) (taken : Option Nat) (rest : List Nat) (k : Nat) :
    Place Nat :=
  if place k = .pooled then
    if taken = some k then .held c else if k ∈ rest then .pooled else .closed
  else place k

section TakenPlace

variable {taken : Option Nat} {rest : List Nat} {k : Nat}

/-- Taking a connection moves the connections as they may move. -/
theorem movesAll_takenPlace (place : Nat → Place Nat) (c : Nat) (taken : Option Nat)
    (rest : List Nat) : MovesAll place (takenPlace place c taken rest) := by
  intro k
  unfold takenPlace
  split_ifs with hk htaken hrest
  · rw [hk]
    exact .lend c
  · rw [hk]
    exact .stay _
  · exact .close _
  · exact .stay _

/-- What is left in the pool is pooled. -/
theorem takenPlace_eq_pooled_iff (hrest : ∀ k ∈ rest, place k = .pooled)
    (htaken : taken = some k → k ∉ rest) :
    takenPlace place c taken rest k = .pooled ↔ k ∈ rest := by
  rw [takenPlace]
  by_cases hk : place k = .pooled
  · rw [if_pos hk]
    split_ifs with heq hmem
    · exact iff_of_false (by simp) (htaken heq)
    · exact iff_of_true rfl hmem
    · exact iff_of_false (by simp) hmem
  · rw [if_neg hk]
    exact iff_of_false hk fun hmem => hk (hrest k hmem)

/-- The call holds what it has taken. -/
theorem takenPlace_eq_held_iff (hnot : place k ≠ .held c) (htaken : taken = some k → place k = .pooled) :
    takenPlace place c taken rest k = .held c ↔ taken = some k := by
  rw [takenPlace]
  by_cases heq : taken = some k
  · rw [if_pos (htaken heq), if_pos heq]
    exact iff_of_true rfl heq
  · rw [if_neg heq]
    refine iff_of_false (fun hheld => ?_) heq
    split_ifs at hheld
    exact hnot hheld

/-- The other calls hold what they held. -/
theorem takenPlace_eq_held_of_ne {c' : Nat} (hc' : c' ≠ c) :
    takenPlace place c taken rest k = .held c' ↔ place k = .held c' := by
  rw [takenPlace]
  by_cases hk : place k = .pooled
  · rw [if_pos hk, hk]
    split_ifs <;> simp [Ne.symm hc']
  · rw [if_neg hk]

/-- Taking a connection opens none. -/
theorem takenPlace_eq_unopened_iff :
    takenPlace place c taken rest k = .unopened ↔ place k = .unopened := by
  rw [takenPlace]
  by_cases hk : place k = .pooled
  · rw [if_pos hk, hk]
    split_ifs <;> simp
  · rw [if_neg hk]

/-- What is closed stays closed. -/
theorem takenPlace_of_closed (hk : place k = .closed) : takenPlace place c taken rest k = .closed := by
  rw [takenPlace, hk]
  rfl

end TakenPlace

/-- What a look into the pool takes, and what it leaves: parts of the pool, and different ones. -/
structure TakenFrom (s : PoolState β α) (place : Nat → Place Nat) (bindDn : Str)
    (taken : Option PooledConn) (rest : List PooledConn) : Prop where
  kept : rest.Sublist s.pool
  nodup : (rest.map PooledConn.ldap).Nodup
  left : ∀ k ∈ rest.map PooledConn.ldap, place k = .pooled
  pooled : ∀ k, taken.map PooledConn.ldap = some k → place k = .pooled
  apart : ∀ k, taken.map PooledConn.ldap = some k → k ∉ rest.map PooledConn.ldap
  /-- The pool only hands out what is bound as the call asks for. -/
  boundAs : ∀ p, taken = some p → p ∈ s.pool ∧ p.boundAs = bindDn

/-- What a look into the pool takes is where the pool had it. -/
theorem Places.takenFrom (h : Places s place) {bindDn : Str} {taken : Option PooledConn}
    {rest : List PooledConn} (htake : takePooledConn bindDn s.clock s.pool = (taken, rest)) :
    TakenFrom s place bindDn taken rest := by
  have happend := takePooledConn_append bindDn s.clock s.pool
  rw [htake] at happend
  -- what is taken and what stays come from the pool, each number once
  have hsub : (rest ++ taken.toList).Sublist s.pool := by
    rw [happend]
    exact List.filter_sublist
  have hrest : rest.Sublist s.pool := (List.sublist_append_left rest _).trans hsub
  have hids : (rest.map PooledConn.ldap ++ (taken.map PooledConn.ldap).toList).Nodup := by
    have hmap := (hsub.map PooledConn.ldap).nodup h.nodup
    rwa [List.map_append, ← Option.toList_map] at hmap
  refine ⟨hrest, (List.nodup_append.mp hids).1, fun k hk => ?_, fun k hk => ?_, fun k hk hmem => ?_,
    fun p hp => ?_⟩
  · exact (h.pooled k).mpr ((hrest.map _).subset hk)
  · obtain ⟨p, rfl, rfl⟩ := Option.map_eq_some_iff.mp hk
    exact (h.pooled _).mpr (List.mem_map_of_mem (hsub.subset (by simp)))
  · exact (List.nodup_append.mp hids).2.2 _ hmem _ (by simp [hk]) rfl
  · have hmem : p ∈ s.pool.filter fun p =>
        p.boundAs = bindDn && !poolEntryStale p.lastUsed s.clock := by
      rw [← happend, hp]
      simp
    rw [List.mem_filter, Bool.and_eq_true, decide_eq_true_eq] at hmem
    exact ⟨hmem.1, hmem.2.1⟩

/-- A call takes a connection out of the pool, if there is one for it. -/
theorem Places.take {s' : PoolState β α} (h : Places s place) (hc : s.calls c = some call)
    (hnone : call.phase.conn = none) {taken : Option PooledConn} {rest : List PooledConn}
    (htake : takePooledConn call.bindDn s.clock s.pool = (taken, rest))
    (hphase : q.conn = taken.map PooledConn.ldap)
    (hcalls : s'.calls = (s.advance c call q).calls) (hpool : s'.pool = rest)
    (hopened : s'.opened = s.opened) (hbindings : s'.bindings = s.bindings)
    (hfailed : s'.failed = s.failed) :
    Places s' (takenPlace place c (taken.map PooledConn.ldap) (rest.map PooledConn.ldap)) := by
  -- what is taken and what stays are told apart by their numbers, and the stale ones go nowhere
  have hfrom := h.takenFrom htake
  constructor
  case pooled =>
    intro k
    rw [hpool]
    exact takenPlace_eq_pooled_iff hfrom.left (hfrom.apart k)
  case held =>
    intro k c'
    by_cases hc' : c' = c
    · subst hc'
      rw [holds_advance_self hcalls, hphase]
      exact takenPlace_eq_held_iff (h.ne_held hc hnone k) (hfrom.pooled k)
    · rw [holds_advance_of_ne hcalls hc', ← h.held]
      exact takenPlace_eq_held_of_ne hc'
  case unopened =>
    intro k
    rw [hopened, ← h.unopened]
    exact takenPlace_eq_unopened_iff
  case nodup =>
    rw [hpool]
    exact hfrom.nodup
  case failed =>
    intro k hk
    rw [hfailed] at hk
    exact takenPlace_of_closed (h.failed k hk)
  case pooledAs =>
    intro p hp
    rw [hpool] at hp
    rw [hbindings, h.pooledAs p (hfrom.kept.subset hp)]
  case heldAs =>
    refine h.heldAs_advance hcalls (fun k hk => ?_) fun k _ => by rw [hbindings]
    obtain ⟨p, hp, rfl⟩ := Option.map_eq_some_iff.mp (hphase.symm.trans hk)
    obtain ⟨hmem, hbound⟩ := hfrom.boundAs p hp
    rw [hbindings, h.pooledAs p hmem, hbound]
  case bounded =>
    rw [hpool]
    exact hfrom.kept.length_le.trans h.bounded

/-- A call gives its connection back. -/
theorem Places.giveBack {s' : PoolState β α} {k : Nat} (h : Places s place)
    (hc : s.calls c = some call) (hk : call.phase.conn = some k) (hphase : q.conn = none)
    (hcalls : s'.calls = (s.advance c call q).calls)
    (hpool : s'.pool = s.pool ++ [⟨k, call.bindDn, s.clock⟩])
    (hroom : s.pool.length < poolMaxConns) (hopened : s'.opened = s.opened)
    (hbindings : s'.bindings = s.bindings) (hfailed : s'.failed = s.failed) :
    Places s' (Function.update place k .pooled) := by
  have hplace := h.eq_held hc hk
  -- a held connection is not pooled as well, so that the pool lists none twice
  have hnotPooled : k ∉ s.pool.map PooledConn.ldap := fun hmem =>
    absurd (hplace.symm.trans ((h.pooled k).mpr hmem)) (by simp)
  have hids : s'.pool.map PooledConn.ldap = s.pool.map PooledConn.ldap ++ [k] := by
    rw [hpool, List.map_append]
    rfl
  constructor
  -- the number given back is pooled now, the others as before
  case pooled =>
    intro k'
    rw [hids, List.mem_append, List.mem_singleton]
    by_cases hk' : k' = k
    · subst hk'
      simp
    · rw [Function.update_of_ne hk', h.pooled]
      simp [hk']
  -- the call held nothing else
  case held =>
    intro k' c'
    by_cases hc' : c' = c
    · subst hc'
      rw [holds_advance_self hcalls, hphase]
      refine iff_of_false (fun hheld => ?_) (by simp)
      by_cases hk' : k' = k
      · subst hk'
        simp at hheld
      · rw [Function.update_of_ne hk'] at hheld
        obtain ⟨call', hcall', hconn⟩ := (h.held k' c').mp hheld
        rw [hc, Option.some_inj] at hcall'
        subst hcall'
        exact hk' (Option.some.inj (hconn.symm.trans hk))
    · rw [holds_advance_of_ne hcalls hc', ← h.held]
      by_cases hk' : k' = k
      · subst hk'
        simp [hplace, Ne.symm hc']
      · rw [Function.update_of_ne hk']
  case unopened =>
    intro k'
    rw [hopened]
    by_cases hk' : k' = k
    · subst hk'
      simp [h.lt_opened (k := k') (by simp [hplace])]
    · rw [Function.update_of_ne hk', h.unopened]
  case nodup =>
    rw [hids, List.nodup_append]
    refine ⟨h.nodup, List.nodup_singleton k, fun a ha b hb hab => ?_⟩
    rw [List.mem_singleton] at hb
    subst hb hab
    exact hnotPooled ha
  -- a failed connection is closed, not held
  case failed =>
    intro k' hk'
    rw [hfailed] at hk'
    have hclosed := h.failed k' hk'
    have hne : k' ≠ k := by
      rintro rfl
      exact absurd (hplace.symm.trans hclosed) (by simp)
    rw [Function.update_of_ne hne, hclosed]
  case pooledAs =>
    intro p hp
    rw [hpool, List.mem_append, List.mem_singleton] at hp
    rw [hbindings]
    rcases hp with hp | rfl
    · exact h.pooledAs p hp
    · exact h.heldAs c call k hc hk
  case heldAs =>
    refine h.heldAs_advance hcalls (fun k' hk' => ?_) fun k' _ => by rw [hbindings]
    exact absurd (hphase.symm.trans hk') (by simp)
  case bounded =>
    rw [hpool, List.length_append]
    exact hroom

end Moving

/-! ## Every step -/

/-- A call starts without a connection. -/
theorem Places.enter {s : PoolState β α} {place : Nat → Place Nat} {c : Nat} (h : Places s place)
    (hc : s.calls c = none) (bindDn : Str) (query : β) : Places (s.enter c bindDn query) place where
  pooled := h.pooled
  held k c' := by
    rw [h.held]
    by_cases hc' : c' = c
    · subst hc'
      simp [PoolState.Holds, PoolState.enter, hc, SearchPhase.conn]
    · simp [PoolState.Holds, PoolState.enter, Function.update_of_ne hc']
  unopened := h.unopened
  nodup := h.nodup
  failed := h.failed
  pooledAs := h.pooledAs
  heldAs c' call k hcall hk := by
    by_cases hc' : c' = c
    · subst hc'
      simp only [PoolState.enter, Function.update_self, Option.some_inj] at hcall
      subst hcall
      simp [SearchPhase.conn] at hk
    · simp only [PoolState.enter, Function.update_of_ne hc'] at hcall
      exact h.heldAs c' call k hcall hk
  bounded := h.bounded

/-- The worker comes back from a pooled connection. -/
theorem Places.workPooled {s : PoolState β α} {place : Nat → Place Nat} {c : Nat}
    {call : SearchCall β α} {attempt k : Nat} (h : Places s place) (hc : s.calls c = some call)
    (hphase : call.phase = .working attempt (some k)) (o : WorkOutcome α) :
    ∃ place', Places (s.workPooled c call attempt k o) place' ∧ MovesAll place place' := by
  have hk : call.phase.conn = some k := by rw [hphase]; rfl
  have hplace := h.eq_held hc hk
  cases o with
  | entries rs =>
    rw [PoolState.workPooled]
    -- a dead connection brings no entries
    by_cases hdead : s.dead k = true
    · rw [if_pos hdead]
      exact ⟨place, h, movesAll_refl place⟩
    · rw [if_neg hdead]
      refine ⟨place, h.advance hc rfl rfl (fun _ => Iff.rfl) (fun k' => ?_) (fun _ _ _ => Iff.rfl)
        h.unopened h.failed (fun k' hk' => h.heldAs c call k' hc (hk.trans hk')) (fun _ _ => rfl),
        movesAll_refl place⟩
      rw [h.held]
      constructor
      · rintro ⟨call', hcall', hconn⟩
        rw [hc, Option.some_inj] at hcall'
        subst hcall'
        exact hk.symm.trans hconn
      · exact fun hconn => ⟨call, hc, hk.trans hconn⟩
  | failed e =>
    exact ⟨_, h.release (q := afterFailure attempt true e) hc hk (conn_afterFailure ..) rfl rfl
      rfl rfl (fun k' hk' => List.mem_cons.mp hk'), movesAll_update (.close _)⟩
  | timedOut secs =>
    exact ⟨_, h.release (q := .done (.error (timedOutText secs))) hc hk rfl rfl rfl rfl rfl
      (fun k' hk' => .inr hk'), movesAll_update (.close _)⟩

/-- The worker comes back from a connection of its own. -/
theorem Places.workFresh {s : PoolState β α} {place : Nat → Place Nat} {c : Nat}
    {call : SearchCall β α} {attempt : Nat} (h : Places s place) (hc : s.calls c = some call)
    (hphase : call.phase = .working attempt none) (o : WorkOutcome α) :
    ∃ place', Places (s.workFresh c call attempt o) place' ∧ MovesAll place place' := by
  have hnone : call.phase.conn = none := by rw [hphase]; rfl
  have hplace : place s.opened = .unopened := (h.unopened _).mpr le_rfl
  cases o with
  | entries rs =>
    refine ⟨_, h.openFresh (q := .storing s.opened rs) (p := .held c) hc hnone
      (.inl ⟨rfl, rfl⟩) rfl rfl rfl (fun k hk => Function.update_of_ne (Nat.ne_of_lt hk) ..)
      (fun _ => Function.update_self ..) (fun k hk => .inr hk), movesAll_update ?_⟩
    rw [hplace]
    exact .openBy c
  | failed e =>
    refine ⟨_, h.openFresh (q := afterFailure attempt false e) (p := .closed) hc hnone
      (.inr ⟨conn_afterFailure .., rfl⟩) rfl rfl rfl (fun _ _ => rfl) (fun hconn => ?_)
      (fun k hk => ?_), movesAll_update (.close _)⟩
    · rw [conn_afterFailure] at hconn
      exact absurd hconn (by simp)
    · rcases List.mem_cons.mp hk with rfl | hk
      · exact .inl ⟨rfl, rfl⟩
      · exact .inr hk
  | timedOut secs =>
    refine ⟨_, h.openFresh (q := .done (.error (timedOutText secs))) (p := .closed) hc hnone
      (.inr ⟨rfl, rfl⟩) rfl rfl rfl (fun _ _ => rfl) (fun hconn => ?_) (fun k hk => .inr hk),
      movesAll_update (.close _)⟩
    exact absurd hconn (by simp [SearchPhase.conn])

/-- **Every step moves the connections.** -/
theorem Places.move {s s' : PoolState β α} {place : Nat → Place Nat} {ev : PoolEvent β α}
    (h : Places s place) (hmove : PoolMove s ev s') :
    ∃ place', Places s' place' ∧ MovesAll place place' := by
  -- a step moves at most the connection of its call
  cases hmove with
  | stay => exact ⟨place, h, movesAll_refl place⟩
  | enter hc => exact ⟨place, h.enter hc _ _, movesAll_refl place⟩
  | @take c call attempt hc hphase =>
    refine ⟨_, h.take (q := .working attempt _) hc (by rw [hphase]; rfl) rfl rfl rfl rfl rfl
      rfl rfl, ?_⟩
    exact movesAll_takenPlace _ _ _ _
  | workPooled hc hphase => exact h.workPooled hc hphase _
  | workFresh hc hphase => exact h.workFresh hc hphase _
  | @store c call k rs hc hphase =>
    have hk : call.phase.conn = some k := by rw [hphase]; rfl
    have hplace := h.eq_held hc hk
    -- a pool without room lets the connection go
    by_cases hfull : poolMaxConns ≤ s.pool.length
    · exact ⟨_, h.release (q := .done (.ok rs)) hc hk rfl rfl (if_pos hfull) rfl rfl
        (fun k' hk' => .inr hk'), movesAll_update (.close _)⟩
    · refine ⟨_, h.giveBack (q := .done (.ok rs)) hc hk rfl rfl (if_neg hfull)
        (Nat.lt_of_not_le hfull) rfl rfl rfl, movesAll_update ?_⟩
      rw [hplace]
      exact .giveBack c
  | die hk => exact ⟨place, ⟨h.pooled, h.held, h.unopened, h.nodup, h.failed, h.pooledAs, h.heldAs,
      h.bounded⟩, movesAll_refl place⟩
  | tick n => exact ⟨place, ⟨h.pooled, h.held, h.unopened, h.nodup, h.failed, h.pooledAs, h.heldAs,
      h.bounded⟩, movesAll_refl place⟩

/-- **What holds in every state**: the pool is bounded, a connection that has failed is not in it, and
a search on a pooled connection runs as its DN. -/
structure PoolSafe (s : PoolState β α) : Prop where
  bounded : s.pool.length ≤ 4
  failed : ∀ k ∈ s.failed, k ∉ s.pool.map PooledConn.ldap
  boundAs : ∀ c call attempt k, s.calls c = some call → call.phase = .working attempt (some k) →
    s.bindings k = call.bindDn

/-- A pool whose connections are in their places is safe. -/
theorem Places.safe {s : PoolState β α} {place : Nat → Place Nat} (h : Places s place) :
    PoolSafe s where
  bounded := h.bounded
  failed k hk hmem :=
    absurd ((h.failed k hk).symm.trans ((h.pooled k).mpr hmem)) (by simp)
  boundAs c call attempt k hc hphase := h.heldAs c call k hc (by rw [hphase]; rfl)

/-- Every run is safe. -/
theorem poolSafe_run (evs : List (PoolEvent β α)) :
    EveryStep PoolState.step (fun s ev => PoolSafe (s.step ev)) PoolState.init evs := by
  refine everyStep_of_invariant (fun s => ∃ place, Places s place) (fun s ev _ h => ?_)
    ⟨_, places_init⟩
  obtain ⟨place, hplace⟩ := h
  obtain ⟨place', hplace', -⟩ := hplace.move (poolMove_step s ev)
  exact ⟨hplace'.safe, place', hplace'⟩

/-- A connection that has failed is never in the pool again, whatever happens. -/
theorem not_pooled_of_failed {s : PoolState β α} {place : Nat → Place Nat} (h : Places s place)
    {k : Nat} (hk : k ∈ s.failed) (evs : List (PoolEvent β α)) :
    k ∉ (evs.foldl PoolState.step s).pool.map PooledConn.ldap := by
  have hrun : ∃ place', Places (evs.foldl PoolState.step s) place' ∧
      Relation.ReflTransGen MovesAll place place' := by
    clear hk
    induction evs generalizing s place with
    | nil => exact ⟨place, h, .refl⟩
    | cons ev evs ih =>
      obtain ⟨place', hplace', hmoves⟩ := h.move (poolMove_step s ev)
      obtain ⟨place'', hplace'', hrest⟩ := ih hplace'
      exact ⟨place'', hplace'', .head hmoves hrest⟩
  obtain ⟨place', hplace', hmoves⟩ := hrun
  have hclosed := closed_of_movesAll hmoves (h.failed k hk)
  intro hmem
  exact absurd (hclosed.symm.trans ((hplace'.pooled k).mpr hmem)) (by simp)

/-! ## Healing -/

section Healing

variable (answer : Str → β → α) (c : Nat)

/-- **The directory answers the call**: its attempts on a fresh connection succeed, as do those on a
pooled one that is alive, and those on a dead one fail promptly. -/
def Prompt (s : PoolState β α) : PoolEvent β α → Prop
  | .work c' o => c' = c → ∀ call, s.calls c = some call →
    match call.phase with
    | .working _ (some ldap) =>
      if s.dead ldap then ∃ e, o = .failed e else o = .entries (answer call.bindDn call.query)
    | .working _ none => o = .entries (answer call.bindDn call.query)
    | _ => True
  | _ => True

/-- **The search heals**: it returns nothing but the answer, it can go on until it returns, and it
does so after seven steps of its own at most. -/
structure Heals (s : PoolState β α) : Prop where
  result : ∀ call res, s.calls c = some call → call.phase = .done res →
    res = .ok (answer call.bindDn call.query)
  goesOn : ∀ call, s.calls c = some call → (∀ res, call.phase ≠ .done res) →
    ∃ ev call', Prompt answer c s ev ∧ (s.step ev).calls c = some call' ∧
      call'.turns = call.turns + 1
  turns : ∀ call, s.calls c = some call → call.turns ≤ 7

/-- The third attempt of a call is about to come back from a dead connection of the pool. -/
def ThirdOnDead (s : PoolState β α) : PoolEvent β α → Prop
  | .work c' _ => c' = c ∧ ∃ call ldap, s.calls c = some call ∧
    call.phase = .working 2 (some ldap) ∧ s.dead ldap = true
  | _ => False

/-- How many steps a call has left. -/
def SearchPhase.stepsLeft : SearchPhase α → Nat
  | .taking attempt => 2 * (3 - attempt) + 1
  | .working attempt _ => 2 * (3 - attempt)
  | .storing _ _ => 1
  | .done _ => 0

/-- What a call has in hand, and how far it has come. -/
def Steady (call : SearchCall β α) : Prop :=
  call.turns + call.phase.stepsLeft ≤ 7 ∧
    match call.phase with
    | .taking attempt => attempt < 3
    | .working attempt _ => attempt < 3
    | .storing _ rs => rs = answer call.bindDn call.query
    | .done res => res = .ok (answer call.bindDn call.query)

variable {answer c} {s s' : PoolState β α} {ev : PoolEvent β α}

/-- A step of one call is no step of another. -/
theorem forall_advance {P : SearchCall β α → Prop} {c' : Nat} {call : SearchCall β α}
    {phase : SearchPhase α} (h : ∀ call, s.calls c = some call → P call)
    (hself : c' = c → P { call with phase := phase, turns := call.turns + 1 }) :
    ∀ call', (s.advance c' call phase).calls c = some call' → P call' := by
  intro call' hcall'
  by_cases hc : c = c'
  · subst hc
    rw [advance_calls_self, Option.some_inj] at hcall'
    subst hcall'
    exact hself rfl
  · rw [advance_calls_of_ne hc] at hcall'
    exact h call' hcall'

/-- **What a step preserves** while the directory answers the call. -/
theorem steady_move (h : ∀ call, s.calls c = some call → Steady answer call)
    (hmove : PoolMove s ev s') (hprompt : Prompt answer c s ev) (hthird : ¬ ThirdOnDead c s ev) :
    ∀ call, s'.calls c = some call → Steady answer call := by
  cases hmove with
  | stay => exact h
  | @enter c' bindDn query hc' =>
    intro call hcall
    by_cases hc : c = c'
    · subst hc
      simp only [PoolState.enter, Function.update_self, Option.some_inj] at hcall
      subst hcall
      exact ⟨le_rfl, Nat.zero_lt_succ 2⟩
    · simp only [PoolState.enter, Function.update_of_ne hc] at hcall
      exact h call hcall
  | @take c' call attempt hc' hphase =>
    refine forall_advance h fun hc => ?_
    subst hc
    have hcall := h call hc'
    simp only [Steady, hphase, SearchPhase.stepsLeft] at hcall ⊢
    omega
  | @workPooled c' call attempt k o hc' hphase =>
    by_cases hc : c' = c
    · subst hc
      have hcall := h call hc'
      have hout := hprompt rfl call hc'
      simp only [Steady, hphase, SearchPhase.stepsLeft] at hcall
      simp only [hphase] at hout
      by_cases hdead : s.dead k = true
      · rw [if_pos hdead] at hout
        obtain ⟨e, rfl⟩ := hout
        -- the third attempt is not on a dead connection, so there is another one
        have hnext : attempt + 1 < 3 := by
          by_contra hlast
          obtain rfl : attempt = 2 := by omega
          exact hthird ⟨rfl, call, k, hc', hphase, hdead⟩
        refine forall_advance h fun _ => ?_
        rw [afterFailure, if_pos rfl, if_pos hnext]
        simp only [Steady, SearchPhase.stepsLeft]
        omega
      · rw [if_neg hdead] at hout
        subst hout
        rw [PoolState.workPooled, if_neg hdead]
        refine forall_advance h fun _ => ?_
        simp only [Steady, SearchPhase.stepsLeft, and_true]
        omega
    · have hother : ∀ o, (s.workPooled c' call attempt k o).calls c = s.calls c := by
        intro o
        cases o with
        | entries rs =>
          rw [PoolState.workPooled]
          split
          · rfl
          · exact advance_calls_of_ne (Ne.symm hc)
        | failed e => exact advance_calls_of_ne (Ne.symm hc)
        | timedOut secs => exact advance_calls_of_ne (Ne.symm hc)
      rw [hother]
      exact h
  | @workFresh c' call attempt o hc' hphase =>
    by_cases hc : c' = c
    · subst hc
      have hcall := h call hc'
      have hout := hprompt rfl call hc'
      simp only [Steady, hphase, SearchPhase.stepsLeft] at hcall
      simp only [hphase] at hout
      subst hout
      refine forall_advance h fun _ => ?_
      simp only [Steady, SearchPhase.stepsLeft, and_true]
      omega
    · have hother : ∀ o, (s.workFresh c' call attempt o).calls c = s.calls c := by
        intro o
        cases o <;> exact advance_calls_of_ne (Ne.symm hc)
      rw [hother]
      exact h
  | @store c' call k rs hc' hphase =>
    refine forall_advance h fun hc => ?_
    subst hc
    have hcall := h call hc'
    simp only [Steady, hphase, SearchPhase.stepsLeft] at hcall ⊢
    exact ⟨by omega, by rw [hcall.2]⟩
  | die hk => exact h
  | tick n => exact h

/-- A call that is steady heals. -/
theorem heals_of_steady (h : ∀ call, s.calls c = some call → Steady answer call) :
    Heals answer c s where
  result call res hc hphase := by
    have hcall := (h call hc).2
    simpa only [hphase] using hcall
  goesOn call hc hdone := by
    cases hphase : call.phase with
    -- each phase has a step that lets the call go on
    | taking attempt =>
      exact ⟨.take c, _, trivial, by rw [step_take hc hphase]; exact advance_calls_self .., rfl⟩
    | working attempt pooled =>
      cases pooled with
      | none =>
        refine ⟨.work c (.entries (answer call.bindDn call.query)), _, ?_,
          by rw [step_workFresh hc hphase]; exact advance_calls_self .., rfl⟩
        intro _ call' hcall'
        rw [hc, Option.some_inj] at hcall'
        subst hcall'
        simp only [hphase]
      | some k =>
        -- a dead pooled connection fails and costs an attempt, a live one answers
        by_cases hdead : s.dead k = true
        · refine ⟨.work c (.failed []), _, ?_,
            by rw [step_workPooled hc hphase]; exact advance_calls_self .., rfl⟩
          intro _ call' hcall'
          rw [hc, Option.some_inj] at hcall'
          subst hcall'
          simp only [hphase, if_pos hdead]
          exact ⟨[], rfl⟩
        · refine ⟨.work c (.entries (answer call.bindDn call.query)),
            { call with
              phase := .storing k (answer call.bindDn call.query), turns := call.turns + 1 }, ?_, ?_,
            rfl⟩
          · intro _ call' hcall'
            rw [hc, Option.some_inj] at hcall'
            subst hcall'
            simp only [hphase, if_neg hdead]
          · rw [step_workPooled hc hphase, PoolState.workPooled, if_neg hdead]
            exact advance_calls_self ..
    | storing k rs =>
      exact ⟨.store c, _, trivial, by rw [step_store hc hphase]; exact advance_calls_self .., rfl⟩
    | done res => exact absurd hphase (hdone res)
  turns call hc := by
    have hcall := (h call hc).1
    omega

/-- A third attempt on a dead connection ends the call, although the directory answers. -/
theorem not_heals_of_third (hprompt : Prompt answer c s ev) (hthird : ThirdOnDead c s ev) :
    ¬ Heals answer c (s.step ev) := by
  cases ev with
  | work c' o =>
    obtain ⟨rfl, call, k, hc, hphase, hdead⟩ := hthird
    have hout := hprompt rfl call hc
    simp only [hphase, if_pos hdead] at hout
    obtain ⟨e, rfl⟩ := hout
    intro hheals
    have hres := hheals.result _ _
      (by rw [step_workPooled hc hphase]; exact advance_calls_self ..) rfl
    exact absurd hres (by simp)
  | call c' bindDn query => exact hthird.elim
  | take c' => exact hthird.elim
  | store c' => exact hthird.elim
  | die k => exact hthird.elim
  | tick n => exact hthird.elim

end Healing

/-- **The pool over a run of concurrent searches**: it is safe, and every search that the directory
answers heals, exactly when no such search makes its third attempt on a dead connection. -/
theorem connPool_heals_iff (answer : Str → β → α) (evs : List (PoolEvent β α)) :
    (EveryStep PoolState.step (fun s ev => PoolSafe (s.step ev)) PoolState.init evs ∧
      ∀ c, EveryStep PoolState.step (Prompt answer c) PoolState.init evs →
        EveryStep PoolState.step (fun s ev => Heals answer c (s.step ev)) PoolState.init evs) ↔
      ∀ c, EveryStep PoolState.step (Prompt answer c) PoolState.init evs →
        EveryStep PoolState.step (fun s ev => ¬ ThirdOnDead c s ev) PoolState.init evs := by
  constructor
  · rintro ⟨-, hheals⟩ c hprompt
    refine (everyStep_and.mpr ⟨hprompt, hheals c hprompt⟩).mono ?_
    rintro s ev ⟨hp, hh⟩ hthird
    exact not_heals_of_third hp hthird hh
  · intro hthird
    refine ⟨poolSafe_run evs, fun c hprompt => ?_⟩
    refine everyStep_of_invariant_of (fun s => ∀ call, s.calls c = some call → Steady answer call)
      (fun s ev hs hstep => ?_) (fun call hcall => absurd hcall (by simp [PoolState.init]))
      (everyStep_and.mpr ⟨hprompt, hthird c hprompt⟩)
    have hnext := steady_move hs (poolMove_step s ev) hstep.1 hstep.2
    exact ⟨heals_of_steady hnext, hnext⟩

/-! ## Three dead connections -/

/-- Three searches at a time fill the pool, and then the server restarts. -/
def restartEvents : List (PoolEvent Unit Unit) :=
  (List.range 3).map (.call · "cn=admin".toList ()) ++ (List.range 3).map .take ++
    (List.range 3).map (.work · (.entries ())) ++ (List.range 3).map .store ++
    (List.range 3).map .die

/-- The next search works its way down the pool. -/
def searchEvents : List (PoolEvent Unit Unit) :=
  [.call 3 "cn=admin".toList (), .take 3, .work 3 (.failed "closed".toList), .take 3,
    .work 3 (.failed "closed".toList), .take 3]

/-- On a dead connection a failure is the prompt answer. -/
theorem prompt_failed {answer : Str → β → α} {c n k : Nat} {s : PoolState β α}
    {call : SearchCall β α} (hc : s.calls c = some call)
    (hphase : call.phase = .working n (some k)) (hdead : s.dead k = true) (e : Str) :
    Prompt answer c s (.work c (.failed e)) := by
  intro _ call' hcall'
  rw [hc, Option.some_inj] at hcall'
  subst hcall'
  simp only [hphase, if_pos hdead]
  exact ⟨e, rfl⟩

/-- The search fails without an attempt of its own to connect. -/
theorem not_connPool_heals_restart :
    ¬ (EveryStep PoolState.step (fun s ev => PoolSafe (s.step ev)) PoolState.init
        (restartEvents ++ (searchEvents ++ [.work 3 (.failed "closed".toList)])) ∧
      ∀ c, EveryStep PoolState.step (Prompt (fun _ _ => ()) c) PoolState.init
          (restartEvents ++ (searchEvents ++ [.work 3 (.failed "closed".toList)])) →
        EveryStep PoolState.step (fun s ev => Heals (fun _ _ => ()) c (s.step ev)) PoolState.init
          (restartEvents ++ (searchEvents ++ [.work 3 (.failed "closed".toList)]))) := by
  rintro ⟨-, hheals⟩
  have hrestart : EveryStep PoolState.step (Prompt (fun _ _ => ()) 3) PoolState.init
      restartEvents := by
    refine ⟨trivial, trivial, trivial, trivial, trivial, trivial, ?_, ?_, ?_, trivial, trivial,
      trivial, trivial, trivial, trivial, trivial⟩ <;> exact fun h => absurd h (by decide)
  have hsearch : EveryStep PoolState.step (Prompt (fun _ _ => ()) 3)
      (restartEvents.foldl PoolState.step PoolState.init) searchEvents :=
    ⟨trivial, trivial, prompt_failed (n := 0) (k := 2) rfl rfl rfl _, trivial,
      prompt_failed (n := 1) (k := 1) rfl rfl rfl _, trivial, trivial⟩
  have hlast : Prompt (fun _ _ => ()) 3
      (searchEvents.foldl PoolState.step (restartEvents.foldl PoolState.step PoolState.init))
      (.work 3 (.failed "closed".toList)) := prompt_failed (n := 2) (k := 0) rfl rfl rfl _
  have hall := hheals 3 (everyStep_append.mpr ⟨hrestart, everyStep_append.mpr
    ⟨hsearch, hlast, trivial⟩⟩)
  have hend := (everyStep_append.mp (everyStep_append.mp hall).2).2.1
  exact not_heals_of_third hlast ⟨rfl, _, 0, rfl, rfl, rfl⟩ hend

end NfsKlldap
