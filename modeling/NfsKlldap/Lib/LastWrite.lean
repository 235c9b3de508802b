import NfsKlldap.Lib.KeyedMap

/-! # Maps that forget what is old

A map is written to under its keys, and now and then what is older than a horizon is swept out of it.
Whoever only asks for what is younger than the horizon cannot tell such a map from the log of all
writes.

* **`lastUnder`** — the last write under a key, in a log that lists the newest write first;
* **`Recalls`** — a map holds what the log says, apart from what is older than the horizon;
* **`Recalls.write`**, **`Recalls.sweep`**, **`Recalls.wait`** — what keeps a map so;
* **`Recalls.bind_eq`** — the map and the log agree on what is young;
* **`Recalls.insert`**, **`Recalls.retain`** — the operations of a hash map of pairs;
* **`Spaced.oncePer`** — of times that lie a window apart, a span holds one for each of its windows, and
  one more. -/

namespace NfsKlldap

namespace LastWrite

variable {κ β γ : Type*} [DecidableEq κ]

/-- The last write under a key; the newest write is the first of the log. -/
def lastUnder (log : List (κ × β)) (k : κ) : Option β :=
  (log.find? fun w => w.1 = k).map Prod.snd

/-- Nothing was written in an empty log. -/
@[simp] theorem lastUnder_nil (k : κ) : lastUnder ([] : List (κ × β)) k = none := rfl

/-- The newest write of a log answers for its own key, and the rest of the log for every other one. -/
theorem lastUnder_cons (w : κ × β) (log : List (κ × β)) (k : κ) :
    lastUnder (w :: log) k = if w.1 = k then some w.2 else lastUnder log k := by
  by_cases h : w.1 = k
  · rw [if_pos h, lastUnder, List.find?_cons_of_pos (by simpa using h), Option.map_some]
  · rw [if_neg h, lastUnder, List.find?_cons_of_neg (by simpa using h), lastUnder]

/-- The last write under a key is in the log. -/
theorem mem_of_lastUnder {log : List (κ × β)} {k : κ} {v : β} (h : lastUnder log k = some v) :
    (k, v) ∈ log := by
  rw [lastUnder, Option.map_eq_some_iff] at h
  obtain ⟨⟨k', v'⟩, hfind, rfl⟩ := h
  have hkey : k' = k := by simpa using List.find?_some hfind
  rw [← hkey]
  exact List.mem_of_find?_eq_some hfind

/-- A key has no last write exactly when nothing was written under it. -/
theorem lastUnder_eq_none_iff {log : List (κ × β)} {k : κ} :
    lastUnder log k = none ↔ ∀ v, (k, v) ∉ log := by
  rw [lastUnder, Option.map_eq_none_iff, List.find?_eq_none]
  constructor
  · intro h v hv
    exact h (k, v) hv (decide_eq_true rfl)
  · rintro h ⟨k', v⟩ hw heq
    exact h v (of_decide_eq_true heq ▸ hw)

/-! ## What a swept map still knows -/

/-- A map, given by its lookups, holds what the log says, or nothing where that is old. -/
structure Recalls (stamp : β → Nat) (horizon now : Nat) (log : List (κ × β))
    (look : κ → Option β) : Prop where
  held : ∀ {k v}, look k = some v → lastUnder log k = some v
  old : ∀ {k v}, lastUnder log k = some v → look k = none → horizon ≤ now - stamp v

variable {stamp : β → Nat} {horizon now now' : Nat} {log : List (κ × β)} {look look' : κ → Option β}

/-- A store that answers nothing recalls the empty log. -/
theorem recalls_nil (h : ∀ k, look k = none) : Recalls stamp horizon now [] look where
  held hv := absurd hv (by simp [h])
  old hv := absurd hv (by simp)

/-- What is old stays old. -/
theorem Recalls.wait (h : Recalls stamp horizon now log look) (hle : now ≤ now') :
    Recalls stamp horizon now' log look where
  held := h.held
  old hv hnone := le_trans (h.old hv hnone) (Nat.sub_le_sub_right hle _)

/-- A store that takes over a write and keeps every other answer recalls the log with that write. -/
theorem Recalls.write (h : Recalls stamp horizon now log look) {k : κ} {v : β}
    (hlook : ∀ k', look' k' = if k = k' then some v else look k') :
    Recalls stamp horizon now ((k, v) :: log) look' where
  held {k' v'} hv := by
    rw [hlook] at hv
    rw [lastUnder_cons]
    by_cases hk : k = k'
    · rw [if_pos hk] at hv ⊢
      exact hv
    · rw [if_neg hk] at hv ⊢
      exact h.held hv
  old {k' v'} hv hnone := by
    rw [hlook] at hnone
    rw [lastUnder_cons] at hv
    by_cases hk : k = k'
    · rw [if_pos hk] at hnone
      exact absurd hnone (by simp)
    · rw [if_neg hk] at hv hnone
      exact h.old hv hnone

/-- Only what is older than the horizon may be swept out. -/
theorem Recalls.sweep (h : Recalls stamp horizon now log look) {p : β → Bool}
    (hp : ∀ v, p v = false → horizon ≤ now - stamp v)
    (hlook : ∀ k, look' k = (look k).filter p) : Recalls stamp horizon now log look' where
  held {k v} hv := by
    rw [hlook, Option.filter_eq_some_iff] at hv
    exact h.held hv.1
  old {k v} hv hnone := by
    rw [hlook] at hnone
    cases hk : look k with
    | none => exact h.old hv hk
    | some v' =>
      rw [hk, Option.filter_eq_none_iff] at hnone
      have hsame : v = v' := Option.some_inj.mp (hv.symm.trans (h.held hk))
      rw [hsame]
      exact hp v' (by simpa using hnone v' rfl)

/-- A reader that has no use for what is old reads the same out of the map and the log. -/
theorem Recalls.bind_eq (h : Recalls stamp horizon now log look) {read : β → Option γ}
    (hread : ∀ v, horizon ≤ now - stamp v → read v = none) (k : κ) :
    (look k).bind read = (lastUnder log k).bind read := by
  cases hk : look k with
  | some v => rw [h.held hk]
  | none =>
    cases hlast : lastUnder log k with
    | none => rfl
    | some v => exact (hread v (h.old hlast hk)).symm

/-- In a log in the order of its stamps the last write under a key has the greatest stamp. -/
theorem le_of_lastUnder (stamp : β → Nat) {k : κ} {v v' : β}
    (hsorted : log.Pairwise fun a b => stamp b.2 ≤ stamp a.2) (h : lastUnder log k = some v)
    (hmem : (k, v') ∈ log) : stamp v' ≤ stamp v := by
  induction log with
  | nil => exact absurd hmem List.not_mem_nil
  | cons w log ih =>
    obtain ⟨hhead, htail⟩ := List.pairwise_cons.mp hsorted
    rw [lastUnder_cons] at h
    by_cases hw : w.1 = k
    · rw [if_pos hw, Option.some_inj] at h
      subst h
      rcases List.mem_cons.mp hmem with rfl | hmem
      · exact le_rfl
      · exact hhead _ hmem
    · rw [if_neg hw] at h
      rcases List.mem_cons.mp hmem with rfl | hmem
      · exact absurd rfl hw
      · exact ih htail h hmem

/-! ## Hash maps of pairs -/

section Maps

variable {κ β : Type} [DecidableEq κ] {stamp : β → Nat} {horizon now : Nat} {log : List (κ × β)}

/-- A map of pairs, by its lookups. -/
def lookIn (m : KeyedMap (Prod.fst : κ × β → κ)) (k : κ) : Option β := (m.get? k).map Prod.snd

/-- After an insertion the map answers the inserted value under its key and as before elsewhere. -/
theorem lookIn_insert (m : KeyedMap (Prod.fst : κ × β → κ)) (k k' : κ) (v : β) :
    lookIn (m.insert (k, v)) k' = if k = k' then some v else lookIn m k' := by
  rw [lookIn, KeyedMap.get?_insert]
  by_cases h : k = k'
  · rw [if_pos h, if_pos h, Option.map_some]
  · rw [if_neg h, if_neg h, lookIn]

/-- After retaining, the map answers what it did where the value passes. -/
theorem lookIn_retain (m : KeyedMap (Prod.fst : κ × β → κ)) (p : β → Bool) (k : κ) :
    lookIn (m.retain fun e => p e.2) k = (lookIn m k).filter p := by
  have hkept : ∀ w : κ × β, (m.retain fun e => p e.2).get? k = some w ↔
      m.get? k = some w ∧ p w.2 = true := by
    intro w
    rw [KeyedMap.get?_eq_some_iff, KeyedMap.get?_eq_some_iff, KeyedMap.values_retain, List.mem_filter]
    tauto
  refine Option.ext fun v => ?_
  rw [Option.filter_eq_some_iff, lookIn, lookIn, Option.map_eq_some_iff, Option.map_eq_some_iff]
  constructor
  · rintro ⟨w, hw, rfl⟩
    exact ⟨⟨w, ((hkept w).mp hw).1, rfl⟩, ((hkept w).mp hw).2⟩
  · rintro ⟨⟨w, hw, rfl⟩, hp⟩
    exact ⟨w, (hkept w).mpr ⟨hw, hp⟩, rfl⟩

/-- The empty map recalls the empty log. -/
theorem recalls_empty :
    Recalls stamp horizon now [] (lookIn (KeyedMap.empty : KeyedMap (Prod.fst : κ × β → κ))) :=
  recalls_nil fun _ => rfl

/-- An insertion into the map is a write to the log. -/
theorem Recalls.insert {m : KeyedMap (Prod.fst : κ × β → κ)}
    (h : Recalls stamp horizon now log (lookIn m)) (k : κ) (v : β) :
    Recalls stamp horizon now ((k, v) :: log) (lookIn (m.insert (k, v))) :=
  h.write fun k' => lookIn_insert m k k' v

/-- Dropping values that are past the horizon keeps the log recalled. -/
theorem Recalls.retain {m : KeyedMap (Prod.fst : κ × β → κ)}
    (h : Recalls stamp horizon now log (lookIn m)) {p : β → Bool}
    (hp : ∀ v, p v = false → horizon ≤ now - stamp v) :
    Recalls stamp horizon now log (lookIn (m.retain fun e => p e.2)) :=
  h.sweep hp fun k => lookIn_retain m p k

end Maps

/-! ## Times that lie a window apart -/

/-- Every time lies at least a window behind the one before it; the latest is the first. -/
def Spaced (window : Nat) (times : List Nat) : Prop :=
  times.Pairwise fun later earlier => earlier + window ≤ later

variable {window : Nat} {times : List Nat}

/-- A time a window after all the others may be added in front. -/
theorem Spaced.cons {t : Nat} (h : Spaced window times) (ht : ∀ t' ∈ times, t' + window ≤ t) :
    Spaced window (t :: times) := List.pairwise_cons.mpr ⟨ht, h⟩

/-- The latest of the times is at least as many windows after the earliest as there are times
between them. -/
theorem Spaced.span_le {t start : Nat} (h : Spaced window (t :: times))
    (hstart : ∀ t' ∈ t :: times, start ≤ t') : start + times.length * window ≤ t := by
  induction times generalizing t with
  | nil => simpa using hstart t List.mem_cons_self
  | cons t' times ih =>
    obtain ⟨hlater, hrest⟩ := List.pairwise_cons.mp h
    have hspan := ih hrest fun s hs => hstart s (List.mem_cons_of_mem t hs)
    have hnext := hlater t' List.mem_cons_self
    rw [List.length_cons, Nat.add_mul, Nat.one_mul]
    omega

/-- **A span holds one time for each of its windows, and one more.** -/
theorem Spaced.length_le (start : Nat) {span : Nat} (hwindow : 0 < window) (h : Spaced window times)
    (hin : ∀ t ∈ times, start ≤ t ∧ t ≤ start + span) : times.length ≤ span / window + 1 := by
  cases times with
  | nil => exact Nat.zero_le _
  | cons t times =>
    have hspan := h.span_le fun t' ht' => (hin t' ht').1
    have hlast := (hin t List.mem_cons_self).2
    have hfit : times.length ≤ span / window := by
      rw [Nat.le_div_iff_mul_le hwindow]
      omega
    rw [List.length_cons]
    omega

/-- How often something happens within any span of time. -/
def OncePer (window : Nat) (times : List Nat) : Prop :=
  ∀ start span,
    (times.filter fun t => start ≤ t ∧ t ≤ start + span).length ≤ span / window + 1

/-- Spaced times fall at most once into any window. -/
theorem Spaced.oncePer (hwindow : 0 < window) (h : Spaced window times) : OncePer window times := by
  intro start span
  refine Spaced.length_le start hwindow (List.Pairwise.sublist List.filter_sublist h) fun t ht => ?_
  simpa using (List.mem_filter.mp ht).2

end LastWrite

end NfsKlldap
