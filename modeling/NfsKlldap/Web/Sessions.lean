import NfsKlldap.Lib.KeyedMap
import NfsKlldap.Settings.Shares

/-! # Sessions and the localhost password (`auth.rs`)

Sessions are filed under the SHA-256 of their bearer token. A token that is presented too late drops
its session on the spot, so the map shrinks under anyone's requests; `liveAt` is the set that
matters, and tokens that do not validate leave it alone. The mirror of the map on disk is in
`SessionStore`.

The password of `localhost` is a sidecar file with a salt and an iterated hash. -/

namespace NfsKlldap

open Text

/-- A session, with the hash of its token. -/
structure Session where
  tokenHash : Str
  username : Str
  expiresAt : Nat
  deriving DecidableEq

/-- The sessions in memory, by token hash. -/
abbrev Sessions := KeyedMap Session.tokenHash

/-! ## Hashes -/

/-- The bytes of a text. -/
def utf8 (s : Str) : List UInt8 := (String.ofList s).toUTF8.toList

/-- `hex::encode` -/
def hexEncode (bytes : List UInt8) : Str :=
  bytes.flatMap fun b => [Nat.digitChar (b.toNat / 16), Nat.digitChar (b.toNat % 16)]

/-- The value of a hexadecimal digit, in either case. -/
def fromHexDigit (c : Char) : Option Nat :=
  if '0' ≤ c && c ≤ '9' then some (c.toNat - '0'.toNat)
  else if 'a' ≤ c && c ≤ 'f' then some (10 + c.toNat - 'a'.toNat)
  else if 'A' ≤ c && c ≤ 'F' then some (10 + c.toNat - 'A'.toNat)
  else none

/-- `hex::decode` -/
def hexDecode : Str → Option (List UInt8)
  | [] => some []
  | [_] => none
  | hi :: lo :: rest => do
    let h ← fromHexDigit hi
    let l ← fromHexDigit lo
    let bytes ← hexDecode rest
    return UInt8.ofNat (16 * h + l) :: bytes

/-! Texts with one hexadecimal form are one text. -/

/-- The list of a byte array is that of its data. -/
theorem toList_byteArray (b : ByteArray) : b.toList = b.data.toList := by
  have hloop : ∀ i r, ByteArray.toList.loop b i r = r.reverse ++ b.data.toList.drop i := by
    intro i r
    induction i, r using ByteArray.toList.loop.induct b with
    | case1 i r hlt ih =>
      have hlen : i < b.data.toList.length := by simpa using hlt
      have hget : b.get! i = b.data.toList.get ⟨i, hlen⟩ := by
        rw [List.get_eq_getElem, Array.getElem_toList]
        exact getElem!_pos b.data i _
      rw [ByteArray.toList.loop, if_pos hlt, ih, List.reverse_cons, List.append_assoc,
        List.drop_eq_getElem_cons hlen, hget]
      rfl
    | case2 i r hge =>
      rw [ByteArray.toList.loop, if_neg hge, List.drop_eq_nil_of_le (by simpa using hge),
        List.append_nil]
  exact hloop 0 []

/-- Different texts have different bytes. -/
theorem utf8_injective : Function.Injective utf8 := by
  intro s t h
  rw [utf8, utf8, toList_byteArray, toList_byteArray] at h
  exact String.ofList_injective (String.toByteArray_inj.mp (ByteArray.ext (Array.toList_inj.mp h)))

/-- Two digits below sixteen that look alike are equal. -/
theorem digitChar_inj {m n : Nat} (hm : m < 16) (hn : n < 16) (h : m.digitChar = n.digitChar) :
    m = n := by
  have hall : ∀ i j : Fin 16, Nat.digitChar i = Nat.digitChar j → i = j := by decide
  exact congrArg Fin.val (hall ⟨m, hm⟩ ⟨n, hn⟩ h)

/-- Different bytes are encoded differently. -/
theorem hexEncode_injective : Function.Injective hexEncode := by
  intro xs
  induction xs with
  | nil =>
    rintro (_ | ⟨y, ys⟩) h
    · rfl
    · exact nomatch h
  | cons x xs ih =>
    rintro (_ | ⟨y, ys⟩) h
    · exact nomatch h
    · obtain ⟨hhi, hlo, hrest⟩ : _ ∧ _ ∧ hexEncode xs = hexEncode ys := by
        simpa [hexEncode] using h
      have hx := x.toNat_lt
      have hy := y.toNat_lt
      have hdiv := digitChar_inj (by omega) (by omega) hhi
      have hmod := digitChar_inj (by omega) (by omega) hlo
      rw [UInt8.toNat_inj.mp (by omega : x.toNat = y.toNat), ih hrest]

/-- `PW_HASH_ITERATIONS` -/
def pwHashIterations : Nat := 100000

section Hash

variable (sha256 : List UInt8 → List UInt8)

/-- SHA-256 of the bearer token, in hexadecimal. -/
def hashToken (token : Str) : Str := hexEncode (sha256 (utf8 token))

/-- The salt and the password, hashed over and over. -/
def hashPassword (salt pw : List UInt8) : List UInt8 :=
  sha256^[pwHashIterations - 1] (sha256 (salt ++ pw))

/-! ## The password sidecar -/

/-- The line the sidecar holds. -/
def passwordLine (salt : List UInt8) (pw : Str) : Str :=
  hexEncode salt ++ ':' :: hexEncode (hashPassword sha256 salt (utf8 pw)) ++ ['\n']

/-- `set_simple_password`; `failure` is the error of a file system that refuses the write. -/
def setSimplePassword (salt : List UInt8) (failure : Option Str) (pw : Str) :
    Except Str ConfFile :=
  if isBlank pw then .error "Password cannot be empty".toList
  else if (utf8 pw).length < 8 then .error "Password must be at least 8 characters".toList
  else
    match failure with
    | some e => .error e
    | none => .ok (.text (passwordLine sha256 salt pw))

/-- `validate_simple_password` for the user `localhost`. -/
def validateSimplePassword (sidecar : ConfFile) (pw : Str) : Except Str Unit :=
  match sidecar with
  | .missing =>
    .error "No simple password has been set yet. Use the first-run setup form.".toList
  | .binary _ => .error "failed to read simple password file".toList
  | .text s =>
    match splitOnce ':' (trim s) with
    | none => .error "corrupt simple password file (bad format)".toList
    | some (saltHex, hashHex) =>
      match hexDecode saltHex, hexDecode hashHex with
      | none, _ => .error "corrupt simple password file (bad salt)".toList
      | some _, none => .error "corrupt simple password file (bad hash)".toList
      | some salt, some expected =>
        if hashPassword sha256 salt (utf8 pw) = expected then .ok ()
        else .error "Invalid password for 'localhost'".toList

/-! ## The session map -/

/-- The user of a token. A session that has expired is dropped. -/
def validateToken (now : Nat) (token : Str) (m : Sessions) : Option Str × Sessions :=
  match m.get? (hashToken sha256 token) with
  | none => (none, m)
  | some s =>
    if now < s.expiresAt then (some s.username, m)
    else (none, m.erase (hashToken sha256 token))

/-- The first token that validates decides. -/
def validateTokens (now : Nat) : List Str → Sessions → Option Str × Sessions
  | [], m => (none, m)
  | token :: tokens, m =>
    match validateToken sha256 now token m with
    | (some user, m) => (some user, m)
    | (none, m) => validateTokens now tokens m

/-- Drop the session of a token. -/
def logoutToken (m : Sessions) (token : Str) : Sessions := m.erase (hashToken sha256 token)

/-- A new session; the expired ones are dropped along the way. -/
def createPrivilegedSession (now ttl : Nat) (token username : Str) (m : Sessions) : Sessions :=
  (m.insert ⟨hashToken sha256 token, username, now + ttl⟩).retain fun s => now < s.expiresAt

end Hash

/-! ## Cookies -/

/-- All non-empty `session=` values of a Cookie header, oldest first. -/
def extractAllSessionTokens (header : Str) : List Str :=
  (header.splitOn ';').filterMap fun part =>
    let kv := trim part
    if startsWith kv "session=" then
      let token := trimEndMatches '"' ((kv.drop "session=".length).dropWhile (· = '"'))
      if token = [] then none else some token
    else none

/-- The tokens of a request. -/
def sessionTokens (cookie : Option Str) : List Str :=
  (cookie.map extractAllSessionTokens).getD []

/-- The newest token comes first. -/
def validateSessionInHeaders (sha256 : List UInt8 → List UInt8) (now : Nat) (cookie : Option Str)
    (m : Sessions) : Option Str × Sessions :=
  validateTokens sha256 now (sessionTokens cookie).reverse m

/-! ## Live sessions -/

/-- **The sessions that are live** at a time. -/
def liveAt (t : Nat) (m : Sessions) : Set Session := {s | s ∈ m.values ∧ t < s.expiresAt}

/-- No live session has this key. -/
def KeyDead (now : Nat) (m : Sessions) (key : Str) : Prop := ∀ s ∈ liveAt now m, s.tokenHash ≠ key

section Live

variable {sha256 : List UInt8 → List UInt8} {now t : Nat} {m m' : Sessions}

/-- Whether a key is dead depends on the live sessions only. -/
theorem KeyDead.congr {key : Str} (h : liveAt now m' = liveAt now m) :
    KeyDead now m' key ↔ KeyDead now m key := by
  rw [KeyDead, KeyDead, h]

/-- Dropping what is dead leaves the live sessions, now and later. -/
theorem liveAt_erase {key : Str} (h : KeyDead now m key) (ht : now ≤ t) :
    liveAt t (m.erase key) = liveAt t m := by
  ext s
  simp only [liveAt, KeyedMap.erase, KeyedMap.values_retain, List.mem_filter, decide_not,
    Bool.not_eq_eq_eq_not, Bool.not_true, decide_eq_false_iff_not, Set.mem_ofPred_eq]
  refine ⟨fun ⟨⟨hs, _⟩, hlive⟩ => ⟨hs, hlive⟩, fun ⟨hs, hlive⟩ => ⟨⟨hs, ?_⟩, hlive⟩⟩
  exact h s ⟨hs, ht.trans_lt hlive⟩

/-- A token that does not validate belongs to no live session. -/
theorem validateToken_none {token : Str} (h : (validateToken sha256 now token m).1 = none) :
    KeyDead now m (hashToken sha256 token) ∧
      ∀ t, now ≤ t → liveAt t (validateToken sha256 now token m).2 = liveAt t m := by
  have hdead : KeyDead now m (hashToken sha256 token) := by
    rintro s ⟨hs, hlive⟩ hkey
    simp [validateToken, KeyedMap.get?_eq_some_iff.mpr ⟨hs, hkey⟩, hlive] at h
  refine ⟨hdead, fun t ht => ?_⟩
  unfold validateToken at h ⊢
  split at h
  · rfl
  · split at h
    · cases h
    · next hexp => simpa only [if_neg hexp] using liveAt_erase hdead ht

/-- When no token is valid, all their keys are dead, and the live sessions stay. -/
theorem validateTokens_none {tokens : List Str}
    (h : (validateTokens sha256 now tokens m).1 = none) :
    (∀ token ∈ tokens, KeyDead now m (hashToken sha256 token)) ∧
      ∀ t, now ≤ t → liveAt t (validateTokens sha256 now tokens m).2 = liveAt t m := by
  induction tokens generalizing m with
  | nil => exact ⟨by simp, fun _ _ => rfl⟩
  | cons token tokens ih =>
    rw [validateTokens] at h ⊢
    cases hv : validateToken sha256 now token m with
    | mk user m' =>
      rw [hv] at h
      cases user with
      | some user => cases h
      | none =>
        obtain ⟨hdead, hlive⟩ := validateToken_none (congrArg Prod.fst hv)
        rw [hv] at hlive
        obtain ⟨hdeads, hlives⟩ := ih h
        refine ⟨List.forall_mem_cons.mpr ⟨hdead, fun token' htoken' => ?_⟩, fun t ht => ?_⟩
        · exact (KeyDead.congr (hlive now le_rfl)).mp (hdeads token' htoken')
        · exact (hlives t ht).trans (hlive t ht)

/-- Logging out with tokens of no live session leaves the live sessions. -/
theorem liveAt_foldl_logout {tokens : List Str}
    (h : ∀ token ∈ tokens, KeyDead now m (hashToken sha256 token)) (ht : now ≤ t) :
    liveAt t (tokens.foldl (logoutToken sha256) m) = liveAt t m := by
  induction tokens generalizing m with
  | nil => rfl
  | cons token tokens ih =>
    rw [List.forall_mem_cons] at h
    have herase : ∀ t, now ≤ t → liveAt t (logoutToken sha256 m token) = liveAt t m :=
      fun t ht => liveAt_erase h.1 ht
    rw [List.foldl_cons, ih fun token' htoken' => ?_, herase t ht]
    exact (KeyDead.congr (herase now le_rfl)).mpr (h.2 token' htoken')

end Live

end NfsKlldap
