import NfsKlldap.Idhelper.Reachable
import NfsKlldap.Idhelper.RealmGuard

/-! # Store rows are read back

Every line of the snapshot was built from fields, and the strict parsers should read these fields
back. Group rows do, whatever the cache and the directory hold: every name in them is sanitised. A
passwd row does unless its login is the raw local part of a machine, the one login that is inserted
as it is; **`rowsRoundTrip_iff`** says which local parts break it. -/

namespace NfsKlldap

open Text

/-- The lines of the snapshot are read back as the fields they were built from, line by line. -/
structure RowsRoundTrip (cache : IdCache) (ldap : LdapGroups) : Prop where
  passwd : (buildNssSnapshot cache ldap).1.map parsePasswdRow
    = (buildNssRows cache ldap).1.map fun f => some ⟨f.login, f.uid, f.gid⟩
  group : (buildNssSnapshot cache ldap).2.map parseGroupRow
    = (buildNssRows cache ldap).2.map fun f => some ⟨f.name, f.gid, f.members⟩

/-- A text the passwd parser gives back: without a colon, and trimmed. -/
def IsCleanLocal (l : Str) : Prop := ':' ∉ l ∧ trim l = l

/-- Whether a local part is clean can be decided. -/
instance (l : Str) : Decidable (IsCleanLocal l) := inferInstanceAs (Decidable (_ ∧ _))

/-! ## Passwd lines -/

/-- A passwd line ends in its shell. -/
theorem PasswdFields.parse_line {f : PasswdFields} (h : IsFieldName f.login)
    (hshell : ∀ c ∈ f.shell.getLast?, isWhitespace c = false) :
    parsePasswdRow f.line = some ⟨f.login, f.uid, f.gid⟩ := by
  refine parsePasswdRow_of_isFieldName f.uid f.gid h fun c hc => ?_
  rw [show ':' :: (f.gecos ++ ':' :: (f.home ++ ':' :: f.shell))
      = (':' :: f.gecos ++ ':' :: f.home) ++ ':' :: f.shell by simp,
    List.getLast?_append_of_ne_nil _ (by simp)] at hc
  by_cases hnil : f.shell = []
  · rw [hnil] at hc
    obtain rfl : ':' = c := by simpa using hc
    decide
  · rw [List.getLast?_cons_of_ne_nil hnil] at hc
    exact hshell c hc

/-- **A row of an entry is read back exactly when its login is clean.** -/
theorem parse_passwdRow_iff {x : Resolved} {login : Str} (hhash : login.head? ≠ some '#') :
    parsePasswdRow (passwdRow x login).line = some ⟨login, x.uid, x.gid⟩ ↔ IsCleanLocal login := by
  constructor
  · intro h
    exact parsePasswdRow_name h
  · intro h
    exact PasswdFields.parse_line (f := passwdRow x login) ⟨h.1, h.2, hhash⟩
      fun c hc => by
        obtain rfl : 'n' = c := by simpa [passwdRow] using hc
        decide

/-- The local part of a machine does not open a comment. -/
theorem IsMachineLocal.hash {l : Str} (h : IsMachineLocal l) : l.head? ≠ some '#' := by
  obtain ⟨c, t, rfl, hc⟩ := h.head
  intro hh
  obtain rfl : c = '#' := by simpa using hh
  revert hc
  decide

/-- A machine is taken for a prior root row only when it is called `root`. -/
theorem IsMachineLocal.eq_root {l : Str} (h : IsMachineLocal l)
    (hb : before ':' l = "root".toList) : l = "root".toList := by
  rcases eq_before_append ':' l with ⟨-, heq⟩ | ⟨r, heq⟩
  · rw [← heq, hb]
  · -- no machine name goes on with a colon behind `root`
    have hlower : toAsciiLowercase l = "root:".toList ++ toAsciiLowercase r := by
      rw [heq, hb]
      rfl
    rw [IsMachineLocal, hlower] at h
    rcases h with h | h | h | h
    · have hfalse : hasMachinePrefix ("root:".toList ++ toAsciiLowercase r) = false := rfl
      rw [hfalse] at h
      exact absurd h (by decide)
    all_goals exact absurd (congrArg List.length h) (by simp)

/-! ## The rows of a sound cache -/

/-- The raw local part of a machine is one of its emitted logins. -/
theorem EntrySound.local_mem {e : Resolved} (h : EntrySound e) (hk : e.kind = .machine) :
    principalLocalPart e.principal ∈ emittedLogins e := by
  refine List.mem_filter.mpr ⟨?_, ?_⟩
  · exact (mem_nssPasswdLoginsFor h.realm).mpr (Or.inr (Or.inr ⟨hk, rfl⟩))
  · have hnum : isNumericLogin (principalLocalPart e.principal) = false := h.not_numeric
    rw [hnum]
    rfl

/-- The entry is a machine that looks like one. -/
theorem EntrySound.isMachineLocal {e : Resolved} (h : EntrySound e) (hk : e.kind = .machine) :
    IsMachineLocal (principalLocalPart e.principal) := by
  rcases h.kind with hu | ⟨-, -, -, hl⟩
  · rw [hk] at hu
    exact absurd hu (by decide)
  · exact hl

/-- **Passwd rows of a sound cache** are read back exactly when every machine has a clean local
part. -/
theorem parse_passwdRows_iff {cache : IdCache} (hs : CacheSound cache) (ldap : LdapGroups) :
    (∀ f ∈ (buildNssRows cache ldap).1, parsePasswdRow f.line = some ⟨f.login, f.uid, f.gid⟩) ↔
      ∀ e ∈ cache.values, e.kind = .machine → IsCleanLocal (principalLocalPart e.principal) := by
  rw [buildNssRows_passwd, finishPasswd_eq]
  constructor
  · intro h e he hk
    have hl := (hs e he).isMachineLocal hk
    by_contra hbad
    -- the row of the first entry with this login survives the fix-ups
    obtain ⟨x, hx⟩ := exists_firstHolder he (hs e he).isEmitted ((hs e he).local_mem hk)
    have hrow : passwdRow x (principalLocalPart e.principal) ∈
        (firsts [] (allPasswdClaims cache)).filterMap Prod.snd :=
      mem_passwdRows_iff.mpr ⟨x, hx, rfl⟩
    have hnotRoot : ¬ (passwdRow x (principalLocalPart e.principal)).isRootLine = true := by
      rw [PasswdFields.isRootLine_iff]
      intro hb
      have hroot := hl.eq_root hb
      rw [hroot] at hbad
      exact hbad (by decide)
    have hmem := (List.mem_eraseP_of_neg hnotRoot).mpr hrow
    have hparse := h _ (List.mem_append_left _ (List.mem_cons_of_mem _ hmem))
    exact hbad ((parse_passwdRow_iff hl.hash).mp hparse)
  · intro hclean f hf
    rcases List.mem_append.mp hf with hf | hf
    · rcases List.mem_cons.mp hf with rfl | hf
      · decide
      · obtain ⟨x, hx, hfx⟩ := mem_passwdRows_iff.mp (List.mem_of_mem_eraseP hf)
        have hlogin := (List.mem_filter.mp hx.login_mem).1
        rw [hfx]
        rcases isSaneLogin_or_local (hs x hx.mem).realm hlogin with hsane | ⟨hk, hl⟩
        · exact (parse_passwdRow_iff hsane.isFieldName.hash).mpr
            ⟨hsane.isFieldName.colon, hsane.isFieldName.trimmed⟩
        · rw [hl]
          exact (parse_passwdRow_iff ((hs x hx.mem).isMachineLocal hk).hash).mpr (hclean x hx.mem hk)
    · split at hf
      · simp at hf
      · obtain rfl : f = nobodyPasswd := by simpa using hf
        decide

/-- **Which reachable caches print rows that are read back**: those whose machines have local parts
without a colon and without white space at the end. -/
theorem rowsRoundTrip_iff {cache : IdCache} (h : Reachable cache) (ldap : LdapGroups) :
    RowsRoundTrip cache ldap ↔
      ∀ e ∈ cache.values, e.kind = .machine → IsCleanLocal (principalLocalPart e.principal) := by
  rw [← parse_passwdRows_iff h.cacheSound ldap]
  constructor
  · intro hrt f hf
    have hmap := hrt.passwd
    rw [buildNssSnapshot, List.map_map] at hmap
    exact List.map_inj_left.mp hmap f hf
  · intro hpasswd
    constructor
    · rw [buildNssSnapshot, List.map_map]
      exact List.map_congr_left hpasswd
    · rw [buildNssSnapshot, List.map_map]
      exact List.map_congr_left fun f hf => (isSaneGroup_of_mem_buildNssRows hf).parseGroupRow_line

/-! ## A machine with a colon in its name -/

/-- A client that asks for `host/a:b@R` forges a passwd row: the login ends at the colon and the uid
field holds an `x`. -/
theorem not_rowsRoundTrip_colon :
    Reachable (resolvePrincipal silentEnv "R".toList [] "host/a:b@R".toList freshWorld).2.cache ∧
      ¬ RowsRoundTrip
        (resolvePrincipal silentEnv "R".toList [] "host/a:b@R".toList freshWorld).2.cache none := by
  refine ⟨Reachable.resolve silentEnv Reachable.init _ _ _, fun h => ?_⟩
  have hmap := h.passwd
  revert hmap
  decide

/-- After a request for `host/a@R` the rows are read back. -/
theorem rowsRoundTrip_host :
    RowsRoundTrip (resolvePrincipal silentEnv "R".toList [] "host/a@R".toList freshWorld).2.cache
      none := by
  refine (rowsRoundTrip_iff (Reachable.resolve silentEnv Reachable.init _ _ _) none).mpr ?_
  decide

end NfsKlldap
