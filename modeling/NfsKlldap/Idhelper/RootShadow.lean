import NfsKlldap.Idhelper.NssSnapshotSpec

/-! # User logins that are printed with uid 0

Users and machines share one namespace of passwd logins, filled in the order of principals. A
machine is mapped to uid 0 and is also emitted under the trailing segment of its principal, so
`host/zed@R`, which sorts in front of `zed@R`, takes the login `zed` of that user.

* **`RootShadowed`** — the first holder of one of the user's logins has uid 0, or prints a line
  whose third field reads as 0 because its raw local part holds colons;
* **`noRootShadow_iff`** — a user's logins stay clear of uid 0 exactly when that does not happen. -/

namespace NfsKlldap

open Text

/-- The uid field of a passwd line: the third of its colon-separated fields. -/
def uidField (line : Str) : Option UInt32 := (line.splitOn ':')[2]?.bind parseU32

/-- No passwd line under a login of `e` carries uid 0. -/
def NoRootShadow (cache : IdCache) (ldap : LdapGroups) (e : Resolved) : Prop :=
  ∀ line ∈ (buildNssSnapshot cache ldap).1, loginField line ∈ nssPasswdLoginsFor e →
    uidField line ≠ some 0

/-- Somebody else's uid 0 is printed under a login of `e`: the first holder of the login has uid 0,
or the first holder of a login with colons in it forges the fields. -/
def RootShadowed (cache : IdCache) (e : Resolved) : Prop :=
  ∃ x login, FirstHolder cache x login ∧
    ((login ∈ nssPasswdLoginsFor e ∧ x.uid = 0) ∨
      (before ':' login ∈ nssPasswdLoginsFor e ∧ uidField login = some 0))

/-! ## The uid field of a printed row -/

/-- Without a colon in the login, the uid field is the uid of the row. -/
theorem uidField_line {f : PasswdFields} (h : ':' ∉ f.login) : uidField f.line = some f.uid := by
  have hdec : ':' ∉ decimal f.uid := not_mem_decimal (by decide) _
  have hshape : f.line = f.login ++ ':' :: (['x'] ++ ':' :: (decimal f.uid ++ ':' ::
      (decimal f.gid ++ ':' :: (f.gecos ++ ':' :: (f.home ++ ':' :: f.shell))))) := by
    simp [PasswdFields.line]
  rw [uidField, hshape, List.splitOn_append_cons_self_of_not_mem h,
    List.splitOn_append_cons_self_of_not_mem (by decide),
    List.splitOn_append_cons_self_of_not_mem hdec]
  simp

/-- With a colon in the login, the uid field is read from the login itself. -/
theorem uidField_line_of_mem {f : PasswdFields} (h : ':' ∈ f.login) :
    uidField f.line = uidField f.login := by
  obtain ⟨rest, hline⟩ : ∃ rest, f.line = f.login ++ ':' :: 'x' :: ':' :: rest :=
    ⟨_, by simp [PasswdFields.line]; rfl⟩
  rw [uidField, uidField, hline]
  rcases eq_before_append ':' f.login with ⟨hno, -⟩ | ⟨b, hb⟩
  · exact absurd h hno
  · generalize f.login = login at hb h ⊢
    have ha : ':' ∉ before ':' login := not_mem_before _ _
    generalize before ':' login = a at hb ha
    subst hb
    rw [List.append_assoc, List.cons_append, List.splitOn_append_cons_self_of_not_mem ha,
      List.splitOn_append_cons_self_of_not_mem ha]
    rcases eq_before_append ':' b with ⟨hno, -⟩ | ⟨d, hd⟩
    · -- one colon: the third field is the password field `x`
      rw [List.splitOn_append_cons_self_of_not_mem hno, List.splitOn_eq_singleton hno,
        show 'x' :: ':' :: rest = ['x'] ++ ':' :: rest from rfl,
        List.splitOn_append_cons_self_of_not_mem (by decide)]
      simp [parseU32, stripPlus]
    · -- two colons or more: the third field ends at the next colon
      have hc : ':' ∉ before ':' b := not_mem_before _ _
      generalize before ':' b = c at hd hc
      subst hd
      rw [List.append_assoc, List.cons_append, List.splitOn_append_cons_self_of_not_mem hc,
        List.splitOn_append_cons_self_of_not_mem hc]
      simp only [List.getElem?_cons_succ, ← List.head?_eq_getElem?, head?_splitOn,
        before_append_cons]

/-! ## Logins of users -/

/-- The logins of a realm-qualified user hold no colon. -/
theorem colon_not_mem_of_user {e : Resolved} (hrealm : principalHasRealm e.principal = true)
    (hkind : e.kind = .user) {login : Str} (hl : login ∈ nssPasswdLoginsFor e) : ':' ∉ login := by
  rcases isSaneLogin_or_local hrealm hl with hs | ⟨hm, -⟩
  · exact hs.isFieldName.colon
  · rw [hkind] at hm
    exact absurd hm (by decide)

/-- A user whose short login is not `root` has no login `root`. -/
theorem root_not_mem_logins {e : Resolved} (hrealm : principalHasRealm e.principal = true)
    (hkind : e.kind = .user) (hshort : sanitizeForNss e.name ≠ "root".toList) :
    "root".toList ∉ nssPasswdLoginsFor e := by
  intro h
  rcases (mem_nssPasswdLoginsFor hrealm).mp h with h | h | ⟨hm, -⟩
  · exact hshort h.symm
  · have hat := at_mem_principalRealmLoginForNss hrealm
    rw [← h] at hat
    revert hat
    decide
  · rw [hkind] at hm
    exact absurd hm (by decide)

/-- **A user's logins are clear of uid 0 unless they are shadowed.** For a realm-qualified user
with a short login other than `root`, no passwd line under one of its logins carries uid 0 exactly
when no first holder with uid 0, and no forged line, stands under them. -/
theorem noRootShadow_iff {cache : IdCache} {ldap : LdapGroups} {e : Resolved}
    (hrealm : principalHasRealm e.principal = true) (hkind : e.kind = .user)
    (hshort : sanitizeForNss e.name ≠ "root".toList) :
    NoRootShadow cache ldap e ↔ ¬ RootShadowed cache e := by
  have hroot := root_not_mem_logins hrealm hkind hshort
  have hlines : NoRootShadow cache ldap e ↔ ∀ f ∈ (buildNssRows cache ldap).1,
      before ':' f.login ∈ nssPasswdLoginsFor e → uidField f.line ≠ some 0 := by
    simp only [NoRootShadow, buildNssSnapshot, List.forall_mem_map, loginField_line]
  rw [hlines, buildNssRows_passwd, finishPasswd_eq]
  constructor
  · rintro hall ⟨x, login, hx, hcase⟩
    -- the row of the first holder survives the root fix-up
    have hlogin : before ':' login ∈ nssPasswdLoginsFor e := by
      rcases hcase with ⟨hl, -⟩ | ⟨hl, -⟩
      · rwa [before_eq_self (colon_not_mem_of_user hrealm hkind hl)]
      · exact hl
    have hrow : passwdRow x login ∈ (firsts [] (allPasswdClaims cache)).filterMap Prod.snd :=
      mem_passwdRows_iff.mpr ⟨x, hx, rfl⟩
    have hkeep : ¬ (passwdRow x login).isRootLine = true := by
      rw [PasswdFields.isRootLine_iff]
      exact fun h => hroot (h ▸ hlogin)
    refine hall (passwdRow x login) ?_ hlogin ?_
    · rw [List.mem_append, List.mem_cons]
      exact Or.inl (Or.inr ((List.mem_eraseP_of_neg hkeep).mpr hrow))
    · rcases hcase with ⟨hl, huid⟩ | ⟨-, huid⟩
      · rw [uidField_line (colon_not_mem_of_user hrealm hkind hl)]
        exact congrArg some huid
      · rw [uidField_line_of_mem]
        · exact huid
        · by_contra hno
          rw [uidField, List.splitOn_eq_singleton (show ':' ∉ login from hno)] at huid
          simp at huid
  · intro hno f hf hl huid
    rw [List.mem_append, List.mem_cons] at hf
    rcases hf with (rfl | hf) | hf
    · exact hroot hl
    · obtain ⟨x, hx, hfx⟩ := mem_passwdRows_iff.mp (List.mem_of_mem_eraseP hf)
      refine hno ⟨x, f.login, hx, ?_⟩
      by_cases hc : ':' ∈ f.login
      · exact Or.inr ⟨hl, by rwa [uidField_line_of_mem hc] at huid⟩
      · rw [uidField_line hc, hfx] at huid
        rw [before_eq_self hc] at hl
        exact Or.inl ⟨hl, by simpa [passwdRow] using huid⟩
    · split at hf
      · simp at hf
      · obtain rfl : f = nobodyPasswd := by simpa using hf
        revert huid
        decide

/-! ## A machine in front of a user of the same name -/

/-- The machine `host/zed`: uid 0, and `zed` is its short name. -/
def zedMachine : Resolved :=
  ⟨"host/zed@R".toList, "zed".toList, 0, 0, .machine, "machine".toList, []⟩

/-- The user `zed`. -/
def zedUser : Resolved := ⟨"zed@R".toList, "zed".toList, 1000, 1000, .user, "bulk".toList, []⟩

/-- The cache with the machine and the user. -/
def zedCache : IdCache := (KeyedMap.empty.insert zedMachine).insert zedUser

/-- The login `zed` of the user is printed with the uid of the machine. -/
theorem not_noRootShadow_zed :
    zedUser ∈ zedCache.values ∧ principalHasRealm zedUser.principal = true ∧
      zedUser.kind = .user ∧ zedUser.uid ≠ 0 ∧ isNumericLocalPrincipal zedUser.principal = false ∧
      sanitizeForNss zedUser.name ≠ "root".toList ∧ ¬ NoRootShadow zedCache none zedUser := by
  refine ⟨by decide, by decide, rfl, by decide, by decide, by decide, ?_⟩
  intro h
  exact h "zed:x:0:0:host/zed@R:/nonexistent:/usr/sbin/nologin".toList (by decide) (by decide)
    (by decide)

/-- Alone in the cache, the user keeps its logins. -/
theorem noRootShadow_zedUser : NoRootShadow (KeyedMap.empty.insert zedUser) none zedUser := by
  refine (noRootShadow_iff (by decide) rfl (by decide)).mpr ?_
  rintro ⟨x, login, hx, hcase⟩
  obtain rfl : x = zedUser := by simpa [KeyedMap.mem_insert] using hx.mem
  have hlogins : emittedLogins zedUser = ["zed".toList, "zed@R".toList] := by decide
  have hl := hx.login_mem
  rw [hlogins, List.mem_cons, List.mem_singleton] at hl
  rcases hl with rfl | rfl
  all_goals
    revert hcase
    decide

end NfsKlldap
