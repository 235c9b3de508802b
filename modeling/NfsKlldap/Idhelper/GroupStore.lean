import NfsKlldap.Idhelper.Stores

/-! # The group stores under their two writers

A bulk rewrite leaves the printed rows of a snapshot in both group stores, and a repair appends one
login to the rows of one gid. What `getgrouplist` finds in the stores is the parsed rows.

* **`StoreFile.Prints`** — a store holds printed rows, and `Prints.groupRows` reads them back;
* **`ensureRow`** — what a repair does to the rows, and **`ensureMemberAt_prints`** connects it with
  the line surgery of the code;
* **`ensureNssGroupMemberLogin_lists`** — a repair lists its login and takes no member away. -/

namespace NfsKlldap

open Text

/-- The group stores of nss_wrapper and of extrausers. -/
def groupStores : List StorePath := [.nssGroup, .extrausersGroup]

/-- The rows that a reader of a group store finds. -/
def StoreFile.groupRows (file : StoreFile) : List GroupRow :=
  (lines (file.readToString.getD [])).filterMap parseGroupRow

/-- There is a row of the gid, and every such row lists the login. -/
def Listed (rows : List GroupFields) (gid : UInt32) (login : Str) : Prop :=
  (∃ f ∈ rows, f.gid = gid) ∧ ∀ f ∈ rows, f.gid = gid → login ∈ f.members

/-- A reader finds a row of the gid, and the login in every such row. -/
def StoreFile.Lists (file : StoreFile) (gid : UInt32) (login : Str) : Prop :=
  (∃ row ∈ file.groupRows, row.gid = gid) ∧
    ∀ row ∈ file.groupRows, row.gid = gid → login ∈ row.members

/-- Both group stores list the login under the gid. -/
def Disk.Lists (d : Disk) (gid : UInt32) (login : Str) : Prop :=
  ∀ path ∈ groupStores, (d.files path).Lists gid login

/-! ## Printed rows -/

/-- A store holds printed rows. -/
structure StoreFile.Prints (file : StoreFile) (rows : List GroupFields) : Prop where
  text : file = .text (unlines (rows.map GroupFields.line))
  sane : ∀ f ∈ rows, IsSaneGroup f

namespace StoreFile.Prints

variable {file : StoreFile} {rows : List GroupFields}

/-- The lines of a file that prints rows are their texts. -/
theorem lines_eq (h : file.Prints rows) :
    lines (file.readToString.getD []) = rows.map GroupFields.line := by
  rw [h.text]
  refine lines_unlines ?_ ?_
  · exact List.forall_mem_map.mpr fun f hf => (h.sane f hf).line_feed.1
  · exact List.forall_mem_map.mpr fun f hf => (h.sane f hf).line_feed.2

/-- **Printed rows are read back.** -/
theorem groupRows (h : file.Prints rows) :
    file.groupRows = rows.map fun f => ⟨f.name, f.gid, f.members⟩ := by
  rw [StoreFile.groupRows, h.lines_eq, List.filterMap_map, ← List.filterMap_eq_map]
  exact List.filterMap_congr fun f hf => (h.sane f hf).parseGroupRow_line

/-- A file that prints rows lists who is in them. -/
theorem lists_iff (h : file.Prints rows) {gid : UInt32} {login : Str} :
    file.Lists gid login ↔ Listed rows gid login := by
  simp only [StoreFile.Lists, Listed, h.groupRows, List.mem_map, exists_exists_and_eq_and,
    forall_exists_index, and_imp, forall_apply_eq_imp_iff₂]

/-- The name found for a gid is the name of a row. -/
theorem findName (h : file.Prints rows) {gid : UInt32} {name : Str}
    (hname : NfsKlldap.findName gid file = some name) : IsSaneLogin name := by
  have hline := h.lines_eq
  rw [h.text] at hname hline
  simp only [StoreFile.readToString, Option.getD_some] at hline
  simp only [NfsKlldap.findName, StoreFile.readToString, bind, Option.bind_some, hline] at hname
  obtain ⟨l, hl, hfound⟩ := List.exists_of_findSome?_eq_some hname
  obtain ⟨f, hf, rfl⟩ := List.mem_map.mp hl
  have hsane := h.sane f hf
  have hdec : ':' ∉ decimal f.gid := not_mem_decimal (by decide) _
  obtain ⟨htrim, hskip⟩ := groupLine_trimmed f.gid hsane.name.isFieldName
    fun m hm => (hsane.members m hm).isMemberName
  rw [f.line_eq, groupLine_shape, htrim, hskip] at hfound
  simp only [Bool.false_eq_true, if_false, splitN_append _ _ hsane.name.isFieldName.colon,
    splitN_append 1 _ (show ':' ∉ ['x'] by decide), splitN_append 0 _ hdec,
    parseU32_decimal, Option.some.injEq] at hfound
  split at hfound
  · rw [← Option.some.inj hfound]
    exact hsane.name
  · simp at hfound

end StoreFile.Prints

/-! ## Repaired rows -/

/-- A row with the login in its member list, if it is a row of the gid. -/
def GroupFields.addMember (gid : UInt32) (login : Str) (f : GroupFields) : GroupFields :=
  if f.gid = gid then { f with members := pushNew f.members login } else f

/-- A new member leaves the gid as it is. -/
@[simp] theorem GroupFields.addMember_gid (gid : UInt32) (login : Str) (f : GroupFields) :
    (f.addMember gid login).gid = f.gid := by
  rw [addMember]
  split <;> rfl

/-- The members are the old ones and, in the row of the gid, the new one. -/
theorem GroupFields.mem_members_addMember {gid : UInt32} {login l : Str} {f : GroupFields} :
    l ∈ (f.addMember gid login).members ↔ l ∈ f.members ∨ (f.gid = gid ∧ l = login) := by
  rw [addMember]
  split
  · rename_i hg
    simp [hg]
  · rename_i hg
    simp [hg]

/-- The rows after a repair: the login joins every row of the gid, and a gid without a row gets
one. -/
def ensureRow (gid : UInt32) (login name : Str) (rows : List GroupFields) : List GroupFields :=
  let out := rows.map (GroupFields.addMember gid login)
  if ∃ f ∈ rows, f.gid = gid then out else out ++ [⟨gid, name, [login]⟩]

/-- The rows are the old ones with the new member, and a new row where the gid had none. -/
theorem mem_ensureRow {gid : UInt32} {login name : Str} {rows : List GroupFields} {f : GroupFields} :
    f ∈ ensureRow gid login name rows ↔ (∃ f₀ ∈ rows, f = f₀.addMember gid login) ∨
      ((∀ f₀ ∈ rows, f₀.gid ≠ gid) ∧ f = ⟨gid, name, [login]⟩) := by
  simp only [ensureRow]
  split
  · rename_i hrow
    simp only [List.mem_map, eq_comm]
    refine ⟨Or.inl, ?_⟩
    rintro (h | ⟨hno, -⟩)
    · exact h
    · obtain ⟨f₀, hf₀, hg⟩ := hrow
      exact absurd hg (hno f₀ hf₀)
  · rename_i hrow
    push Not at hrow
    rw [List.mem_append, List.mem_map, List.mem_singleton]
    simp only [eq_comm]
    exact or_congr_right (and_iff_right hrow).symm

/-- **A repair lists its login.** -/
theorem listed_ensureRow (gid : UInt32) (login name : Str) (rows : List GroupFields) :
    Listed (ensureRow gid login name rows) gid login := by
  constructor
  · by_cases hrow : ∃ f ∈ rows, f.gid = gid
    · obtain ⟨f, hf, hg⟩ := hrow
      exact ⟨f.addMember gid login, mem_ensureRow.mpr (Or.inl ⟨f, hf, rfl⟩), by simpa using hg⟩
    · push Not at hrow
      exact ⟨⟨gid, name, [login]⟩, mem_ensureRow.mpr (Or.inr ⟨hrow, rfl⟩), rfl⟩
  · intro f hf hg
    rcases mem_ensureRow.mp hf with ⟨f₀, -, rfl⟩ | ⟨-, rfl⟩
    · exact GroupFields.mem_members_addMember.mpr (Or.inr ⟨by simpa using hg, rfl⟩)
    · exact List.mem_singleton_self login

/-- **A repair takes no member away.** -/
theorem Listed.ensureRow {rows : List GroupFields} {g : UInt32} {l : Str} (h : Listed rows g l)
    (gid : UInt32) (login name : Str) : Listed (ensureRow gid login name rows) g l := by
  obtain ⟨⟨f, hf, hg⟩, hall⟩ := h
  refine ⟨⟨f.addMember gid login, mem_ensureRow.mpr (Or.inl ⟨f, hf, rfl⟩), by simpa using hg⟩, ?_⟩
  intro f' hf' hg'
  rcases mem_ensureRow.mp hf' with ⟨f₀, hf₀, rfl⟩ | ⟨hno, rfl⟩
  · exact GroupFields.mem_members_addMember.mpr (Or.inl (hall f₀ hf₀ (by simpa using hg')))
  · -- the gid has a row, so none was created
    exact absurd (hg.trans hg'.symm) (hno f hf)

/-- Sane rows stay sane with a sane new member. -/
theorem isSaneGroup_of_mem_ensureRow {gid : UInt32} {login name : Str} {rows : List GroupFields}
    (hrows : ∀ f ∈ rows, IsSaneGroup f) (hlogin : IsSaneLogin login) (hname : IsSaneLogin name)
    {f : GroupFields} (hf : f ∈ ensureRow gid login name rows) : IsSaneGroup f := by
  rcases mem_ensureRow.mp hf with ⟨f₀, hf₀, rfl⟩ | ⟨-, rfl⟩
  · refine ⟨?_, fun m hm => ?_⟩
    · rw [GroupFields.addMember]
      split <;> exact (hrows f₀ hf₀).name
    · rcases GroupFields.mem_members_addMember.mp hm with hm | ⟨-, rfl⟩
      · exact (hrows f₀ hf₀).members m hm
      · exact hlogin
  · exact ⟨hname, fun m hm => List.mem_singleton.mp hm ▸ hlogin⟩

/-- The line surgery on a printed row prints the repaired row. -/
theorem IsSaneGroup.repairedLine_line {f : GroupFields} (h : IsSaneGroup f) (gid : UInt32)
    {login : Str} (hlogin : IsSaneLogin login) :
    repairedLine gid login f.line = (f.addMember gid login).line := by
  rw [repairedLine, h.repairRow_line gid hlogin, GroupFields.addMember]
  by_cases hg : f.gid = gid
  · rw [if_pos hg, if_pos hg, pushNew]
    split_ifs <;> rfl
  · rw [if_neg hg, if_neg hg]

/-! ## Repaired stores -/

section Repair

variable {fails : Nat → Bool} (hfails : ∀ n, fails n = false) {d : Disk} {gid : UInt32} {login : Str}

include hfails

/-- **A repair of one store** repairs its rows and leaves the other stores alone. -/
theorem ensureMemberAt_prints {path : StorePath} {rows : List GroupFields}
    (h : (d.files path).Prints rows) (hlogin : IsSaneLogin login)
    (hname : IsSaneLogin (newRowName gid d)) :
    ∃ d', ensureMemberAt fails gid login path d = (.ok (), d') ∧
      (d'.files path).Prints (ensureRow gid login (newRowName gid d) rows) ∧
      ∀ q ≠ path, d'.files q = d.files q := by
  have hsane : ∀ f ∈ ensureRow gid login (newRowName gid d) rows, IsSaneGroup f :=
    fun f hf => isSaneGroup_of_mem_ensureRow h.sane hlogin hname hf
  have hrepair := fun f hf => (h.sane f hf).repairRow_line gid hlogin
  have hlines : lines (unlines (rows.map GroupFields.line)) = rows.map GroupFields.line := by
    have hlines := h.lines_eq
    rwa [h.text] at hlines
  -- the repair has seen a row of the gid exactly when there is one
  have hsaw : ((rows.map GroupFields.line).any fun l => repairRow gid login l ≠ .other) = true ↔
      ∃ f ∈ rows, f.gid = gid := by
    simp only [List.any_map, List.any_eq_true, Function.comp_apply, decide_eq_true_eq]
    refine exists_congr fun f => and_congr_right fun hf => ?_
    rw [hrepair f hf]
    split_ifs with hg hl <;> simp [hg]
  -- the lines that it writes print the repaired rows
  have hout : (if ((rows.map GroupFields.line).any fun l => repairRow gid login l ≠ .other) then
        (rows.map GroupFields.line).map (repairedLine gid login)
      else (rows.map GroupFields.line).map (repairedLine gid login) ++
        [newRowName gid d ++ ":x:".toList ++ decimal gid ++ ':' :: login])
      = (ensureRow gid login (newRowName gid d) rows).map GroupFields.line := by
    have hmap : (rows.map GroupFields.line).map (repairedLine gid login)
        = (rows.map (GroupFields.addMember gid login)).map GroupFields.line := by
      rw [List.map_map, List.map_map]
      exact List.map_congr_left fun f hf => (h.sane f hf).repairedLine_line gid hlogin
    rw [hmap, ensureRow]
    by_cases hrow : ∃ f ∈ rows, f.gid = gid
    · rw [if_pos (hsaw.mpr hrow), if_pos hrow]
    · rw [if_neg (mt hsaw.mp hrow), if_neg hrow, List.map_append, List.map_singleton,
        GroupFields.line_eq]
      simp
  simp only [ensureMemberAt, h.text, StoreFile.readToString, Option.getD_some, hlines, hout]
  split
  · -- every row of the gid lists the login already, so the repaired rows are the rows
    rename_i hall
    obtain ⟨hs, hcomplete⟩ := hall
    have hrow := hsaw.mp hs
    have hsame : ensureRow gid login (newRowName gid d) rows = rows := by
      simp only [ensureRow, if_pos hrow]
      refine (List.map_congr_left fun f hf => ?_).trans (List.map_id' rows)
      have hf' := List.all_eq_true.mp hcomplete f.line (List.mem_map_of_mem hf)
      rw [hrepair f hf] at hf'
      rw [GroupFields.addMember]
      split_ifs at hf' ⊢ with hg hl
      · rw [pushNew, if_pos hl]
      · simp at hf'
      · rfl
    exact ⟨d, rfl, by rwa [hsame], fun _ _ => rfl⟩
  -- else they are written, and the write succeeds
  · have hne : (ensureRow gid login (newRowName gid d) rows).map GroupFields.line ≠ [] := by
      obtain ⟨⟨f, hf, -⟩, -⟩ := listed_ensureRow gid login (newRowName gid d) rows
      exact List.ne_nil_of_mem (List.mem_map_of_mem hf)
    rw [intercalate_append_newline hne]
    obtain ⟨b, d', hw, hfile, hother⟩ := writeAtomicIfChanged_of_not_fails fails hfails path
      (unlines ((ensureRow gid login (newRowName gid d) rows).map GroupFields.line)) d
    rw [hw]
    exact ⟨d', rfl, ⟨hfile, hsane⟩, hother⟩

end Repair

/-- Both group stores hold printed rows. -/
def Disk.PrintsGroups (d : Disk) : Prop := ∀ path ∈ groupStores, ∃ rows, (d.files path).Prints rows

/-- What is listed on a disk of printed rows is listed on a later one, which holds printed rows as
well. -/
structure Disk.Keeps (d d' : Disk) : Prop where
  prints : d.PrintsGroups → d'.PrintsGroups
  lists : d.PrintsGroups → ∀ path ∈ groupStores, ∀ {g : UInt32} {l : Str},
    (d.files path).Lists g l → (d'.files path).Lists g l

namespace Disk.Keeps

variable {d d' d'' : Disk}

/-- A disk keeps what it lists. -/
theorem refl (d : Disk) : d.Keeps d := ⟨id, fun _ _ _ _ _ h => h⟩

/-- What is kept twice is kept. -/
theorem trans (h : d.Keeps d') (h' : d'.Keeps d'') : d.Keeps d'' where
  prints hd := h'.prints (h.prints hd)
  lists hd path hpath _ _ hl := h'.lists (h.prints hd) path hpath (h.lists hd path hpath hl)

/-- Nothing is asked of a disk that does not hold printed rows. -/
theorem of_prints (h : d.PrintsGroups → d.Keeps d') : d.Keeps d' :=
  ⟨fun hd => (h hd).prints hd, fun hd => (h hd).lists hd⟩

/-- A disk with the same stores keeps everything. -/
theorem of_files (h : d'.files = d.files) : d.Keeps d' where
  prints hd := by rwa [PrintsGroups, h]
  lists _ _ _ _ _ hl := by rwa [h]

/-- What a disk that prints groups lists is kept on every one that keeps it. -/
theorem disk_lists (h : d.Keeps d') (hd : d.PrintsGroups) {g : UInt32} {l : Str}
    (hl : d.Lists g l) : d'.Lists g l :=
  fun path hpath => h.lists hd path hpath (hl path hpath)

end Disk.Keeps

/-- The name of a new row is sane. -/
theorem Disk.PrintsGroups.newRowName {d : Disk} (h : d.PrintsGroups) (gid : UInt32) :
    IsSaneLogin (newRowName gid d) := by
  obtain ⟨rows, hrows⟩ := h .nssGroup (by decide)
  obtain ⟨rows', hrows'⟩ := h .extrausersGroup (by decide)
  rw [NfsKlldap.newRowName]
  split
  · exact isSaneLogin_nobody
  · cases hfound : (findName gid (d.files .nssGroup)).or (findName gid (d.files .extrausersGroup)) with
    | some name =>
      rcases Option.or_eq_some_iff.mp hfound with hfound | ⟨-, hfound⟩
      · exact hrows.findName hfound
      · exact hrows'.findName hfound
    | none =>
      rw [Option.getD_none]
      split
      · exact isSaneLogin_root
      · exact isSaneLogin_cons_decimal (by decide) gid

section Repairs

variable {fails : Nat → Bool} (hfails : ∀ n, fails n = false) {d : Disk}

include hfails

/-- **A repair of one store** lists the login there and takes no member away anywhere. -/
theorem ensureMemberAt_lists (gid : UInt32) {login : Str} {path : StorePath}
    (hpath : path ∈ groupStores) (hd : d.PrintsGroups) (hlogin : IsSaneLogin login) :
    ∃ d', ensureMemberAt fails gid login path d = (.ok (), d') ∧ d.Keeps d' ∧
      (d'.files path).Lists gid login := by
  obtain ⟨rows, hrows⟩ := hd path hpath
  obtain ⟨d', hrun, hprints, hother⟩ := ensureMemberAt_prints hfails hrows hlogin
    (hd.newRowName gid)
  refine ⟨d', hrun, ⟨fun _ q hq => ?_, fun _ q hq g l hl => ?_⟩,
    hprints.lists_iff.mpr (listed_ensureRow gid login _ rows)⟩
  · by_cases hqp : q = path
    · exact ⟨_, hqp ▸ hprints⟩
    · rw [hother q hqp]
      exact hd q hq
  · by_cases hqp : q = path
    · rw [hqp]
      rw [hqp] at hl
      exact hprints.lists_iff.mpr ((hrows.lists_iff.mp hl).ensureRow gid login _)
    · rwa [hother q hqp]

/-- **A repair** lists its login in both stores and takes no member away. -/
theorem ensureNssGroupMemberLogin_lists (gid : UInt32) {login : Str} (hd : d.PrintsGroups)
    (hlogin : IsSaneLogin login) :
    d.Keeps (ensureNssGroupMemberLogin fails gid login d).2 ∧
      (ensureNssGroupMemberLogin fails gid login d).2.Lists gid login := by
  obtain ⟨d₁, h₁, hkeep₁, hlist₁⟩ := ensureMemberAt_lists hfails gid
    (show StorePath.nssGroup ∈ groupStores by decide) hd hlogin
  obtain ⟨d₂, h₂, hkeep₂, hlist₂⟩ := ensureMemberAt_lists hfails gid
    (show StorePath.extrausersGroup ∈ groupStores by decide) (hkeep₁.prints hd) hlogin
  simp only [ensureNssGroupMemberLogin, hlogin.trim_eq, if_neg hlogin.nonempty, h₁, h₂]
  refine ⟨hkeep₁.trans hkeep₂, fun path hpath => ?_⟩
  simp only [groupStores, List.mem_cons, List.not_mem_nil, or_false] at hpath
  rcases hpath with rfl | rfl
  · exact hkeep₂.lists (hkeep₁.prints hd) _ (by decide) hlist₁
  · exact hlist₂

end Repairs

end NfsKlldap
