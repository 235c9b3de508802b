import NfsKlldap.Generate.Avahi
import NfsKlldap.Lib.Stages

/-! # One run of the generator (`generate_all`)

The derived files are written one after another, and a share is refused only when the fragments are
staged, after `sssd.conf`, `krb5.conf`, `idmapd.conf` and `nfs.conf` have been written.

* **`generateAll`** — the stages in their order;
* **`generateAll_refused`** — what a refused run leaves;
* **`generateAll_refused_iff`** — it leaves everything as it was exactly when the four files were
  `Fresh`. -/

namespace NfsKlldap

open Text OwnedFiles Stages

/-- The files that are derived from a config. -/
structure GeneratedFiles where
  sssdConf : Option Str
  krb5Conf : Option Str
  idmapConf : Option Str
  nfsConf : Option Str
  ganeshaConf : Option Str
  exports : TextDir
  avahiServices : Option TextDir

/-- How the write of a single file ends. -/
inductive FileFate where
  | written
  /-- The file is written, and its mode cannot be set. -/
  | modeless
  | unwritten
  deriving DecidableEq

/-- A run: the config, what it sees of its surroundings, and what goes wrong. -/
structure GenerateCall where
  env : Environment
  cfg : NfsKlldapConfig
  view : MountView
  /-- The host name that is observed. -/
  observed : Option Str
  exportsDir : Str
  /-- Whether the export directory is there or can be created, at first and when it is written. -/
  exportsCreated : Bool × Bool
  sssdFate : FileFate
  krb5Fate : FileFate
  idmapFate : FileFate
  nfsFate : FileFate
  exportsFaults : Faults Str Str
  ganeshaFate : FileFate
  avahiCreated : Bool
  avahiFaults : Faults Str Str

/-- `atomic_write` and the mode; only `sssd.conf`, which holds a password, insists on its mode. -/
def writeText (fate : FileFate) (insist : Bool) (text : Str) (old : Option Str) :
    Except GenerateError Unit × Option Str :=
  match fate with
  | .written => (.ok (), some text)
  | .modeless => (if insist then .error .io else .ok (), some text)
  | .unwritten => (.error .io, old)

namespace GenerateCall

variable (t : CharTable) (r : GenerateCall)

/-- `fs::create_dir_all(&paths.exports_dir)` -/
def createExportsDir : Stages.Stage GeneratedFiles GenerateError := fun s =>
  (if r.exportsCreated.1 then .ok () else .error .io, s)

/-- `write_sssd_conf` -/
def writeSssdConf : Stages.Stage GeneratedFiles GenerateError := fun s =>
  let (ok, file) := writeText r.sssdFate true (sssdConf r.env r.cfg) s.sssdConf
  (ok, { s with sssdConf := file })

/-- `write_krb5_conf` -/
def writeKrb5Conf : Stages.Stage GeneratedFiles GenerateError := fun s =>
  let (ok, file) := writeText r.krb5Fate false (krb5Conf r.env r.cfg) s.krb5Conf
  (ok, { s with krb5Conf := file })

/-- `write_idmap_conf` -/
def writeIdmapConf : Stages.Stage GeneratedFiles GenerateError := fun s =>
  let (ok, file) := writeText r.idmapFate false (NfsKlldap.idmapConf r.cfg) s.idmapConf
  (ok, { s with idmapConf := file })

/-- `write_nfs_conf` -/
def writeNfsConf : Stages.Stage GeneratedFiles GenerateError := fun s =>
  let (ok, file) := writeText r.nfsFate false NfsKlldap.nfsConf s.nfsConf
  (ok, { s with nfsConf := file })

/-- `write_export_fragments` -/
def writeExports : Stages.Stage GeneratedFiles GenerateError := fun s =>
  let (ok, dir) :=
    writeExportFragments t ⟨r.cfg, r.view, r.exportsCreated.2, r.exportsFaults⟩ s.exports
  (ok, { s with exports := dir })

/-- `write_ganesha_main` -/
def writeGaneshaMain : Stages.Stage GeneratedFiles GenerateError := fun s =>
  let (ok, file) :=
    writeText r.ganeshaFate false (ganeshaConf t r.env r.exportsDir r.cfg) s.ganeshaConf
  (ok, { s with ganeshaConf := file })

/-- `write_avahi_services` -/
def writeAvahi : Stages.Stage GeneratedFiles GenerateError := fun s =>
  let (ok, dir) :=
    writeAvahiServices t ⟨r.cfg, r.observed, r.avahiCreated, r.avahiFaults⟩ s.avahiServices
  (ok, { s with avahiServices := dir })

/-- The stages before a share can be refused. -/
def early : List (Stages.Stage GeneratedFiles GenerateError) :=
  [r.createExportsDir, r.writeSssdConf, r.writeKrb5Conf, r.writeIdmapConf, r.writeNfsConf]

/-- The stages after the fragments. -/
def late : List (Stages.Stage GeneratedFiles GenerateError) := [r.writeGaneshaMain t, r.writeAvahi t]

end GenerateCall

/-- `generate_all` -/
def generateAll (t : CharTable) (r : GenerateCall) : Stages.Stage GeneratedFiles GenerateError :=
  runStages (r.early ++ r.writeExports t :: r.late t)

/-! ## Who refuses -/

variable {t : CharTable} {r : GenerateCall} {s : GeneratedFiles} {msg : Str}

/-- Writing a text fails with an error of its own kind. -/
theorem writeText_ne_generation {fate : FileFate} {insist : Bool} {text : Str} {old : Option Str} :
    (writeText fate insist text old).1 ≠ .error (.generation msg) := by
  cases fate with
  | written => simp [writeText]
  | modeless => cases insist <;> simp [writeText]
  | unwritten => simp [writeText]

/-- A file that is written holds its text. -/
theorem writeText_eq_ok {fate : FileFate} {insist : Bool} {text : Str} {old : Option Str}
    (h : (writeText fate insist text old).1 = .ok ()) :
    (writeText fate insist text old).2 = some text := by
  cases fate with
  | written => rfl
  | modeless => rfl
  | unwritten => simp [writeText] at h

/-- Nothing that is written before the exports fails as they do. -/
theorem early_ne_generation : ∀ f ∈ r.early, ∀ s, (f s).1 ≠ .error (.generation msg) := by
  intro f hf s
  simp only [GenerateCall.early, List.mem_cons, List.not_mem_nil, or_false] at hf
  rcases hf with rfl | rfl | rfl | rfl | rfl
  · rw [GenerateCall.createExportsDir]
    split <;> simp
  all_goals exact writeText_ne_generation

/-- Advertising the shares fails with an error of its own kind. -/
theorem writeAvahiServices_ne_generation {r : AvahiRun} {dir : Option TextDir} :
    (writeAvahiServices t r dir).1 ≠ .error (.generation msg) := by
  unfold writeAvahiServices
  split
  · simp
  · split
    · simp
    · dsimp only
      split <;> simp

/-- Nothing that is written behind the exports fails as they do. -/
theorem late_ne_generation : ∀ f ∈ r.late t, ∀ s, (f s).1 ≠ .error (.generation msg) := by
  intro f hf s
  simp only [GenerateCall.late, List.mem_cons, List.not_mem_nil, or_false] at hf
  rcases hf with rfl | rfl
  · exact writeText_ne_generation
  · exact writeAvahiServices_ne_generation

/-- The state after the early stages, when they all succeed. -/
theorem early_eq_ok (h : (runStages r.early s).1 = .ok ()) :
    (runStages r.early s).2 =
      { s with
        sssdConf := some (sssdConf r.env r.cfg)
        krb5Conf := some (krb5Conf r.env r.cfg)
        idmapConf := some (idmapConf r.cfg)
        nfsConf := some nfsConf } := by
  simp only [GenerateCall.early, runStages_cons_eq_ok_iff] at h
  obtain ⟨hcreate, hsssd, hkrb5, hidmap, hnfs, -⟩ := h
  rw [GenerateCall.early, runStages_cons_ok hcreate, runStages_cons_ok hsssd,
    runStages_cons_ok hkrb5, runStages_cons_ok hidmap, runStages_cons_ok hnfs, runStages_nil]
  -- each stage writes one file, and reads no other
  have hsssd' := writeText_eq_ok hsssd
  have hkrb5' := writeText_eq_ok hkrb5
  have hidmap' := writeText_eq_ok hidmap
  have hnfs' := writeText_eq_ok hnfs
  simp only [GenerateCall.writeSssdConf, GenerateCall.writeKrb5Conf, GenerateCall.writeIdmapConf,
    GenerateCall.writeNfsConf, GenerateCall.createExportsDir] at hsssd' hkrb5' hidmap' hnfs' ⊢
  rw [hsssd', hkrb5', hidmap', hnfs']

/-- **What a refused run leaves**: the fragments, the main file and the service files as they were,
and the four files that come before them written anew. -/
theorem generateAll_refused (h : (generateAll t r s).1 = .error (.generation msg)) :
    (generateAll t r s).2 =
      { s with
        sssdConf := some (sssdConf r.env r.cfg)
        krb5Conf := some (krb5Conf r.env r.cfg)
        idmapConf := some (idmapConf r.cfg)
        nfsConf := some nfsConf } := by
  obtain ⟨hearly, hrefuse, hlast⟩ :=
    runStages_error_of_only early_ne_generation late_ne_generation h
  rw [generateAll, hlast]
  have hdir := writeExportFragments_refused hrefuse
  rw [early_eq_ok hearly] at hdir ⊢
  rw [GenerateCall.writeExports]
  dsimp only at hdir ⊢
  rw [hdir]

/-- It is refused by a share. -/
theorem exists_refusal_of_generateAll (h : (generateAll t r s).1 = .error (.generation msg)) :
    ∃ share ∈ r.cfg.shares, refusal r.view share = some msg := by
  obtain ⟨-, hrefuse, -⟩ := runStages_error_of_only early_ne_generation late_ne_generation h
  simp only [GenerateCall.writeExports, writeExportFragments] at hrefuse
  cases hstage : stageFragments t r.view r.cfg 0 r.cfg.shares with
  | ok staged =>
    rw [hstage] at hrefuse
    dsimp only at hrefuse
    split at hrefuse
    · simp at hrefuse
    · dsimp only at hrefuse
      split at hrefuse <;> simp at hrefuse
  | error e =>
    obtain ⟨share, hshare, msg', hmsg, rfl⟩ := stageFragments_eq_error hstage
    rw [hstage] at hrefuse
    obtain rfl : msg' = msg := by simpa using hrefuse
    exact ⟨share, hshare, hmsg⟩

/-- **The four files are fresh**: they hold what the config is written to. -/
structure GenerateCall.Fresh (r : GenerateCall) (s : GeneratedFiles) : Prop where
  sssd : s.sssdConf = some (sssdConf r.env r.cfg)
  krb5 : s.krb5Conf = some (krb5Conf r.env r.cfg)
  idmap : s.idmapConf = some (idmapConf r.cfg)
  nfs : s.nfsConf = some nfsConf

/-- **A refused run changes nothing** exactly when the four files were fresh. -/
theorem generateAll_refused_iff (t : CharTable) (r : GenerateCall) (s : GeneratedFiles) (msg : Str)
    (h : (generateAll t r s).1 = .error (.generation msg)) :
    (generateAll t r s).2 = s ↔ r.Fresh s := by
  rw [generateAll_refused h]
  constructor
  · intro heq
    have hsssd := congrArg GeneratedFiles.sssdConf heq
    have hkrb5 := congrArg GeneratedFiles.krb5Conf heq
    have hidmap := congrArg GeneratedFiles.idmapConf heq
    have hnfs := congrArg GeneratedFiles.nfsConf heq
    exact ⟨hsssd.symm, hkrb5.symm, hidmap.symm, hnfs.symm⟩
  · rintro ⟨hsssd, hkrb5, hidmap, hnfs⟩
    rw [← hsssd, ← hkrb5, ← hidmap, ← hnfs]

/-! ## Fresh files -/

/-- The four files depend on the URI, the realm and the `[sssd]` section only. -/
theorem fresh_congr {r' : GenerateCall} (henv : r.env = r'.env)
    (huri : r.cfg.ldapUri = r'.cfg.ldapUri) (hkerberos : r.cfg.kerberos = r'.cfg.kerberos)
    (hsection : r.cfg.sssd = r'.cfg.sssd) : r.Fresh s ↔ r'.Fresh s := by
  have hrealm : effectiveRealm r.cfg = effectiveRealm r'.cfg := by
    rw [effectiveRealm, effectiveRealm, hkerberos]
  have hsecurity : ldapSecurityLines r.cfg = ldapSecurityLines r'.cfg := by
    delta ldapSecurityLines
    rw [hrealm, huri, hsection]
  have hsssd : sssdConf r.env r.cfg = sssdConf r'.env r'.cfg := by
    delta sssdConf buildLdapDomainOptions
    rw [hrealm, huri, hsection, henv, hsecurity]
  have hkrb5 : krb5Conf r.env r.cfg = krb5Conf r'.env r'.cfg := by
    delta krb5Conf
    rw [hrealm, huri, henv]
  have hidmap : idmapConf r.cfg = idmapConf r'.cfg := by
    delta idmapConf nfsv4Domain
    rw [hrealm]
  constructor
  · rintro ⟨h1, h2, h3, h4⟩
    exact ⟨h1.trans (by rw [hsssd]), h2.trans (by rw [hkrb5]), h3.trans (by rw [hidmap]), h4⟩
  · rintro ⟨h1, h2, h3, h4⟩
    exact ⟨h1.trans (by rw [hsssd]), h2.trans (by rw [hkrb5]), h3.trans (by rw [hidmap]), h4⟩

/-- A run that succeeds leaves them fresh. -/
theorem fresh_of_generateAll_ok (h : (generateAll t r s).1 = .ok ()) :
    r.Fresh (generateAll t r s).2 := by
  rw [generateAll] at h ⊢
  obtain ⟨hearly, hlater⟩ := runStages_append_eq_ok_iff.mp h
  rw [runStages_append_ok hearly, early_eq_ok hearly]
  rw [early_eq_ok hearly] at hlater
  simp only [GenerateCall.late, runStages_cons_eq_ok_iff] at hlater
  obtain ⟨hexports, hmain, havahi, -⟩ := hlater
  rw [GenerateCall.late, runStages_cons_ok hexports, runStages_cons_ok hmain,
    runStages_cons_ok havahi]
  exact ⟨rfl, rfl, rfl, rfl⟩

/-- **After a successful run**, a config that differs in its shares and its other sections can be
refused without a change. -/
theorem generateAll_refused_after {r' : GenerateCall} (h : (generateAll t r s).1 = .ok ())
    (henv : r'.env = r.env) (huri : r'.cfg.ldapUri = r.cfg.ldapUri)
    (hkerberos : r'.cfg.kerberos = r.cfg.kerberos) (hsection : r'.cfg.sssd = r.cfg.sssd)
    (hrefuse : (generateAll t r' (generateAll t r s).2).1 = .error (.generation msg)) :
    (generateAll t r' (generateAll t r s).2).2 = (generateAll t r s).2 := by
  have hfresh := (fresh_congr henv huri hkerberos hsection).mpr (fresh_of_generateAll_ok h)
  rw [generateAll_refused hrefuse, ← hfresh.sssd, ← hfresh.krb5, ← hfresh.idmap, ← hfresh.nfs]

/-! ## A share with a retired key -/

/-- Such a share refuses. -/
theorem isSome_refusal_of_umask {v : MountView} {share : Share} (h : share.umask.isSome) :
    (refusal v share).isSome := by
  delta refusal
  split
  · rfl
  · rfl

/-- A config whose share still has a `umask`. -/
def umaskConfig : NfsKlldapConfig :=
  labConfig [{ labShare "data" "/export/data" "/data" with umask := some "022".toList }]

/-- A run in which nothing else goes wrong. -/
def umaskCall : GenerateCall where
  env := .ascii
  cfg := umaskConfig
  view := ⟨none, fun _ => .inconclusive⟩
  observed := none
  exportsDir := "/etc/ganesha/exports.d".toList
  exportsCreated := (true, true)
  sssdFate := .written
  krb5Fate := .written
  idmapFate := .written
  nfsFate := .written
  exportsFaults := .none
  ganeshaFate := .written
  avahiCreated := true
  avahiFaults := .none

/-- The call is refused in every state of the files. -/
theorem umaskCall_refused : ∃ msg, ∀ s : GeneratedFiles,
    (generateAll .plain umaskCall s).1 = .error (.generation msg) := by
  have hsome := @isSome_refusal_of_umask umaskCall.view
    { labShare "data" "/export/data" "/data" with umask := some "022".toList } rfl
  obtain ⟨msg, hmsg⟩ := Option.isSome_iff_exists.mp hsome
  have hstage : stageFragments .plain umaskCall.view umaskCall.cfg 0 umaskCall.cfg.shares =
      .error (.generation msg) := by
    change stageFragments .plain umaskCall.view umaskCall.cfg 0 (_ :: []) = _
    rw [stageFragments, hmsg]
  refine ⟨msg, fun s => ?_⟩
  have hearly : (runStages umaskCall.early s).1 = .ok () := rfl
  have hexports : ∀ s', (umaskCall.writeExports .plain s').1 = .error (.generation msg) := by
    intro s'
    rw [GenerateCall.writeExports, writeExportFragments, hstage]
  rw [generateAll, runStages_append_ok hearly, runStages_cons_error (hexports _)]

/-- Before the first run of the generator. -/
def noFiles : GeneratedFiles := ⟨none, none, none, none, none, fun _ => none, none⟩

/-- The files that come before the fragments are there although the run is refused. -/
theorem not_generateAll_unchanged_umask :
    validateAndDerive .ascii umaskConfig = .ok umaskConfig ∧
    ∃ msg, (generateAll .plain umaskCall noFiles).1 = .error (.generation msg) ∧
      (generateAll .plain umaskCall noFiles).2 ≠ noFiles := by
  have hvalid : (validateAndDerive .ascii umaskConfig).toOption = some umaskConfig := by
    decide +kernel
  obtain ⟨msg, hmsg⟩ := umaskCall_refused
  refine ⟨toOption_eq_some_iff.mp hvalid, msg, hmsg noFiles, fun hsame => ?_⟩
  have hnfs := congrArg GeneratedFiles.nfsConf
    ((generateAll_refused (hmsg noFiles)).symm.trans hsame)
  exact absurd hnfs (by simp [noFiles])

/-- Where the generator has run for the config without its `umask`. -/
def freshFiles : GeneratedFiles :=
  { noFiles with
    sssdConf := some (sssdConf .ascii umaskConfig)
    krb5Conf := some (krb5Conf .ascii umaskConfig)
    idmapConf := some (idmapConf umaskConfig)
    nfsConf := some nfsConf }

/-- There the refused run changes nothing. -/
theorem generateAll_unchanged_fresh :
    (generateAll .plain umaskCall freshFiles).2 = freshFiles := by
  obtain ⟨msg, hmsg⟩ := umaskCall_refused
  exact (generateAll_refused_iff .plain umaskCall freshFiles msg (hmsg freshFiles)).mpr
    ⟨rfl, rfl, rfl, rfl⟩

end NfsKlldap
