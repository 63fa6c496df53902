import LlmPort.Cli.Backup
import LlmPort.Transition.Recency

/-!
# What the reports of backups mean

`create_backup` reports success once one database has been dumped, and `restore_backup` once the
checksums are right: what fails behind that is only warned of. And the rotation looks at names only,
so a complete backup may go while incomplete ones stay.
-/

namespace LlmPort.Cli

open Text Transition ModelSync

namespace Commands

variable {c : Commands} {dbs : List String} {results : Dict String String} {dir : BackupDir}
  {db file : String} {req : BackupRequest} {root : BackupRoot}

/-! ## The dumps -/

theorem dump_inj {db db' : String} (h : db ++ ".dump" = db' ++ ".dump") : db = db' := by
  have hlists := congrArg String.toList h
  rw [String.toList_append, String.toList_append] at hlists
  exact String.toList_inj.1 (List.append_cancel_right hlists)

theorem get_dumpDatabases (dbs : List String) (results : Dict String String) (dir : BackupDir)
    (db : String) : (c.dumpDatabases dbs results dir).1.get db =
      if db ∈ dbs ∧ (c.pgDump db).returncode = 0 then some (db ++ ".dump") else results.get db := by
  induction dbs generalizing results dir with
  | nil => rw [dumpDatabases, if_neg (fun h => nomatch h.1)]
  | cons first dbs ih =>
    rw [dumpDatabases]
    dsimp only
    by_cases hdb : db = first
    · subst hdb
      split
      next hfails => rw [ih, if_neg (fun h => hfails h.2), if_neg (fun h => hfails h.2)]
      next hdumped =>
        push Not at hdumped
        rw [ih, Dict.get_set, if_pos rfl, ite_self, if_pos ⟨List.mem_cons_self, hdumped⟩]
    · have hmem : db ∈ first :: dbs ↔ db ∈ dbs := by simp [hdb]
      simp only [hmem]
      split
      next => exact ih results dir
      next => rw [ih, Dict.get_set, if_neg hdb]

theorem files_dumpDatabases (dbs : List String) (results : Dict String String) (dir : BackupDir)
    (db : String) : (c.dumpDatabases dbs results dir).2.files.get (db ++ ".dump") =
      if db ∈ dbs ∧ (c.pgDump db).returncode = 0 then some (c.pgDump db).stdout
      else dir.files.get (db ++ ".dump") := by
  induction dbs generalizing results dir with
  | nil => rw [dumpDatabases, if_neg (fun h => nomatch h.1)]
  | cons first dbs ih =>
    rw [dumpDatabases]
    dsimp only
    by_cases hdb : db = first
    · subst hdb
      split
      next hfails => rw [ih, if_neg (fun h => hfails h.2), if_neg (fun h => hfails h.2)]
      next hdumped =>
        push Not at hdumped
        rw [ih, BackupDir.write, Dict.get_set, if_pos rfl, ite_self,
          if_pos ⟨List.mem_cons_self, hdumped⟩]
    · have hmem : db ∈ first :: dbs ↔ db ∈ dbs := by simp [hdb]
      simp only [hmem]
      split
      next => exact ih results dir
      next => rw [ih, BackupDir.write, Dict.get_set, if_neg fun h => hdb (dump_inj h)]

theorem entries_dumpDatabases_eq_nil_iff (dbs : List String) (dir : BackupDir) :
    (c.dumpDatabases dbs .empty dir).1.entries = [] ↔ ∀ db ∈ dbs, (c.pgDump db).returncode ≠ 0 := by
  rw [Dict.entries_eq_nil_iff]
  refine forall_congr' fun db => ?_
  rw [get_dumpDatabases, Dict.get_empty, ite_eq_right_iff]
  simp

theorem files_snapshotEnv (env : Option Bytes) (dir : BackupDir) (db : String) :
    (snapshotEnv env dir).2.files.get (db ++ ".dump") = dir.files.get (db ++ ".dump") := by
  cases env with
  | none => rfl
  | some bytes =>
    have hne : db ++ ".dump" ≠ ".env.bak" := by
      intro h
      have hlast := congrArg (fun name => name.toList.getLast?) h
      simp [String.toList_append] at hlast
    rw [snapshotEnv, BackupDir.write, Dict.get_set, if_neg hne]

theorem files_snapshotVolumes (vols created : List String) (dir : BackupDir) (db : String) :
    (c.snapshotVolumes vols created dir).2.files.get (db ++ ".dump") =
      dir.files.get (db ++ ".dump") := by
  induction vols generalizing created dir with
  | nil => rfl
  | cons vol vols ih =>
    have hne : db ++ ".dump" ≠ vol ++ ".tar.gz" := by
      intro h
      have hlast := congrArg (fun name => name.toList.getLast?) h
      simp [String.toList_append] at hlast
    rw [snapshotVolumes]
    split
    next =>
      rw [ih]
      split
      next => rfl
      next => rw [BackupDir.write, Dict.get_set, if_neg hne]
    next =>
      rw [ih]
      split
      next => rfl
      next => rw [BackupDir.write, Dict.get_set, if_neg hne]

theorem get_writeManifest (databases : Dict String String) (envSnapshot : String)
    (volumes : List String) (dir : BackupDir) : ∃ manifest,
      (c.writeManifest databases envSnapshot volumes dir).manifest = some manifest ∧
        ∀ db file bytes, databases.get db = some file → dir.files.get file = some bytes →
          manifest.databases.get db = some ⟨some file, some (c.sha256 bytes)⟩ := by
  refine ⟨_, rfl, fun db file bytes hdb hfile => ?_⟩
  dsimp only
  rw [Dict.get_eq_some_iff, Dict.entries_update]
  · refine List.mem_map.2 ⟨(db, file), Dict.get_eq_some_iff.1 hdb, ?_⟩
    dsimp only
    rw [hfile]
    rfl
  · rw [Dict.empty, List.nil_append, List.map_map]
    exact databases.nodup

/-- The database's dump is in the directory, and its checksum in the manifest. -/
def Recorded (c : Commands) (dir : BackupDir) (db : String) : Prop :=
  ∃ manifest, dir.manifest = some manifest ∧
    dir.files.get (db ++ ".dump") = some (c.pgDump db).stdout ∧
    manifest.databases.get db =
      some ⟨some (db ++ ".dump"), some (c.sha256 (c.pgDump db).stdout)⟩

/-- Every database is in the manifest with a file of that checksum. -/
def Complete (c : Commands) (databases : List String) (dir : BackupDir) : Prop :=
  ∃ manifest, dir.manifest = some manifest ∧ ∀ db ∈ databases, ∃ file bytes,
    manifest.databases.get db = some ⟨some file, some (c.sha256 bytes)⟩ ∧
      dir.files.get file = some bytes

theorem complete_of_recorded {databases : List String} (hmanifest : dir.manifest.isSome)
    (h : ∀ db ∈ databases, c.Recorded dir db) : c.Complete databases dir := by
  obtain ⟨manifest, hm⟩ := Option.isSome_iff_exists.1 hmanifest
  refine ⟨manifest, hm, fun db hdb => ?_⟩
  obtain ⟨manifest', hm', hfile, hentry⟩ := h db hdb
  cases hm.symm.trans hm'
  exact ⟨_, _, hentry, hfile⟩

theorem writeBackup_of_none (root : BackupRoot)
    (h : ∀ db ∈ req.databases, (c.pgDump db).returncode ≠ 0) :
    (c.writeBackup req root).1.ok = false := by
  rw [writeBackup]
  dsimp only
  rw [if_pos ((entries_dumpDatabases_eq_nil_iff req.databases _).2 h)]

/-- A backup is written once a database is dumped. -/
theorem writeBackup_of_some (root : BackupRoot)
    (h : ¬ ∀ db ∈ req.databases, (c.pgDump db).returncode ≠ 0) :
    (c.writeBackup req root).1.ok = true ∧ ∃ dir,
      (c.writeBackup req root).2 = root.set req.timestamp dir ∧ dir.manifest.isSome ∧
        ∀ db ∈ req.databases, (c.pgDump db).returncode = 0 → c.Recorded dir db := by
  have hne := mt (entries_dumpDatabases_eq_nil_iff req.databases
    ((root.get req.timestamp).getD ⟨.empty, none⟩)).1 h
  rw [writeBackup]
  dsimp only
  rw [if_neg hne]
  refine ⟨rfl, _, rfl, rfl, fun db hdb hdumped => ?_⟩
  have hname : (c.dumpDatabases req.databases .empty
      ((root.get req.timestamp).getD ⟨.empty, none⟩)).1.get db = some (db ++ ".dump") := by
    rw [get_dumpDatabases, if_pos ⟨hdb, hdumped⟩]
  refine (get_writeManifest _ _ _ _).imp fun manifest hmanifest =>
    ⟨hmanifest.1, ?file, hmanifest.2 db _ _ hname ?file⟩
  case file =>
    have hdump := files_dumpDatabases (c := c) req.databases .empty
      ((root.get req.timestamp).getD ⟨.empty, none⟩) db
    rw [if_pos ⟨hdb, hdumped⟩] at hdump
    have henv (dir : BackupDir) :
        (if req.dbOnly then ("", dir) else snapshotEnv req.env dir).2.files.get (db ++ ".dump") =
          dir.files.get (db ++ ".dump") := by
      split
      next => rfl
      next => exact files_snapshotEnv req.env dir db
    have hvolumes (dir : BackupDir) :
        (if req.includeVolumes && !req.dbOnly then c.snapshotVolumes req.volumes [] dir
          else ([], dir)).2.files.get (db ++ ".dump") = dir.files.get (db ++ ".dump") := by
      split
      next => exact files_snapshotVolumes req.volumes [] dir db
      next => rfl
    exact ((hvolumes _).trans (henv _)).trans hdump

/-! ## The rotation -/

theorem mem_backups {name : String} : name ∈ backups root ↔
    ∃ dir, root.get name = some dir ∧ dir.manifest.isSome := by
  rw [backups, List.mem_insertionSort, List.mem_map]
  constructor
  · rintro ⟨⟨_, dir⟩, hentry, rfl⟩
    obtain ⟨hentry, hmanifest⟩ := List.mem_filter.1 hentry
    exact ⟨dir, Dict.get_eq_some_iff.2 hentry, hmanifest⟩
  · rintro ⟨dir, hget, hmanifest⟩
    exact ⟨_, List.mem_filter.2 ⟨Dict.get_eq_some_iff.1 hget, hmanifest⟩, rfl⟩

theorem nodup_backups (root : BackupRoot) : (backups root).Nodup :=
  (List.perm_insertionSort _ _).nodup_iff.2
    (root.nodup.sublist ((List.filter_sublist ..).map _))

theorem sorted_backups (root : BackupRoot) : (backups root).Pairwise (· < ·) :=
  (List.pairwise_insertionSort (· ≤ ·) _).imp₂ (fun _ _ hle hne => lt_of_le_of_ne hle hne)
    (nodup_backups root)

/-- How many backups have later names. -/
def later (root : BackupRoot) (name : String) : Nat :=
  ((backups root).filter (name < ·)).length

theorem get_rotateBackups {retain : Int} (hretain : 0 < retain) {name : String}
    (hname : name ∈ backups root) : (rotateBackups root retain).get name =
      if later root name < retain.toNat then root.get name else none := by
  have hsplit := take_append_latest retain.toNat (backups root)
  have hkept : name ∉ (backups root).take ((backups root).length - retain.toNat) ↔
      later root name < retain.toNat := by
    rw [later, ← mem_latest_iff (sorted_backups root) hname]
    have hnodup := nodup_backups root
    rw [← hsplit] at hnodup hname
    constructor
    · exact (List.mem_append.1 hname).resolve_left
    · exact fun hlatest htake => List.disjoint_of_nodup_append hnodup htake hlatest
  rw [rotateBackups, if_neg (not_le.2 hretain)]
  dsimp only
  rw [Dict.get_keep]
  simp only [decide_eq_true_iff, hkept]

theorem get_of_get_rotateBackups {retain : Int} {name : String}
    (h : (rotateBackups root retain).get name = some dir) : root.get name = some dir := by
  rw [rotateBackups] at h
  split at h
  next => exact h
  next =>
    dsimp only at h
    rw [Dict.get_keep] at h
    split at h
    next => exact h
    next => cases h

/-- How many backups have later names once one of the name `timestamp` is there. -/
def laterWith (root : BackupRoot) (timestamp name : String) : Nat :=
  ((timestamp :: (backups root).filter (· ≠ timestamp)).filter (name < ·)).length

theorem later_set {timestamp : String} (hmanifest : dir.manifest.isSome) (name : String) :
    later (root.set timestamp dir) name = laterWith root timestamp name := by
  refine List.Perm.length_eq (List.Perm.filter _ ?_)
  refine (List.perm_ext_iff_of_nodup (nodup_backups _) ?_).2 fun other => ?_
  · exact List.nodup_cons.2 ⟨fun hmem => of_decide_eq_true (List.mem_filter.1 hmem).2 rfl,
      (nodup_backups root).filter _⟩
  · rw [mem_backups, Dict.get_set, List.mem_cons, List.mem_filter, decide_eq_true_iff, mem_backups]
    split
    next heq => exact iff_of_true ⟨dir, rfl, hmanifest⟩ (.inl heq)
    next hne => simp [hne]

/-! ## Creating a backup -/

/-- If success is reported, every database is dumped and recorded; and of complete backups one
remains. -/
structure CreateHonest (c : Commands) (req : BackupRequest) (root : BackupRoot) : Prop where
  dumped : (c.createBackup req root).1.ok = true → ∀ db ∈ req.databases,
    (c.pgDump db).returncode = 0 ∧
      ∃ dir, (c.writeBackup req root).2.get req.timestamp = some dir ∧ c.Recorded dir db
  rotated : (∃ name dir, (c.writeBackup req root).2.get name = some dir ∧
      c.Complete req.databases dir) →
    ∃ name dir, (c.createBackup req root).2.get name = some dir ∧ c.Complete req.databases dir

/-- The new backup or an old complete one is not followed by as many as are retained. -/
def RotationKeeps (c : Commands) (req : BackupRequest) (root : BackupRoot) : Prop :=
  req.retain ≤ 0 ∨ ∃ name, laterWith root req.timestamp name < req.retain.toNat ∧
    (name = req.timestamp ∨ (name ≠ req.timestamp ∧
      ∃ dir, root.get name = some dir ∧ c.Complete req.databases dir))

theorem createBackup_of_ok (h : (c.writeBackup req root).1.ok = true) :
    c.createBackup req root =
      ((c.writeBackup req root).1, rotateBackups (c.writeBackup req root).2 req.retain) := by
  rw [createBackup]
  exact if_pos h

theorem createBackup_of_not_ok (h : (c.writeBackup req root).1.ok = false) :
    c.createBackup req root = c.writeBackup req root := by
  rw [createBackup]
  exact if_neg (Bool.eq_false_iff.1 h)

theorem Complete.manifest {databases : List String} (h : c.Complete databases dir) :
    dir.manifest.isSome := by
  obtain ⟨manifest, hmanifest, -⟩ := h
  rw [hmanifest]
  rfl

/-- Where all databases are dumped, a complete backup remains if the rotation keeps one. -/
theorem rotated_iff (h : ¬ ∀ db ∈ req.databases, (c.pgDump db).returncode ≠ 0)
    (hall : ∀ db ∈ req.databases, (c.pgDump db).returncode = 0) :
    (∃ name dir, (c.createBackup req root).2.get name = some dir ∧
      c.Complete req.databases dir) ↔ c.RotationKeeps req root := by
  obtain ⟨hok, new, hroot, hmanifest, hrecorded⟩ := writeBackup_of_some root h
  have hcomplete : c.Complete req.databases new :=
    complete_of_recorded hmanifest fun db hdb => hrecorded db hdb (hall db hdb)
  rw [createBackup_of_ok hok, hroot, RotationKeeps]
  dsimp only
  by_cases hretain : req.retain ≤ 0
  · rw [rotateBackups, if_pos hretain]
    exact iff_of_true ⟨req.timestamp, new, by rw [Dict.get_set, if_pos rfl], hcomplete⟩
      (.inl hretain)
  · rw [or_iff_right hretain]
    push Not at hretain
    constructor
    · rintro ⟨name, dir, hget, hdir⟩
      have hroot' := get_of_get_rotateBackups hget
      rw [get_rotateBackups hretain (mem_backups.2 ⟨dir, hroot', hdir.manifest⟩),
        later_set hmanifest] at hget
      split at hget
      next hlater =>
        refine ⟨name, hlater, ?_⟩
        rw [Dict.get_set] at hget
        split at hget
        next heq => exact .inl heq
        next hne => exact .inr ⟨hne, dir, hget, hdir⟩
      next => cases hget
    · rintro ⟨name, hlater, hname⟩
      have hfound : ∃ dir, (root.set req.timestamp new).get name = some dir ∧
          c.Complete req.databases dir := by
        rcases hname with rfl | ⟨hne, dir, hget, hdir⟩
        · exact ⟨new, by rw [Dict.get_set, if_pos rfl], hcomplete⟩
        · exact ⟨dir, by rw [Dict.get_set, if_neg hne, hget], hdir⟩
      obtain ⟨dir, hget, hdir⟩ := hfound
      refine ⟨name, dir, ?_, hdir⟩
      rw [get_rotateBackups hretain (mem_backups.2 ⟨dir, hget, hdir.manifest⟩),
        later_set hmanifest, if_pos hlater, hget]

theorem createHonest_iff (c : Commands) (req : BackupRequest) (root : BackupRoot) :
    c.CreateHonest req root ↔ (∀ db ∈ req.databases, (c.pgDump db).returncode ≠ 0) ∨
      ((∀ db ∈ req.databases, (c.pgDump db).returncode = 0) ∧ c.RotationKeeps req root) := by
  by_cases hnone : ∀ db ∈ req.databases, (c.pgDump db).returncode ≠ 0
  · have hok := writeBackup_of_none root hnone
    refine iff_of_true ⟨fun h => ?_, fun h => ?_⟩ (.inl hnone)
    · rw [createBackup_of_not_ok hok, hok] at h
      cases h
    · rwa [createBackup_of_not_ok hok]
  · obtain ⟨hok, new, hroot, hmanifest, hrecorded⟩ := writeBackup_of_some root hnone
    rw [or_iff_right hnone]
    constructor
    · intro h
      have hall : ∀ db ∈ req.databases, (c.pgDump db).returncode = 0 := fun db hdb =>
        (h.dumped (by rw [createBackup_of_ok hok, hok]) db hdb).1
      refine ⟨hall, (rotated_iff hnone hall).1 (h.rotated ⟨req.timestamp, new, ?_, ?_⟩)⟩
      · rw [hroot, Dict.get_set, if_pos rfl]
      · exact complete_of_recorded hmanifest fun db hdb => hrecorded db hdb (hall db hdb)
    · rintro ⟨hall, hkeeps⟩
      refine ⟨fun _ db hdb => ⟨hall db hdb, new, ?_, hrecorded db hdb (hall db hdb)⟩,
        fun _ => (rotated_iff hnone hall).2 hkeeps⟩
      rw [hroot, Dict.get_set, if_pos rfl]

/-! ## Restoring a backup -/

/-- `pg_restore` has failed, not only warned. -/
def failed (proc : CommandResult) : Prop :=
  proc.returncode ≠ 0 ∧ "ERROR".toList <:+: proc.stderr.toList.map Char.toUpper

/-- The dump of a database in the manifest is there and goes in without an error. -/
def DatabaseRestores (c : Commands) (dir : BackupDir) (item : String × DatabaseEntry) : Prop :=
  ∃ bytes, dir.files.get (dumpFileOf item) = some bytes ∧ ¬ failed (c.pgRestore item.1 bytes)

/-- A volume's archive is there and is extracted. -/
def VolumeRestores (c : Commands) (dir : BackupDir) (archive : String) : Prop :=
  (dir.files.get archive).isSome ∧ (c.tarExtract archive).returncode = 0

/-- If success is reported, the databases of the manifest and the volumes, unless only databases
are asked for, have been restored by commands without errors. -/
def RestoreHonest (c : Commands) (request : RestoreRequest) (dir : BackupDir) :
    Prop :=
  (c.restoreBackup request dir).1.ok = true → ∀ manifest, dir.manifest = some manifest →
    (∀ item ∈ manifest.databases.entries, ∃ bytes,
      dir.files.get (dumpFileOf item) = some bytes ∧
        .pgRestore item.1 bytes ∈ (c.restoreBackup request dir).2 ∧
          ¬ failed (c.pgRestore item.1 bytes)) ∧
    (request.dbOnly = false → ∀ archive ∈ manifest.volumes,
      .tarExtract archive ∈ (c.restoreBackup request dir).2 ∧ (c.tarExtract archive).returncode = 0)

theorem mem_restoreDatabases {items : List (String × DatabaseEntry)} {item : String × DatabaseEntry}
    {bytes : Bytes} (hitem : item ∈ items)
    (hbytes : dir.files.get (dumpFileOf item) = some bytes) :
    .pgRestore item.1 bytes ∈ (restoreDatabases dir items).1 := by
  induction items with
  | nil => cases hitem
  | cons first items ih =>
    rw [restoreDatabases]
    dsimp only
    rcases List.mem_cons.1 hitem with rfl | hitem
    · rw [hbytes]
      exact List.mem_cons_self
    · split
      next => exact ih hitem
      next => exact List.mem_cons_of_mem _ (ih hitem)

theorem tarExtract_notMem_restoreDatabases {archive : String}
    (items : List (String × DatabaseEntry)) :
    .tarExtract archive ∉ (restoreDatabases dir items).1 := by
  induction items with
  | nil => exact List.not_mem_nil
  | cons first items ih =>
    rw [restoreDatabases]
    dsimp only
    split
    next => exact ih
    next => exact fun h => (List.mem_cons.1 h).elim nofun ih

theorem mem_restoreVolumes {archives : List String} {archive : String} :
    .tarExtract archive ∈ (c.restoreVolumes dir archives).1 ↔
      archive ∈ archives ∧ (dir.files.get archive).isSome := by
  induction archives with
  | nil => simp [restoreVolumes]
  | cons first archives ih =>
    rw [restoreVolumes]
    dsimp only
    split
    next hnone =>
      rw [ih, List.mem_cons, or_and_right]
      refine (or_iff_right fun h => ?_).symm
      rw [h.1, hnone] at h
      cases h.2
    next bytes hsome =>
      dsimp only
      rw [List.mem_cons, ih, List.mem_cons, or_and_right]
      refine or_congr_left ⟨fun h => ?_, fun h => congrArg _ h.1⟩
      cases h
      exact ⟨rfl, by rw [hsome]; rfl⟩

theorem restoreBackup_of_verified (request : RestoreRequest) {manifest : BackupManifest}
    (hmanifest : dir.manifest = some manifest) (hverified : c.verifyBackup dir manifest = []) :
    (c.restoreBackup request dir).1.ok = true ∧ (c.restoreBackup request dir).2 =
      (restoreDatabases dir manifest.databases.entries).1 ++
        if request.dbOnly then [] else (c.restoreVolumes dir manifest.volumes).1 := by
  rw [restoreBackup, hmanifest]
  dsimp only
  rw [hverified, if_neg (not_not.2 rfl)]
  refine ⟨rfl, ?_⟩
  dsimp only
  split <;> rfl

theorem restoreBackup_of_errors {manifest : BackupManifest} {request : RestoreRequest}
    (hmanifest : dir.manifest = some manifest) (herrors : c.verifyBackup dir manifest ≠ []) :
    (c.restoreBackup request dir).1.ok = false := by
  rw [restoreBackup, hmanifest]
  dsimp only
  rw [if_pos herrors]

theorem restoreHonest_iff (c : Commands) (request : RestoreRequest) (dir : BackupDir) :
    c.RestoreHonest request dir ↔ ∀ manifest, dir.manifest = some manifest →
      c.verifyBackup dir manifest = [] →
        (∀ item ∈ manifest.databases.entries, c.DatabaseRestores dir item) ∧
        (request.dbOnly = false → ∀ archive ∈ manifest.volumes, c.VolumeRestores dir archive) := by
  constructor
  · intro h manifest hmanifest hverified
    obtain ⟨hok, hcommands⟩ := restoreBackup_of_verified request hmanifest hverified
    obtain ⟨hdatabases, hvolumes⟩ := h hok manifest hmanifest
    refine ⟨fun item hitem => ?_, fun hall archive harchive => ?_⟩
    · obtain ⟨bytes, hbytes, -, hclean⟩ := hdatabases item hitem
      exact ⟨bytes, hbytes, hclean⟩
    · obtain ⟨hcommand, hcode⟩ := hvolumes hall archive harchive
      rw [hcommands, hall, if_neg Bool.false_ne_true] at hcommand
      refine ⟨?_, hcode⟩
      rcases List.mem_append.1 hcommand with hcommand | hcommand
      · exact (tarExtract_notMem_restoreDatabases _ hcommand).elim
      · exact (mem_restoreVolumes.1 hcommand).2
  · intro h hok manifest hmanifest
    by_cases hverified : c.verifyBackup dir manifest = []
    · obtain ⟨hdatabases, hvolumes⟩ := h manifest hmanifest hverified
      have hcommands := (restoreBackup_of_verified request hmanifest hverified).2
      rw [hcommands]
      refine ⟨fun item hitem => ?_, fun hall archive harchive => ?_⟩
      · obtain ⟨bytes, hbytes, hclean⟩ := hdatabases item hitem
        exact ⟨bytes, hbytes, List.mem_append_left _ (mem_restoreDatabases hitem hbytes), hclean⟩
      · obtain ⟨hfile, hcode⟩ := hvolumes hall archive harchive
        refine ⟨List.mem_append_right _ ?_, hcode⟩
        rw [hall, if_neg Bool.false_ne_true]
        exact mem_restoreVolumes.2 ⟨harchive, hfile⟩
    · rw [restoreBackup_of_errors hmanifest hverified] at hok
      cases hok

/-- A backup's report is right if and only if all databases are dumped and the rotation keeps a
complete backup, or none is dumped; a restore's if and only if all that a verified manifest lists is
restored. -/
theorem reports_iff (c : Commands) (req : BackupRequest) (root : BackupRoot)
    (request : RestoreRequest) (dir : BackupDir) :
    (c.CreateHonest req root ↔ (∀ db ∈ req.databases, (c.pgDump db).returncode ≠ 0) ∨
      ((∀ db ∈ req.databases, (c.pgDump db).returncode = 0) ∧ c.RotationKeeps req root)) ∧
    (c.RestoreHonest request dir ↔ ∀ manifest, dir.manifest = some manifest →
      c.verifyBackup dir manifest = [] →
        (∀ item ∈ manifest.databases.entries, c.DatabaseRestores dir item) ∧
        (request.dbOnly = false → ∀ archive ∈ manifest.volumes, c.VolumeRestores dir archive)) :=
  ⟨c.createHonest_iff req root, c.restoreHonest_iff request dir⟩

/-- Only the second of two databases is dumped, and nothing is restored. -/
def failingCommands : Commands where
  pgDump db := if db = "pii" then ⟨0, [1], ""⟩ else ⟨1, [], "connection refused"⟩
  tarCreate _ := (⟨0, [], ""⟩, none)
  pgRestore _ _ := ⟨1, [], "pg_restore: ERROR"⟩
  tarExtract _ := ⟨1, [], ""⟩
  sha256 bytes := if bytes = [1] then "4bf5" else ""

/-- A database that cannot be dumped is left out, and success is reported. -/
theorem not_createHonest_failedDump : ¬ failingCommands.CreateHonest
    ⟨["llm_api", "pii"], [], none, false, true, 5, "20250115T120000Z"⟩ .empty := by
  intro h
  have hok : (failingCommands.createBackup
      ⟨["llm_api", "pii"], [], none, false, true, 5, "20250115T120000Z"⟩ .empty).1.ok = true := by
    decide +kernel
  have hcode := (h.dumped hok "llm_api" List.mem_cons_self).1
  revert hcode
  decide +kernel

end Commands

end LlmPort.Cli
