import Mathlib.Data.List.Sort
import Mathlib.Data.String.Basic
import LlmPort.ModelSync.Manifest
import LlmPort.Text.Replace
import LlmPort.Transition.Dict

/-!
# Backups

`core/backup.py`: dumps of the databases and archives of the volumes in a directory with a manifest,
the rotation of such directories, and what is restored from one.
-/

namespace LlmPort.Cli

open Text Transition ModelSync

/-! ## Directories -/

/-- A database in a manifest, with the keys that are read. -/
structure DatabaseEntry where
  file : Option String
  sha256 : Option String

structure BackupManifest where
  databases : Dict String DatabaseEntry
  envSnapshot : String
  volumes : List String

/-- A directory, and its `manifest.json` if there is one. -/
structure BackupDir where
  files : Dict String Bytes
  manifest : Option BackupManifest

/-- The directories below the output directory. -/
abbrev BackupRoot := Dict String BackupDir

def BackupDir.write (dir : BackupDir) (file : String) (bytes : Bytes) : BackupDir :=
  { dir with files := dir.files.set file bytes }

/-! ## Commands -/

structure CommandResult where
  returncode : Int
  stdout : Bytes
  stderr : String

/-- What the commands do. -/
structure Commands where
  /-- `pg_dump` of a database -/
  pgDump : String → CommandResult
  /-- `tar czf` of a volume, with the archive that is left in the directory -/
  tarCreate : String → CommandResult × Option Bytes
  /-- `pg_restore` of a database from a dump -/
  pgRestore : String → Bytes → CommandResult
  /-- `tar xzf` of an archive into its volume -/
  tarExtract : String → CommandResult
  /-- `hashlib.sha256(data).hexdigest()` -/
  sha256 : Bytes → String

namespace Commands

variable (c : Commands)

/-! ## Creating a backup -/

/-- The loop of `dump_databases`: what has been dumped, and the directory. -/
def dumpDatabases : List String → Dict String String → BackupDir → Dict String String × BackupDir
  | [], results, dir => (results, dir)
  | db :: dbs, results, dir =>
    let proc := c.pgDump db
    if proc.returncode ≠ 0 then dumpDatabases dbs results dir
    else
      let dumpFile := db ++ ".dump"
      dumpDatabases dbs (results.set db dumpFile) (dir.write dumpFile proc.stdout)

/-- `env` is the .env file, if there is one. -/
def snapshotEnv (env : Option Bytes) (dir : BackupDir) : String × BackupDir :=
  match env with
  | none => ("", dir)
  | some bytes => (".env.bak", dir.write ".env.bak" bytes)

/-- The loop of `snapshot_volumes`. -/
def snapshotVolumes : List String → List String → BackupDir → List String × BackupDir
  | [], created, dir => (created, dir)
  | vol :: vols, created, dir =>
    let archive := vol ++ ".tar.gz"
    let proc := c.tarCreate vol
    let dir := match proc.2 with
      | none => dir
      | some bytes => dir.write archive bytes
    if proc.1.returncode ≠ 0 then snapshotVolumes vols created dir
    else snapshotVolumes vols (created ++ [archive]) dir

def writeManifest (databases : Dict String String) (envSnapshot : String) (volumes : List String)
    (dir : BackupDir) : BackupDir :=
  let dbEntries := databases.entries.map fun (db, dumpFile) =>
    (db, ({
      file := some dumpFile
      sha256 := some (((dir.files.get dumpFile).map c.sha256).getD "") } : DatabaseEntry))
  { dir with manifest := some ⟨Dict.empty.update dbEntries, envSnapshot, volumes⟩ }

/-- The names of the directories with a manifest, in order. -/
def backups (root : BackupRoot) : List String :=
  ((root.entries.filter fun entry => entry.2.manifest.isSome).map (·.1)).insertionSort (· ≤ ·)

def rotateBackups (root : BackupRoot) (retain : Int) : BackupRoot :=
  if retain ≤ 0 then root
  else
    let dirs := backups root
    let toRemove := dirs.take (dirs.length - retain.toNat)
    root.keep (· ∉ toRemove)

structure BackupRequest where
  /-- `DATABASES` -/
  databases : List String
  /-- `BACKUP_VOLUMES` -/
  volumes : List String
  env : Option Bytes
  includeVolumes : Bool
  dbOnly : Bool
  retain : Int
  timestamp : String

structure BackupResult where
  databases : Dict String String
  envSnapshot : String
  volumes : List String
  ok : Bool
  errors : List String

/-- `create_backup` up to the manifest. -/
def writeBackup (req : BackupRequest) (root : BackupRoot) : BackupResult × BackupRoot :=
  let dir := (root.get req.timestamp).getD ⟨.empty, none⟩
  let (databases, dir) := c.dumpDatabases req.databases .empty dir
  if databases.entries = [] then
    (⟨databases, "", [], false, ["No databases were dumped successfully."]⟩,
      root.set req.timestamp dir)
  else
    let (envSnapshot, dir) := if req.dbOnly then ("", dir) else snapshotEnv req.env dir
    let (volumes, dir) :=
      if req.includeVolumes && !req.dbOnly then c.snapshotVolumes req.volumes [] dir else ([], dir)
    let dir := c.writeManifest databases envSnapshot volumes dir
    (⟨databases, envSnapshot, volumes, true, []⟩, root.set req.timestamp dir)

def createBackup (req : BackupRequest) (root : BackupRoot) : BackupResult × BackupRoot :=
  let (result, root) := c.writeBackup req root
  if result.ok then (result, rotateBackups root req.retain) else (result, root)

/-! ## Restoring a backup -/

/-- The first characters of a text. -/
def abbreviate (text : String) : String := String.ofList (text.toList.take 12) ++ "…"

def verifyBackup (dir : BackupDir) (manifest : BackupManifest) : List String :=
  manifest.databases.entries.flatMap fun (_, entry) =>
    let dumpFile := entry.file.getD ""
    let expected := entry.sha256.getD ""
    if dumpFile = "" ∨ expected = "" then []
    else match dir.files.get dumpFile with
      | none => ["Missing dump file: " ++ dumpFile]
      | some bytes =>
        let actual := c.sha256 bytes
        if actual ≠ expected then
          ["Checksum mismatch for " ++ dumpFile ++ ": expected " ++ abbreviate expected ++
            " got " ++ abbreviate actual]
        else []

inductive RestoreCommand where
  | pgRestore (db : String) (input : Bytes)
  | tarExtract (archive : String)

/-- The file a database is restored from. -/
def dumpFileOf (item : String × DatabaseEntry) : String := item.2.file.getD (item.1 ++ ".dump")

/-- The loop of `restore_databases`: the commands, and what counts as restored. -/
def restoreDatabases (dir : BackupDir) :
    List (String × DatabaseEntry) → List RestoreCommand × List String
  | [] => ([], [])
  | item :: items =>
    let (commands, restored) := restoreDatabases dir items
    match dir.files.get (dumpFileOf item) with
    | none => (commands, restored)
    -- the result of the command is only looked at for a warning
    | some bytes => (.pgRestore item.1 bytes :: commands, item.1 :: restored)

/-- The loop of `restore_volumes`. -/
def restoreVolumes (dir : BackupDir) : List String → List RestoreCommand × List String
  | [] => ([], [])
  | archive :: archives =>
    let (commands, restored) := restoreVolumes dir archives
    match dir.files.get archive with
    | none => (commands, restored)
    | some _ =>
      let vol := String.ofList (replace ".tar.gz".toList [] archive.toList)
      (.tarExtract archive :: commands,
        if (c.tarExtract archive).returncode ≠ 0 then restored else vol :: restored)

structure RestoreRequest where
  dbOnly : Bool
  skipEnv : Bool
  /-- The context has an env file. -/
  hasEnvFile : Bool

structure RestoreResult where
  databasesRestored : List String
  envRestored : Bool
  volumesRestored : List String
  ok : Bool
  errors : List String

/-- `restore_backup`, with the commands it runs. -/
def restoreBackup (req : RestoreRequest) (dir : BackupDir) : RestoreResult × List RestoreCommand :=
  match dir.manifest with
  | none => (⟨[], false, [], false, ["No manifest.json found in backup directory."]⟩, [])
  | some manifest =>
    let checkErrors := c.verifyBackup dir manifest
    if checkErrors ≠ [] then (⟨[], false, [], false, checkErrors⟩, [])
    else
      let (dbCommands, databases) := restoreDatabases dir manifest.databases.entries
      let envRestored := !req.dbOnly && !req.skipEnv && manifest.envSnapshot ≠ "" &&
        req.hasEnvFile && (dir.files.get ".env.bak").isSome
      let (volCommands, volumes) :=
        if req.dbOnly then ([], []) else c.restoreVolumes dir manifest.volumes
      (⟨databases, envRestored, volumes, true, []⟩, dbCommands ++ volCommands)

end Commands

end LlmPort.Cli
