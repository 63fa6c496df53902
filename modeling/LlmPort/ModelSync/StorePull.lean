import LlmPort.Files.Disk
import LlmPort.ModelSync.Puller
import LlmPort.Transition.Raising

/-!
# Pulling into a store

`pull_model` on a disk that has links already: each name is checked where it is joined to a path, an
operation goes where its path leads at that moment, and what it creates, overwrites or deletes there
is logged.
-/

namespace LlmPort.ModelSync

open Files

inductive StoreError where
  | puller (error : PullerError)
  /-- The `ValueError` of a path with a null character. -/
  | nullCharacter
  /-- What `resolve` raises. -/
  | symlinkLoop
  | http (blobHash : Name)

/-- What an operation does, at the place that its path leads to; a tree is removed as a whole. -/
inductive Touch where
  | mkdir (path : Path)
  | write (path : Path)
  | link (path : Path)
  | remove (path : Path)
  deriving DecidableEq

def Touch.path : Touch → Path
  | mkdir path | write path | link path | remove path => path

/-- What a pull meets: the answers to its requests and the uuids it draws, both by how many there
were before, and how long a way along links can be. -/
structure StoreEnv where
  sha256 : Bytes → Name
  uuidHex : Nat → Name
  stream : Nat → Name → Nat → BlobResponse
  /-- The connection breaks once the body has been read. -/
  breaks : Nat → Bool
  steps : Nat

structure StoreState where
  disk : Disk Bytes
  touched : List Touch
  clock : Nat

abbrev PullM := EStateM StoreError StoreState

namespace Store

def raise {α : Type} (error : PullerError) : PullM α := throw (.puller error)

def check {α : Type} : Except PullerError α → PullM α
  | .ok a => pure a
  | .error error => raise error

def change (touched : List Touch) (disk : Disk Bytes) : PullM Unit :=
  modify fun s => { s with disk, touched := s.touched ++ touched }

/-- The clock before it goes on. -/
def tick : PullM Nat := do
  let s ← get
  set { s with clock := s.clock + 1 }
  pure s.clock

variable (env : StoreEnv)

/-! ## Operations on paths -/

/-- What is at the path, or where a link at its end leads. -/
def entryAt (follow : Bool) (path : Path) : PullM (Option (Entry Bytes)) := do
  let disk := (← get).disk
  match disk.walk follow env.steps [] path with
  | .ok place => pure (disk.get place)
  | .error _ => pure none

/-- The bytes, if `is_file`. -/
def fileAt (path : Path) : PullM (Option Bytes) := do
  match ← entryAt env true path with
  | some (.file bytes) => pure (some bytes)
  | _ => pure none

def locate (follow : Bool) (path : Path) : PullM Path := do
  match (← get).disk.walk follow env.steps [] path with
  | .ok place => pure place
  | .error _ => raise .os

/-- `os.mkdir`, and what `Path.mkdir` makes of a path that is taken. -/
def osMkdir (existOk : Bool) (path : Path) : PullM Unit := do
  let place ← locate env false path
  let disk := (← get).disk
  match disk.get place with
  | none => change [.mkdir place] (disk.set place .dir)
  | some _ =>
    match ← entryAt env true path with
    | some .dir => if existOk then pure () else raise .os
    | _ => raise .os

/-- `mkdir(parents=True)`, of the names of a path from the last to the first. -/
def makeDirs (existOk : Bool) : List Name → PullM Unit
  | [] => if existOk then pure () else raise .os
  | name :: up => do
    match (← get).disk.walk false env.steps [] (name :: up).reverse with
    | .error .missing => makeDirs true up
    | _ => pure ()
    osMkdir env existOk (name :: up).reverse

def mkdir (existOk : Bool) (path : Path) : PullM Unit := makeDirs env existOk path.reverse

/-- Open a file for writing, or appending, and write the bytes. -/
def writeBytes (append : Bool) (path : Path) (bytes : Bytes) : PullM Unit := do
  let place ← locate env true path
  let disk := (← get).disk
  match disk.get place with
  | none => change [.write place] (disk.set place (.file bytes))
  | some (.file old) =>
    change [.write place] (disk.set place (.file (if append then old ++ bytes else bytes)))
  | some _ => raise .os

/-- `unlink` -/
def unlink (missingOk : Bool) (path : Path) : PullM Unit := do
  let disk := (← get).disk
  match disk.walk false env.steps [] path with
  | .error .missing => if missingOk then pure () else raise .os
  | .error _ => raise .os
  | .ok place =>
    match disk.get place with
    | none => if missingOk then pure () else raise .os
    | some .dir => raise .os
    | some _ => change [.remove place] (disk.remove place)

/-- `shutil.rmtree` -/
def rmtree (path : Path) : PullM Unit := do
  let place ← locate env false path
  let disk := (← get).disk
  match disk.get place with
  | some .dir => change [.remove place] (disk.removeTree place)
  | _ => raise .os

/-- `os.replace` -/
def replace (source target : Path) : PullM Unit := do
  let source ← locate env false source
  let target ← locate env false target
  let disk := (← get).disk
  match disk.get source with
  | none => raise .os
  | some .dir =>
    let moved := change [.remove source, .write target] (disk.move source target)
    if source = target then pure ()
    else if source.isPrefixOf target then raise .os
    else match disk.get target with
      | none => moved
      | some .dir => if disk.isEmptyDir target then moved else raise .os
      | some _ => raise .os
  | some entry =>
    if source = target then pure ()
    else match disk.get target with
      | some .dir => raise .os
      | _ => change [.remove source, .write target] ((disk.remove source).set target entry)

/-- `os.symlink` -/
def symlink (target : LinkTarget) (path : Path) : PullM Unit := do
  let place ← locate env false path
  let disk := (← get).disk
  match disk.get place with
  | none => change [.link place] (disk.set place (.link target))
  | some _ => raise .os

/-- `_safe_join` -/
def safeJoin (root : Path) (field : String) (relative : List Char) : PullM Path := do
  if isAbsolute relative ∨ dotdot ∈ pathParts relative then raise (.unsafeValue field relative)
  else if Char.ofNat 0 ∈ relative then throw .nullCharacter
  else
    let disk := (← get).disk
    match disk.real env.steps [] (root ++ pathParts relative), disk.real env.steps [] root with
    | some candidate, some rootResolved =>
      if rootResolved.isPrefixOf candidate then pure candidate
      else raise (.unsafeValue field relative)
    | _, _ => throw .symlinkLoop

/-! ## Blobs -/

/-- What has been downloaded is checked, then published. -/
def publishBlob (blobHash : Name) (expectedSize : Nat) (target tmpPath : Path) : PullM Unit := do
  match ← fileAt env tmpPath with
  | none => raise .os
  | some content =>
    if expectedSize ≠ 0 ∧ content.length ≠ expectedSize then
      unlink env true tmpPath
      raise (.sizeMismatch blobHash expectedSize content.length)
    else match (expectedSha256 blobHash).filter (· ≠ env.sha256 content) with
      | some digest =>
        unlink env true tmpPath
        raise (.hashMismatch blobHash digest (env.sha256 content))
      | none => replace env tmpPath target

/-- The download of a blob from `start` on. -/
def downloadBlob (blobHash : Name) (expectedSize : Nat) (target tmpPath : Path) (start : Nat) :
    PullM Unit := do
  let request ← tick
  let response := env.stream request blobHash start
  if response.status ≠ 200 ∧ response.status ≠ 206 then
    raise (.blobStatus blobHash response.status)
  else
    let resumed := 0 < start ∧ response.status = 206
    check (if resumed then validateContentRange response.contentRange start expectedSize blobHash
      else pure ())
    writeBytes env (decide resumed) tmpPath response.body
    if env.breaks request then throw (.http blobHash)
    else publishBlob env blobHash expectedSize target tmpPath

def pullBlob (blobsDir : Path) (entry : BlobEntry) : PullM Unit := do
  let blobHash ← check (safeLeafName "blob hash" entry.hash)
  let target ← safeJoin env blobsDir "blob path" blobHash
  let verified (bytes : Bytes) : Bool := (expectedSha256 blobHash).all (env.sha256 bytes = ·)
  let cached (bytes : Bytes) : Bool :=
    (entry.size = 0 || bytes.length = entry.size) && verified bytes
  if (← fileAt env target).any cached then pure ()
  else
    let tmpPath ← safeJoin env blobsDir "partial blob path" (partName blobHash)
    match ← fileAt env tmpPath with
    | none => downloadBlob env blobHash entry.size target tmpPath 0
    | some old =>
      if entry.size ≠ 0 ∧ entry.size < old.length then
        unlink env true tmpPath
        downloadBlob env blobHash entry.size target tmpPath 0
      else if 0 < old.length ∧ old.length = entry.size then
        if verified old then replace env tmpPath target
        else
          unlink env true tmpPath
          downloadBlob env blobHash entry.size target tmpPath 0
      else downloadBlob env blobHash entry.size target tmpPath old.length

/-! ## Snapshots -/

/-- What is at the place of a link makes room for it. -/
def clearLink (linkPath : Path) : PullM Unit := do
  if (← entryAt env true linkPath).isSome || (← entryAt env false linkPath).isSome then
    unlink env false linkPath

def pullLink (blobsDir tmpCommitDir : Path) (link : LinkEntry) : PullM Unit := do
  let blobHash ← check (safeLeafName "snapshot blob hash" link.blobHash)
  let linkPath ← safeJoin env tmpCommitDir "snapshot link path" link.path
  mkdir env true linkPath.dropLast
  let targetBlob ← safeJoin env blobsDir "snapshot blob path" blobHash
  match ← fileAt env targetBlob with
  | none => raise (.missingBlob blobHash link.path)
  | some _ =>
    clearLink env linkPath
    symlink env ⟨false, relpath targetBlob linkPath.dropLast⟩ linkPath

/-- The name of the directory in which a snapshot is laid out. -/
def tempName (commit uuid : Name) : Name := '.' :: (commit ++ (".tmp-".toList ++ uuid))

/-- What is at the place of the snapshot makes room for it. -/
def clearPlace (commitDir : Path) : PullM Unit := do
  match ← entryAt env false commitDir with
  | none => pure ()
  | some .dir => rmtree env commitDir
  | some _ => unlink env false commitDir

def pullSnapshot (blobsDir snapshotsDir : Path) (entry : SnapshotEntry) : PullM Unit := do
  let commit ← check (safeLeafName "snapshot commit" entry.commit)
  let commitDir ← safeJoin env snapshotsDir "snapshot commit" commit
  let draw ← tick
  let tmpCommitDir ← safeJoin env snapshotsDir "snapshot temp dir" (tempName commit (env.uuidHex draw))
  mkdir env false tmpCommitDir
  tryCatch (do
      entry.links.forM (pullLink env blobsDir tmpCommitDir)
      clearPlace env commitDir
      replace env tmpCommitDir commitDir)
    fun error => do
      tryCatch (rmtree env tmpCommitDir) fun _ => pure ()
      throw error

/-! ## Refs -/

def refsName : Name := "refs".toList

def pullRef (refsDir : Path) (ref : RefEntry) : PullM Unit := do
  let refFile ← safeJoin env refsDir "ref name" ref.name
  mkdir env true refFile.dropLast
  writeBytes env false refFile (String.ofList (strip ref.commit)).toUTF8.toList

/-- What is done under the lock of the model's directory. -/
def pullLocked (modelDir : Path) (manifest : Manifest) : PullM Unit := do
  let blobsDir := modelDir ++ [blobsName]
  let refsDir := modelDir ++ [refsName]
  let snapshotsDir := modelDir ++ [snapshotsName]
  mkdir env true blobsDir
  mkdir env true refsDir
  mkdir env true snapshotsDir
  manifest.blobs.forM (pullBlob env blobsDir)
  manifest.snapshots.forM (pullSnapshot env blobsDir snapshotsDir)
  manifest.refs.forM (pullRef env refsDir)

def pullModel (storeRoot : Path) (manifest : Manifest) : PullM Unit := do
  let modelDirName ← check (safeLeafName "model_dir_name" manifest.modelDirName)
  match (← get).disk.real env.steps [] storeRoot with
  | none => throw .symlinkLoop
  | some hfCacheRoot =>
    let modelDir ← safeJoin env hfCacheRoot "model_dir_name" modelDirName
    pullLocked env modelDir manifest

end Store

end LlmPort.ModelSync
