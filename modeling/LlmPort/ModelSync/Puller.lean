import LlmPort.ModelSync.Manifest

/-!
# Pulling a model

`pull_model` of `model_puller.py`: blobs are downloaded, resumed or found in the cache, then the
snapshots are laid out as links to them, and the refs are written last.
-/

namespace LlmPort.ModelSync

open Files

inductive PullerError where
  | unsafeValue (field : String) (value : List Char)
  | blobStatus (blobHash : Name) (status : Nat)
  | invalidContentRange (blobHash : Name)
  | resumeOffset (blobHash : Name) (expected got : Nat)
  | contentRangeTotal (blobHash : Name)
  | sizeMismatch (blobHash : Name) (expected got : Nat)
  | hashMismatch (blobHash : Name) (expected got : Name)
  | missingBlob (blobHash : Name) (path : List Char)
  /-- An `OSError`. -/
  | os

/-- What a pull depends on besides the manifest. -/
structure PullEnv where
  sha256 : Bytes → Name
  /-- The uuid that is drawn for a snapshot. -/
  uuidHex : Name → Name
  /-- The answer to a request for a blob from a byte on. -/
  stream : Name → Nat → BlobResponse

/-- `_safe_leaf_name` -/
def safeLeafName (field : String) (value : List Char) : Except PullerError Name :=
  let name := strip value
  if name = [] ∨ isAbsolute name ∨ (pathParts name).length ≠ 1 ∨ name = ['.'] ∨ name = dotdot ∨
      '/' ∈ name ∨ '\\' ∈ name then throw (.unsafeValue field value)
  else pure name

/-- `_safe_join`, below a directory without links; the parts of the path. -/
def safeJoin (field : String) (relative : List Char) : Except PullerError (List Name) :=
  if isAbsolute relative ∨ dotdot ∈ pathParts relative then throw (.unsafeValue field relative)
  else pure (pathParts relative)

/-- Write a file, below parents that are made. -/
def writeFile {L : Type} (dir : Dir Name L) (path : List Name) (content : L) :
    Except PullerError (Dir Name L) :=
  match path with
  | [] => throw .os
  | k :: path => match dir.put k path content with
    | some dir => pure dir
    | none => throw .os

/-- `_validate_content_range` -/
def validateContentRange (contentRange : Option (Nat × Nat × Option Nat))
    (resumeStart expectedSize : Nat) (blobHash : Name) : Except PullerError Unit :=
  match contentRange with
  | none => throw (.invalidContentRange blobHash)
  | some (start, _, total) =>
    if start ≠ resumeStart then throw (.resumeOffset blobHash resumeStart start)
    else if expectedSize ≠ 0 ∧ total.any (· ≠ expectedSize) then throw (.contentRangeTotal blobHash)
    else pure ()

def partName (blobHash : Name) : Name := blobHash ++ ".part".toList

/-- `os.replace(tmp_path, target)` -/
def publishBlob (blobs : Dir Name Bytes) (blobHash : Name) (content : Bytes) :
    Except PullerError (Dir Name Bytes) :=
  writeFile (blobs.erase (partName blobHash)) [blobHash] content

/-- The download of a blob from `start` on, where the bytes before are in its partial file. -/
def downloadBlob (env : PullEnv) (blobs : Dir Name Bytes) (blobHash : Name) (expectedSize : Nat)
    (old : Bytes) (start : Nat) : Except PullerError (Dir Name Bytes) := do
  let response := env.stream blobHash start
  if response.status ≠ 200 ∧ response.status ≠ 206 then
    throw (.blobStatus blobHash response.status)
  let resumed := 0 < start ∧ response.status = 206
  if resumed then validateContentRange response.contentRange start expectedSize blobHash
  let content := if resumed then old ++ response.body else response.body
  let blobs ← writeFile blobs [partName blobHash] content
  if expectedSize ≠ 0 ∧ content.length ≠ expectedSize then
    throw (.sizeMismatch blobHash expectedSize content.length)
  match expectedSha256 blobHash with
  | some digest =>
    if env.sha256 content ≠ digest then
      throw (.hashMismatch blobHash digest (env.sha256 content))
  | none => pure ()
  publishBlob blobs blobHash content

def pullBlob (env : PullEnv) (blobs : Dir Name Bytes) (entry : BlobEntry) :
    Except PullerError (Dir Name Bytes) := do
  let blobHash ← safeLeafName "blob hash" entry.hash
  let verified (bytes : Bytes) : Bool := (expectedSha256 blobHash).all (env.sha256 bytes = ·)
  let cached (bytes : Bytes) : Bool :=
    (entry.size = 0 || bytes.length = entry.size) && verified bytes
  if (blobs.get blobHash).any cached then pure blobs
  else
    let old := (blobs.get (partName blobHash)).getD []
    -- an oversized partial blob is discarded
    if entry.size ≠ 0 ∧ entry.size < old.length then
      downloadBlob env (blobs.erase (partName blobHash)) blobHash entry.size [] 0
    else if 0 < old.length ∧ old.length = entry.size then
      if verified old then publishBlob blobs blobHash old
      else downloadBlob env (blobs.erase (partName blobHash)) blobHash entry.size [] 0
    else downloadBlob env blobs blobHash entry.size old old.length

/-- One link of a snapshot that is laid out in the directory `at_`. -/
def pullLink (blobs : Dir Name Bytes) (at_ : List Name) (tree : Dir Name SnapshotFile)
    (link : LinkEntry) : Except PullerError (Dir Name SnapshotFile) := do
  let blobHash ← safeLeafName "snapshot blob hash" link.blobHash
  let path ← safeJoin "snapshot link path" link.path
  -- a link that is already there leads out of the snapshot
  let crosses := match path with
    | [] => false
    | k :: path => tree.onFile k path
  if crosses then throw (.unsafeValue "snapshot link path" link.path)
  if (blobs.get blobHash).isNone then throw (.missingBlob blobHash link.path)
  writeFile tree path (.link (relpath [blobsName, blobHash] (at_ ++ path.dropLast)))

def tempName (env : PullEnv) (commit : Name) : Name :=
  '.' :: (commit ++ (".tmp-".toList ++ env.uuidHex commit))

def pullSnapshot (env : PullEnv) (blobs : Dir Name Bytes) (snapshots : Dir Name SnapshotFile)
    (entry : SnapshotEntry) : Except PullerError (Dir Name SnapshotFile) := do
  let commit ← safeLeafName "snapshot commit" entry.commit
  if tempName env commit ∈ snapshots.names then throw .os
  let tree ← entry.links.foldlM (pullLink blobs [snapshotsName, tempName env commit]) .empty
  pure (.sub commit tree (snapshots.erase commit))

def pullRef (refs : Dir Name (List Char)) (ref : RefEntry) :
    Except PullerError (Dir Name (List Char)) := do
  let path ← safeJoin "ref name" ref.name
  writeFile refs path (strip ref.commit)

/-- The model directory after the pull; `store` has what is there before it. -/
def pullModel (env : PullEnv) (manifest : Manifest) (store : Name → ModelDir) :
    Except PullerError ModelDir := do
  let name ← safeLeafName "model_dir_name" manifest.modelDirName
  let dir := store name
  let blobs ← manifest.blobs.foldlM (pullBlob env) dir.blobs
  let snapshots ← manifest.snapshots.foldlM (pullSnapshot env blobs) dir.snapshots
  let refs ← manifest.refs.foldlM pullRef dir.refs
  pure ⟨name, blobs, refs, snapshots⟩

/-- A store without models. -/
def emptyStore (name : Name) : ModelDir := ⟨name, .empty, .empty, .empty⟩

/-! ## The round trip -/

structure SameCache (dir dir' : ModelDir) : Prop where
  name : dir.name = dir'.name
  blobs : ∀ h bytes, dir.blobs.Has [h] bytes ↔ dir'.blobs.Has [h] bytes
  refs : ∀ path commit, dir.refs.Has path commit ↔ dir'.refs.Has path commit
  commits : ∀ commit, (∃ commitDir, (commit, commitDir) ∈ dir.snapshots.subs) ↔
    ∃ commitDir, (commit, commitDir) ∈ dir'.snapshots.subs
  reads : ∀ commit path bytes, dir.Reads commit path bytes ↔ dir'.Reads commit path bytes

/-- Its manifest, pulled into an empty store from a backend that serves its blobs, gives the same
cache. -/
def RoundTrips (sha256 : Bytes → Name) (uuidHex : Name → Name) (dir : ModelDir) : Prop :=
  ∃ out, pullModel ⟨sha256, uuidHex, dir.modelBlob⟩ (buildCacheManifest dir) emptyStore = .ok out ∧
    SameCache out dir

end LlmPort.ModelSync
