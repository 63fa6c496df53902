import Mathlib.Algebra.Ring.Nat
import Mathlib.Data.Char
import Mathlib.Data.List.Lex
import LlmPort.Files.Directory
import LlmPort.Files.Path
import LlmPort.Text.Split

/-!
# The manifest of a model

`_build_cache_manifest` of `web/api/node_files/views.py`, over the cache tree of one model: blobs,
refs and snapshots, whose files link to blobs.
-/

namespace LlmPort.ModelSync

open Files

abbrev Bytes := List UInt8

inductive SnapshotFile where
  /-- A symbolic link, by the parts of its target. -/
  | link (target : List Name)
  | regular (bytes : Bytes)

/-- A directory `models--org--name`. -/
structure ModelDir where
  name : Name
  blobs : Dir Name Bytes
  refs : Dir Name (List Char)
  snapshots : Dir Name SnapshotFile

structure BlobEntry where
  hash : Name
  size : Nat

structure RefEntry where
  name : List Char
  commit : List Char

structure LinkEntry where
  path : List Char
  blobHash : Name

structure SnapshotEntry where
  commit : Name
  links : List LinkEntry

structure Manifest where
  modelDirName : Name
  blobs : List BlobEntry
  refs : List RefEntry
  snapshots : List SnapshotEntry
  totalSize : Nat

/-- `str.isspace`, for one character. -/
def isSpace (c : Char) : Bool :=
  c.toNat ∈ [0x9, 0xa, 0xb, 0xc, 0xd, 0x1c, 0x1d, 0x1e, 0x1f, 0x20, 0x85, 0xa0, 0x1680, 0x2000,
    0x2001, 0x2002, 0x2003, 0x2004, 0x2005, 0x2006, 0x2007, 0x2008, 0x2009, 0x200a, 0x2028, 0x2029,
    0x202f, 0x205f, 0x3000]

/-- `str.strip` -/
def strip (text : List Char) : List Char :=
  ((text.dropWhile isSpace).reverse.dropWhile isSpace).reverse

theorem toNat_of_isAlphanum {c : Char} (h : c.isAlphanum = true) :
    0x30 ≤ c.toNat ∧ c.toNat ≤ 0x7a := by
  have between {a b : Char} (h : (decide (a ≤ c) && decide (c ≤ b)) = true) :
      a.toNat ≤ c.toNat ∧ c.toNat ≤ b.toNat := by
    rwa [Bool.and_eq_true, decide_eq_true_iff, decide_eq_true_iff] at h
  rcases (Bool.or_eq_true_iff.1 h : c.isAlpha ∨ c.isDigit) with h | h
  · rcases (Bool.or_eq_true_iff.1 h : c.isUpper ∨ c.isLower) with h | h
    · have hupper := of_decide_eq_true h
      exact ⟨le_trans (by decide) hupper.1, le_trans hupper.2 (by decide)⟩
    · have hlower := between (a := 'a') (b := 'z') h
      exact ⟨le_trans (by decide) hlower.1, hlower.2⟩
  · have hdigit := between (a := '0') (b := '9') h
    exact ⟨hdigit.1, le_trans hdigit.2 (by decide)⟩

theorem strip_eq_trim (text : List Char) : strip text = Text.trim isSpace text := rfl

@[simp] theorem strip_strip (text : List Char) : strip (strip text) = strip text :=
  Text.trim_trim

/-- `sorted`, of entries of a directory. -/
def sortByName {L : Type} (entries : List (Name × L)) : List (Name × L) :=
  entries.insertionSort fun x y => x.1 ≤ y.1

theorem sortByName_perm {L : Type} (entries : List (Name × L)) :
    (sortByName entries).Perm entries :=
  List.perm_insertionSort _ entries

@[simp] theorem mem_sortByName {L : Type} {entries : List (Name × L)} {x : Name × L} :
    x ∈ sortByName entries ↔ x ∈ entries :=
  (sortByName_perm entries).mem_iff

/-- `replace("\\", "/")` -/
def replaceBackslash (text : List Char) : List Char :=
  text.map fun c => if c = '\\' then '/' else c

/-- `_resolve_blob_hash`; a file that is no link lies where it is, which is not in `blobs`. -/
def resolveBlobHash : SnapshotFile → Option Name
  | .link target => target.getLast?.filter (· ≠ [])
  | .regular _ => none

/-- The links of one snapshot; a file that cannot be mapped to a blob is skipped. -/
def snapshotLinks (commitDir : Dir Name SnapshotFile) : List LinkEntry :=
  (commitDir.walk sortByName).filterMap fun (path, file) =>
    (resolveBlobHash file).map fun blobHash => ⟨replaceBackslash (pathText path), blobHash⟩

def buildCacheManifest (dir : ModelDir) : Manifest :=
  let blobs := (sortByName dir.blobs.files).map fun (name, bytes) => ⟨name, bytes.length⟩
  { modelDirName := dir.name
    blobs
    refs := (sortByName dir.refs.files).map fun (name, commit) => ⟨name, strip commit⟩
    snapshots := (sortByName dir.snapshots.subs).map fun (name, commitDir) =>
      ⟨name, snapshotLinks commitDir⟩
    totalSize := (blobs.map (·.size)).sum }

/-! ## Serving blobs -/

structure BlobResponse where
  status : Nat
  /-- `Content-Range`: the first byte, the last, and how many there are. -/
  contentRange : Option (Nat × Nat × Option Nat)
  body : Bytes

def isHexDigit (c : Char) : Bool := c.isDigit || 'a' ≤ c && c ≤ 'f'

/-- The names that `_SAFE_BLOB_RE` spells. -/
def isBlobName (name : Name) : Bool :=
  let isHex (c : Char) := isHexDigit c || 'A' ≤ c && c ≤ 'F'
  name.head?.any isHex && name.all fun c => isHex c || c = '_' || c = '-'

/-- `_SAFE_BLOB_RE.match`, where `$` lets a line feed follow. -/
def isSafeBlobName (name : Name) : Bool :=
  isBlobName name || name.getLast? = some '\n' && isBlobName name.dropLast

/-- `model_blob`, for a request from `start` on. -/
def ModelDir.modelBlob (dir : ModelDir) (blobHash : Name) (start : Nat) : BlobResponse :=
  if isSafeBlobName blobHash then
    match dir.blobs.get blobHash with
    | none => ⟨404, none, []⟩
    | some bytes =>
      if start = 0 then ⟨200, none, bytes⟩
      else if bytes.length ≤ start then ⟨416, none, []⟩
      else ⟨206, some (start, bytes.length - 1, some bytes.length), bytes.drop start⟩
  else ⟨400, none, []⟩

/-! ## Cache trees -/

def blobsName : Name := "blobs".toList

def snapshotsName : Name := "snapshots".toList

namespace ModelDir

/-- The blob that a link in the directory leads to. -/
def linkedBlob (at_ target : List Name) : Option Name :=
  target.getLast?.filter fun _ => resolve at_ target.dropLast = [blobsName]

/-- The bytes of a file in the directory. -/
def fileBytes (dir : ModelDir) (at_ : List Name) : SnapshotFile → Option Bytes
  | .link target => (linkedBlob at_ target).bind dir.blobs.get
  | .regular bytes => some bytes

/-- The snapshot has the file under the path. -/
def SnapshotHas (dir : ModelDir) (commit : Name) (path : List Name) (file : SnapshotFile) : Prop :=
  ∃ commitDir, (commit, commitDir) ∈ dir.snapshots.subs ∧ commitDir.Has path file

/-- The bytes that a snapshot has under a path. -/
def Reads (dir : ModelDir) (commit : Name) (path : List Name) (bytes : Bytes) : Prop :=
  ∃ file, dir.SnapshotHas commit path file ∧
    dir.fileBytes (snapshotsName :: commit :: path.dropLast) file = some bytes

end ModelDir

structure HexName (name : Name) : Prop where
  ne_nil : name ≠ []
  hex : ∀ c ∈ name, isHexDigit c

/-- `_expected_sha256` -/
def expectedSha256 (blobHash : Name) : Option Name :=
  let h := blobHash.map Char.toLower
  let isDigest (name : Name) := name.length = 64 && name.all isHexDigit
  if isDigest h then some h
  else if "sha256-".toList.isPrefixOf h && isDigest (h.drop 7) then some (h.drop 7)
  else none

/-- The cache tree of a model: blobs under hexadecimal names, those that are digests under their
own; refs at any depth, which hold a commit; snapshots whose files are links to blobs, or else files
of their own. -/
structure CacheTree (sha256 : Bytes → Name) extends ModelDir where
  org : Name
  dirName : name = "models--".toList ++ org
  orgName : ∀ c ∈ org, c.isAlphanum ∨ c ∈ ['-', '_', '.']
  blobsDistinct : blobs.Distinct
  refsDistinct : refs.Distinct
  snapshotsDistinct : snapshots.Distinct
  blobNames : ∀ h bytes, blobs.Has [h] bytes → HexName h
  digests : ∀ h bytes digest, blobs.Has [h] bytes → expectedSha256 h = some digest →
    sha256 bytes = digest
  refNames : ∀ path commit, refs.Has path commit → ∀ n ∈ path, ProperName n
  refCommits : ∀ path commit, refs.Has path commit → HexName commit
  commits : ∀ commit commitDir, (commit, commitDir) ∈ snapshots.subs → HexName commit
  fileNames : ∀ commit path file, toModelDir.SnapshotHas commit path file →
    ∀ n ∈ path, ProperName n
  links : ∀ commit path target, toModelDir.SnapshotHas commit path (.link target) →
    ∃ h bytes, ModelDir.linkedBlob (snapshotsName :: commit :: path.dropLast) target = some h ∧
      blobs.Has [h] bytes

end LlmPort.ModelSync
