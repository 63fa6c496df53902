import LlmPort.Files.Disk
import LlmPort.ModelSync.RoundTrip

/-!
# The names of listed blobs

What the manifest lists of a cache directory on a disk, what the endpoint for blobs serves of it, and
which names the agent takes: a listed file can be fetched if the endpoint's pattern has its name.
-/

namespace LlmPort.ModelSync

open Files

section
variable (disk : Disk Bytes) (steps : Nat) (modelDir : Path)

/-- The bytes of a path, if `is_file`. -/
def fileBytes (path : Path) : Option Bytes :=
  match disk.walk true steps [] path with
  | .ok place =>
    match disk.get place with
    | some (.file bytes) => some bytes
    | _ => none
  | .error _ => none

/-- `iterdir`, of what is a directory. -/
def iterdir (path : Path) : List Name :=
  match disk.walk true steps [] path with
  | .ok place =>
    match disk.get place with
    | some .dir => disk.entries.filterMap fun x => if x.1.dropLast = place then x.1.getLast? else none
    | _ => []
  | .error _ => []

/-- The blobs of `_build_cache_manifest`. -/
def listedBlobs : List BlobEntry :=
  ((iterdir disk steps (modelDir ++ [blobsName])).insertionSort fun a b => a ≤ b).filterMap fun name =>
    (fileBytes disk steps (modelDir ++ [blobsName, name])).map fun bytes => ⟨name, bytes.length⟩

/-- The status of `model_blob`, for a model whose cache directory is there. -/
def modelBlobStatus (blobHash : Name) : Nat :=
  if isSafeBlobName blobHash then
    match disk.real steps [] (modelDir ++ [blobsName]),
      disk.real steps [] (modelDir ++ [blobsName, blobHash]) with
    | some blobsDir, some target =>
      -- the texts of the paths are compared
      if (pathText blobsDir).isPrefixOf (pathText target) then
        if (fileBytes disk steps target).isSome then 200 else 404
      else 400
    | _, _ => 500
  else 400

/-- The agent takes the name as it is, and the endpoint serves it. -/
structure Fetchable (name : Name) : Prop where
  agent : safeLeafName "blob hash" name = .ok name
  backend : modelBlobStatus disk steps modelDir name = 200

/-- The blob, where it is a link, leads to a path whose text begins with that of `blobs`. -/
def StaysInBlobs (name : Name) : Prop :=
  ∀ blobsDir target, disk.real steps [] (modelDir ++ [blobsName]) = some blobsDir →
    disk.real steps [] (modelDir ++ [blobsName, name]) = some target →
    pathText blobsDir <+: pathText target

variable {disk steps modelDir} {name : Name}

theorem fileBytes_eq_some {path : Path} {bytes : Bytes} (h : fileBytes disk steps path = some bytes) :
    ∃ place, disk.walk true steps [] path = .ok place ∧ disk.get place = some (.file bytes) := by
  unfold fileBytes at h
  split at h
  next place hwalk =>
    split at h
    next bytes' hfile =>
      cases h
      exact ⟨place, hwalk, hfile⟩
    next => cases h
  next => cases h

/-- What the manifest lists is a file of a directory that is there. -/
theorem of_mem_listedBlobs {entry : BlobEntry} (h : entry ∈ listedBlobs disk steps modelDir) :
    (∃ blobsDir, disk.real steps [] (modelDir ++ [blobsName]) = some blobsDir) ∧
    ∃ target bytes, disk.real steps [] (modelDir ++ [blobsName, entry.hash]) = some target ∧
      fileBytes disk steps target = some bytes := by
  obtain ⟨name, hname, hentry⟩ := List.mem_filterMap.1 h
  rw [(List.perm_insertionSort _ _).mem_iff] at hname
  obtain ⟨bytes, hbytes, rfl⟩ := Option.map_eq_some_iff.1 hentry
  constructor
  · unfold iterdir at hname
    split at hname
    next place hwalk => exact ⟨place, Disk.real_of_walk hwalk⟩
    next => cases hname
  · obtain ⟨place, hwalk, hfile⟩ := fileBytes_eq_some hbytes
    refine ⟨place, bytes, Disk.real_of_walk hwalk, ?_⟩
    unfold fileBytes
    rw [Disk.walk_again hwalk hfile]
    dsimp only
    rw [hfile]

/-! ## The two checks -/

theorem plain_of_isBlobName (h : isBlobName name) : ∀ c ∈ name, PlainChar c ∧ c ≠ '.' := by
  intro c hc
  have hall := List.all_eq_true.1 (Bool.and_eq_true_iff.1 h).2 c hc
  simp only [Bool.or_eq_true, Bool.and_eq_true, decide_eq_true_eq, isHexDigit_iff] at hall
  have hupper : 'A' ≤ c ∧ c ≤ 'F' ↔ 65 ≤ c.toNat ∧ c.toNat ≤ 70 := Iff.rfl
  rw [hupper] at hall
  rcases hall with ((hhex | hhex) | rfl) | rfl
  · refine ⟨plain_of_range (by omega), ?_⟩
    rintro rfl
    revert hhex
    decide
  · refine ⟨plain_of_range (by omega), ?_⟩
    rintro rfl
    revert hhex
    decide
  · exact ⟨plain_of_range (by decide), by decide⟩
  · exact ⟨plain_of_range (by decide), by decide⟩

/-- A name of the pattern passes the agent's check as it is. -/
theorem safeLeafName_of_isBlobName {field : String} (h : isBlobName name) :
    safeLeafName field name = .ok name := by
  have hplain := plain_of_isBlobName h
  have hdot : '.' ∉ name := fun hc => (hplain _ hc).2 rfl
  refine safeLeafName_of_plain ⟨?_, ?_, ?_, fun hc => (hplain _ hc).1.ne_slash rfl⟩
    fun c hc => (hplain c hc).1
  · rintro rfl
    cases h
  · rintro rfl
    exact hdot List.mem_cons_self
  · rintro rfl
    exact hdot List.mem_cons_self

/-- What has been stripped does not end in a space. -/
theorem not_space_getLast_strip {text : List Char} {c : Char} (h : (strip text).getLast? = some c) :
    isSpace c = false := by
  rw [strip, List.getLast?_reverse] at h
  have hnot := List.head?_dropWhile_not isSpace (text.dropWhile isSpace).reverse
  rw [h] at hnot
  simpa using hnot

/-- What the agent's check leaves as it is does not end in a line feed. -/
theorem isBlobName_of_safe {field : String} (hsafe : isSafeBlobName name)
    (hname : safeLeafName field name = .ok name) : isBlobName name := by
  rcases Bool.or_eq_true_iff.1 hsafe with h | h
  · exact h
  · obtain ⟨hlast, -⟩ := Bool.and_eq_true_iff.1 h
    rw [safeLeafName_eq_ok hname] at hlast
    have hspace := not_space_getLast_strip (of_decide_eq_true hlast)
    exact absurd hspace (by decide)

theorem fetchable_iff {entry : BlobEntry} (h : entry ∈ listedBlobs disk steps modelDir) :
    Fetchable disk steps modelDir entry.hash ↔
      isBlobName entry.hash ∧ StaysInBlobs disk steps modelDir entry.hash := by
  obtain ⟨⟨blobsDir, hblobsDir⟩, target, bytes, htarget, hbytes⟩ := of_mem_listedBlobs h
  constructor
  · rintro ⟨hagent, hbackend⟩
    unfold modelBlobStatus at hbackend
    split at hbackend
    next hsafe =>
      refine ⟨isBlobName_of_safe hsafe hagent, fun blobsDir' target' hb ht => ?_⟩
      rw [hb, ht] at hbackend
      dsimp only at hbackend
      split at hbackend
      next hprefixed => exact List.isPrefixOf_iff_prefix.1 hprefixed
      next => cases hbackend
    next => cases hbackend
  · rintro ⟨hname, hstays⟩
    refine ⟨safeLeafName_of_isBlobName hname, ?_⟩
    have hsafe : isSafeBlobName entry.hash := by rw [isSafeBlobName, hname, Bool.true_or]
    have hprefixed := List.isPrefixOf_iff_prefix.2 (hstays blobsDir target hblobsDir htarget)
    unfold modelBlobStatus
    rw [if_pos hsafe, hblobsDir, htarget]
    dsimp only
    rw [if_pos hprefixed, hbytes]
    rfl

end

/-- Everything that is listed can be fetched, exactly if its names are those of the pattern and it does
not lead out of `blobs`. -/
theorem listed_fetchable_iff (disk : Disk Bytes) (steps : Nat) (modelDir : Path) :
    (∀ entry ∈ listedBlobs disk steps modelDir, Fetchable disk steps modelDir entry.hash) ↔
      ∀ entry ∈ listedBlobs disk steps modelDir,
        isBlobName entry.hash ∧ StaysInBlobs disk steps modelDir entry.hash :=
  forall₂_congr fun _ h => fetchable_iff h

def modelName : Name := "models--org--name".toList

/-- A blob that is named by its algorithm too. -/
def algorithmBlob : Disk Bytes where
  entries := [([modelName], .dir), ([modelName, blobsName], .dir),
    ([modelName, blobsName, "sha256-ab".toList], .file [1])]

/-- The blob is listed, and the endpoint refuses its name. -/
theorem not_listed_fetchable :
    ¬ ∀ (disk : Disk Bytes) (steps : Nat) (modelDir : Path),
      ∀ entry ∈ listedBlobs disk steps modelDir, Fetchable disk steps modelDir entry.hash := by
  intro h
  have hlisted : listedBlobs algorithmBlob 10 [modelName] = [⟨"sha256-ab".toList, 1⟩] := by rfl
  have hbackend := (h algorithmBlob 10 [modelName] _ (hlisted ▸ List.mem_cons_self)).backend
  have hrefused : modelBlobStatus algorithmBlob 10 [modelName] "sha256-ab".toList = 400 := by rfl
  rw [hrefused] at hbackend
  cases hbackend

end LlmPort.ModelSync
