import LlmPort.ModelSync.RoundTrip

/-!
# The integrity of what is pulled

Whatever earlier attempts have left, and whatever the server answers: what a pull that succeeds can
say about the blobs.
-/

namespace LlmPort.ModelSync

open Files Transition

/-- The server's answers while the `i`-th blob is fetched. -/
def PullEnv.answering (env : PullEnv) (answers : Nat → Name → Nat → BlobResponse) (i : Nat) :
    PullEnv :=
  { env with stream := answers i }

/-- The blobs from the `i`-th on. -/
def pullBlobs (env : PullEnv) (answers : Nat → Name → Nat → BlobResponse) :
    Nat → List BlobEntry → Dir Name Bytes → Except PullerError (Dir Name Bytes)
  | _, [], blobs => pure blobs
  | i, entry :: rest, blobs => do
    let blobs ← pullBlob (env.answering answers i) blobs entry
    pullBlobs env answers (i + 1) rest blobs

/-- A pull in which the server's answers can change from one request to the next. -/
def pullModelFrom (env : PullEnv) (answers : Nat → Name → Nat → BlobResponse) (manifest : Manifest)
    (store : Name → ModelDir) : Except PullerError ModelDir := do
  let name ← safeLeafName "model_dir_name" manifest.modelDirName
  let dir := store name
  let blobs ← pullBlobs env answers 0 manifest.blobs dir.blobs
  let snapshots ← manifest.snapshots.foldlM (pullSnapshot env blobs) dir.snapshots
  let refs ← manifest.refs.foldlM pullRef dir.refs
  pure ⟨name, blobs, refs, snapshots⟩

section
variable {env : PullEnv} {answers : Nat → Name → Nat → BlobResponse} {blobs out : Dir Name Bytes}
  {entry later : BlobEntry} {entries before after : List BlobEntry} {name k : Name} {i size : Nat}
  {content : Bytes}

theorem pullBlobs_const : pullBlobs env (fun _ => env.stream) i entries blobs =
    entries.foldlM (pullBlob env) blobs := by
  induction entries generalizing i blobs with
  | nil => rfl
  | cons entry rest ih =>
    rw [List.foldlM_cons]
    exact bind_congr fun blobs => ih

/-- A server that answers each request the same way whenever it is made. -/
theorem pullModelFrom_const (env : PullEnv) (manifest : Manifest) (store : Name → ModelDir) :
    pullModelFrom env (fun _ => env.stream) manifest store = pullModel env manifest store := by
  simp only [pullModelFrom, pullModel, pullBlobs_const]

/-! ## One blob -/

/-- What a blob is checked for: the size, where the manifest has one, and the digest that it is
named by. -/
structure Checked (sha256 : Bytes → Name) (name : Name) (size : Nat) (content : Bytes) : Prop where
  size : size ≠ 0 → content.length = size
  digest : ∀ digest, expectedSha256 name = some digest → sha256 content = digest

/-- The blob is there, checked, and no other file has changed but its partial one. -/
structure Published (sha256 : Bytes → Name) (name : Name) (size : Nat)
    (blobs out : Dir Name Bytes) : Prop where
  checked : ∃ content, out.get name = some content ∧ Checked sha256 name size content
  others : ∀ k, k ≠ name → k ≠ partName name → out.get k = blobs.get k

theorem writeFile_singleton (h : writeFile blobs [name] content = .ok out) :
    out.get name = some content ∧ ∀ k, k ≠ name → out.get k = blobs.get k := by
  simp only [writeFile] at h
  split at h
  next dir' hput =>
    cases h
    exact ⟨Dir.get_put_self hput, fun k hk => Dir.get_put_of_ne hk hput⟩
  next => cases h

theorem Checked.publishBlob (hc : Checked env.sha256 name size content)
    (h : publishBlob blobs name content = .ok out) : Published env.sha256 name size blobs out := by
  obtain ⟨hget, hothers⟩ := writeFile_singleton h
  refine ⟨⟨content, hget, hc⟩, fun k hk hpart => ?_⟩
  rw [hothers k hk, Dir.get_erase_of_ne hpart]

/-- What follows once the bytes are in the partial file. -/
theorem published_of_checks {mid : Dir Name Bytes}
    (hmid : writeFile blobs [partName name] content = .ok mid)
    (h : (do
      if size ≠ 0 ∧ content.length ≠ size then throw (.sizeMismatch name size content.length)
      match expectedSha256 name with
      | some digest =>
        if env.sha256 content ≠ digest then throw (.hashMismatch name digest (env.sha256 content))
      | none => pure ()
      ModelSync.publishBlob mid name content : Except PullerError (Dir Name Bytes)) = .ok out) :
    Published env.sha256 name size blobs out := by
  have hmid := (writeFile_singleton hmid).2
  have hkept {out : Dir Name Bytes} (h : Published env.sha256 name size mid out) :
      Published env.sha256 name size blobs out :=
    ⟨h.checked, fun k hk hpart => (h.others k hk hpart).trans (hmid k hpart)⟩
  dsimp only at h
  split at h
  next => cases h
  next hsize =>
    have hsize (h0 : size ≠ 0) : content.length = size := not_not.1 fun hne => hsize ⟨h0, hne⟩
    split at h
    next digest hdigest =>
      split at h
      next => cases h
      next hsha =>
        apply hkept
        refine Checked.publishBlob ⟨hsize, fun digest' hdigest' => ?_⟩ h
        rw [hdigest] at hdigest'
        cases hdigest'
        exact not_not.1 hsha
    next hnone =>
      apply hkept
      refine Checked.publishBlob ⟨hsize, fun digest' hdigest' => ?_⟩ h
      rw [hnone] at hdigest'
      cases hdigest'

/-- A download that succeeds has published what it has checked. -/
theorem downloadBlob_published {old : Bytes} {start : Nat}
    (h : downloadBlob env blobs name size old start = .ok out) :
    Published env.sha256 name size blobs out := by
  unfold downloadBlob at h
  dsimp only at h
  split at h
  next => cases h
  next =>
    generalize (if 0 < start ∧ (env.stream name start).status = 206 then
      old ++ (env.stream name start).body else (env.stream name start).body) = content at h
    split at h
    next =>
      obtain ⟨-, -, h⟩ := bind_eq_ok.1 h
      obtain ⟨mid, hmid, h⟩ := bind_eq_ok.1 h
      exact published_of_checks hmid h
    next =>
      obtain ⟨mid, hmid, h⟩ := bind_eq_ok.1 h
      exact published_of_checks hmid h

/-- On each way through: found, completed before, resumed, or fetched from the first byte on. -/
theorem pullBlob_published (h : pullBlob env blobs entry = .ok out) :
    Published env.sha256 (strip entry.hash) entry.size blobs out := by
  unfold pullBlob at h
  obtain ⟨name, hname, h⟩ := bind_eq_ok.1 h
  obtain rfl := safeLeafName_eq_ok hname
  have herase {out : Dir Name Bytes}
      (h : Published env.sha256 (strip entry.hash) entry.size (blobs.erase (partName (strip entry.hash))) out) :
      Published env.sha256 (strip entry.hash) entry.size blobs out :=
    ⟨h.checked, fun k hk hpart => (h.others k hk hpart).trans (Dir.get_erase_of_ne hpart)⟩
  have hverified {content : Bytes}
      (h : (expectedSha256 (strip entry.hash)).all (env.sha256 content = ·)) :
      ∀ digest, expectedSha256 (strip entry.hash) = some digest → env.sha256 content = digest := by
    intro digest hdigest
    simpa [hdigest] using h
  dsimp only at h
  split at h
  next hcached =>
    cases h
    obtain ⟨content, hget, hcached⟩ := (Option.any_eq_true _ _).1 hcached
    obtain ⟨hsize, hdigest⟩ := Bool.and_eq_true_iff.1 hcached
    refine ⟨⟨content, hget, fun h0 => ?_, hverified hdigest⟩, fun _ _ _ => rfl⟩
    simpa [h0] using hsize
  next =>
    split at h
    next => exact herase (downloadBlob_published h)
    next =>
      split at h
      next hsize =>
        split at h
        next hold => exact Checked.publishBlob ⟨fun _ => hsize.2, hverified hold⟩ h
        next => exact herase (downloadBlob_published h)
      next => exact downloadBlob_published h

/-- A blob that is already there as it should be is left alone. -/
theorem pullBlob_of_checked (hname : safeLeafName "blob hash" entry.hash = .ok name)
    (hget : blobs.get name = some content)
    (hc : Checked env.sha256 name entry.size content) : pullBlob env blobs entry = .ok blobs := by
  have hsize : entry.size = 0 ∨ content.length = entry.size :=
    or_iff_not_imp_left.2 hc.size
  have hdigest : (expectedSha256 name).all (env.sha256 content = ·) :=
    (Option.all_eq_true _ _).2 fun digest h => decide_eq_true (hc.digest digest h)
  unfold pullBlob
  rw [hname]
  simp [bind, Except.bind, hget, hsize, hdigest]
  rfl

/-! ## All blobs -/

/-- A later entry of the manifest that leaves a blob as it is: it does not have another size for it,
and does not take it for a partial file. -/
structure Leaves (later : BlobEntry) (name : Name) (size : Nat) : Prop where
  size : strip later.hash = name → size = 0 ∨ later.size = size ∨ later.size = 0
  part : partName (strip later.hash) ≠ name

variable (env) in
theorem pullBlob_leaves (h : pullBlob env blobs later = .ok out) (hleaves : Leaves later name size)
    (hget : blobs.get name = some content) (hc : Checked env.sha256 name size content) :
    ∃ content, out.get name = some content ∧ Checked env.sha256 name size content := by
  have hpublished := pullBlob_published h
  by_cases hname : strip later.hash = name
  · obtain ⟨content', hget', hc'⟩ := hpublished.checked
    rw [hname] at hget' hc'
    rcases hleaves.size hname with rfl | hsize | hsize
    · exact ⟨content', hget', fun h0 => absurd rfl h0, hc'.digest⟩
    · exact ⟨content', hget', hsize ▸ hc'⟩
    · have hleaf : safeLeafName "blob hash" later.hash = .ok name := by
        unfold pullBlob at h
        obtain ⟨name', hname', -⟩ := bind_eq_ok.1 h
        rw [hname', safeLeafName_eq_ok hname', hname]
      rw [pullBlob_of_checked hleaf hget ⟨fun h0 => absurd hsize h0, hc.digest⟩] at h
      cases h
      exact ⟨content, hget, hc⟩
  · refine ⟨content, ?_, hc⟩
    rw [hpublished.others name (Ne.symm hname) (Ne.symm hleaves.part), hget]

theorem pullBlobs_leave (h : pullBlobs env answers i entries blobs = .ok out)
    (hleave : ∀ later ∈ entries, Leaves later name size)
    (hget : ∃ content, blobs.get name = some content ∧ Checked env.sha256 name size content) :
    ∃ content, out.get name = some content ∧ Checked env.sha256 name size content := by
  induction entries generalizing i blobs with
  | nil =>
    cases h
    exact hget
  | cons later rest ih =>
    obtain ⟨mid, hmid, h⟩ := bind_eq_ok.1 h
    obtain ⟨content, hget, hc⟩ := hget
    obtain ⟨hlater, hrest⟩ := List.forall_mem_cons.1 hleave
    exact ih h hrest (pullBlob_leaves (env.answering answers i) hmid hlater hget hc)

/-- Each blob is checked by what the manifest says of it, unless a later entry undoes it. -/
theorem pullBlobs_checked (h : pullBlobs env answers i entries blobs = .ok out)
    (hsuffix : entry :: after <:+ entries)
    (hleave : ∀ later ∈ after, Leaves later (strip entry.hash) size) (hsize : size ∈ [0, entry.size]) :
    ∃ content, out.get (strip entry.hash) = some content ∧
      Checked env.sha256 (strip entry.hash) size content := by
  induction entries generalizing i blobs with
  | nil => cases List.suffix_nil.1 hsuffix
  | cons first rest ih =>
    obtain ⟨mid, hmid, hrest⟩ := bind_eq_ok.1 h
    rcases List.suffix_cons_iff.1 hsuffix with heq | hsuffix
    · cases heq
      obtain ⟨content, hget, hc⟩ := (pullBlob_published hmid).checked
      refine pullBlobs_leave hrest hleave ⟨content, hget, fun h0 => ?_, hc.digest⟩
      rcases List.mem_cons.1 hsize with rfl | hsize
      · exact absurd rfl h0
      · rw [List.mem_singleton.1 hsize] at h0 ⊢
        exact hc.size h0
    · exact ih hrest hsuffix

/-- No digest is the name of a partial file. -/
theorem expectedSha256_partName (name : Name) : expectedSha256 (partName name) = none := by
  have hlast : (partName name).map Char.toLower =
      (name ++ ".par".toList).map Char.toLower ++ ['t'] := by
    rw [partName, List.map_append, List.map_append, List.append_assoc]
    rfl
  have hno (l : Name) : (l ++ ['t']).all isHexDigit = false := by
    rw [List.all_append]
    exact Bool.and_false _
  unfold expectedSha256
  simp only [hlast, hno, Bool.and_false, Bool.false_eq_true, if_false]
  refine if_neg fun h => ?_
  obtain ⟨-, h⟩ := Bool.and_eq_true_iff.1 h
  obtain ⟨hlength, hhex⟩ := Bool.and_eq_true_iff.1 h
  have hlong := of_decide_eq_true hlength
  rw [List.length_drop, List.length_append, List.length_singleton] at hlong
  rw [List.drop_append_of_le_length (by omega), hno] at hhex
  cases hhex

/-- After a pull that succeeds, each blob that is named by a digest has it, and each blob has the
size that the manifest has for it, unless a later entry undoes it. -/
theorem pullModel_integrity (env : PullEnv) (answers : Nat → Name → Nat → BlobResponse)
    (manifest : Manifest) (store : Name → ModelDir) {out : ModelDir}
    (h : pullModelFrom env answers manifest store = .ok out) :
    (∀ entry ∈ manifest.blobs, ∀ digest, expectedSha256 (strip entry.hash) = some digest →
      ∃ content, out.blobs.get (strip entry.hash) = some content ∧ env.sha256 content = digest) ∧
    ∀ entry after, entry :: after <:+ manifest.blobs → entry.size ≠ 0 →
      (∀ later ∈ after, Leaves later (strip entry.hash) entry.size) →
      ∃ content, out.blobs.get (strip entry.hash) = some content ∧ content.length = entry.size := by
  obtain ⟨name, -, h⟩ := bind_eq_ok.1 h
  obtain ⟨blobs, hblobs, h⟩ := bind_eq_ok.1 h
  obtain ⟨snapshots, -, h⟩ := bind_eq_ok.1 h
  obtain ⟨refs, -, h⟩ := bind_eq_ok.1 h
  cases h
  constructor
  · intro entry hentry digest hdigest
    obtain ⟨before, after, hsplit⟩ := List.mem_iff_append.1 hentry
    have hsuffix : entry :: after <:+ manifest.blobs := ⟨before, hsplit.symm⟩
    have hleave : ∀ later ∈ after, Leaves later (strip entry.hash) 0 := by
      intro later _
      refine ⟨fun _ => .inl rfl, fun hpart => ?_⟩
      rw [← hpart, expectedSha256_partName] at hdigest
      cases hdigest
    obtain ⟨content, hget, hc⟩ := pullBlobs_checked hblobs hsuffix hleave List.mem_cons_self
    exact ⟨content, hget, hc.digest digest hdigest⟩
  · intro entry after hsuffix h0 hleave
    obtain ⟨content, hget, hc⟩ := pullBlobs_checked hblobs hsuffix hleave
      (List.mem_cons_of_mem _ List.mem_cons_self)
    exact ⟨content, hget, hc.size h0⟩

end

/-- Each blob of the manifest is there, with its size and its digest. -/
def Intact (sha256 : Bytes → Name) (manifest : Manifest) (out : ModelDir) : Prop :=
  ∀ entry ∈ manifest.blobs, ∃ content, out.blobs.get (strip entry.hash) = some content ∧
    content.length = entry.size ∧
    ∀ digest, expectedSha256 (strip entry.hash) = some digest → sha256 content = digest

def blobsOnly (blobs : List BlobEntry) : Manifest :=
  ⟨"models--org--name".toList, blobs, [], [], (blobs.map (·.size)).sum⟩

def digestName : Name := List.replicate 64 'a'

/-- A store in which a download of the blob was interrupted after its first byte. -/
def interrupted (name : Name) : Name → ModelDir := fun dirName =>
  ⟨dirName, .file (partName name) [1] .empty, .empty, .empty⟩

def noServer : PullEnv := ⟨fun _ => digestName, id, fun _ _ => ⟨404, none, []⟩⟩

/-- The download is resumed, and the server sends the second byte. -/
theorem integrity_resumed : ∃ out : ModelDir,
    ∃ content, out.blobs.get digestName = some content ∧ content.length = 2 := by
  have hout : pullModelFrom noServer (fun _ _ _ => ⟨206, some (1, 1, some 2), [2]⟩)
      (blobsOnly [⟨digestName, 2⟩]) (interrupted digestName) =
      .ok ⟨"models--org--name".toList, .file digestName [1, 2] .empty, .empty, .empty⟩ := by rfl
  exact ⟨_, (pullModel_integrity _ _ _ _ hout).2 ⟨digestName, 2⟩ [] ⟨[], rfl⟩ (by decide) (by simp)⟩

/-- A blob of size 0 is not checked for its size; of two sizes of one blob the later is checked; and
a blob that is another's partial file is published as the other. -/
theorem not_intact :
    (¬ ∀ (env : PullEnv) (answers : Nat → Name → Nat → BlobResponse) (manifest : Manifest)
      (store : Name → ModelDir) (out : ModelDir),
      pullModelFrom env answers manifest store = .ok out → Intact env.sha256 manifest out) ∧
    (¬ ∀ (env : PullEnv) (answers : Nat → Name → Nat → BlobResponse) (manifest : Manifest)
      (store : Name → ModelDir) (out : ModelDir), (∀ entry ∈ manifest.blobs, entry.size ≠ 0) →
      pullModelFrom env answers manifest store = .ok out → Intact env.sha256 manifest out) ∧
    ¬ ∀ (env : PullEnv) (answers : Nat → Name → Nat → BlobResponse) (manifest : Manifest)
      (store : Name → ModelDir) (out : ModelDir), (∀ entry ∈ manifest.blobs, entry.size ≠ 0) →
      (manifest.blobs.map fun entry => strip entry.hash).Nodup →
      pullModelFrom env answers manifest store = .ok out → Intact env.sha256 manifest out := by
  refine ⟨fun h => ?_, fun h => ?_, fun h => ?_⟩
  · have hout : pullModelFrom noServer (fun _ _ _ => ⟨200, none, [1]⟩)
        (blobsOnly [⟨"ab".toList, 0⟩]) emptyStore =
        .ok ⟨"models--org--name".toList, .file "ab".toList [1] .empty, .empty, .empty⟩ := by rfl
    obtain ⟨content, hget, hsize, -⟩ := h _ _ _ _ _ hout _ List.mem_cons_self
    cases Option.some.inj hget
    cases hsize
  · have hout : pullModelFrom noServer (fun i _ _ => ⟨200, none, if i = 0 then [1] else [1, 2]⟩)
        (blobsOnly [⟨"ab".toList, 1⟩, ⟨"ab".toList, 2⟩]) emptyStore =
        .ok ⟨"models--org--name".toList, .file "ab".toList [1, 2] .empty, .empty, .empty⟩ := by rfl
    obtain ⟨content, hget, hsize, -⟩ := h _ _ _ _ _ (by decide) hout _ List.mem_cons_self
    cases Option.some.inj hget
    cases hsize
  · have hout : pullModelFrom noServer (fun _ _ _ => ⟨200, none, [1]⟩)
        (blobsOnly [⟨partName "ab".toList, 1⟩, ⟨"ab".toList, 1⟩]) emptyStore =
        .ok ⟨"models--org--name".toList, .file "ab".toList [1] .empty, .empty, .empty⟩ := by rfl
    obtain ⟨content, hget, -⟩ := h _ _ _ _ _ (by decide) (by decide) hout _ List.mem_cons_self
    cases hget

end LlmPort.ModelSync
