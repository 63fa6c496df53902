import LlmPort.ModelSync.Puller

/-!
# Manifest and pull

Which cache trees survive the way from `_build_cache_manifest` through `pull_model` into an empty
store: the manifest has the refs directly in `refs` only, skips the snapshot files that are no
links, and writes every backslash as a slash.
-/

namespace LlmPort.ModelSync

open Files

/-! ## Names -/

/-- A character that the checks of the puller let through. -/
structure PlainChar (c : Char) : Prop where
  not_space : isSpace c = false
  ne_slash : c ≠ '/'
  ne_backslash : c ≠ '\\'

theorem strip_of_plain {text : List Char} (h : ∀ c ∈ text, PlainChar c) : strip text = text := by
  have hdrop {l : List Char} (hl : ∀ c ∈ l, PlainChar c) : l.dropWhile isSpace = l := by
    cases l with
    | nil => rfl
    | cons c l =>
      have hc := (hl c List.mem_cons_self).not_space
      exact List.dropWhile_cons_of_neg (by simp [hc])
  rw [strip, hdrop h, hdrop fun c hc => h c (List.mem_reverse.1 hc), List.reverse_reverse]

theorem pathParts_of_proper {name : Name} (h : ProperName name) :
    pathParts name = [name] ∧ isAbsolute name = false := by
  have hmem : ∀ n ∈ [name], ProperName n := fun n hn => List.mem_singleton.1 hn ▸ h
  have htext : pathText [name] = name := by simp [pathText]
  have hparts := pathParts_pathText (List.cons_ne_nil _ _) hmem
  have habs := isAbsolute_pathText hmem
  rw [htext] at hparts habs
  exact ⟨hparts, habs⟩

theorem safeLeafName_of_plain {name : Name} {field : String} (hname : ProperName name)
    (h : ∀ c ∈ name, PlainChar c) : safeLeafName field name = .ok name := by
  obtain ⟨hparts, habs⟩ := pathParts_of_proper hname
  have hback : '\\' ∉ name := fun hc => (h _ hc).ne_backslash rfl
  rw [safeLeafName, strip_of_plain h]
  simp [hparts, habs, hname.ne_nil, hname.ne_dot, hname.ne_dotdot, hname.no_slash, hback, pure,
    Except.pure]

theorem plain_of_range {c : Char} (h : 45 ≤ c.toNat ∧ c.toNat ≤ 46 ∨ 48 ≤ c.toNat ∧ c.toNat ≤ 57 ∨
    65 ≤ c.toNat ∧ c.toNat ≤ 90 ∨ c.toNat = 95 ∨ 97 ≤ c.toNat ∧ c.toNat ≤ 122) : PlainChar c := by
  refine ⟨?_, ?_, ?_⟩
  · rw [isSpace, decide_eq_false_iff_not]
    intro hc
    simp only [List.mem_cons, List.not_mem_nil, or_false] at hc
    omega
  · rintro rfl
    revert h
    decide
  · rintro rfl
    revert h
    decide

theorem isHexDigit_iff {c : Char} :
    isHexDigit c ↔ 48 ≤ c.toNat ∧ c.toNat ≤ 57 ∨ 97 ≤ c.toNat ∧ c.toNat ≤ 102 := by
  have ha : 'a' ≤ c ↔ 97 ≤ c.toNat := Iff.rfl
  have hf : c ≤ 'f' ↔ c.toNat ≤ 102 := Iff.rfl
  have hdigit : c.isDigit ↔ 48 ≤ c.toNat ∧ c.toNat ≤ 57 := by
    rw [Char.isDigit, Bool.and_eq_true, decide_eq_true_iff, decide_eq_true_iff]
    exact Iff.rfl
  rw [isHexDigit, Bool.or_eq_true, Bool.and_eq_true, decide_eq_true_iff, decide_eq_true_iff, ha, hf,
    hdigit]

theorem plain_of_isAlphanum {c : Char} (h : c.isAlphanum) : PlainChar c := by
  have between {p q : Prop} [Decidable p] [Decidable q] (h : decide p && decide q) : p ∧ q := by
    rwa [Bool.and_eq_true, decide_eq_true_iff, decide_eq_true_iff] at h
  apply plain_of_range
  rcases (Bool.or_eq_true_iff.1 h : c.isAlpha ∨ c.isDigit) with h | h
  · rcases (Bool.or_eq_true_iff.1 h : c.isUpper ∨ c.isLower) with h | h
    · exact .inr (.inr (.inl (of_decide_eq_true h)))
    · exact .inr (.inr (.inr (.inr (between h))))
  · exact .inr (.inl (between h))

theorem HexName.of_all {name : Name} (hne : name ≠ []) (h : name.all isHexDigit) : HexName name :=
  ⟨hne, List.all_eq_true.1 h⟩

/-- Hexadecimal names pass the checks on both sides. -/
theorem HexName.proper {name : Name} (h : HexName name) : ProperName name := by
  have hdot : '.' ∉ name := fun hc => absurd (h.hex _ hc) (by decide)
  refine ⟨h.ne_nil, ?_, ?_, fun hc => absurd (h.hex _ hc) (by decide)⟩
  · rintro rfl
    exact hdot List.mem_cons_self
  · rintro rfl
    exact hdot List.mem_cons_self

theorem HexName.plain {name : Name} (h : HexName name) : ∀ c ∈ name, PlainChar c := by
  intro c hc
  have hdigit := isHexDigit_iff.1 (h.hex c hc)
  exact plain_of_range (by omega)

theorem HexName.isSafeBlobName {name : Name} (h : HexName name) : isSafeBlobName name := by
  obtain ⟨c, t, rfl⟩ := List.exists_cons_of_ne_nil h.ne_nil
  have hc := h.hex c List.mem_cons_self
  have ht : ∀ x ∈ t, isHexDigit x := fun x hx => h.hex x (List.mem_cons_of_mem _ hx)
  simp +contextual [ModelSync.isSafeBlobName, isBlobName, hc, ht]

theorem HexName.ne_partName {name other : Name} (h : HexName name) : partName other ≠ name := by
  rintro rfl
  have hdot : '.' ∈ partName other := List.mem_append_right _ (by decide)
  exact absurd (h.hex _ hdot) (by decide)

theorem CacheTree.safeLeafName_name {sha256 : Bytes → Name} (tree : CacheTree sha256)
    (field : String) : safeLeafName field tree.name = .ok tree.name := by
  have hplain : ∀ c ∈ tree.name, PlainChar c := by
    rw [tree.dirName]
    intro c hc
    rcases List.mem_append.1 hc with hc | hc
    · have hall : "models--".toList.all fun c => c = '-' || c.isAlphanum := by decide
      rcases Bool.or_eq_true_iff.1 (List.all_eq_true.1 hall c hc) with h | h
      · exact of_decide_eq_true h ▸ plain_of_range (by decide)
      · exact plain_of_isAlphanum h
    · rcases tree.orgName c hc with h | h
      · exact plain_of_isAlphanum h
      · simp only [List.mem_cons, List.not_mem_nil, or_false] at h
        rcases h with rfl | rfl | rfl <;> exact plain_of_range (by decide)
  have hm : 'm' ∈ tree.name := tree.dirName ▸ List.mem_cons_self
  refine safeLeafName_of_plain ⟨?_, ?_, ?_, fun hc => (hplain _ hc).ne_slash rfl⟩ hplain
  all_goals
    intro h
    rw [h] at hm
    revert hm
    decide

/-! ## Blobs -/

theorem exists_writeFile {L : Type} {dir : Dir Name L} {path : List Name} {x : L}
    (hd : dir.Distinct) (hfull : dir.Full) (hpath : path ≠ []) (hfree : dir.Free path) :
    ∃ dir', writeFile dir path x = .ok dir' ∧ dir.Adds path x dir' := by
  obtain ⟨k, p, rfl⟩ := List.exists_cons_of_ne_nil hpath
  obtain ⟨dir', hput, hadds⟩ := hfree.adds_put hd hfull (x := x)
  refine ⟨dir', ?_, hadds⟩
  simp only [writeFile, hput]
  rfl

/-- The backend serves the blobs of the tree. -/
def CacheTree.env {sha256 : Bytes → Name} (tree : CacheTree sha256) (uuidHex : Name → Name) :
    PullEnv :=
  ⟨sha256, uuidHex, tree.modelBlob⟩

section
variable {sha256 : Bytes → Name} {tree : CacheTree sha256} {uuidHex : Name → Name}
  {blobs : Dir Name Bytes} {h : Name} {bytes : Bytes}

theorem modelBlob_of_has (hblob : tree.blobs.Has [h] bytes) :
    tree.modelBlob h 0 = ⟨200, none, bytes⟩ := by
  have hget := (Dir.get_eq_some_iff tree.blobsDistinct).2 hblob
  simp [ModelDir.modelBlob, (tree.blobNames h bytes hblob).isSafeBlobName, hget]

/-- Where there is room for a blob, a download from its first byte on publishes it. -/
theorem downloadBlob_total (uuidHex : Name → Name) (hblob : tree.blobs.Has [h] bytes)
    (hd : blobs.Distinct) (hfull : blobs.Full)
    (hnames : ∀ path y, blobs.Has path y → ∃ n, path = [n] ∧ HexName n)
    (hfree : blobs.Free [h]) :
    ∃ out, downloadBlob (tree.env uuidHex) blobs h bytes.length [] 0 = .ok out ∧
      blobs.Adds [h] bytes out := by
  have hne {path : List Name} {y : Bytes} (hy : blobs.Has path y) :
      path.head? ≠ some (partName h) := by
    intro hpath
    obtain ⟨n, rfl, hhex⟩ := hnames path y hy
    exact hhex.ne_partName (Option.some.inj hpath).symm
  have hroom : blobs.Free [partName h] := by
    intro path y hy
    obtain ⟨n, rfl, -⟩ := hnames path y hy
    have hn : n ≠ partName h := fun hn => hne hy (congrArg some hn)
    simp [hn, Ne.symm hn]
  obtain ⟨part, hpart, hadds⟩ := exists_writeFile hd hfull (List.cons_ne_nil _ _) hroom (x := bytes)
  -- publishing leaves nothing of the partial file
  have hhas (path : List Name) (y : Bytes) :
      (part.erase (partName h)).Has path y ↔ blobs.Has path y := by
    rw [Dir.has_erase hadds.distinct, hadds.has]
    constructor
    · rintro ⟨⟨rfl, -⟩ | hy, hpath⟩
      · exact (hpath rfl).elim
      · exact hy
    · exact fun hy => ⟨.inr hy, hne hy⟩
  obtain ⟨out, hout, hadds'⟩ := exists_writeFile hadds.distinct.erase hadds.full.erase
    (List.cons_ne_nil h []) (fun path y hy => hfree path y ((hhas path y).1 hy)) (x := bytes)
  refine ⟨out, ?_, hadds'.distinct, hadds'.full, fun path y => ?_⟩
  · have hstream := modelBlob_of_has hblob
    have hdigest := fun digest => tree.digests h bytes digest hblob
    simp only [downloadBlob, CacheTree.env, hstream, bind, Except.bind, publishBlob]
    simp only [lt_irrefl, false_and, if_false, hpart, ne_eq, not_true_eq_false, and_false, hout]
    cases hsha : expectedSha256 h with
    | none => rfl
    | some digest => exact if_neg (not_not.2 (hdigest digest hsha))
  · rw [hadds'.has, hhas]

theorem pullBlob_total (hblob : tree.blobs.Has [h] bytes) (hd : blobs.Distinct)
    (hfull : blobs.Full) (hnames : ∀ path y, blobs.Has path y → ∃ n, path = [n] ∧ HexName n)
    (hfree : blobs.Free [h]) :
    ∃ out, pullBlob (tree.env uuidHex) blobs ⟨h, bytes.length⟩ = .ok out ∧
      blobs.Adds [h] bytes out := by
  have hhex := tree.blobNames h bytes hblob
  have hno {n : Name} (hn : ∀ y, ¬ blobs.Has [n] y) : blobs.get n = none :=
    Option.eq_none_iff_forall_ne_some.2 fun y hy => hn y ((Dir.get_eq_some_iff hd).1 hy)
  have hget : blobs.get h = none := hno fun y hy => (hfree _ y hy).1 List.prefix_rfl
  have hgetPart : blobs.get (partName h) = none := by
    refine hno fun y hy => ?_
    obtain ⟨n, hn, hhex⟩ := hnames _ y hy
    exact hhex.ne_partName (List.cons.inj hn).1
  obtain ⟨out, hout, hadds⟩ := downloadBlob_total uuidHex hblob hd hfull hnames hfree
  refine ⟨out, ?_, hadds⟩
  simp only [pullBlob, safeLeafName_of_plain hhex.proper hhex.plain]
  simp only [bind, Except.bind, hget, hgetPart]
  simpa using hout

/-- A loop that writes one file for each file of a directory, in the order of their names. -/
theorem layOut_files {L M : Type} {d : Dir Name L} (hd : d.Distinct)
    {f : Dir Name M → Name × L → Except PullerError (Dir Name M)} (leaf : L → M)
    (hf : ∀ out k x, d.Has [k] x → out.Distinct → out.Full →
      (∀ path y, out.Has path y → ∃ n z, path = [n] ∧ d.Has [n] z) → out.Free [k] →
      ∃ out', f out (k, x) = .ok out' ∧ out.Adds [k] (leaf x) out') :
    ∃ out, (sortByName d.files).foldlM f .empty = .ok out ∧ out.Distinct ∧
      ∀ path y, out.Has path y ↔ ∃ k x, d.Has [k] x ∧ path = [k] ∧ y = leaf x := by
  have hmem {k : Name} {x : L} : (k, x) ∈ sortByName d.files ↔ d.Has [k] x :=
    mem_sortByName.trans Dir.has_singleton_iff.symm
  have hnodup : ((sortByName d.files).map fun x => [x.1]).Nodup := by
    have hnames := ((sortByName_perm d.files).map (·.1)).nodup_iff.2 (Dir.nodup_files hd)
    have hmap := hnames.map (f := fun k => [k]) fun a b h => by simpa using h
    rwa [List.map_map] at hmap
  obtain ⟨out, hout, hdistinct, -, hhas⟩ := Dir.layOut (f := f) (fun x => leaf x.2) hnodup
    (fun x _ y _ h => by simpa using h) fun out x hx hd' hfull hfree hnames => by
      refine hf out x.1 x.2 (hmem.1 hx) hd' hfull (fun path y hy => ?_) hfree
      obtain ⟨z, hz, rfl⟩ := hnames path y hy
      exact ⟨z.1, z.2, rfl, hmem.1 hz⟩
  refine ⟨out, hout, hdistinct, fun path y => (hhas path y).trans ?_⟩
  constructor
  · rintro ⟨x, hx, h⟩
    exact ⟨x.1, x.2, hmem.1 hx, h⟩
  · rintro ⟨k, x, hx, h⟩
    exact ⟨(k, x), hmem.2 hx, h⟩

variable (tree uuidHex) in
/-- All blobs of the tree are pulled. -/
theorem pullBlobs_total : ∃ out, (buildCacheManifest tree.toModelDir).blobs.foldlM
    (pullBlob (tree.env uuidHex)) .empty = .ok out ∧ out.Distinct ∧
      ∀ path bytes, out.Has path bytes ↔ ∃ h, path = [h] ∧ tree.blobs.Has [h] bytes := by
  obtain ⟨out, hout, hd, hhas⟩ := layOut_files tree.blobsDistinct
    (f := fun blobs x => pullBlob (tree.env uuidHex) blobs ⟨x.1, x.2.length⟩) id
    fun blobs h bytes hblob hd hfull hnames hfree =>
      pullBlob_total hblob hd hfull (fun path y hy => by
        obtain ⟨n, z, rfl, hn⟩ := hnames path y hy
        exact ⟨n, rfl, tree.blobNames n z hn⟩) hfree
  refine ⟨out, ?_, hd, fun path bytes => (hhas path bytes).trans ?_⟩
  · rw [buildCacheManifest, List.foldlM_map]
    exact hout
  · constructor
    · rintro ⟨h, x, hx, rfl, rfl⟩
      exact ⟨h, rfl, hx⟩
    · rintro ⟨h, rfl, hx⟩
      exact ⟨h, bytes, hx, rfl, rfl⟩

variable (tree) in
/-- The refs directly in `refs` are pulled. -/
theorem pullRefs_total : ∃ out, (buildCacheManifest tree.toModelDir).refs.foldlM pullRef .empty =
    .ok out ∧ ∀ path commit, out.Has path commit ↔ ∃ k, path = [k] ∧ tree.refs.Has [k] commit := by
  obtain ⟨out, hout, -, hhas⟩ := layOut_files tree.refsDistinct
    (f := fun refs x => pullRef refs ⟨x.1, strip x.2⟩) id
    fun refs k commit href hd hfull _ hfree => by
      have hstrip := strip_of_plain (tree.refCommits [k] commit href).plain
      have hk := tree.refNames [k] commit href k List.mem_cons_self
      obtain ⟨hparts, habs⟩ := pathParts_of_proper hk
      have hjoin : safeJoin "ref name" k = .ok [k] := by
        rw [safeJoin, hparts, habs]
        simp [hk.ne_dotdot.symm, pure, Except.pure]
      obtain ⟨out, hwrite, hadds⟩ :=
        exists_writeFile hd hfull (List.cons_ne_nil k []) hfree (x := commit)
      refine ⟨out, ?_, hadds⟩
      simp only [pullRef, hjoin, hstrip]
      exact hwrite
  refine ⟨out, ?_, fun path commit => (hhas path commit).trans ?_⟩
  · rw [buildCacheManifest, List.foldlM_map]
    exact hout
  · constructor
    · rintro ⟨k, x, hx, rfl, rfl⟩
      exact ⟨k, rfl, hx⟩
    · rintro ⟨k, rfl, hx⟩
      exact ⟨k, commit, hx, rfl, rfl⟩

/-! ## Snapshots -/

theorem pathParts_replaceBackslash {path : List Name} (hpath : path ≠ [])
    (h : ∀ n ∈ path, ProperName n) (hback : ∀ n ∈ path, '\\' ∉ n) :
    isAbsolute (replaceBackslash (pathText path)) = false ∧
      pathParts (replaceBackslash (pathText path)) = path := by
  have htext : replaceBackslash (pathText path) = pathText path := by
    refine (List.map_congr_left fun c hc => ?_).trans (List.map_id _)
    apply if_neg
    rintro rfl
    obtain hc | ⟨n, hn, hc⟩ := mem_pathText hc
    · exact absurd hc (by decide)
    · exact hback n hn hc
  rw [htext]
  exact ⟨isAbsolute_pathText h, pathParts_pathText hpath h⟩

theorem mem_walk_sortByName {L : Type} {d : Dir Name L} {path : List Name} {x : L} :
    (path, x) ∈ d.walk sortByName ↔ d.Has path x :=
  Dir.mem_walk fun _ _ => mem_sortByName

/-- The links of a snapshot are those of its files that lead to a blob. -/
theorem mem_snapshotLinks {commitDir : Dir Name SnapshotFile} {link : LinkEntry} :
    link ∈ snapshotLinks commitDir ↔ ∃ path file blobHash, commitDir.Has path file ∧
      resolveBlobHash file = some blobHash ∧
      link = ⟨replaceBackslash (pathText path), blobHash⟩ := by
  rw [snapshotLinks, List.mem_filterMap]
  constructor
  · rintro ⟨⟨path, file⟩, hwalk, hlink⟩
    obtain ⟨blobHash, hhash, rfl⟩ := Option.map_eq_some_iff.1 hlink
    exact ⟨path, file, blobHash, mem_walk_sortByName.1 hwalk, hhash, rfl⟩
  · rintro ⟨path, file, blobHash, hfile, hhash, rfl⟩
    exact ⟨(path, file), mem_walk_sortByName.2 hfile, Option.map_eq_some_iff.2 ⟨_, hhash, rfl⟩⟩

/-- The cache trees that survive. -/
structure Portable (dir : ModelDir) : Prop where
  refs : ∀ path commit, dir.refs.Has path commit → path.length = 1
  links : ∀ commit path file, dir.SnapshotHas commit path file → ∃ target, file = .link target
  slashes : ∀ commit path file, dir.SnapshotHas commit path file → ∀ n ∈ path, '\\' ∉ n

/-- A link of the tree is in the manifest with its blob, and reads that blob. -/
theorem CacheTree.resolveBlobHash_link (tree : CacheTree sha256) {commit : Name}
    {path target : List Name} (hfile : tree.SnapshotHas commit path (.link target)) : ∃ h bytes,
      resolveBlobHash (.link target) = some h ∧ tree.blobs.Has [h] bytes ∧
      tree.fileBytes (snapshotsName :: commit :: path.dropLast) (.link target) = some bytes := by
  obtain ⟨h, bytes, hlink, hblob⟩ := tree.links commit path target hfile
  have hlast : target.getLast? = some h := (Option.filter_eq_some_iff.1 hlink).1
  refine ⟨h, bytes, ?_, hblob, ?_⟩
  · rw [resolveBlobHash, hlast]
    exact Option.filter_eq_some_iff.2 ⟨rfl, decide_eq_true (tree.blobNames h bytes hblob).ne_nil⟩
  · rw [ModelDir.fileBytes, hlink]
    exact (Dir.get_eq_some_iff tree.blobsDistinct).2 hblob

theorem pullLink_total {snapshot : Dir Name SnapshotFile} (at_ : List Name) {path : List Name}
    (hh : HexName h) (hget : blobs.get h = some bytes) (hpath : path ≠ [])
    (hnames : ∀ n ∈ path, ProperName n) (hback : ∀ n ∈ path, '\\' ∉ n)
    (hd : snapshot.Distinct) (hfull : snapshot.Full) (hfree : snapshot.Free path) :
    ∃ out, pullLink blobs at_ snapshot ⟨replaceBackslash (pathText path), h⟩ = .ok out ∧
      snapshot.Adds path (.link (relpath [blobsName, h] (at_ ++ path.dropLast))) out := by
  obtain ⟨habs, hparts⟩ := pathParts_replaceBackslash hpath hnames hback
  have hjoin : safeJoin "snapshot link path" (replaceBackslash (pathText path)) = .ok path := by
    have hdot : dotdot ∉ path := fun hmem => (hnames _ hmem).ne_dotdot rfl
    rw [safeJoin, hparts, habs]
    simp [hdot, pure, Except.pure]
  obtain ⟨out, hwrite, hadds⟩ := exists_writeFile hd hfull hpath hfree
    (x := .link (relpath [blobsName, h] (at_ ++ path.dropLast)))
  refine ⟨out, ?_, hadds⟩
  obtain ⟨k, p, rfl⟩ := List.exists_cons_of_ne_nil hpath
  have hon := (hfree.exists_put hfull (x := SnapshotFile.regular [])).2
  simp only [pullLink, safeLeafName_of_plain hh.proper hh.plain, hjoin]
  simp only [bind, Except.bind, hon, hget]
  exact hwrite

/-- The links of one snapshot are laid out. -/
theorem pullLinks_total (hport : Portable tree.toModelDir)
    (hblobs : ∀ h bytes, tree.blobs.Has [h] bytes → blobs.get h = some bytes) (at_ : List Name)
    {commit : Name} {commitDir : Dir Name SnapshotFile}
    (hmem : (commit, commitDir) ∈ tree.snapshots.subs) :
    ∃ out, (snapshotLinks commitDir).foldlM (pullLink blobs at_) .empty = .ok out ∧
      ∀ path file, out.Has path file ↔ ∃ target h, commitDir.Has path (.link target) ∧
        resolveBlobHash (.link target) = some h ∧
        file = .link (relpath [blobsName, h] (at_ ++ path.dropLast)) := by
  have hhas {path : List Name} {file : SnapshotFile} (hfile : commitDir.Has path file) :
      tree.SnapshotHas commit path file := ⟨commitDir, hmem, hfile⟩
  have hparts {path : List Name} {file : SnapshotFile} (hfile : commitDir.Has path file) :
      pathParts (replaceBackslash (pathText path)) = path :=
    (pathParts_replaceBackslash (Dir.ne_nil_of_has hfile)
      (tree.fileNames commit path file (hhas hfile))
      (hport.slashes commit path file (hhas hfile))).2
  have hd := Dir.Distinct.of_mem_subs tree.snapshotsDistinct hmem
  have hlink {link : LinkEntry} (h : link ∈ snapshotLinks commitDir) : ∃ target,
      commitDir.Has (pathParts link.path) (.link target) ∧
      resolveBlobHash (.link target) = some link.blobHash ∧
      link.path = replaceBackslash (pathText (pathParts link.path)) := by
    obtain ⟨path, file, blobHash, hfile, hhash, rfl⟩ := mem_snapshotLinks.1 h
    obtain ⟨target, rfl⟩ := hport.links commit path file (hhas hfile)
    exact ⟨target, by rwa [hparts hfile], hhash, by rw [hparts hfile]⟩
  have hnodup : ((snapshotLinks commitDir).map fun link => pathParts link.path).Nodup := by
    have hwalk := Dir.nodup_walk sortByName_perm hd
    rw [List.Nodup, List.pairwise_map] at hwalk
    rw [List.Nodup, snapshotLinks, List.pairwise_map, List.pairwise_filterMap]
    refine hwalk.imp_of_mem fun {x y} hx hy hne a ha b hb => ?_
    obtain ⟨_, -, rfl⟩ := Option.map_eq_some_iff.1 ha
    obtain ⟨_, -, rfl⟩ := Option.map_eq_some_iff.1 hb
    rw [hparts (mem_walk_sortByName.1 hx), hparts (mem_walk_sortByName.1 hy)]
    exact hne
  obtain ⟨out, hout, -, -, hall⟩ := Dir.layOut (f := pullLink blobs at_)
    (fun link => .link (relpath [blobsName, link.blobHash] (at_ ++ (pathParts link.path).dropLast)))
    hnodup
    (fun x hx y hy h => by
      obtain ⟨_, hx, -⟩ := hlink hx
      obtain ⟨_, hy, -⟩ := hlink hy
      exact by_contra fun hne => hd.not_prefix hx hy hne h)
    (fun snapshot link hmem' hd' hfull hfree _ => by
      obtain ⟨target, hfile, hhash, htext⟩ := hlink hmem'
      obtain ⟨h, bytes, hh, hblob, -⟩ := tree.resolveBlobHash_link (hhas hfile)
      obtain rfl : h = link.blobHash := Option.some.inj (hh.symm.trans hhash)
      have htotal := pullLink_total at_ (tree.blobNames _ bytes hblob) (hblobs _ bytes hblob)
        (Dir.ne_nil_of_has hfile) (tree.fileNames commit _ _ (hhas hfile))
        (hport.slashes commit _ _ (hhas hfile)) hd' hfull hfree
      rwa [← htext] at htotal)
  refine ⟨out, hout, fun path file => (hall path file).trans ?_⟩
  constructor
  · rintro ⟨link, hmem', rfl, rfl⟩
    obtain ⟨target, hfile, hhash, -⟩ := hlink hmem'
    exact ⟨target, link.blobHash, hfile, hhash, rfl⟩
  · rintro ⟨target, h, hfile, hhash, rfl⟩
    refine ⟨⟨replaceBackslash (pathText path), h⟩, mem_snapshotLinks.2 ?_, ?_⟩
    · exact ⟨path, _, h, hfile, hhash, rfl⟩
    · rw [hparts hfile]
      exact ⟨rfl, rfl⟩

/-- The snapshots that are done have their links laid out under their commits, and no others are
there. -/
structure LaidOut (env : PullEnv) (blobs : Dir Name Bytes)
    (done : List (Name × Dir Name SnapshotFile)) (snapshots : Dir Name SnapshotFile) : Prop where
  names : ∀ n ∈ snapshots.names, ∃ x ∈ done, n = x.1
  subs : ∀ commit laid, (commit, laid) ∈ snapshots.subs ↔ ∃ commitDir, (commit, commitDir) ∈ done ∧
    (snapshotLinks commitDir).foldlM (pullLink blobs [snapshotsName, tempName env commit]) .empty =
      .ok laid

theorem LaidOut.pullSnapshot {env : PullEnv} {done : List (Name × Dir Name SnapshotFile)}
    {snapshots commitDir laid : Dir Name SnapshotFile} {commit : Name}
    (hlaid : LaidOut env blobs done snapshots) (hdone : ∀ x ∈ done, HexName x.1)
    (hcommit : HexName commit) (hnew : ∀ x ∈ done, x.1 ≠ commit)
    (hlinks : (snapshotLinks commitDir).foldlM
      (pullLink blobs [snapshotsName, tempName env commit]) .empty = .ok laid) :
    ∃ out, pullSnapshot env blobs snapshots ⟨commit, snapshotLinks commitDir⟩ = .ok out ∧
      LaidOut env blobs (done ++ [(commit, commitDir)]) out := by
  have hfresh : commit ∉ snapshots.names := by
    intro hn
    obtain ⟨x, hx, hname⟩ := hlaid.names commit hn
    exact hnew x hx hname.symm
  -- a temporary name has a dot
  have htemp : tempName env commit ∉ snapshots.names := by
    intro hn
    obtain ⟨x, hx, hname⟩ := hlaid.names _ hn
    have hdot : '.' ∈ x.1 := hname ▸ List.mem_cons_self
    exact absurd ((hdone x hx).hex _ hdot) (by decide)
  refine ⟨.sub commit laid snapshots, ?_, ?_, fun c l => ?_⟩
  · simp only [ModelSync.pullSnapshot, safeLeafName_of_plain hcommit.proper hcommit.plain]
    simp only [bind, Except.bind, htemp, hlinks, if_false, Dir.erase_of_not_mem hfresh]
    rfl
  · intro n hn
    rcases List.mem_cons.1 hn with rfl | hn
    · exact ⟨_, List.mem_append_right _ (List.mem_singleton_self _), rfl⟩
    · obtain ⟨x, hx, hname⟩ := hlaid.names n hn
      exact ⟨x, List.mem_append_left _ hx, hname⟩
  · rw [Dir.subs, List.mem_cons, hlaid.subs]
    constructor
    · rintro (h | ⟨d, hd, h⟩)
      · obtain ⟨rfl, rfl⟩ := Prod.mk.inj h
        exact ⟨commitDir, List.mem_append_right _ (List.mem_singleton_self _), hlinks⟩
      · exact ⟨d, List.mem_append_left _ hd, h⟩
    · rintro ⟨d, hd, h⟩
      rcases List.mem_append.1 hd with hd | hd
      · exact .inr ⟨d, hd, h⟩
      · obtain ⟨rfl, rfl⟩ := Prod.mk.inj (List.mem_singleton.1 hd)
        exact .inl (Prod.ext rfl (Except.ok.inj (h.symm.trans hlinks)))

/-- Every snapshot is laid out under its commit. -/
theorem pullSnapshots_total (uuidHex : Name → Name) (hport : Portable tree.toModelDir)
    (hblobs : ∀ h bytes, tree.blobs.Has [h] bytes → blobs.get h = some bytes) :
    ∃ out, (buildCacheManifest tree.toModelDir).snapshots.foldlM
      (pullSnapshot (tree.env uuidHex) blobs) .empty = .ok out ∧
      LaidOut (tree.env uuidHex) blobs (sortByName tree.snapshots.subs) out := by
  have hnodup := ((sortByName_perm tree.snapshots.subs).map (·.1)).nodup_iff.2
    (Dir.nodup_subs tree.snapshotsDistinct)
  rw [buildCacheManifest, List.foldlM_map]
  refine Transition.foldlM_total (P := LaidOut (tree.env uuidHex) blobs) ?_
    ⟨by simp [Dir.names], by simp [Dir.subs]⟩
  rintro done ⟨commit, commitDir⟩ todo snapshots hl hlaid
  have hmem {x : Name × Dir Name SnapshotFile} (h : x ∈ done ++ (commit, commitDir) :: todo) :
      x ∈ tree.snapshots.subs := mem_sortByName.1 (hl ▸ h)
  have hcommit := hmem (List.mem_append_right done List.mem_cons_self)
  obtain ⟨laid, hlinks, -⟩ := pullLinks_total hport hblobs
    [snapshotsName, tempName (tree.env uuidHex) commit] hcommit
  refine hlaid.pullSnapshot (fun x hx => ?_) (tree.commits commit commitDir hcommit)
    (fun x hx => ?_) hlinks
  · exact tree.commits x.1 x.2 (hmem (List.mem_append_left _ hx))
  · rw [hl, List.map_append, List.nodup_append] at hnodup
    exact hnodup.2.2 _ (List.mem_map_of_mem hx) _ List.mem_cons_self

/-- From where the commit is published, a link made in the temporary directory leads to its blob. -/
theorem linkedBlob_relpath (commit temp : Name) (path : List Name) :
    ModelDir.linkedBlob (snapshotsName :: commit :: path)
      (relpath [blobsName, h] (snapshotsName :: temp :: path)) = some h := by
  have hne : blobsName ≠ snapshotsName := by decide
  have htarget : relpath [blobsName, h] (snapshotsName :: temp :: path) =
      (List.replicate (path.length + 2) dotdot ++ [blobsName]) ++ [h] := by
    rw [relpath_of_ne hne, List.append_assoc]
    rfl
  have hup : resolve (snapshotsName :: commit :: path)
      (List.replicate (path.length + 2) dotdot ++ [blobsName]) = [blobsName] := by
    rw [resolve_append, resolve_up]
    simp [resolve, show blobsName ≠ dotdot by decide]
  rw [ModelDir.linkedBlob, htarget, List.getLast?_concat, List.dropLast_concat, hup]
  rfl

/-- Snapshots laid out from the tree read the same bytes. -/
theorem reads_laidOut (hport : Portable tree.toModelDir) {uuidHex : Name → Name}
    {snapshots : Dir Name SnapshotFile} {refs : Dir Name (List Char)}
    (hget : ∀ h bytes, blobs.get h = some bytes ↔ tree.blobs.Has [h] bytes)
    (hlaid : LaidOut (tree.env uuidHex) blobs (sortByName tree.snapshots.subs) snapshots)
    (commit : Name) (path : List Name) (bytes : Bytes) :
    ModelDir.Reads ⟨tree.name, blobs, refs, snapshots⟩ commit path bytes ↔
      tree.Reads commit path bytes := by
  let out : ModelDir := ⟨tree.name, blobs, refs, snapshots⟩
  let temp := tempName (tree.env uuidHex) commit
  have hread {target : List Name} {h : Name}
      (hfile : tree.SnapshotHas commit path (.link target))
      (hhash : resolveBlobHash (.link target) = some h) :
      out.fileBytes (snapshotsName :: commit :: path.dropLast)
          (.link (relpath [blobsName, h] (snapshotsName :: temp :: path.dropLast))) =
        tree.fileBytes (snapshotsName :: commit :: path.dropLast) (.link target) := by
    obtain ⟨h', b, hh, hblob, hbytes⟩ := tree.resolveBlobHash_link hfile
    obtain rfl : h' = h := Option.some.inj (hh.symm.trans hhash)
    rw [hbytes, ModelDir.fileBytes, linkedBlob_relpath]
    exact (hget h' b).2 hblob
  have hlinks {commitDir : Dir Name SnapshotFile}
      (hdir : (commit, commitDir) ∈ tree.snapshots.subs) :=
    pullLinks_total hport (fun h bytes => (hget h bytes).2) [snapshotsName, temp] hdir
  constructor
  · rintro ⟨file, ⟨laid, hmem, hfile⟩, hbytes⟩
    obtain ⟨commitDir, hdir, hlaid'⟩ := (hlaid.subs commit laid).1 hmem
    obtain ⟨laid', hlaid'', hall⟩ := hlinks (mem_sortByName.1 hdir)
    obtain rfl : laid' = laid := Except.ok.inj (hlaid''.symm.trans hlaid')
    obtain ⟨target, h, htarget, hhash, rfl⟩ := (hall path file).1 hfile
    have htree : tree.SnapshotHas commit path (.link target) :=
      ⟨commitDir, mem_sortByName.1 hdir, htarget⟩
    exact ⟨_, htree, (hread htree hhash).symm.trans hbytes⟩
  · rintro ⟨file, ⟨commitDir, hdir, hfile⟩, hbytes⟩
    obtain ⟨target, rfl⟩ := hport.links commit path file ⟨commitDir, hdir, hfile⟩
    have htree : tree.SnapshotHas commit path (.link target) := ⟨commitDir, hdir, hfile⟩
    obtain ⟨h, b, hhash, -⟩ := tree.resolveBlobHash_link htree
    obtain ⟨laid, hlaid', hall⟩ := hlinks hdir
    have hmem := (hlaid.subs commit laid).2 ⟨commitDir, mem_sortByName.2 hdir, hlaid'⟩
    have hout := (hall path _).2 ⟨target, h, hfile, hhash, rfl⟩
    exact ⟨_, ⟨laid, hmem, hout⟩, (hread htree hhash).trans hbytes⟩

theorem roundTrips_of_portable (hport : Portable tree.toModelDir) :
    RoundTrips sha256 uuidHex tree.toModelDir := by
  obtain ⟨blobs, hblobs, hdistinct, hhas⟩ := pullBlobs_total tree uuidHex
  have hget (h : Name) (bytes : Bytes) : blobs.get h = some bytes ↔ tree.blobs.Has [h] bytes := by
    rw [Dir.get_eq_some_iff hdistinct, hhas]
    simp
  obtain ⟨snapshots, hsnapshots, hlaid⟩ :=
    pullSnapshots_total uuidHex hport fun h bytes => (hget h bytes).2
  obtain ⟨refs, hrefs, hrefsHas⟩ := pullRefs_total tree
  refine ⟨⟨tree.name, blobs, refs, snapshots⟩, ?_, rfl, fun h bytes => ?_, fun path commit => ?_,
    fun commit => ?_, fun commit path bytes => ?_⟩
  · have hname := tree.safeLeafName_name "model_dir_name"
    simp only [CacheTree.env] at hblobs hsnapshots
    simp only [pullModel, buildCacheManifest, emptyStore] at hblobs hsnapshots hrefs ⊢
    simp only [hname, bind, Except.bind, hblobs, hsnapshots, hrefs]
    rfl
  · rw [hhas]
    simp
  · rw [hrefsHas]
    constructor
    · rintro ⟨k, rfl, hk⟩
      exact hk
    · intro href
      obtain ⟨k, rfl⟩ := List.length_eq_one_iff.1 (hport.refs path commit href)
      exact ⟨k, rfl, href⟩
  · simp only [hlaid.subs, mem_sortByName]
    constructor
    · rintro ⟨-, commitDir, hmem, -⟩
      exact ⟨commitDir, hmem⟩
    · rintro ⟨commitDir, hmem⟩
      obtain ⟨laid, hlinks, -⟩ := pullLinks_total hport (fun h bytes => (hget h bytes).2)
        [snapshotsName, tempName (tree.env uuidHex) commit] hmem
      exact ⟨laid, commitDir, hmem, hlinks⟩
  · exact reads_laidOut hport hget hlaid commit path bytes

end

/-! ## What a pull writes -/

section
variable {env : PullEnv} {blobs : Dir Name Bytes}

/-- Where a write succeeds, the directory has the files it had and the one written. -/
theorem writeFile_eq_ok {L : Type} {dir out : Dir Name L} {path : List Name} {x : L}
    (hd : dir.Distinct) (h : writeFile dir path x = .ok out) :
    out.Distinct ∧ ∀ p y, out.Has p y → p = path ∨ dir.Has p y := by
  cases path with
  | nil => cases h
  | cons k path =>
    simp only [writeFile] at h
    split at h
    next dir' hput =>
      cases h
      refine ⟨hd.put hput, fun p y hy => ?_⟩
      rcases (Dir.has_put hd hput).1 hy with ⟨rfl, -⟩ | ⟨-, hy⟩
      · exact .inl rfl
      · exact .inr hy
    next => cases h

theorem safeJoin_eq_ok {field : String} {relative : List Char} {path : List Name}
    (h : safeJoin field relative = .ok path) : path = pathParts relative := by
  rw [safeJoin] at h
  split at h
  next => cases h
  next => exact (Except.ok.inj h).symm

theorem safeLeafName_eq_ok {field : String} {value : List Char} {name : Name}
    (h : safeLeafName field value = .ok name) : name = strip value := by
  simp only [safeLeafName] at h
  split at h
  next => cases h
  next => exact (Except.ok.inj h).symm

/-- Refs are written under the paths that the names of the manifest spell. -/
theorem paths_of_pullRefs {refs : List RefEntry} {out : Dir Name (List Char)}
    (h : refs.foldlM pullRef .empty = .ok out) {path : List Name} {commit : List Char}
    (hpath : out.Has path commit) : ∃ ref ∈ refs, path = pathParts ref.name := by
  let P (dir : Dir Name (List Char)) :=
    dir.Distinct ∧ ∀ p c, dir.Has p c → ∃ ref ∈ refs, p = pathParts ref.name
  have hstep : ∀ ref ∈ refs, ∀ dir dir', P dir → pullRef dir ref = .ok dir' → P dir' := by
    rintro ref href dir dir' ⟨hd, hdir⟩ hpull
    obtain ⟨p, hjoin, hwrite⟩ := Transition.bind_eq_ok.1 hpull
    obtain ⟨hd', hdir'⟩ := writeFile_eq_ok hd hwrite
    refine ⟨hd', fun q c hq => ?_⟩
    rcases hdir' q c hq with rfl | hq
    · exact ⟨ref, href, safeJoin_eq_ok hjoin⟩
    · exact hdir q c hq
  have h0 : P .empty := ⟨trivial, fun _ _ h => h.elim⟩
  exact (Transition.foldlM_invariant hstep h0 h).2 path commit hpath

theorem pullLink_eq_ok {at_ : List Name} {snapshot out : Dir Name SnapshotFile} {link : LinkEntry}
    (hd : snapshot.Distinct) (h : pullLink blobs at_ snapshot link = .ok out) :
    out.Distinct ∧ ∀ path file, out.Has path file →
      path = pathParts link.path ∨ snapshot.Has path file := by
  obtain ⟨blobHash, -, h⟩ := Transition.bind_eq_ok.1 h
  obtain ⟨path, hjoin, h⟩ := Transition.bind_eq_ok.1 h
  have hwrite : writeFile snapshot path
      (.link (relpath [blobsName, blobHash] (at_ ++ path.dropLast))) = .ok out := by
    cases path
    all_goals
      dsimp only at h
      split at h
      next => cases h
      next =>
        split at h
        next => cases h
        next => exact h
  obtain ⟨hd', hout⟩ := writeFile_eq_ok hd hwrite
  exact ⟨hd', fun p file hp => safeJoin_eq_ok hjoin ▸ hout p file hp⟩

theorem paths_of_pullLinks {at_ : List Name} {links : List LinkEntry}
    {out : Dir Name SnapshotFile} (h : links.foldlM (pullLink blobs at_) .empty = .ok out)
    {path : List Name} {file : SnapshotFile} (hpath : out.Has path file) :
    ∃ link ∈ links, path = pathParts link.path := by
  let P (snapshot : Dir Name SnapshotFile) :=
    snapshot.Distinct ∧ ∀ p f, snapshot.Has p f → ∃ link ∈ links, p = pathParts link.path
  have hstep : ∀ link ∈ links, ∀ snapshot snapshot', P snapshot →
      pullLink blobs at_ snapshot link = .ok snapshot' → P snapshot' := by
    rintro link hlink snapshot snapshot' ⟨hd, hlinks⟩ hpull
    obtain ⟨hd', hlinks'⟩ := pullLink_eq_ok hd hpull
    refine ⟨hd', fun p f hp => ?_⟩
    rcases hlinks' p f hp with rfl | hp
    · exact ⟨link, hlink, rfl⟩
    · exact hlinks p f hp
  have h0 : P .empty := ⟨trivial, fun _ _ h => h.elim⟩
  exact (Transition.foldlM_invariant hstep h0 h).2 path file hpath

/-- The files of the snapshots that are laid out are under the paths that the manifest's links
spell. -/
theorem paths_of_pullSnapshots {entries : List SnapshotEntry} {out : Dir Name SnapshotFile}
    (h : entries.foldlM (pullSnapshot env blobs) .empty = .ok out) {commit : Name}
    {laid : Dir Name SnapshotFile} (hmem : (commit, laid) ∈ out.subs) {path : List Name}
    {file : SnapshotFile} (hpath : laid.Has path file) :
    ∃ entry ∈ entries, commit = strip entry.commit ∧
      ∃ link ∈ entry.links, path = pathParts link.path := by
  let P (snapshots : Dir Name SnapshotFile) := ∀ c l, (c, l) ∈ snapshots.subs → ∀ p f, l.Has p f →
    ∃ entry ∈ entries, c = strip entry.commit ∧ ∃ link ∈ entry.links, p = pathParts link.path
  have hstep : ∀ entry ∈ entries, ∀ snapshots snapshots', P snapshots →
      pullSnapshot env blobs snapshots entry = .ok snapshots' → P snapshots' := by
    rintro entry hentry snapshots snapshots' hsnapshots hpull
    obtain ⟨c, hc, hpull⟩ := Transition.bind_eq_ok.1 hpull
    split at hpull
    next => cases hpull
    next =>
      obtain ⟨laid, hlaid, hpull⟩ := Transition.bind_eq_ok.1 hpull
      cases hpull
      intro c' l hl p f hp
      rcases List.mem_cons.1 hl with hl | hl
      · obtain ⟨rfl, rfl⟩ := Prod.mk.inj hl
        exact ⟨entry, hentry, safeLeafName_eq_ok hc, paths_of_pullLinks hlaid hp⟩
      · exact hsnapshots c' l (Dir.mem_subs_erase hl) p f hp
  have h0 : P .empty := fun _ _ h => by cases h
  exact Transition.foldlM_invariant hstep h0 h commit laid hmem path file hpath

end

/-! ## The round trip -/

section
variable {sha256 : Bytes → Name} {uuidHex : Name → Name} {tree : CacheTree sha256}

theorem no_backslash_pathParts {text : List Char} {name : Name}
    (h : name ∈ pathParts (replaceBackslash text)) : '\\' ∉ name := by
  intro hc
  have hmem := mem_of_mem_pathParts h hc
  obtain ⟨c, -, hrep⟩ := List.mem_map.1 hmem
  split at hrep
  next => exact absurd hrep (by decide)
  next hne => exact hne hrep

theorem ne_nil_of_snapshotHas {dir : ModelDir} {commit : Name} {path : List Name}
    {file : SnapshotFile} (h : dir.SnapshotHas commit path file) : path ≠ [] := by
  obtain ⟨commitDir, -, hhas⟩ := h
  exact Dir.ne_nil_of_has hhas

/-- A file of the tree reads some bytes. -/
theorem CacheTree.exists_reads (tree : CacheTree sha256) {commit : Name} {path : List Name}
    {file : SnapshotFile} (h : tree.SnapshotHas commit path file) :
    ∃ bytes, tree.Reads commit path bytes := by
  cases file with
  | link target =>
    obtain ⟨_, bytes, -, -, hbytes⟩ := tree.resolveBlobHash_link h
    exact ⟨bytes, _, h, hbytes⟩
  | regular bytes => exact ⟨bytes, _, h, rfl⟩

theorem CacheTree.snapshotHas_unique (tree : CacheTree sha256) {commit : Name} {path : List Name}
    {file file' : SnapshotFile} (h : tree.SnapshotHas commit path file)
    (h' : tree.SnapshotHas commit path file') : file = file' := by
  have hhas {f : SnapshotFile} (hf : tree.SnapshotHas commit path f) :
      tree.snapshots.Has (commit :: path) f := by
    obtain ⟨commitDir, hmem, hfile⟩ := hf
    exact (Dir.has_cons_iff (Dir.ne_nil_of_has hfile)).2 ⟨commitDir, hmem, hfile⟩
  have happend : tree.snapshots.Has (commit :: path ++ []) file' := by
    rw [List.append_nil]
    exact hhas h'
  exact (tree.snapshotsDistinct.eq_of_has_append (hhas h) happend).2

theorem portable_of_roundTrips (h : RoundTrips sha256 uuidHex tree.toModelDir) :
    Portable tree.toModelDir := by
  obtain ⟨out, hpull, hsame⟩ := h
  obtain ⟨name, -, hpull⟩ := Transition.bind_eq_ok.1 hpull
  obtain ⟨blobs, -, hpull⟩ := Transition.bind_eq_ok.1 hpull
  obtain ⟨snapshots, hsnapshots, hpull⟩ := Transition.bind_eq_ok.1 hpull
  obtain ⟨refs, hrefs, hpull⟩ := Transition.bind_eq_ok.1 hpull
  cases hpull
  -- a file of the tree is in the pulled snapshot, so at a path that a link of the manifest spells
  have hlinked {commit : Name} {path : List Name} {file : SnapshotFile}
      (hfile : tree.SnapshotHas commit path file) : ∃ path' file' blobHash,
        tree.SnapshotHas commit path' file' ∧ resolveBlobHash file' = some blobHash ∧
        path = pathParts (replaceBackslash (pathText path')) := by
    obtain ⟨bytes, hbytes⟩ := tree.exists_reads hfile
    obtain ⟨f, ⟨laid, hmem, hhas⟩, -⟩ := (hsame.reads commit path bytes).2 hbytes
    obtain ⟨entry, hentry, hcommit, link, hlink, hpath⟩ :=
      paths_of_pullSnapshots hsnapshots hmem hhas
    obtain ⟨⟨c, commitDir⟩, hdir, rfl⟩ := List.mem_map.1 hentry
    have hdir := mem_sortByName.1 hdir
    rw [strip_of_plain (tree.commits c commitDir hdir).plain] at hcommit
    obtain ⟨path', file', blobHash, hfile', hhash, rfl⟩ := mem_snapshotLinks.1 hlink
    subst hcommit
    exact ⟨path', file', blobHash, ⟨commitDir, hdir, hfile'⟩, hhash, hpath⟩
  have hslashes {commit : Name} {path : List Name} {file : SnapshotFile}
      (hfile : tree.SnapshotHas commit path file) : ∀ n ∈ path, '\\' ∉ n := by
    obtain ⟨path', _, _, -, -, hpath⟩ := hlinked hfile
    rw [hpath]
    exact fun n hn => no_backslash_pathParts hn
  refine ⟨fun path commit hhas => ?_, fun commit path file hfile => ?_,
    fun commit path file hfile => hslashes hfile⟩
  · obtain ⟨ref, href, hpath⟩ := paths_of_pullRefs hrefs ((hsame.refs path commit).2 hhas)
    obtain ⟨⟨k, c⟩, hk, rfl⟩ := List.mem_map.1 href
    have hk := Dir.has_singleton_iff.2 (mem_sortByName.1 hk)
    rw [hpath, (pathParts_of_proper (tree.refNames [k] c hk k List.mem_cons_self)).1]
    rfl
  · obtain ⟨path', file', blobHash, hfile', hhash, hpath⟩ := hlinked hfile
    rw [(pathParts_replaceBackslash (ne_nil_of_snapshotHas hfile')
      (tree.fileNames commit path' file' hfile') (hslashes hfile')).2] at hpath
    subst hpath
    obtain rfl := tree.snapshotHas_unique hfile hfile'
    cases file with
    | link target => exact ⟨target, rfl⟩
    | regular bytes => cases hhash

/-- A cache tree comes back from its manifest exactly when its refs are directly in `refs`, its
snapshot files are links, and no name in a snapshot has a backslash. -/
theorem roundTrips_iff (sha256 : Bytes → Name) (uuidHex : Name → Name) (tree : CacheTree sha256) :
    RoundTrips sha256 uuidHex tree.toModelDir ↔
      (∀ path commit, tree.refs.Has path commit → path.length = 1) ∧
      ∀ commit path file, tree.SnapshotHas commit path file →
        (∃ target, file = .link target) ∧ ∀ n ∈ path, '\\' ∉ n := by
  constructor
  · intro h
    have hport := portable_of_roundTrips h
    exact ⟨hport.refs, fun commit path file hfile =>
      ⟨hport.links commit path file hfile, hport.slashes commit path file hfile⟩⟩
  · rintro ⟨hrefs, hfiles⟩
    exact roundTrips_of_portable ⟨hrefs, fun commit path file h => (hfiles commit path file h).1,
      fun commit path file h => (hfiles commit path file h).2⟩

end

def prCommitDir : Dir Name SnapshotFile :=
  .file "config.json".toList (.link [dotdot, dotdot, blobsName, "ab".toList]) .empty

/-- A cached model with the ref `refs/pr/1`. -/
def prTree : CacheTree fun _ => [] where
  name := "models--org--name".toList
  org := "org--name".toList
  blobs := .file "ab".toList [1, 2, 3] .empty
  refs := .file "main".toList "c0".toList
    (.sub "pr".toList (.file "1".toList "c0".toList .empty) .empty)
  snapshots := .sub "c0".toList prCommitDir .empty
  dirName := rfl
  orgName := by simp
  blobsDistinct := by simp [Dir.Distinct, Dir.names]
  refsDistinct := by simp [Dir.Distinct, Dir.names]
  snapshotsDistinct := by simp [prCommitDir, Dir.Distinct, Dir.names]
  blobNames := by
    rintro h bytes (⟨hpath, -⟩ | ⟨⟨⟩⟩)
    obtain ⟨rfl, -⟩ := List.cons.inj hpath
    exact .of_all (by decide) (by decide)
  digests := by
    rintro h bytes digest (⟨hpath, -⟩ | ⟨⟨⟩⟩) hdigest
    obtain ⟨rfl, -⟩ := List.cons.inj hpath
    have hnone : expectedSha256 "ab".toList = none := by decide
    exact absurd (hnone.symm.trans hdigest) (by simp)
  refNames := by
    rintro path commit (⟨rfl, -⟩ | ⟨_, rfl, ⟨rfl, -⟩ | ⟨⟨⟩⟩⟩ | ⟨⟨⟩⟩) n hn
    · obtain rfl := List.mem_singleton.1 hn
      exact ⟨by decide, by decide, by decide, by decide⟩
    · obtain rfl | hn := List.mem_cons.1 hn
      · exact ⟨by decide, by decide, by decide, by decide⟩
      · obtain rfl := List.mem_singleton.1 hn
        exact ⟨by decide, by decide, by decide, by decide⟩
  refCommits := by
    rintro path commit (⟨-, rfl⟩ | ⟨_, -, ⟨-, rfl⟩ | ⟨⟨⟩⟩⟩ | ⟨⟨⟩⟩)
    all_goals exact .of_all (by decide) (by decide)
  commits := by
    intro commit commitDir hmem
    obtain ⟨rfl, -⟩ := Prod.mk.inj (List.mem_singleton.1 hmem)
    exact .of_all (by decide) (by decide)
  fileNames := by
    rintro commit path file ⟨commitDir, hmem, hfile⟩ n hn
    obtain ⟨-, rfl⟩ := Prod.mk.inj (List.mem_singleton.1 hmem)
    obtain ⟨rfl, -⟩ | ⟨⟨⟩⟩ := hfile
    obtain rfl := List.mem_singleton.1 hn
    exact ⟨by decide, by decide, by decide, by decide⟩
  links := by
    rintro commit path target ⟨commitDir, hmem, hfile⟩
    obtain ⟨rfl, rfl⟩ := Prod.mk.inj (List.mem_singleton.1 hmem)
    obtain ⟨rfl, hlink⟩ | ⟨⟨⟩⟩ := hfile
    obtain rfl := SnapshotFile.link.inj hlink
    exact ⟨"ab".toList, [1, 2, 3], by decide, .inl ⟨rfl, rfl⟩⟩

theorem not_roundTrips_nestedRef : ¬ ∀ (sha256 : Bytes → Name) (uuidHex : Name → Name)
    (tree : CacheTree sha256), RoundTrips sha256 uuidHex tree.toModelDir := by
  intro h
  have hport := portable_of_roundTrips (h (fun _ => []) id prTree)
  have href : prTree.refs.Has ["pr".toList, "1".toList] "c0".toList :=
    .inr (.inl ⟨_, rfl, .inl ⟨rfl, rfl⟩⟩)
  exact absurd (hport.refs _ _ href) (by decide)

end LlmPort.ModelSync
