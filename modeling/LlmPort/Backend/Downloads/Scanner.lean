import Mathlib
import LlmPort.Files.Directory
import LlmPort.Files.Path

/-!
# The scan of a model directory

`services/llm/scanner.py`: the artifacts among the files of a downloaded snapshot.
-/

namespace LlmPort.Backend.Downloads

open Files

inductive ArtifactFormat where
  | safetensors | gguf | other
  deriving DecidableEq

/-- A row of `model_artifacts`; the path is kept as its parts. -/
structure ModelArtifact where
  path : List Name
  format : ArtifactFormat
  sizeBytes : Nat
  engineCompat : List String
  deriving DecidableEq

/-- What is at the path of a snapshot, where there is a directory: files with their sizes, and
links that lead nowhere. -/
structure Snapshot where
  root : List Name
  dir : Dir Name (Option Nat)
  distinct : dir.Distinct

/-- `_SKIP_NAMES` -/
def skipNames : List Name :=
  [".gitattributes", "README.md", "LICENSE", "LICENSE.md", "config.json", "tokenizer.json",
    "tokenizer_config.json", "special_tokens_map.json", "generation_config.json"].map (·.toList)

/-- `Path.suffix` -/
def suffix (name : Name) : Name :=
  let ending := name.reverse.takeWhile (· ≠ '.')
  if ending = [] ∨ name.length ≤ ending.length + 1 then [] else '.' :: ending.reverse

/-- `_FORMAT_MAP`; of the characters that have one of these letters in lower case, all are ASCII. -/
def formatOf (name : Name) : ArtifactFormat × List String :=
  let lower := (suffix name).map (·.toLower)
  if lower = ".safetensors".toList then (.safetensors, ["vllm", "tgi"])
  else if lower = ".gguf".toList then (.gguf, ["llamacpp", "ollama"])
  else (.other, [])

/-- The entry of a file that is not skipped. -/
def artifactOf (root : List Name) : List Name × Option Nat → Option ModelArtifact
  | (path, some sizeBytes) =>
    let name := path.getLastD []
    if name ∈ skipNames then none
    else some ⟨root ++ path, (formatOf name).1, sizeBytes, (formatOf name).2⟩
  | (_, none) => none

/-- The files below a directory, in the order of their paths. -/
def sortedFiles (dir : Dir Name (Option Nat)) : List (List Name × Option Nat) :=
  (dir.walk id).insertionSort fun x y => x.1 ≤ y.1

def scanModelDirectory : Option Snapshot → List ModelArtifact
  | none => []
  | some s => (sortedFiles s.dir).filterMap (artifactOf s.root)

/-- A file of the snapshot that is an artifact. -/
def IsArtifactFile : Option Snapshot → List Name → Prop
  | none, _ => False
  | some s, path => ∃ path' size, path = s.root ++ path' ∧ s.dir.Has path' (some size) ∧
    path'.getLastD [] ∉ skipNames

theorem mem_sortedFiles {dir : Dir Name (Option Nat)} {path : List Name} {leaf : Option Nat} :
    (path, leaf) ∈ sortedFiles dir ↔ dir.Has path leaf := by
  rw [sortedFiles, List.mem_insertionSort]
  exact Dir.mem_walk fun _ _ => .rfl

theorem artifactOf_eq_some {root path : List Name} {leaf : Option Nat} {a : ModelArtifact}
    (h : artifactOf root (path, leaf) = some a) :
    a.path = root ++ path ∧ path.getLastD [] ∉ skipNames ∧ ∃ size, leaf = some size := by
  cases leaf with
  | none => cases h
  | some size =>
    obtain ⟨hskip, heq⟩ := Option.ite_none_left_eq_some.1 h
    cases heq
    exact ⟨rfl, hskip, size, rfl⟩

/-- The scan has the artifact files and no others. -/
theorem mem_scanModelDirectory {snapshot : Option Snapshot} {path : List Name} :
    path ∈ (scanModelDirectory snapshot).map (·.path) ↔ IsArtifactFile snapshot path := by
  cases snapshot with
  | none => simp [scanModelDirectory, IsArtifactFile]
  | some s =>
    rw [scanModelDirectory, IsArtifactFile, List.mem_map]
    constructor
    · rintro ⟨a, ha, rfl⟩
      obtain ⟨⟨path', leaf⟩, hfile, hart⟩ := List.mem_filterMap.1 ha
      obtain ⟨hpath, hskip, size, rfl⟩ := artifactOf_eq_some hart
      exact ⟨path', size, hpath, mem_sortedFiles.1 hfile, hskip⟩
    · rintro ⟨path', size, rfl, hhas, hskip⟩
      exact ⟨_, List.mem_filterMap.2 ⟨_, mem_sortedFiles.2 hhas, if_neg hskip⟩, rfl⟩

/-- Each of them once. -/
theorem nodup_scanModelDirectory (snapshot : Option Snapshot) :
    ((scanModelDirectory snapshot).map (·.path)).Nodup := by
  cases snapshot with
  | none => exact List.nodup_nil
  | some s =>
    have hwalk : ((s.dir.walk id).map (·.1)).Nodup := Dir.nodup_walk (fun _ => .rfl) s.distinct
    have hsorted : ((sortedFiles s.dir).map (·.1)).Nodup :=
      ((List.perm_insertionSort _ _).map _).nodup_iff.2 hwalk
    rw [scanModelDirectory]
    generalize sortedFiles s.dir = files at hsorted
    induction files with
    | nil => exact List.nodup_nil
    | cons x files ih =>
      obtain ⟨hx, hrest⟩ := List.nodup_cons.1 hsorted
      rw [List.filterMap_cons]
      split
      next => exact ih hrest
      next a ha =>
        refine List.nodup_cons.2 ⟨fun hmem => hx ?_, ih hrest⟩
        obtain ⟨b, hb, heq⟩ := List.mem_map.1 hmem
        obtain ⟨y, hy, hart⟩ := List.mem_filterMap.1 hb
        have hpath := (artifactOf_eq_some ha).1.symm.trans
          (heq.symm.trans (artifactOf_eq_some hart).1)
        exact List.mem_map.2 ⟨y, hy, (List.append_cancel_left hpath).symm⟩

end LlmPort.Backend.Downloads
