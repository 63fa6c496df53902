import LlmPort.ModelSync.Manifest

/-!
# The text chunker

`services/rag_lite/chunker.py`: overlapping windows of a text, numbered from 0.
-/

namespace LlmPort.Backend.RagLite

/-- A single chunk of text with its 0-based position in the document. -/
structure Chunk where
  index : Nat
  text : List Char
  deriving DecidableEq

structure ChunkerConfig where
  maxTokens : Int := 512
  overlapTokens : Int := 64

namespace ChunkerConfig

variable (cfg : ChunkerConfig)

def maxChars : Int := cfg.maxTokens * 4

def overlapChars : Int := cfg.overlapTokens * 4

def step : Nat := (max (cfg.maxChars - cfg.overlapChars) 1).toNat

theorem step_pos : 0 < cfg.step := by
  rw [step]
  omega

end ChunkerConfig

/-- `text[start:stop]`, where a negative `stop` counts from the end. -/
def slice (text : List Char) (start : Nat) (stop : Int) : List Char :=
  (text.take (if stop < 0 then stop + text.length else stop).toNat).drop start

/-- The loop of `chunk_text`. -/
def windows (cfg : ChunkerConfig) (text : List Char) (start idx : Nat) : List Chunk :=
  if start < text.length then
    let window := slice text start (start + cfg.maxChars)
    if ModelSync.strip window ≠ [] then
      ⟨idx, window⟩ :: windows cfg text (start + cfg.step) (idx + 1)
    else windows cfg text (start + cfg.step) idx
  else []
termination_by text.length - start
decreasing_by all_goals have := cfg.step_pos; omega

def chunkText (cfg : ChunkerConfig) (text : List Char) : List Chunk :=
  if text = [] ∨ ModelSync.strip text = [] then [] else windows cfg text 0 0

theorem windows_index (cfg : ChunkerConfig) (text : List Char) (start idx : Nat) :
    (windows cfg text start idx).map (·.index) =
      List.range' idx (windows cfg text start idx).length := by
  induction start, idx using windows.induct cfg text with
  | case1 start idx hlt window hstrip ih =>
    rw [windows, if_pos hlt, if_pos hstrip, List.map_cons, ih]
    rfl
  | case2 start idx hlt window hstrip ih =>
    rw [windows, if_pos hlt, if_neg hstrip]
    exact ih
  | case3 start idx hlt =>
    rw [windows, if_neg hlt]
    rfl

/-- The chunks are numbered in order. -/
theorem chunkText_index (cfg : ChunkerConfig) (text : List Char) :
    (chunkText cfg text).map (·.index) = List.range (chunkText cfg text).length := by
  rw [chunkText]
  split
  next => rfl
  next => rw [windows_index, List.range_eq_range']

end LlmPort.Backend.RagLite
