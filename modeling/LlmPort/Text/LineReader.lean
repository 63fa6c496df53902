import Mathlib.Data.List.Basic

/-!
# Reading lines from chunks

Bytes come in chunks. A reader decodes each chunk, puts the text behind what is left of the ones
before, and handles the lines that are complete; it may stop at a line. How the bytes were cut into
chunks makes no difference to what it reads.
-/

namespace LlmPort.Text

/-- A decoder that takes its bytes in chunks. -/
structure StreamDecoder where
  State : Type
  start : State
  decode : State → List UInt8 → State × List Char
  decode_nil : ∀ d, decode d [] = (d, [])
  decode_append : ∀ d a b, decode d (a ++ b) =
    ((decode (decode d a).1 b).1, (decode d a).2 ++ (decode (decode d a).1 b).2)

/-- The complete lines of a text, and what is behind the last of them. -/
def cutLines : List Char → List (List Char) × List Char
  | [] => ([], [])
  | c :: text =>
    if c = '\n' then ([] :: (cutLines text).1, (cutLines text).2)
    else match cutLines text with
      | ([], rest) => ([], c :: rest)
      | (line :: lines, rest) => ((c :: line) :: lines, rest)

variable {a b text : List Char}

theorem cutLines_append (a b : List Char) : cutLines (a ++ b) =
    ((cutLines a).1 ++ (cutLines ((cutLines a).2 ++ b)).1, (cutLines ((cutLines a).2 ++ b)).2) := by
  induction a with
  | nil => rfl
  | cons c a ih =>
    rw [List.cons_append, cutLines, ih, cutLines]
    split
    next => rfl
    next hc =>
      rcases cutLines a with ⟨_ | ⟨line, lines⟩, rest⟩
      · dsimp only [List.nil_append]
        rw [List.cons_append, cutLines, if_neg hc]
      · rfl

/-- In what is left there is no complete line. -/
theorem cutLines_rest (text : List Char) : (cutLines (cutLines text).2).1 = [] := by
  induction text with
  | nil => rfl
  | cons c text ih =>
    rw [cutLines]
    split
    next => exact ih
    next hc =>
      rcases hcut : cutLines text with ⟨_ | ⟨line, lines⟩, rest⟩
      · rw [hcut] at ih
        dsimp only at ih ⊢
        rw [cutLines, if_neg hc]
        rcases hrest : cutLines rest with ⟨lines, last⟩
        rw [hrest] at ih
        dsimp only at ih
        rw [ih]
      · rw [hcut] at ih
        exact ih

/-- A text of complete lines. -/
theorem cutLines_line (h : '\n' ∉ a) (text : List Char) :
    cutLines (a ++ '\n' :: text) = (a :: (cutLines text).1, (cutLines text).2) := by
  induction a with
  | nil => rw [List.nil_append, cutLines, if_pos rfl]
  | cons c a ih =>
    rw [List.mem_cons, not_or] at h
    rw [List.cons_append, cutLines, if_neg (Ne.symm h.1), ih h.2]

section
variable {σ δ ε : Type*}

/-- What a reader does with a line: it goes on, perhaps with an item, or it stops. -/
inductive LineResult (σ δ ε : Type*) where
  | next (s : σ) (item : Option δ)
  | stop (e : ε)

variable (line : σ → List Char → LineResult σ δ ε)

/-- The items of the lines, and where the reader is after them or why it has stopped. -/
def readLines : σ → List (List Char) → List δ × Except ε σ
  | s, [] => ([], .ok s)
  | s, text :: lines =>
    match line s text with
    | .next s item => (item.toList ++ (readLines s lines).1, (readLines s lines).2)
    | .stop e => ([], .error e)

/-- The items of the chunks. -/
def readChunks (decoder : StreamDecoder) : decoder.State → List Char → σ → List (List UInt8) →
    List δ × Except ε σ
  | _, _, s, [] => ([], .ok s)
  | d, buffer, s, chunk :: chunks =>
    let decoded := decoder.decode d chunk
    let cut := cutLines (buffer ++ decoded.2)
    match readLines line s cut.1 with
    | (items, .error e) => (items, .error e)
    | (items, .ok s) =>
      let rest := readChunks decoder decoded.1 cut.2 s chunks
      (items ++ rest.1, rest.2)

variable {line} {s s' : σ} {lines lines' : List (List Char)} {items : List δ} {e : ε}

theorem readLines_append_of_error (h : readLines line s lines = (items, .error e)) :
    readLines line s (lines ++ lines') = (items, .error e) := by
  induction lines generalizing s items with
  | nil => cases h
  | cons text lines ih =>
    rw [List.cons_append, readLines]
    rw [readLines] at h
    split at h
    next s' item _ =>
      obtain ⟨rfl, hstatus⟩ := Prod.mk.inj h
      rw [ih (Prod.ext rfl hstatus)]
    next => exact h

theorem readLines_append_of_ok (h : readLines line s lines = (items, .ok s')) :
    readLines line s (lines ++ lines') =
      (items ++ (readLines line s' lines').1, (readLines line s' lines').2) := by
  induction lines generalizing s items with
  | nil =>
    cases h
    rfl
  | cons text lines ih =>
    rw [List.cons_append, readLines]
    rw [readLines] at h
    split at h
    next s' item _ =>
      obtain ⟨rfl, hstatus⟩ := Prod.mk.inj h
      rw [ih (Prod.ext rfl hstatus), List.append_assoc]
    next => cases h

/-- What is read from chunks is what is read from the lines of the whole. -/
theorem readChunks_eq {decoder : StreamDecoder} (d : decoder.State) {buffer : List Char}
    (hbuffer : (cutLines buffer).1 = []) (s : σ) (chunks : List (List UInt8)) :
    readChunks line decoder d buffer s chunks =
      readLines line s (cutLines (buffer ++ (decoder.decode d chunks.flatten).2)).1 := by
  induction chunks generalizing d buffer s with
  | nil => rw [List.flatten_nil, decoder.decode_nil, List.append_nil, hbuffer]; rfl
  | cons chunk chunks ih =>
    rw [List.flatten_cons, decoder.decode_append]
    dsimp only
    rw [← List.append_assoc, cutLines_append, readChunks]
    dsimp only
    split
    next items e hread => rw [readLines_append_of_error hread]
    next items s' hread =>
      rw [readLines_append_of_ok hread, ih _ (cutLines_rest _)]

end

end LlmPort.Text
