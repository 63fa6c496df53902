import Mathlib.Algebra.Group.Defs
import Mathlib.Data.List.Sort
import LlmPort.Backend.RagLite.Sessions
import LlmPort.Ranking.Blocks

/-!
# The vectors of a document's chunks

`services/rag_lite/embedding.py` and the part of `process_document` that has the chunks embedded and
stores them: the provider is asked batch by batch, and the vectors are zipped with the chunks.
-/

namespace LlmPort.Backend.RagLite

open NodeControl Ranking

/-- An entry of a response's `data`. -/
structure EmbeddingItem (R : Type) where
  index : Int
  embedding : List R

/-- `post` is the response to a call, by the number of the call and its texts; `none` is a call that
raises: no response, an HTTP error, or data without the fields or with indices of different types. -/
structure EmbeddingClient (R : Type) where
  batchSize : Nat
  batchSize_pos : 0 < batchSize
  dim : Nat
  post : Nat → List RagText → Option (List (EmbeddingItem R))

def maxEmbeddingDim : Nat := 2000

/-- A row of `rag_lite_chunks` with its vector. -/
structure EmbeddedChunk (R : Type) extends RagLiteChunk where
  embedding : List R
  embeddingDim : Nat

variable {R : Type} [Zero R]

/-- `_zero_pad` -/
def zeroPad (vector : List R) : List R :=
  if maxEmbeddingDim ≤ vector.length then vector.take maxEmbeddingDim
  else vector ++ List.replicate (maxEmbeddingDim - vector.length) 0

namespace EmbeddingClient

variable (client : EmbeddingClient R)

/-- `texts[i : i + _BATCH_SIZE]` of the `k`-th call. -/
def batch (texts : List RagText) (k : Nat) : List RagText :=
  (texts.drop (k * client.batchSize)).take client.batchSize

/-- `sorted(data["data"], key=lambda x: x["index"])` -/
def sortedItems (k : Nat) (texts : List RagText) : Option (List (EmbeddingItem R)) :=
  (client.post k texts).map fun data => data.insertionSort (·.index ≤ ·.index)

def callApi (k : Nat) (texts : List RagText) : Option (List (List R)) :=
  (client.sortedItems k texts).map fun embeddings => embeddings.map fun e => zeroPad e.embedding

def embedTexts (texts : List RagText) : Option (List (List R)) := do
  let calls := List.range (blockCount client.batchSize texts.length)
  let allVectors ← calls.mapM fun k => client.callApi k (client.batch texts k)
  return allVectors.flatten

end EmbeddingClient

section

variable (client : EmbeddingClient R) (task : IngestTask) (collectionId : Option Uuid)
  (chunks : List Chunk) (ids : Nat → Uuid)

/-- `zip(chunks, vectors)` as rows. -/
def embeddedRecords (vectors : List (List R)) : List (EmbeddedChunk R) :=
  (chunks.zip vectors).zipIdx.map fun ((c, v), i) =>
    { id := ids i, documentId := task.documentId, collectionId, chunkIndex := c.index
      chunkText := c.text, embedding := v, embeddingDim := client.dim }

/-- The vectors of the chunks; without any, the provider is not asked. -/
def embedChunks : Option (List (List R)) :=
  if chunks = [] then some [] else client.embedTexts (chunks.map (·.text))

/-- The status of the document and the rows that are stored: the last steps of `process_document`,
or its `except` clause. -/
def storeChunks : RagLiteDocumentStatus × List (EmbeddedChunk R) :=
  match embedChunks client chunks with
  | some vectors => (.ready, embeddedRecords client task collectionId chunks ids vectors)
  | none => (.error, [])

end

end LlmPort.Backend.RagLite
