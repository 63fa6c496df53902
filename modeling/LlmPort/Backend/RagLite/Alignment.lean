import LlmPort.Backend.RagLite.Embedding
import LlmPort.Transition.PartialMap

/-!
# Whose vector a chunk gets

A chunk is zipped with the vector at its position in all that the provider returned. Nothing counts
the items of a response or looks at what their indices are, so that a response with too few or too
many items goes into the rows.
-/

namespace LlmPort.Backend.RagLite

open NodeControl Ranking Transition

variable {R : Type} {client : EmbeddingClient R} {chunks : List Chunk} {texts : List RagText}
  {found : List (List (EmbeddingItem R))}

namespace EmbeddingClient

/-- The items of all responses, in the order the code goes through them. -/
def answers (client : EmbeddingClient R) (texts : List RagText) :
    Option (List (List (EmbeddingItem R))) :=
  (List.range (blockCount client.batchSize texts.length)).mapM fun k =>
    client.sortedItems k (client.batch texts k)

/-- The item whose vector is at each position, with the number of its call. -/
def sources (client : EmbeddingClient R) (texts : List RagText) : List (Nat × EmbeddingItem R) :=
  tagged 0 ((client.answers texts).getD [])

/-- The text at a position is sent in this call, at this place. -/
theorem getElem?_batch (client : EmbeddingClient R) (texts : List RagText) (i : Nat) :
    (client.batch texts (i / client.batchSize))[i % client.batchSize]? = texts[i]? := by
  have hlt := Nat.mod_lt i client.batchSize_pos
  rw [batch, List.getElem?_take_of_lt hlt, List.getElem?_drop, Nat.div_add_mod']

theorem isSome_answers : (client.answers texts).isSome = true ↔
    ∀ k < blockCount client.batchSize texts.length,
      (client.post k (client.batch texts k)).isSome = true := by
  rw [answers, isSome_mapM, List.all_eq_true]
  simp only [List.mem_range, sortedItems, Option.isSome_map]

/-- The answers are those to the calls. -/
theorem getElem?_answers (h : client.answers texts = some found) {k : Nat}
    (hk : k < blockCount client.batchSize texts.length) :
    found[k]? = client.sortedItems k (client.batch texts k) := by
  have h := congrArg (·[k]?) (map_some_of_mapM h)
  simp only [List.getElem?_map, List.getElem?_range hk, Option.map_some] at h
  cases hanswer : found[k]? with
  | none =>
    rw [hanswer] at h
    cases h
  | some answer =>
    rw [hanswer] at h
    exact Option.some.inj h

theorem length_answers (h : client.answers texts = some found) :
    found.length = blockCount client.batchSize texts.length := by
  rw [length_of_mapM h, List.length_range]

end EmbeddingClient

/-- A call raises, or every response has, in the order of their indices, an item for each text of
the batch and, if another batch follows, no more. -/
def Answered (client : EmbeddingClient R) (chunks : List Chunk) : Prop :=
  (∃ k < blockCount client.batchSize chunks.length,
    client.post k (client.batch (chunks.map (·.text)) k) = none) ∨
  ∀ k < blockCount client.batchSize chunks.length, ∀ data,
    client.post k (client.batch (chunks.map (·.text)) k) = some data →
      Answers (·.index) client.batchSize (chunks.length - k * client.batchSize)
        (data.insertionSort (·.index ≤ ·.index))

theorem answered_of_eq_none (h : client.answers (chunks.map (·.text)) = none) :
    ∃ k < blockCount client.batchSize chunks.length,
      client.post k (client.batch (chunks.map (·.text)) k) = none := by
  by_contra hall
  push Not at hall
  have hsome : (client.answers (chunks.map (·.text))).isSome = true :=
    EmbeddingClient.isSome_answers.2 fun k hk =>
      Option.isSome_iff_ne_none.2 (hall k (by rwa [List.length_map] at hk))
  rw [h] at hsome
  cases hsome

/-- Without errors the items are in place exactly if the responses are as they should be. -/
theorem answered_iff_inPlace (h : client.answers (chunks.map (·.text)) = some found) :
    Answered client chunks ↔ InPlace (·.index) client.batchSize chunks.length 0 found := by
  have hlength := EmbeddingClient.length_answers h
  have hsome := EmbeddingClient.isSome_answers.1 (Option.isSome_iff_exists.2 ⟨_, h⟩)
  rw [List.length_map] at hlength hsome
  rw [inPlace_iff client.batchSize_pos hlength]
  constructor
  · rintro (⟨k, hk, hnone⟩ | H) j block hj
    · have hk := hsome k hk
      rw [hnone] at hk
      cases hk
    · have hk : j < blockCount client.batchSize chunks.length :=
        hlength ▸ (List.getElem?_eq_some_iff.1 hj).1
      rw [EmbeddingClient.getElem?_answers h (by rwa [List.length_map])] at hj
      obtain ⟨data, hdata, rfl⟩ := Option.map_eq_some_iff.1 hj
      exact H j hk data hdata
  · intro H
    refine .inr fun k hk data hdata => H k _ ?_
    rw [EmbeddingClient.getElem?_answers h (by rwa [List.length_map]),
      EmbeddingClient.sortedItems, hdata]
    rfl

/-! ## The rows -/

variable {task : IngestTask} {collectionId : Option Uuid} {ids : Nat → Uuid}

theorem getElem?_embeddedRecords {vectors : List (List R)} {i : Nat} {c : Chunk} {v : List R}
    (hc : chunks[i]? = some c) (hv : vectors[i]? = some v) :
    (embeddedRecords client task collectionId chunks ids vectors)[i]? = some
      { id := ids i, documentId := task.documentId, collectionId, chunkIndex := c.index
        chunkText := c.text, embedding := v, embeddingDim := client.dim } := by
  have hzip : (chunks.zip vectors)[i]? = some (c, v) := List.getElem?_zip_eq_some.2 ⟨hc, hv⟩
  rw [embeddedRecords, List.getElem?_map, List.getElem?_zipIdx, hzip]
  simp

theorem length_embeddedRecords (vectors : List (List R)) :
    (embeddedRecords client task collectionId chunks ids vectors).length =
      min chunks.length vectors.length := by
  rw [embeddedRecords, List.length_map, List.length_zipIdx, List.length_zip]

theorem map_fst_zip {α β : Type} (l : List α) (l' : List β) :
    (l.zip l').map Prod.fst = l.take l'.length := by
  induction l generalizing l' with
  | nil => simp
  | cons a l ih => cases l' <;> simp [ih]

/-- The rows without the vectors are those of the ingest workers. -/
theorem map_embeddedRecords (client : EmbeddingClient R) (cfg : ChunkerConfig) (task : IngestTask)
    (collectionId : Option Uuid) (text : RagText) (ids : Nat → Uuid) (vectors : List (List R)) :
    (embeddedRecords client task collectionId (chunkText cfg text) ids vectors).map
        (·.toRagLiteChunk) =
      chunkRecords cfg task collectionId text vectors.length ids := by
  rw [embeddedRecords, chunkRecords, ← map_fst_zip, List.zipIdx_map, List.map_map, List.map_map]
  rfl

variable [Zero R]

theorem zeroPad_of_le {vector : List R} (h : vector.length ≤ maxEmbeddingDim) :
    zeroPad vector = vector ++ List.replicate (maxEmbeddingDim - vector.length) 0 := by
  unfold zeroPad
  split
  next hle =>
    rw [List.take_of_length_le h, Nat.sub_eq_zero_of_le hle, List.replicate_zero, List.append_nil]
  next => rfl

/-- The vectors are those of all items, in order. -/
theorem embedChunks_eq (client : EmbeddingClient R) (chunks : List Chunk) :
    embedChunks client chunks = (client.answers (chunks.map (·.text))).map fun found =>
      (tagged 0 found).map fun p => zeroPad p.2.embedding := by
  have hflatten (found : List (List (EmbeddingItem R))) :
      (found.map fun items => items.map fun e => zeroPad e.embedding).flatten =
        (tagged 0 found).map fun p => zeroPad p.2.embedding := by
    rw [← List.map_flatten, ← map_snd_tagged 0, List.map_map]
    rfl
  have hcalls (texts : List RagText) : client.embedTexts texts =
      (client.answers texts).map fun found => (tagged 0 found).map fun p =>
        zeroPad p.2.embedding := by
    have h := mapM_map (fun k => client.sortedItems k (client.batch texts k))
      (fun items => items.map fun e => zeroPad e.embedding)
      (List.range (blockCount client.batchSize texts.length))
    refine (congrArg (· >>= fun vectors => pure vectors.flatten) h).trans ?_
    rw [← EmbeddingClient.answers]
    cases client.answers texts with
    | none => rfl
    | some found => exact congrArg some (hflatten found)
  unfold embedChunks
  split
  next hnil =>
    have hcount : blockCount client.batchSize 0 = 0 :=
      (blockCount_eq_zero_iff client.batchSize_pos).2 rfl
    rw [hnil, EmbeddingClient.answers, List.map_nil, List.length_nil, hcount]
    rfl
  next => exact hcalls _

/-- A chunk's row has the vector of an item that is for its text: one of the response to the call
the text was sent in, with the text's place there as its index. -/
structure HasOwnVector (client : EmbeddingClient R) (chunks : List Chunk) (i : Nat) (chunk : Chunk)
    (row : EmbeddedChunk R) : Prop where
  index : row.chunkIndex = chunk.index
  text : row.chunkText = chunk.text
  vector : ∃ item, (client.sources (chunks.map (·.text)))[i]? = some (i / client.batchSize, item) ∧
    item.index = (i % client.batchSize : Nat) ∧ (item.embedding.length ≤ maxEmbeddingDim →
      row.embedding =
        item.embedding ++ List.replicate (maxEmbeddingDim - item.embedding.length) 0)

section

variable (client : EmbeddingClient R) (task : IngestTask) (collectionId : Option Uuid)
  (chunks : List Chunk) (ids : Nat → Uuid)

/-- A document that is ready has a row for every chunk, with its own vector; otherwise it has failed
and there are no rows. -/
structure Aligned : Prop where
  ready : (storeChunks client task collectionId chunks ids).1 = .ready →
    (storeChunks client task collectionId chunks ids).2.length = chunks.length ∧
      ∀ i chunk, chunks[i]? = some chunk →
        ∃ row, (storeChunks client task collectionId chunks ids).2[i]? = some row ∧
          HasOwnVector client chunks i chunk row
  error : (storeChunks client task collectionId chunks ids).1 ≠ .ready →
    storeChunks client task collectionId chunks ids = (.error, [])

/-- Every document ends with its chunks' own vectors or as failed exactly if the provider fails, or
answers every batch with an item for each of its texts. -/
theorem aligned_iff : Aligned client task collectionId chunks ids ↔ Answered client chunks := by
  have hvectors := embedChunks_eq client chunks
  cases h : client.answers (chunks.map (·.text)) with
  | none =>
    rw [h, Option.map_none] at hvectors
    refine iff_of_true ⟨fun hready => ?_, fun _ => ?_⟩ (.inl (answered_of_eq_none h))
    · rw [storeChunks, hvectors] at hready
      cases hready
    · rw [storeChunks, hvectors]
  | some found =>
    rw [h, Option.map_some] at hvectors
    have hsources : client.sources (chunks.map (·.text)) = tagged 0 found := by
      rw [EmbeddingClient.sources, h, Option.getD_some]
    rw [answered_iff_inPlace h]
    constructor
    · intro H i hi
      have hready := H.ready (by rw [storeChunks, hvectors])
      obtain ⟨row, -, hrow⟩ := hready.2 i chunks[i] (List.getElem?_eq_getElem hi)
      obtain ⟨item, hitem, hindex, -⟩ := hrow.vector
      rw [hsources] at hitem
      exact ⟨item, by rw [Nat.zero_add, hitem], hindex⟩
    · intro H
      have hstore : storeChunks client task collectionId chunks ids = (.ready,
          embeddedRecords client task collectionId chunks ids
            ((tagged 0 found).map fun p => zeroPad p.2.embedding)) := by
        rw [storeChunks, hvectors]
      refine ⟨fun _ => ?_, fun hne => absurd (congrArg Prod.fst hstore) hne⟩
      rw [hstore]
      constructor
      · rw [length_embeddedRecords, List.length_map]
        refine Nat.min_eq_left (Nat.le_of_not_lt fun hlt => ?_)
        obtain ⟨item, hitem, -⟩ := H _ hlt
        rw [List.getElem?_eq_none le_rfl] at hitem
        cases hitem
      · intro i chunk hi
        obtain ⟨item, hitem, hindex⟩ := H i (List.getElem?_eq_some_iff.1 hi).1
        have hvector : ((tagged 0 found).map fun p => zeroPad p.2.embedding)[i]? =
            some (zeroPad item.embedding) := by
          rw [List.getElem?_map, hitem]
          rfl
        refine ⟨_, getElem?_embeddedRecords hi hvector, rfl, rfl, item, ?_, hindex, ?_⟩
        · rw [hsources, hitem, Nat.zero_add]
        · exact zeroPad_of_le

end

/-- Two texts in one batch, and one item in the response. -/
def shortAnswer : EmbeddingClient Int where
  batchSize := 64
  batchSize_pos := by decide
  dim := 1
  post := fun _ _ => some [⟨0, [1]⟩]

/-- The document is ready with one row for its two chunks. -/
theorem not_aligned_shortAnswer :
    ¬ Aligned shortAnswer ⟨1, 2⟩ none [⟨0, ['a']⟩, ⟨1, ['b']⟩] fun i => 3 + BitVec.ofNat 128 i := by
  intro H
  have hlength := (H.ready rfl).1
  revert hlength
  decide

end LlmPort.Backend.RagLite
