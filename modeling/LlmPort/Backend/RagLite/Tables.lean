import Mathlib.Data.Option.Basic
import Mathlib.Logic.Function.Basic
import LlmPort.Backend.NodeControl.Model

/-!
# The tables of RAG Lite

`db/models/rag_lite.py`: collections, documents, chunks and ingest jobs with the columns some
modelled function uses, the statements that change them, and their foreign keys.
-/

namespace LlmPort.Backend.RagLite

open NodeControl

abbrev RagText := List Char

inductive RagLiteDocumentStatus where
  | pending | processing | ready | error
  deriving DecidableEq

inductive RagLiteJobStatus where
  | queued | running | completed | failed
  deriving DecidableEq

structure RagLiteCollection where
  id : Uuid
  parentId : Option Uuid

structure RagLiteDocument where
  collectionId : Option Uuid
  filename : RagText
  contentText : Option RagText
  chunkCount : Nat
  status : RagLiteDocumentStatus
  fileStoreKey : Option RagText

structure RagLiteChunk where
  id : Uuid
  documentId : Uuid
  /-- Denormalised from document for fast search filtering. -/
  collectionId : Option Uuid
  chunkIndex : Nat
  chunkText : RagText
  deriving DecidableEq

structure RagLiteIngestJob where
  documentId : Uuid
  status : RagLiteJobStatus
  errorMessage : Option String

/-- The committed rows. Documents and jobs are found by id. -/
structure RagTables where
  collections : List RagLiteCollection
  documents : Uuid → Option RagLiteDocument
  chunks : List RagLiteChunk
  jobs : Uuid → Option RagLiteIngestJob

/-! ## Statements -/

/-- The columns of a document that a session changed. -/
structure DocumentPatch where
  status : Option RagLiteDocumentStatus := none
  contentText : Option (Option RagText) := none
  chunkCount : Option Nat := none
  collectionId : Option (Option Uuid) := none

def DocumentPatch.apply (p : DocumentPatch) (doc : RagLiteDocument) : RagLiteDocument :=
  { doc with
    status := p.status.getD doc.status
    contentText := p.contentText.getD doc.contentText
    chunkCount := p.chunkCount.getD doc.chunkCount
    collectionId := p.collectionId.getD doc.collectionId }

/-- What a session's statement does to the rows when it takes effect. -/
inductive Statement where
  | insertDocument (id : Uuid) (row : RagLiteDocument)
  | insertJob (id : Uuid) (row : RagLiteIngestJob)
  | insertChunks (rows : List RagLiteChunk)
  | updateDocument (id : Uuid) (patch : DocumentPatch)
  | updateJob (id : Uuid) (status : RagLiteJobStatus) (errorMessage : Option String)
  /-- The chunks of a document that a `DELETE` found. -/
  | deleteChunks (documentId : Uuid) (ids : List Uuid)
  /-- The chunks of a document that an `UPDATE` found. -/
  | moveChunks (documentId : Uuid) (ids : List Uuid) (collectionId : Option Uuid)
  /-- A document moved with all its chunks. -/
  | moveDocument (id : Uuid) (collectionId : Option Uuid)
  | deleteDocument (id : Uuid)
  | insertCollection (row : RagLiteCollection)
  | deleteCollection (id : Uuid)

namespace RagTables

variable (t : RagTables)

def hasCollection (id : Uuid) : Bool := t.collections.any (·.id = id)

/-- The foreign key to `rag_lite_collections` holds. -/
def collectionExists (id : Option Uuid) : Bool := id.all t.hasCollection

/-- The collections of a list, and the children of these. -/
def withChildren (ids : List Uuid) : List Uuid :=
  ids ++ (t.collections.filter fun c => c.parentId.any (· ∈ ids) && c.id ∉ ids).map (·.id)

/-- A collection and all below it. -/
def subtree (id : Uuid) : List Uuid := t.withChildren^[t.collections.length] [id]

/-- Documents go, and by `ON DELETE CASCADE` their chunks and jobs. -/
def removeDocuments (gone : Uuid → Bool) : RagTables :=
  { t with
    documents := fun id => if gone id then none else t.documents id
    chunks := t.chunks.filter fun c => !gone c.documentId
    jobs := fun id => (t.jobs id).filter fun job => !gone job.documentId }

/-- Collections go, and by `ON DELETE CASCADE` the documents in them. -/
def removeCollections (gone : List Uuid) : RagTables :=
  { t.removeDocuments fun id => (t.documents id).any fun doc => doc.collectionId.any (· ∈ gone) with
    collections := t.collections.filter fun c => c.id ∉ gone }

def setDocument (id : Uuid) (doc : RagLiteDocument) : RagTables :=
  { t with documents := Function.update t.documents id (some doc) }

def setJob (id : Uuid) (job : RagLiteIngestJob) : RagTables :=
  { t with jobs := Function.update t.jobs id (some job) }

/-- The rows after a statement; `none` is a constraint it violates, or a row it does not find. -/
def execute : Statement → Option RagTables
  | .insertDocument id row =>
    if (t.documents id).isNone && t.collectionExists row.collectionId then
      some (t.setDocument id row)
    else none
  | .insertJob id row =>
    if (t.jobs id).isNone && (t.documents row.documentId).isSome then some (t.setJob id row)
    else none
  | .insertChunks rows =>
    if (t.chunks ++ rows).map (·.id) |>.Nodup then
      if rows.all fun c => (t.documents c.documentId).isSome then
        some { t with chunks := t.chunks ++ rows }
      else none
    else none
  | .updateDocument id patch => (t.documents id).map fun doc => t.setDocument id (patch.apply doc)
  | .updateJob id status errorMessage => (t.jobs id).map fun job =>
    t.setJob id { job with status, errorMessage := errorMessage.or job.errorMessage }
  | .deleteChunks documentId ids => some { t with
    chunks := t.chunks.filter fun c => ¬ (c.documentId = documentId ∧ c.id ∈ ids) }
  | .moveChunks documentId ids collectionId => some { t with
    chunks := t.chunks.map fun c =>
      if c.documentId = documentId ∧ c.id ∈ ids then { c with collectionId } else c }
  | .moveDocument id collectionId =>
    if t.collectionExists collectionId then
      (t.documents id).map fun doc =>
        { t.setDocument id { doc with collectionId } with
          chunks := t.chunks.map fun c => if c.documentId = id then { c with collectionId } else c }
    else none
  | .deleteDocument id => some (t.removeDocuments (· = id))
  | .insertCollection row =>
    if !t.hasCollection row.id && t.collectionExists row.parentId then
      some { t with collections := t.collections ++ [row] }
    else none
  | .deleteCollection id => some (t.removeCollections (t.subtree id))

/-- A transaction takes effect as a whole, or not at all. -/
def commit (statements : List Statement) : Option RagTables :=
  statements.foldlM (fun t s => t.execute s) t

end RagTables

/-! ## Foreign keys -/

/-- Chunks and jobs are of documents there are. -/
structure RagTables.Referential (t : RagTables) : Prop where
  chunk : ∀ c ∈ t.chunks, (t.documents c.documentId).isSome
  job : ∀ id job, t.jobs id = some job → (t.documents job.documentId).isSome

namespace RagTables

variable {t t' : RagTables} {s : Statement} {ss : List Statement}

theorem Referential.removeDocuments (H : t.Referential) (gone : Uuid → Bool) :
    (t.removeDocuments gone).Referential where
  chunk c hc := by
    obtain ⟨hc, hkept⟩ := List.mem_filter.1 hc
    have hgone : gone c.documentId = false := by simpa using hkept
    simpa [RagTables.removeDocuments, hgone] using H.chunk c hc
  job id job hjob := by
    obtain ⟨hjob, hkept⟩ := Option.filter_eq_some_iff.1 hjob
    have hgone : gone job.documentId = false := by simpa using hkept
    simpa [RagTables.removeDocuments, hgone] using H.job id job hjob

theorem isSome_setDocument {id id' : Uuid} {doc : RagLiteDocument}
    (h : (t.documents id').isSome) : ((t.setDocument id doc).documents id').isSome := by
  by_cases hid : id' = id
  · simp [setDocument, hid]
  · simpa [setDocument, hid] using h

theorem Referential.setDocument (H : t.Referential) (id : Uuid) (doc : RagLiteDocument) :
    (t.setDocument id doc).Referential where
  chunk c hc := isSome_setDocument (H.chunk c hc)
  job id job hjob := isSome_setDocument (H.job id job hjob)

theorem Referential.setJob (H : t.Referential) {id : Uuid} {job : RagLiteIngestJob}
    (h : (t.documents job.documentId).isSome) : (t.setJob id job).Referential where
  chunk := H.chunk
  job id' job' hjob := by
    by_cases hid : id' = id
    · subst hid
      simp only [RagTables.setJob, Function.update_self, Option.some.injEq] at hjob
      exact hjob ▸ h
    · simp only [RagTables.setJob, Function.update_of_ne hid] at hjob
      exact H.job id' job' hjob

/-- Other columns of the chunks. -/
theorem Referential.mapChunks (H : t.Referential) {f : RagLiteChunk → RagLiteChunk}
    (hf : ∀ c, (f c).documentId = c.documentId) :
    ({ t with chunks := t.chunks.map f } : RagTables).Referential where
  chunk c hc := by
    obtain ⟨old, hold, rfl⟩ := List.mem_map.1 hc
    rw [hf]
    exact H.chunk old hold
  job := H.job

theorem Referential.execute (H : t.Referential) (h : t.execute s = some t') : t'.Referential := by
  cases s with
  | insertDocument id row =>
    obtain ⟨-, heq⟩ := Option.ite_none_right_eq_some.1 h
    cases heq
    exact H.setDocument id row
  | insertJob id row =>
    obtain ⟨hok, heq⟩ := Option.ite_none_right_eq_some.1 h
    cases heq
    exact H.setJob (Bool.and_eq_true_iff.1 hok).2
  | insertChunks rows =>
    obtain ⟨-, h⟩ := Option.ite_none_right_eq_some.1 h
    obtain ⟨hdoc, heq⟩ := Option.ite_none_right_eq_some.1 h
    cases heq
    refine ⟨fun c hc => ?_, H.job⟩
    obtain hc | hc := List.mem_append.1 hc
    · exact H.chunk c hc
    · exact List.all_eq_true.1 hdoc c hc
  | updateDocument id patch =>
    obtain ⟨doc, -, rfl⟩ := Option.map_eq_some_iff.1 h
    exact H.setDocument id _
  | updateJob id status errorMessage =>
    obtain ⟨job, hjob, rfl⟩ := Option.map_eq_some_iff.1 h
    exact H.setJob (H.job id job hjob)
  | deleteChunks documentId ids =>
    cases h
    exact ⟨fun c hc => H.chunk c (List.mem_of_mem_filter hc), H.job⟩
  | moveChunks documentId ids collectionId =>
    cases h
    apply H.mapChunks
    intro c
    split <;> rfl
  | moveDocument id collectionId =>
    obtain ⟨-, h⟩ := Option.ite_none_right_eq_some.1 h
    obtain ⟨doc, -, rfl⟩ := Option.map_eq_some_iff.1 h
    apply (H.setDocument id _).mapChunks
    intro c
    split <;> rfl
  | deleteDocument id =>
    cases h
    exact H.removeDocuments _
  | insertCollection row =>
    obtain ⟨-, heq⟩ := Option.ite_none_right_eq_some.1 h
    cases heq
    exact ⟨H.chunk, H.job⟩
  | deleteCollection id =>
    cases h
    have hrest := H.removeDocuments fun d =>
      (t.documents d).any fun doc => doc.collectionId.any (· ∈ t.subtree id)
    exact ⟨hrest.chunk, hrest.job⟩

theorem commit_cons : t.commit (s :: ss) = (t.execute s).bind fun t => t.commit ss := by
  rw [commit, List.foldlM_cons]
  rfl

theorem commit_singleton : t.commit [s] = t.execute s := by
  rw [commit_cons]
  cases t.execute s <;> rfl

theorem commit_append {ss' : List Statement} :
    t.commit (ss ++ ss') = (t.commit ss).bind fun t => t.commit ss' := by
  rw [commit, List.foldlM_append]
  rfl

theorem Referential.commit (H : t.Referential) (h : t.commit ss = some t') : t'.Referential := by
  induction ss generalizing t with
  | nil =>
    cases h
    exact H
  | cons s ss ih =>
    rw [commit_cons] at h
    obtain ⟨t₁, h₁, h⟩ := Option.bind_eq_some_iff.1 h
    exact ih (H.execute h₁) h

end RagTables

/-! ## One document and its chunks -/

/-- The chunks of a document. -/
def RagTables.chunksOf (t : RagTables) (d : Uuid) : List RagLiteChunk :=
  t.chunks.filter (·.documentId = d)

namespace Statement

/-- No statement of a session that is about documents deletes collections. -/
def isLocal : Statement → Bool
  | deleteCollection _ => false
  | _ => true

/-- What a statement makes of the row of a document. -/
def onDocument (d : Uuid) : Statement → Option RagLiteDocument → Option RagLiteDocument
  | insertDocument id row, doc => if d = id then some row else doc
  | updateDocument id patch, doc => if d = id then doc.map patch.apply else doc
  | moveDocument id collectionId, doc =>
    if d = id then doc.map fun row => { row with collectionId } else doc
  | deleteDocument id, doc => if d = id then none else doc
  | _, doc => doc

/-- What it makes of the document's chunks. -/
def onChunks (d : Uuid) : Statement → List RagLiteChunk → List RagLiteChunk
  | insertChunks rows, chunks => chunks ++ rows.filter (·.documentId = d)
  | deleteChunks documentId ids, chunks =>
    if d = documentId then chunks.filter (·.id ∉ ids) else chunks
  | moveChunks documentId ids collectionId, chunks =>
    if d = documentId then
      chunks.map fun c => if c.id ∈ ids then { c with collectionId } else c
    else chunks
  | moveDocument id collectionId, chunks =>
    if d = id then chunks.map fun c => { c with collectionId } else chunks
  | deleteDocument id, chunks => if d = id then [] else chunks
  | _, chunks => chunks

end Statement

namespace RagTables

variable {t t' : RagTables} {s : Statement} {ss : List Statement} {d : Uuid}

theorem documents_setDocument {id : Uuid} {doc : RagLiteDocument} :
    (t.setDocument id doc).documents d = if d = id then some doc else t.documents d :=
  Function.update_apply _ _ _ _

theorem documents_execute (hs : s.isLocal) (h : t.execute s = some t') :
    t'.documents d = s.onDocument d (t.documents d) := by
  cases s with
  | insertDocument id row =>
    obtain ⟨-, heq⟩ := Option.ite_none_right_eq_some.1 h
    cases heq
    exact documents_setDocument
  | insertJob id row =>
    obtain ⟨-, heq⟩ := Option.ite_none_right_eq_some.1 h
    cases heq
    rfl
  | insertChunks rows =>
    obtain ⟨-, h⟩ := Option.ite_none_right_eq_some.1 h
    obtain ⟨-, heq⟩ := Option.ite_none_right_eq_some.1 h
    cases heq
    rfl
  | updateDocument id patch =>
    obtain ⟨doc, hdoc, rfl⟩ := Option.map_eq_some_iff.1 h
    rw [documents_setDocument, Statement.onDocument]
    split
    next hid => rw [hid, hdoc]; rfl
    next => rfl
  | updateJob id status errorMessage =>
    obtain ⟨job, -, rfl⟩ := Option.map_eq_some_iff.1 h
    rfl
  | deleteChunks => cases h; rfl
  | moveChunks => cases h; rfl
  | moveDocument id collectionId =>
    obtain ⟨-, h⟩ := Option.ite_none_right_eq_some.1 h
    obtain ⟨doc, hdoc, rfl⟩ := Option.map_eq_some_iff.1 h
    refine documents_setDocument.trans ?_
    rw [Statement.onDocument]
    split
    next hid => rw [hid, hdoc]; rfl
    next => rfl
  | deleteDocument id =>
    cases h
    simp [removeDocuments, Statement.onDocument]
  | insertCollection row =>
    obtain ⟨-, heq⟩ := Option.ite_none_right_eq_some.1 h
    cases heq
    rfl
  | deleteCollection => cases hs

/-- Columns of chunks other than the document. -/
theorem chunksOf_map {f : RagLiteChunk → RagLiteChunk}
    (hf : ∀ c, (f c).documentId = c.documentId) (chunks : List RagLiteChunk) :
    (chunks.map f).filter (·.documentId = d) = (chunks.filter (·.documentId = d)).map f := by
  rw [List.filter_map]
  congr 2
  funext c
  simp [hf]

theorem map_eq_self {f : RagLiteChunk → RagLiteChunk} {chunks : List RagLiteChunk}
    (h : ∀ c ∈ chunks, f c = c) : chunks.map f = chunks :=
  (List.map_congr_left h).trans (List.map_id chunks)

theorem chunksOf_execute (hs : s.isLocal) (h : t.execute s = some t') :
    t'.chunksOf d = s.onChunks d (t.chunksOf d) := by
  cases s with
  | insertDocument id row =>
    obtain ⟨-, heq⟩ := Option.ite_none_right_eq_some.1 h
    cases heq
    rfl
  | insertJob id row =>
    obtain ⟨-, heq⟩ := Option.ite_none_right_eq_some.1 h
    cases heq
    rfl
  | insertChunks rows =>
    obtain ⟨-, h⟩ := Option.ite_none_right_eq_some.1 h
    obtain ⟨-, heq⟩ := Option.ite_none_right_eq_some.1 h
    cases heq
    exact List.filter_append _ _
  | updateDocument id patch =>
    obtain ⟨doc, -, rfl⟩ := Option.map_eq_some_iff.1 h
    rfl
  | updateJob id status errorMessage =>
    obtain ⟨job, -, rfl⟩ := Option.map_eq_some_iff.1 h
    rfl
  | deleteChunks documentId ids =>
    cases h
    rw [chunksOf, chunksOf, Statement.onChunks, List.filter_filter]
    split
    next hd =>
      rw [List.filter_filter]
      apply List.filter_congr
      intro c _
      by_cases hc : c.documentId = d
      · simp [hc, hd]
      · simp [hc]
    next hd =>
      apply List.filter_congr
      intro c _
      by_cases hc : c.documentId = d
      · simp [hc, hd]
      · simp [hc]
  | moveChunks documentId ids collectionId =>
    cases h
    rw [chunksOf, chunksOf, Statement.onChunks, chunksOf_map (by intro c; split <;> rfl)]
    split
    next hd =>
      apply List.map_congr_left
      intro c hc
      rw [← hd, of_decide_eq_true (List.mem_filter.1 hc).2]
      simp only [true_and]
    next hd =>
      apply map_eq_self
      intro c hc
      rw [of_decide_eq_true (List.mem_filter.1 hc).2, if_neg fun hand => hd hand.1]
  | moveDocument id collectionId =>
    obtain ⟨-, h⟩ := Option.ite_none_right_eq_some.1 h
    obtain ⟨doc, -, rfl⟩ := Option.map_eq_some_iff.1 h
    rw [chunksOf, chunksOf, Statement.onChunks, chunksOf_map (by intro c; split <;> rfl)]
    split
    next hd =>
      apply List.map_congr_left
      intro c hc
      rw [of_decide_eq_true (List.mem_filter.1 hc).2, if_pos hd]
    next hd =>
      apply map_eq_self
      intro c hc
      rw [of_decide_eq_true (List.mem_filter.1 hc).2, if_neg hd]
  | deleteDocument id =>
    cases h
    rw [chunksOf, chunksOf, Statement.onChunks, removeDocuments, List.filter_filter]
    split
    next hd =>
      apply List.filter_eq_nil_iff.2
      intro c _
      by_cases hc : c.documentId = d
      · simp [hc, hd]
      · simp [hc]
    next hd =>
      apply List.filter_congr
      intro c _
      by_cases hc : c.documentId = d
      · simp [hc, hd]
      · simp [hc]
  | insertCollection row =>
    obtain ⟨-, heq⟩ := Option.ite_none_right_eq_some.1 h
    cases heq
    rfl
  | deleteCollection => cases hs

/-- What a transaction makes of the row of a document. -/
theorem documents_commit (hs : ∀ s ∈ ss, s.isLocal) (h : t.commit ss = some t') :
    t'.documents d = ss.foldl (fun doc s => s.onDocument d doc) (t.documents d) := by
  induction ss generalizing t with
  | nil =>
    cases h
    rfl
  | cons s ss ih =>
    rw [commit_cons] at h
    obtain ⟨t₁, h₁, h⟩ := Option.bind_eq_some_iff.1 h
    rw [List.foldl_cons, ← documents_execute (hs s List.mem_cons_self) h₁]
    exact ih (fun s hmem => hs s (List.mem_cons_of_mem _ hmem)) h

theorem chunksOf_commit (hs : ∀ s ∈ ss, s.isLocal) (h : t.commit ss = some t') :
    t'.chunksOf d = ss.foldl (fun chunks s => s.onChunks d chunks) (t.chunksOf d) := by
  induction ss generalizing t with
  | nil =>
    cases h
    rfl
  | cons s ss ih =>
    rw [commit_cons] at h
    obtain ⟨t₁, h₁, h⟩ := Option.bind_eq_some_iff.1 h
    rw [List.foldl_cons, ← chunksOf_execute (hs s List.mem_cons_self) h₁]
    exact ih (fun s hmem => hs s (List.mem_cons_of_mem _ hmem)) h

end RagTables

/-! ## Transactions about one document -/

/-- The statement is about no other document, and deletes no collection. -/
def Statement.concerns (id : Uuid) : Statement → Bool
  | insertDocument id' _ | updateDocument id' _ | deleteChunks id' _ | moveChunks id' _ _
  | moveDocument id' _ | deleteDocument id' => id' = id
  | insertChunks rows => rows.all (·.documentId = id)
  | insertJob _ _ | updateJob _ _ _ | insertCollection _ => true
  | deleteCollection _ => false

theorem Statement.isLocal_of_concerns {s : Statement} {id : Uuid} (h : s.concerns id) :
    s.isLocal := by
  cases s with
  | deleteCollection => cases h
  | _ => rfl

theorem Statement.onDocument_of_concerns {s : Statement} {id d : Uuid} (h : s.concerns id)
    (hd : d ≠ id) (doc : Option RagLiteDocument) : s.onDocument d doc = doc := by
  cases s with
  | insertDocument id' row => exact if_neg (of_decide_eq_true h ▸ hd)
  | updateDocument id' patch => exact if_neg (of_decide_eq_true h ▸ hd)
  | moveDocument id' collectionId => exact if_neg (of_decide_eq_true h ▸ hd)
  | deleteDocument id' => exact if_neg (of_decide_eq_true h ▸ hd)
  | _ => rfl

theorem Statement.onChunks_of_concerns {s : Statement} {id d : Uuid} (h : s.concerns id)
    (hd : d ≠ id) (chunks : List RagLiteChunk) : s.onChunks d chunks = chunks := by
  cases s with
  | insertChunks rows =>
    have hnil : rows.filter (·.documentId = d) = [] := by
      apply List.filter_eq_nil_iff.2
      intro c hc hcd
      have hid := of_decide_eq_true (List.all_eq_true.1 h c hc)
      exact hd ((of_decide_eq_true hcd).symm.trans hid)
    rw [onChunks, hnil, List.append_nil]
  | deleteChunks id' ids => exact if_neg (of_decide_eq_true h ▸ hd)
  | moveChunks id' ids collectionId => exact if_neg (of_decide_eq_true h ▸ hd)
  | moveDocument id' collectionId => exact if_neg (of_decide_eq_true h ▸ hd)
  | deleteDocument id' => exact if_neg (of_decide_eq_true h ▸ hd)
  | _ => rfl

namespace RagTables

variable {t t' : RagTables} {ss : List Statement} {d id : Uuid}

/-- A transaction about one document leaves the others alone. -/
theorem commit_other (hs : ∀ s ∈ ss, s.concerns id) (h : t.commit ss = some t') (hd : d ≠ id) :
    t'.documents d = t.documents d ∧ t'.chunksOf d = t.chunksOf d := by
  have hlocal : ∀ s ∈ ss, s.isLocal := fun s hmem => Statement.isLocal_of_concerns (hs s hmem)
  rw [documents_commit hlocal h, chunksOf_commit hlocal h]
  generalize t.documents d = doc
  generalize t.chunksOf d = chunks
  clear h hlocal
  induction ss generalizing doc chunks with
  | nil => exact ⟨rfl, rfl⟩
  | cons s ss ih =>
    have hhead := hs s List.mem_cons_self
    rw [List.foldl_cons, List.foldl_cons, Statement.onDocument_of_concerns hhead hd,
      Statement.onChunks_of_concerns hhead hd]
    exact ih (fun s hmem => hs s (List.mem_cons_of_mem _ hmem)) doc chunks

/-- What is no document has no chunks. -/
theorem Referential.chunksOf_eq_nil (H : t.Referential) (hd : t.documents d = none) :
    t.chunksOf d = [] := by
  apply List.filter_eq_nil_iff.2
  intro c hc hcd
  have hsome := H.chunk c hc
  rw [of_decide_eq_true hcd, hd] at hsome
  cases hsome

/-- What holds of every document and its chunks. -/
def EveryDocument (P : RagLiteDocument → List RagLiteChunk → Prop) (t : RagTables) : Prop :=
  ∀ d doc, t.documents d = some doc → P doc (t.chunksOf d)

variable {P : RagLiteDocument → List RagLiteChunk → Prop}

/-- After a transaction about one document, this one is to be looked at. -/
theorem EveryDocument.of_commit (H : t.EveryDocument P) (hs : ∀ s ∈ ss, s.concerns id)
    (h : t.commit ss = some t') (hid : ∀ doc, t'.documents id = some doc → P doc (t'.chunksOf id)) :
    t'.EveryDocument P := by
  intro d doc hdoc
  by_cases hd : d = id
  · subst hd
    exact hid doc hdoc
  · obtain ⟨hdocs, hchunks⟩ := commit_other hs h hd
    rw [hchunks]
    exact H d doc (hdocs ▸ hdoc)

theorem EveryDocument.removeDocuments (H : t.EveryDocument P) (gone : Uuid → Bool) :
    (t.removeDocuments gone).EveryDocument P := by
  intro d doc hdoc
  obtain ⟨hkept, hdoc⟩ := Option.ite_none_left_eq_some.1 hdoc
  have hchunks : (t.removeDocuments gone).chunksOf d = t.chunksOf d := by
    rw [chunksOf, RagTables.removeDocuments, List.filter_filter]
    apply List.filter_congr
    intro c _
    by_cases hc : c.documentId = d
    · simp [hc, hkept]
    · simp [hc]
  rw [hchunks]
  exact H d doc hdoc

end RagTables

end LlmPort.Backend.RagLite
