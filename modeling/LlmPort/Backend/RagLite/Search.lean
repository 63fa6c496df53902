import LlmPort.Backend.RagLite.Ingest

/-!
# Scoped search

`search_similar` filters chunks by a collection that is copied from their document. It stays in
scope as long as every worker commits chunks with the collection that their document is in by
then, and every move that found the document where it is to go still finds it there.
-/

namespace LlmPort.Backend.RagLite

open NodeControl Transition

variable {cfg : ChunkerConfig} {sys : IngestSystem} {e : IngestEvent} {t t' : RagTables} {d : Uuid}

/-! ## The query -/

structure SearchRow where
  chunkId : Uuid
  chunkText : RagText
  chunkIndex : Nat
  documentId : Uuid
  filename : RagText

/-- `if collection_ids:` adds the filter. -/
def inCollections : Option (List Uuid) → RagLiteChunk → Bool
  | none, _ => true
  | some ids, c => ids = [] || c.collectionId.any (· ∈ ids)

def searchRow (c : RagLiteChunk) (doc : RagLiteDocument) : SearchRow where
  chunkId := c.id
  chunkText := c.chunkText
  chunkIndex := c.chunkIndex
  documentId := c.documentId
  filename := doc.filename

/-- The chunks that pass the filter, with their documents. -/
def RagTables.joined (t : RagTables) (collectionIds : Option (List Uuid)) :
    List (RagLiteChunk × RagLiteDocument) :=
  (t.chunks.filter (inCollections collectionIds)).filterMap fun c =>
    (t.documents c.documentId).map (c, ·)

/-- `closer` compares the distances of two chunks to the query. -/
def RagTables.searchSimilar (closer : RagLiteChunk → RagLiteChunk → Bool) (t : RagTables)
    (topK : Nat) (collectionIds : Option (List Uuid)) : List SearchRow :=
  (((t.joined collectionIds).mergeSort fun x y => closer x.1 y.1).take topK).map fun x =>
    searchRow x.1 x.2

/-- The documents of the rows are in the collections. -/
def InScope (t : RagTables) (collectionIds : List Uuid) (rows : List SearchRow) : Prop :=
  ∀ row ∈ rows, ∃ doc id, t.documents row.documentId = some doc ∧ doc.collectionId = some id ∧
    id ∈ collectionIds

/-- Each chunk has the collection of its document. -/
def Scoped (t : RagTables) : Prop :=
  t.EveryDocument fun doc chunks => ∀ c ∈ chunks, c.collectionId = doc.collectionId

section
variable {closer : RagLiteChunk → RagLiteChunk → Bool} {topK : Nat}

theorem mem_joined {collectionIds : Option (List Uuid)} {x : RagLiteChunk × RagLiteDocument} :
    x ∈ t.joined collectionIds ↔ x.1 ∈ t.chunks ∧ inCollections collectionIds x.1 ∧
      t.documents x.1.documentId = some x.2 := by
  rw [RagTables.joined, List.mem_filterMap]
  constructor
  · rintro ⟨c, hc, hx⟩
    obtain ⟨hmem, hin⟩ := List.mem_filter.1 hc
    obtain ⟨doc, hdoc, rfl⟩ := Option.map_eq_some_iff.1 hx
    exact ⟨hmem, hin, hdoc⟩
  · rintro ⟨hmem, hin, hdoc⟩
    exact ⟨x.1, List.mem_filter.2 ⟨hmem, hin⟩, by rw [hdoc]; rfl⟩

theorem inScope_of_scoped (H : Scoped t) {collectionIds : List Uuid} (hne : collectionIds ≠ []) :
    InScope t collectionIds (t.searchSimilar closer topK (some collectionIds)) := by
  intro row hrow
  obtain ⟨x, hx, rfl⟩ := List.mem_map.1 hrow
  obtain ⟨hmem, hin, hdoc⟩ := mem_joined.1 (List.mem_mergeSort.1 (List.mem_of_mem_take hx))
  have hsame : x.1.collectionId = x.2.collectionId :=
    H _ x.2 hdoc x.1 (List.mem_filter.2 ⟨hmem, decide_eq_true rfl⟩)
  rw [inCollections, decide_eq_false hne, Bool.false_or] at hin
  obtain ⟨id, hid, hids⟩ := (Option.any_eq_true _ _).1 hin
  exact ⟨x.2, id, hdoc, hsame.symm.trans hid, of_decide_eq_true hids⟩

/-- An empty list returns chunks of every collection. -/
theorem inScope_nil_iff (href : t.Referential) :
    InScope t [] (t.searchSimilar closer topK (some [])) ↔ topK = 0 ∨ t.chunks = [] := by
  have hnil : InScope t [] (t.searchSimilar closer topK (some [])) ↔
      t.searchSimilar closer topK (some []) = [] := by
    constructor
    · intro h
      apply List.eq_nil_iff_forall_not_mem.2
      intro row hrow
      obtain ⟨doc, id, -, -, hid⟩ := h row hrow
      cases hid
    · intro h row hrow
      rw [h] at hrow
      cases hrow
  have hjoined : t.joined (some []) = [] ↔ t.chunks = [] := by
    constructor
    · intro h
      apply List.eq_nil_iff_forall_not_mem.2
      intro c hc
      obtain ⟨doc, hdoc⟩ := Option.isSome_iff_exists.1 (href.chunk c hc)
      have hmem : (c, doc) ∈ t.joined (some []) := mem_joined.2 ⟨hc, rfl, hdoc⟩
      rw [h] at hmem
      cases hmem
    · intro h
      rw [RagTables.joined, h]
      rfl
  rw [hnil, RagTables.searchSimilar, List.map_eq_nil_iff, List.take_eq_nil_iff, ← hjoined,
    ← List.length_eq_zero_iff, List.length_mergeSort, List.length_eq_zero_iff]

end

/-! ## Steps -/

/-- The step keeps chunks in scope: a worker adds none with another collection than the document
has by now, and a move that found the document in place does not take chunks elsewhere. -/
def KeepsScope (cfg : ChunkerConfig) (sys : IngestSystem) : IngestEvent → Prop
  | .worker i .proceed => ∀ w seen found collectionId text vectors ids doc,
    sys.workers[i]? = some w →
    w.point = .committing seen found (.ingested collectionId text vectors ids) →
    (sys.db.commit (IngestWorker.statements cfg w.task seen found
      (.ingested collectionId text vectors ids))).isSome →
    sys.db.documents w.task.documentId = some doc →
    collectionId = doc.collectionId ∨ (chunkText cfg text).take vectors = []
  | .moving i .proceed => ∀ m ids doc, sys.moves[i]? = some m → m.point = .updated ids →
    sys.db.documents m.documentId = some doc →
    m.collectionId = doc.collectionId ∨ ∀ c ∈ sys.db.chunksOf m.documentId, c.id ∉ ids
  | _ => True

theorem scoped_append_iff {task : IngestTask} {collectionId target : Option Uuid} {text : RagText}
    {vectors : Nat} {ids : Nat → Uuid} {chunks : List RagLiteChunk}
    (H : ∀ c ∈ chunks, c.collectionId = target) :
    (∀ c ∈ chunks ++ chunkRecords cfg task collectionId text vectors ids,
      c.collectionId = target) ↔
        collectionId = target ∨ (chunkText cfg text).take vectors = [] := by
  constructor
  · intro h
    cases htake : (chunkText cfg text).take vectors with
    | nil => exact .inr rfl
    | cons chunk rest =>
      have hmem : { id := ids 0, documentId := task.documentId, collectionId
                    chunkIndex := chunk.index, chunkText := chunk.text } ∈
          chunkRecords cfg task collectionId text vectors ids := by
        rw [chunkRecords, htake]
        exact List.mem_cons_self
      exact .inl (h _ (List.mem_append_right _ hmem))
  · intro h c hc
    obtain hc | hc := List.mem_append.1 hc
    · exact H c hc
    · obtain ⟨⟨chunk, i⟩, hmem, rfl⟩ := List.mem_map.1 hc
      obtain heq | hnil := h
      · exact heq
      · rw [hnil] at hmem
        cases hmem

theorem scoped_moveChunks_iff {ids : List Uuid} {collectionId target : Option Uuid}
    {chunks : List RagLiteChunk} (H : ∀ c ∈ chunks, c.collectionId = target) :
    (∀ c ∈ chunks.map fun c => if c.id ∈ ids then { c with collectionId } else c,
      c.collectionId = target) ↔ collectionId = target ∨ ∀ c ∈ chunks, c.id ∉ ids := by
  constructor
  · intro h
    by_contra hno
    obtain ⟨hne, hmoved⟩ := not_or.1 hno
    obtain ⟨c, hc, hid⟩ : ∃ c ∈ chunks, c.id ∈ ids := by simpa using hmoved
    have hc' := h _ (List.mem_map_of_mem hc)
    rw [if_pos hid] at hc'
    exact hne hc'
  · intro h c' hc'
    obtain ⟨c, hc, rfl⟩ := List.mem_map.1 hc'
    split
    next hid => exact h.resolve_right fun hnone => hnone c hc hid
    next => exact H c hc

theorem Scoped.of_status {ss : List Statement} {id : Uuid} (H : Scoped t)
    (hs : ∀ s ∈ ss, s.concerns id) (h : t.commit ss = some t')
    (hdocs : t'.documents id = t.documents id ∨ ∃ status ≠ RagLiteDocumentStatus.ready,
      t'.documents id = (t.documents id).map fun doc => { doc with status })
    (hchunks : t'.chunksOf id = t.chunksOf id) : Scoped t' := by
  apply RagTables.EveryDocument.of_commit H hs h
  intro doc hdoc
  rw [hchunks]
  obtain heq | ⟨status, -, heq⟩ := hdocs
  · exact H id doc (heq ▸ hdoc)
  · rw [heq] at hdoc
    obtain ⟨old, hold, rfl⟩ := Option.map_eq_some_iff.1 hdoc
    exact H id old hold

/-- An upload finds no document. -/
theorem none_of_commit_upload {task : IngestTask} {collectionId : Option Uuid}
    {filename key : RagText}
    (h : t.commit ((Preparation.upload collectionId filename key).statements task) = some t') :
    t.documents task.documentId = none := by
  rw [Preparation.statements, RagTables.commit_cons] at h
  obtain ⟨t₁, h₁, -⟩ := Option.bind_eq_some_iff.1 h
  obtain ⟨hok, -⟩ := Option.ite_none_right_eq_some.1 h₁
  exact Option.isNone_iff_eq_none.1 (Bool.and_eq_true_iff.1 hok).1

theorem Scoped.step (H : Scoped sys.db) (href : sys.db.Referential) (hok : KeepsScope cfg sys e) :
    Scoped (sys.step cfg e).db := by
  obtain heq | ⟨ss, hcommits, h⟩ := step_db cfg sys e
  · rw [heq]
    exact H
  generalize (sys.step cfg e).db = t' at h
  cases hcommits with
  | @request i r prep hr hpoint =>
    apply RagTables.EveryDocument.of_commit H prep.concerns h
    intro doc hdoc
    cases prep with
    | upload collectionId filename key =>
      rw [(Preparation.commit_upload h).2, href.chunksOf_eq_nil (none_of_commit_upload h)]
      exact nofun
    | retry loaded ids =>
      obtain ⟨hdocs, hchunks⟩ := Preparation.commit_retry h
      rw [hdocs] at hdoc
      obtain ⟨old, hold, rfl⟩ := Option.map_eq_some_iff.1 hdoc
      intro c hc
      rw [hchunks] at hc
      exact H _ old hold c (List.mem_of_mem_filter hc)
  | @moved i m collectionId hm hpoint hne =>
    have hs : ∀ s ∈ [Statement.moveDocument m.documentId m.collectionId],
        s.concerns m.documentId := by simp [Statement.concerns]
    apply RagTables.EveryDocument.of_commit H hs h
    intro doc hdoc c hc
    rw [RagTables.commit_singleton] at h
    rw [RagTables.documents_execute rfl h, Statement.onDocument, if_pos rfl] at hdoc
    obtain ⟨old, hold, rfl⟩ := Option.map_eq_some_iff.1 hdoc
    rw [RagTables.chunksOf_execute rfl h, Statement.onChunks, if_pos rfl] at hc
    obtain ⟨c, -, rfl⟩ := List.mem_map.1 hc
    rfl
  | @updated i m ids hm hpoint =>
    have hs : ∀ s ∈ [Statement.moveChunks m.documentId ids m.collectionId],
        s.concerns m.documentId := by simp [Statement.concerns]
    apply RagTables.EveryDocument.of_commit H hs h
    intro doc hdoc
    rw [RagTables.commit_singleton] at h
    rw [RagTables.documents_execute rfl h] at hdoc
    rw [RagTables.chunksOf_execute rfl h, Statement.onChunks, if_pos rfl]
    exact (scoped_moveChunks_iff (H _ doc hdoc)).2 (hok m ids doc hm hpoint hdoc)
  | deleteDocument =>
    rw [RagTables.commit_singleton] at h
    cases h
    exact RagTables.EveryDocument.removeDocuments H _
  | createCollection =>
    rw [RagTables.commit_singleton] at h
    obtain ⟨-, heq⟩ := Option.ite_none_right_eq_some.1 h
    cases heq
    exact H
  | deleteCollection =>
    rw [RagTables.commit_singleton] at h
    cases h
    exact RagTables.EveryDocument.removeDocuments H _
  | @result i w seen found result hw hpoint =>
    have hs := @IngestWorker.concerns_statements cfg w.task seen found result
    cases result with
    | ingested collectionId text vectors ids =>
      apply RagTables.EveryDocument.of_commit H hs h
      obtain ⟨hdocs, hchunks⟩ := commit_ingested h
      intro doc hdoc
      rw [hdocs] at hdoc
      obtain ⟨old, hold, rfl⟩ := Option.map_eq_some_iff.1 hdoc
      rw [hchunks]
      apply (scoped_append_iff (H _ old hold)).2
      exact hok w seen found collectionId text vectors ids old hw hpoint (h ▸ rfl) hold
    | notFound =>
      obtain ⟨hdocs, hchunks⟩ := commit_notIngested (fun _ _ _ _ heq => by cases heq) h
      exact H.of_status hs h hdocs hchunks
    | failed message =>
      obtain ⟨hdocs, hchunks⟩ := commit_notIngested (fun _ _ _ _ heq => by cases heq) h
      exact H.of_status hs h hdocs hchunks
  | error hw hpoint =>
    obtain ⟨hdocs, hchunks⟩ := commit_errorStatements h
    exact H.of_status (concerns_errorStatements _ _ _) h hdocs hchunks

theorem keepsScope_of_scoped (H : Scoped sys.db) (h : Scoped (sys.step cfg e).db) :
    KeepsScope cfg sys e := by
  cases e with
  | worker i e =>
    cases e with
    | proceed =>
      intro w seen found collectionId text vectors ids doc hw hpoint hsome hdoc
      obtain ⟨t', ht'⟩ := Option.isSome_iff_exists.1 hsome
      have hdb := db_committing hw hpoint ht'
      obtain ⟨hdocs, hchunks⟩ := commit_ingested ht'
      rw [hdoc, Option.map_some] at hdocs
      have hscoped := h w.task.documentId _ (hdb ▸ hdocs)
      rw [hdb, hchunks] at hscoped
      exact (scoped_append_iff (H _ doc hdoc)).1 hscoped
    | _ => trivial
  | moving i e =>
    cases e with
    | proceed =>
      intro m ids doc hm hpoint hdoc
      obtain ⟨t', ht'⟩ := Option.isSome_iff_exists.1
        (rfl : (sys.db.execute (.moveChunks m.documentId ids m.collectionId)).isSome)
      have hdb : (sys.step cfg (.moving i .proceed)).db = t' := by
        simp [IngestSystem.step, IngestSystem.onMove, hm, MoveRequest.step, hpoint,
          MoveRequest.commit, RagTables.commit_singleton, ht']
      have hdoc' : t'.documents m.documentId = some doc :=
        (RagTables.documents_execute rfl ht').trans hdoc
      have hscoped := h m.documentId doc (hdb ▸ hdoc')
      rw [hdb, RagTables.chunksOf_execute rfl ht', Statement.onChunks, if_pos rfl] at hscoped
      exact (scoped_moveChunks_iff (H _ doc hdoc)).1 hscoped
    | fail => trivial
  | _ => trivial

/-! ## Runs -/

/-- A search stays in scope, and chunks all along the run, exactly where every step keeps them so
and the list is not empty or there is nothing to return. -/
theorem scoped_search_iff (cfg : ChunkerConfig) (collections : List RagLiteCollection)
    (es : List IngestEvent) (closer : RagLiteChunk → RagLiteChunk → Bool) (topK : Nat)
    (collectionIds : List Uuid) :
    (Always (IngestSystem.step cfg) (fun sys => Scoped sys.db) (.start collections) es ∧
      InScope (run (IngestSystem.step cfg) (.start collections) es).db collectionIds
        ((run (IngestSystem.step cfg) (.start collections) es).db.searchSimilar closer topK
          (some collectionIds))) ↔
    Guarded (IngestSystem.step cfg) (KeepsScope cfg) (.start collections) es ∧
      (collectionIds ≠ [] ∨ topK = 0 ∨
        (run (IngestSystem.step cfg) (.start collections) es).db.chunks = []) := by
  rw [← always_db_iff_guarded (fun _ _ href H hok => H.step href hok)
    (fun _ _ _ H h => keepsScope_of_scoped H h) nofun es]
  apply and_congr_right
  intro H
  have hscoped : Scoped (run (IngestSystem.step cfg) (.start collections) es).db :=
    H es (List.prefix_refl es)
  have href := referential_run cfg collections es
  by_cases hnil : collectionIds = []
  · subst hnil
    rw [inScope_nil_iff href]
    exact (or_iff_right fun hne => hne rfl).symm
  · exact iff_of_true (inScope_of_scoped hscoped hnil) (.inl hnil)

/-- A document that moves from the collection 1 to 2 while its worker processes it. The worker
looked for it before the upload had committed, so that it does not hold the row. -/
def movedWhileProcessed : List IngestEvent :=
  [.upload ⟨5, 6⟩ (some 1) "a.txt".toList "k".toList, .request 0 .proceed, .consume 0,
    .worker 0 .proceed, .worker 0 .proceed, .worker 0 .proceed, .request 0 .proceed,
    .worker 0 .proceed, .worker 0 .proceed, .move 5 (some 2), .moving 0 .proceed,
    .worker 0 (.finish (.embedded ['a'] 1 fun _ => 8)), .worker 0 .proceed]

/-- A search of the collection 1 finds it. -/
theorem not_inScope_movedWhileProcessed :
    ¬ InScope (run (IngestSystem.step {}) (.start [⟨1, none⟩, ⟨2, none⟩]) movedWhileProcessed).db
      [1] ((run (IngestSystem.step {}) (.start [⟨1, none⟩, ⟨2, none⟩])
        movedWhileProcessed).db.searchSimilar (fun _ _ => true) 5 (some [1])) := by
  generalize hsys : run (IngestSystem.step {}) (.start [⟨1, none⟩, ⟨2, none⟩]) movedWhileProcessed =
    sys
  have hmoved : (sys.db.documents 5).map (·.collectionId) = some (some 2) := by
    rw [← hsys]
    decide +kernel
  have hfound : (sys.db.searchSimilar (fun _ _ => true) 5 (some [1])).map (·.documentId) = [5] := by
    rw [← hsys]
    decide +kernel
  intro h
  obtain ⟨row, hrow, hid⟩ := List.mem_map.1 (hfound ▸ List.mem_singleton_self (5 : Uuid))
  obtain ⟨doc, id, hdoc, hcollection, hids⟩ := h row hrow
  rw [hid] at hdoc
  rw [hdoc, Option.map_some, hcollection] at hmoved
  cases List.mem_singleton.1 hids
  cases hmoved

end LlmPort.Backend.RagLite
