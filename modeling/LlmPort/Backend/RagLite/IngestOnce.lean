import LlmPort.Backend.RagLite.Ingest
import LlmPort.Transition.Participants

/-!
# Documents ingested once

A document that is ready has the chunks of its text, each once, exactly as long as every worker
that commits chunks finds none and has a vector for each window, and no retry that read a pending
document takes the chunks of one that has become ready since.
-/

namespace LlmPort.Backend.RagLite

open NodeControl Transition

variable {cfg : ChunkerConfig} {sys : IngestSystem} {e : IngestEvent} {t t' : RagTables} {d : Uuid}

def RagLiteChunk.toChunk (c : RagLiteChunk) : Chunk := ⟨c.chunkIndex, c.chunkText⟩

/-- Where a document is ready, its rows are the chunks of its text. -/
def Ingested (cfg : ChunkerConfig) (doc : RagLiteDocument) (chunks : List RagLiteChunk) : Prop :=
  doc.status = .ready → ∃ text, doc.contentText = some text ∧
    (chunks.map (·.toChunk)).Perm (chunkText cfg text) ∧ doc.chunkCount = chunks.length

def AllIngested (cfg : ChunkerConfig) (t : RagTables) : Prop := t.EveryDocument (Ingested cfg)

/-- The step keeps ready documents ingested: chunks are committed for a document without any and
with all windows of the text, and a retry that leaves the status of a document that is ready takes
none of its chunks. -/
def KeepsIngested (cfg : ChunkerConfig) (sys : IngestSystem) : IngestEvent → Prop
  | .worker i .proceed => ∀ w seen found collectionId text vectors ids,
    sys.workers[i]? = some w →
    w.point = .committing seen found (.ingested collectionId text vectors ids) →
    (sys.db.commit (IngestWorker.statements cfg w.task seen found
      (.ingested collectionId text vectors ids))).isSome →
    sys.db.chunksOf w.task.documentId = [] ∧ (chunkText cfg text).length ≤ vectors
  | .request i .proceed => ∀ r loaded ids doc, sys.requests[i]? = some r →
    r.point = .dispatched (.retry loaded ids) → loaded.status = .pending →
    (sys.db.commit ((Preparation.retry loaded ids).statements r.task)).isSome →
    sys.db.documents r.task.documentId = some doc → doc.status = .ready →
    (∀ c ∈ sys.db.chunksOf r.task.documentId, c.id ∉ ids) ∧
      (loaded.chunkCount = 0 ∨ sys.db.chunksOf r.task.documentId = [])
  | _ => True

/-! ## Transactions -/

/-- Only these columns count. -/
theorem Ingested.of_columns {doc doc' : RagLiteDocument} {chunks chunks' : List RagLiteChunk}
    (H : Ingested cfg doc chunks) (hstatus : doc'.status = doc.status)
    (htext : doc'.contentText = doc.contentText) (hcount : doc'.chunkCount = doc.chunkCount)
    (hchunks : chunks'.map (·.toChunk) = chunks.map (·.toChunk)) : Ingested cfg doc' chunks' := by
  have hlength : chunks'.length = chunks.length := by
    rw [← List.length_map (·.toChunk), hchunks, List.length_map]
  intro hready
  rw [htext, hcount, hchunks, hlength]
  exact H (hstatus ▸ hready)

/-- A status other than ready asks for nothing. -/
theorem AllIngested.of_status {ss : List Statement} {id : Uuid} (H : AllIngested cfg t)
    (hs : ∀ s ∈ ss, s.concerns id) (h : t.commit ss = some t')
    (hdocs : t'.documents id = t.documents id ∨ ∃ status ≠ RagLiteDocumentStatus.ready,
      t'.documents id = (t.documents id).map fun doc => { doc with status })
    (hchunks : t'.chunksOf id = t.chunksOf id) : AllIngested cfg t' := by
  apply RagTables.EveryDocument.of_commit H hs h
  intro doc hdoc
  obtain heq | ⟨status, hne, heq⟩ := hdocs
  · rw [hchunks]
    exact H id doc (heq ▸ hdoc)
  · rw [heq] at hdoc
    obtain ⟨old, -, rfl⟩ := Option.map_eq_some_iff.1 hdoc
    exact fun hready => absurd hready hne

theorem toChunk_chunkRecords {task : IngestTask} {collectionId : Option Uuid} {text : RagText}
    {vectors : Nat} {ids : Nat → Uuid} :
    (chunkRecords cfg task collectionId text vectors ids).map (·.toChunk) =
      (chunkText cfg text).take vectors := by
  rw [chunkRecords, List.map_map]
  exact List.zipIdx_map_fst 0 _

/-- Chunks that a worker commits are those of the text where they are all there are. -/
theorem ingested_append_iff {task : IngestTask} {collectionId : Option Uuid} {text : RagText}
    {vectors : Nat} {ids : Nat → Uuid} {doc : RagLiteDocument} {chunks : List RagLiteChunk}
    (hready : doc.status = .ready) (htext : doc.contentText = some text)
    (hcount : doc.chunkCount = (chunkRecords cfg task collectionId text vectors ids).length) :
    Ingested cfg doc (chunks ++ chunkRecords cfg task collectionId text vectors ids) ↔
      chunks = [] ∧ (chunkText cfg text).length ≤ vectors := by
  have hrecords := @toChunk_chunkRecords cfg task collectionId text vectors ids
  constructor
  · intro h
    obtain ⟨text', htext', hperm, hlength⟩ := h hready
    cases htext.symm.trans htext'
    have hnil : chunks = [] := by
      rw [hcount, List.length_append] at hlength
      apply List.eq_nil_of_length_eq_zero
      omega
    subst hnil
    rw [List.nil_append, hrecords] at hperm
    have hlen := hperm.length_eq
    rw [List.length_take] at hlen
    exact ⟨rfl, by omega⟩
  · rintro ⟨rfl, hvectors⟩ -
    refine ⟨text, htext, ?_, hcount⟩
    rw [List.nil_append, hrecords, List.take_of_length_le hvectors]

/-- A retry that read a pending document leaves the status. -/
theorem ingested_retry_iff {loaded doc : RagLiteDocument} {ids : List Uuid}
    {chunks : List RagLiteChunk} (hloaded : loaded.status = .pending) (hready : doc.status = .ready)
    (h : Ingested cfg doc chunks) :
    Ingested cfg ((resetPatch loaded).apply doc) (chunks.filter (·.id ∉ ids)) ↔
      (∀ c ∈ chunks, c.id ∉ ids) ∧ (loaded.chunkCount = 0 ∨ chunks = []) := by
  obtain ⟨text, htext, hperm, hcount⟩ := h hready
  have hstatus : ((resetPatch loaded).apply doc).status = .ready := by
    simp [resetPatch, DocumentPatch.apply, hloaded, hready]
  have hcontent : ((resetPatch loaded).apply doc).contentText = some text := htext
  have hreset : ((resetPatch loaded).apply doc).chunkCount =
      if loaded.chunkCount = 0 then doc.chunkCount else 0 := by
    by_cases hzero : loaded.chunkCount = 0 <;> simp [resetPatch, DocumentPatch.apply, hzero]
  constructor
  · intro h'
    obtain ⟨text', htext', hperm', hcount'⟩ := h' hstatus
    cases hcontent.symm.trans htext'
    have hlen := hperm'.length_eq.trans hperm.length_eq.symm
    rw [List.length_map, List.length_map] at hlen
    have hall := List.length_filter_eq_length_iff.1 hlen
    refine ⟨fun c hc => of_decide_eq_true (hall c hc), ?_⟩
    rw [hreset, hlen] at hcount'
    split at hcount'
    next hzero => exact .inl hzero
    next => exact .inr (List.eq_nil_of_length_eq_zero hcount'.symm)
  · rintro ⟨hids, hzero⟩ -
    have hall : chunks.filter (·.id ∉ ids) = chunks :=
      List.filter_eq_self.2 fun c hc => decide_eq_true (hids c hc)
    refine ⟨text, hcontent, hall.symm ▸ hperm, ?_⟩
    rw [hreset, hall]
    split
    next => exact hcount
    next hne =>
      rw [hzero.resolve_left hne]
      rfl

/-- A transaction that adds chunks found the document. -/
theorem exists_of_commit_ingested {task : IngestTask} {seen : Seen} {found : Bool}
    {collectionId : Option Uuid} {text : RagText} {vectors : Nat} {ids : Nat → Uuid}
    (h : t.commit (IngestWorker.statements cfg task seen found
      (.ingested collectionId text vectors ids)) = some t') :
    ∃ doc, t.documents task.documentId = some doc := by
  rw [IngestWorker.statements, RagTables.commit_append] at h
  obtain ⟨t₁, hstart, h⟩ := Option.bind_eq_some_iff.1 h
  rw [IngestTask.resultStatements, List.cons_append, RagTables.commit_cons] at h
  obtain ⟨t₂, hchunks, h⟩ := Option.bind_eq_some_iff.1 h
  rw [List.cons_append, RagTables.commit_cons] at h
  obtain ⟨t₃, hupdate, -⟩ := Option.bind_eq_some_iff.1 h
  obtain ⟨doc, hdoc, -⟩ := Option.map_eq_some_iff.1 hupdate
  have hsame : t₂.documents task.documentId = t₁.documents task.documentId :=
    RagTables.documents_execute rfl hchunks
  rw [hsame, documents_commit_of_concerns concerns_startStatements hstart,
    foldl_onDocument_start] at hdoc
  split at hdoc
  next =>
    obtain ⟨old, hold, -⟩ := Option.map_eq_some_iff.1 hdoc
    exact ⟨old, hold⟩
  next => exact ⟨doc, hdoc⟩

/-! ## Steps -/

theorem AllIngested.step (H : AllIngested cfg sys.db) (hok : KeepsIngested cfg sys e) :
    AllIngested cfg (sys.step cfg e).db := by
  obtain heq | ⟨ss, hcommits, h⟩ := step_db cfg sys e
  · rw [heq]
    exact H
  generalize (sys.step cfg e).db = t' at h
  cases hcommits with
  | @request i r prep hr hpoint =>
    apply RagTables.EveryDocument.of_commit H prep.concerns h
    intro doc hdoc
    cases prep with
    | upload collectionId filename key =>
      rw [(Preparation.commit_upload h).1] at hdoc
      cases hdoc
      exact nofun
    | retry loaded ids =>
      obtain ⟨hdocs, hchunks⟩ := Preparation.commit_retry h
      rw [hdocs] at hdoc
      obtain ⟨old, hold, rfl⟩ := Option.map_eq_some_iff.1 hdoc
      rw [hchunks]
      by_cases hready : loaded.status = .pending ∧ old.status = .ready
      · apply (ingested_retry_iff hready.1 hready.2 (H _ old hold)).2
        exact hok r loaded ids old hr hpoint hready.1 (h ▸ rfl) hold hready.2
      · -- the status is reset, or it was not ready before
        intro hstatus
        by_cases hpending : loaded.status = .pending
        · refine absurd ⟨hpending, ?_⟩ hready
          simpa [resetPatch, DocumentPatch.apply, hpending] using hstatus
        · simp [resetPatch, DocumentPatch.apply, hpending] at hstatus
  | @moved i m collectionId hm hpoint hne =>
    have hs : ∀ s ∈ [Statement.moveDocument m.documentId m.collectionId],
        s.concerns m.documentId := by simp [Statement.concerns]
    apply RagTables.EveryDocument.of_commit H hs h
    intro doc hdoc
    rw [RagTables.commit_singleton] at h
    rw [RagTables.documents_execute rfl h, Statement.onDocument, if_pos rfl] at hdoc
    obtain ⟨old, hold, rfl⟩ := Option.map_eq_some_iff.1 hdoc
    rw [RagTables.chunksOf_execute rfl h, Statement.onChunks, if_pos rfl]
    apply (H _ old hold).of_columns rfl rfl rfl
    rw [List.map_map]
    rfl
  | @updated i m ids hm hpoint =>
    have hs : ∀ s ∈ [Statement.moveChunks m.documentId ids m.collectionId],
        s.concerns m.documentId := by simp [Statement.concerns]
    apply RagTables.EveryDocument.of_commit H hs h
    intro doc hdoc
    rw [RagTables.commit_singleton] at h
    rw [RagTables.documents_execute rfl h] at hdoc
    rw [RagTables.chunksOf_execute rfl h, Statement.onChunks, if_pos rfl]
    apply (H _ doc hdoc).of_columns rfl rfl rfl
    rw [List.map_map]
    apply List.map_congr_left
    intro c _
    rw [Function.comp]
    split <;> rfl
  | deleteDocument =>
    rw [RagTables.commit_singleton] at h
    cases h
    exact RagTables.EveryDocument.removeDocuments H _
  | createCollection =>
    rw [RagTables.commit_singleton] at h
    obtain ⟨-, heq⟩ := Option.ite_none_right_eq_some.1 h
    cases heq
    exact H
  | deleteCollection =>
    rw [RagTables.commit_singleton] at h
    cases h
    exact RagTables.EveryDocument.removeDocuments H _
  | @result i w seen found result hw hpoint => 
    cases result with
    | ingested collectionId text vectors ids =>
      apply RagTables.EveryDocument.of_commit H (IngestWorker.concerns_statements _) h
      obtain ⟨hdocs, hchunks⟩ := commit_ingested h
      intro doc hdoc
      rw [hdocs] at hdoc
      obtain ⟨old, hold, rfl⟩ := Option.map_eq_some_iff.1 hdoc
      rw [hchunks]
      apply (ingested_append_iff rfl rfl rfl).2
      exact hok w seen found collectionId text vectors ids hw hpoint (h ▸ rfl)
    | notFound =>
      obtain ⟨hdocs, hchunks⟩ := commit_notIngested (fun _ _ _ _ heq => by cases heq) h
      exact H.of_status (IngestWorker.concerns_statements _) h hdocs hchunks
    | failed message =>
      obtain ⟨hdocs, hchunks⟩ := commit_notIngested (fun _ _ _ _ heq => by cases heq) h
      exact H.of_status (IngestWorker.concerns_statements _) h hdocs hchunks
  | error hw hpoint =>
    obtain ⟨hdocs, hchunks⟩ := commit_errorStatements h
    exact H.of_status (concerns_errorStatements _ _ _) h hdocs hchunks

theorem keepsIngested_of_allIngested (H : AllIngested cfg sys.db)
    (h : AllIngested cfg (sys.step cfg e).db) : KeepsIngested cfg sys e := by
  cases e with
  | worker i e =>
    cases e with
    | proceed =>
      intro w seen found collectionId text vectors ids hw hpoint hsome
      obtain ⟨t', ht'⟩ := Option.isSome_iff_exists.1 hsome
      have hdb := db_committing hw hpoint ht'
      obtain ⟨doc, hdoc⟩ := exists_of_commit_ingested ht'
      obtain ⟨hdocs, hchunks⟩ := commit_ingested ht'
      rw [hdoc, Option.map_some] at hdocs
      have hing := h w.task.documentId _ (hdb ▸ hdocs)
      rw [hdb, hchunks] at hing
      exact (ingested_append_iff rfl rfl rfl).1 hing
    | _ => trivial
  | request i e =>
    cases e with
    | proceed =>
      intro r loaded ids doc hr hpoint hpending hsome hdoc hready
      obtain ⟨t', ht'⟩ := Option.isSome_iff_exists.1 hsome
      have hdb : (sys.step cfg (.request i .proceed)).db = t' := by
        simp [IngestSystem.step, IngestSystem.onRequest, hr, IngestRequest.step, hpoint, ht']
      obtain ⟨hdocs, hchunks⟩ := Preparation.commit_retry ht'
      rw [hdoc, Option.map_some] at hdocs
      have hing := h r.task.documentId _ (hdb ▸ hdocs)
      rw [hdb, hchunks] at hing
      exact (ingested_retry_iff hpending hready (H _ doc hdoc)).1 hing
    | fail => trivial
  | _ => trivial

/-! ## Runs -/

/-- A document that is ready has one row for each index of a chunk of its text, with this chunk,
and as many as its count says; what is not a document has neither chunks nor jobs. -/
structure IngestedOnce (cfg : ChunkerConfig) (t : RagTables) : Prop where
  ready : ∀ d doc, t.documents d = some doc → doc.status = .ready →
    ∃ text, doc.contentText = some text ∧
      ((t.chunksOf d).map (·.chunkIndex)).Perm (List.range (chunkText cfg text).length) ∧
      (∀ c ∈ t.chunksOf d, c.toChunk ∈ chunkText cfg text) ∧
      doc.chunkCount = (t.chunksOf d).length
  deleted : ∀ d, t.documents d = none →
    t.chunksOf d = [] ∧ ∀ id job, t.jobs id = some job → job.documentId ≠ d

theorem perm_chunkText_iff {text : RagText} {chunks : List RagLiteChunk} :
    (chunks.map (·.toChunk)).Perm (chunkText cfg text) ↔
      (chunks.map (·.chunkIndex)).Perm (List.range (chunkText cfg text).length) ∧
        ∀ c ∈ chunks, c.toChunk ∈ chunkText cfg text := by
  have hmap : (chunks.map (·.toChunk)).map (·.index) = chunks.map (·.chunkIndex) := by
    rw [List.map_map]
    rfl
  rw [← chunkText_index, ← hmap]
  constructor
  · intro h
    exact ⟨h.map _, fun c hc => h.subset (List.mem_map_of_mem hc)⟩
  · rintro ⟨hindex, hmem⟩
    have hnodup : ((chunkText cfg text).map (·.index)).Nodup := by
      rw [chunkText_index]
      exact List.nodup_range
    have hsub : chunks.map (·.toChunk) ⊆ chunkText cfg text := by
      intro chunk hchunk
      obtain ⟨c, hc, rfl⟩ := List.mem_map.1 hchunk
      exact hmem c hc
    have hsubperm := List.subperm_of_subset (hindex.nodup_iff.2 hnodup).of_map hsub
    apply hsubperm.perm_of_length_le
    simpa using hindex.length_eq.ge

theorem ingestedOnce_iff (href : t.Referential) : IngestedOnce cfg t ↔ AllIngested cfg t := by
  constructor
  · intro h d doc hdoc hready
    obtain ⟨text, htext, hindex, hmem, hcount⟩ := h.ready d doc hdoc hready
    exact ⟨text, htext, perm_chunkText_iff.2 ⟨hindex, hmem⟩, hcount⟩
  · intro h
    refine ⟨fun d doc hdoc hready => ?_,
      fun d hnone => ⟨href.chunksOf_eq_nil hnone, fun id job hjob hd => ?_⟩⟩
    · obtain ⟨text, htext, hperm, hcount⟩ := h d doc hdoc hready
      obtain ⟨hindex, hmem⟩ := perm_chunkText_iff.1 hperm
      exact ⟨text, htext, hindex, hmem, hcount⟩
    · have hsome := href.job id job hjob
      rw [hd, hnone] at hsome
      cases hsome

/-! ## Deletions -/

/-- The request may still insert the document. -/
def IngestRequest.inserts (d : Uuid) (r : IngestRequest) : Bool :=
  r.task.documentId = d && match r.point with
    | .flushed (.upload _ _ _) | .dispatched (.upload _ _ _) => true
    | _ => false

/-- The ids drawn for uploaded documents. -/
def uploadIds (es : List IngestEvent) : List Uuid :=
  es.filterMap fun
    | .upload task _ _ _ => some task.documentId
    | _ => none

theorem none_of_status (hd : t.documents d = none)
    (h : t'.documents d = t.documents d ∨ ∃ status ≠ RagLiteDocumentStatus.ready,
      t'.documents d = (t.documents d).map fun doc => { doc with status }) :
    t'.documents d = none := by
  obtain heq | ⟨status, -, heq⟩ := h
  · exact heq.trans hd
  · rw [heq, hd, Option.map_none]

/-- Only an upload brings a row. -/
theorem documents_commits {ss : List Statement} (H : Commits cfg sys e ss)
    (h : sys.db.commit ss = some t') (hd : sys.db.documents d = none) :
    t'.documents d = none ∨ ∃ i r collectionId filename key, e = .request i .proceed ∧
      sys.requests[i]? = some r ∧ r.task.documentId = d ∧
      r.point = .dispatched (.upload collectionId filename key) := by
  cases H with
  | @request i r prep hr hpoint =>
    cases prep with
    | upload collectionId filename key =>
      by_cases hid : d = r.task.documentId
      · exact .inr ⟨i, r, collectionId, filename, key, rfl, hr, hid.symm, hpoint⟩
      · exact .inl ((RagTables.commit_other (Preparation.concerns _) h hid).1.trans hd)
    | retry loaded ids =>
      left
      by_cases hid : d = r.task.documentId
      · subst hid
        rw [(Preparation.commit_retry h).1, hd, Option.map_none]
      · exact (RagTables.commit_other (Preparation.concerns _) h hid).1.trans hd
  | @moved i m collectionId hm hpoint hne =>
    left
    rw [RagTables.commit_singleton] at h
    rw [RagTables.documents_execute rfl h, Statement.onDocument, hd]
    split <;> rfl
  | updated hm hpoint =>
    left
    rw [RagTables.commit_singleton] at h
    exact (RagTables.documents_execute rfl h).trans hd
  | deleteDocument =>
    left
    rw [RagTables.commit_singleton] at h
    rw [RagTables.documents_execute rfl h, Statement.onDocument, hd]
    split <;> rfl
  | createCollection =>
    left
    rw [RagTables.commit_singleton] at h
    exact (RagTables.documents_execute rfl h).trans hd
  | deleteCollection =>
    left
    rw [RagTables.commit_singleton] at h
    cases h
    exact (congrArg _ hd).trans (ite_self _)
  | @result i w seen found result hw hpoint =>
    left
    by_cases hid : d = w.task.documentId
    · subst hid
      cases result with
      | ingested collectionId text vectors ids => rw [(commit_ingested h).1, hd, Option.map_none]
      | notFound =>
        exact none_of_status hd (commit_notIngested (fun _ _ _ _ heq => by cases heq) h).1
      | failed message =>
        exact none_of_status hd (commit_notIngested (fun _ _ _ _ heq => by cases heq) h).1
    · exact (RagTables.commit_other (IngestWorker.concerns_statements _) h hid).1.trans hd
  | @error i w message doc job hw hpoint =>
    left
    by_cases hid : d = w.task.documentId
    · subst hid
      exact none_of_status hd (commit_errorStatements h).1
    · exact (RagTables.commit_other (concerns_errorStatements _ _ _) h hid).1.trans hd

/-- How many rows of the document there are or may come. -/
def IngestSystem.rowsOf (sys : IngestSystem) (d : Uuid) : Nat :=
  sys.requests.countP (·.inserts d) + if (sys.db.documents d).isSome then 1 else 0

theorem inserts_of_step {db : RagTables} {r : IngestRequest} {e : SessionEvent}
    (h : (r.step db e).2.2.inserts d) : r.inserts d := by
  obtain ⟨task, point⟩ := r
  cases e with
  | fail => cases point <;> simp [IngestRequest.step, IngestRequest.inserts] at h
  | proceed =>
    cases point with
    | dispatched prep =>
      simp only [IngestRequest.step] at h
      split at h <;> simp [IngestRequest.inserts] at h
    | cleared loaded ids =>
      simp only [IngestRequest.step] at h
      split at h <;> simp [IngestRequest.inserts] at h
    | checked loaded => simp [IngestRequest.step, IngestRequest.inserts] at h
    | flushed prep => cases prep <;> exact h
    | ended committed => simp [IngestRequest.step, IngestRequest.inserts] at h

theorem retry_point (db : RagTables) (task : IngestTask) :
    (∃ loaded, IngestRequest.retry db task = ⟨task, .checked loaded⟩) ∨
      IngestRequest.retry db task = ⟨task, .ended false⟩ := by
  rw [IngestRequest.retry]
  split
  next => exact .inr rfl
  next doc hdoc =>
    split
    next => exact .inl ⟨doc, rfl⟩
    next => exact .inr rfl

theorem not_inserts_retry (db : RagTables) (task : IngestTask) :
    (IngestRequest.retry db task).inserts d = false := by
  obtain ⟨loaded, heq⟩ | heq := retry_point db task
  · rw [heq, IngestRequest.inserts, Bool.and_false]
  · rw [heq, IngestRequest.inserts, Bool.and_false]

theorem countP_requests_step : (sys.step cfg e).requests.countP (·.inserts d) ≤
    sys.requests.countP (·.inserts d) + (uploadIds [e]).count d := by
  cases e with
  | upload task collectionId filename key =>
    rw [IngestSystem.step, List.countP_append]
    apply Nat.add_le_add_left
    by_cases hd : task.documentId = d
    · exact List.countP_le_length.trans (by simp [uploadIds, hd])
    · simp [IngestRequest.inserts, IngestRequest.upload, hd]
  | retry task =>
    rw [IngestSystem.step, List.countP_append, List.countP_singleton, not_inserts_retry]
    exact Nat.le_add_right _ _
  | request i e =>
    rw [IngestSystem.step, IngestSystem.onRequest]
    split
    next => exact Nat.le_add_right _ _
    next r hr => exact (countP_set_le hr inserts_of_step).trans (Nat.le_add_right _ _)
  | moving i e =>
    rw [IngestSystem.step, IngestSystem.onMove]
    split <;> exact Nat.le_add_right _ _
  | consume i =>
    rw [IngestSystem.step, IngestSystem.onConsume]
    split <;> exact Nat.le_add_right _ _
  | worker i e =>
    rw [IngestSystem.step, IngestSystem.onWorker]
    split <;> exact Nat.le_add_right _ _
  | _ => exact Nat.le_add_right _ _

theorem rowsOf_step : (sys.step cfg e).rowsOf d ≤ sys.rowsOf d + (uploadIds [e]).count d := by
  have hrequests := @countP_requests_step cfg sys e d
  have hkept : (sys.step cfg e).db.documents d = none ∨ (sys.db.documents d).isSome ∨
      ∃ i r collectionId filename key, e = .request i .proceed ∧ sys.requests[i]? = some r ∧
        r.task.documentId = d ∧ r.point = .dispatched (.upload collectionId filename key) := by
    cases hd : sys.db.documents d with
    | some doc => exact .inr (.inl rfl)
    | none =>
      obtain heq | ⟨ss, hcommits, h⟩ := step_db cfg sys e
      · exact .inl (heq ▸ hd)
      · exact (documents_commits hcommits h hd).imp id .inr
  rw [IngestSystem.rowsOf, IngestSystem.rowsOf]
  obtain hnone | hsome | ⟨i, r, collectionId, filename, key, rfl, hr, hd, hpoint⟩ := hkept
  · rw [hnone]
    simp only [Option.isSome_none, Bool.false_eq_true, if_false]
    omega
  · rw [if_pos hsome]
    split <;> omega
  · -- the row that comes takes the place of the request that inserts it
    have hlt : (sys.step cfg (.request i .proceed)).requests.countP (·.inserts d) <
        sys.requests.countP (·.inserts d) := by
      rw [IngestSystem.step, IngestSystem.onRequest, hr]
      apply countP_set_lt hr
      · simp [IngestRequest.inserts, hd, hpoint]
      · simp only [IngestRequest.step, hpoint]
        split <;> simp [IngestRequest.inserts]
    split <;> split <;> omega

theorem uploadIds_cons (es : List IngestEvent) :
    uploadIds (e :: es) = uploadIds [e] ++ uploadIds es := by
  rw [uploadIds, uploadIds, uploadIds, ← List.filterMap_append, List.singleton_append]

theorem rowsOf_run (es : List IngestEvent) :
    (run (IngestSystem.step cfg) sys es).rowsOf d ≤ sys.rowsOf d + (uploadIds es).count d := by
  induction es generalizing sys with
  | nil => exact Nat.le_add_right _ _
  | cons e es ih =>
    have hstep := @rowsOf_step cfg sys e d
    have hrest := @ih (sys.step cfg e)
    rw [run_cons, uploadIds_cons, List.count_append]
    omega

/-- A document that was uploaded once and then deleted has no row. -/
theorem deleted_stays (collections : List RagLiteCollection) {pre post : List IngestEvent}
    (hdoc : ((run (IngestSystem.step cfg) (.start collections) pre).db.documents d).isSome)
    (honce : (uploadIds (pre ++ .deleteDocument d :: post)).count d ≤ 1) :
    (run (IngestSystem.step cfg) (.start collections)
      (pre ++ .deleteDocument d :: post)).db.documents d = none := by
  rw [run_append, run_cons]
  have hbefore : (run (IngestSystem.step cfg) (.start collections) pre).rowsOf d ≤
      0 + (uploadIds pre).count d := rowsOf_run pre
  generalize run (IngestSystem.step cfg) (.start collections) pre = sys at hdoc hbefore ⊢
  have hnone : (sys.step cfg (.deleteDocument d)).db.documents d = none := by
    rw [IngestSystem.step, IngestSystem.execute, RagTables.commit_singleton]
    exact if_pos (decide_eq_true rfl)
  have hgone : (sys.step cfg (.deleteDocument d)).rowsOf d + 1 = sys.rowsOf d := by
    rw [IngestSystem.rowsOf, IngestSystem.rowsOf, hnone, if_pos hdoc]
    rfl
  have hafter : (run (IngestSystem.step cfg) (sys.step cfg (.deleteDocument d)) post).rowsOf d ≤
      (sys.step cfg (.deleteDocument d)).rowsOf d + (uploadIds post).count d := rowsOf_run post
  have hcount : (uploadIds pre).count d + (uploadIds post).count d ≤ 1 := by
    rw [uploadIds, List.filterMap_append, List.count_append] at honce
    exact honce
  generalize run (IngestSystem.step cfg) (sys.step cfg (.deleteDocument d)) post = final at hafter ⊢
  have hzero : final.rowsOf d = 0 := by omega
  cases hrow : final.db.documents d with
  | none => rfl
  | some doc =>
    rw [IngestSystem.rowsOf, hrow] at hzero
    exact absurd hzero (Nat.succ_ne_zero _)

/-- The documents are ingested once all along the run, and what was uploaded once and deleted has
no row where it ends. -/
structure IngestsOnce (cfg : ChunkerConfig) (collections : List RagLiteCollection)
    (es : List IngestEvent) : Prop where
  once : Always (IngestSystem.step cfg) (fun sys => IngestedOnce cfg sys.db) (.start collections) es
  gone : ∀ pre d post, es = pre ++ .deleteDocument d :: post →
    ((run (IngestSystem.step cfg) (.start collections) pre).db.documents d).isSome →
    (uploadIds es).count d ≤ 1 →
    (run (IngestSystem.step cfg) (.start collections) es).db.documents d = none

/-- A worker that goes through with a text of one chunk. -/
def completed (i : Nat) (chunkId : Uuid) : List IngestEvent :=
  [.worker i .proceed, .worker i .proceed, .worker i .proceed, .worker i .proceed,
    .worker i .proceed, .worker i (.finish (.embedded ['a'] 1 fun _ => chunkId)),
    .worker i .proceed]

/-- A retry of a document that still waits for its first worker. -/
def retriedPending : List IngestEvent :=
  [.upload ⟨5, 6⟩ none "a.txt".toList "k".toList, .request 0 .proceed, .request 0 .proceed,
    .retry ⟨5, 7⟩, .request 1 .proceed, .request 1 .proceed, .request 1 .proceed,
    .request 1 .proceed, .consume 0, .consume 0] ++ completed 0 8 ++ completed 1 9

end LlmPort.Backend.RagLite
