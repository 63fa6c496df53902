import LlmPort.Backend.RagLite.Sessions
import LlmPort.Transition.Run

/-!
# Documents ingested once

Uploads, retries, moves and deletions of documents and any number of ingest workers, in any
order. A document that is ready has its chunks once as long as every worker that commits chunks
finds none, and no retry takes the chunks of a document that became ready.
-/

namespace LlmPort.Backend.RagLite

open NodeControl Transition

structure IngestSystem where
  db : RagTables
  queue : List IngestTask
  requests : List IngestRequest
  moves : List MoveRequest
  workers : List IngestWorker

inductive IngestEvent where
  | upload (task : IngestTask) (collectionId : Option Uuid) (filename fileStoreKey : RagText)
  | retry (task : IngestTask)
  | request (i : Nat) (e : SessionEvent)
  | move (documentId : Uuid) (collectionId : Option Uuid)
  | moving (i : Nat) (e : SessionEvent)
  | deleteDocument (id : Uuid)
  | createCollection (row : RagLiteCollection)
  | deleteCollection (id : Uuid)
  /-- A worker takes a message. -/
  | consume (i : Nat)
  | worker (i : Nat) (e : WorkerEvent)

namespace IngestSystem

/-- A transaction of one statement. -/
def execute (sys : IngestSystem) (s : Statement) : IngestSystem :=
  { sys with db := (sys.db.commit [s]).getD sys.db }

def onRequest (sys : IngestSystem) (i : Nat) (e : SessionEvent) : IngestSystem :=
  match sys.requests[i]? with
  | none => sys
  | some r =>
    let (db, sent, r') := r.step sys.db e
    { sys with db, queue := sys.queue ++ sent, requests := sys.requests.set i r' }

def onMove (sys : IngestSystem) (i : Nat) (e : SessionEvent) : IngestSystem :=
  match sys.moves[i]? with
  | none => sys
  | some m =>
    let (db, m') := m.step sys.db e
    { sys with db, moves := sys.moves.set i m' }

def onConsume (sys : IngestSystem) (i : Nat) : IngestSystem :=
  match sys.queue[i]? with
  | none => sys
  | some task =>
    { sys with queue := sys.queue.eraseIdx i, workers := sys.workers ++ [.start task] }

variable (cfg : ChunkerConfig)

def onWorker (sys : IngestSystem) (i : Nat) (e : WorkerEvent) : IngestSystem :=
  match sys.workers[i]? with
  | none => sys
  | some w =>
    let (db, w') := w.step cfg sys.db e
    { sys with db, workers := sys.workers.set i w' }

def step (sys : IngestSystem) : IngestEvent → IngestSystem
  | .upload task collectionId filename fileStoreKey =>
    { sys with
      requests := sys.requests ++ [.upload sys.db task collectionId filename fileStoreKey] }
  | .retry task => { sys with requests := sys.requests ++ [.retry sys.db task] }
  | .request i e => sys.onRequest i e
  | .move documentId collectionId =>
    { sys with moves := sys.moves ++ [.start sys.db documentId collectionId] }
  | .moving i e => sys.onMove i e
  | .deleteDocument id => sys.execute (.deleteDocument id)
  | .createCollection row => sys.execute (.insertCollection row)
  | .deleteCollection id => sys.execute (.deleteCollection id)
  | .consume i => sys.onConsume i
  | .worker i e => sys.onWorker cfg i e

def start (collections : List RagLiteCollection) : IngestSystem :=
  ⟨⟨collections, fun _ => none, [], fun _ => none⟩, [], [], [], []⟩

/-- The queue is empty and all workers have finished. -/
def Quiet (sys : IngestSystem) : Prop :=
  sys.queue = [] ∧ ∀ w ∈ sys.workers, w.hasReturned

instance (sys : IngestSystem) : Decidable sys.Quiet :=
  inferInstanceAs (Decidable (sys.queue = [] ∧ ∀ w ∈ sys.workers, w.hasReturned))

end IngestSystem

/-! ## What the transactions of the programs change -/

section
variable {cfg : ChunkerConfig} {t t' : RagTables} {task : IngestTask} {seen : Seen} {found : Bool}

theorem concerns_jobUpdate (status : RagLiteJobStatus) (message : Option String) (id : Uuid) :
    ∀ s ∈ task.jobUpdate found status message, s.concerns id := by
  cases found <;> simp [IngestTask.jobUpdate, Statement.concerns]

theorem documentId_of_mem_chunkRecords {collectionId : Option Uuid} {text : RagText} {vectors : Nat}
    {ids : Nat → Uuid} {c : RagLiteChunk}
    (h : c ∈ chunkRecords cfg task collectionId text vectors ids) :
    c.documentId = task.documentId := by
  obtain ⟨⟨chunk, i⟩, -, rfl⟩ := List.mem_map.1 h
  rfl

theorem Preparation.concerns (prep : Preparation) :
    ∀ s ∈ prep.statements task, s.concerns task.documentId := by
  cases prep <;> simp [statements, Statement.concerns]

theorem concerns_startStatements :
    ∀ s ∈ task.startStatements seen, s.concerns task.documentId := by
  intro s hs
  obtain hs | hs := List.mem_append.1 hs
  · exact concerns_jobUpdate _ _ _ s hs
  · obtain ⟨-, hs⟩ := List.mem_ite_nil_right.1 hs
    cases List.mem_singleton.1 hs
    exact decide_eq_true rfl

theorem concerns_resultStatements (result : IngestResult) :
    ∀ s ∈ task.resultStatements cfg found result, s.concerns task.documentId := by
  intro s hs
  cases result with
  | notFound => exact concerns_jobUpdate _ _ _ s hs
  | ingested collectionId text vectors ids =>
    obtain hs | hs := List.mem_append.1 hs
    · obtain rfl | hs := List.mem_cons.1 hs
      · exact List.all_eq_true.2 fun c hc => decide_eq_true (documentId_of_mem_chunkRecords hc)
      · cases List.mem_singleton.1 hs
        exact decide_eq_true rfl
    · exact concerns_jobUpdate _ _ _ s hs
  | failed message =>
    obtain rfl | hs := List.mem_cons.1 hs
    · exact decide_eq_true rfl
    · exact concerns_jobUpdate _ _ _ s hs

theorem IngestWorker.concerns_statements (result : IngestResult) :
    ∀ s ∈ statements cfg task seen found result, s.concerns task.documentId := by
  intro s hs
  obtain hs | hs := List.mem_append.1 hs
  · exact concerns_startStatements s hs
  · exact concerns_resultStatements result s hs

theorem concerns_errorStatements (message : String) (doc : Option RagLiteDocument) (job : Bool) :
    ∀ s ∈ task.errorStatements message doc job, s.concerns task.documentId := by
  intro s hs
  obtain hs | hs := List.mem_append.1 hs
  · obtain ⟨-, hs⟩ := List.mem_ite_nil_right.1 hs
    cases List.mem_singleton.1 hs
    exact decide_eq_true rfl
  · exact concerns_jobUpdate _ _ _ s hs

theorem documents_commit_of_concerns {ss : List Statement}
    (hs : ∀ s ∈ ss, s.concerns task.documentId) (h : t.commit ss = some t') (d : Uuid) :
    t'.documents d = ss.foldl (fun doc s => s.onDocument d doc) (t.documents d) :=
  RagTables.documents_commit (fun s hmem => Statement.isLocal_of_concerns (hs s hmem)) h

theorem chunksOf_commit_of_concerns {ss : List Statement}
    (hs : ∀ s ∈ ss, s.concerns task.documentId) (h : t.commit ss = some t') (d : Uuid) :
    t'.chunksOf d = ss.foldl (fun chunks s => s.onChunks d chunks) (t.chunksOf d) :=
  RagTables.chunksOf_commit (fun s hmem => Statement.isLocal_of_concerns (hs s hmem)) h

@[simp] theorem foldl_onDocument_jobUpdate (status : RagLiteJobStatus) (message : Option String)
    (d : Uuid) (doc : Option RagLiteDocument) :
    (task.jobUpdate found status message).foldl (fun doc s => s.onDocument d doc) doc = doc := by
  cases found <;> rfl

@[simp] theorem foldl_onChunks_jobUpdate (status : RagLiteJobStatus) (message : Option String)
    (d : Uuid) (chunks : List RagLiteChunk) :
    (task.jobUpdate found status message).foldl (fun chunks s => s.onChunks d chunks) chunks =
      chunks := by
  cases found <;> rfl

@[simp] theorem foldl_onDocument_start (doc : Option RagLiteDocument) :
    (task.startStatements seen).foldl (fun doc s => s.onDocument task.documentId doc) doc =
      if seen.document then doc.map fun row => { row with status := .processing } else doc := by
  rw [IngestTask.startStatements, List.foldl_append, foldl_onDocument_jobUpdate]
  split
  next => exact if_pos rfl
  next => rfl

@[simp] theorem foldl_onChunks_start (chunks : List RagLiteChunk) :
    (task.startStatements seen).foldl (fun chunks s => s.onChunks task.documentId chunks) chunks =
      chunks := by
  rw [IngestTask.startStatements, List.foldl_append, foldl_onChunks_jobUpdate]
  split <;> rfl

/-- A worker that ingested a document adds its chunks and marks it. -/
theorem commit_ingested {collectionId : Option Uuid} {text : RagText} {vectors : Nat}
    {ids : Nat → Uuid}
    (h : t.commit (IngestWorker.statements cfg task seen found
      (.ingested collectionId text vectors ids)) = some t') :
    t'.documents task.documentId = (t.documents task.documentId).map (fun doc => { doc with
      status := .ready, contentText := some text
      chunkCount := (chunkRecords cfg task collectionId text vectors ids).length }) ∧
    t'.chunksOf task.documentId =
      t.chunksOf task.documentId ++ chunkRecords cfg task collectionId text vectors ids := by
  have hall : (chunkRecords cfg task collectionId text vectors ids).filter
      (·.documentId = task.documentId) = chunkRecords cfg task collectionId text vectors ids :=
    List.filter_eq_self.2 fun c hc => decide_eq_true (documentId_of_mem_chunkRecords hc)
  rw [documents_commit_of_concerns (IngestWorker.concerns_statements _) h,
    chunksOf_commit_of_concerns (IngestWorker.concerns_statements _) h]
  constructor
  · rw [IngestWorker.statements, List.foldl_append, foldl_onDocument_start,
      IngestTask.resultStatements, List.foldl_append, foldl_onDocument_jobUpdate]
    refine (if_pos rfl).trans ?_
    split
    next =>
      refine (Option.map_map _ _ _).trans ?_
      rfl
    next => rfl
  · rw [IngestWorker.statements, List.foldl_append, foldl_onChunks_start,
      IngestTask.resultStatements, List.foldl_append, foldl_onChunks_jobUpdate]
    exact congrArg _ hall

/-- A worker that did not adds none, and leaves the document if it does not mark it as failed or,
finding none at last, as being processed. -/
theorem commit_notIngested {result : IngestResult}
    (hresult : ∀ collectionId text vectors ids, result ≠ .ingested collectionId text vectors ids)
    (h : t.commit (IngestWorker.statements cfg task seen found result) = some t') :
    (t'.documents task.documentId = t.documents task.documentId ∨
      ∃ status ≠ RagLiteDocumentStatus.ready, t'.documents task.documentId =
        (t.documents task.documentId).map fun doc => { doc with status }) ∧
    t'.chunksOf task.documentId = t.chunksOf task.documentId := by
  rw [documents_commit_of_concerns (IngestWorker.concerns_statements _) h,
    chunksOf_commit_of_concerns (IngestWorker.concerns_statements _) h]
  cases result with
  | ingested collectionId text vectors ids => exact (hresult collectionId text vectors ids rfl).elim
  | notFound =>
    rw [IngestWorker.statements, List.foldl_append, foldl_onDocument_start, List.foldl_append,
      foldl_onChunks_start, IngestTask.resultStatements, foldl_onDocument_jobUpdate,
      foldl_onChunks_jobUpdate]
    refine ⟨?_, rfl⟩
    split
    next => exact .inr ⟨.processing, nofun, rfl⟩
    next => exact .inl rfl
  | failed message =>
    rw [IngestWorker.statements, List.foldl_append, foldl_onDocument_start, List.foldl_append,
      foldl_onChunks_start, IngestTask.resultStatements, List.foldl_cons,
      foldl_onDocument_jobUpdate, List.foldl_cons, foldl_onChunks_jobUpdate]
    refine ⟨.inr ⟨.error, nofun, (if_pos rfl).trans ?_⟩, rfl⟩
    split
    next =>
      refine (Option.map_map _ _ _).trans ?_
      rfl
    next => rfl

/-- The session after a crash marks the document as failed, or leaves it. -/
theorem commit_errorStatements {message : String} {doc : Option RagLiteDocument} {job : Bool}
    (h : t.commit (task.errorStatements message doc job) = some t') :
    (t'.documents task.documentId = t.documents task.documentId ∨
      ∃ status ≠ RagLiteDocumentStatus.ready, t'.documents task.documentId =
        (t.documents task.documentId).map fun doc => { doc with status }) ∧
    t'.chunksOf task.documentId = t.chunksOf task.documentId := by
  rw [documents_commit_of_concerns (concerns_errorStatements _ _ _) h,
    chunksOf_commit_of_concerns (concerns_errorStatements _ _ _) h,
    IngestTask.errorStatements, List.foldl_append, foldl_onDocument_jobUpdate, List.foldl_append,
    foldl_onChunks_jobUpdate]
  split
  next => exact ⟨.inr ⟨.error, nofun, if_pos rfl⟩, rfl⟩
  next => exact ⟨.inl rfl, rfl⟩

theorem Preparation.commit_upload {collectionId : Option Uuid} {filename key : RagText}
    (h : t.commit ((Preparation.upload collectionId filename key).statements task) = some t') :
    t'.documents task.documentId = some (pendingDocument collectionId filename key) ∧
    t'.chunksOf task.documentId = t.chunksOf task.documentId := by
  rw [documents_commit_of_concerns (Preparation.concerns _) h,
    chunksOf_commit_of_concerns (Preparation.concerns _) h]
  exact ⟨if_pos rfl, rfl⟩

theorem Preparation.commit_retry {loaded : RagLiteDocument} {ids : List Uuid}
    (h : t.commit ((Preparation.retry loaded ids).statements task) = some t') :
    t'.documents task.documentId = (t.documents task.documentId).map (resetPatch loaded).apply ∧
    t'.chunksOf task.documentId = (t.chunksOf task.documentId).filter (·.id ∉ ids) := by
  rw [documents_commit_of_concerns (Preparation.concerns _) h,
    chunksOf_commit_of_concerns (Preparation.concerns _) h]
  exact ⟨if_pos rfl, if_pos rfl⟩

end

/-! ## What a step commits -/

section
variable {cfg : ChunkerConfig} {sys : IngestSystem} {e : IngestEvent}

/-- The transactions of the steps that change rows. -/
inductive Commits (cfg : ChunkerConfig) (sys : IngestSystem) :
    IngestEvent → List Statement → Prop where
  | request {i : Nat} {r : IngestRequest} {prep : Preparation} (hr : sys.requests[i]? = some r)
      (hpoint : r.point = .dispatched prep) :
      Commits cfg sys (.request i .proceed) (prep.statements r.task)
  | moved {i : Nat} {m : MoveRequest} {collectionId : Option Uuid} (hm : sys.moves[i]? = some m)
      (hpoint : m.point = .loaded collectionId) (hne : collectionId ≠ m.collectionId) :
      Commits cfg sys (.moving i .proceed) [.moveDocument m.documentId m.collectionId]
  | updated {i : Nat} {m : MoveRequest} {ids : List Uuid} (hm : sys.moves[i]? = some m)
      (hpoint : m.point = .updated ids) :
      Commits cfg sys (.moving i .proceed) [.moveChunks m.documentId ids m.collectionId]
  | deleteDocument {id : Uuid} : Commits cfg sys (.deleteDocument id) [.deleteDocument id]
  | createCollection {row : RagLiteCollection} :
      Commits cfg sys (.createCollection row) [.insertCollection row]
  | deleteCollection {id : Uuid} :
      Commits cfg sys (.deleteCollection id) [.deleteCollection id]
  | result {i : Nat} {w : IngestWorker} {seen : Seen} {found : Bool} {result : IngestResult}
      (hw : sys.workers[i]? = some w) (hpoint : w.point = .committing seen found result) :
      Commits cfg sys (.worker i .proceed)
        (IngestWorker.statements cfg w.task seen found result)
  | error {i : Nat} {w : IngestWorker} {message : String} {doc : Option RagLiteDocument}
      {job : Bool} (hw : sys.workers[i]? = some w)
      (hpoint : w.point = .errorCommit message doc job) :
      Commits cfg sys (.worker i .proceed) (w.task.errorStatements message doc job)

theorem request_db (db : RagTables) (r : IngestRequest) (e : SessionEvent) :
    (r.step db e).1 = db ∨ ∃ prep, e = .proceed ∧ r.point = .dispatched prep ∧
      db.commit (prep.statements r.task) = some (r.step db e).1 := by
  obtain ⟨task, point⟩ := r
  cases e with
  | fail => cases point <;> exact .inl rfl
  | proceed =>
    cases point with
    | dispatched prep =>
      simp only [IngestRequest.step]
      cases h : db.commit (prep.statements task) with
      | none => exact .inl rfl
      | some db' => exact .inr ⟨prep, trivial, rfl, h⟩
    | checked => exact .inl rfl
    | cleared => exact .inl rfl
    | flushed => exact .inl rfl
    | ended => exact .inl rfl

theorem move_db (db : RagTables) (m : MoveRequest) (e : SessionEvent) :
    (m.step db e).1 = db ∨ ∃ s, e = .proceed ∧ db.commit [s] = some (m.step db e).1 ∧
      ((∃ collectionId, m.point = .loaded collectionId ∧ collectionId ≠ m.collectionId ∧
          s = .moveDocument m.documentId m.collectionId) ∨
        ∃ ids, m.point = .updated ids ∧ s = .moveChunks m.documentId ids m.collectionId) := by
  have hcommit : ∀ s, (m.commit db s).1 = db ∨ db.commit [s] = some (m.commit db s).1 := by
    intro s
    rw [MoveRequest.commit]
    cases h : db.commit [s] with
    | none => exact .inl rfl
    | some t' => exact .inr rfl
  obtain ⟨documentId, target, point⟩ := m
  cases e with
  | fail => exact .inl rfl
  | proceed =>
    cases point with
    | loaded collectionId =>
      simp only [MoveRequest.step]
      split
      next => exact .inl rfl
      next hne =>
        exact (hcommit _).imp_right fun h => ⟨_, trivial, h, .inl ⟨collectionId, rfl, hne, rfl⟩⟩
    | updated ids => exact (hcommit _).imp_right fun h => ⟨_, rfl, h, .inr ⟨ids, rfl, rfl⟩⟩
    | ended => exact .inl rfl

theorem worker_db (db : RagTables) (w : IngestWorker) (e : WorkerEvent) :
    (w.step cfg db e).1 = db ∨
      ∃ ss, e = .proceed ∧ db.commit ss = some (w.step cfg db e).1 ∧
        ((∃ seen found result, w.point = .committing seen found result ∧
            ss = IngestWorker.statements cfg w.task seen found result) ∨
          ∃ message doc job, w.point = .errorCommit message doc job ∧
            ss = w.task.errorStatements message doc job) := by
  obtain ⟨task, point⟩ := w
  cases e with
  | raise => exact .inl rfl
  | finish p => cases point <;> cases p <;> exact .inl rfl
  | proceed =>
    cases point with
    | committing seen found result =>
      simp only [IngestWorker.step, IngestWorker.proceed]
      cases h : db.commit (IngestWorker.statements cfg task seen found result) with
      | none => exact .inl rfl
      | some db' => exact .inr ⟨_, trivial, h, .inl ⟨seen, found, result, rfl, rfl⟩⟩
    | errorCommit message doc job =>
      simp only [IngestWorker.step, IngestWorker.proceed]
      cases h : db.commit (task.errorStatements message doc job) with
      | none => exact .inl rfl
      | some db' => exact .inr ⟨_, trivial, h, .inr ⟨message, doc, job, rfl, rfl⟩⟩
    | starting job doc =>
      simp only [IngestWorker.step, IngestWorker.proceed]
      split <;> exact .inl rfl
    | fetching job doc =>
      simp only [IngestWorker.step, IngestWorker.proceed]
      split <;> exact .inl rfl
    | resolvingClient => exact .inl rfl
    | readingJob => exact .inl rfl
    | readingDocument => exact .inl rfl
    | processing => exact .inl rfl
    | errorDocument => exact .inl rfl
    | errorJob => exact .inl rfl
    | returned => exact .inl rfl

/-- A step leaves the rows alone or commits a transaction. -/
theorem step_db (cfg : ChunkerConfig) (sys : IngestSystem)
    (e : IngestEvent) : (sys.step cfg e).db = sys.db ∨
      ∃ ss, Commits cfg sys e ss ∧ sys.db.commit ss = some (sys.step cfg e).db := by
  have hexecute : ∀ s : Statement, Commits cfg sys e [s] →
      (sys.execute s).db = sys.db ∨
        ∃ ss, Commits cfg sys e ss ∧ sys.db.commit ss = some (sys.execute s).db := by
    intro s hs
    rw [IngestSystem.execute]
    cases h : sys.db.commit [s] with
    | none => exact .inl rfl
    | some t' => exact .inr ⟨[s], hs, h⟩
  cases e with
  | upload => exact .inl rfl
  | retry => exact .inl rfl
  | move => exact .inl rfl
  | deleteDocument id => exact hexecute _ .deleteDocument
  | createCollection row => exact hexecute _ .createCollection
  | deleteCollection id => exact hexecute _ .deleteCollection
  | consume i =>
    left
    rw [IngestSystem.step, IngestSystem.onConsume]
    split <;> rfl
  | request i e =>
    rw [IngestSystem.step, IngestSystem.onRequest]
    split
    next => exact .inl rfl
    next r hr =>
      apply (request_db sys.db r e).imp id
      rintro ⟨prep, rfl, hpoint, h⟩
      exact ⟨_, .request hr hpoint, h⟩
  | moving i e =>
    rw [IngestSystem.step, IngestSystem.onMove]
    split
    next => exact .inl rfl
    next m hm =>
      apply (move_db sys.db m e).imp id
      rintro ⟨s, rfl, h, ⟨collectionId, hpoint, hne, rfl⟩ | ⟨ids, hpoint, rfl⟩⟩
      · exact ⟨_, .moved hm hpoint hne, h⟩
      · exact ⟨_, .updated hm hpoint, h⟩
  | worker i e =>
    rw [IngestSystem.step, IngestSystem.onWorker]
    split
    next => exact .inl rfl
    next w hw =>
      apply (worker_db sys.db w e).imp id
      rintro ⟨ss, rfl, h, ⟨seen, found, result, hpoint, rfl⟩ | ⟨message, doc, job, hpoint, rfl⟩⟩
      · exact ⟨_, .result hw hpoint, h⟩
      · exact ⟨_, .error hw hpoint, h⟩

theorem referential_step (href : sys.db.Referential) : (sys.step cfg e).db.Referential := by
  obtain heq | ⟨ss, -, h⟩ := step_db cfg sys e
  · rw [heq]
    exact href
  · exact href.commit h

theorem db_committing {i : Nat} {w : IngestWorker} {seen : Seen} {found : Bool}
    {result : IngestResult} {t' : RagTables} (hw : sys.workers[i]? = some w)
    (hpoint : w.point = .committing seen found result)
    (h : sys.db.commit (IngestWorker.statements cfg w.task seen found result) = some t') :
    (sys.step cfg (.worker i .proceed)).db = t' := by
  simp [IngestSystem.step, IngestSystem.onWorker, hw, IngestWorker.step, IngestWorker.proceed,
    hpoint, h]

theorem referential_start (collections : List RagLiteCollection) :
    (IngestSystem.start collections).db.Referential :=
  ⟨nofun, nofun⟩

theorem referential_run (cfg : ChunkerConfig) (collections : List RagLiteCollection)
    (es : List IngestEvent) :
    (run (IngestSystem.step cfg) (.start collections) es).db.Referential :=
  run_invariant (I := fun sys : IngestSystem => sys.db.Referential) (fun _ _ => referential_step)
    (referential_start collections)

/-- The rows are as they should be all along a run exactly if each step keeps them so. -/
theorem always_db_iff_guarded {J : RagTables → Prop} {ok : IngestSystem → IngestEvent → Prop}
    (hstep : ∀ sys e, sys.db.Referential → J sys.db → ok sys e → J (sys.step cfg e).db)
    (hbreak : ∀ sys e, sys.db.Referential → J sys.db → J (sys.step cfg e).db → ok sys e)
    {collections : List RagLiteCollection} (h0 : J (IngestSystem.start collections).db)
    (es : List IngestEvent) :
    Always (IngestSystem.step cfg) (fun sys => J sys.db) (.start collections) es ↔
      Guarded (IngestSystem.step cfg) ok (.start collections) es := by
  apply always_iff_guarded_of_invariant (I := fun sys => sys.db.Referential ∧ J sys.db)
  · rintro sys ⟨-, H⟩
    exact H
  · rintro sys e ⟨href, H⟩ hok
    exact ⟨referential_step href, hstep sys e href H hok⟩
  · rintro sys e ⟨href, H⟩ h
    exact hbreak sys e href H h
  · exact ⟨referential_start collections, h0⟩

end

end LlmPort.Backend.RagLite
