import LlmPort.Backend.RagLite.Chunker
import LlmPort.Backend.RagLite.Tables

/-!
# Requests and ingest workers

The programs that work on documents, one step for each statement they wait for: uploads, retries
and moves of the admin endpoints, and `rag_lite_ingest_task` with `process_document`. A session
reads committed rows, keeps the rows it has read, and what it changes takes effect when it
commits. Row locks only keep orders of steps out, so a run of the database is a run of these.
-/

namespace LlmPort.Backend.RagLite

open NodeControl

/-- The arguments of `rag_lite_ingest_task`. -/
structure IngestTask where
  documentId : Uuid
  jobId : Uuid
  deriving DecidableEq

/-! ## Requests that dispatch a worker -/

/-- What the statements of a request are made of. -/
inductive Preparation where
  | upload (collectionId : Option Uuid) (filename fileStoreKey : RagText)
  /-- The document as a retry read it, and the chunks its `DELETE` found. -/
  | retry (loaded : RagLiteDocument) (ids : List Uuid)

inductive RequestPoint where
  /-- `retry_document` has checked the status. -/
  | checked (loaded : RagLiteDocument)
  /-- It has deleted the chunks. -/
  | cleared (loaded : RagLiteDocument) (ids : List Uuid)
  /-- The rows are flushed. -/
  | flushed (prep : Preparation)
  /-- The message is in the queue. -/
  | dispatched (prep : Preparation)
  | ended (committed : Bool)

structure IngestRequest where
  task : IngestTask
  point : RequestPoint

/-- Columns are written where they change. -/
def resetPatch (loaded : RagLiteDocument) : DocumentPatch where
  status := if loaded.status = .pending then none else some .pending
  chunkCount := if loaded.chunkCount = 0 then none else some 0

def IngestTask.queuedJob (task : IngestTask) : RagLiteIngestJob where
  documentId := task.documentId
  status := .queued
  errorMessage := none

def pendingDocument (collectionId : Option Uuid) (filename fileStoreKey : RagText) :
    RagLiteDocument where
  collectionId := collectionId
  filename := filename
  contentText := none
  chunkCount := 0
  status := .pending
  fileStoreKey := some fileStoreKey

/-- The statements of a request. -/
def Preparation.statements (task : IngestTask) : Preparation → List Statement
  | upload collectionId filename fileStoreKey =>
    [.insertDocument task.documentId (pendingDocument collectionId filename fileStoreKey),
      .insertJob task.jobId task.queuedJob]
  | retry loaded ids =>
    [.deleteChunks task.documentId ids, .updateDocument task.documentId (resetPatch loaded),
      .insertJob task.jobId task.queuedJob]

/-- The next step of a request, or the failure of one. -/
inductive SessionEvent where
  | proceed
  | fail
  deriving DecidableEq

namespace IngestRequest

/-- An upload, whose first statement inserts the rows. -/
def upload (db : RagTables) (task : IngestTask) (collectionId : Option Uuid)
    (filename fileStoreKey : RagText) : IngestRequest :=
  let prep := Preparation.upload collectionId filename fileStoreKey
  { task, point := if (db.commit (prep.statements task)).isSome then .flushed prep
    else .ended false }

/-- `retry_document` reads the document. -/
def retry (db : RagTables) (task : IngestTask) : IngestRequest where
  task := task
  point := match db.documents task.documentId with
    | none => .ended false
    | some doc =>
      if doc.status = .error ∨ doc.status = .pending then .checked doc else .ended false

/-- One step: the committed rows, the messages it sends and the request after it. -/
def step (db : RagTables) (r : IngestRequest) :
    SessionEvent → RagTables × List IngestTask × IngestRequest
  | .proceed => match r.point with
    | .checked loaded =>
      (db, [], { r with point := .cleared loaded ((db.chunksOf r.task.documentId).map (·.id)) })
    | .cleared loaded ids =>
      let prep := Preparation.retry loaded ids
      (db, [], { r with
        point := if (db.commit (prep.statements r.task)).isSome then .flushed prep
          else .ended false })
    | .flushed prep => (db, [r.task], { r with point := .dispatched prep })
    | .dispatched prep => match db.commit (prep.statements r.task) with
      | some db' => (db', [], { r with point := .ended true })
      | none => (db, [], { r with point := .ended false })
    | .ended _ => (db, [], r)
  | .fail => match r.point with
    | .ended _ => (db, [], r)
    | _ => (db, [], { r with point := .ended false })

end IngestRequest

/-! ## Moves -/

inductive MovePoint where
  /-- `move_to_collection` has read the document. -/
  | loaded (collectionId : Option Uuid)
  /-- The document is there already; its chunks are updated. -/
  | updated (ids : List Uuid)
  | ended

structure MoveRequest where
  documentId : Uuid
  collectionId : Option Uuid
  point : MovePoint

namespace MoveRequest

def start (db : RagTables) (documentId : Uuid) (collectionId : Option Uuid) : MoveRequest where
  documentId := documentId
  collectionId := collectionId
  point := match db.documents documentId with
    | none => .ended
    | some doc => .loaded doc.collectionId

def commit (db : RagTables) (m : MoveRequest) (s : Statement) : RagTables × MoveRequest :=
  ((db.commit [s]).getD db, { m with point := .ended })

/-- Where the collection changes, the lock on the document's row keeps new chunks out until the
move commits. -/
def step (db : RagTables) (m : MoveRequest) : SessionEvent → RagTables × MoveRequest
  | .proceed => match m.point with
    | .loaded collectionId =>
      if collectionId = m.collectionId then
        (db, { m with point := .updated ((db.chunksOf m.documentId).map (·.id)) })
      else m.commit db (.moveDocument m.documentId m.collectionId)
    | .updated ids => m.commit db (.moveChunks m.documentId ids m.collectionId)
    | .ended => (db, m)
  | .fail => (db, { m with point := .ended })

end MoveRequest

/-! ## Workers -/

/-- What the file store, the processor and the embedding provider come to for a document. -/
inductive Processing where
  /-- The text, how many vectors the provider returned, and the ids drawn for the chunks. -/
  | embedded (text : RagText) (vectors : Nat) (ids : Nat → Uuid)
  | raised (message : String)

/-- How `process_document` ends. -/
inductive IngestResult where
  | notFound
  | ingested (collectionId : Option Uuid) (text : RagText) (vectors : Nat) (ids : Nat → Uuid)
  | failed (message : String)

/-- What a task that returned came to. -/
inductive IngestOutcome where
  | ingested | failed
  deriving DecidableEq

/-- The rows a worker has seen: whether it found the job at first, and whether the document. -/
structure Seen where
  job : Bool
  document : Bool

inductive WorkerPoint where
  | resolvingClient
  | readingJob
  | readingDocument (job : Bool)
  /-- The first event is added, which writes what was changed so far. -/
  | starting (job : Bool) (doc : Option RagLiteDocument)
  /-- The document is read again. -/
  | fetching (job : Bool) (doc : Option RagLiteDocument)
  | processing (seen : Seen) (doc : RagLiteDocument)
  /-- `found` tells whether the job was found in the end. -/
  | committing (seen : Seen) (found : Bool) (result : IngestResult)
  /-- The fresh session after a crash reads the document. -/
  | errorDocument (message : String)
  | errorJob (message : String) (doc : Option RagLiteDocument)
  | errorCommit (message : String) (doc : Option RagLiteDocument) (job : Bool)
  | returned (outcome : IngestOutcome)

structure IngestWorker where
  task : IngestTask
  point : WorkerPoint

inductive WorkerEvent where
  | proceed
  /-- The document is processed. -/
  | finish (p : Processing)
  /-- A statement or the resolution of the embedding client raises. -/
  | raise (message : String)

section
variable (cfg : ChunkerConfig)

/-- `zip(chunks, vectors)` as rows. -/
def chunkRecords (task : IngestTask) (collectionId : Option Uuid) (text : RagText) (vectors : Nat)
    (ids : Nat → Uuid) : List RagLiteChunk :=
  ((chunkText cfg text).take vectors).zipIdx.map fun (chunk, i) =>
    { id := ids i, documentId := task.documentId, collectionId, chunkIndex := chunk.index
      chunkText := chunk.text }

namespace IngestTask

variable (task : IngestTask)

def jobUpdate (found : Bool) (status : RagLiteJobStatus) (message : Option String) :
    List Statement :=
  if found then [.updateJob task.jobId status message] else []

/-- What a worker writes first. -/
def startStatements (seen : Seen) : List Statement :=
  task.jobUpdate seen.job .running none ++
    if seen.document then [.updateDocument task.documentId { status := some .processing }] else []

/-- What it writes in the end. -/
def resultStatements (found : Bool) : IngestResult → List Statement
  | .notFound => task.jobUpdate found .failed (some "Document not found")
  | .ingested collectionId text vectors ids =>
    let records := chunkRecords cfg task collectionId text vectors ids
    [.insertChunks records, .updateDocument task.documentId
      { status := some .ready, contentText := some (some text)
        chunkCount := some records.length }] ++
    task.jobUpdate found .completed none
  | .failed message =>
    .updateDocument task.documentId { status := some .error } ::
      task.jobUpdate found .failed (some message)

/-- What the session after a crash writes. -/
def errorStatements (message : String) (doc : Option RagLiteDocument) (job : Bool) :
    List Statement :=
  (if doc.any (·.status ≠ .error) then
    [.updateDocument task.documentId { status := some .error }] else []) ++
    task.jobUpdate job .failed (some message)

end IngestTask

namespace IngestWorker

/-- All statements of a worker's session. -/
def statements (task : IngestTask) (seen : Seen) (found : Bool) (result : IngestResult) :
    List Statement :=
  task.startStatements seen ++ task.resultStatements cfg found result

def start (task : IngestTask) : IngestWorker := ⟨task, .resolvingClient⟩

variable (w : IngestWorker) (db : RagTables)

def moveTo (point : WorkerPoint) : IngestWorker := { w with point }

def hasReturned : Bool := w.point matches .returned _

def jobVisible : Bool := (db.jobs w.task.jobId).isSome

/-- A failure: of the session, which makes the task open a fresh one, or of that one, which is
logged. -/
def crash (message : String) : IngestWorker :=
  match w.point with
  | .errorDocument _ | .errorJob _ _ | .errorCommit _ _ _ => w.moveTo (.returned .failed)
  | .returned _ => w
  | _ => w.moveTo (.errorDocument message)

def outcomeOf : IngestResult → IngestOutcome
  | .ingested _ _ _ _ => .ingested
  | _ => .failed

/-- What a task does next. -/
def proceed : RagTables × IngestWorker :=
  match w.point with
  | .resolvingClient => (db, w.moveTo .readingJob)
  | .readingJob => (db, w.moveTo (.readingDocument (w.jobVisible db)))
  | .readingDocument job => (db, w.moveTo (.starting job (db.documents w.task.documentId)))
  | .starting job doc =>
    if w.jobVisible db && (db.commit (w.task.startStatements ⟨job, doc.isSome⟩)).isSome then
      (db, w.moveTo (.fetching job doc))
    else (db, w.crash "ForeignKeyViolation")
  | .fetching job doc => match doc.or (db.documents w.task.documentId) with
    | none => (db, w.moveTo (.committing ⟨job, false⟩ (job || w.jobVisible db) .notFound))
    | some row => (db, w.moveTo (.processing ⟨job, doc.isSome⟩ row))
  | .committing seen found result =>
    match db.commit (statements cfg w.task seen found result) with
    | some db' => (db', w.moveTo (.returned (outcomeOf result)))
    | none => (db, w.crash "IntegrityError")
  | .errorDocument message => (db, w.moveTo (.errorJob message (db.documents w.task.documentId)))
  | .errorJob message doc => (db, w.moveTo (.errorCommit message doc (w.jobVisible db)))
  | .errorCommit message doc job =>
    ((db.commit (w.task.errorStatements message doc job)).getD db, w.moveTo (.returned .failed))
  | .processing _ _ | .returned _ => (db, w)

def step : WorkerEvent → RagTables × IngestWorker
  | .proceed => w.proceed cfg db
  | .raise message => (db, w.crash message)
  | .finish p => match w.point, p with
    | .processing seen doc, .embedded text vectors ids =>
      (db, w.moveTo (.committing seen (seen.job || w.jobVisible db)
        (.ingested doc.collectionId text vectors ids)))
    | .processing seen _, .raised message =>
      (db, w.moveTo (.committing seen (seen.job || w.jobVisible db) (.failed message)))
    | _, _ => (db, w)

end IngestWorker

end

end LlmPort.Backend.RagLite
