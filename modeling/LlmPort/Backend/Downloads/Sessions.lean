import LlmPort.Backend.Downloads.Scanner
import LlmPort.Backend.NodeControl.Model
import LlmPort.Transition.Run

/-!
# Downloads of a model

`start_download`, the cancel and retry endpoints of jobs and `download_model_task`, for one model
and its job, one step for each statement they wait for. A session reads committed rows, and of a
row it has read it writes the columns that change.
-/

namespace LlmPort.Backend.Downloads

open NodeControl (ModelStatus)

inductive DownloadJobStatus where
  | queued | running | success | failed | canceled
  deriving DecidableEq

structure DownloadJob where
  status : DownloadJobStatus
  progress : Nat
  errorMessage : Option String
  deriving DecidableEq

/-- The committed rows of the model, its job and its artifacts. -/
structure DownloadTables where
  model : Option ModelStatus
  job : Option DownloadJob
  artifacts : List ModelArtifact

/-! ## What a session writes -/

/-- A column is written where it changes. -/
def changed {α : Type} [DecidableEq α] (old new : α) : Option α :=
  if new = old then none else some new

structure JobPatch where
  status : Option DownloadJobStatus := none
  progress : Option Nat := none
  errorMessage : Option (Option String) := none
  deriving DecidableEq

namespace JobPatch

def between (old new : DownloadJob) : JobPatch where
  status := changed old.status new.status
  progress := changed old.progress new.progress
  errorMessage := changed old.errorMessage new.errorMessage

def apply (p : JobPatch) (job : DownloadJob) : DownloadJob where
  status := p.status.getD job.status
  progress := p.progress.getD job.progress
  errorMessage := p.errorMessage.getD job.errorMessage

end JobPatch

structure Changes where
  artifacts : List ModelArtifact := []
  model : Option ModelStatus := none
  job : JobPatch := {}

/-- Two sessions write the same row. -/
def Changes.meets (c c' : Changes) : Bool :=
  c.model.isSome && c'.model.isSome || (c.job ≠ {} && c'.job ≠ {})

namespace DownloadTables

variable (t : DownloadTables)

/-- A commit takes effect as a whole, or, where a row it refers to is gone, not at all. -/
def commit (c : Changes) : Option DownloadTables :=
  if t.model = none ∧ (c.artifacts ≠ [] ∨ c.model ≠ none) ∨ t.job = none ∧ c.job ≠ {} then none
  else some
    { model := c.model.or t.model
      job := t.job.map c.job.apply
      artifacts := t.artifacts ++ c.artifacts }

/-- `set_status` of the model that is found. -/
def modelChange (status : ModelStatus) : Option ModelStatus :=
  t.model.bind fun old => changed old status

/-- Changes of the job that is found. -/
def jobChange (f : DownloadJob → DownloadJob) : JobPatch :=
  match t.job with
  | none => {}
  | some job => .between job (f job)

end DownloadTables

theorem changed_eq_none_or {α : Type} [DecidableEq α] (old new : α) :
    changed old new = none ∧ new = old ∨ changed old new = some new := by
  rw [changed]
  split
  next heq => exact .inl ⟨rfl, heq⟩
  next => exact .inr rfl

theorem getD_changed {α : Type} [DecidableEq α] (old new : α) : (changed old new).getD old = new := by
  obtain ⟨h, heq⟩ | h := changed_eq_none_or old new
  · rw [h, heq]
    rfl
  · rw [h]
    rfl

@[simp] theorem JobPatch.apply_between (old new : DownloadJob) :
    (JobPatch.between old new).apply old = new := by
  rw [JobPatch.apply, JobPatch.between]
  simp only [getD_changed]

@[simp] theorem JobPatch.apply_empty (job : DownloadJob) : ({} : JobPatch).apply job = job := rfl

theorem job_commit {t t' : DownloadTables} {c : Changes} (h : t.commit c = some t') :
    t'.job = t.job.map c.job.apply := by
  obtain ⟨-, heq⟩ := Option.ite_none_left_eq_some.1 h
  cases heq
  rfl

namespace DownloadJob

/-- `update_progress` to a status that is no failure -/
def updateProgress (progress : Nat) (status : DownloadJobStatus) (_ : DownloadJob) : DownloadJob :=
  { progress, status, errorMessage := none }

def setFailed (message : String) (job : DownloadJob) : DownloadJob :=
  { job with status := .failed, errorMessage := some message }

def setCanceled (job : DownloadJob) : DownloadJob := { job with status := .canceled }

/-- The reset by `retry_job` -/
def reset (_ : DownloadJob) : DownloadJob :=
  { status := .queued, progress := 0, errorMessage := none }

end DownloadJob

/-! ## Requests -/

inductive RequestKind where
  | start | retry | cancel
  deriving DecidableEq

inductive Writes where
  /-- The rows of the model and its job. -/
  | insertRows (errorMessage : Option String)
  | update (model : Option ModelStatus) (job : JobPatch)

inductive RequestPoint where
  /-- The status check has passed. -/
  | accepted (job : DownloadJob)
  /-- A message is to be sent. -/
  | flushed (w : Writes)
  | ready (w : Writes)
  | ended (committed : Bool)

structure DownloadRequest where
  kind : RequestKind
  point : RequestPoint

inductive RequestEvent where
  | proceed
  /-- `kiq` raises, which `start_download` catches. -/
  | undelivered (error : String)
  | fail

/-- A statement waits for the rows it writes; a failure does not. -/
def RequestEvent.waits : RequestEvent → Bool
  | proceed => true
  | _ => false

namespace DownloadTables

def execute (t : DownloadTables) : Writes → Option DownloadTables
  | .insertRows errorMessage =>
    if t.model = none ∧ t.job = none then
      some { t with model := some .downloading, job := some ⟨.queued, 0, errorMessage⟩ }
    else none
  | .update model job => t.commit { model, job }

end DownloadTables

namespace DownloadRequest

def canRetry : DownloadJobStatus → Bool
  | .queued | .failed | .canceled => true
  | _ => false

def canCancel : DownloadJobStatus → Bool
  | .queued | .running => true
  | _ => false

/-- The job is found, in a status that allows the request. -/
def opened (db : DownloadTables) (kind : RequestKind) (allowed : DownloadJobStatus → Bool) :
    DownloadRequest where
  kind := kind
  point := match db.job with
    | none => .ended false
    | some job => if allowed job.status then .accepted job else .ended false

def retry (db : DownloadTables) : DownloadRequest := opened db .retry canRetry

def cancel (db : DownloadTables) : DownloadRequest := opened db .cancel canCancel

/-- What the session has written and not committed. -/
def written (r : DownloadRequest) : Changes :=
  match r.point with
  | .flushed (.update model job) | .ready (.update model job) => { model, job }
  | _ => {}

/-- What a request that has passed the check makes of the model. -/
def modelPatch (r : DownloadRequest) (db : DownloadTables) : Option ModelStatus :=
  if r.kind = .retry then db.modelChange .downloading else none

/-- What it makes of the job it has found. -/
def jobPatch (r : DownloadRequest) (job : DownloadJob) : JobPatch :=
  .between job (if r.kind = .retry then job.reset else job.setCanceled)

/-- What it writes next. -/
def pending (r : DownloadRequest) (db : DownloadTables) : Changes :=
  match r.point with
  | .accepted job => { model := r.modelPatch db, job := r.jobPatch job }
  | _ => {}

/-- One step: the committed rows, how many messages it sends and the request after it. -/
def step (db : DownloadTables) (r : DownloadRequest) :
    RequestEvent → DownloadTables × Nat × DownloadRequest
  | .proceed => match r.point with
    | .accepted job =>
      if (db.commit (r.pending db)).isSome then
        let w := Writes.update (r.modelPatch db) (r.jobPatch job)
        (db, 0, { r with point := if r.kind = .cancel then .ready w else .flushed w })
      else (db, 0, { r with point := .ended false })
    | .flushed w => (db, 1, { r with point := .ready w })
    | .ready w => match db.execute w with
      | some db' => (db', 0, { r with point := .ended true })
      | none => (db, 0, { r with point := .ended false })
    | .ended _ => (db, 0, r)
  | .undelivered error => match r.point with
    | .flushed (.insertRows _) => (db, 0, { r with
      point := .ready (.insertRows (some ("Dispatch failed: " ++ error))) })
    | .flushed _ => (db, 0, { r with point := .ended false })
    | _ => (db, 0, r)
  | .fail => match r.point with
    | .ended _ => (db, 0, r)
    | _ => (db, 0, { r with point := .ended false })

end DownloadRequest

/-! ## Workers -/

/-- What a task that returned came to. -/
inductive DownloadOutcome where
  | success (artifacts : Nat)
  | failed

inductive WorkerPoint where
  /-- `update_progress` looks the job up. -/
  | reporting (progress : Nat)
  | reported (progress : Nat) (patch : JobPatch)
  | downloading
  | scanning
  | storing (snapshot : Option Snapshot)
  | settingModel (snapshot : Option Snapshot)
  | settingJob (snapshot : Option Snapshot) (model : Option ModelStatus)
  | committing (snapshot : Option Snapshot) (model : Option ModelStatus) (job : JobPatch)
  /-- The fresh session after a crash looks the model up. -/
  | errorModel (message : String)
  | errorJob (message : String) (model : Option ModelStatus)
  | errorCommit (model : Option ModelStatus) (job : JobPatch)
  | returned (outcome : DownloadOutcome)

structure DownloadWorker where
  lastPct : Nat
  point : WorkerPoint

inductive WorkerEvent where
  | proceed
  /-- The download thread reports its share of 85 percent. -/
  | report (progress : Nat)
  | downloaded
  | scanned (snapshot : Option Snapshot)
  /-- A progress update fails, which is not fatal. -/
  | skip
  | raise (message : String)

def WorkerEvent.waits : WorkerEvent → Bool
  | proceed => true
  | _ => false

namespace DownloadWorker

variable (w : DownloadWorker) (db : DownloadTables)

/-- A task begins by `update_progress(job_id, 0, RUNNING)`. -/
def start : DownloadWorker := ⟨0, .reporting 0⟩

def moveTo (point : WorkerPoint) : DownloadWorker := { w with point }

def hasReturned : Bool := w.point matches .returned _

/-- A failure: of the session, which makes the task open a fresh one, or of that one, which is
logged. -/
def crash (message : String) : DownloadWorker :=
  match w.point with
  | .errorModel _ | .errorJob _ _ | .errorCommit _ _ => w.moveTo (.returned .failed)
  | .returned _ => w
  | _ => w.moveTo (.errorModel message)

/-- What it is about to commit. -/
def pending : Changes :=
  match w.point with
  | .reported _ patch => { job := patch }
  | .committing snapshot model job => { artifacts := scanModelDirectory snapshot, model, job }
  | .errorCommit model job => { model, job }
  | _ => {}

def proceed : DownloadTables × DownloadWorker :=
  match w.point with
  | .reporting progress =>
    (db, w.moveTo (.reported progress (db.jobChange (.updateProgress progress .running))))
  | .reported progress _ => match db.commit w.pending with
    | some db' => (db', w.moveTo (if progress = 90 then .scanning else .downloading))
    | none => (db, w.crash "StaleDataError")
  | .storing snapshot =>
    if db.model = none ∧ scanModelDirectory snapshot ≠ [] then (db, w.crash "ForeignKeyViolation")
    else (db, w.moveTo (.settingModel snapshot))
  | .settingModel snapshot =>
    (db, w.moveTo (.settingJob snapshot (db.modelChange .available)))
  | .settingJob snapshot model =>
    (db, w.moveTo (.committing snapshot model (db.jobChange (.updateProgress 100 .success))))
  | .committing snapshot _ _ => match db.commit w.pending with
    | some db' => (db', w.moveTo (.returned (.success (scanModelDirectory snapshot).length)))
    | none => (db, w.crash "IntegrityError")
  | .errorModel message => (db, w.moveTo (.errorJob message (db.modelChange .failed)))
  | .errorJob message model =>
    (db, w.moveTo (.errorCommit model (db.jobChange (.setFailed message))))
  | .errorCommit _ _ => ((db.commit w.pending).getD db, w.moveTo (.returned .failed))
  | .downloading | .scanning | .returned _ => (db, w)

def step : WorkerEvent → DownloadTables × DownloadWorker
  | .proceed => w.proceed db
  | .raise message => (db, w.crash message)
  | .skip => match w.point with
    | .reporting progress | .reported progress _ =>
      (db, if progress = 0 ∨ progress = 90 then w else w.moveTo .downloading)
    | _ => (db, w)
  | .report progress => match w.point with
    | .downloading =>
      (db, if progress ≤ w.lastPct ∨ 85 < progress then w else ⟨progress, .reporting progress⟩)
    | _ => (db, w)
  | .downloaded => match w.point with
    | .downloading => (db, if 90 ≤ w.lastPct then w.moveTo .scanning else ⟨90, .reporting 90⟩)
    | _ => (db, w)
  | .scanned snapshot => match w.point with
    | .scanning => (db, w.moveTo (.storing snapshot))
    | _ => (db, w)

end DownloadWorker

/-! ## The system -/

structure DownloadSystem where
  db : DownloadTables
  /-- How many messages are in the queue. -/
  queue : Nat
  requests : List DownloadRequest
  workers : List DownloadWorker

inductive DownloadEvent where
  | retry
  | cancel
  | request (i : Nat) (e : RequestEvent)
  /-- A worker takes a message. -/
  | consume
  | worker (i : Nat) (e : WorkerEvent)
  | deleteModel

namespace DownloadSystem

variable (sys : DownloadSystem)

/-- Another session holds a row that is to be written. -/
def blocked (c : Changes) : Bool := sys.requests.any (·.written.meets c)


def withRequest (r : DownloadRequest) : DownloadSystem :=
  { sys with requests := sys.requests ++ [r] }

def onRequest (i : Nat) (e : RequestEvent) : DownloadSystem :=
  match sys.requests[i]? with
  | none => sys
  | some r =>
    if e.waits ∧ sys.blocked (r.pending sys.db) then sys
    else
      let (db, sent, r') := r.step sys.db e
      { sys with db, queue := sys.queue + sent, requests := sys.requests.set i r' }

def onWorker (i : Nat) (e : WorkerEvent) : DownloadSystem :=
  match sys.workers[i]? with
  | none => sys
  | some w =>
    if e.waits ∧ sys.blocked w.pending then sys
    else
      let (db, w') := w.step sys.db e
      { sys with db, workers := sys.workers.set i w' }

def onConsume : DownloadSystem :=
  if sys.queue = 0 then sys
  else { sys with queue := sys.queue - 1, workers := sys.workers ++ [.start] }

def step : DownloadEvent → DownloadSystem
  | .retry => sys.withRequest (.retry sys.db)
  | .cancel => sys.withRequest (.cancel sys.db)
  | .request i e => sys.onRequest i e
  | .consume => sys.onConsume
  | .worker i e => sys.onWorker i e
  | .deleteModel => { sys with db := ⟨none, none, []⟩ }

/-- `start_download` has flushed the rows of the model and its job. -/
def initial : DownloadSystem :=
  ⟨⟨none, none, []⟩, 0, [⟨.start, .flushed (.insertRows none)⟩], []⟩

end DownloadSystem

/-! ## What a step commits -/

variable {sys : DownloadSystem} {e : DownloadEvent}

theorem onRequest_eq {i : Nat} {e : RequestEvent} :
    sys.onRequest i e = sys ∨ ∃ r, sys.requests[i]? = some r ∧
      sys.onRequest i e = { sys with
        db := (r.step sys.db e).1
        queue := sys.queue + (r.step sys.db e).2.1
        requests := sys.requests.set i (r.step sys.db e).2.2 } := by
  rw [DownloadSystem.onRequest]
  split
  next => exact .inl rfl
  next r hr =>
    split
    next => exact .inl rfl
    next => exact .inr ⟨r, hr, rfl⟩

theorem onWorker_eq {i : Nat} {e : WorkerEvent} :
    sys.onWorker i e = sys ∨ ∃ w, sys.workers[i]? = some w ∧
      (e.waits → sys.blocked w.pending = false) ∧ sys.onWorker i e = { sys with
        db := (w.step sys.db e).1
        workers := sys.workers.set i (w.step sys.db e).2 } := by
  rw [DownloadSystem.onWorker]
  split
  next => exact .inl rfl
  next w hw =>
    split
    next => exact .inl rfl
    next hfree => exact .inr ⟨w, hw, fun hwaits => by simpa [hwaits] using hfree, rfl⟩

/-- The steps that change rows. -/
inductive Commits (sys : DownloadSystem) : DownloadEvent → DownloadTables → Prop where
  | request {i : Nat} {r : DownloadRequest} {w : Writes} {t : DownloadTables}
      (hr : sys.requests[i]? = some r) (hpoint : r.point = .ready w)
      (h : sys.db.execute w = some t) : Commits sys (.request i .proceed) t
  | reported {i : Nat} {w : DownloadWorker} {progress : Nat} {patch : JobPatch} {t : DownloadTables}
      (hw : sys.workers[i]? = some w) (hpoint : w.point = .reported progress patch)
      (hfree : sys.blocked w.pending = false) (h : sys.db.commit w.pending = some t) :
      Commits sys (.worker i .proceed) t
  | success {i : Nat} {w : DownloadWorker} {snapshot : Option Snapshot}
      {model : Option ModelStatus} {job : JobPatch} {t : DownloadTables}
      (hw : sys.workers[i]? = some w) (hpoint : w.point = .committing snapshot model job)
      (hfree : sys.blocked w.pending = false) (h : sys.db.commit w.pending = some t) :
      Commits sys (.worker i .proceed) t
  | error {i : Nat} {w : DownloadWorker} {model : Option ModelStatus} {job : JobPatch}
      {t : DownloadTables} (hw : sys.workers[i]? = some w)
      (hpoint : w.point = .errorCommit model job) (hfree : sys.blocked w.pending = false)
      (h : sys.db.commit w.pending = some t) : Commits sys (.worker i .proceed) t
  | deleteModel : Commits sys .deleteModel ⟨none, none, []⟩

theorem request_db (db : DownloadTables) (r : DownloadRequest) (e : RequestEvent) :
    (r.step db e).1 = db ∨ ∃ w, e = .proceed ∧ r.point = .ready w ∧
      db.execute w = some (r.step db e).1 := by
  obtain ⟨kind, point⟩ := r
  cases e with
  | fail => cases point <;> exact .inl rfl
  | undelivered error =>
    left
    cases point with
    | flushed w => cases w <;> rfl
    | _ => rfl
  | proceed =>
    cases point with
    | ready w =>
      simp only [DownloadRequest.step]
      cases h : db.execute w with
      | none => exact .inl rfl
      | some db' => exact .inr ⟨w, trivial, rfl, h⟩
    | accepted job =>
      left
      simp only [DownloadRequest.step]
      split <;> rfl
    | flushed w => exact .inl rfl
    | ended committed => exact .inl rfl

theorem worker_db (db : DownloadTables) (w : DownloadWorker) (e : WorkerEvent) :
    (w.step db e).1 = db ∨ e = .proceed ∧ db.commit w.pending = some (w.step db e).1 ∧
      ((∃ progress patch, w.point = .reported progress patch) ∨
        (∃ snapshot model job, w.point = .committing snapshot model job) ∨
        ∃ model job, w.point = .errorCommit model job) := by
  obtain ⟨lastPct, point⟩ := w
  cases e with
  | raise message => exact .inl rfl
  | skip => cases point <;> exact .inl rfl
  | report progress => cases point <;> exact .inl rfl
  | downloaded => cases point <;> exact .inl rfl
  | scanned snapshot => cases point <;> exact .inl rfl
  | proceed =>
    cases point with
    | reported progress patch =>
      simp only [DownloadWorker.step, DownloadWorker.proceed]
      cases h : db.commit (DownloadWorker.pending ⟨lastPct, .reported progress patch⟩) with
      | none => exact .inl rfl
      | some db' => exact .inr ⟨trivial, rfl, .inl ⟨progress, patch, rfl⟩⟩
    | committing snapshot model job =>
      simp only [DownloadWorker.step, DownloadWorker.proceed]
      cases h : db.commit (DownloadWorker.pending ⟨lastPct, .committing snapshot model job⟩) with
      | none => exact .inl rfl
      | some db' => exact .inr ⟨trivial, rfl, .inr (.inl ⟨snapshot, model, job, rfl⟩)⟩
    | errorCommit model job =>
      simp only [DownloadWorker.step, DownloadWorker.proceed]
      cases h : db.commit (DownloadWorker.pending ⟨lastPct, .errorCommit model job⟩) with
      | none => exact .inl rfl
      | some db' => exact .inr ⟨trivial, rfl, .inr (.inr ⟨model, job, rfl⟩)⟩
    | storing snapshot =>
      left
      simp only [DownloadWorker.step, DownloadWorker.proceed]
      split <;> rfl
    | _ => exact .inl rfl

/-- A step leaves the rows alone or commits. -/
theorem step_db (sys : DownloadSystem) (e : DownloadEvent) :
    (sys.step e).db = sys.db ∨ Commits sys e (sys.step e).db := by
  cases e with
  | retry => exact .inl rfl
  | cancel => exact .inl rfl
  | consume =>
    left
    rw [DownloadSystem.step, DownloadSystem.onConsume]
    split <;> rfl
  | deleteModel => exact .inr .deleteModel
  | request i e =>
    rw [DownloadSystem.step, DownloadSystem.onRequest]
    split
    next => exact .inl rfl
    next r hr =>
      split
      next => exact .inl rfl
      next =>
        apply (request_db sys.db r e).imp id
        rintro ⟨w, rfl, hpoint, h⟩
        exact .request hr hpoint h
  | worker i e =>
    rw [DownloadSystem.step, DownloadSystem.onWorker]
    split
    next => exact .inl rfl
    next w hw =>
      split
      next => exact .inl rfl
      next hfree =>
        apply (worker_db sys.db w e).imp id
        rintro ⟨rfl, h, hpoint⟩
        replace hfree : sys.blocked w.pending = false := by simpa [WorkerEvent.waits] using hfree
        obtain ⟨progress, patch, hpoint⟩ | ⟨snapshot, model, job, hpoint⟩ | ⟨model, job, hpoint⟩ :=
          hpoint
        · exact .reported hw hpoint hfree h
        · exact .success hw hpoint hfree h
        · exact .error hw hpoint hfree h

end LlmPort.Backend.Downloads
