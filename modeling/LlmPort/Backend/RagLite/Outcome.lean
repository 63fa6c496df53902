import LlmPort.Backend.RagLite.Ingest

/-!
# Recorded outcomes of ingests

An upload or a retry sends its message before it commits, so its worker may look for rows that are
not there yet. What the worker comes to is recorded as long as the session after a crash does not
fail and looks the rows up when the request has ended.
-/

namespace LlmPort.Backend.RagLite

open NodeControl Transition

def RagLiteJobStatus.isTerminal : RagLiteJobStatus → Bool
  | .completed | .failed => true
  | .queued | .running => false

/-- The status of the document that matches an outcome. -/
def IngestOutcome.documentStatus : IngestOutcome → RagLiteDocumentStatus
  | .ingested => .ready
  | .failed => .error

/-- The job is in a terminal state, and the document in the status that matches the outcome. -/
def RagTables.Records (t : RagTables) (task : IngestTask) (outcome : IngestOutcome) : Prop :=
  (t.jobs task.jobId).any (·.status.isTerminal) ∧
    (t.documents task.documentId).any (·.status = outcome.documentStatus)

/-- The steps of the first request and of the worker of its message. -/
def IngestEvent.isOfJob : IngestEvent → Bool
  | .request 0 _ | .consume 0 | .worker 0 _ => true
  | _ => false

namespace IngestRequest

variable (r : IngestRequest)

def hasEnded : Bool := r.point matches .ended _

def hasCommitted : Bool := r.point matches .ended true

/-- The message is sent, if there is to be one. -/
def hasSent : Bool := r.point matches .dispatched _ | .ended _

end IngestRequest

/-- What a task that returned came to. -/
def IngestWorker.outcome (w : IngestWorker) : Option IngestOutcome :=
  match w.point with
  | .returned outcome => some outcome
  | _ => none

/-- The session after a crash does not fail, and it looks the rows up when the request has ended,
or finds the document in a status that it changes. -/
def IngestWorker.recordsInTime (w : IngestWorker) (db : RagTables) (ended : Bool) :
    WorkerEvent → Bool
  | .proceed => match w.point with
    | .errorDocument _ => ended || (db.documents w.task.documentId).any (·.status ≠ .error)
    | .errorJob _ _ => ended
    | _ => true
  | .raise _ => match w.point with
    | .errorDocument _ | .errorJob _ _ | .errorCommit _ _ _ => false
    | _ => true
  | .finish _ => true

namespace IngestSystem

/-- A request is to go on, and there are no messages and no workers. -/
def dispatching (db : RagTables) (r : IngestRequest) : IngestSystem := ⟨db, [], [r], [], []⟩

variable (sys : IngestSystem)

def recordsInTime : IngestEvent → Bool
  | .worker i e => sys.workers[i]?.all fun w =>
    w.recordsInTime sys.db (sys.requests.all (·.hasEnded)) e
  | _ => true

/-- Where the request has committed and the worker has returned, the outcome is recorded. -/
def RecordsOutcome : Prop :=
  ∀ r ∈ sys.requests, r.hasCommitted → ∀ w ∈ sys.workers, ∀ outcome ∈ w.outcome,
    sys.db.Records r.task outcome

instance (t : RagTables) (task : IngestTask) (outcome : IngestOutcome) :
    Decidable (t.Records task outcome) :=
  inferInstanceAs (Decidable (_ ∧ _))

instance : Decidable sys.RecordsOutcome :=
  inferInstanceAs (Decidable (∀ r ∈ sys.requests, r.hasCommitted → ∀ w ∈ sys.workers,
    ∀ outcome ∈ w.outcome, sys.db.Records r.task outcome))

end IngestSystem

/-! ## What the transactions write -/

section
variable {cfg : ChunkerConfig} {t t' : RagTables} {task : IngestTask} {seen : Seen} {found : Bool}

namespace RagTables

variable {ss : List Statement} {id : Uuid}

theorem jobs_updateJob {status : RagLiteJobStatus} {message : Option String}
    (h : t.commit (ss ++ [.updateJob id status message]) = some t') :
    ∃ job, t'.jobs id = some job ∧ job.status = status := by
  rw [commit_append] at h
  obtain ⟨t₁, -, h⟩ := Option.bind_eq_some_iff.1 h
  rw [commit_singleton] at h
  obtain ⟨job, -, rfl⟩ := Option.map_eq_some_iff.1 h
  exact ⟨_, Function.update_self .., rfl⟩

end RagTables

/-- A request inserts its job. -/
theorem Preparation.commit_job {prep : Preparation} (h : t.commit (prep.statements task) = some t') :
    t.jobs task.jobId = none ∧ (t'.jobs task.jobId).isSome ∧
      (t'.documents task.documentId).isSome := by
  have hinsert : ∀ t₁ : RagTables, t₁.jobs = t.jobs →
      t₁.commit [.insertJob task.jobId task.queuedJob] = some t' →
      t.jobs task.jobId = none ∧ (t'.jobs task.jobId).isSome ∧
        (t'.documents task.documentId).isSome := by
    intro t₁ hjobs h
    rw [RagTables.commit_singleton] at h
    obtain ⟨hok, heq⟩ := Option.ite_none_right_eq_some.1 h
    cases heq
    obtain ⟨hnone, hsome⟩ := Bool.and_eq_true_iff.1 hok
    rw [hjobs] at hnone
    exact ⟨Option.isNone_iff_eq_none.1 hnone, by simp [RagTables.setJob], hsome⟩
  cases prep with
  | upload collectionId filename key =>
    rw [statements, RagTables.commit_cons] at h
    obtain ⟨t₁, h₁, h⟩ := Option.bind_eq_some_iff.1 h
    obtain ⟨-, heq⟩ := Option.ite_none_right_eq_some.1 h₁
    cases heq
    exact hinsert _ (by rfl) h
  | retry loaded ids =>
    rw [statements, RagTables.commit_cons] at h
    obtain ⟨t₁, h₁, h⟩ := Option.bind_eq_some_iff.1 h
    cases h₁
    rw [RagTables.commit_cons] at h
    obtain ⟨t₂, h₂, h⟩ := Option.bind_eq_some_iff.1 h
    obtain ⟨doc, -, rfl⟩ := Option.map_eq_some_iff.1 h₂
    exact hinsert _ (by rfl) h

/-- What a worker's session makes of the status of its document. -/
theorem status_statements {result : IngestResult} (hresult : result ≠ .notFound)
    (hdoc : (t.documents task.documentId).isSome)
    (h : t.commit (IngestWorker.statements cfg task seen found result) = some t') :
    (t'.documents task.documentId).any
      (·.status = (IngestWorker.outcomeOf result).documentStatus) := by
  obtain ⟨doc, hdoc⟩ := Option.isSome_iff_exists.1 hdoc
  cases result with
  | notFound => exact (hresult rfl).elim
  | ingested collectionId text vectors ids =>
    rw [(commit_ingested h).1, hdoc]
    rfl
  | failed message =>
    rw [documents_commit_of_concerns (IngestWorker.concerns_statements _) h, hdoc,
      IngestWorker.statements, List.foldl_append, foldl_onDocument_start,
      IngestTask.resultStatements, List.foldl_cons, foldl_onDocument_jobUpdate]
    split <;> simp [Statement.onDocument, DocumentPatch.apply] <;> rfl

/-- A worker that finds its job and its document records what it comes to. -/
theorem records_statements {result : IngestResult} (hfound : found) (hresult : result ≠ .notFound)
    (hdoc : (t.documents task.documentId).isSome)
    (h : t.commit (IngestWorker.statements cfg task seen found result) = some t') :
    t'.Records task (IngestWorker.outcomeOf result) := by
  refine ⟨?_, status_statements hresult hdoc h⟩
  subst hfound
  obtain ⟨ss, status, message, hss, hterminal⟩ : ∃ ss status message,
      IngestWorker.statements cfg task seen true result =
        ss ++ [.updateJob task.jobId status message] ∧ status.isTerminal := by
    cases result with
    | notFound => exact (hresult rfl).elim
    | ingested collectionId text vectors ids =>
      exact ⟨_, .completed, none, (List.append_assoc _ _ _).symm, rfl⟩
    | failed message =>
      exact ⟨task.startStatements seen ++ [.updateDocument task.documentId
        { status := some .error }], .failed, some message, by
          rw [List.append_assoc]; rfl, rfl⟩
  obtain ⟨job, hjob, rfl⟩ := RagTables.jobs_updateJob (hss ▸ h)
  rw [hjob]
  exact hterminal

theorem commit_jobUpdate {job : RagLiteIngestJob} (h : t.jobs task.jobId = some job)
    (status : RagLiteJobStatus) (message : String) :
    t.commit (task.jobUpdate true status (some message)) =
      some (t.setJob task.jobId { job with status, errorMessage := some message }) := by
  rw [IngestTask.jobUpdate, if_pos rfl, RagTables.commit_singleton, RagTables.execute, h]
  rfl

/-- So does the session after a crash. -/
theorem records_errorStatements {message : String} {doc : Option RagLiteDocument}
    (hjob : (t.jobs task.jobId).isSome) (hdoc : (t.documents task.documentId).isSome)
    (hstatus : doc.any (·.status ≠ .error) ∨ (t.documents task.documentId).any (·.status = .error)) :
    ∃ t', t.commit (task.errorStatements message doc true) = some t' ∧
      t'.Records task .failed := by
  obtain ⟨job, hjob⟩ := Option.isSome_iff_exists.1 hjob
  obtain ⟨row, hdoc⟩ := Option.isSome_iff_exists.1 hdoc
  rw [IngestTask.errorStatements]
  split
  next =>
    let row' : RagLiteDocument := { row with status := .error }
    refine ⟨(t.setDocument task.documentId row').setJob task.jobId
      { job with status := .failed, errorMessage := some message }, ?_, ?_⟩
    · rw [List.singleton_append, RagTables.commit_cons, RagTables.execute, hdoc]
      exact commit_jobUpdate (t := t.setDocument task.documentId row') hjob .failed message
    · simp [RagTables.Records, RagTables.setJob, RagTables.setDocument, row',
        RagLiteJobStatus.isTerminal, IngestOutcome.documentStatus]
  next hnone =>
    refine ⟨_, commit_jobUpdate hjob .failed message, ?_, hstatus.resolve_left hnone⟩
    simp [RagTables.setJob, RagLiteJobStatus.isTerminal]

end

/-! ## One request and its worker -/

/-- What is known of the rows of a request's job. -/
def IngestRequest.Rows (r : IngestRequest) (t : RagTables) : Prop :=
  match r.point with
  | .flushed _ | .dispatched _ => t.jobs r.task.jobId = none
  | .ended true => (t.jobs r.task.jobId).isSome ∧ (t.documents r.task.documentId).isSome
  | _ => True

/-- A worker writes when the request has ended; where this has committed, it writes the outcome. -/
def IngestWorker.Sound (w : IngestWorker) (t : RagTables) (r : IngestRequest) : Prop :=
  w.task = r.task ∧ match w.point with
    | .fetching _ _ | .processing _ _ => r.hasEnded
    | .committing _ found result => r.hasEnded ∧ (r.hasCommitted → found ∧ result ≠ .notFound)
    | .errorJob _ doc => doc.any (·.status ≠ .error) ∨
      r.hasEnded ∧ (r.hasCommitted → (t.documents r.task.documentId).any (·.status = .error))
    | .errorCommit _ doc job => r.hasEnded ∧ (r.hasCommitted → job ∧
      (doc.any (·.status ≠ .error) ∨ (t.documents r.task.documentId).any (·.status = .error)))
    | .returned outcome => r.hasEnded ∧ (r.hasCommitted → t.Records r.task outcome)
    | _ => True

/-- How far the message of a request has come. -/
inductive IngestSystem.OfJob : IngestSystem → Prop where
  | unsent {db : RagTables} {r : IngestRequest} (hrows : r.Rows db) :
      OfJob ⟨db, [], [r], [], []⟩
  | sent {db : RagTables} {r : IngestRequest} (hrows : r.Rows db) (hsent : r.hasSent) :
      OfJob ⟨db, [r.task], [r], [], []⟩
  | taken {db : RagTables} {r : IngestRequest} {w : IngestWorker} (hrows : r.Rows db)
      (hsent : r.hasSent) (hw : w.Sound db r) : OfJob ⟨db, [], [r], [], [w]⟩

section
variable {cfg : ChunkerConfig} {t : RagTables} {r : IngestRequest} {w : IngestWorker}

theorem rows_upload {task : IngestTask} {collectionId : Option Uuid} {filename key : RagText} :
    (IngestRequest.upload t task collectionId filename key).Rows t := by
  rw [IngestRequest.upload]
  split
  next h =>
    obtain ⟨t', h⟩ := Option.isSome_iff_exists.1 h
    exact (Preparation.commit_job h).1
  next => trivial

theorem rows_retry {task : IngestTask} : (IngestRequest.retry t task).Rows t := by
  simp only [IngestRequest.retry]
  split
  next => trivial
  next doc hdoc => split <;> trivial

theorem request_rows (hrows : r.Rows t) (e : SessionEvent) :
    (r.step t e).2.2.Rows (r.step t e).1 ∧ (r.step t e).2.2.task = r.task ∧
      ((r.step t e).2.1 = [] ∨ (r.step t e).2.1 = [r.task] ∧ (r.step t e).2.2.hasSent) := by
  obtain ⟨task, point⟩ := r
  cases e with
  | fail => cases point <;> exact ⟨by first | exact hrows | trivial, rfl, .inl rfl⟩
  | proceed =>
    cases point with
    | checked loaded => exact ⟨trivial, rfl, .inl rfl⟩
    | cleared loaded ids =>
      refine ⟨?_, rfl, .inl rfl⟩
      simp only [IngestRequest.step]
      split
      next h =>
        obtain ⟨t', h⟩ := Option.isSome_iff_exists.1 h
        exact (Preparation.commit_job h).1
      next => trivial
    | flushed prep => exact ⟨hrows, rfl, .inr ⟨rfl, rfl⟩⟩
    | dispatched prep =>
      simp only [IngestRequest.step]
      split
      next t' h => exact ⟨(Preparation.commit_job h).2, rfl, .inl rfl⟩
      next => exact ⟨trivial, rfl, .inl rfl⟩
    | ended committed => exact ⟨hrows, rfl, .inl rfl⟩

/-- A request that has sent its message ends, or it has ended before. -/
theorem request_sent (hsent : r.hasSent) (e : SessionEvent) :
    (r.step t e).2.1 = [] ∧ (r.step t e).2.2.hasSent ∧
      (r.step t e = (t, [], r) ∨ ¬ r.hasEnded ∧ (r.step t e).2.2.hasEnded) := by
  obtain ⟨task, point⟩ := r
  cases point with
  | dispatched prep =>
    cases e with
    | fail => exact ⟨rfl, rfl, .inr ⟨nofun, rfl⟩⟩
    | proceed =>
      simp only [IngestRequest.step]
      split <;> exact ⟨rfl, rfl, .inr ⟨nofun, rfl⟩⟩
  | ended committed => cases e <;> exact ⟨rfl, rfl, .inl rfl⟩
  | _ => cases hsent

/-- The worker stays as it is: where it takes the request to have ended, it has. -/
theorem sound_request (hrows : r.Rows t) (hsent : r.hasSent) (hw : w.Sound t r)
    (e : SessionEvent) : w.Sound (r.step t e).1 (r.step t e).2.2 := by
  obtain heq | ⟨hopen, -⟩ := (request_sent hsent e).2.2
  · rw [heq]
    exact hw
  · have htask := hw.1.trans (request_rows hrows e).2.1.symm
    obtain ⟨task, point⟩ := w
    cases point with
    | fetching job doc => exact (hopen hw.2).elim
    | processing seen doc => exact (hopen hw.2).elim
    | committing seen found result => exact (hopen hw.2.1).elim
    | errorJob message doc => exact ⟨htask, .inl (hw.2.resolve_right fun h => hopen h.1)⟩
    | errorCommit message doc job => exact (hopen hw.2.1).elim
    | returned outcome => exact (hopen hw.2.1).elim
    | _ => exact ⟨htask, trivial⟩

theorem rows_of_records {t' : RagTables} {outcome : IngestOutcome} (hended : r.hasEnded)
    (h : r.hasCommitted → t'.Records r.task outcome) : r.Rows t' := by
  obtain ⟨task, point⟩ := r
  cases point with
  | ended committed =>
    cases committed with
    | false => trivial
    | true => exact ⟨Option.isSome_of_any (h rfl).1, Option.isSome_of_any (h rfl).2⟩
  | _ => cases hended

theorem rows_of_committed (hrows : r.Rows t) (h : r.hasCommitted) :
    (t.jobs r.task.jobId).isSome ∧ (t.documents r.task.documentId).isSome := by
  obtain ⟨task, point⟩ := r
  cases point with
  | ended committed =>
    cases committed with
    | false => cases h
    | true => exact hrows
  | _ => cases h

/-- A job that is there is that of a request that has ended. -/
theorem hasEnded_of_job (hrows : r.Rows t) (hsent : r.hasSent)
    (h : (t.jobs r.task.jobId).isSome) : r.hasEnded := by
  obtain ⟨task, point⟩ := r
  cases point with
  | dispatched prep =>
    have hnone : t.jobs task.jobId = none := hrows
    rw [hnone] at h
    cases h
  | ended committed => rfl
  | _ => cases hsent

theorem IngestWorker.point_of_outcome {outcome : IngestOutcome} (h : outcome ∈ w.outcome) :
    w.point = .returned outcome := by
  obtain ⟨task, point⟩ := w
  cases point with
  | returned outcome' => rw [Option.some.inj h]
  | _ => cases h

theorem sound_crash (hw : w.Sound t r) (hok : w.recordsInTime t r.hasEnded (.raise message)) :
    (w.crash message).Sound t r := by
  obtain ⟨task, point⟩ := w
  cases point with
  | errorDocument => cases hok
  | errorJob => cases hok
  | errorCommit => cases hok
  | returned outcome => exact hw
  | _ => exact ⟨hw.1, trivial⟩

theorem sound_worker (hrows : r.Rows t) (hsent : r.hasSent) (hw : w.Sound t r) {e : WorkerEvent}
    (hok : w.recordsInTime t r.hasEnded e) :
    r.Rows (w.step cfg t e).1 ∧ (w.step cfg t e).2.Sound (w.step cfg t e).1 r := by
  cases e with
  | raise message => exact ⟨hrows, sound_crash hw hok⟩
  | finish p =>
    obtain ⟨task, point⟩ := w
    obtain ⟨rfl, hw⟩ := hw
    cases point with
    | processing seen doc =>
      have hfound : r.hasCommitted → (seen.job || (t.jobs r.task.jobId).isSome) := by
        intro h
        rw [(rows_of_committed hrows h).1, Bool.or_true]
      cases p with
      | embedded text vectors ids => exact ⟨hrows, rfl, hw, fun h => ⟨hfound h, nofun⟩⟩
      | raised message => exact ⟨hrows, rfl, hw, fun h => ⟨hfound h, nofun⟩⟩
    | _ => exact ⟨hrows, rfl, hw⟩
  | proceed =>
    obtain ⟨task, point⟩ := w
    obtain ⟨rfl, hw⟩ := hw
    cases point with
    | resolvingClient => exact ⟨hrows, rfl, trivial⟩
    | readingJob => exact ⟨hrows, rfl, trivial⟩
    | readingDocument job => exact ⟨hrows, rfl, trivial⟩
    | starting job doc =>
      simp only [IngestWorker.step, IngestWorker.proceed]
      split
      next hvisible =>
        have hjob := (Bool.and_eq_true_iff.1 hvisible).1
        exact ⟨hrows, rfl, hasEnded_of_job hrows hsent hjob⟩
      next => exact ⟨hrows, rfl, trivial⟩
    | fetching job doc =>
      simp only [IngestWorker.step, IngestWorker.proceed]
      split
      next hnone =>
        refine ⟨hrows, rfl, hw, fun h => ?_⟩
        have hdoc := (rows_of_committed hrows h).2
        rw [(Option.or_eq_none_iff.1 hnone).2] at hdoc
        cases hdoc
      next => exact ⟨hrows, rfl, hw⟩
    | processing seen doc => exact ⟨hrows, rfl, hw⟩
    | committing seen found result =>
      simp only [IngestWorker.step, IngestWorker.proceed]
      split
      next t' h =>
        have hrecords : r.hasCommitted → t'.Records r.task (IngestWorker.outcomeOf result) :=
          fun hc => records_statements (hw.2 hc).1 (hw.2 hc).2 (rows_of_committed hrows hc).2 h
        exact ⟨rows_of_records hw.1 hrecords, rfl, hw.1, hrecords⟩
      next => exact ⟨hrows, rfl, trivial⟩
    | errorDocument message =>
      refine ⟨hrows, rfl, ?_⟩
      obtain hended | hdoc := Bool.or_eq_true_iff.1 hok
      · refine Decidable.or_iff_not_imp_left.2 fun hany => ⟨hended, fun h => ?_⟩
        obtain ⟨doc, hdoc⟩ := Option.isSome_iff_exists.1 (rows_of_committed hrows h).2
        have hstatus : (t.documents r.task.documentId).any (·.status = .error) := by
          simpa [hdoc] using hany
        exact hstatus
      · exact .inl hdoc
    | errorJob message doc =>
      refine ⟨hrows, rfl, hok, fun h => ⟨(rows_of_committed hrows h).1, ?_⟩⟩
      exact hw.imp_right fun hdoc => hdoc.2 h
    | errorCommit message doc job =>
      have hrecords : r.hasCommitted →
          ((t.commit (r.task.errorStatements message doc job)).getD t).Records r.task .failed := by
        intro h
        obtain ⟨hjob, hstatus⟩ := hw.2 h
        obtain ⟨hjobs, hdocs⟩ := rows_of_committed hrows h
        subst hjob
        obtain ⟨t', ht', hrecords⟩ := records_errorStatements hjobs hdocs hstatus
        rw [ht']
        exact hrecords
      exact ⟨rows_of_records hw.1 hrecords, rfl, hw.1, hrecords⟩
    | returned outcome => exact ⟨hrows, rfl, hw⟩

theorem step_request {queue : List IngestTask} {workers : List IngestWorker} {e : SessionEvent} :
    IngestSystem.step cfg ⟨t, queue, [r], [], workers⟩ (.request 0 e) =
      ⟨(r.step t e).1, queue ++ (r.step t e).2.1, [(r.step t e).2.2], [], workers⟩ := rfl

/-- A step of one of the two leaves both as they should be. -/
theorem IngestSystem.OfJob.step {sys : IngestSystem} (H : sys.OfJob) {e : IngestEvent}
    (hjob : e.isOfJob) (hok : sys.recordsInTime e) : (sys.step cfg e).OfJob := by
  cases e with
  | request i e =>
    cases i with
    | succ i => cases hjob
    | zero =>
      cases H with
      | @unsent db r hrows =>
        obtain ⟨hrows', htask, hnil | ⟨hsend, hsent⟩⟩ := request_rows hrows e
        · rw [step_request, hnil]
          exact .unsent hrows'
        · rw [step_request, hsend, ← htask]
          exact .sent hrows' hsent
      | @sent db r hrows hsent =>
        obtain ⟨hrows', htask, -⟩ := request_rows hrows e
        obtain ⟨hnil, hsent', -⟩ := request_sent (t := db) hsent e
        rw [step_request, hnil, ← htask]
        exact .sent hrows' hsent'
      | @taken db r w hrows hsent hw =>
        obtain ⟨hnil, hsent', -⟩ := request_sent (t := db) hsent e
        rw [step_request, hnil]
        exact .taken (request_rows hrows e).1 hsent' (sound_request hrows hsent hw e)
  | consume i =>
    cases i with
    | succ i => cases hjob
    | zero =>
      cases H with
      | unsent hrows => exact .unsent hrows
      | sent hrows hsent => exact .taken hrows hsent ⟨rfl, trivial⟩
      | taken hrows hsent hw => exact .taken hrows hsent hw
  | worker i e =>
    cases i with
    | succ i => cases hjob
    | zero =>
      cases H with
      | unsent hrows => exact .unsent hrows
      | sent hrows hsent => exact .sent hrows hsent
      | @taken db r w hrows hsent hw =>
        rw [IngestSystem.recordsInTime, List.all_cons, List.all_nil, Bool.and_true] at hok
        obtain ⟨hrows', hw'⟩ := sound_worker hrows hsent hw hok
        exact .taken hrows' hsent hw'
  | _ => cases hjob

theorem recordsOutcome_of_ofJob {sys : IngestSystem} (H : sys.OfJob) : sys.RecordsOutcome := by
  intro r' hr' hcommitted w' hw' outcome houtcome
  cases H with
  | unsent => cases hw'
  | sent => cases hw'
  | @taken db r w hrows hsent hw =>
    cases List.mem_singleton.1 hr'
    cases List.mem_singleton.1 hw'
    have hsound := hw.2
    rw [IngestWorker.point_of_outcome houtcome] at hsound
    exact hsound.2 hcommitted

/-- A request that begins to ingest a document. -/
inductive BeginsIngest (t : RagTables) : IngestRequest → Prop where
  | upload (task : IngestTask) (collectionId : Option Uuid) (filename fileStoreKey : RagText) :
      BeginsIngest t (.upload t task collectionId filename fileStoreKey)
  | retry (task : IngestTask) : BeginsIngest t (.retry t task)

/-- Where the session after a crash is in time, an ingest records its outcome. -/
theorem recordsOutcome_of_inTime (hr : BeginsIngest t r) {es : List IngestEvent}
    (hjob : ∀ e ∈ es, e.isOfJob)
    (h : Guarded (IngestSystem.step cfg) (fun sys e => sys.recordsInTime e) (.dispatching t r) es) :
    (run (IngestSystem.step cfg) (.dispatching t r) es).RecordsOutcome := by
  have hrows : r.Rows t := by
    cases hr with
    | upload => exact rows_upload
    | retry => exact rows_retry
  have hstart : (IngestSystem.dispatching t r).OfJob := .unsent hrows
  apply recordsOutcome_of_ofJob
  exact (h.and_events hjob).invariant (fun sys e H hok => H.step hok.1 hok.2) hstart

end

end LlmPort.Backend.RagLite
