import LlmPort.Backend.Downloads.Sessions

/-!
# Recorded outcomes of downloads

A download or a retry sends its message before it commits, so its worker may look for rows that are
not there yet, or that the commit is to change. What the worker comes to is recorded as long as it
looks the rows up for the last time when the request has ended, and the session after a crash does
not fail.
-/

namespace LlmPort.Backend.Downloads

open Transition
open NodeControl (ModelStatus)

def DownloadJobStatus.isTerminal : DownloadJobStatus → Bool
  | .success | .failed | .canceled => true
  | .queued | .running => false

namespace DownloadOutcome

/-- The status of the model that matches an outcome. -/
def modelStatus : DownloadOutcome → ModelStatus
  | .success _ => .available
  | .failed => .failed

end DownloadOutcome

/-- The job is in a terminal state, and the model in the status that matches the outcome. -/
def DownloadTables.Records (t : DownloadTables) (outcome : DownloadOutcome) : Prop :=
  t.job.any (·.status.isTerminal) ∧ t.model = some outcome.modelStatus

/-- The steps of the first request and of the worker of its message. -/
def DownloadEvent.isOfJob : DownloadEvent → Bool
  | .request 0 _ | .consume | .worker 0 _ => true
  | _ => false

namespace DownloadRequest

variable (r : DownloadRequest)

def hasEnded : Bool := r.point matches .ended _

def hasCommitted : Bool := r.point matches .ended true

/-- The message is sent, if there is to be one. -/
def hasSent : Bool := r.point matches .ready _ | .ended _

end DownloadRequest

/-- What a task that returned came to. -/
def DownloadWorker.outcome (w : DownloadWorker) : Option DownloadOutcome :=
  match w.point with
  | .returned outcome => some outcome
  | _ => none

/-- The session after a crash does not fail. A worker looks the rows up for its last transaction
when the request has ended, or finds them in a status that it changes. -/
def DownloadWorker.recordsInTime (w : DownloadWorker) (db : DownloadTables) (ended : Bool) :
    WorkerEvent → Bool
  | .proceed => match w.point with
    | .settingModel _ => ended || db.model.any (· ≠ .available)
    | .settingJob _ _ => ended || db.job.any (·.status ≠ .success)
    | .errorModel _ => ended || db.model.any (· ≠ .failed)
    | .errorJob _ _ => ended || db.job.any (·.status ≠ .failed)
    | _ => true
  | .raise _ => match w.point with
    | .errorModel _ | .errorJob _ _ | .errorCommit _ _ => false
    | _ => true
  | _ => true

namespace DownloadSystem

/-- A request is to go on, and there are no messages and no workers. -/
def dispatching (db : DownloadTables) (r : DownloadRequest) : DownloadSystem := ⟨db, 0, [r], []⟩

variable (sys : DownloadSystem)

def recordsInTime : DownloadEvent → Bool
  | .worker i e => sys.workers[i]?.all fun w =>
    w.recordsInTime sys.db (sys.requests.all (·.hasEnded)) e
  | _ => true

/-- Where the request has committed and the worker has returned, the outcome is recorded. -/
def RecordsOutcome : Prop :=
  ∀ r ∈ sys.requests, r.hasCommitted → ∀ w ∈ sys.workers, ∀ outcome ∈ w.outcome,
    sys.db.Records outcome

instance (t : DownloadTables) (outcome : DownloadOutcome) : Decidable (t.Records outcome) :=
  inferInstanceAs (Decidable (_ ∧ _))

instance : Decidable sys.RecordsOutcome :=
  inferInstanceAs (Decidable (∀ r ∈ sys.requests, r.hasCommitted → ∀ w ∈ sys.workers,
    ∀ outcome ∈ w.outcome, sys.db.Records outcome))

end DownloadSystem

/-! ## Rows that are there -/

section
variable {t t' : DownloadTables} {c : Changes} {r : DownloadRequest} {w : DownloadWorker}

theorem model_commit (h : t.commit c = some t') : t'.model = c.model.or t.model := by
  obtain ⟨-, heq⟩ := Option.ite_none_left_eq_some.1 h
  cases heq
  rfl

/-- A commit brings no rows and takes none. -/
theorem isSome_commit (h : t.commit c = some t') :
    t'.model.isSome = t.model.isSome ∧ t'.job.isSome = t.job.isSome := by
  rw [model_commit h, job_commit h, Option.isSome_map]
  refine ⟨?_, rfl⟩
  obtain ⟨hok, -⟩ := Option.ite_none_left_eq_some.1 h
  cases hmodel : t.model with
  | some old => simp
  | none =>
    have hnone : c.model = none := by
      by_contra hne
      exact hok (.inl ⟨hmodel, .inr hne⟩)
    rw [hnone]
    rfl

theorem commit_of_isSome (hmodel : t.model.isSome) (hjob : t.job.isSome) :
    ∃ t', t.commit c = some t' := by
  refine ⟨_, if_neg ?_⟩
  rintro (⟨hnone, -⟩ | ⟨hnone, -⟩)
  · rw [hnone] at hmodel
    cases hmodel
  · rw [hnone] at hjob
    cases hjob

/-- A start finds no rows, a retry those it resets. -/
def DownloadRequest.Rows (r : DownloadRequest) (t : DownloadTables) : Prop :=
  match r.point with
  | .flushed (.insertRows _) | .ready (.insertRows _) =>
    t.model.isSome = false ∧ t.job.isSome = false
  | .ended false => True
  | _ => t.model.isSome ∧ t.job.isSome

theorem rows_commit (hrows : r.Rows t) (h : t.commit c = some t') : r.Rows t' := by
  obtain ⟨hmodel, hjob⟩ := isSome_commit h
  rw [DownloadRequest.Rows, hmodel, hjob]
  exact hrows

theorem rows_request (hrows : r.Rows t) (e : RequestEvent) :
    (r.step t e).2.2.Rows (r.step t e).1 := by
  obtain ⟨kind, point⟩ := r
  cases e with
  | fail => cases point <;> first | exact hrows | trivial
  | undelivered error =>
    cases point with
    | flushed w =>
      cases w with
      | insertRows errorMessage => exact hrows
      | update model patch => trivial
    | _ => exact hrows
  | proceed =>
    cases point with
    | accepted job =>
      simp only [DownloadRequest.step]
      split
      next => split <;> exact hrows
      next => trivial
    | flushed w => cases w <;> exact hrows
    | ready w =>
      cases w with
      | insertRows errorMessage =>
        simp only [DownloadRequest.step]
        split
        next t' h =>
          obtain ⟨-, heq⟩ := Option.ite_none_right_eq_some.1 h
          cases heq
          exact ⟨rfl, rfl⟩
        next => trivial
      | update model patch =>
        simp only [DownloadRequest.step]
        split
        next t' h =>
          obtain ⟨hmodel, hjob⟩ := isSome_commit h
          simp only [DownloadRequest.Rows, hmodel, hjob]
          exact hrows
        next => trivial
    | ended committed => exact hrows

/-- A request that has sent its message ends, or it has ended before. -/
theorem request_sent (hsent : r.hasSent) (e : RequestEvent) : r.step t e = (t, 0, r) ∨
    ¬ r.hasEnded ∧ (r.step t e).2.1 = 0 ∧ (r.step t e).2.2.hasEnded ∧
      (t.model.isSome → (r.step t e).1.model.isSome) ∧
      (t.job.isSome → (r.step t e).1.job.isSome) := by
  obtain ⟨kind, point⟩ := r
  cases point with
  | ended committed => cases e <;> exact .inl rfl
  | ready w =>
    cases e with
    | undelivered error => exact .inl rfl
    | fail => exact .inr ⟨nofun, rfl, rfl, id, id⟩
    | proceed =>
      simp only [DownloadRequest.step]
      split
      next t' h =>
        refine .inr ⟨nofun, rfl, rfl, ?_⟩
        cases w with
        | insertRows errorMessage =>
          obtain ⟨-, heq⟩ := Option.ite_none_right_eq_some.1 h
          cases heq
          exact ⟨fun _ => rfl, fun _ => rfl⟩
        | update model patch =>
          obtain ⟨hmodel, hjob⟩ := isSome_commit h
          exact ⟨fun hsome => hmodel ▸ hsome, fun hsome => hjob ▸ hsome⟩
      next => exact .inr ⟨nofun, rfl, rfl, id, id⟩
  | _ => cases hsent

/-! ## What a worker is to write last -/

namespace DownloadRequest

/-- The model's status is to be written; or it is as it should be, if the request has committed. -/
def ModelDue (r : DownloadRequest) (t : DownloadTables) (status : ModelStatus)
    (model : Option ModelStatus) : Prop :=
  model = some status ∧ t.model.isSome ∨
    model = none ∧ r.hasEnded ∧ (r.hasCommitted → t.model = some status)

def JobDue (r : DownloadRequest) (t : DownloadTables) (status : DownloadJobStatus)
    (patch : JobPatch) : Prop :=
  patch.status = some status ∧ t.job.isSome ∨
    patch.status = none ∧ r.hasEnded ∧ (r.hasCommitted → t.job.any (·.status = status))

/-- It is to commit no changes. -/
def sparesRows (r : DownloadRequest) : Bool :=
  match r.point with
  | .ready (.update model patch) => model = none ∧ patch = {}
  | _ => false

/-- The outcome is recorded where the request has committed, and stays so where it is to commit. -/
def Settled (r : DownloadRequest) (t : DownloadTables) (outcome : DownloadOutcome) : Prop :=
  r.hasEnded ∧ (r.hasCommitted → t.Records outcome) ∨ r.sparesRows ∧ t.Records outcome

end DownloadRequest

theorem rows_of_committed (hrows : r.Rows t) (h : r.hasCommitted) :
    t.model.isSome ∧ t.job.isSome := by
  obtain ⟨kind, point⟩ := r
  cases point with
  | ended committed =>
    cases committed with
    | false => cases h
    | true => exact hrows
  | _ => cases h

theorem modelDue_modelChange {status : ModelStatus} (hrows : r.Rows t)
    (h : r.hasEnded || t.model.any (· ≠ status)) :
    r.ModelDue t status (t.modelChange status) := by
  rw [DownloadTables.modelChange]
  cases hmodel : t.model with
  | none =>
    refine .inr ⟨rfl, by simpa [hmodel] using h, fun hc => ?_⟩
    have hsome := (rows_of_committed hrows hc).1
    rw [hmodel] at hsome
    cases hsome
  | some old =>
    rw [Option.bind_some, changed]
    split
    next heq => exact .inr ⟨rfl, by simpa [hmodel, heq] using h, fun _ => by rw [hmodel, heq]⟩
    next => exact .inl ⟨rfl, by rw [hmodel]; rfl⟩

theorem jobDue_jobChange {status : DownloadJobStatus} {f : DownloadJob → DownloadJob}
    (hf : ∀ job, (f job).status = status) (hrows : r.Rows t)
    (h : r.hasEnded || t.job.any (·.status ≠ status)) : r.JobDue t status (t.jobChange f) := by
  rw [DownloadTables.jobChange]
  split
  next hjob =>
    refine .inr ⟨rfl, by simpa [hjob] using h, fun hc => ?_⟩
    have hsome := (rows_of_committed hrows hc).2
    rw [hjob] at hsome
    cases hsome
  next job hjob =>
    rw [DownloadRequest.JobDue, JobPatch.between, hf, changed]
    split
    next heq =>
      exact .inr ⟨rfl, by simpa [hjob, heq] using h, fun _ => by simp [hjob, heq]⟩
    next => exact .inl ⟨rfl, by rw [hjob]; rfl⟩

/-- The last transaction of a worker that is not kept from its rows. -/
theorem settled_commit {outcome : DownloadOutcome} {status : DownloadJobStatus}
    (hterminal : status.isTerminal) (hrows : r.Rows t) (hsent : r.hasSent)
    (hmodel : r.ModelDue t outcome.modelStatus c.model) (hjob : r.JobDue t status c.job)
    (hfree : r.written.meets c = false) (h : t.commit c = some t') : r.Settled t' outcome := by
  have hrecords : r.hasEnded = false ∨ r.hasCommitted → t'.Records outcome := by
    intro hcase
    constructor
    · rw [job_commit h]
      obtain ⟨hpatch, hsome⟩ | ⟨hpatch, hended, hdue⟩ := hjob
      · obtain ⟨job, hjob⟩ := Option.isSome_iff_exists.1 hsome
        rw [hjob]
        simpa [JobPatch.apply, hpatch] using hterminal
      · obtain hopen | hc := hcase
        · rw [hopen] at hended
          cases hended
        · obtain ⟨job, hjob, hstatus⟩ := (Option.any_eq_true _ _).1 (hdue hc)
          rw [hjob]
          simpa [JobPatch.apply, hpatch, of_decide_eq_true hstatus] using hterminal
    · rw [model_commit h]
      obtain ⟨hpatch, -⟩ | ⟨hpatch, hended, hdue⟩ := hmodel
      · rw [hpatch]
        rfl
      · obtain hopen | hc := hcase
        · rw [hopen] at hended
          cases hended
        · rw [hpatch, Option.none_or, hdue hc]
  cases hended : r.hasEnded with
  | true => exact .inl ⟨hended, fun hc => hrecords (.inr hc)⟩
  | false =>
    refine .inr ⟨?_, hrecords (.inl hended)⟩
    obtain ⟨hstatus, hsome⟩ := hmodel.resolve_right fun hno => by simp [hended] at hno
    obtain ⟨hjobStatus, -⟩ := hjob.resolve_right fun hno => by simp [hended] at hno
    obtain ⟨kind, point⟩ := r
    cases point with
    | ended committed => cases hended
    | ready w =>
      cases w with
      | insertRows errorMessage =>
        rw [hrows.1] at hsome
        cases hsome
      | update model patch =>
        have hjobne : c.job ≠ {} := by
          intro heq
          rw [heq] at hjobStatus
          cases hjobStatus
        simp [Changes.meets, DownloadRequest.written, hstatus, hjobne] at hfree
        obtain ⟨rfl, hpatch⟩ := hfree
        exact decide_eq_true ⟨rfl, Decidable.not_not.1 (of_decide_eq_false hpatch)⟩
    | _ => cases hsent

/-! ## One request and its worker -/

/-- What a worker is to write last is due. -/
def DownloadWorker.Sound (w : DownloadWorker) (t : DownloadTables) (r : DownloadRequest) : Prop :=
  match w.point with
  | .settingJob _ model => r.ModelDue t .available model
  | .committing _ model job => r.ModelDue t .available model ∧ r.JobDue t .success job
  | .errorJob _ model => r.ModelDue t .failed model
  | .errorCommit model job => r.ModelDue t .failed model ∧ r.JobDue t .failed job
  | .returned outcome => r.Settled t outcome
  | _ => True

theorem settled_request {outcome : DownloadOutcome} (hsent : r.hasSent) (h : r.Settled t outcome)
    (e : RequestEvent) : (r.step t e).2.2.Settled (r.step t e).1 outcome := by
  obtain ⟨kind, point⟩ := r
  cases point with
  | ended committed => cases e <;> exact h
  | ready w =>
    obtain ⟨hended, -⟩ | ⟨hspares, hrecords⟩ := h
    · cases hended
    · cases w with
      | insertRows => cases hspares
      | update model patch =>
        obtain ⟨rfl, rfl⟩ := of_decide_eq_true hspares
        cases e with
        | undelivered error => exact .inr ⟨hspares, hrecords⟩
        | fail => exact .inl ⟨rfl, fun h => by cases h⟩
        | proceed =>
          simp only [DownloadRequest.step]
          split
          next t' h =>
            refine .inl ⟨rfl, fun _ => ?_⟩
            have hjob : t'.job = t.job := by
              rw [job_commit h]
              exact Option.map_id'
            rw [DownloadTables.Records, model_commit h, hjob]
            exact hrecords
          next => exact .inl ⟨rfl, fun h => by cases h⟩
  | _ => cases hsent

theorem sound_request (hsent : r.hasSent) (hw : w.Sound t r) (e : RequestEvent) :
    w.Sound (r.step t e).1 (r.step t e).2.2 := by
  have hmodel : ∀ {status : ModelStatus} {model : Option ModelStatus},
      r.ModelDue t status model → (r.step t e).2.2.ModelDue (r.step t e).1 status model := by
    intro status model h
    obtain heq | ⟨hopen, -, -, hsome, -⟩ := request_sent hsent e
    · rw [heq]
      exact h
    · exact .inl ((h.resolve_right fun hno => hopen hno.2.1).imp_right hsome)
  have hjob : ∀ {status : DownloadJobStatus} {patch : JobPatch},
      r.JobDue t status patch → (r.step t e).2.2.JobDue (r.step t e).1 status patch := by
    intro status patch h
    obtain heq | ⟨hopen, -, -, -, hsome⟩ := request_sent hsent e
    · rw [heq]
      exact h
    · exact .inl ((h.resolve_right fun hno => hopen hno.2.1).imp_right hsome)
  obtain ⟨lastPct, point⟩ := w
  cases point with
  | settingJob snapshot model => exact hmodel hw
  | committing snapshot model job => exact ⟨hmodel hw.1, hjob hw.2⟩
  | errorJob message model => exact hmodel hw
  | errorCommit model job => exact ⟨hmodel hw.1, hjob hw.2⟩
  | returned outcome => exact settled_request hsent hw e
  | _ => trivial

theorem DownloadWorker.point_of_outcome {outcome : DownloadOutcome} (h : outcome ∈ w.outcome) :
    w.point = .returned outcome := by
  obtain ⟨lastPct, point⟩ := w
  cases point with
  | returned outcome' => rw [Option.some.inj h]
  | _ => cases h

theorem sound_crash {message : String} (hw : w.Sound t r)
    (hok : w.recordsInTime t r.hasEnded (.raise message)) : (w.crash message).Sound t r := by
  obtain ⟨lastPct, point⟩ := w
  cases point with
  | errorModel => cases hok
  | errorJob => cases hok
  | errorCommit => cases hok
  | returned outcome => exact hw
  | _ => trivial

theorem sound_proceed (hrows : r.Rows t) (hsent : r.hasSent) (hw : w.Sound t r)
    (hfree : r.written.meets w.pending = false) (hok : w.recordsInTime t r.hasEnded .proceed) :
    r.Rows (w.proceed t).1 ∧ (w.proceed t).2.Sound (w.proceed t).1 r := by
  obtain ⟨lastPct, point⟩ := w
  cases point with
  | reporting progress => exact ⟨hrows, trivial⟩
  | reported progress patch =>
    simp only [DownloadWorker.proceed]
    split
    next t' h =>
      refine ⟨rows_commit hrows h, ?_⟩
      rw [DownloadWorker.moveTo]
      split <;> trivial
    next => exact ⟨hrows, trivial⟩
  | downloading => exact ⟨hrows, trivial⟩
  | scanning => exact ⟨hrows, trivial⟩
  | storing snapshot =>
    simp only [DownloadWorker.proceed]
    split <;> exact ⟨hrows, trivial⟩
  | settingModel snapshot => exact ⟨hrows, modelDue_modelChange hrows hok⟩
  | settingJob snapshot model => exact ⟨hrows, hw, jobDue_jobChange (fun _ => rfl) hrows hok⟩
  | committing snapshot model job =>
    simp only [DownloadWorker.proceed]
    split
    next t' h =>
      have hsettled : r.Settled t' (.success (scanModelDirectory snapshot).length) :=
        settled_commit (c := DownloadWorker.pending ⟨lastPct, .committing snapshot model job⟩) rfl
          hrows hsent hw.1 hw.2 hfree h
      exact ⟨rows_commit hrows h, hsettled⟩
    next => exact ⟨hrows, trivial⟩
  | errorModel message => exact ⟨hrows, modelDue_modelChange hrows hok⟩
  | errorJob message model => exact ⟨hrows, hw, jobDue_jobChange (fun _ => rfl) hrows hok⟩
  | errorCommit model job =>
    simp only [DownloadWorker.proceed]
    cases h : t.commit (DownloadWorker.pending ⟨lastPct, .errorCommit model job⟩) with
    | some t' =>
      have hsettled : r.Settled t' .failed :=
        settled_commit (c := DownloadWorker.pending ⟨lastPct, .errorCommit model job⟩) rfl hrows
          hsent hw.1 hw.2 hfree h
      exact ⟨rows_commit hrows h, hsettled⟩
    | none =>
      have hno : ¬ (t.model.isSome ∧ t.job.isSome) := by
        rintro ⟨hmodel, hjob⟩
        obtain ⟨t', h'⟩ := commit_of_isSome (c := DownloadWorker.pending
          ⟨lastPct, .errorCommit model job⟩) hmodel hjob
        cases h.symm.trans h'
      have hended : r.hasEnded := by
        obtain ⟨-, hmodel⟩ | ⟨-, hended, -⟩ := hw.1
        · obtain ⟨-, hjob⟩ | ⟨-, hended, -⟩ := hw.2
          · exact (hno ⟨hmodel, hjob⟩).elim
          · exact hended
        · exact hended
      exact ⟨hrows, .inl ⟨hended, fun hc => (hno (rows_of_committed hrows hc)).elim⟩⟩
  | returned outcome => exact ⟨hrows, hw⟩

theorem sound_worker (hrows : r.Rows t) (hsent : r.hasSent) (hw : w.Sound t r) {e : WorkerEvent}
    (hfree : e.waits → r.written.meets w.pending = false)
    (hok : w.recordsInTime t r.hasEnded e) :
    r.Rows (w.step t e).1 ∧ (w.step t e).2.Sound (w.step t e).1 r := by
  cases e with
  | proceed => exact sound_proceed hrows hsent hw (hfree rfl) hok
  | raise message => exact ⟨hrows, sound_crash hw hok⟩
  | skip =>
    obtain ⟨lastPct, point⟩ := w
    cases point with
    | reporting progress =>
      simp only [DownloadWorker.step]
      split <;> exact ⟨hrows, trivial⟩
    | reported progress patch =>
      simp only [DownloadWorker.step]
      split <;> exact ⟨hrows, trivial⟩
    | _ => exact ⟨hrows, hw⟩
  | report progress =>
    obtain ⟨lastPct, point⟩ := w
    cases point with
    | downloading =>
      simp only [DownloadWorker.step]
      split <;> exact ⟨hrows, trivial⟩
    | _ => exact ⟨hrows, hw⟩
  | downloaded =>
    obtain ⟨lastPct, point⟩ := w
    cases point with
    | downloading =>
      simp only [DownloadWorker.step]
      split <;> exact ⟨hrows, trivial⟩
    | _ => exact ⟨hrows, hw⟩
  | scanned snapshot =>
    obtain ⟨lastPct, point⟩ := w
    cases point with
    | scanning => exact ⟨hrows, trivial⟩
    | _ => exact ⟨hrows, hw⟩

/-- How far the message of a request has come. -/
inductive DownloadSystem.OfJob : DownloadSystem → Prop where
  | unsent {t : DownloadTables} {r : DownloadRequest} (hrows : r.Rows t) : OfJob ⟨t, 0, [r], []⟩
  | sent {t : DownloadTables} {r : DownloadRequest} (hrows : r.Rows t) (hsent : r.hasSent) :
      OfJob ⟨t, 1, [r], []⟩
  | taken {t : DownloadTables} {r : DownloadRequest} {w : DownloadWorker} (hrows : r.Rows t)
      (hsent : r.hasSent) (hw : w.Sound t r) : OfJob ⟨t, 0, [r], [w]⟩

theorem hasSent_of_step (hsent : r.hasSent) (e : RequestEvent) :
    (r.step t e).2.1 = 0 ∧ (r.step t e).2.2.hasSent := by
  obtain heq | ⟨-, hnone, hended, -⟩ := @request_sent t r hsent e
  · rw [heq]
    exact ⟨rfl, hsent⟩
  · refine ⟨hnone, ?_⟩
    generalize (r.step t e).2.2 = r' at hended
    obtain ⟨kind, point⟩ := r'
    cases point with
    | ended committed => rfl
    | _ => cases hended

/-- A request that has not sent its message sends one or none. -/
theorem request_sends (r : DownloadRequest) (t : DownloadTables) (e : RequestEvent) :
    (r.step t e).2.1 = 0 ∨ (r.step t e).2.1 = 1 ∧ (r.step t e).2.2.hasSent := by
  obtain ⟨kind, point⟩ := r
  cases e with
  | fail => cases point <;> exact .inl rfl
  | undelivered error =>
    cases point with
    | flushed w => cases w <;> exact .inl rfl
    | _ => exact .inl rfl
  | proceed =>
    cases point with
    | accepted job =>
      simp only [DownloadRequest.step]
      split <;> exact .inl rfl
    | flushed w => exact .inr ⟨rfl, rfl⟩
    | ready w =>
      simp only [DownloadRequest.step]
      split <;> exact .inl rfl
    | ended committed => exact .inl rfl

/-- A step of one of the two leaves both as they should be. -/
theorem DownloadSystem.OfJob.step {sys : DownloadSystem} (H : sys.OfJob) {e : DownloadEvent}
    (hjob : e.isOfJob) (hok : sys.recordsInTime e) : (sys.step e).OfJob := by
  cases e with
  | request i e =>
    cases i with
    | succ i => cases hjob
    | zero =>
      rw [DownloadSystem.step]
      obtain heq | ⟨r, hr, heq⟩ := @onRequest_eq sys 0 e
      · rw [heq]
        exact H
      · rw [heq]
        cases H with
        | @unsent t r hrows =>
          cases hr
          have hrows' := rows_request hrows e
          obtain hnone | ⟨hsend, hsent⟩ := request_sends r t e
          · rw [hnone]
            exact .unsent hrows'
          · rw [hsend]
            exact .sent hrows' hsent
        | @sent t r hrows hsent =>
          cases hr
          rw [(hasSent_of_step hsent e).1]
          exact .sent (rows_request hrows e) (hasSent_of_step hsent e).2
        | @taken t r w hrows hsent hw =>
          cases hr
          rw [(hasSent_of_step hsent e).1]
          exact .taken (rows_request hrows e) (hasSent_of_step hsent e).2 (sound_request hsent hw e)
  | consume =>
    cases H with
    | unsent hrows => exact .unsent hrows
    | sent hrows hsent => exact .taken hrows hsent trivial
    | taken hrows hsent hw => exact .taken hrows hsent hw
  | worker i e =>
    cases i with
    | succ i => cases hjob
    | zero =>
      rw [DownloadSystem.step]
      obtain heq | ⟨w', hw', hfree, heq⟩ := @onWorker_eq sys 0 e
      · rw [heq]
        exact H
      · rw [heq]
        cases H with
        | unsent => cases hw'
        | sent => cases hw'
        | @taken t r w hrows hsent hw =>
          cases hw'
          rw [DownloadSystem.recordsInTime, List.all_cons, List.all_nil, Bool.and_true] at hok
          have hmeets : e.waits → r.written.meets w'.pending = false := by
            intro hwaits
            simpa [DownloadSystem.blocked] using hfree hwaits
          obtain ⟨hrows', hw'⟩ := sound_worker hrows hsent hw hmeets hok
          exact .taken hrows' hsent hw'
  | _ => cases hjob

theorem recordsOutcome_of_ofJob {sys : DownloadSystem} (H : sys.OfJob) : sys.RecordsOutcome := by
  intro r' hr' hcommitted w' hw' outcome houtcome
  cases H with
  | unsent => cases hw'
  | sent => cases hw'
  | @taken t r w hrows hsent hw =>
    cases List.mem_singleton.1 hr'
    cases List.mem_singleton.1 hw'
    rw [DownloadWorker.Sound, DownloadWorker.point_of_outcome houtcome] at hw
    obtain ⟨-, hrecords⟩ | ⟨-, hrecords⟩ := hw
    · exact hrecords hcommitted
    · exact hrecords

/-- A request that begins to download a model: a start, or a retry of a job, whose model is there by
its foreign key. -/
inductive BeginsDownload : DownloadTables → DownloadRequest → Prop where
  | start : BeginsDownload ⟨none, none, []⟩ ⟨.start, .flushed (.insertRows none)⟩
  | retry (t : DownloadTables) (hmodel : t.job.isSome → t.model.isSome) : BeginsDownload t (.retry t)

/-- Where the worker is in time, a download records its outcome. -/
theorem recordsOutcome_of_inTime (hr : BeginsDownload t r) {es : List DownloadEvent}
    (hjob : ∀ e ∈ es, e.isOfJob)
    (h : Guarded DownloadSystem.step (fun sys e => sys.recordsInTime e) (.dispatching t r) es) :
    (run DownloadSystem.step (.dispatching t r) es).RecordsOutcome := by
  have hrows : r.Rows t := by
    cases hr with
    | start => exact ⟨rfl, rfl⟩
    | retry t hmodel =>
      simp only [DownloadRequest.retry, DownloadRequest.opened]
      split
      next => trivial
      next job hjob =>
        split
        next =>
          have hsome : t.job.isSome := by rw [hjob]; rfl
          exact ⟨hmodel hsome, hsome⟩
        next => trivial
  have hstart : (DownloadSystem.dispatching t r).OfJob := .unsent hrows
  apply recordsOutcome_of_ofJob
  exact (h.and_events hjob).invariant (fun sys e H hok => H.step hok.1 hok.2) hstart

end

end LlmPort.Backend.Downloads
