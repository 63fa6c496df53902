import LlmPort.Backend.Downloads.Sessions
import LlmPort.Transition.Participants

/-!
# Canceled downloads

Workers write status and progress without a look at the status there is. A canceled job stays
canceled, and progress grows, where retries are accepted and cancels committed only while nothing
of an earlier dispatch is left: no request that is to commit, no message and no worker.
-/

namespace LlmPort.Backend.Downloads

open Transition
open NodeControl (ModelStatus)

/-- A run, and whether the job was canceled and no retry accepted since. -/
structure Watched where
  sys : DownloadSystem
  canceled : Bool

variable {w w' : Watched} {sys : DownloadSystem} {e : DownloadEvent}

namespace DownloadRequest

variable (r : DownloadRequest)

/-- It is still to send a message. -/
def isDispatching : Bool :=
  match r.point with
  | .accepted _ => r.kind ≠ .cancel
  | .flushed _ => true
  | _ => false

/-- It is no cancel and has not ended. -/
def isOpen : Bool := r.kind ≠ .cancel && !(r.point matches .ended _)

end DownloadRequest

namespace DownloadWorker

def isLive (w : DownloadWorker) : Bool := !w.hasReturned

theorem isLive_of_ne {w : DownloadWorker} (h : ∀ outcome, w.point ≠ .returned outcome) :
    w.isLive := by
  obtain ⟨lastPct, point⟩ := w
  cases point with
  | returned outcome => exact (h outcome rfl).elim
  | _ => rfl

end DownloadWorker

namespace DownloadSystem

variable (sys : DownloadSystem)

/-- Requests that are to send a message, messages, and workers that have not returned. -/
def flights : Nat :=
  sys.requests.countP (·.isDispatching) + sys.queue + sys.workers.countP (·.isLive)

def opens : Nat := sys.requests.countP (·.isOpen)

/-- Nothing of an earlier dispatch is left. -/
def Idle : Prop := sys.flights = 0 ∧ sys.opens = 0

def acceptsRetry : DownloadEvent → Bool
  | .retry => sys.db.job.any fun job => DownloadRequest.canRetry job.status
  | _ => false

/-- A request of this kind commits. -/
def commits (kind : RequestKind) : DownloadEvent → Bool
  | .request i .proceed => match sys.requests[i]? with
    | none => false
    | some r => r.kind = kind && match r.point with
      | .ready w => (sys.db.execute w).isSome
      | _ => false
  | _ => false

/-- A retry fails that has sent its message. -/
def failsSent : DownloadEvent → Bool
  | .request i .fail =>
    sys.requests[i]?.any fun r => r.kind = .retry && (r.point matches .ready _)
  | _ => false

/-- A retry is accepted and a cancel commits where nothing of an earlier dispatch is left, and no
retry fails after it has sent its message. -/
def SingleFlight (e : DownloadEvent) : Prop :=
  (sys.acceptsRetry e → sys.Idle) ∧ (sys.commits .cancel e → sys.Idle) ∧ sys.failsSent e = false

instance : Decidable sys.Idle := inferInstanceAs (Decidable (sys.flights = 0 ∧ sys.opens = 0))

instance (e : DownloadEvent) : Decidable (sys.SingleFlight e) :=
  inferInstanceAs (Decidable ((sys.acceptsRetry e → sys.Idle) ∧ (sys.commits .cancel e → sys.Idle) ∧
    sys.failsSent e = false))

end DownloadSystem

namespace Watched

def step (w : Watched) (e : DownloadEvent) : Watched where
  sys := w.sys.step e
  canceled :=
    if w.sys.acceptsRetry e then false else w.canceled || w.sys.commits .cancel e

def initial : Watched := ⟨.initial, false⟩

/-- A canceled job is neither running nor successful. -/
def StaysCanceled (w : Watched) : Prop :=
  w.canceled → ∀ job, w.sys.db.job = some job → job.status ≠ .running ∧ job.status ≠ .success

/-- The step keeps the progress or raises it. -/
def KeepsProgress (w : Watched) (e : DownloadEvent) : Prop :=
  ∀ job job', w.sys.db.job = some job → (w.step e).sys.db.job = some job' →
    job.progress ≤ job'.progress

end Watched

/-! ## How many are under way -/

/-- A message comes for the request that sends it. -/
theorem dispatching_step {db : DownloadTables} {r : DownloadRequest} {e : RequestEvent} :
    (r.step db e).2.1 + (r.step db e).2.2.isDispatching.toNat ≤ r.isDispatching.toNat := by
  obtain ⟨kind, point⟩ := r
  cases e with
  | fail => cases point <;> simp [DownloadRequest.step, DownloadRequest.isDispatching]
  | undelivered error =>
    cases point with
    | flushed w => cases w <;> simp [DownloadRequest.step, DownloadRequest.isDispatching]
    | _ => simp [DownloadRequest.step]
  | proceed =>
    cases point with
    | accepted job =>
      cases kind <;> simp only [DownloadRequest.step] <;> split <;>
        simp [DownloadRequest.isDispatching]
    | flushed w => simp [DownloadRequest.step, DownloadRequest.isDispatching]
    | ready w =>
      simp only [DownloadRequest.step]
      split <;> simp [DownloadRequest.isDispatching]
    | ended committed => simp [DownloadRequest.step]

theorem isOpen_of_step {db : DownloadTables} {r : DownloadRequest} {e : RequestEvent}
    (h : (r.step db e).2.2.isOpen) : r.isOpen := by
  obtain ⟨kind, point⟩ := r
  cases e with
  | fail => cases point <;> simp [DownloadRequest.step, DownloadRequest.isOpen] at h
  | undelivered error =>
    cases point with
    | flushed w =>
      cases w <;> simp [DownloadRequest.step, DownloadRequest.isOpen] at h ⊢
      exact of_decide_eq_true h
    | _ => exact h
  | proceed =>
    cases point with
    | ended committed => exact h
    | ready w =>
      simp only [DownloadRequest.step] at h
      split at h <;> simp [DownloadRequest.isOpen] at h
    | flushed w => exact h
    | accepted job =>
      simp only [DownloadRequest.step] at h
      split at h <;> simp_all [DownloadRequest.isOpen]

theorem isLive_of_step {db : DownloadTables} {w : DownloadWorker} {e : WorkerEvent}
    (h : (w.step db e).2.isLive) : w.isLive := by
  obtain ⟨lastPct, point⟩ := w
  cases point with
  | returned outcome => cases e <;> exact h
  | _ => rfl

theorem retry_point (db : DownloadTables) : (DownloadRequest.retry db).isOpen =
    db.job.any (fun job => DownloadRequest.canRetry job.status) ∧
      (DownloadRequest.retry db).isDispatching = (DownloadRequest.retry db).isOpen := by
  rw [DownloadRequest.retry, DownloadRequest.opened]
  split
  next hjob => simp [DownloadRequest.isOpen, DownloadRequest.isDispatching, hjob]
  next job hjob =>
    split
    next hok => simp [DownloadRequest.isOpen, DownloadRequest.isDispatching, hjob, hok]
    next hno => simp [DownloadRequest.isOpen, DownloadRequest.isDispatching, hjob, hno]

theorem cancel_point (db : DownloadTables) : (DownloadRequest.cancel db).isOpen = false ∧
    (DownloadRequest.cancel db).isDispatching = false := by
  rw [DownloadRequest.cancel, DownloadRequest.opened]
  split
  next => exact ⟨rfl, rfl⟩
  next job hjob => split <;> exact ⟨rfl, rfl⟩

theorem flights_step : (sys.step e).flights ≤ sys.flights + (sys.acceptsRetry e).toNat := by
  cases e with
  | retry =>
    rw [DownloadSystem.step, DownloadSystem.withRequest, DownloadSystem.flights, countP_snoc,
      (retry_point sys.db).2, (retry_point sys.db).1, DownloadSystem.flights,
      DownloadSystem.acceptsRetry]
    simp only
    omega
  | cancel =>
    rw [DownloadSystem.step, DownloadSystem.withRequest, DownloadSystem.flights, countP_snoc,
      (cancel_point sys.db).2]
    exact Nat.le_add_right _ _
  | consume =>
    rw [DownloadSystem.step, DownloadSystem.onConsume]
    split
    next => exact Nat.le_add_right _ _
    next hne =>
      have hone : DownloadWorker.start.isLive.toNat = 1 := rfl
      rw [DownloadSystem.flights, DownloadSystem.flights, countP_snoc, hone]
      simp only
      omega
  | deleteModel => exact Nat.le_add_right _ _
  | request i e =>
    rw [DownloadSystem.step]
    obtain heq | ⟨r, hr, heq⟩ := @onRequest_eq sys i e
    · rw [heq]
      exact Nat.le_add_right _ _
    · have hset := countP_set_add (p := (·.isDispatching)) (b := (r.step sys.db e).2.2) hr
      have hle := @dispatching_step sys.db r e
      rw [heq, DownloadSystem.flights, DownloadSystem.flights]
      simp only at hset ⊢
      omega
  | worker i e =>
    rw [DownloadSystem.step]
    obtain heq | ⟨w, hw, -, heq⟩ := @onWorker_eq sys i e
    · rw [heq]
      exact Nat.le_add_right _ _
    · have hle := countP_set_le (p := (·.isLive)) hw (@isLive_of_step sys.db w e)
      rw [heq, DownloadSystem.flights, DownloadSystem.flights]
      simp only
      omega

theorem opens_step : (sys.step e).opens ≤ sys.opens + (sys.acceptsRetry e).toNat := by
  cases e with
  | retry =>
    rw [DownloadSystem.step, DownloadSystem.withRequest, DownloadSystem.opens, countP_snoc,
      (retry_point sys.db).1]
    exact Nat.le_refl _
  | cancel =>
    rw [DownloadSystem.step, DownloadSystem.withRequest, DownloadSystem.opens, countP_snoc,
      (cancel_point sys.db).1]
    exact Nat.le_add_right _ _
  | consume =>
    rw [DownloadSystem.step, DownloadSystem.onConsume]
    split <;> exact Nat.le_add_right _ _
  | deleteModel => exact Nat.le_add_right _ _
  | request i e =>
    rw [DownloadSystem.step]
    obtain heq | ⟨r, hr, heq⟩ := @onRequest_eq sys i e
    · rw [heq]
      exact Nat.le_add_right _ _
    · rw [heq]
      exact (countP_set_le hr isOpen_of_step).trans (Nat.le_add_right _ _)
  | worker i e =>
    rw [DownloadSystem.step]
    obtain heq | ⟨w, hw, -, heq⟩ := @onWorker_eq sys i e
    · rw [heq]
      exact Nat.le_add_right _ _
    · rw [heq]
      exact Nat.le_add_right _ _

/-! ## Columns -/

/-- What an update makes of the progress. -/
theorem progress_jobChange (t : DownloadTables) (progress : Nat) (status : DownloadJobStatus) :
    (t.jobChange (.updateProgress progress status)).progress = none ∨
      (t.jobChange (.updateProgress progress status)).progress = some progress := by
  rw [DownloadTables.jobChange]
  split
  next => exact .inl rfl
  next job hjob => exact (changed_eq_none_or job.progress progress).imp And.left id

theorem progress_setFailed (t : DownloadTables) (message : String) :
    (t.jobChange (.setFailed message)).progress = none := by
  rw [DownloadTables.jobChange]
  split
  next => rfl
  next job hjob => exact if_pos rfl

/-! ## One flight -/

/-- What a worker writes of the progress is what it reports, and 100 in the end. -/
def WorkerPoint.InOrder (lastPct : Nat) : WorkerPoint → Prop
  | reporting progress => progress = lastPct
  | reported _ patch => patch.progress = none ∨ patch.progress = some lastPct
  | committing _ _ job => job.progress = none ∨ job.progress = some 100
  | errorCommit _ job => job.progress = none
  | _ => True

structure DownloadWorker.InOrder (w : DownloadWorker) : Prop where
  lastPct : w.lastPct ≤ 90
  point : w.point.InOrder w.lastPct

theorem DownloadWorker.InOrder.crash {w : DownloadWorker} (H : w.InOrder) (message : String) :
    (w.crash message).InOrder := by
  refine ⟨?_, ?_⟩
  · rw [DownloadWorker.crash]
    split <;> exact H.lastPct
  · rw [DownloadWorker.crash]
    split
    all_goals first | trivial | exact H.point

theorem DownloadWorker.InOrder.proceed {w : DownloadWorker} (H : w.InOrder) (db : DownloadTables) :
    (w.proceed db).2.InOrder := by
  obtain ⟨lastPct, point⟩ := w
  cases point with
  | reporting progress =>
    refine ⟨H.lastPct, ?_⟩
    have heq : progress = lastPct := H.point
    subst heq
    exact progress_jobChange db progress .running
  | reported progress patch =>
    simp only [DownloadWorker.proceed]
    split
    next => exact ⟨H.lastPct, by split <;> trivial⟩
    next => exact H.crash _
  | storing snapshot =>
    simp only [DownloadWorker.proceed]
    split
    next => exact H.crash _
    next => exact ⟨H.lastPct, trivial⟩
  | settingModel snapshot => exact ⟨H.lastPct, trivial⟩
  | settingJob snapshot model => exact ⟨H.lastPct, progress_jobChange db 100 .success⟩
  | committing snapshot model job =>
    simp only [DownloadWorker.proceed]
    split
    next => exact ⟨H.lastPct, trivial⟩
    next => exact H.crash _
  | errorModel message => exact ⟨H.lastPct, trivial⟩
  | errorJob message model => exact ⟨H.lastPct, progress_setFailed db message⟩
  | errorCommit model job => exact ⟨H.lastPct, trivial⟩
  | downloading => exact H
  | scanning => exact H
  | returned outcome => exact H

theorem DownloadWorker.InOrder.step {w : DownloadWorker} (H : w.InOrder) (db : DownloadTables)
    (e : WorkerEvent) : (w.step db e).2.InOrder := by
  cases e with
  | proceed => exact H.proceed db
  | raise message => exact H.crash message
  | skip =>
    rw [DownloadWorker.step]
    split
    next =>
      split
      next => exact H
      next => exact ⟨H.lastPct, trivial⟩
    next =>
      split
      next => exact H
      next => exact ⟨H.lastPct, trivial⟩
    next => exact H
  | report progress =>
    rw [DownloadWorker.step]
    split
    next =>
      split
      next => exact H
      next hno => exact ⟨show progress ≤ 90 by omega, rfl⟩
    next => exact H
  | downloaded =>
    rw [DownloadWorker.step]
    split
    next =>
      split
      next => exact ⟨H.lastPct, trivial⟩
      next => exact ⟨Nat.le_refl _, rfl⟩
    next => exact H
  | scanned snapshot =>
    rw [DownloadWorker.step]
    split
    next => exact ⟨H.lastPct, trivial⟩
    next => exact H

/-! ## Requests -/

/-- What a request writes is what it made of the job it found, and this is the job there is. -/
def DownloadRequest.InOrder (db : DownloadTables) (r : DownloadRequest) : Prop :=
  match r.kind, r.point with
  | .cancel, .accepted job => canCancel job.status
  | .cancel, .ready (.update _ job) => job.status = some .canceled ∧ job.progress = none
  | .cancel, .ended _ => True
  | .cancel, _ => False
  | .retry, .accepted job => ∀ job', db.job = some job' → job = job'
  | .retry, .flushed (.update _ job) | .retry, .ready (.update _ job) =>
    job ≠ {} → ∀ job', db.job = some job' → job = .between job' job'.reset
  | .retry, .ended _ => True
  | .retry, _ => False
  | .start, .flushed (.insertRows _) | .start, .ready (.insertRows _) | .start, .ended _ => True
  | .start, _ => False

/-- A request of another kind than a cancel holds the row of the job. -/
def DownloadRequest.holdsJob (r : DownloadRequest) : Prop := r.written.job ≠ {} ∧ r.isOpen

/-- Only requests that are to send a message, or hold the row, care for the job there is. -/
theorem DownloadRequest.InOrder.of_db {r : DownloadRequest} {db db' : DownloadTables}
    (H : r.InOrder db) (h : r.isDispatching ∨ r.holdsJob →
      ∀ job, db'.job = some job → db.job = some job) : r.InOrder db' := by
  obtain ⟨kind, point⟩ := r
  cases kind with
  | start =>
    cases point with
    | flushed w | ready w => cases w <;> exact H
    | _ => exact H
  | cancel =>
    cases point with
    | flushed w | ready w => cases w <;> exact H
    | _ => exact H
  | retry =>
    cases point with
    | accepted job => exact fun job' hjob' => H job' (h (.inl rfl) job' hjob')
    | flushed w =>
      cases w with
      | insertRows => exact H
      | update model job => exact fun hne job' hjob' => H hne job' (h (.inl rfl) job' hjob')
    | ready w =>
      cases w with
      | insertRows => exact H
      | update model job =>
        exact fun hne job' hjob' => H hne job' (h (.inr ⟨hne, rfl⟩) job' hjob')
    | ended committed => exact H

namespace DownloadSystem

/-- Where no request holds the row of the job, its progress is at most this. -/
def ProgressAtMost (sys : DownloadSystem) (progress : Nat) : Prop :=
  (∃ r ∈ sys.requests, r.holdsJob) ∨ ∀ job, sys.db.job = some job → job.progress ≤ progress

/-- At most one dispatch is under way. -/
structure OneFlight (sys : DownloadSystem) : Prop where
  flights : sys.flights ≤ 1
  opens : sys.opens ≤ 1
  rows : sys.db.model = none → sys.db.job = none
  requests : ∀ r ∈ sys.requests, r.InOrder sys.db
  dispatching : ∀ r ∈ sys.requests, r.isDispatching → ∀ w, r.point = .flushed w →
    sys.ProgressAtMost 0
  queued : 0 < sys.queue → sys.ProgressAtMost 0
  workers : ∀ w ∈ sys.workers, w.InOrder
  live : ∀ w ∈ sys.workers, w.isLive → sys.ProgressAtMost w.lastPct

end DownloadSystem

namespace DownloadSystem

variable {sys : DownloadSystem} {n k : Nat}

theorem ProgressAtMost.mono (H : sys.ProgressAtMost n) (hle : n ≤ k) : sys.ProgressAtMost k :=
  H.imp id fun h job hjob => (h job hjob).trans hle

theorem ProgressAtMost.of_holders {sys' : DownloadSystem} (H : sys.ProgressAtMost n)
    (hjob : sys'.db.job = sys.db.job)
    (hholders : (∃ r ∈ sys.requests, r.holdsJob) → ∃ r ∈ sys'.requests, r.holdsJob) :
    sys'.ProgressAtMost n :=
  H.imp hholders fun h job heq => h job (hjob ▸ heq)

theorem of_flights_zero (h : sys.flights = 0) : (∀ r ∈ sys.requests, ¬ r.isDispatching) ∧
    sys.queue = 0 ∧ ∀ w ∈ sys.workers, ¬ w.isLive := by
  have hrequests : sys.requests.countP (·.isDispatching) = 0 := by
    rw [flights] at h
    omega
  have hworkers : sys.workers.countP (·.isLive) = 0 := by
    rw [flights] at h
    omega
  refine ⟨List.countP_eq_zero.1 hrequests, ?_, List.countP_eq_zero.1 hworkers⟩
  rw [flights] at h
  omega

theorem of_opens_zero (h : sys.opens = 0) : ∀ r ∈ sys.requests, ¬ r.isOpen := List.countP_eq_zero.1 h

theorem OneFlight.retry (H : sys.OneFlight) (hidle : sys.acceptsRetry .retry → sys.Idle) :
    (sys.step .retry).OneFlight := by
  have hflights : (sys.step .retry).flights ≤ sys.flights + (sys.acceptsRetry .retry).toNat :=
    flights_step
  have hopens : (sys.step .retry).opens ≤ sys.opens + (sys.acceptsRetry .retry).toNat :=
    opens_step
  have hholders : (∃ r ∈ sys.requests, r.holdsJob) →
      ∃ r ∈ (sys.step .retry).requests, r.holdsJob := by
    rintro ⟨r, hr, hholds⟩
    exact ⟨r, List.mem_append_left _ hr, hholds⟩
  have hnew : (DownloadRequest.retry sys.db).InOrder sys.db ∧
      ∀ w, (DownloadRequest.retry sys.db).point ≠ .flushed w := by
    rw [DownloadRequest.retry, DownloadRequest.opened]
    split
    next => exact ⟨trivial, nofun⟩
    next job hjob =>
      split
      next =>
        refine ⟨fun job' hjob' => ?_, nofun⟩
        exact Option.some.inj (hjob.symm.trans hjob')
      next => exact ⟨trivial, nofun⟩
  constructor
  · cases haccepts : sys.acceptsRetry .retry with
    | true =>
      rw [haccepts, (hidle haccepts).1] at hflights
      exact hflights
    | false =>
      rw [haccepts] at hflights
      exact hflights.trans H.flights
  · cases haccepts : sys.acceptsRetry .retry with
    | true =>
      rw [haccepts, (hidle haccepts).2] at hopens
      exact hopens
    | false =>
      rw [haccepts] at hopens
      exact hopens.trans H.opens
  · exact H.rows
  · intro r hr
    obtain hr | hr := List.mem_append.1 hr
    · exact H.requests r hr
    · cases List.mem_singleton.1 hr
      exact hnew.1
  · intro r hr hdispatching w hpoint
    obtain hr | hr := List.mem_append.1 hr
    · exact (H.dispatching r hr hdispatching w hpoint).of_holders rfl hholders
    · cases List.mem_singleton.1 hr
      exact (hnew.2 w hpoint).elim
  · exact fun hqueue => (H.queued hqueue).of_holders rfl hholders
  · exact H.workers
  · exact fun w hw hlive => (H.live w hw hlive).of_holders rfl hholders

theorem OneFlight.cancel (H : sys.OneFlight) : (sys.step .cancel).OneFlight := by
  have hholders : (∃ r ∈ sys.requests, r.holdsJob) →
      ∃ r ∈ (sys.step .cancel).requests, r.holdsJob := by
    rintro ⟨r, hr, hholds⟩
    exact ⟨r, List.mem_append_left _ hr, hholds⟩
  have hnew : (DownloadRequest.cancel sys.db).InOrder sys.db ∧
      ∀ w, (DownloadRequest.cancel sys.db).point ≠ .flushed w := by
    rw [DownloadRequest.cancel, DownloadRequest.opened]
    split
    next => exact ⟨trivial, nofun⟩
    next job hjob =>
      split
      next hok => exact ⟨hok, nofun⟩
      next => exact ⟨trivial, nofun⟩
  constructor
  · exact flights_step.trans H.flights
  · exact opens_step.trans H.opens
  · exact H.rows
  · intro r hr
    obtain hr | hr := List.mem_append.1 hr
    · exact H.requests r hr
    · cases List.mem_singleton.1 hr
      exact hnew.1
  · intro r hr hdispatching w hpoint
    obtain hr | hr := List.mem_append.1 hr
    · exact (H.dispatching r hr hdispatching w hpoint).of_holders rfl hholders
    · cases List.mem_singleton.1 hr
      exact (hnew.2 w hpoint).elim
  · exact fun hqueue => (H.queued hqueue).of_holders rfl hholders
  · exact H.workers
  · exact fun w hw hlive => (H.live w hw hlive).of_holders rfl hholders

theorem OneFlight.consume (H : sys.OneFlight) : (sys.step .consume).OneFlight := by
  rw [step, onConsume]
  split
  next => exact H
  next hne =>
    have hflights : (sys.step .consume).flights ≤ 1 := flights_step.trans H.flights
    rw [step, onConsume, if_neg hne] at hflights
    constructor
    · exact hflights
    · exact H.opens
    · exact H.rows
    · exact H.requests
    · exact H.dispatching
    · exact fun hqueue => H.queued (Nat.pos_of_ne_zero hne)
    · intro w hw
      obtain hw | hw := List.mem_append.1 hw
      · exact H.workers w hw
      · cases List.mem_singleton.1 hw
        exact ⟨Nat.zero_le _, rfl⟩
    · intro w hw hlive
      obtain hw | hw := List.mem_append.1 hw
      · exact H.live w hw hlive
      · cases List.mem_singleton.1 hw
        exact H.queued (Nat.pos_of_ne_zero hne)

theorem OneFlight.deleteModel (H : sys.OneFlight) : (sys.step .deleteModel).OneFlight := by
  have hnone (n : Nat) : (sys.step .deleteModel).ProgressAtMost n := .inr nofun
  constructor
  · exact H.flights
  · exact H.opens
  · exact fun _ => rfl
  · exact fun r hr => (H.requests r hr).of_db fun _ => nofun
  · exact fun _ _ _ _ _ => hnone 0
  · exact fun _ => hnone 0
  · exact H.workers
  · exact fun w _ _ => hnone w.lastPct

theorem le_lastPct_step (w : DownloadWorker) (db : DownloadTables) (e : WorkerEvent) :
    w.lastPct ≤ (w.step db e).2.lastPct := by
  have hcrash (message : String) : (w.crash message).lastPct = w.lastPct := by
    rw [DownloadWorker.crash]
    split <;> rfl
  cases e with
  | proceed =>
    rw [DownloadWorker.step, DownloadWorker.proceed]
    split
    all_goals first | exact Nat.le_refl _ | skip
    all_goals split <;> first | exact Nat.le_refl _ | exact (hcrash _).ge
  | raise message => exact (hcrash message).ge
  | skip =>
    rw [DownloadWorker.step]
    split
    next => split <;> exact Nat.le_refl _
    next => split <;> exact Nat.le_refl _
    next => exact Nat.le_refl _
  | report progress =>
    rw [DownloadWorker.step]
    split
    next =>
      split
      next => exact Nat.le_refl _
      next hno => exact (not_or.1 hno).1 |> fun h => (Nat.lt_of_not_le h).le
    next => exact Nat.le_refl _
  | downloaded =>
    rw [DownloadWorker.step]
    split
    next =>
      split
      next => exact Nat.le_refl _
      next hno => exact (Nat.lt_of_not_le hno).le
    next => exact Nat.le_refl _
  | scanned snapshot =>
    rw [DownloadWorker.step]
    split <;> exact Nat.le_refl _

/-- What a worker commits. -/
theorem OneFlight.job_committed (H : sys.OneFlight) {i : Nat} {w : DownloadWorker}
    {t : DownloadTables} (hw : sys.workers[i]? = some w) (hlive : w.isLive)
    (hfree : sys.blocked w.pending = false) (h : sys.db.commit w.pending = some t) :
    t.job = sys.db.job ∨ (∀ r ∈ sys.requests, ¬ r.isDispatching ∧ ¬ r.holdsJob) ∧
      ∀ job, sys.db.job = some job → job.progress ≤ w.lastPct := by
  by_cases hjob : w.pending.job = {}
  · left
    rw [job_commit h, hjob]
    exact Option.map_id' ..
  · right
    have hfree' : ∀ r ∈ sys.requests, r.written.job = {} := by
      intro r hr
      by_contra hne
      have hmeets : r.written.meets w.pending := by simp [Changes.meets, hne, hjob]
      have hblocked : sys.blocked w.pending = true := List.any_eq_true.2 ⟨r, hr, hmeets⟩
      rw [hfree] at hblocked
      cases hblocked
    have hpos := countP_pos_of_getElem? (p := (·.isLive)) hw hlive
    have hflights := H.flights
    rw [DownloadSystem.flights] at hflights
    refine ⟨fun r hr => ⟨fun hdispatching => ?_, fun hholds => hholds.1 (hfree' r hr)⟩, ?_⟩
    · have hpos' : 0 < sys.requests.countP (·.isDispatching) :=
        List.countP_pos_iff.2 ⟨r, hr, hdispatching⟩
      omega
    · apply (H.live w (List.mem_of_getElem? hw) hlive).resolve_left
      rintro ⟨r, hr, hholds⟩
      exact hholds.1 (hfree' r hr)

/-- After an update the progress is what was reported. -/
theorem progress_apply {p : JobPatch} {job : DownloadJob} {n : Nat}
    (h : p.progress = none ∨ p.progress = some n) (hle : job.progress ≤ n) :
    job.progress ≤ (p.apply job).progress ∧ (p.apply job).progress ≤ n := by
  rw [JobPatch.apply]
  obtain h | h := h
  · rw [h]
    exact ⟨Nat.le_refl _, hle⟩
  · rw [h]
    exact ⟨hle, Nat.le_refl _⟩

theorem OneFlight.of_worker (H : sys.OneFlight) {sys' : DownloadSystem} {i : Nat}
    {w w' : DownloadWorker} (hw : sys.workers[i]? = some w) (hflights : sys'.flights ≤ 1)
    (hrequests : sys'.requests = sys.requests) (hqueue : sys'.queue = sys.queue)
    (hworkers : sys'.workers = sys.workers.set i w') (hw' : w'.InOrder)
    (hlive : w'.isLive → w.isLive) (hpct : w.lastPct ≤ w'.lastPct)
    (hjob : sys'.db.job = sys.db.job) (hrows : sys'.db.model = none → sys'.db.job = none) :
    sys'.OneFlight := by
  have hprogress {n : Nat} (h : sys.ProgressAtMost n) : sys'.ProgressAtMost n :=
    h.of_holders hjob (hrequests ▸ id)
  constructor
  · exact hflights
  · rw [DownloadSystem.opens, hrequests]
    exact H.opens
  · exact hrows
  · rw [hrequests]
    exact fun r hr => (H.requests r hr).of_db fun _ job h => hjob ▸ h
  · rw [hrequests]
    exact fun r hr hdispatching w hpoint => hprogress (H.dispatching r hr hdispatching w hpoint)
  · rw [hqueue]
    exact fun hq => hprogress (H.queued hq)
  · rw [hworkers]
    exact forall_mem_set H.workers hw'
  · rw [hworkers]
    apply forall_mem_set fun x hx hl => hprogress (H.live x hx hl)
    intro hl
    exact (hprogress (H.live w (List.mem_of_getElem? hw) (hlive hl))).mono hpct

theorem rows_commit {t t' : DownloadTables} {c : Changes} (hrows : t.model = none → t.job = none)
    (h : t.commit c = some t') (hmodel : t'.model = none) : t'.job = none := by
  rw [job_commit h]
  obtain ⟨-, heq⟩ := Option.ite_none_left_eq_some.1 h
  cases heq
  rw [hrows (Option.or_eq_none_iff.1 hmodel).2, Option.map_none]

/-- A worker that goes on after a commit has recorded no more than it has reported. -/
theorem OneFlight.progress_of_commit (H : sys.OneFlight) {i : Nat} {w : DownloadWorker}
    (hw : sys.workers[i]? = some w)
    (hle : ∀ job, sys.db.job = some job → job.progress ≤ w.lastPct)
    (h : sys.db.commit w.pending = some (w.step sys.db .proceed).1)
    (hpoint : (∃ progress patch, w.point = .reported progress patch) ∨
      (∃ snapshot model job, w.point = .committing snapshot model job) ∨
      ∃ model job, w.point = .errorCommit model job)
    (hlive : (w.step sys.db .proceed).2.isLive) :
    ∀ job, (w.step sys.db .proceed).1.job = some job →
      job.progress ≤ (w.step sys.db .proceed).2.lastPct := by
  have horder := (H.workers w (List.mem_of_getElem? hw)).point
  obtain ⟨progress, patch, hpoint⟩ | ⟨snapshot, model, job, hpoint⟩ | ⟨model, job, hpoint⟩ := hpoint
  · intro job hjob
    rw [job_commit h, DownloadWorker.pending, hpoint] at hjob
    obtain ⟨old, hold, rfl⟩ := Option.map_eq_some_iff.1 hjob
    rw [hpoint] at horder
    exact (progress_apply horder (hle old hold)).2.trans (le_lastPct_step w sys.db .proceed)
  · rw [DownloadWorker.step, DownloadWorker.proceed] at hlive
    simp only [hpoint] at hlive
    split at hlive
    next => cases hlive
    next hnone =>
      rw [hnone] at h
      cases h
  · rw [DownloadWorker.step, DownloadWorker.proceed] at hlive
    simp only [hpoint] at hlive
    cases hlive

theorem OneFlight.worker (H : sys.OneFlight) (i : Nat) (e : WorkerEvent) :
    (sys.step (.worker i e)).OneFlight := by
  have hflights : (sys.step (.worker i e)).flights ≤ 1 := flights_step.trans H.flights
  rw [step] at hflights ⊢
  obtain heq | ⟨w, hw, hfree, heq⟩ := @onWorker_eq sys i e
  · rw [heq]
    exact H
  rw [heq] at hflights ⊢
  have hw' : (w.step sys.db e).2.InOrder := (H.workers w (List.mem_of_getElem? hw)).step sys.db e
  obtain hdb | ⟨rfl, h, hpoint⟩ := worker_db sys.db w e
  · exact H.of_worker hw hflights rfl rfl rfl hw' isLive_of_step (le_lastPct_step w sys.db e)
      (congrArg DownloadTables.job hdb) fun hmodel =>
        (congrArg DownloadTables.job hdb).trans
          (H.rows ((congrArg DownloadTables.model hdb).symm.trans hmodel))
  have hlive : w.isLive := by
    apply DownloadWorker.isLive_of_ne
    intro outcome
    obtain ⟨progress, patch, hpoint⟩ | ⟨snapshot, model, job, hpoint⟩ | ⟨model, job, hpoint⟩ :=
      hpoint
    all_goals simp [hpoint]
  obtain hjob | ⟨hfree, hle⟩ := H.job_committed hw hlive (hfree rfl) h
  · exact H.of_worker hw hflights rfl rfl rfl hw' isLive_of_step
      (le_lastPct_step w sys.db .proceed) hjob (rows_commit H.rows h)
  have hpos := countP_pos_of_getElem? (p := (·.isLive)) hw hlive
  have hone := H.flights
  rw [DownloadSystem.flights] at hone
  constructor
  · exact hflights
  · exact H.opens
  · exact rows_commit H.rows h
  · exact fun r hr => (H.requests r hr).of_db fun hholds =>
      (not_or.2 (hfree r hr) hholds).elim
  · exact fun r hr hdispatching => ((hfree r hr).1 hdispatching).elim
  · intro hqueue
    simp only at hqueue
    omega
  · exact forall_mem_set H.workers hw'
  · intro x hx hxlive
    obtain ⟨k, hk⟩ := List.mem_iff_getElem?.1 hx
    by_cases hki : i = k
    · subst hki
      obtain ⟨hi, -⟩ := List.getElem?_eq_some_iff.1 hw
      rw [List.getElem?_set_self hi] at hk
      cases hk
      exact .inr (H.progress_of_commit hw hle h hpoint hxlive)
    · -- another worker that is under way, besides this one
      rw [List.getElem?_set_ne hki] at hk
      have hworkers : sys.workers.countP (·.isLive) ≤ 1 := by omega
      exact (hki (eq_of_countP_le_one hworkers hw hlive hk hxlive)).elim

/-! ### Steps of requests -/

theorem OneFlight.of_request (H : sys.OneFlight) {sys' : DownloadSystem} {i : Nat}
    {r r' : DownloadRequest} (hr : sys.requests[i]? = some r) (hflights : sys'.flights ≤ 1)
    (hopens : sys'.opens ≤ 1) (hdb : sys'.db = sys.db)
    (hrequests : sys'.requests = sys.requests.set i r') (hworkers : sys'.workers = sys.workers)
    (hr' : r'.InOrder sys.db)
    (hdispatching : ∀ w, r'.point = .flushed w → sys'.ProgressAtMost 0)
    (hqueue : 0 < sys'.queue → sys.ProgressAtMost 0)
    (hholds : r.holdsJob → r'.holdsJob) : sys'.OneFlight := by
  have hprogress {n : Nat} (h : sys.ProgressAtMost n) : sys'.ProgressAtMost n := by
    apply h.of_holders (by rw [hdb])
    rw [hrequests]
    exact exists_mem_set hr hholds
  constructor
  · exact hflights
  · exact hopens
  · rw [hdb]
    exact H.rows
  · rw [hrequests, hdb]
    exact forall_mem_set H.requests hr'
  · rw [hrequests]
    refine forall_mem_set (fun q hq hd w hpoint => hprogress (H.dispatching q hq hd w hpoint)) ?_
    exact fun _ => hdispatching
  · exact fun hq => hprogress (hqueue hq)
  · rw [hworkers]
    exact H.workers
  · rw [hworkers]
    exact fun w hw hlive => hprogress (H.live w hw hlive)

theorem isOpen_of_holdsJob {r : DownloadRequest} (h : r.holdsJob) : r.isOpen := h.2

theorem isOpen_of_isDispatching {r : DownloadRequest} {db : DownloadTables} (H : r.InOrder db)
    (h : r.isDispatching) : r.isOpen := by
  obtain ⟨kind, point⟩ := r
  cases kind with
  | cancel =>
    cases point with
    | flushed w => cases w <;> exact H.elim
    | _ => cases h
  | _ => cases point <;> first | rfl | cases h

/-- A request that was to commit has ended, with these rows. -/
theorem OneFlight.of_ended (H : sys.OneFlight) {i : Nat} {r r' : DownloadRequest}
    {t : DownloadTables} (hr : sys.requests[i]? = some r)
    (hsame : ({ sys with db := t, requests := sys.requests.set i r' } : DownloadSystem).flights ≤ 1)
    (hopens : ({ sys with db := t, requests := sys.requests.set i r' } : DownloadSystem).opens ≤ 1)
    (hended : ¬ r'.isOpen) (hr' : r'.InOrder t) (hrows : t.model = none → t.job = none)
    (hothers : ∀ k q, k ≠ i → sys.requests[k]? = some q → ¬ q.isOpen)
    (hprogress : ∀ n, sys.ProgressAtMost n → ∀ job, t.job = some job → job.progress ≤ n) :
    ({ sys with db := t, requests := sys.requests.set i r' } : DownloadSystem).OneFlight := by
  have hclosed : ∀ q ∈ sys.requests.set i r', ¬ q.isOpen ∧ q.InOrder t := by
    intro q hq
    obtain ⟨k, hk⟩ := List.mem_iff_getElem?.1 hq
    by_cases hki : i = k
    · subst hki
      obtain ⟨hi, -⟩ := List.getElem?_eq_some_iff.1 hr
      rw [List.getElem?_set_self hi] at hk
      cases hk
      exact ⟨hended, hr'⟩
    · rw [List.getElem?_set_ne hki] at hk
      have hopen := hothers k q (Ne.symm hki) hk
      have horder := H.requests q (List.mem_of_getElem? hk)
      refine ⟨hopen, horder.of_db fun h => (hopen ?_).elim⟩
      exact h.elim (isOpen_of_isDispatching horder) isOpen_of_holdsJob
  constructor
  · exact hsame
  · exact hopens
  · exact hrows
  · exact fun q hq => (hclosed q hq).2
  · intro q hq hdispatching
    exact ((hclosed q hq).1 (isOpen_of_isDispatching (hclosed q hq).2 hdispatching)).elim
  · exact fun hq => .inr (hprogress 0 (H.queued hq))
  · exact H.workers
  · exact fun w hw hlive => .inr (hprogress w.lastPct (H.live w hw hlive))

/-- Nothing is under way. -/
theorem OneFlight.of_idle (H : sys.OneFlight) {i : Nat} {r' : DownloadRequest}
    (hzero : ({ sys with requests := sys.requests.set i r' } : DownloadSystem).flights = 0)
    (hopens : ({ sys with requests := sys.requests.set i r' } : DownloadSystem).opens ≤ 1)
    (hr' : r'.InOrder sys.db) :
    ({ sys with requests := sys.requests.set i r' } : DownloadSystem).OneFlight := by
  obtain ⟨hrequests, hqueue, hworkers⟩ := of_flights_zero hzero
  constructor
  · exact hzero.trans_le (Nat.zero_le _)
  · exact hopens
  · exact H.rows
  · exact forall_mem_set H.requests hr'
  · exact fun q hq hdispatching => (hrequests q hq hdispatching).elim
  · exact fun hq => absurd hqueue hq.ne'
  · exact H.workers
  · exact fun w hw hlive => (hworkers w hw hlive).elim

theorem not_holdsJob_of_not_retry {r : DownloadRequest} {db : DownloadTables} (H : r.InOrder db)
    (hretry : r.kind ≠ .retry) : ¬ r.holdsJob := by
  obtain ⟨kind, point⟩ := r
  rintro ⟨hwritten, hopen⟩
  cases kind with
  | retry => exact hretry rfl
  | cancel => cases hopen
  | start =>
    cases point with
    | flushed w => cases w <;> first | exact hwritten rfl | exact H.elim
    | ready w => cases w <;> first | exact hwritten rfl | exact H.elim
    | _ => exact hwritten rfl

/-- A request fails that has sent no message, or writes nothing to the row of the job. -/
theorem OneFlight.of_failed (H : sys.OneFlight) {i : Nat} {r : DownloadRequest}
    (hr : sys.requests[i]? = some r) (hretry : r.kind = .retry → ∀ w, r.point ≠ .ready w) :
    ({ sys with requests := sys.requests.set i ⟨r.kind, .ended false⟩ } :
      DownloadSystem).OneFlight := by
  have horder := H.requests r (List.mem_of_getElem? hr)
  have hended : (⟨r.kind, .ended false⟩ : DownloadRequest).InOrder sys.db := by
    cases hkind : r.kind <;> exact trivial
  have hflights := H.flights
  have hopens : sys.requests.countP (·.isOpen) ≤ 1 := H.opens
  rw [DownloadSystem.flights] at hflights
  have hset := countP_set_add (p := (·.isDispatching)) (b := ⟨r.kind, .ended false⟩) hr
  have hnone : (⟨r.kind, .ended false⟩ : DownloadRequest).isDispatching = false := rfl
  have hclosed : (⟨r.kind, .ended false⟩ : DownloadRequest).isOpen → r.isOpen := by
    simp [DownloadRequest.isOpen]
  have hopens' : ({ sys with requests := sys.requests.set i ⟨r.kind, .ended false⟩ } :
      DownloadSystem).opens ≤ 1 := (countP_set_le hr hclosed).trans hopens
  rw [hnone] at hset
  cases hdispatching : r.isDispatching with
  | true =>
    apply H.of_idle _ hopens' hended
    rw [hdispatching, Bool.toNat_true, Bool.toNat_false] at hset
    rw [DownloadSystem.flights]
    simp only
    omega
  | false =>
    have hnot : ¬ r.holdsJob := by
      obtain ⟨kind, point⟩ := r
      by_cases hkind : kind = .retry
      · subst hkind
        rintro ⟨hwritten, -⟩
        cases point with
        | accepted job => cases hdispatching
        | flushed w => cases hdispatching
        | ready w => exact hretry rfl w rfl
        | ended committed => exact hwritten rfl
      · exact not_holdsJob_of_not_retry horder hkind
    have hflights' : ({ sys with requests := sys.requests.set i ⟨r.kind, .ended false⟩ } :
        DownloadSystem).flights ≤ 1 := by
      rw [hdispatching, Bool.toNat_false] at hset
      rw [DownloadSystem.flights]
      simp only
      omega
    exact H.of_request hr hflights' hopens' rfl rfl rfl hended nofun H.queued (absurd · hnot)

/-- A request that has passed the check writes. -/
theorem OneFlight.of_accepted (H : sys.OneFlight) {i : Nat} {kind : RequestKind}
    {job : DownloadJob} (hr : sys.requests[i]? = some ⟨kind, .accepted job⟩)
    {model : Option ModelStatus} {r' : DownloadRequest}
    (hr' : r' = ⟨kind, if kind = .cancel then
        .ready (.update model (DownloadRequest.jobPatch ⟨kind, .accepted job⟩ job))
      else .flushed (.update model (DownloadRequest.jobPatch ⟨kind, .accepted job⟩ job))⟩)
    (hflights : ({ sys with requests := sys.requests.set i r' } : DownloadSystem).flights ≤ 1)
    (hopens : ({ sys with requests := sys.requests.set i r' } : DownloadSystem).opens ≤ 1) :
    ({ sys with requests := sys.requests.set i r' } : DownloadSystem).OneFlight := by
  have horder := H.requests _ (List.mem_of_getElem? hr)
  obtain ⟨hi, -⟩ := List.getElem?_eq_some_iff.1 hr
  have hholds : (⟨kind, .accepted job⟩ : DownloadRequest).holdsJob → r'.holdsJob :=
    fun h => (h.1 rfl).elim
  subst hr'
  cases kind with
  | start => exact horder.elim
  | cancel =>
    apply H.of_request hr hflights hopens rfl rfl rfl _ nofun H.queued hholds
    have hcan : DownloadRequest.canCancel job.status := horder
    refine ⟨?_, if_pos rfl⟩
    have hne : job.setCanceled.status ≠ job.status := by
      intro heq
      rw [← heq] at hcan
      cases hcan
    exact if_neg hne
  | retry =>
    have hfound : ∀ job', sys.db.job = some job' → job = job' := horder
    apply H.of_request hr hflights hopens rfl rfl rfl _ _ H.queued hholds
    · intro _ job' hjob'
      rw [← hfound job' hjob']
      rfl
    · intro w _
      by_cases hempty : JobPatch.between job job.reset = {}
      · right
        intro job' hjob'
        rw [← hfound job' hjob']
        have hreset : job = job.reset := by
          have happly := JobPatch.apply_between job job.reset
          rwa [hempty] at happly
        rw [hreset]
        exact Nat.le_refl _
      · exact .inl ⟨_, List.mem_set hi _, hempty, rfl⟩

/-- A request sends its message. -/
theorem OneFlight.of_flushed (H : sys.OneFlight) {i : Nat} {kind : RequestKind} {w : Writes}
    (hr : sys.requests[i]? = some ⟨kind, .flushed w⟩)
    (hflights : ({ sys with queue := sys.queue + 1
                            requests := sys.requests.set i ⟨kind, .ready w⟩ } :
      DownloadSystem).flights ≤ 1)
    (hopens : ({ sys with queue := sys.queue + 1
                          requests := sys.requests.set i ⟨kind, .ready w⟩ } :
      DownloadSystem).opens ≤ 1) :
    ({ sys with queue := sys.queue + 1, requests := sys.requests.set i ⟨kind, .ready w⟩ } :
      DownloadSystem).OneFlight := by
  have hmem := List.mem_of_getElem? hr
  have horder := H.requests _ hmem
  apply H.of_request hr hflights hopens rfl rfl rfl _ nofun
    (fun _ => H.dispatching _ hmem rfl w rfl)
  · cases w <;> exact id
  · cases kind <;> cases w <;> first | exact horder | exact horder.elim

/-- A request commits. -/
theorem OneFlight.of_ready (H : sys.OneFlight) {i : Nat} {r : DownloadRequest} {w : Writes}
    {t : DownloadTables} (hr : sys.requests[i]? = some r) (hpoint : r.point = .ready w)
    (hidle : r.kind = .cancel → sys.Idle) (h : sys.db.execute w = some t)
    (hflights : ({ sys with db := t, requests := sys.requests.set i ⟨r.kind, .ended true⟩ } :
      DownloadSystem).flights ≤ 1)
    (hopens : ({ sys with db := t, requests := sys.requests.set i ⟨r.kind, .ended true⟩ } :
      DownloadSystem).opens ≤ 1) :
    ({ sys with db := t, requests := sys.requests.set i ⟨r.kind, .ended true⟩ } :
      DownloadSystem).OneFlight := by
  have horder := H.requests r (List.mem_of_getElem? hr)
  have hrows : t.model = none → t.job = none := by
    cases w with
    | insertRows errorMessage =>
      obtain ⟨-, heq⟩ := Option.ite_none_right_eq_some.1 h
      cases heq
      exact nofun
    | update model job => exact rows_commit H.rows h
  have hothers : ∀ k q, k ≠ i → sys.requests[k]? = some q → ¬ q.isOpen := by
    intro k q hki hq hopen
    by_cases hcancel : r.kind = .cancel
    · exact of_opens_zero (hidle hcancel).2 q (List.mem_of_getElem? hq) hopen
    · have hropen : r.isOpen := by simp [DownloadRequest.isOpen, hcancel, hpoint]
      exact hki (eq_of_countP_le_one H.opens hq hopen hr hropen)
  have hended : ¬ (⟨r.kind, .ended true⟩ : DownloadRequest).isOpen := by
    simp [DownloadRequest.isOpen]
  have hr' : (⟨r.kind, .ended true⟩ : DownloadRequest).InOrder t := by
    cases hkind : r.kind <;> exact trivial
  apply H.of_ended hr hflights hopens hended hr' hrows hothers
  -- no other request holds the row
  have hheld (n : Nat) (hprogress : sys.ProgressAtMost n) (hnot : ¬ r.holdsJob) :
      ∀ job, sys.db.job = some job → job.progress ≤ n := by
    apply hprogress.resolve_left
    rintro ⟨q, hq, hholds⟩
    obtain ⟨k, hk⟩ := List.mem_iff_getElem?.1 hq
    by_cases hki : k = i
    · subst hki
      cases hk.symm.trans hr
      exact hnot hholds
    · exact hothers k q hki hk hholds.2
  intro n hprogress job hjob
  cases w with
  | insertRows errorMessage =>
    obtain ⟨-, heq⟩ := Option.ite_none_right_eq_some.1 h
    cases heq
    cases hjob
    exact Nat.zero_le n
  | update model patch =>
    rw [job_commit h] at hjob
    obtain ⟨old, hold, rfl⟩ := Option.map_eq_some_iff.1 hjob
    obtain ⟨kind, point⟩ := r
    cases hpoint
    cases kind with
    | start => exact horder.elim
    | cancel =>
      have hold' := hheld n hprogress (fun hholds => by cases hholds.2) old hold
      rw [JobPatch.apply, horder.2]
      exact hold'
    | retry =>
      by_cases hempty : patch = {}
      · subst hempty
        exact hheld n hprogress (fun hholds => hholds.1 rfl) old hold
      · have heq : patch = .between old old.reset := horder hempty old hold
        rw [heq]
        simp only [JobPatch.apply_between]
        exact Nat.zero_le n

/-- A retry does not commit where the rows are gone. -/
theorem OneFlight.job_eq_none (H : sys.OneFlight) {i : Nat} {w : Writes}
    (hr : sys.requests[i]? = some ⟨.retry, .ready w⟩) (h : sys.db.execute w = none) :
    sys.db.job = none := by
  have horder := H.requests _ (List.mem_of_getElem? hr)
  cases w with
  | insertRows errorMessage => exact horder.elim
  | update model job =>
    rw [DownloadTables.execute, DownloadTables.commit] at h
    split at h
    next hgone =>
      obtain ⟨hmodel, -⟩ | ⟨hjob, -⟩ := hgone
      · exact H.rows hmodel
      · exact hjob
    next => cases h

theorem OneFlight.request (H : sys.OneFlight) (i : Nat) (e : RequestEvent)
    (hok : sys.SingleFlight (.request i e)) : (sys.step (.request i e)).OneFlight := by
  have hflights : (sys.step (.request i e)).flights ≤ 1 := flights_step.trans H.flights
  have hopens : (sys.step (.request i e)).opens ≤ 1 := opens_step.trans H.opens
  rw [step] at hflights hopens ⊢
  obtain heq | ⟨r, hr, heq⟩ := @onRequest_eq sys i e
  · rw [heq]
    exact H
  rw [heq] at hflights hopens ⊢
  obtain ⟨kind, point⟩ := r
  have hself : sys.requests.set i ⟨kind, point⟩ = sys.requests := by
    obtain ⟨hi, hget⟩ := List.getElem?_eq_some_iff.1 hr
    rw [← hget, List.set_getElem_self]
  cases e with
  | fail =>
    cases point with
    | ended committed =>
      simp only [DownloadRequest.step, hself]
      exact H
    | accepted job => exact H.of_failed hr fun _ _ h => by cases h
    | flushed w => exact H.of_failed hr fun _ _ h => by cases h
    | ready w =>
      apply H.of_failed hr
      rintro rfl
      have hsent := hok.2.2
      simp [failsSent, hr] at hsent
  | undelivered error =>
    cases point with
    | flushed w =>
      cases w with
      | update model job => exact H.of_failed hr fun _ _ h => by cases h
      | insertRows errorMessage =>
        have horder := H.requests _ (List.mem_of_getElem? hr)
        simp only [DownloadRequest.step] at hflights hopens ⊢
        refine H.of_request hr hflights hopens rfl rfl rfl ?_ (fun _ h => by cases h) H.queued
          fun h => (h.1 rfl).elim
        cases kind <;> first | exact trivial | exact horder.elim
    | _ =>
      simp only [DownloadRequest.step, hself]
      exact H
  | proceed =>
    cases point with
    | ended committed =>
      simp only [DownloadRequest.step, hself]
      exact H
    | accepted job =>
      simp only [DownloadRequest.step] at hflights hopens ⊢
      split
      next hcommit =>
        rw [if_pos hcommit] at hflights hopens
        exact H.of_accepted hr rfl hflights hopens
      next => exact H.of_failed hr fun _ _ h => by cases h
    | flushed w => exact H.of_flushed hr hflights hopens
    | ready w =>
      simp only [DownloadRequest.step] at hflights hopens ⊢
      cases hexecute : sys.db.execute w with
      | some t =>
        rw [hexecute] at hflights hopens
        have hidle : kind = .cancel → sys.Idle := by
          rintro rfl
          apply hok.2.1
          simp [commits, hr, hexecute]
        exact H.of_ready hr rfl hidle hexecute hflights hopens
      | none =>
        rw [hexecute] at hflights hopens
        by_cases hretry : kind = .retry
        · subst hretry
          have hnone : sys.db.job = none := H.job_eq_none hr hexecute
          refine H.of_ended hr hflights hopens (by simp [DownloadRequest.isOpen]) trivial H.rows
            (fun k q hki hq hopen => ?_) fun n _ job hjob => ?_
          · exact hki (eq_of_countP_le_one H.opens hq hopen hr rfl)
          · rw [hnone] at hjob
            cases hjob
        · exact H.of_failed hr fun h => (hretry h).elim

theorem OneFlight.step (H : sys.OneFlight) (hok : sys.SingleFlight e) : (sys.step e).OneFlight := by
  cases e with
  | retry => exact H.retry hok.1
  | cancel => exact H.cancel
  | request i e => exact H.request i e hok
  | consume => exact H.consume
  | worker i e => exact H.worker i e
  | deleteModel => exact H.deleteModel

theorem oneFlight_initial : initial.OneFlight where
  flights := Nat.le_refl _
  opens := Nat.le_refl _
  rows _ := rfl
  requests r hr := by
    cases List.mem_singleton.1 hr
    exact trivial
  dispatching _ _ _ _ _ := .inr nofun
  queued h := absurd h (Nat.lt_irrefl 0)
  workers := nofun
  live := nofun

end DownloadSystem

/-! ## Canceled jobs -/

open DownloadSystem

namespace Watched

/-- A canceled job is idle and stays so. -/
structure Calm (w : Watched) : Prop where
  flight : w.sys.OneFlight
  idle : w.canceled → w.sys.Idle
  status : w.canceled → ∀ job, w.sys.db.job = some job → job.status = .canceled

/-- Where nothing is under way, only a cancel writes. -/
theorem job_of_idle (H : w.sys.OneFlight) (hidle : w.sys.Idle) (e : DownloadEvent) :
    ∀ job', (w.sys.step e).db.job = some job' →
      w.sys.db.job = some job' ∨ job'.status = .canceled := by
  obtain hdb | hcommits := step_db w.sys e
  · rw [hdb]
    exact fun _ => .inl
  obtain ⟨-, -, hworkers⟩ := of_flights_zero hidle.1
  generalize (w.sys.step e).db = t at hcommits
  intro job' hjob'
  cases hcommits with
  | deleteModel => cases hjob'
  | @request i r writes _ hr hpoint h =>
    have horder := H.requests r (List.mem_of_getElem? hr)
    have hclosed := of_opens_zero hidle.2 r (List.mem_of_getElem? hr)
    obtain ⟨kind, point⟩ := r
    cases hpoint
    cases kind with
    | cancel =>
      cases writes with
      | insertRows => exact horder.elim
      | update model patch =>
        rw [job_commit h] at hjob'
        obtain ⟨old, hold, rfl⟩ := Option.map_eq_some_iff.1 hjob'
        right
        rw [JobPatch.apply, horder.1]
        rfl
    | _ => exact (hclosed rfl).elim
  | @reported i w' progress patch _ hw hpoint =>
    refine (hworkers w' (List.mem_of_getElem? hw) (DownloadWorker.isLive_of_ne ?_)).elim
    simp [hpoint]
  | @success i w' snapshot model job _ hw hpoint =>
    refine (hworkers w' (List.mem_of_getElem? hw) (DownloadWorker.isLive_of_ne ?_)).elim
    simp [hpoint]
  | @error i w' model job _ hw hpoint =>
    refine (hworkers w' (List.mem_of_getElem? hw) (DownloadWorker.isLive_of_ne ?_)).elim
    simp [hpoint]

theorem blocked_empty (sys : DownloadSystem) : sys.blocked {} = false := by
  apply List.any_eq_false.2
  intro r _
  simp [Changes.meets]

/-- A cancel marks the job. -/
theorem status_of_cancel (H : w.sys.OneFlight) (h : w.sys.commits .cancel e) :
    ∀ job', (w.sys.step e).db.job = some job' → job'.status = .canceled := by
  cases e with
  | request i e =>
    cases e with
    | proceed =>
      rw [commits] at h
      split at h
      next => cases h
      next r hr =>
        have horder := H.requests r (List.mem_of_getElem? hr)
        obtain ⟨kind, point⟩ := r
        obtain ⟨hkind, hready⟩ := Bool.and_eq_true_iff.1 h
        cases of_decide_eq_true hkind
        cases point with
        | ready writes =>
          obtain ⟨t, ht⟩ := Option.isSome_iff_exists.1 hready
          have hfree : w.sys.blocked (DownloadRequest.pending ⟨.cancel, .ready writes⟩ w.sys.db) =
              false := blocked_empty w.sys
          have hdb : (w.sys.step (.request i .proceed)).db = t := by
            simp [DownloadSystem.step, onRequest, hr, hfree, DownloadRequest.step, ht]
          rw [hdb]
          intro job' hjob'
          cases writes with
          | insertRows => exact horder.elim
          | update model patch =>
            rw [job_commit ht] at hjob'
            obtain ⟨old, -, rfl⟩ := Option.map_eq_some_iff.1 hjob'
            rw [JobPatch.apply, horder.1]
            rfl
        | _ => cases hready
    | _ => cases h
  | _ => cases h

theorem Calm.step (H : w.Calm) (hok : w.sys.SingleFlight e) : (w.step e).Calm := by
  have hidle : (w.step e).canceled → w.sys.acceptsRetry e = false ∧ w.sys.Idle := by
    intro h
    rw [Watched.step] at h
    split at h
    next => cases h
    next haccepts =>
      refine ⟨Bool.eq_false_iff.2 haccepts, ?_⟩
      obtain hcanceled | hcommits := Bool.or_eq_true_iff.1 h
      · exact H.idle hcanceled
      · exact hok.2.1 hcommits
  constructor
  · exact H.flight.step hok
  · intro h
    obtain ⟨haccepts, hzero, hnone⟩ := hidle h
    have hflights : (w.sys.step e).flights ≤ w.sys.flights + (w.sys.acceptsRetry e).toNat :=
      flights_step
    have hopens : (w.sys.step e).opens ≤ w.sys.opens + (w.sys.acceptsRetry e).toNat := opens_step
    rw [haccepts, hzero] at hflights
    rw [haccepts, hnone] at hopens
    exact ⟨Nat.le_zero.1 hflights, Nat.le_zero.1 hopens⟩
  · intro h job' hjob'
    obtain ⟨haccepts, hzero⟩ := hidle h
    obtain hsame | hstatus := job_of_idle H.flight hzero e job' hjob'
    · rw [Watched.step, haccepts] at h
      obtain hcanceled | hcommits := Bool.or_eq_true_iff.1 h
      · exact H.status hcanceled job' hsame
      · exact status_of_cancel H.flight hcommits job' hjob'
    · exact hstatus

theorem progress_of_worker (H : sys.OneFlight) {i : Nat} {w : DownloadWorker} {t : DownloadTables}
    {n : Nat} {job job' : DownloadJob} (hw : sys.workers[i]? = some w)
    (hpoint : ∀ outcome, w.point ≠ .returned outcome) (hfree : sys.blocked w.pending = false)
    (h : sys.db.commit w.pending = some t) (hn : w.lastPct ≤ n)
    (hpatch : w.pending.job.progress = none ∨ w.pending.job.progress = some n)
    (hjob : sys.db.job = some job) (hjob' : t.job = some job') : job.progress ≤ job'.progress := by
  obtain hsame | ⟨-, hle⟩ := H.job_committed hw (DownloadWorker.isLive_of_ne hpoint) hfree h
  · cases hjob.symm.trans (hsame.symm.trans hjob')
    exact Nat.le_refl _
  · rw [job_commit h, hjob] at hjob'
    cases hjob'
    exact (progress_apply hpatch ((hle job hjob).trans hn)).1

theorem keepsProgress_of_oneFlight (H : w.sys.OneFlight) (hretry : ¬ w.sys.commits .retry e) :
    w.KeepsProgress e := by
  intro job job' hjob hjob'
  have hdb := step_db w.sys e
  rw [Watched.step] at hjob'
  generalize (w.sys.step e).db = t at hdb hjob'
  obtain rfl | hcommits := hdb
  · cases hjob.symm.trans hjob'
    exact Nat.le_refl _
  cases hcommits with
  | deleteModel => cases hjob'
  | @request i r writes _ hr hpoint h =>
    have horder := H.requests r (List.mem_of_getElem? hr)
    obtain ⟨kind, point⟩ := r
    cases hpoint
    cases writes with
    | insertRows errorMessage =>
      obtain ⟨⟨-, hnone⟩, -⟩ := Option.ite_none_right_eq_some.1 h
      cases hjob.symm.trans hnone
    | update model patch =>
      cases kind with
      | start => exact horder.elim
      | retry =>
        refine (hretry ?_).elim
        simp [commits, hr, h]
      | cancel =>
        rw [job_commit h, hjob] at hjob'
        cases hjob'
        simp [JobPatch.apply, horder.2]
  | @reported i w' progress patch _ hw hpoint hfree h =>
    have horder := (H.workers w' (List.mem_of_getElem? hw)).point
    rw [hpoint] at horder
    refine progress_of_worker H hw (by simp [hpoint]) hfree h (Nat.le_refl _) ?_ hjob hjob'
    rw [DownloadWorker.pending, hpoint]
    exact horder
  | @success i w' snapshot model patch _ hw hpoint hfree h =>
    have horder := H.workers w' (List.mem_of_getElem? hw)
    have hpatch := horder.point
    rw [hpoint] at hpatch
    have hn : w'.lastPct ≤ 100 := horder.lastPct.trans (by decide)
    refine progress_of_worker H hw (by simp [hpoint]) hfree h hn ?_ hjob hjob'
    rw [DownloadWorker.pending, hpoint]
    exact hpatch
  | @error i w' model patch _ hw hpoint hfree h =>
    have horder := (H.workers w' (List.mem_of_getElem? hw)).point
    rw [hpoint] at horder
    refine progress_of_worker H hw (by simp [hpoint]) hfree h (Nat.le_refl _) (.inl ?_) hjob hjob'
    rw [DownloadWorker.pending, hpoint]
    exact horder

theorem calm_initial : initial.Calm where
  flight := oneFlight_initial
  idle := nofun
  status := nofun

/-- Where retries are accepted and cancels commit only while nothing is under way, a canceled job
stays canceled until a retry is accepted, and only the commit of a retry takes back progress. -/
theorem canceled_stays {es : List DownloadEvent}
    (h : Guarded Watched.step (fun w e => w.sys.SingleFlight e) .initial es) :
    Always Watched.step StaysCanceled .initial es ∧
      ∀ pre e post, es = pre ++ e :: post →
        ¬ (run Watched.step .initial pre).sys.commits .retry e →
        (run Watched.step .initial pre).KeepsProgress e := by
  have hstep : ∀ (w : Watched) e, w.Calm → w.sys.SingleFlight e → (Watched.step w e).Calm :=
    fun _ _ H hok => H.step hok
  constructor
  · have hstays : ∀ w : Watched, w.Calm → w.StaysCanceled := by
      intro w H hcanceled job hjob
      rw [H.status hcanceled job hjob]
      exact ⟨nofun, nofun⟩
    exact h.always hstep hstays calm_initial
  · rintro pre e post rfl hretry
    have hcalm := (guarded_append.1 h).1.invariant hstep calm_initial
    exact keepsProgress_of_oneFlight hcalm.flight hretry

/-- A download whose message was never sent is canceled. -/
def canceledUnsent : List DownloadEvent :=
  [.request 0 (.undelivered "no broker"), .request 0 .proceed, .cancel, .request 1 .proceed,
    .request 1 .proceed]

theorem canceled_stays_canceledUnsent :
    Guarded Watched.step (fun w e => w.sys.SingleFlight e) .initial canceledUnsent ∧
      (run Watched.step .initial canceledUnsent).canceled ∧
      Always Watched.step StaysCanceled .initial canceledUnsent := by
  have hguarded : Guarded Watched.step (fun w e => w.sys.SingleFlight e) .initial canceledUnsent := by
    decide +kernel
  exact ⟨hguarded, by decide +kernel, (canceled_stays hguarded).1⟩

/-- A download that is canceled while its worker runs. -/
def canceledRunning (s : Option Snapshot) : List DownloadEvent :=
  [.request 0 .proceed, .request 0 .proceed, .consume, .worker 0 .proceed, .worker 0 .proceed,
    .cancel, .request 1 .proceed, .request 1 .proceed, .worker 0 .downloaded, .worker 0 .proceed,
    .worker 0 .proceed, .worker 0 (.scanned s), .worker 0 .proceed, .worker 0 .proceed,
    .worker 0 .proceed, .worker 0 .proceed]

/-- The worker goes on and marks the job as successful. -/
theorem not_staysCanceled_canceledRunning :
    ¬ Always Watched.step StaysCanceled .initial (canceledRunning none) := by
  intro h
  have hcanceled : (run Watched.step .initial (canceledRunning none)).canceled := by decide +kernel
  have hjob : (run Watched.step .initial (canceledRunning none)).sys.db.job =
      some ⟨.success, 100, none⟩ := by decide +kernel
  exact (h _ (List.prefix_refl _) hcanceled _ hjob).2 rfl

end Watched

end LlmPort.Backend.Downloads
