import LlmPort.Backend.Downloads.Outcome
import LlmPort.Backend.RagLite.Outcome

/-!
# Outcomes of background jobs

The two kinds of background jobs, each with any order of the steps of the request that dispatches
it and of the worker that takes its message.
-/

namespace LlmPort.Backend

open Transition
open RagLite (ChunkerConfig RagTables IngestRequest IngestEvent IngestSystem BeginsIngest)
open Downloads (DownloadTables DownloadRequest DownloadEvent DownloadSystem BeginsDownload)

/-- A request that begins a job, and an order of its steps and of those of its worker. -/
inductive JobRun where
  | ingest (cfg : ChunkerConfig) {t : RagTables} {r : IngestRequest} (hr : BeginsIngest t r)
      (es : List IngestEvent) (hjob : ∀ e ∈ es, e.isOfJob)
  | download {t : DownloadTables} {r : DownloadRequest} (hr : BeginsDownload t r)
      (es : List DownloadEvent) (hjob : ∀ e ∈ es, e.isOfJob)

namespace JobRun

/-- The worker's last lookups come in time. -/
def InTime : JobRun → Prop
  | @ingest cfg t r _ es _ =>
    Guarded (IngestSystem.step cfg) (fun sys e => sys.recordsInTime e) (.dispatching t r) es
  | @download t r _ es _ =>
    Guarded DownloadSystem.step (fun sys e => sys.recordsInTime e) (.dispatching t r) es

/-- Where the request has committed and the worker has returned, the outcome is recorded. -/
def RecordsOutcome : JobRun → Prop
  | @ingest cfg t r _ es _ => (run (IngestSystem.step cfg) (.dispatching t r) es).RecordsOutcome
  | @download t r _ es _ => (run DownloadSystem.step (.dispatching t r) es).RecordsOutcome

/-- A worker whose last lookups come in time records what it comes to. -/
theorem outcome_recorded (job : JobRun) (h : job.InTime) : job.RecordsOutcome := by
  cases job with
  | ingest cfg hr es hjob => exact RagLite.recordsOutcome_of_inTime hr hjob h
  | download hr es hjob => exact Downloads.recordsOutcome_of_inTime hr hjob h

/-- A message that is consumed before its upload commits: the worker crashes as it adds an event to
a job that is not there. -/
def consumedEarly : List IngestEvent :=
  [.request 0 .proceed, .consume 0, .worker 0 .proceed, .worker 0 .proceed, .worker 0 .proceed,
    .worker 0 .proceed]

/-- The session after the crash. -/
def recording : List IngestEvent := [.worker 0 .proceed, .worker 0 .proceed, .worker 0 .proceed]

/-- The crash is recorded when the upload has committed. -/
def recordedLate : JobRun :=
  .ingest {} (t := (IngestSystem.start []).db) (.upload ⟨5, 6⟩ none "a.txt".toList "k".toList)
    (consumedEarly ++ [.request 0 .proceed] ++ recording) (by decide)

theorem outcome_recorded_recordedLate : recordedLate.InTime ∧ recordedLate.RecordsOutcome := by
  have h : recordedLate.InTime := by
    rw [recordedLate, InTime]
    decide +kernel
  exact ⟨h, outcome_recorded _ h⟩

/-- The crash is recorded before the upload commits. -/
def recordedEarly : JobRun :=
  .ingest {} (t := (IngestSystem.start []).db) (.upload ⟨5, 6⟩ none "a.txt".toList "k".toList)
    (consumedEarly ++ recording ++ [.request 0 .proceed]) (by decide)

/-- A worker that finds no files to register is through before its download commits. -/
def downloadedEarly : JobRun :=
  .download .start [.request 0 .proceed, .consume, .worker 0 .proceed, .worker 0 .proceed,
    .worker 0 .downloaded, .worker 0 .proceed, .worker 0 .proceed, .worker 0 (.scanned none),
    .worker 0 .proceed, .worker 0 .proceed, .worker 0 .proceed, .worker 0 .proceed,
    .request 0 .proceed] (by decide)

/-- Both jobs stay in the queue. -/
theorem not_recordsOutcome_early :
    ¬ recordedEarly.RecordsOutcome ∧ ¬ downloadedEarly.RecordsOutcome := by
  constructor
  · rw [recordedEarly, RecordsOutcome]
    decide +kernel
  · rw [downloadedEarly, RecordsOutcome]
    decide +kernel

end JobRun

end LlmPort.Backend
