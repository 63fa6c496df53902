import Mathlib.Data.Rat.Defs
import Mathlib.Algebra.Order.Ring.Unbundled.Rat
import LlmPort.Transition.Dict
import LlmPort.Transition.Schedule

/-!
# Tracking image pulls

`services/docker/pull_tracker.py`: jobs that pull images in the background, the map from an image
reference to its active job, and the subscribers that read a job's progress. What a coroutine does
between two of its suspensions is one event.
-/

namespace LlmPort.Backend.Docker

open Transition

inductive PullState where
  | pulling | complete | failed
  deriving DecidableEq

structure LayerProgress where
  id : String
  status : String
  current : Int
  total : Int
  deriving DecidableEq

/-- `uuid.uuid4().hex[:12]` -/
abbrev PullId := BitVec 48

def imageRef (image tag : String) : String := image ++ ":" ++ tag

structure PullJob where
  pullId : PullId
  image : String
  tag : String
  state : PullState
  error : Option String
  layers : Dict String LayerProgress
  /-- `_event` is set. -/
  event : Bool

/-- A chunk of the pull's output, with the two numbers of its `progressDetail`. -/
structure PullChunk where
  id : Option String
  status : Option String
  current : Option Int
  total : Option Int
  error : Option String

/-- What a subscriber compares to what it last emitted. -/
structure Snapshot where
  percent : Rat
  currentBytes : Int
  totalBytes : Int
  layersDone : Nat
  layersTotal : Nat
  deriving DecidableEq

inductive PullMessage where
  | progress (pullId : PullId) (image : String) (snapshot : Snapshot)
  | complete (pullId : PullId) (image : String)
  | error (pullId : PullId) (image : String) (error : String)
  deriving DecidableEq

namespace PullJob

variable (job : PullJob)

def new (pullId : PullId) (image tag : String) : PullJob :=
  ⟨pullId, image, tag, .pulling, none, .empty, false⟩

def imageRef : String := Docker.imageRef job.image job.tag

def overallCurrent : Int := (job.layers.entries.map (·.2.current)).sum

def overallTotal : Int := (job.layers.entries.map (·.2.total)).sum

/-- `rounded` is `round(current / total * 100, 1)` of floating point numbers. -/
def percent (rounded : Int → Int → Rat) : Rat :=
  if job.overallTotal ≤ 0 then 0 else min (rounded job.overallCurrent job.overallTotal) 100

def layersDone : Nat :=
  job.layers.entries.countP fun layer =>
    layer.2.status = "Pull complete" || layer.2.status = "Already exists"

def snapshot (rounded : Int → Int → Rat) : Snapshot :=
  ⟨job.percent rounded, job.overallCurrent, job.overallTotal, job.layersDone,
    job.layers.entries.length⟩

/-- The layer of a chunk. -/
def absorb (chunk : PullChunk) : PullJob :=
  let layerId := chunk.id.getD ""
  if layerId = "" then job
  else
    let layer := (job.layers.get layerId).getD ⟨layerId, "", 0, 0⟩
    let layer := { layer with
      status := chunk.status.getD "", current := chunk.current.getD layer.current,
      total := chunk.total.getD layer.total }
    { job with layers := job.layers.set layerId layer }

/-- The message of a job that has ended. -/
def terminal : Option PullMessage :=
  match job.state with
  | .pulling => none
  | .complete => some (.complete job.pullId job.imageRef)
  | .failed =>
    some (.error job.pullId job.imageRef ((job.error.filter (· ≠ "")).getD "Unknown error"))

end PullJob

/-- Where a subscriber is suspended: in `wait_for`, whose wait may be over, or at a `yield`. -/
inductive Phase where
  | waiting (notified : Bool)
  | yielding
  | ending
  | returned
  deriving DecidableEq

structure Subscriber where
  job : Nat
  phase : Phase
  lastSnapshot : Option Snapshot
  lastEmitAt : Rat
  yielded : List PullMessage

namespace Subscriber

/-- `event.set()`, where the subscriber waits for the event of the job. -/
def notify (sub : Subscriber) (j : Nat) : Subscriber :=
  match sub.phase with
  | .waiting _ => if sub.job = j then { sub with phase := .waiting true } else sub
  | _ => sub

/-- The loop of `subscribe`, from the end of the wait to the next suspension. -/
def wake (rounded : Int → Int → Rat) (job : PullJob) (now : Rat) (sub : Subscriber) : Subscriber :=
  match job.terminal with
  | some msg => { sub with phase := .ending, yielded := sub.yielded ++ [msg] }
  | none =>
    let snapshot := job.snapshot rounded
    if some snapshot ≠ sub.lastSnapshot ∨ 5 ≤ now - sub.lastEmitAt then
      { sub with
        phase := .yielding, lastSnapshot := some snapshot, lastEmitAt := now,
        yielded := sub.yielded ++ [.progress job.pullId job.imageRef snapshot] }
    else { sub with phase := .waiting false }

/-- The next message is asked for. -/
def resume (job : PullJob) (sub : Subscriber) : Subscriber :=
  match sub.phase with
  | .yielding => { sub with phase := .waiting job.event }
  | .ending => { sub with phase := .returned }
  | _ => sub

end Subscriber

/-- The tracker with the coroutines around it. A job is known by its place among the jobs that were
made. -/
structure PullTracker where
  made : List PullJob
  /-- `_jobs` -/
  jobs : Dict PullId Nat
  /-- `_active` -/
  active : Dict String PullId
  /-- The jobs that `_cleanup_after` sleeps for. -/
  cleanups : List Nat
  subscribers : List Subscriber

namespace PullTracker

variable (tracker : PullTracker)

def empty : PullTracker := ⟨[], .empty, .empty, [], []⟩

def getActiveFor (ref : String) : Option Nat :=
  match tracker.active.get ref with
  | none => none
  | some pullId =>
    match tracker.jobs.get pullId with
    | none => none
    | some j =>
      match tracker.made[j]? with
      | none => none
      | some job => if job.state = .pulling then some j else none

/-- `start_pull` with the id that it draws; the job, and whether it is new. -/
def startPull (image tag : String) (newId : PullId) : PullTracker × Nat × Bool :=
  let ref := imageRef image tag
  match tracker.getActiveFor ref with
  | some j => (tracker, j, false)
  | none =>
    let j := tracker.made.length
    ({ tracker with
      made := tracker.made ++ [.new newId image tag]
      jobs := tracker.jobs.set newId j
      active := tracker.active.set ref newId }, j, true)

/-- `job._event.set()`, after a change of the job -/
def signal (j : Nat) (change : PullJob → PullJob) : PullTracker :=
  { tracker with
    made := tracker.made.modify j fun job => { change job with event := true }
    subscribers := tracker.subscribers.map (·.notify j) }

/-- `_run_pull` ends, and sets a cleanup up. -/
def endPull (j : Nat) (change : PullJob → PullJob) : PullTracker :=
  { tracker.signal j change with cleanups := tracker.cleanups ++ [j] }

/-- The end of a pull that raised `error`. -/
def fail (error : String) (job : PullJob) : PullJob :=
  { job with state := .failed, error := some error }

/-- `_cleanup_after`, when it has slept -/
def cleanup (j : Nat) : PullTracker :=
  match tracker.made[j]? with
  | none => tracker
  | some job =>
    { tracker with
      active := if tracker.active.get job.imageRef = some job.pullId then
          tracker.active.pop job.imageRef
        else tracker.active
      jobs := tracker.jobs.pop job.pullId
      cleanups := tracker.cleanups.erase j }

/-- A subscriber goes on after its wait. -/
def wake (rounded : Int → Int → Rat) (k : Nat) (now : Rat) : PullTracker :=
  match tracker.subscribers[k]? with
  | none => tracker
  | some sub =>
    match tracker.made[sub.job]? with
    | none => tracker
    | some job =>
      { tracker with
        made := tracker.made.modify sub.job fun job => { job with event := false }
        subscribers := tracker.subscribers.modify k (·.wake rounded job now) }

def resume (k : Nat) : PullTracker :=
  match tracker.subscribers[k]? with
  | none => tracker
  | some sub =>
    match tracker.made[sub.job]? with
    | none => tracker
    | some job => { tracker with subscribers := tracker.subscribers.modify k (·.resume job) }

/-- Whether the job's pull is still running. -/
def Running (j : Nat) : Prop := (tracker.made[j]?.map (·.state)) = some .pulling

instance (j : Nat) : Decidable (tracker.Running j) :=
  inferInstanceAs (Decidable (_ = _))

def phase (k : Nat) : Option Phase := tracker.subscribers[k]?.map (·.phase)

end PullTracker

inductive PullEvent where
  | startPull (image tag : String) (newId : PullId)
  | chunk (j : Nat) (chunk : PullChunk)
  | finish (j : Nat)
  /-- The pull raises an exception that reads `error`. -/
  | raised (j : Nat) (error : String)
  | cleanup (j : Nat)
  | subscribe (j : Nat)
  /-- The wait for the event returns. -/
  | notified (k : Nat) (now : Rat)
  /-- The wait has taken a second. -/
  | timeout (k : Nat) (now : Rat)
  | resume (k : Nat)

namespace PullTracker

/-- The next state; an event of a coroutine that is not suspended there changes nothing. -/
def step (rounded : Int → Int → Rat) (tracker : PullTracker) : PullEvent → PullTracker
  | .startPull image tag newId => (tracker.startPull image tag newId).1
  | .chunk j chunk =>
    if tracker.Running j then
      match chunk.error with
      | none => tracker.signal j (·.absorb chunk)
      | some error => tracker.endPull j fun job => fail error (job.absorb chunk)
    else tracker
  | .finish j =>
    if tracker.Running j then tracker.endPull j fun job => { job with state := .complete }
    else tracker
  | .raised j error => if tracker.Running j then tracker.endPull j (fail error) else tracker
  | .cleanup j => if j ∈ tracker.cleanups then tracker.cleanup j else tracker
  | .subscribe j =>
    match tracker.made[j]? with
    | none => tracker
    | some job =>
      { tracker with
        subscribers := tracker.subscribers ++ [⟨j, .waiting job.event, none, 0, []⟩] }
  | .notified k now =>
    if tracker.phase k = some (.waiting true) then tracker.wake rounded k now else tracker
  | .timeout k now =>
    if ∃ notified, tracker.phase k = some (.waiting notified) then tracker.wake rounded k now
    else tracker
  | .resume k => tracker.resume k

end PullTracker

end LlmPort.Backend.Docker
