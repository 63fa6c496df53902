import Mathlib.Data.List.Basic
import LlmPort.Transition.Run

/-!
# The delivery of node events

`event_buffer.py` and the event flush loop of `stream_client.py`. The buffer outlives the stream
sessions. The loop takes a batch out of it, waits for the lock that all tasks of the session share,
and sends; producers add events all the while. `always_accounted_iff` says when nothing is lost.
-/

namespace LlmPort.NodeAgent

open Transition

structure EventBuffer (ε : Type) where
  items : List ε
  deriving DecidableEq

namespace EventBuffer

variable {ε : Type} (buffer : EventBuffer ε)

def add (event : ε) : EventBuffer ε := ⟨buffer.items ++ [event]⟩

def drain (maxItems : Nat) : List ε × EventBuffer ε :=
  (buffer.items.take maxItems, ⟨buffer.items.drop maxItems⟩)

end EventBuffer

/-- `max_items` of the flush loop -/
def maxItems : Nat := 100

/-- Where the flush loop of a session is. -/
inductive FlushTask (ε : Type) where
  | asleep
  /-- It waits for the lock with a batch it has drained. -/
  | waiting (batch : List ε)
  /-- It holds the lock while `ws.send` runs. -/
  | sending (seq : Nat) (batch : List ε)
  deriving DecidableEq

/-- The batch that is out of the buffer and not sent. -/
def FlushTask.batch {ε : Type} : FlushTask ε → List ε
  | asleep => []
  | waiting batch | sending _ batch => batch

structure EventStream (ε : Type) where
  events : EventBuffer ε
  connected : Bool
  flush : FlushTask ε
  /-- Another task of the session holds `_send_lock`. -/
  othersSend : Bool
  txSeq : Nat
  /-- The batches whose send has returned, with their sequence numbers. -/
  sent : List (Nat × List ε)
  deriving DecidableEq

inductive StreamStep (ε : Type) where
  | add (event : ε)
  /-- A session opens and starts its tasks. -/
  | connect
  /-- The flush loop has slept. -/
  | wake
  /-- The flush loop gets the lock. -/
  | lockFlush
  /-- Another task gets the lock. -/
  | lockOther
  /-- `ws.send` returns to the task that holds the lock. -/
  | sendReturns
  /-- `ws.send` raises in the task that holds the lock; the session's tasks are cancelled. -/
  | sendRaises
  /-- Another task of the session raises. -/
  | taskRaises
  deriving DecidableEq

namespace EventStream

variable {ε : Type}

/-- Some task holds `_send_lock`. -/
def lockHeld (s : EventStream ε) : Bool := match s.flush with
  | .sending _ _ => true
  | _ => s.othersSend

/-- The session is over: its tasks end where they are and release the lock. -/
def close (s : EventStream ε) : EventStream ε :=
  { s with connected := false, flush := .asleep, othersSend := false }

def step (s : EventStream ε) : StreamStep ε → EventStream ε
  | .add event => { s with events := s.events.add event }
  | .connect => { s with connected := true }
  | .wake => match s.connected, s.flush with
    | true, .asleep =>
      let (batch, events) := s.events.drain maxItems
      if batch.isEmpty then s else { s with events, flush := .waiting batch }
    | _, _ => s
  | .lockFlush => match s.flush, s.lockHeld with
    | .waiting batch, false =>
      { s with flush := .sending (s.txSeq + 1) batch, txSeq := s.txSeq + 1 }
    | _, _ => s
  | .lockOther =>
    if s.connected ∧ ¬ s.lockHeld then { s with othersSend := true, txSeq := s.txSeq + 1 } else s
  | .sendReturns => match s.flush with
    | .sending seq batch => { s with flush := .asleep, sent := s.sent ++ [(seq, batch)] }
    | _ => { s with othersSend := false }
  | .sendRaises => if s.lockHeld then s.close else s
  | .taskRaises => if s.connected then s.close else s

/-- The agent process has started. -/
def start (txSeq : Nat) : EventStream ε := ⟨⟨[]⟩, false, .asleep, false, txSeq, []⟩

/-- All events that were sent, in the order of the batches. -/
def delivered (s : EventStream ε) : List ε := s.sent.flatMap (·.2)

/-- The step ends no session in which a batch is out of the buffer. -/
def LosesNothing (s : EventStream ε) : StreamStep ε → Prop
  | .sendRaises => s.lockHeld → s.flush = .asleep
  | .taskRaises => s.connected → s.flush = .asleep
  | _ => True

end EventStream

/-- The stream with all events that were added so far. -/
structure EventLedger (ε : Type) where
  stream : EventStream ε
  added : List ε

namespace EventLedger

variable {ε : Type} {l : EventLedger ε} {e : StreamStep ε}

def step (l : EventLedger ε) (e : StreamStep ε) : EventLedger ε where
  stream := l.stream.step e
  added := match e with
    | .add event => l.added ++ [event]
    | _ => l.added

def start (txSeq : Nat) : EventLedger ε := ⟨.start txSeq, []⟩

/-- In the order they were added, the events are in batches that were sent, in the one that a flush
is about to send, or buffered. -/
def Accounted (l : EventLedger ε) : Prop :=
  l.stream.delivered ++ l.stream.flush.batch ++ l.stream.events.items = l.added

/-- The flush loop never sends an empty batch. -/
def Steady (l : EventLedger ε) : Prop :=
  l.Accounted ∧ (l.stream.flush.batch = [] → l.stream.flush = .asleep)

theorem accounted_close (h : l.Steady) :
    (⟨l.stream.close, l.added⟩ : EventLedger ε).Accounted ↔ l.stream.flush = .asleep := by
  obtain ⟨haccounted, hempty⟩ := h
  rw [Accounted] at haccounted ⊢
  constructor
  · intro hclosed
    apply hempty
    have hsame : l.stream.delivered ++ [] ++ l.stream.events.items =
        l.stream.delivered ++ l.stream.flush.batch ++ l.stream.events.items :=
      hclosed.trans haccounted.symm
    have hlength := congrArg List.length hsame
    simp only [List.length_append, List.length_nil] at hlength
    exact List.eq_nil_of_length_eq_zero (by omega)
  · intro hasleep
    rw [hasleep] at haccounted
    exact haccounted

theorem steady_step (h : l.Steady) (hok : l.stream.LosesNothing e) : (l.step e).Steady := by
  obtain ⟨haccounted, hempty⟩ := h
  cases e with
  | add event =>
    refine ⟨?_, hempty⟩
    rw [Accounted] at haccounted
    rw [Accounted, step, ← haccounted, List.append_assoc _ _ [event]]
    rfl
  | connect => exact ⟨haccounted, hempty⟩
  | wake =>
    simp only [step, EventStream.step]
    split
    next hflush =>
      split
      next => exact ⟨haccounted, hempty⟩
      next hbatch =>
        refine ⟨?_, fun h => absurd (List.isEmpty_iff.2 h) hbatch⟩
        rw [Accounted] at haccounted
        rw [Accounted, ← haccounted, hflush]
        simp only [FlushTask.batch, EventBuffer.drain, EventStream.delivered, List.append_nil,
          List.append_assoc, List.take_append_drop]
    next => exact ⟨haccounted, hempty⟩
  | lockFlush =>
    simp only [step, EventStream.step]
    split
    next hflush _ =>
      rw [Accounted, hflush] at haccounted
      rw [hflush] at hempty
      refine ⟨haccounted, fun h => ?_⟩
      cases hempty h
    next => exact ⟨haccounted, hempty⟩
  | lockOther =>
    simp only [step, EventStream.step]
    split
    next => exact ⟨haccounted, hempty⟩
    next => exact ⟨haccounted, hempty⟩
  | sendReturns =>
    simp only [step, EventStream.step]
    split
    next seq batch hflush =>
      refine ⟨?_, fun _ => rfl⟩
      rw [Accounted, hflush] at haccounted
      rw [Accounted, ← haccounted]
      simp [EventStream.delivered, FlushTask.batch]
    next => exact ⟨haccounted, hempty⟩
  | sendRaises =>
    simp only [step, EventStream.step]
    split
    next hheld =>
      exact ⟨(accounted_close ⟨haccounted, hempty⟩).2 (hok hheld), fun _ => rfl⟩
    next => exact ⟨haccounted, hempty⟩
  | taskRaises =>
    simp only [step, EventStream.step]
    split
    next hconnected =>
      exact ⟨(accounted_close ⟨haccounted, hempty⟩).2 (hok hconnected), fun _ => rfl⟩
    next => exact ⟨haccounted, hempty⟩

theorem losesNothing_of_accounted (h : l.Steady) (haccounted : (l.step e).Accounted) :
    l.stream.LosesNothing e := by
  cases e with
  | sendRaises =>
    intro hheld
    simp only [step, EventStream.step] at haccounted
    rw [if_pos hheld] at haccounted
    exact (accounted_close h).1 haccounted
  | taskRaises =>
    intro hconnected
    simp only [step, EventStream.step] at haccounted
    rw [if_pos hconnected] at haccounted
    exact (accounted_close h).1 haccounted
  | _ => trivial

/-- All events are accounted for all along a run of the agent exactly if no session ends while a
batch is out of the buffer. -/
theorem always_accounted_iff (txSeq : Nat) (steps : List (StreamStep ε)) :
    Always step Accounted (start txSeq) steps ↔
      Guarded step (fun l e => l.stream.LosesNothing e) (start txSeq) steps :=
  @always_iff_guarded_of_invariant _ _ _ _ _ _ Steady Accounted (fun _ h => h.1)
    (fun _ _ h hok => steady_step h hok) (fun _ _ h => losesNothing_of_accounted h)
    ⟨rfl, fun _ => rfl⟩

/-- One event is added, a session opens, and the send of the event's batch raises. -/
def failedSend : List (StreamStep String) :=
  [.add "workload.health.crash_loop", .connect, .wake, .lockFlush, .sendRaises]

/-- The event is neither sent nor buffered any more. -/
theorem not_always_accounted_failedSend :
    ¬ Always step Accounted (start 0) failedSend := by
  intro h
  have hlast := h failedSend (List.prefix_refl _)
  rw [Accounted] at hlast
  revert hlast
  decide

end EventLedger

end LlmPort.NodeAgent
