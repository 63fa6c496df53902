import Mathlib.Logic.Function.Basic
import LlmPort.Transition.Run

/-!
# The stream buffer

`services/gateway/stream_buffer.py` for one session: the entry the buffer has under the session id,
and the iterator of a subscriber, whose `__anext__` runs in turns between two awaits. An
`asyncio.Event` is its number and whether it is set.
-/

namespace LlmPort.Gateway

abbrev Chunk := List UInt8

abbrev EventId := Nat

/-- `_StreamEntry`, with instants in microseconds. -/
structure StreamEntry where
  chunks : List Chunk
  newChunkEvent : EventId
  done : Bool
  finishedAt : Option Int

structure StreamBuffer where
  ttl : Int
  /-- `_buffers.get(session_id)` -/
  entry : Option StreamEntry
  isSet : EventId → Bool
  nextEvent : EventId

namespace StreamBuffer

/-- `_DEFAULT_TTL_SEC` -/
def defaultTtl : Int := 120 * 1000000

def empty : StreamBuffer := ⟨defaultTtl, none, fun _ => false, 0⟩

def setEvent (buf : StreamBuffer) (event : EventId) : StreamBuffer :=
  { buf with isSet := Function.update buf.isSet event true }

def start (buf : StreamBuffer) : StreamBuffer :=
  { buf with entry := some ⟨[], buf.nextEvent, false, none⟩, nextEvent := buf.nextEvent + 1 }

def push (buf : StreamBuffer) (chunk : Chunk) : StreamBuffer :=
  match buf.entry with
  | none => buf
  | some entry =>
    if entry.done then buf
    else
      let buf := buf.setEvent entry.newChunkEvent
      { buf with
        entry := some { entry with
          chunks := entry.chunks ++ [chunk], newChunkEvent := buf.nextEvent }
        nextEvent := buf.nextEvent + 1 }

def finish (buf : StreamBuffer) (now : Int) : StreamBuffer :=
  match buf.entry with
  | none => buf
  | some entry =>
    { buf.setEvent entry.newChunkEvent with
      entry := some { entry with done := true, finishedAt := some now } }

def isExpired (buf : StreamBuffer) (now : Int) (entry : StreamEntry) : Bool :=
  -- an instant 0 is falsy
  entry.done && entry.finishedAt.any fun finishedAt => finishedAt ≠ 0 && now - finishedAt > buf.ttl

/-- One pass of `_cleanup_loop`. -/
def cleanup (buf : StreamBuffer) (now : Int) : StreamBuffer :=
  { buf with entry := buf.entry.filter fun entry => !buf.isExpired now entry }

end StreamBuffer

structure AsyncSSEIterator where
  cursor : Nat

/-- How a turn of `__anext__` ends. -/
inductive NextTurn where
  | stopAsyncIteration
  | wait (event : EventId)
  | chunk (chunk : Chunk)

/-- A turn of `__anext__`, from its start or from the end of an `event.wait()`: both fetch the entry
and go on to the test of the loop. -/
def AsyncSSEIterator.anext (it : AsyncSSEIterator) (buf : StreamBuffer) : NextTurn :=
  match buf.entry with
  | none => .stopAsyncIteration
  | some entry => match entry.chunks[it.cursor]? with
    | some chunk => .chunk chunk
    | none => if entry.done then .stopAsyncIteration else .wait entry.newChunkEvent

end LlmPort.Gateway
