import Mathlib.Data.List.Infix
import LlmPort.Gateway.StreamBuffer

/-!
# What a subscriber of the stream buffer reads

The streams of one session and its subscribers, in any order of their turns. The buffer has no
streams, only the entry of the last start: what each stream pushed is recorded beside it, as is the
stream a subscriber's chunks come from.
-/

namespace LlmPort.Gateway

open Transition

/-- A stream: the chunks its producer passed on, and whether it called `finish`. -/
structure SessionStream where
  chunks : List Chunk
  finished : Bool

inductive SubscriberPhase where
  | ready
  | waiting (event : EventId)
  | stopped

structure Subscriber where
  offset : Nat
  iter : AsyncSSEIterator
  phase : SubscriberPhase
  yielded : List Chunk
  /-- The stream whose entry the chunks were read from. -/
  source : Option Nat

structure SessionSys where
  buf : StreamBuffer
  streams : List SessionStream
  subscribers : List Subscriber

inductive SessionEvent where
  | start
  /-- The producer of the `k`th stream passes a chunk on. -/
  | push (k : Nat) (chunk : Chunk)
  | finish (k : Nat) (now : Int)
  | cleanup (now : Int)
  | subscribe (offset : Nat)
  /-- The `i`th subscriber has a turn. -/
  | turn (i : Nat)

namespace SessionSys

def fresh : SessionSys := ⟨.empty, [], []⟩

/-- The number of the last stream started, plus 1. -/
def newest (sys : SessionSys) : Nat := sys.streams.length

/-- The stream, while its producer runs. -/
def running (sys : SessionSys) (k : Nat) : Option SessionStream :=
  sys.streams[k]?.filter fun stream => !stream.finished

/-- The subscriber, unless it has stopped or waits for an event that is not set. -/
def awake (sys : SessionSys) (i : Nat) : Option Subscriber :=
  sys.subscribers[i]?.filter fun sub => match sub.phase with
    | .ready => true
    | .waiting event => sys.buf.isSet event
    | .stopped => false

def step (sys : SessionSys) : SessionEvent → SessionSys
  | .start => { sys with buf := sys.buf.start, streams := sys.streams ++ [⟨[], false⟩] }
  | .push k chunk => match sys.running k with
    | some stream =>
      { sys with
        buf := sys.buf.push chunk
        streams := sys.streams.set k { stream with chunks := stream.chunks ++ [chunk] } }
    | none => sys
  | .finish k now => match sys.running k with
    | some stream =>
      { sys with
        buf := sys.buf.finish now, streams := sys.streams.set k { stream with finished := true } }
    | none => sys
  | .cleanup now => { sys with buf := sys.buf.cleanup now }
  | .subscribe offset =>
    { sys with subscribers := sys.subscribers ++ [⟨offset, ⟨offset⟩, .ready, [], none⟩] }
  | .turn i => match sys.awake i with
    | some sub =>
      let sub := match sub.iter.anext sys.buf with
        | .stopAsyncIteration => { sub with phase := .stopped }
        | .wait event => { sub with phase := .waiting event }
        | .chunk chunk =>
          { sub with
            iter := ⟨sub.iter.cursor + 1⟩, phase := .ready, yielded := sub.yielded ++ [chunk]
            source := some (sys.newest - 1) }
      { sys with subscribers := sys.subscribers.set i sub }
    | none => sys

/-- The entry is of the `k`th stream, or a push or finish leaves its chunks and its end alone. -/
def spares (sys : SessionSys) (k : Nat) : Bool :=
  k + 1 = sys.newest || sys.buf.entry.all (·.done)

/-- The chunk the `i`th subscriber would read now is of the stream it has read from. -/
def readsOn (sys : SessionSys) (i : Nat) : Bool :=
  (sys.awake i).all fun sub => match sub.iter.anext sys.buf with
    | .chunk _ => sub.source.all (· + 1 = sys.newest)
    | _ => true

def keepsStreams (sys : SessionSys) : SessionEvent → Bool
  | .push k _ | .finish k _ => sys.spares k
  | .turn i => sys.readsOn i
  | _ => true

end SessionSys

open SessionSys

variable {sys : SessionSys} {e : SessionEvent}

/-- Each subscriber has read a contiguous run of one stream from its offset on, and the entry has no
end its stream has not reached. -/
def ResumesFaithfully (sys : SessionSys) : Prop :=
  (∀ sub ∈ sys.subscribers,
    sub.yielded = [] ∨ ∃ stream ∈ sys.streams, sub.yielded <+: stream.chunks.drop sub.offset) ∧
  ∀ entry stream, sys.buf.entry = some entry → sys.streams.getLast? = some stream →
    entry.done → stream.finished

/-- What the entry has is what the last stream passed on. -/
def Mirrors (streams : List SessionStream) (entry : StreamEntry) : Prop :=
  ∃ stream, streams.getLast? = some stream ∧ entry.chunks = stream.chunks ∧
    (entry.done → stream.finished)

/-- The subscriber's chunks are a contiguous run of the stream it has read from. -/
structure ReadsFrom (streams : List SessionStream) (sub : Subscriber) : Prop where
  cursor : sub.iter.cursor = sub.offset + sub.yielded.length
  run : sub.yielded = [] ∨ ∃ k stream, sub.source = some k ∧ streams[k]? = some stream ∧
    sub.yielded <+: stream.chunks.drop sub.offset

/-- What `keepsStreams` preserves. -/
structure Resumable (sys : SessionSys) : Prop where
  entry : ∀ entry, sys.buf.entry = some entry → Mirrors sys.streams entry
  subscribers : ∀ sub ∈ sys.subscribers, ReadsFrom sys.streams sub

theorem snoc_prefix_drop {α : Type*} {read log : List α} {offset : Nat} {x : α}
    (h : read <+: log.drop offset) (hx : log[offset + read.length]? = some x) :
    read ++ [x] <+: log.drop offset := by
  obtain ⟨rest, hrest⟩ := h
  rw [← List.getElem?_drop, ← hrest, List.getElem?_append_right (Nat.le_refl _), Nat.sub_self] at hx
  cases rest with
  | nil => cases hx
  | cons y rest =>
    cases hx
    exact ⟨rest, by rw [List.append_assoc, List.singleton_append, hrest]⟩

/-- Each stream is there, with all it had and perhaps more. -/
def Grown (streams streams' : List SessionStream) : Prop :=
  ∀ (k : Nat) stream, streams[k]? = some stream →
    ∃ stream', streams'[k]? = some stream' ∧ stream.chunks <+: stream'.chunks

theorem Grown.snoc {streams : List SessionStream} {stream : SessionStream} :
    Grown streams (streams ++ [stream]) := by
  intro k stream' hk
  obtain ⟨hlt, -⟩ := List.getElem?_eq_some_iff.1 hk
  exact ⟨stream', by rw [List.getElem?_append_left hlt, hk], List.prefix_rfl⟩

theorem Grown.set {streams : List SessionStream} {k : Nat} {stream stream' : SessionStream}
    (hk : streams[k]? = some stream) (hc : stream.chunks <+: stream'.chunks) :
    Grown streams (streams.set k stream') := by
  intro j old hj
  obtain ⟨hlt, -⟩ := List.getElem?_eq_some_iff.1 hj
  by_cases hjk : k = j
  · subst hjk
    rw [hk] at hj
    cases hj
    exact ⟨stream', List.getElem?_set_self hlt, hc⟩
  · exact ⟨old, by rw [List.getElem?_set_ne hjk, hj], List.prefix_rfl⟩

theorem ReadsFrom.grown {streams streams' : List SessionStream} {sub : Subscriber}
    (h : ReadsFrom streams sub) (hs : Grown streams streams') : ReadsFrom streams' sub := by
  refine ⟨h.cursor, h.run.imp_right ?_⟩
  rintro ⟨k, stream, hsource, hk, hread⟩
  obtain ⟨stream', hk', hc⟩ := hs k stream hk
  exact ⟨k, stream', hsource, hk', hread.trans (List.IsPrefix.drop hc _)⟩

theorem running_eq_some {k : Nat} {stream : SessionStream} (h : sys.running k = some stream) :
    sys.streams[k]? = some stream ∧ stream.finished = false := by
  simpa [running, Option.filter_eq_some_iff] using h

theorem Resumable.faithful (h : Resumable sys) : ResumesFaithfully sys := by
  constructor
  · intro sub hsub
    refine (h.subscribers sub hsub).run.imp_right ?_
    rintro ⟨k, stream, -, hk, hread⟩
    exact ⟨stream, List.mem_of_getElem? hk, hread⟩
  · intro entry stream hentry hlast hdone
    obtain ⟨stream', hlast', -, hfinished⟩ := h.entry entry hentry
    rw [hlast] at hlast'
    cases hlast'
    exact hfinished hdone

/-- The last stream after one of the streams was replaced. -/
theorem getLast?_set {streams : List SessionStream} {k : Nat} {stream stream' : SessionStream}
    (hk : streams[k]? = some stream) :
    (streams.set k stream').getLast? =
      if k + 1 = streams.length then some stream' else streams.getLast? := by
  obtain ⟨hlt, -⟩ := List.getElem?_eq_some_iff.1 hk
  rw [List.getLast?_eq_getElem?, List.getLast?_eq_getElem?, List.length_set]
  split
  next hlast =>
    have hpred : streams.length - 1 = k := by omega
    rw [hpred, List.getElem?_set_self hlt]
  next hlast => rw [List.getElem?_set_ne (by omega)]

/-- A push or a finish by a running stream that spares the entry, given what it makes of an entry of
the stream itself and of one that is done. -/
theorem Resumable.produce {buf : StreamBuffer} {k : Nat} {stream stream' : SessionStream}
    (h : Resumable sys) (hk : sys.running k = some stream) (hc : stream.chunks <+: stream'.chunks)
    (hg : sys.spares k)
    (hbuf : ∀ entry', buf.entry = some entry' → ∃ entry, sys.buf.entry = some entry ∧
      (entry.done → entry'.chunks = entry.chunks) ∧
      (entry.done = false → entry.chunks = stream.chunks →
        entry'.chunks = stream'.chunks ∧ (entry'.done → stream'.finished))) :
    Resumable { sys with buf, streams := sys.streams.set k stream' } := by
  obtain ⟨hs, hrun⟩ := running_eq_some hk
  refine ⟨fun entry' hentry' => ?_, fun sub hsub => (h.subscribers sub hsub).grown (.set hs hc)⟩
  obtain ⟨entry, hentry, hended, hopen⟩ := hbuf entry' hentry'
  obtain ⟨last, hlast, hchunks, hdone⟩ := h.entry entry hentry
  by_cases hnewest : k + 1 = sys.streams.length
  · have hs' : last = stream := by
      rw [List.getLast?_eq_getElem?, ← hnewest, Nat.add_sub_cancel, hs] at hlast
      exact (Option.some.inj hlast).symm
    subst hs'
    have hnot : entry.done = false := by
      rw [Bool.eq_false_iff]
      intro hd
      rw [hdone hd] at hrun
      cases hrun
    obtain ⟨hchunks', hdone'⟩ := hopen hnot hchunks
    exact ⟨stream', by rw [getLast?_set hs, if_pos hnewest], hchunks', hdone'⟩
  · have hd : entry.done = true := by simpa [spares, newest, hnewest, hentry] using hg
    refine ⟨last, by rw [getLast?_set hs, if_neg hnewest, hlast], ?_, fun _ => hdone hd⟩
    rw [hended hd, hchunks]

theorem Resumable.push {k : Nat} {chunk : Chunk} (h : Resumable sys) (hg : sys.spares k) :
    Resumable (sys.step (.push k chunk)) := by
  simp only [step]
  split
  next stream hk =>
    refine h.produce hk (List.prefix_append _ _) hg fun entry' hentry' => ?_
    simp only [StreamBuffer.push] at hentry'
    split at hentry'
    next hnone => rw [hnone] at hentry'; cases hentry'
    next entry hentry =>
      refine ⟨entry, hentry, ?_⟩
      split at hentry'
      next hd =>
        rw [hentry] at hentry'
        cases hentry'
        exact ⟨fun _ => rfl, fun hd' => by rw [hd'] at hd; cases hd⟩
      next hd =>
        cases hentry'
        exact ⟨fun hd' => absurd hd' hd, fun _ hc => ⟨by rw [hc], fun hd' => absurd hd' hd⟩⟩
  next => exact h

theorem Resumable.finish {k : Nat} {now : Int} (h : Resumable sys) (hg : sys.spares k) :
    Resumable (sys.step (.finish k now)) := by
  simp only [step]
  split
  next stream hk =>
    refine h.produce hk List.prefix_rfl hg fun entry' hentry' => ?_
    simp only [StreamBuffer.finish] at hentry'
    split at hentry'
    next hnone => rw [hnone] at hentry'; cases hentry'
    next entry hentry =>
      cases hentry'
      exact ⟨entry, hentry, fun _ => rfl, fun _ hc => ⟨hc, fun _ => rfl⟩⟩
  next => exact h

theorem anext_eq_chunk {it : AsyncSSEIterator} {buf : StreamBuffer} {chunk : Chunk}
    (h : it.anext buf = .chunk chunk) :
    ∃ entry, buf.entry = some entry ∧ entry.chunks[it.cursor]? = some chunk := by
  unfold AsyncSSEIterator.anext at h
  split at h
  next => cases h
  next entry hentry =>
    refine ⟨entry, hentry, ?_⟩
    split at h
    next chunk' hc =>
      cases h
      exact hc
    next =>
      split at h <;> cases h

/-- A subscriber that reads a chunk of the stream it has read from has a run of that stream. -/
theorem Resumable.read (h : Resumable sys) {sub : Subscriber} {chunk : Chunk}
    {phase : SubscriberPhase} (hsub : sub ∈ sys.subscribers)
    (hnext : sub.iter.anext sys.buf = .chunk chunk) (hg : sub.source.all (· + 1 = sys.newest)) :
    ReadsFrom sys.streams { sub with
      iter := ⟨sub.iter.cursor + 1⟩, phase, yielded := sub.yielded ++ [chunk]
      source := some (sys.newest - 1) } := by
  obtain ⟨hcursor, hrun⟩ := h.subscribers sub hsub
  obtain ⟨entry, hentry, hchunk⟩ := anext_eq_chunk hnext
  obtain ⟨last, hlast, hchunks, -⟩ := h.entry entry hentry
  rw [List.getLast?_eq_getElem?] at hlast
  rw [hchunks, hcursor] at hchunk
  have hread : sub.yielded <+: last.chunks.drop sub.offset := by
    rcases hrun with hnil | ⟨k, stream, hsource, hk, hread⟩
    · rw [hnil]
      exact List.nil_prefix
    · rw [hsource] at hg
      have hnewest : k + 1 = sys.streams.length := of_decide_eq_true hg
      rw [← hnewest, Nat.add_sub_cancel, hk] at hlast
      cases hlast
      exact hread
  refine ⟨?_, .inr ⟨_, last, rfl, hlast, snoc_prefix_drop hread hchunk⟩⟩
  simp only [hcursor, List.length_append, List.length_singleton, Nat.add_assoc]

theorem Resumable.turn {i : Nat} (h : Resumable sys) (hg : sys.readsOn i) :
    Resumable (sys.step (.turn i)) := by
  simp only [step]
  split
  next sub hawake =>
    have hi : sys.subscribers[i]? = some sub := (Option.filter_eq_some_iff.1 hawake).1
    have hsub := List.mem_of_getElem? hi
    simp only [readsOn, hawake, Option.all_some] at hg
    refine ⟨h.entry, fun sub' hsub' => ?_⟩
    rcases List.mem_or_eq_of_mem_set hsub' with hsub' | rfl
    · exact h.subscribers sub' hsub'
    · obtain ⟨hcursor, hrun⟩ := h.subscribers sub hsub
      split
      next => exact ⟨hcursor, hrun⟩
      next => exact ⟨hcursor, hrun⟩
      next chunk hnext =>
        rw [hnext] at hg
        exact h.read hsub hnext hg
  next => exact h

theorem Resumable.step (h : Resumable sys) (hg : sys.keepsStreams e) : Resumable (sys.step e) := by
  cases e with
  | start =>
    refine ⟨fun entry hentry => ?_, fun sub hsub => (h.subscribers sub hsub).grown .snoc⟩
    cases hentry
    exact ⟨⟨[], false⟩, by simp [SessionSys.step], rfl, fun hd => hd⟩
  | push => exact h.push hg
  | finish => exact h.finish hg
  | cleanup now =>
    exact ⟨fun entry hentry => h.entry entry (Option.filter_eq_some_iff.1 hentry).1, h.subscribers⟩
  | subscribe offset =>
    refine ⟨h.entry, fun sub hsub => ?_⟩
    rcases List.mem_append.1 hsub with hsub | hsub
    · exact h.subscribers sub hsub
    · rw [List.mem_singleton.1 hsub]
      exact ⟨rfl, .inl rfl⟩
  | turn => exact h.turn hg

/-- Streams that overlap leave each other's entry alone, and no subscriber reads on in another
stream: then every subscriber reads a contiguous run of one stream, in every state of the run. -/
theorem resumesFaithfully_of_keepsStreams {es : List SessionEvent}
    (hg : Guarded step (fun sys e => keepsStreams sys e) .fresh es) :
    Always step ResumesFaithfully .fresh es := by
  refine hg.always (I := Resumable) (fun sys e h hok => h.step hok) (fun sys h => h.faithful) ?_
  exact ⟨fun entry hentry => (by cases hentry), fun sub hsub => (by cases hsub)⟩

/-- One stream after the other; a subscriber of the first waits for its second chunk, and one that
comes late starts at its second chunk. -/
theorem resumesFaithfully_oneAfterTheOther : Always step ResumesFaithfully .fresh
    [.start, .push 0 [1], .subscribe 0, .turn 0, .turn 0, .push 0 [2], .turn 0, .finish 0 5,
      .subscribe 1, .turn 1, .turn 1, .start, .push 1 [3], .finish 1 6, .turn 0] :=
  resumesFaithfully_of_keepsStreams (by decide)

/-- The first stream goes on after the second one started: its chunk is read as one of the
second. -/
theorem not_resumesFaithfully_overlapping : ¬ ResumesFaithfully (run step .fresh
    [.start, .start, .push 0 [1], .push 1 [2], .subscribe 0, .turn 0, .turn 0]) := by
  rintro ⟨hread, -⟩
  rcases hread _ List.mem_cons_self with hnil | ⟨stream, hstream, hprefix⟩
  · exact absurd hnil (by decide)
  · revert stream
    decide

end LlmPort.Gateway
