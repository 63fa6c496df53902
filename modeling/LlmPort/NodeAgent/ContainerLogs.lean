import Mathlib.Logic.Function.Basic
import LlmPort.Text.Lines
import LlmPort.Transition.Run
import LlmPort.ModelSync.Manifest

/-!
# The forwarder of container logs

`container_log_forwarder.py`: each cycle reads the log of every tracked workload, from its cursor on
or, when there is none, the last 100 lines, pushes what it reads to Loki and moves the cursor to the
first word of the last line. It moves the cursor whatever the push returns and whatever that word
is; `always_sound_iff` says when no line is skipped all the same.
-/

namespace LlmPort.NodeAgent

open Transition

/-- A message in the log of a container, as `docker logs --timestamps` prints it. -/
structure LogRecord where
  /-- In nanoseconds. -/
  time : Int
  stderr : Bool
  printed : List Char
  deriving DecidableEq

/-- What the forwarder takes from outside, and the container names of the workloads. -/
structure LogConfig where
  /-- The texts that are timestamps. -/
  timestamp : List Char → Option Int
  /-- How `docker logs` reads the value of `--since` at an instant; it rejects other texts. -/
  sinceTime : Int → List Char → Option Int
  since_timestamp : ∀ now text t, timestamp text = some t → sinceTime now text = some t
  /-- `int(datetime.fromisoformat(text.replace("Z", "+00:00")).timestamp() * 1_000_000_000)` -/
  isoNanos : List Char → Option Int
  /-- `info.get("container_name")`, empty when that is no text. -/
  containerName : String → String

inductive PushOutcome where
  | accepted
  /-- Loki answers with another status, or the request fails. -/
  | refused
  /-- Another exception. -/
  | raised
  deriving DecidableEq

/-- What one attempt to forward a log meets. -/
structure Attempt where
  now : Int
  /-- `docker logs` runs, and exits with 0 if it accepts its arguments. -/
  readable : Bool
  push : PushOutcome

/-- What the forwarder and Loki have of a workload's log: the cursor, the entries pushed, and to
tell what is missing, where the bootstrap window began and which records an accepted push had. -/
structure Tail where
  cursor : Option (List Char)
  loki : List (Int × List Char)
  base : Nat
  accepted : Nat → Bool

namespace Tail

def untracked (e : Tail) : Tail := { e with cursor := none }

variable (cfg : LogConfig)

/-- The records that `docker logs` prints, with their places; `none` when it fails. -/
def read (att : Attempt) (log : List LogRecord) (e : Tail) : Option (List (LogRecord × Nat)) :=
  if att.readable then
    match e.cursor with
    | none => some (log.zipIdx.filter fun x => log.length - 100 ≤ x.2)
    | some since => (cfg.sinceTime att.now since).map fun t => log.zipIdx.filter (t ≤ ·.1.time)
  else none

/-- `out + err` -/
def rawText (records : List LogRecord) : List Char :=
  (records.filter (!·.stderr)).flatMap (·.printed) ++ (records.filter (·.stderr)).flatMap (·.printed)

/-- `line.partition(" ")[0]` -/
def firstWord (line : List Char) : List Char := line.takeWhile (· ≠ ' ')

/-- The entry of a line. -/
def entry (now : Int) (line : List Char) : Int × List Char :=
  match cfg.isoNanos (firstWord line) with
  | some ns => (ns, (line.dropWhile (· ≠ ' ')).drop 1)
  | none => (now, line)

/-- `latest_ts`, when it is not empty. -/
def latest (lines : List (List Char)) : Option (List Char) :=
  (lines.getLast?.map firstWord).filter (· ≠ [])

/-- Where the part of the log begins that is to be forwarded. -/
def window (log : List LogRecord) (e : Tail) : Nat :=
  if e.cursor = none then log.length - 100 else e.base

/-- `_tail_container` -/
def tailContainer (att : Attempt) (log : List LogRecord) (e : Tail) : Tail :=
  match e.read cfg att log with
  | none => e
  | some records =>
    let raw := rawText (records.map (·.1))
    if ModelSync.strip raw = [] then e
    else
      let lines := Text.splitLines raw
      let cursor := latest lines <|> e.cursor
      let base := e.window log
      match att.push with
      | .accepted =>
        { cursor, base
          loki := e.loki ++ lines.map (entry cfg att.now)
          accepted := fun i => e.accepted i || records.any (·.2 = i) }
      | .refused => { e with cursor, base }
      | .raised => e

end Tail

structure LogForwarder where
  tails : String → Tail
  /-- The logs of the containers. -/
  logs : String → List LogRecord

inductive LogStep where
  | emit (container : String) (record : LogRecord)
  /-- `_collect_all` over the tracked workloads. -/
  | cycle (workloads : List String) (h : workloads.Nodup) (attempt : String → Attempt)

namespace LogForwarder

/-- Before the first cycle. -/
def start (logs : String → List LogRecord) : LogForwarder :=
  ⟨fun _ => ⟨none, [], 0, fun _ => false⟩, logs⟩

variable (cfg : LogConfig)

def collectOne (attempt : String → Attempt) (st : LogForwarder) (runtimeId : String) :
    LogForwarder :=
  if cfg.containerName runtimeId = "" then st
  else
    let log := st.logs (cfg.containerName runtimeId)
    let tail := (st.tails runtimeId).tailContainer cfg (attempt runtimeId) log
    { st with tails := Function.update st.tails runtimeId tail }

def collectAll (workloads : List String) (attempt : String → Attempt) (st : LogForwarder) :
    LogForwarder :=
  if workloads = [] then st
  else
    let kept := fun r => if r ∈ workloads then st.tails r else (st.tails r).untracked
    workloads.foldl (collectOne cfg attempt) { st with tails := kept }

def step (st : LogForwarder) : LogStep → LogForwarder
  | .emit container record =>
    { st with logs := Function.update st.logs container (st.logs container ++ [record]) }
  | .cycle workloads _ attempt => collectAll cfg workloads attempt st

end LogForwarder

/-! ## Cursors -/

namespace Tail

/-- The cursor is absent, or a timestamp that is not later than a record of the window that no
accepted push has had. -/
def Sound (cfg : LogConfig) (log : List LogRecord) (e : Tail) : Prop :=
  ∀ text, e.cursor = some text → ∃ t, cfg.timestamp text = some t ∧
    ∀ i record, e.base ≤ i → log[i]? = some record → e.accepted i = false → t ≤ record.time

/-- The last line of what an attempt reads and pushes without an exception begins with a timestamp,
if with a word at all, and the push is accepted or leaves nothing earlier behind. -/
def Clear (cfg : LogConfig) (att : Attempt) (log : List LogRecord) (e : Tail) : Prop :=
  ∀ records, e.read cfg att log = some records →
    ModelSync.strip (rawText (records.map (·.1))) ≠ [] → att.push ≠ .raised →
    ∀ word, latest (Text.splitLines (rawText (records.map (·.1)))) = some word →
      ∃ t, cfg.timestamp word = some t ∧ (att.push = .accepted ∨
        ∀ i record, e.window log ≤ i → log[i]? = some record → e.accepted i = false →
          t ≤ record.time)

/-- The marks that tell what is missing stay within the log. -/
structure Inv (log : List LogRecord) (e : Tail) : Prop where
  base : e.base ≤ log.length
  accepted : ∀ i, e.accepted i → i < log.length

variable {cfg : LogConfig} {att : Attempt} {log : List LogRecord} {e : Tail} {record : LogRecord}

theorem window_le (h : e.Inv log) : e.window log ≤ log.length := by
  unfold window
  split
  · omega
  · exact h.base

theorem mem_read {records : List (LogRecord × Nat)} (h : e.read cfg att log = some records)
    {i : Nat} (hi : (record, i) ∈ records) : log[i]? = some record := by
  have hzip {p : LogRecord × Nat → Bool} (hm : (record, i) ∈ log.zipIdx.filter p) :
      log[i]? = some record := List.mem_zipIdx_iff_getElem?.1 (List.mem_of_mem_filter hm)
  unfold read at h
  split at h
  · split at h
    · cases h
      exact hzip hi
    · obtain ⟨t, -, rfl⟩ := Option.map_eq_some_iff.1 h
      exact hzip hi
  · cases h

/-- From a sound cursor on, everything in the window is read that is still missing. -/
theorem read_complete (h : e.Sound cfg log) {records : List (LogRecord × Nat)}
    (hr : e.read cfg att log = some records) {i : Nat} (hb : e.window log ≤ i)
    (hi : log[i]? = some record) (ha : e.accepted i = false) : (record, i) ∈ records := by
  have hmem : (record, i) ∈ log.zipIdx := List.mem_zipIdx_iff_getElem?.2 hi
  unfold read at hr
  split at hr
  next =>
    split at hr
    next hc =>
      cases hr
      simp only [window, hc, if_true] at hb
      exact List.mem_filter.2 ⟨hmem, decide_eq_true hb⟩
    next since hc =>
      obtain ⟨t, ht, rfl⟩ := Option.map_eq_some_iff.1 hr
      obtain ⟨t', ht', hall⟩ := h since hc
      rw [cfg.since_timestamp _ _ _ ht'] at ht
      cases ht
      have hne : e.cursor ≠ none := by simp [hc]
      simp only [window, if_neg hne] at hb
      exact List.mem_filter.2 ⟨hmem, decide_eq_true (hall i record hb hi ha)⟩
  next => cases hr

theorem inv_tailContainer (h : e.Inv log) : (e.tailContainer cfg att log).Inv log := by
  unfold tailContainer
  split
  next => exact h
  next records hr =>
    simp only
    split
    next => exact h
    next =>
      split
      next =>
        refine ⟨window_le h, fun i hi => ?_⟩
        rcases Bool.or_eq_true_iff.1 hi with hi | hi
        · exact h.accepted i hi
        · obtain ⟨⟨record, j⟩, hm, hj⟩ := List.any_eq_true.1 hi
          have hji : j = i := of_decide_eq_true hj
          subst hji
          exact (List.getElem?_eq_some_iff.1 (mem_read hr hm)).1
      next => exact ⟨window_le h, h.accepted⟩
      next => exact h

/-- A cursor that an attempt leaves where it is stays sound. -/
theorem Sound.of_kept {e' : Tail} (h : e.Sound cfg log) (hc : e'.cursor = e.cursor)
    (hb : e'.base = e.window log) (ha : ∀ i, e'.accepted i = false → e.accepted i = false) :
    e'.Sound cfg log := by
  intro text htext
  rw [hc] at htext
  obtain ⟨t, ht, hall⟩ := h text htext
  have hne : e.cursor ≠ none := by simp [htext]
  refine ⟨t, ht, fun i record hi hrec hacc => hall i record ?_ hrec (ha i hacc)⟩
  rw [hb, window, if_neg hne] at hi
  exact hi

theorem sound_iff_of_cursor {word : List Char} (hc : e.cursor = some word) :
    e.Sound cfg log ↔ ∃ t, cfg.timestamp word = some t ∧ ∀ i record, e.base ≤ i →
      log[i]? = some record → e.accepted i = false → t ≤ record.time := by
  unfold Sound
  simp [hc]

/-- An attempt keeps the cursor sound exactly if it is clear. -/
theorem sound_tailContainer_iff (h : e.Sound cfg log) :
    (e.tailContainer cfg att log).Sound cfg log ↔ e.Clear cfg att log := by
  unfold tailContainer Clear
  cases hr : e.read cfg att log with
  | none => simp [h]
  | some records =>
    simp only [Option.some.injEq, forall_eq']
    split
    next hblank => simp [h, hblank]
    next hblank =>
      cases hp : att.push with
      | raised => simp [h]
      | accepted =>
        cases hl : latest (Text.splitLines (rawText (records.map (·.1)))) with
        | none =>
          refine iff_of_true (h.of_kept rfl rfl fun i hi => ?_) (by simp)
          exact (Bool.or_eq_false_iff.1 hi).1
        | some word =>
          rw [sound_iff_of_cursor rfl]
          have hall (t : Int) (i : Nat) (record : LogRecord) (hb : e.window log ≤ i)
              (hi : log[i]? = some record)
              (hacc : (e.accepted i || records.any (·.2 = i)) = false) : t ≤ record.time := by
            obtain ⟨ha, hany⟩ := Bool.or_eq_false_iff.1 hacc
            have hm := read_complete h hr hb hi ha
            exact absurd (decide_eq_true rfl) (List.any_eq_false.1 hany _ hm)
          simp only [Option.some.injEq, forall_eq']
          constructor
          · rintro ⟨t, ht, -⟩
            exact fun _ _ => ⟨t, ht, .inl trivial⟩
          · intro hclear
            obtain ⟨t, ht, -⟩ := hclear hblank (by simp)
            exact ⟨t, ht, hall t⟩
      | refused =>
        cases hl : latest (Text.splitLines (rawText (records.map (·.1)))) with
        | none => exact iff_of_true (h.of_kept rfl rfl fun i hi => hi) (by simp)
        | some word =>
          rw [sound_iff_of_cursor rfl]
          simp [hblank]

/-- A record that is new is not earlier than the cursor. -/
def Follows (cfg : LogConfig) (record : LogRecord) (e : Tail) : Prop :=
  ∀ text t, e.cursor = some text → cfg.timestamp text = some t → t ≤ record.time

theorem inv_emit (h : e.Inv log) : e.Inv (log ++ [record]) where
  base := by
    rw [List.length_append]
    exact h.base.trans (Nat.le_add_right ..)
  accepted i hi := by
    rw [List.length_append]
    exact (h.accepted i hi).trans_le (Nat.le_add_right ..)

theorem sound_emit_iff (hi : e.Inv log) (h : e.Sound cfg log) :
    e.Sound cfg (log ++ [record]) ↔ e.Follows cfg record := by
  constructor
  · intro hs text t hc ht
    obtain ⟨t', ht', hall⟩ := hs text hc
    rw [ht] at ht'
    cases ht'
    refine hall log.length record hi.base (by simp) ?_
    cases hacc : e.accepted log.length with
    | false => rfl
    | true => exact absurd (hi.accepted _ hacc) (lt_irrefl _)
  · intro hf text hc
    obtain ⟨t, ht, hall⟩ := h text hc
    refine ⟨t, ht, fun i x hb hx hacc => ?_⟩
    rw [List.getElem?_append] at hx
    split at hx
    next => exact hall i x hb hx hacc
    next =>
      have hmem := List.mem_singleton.1 (List.mem_of_getElem? hx)
      rw [hmem]
      exact hf text t hc ht

end Tail

namespace LogForwarder

/-- No cursor skips anything. -/
def Sound (cfg : LogConfig) (st : LogForwarder) : Prop :=
  ∀ r, (st.tails r).Sound cfg (st.logs (cfg.containerName r))

def Inv (cfg : LogConfig) (st : LogForwarder) : Prop :=
  ∀ r, (st.tails r).Inv (st.logs (cfg.containerName r))

def Clear (cfg : LogConfig) (st : LogForwarder) : LogStep → Prop
  | .emit container record =>
    ∀ r, cfg.containerName r = container → (st.tails r).Follows cfg record
  | .cycle workloads _ attempt => ∀ r ∈ workloads, cfg.containerName r ≠ "" →
    (st.tails r).Clear cfg (attempt r) (st.logs (cfg.containerName r))

variable {cfg : LogConfig} {st : LogForwarder} {e : LogStep} {workloads : List String}
  {attempt : String → Attempt}

/-- The attempts of a cycle are independent of each other. -/
theorem foldl_collectOne (h : workloads.Nodup) :
    (workloads.foldl (collectOne cfg attempt) st).logs = st.logs ∧
      ∀ r, (workloads.foldl (collectOne cfg attempt) st).tails r =
        if r ∈ workloads ∧ cfg.containerName r ≠ "" then
          (st.tails r).tailContainer cfg (attempt r) (st.logs (cfg.containerName r))
        else st.tails r := by
  induction workloads generalizing st with
  | nil => exact ⟨rfl, fun r => by simp⟩
  | cons w ws ih =>
    obtain ⟨hw, hws⟩ := List.nodup_cons.1 h
    obtain ⟨hlogs, htails⟩ := @ih (collectOne cfg attempt st w) hws
    have hlogs₁ : (collectOne cfg attempt st w).logs = st.logs := by
      unfold collectOne
      split <;> rfl
    refine ⟨hlogs.trans hlogs₁, fun r => ?_⟩
    rw [List.foldl_cons, htails r, hlogs₁]
    have hone : (collectOne cfg attempt st w).tails r =
        if r = w ∧ cfg.containerName r ≠ "" then
          (st.tails r).tailContainer cfg (attempt r) (st.logs (cfg.containerName r))
        else st.tails r := by
      unfold collectOne
      by_cases hrw : r = w
      · subst hrw
        by_cases hname : cfg.containerName r = "" <;> simp [hname]
      · split <;> simp [hrw]
    rw [hone]
    by_cases hrw : r = w
    · subst hrw
      simp [hw]
    · simp [hrw]

theorem collectAll_tails (h : workloads.Nodup) :
    (collectAll cfg workloads attempt st).logs = st.logs ∧
      ∀ r, (collectAll cfg workloads attempt st).tails r =
        if r ∈ workloads ∧ cfg.containerName r ≠ "" then
          (st.tails r).tailContainer cfg (attempt r) (st.logs (cfg.containerName r))
        else if r ∈ workloads ∨ workloads = [] then st.tails r else (st.tails r).untracked := by
  unfold collectAll
  split
  next hnil => exact ⟨rfl, fun r => by simp [hnil]⟩
  next hne =>
    obtain ⟨hlogs, htails⟩ := @foldl_collectOne cfg { st with
      tails := fun r => if r ∈ workloads then st.tails r else (st.tails r).untracked }
      workloads attempt h
    refine ⟨hlogs, fun r => ?_⟩
    rw [htails r]
    by_cases hr : r ∈ workloads <;> simp [hr, hne]

theorem inv_step (h : Inv cfg st) : Inv cfg (step cfg st e) := by
  intro r
  cases e with
  | emit container record =>
    simp only [step]
    by_cases hc : cfg.containerName r = container
    · rw [hc, Function.update_self, ← hc]
      exact Tail.inv_emit (h r)
    · rw [Function.update_of_ne hc]
      exact h r
  | cycle workloads hw attempt =>
    obtain ⟨hlogs, htails⟩ := @collectAll_tails cfg st workloads attempt hw
    simp only [step]
    rw [hlogs, htails r]
    split
    next => exact Tail.inv_tailContainer (h r)
    next =>
      split
      next => exact h r
      next => exact ⟨(h r).base, (h r).accepted⟩

theorem sound_step_iff (hi : Inv cfg st) (h : Sound cfg st) :
    Sound cfg (step cfg st e) ↔ Clear cfg st e := by
  cases e with
  | emit container record =>
    refine forall_congr' fun r => ?_
    simp only [step]
    by_cases hc : cfg.containerName r = container
    · rw [hc, Function.update_self, ← hc, Tail.sound_emit_iff (hi r) (h r)]
      simp
    · rw [Function.update_of_ne hc]
      simp [hc, h r]
  | cycle workloads hw attempt =>
    obtain ⟨hlogs, htails⟩ := @collectAll_tails cfg st workloads attempt hw
    refine forall_congr' fun r => ?_
    simp only [step]
    rw [hlogs, htails r]
    by_cases hr : r ∈ workloads ∧ cfg.containerName r ≠ ""
    · rw [if_pos hr, Tail.sound_tailContainer_iff (h r)]
      simp [hr.1, hr.2]
    · rw [if_neg hr]
      refine iff_of_true ?_ fun hmem hname => absurd ⟨hmem, hname⟩ hr
      split
      next => exact h r
      next => exact fun _ hc => by cases hc

/-- The cursors are sound in every state of a run exactly if every step of it is clear. -/
theorem always_sound_iff {logs : String → List LogRecord} {es : List LogStep} :
    Always (step cfg) (Sound cfg) (start logs) es ↔
      Guarded (step cfg) (Clear cfg) (start logs) es := by
  refine always_iff_guarded_of_invariant (I := fun st => Inv cfg st ∧ Sound cfg st)
    (fun _ h => h.2) ?_ ?_ ⟨?_, ?_⟩
  · rintro st e ⟨hi, hs⟩ hclear
    exact ⟨inv_step hi, (sound_step_iff hi hs).2 hclear⟩
  · rintro st e ⟨hi, hs⟩ hs'
    exact (sound_step_iff hi hs).1 hs'
  · exact fun r => ⟨Nat.zero_le _, fun i hi => by cases hi⟩
  · exact fun r text hc => by cases hc

/-- Two timestamps, as docker and Python read them. -/
def sampleTime (text : List Char) : Option Int :=
  if text = "2026-01-01T00:00:01Z".toList then some 1767225601000000000
  else if text = "2026-01-01T00:00:02Z".toList then some 1767225602000000000
  else none

def oneContainer : LogConfig where
  timestamp := sampleTime
  sinceTime _ := sampleTime
  since_timestamp _ _ _ h := h
  isoNanos := sampleTime
  containerName _ := "llm"

/-- The log of `oneContainer`. -/
def twoLines : List LogRecord :=
  [⟨1767225601000000000, false, "2026-01-01T00:00:01Z loading\n".toList⟩,
    ⟨1767225602000000000, false, "2026-01-01T00:00:02Z ready\n".toList⟩]

/-- A push that Loki refuses moves the cursor past a line it had not. -/
theorem not_always_sound_refused : ¬ Always (step oneContainer) (Sound oneContainer)
    (start fun _ => twoLines)
    [.cycle ["r"] (by simp) fun _ => ⟨1767225603000000000, true, .refused⟩] := by
  intro h
  obtain ⟨t, ht, hall⟩ := h _ (List.prefix_refl _) "r" "2026-01-01T00:00:02Z".toList (by decide)
  have hstamp : oneContainer.timestamp "2026-01-01T00:00:02Z".toList =
      some 1767225602000000000 := by decide
  have hlate : t = 1767225602000000000 := Option.some.inj (ht.symm.trans hstamp)
  have hle := hall 0 ⟨1767225601000000000, false, "2026-01-01T00:00:01Z loading\n".toList⟩
    (Nat.zero_le _) rfl rfl
  rw [hlate] at hle
  exact absurd hle (by decide)

/-! ## What an accepted push makes good -/

/-- An accepted push of what a sound cursor reads leaves nothing of the window behind. -/
theorem accepted_tailContainer {e : Tail} {att : Attempt} {log : List LogRecord}
    {records : List (LogRecord × Nat)} {i : Nat} {record : LogRecord} (h : e.Sound cfg log)
    (hread : e.read cfg att log = some records)
    (htext : ModelSync.strip (Tail.rawText (records.map (·.1))) ≠ [])
    (hpush : att.push = .accepted) (hbase : (e.tailContainer cfg att log).base ≤ i)
    (hi : log[i]? = some record) : (e.tailContainer cfg att log).accepted i = true := by
  have hbase' : (e.tailContainer cfg att log).base = e.window log := by
    simp [Tail.tailContainer, hread, htext, hpush]
  have haccepted : (e.tailContainer cfg att log).accepted i =
      (e.accepted i || records.any (·.2 = i)) := by
    simp [Tail.tailContainer, hread, htext, hpush]
  rw [hbase'] at hbase
  rw [haccepted]
  cases ha : e.accepted i with
  | true => rfl
  | false =>
    have hmem := Tail.read_complete h hread hbase hi ha
    exact List.any_eq_true.2 ⟨_, hmem, decide_eq_true rfl⟩

/-- However many attempts fail before: after a run of clear steps that ends with a push Loki
accepts, Loki has had every line since the workload's first. -/
theorem complete_of_accepted {logs : String → List LogRecord} {es : List LogStep}
    {workloads : List String} {hw : workloads.Nodup} {attempt : String → Attempt} {r : String}
    {records : List (LogRecord × Nat)}
    (H : Guarded (step cfg) (Clear cfg) (start logs) es)
    (hr : r ∈ workloads) (hname : cfg.containerName r ≠ "")
    (hread : ((run (step cfg) (start logs) es).tails r).read cfg (attempt r)
      ((run (step cfg) (start logs) es).logs (cfg.containerName r)) = some records)
    (htext : ModelSync.strip (Tail.rawText (records.map (·.1))) ≠ [])
    (hpush : (attempt r).push = .accepted) :
    let st := run (step cfg) (start logs) (es ++ [.cycle workloads hw attempt])
    ∀ i record, (st.tails r).base ≤ i → (st.logs (cfg.containerName r))[i]? = some record →
      (st.tails r).accepted i = true := by
  have hinit : Inv cfg (start logs) ∧ Sound cfg (start logs) :=
    ⟨fun _ => ⟨Nat.zero_le _, fun _ hi => by cases hi⟩, fun _ _ hc => by cases hc⟩
  obtain ⟨-, hsound⟩ := H.invariant (I := fun st => Inv cfg st ∧ Sound cfg st)
    (fun _ _ hI hclear => ⟨inv_step hI.1, (sound_step_iff hI.1 hI.2).2 hclear⟩) hinit
  obtain ⟨hlogs, htails⟩ := @collectAll_tails cfg (run (step cfg) (start logs) es) workloads
    attempt hw
  intro st i record hbase hi
  have hst : st = collectAll cfg workloads attempt (run (step cfg) (start logs) es) := run_snoc
  rw [hst, htails r, if_pos ⟨hr, hname⟩] at hbase ⊢
  rw [hst, hlogs] at hi
  exact accepted_tailContainer (hsound r) hread htext hpush hbase hi

/-- After an attempt whose push raised, the next one reads both lines again. -/
theorem complete_secondAttempt :
    let st := run (step oneContainer) (start fun _ => twoLines)
      ([.cycle ["r"] (by simp) fun _ => ⟨1767225603000000000, true, .raised⟩] ++
        [.cycle ["r"] (by simp) fun _ => ⟨1767225608000000000, true, .accepted⟩])
    ∀ i record, (st.tails "r").base ≤ i → (st.logs "llm")[i]? = some record →
      (st.tails "r").accepted i = true := by
  have hclear : Guarded (step oneContainer) (Clear oneContainer) (start fun _ => twoLines)
      [.cycle ["r"] (by simp) fun _ => ⟨1767225603000000000, true, .raised⟩] :=
    ⟨fun _ _ _ _ _ _ hpush => absurd rfl hpush, trivial⟩
  have hread : (⟨none, [], 0, fun _ => false⟩ : Tail).read oneContainer
      ⟨1767225608000000000, true, .accepted⟩ twoLines = some twoLines.zipIdx := rfl
  have htext : ModelSync.strip (Tail.rawText (twoLines.zipIdx.map (·.1))) ≠ [] := by decide
  exact complete_of_accepted hclear (by simp) (by decide) hread htext rfl

end LogForwarder

end LlmPort.NodeAgent
