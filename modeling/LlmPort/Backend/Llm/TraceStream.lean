import Mathlib.Data.List.Pairwise
import LlmPort.Backend.NodeControl.Model
import LlmPort.Ranking.TopK
import LlmPort.Transition.Run

/-!
# The traces of the gateway

`graph_service.py`: a reader of `llm_gateway_request_log` asks again and again for the rows after
the last that it has had. The query takes the newest rows from the time of the reader's cursor on,
up to a limit, so that a reader who is too slow loses rows. And ids of events are not in the order
of the rows: of a row's id they have six hexadecimal digits, in the place of six decimal ones.
-/

namespace LlmPort.Backend.Llm

open NodeControl Transition

variable {π : Type*}

structure RequestLog (π : Type*) where
  id : Uuid
  /-- The `now()` of the gateway's transaction, which is when that began. -/
  createdAt : Time
  /-- The columns that a trace repeats. -/
  trace : π
  deriving DecidableEq

namespace RequestLog

/-- `ORDER BY created_at DESC, id DESC` -/
def later (x y : RequestLog π) : Bool :=
  y.createdAt < x.createdAt ∨ y.createdAt = x.createdAt ∧ y.id ≤ x.id

def Before (x y : RequestLog π) : Prop :=
  x.createdAt < y.createdAt ∨ x.createdAt = y.createdAt ∧ x.id < y.id

end RequestLog

/-- The conversions between a time and a float of seconds. -/
structure TraceClock where
  /-- `int(timestamp.timestamp() * 1_000_000)` -/
  micros : Time → Int
  /-- `datetime.fromtimestamp(micros / 1_000_000, tz=UTC)`, `none` when that raises. -/
  fromMicros : Int → Option Time

namespace TraceClock

variable (clock : TraceClock)

/-- `_event_id` -/
def eventId (row : RequestLog π) : Int :=
  clock.micros row.createdAt * 1000000 + (row.id.toNat % 16 ^ 6 : Nat)

/-- `_timestamp_from_event_id` -/
def timestampFromEventId (eventId : Int) : Option Time := clock.fromMicros (eventId / 1000000)

/-- The `WHERE` clause, which is there if the cursor has a time. -/
def since (afterEventId : Option Int) (row : RequestLog π) : Bool :=
  (afterEventId.bind clock.timestampFromEventId).all (· ≤ row.createdAt)

/-- `_fetch_traces`, where the database answers. -/
def fetchTraces (limit : Nat) (afterEventId : Option Int) (rows : List (RequestLog π)) :
    List (RequestLog π) :=
  let newest := ((rows.filter (clock.since afterEventId)).mergeSort RequestLog.later).take limit
  newest.reverse.filter fun row => afterEventId.all (· < clock.eventId row)

/-- A clock without rounding. -/
def exact : TraceClock := ⟨id, some⟩

-- the later row has the smaller id
example : exact.eventId (π := Unit) ⟨0, 1, ()⟩ < exact.eventId (π := Unit) ⟨0xffffff, 0, ()⟩ := by
  decide

end TraceClock

/-- The table, and what one reader has had of it: where it stands, and the traces, the first
first. -/
structure TraceReader (π : Type*) where
  rows : List (RequestLog π)
  lastEventId : Option Int
  received : List (RequestLog π)

inductive TraceStep (π : Type*) where
  /-- The gateway commits a row. -/
  | log (row : RequestLog π)
  /-- The reader asks for what comes after its last trace, by `list_recent_traces` or a turn of
  `stream_traces`. The database may fail, and the connection break after some of the traces. -/
  | poll (limit : Nat) (fails : Bool) (frames : Nat)

namespace TraceReader

/-- A reader that begins with a cursor of its own, or with none. -/
def start (cursor : Option Int) : TraceReader π := ⟨[], cursor, []⟩

/-- `max(1, min(limit, TRACE_MAX_LIMIT))` -/
def bounded (limit : Nat) : Nat := max 1 (min limit 500)

section
variable (clock : TraceClock) (st : TraceReader π)

def items (limit : Nat) (fails : Bool) : List (RequestLog π) :=
  if fails then [] else clock.fetchTraces (bounded limit) st.lastEventId st.rows

def receive (items : List (RequestLog π)) : TraceReader π where
  rows := st.rows
  lastEventId := items.getLast?.map clock.eventId <|> st.lastEventId
  received := st.received ++ items

def step : TraceStep π → TraceReader π
  | .log row => if row.id ∈ st.rows.map (·.id) then st else { st with rows := st.rows ++ [row] }
  | .poll limit fails frames => st.receive clock ((st.items clock limit fails).take frames)

end

variable {clock : TraceClock} {st : TraceReader π} {e : TraceStep π} {es : List (TraceStep π)}
  {cursor : Option Int} {row : RequestLog π} {rows : List (RequestLog π)} {limit frames : Nat}

/-! ## Queries -/

/-- The order of the ids is that of the rows. -/
def Aligned (clock : TraceClock) (rows : List (RequestLog π)) : Prop :=
  ∀ x ∈ rows, ∀ y ∈ rows, x.Before y → clock.eventId x < clock.eventId y

theorem later_trans (a b c : RequestLog π) (hab : a.later b) (hbc : b.later c) : a.later c := by
  simp only [RequestLog.later, decide_eq_true_eq] at *
  rcases hab with hab | ⟨hab, hid⟩
  · rcases hbc with hbc | ⟨hbc, -⟩
    · exact .inl (hbc.trans hab)
    · exact .inl (hbc.trans_lt hab)
  · rcases hbc with hbc | ⟨hbc, hid'⟩
    · exact .inl (hbc.trans_eq hab)
    · exact .inr ⟨hbc.trans hab, BitVec.le_trans hid' hid⟩

theorem later_total (a b : RequestLog π) : (a.later b || b.later a) = true := by
  simp only [RequestLog.later, Bool.or_eq_true, decide_eq_true_eq]
  rcases lt_trichotomy a.createdAt b.createdAt with h | h | h
  · exact .inr (.inl h)
  · exact (BitVec.le_total b.id a.id).imp (fun hid => .inr ⟨h.symm, hid⟩)
      fun hid => .inr ⟨h, hid⟩
  · exact .inl (.inl h)

/-- Ids fall along the answer of the database. -/
theorem pairwise_newest (halign : Aligned clock rows) (hids : (rows.map (·.id)).Nodup) :
    (rows.mergeSort RequestLog.later).Pairwise fun a b => clock.eventId b < clock.eventId a := by
  have hsorted := List.pairwise_mergeSort later_trans later_total rows
  have hperm := List.mergeSort_perm rows RequestLog.later
  have hne : (rows.mergeSort RequestLog.later).Pairwise fun a b => a.id ≠ b.id :=
    List.pairwise_map.1 ((hperm.map RequestLog.id).nodup_iff.2 hids)
  refine (hsorted.and hne).imp_of_mem fun {a b} ha hb h => ?_
  refine halign b (hperm.mem_iff.1 hb) a (hperm.mem_iff.1 ha) ?_
  have hlater := h.1
  simp only [RequestLog.later, decide_eq_true_eq] at hlater
  exact hlater.imp_right fun heq => ⟨heq.1, BitVec.lt_of_le_ne heq.2 (Ne.symm h.2)⟩

theorem Aligned.sublist {rows' : List (RequestLog π)} (h : Aligned clock rows)
    (hsub : rows'.Sublist rows) : Aligned clock rows' :=
  fun x hx y hy => h x (hsub.subset hx) y (hsub.subset hy)

section
variable {after : Option Int} (halign : Aligned clock rows) (hids : (rows.map (·.id)).Nodup)

include halign hids

theorem pairwise_fetchTraces :
    (clock.fetchTraces limit after rows).Pairwise fun a b => clock.eventId a < clock.eventId b := by
  have hsub : (rows.filter (clock.since after)).Sublist rows := List.filter_sublist
  have hnewest := pairwise_newest (halign.sublist hsub) (hids.sublist (hsub.map _))
  exact (List.pairwise_reverse.2 (hnewest.sublist (List.take_sublist ..))).filter _

/-- What is fetched: rows after the cursor which fewer rows than the limit come after. -/
theorem mem_fetchTraces : row ∈ clock.fetchTraces limit after rows ↔
    row ∈ rows ∧ clock.since after row ∧ (∀ c ∈ after, c < clock.eventId row) ∧
      (rows.filter (clock.since after)).countP (clock.eventId row < clock.eventId ·) < limit := by
  have hsub : (rows.filter (clock.since after)).Sublist rows := List.filter_sublist
  have hnewest := pairwise_newest (halign.sublist hsub) (hids.sublist (hsub.map _))
  have hperm := List.mergeSort_perm (rows.filter (clock.since after)) RequestLog.later
  have hmem : row ∈ (rows.filter (clock.since after)).mergeSort RequestLog.later ↔
      row ∈ rows ∧ clock.since after row := hperm.mem_iff.trans List.mem_filter
  have hafter : after.all (· < clock.eventId row) = true ↔ ∀ c ∈ after, c < clock.eventId row := by
    cases after <;> simp
  rw [TraceClock.fetchTraces, List.mem_filter, List.mem_reverse, hafter, ← hperm.countP_eq]
  constructor
  · rintro ⟨htake, hlt⟩
    have hin := List.mem_of_mem_take htake
    exact ⟨(hmem.1 hin).1, (hmem.1 hin).2, hlt,
      (Ranking.mem_take_iff_countP hnewest hin).1 htake⟩
  · rintro ⟨hrow, hsince, hlt, hcount⟩
    exact ⟨(Ranking.mem_take_iff_countP hnewest (hmem.2 ⟨hrow, hsince⟩)).2 hcount, hlt⟩

end

/-! ## No trace twice -/

/-- A row that is committed has its place in the order of the ids. -/
def IdsAlign (clock : TraceClock) (st : TraceReader π) : TraceStep π → Prop
  | .log row => ∀ old ∈ st.rows, (old.Before row → clock.eventId old < clock.eventId row) ∧
      (row.Before old → clock.eventId row < clock.eventId old)
  | _ => True

/-- The new row comes after the old one, has the greater id, and is not before the time that the id
of the old one stands for. -/
structure Precedes (clock : TraceClock) (old row : RequestLog π) : Prop where
  before : old.Before row
  eventId : clock.eventId old < clock.eventId row
  since : clock.since (some (clock.eventId old)) row = true

/-- A row is committed after those that it comes after. -/
def InOrder (clock : TraceClock) (st : TraceReader π) : TraceStep π → Prop
  | .log row => ∀ old ∈ st.rows, Precedes clock old row
  | _ => True

theorem idsAlign_of_inOrder (h : InOrder clock st e) : IdsAlign clock st e := by
  cases e with
  | log row =>
    refine fun old hold => ⟨fun _ => (h old hold).eventId, fun hbefore => ?_⟩
    -- no row is before one that is before it
    rcases (h old hold).before with hlt | ⟨heq, hlt⟩
    · rcases hbefore with hlt' | ⟨heq', -⟩
      · exact absurd hlt (lt_asymm hlt')
      · exact absurd heq'.symm hlt.ne
    · rcases hbefore with hlt' | ⟨-, hlt'⟩
      · exact absurd heq.symm hlt'.ne
      · exact absurd hlt (BitVec.lt_asymm hlt')
  | poll limit fails frames => trivial

structure Increasing (clock : TraceClock) (st : TraceReader π) : Prop where
  ids : (st.rows.map (·.id)).Nodup
  aligned : Aligned clock st.rows
  sorted : st.received.Pairwise fun a b => clock.eventId a < clock.eventId b
  known : ∀ row ∈ st.received, row ∈ st.rows ∧ ∃ c, st.lastEventId = some c ∧ clock.eventId row ≤ c

theorem items_sorted (h : Increasing clock st) {fails : Bool} :
    (st.items clock limit fails).Pairwise fun a b => clock.eventId a < clock.eventId b := by
  unfold items
  split
  · exact .nil
  · exact pairwise_fetchTraces h.aligned h.ids

/-- Whatever the order, a query answers with rows of the table beyond the cursor. -/
theorem mem_items {fails : Bool} (h : row ∈ st.items clock limit fails) :
    row ∈ st.rows ∧ ∀ c, st.lastEventId = some c → c < clock.eventId row := by
  unfold items at h
  split at h
  · cases h
  · obtain ⟨hrow, hafter⟩ := List.mem_filter.1 h
    have hin := List.mem_of_mem_take (List.mem_reverse.1 hrow)
    refine ⟨List.mem_of_mem_filter (List.mem_mergeSort.1 hin), fun c hc => ?_⟩
    rw [hc] at hafter
    exact of_decide_eq_true hafter

theorem lastEventId_receive {items : List (RequestLog π)} {last : RequestLog π}
    (h : items.getLast? = some last) :
    (st.receive clock items).lastEventId = some (clock.eventId last) := by
  simp [receive, h]

theorem eventId_le_getLast {items : List (RequestLog π)} {last : RequestLog π}
    (hsorted : items.Pairwise fun a b => clock.eventId a < clock.eventId b)
    (hlast : items.getLast? = some last) (hrow : row ∈ items) :
    clock.eventId row ≤ clock.eventId last := by
  obtain ⟨init, rfl⟩ := List.getLast?_eq_some_iff.1 hlast
  rcases List.mem_append.1 hrow with hrow | hrow
  · exact ((List.pairwise_append.1 hsorted).2.2 row hrow last (List.mem_singleton_self _)).le
  · rw [List.mem_singleton.1 hrow]

theorem increasing_receive (h : Increasing clock st) {items : List (RequestLog π)}
    (hsorted : items.Pairwise fun a b => clock.eventId a < clock.eventId b)
    (hitems : ∀ row ∈ items, row ∈ st.rows ∧
      ∀ c, st.lastEventId = some c → c < clock.eventId row) :
    Increasing clock (st.receive clock items) where
  ids := h.ids
  aligned := h.aligned
  sorted := by
    refine List.pairwise_append.2 ⟨h.sorted, hsorted, fun a ha b hb => ?_⟩
    obtain ⟨-, c, hc, hle⟩ := h.known a ha
    exact hle.trans_lt ((hitems b hb).2 c hc)
  known row hrow := by
    cases hlast : items.getLast? with
    | none =>
      rw [List.getLast?_eq_none_iff.1 hlast] at hrow ⊢
      exact h.known row (by simpa [receive] using hrow)
    | some last =>
      rw [lastEventId_receive hlast]
      rcases List.mem_append.1 hrow with hrow | hrow
      · obtain ⟨hin, c, hc, hle⟩ := h.known row hrow
        have hlt := (hitems last (List.mem_of_getLast? hlast)).2 c hc
        exact ⟨hin, _, rfl, (hle.trans_lt hlt).le⟩
      · exact ⟨(hitems row hrow).1, _, rfl, eventId_le_getLast hsorted hlast hrow⟩

theorem increasing_step (h : Increasing clock st) (hok : IdsAlign clock st e) :
    Increasing clock (step clock st e) := by
  cases e with
  | log row =>
    simp only [step]
    split
    next => exact h
    next hfresh =>
      have hirrefl (x : RequestLog π) : ¬ x.Before x := by
        rintro (hlt | ⟨-, hlt⟩)
        · exact lt_irrefl _ hlt
        · exact BitVec.lt_irrefl _ hlt
      refine ⟨?_, fun x hx y hy hbefore => ?_, h.sorted, fun r hr => ?_⟩
      · rw [List.map_append]
        refine List.nodup_append.2 ⟨h.ids, List.nodup_singleton _, fun a ha b hb heq => ?_⟩
        rw [List.map_singleton, List.mem_singleton] at hb
        exact hfresh (hb ▸ heq ▸ ha)
      · rcases List.mem_append.1 hx with hx | hx
        · rcases List.mem_append.1 hy with hy | hy
          · exact h.aligned x hx y hy hbefore
          · rw [List.mem_singleton.1 hy] at hbefore ⊢
            exact (hok x hx).1 hbefore
        · rw [List.mem_singleton.1 hx] at hbefore ⊢
          rcases List.mem_append.1 hy with hy | hy
          · exact (hok y hy).2 hbefore
          · rw [List.mem_singleton.1 hy] at hbefore
            exact absurd hbefore (hirrefl row)
      · exact ⟨List.mem_append_left _ (h.known r hr).1, (h.known r hr).2⟩
  | poll limit fails frames =>
    have hsub := List.take_sublist frames (st.items clock limit fails)
    exact increasing_receive h ((items_sorted h).sublist hsub)
      fun row hrow => mem_items (hsub.subset hrow)

theorem increasing_start : Increasing clock (start (π := π) cursor) :=
  ⟨.nil, fun _ hx => (by cases hx), .nil, fun _ hx => (by cases hx)⟩

/-- As long as the ids of the events are in the order of the rows, a reader gets no trace twice, and
all it gets in that order, whatever it misses. -/
theorem increasing_always (H : Guarded (step clock) (IdsAlign clock) (start cursor) es) :
    Always (step clock) (fun st : TraceReader π =>
      st.received.Pairwise fun a b => clock.eventId a < clock.eventId b) (start cursor) es :=
  H.always (fun _ _ => increasing_step) (fun _ hI => hI.sorted) increasing_start

/-- Rows a tenth of a millisecond apart. -/
def sampleRow (n : Nat) : RequestLog Unit := ⟨n, 1700000000000000 + 100 * n, ()⟩

/-- A row, a poll, and two more rows. -/
def sampleRun : List (TraceStep Unit) :=
  [.log (sampleRow 1), .poll 100 false 100, .log (sampleRow 2), .log (sampleRow 3)]

theorem inOrder_sampleRun :
    Guarded (step .exact) (InOrder .exact) (start none) sampleRun := by
  refine ⟨fun old h => (by cases h), trivial, fun old h => ?_, fun old h => ?_, trivial⟩
  · rw [List.mem_singleton.1 h]
    exact ⟨.inl (by decide), by decide, by decide⟩
  · rcases List.mem_cons.1 h with rfl | h
    · exact ⟨.inl (by decide), by decide, by decide⟩
    · rw [List.mem_singleton.1 h]
      exact ⟨.inl (by decide), by decide, by decide⟩

theorem increasing_sampleRun :
    (run (step .exact) (start none) sampleRun).received.Pairwise fun a b =>
      TraceClock.exact.eventId a < TraceClock.exact.eventId b := by
  have halign : Guarded (step .exact) (IdsAlign .exact) (start none) sampleRun :=
    inOrder_sampleRun.imp (I := fun _ => True) (fun _ _ _ _ => trivial)
      (fun _ _ _ => idsAlign_of_inOrder) trivial
  exact increasing_always halign _ (List.prefix_refl _)

/-! ## No trace missing -/

/-- A reader that has had traces finds no more that it has not than its limit. -/
def KeepsUp (clock : TraceClock) (st : TraceReader π) : TraceStep π → Prop
  | .poll limit false frames => frames ≠ 0 → ∀ last, st.received.getLast? = some last →
      st.rows.countP (clock.eventId last < clock.eventId ·) ≤ bounded limit
  | _ => True

/-- Between two traces that the reader has had there is none that it has not. -/
def Gapless (clock : TraceClock) (st : TraceReader π) : Prop :=
  ∀ a ∈ st.received, ∀ b ∈ st.received, ∀ row ∈ st.rows, clock.eventId a ≤ clock.eventId row →
    clock.eventId row ≤ clock.eventId b → row ∈ st.received

structure InLine (clock : TraceClock) (st : TraceReader π) : Prop where
  increasing : Increasing clock st
  precedes : st.rows.Pairwise (Precedes clock)
  last : ∀ a, st.received.getLast? = some a → st.lastEventId = some (clock.eventId a)

theorem InLine.precedes_of_lt (h : InLine clock st) {a : RequestLog π} (ha : a ∈ st.rows)
    (hrow : row ∈ st.rows) (hlt : clock.eventId a < clock.eventId row) : Precedes clock a row := by
  let R (x y : RequestLog π) : Prop := (clock.eventId x < clock.eventId y → Precedes clock x y) ∧
    (clock.eventId y < clock.eventId x → Precedes clock y x)
  have hR : st.rows.Pairwise R := h.precedes.imp fun hxy =>
    ⟨fun _ => hxy, fun hlt => absurd hlt (lt_asymm hxy.eventId)⟩
  have : Std.Symm R := ⟨fun _ _ hxy => hxy.symm⟩
  have hne : a ≠ row := by
    rintro rfl
    exact lt_irrefl _ hlt
  exact (hR.forall ha hrow hne).1 hlt

theorem InLine.eq_of_eventId (h : InLine clock st) {a : RequestLog π} (ha : a ∈ st.rows)
    (hrow : row ∈ st.rows) (heq : clock.eventId a = clock.eventId row) : a = row := by
  have hnodup : (st.rows.map clock.eventId).Nodup :=
    List.pairwise_map.2 (h.precedes.imp fun hxy => hxy.eventId.ne)
  exact List.inj_on_of_nodup_map hnodup ha hrow heq

theorem inLine_step (h : InLine clock st) (hok : InOrder clock st e) :
    InLine clock (step clock st e) := by
  have hincreasing := increasing_step h.increasing (idsAlign_of_inOrder hok)
  cases e with
  | log row =>
    refine ⟨hincreasing, ?_, ?_⟩ <;> simp only [step] <;> split
    · exact h.precedes
    · refine List.pairwise_append.2 ⟨h.precedes, List.pairwise_singleton .., fun x hx y hy => ?_⟩
      rw [List.mem_singleton.1 hy]
      exact hok x hx
    · exact h.last
    · exact h.last
  | poll limit fails frames =>
    refine ⟨hincreasing, h.precedes, fun a ha => ?_⟩
    cases hlast : ((st.items clock limit fails).take frames).getLast? with
    | none =>
      have hnil := List.getLast?_eq_none_iff.1 hlast
      simp only [step, receive, hnil, List.append_nil] at ha ⊢
      simpa using h.last a ha
    | some last =>
      simp only [step, receive, List.getLast?_append, hlast, Option.some_or,
        Option.some.injEq] at ha
      simp only [step]
      rw [lastEventId_receive hlast, ha]

theorem inLine_start : InLine clock (start (π := π) cursor) :=
  ⟨increasing_start, .nil, fun _ ha => by cases ha⟩

/-- What a poll answers a reader that has had traces: what comes after them, less what more rows
than the limit come after. -/
theorem InLine.mem_items_iff (h : InLine clock st) {a : RequestLog π}
    (ha : st.received.getLast? = some a) (hrow : row ∈ st.rows)
    (hlt : clock.eventId a < clock.eventId row) : row ∈ st.items clock limit false ↔
      st.rows.countP (clock.eventId row < clock.eventId ·) < bounded limit := by
  have hain := (h.increasing.known a (List.mem_of_getLast? ha)).1
  have hsince {x : RequestLog π} (hx : x ∈ st.rows) (hax : clock.eventId a < clock.eventId x) :
      clock.since (some (clock.eventId a)) x = true := (h.precedes_of_lt hain hx hax).since
  have hcount : (st.rows.filter (clock.since (some (clock.eventId a)))).countP
      (clock.eventId row < clock.eventId ·) =
        st.rows.countP (clock.eventId row < clock.eventId ·) := by
    rw [List.countP_filter]
    refine List.countP_congr fun x hx => ?_
    simp only [Bool.and_eq_true, decide_eq_true_eq, and_iff_left_iff_imp]
    exact fun hrx => hsince hx (hlt.trans hrx)
  rw [items, if_neg Bool.false_ne_true, h.last a ha,
    mem_fetchTraces h.increasing.aligned h.increasing.ids, hcount]
  simp [hrow, hsince hrow hlt, hlt]

theorem length_items_le {fails : Bool} : (st.items clock limit fails).length ≤ bounded limit := by
  unfold items
  split
  · exact Nat.zero_le _
  · refine (List.length_filter_le ..).trans ?_
    rw [List.length_reverse]
    exact List.length_take_le ..

/-- A poll that finds more rows than its limit answers with some, and leaves out one that is before
all of these. -/
theorem InLine.exists_skipped (h : InLine clock st) {a : RequestLog π}
    (ha : st.received.getLast? = some a)
    (hover : bounded limit < st.rows.countP (clock.eventId a < clock.eventId ·)) :
    ∃ row ∈ st.rows, clock.eventId a < clock.eventId row ∧ row ∉ st.items clock limit false ∧
      ∃ b ∈ st.items clock limit false, ∀ b' ∈ st.items clock limit false,
        clock.eventId row < clock.eventId b' := by
  have hlast {x : RequestLog π} (hx : x ∈ st.items clock limit false) :
      x ∈ st.rows ∧ clock.eventId a < clock.eventId x :=
    ⟨(mem_items hx).1, (mem_items hx).2 _ (h.last a ha)⟩
  -- there are more rows than places
  obtain ⟨row, hrow, hnot⟩ : ∃ row ∈ st.rows.filter (clock.eventId a < clock.eventId ·),
      row ∉ st.items clock limit false := by
    by_contra hall
    have hsub : st.rows.filter (clock.eventId a < clock.eventId ·) ⊆ st.items clock limit false :=
      fun x hx => not_not.1 fun hnot => hall ⟨x, hx, hnot⟩
    have hnodup := (List.Nodup.of_map _ h.increasing.ids).filter
      (clock.eventId a < clock.eventId ·)
    have hle := (hnodup.subperm hsub).length_le.trans length_items_le
    rw [← List.countP_eq_length_filter] at hle
    exact absurd hover (Nat.not_lt.2 hle)
  obtain ⟨hrow, hlt⟩ := List.mem_filter.1 hrow
  have hlt : clock.eventId a < clock.eventId row := of_decide_eq_true hlt
  refine ⟨row, hrow, hlt, hnot, ?_⟩
  have hbefore (b' : RequestLog π) (hb' : b' ∈ st.items clock limit false) :
      clock.eventId row < clock.eventId b' := by
    by_contra hge
    have hcount := (h.mem_items_iff ha (hlast hb').1 (hlast hb').2).1 hb'
    refine hnot ((h.mem_items_iff ha hrow hlt).2 (lt_of_le_of_lt ?_ hcount))
    refine List.countP_mono_left fun x _ hx => decide_eq_true ?_
    exact (not_lt.1 hge).trans_lt (of_decide_eq_true hx)
  -- nothing comes after the newest row
  cases hnewest : st.rows.getLast? with
  | none =>
    rw [List.getLast?_eq_none_iff.1 hnewest] at hrow
    cases hrow
  | some z =>
    have hsorted := h.precedes.imp fun hxy => hxy.eventId
    have hle (x : RequestLog π) (hx : x ∈ st.rows) : clock.eventId x ≤ clock.eventId z :=
      eventId_le_getLast hsorted hnewest hx
    have hz : z ∈ st.items clock limit false := by
      refine (h.mem_items_iff ha (List.mem_of_getLast? hnewest) (hlt.trans_le (hle row hrow))).2 ?_
      have hnone : st.rows.countP (clock.eventId z < clock.eventId ·) = 0 :=
        List.countP_eq_zero.2 fun x hx => by simp [hle x hx]
      rw [hnone]
      exact Nat.lt_of_lt_of_le Nat.one_pos (Nat.le_max_left ..)
    exact ⟨z, hz, hbefore⟩

theorem mem_take_of_le {l : List (RequestLog π)} {b : RequestLog π}
    (hsorted : l.Pairwise fun a b => clock.eventId a < clock.eventId b) (hb : b ∈ l.take frames)
    (hrow : row ∈ l) (hle : clock.eventId row ≤ clock.eventId b) : row ∈ l.take frames := by
  rw [← List.take_append_drop frames l] at hsorted hrow
  refine (List.mem_append.1 hrow).resolve_right fun hdrop => ?_
  exact absurd hle ((List.pairwise_append.1 hsorted).2.2 b hb row hdrop).not_ge

/-- The row has been passed over: it is behind the reader, who has not had it. -/
def Passed (clock : TraceClock) (row : RequestLog π) (st : TraceReader π) : Prop :=
  row ∉ st.received ∧ ∃ c, st.lastEventId = some c ∧ clock.eventId row ≤ c

/-- What has been passed over is not come back to, whatever is committed, in whichever order. -/
theorem Passed.step (h : Passed clock row st) : Passed clock row (step clock st e) := by
  obtain ⟨hnot, c, hc, hle⟩ := h
  cases e with
  | log row' =>
    simp only [TraceReader.step]
    split <;> exact ⟨hnot, c, hc, hle⟩
  | poll limit fails frames =>
    have hitems {x : RequestLog π} (hx : x ∈ (st.items clock limit fails).take frames) :
        c < clock.eventId x := (mem_items (List.mem_of_mem_take hx)).2 c hc
    refine ⟨fun hmem => ?_, ?_⟩
    · rcases List.mem_append.1 hmem with hmem | hmem
      · exact hnot hmem
      · exact absurd (hitems hmem) (not_lt.2 hle)
    · cases hlast : ((st.items clock limit fails).take frames).getLast? with
      | none =>
        refine ⟨c, ?_, hle⟩
        simpa [TraceReader.step, receive, hlast] using hc
      | some last =>
        refine ⟨_, lastEventId_receive hlast, hle.trans (hitems (List.mem_of_getLast? hlast)).le⟩

/-- A poll that finds too many rows passes one over, and leaves a gap. -/
theorem InLine.passed_of_not_keepsUp (h : InLine clock st) (hover : ¬ KeepsUp clock st e) :
    (∃ row ∈ st.rows, Passed clock row (step clock st e)) ∧
      ¬ Gapless clock (step clock st e) := by
  cases e with
  | log row => exact absurd trivial hover
  | poll limit fails frames =>
    cases fails with
    | true => exact absurd trivial hover
    | false =>
      simp only [KeepsUp, Classical.not_imp, not_forall, not_le] at hover
      obtain ⟨hframes, a, ha, hover⟩ := hover
      obtain ⟨row, hrow, hlt, hnot, b, hb, hbefore⟩ := h.exists_skipped ha hover
      have hmem : a ∈ st.received := List.mem_of_getLast? ha
      have htake : (st.items clock limit false).take frames ≠ [] := by
        rw [ne_eq, List.take_eq_nil_iff, not_or]
        exact ⟨hframes, List.ne_nil_of_mem hb⟩
      obtain ⟨last, hlast⟩ := Option.ne_none_iff_exists'.1 (mt List.getLast?_eq_none_iff.1 htake)
      have hlast_mem := List.mem_of_getLast? hlast
      have hrow_last := hbefore last (List.mem_of_mem_take hlast_mem)
      have hmissed : row ∉ (step clock st (.poll limit false frames)).received := by
        intro hin
        rcases List.mem_append.1 hin with hin | hin
        · obtain ⟨-, c, hc, hle⟩ := h.increasing.known row hin
          rw [h.last a ha] at hc
          cases hc
          exact absurd hlt hle.not_gt
        · exact hnot (List.mem_of_mem_take hin)
      refine ⟨⟨row, hrow, hmissed, _, lastEventId_receive hlast, hrow_last.le⟩, fun hgap => ?_⟩
      exact hmissed (hgap a (List.mem_append_left _ hmem) last (List.mem_append_right _ hlast_mem)
        row hrow hlt.le hrow_last.le)

/-- A poll that keeps up answers with all that comes after what the reader has had. -/
theorem InLine.mem_items_of_keepsUp (h : InLine clock st) {a : RequestLog π}
    (ha : st.received.getLast? = some a) (hframes : frames ≠ 0)
    (hok : KeepsUp clock st (.poll limit false frames)) (hrow : row ∈ st.rows)
    (hlt : clock.eventId a < clock.eventId row) : row ∈ st.items clock limit false := by
  refine (h.mem_items_iff ha hrow hlt).2 (Nat.lt_of_lt_of_le ?_ (hok hframes a ha))
  rw [List.countP_eq_length_filter, List.countP_eq_length_filter]
  have hsub := Ranking.filter_sublist_filter (l := st.rows)
    (p := (clock.eventId row < clock.eventId ·)) (q := (clock.eventId a < clock.eventId ·))
    fun x _ hx => decide_eq_true (hlt.trans (of_decide_eq_true hx))
  refine hsub.length_le.lt_of_ne fun hlength => ?_
  -- the row itself makes the difference
  have hmem : row ∈ st.rows.filter (clock.eventId row < clock.eventId ·) :=
    hsub.eq_of_length hlength ▸ List.mem_filter.2 ⟨hrow, decide_eq_true hlt⟩
  exact lt_irrefl _ (of_decide_eq_true (List.mem_filter.1 hmem).2)

/-- A first poll answers with a stretch of the table. -/
theorem InLine.mem_items_of_between (h : InLine clock st) {a : RequestLog π} {fails : Bool}
    (ha : a ∈ st.items clock limit fails) (hrow : row ∈ st.rows)
    (hle : clock.eventId a ≤ clock.eventId row) : row ∈ st.items clock limit fails := by
  unfold items at ha ⊢
  split at ha
  next => cases ha
  next hfails =>
    rw [if_neg hfails]
    rw [mem_fetchTraces h.increasing.aligned h.increasing.ids] at ha ⊢
    obtain ⟨hain, hsince, hafter, hcount⟩ := ha
    rcases hle.lt_or_eq with hlt | heq
    · refine ⟨hrow, ?_, fun c hc => (hafter c hc).trans hlt, lt_of_le_of_lt ?_ hcount⟩
      · have hcreated : a.createdAt ≤ row.createdAt :=
          (h.precedes_of_lt hain hrow hlt).before.elim le_of_lt fun heq => heq.1.le
        simp only [TraceClock.since, Option.all_eq_true, decide_eq_true_eq] at hsince ⊢
        exact fun t ht => (hsince t ht).trans hcreated
      · refine List.countP_mono_left fun x _ hx => decide_eq_true ?_
        exact hlt.trans (of_decide_eq_true hx)
    · rw [← h.eq_of_eventId hain hrow heq]
      exact ⟨hain, hsince, hafter, hcount⟩

theorem gapless_step (h : InLine clock st) (hgap : Gapless clock st) (hline : InOrder clock st e)
    (hok : KeepsUp clock st e) : Gapless clock (step clock st e) := by
  intro a ha b hb row hrow hle hle'
  cases e with
  | log new =>
    simp only [step] at ha hb hrow ⊢
    split at hrow
    next hknown =>
      rw [if_pos hknown] at ha hb ⊢
      exact hgap a ha b hb row hrow hle hle'
    next hfresh =>
      rw [if_neg hfresh] at ha hb ⊢
      rcases List.mem_append.1 hrow with hrow | hrow
      · exact hgap a ha b hb row hrow hle hle'
      · -- the new row comes after all that the reader has had
        rw [List.mem_singleton.1 hrow] at hle'
        have hlt := (hline b (h.increasing.known b hb).1).eventId
        exact absurd hle' hlt.not_ge
  | poll limit fails frames =>
    have hsorted : (st.items clock limit fails).Pairwise fun a b =>
      clock.eventId a < clock.eventId b := items_sorted h.increasing
    have htake {x : RequestLog π} (hx : x ∈ (st.items clock limit fails).take frames) :
        x ∈ st.items clock limit fails := List.mem_of_mem_take hx
    cases hlast : st.received.getLast? with
    | none =>
      have hnil := List.getLast?_eq_none_iff.1 hlast
      simp only [step, receive, hnil, List.nil_append] at ha hb hrow ⊢
      exact mem_take_of_le hsorted hb (h.mem_items_of_between (htake ha) hrow hle) hle'
    | some last =>
      have hlast_mem := List.mem_of_getLast? hlast
      have hbehind {x : RequestLog π} (hx : x ∈ st.received) :
          clock.eventId x ≤ clock.eventId last := by
        obtain ⟨-, c, hc, hx⟩ := h.increasing.known x hx
        rw [h.last last hlast] at hc
        cases hc
        exact hx
      have hahead {x : RequestLog π} (hx : x ∈ (st.items clock limit fails).take frames) :
          clock.eventId last < clock.eventId x := (mem_items (htake hx)).2 _ (h.last last hlast)
      rcases le_or_gt (clock.eventId row) (clock.eventId last) with hback | hforth
      · rcases List.mem_append.1 ha with ha | ha
        · exact List.mem_append_left _ (hgap a ha last hlast_mem row hrow hle hback)
        · exact absurd (hle.trans hback) (hahead ha).not_ge
      · rcases List.mem_append.1 hb with hb | hb
        · exact absurd (hle'.trans (hbehind hb)) hforth.not_ge
        · cases fails with
          | true => cases htake hb
          | false =>
            have hframes : frames ≠ 0 := by
              rintro rfl
              cases hb
            have hmem := h.mem_items_of_keepsUp hlast hframes hok hrow hforth
            exact List.mem_append_right _ (mem_take_of_le hsorted hb hmem hle')

end TraceReader

end LlmPort.Backend.Llm
