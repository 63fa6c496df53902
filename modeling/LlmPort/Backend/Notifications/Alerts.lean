import Mathlib.Data.List.Nodup
import Mathlib.Logic.Function.Basic
import LlmPort.Transition.Run
import LlmPort.Backend.NodeControl.Model

/-!
# The cooldown of admin alerts

`NotificationService.maybe_enqueue_admin_alert` reads when the last alert of a fingerprint was and,
if that is long enough ago, adds an alert to the outbox and moves the mark, in one transaction of
its caller. Between the read and the commit other calls may commit.
-/

namespace LlmPort.Backend.Notifications

open Transition NodeControl

structure NotificationAlertState where
  fingerprint : String
  lastSentAt : Time
  sentCount : Nat
  deriving DecidableEq

/-- A call that is going to add an alert, with the instant and the row it has read. -/
structure AlertCall where
  fingerprint : String
  now : Time
  state : Option NotificationAlertState
  deriving DecidableEq

structure AlertSystem where
  now : Time
  states : List NotificationAlertState
  /-- The calls whose transactions are open, by transaction. -/
  calls : Nat → Option AlertCall
  /-- The calls whose alerts are in the outbox, the latest first. -/
  alerts : List AlertCall

inductive AlertEvent where
  | tick (d : Nat)
  /-- A call, up to the rows that it adds. -/
  | call (c : Nat) (fingerprint : String) (hasRecipients : Bool)
  | commit (c : Nat)
  | rollback (c : Nat)

namespace AlertSystem

def start (now : Time) : AlertSystem := ⟨now, [], fun _ => none, []⟩

variable (cooldown : Time)

def stateOf (st : AlertSystem) (fingerprint : String) : Option NotificationAlertState :=
  st.states.find? (·.fingerprint = fingerprint)

/-- `maybe_enqueue_admin_alert` -/
def call (st : AlertSystem) (c : Nat) (fingerprint : String) (hasRecipients : Bool) :
    AlertSystem :=
  let state := st.stateOf fingerprint
  if state.any (fun s => decide (st.now - s.lastSentAt < cooldown)) then st
  else if !hasRecipients then st
  else { st with calls := Function.update st.calls c (some ⟨fingerprint, st.now, state⟩) }

/-- The row that a commit updates, with the count that the call has read. -/
def bump (call : AlertCall) (seen s : NotificationAlertState) : NotificationAlertState :=
  if s.fingerprint = call.fingerprint then
    { s with lastSentAt := call.now, sentCount := seen.sentCount + 1 }
  else s

/-- The commit of the caller; a second row of a fingerprint violates the primary key. -/
def commit (st : AlertSystem) (c : Nat) : AlertSystem :=
  match st.calls c with
  | none => st
  | some call =>
    let closed := { st with calls := Function.update st.calls c none }
    match call.state with
    | none =>
      if (st.stateOf call.fingerprint).isSome then closed
      else { closed with
        states := ⟨call.fingerprint, call.now, 1⟩ :: st.states
        alerts := call :: st.alerts }
    | some seen => { closed with
        states := st.states.map (bump call seen)
        alerts := call :: st.alerts }

def step (st : AlertSystem) : AlertEvent → AlertSystem
  | .tick d => { st with now := st.now + d }
  | .call c fingerprint hasRecipients =>
    if (st.calls c).isSome then st else st.call cooldown c fingerprint hasRecipients
  | .commit c => st.commit c
  | .rollback c => { st with calls := Function.update st.calls c none }

/-! ## What a step can do -/

inductive Move (st : AlertSystem) : AlertEvent → AlertSystem → Prop
  | stay (e : AlertEvent) : Move st e st
  | tick (d : Nat) : Move st (.tick d) { st with now := st.now + d }
  | call {c : Nat} {fingerprint : String} {hasRecipients : Bool}
      (hcool : ∀ s, st.stateOf fingerprint = some s → s.lastSentAt + cooldown ≤ st.now) :
      Move st (.call c fingerprint hasRecipients) { st with
        calls := Function.update st.calls c
          (some ⟨fingerprint, st.now, st.stateOf fingerprint⟩) }
  | first {c : Nat} {call : AlertCall} (hc : st.calls c = some call) (hseen : call.state = none)
      (hnone : st.stateOf call.fingerprint = none) :
      Move st (.commit c) ⟨st.now, ⟨call.fingerprint, call.now, 1⟩ :: st.states,
        Function.update st.calls c none, call :: st.alerts⟩
  | again {c : Nat} {call : AlertCall} {seen : NotificationAlertState}
      (hc : st.calls c = some call) (hseen : call.state = some seen) :
      Move st (.commit c) ⟨st.now, st.states.map (bump call seen),
        Function.update st.calls c none, call :: st.alerts⟩
  | drop {e : AlertEvent} (c : Nat) :
      Move st e { st with calls := Function.update st.calls c none }

theorem move_step (st : AlertSystem) (e : AlertEvent) :
    Move cooldown st e (st.step cooldown e) := by
  cases e with
  | tick d => exact .tick d
  | call c fingerprint hasRecipients =>
    simp only [step, call]
    split
    next => exact .stay _
    next =>
      split
      next => exact .stay _
      next hcool =>
        split
        next => exact .stay _
        next =>
          refine .call fun s hs => ?_
          simp only [hs, Option.any_some, decide_eq_true_eq, not_lt] at hcool
          exact add_comm s.lastSentAt cooldown ▸ le_sub_iff_add_le.1 hcool
  | commit c =>
    simp only [step, commit]
    split
    next => exact .stay _
    next call hc =>
      split
      next hseen =>
        split
        next => exact .drop c
        next hnone => exact .first hc hseen (Option.not_isSome_iff_eq_none.1 hnone)
      next seen hseen => exact .again hc hseen
  | rollback c => exact .drop c

/-! ## Whatever overlaps -/

/-- The alerts of a fingerprint. -/
def sent (st : AlertSystem) (fingerprint : String) : Nat :=
  st.alerts.countP (·.fingerprint = fingerprint)

/-- Of alerts, the latest first, each is the first of its fingerprint, or at least the cooldown
later than an earlier one. -/
def Justified : List AlertCall → Prop
  | [] => True
  | a :: earlier => (a.state = none → ∀ b ∈ earlier, b.fingerprint ≠ a.fingerprint) ∧
      (a.state ≠ none → ∃ b ∈ earlier, b.fingerprint = a.fingerprint ∧ b.now + cooldown ≤ a.now) ∧
      Justified earlier

/-- The row tells of an alert of its fingerprint, and of no more of them than there are. -/
def Tells (st : AlertSystem) (s : NotificationAlertState) : Prop :=
  1 ≤ s.sentCount ∧ s.sentCount ≤ st.sent s.fingerprint ∧
    ∃ a ∈ st.alerts, a.fingerprint = s.fingerprint ∧ a.now = s.lastSentAt

structure Inv (st : AlertSystem) : Prop where
  nodup : (st.states.map (·.fingerprint)).Nodup
  tells : ∀ s ∈ st.states, st.Tells s
  known : ∀ a ∈ st.alerts, ∃ s ∈ st.states, s.fingerprint = a.fingerprint
  calls : ∀ c call s, st.calls c = some call → call.state = some s →
    s.fingerprint = call.fingerprint ∧ s.lastSentAt + cooldown ≤ call.now ∧ st.Tells s
  justified : Justified cooldown st.alerts

variable {cooldown} {st : AlertSystem} {e : AlertEvent} {fingerprint : String}
  {s : NotificationAlertState}

theorem mem_of_stateOf (h : st.stateOf fingerprint = some s) :
    s ∈ st.states ∧ s.fingerprint = fingerprint :=
  ⟨List.mem_of_find?_eq_some h, by simpa using List.find?_some h⟩

theorem countP_cons_self {call : AlertCall} {alerts : List AlertCall}
    (h : call.fingerprint = fingerprint) :
    (call :: alerts).countP (·.fingerprint = fingerprint) =
      alerts.countP (·.fingerprint = fingerprint) + 1 := by
  rw [List.countP_cons, if_pos (decide_eq_true h)]

theorem not_mem_of_stateOf (h : st.stateOf fingerprint = none) :
    fingerprint ∉ st.states.map (·.fingerprint) := by
  intro hmem
  obtain ⟨s, hs, heq⟩ := List.mem_map.1 hmem
  exact absurd (decide_eq_true heq) (List.find?_eq_none.1 h s hs)

/-- What a row tells stays true. -/
theorem Tells.cons {call : AlertCall} {states : List NotificationAlertState}
    {calls : Nat → Option AlertCall} (h : st.Tells s) :
    Tells ⟨st.now, states, calls, call :: st.alerts⟩ s := by
  obtain ⟨hpos, hcount, a, ha, hfp, hat⟩ := h
  refine ⟨hpos, hcount.trans ?_, a, List.mem_cons_of_mem _ ha, hfp, hat⟩
  exact (List.sublist_cons_self ..).countP_le

theorem calls_close {calls : Nat → Option AlertCall} {c c' : Nat} {call : AlertCall}
    (h : Function.update calls c none c' = some call) : calls c' = some call := by
  rw [Function.update_apply] at h
  split at h
  next => cases h
  next => exact h

theorem inv_step (h : st.Inv cooldown) : (st.step cooldown e).Inv cooldown := by
  have hmove := move_step cooldown st e
  generalize st.step cooldown e = st' at hmove
  cases hmove with
  | stay => exact h
  | tick d => exact ⟨h.nodup, h.tells, h.known, h.calls, h.justified⟩
  | @call c fingerprint hasRecipients hcool =>
    refine ⟨h.nodup, h.tells, h.known, fun c' call s hc hs => ?_, h.justified⟩
    simp only [Function.update_apply] at hc
    split at hc
    next =>
      cases hc
      obtain ⟨hmem, hfp⟩ := mem_of_stateOf hs
      exact ⟨hfp, hcool s hs, h.tells s hmem⟩
    next => exact h.calls c' call s hc hs
  | @first c call hc hseen hnone =>
    refine ⟨List.nodup_cons.2 ⟨not_mem_of_stateOf hnone, h.nodup⟩, fun s hs => ?_, fun a ha => ?_,
      fun c' call' s hc' hs => ?_, fun _ a ha heq => ?_, fun hne => absurd hseen hne, h.justified⟩
    · rcases List.mem_cons.1 hs with rfl | hs
      · refine ⟨le_rfl, ?_, call, List.mem_cons_self, rfl, rfl⟩
        exact List.countP_pos_iff.2 ⟨call, List.mem_cons_self, decide_eq_true rfl⟩
      · exact (h.tells s hs).cons
    · rcases List.mem_cons.1 ha with rfl | ha
      · exact ⟨_, List.mem_cons_self, rfl⟩
      · obtain ⟨s, hs, hfp⟩ := h.known a ha
        exact ⟨s, List.mem_cons_of_mem _ hs, hfp⟩
    · obtain ⟨hfp, hat, htells⟩ := h.calls c' call' s (calls_close hc') hs
      exact ⟨hfp, hat, htells.cons⟩
    · -- an alert of the fingerprint would have a row
      obtain ⟨s, hs, hfp⟩ := h.known a ha
      exact not_mem_of_stateOf hnone (List.mem_map.2 ⟨s, hs, hfp.trans heq⟩)
  | @again c call seen hc hseen =>
    obtain ⟨hfp, hat, htells⟩ := h.calls c call seen hc hseen
    have hkeep (s : NotificationAlertState) : (bump call seen s).fingerprint = s.fingerprint := by
      unfold bump
      split <;> rfl
    refine ⟨?_, fun s hs => ?_, fun a ha => ?_, fun c' call' s hc' hs => ?_,
      fun hnone => ?_, fun _ => ?_, h.justified⟩
    · rw [List.map_map]
      have hmap : st.states.map ((·.fingerprint) ∘ bump call seen) =
          st.states.map (·.fingerprint) := List.map_congr_left fun s _ => hkeep s
      rw [hmap]
      exact h.nodup
    · obtain ⟨s, hold, rfl⟩ := List.mem_map.1 hs
      unfold bump
      split
      next heq =>
        refine ⟨Nat.le_add_left .., ?_, call, List.mem_cons_self, heq.symm, rfl⟩
        change seen.sentCount + 1 ≤ (call :: st.alerts).countP (·.fingerprint = s.fingerprint)
        rw [countP_cons_self heq.symm, heq, ← hfp]
        exact Nat.succ_le_succ htells.2.1
      next => exact (h.tells s hold).cons
    · rcases List.mem_cons.1 ha with rfl | ha
      · obtain ⟨-, -, b, hb, hbfp, -⟩ := htells
        obtain ⟨s, hs, hsfp⟩ := h.known b hb
        exact ⟨_, List.mem_map_of_mem hs, (hkeep s).trans (hsfp.trans (hbfp.trans hfp))⟩
      · obtain ⟨s, hs, hsfp⟩ := h.known a ha
        exact ⟨_, List.mem_map_of_mem hs, (hkeep s).trans hsfp⟩
    · obtain ⟨hfp', hat', htells'⟩ := h.calls c' call' s (calls_close hc') hs
      exact ⟨hfp', hat', htells'.cons⟩
    · rw [hseen] at hnone
      cases hnone
    · obtain ⟨-, -, b, hb, hbfp, hbat⟩ := htells
      exact ⟨b, hb, hbfp.trans hfp, hbat ▸ hat⟩
  | drop c =>
    exact ⟨h.nodup, h.tells, h.known, fun c' call s hc hs => h.calls c' call s (calls_close hc) hs,
      h.justified⟩

theorem inv_start {now : Time} : (start now).Inv cooldown :=
  ⟨List.nodup_nil, fun _ h => (by cases h), fun _ h => (by cases h), fun _ _ _ h => (by cases h),
    trivial⟩

/-- However the calls overlap, each alert is the first of its fingerprint or keeps its distance to
some earlier one, and the marks count no more alerts than there are. -/
theorem justified_always (now : Time) (es : List AlertEvent) :
    Always (step cooldown) (fun st => Justified cooldown st.alerts ∧ ∀ s ∈ st.states, st.Tells s)
      (start now) es := by
  rintro pre -
  have hinv : (run (step cooldown) (start now) pre).Inv cooldown :=
    run_invariant (fun _ _ => inv_step) inv_start
  exact ⟨hinv.justified, hinv.tells⟩

/-! ## Without overlap -/

/-- A call that commits finds the row of its fingerprint as it has read it. -/
def Fresh (st : AlertSystem) : AlertEvent → Prop
  | .commit c => ∀ call, st.calls c = some call → call.state = st.stateOf call.fingerprint
  | _ => True

/-- The row tells of the last alert of its fingerprint, and of how many there are. -/
def Exact (st : AlertSystem) (s : NotificationAlertState) : Prop :=
  s.sentCount = st.sent s.fingerprint ∧
    ∀ a ∈ st.alerts, a.fingerprint = s.fingerprint → a.now ≤ s.lastSentAt

/-- Alerts of one fingerprint, the latest first, keep their distance. -/
def Apart (cooldown : Time) (alerts : List AlertCall) : Prop :=
  alerts.Pairwise fun a b => a.fingerprint = b.fingerprint → b.now + cooldown ≤ a.now

theorem Exact.cons {call : AlertCall} {states : List NotificationAlertState}
    {calls : Nat → Option AlertCall} (h : st.Exact s) (hne : call.fingerprint ≠ s.fingerprint) :
    Exact ⟨st.now, states, calls, call :: st.alerts⟩ s := by
  refine ⟨h.1.trans (List.countP_cons_of_neg (by simpa using hne)).symm, fun a ha hfp => ?_⟩
  rcases List.mem_cons.1 ha with rfl | ha
  · exact absurd hfp hne
  · exact h.2 a ha hfp

theorem exact_step (hcooldown : 0 ≤ cooldown) (hinv : st.Inv cooldown) (hok : Fresh st e)
    (h : (∀ s ∈ st.states, st.Exact s) ∧ Apart cooldown st.alerts) :
    (∀ s ∈ (st.step cooldown e).states, (st.step cooldown e).Exact s) ∧
      Apart cooldown (st.step cooldown e).alerts := by
  have hmove := move_step cooldown st e
  generalize st.step cooldown e = st' at hmove
  cases hmove with
  | stay | tick | call | drop => exact h
  | @first c call hc hseen hnone =>
    have hfirst (a : AlertCall) (ha : a ∈ st.alerts) : a.fingerprint ≠ call.fingerprint := by
      intro heq
      obtain ⟨s, hs, hfp⟩ := hinv.known a ha
      exact not_mem_of_stateOf hnone (List.mem_map.2 ⟨s, hs, hfp.trans heq⟩)
    refine ⟨fun s hs => ?_, List.pairwise_cons.2 ⟨fun a ha heq => ?_, h.2⟩⟩
    · rcases List.mem_cons.1 hs with rfl | hs
      · refine ⟨?_, fun a ha hfp => ?_⟩
        · have hzero : st.alerts.countP (·.fingerprint = call.fingerprint) = 0 :=
            List.countP_eq_zero.2 fun a ha => by simpa using hfirst a ha
          change 1 = (call :: st.alerts).countP (·.fingerprint = call.fingerprint)
          rw [countP_cons_self rfl, hzero]
        · rcases List.mem_cons.1 ha with rfl | ha
          · exact le_rfl
          · exact absurd hfp (hfirst a ha)
      · refine (h.1 s hs).cons fun heq => not_mem_of_stateOf hnone ?_
        exact List.mem_map.2 ⟨s, hs, heq.symm⟩
    · exact absurd heq.symm (hfirst a ha)
  | @again c call seen hc hseen =>
    obtain ⟨hmem, hfp⟩ := mem_of_stateOf ((hok call hc).symm.trans hseen)
    obtain ⟨hcount, hlast⟩ := h.1 seen hmem
    obtain ⟨-, hat, -⟩ := hinv.calls c call seen hc hseen
    have hlater (a : AlertCall) (ha : a ∈ st.alerts) (heq : a.fingerprint = call.fingerprint) :
        a.now + cooldown ≤ call.now :=
      (Int.add_le_add_right (hlast a ha (heq.trans hfp.symm)) cooldown).trans hat
    refine ⟨fun s hs => ?_, List.pairwise_cons.2 ⟨fun a ha heq => hlater a ha heq.symm, h.2⟩⟩
    obtain ⟨s, hold, rfl⟩ := List.mem_map.1 hs
    unfold bump
    split
    next heq =>
      refine ⟨?_, fun a ha hafp => ?_⟩
      · change seen.sentCount + 1 = (call :: st.alerts).countP (·.fingerprint = s.fingerprint)
        rw [countP_cons_self heq.symm, hcount, sent, hfp, heq]
      · rcases List.mem_cons.1 ha with rfl | ha
        · exact le_rfl
        · exact (le_add_of_nonneg_right hcooldown).trans (hlater a ha (hafp.trans heq))
    next hne => exact (h.1 s hold).cons (Ne.symm hne)

/-- Where no call commits over another one's alert, the alerts of a fingerprint are at least the
cooldown apart, and its row counts them and has the instant of the last. -/
theorem apart_always {now : Time} {es : List AlertEvent} (hcooldown : 0 ≤ cooldown)
    (h : Guarded (step cooldown) Fresh (start now) es) :
    Always (step cooldown) (fun st => Apart cooldown st.alerts ∧ ∀ s ∈ st.states, st.Exact s)
      (start now) es := by
  refine h.always (I := fun st => st.Inv cooldown ∧ (∀ s ∈ st.states, st.Exact s) ∧
    Apart cooldown st.alerts) (fun st e hI hok => ?_) (fun st hI => ⟨hI.2.2, hI.2.1⟩) ?_
  · exact ⟨inv_step hI.1, exact_step hcooldown hI.1 hok hI.2⟩
  · exact ⟨inv_start, fun _ h => (by cases h), List.Pairwise.nil⟩

/-- Two alerts half an hour apart, and one between them that is suppressed. -/
def threeCalls : List AlertEvent :=
  [.call 0 "gateway_5xx_rate:5m" true, .commit 0, .tick 60000000,
    .call 1 "gateway_5xx_rate:5m" true, .commit 1, .tick 1740000000,
    .call 2 "gateway_5xx_rate:5m" true, .commit 2]

theorem apart_threeCalls :
    Apart (seconds 1800) (run (step (seconds 1800)) (start 0) threeCalls).alerts ∧
      (run (step (seconds 1800)) (start 0) threeCalls).alerts.length = 2 := by
  have hguard : Guarded (step (seconds 1800)) Fresh (start 0) threeCalls := by
    refine ⟨trivial, fun call hc => ?_, trivial, trivial, fun call hc => ?_, trivial, trivial,
      fun call hc => ?_, trivial⟩
    · cases hc
      rfl
    · cases hc
    · cases hc
      rfl
  exact ⟨(apart_always (by decide) hguard _ (List.prefix_refl _)).1, by decide⟩

end AlertSystem

end LlmPort.Backend.Notifications
