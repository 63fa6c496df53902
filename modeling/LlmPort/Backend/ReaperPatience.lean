import LlmPort.Backend.ControlPlane

/-!
# When the reaper times a command out

The last sign of activity on each command is kept beside the store, and a reaper pass is compared
with it: what the columns of a row tell the reaper is when the command was first dispatched, acked
or started.
-/

namespace LlmPort.Backend

open Transition NodeControl NodeControlService Store Llm

/-- The timeout budget of `_command_is_overdue`. -/
def timeoutBudget (svc : NodeControlService) (c : InfraNodeCommand) : Int :=
  let timeout := match c.timeoutSec with
    | some t => if t ≤ 0 then svc.defaultCommandTimeoutSec else t
    | none => svc.defaultCommandTimeoutSec
  if c.status = .running then timeout * 2 else timeout

/-- The instant from which the budget counts. -/
def overdueAnchor (c : InfraNodeCommand) : Option Time :=
  if c.status = .running then c.startedAt <|> c.ackedAt
  else some ((c.ackedAt <|> c.dispatchedAt).getD c.issuedAt)

/-- The instant from which the grace period counts. -/
def graceAnchor (c : InfraNodeCommand) : Time :=
  (c.startedAt <|> c.ackedAt <|> c.dispatchedAt).getD c.issuedAt

def isOffline (s : Store) (nodeId : Uuid) : Prop :=
  ∃ node, s.getNodeById nodeId = some node ∧ node.status = .offline

/-- The store with the instant of the last sign of activity on each command. -/
structure Watched where
  store : Store
  lastActivity : Uuid → Option Time

/-- The sign of activity that a call is on a command: that it is issued, sent to its node, acked by
it, or that the node reports progress. -/
def activity (llm : LLMService) (s : Store) (e : ControlEvent) (id : Uuid) : Option Time :=
  match e with
  | .issue draw _ | .lifecycle draw _ =>
    if (s.getCommand id).isNone ∧ ((controlStep llm s e).getCommand id).isSome then some draw.now
    else none
  | .listForDispatch now nodeId limit =>
    if (listCommandsForDispatch now nodeId limit s).2.any (·.command.id = id) then some now else none
  | .listDispatchable now nodeId limit =>
    if (llm.nodeControl.listDispatchableCommands now nodeId limit s).2.any (·.command.id = id) then
      some now
    else none
  | .ack now nodeId commandId _ | .progress now nodeId commandId _ =>
    if commandId = id ∧ (ownCommand s nodeId commandId).isSome then some now else none
  | _ => none

def watch (llm : LLMService) (w : Watched) (e : ControlEvent) : Watched where
  store := controlStep llm w.store e
  lastActivity id := activity llm w.store e id <|> w.lastActivity id

/-- A call times a command out only as a reaper pass, if the node is offline and there was no sign
of activity for the budget and the grace period. -/
def TimesOutLate (llm : LLMService) (w : Watched) (e : ControlEvent) : Prop :=
  ∀ id c c', w.store.getCommand id = some c → c.status ≠ .timedOut →
    (controlStep llm w.store e).getCommand id = some c' → c'.status = .timedOut →
    isOffline w.store c.nodeId ∧ ∃ now t, e = .reap now ∧ w.lastActivity id = some t ∧
      t + seconds (timeoutBudget llm.nodeControl c + reaperOfflineGraceSec) ≤ now

/-- No command in flight to an offline node is met by a pass between the end of its budget and of
the grace period, which run side by side, and the time the two take one after the other. -/
def ReapsLate (llm : LLMService) (w : Watched) : ControlEvent → Prop
  | .reap now => ∀ c ∈ w.store.listInflightCommandsAllNodes 200, isOffline w.store c.nodeId →
    (∀ a, overdueAnchor c = some a → now ≤ a + seconds (timeoutBudget llm.nodeControl c)) ∨
      now < graceAnchor c + seconds reaperOfflineGraceSec ∨
      ∃ t, w.lastActivity c.id = some t ∧
        t + seconds (timeoutBudget llm.nodeControl c + reaperOfflineGraceSec) ≤ now
  | _ => True

variable {llm : LLMService} {svc : NodeControlService} {s : Store} {w : Watched} {e : ControlEvent}
  {now : Time} {c : InfraNodeCommand}

theorem commandIsOverdue_iff : svc.commandIsOverdue now c ↔ c.status.isInflight ∧
    ∃ a, overdueAnchor c = some a ∧ a + seconds (timeoutBudget svc c) < now := by
  rw [commandIsOverdue, overdueAnchor, timeoutBudget]
  split
  next hinflight =>
    rw [and_iff_right hinflight]
    simp only
    split
    next =>
      cases c.startedAt <|> c.ackedAt with
      | none => simp
      | some a =>
        simp only [decide_eq_true_eq, Option.some.injEq, exists_eq_left']
        exact lt_sub_iff_add_lt'
    next =>
      simp only [decide_eq_true_eq, Option.some.injEq, exists_eq_left']
      exact lt_sub_iff_add_lt'
  next hinflight => exact iff_of_false (by simp) fun h => hinflight h.1

theorem isStale_iff : svc.isStale now s c ↔ isOffline s c.nodeId ∧ svc.commandIsOverdue now c ∧
    graceAnchor c + seconds reaperOfflineGraceSec ≤ now := by
  rw [isStale, isOffline, graceAnchor]
  cases s.getNodeById c.nodeId with
  | none => simp
  | some node =>
    simp only [decide_eq_true_eq, Option.some.injEq, exists_eq_left']
    refine and_congr_right fun _ => and_congr_right fun _ => ?_
    rw [not_lt]
    exact le_sub_iff_add_le'

/-- Only a reaper pass times commands out. -/
theorem timedOut_of_controlStep {c' : InfraNodeCommand} {id : Uuid} (hk : s.Keyed)
    (he : ∀ now, e ≠ .reap now) (hc : s.getCommand id = some c)
    (hc' : (controlStep llm s e).getCommand id = some c') (h : c'.status = .timedOut) :
    c.status = .timedOut := by
  have hal : Allows llm (fun c c' => c'.status = .timedOut → c.status = .timedOut) s e := by
    refine ⟨fun _ h => h, fun _ _ _ h h' hc => h (h' hc), fun _ _ _ h => h, ?_, ?_, ?_, ?_, ?_⟩
    · intro now c _ h
      cases h
    · intro now hreap
      exact absurd hreap (he now)
    · intro now nodeId commandId message _ c _ h
      cases h
    · intro now nodeId commandId message _ c _ h
      cases h
    · intro now nodeId commandId payload _ c _ _ h
      revert h
      rw [resultRow, setCommandStatus_status]
      split <;> exact fun h => by cases h
  obtain ⟨c₁, hc₁, -, hp⟩ := (controlStep_extends hal hk).rows hc
  rw [hc₁] at hc'
  cases hc'
  exact hp h

theorem mem_staleRows : c ∈ staleRows svc now s ↔ c ∈ s.listInflightCommandsAllNodes 200 ∧
    isOffline s c.nodeId ∧ svc.commandIsOverdue now c ∧
      graceAnchor c + seconds reaperOfflineGraceSec ≤ now := by
  rw [staleRows, List.mem_filter, isStale_iff]

theorem getCommand_reap {id : Uuid} (hk : s.Keyed) (hc : s.getCommand id = some c) :
    (controlStep llm s (.reap now)).getCommand id =
      some (if (staleRows llm.nodeControl now s).any (·.id = c.id) then
        llm.nodeControl.timedOutRow now c else c) := by
  have hrows := reapStaleCommands_commands llm.nodeControl now hk
  rw [controlStep, getCommand_of_map (fun c => by split <;> rfl) hrows, hc, Option.map_some]

theorem any_staleRows (hk : s.Keyed) (hc : c ∈ s.commands) :
    (staleRows svc now s).any (·.id = c.id) ↔ c ∈ staleRows svc now s := by
  rw [List.any_eq_true]
  constructor
  · rintro ⟨x, hx, hid⟩
    have hmem : x ∈ s.commands := List.mem_of_mem_filter (mem_of_mem_oldestFirst (mem_staleRows.1 hx).1)
    rw [← hk.eq_of_mem hmem hc (of_decide_eq_true hid)]
    exact hx
  · intro h
    exact ⟨c, h, decide_eq_true rfl⟩

/-- A call times commands out late exactly if it is no pass that comes too early. -/
theorem timesOutLate_iff (hk : w.store.Keyed) : TimesOutLate llm w e ↔ ReapsLate llm w e := by
  by_cases he : ∃ now, e = .reap now
  · obtain ⟨now, rfl⟩ := he
    constructor
    · intro h c hlisted hoffline
      obtain ⟨hmem, hinflight⟩ := List.mem_filter.1 (mem_of_mem_oldestFirst hlisted)
      have hget := hk.getCommand hmem
      by_cases hstale : c ∈ staleRows llm.nodeControl now w.store
      · -- the row is timed out by the pass
        have hafter := @getCommand_reap llm _ now _ _ hk hget
        rw [if_pos ((any_staleRows hk hmem).2 hstale)] at hafter
        have hne : c.status ≠ .timedOut := by
          intro heq
          rw [heq] at hinflight
          cases hinflight
        obtain ⟨-, now', t, hnow, ht, hlate⟩ := h c.id c _ hget hne hafter rfl
        cases hnow
        exact .inr (.inr ⟨t, ht, hlate⟩)
      · rw [mem_staleRows, commandIsOverdue_iff] at hstale
        by_cases hover : ∃ a, overdueAnchor c = some a ∧
            a + seconds (timeoutBudget llm.nodeControl c) < now
        · refine .inr (.inl (lt_of_not_ge fun hgrace => hstale ?_))
          exact ⟨hlisted, hoffline, ⟨hinflight, hover⟩, hgrace⟩
        · refine .inl fun a ha => le_of_not_gt fun hlt => hover ⟨a, ha, hlt⟩
    · intro h id c c' hc hne hc' htimedOut
      rw [getCommand_reap hk hc] at hc'
      cases hc'
      split at htimedOut
      next hany =>
        have hmem := getCommand_mem hc
        obtain ⟨hlisted, hoffline, hover, hgrace⟩ := mem_staleRows.1 ((any_staleRows hk hmem).1 hany)
        refine ⟨hoffline, ?_⟩
        rcases h c hlisted hoffline with hbudget | hearly | ⟨t, ht, hlate⟩
        · obtain ⟨-, a, ha, hlt⟩ := commandIsOverdue_iff.1 hover
          exact absurd (hbudget a ha) (not_le.2 hlt)
        · exact absurd hgrace (not_le.2 hearly)
        · rw [getCommand_id hc] at ht
          exact ⟨now, t, rfl, ht, hlate⟩
      next => exact absurd htimedOut hne
  · have hother : ∀ now, e ≠ .reap now := fun now h => he ⟨now, h⟩
    refine iff_of_true (fun id c c' hc hne hc' h => ?_) ?_
    · exact absurd (timedOut_of_controlStep hk hother hc hc' h) hne
    · cases e with
      | reap now => exact absurd rfl (hother now)
      | _ => trivial

/-- From a database without commands on, no call times a command out early exactly if no reaper pass
comes too early for one. -/
theorem guarded_timesOutLate_iff (llm : LLMService) (s₀ : Store) (events : List ControlEvent) :
    Guarded (watch llm) (TimesOutLate llm) ⟨{ s₀ with commands := [] }, fun _ => none⟩ events ↔
      Guarded (watch llm) (ReapsLate llm) ⟨{ s₀ with commands := [] }, fun _ => none⟩ events :=
  @guarded_congr _ _ _ _ _ _ (fun w => w.store.Keyed) _ (fun _ _ hk => controlStep_keyed hk)
    (fun _ _ hk => timesOutLate_iff hk) (keyed_noCommands s₀)

/-- A command of 900 seconds is dispatched to a node that goes offline. -/
def unplugged : List ControlEvent :=
  [.issue ⟨0, 5, 6⟩ ⟨1, .fetchContainerLogs, ⟨.missing, true, []⟩, none, none, none, none⟩,
    .listForDispatch 1 1 50, .openSession 3 1, .closeSession 3]

/-- A reaper pass 901 seconds later times the command out, with no grace period on top of its
budget. -/
theorem not_guarded_timesOutLate_unplugged :
    ¬ Guarded (watch LLMService.plain) (TimesOutLate LLMService.plain)
      ⟨{ oneNode 1 with commands := [] }, fun _ => none⟩ (unplugged ++ [.reap (seconds 901)]) := by
  intro h
  have hreap := (guarded_append.1 h).2.1
  let w := run (watch LLMService.plain) ⟨{ oneNode 1 with commands := [] }, fun _ => none⟩ unplugged
  have hlast : w.lastActivity 5 = some 1 := by decide +kernel
  obtain ⟨-, now, t, hnow, ht, hlate⟩ := hreap 5 ((w.store.getCommand 5).get (by decide +kernel))
    (((controlStep LLMService.plain w.store (.reap (seconds 901))).getCommand 5).get
      (by decide +kernel))
    (Option.some_get _).symm (by decide +kernel) (Option.some_get _).symm (by decide +kernel)
  cases hnow
  rw [hlast] at ht
  cases ht
  revert hlate
  decide +kernel

end LlmPort.Backend
