import LlmPort.Backend.ControlPlane

/-!
# When terminal command states are final

The outcome of a command is its status, its result, its error fields and its completion time. No
setter looks at the status a row already has, so a frame for a terminal command rewrites its
outcome. `sparesTerminal` is the exact condition on a call under which no outcome changes.
-/

namespace LlmPort.Backend

open Transition NodeControl NodeControlService Store Llm

/-- What a terminal state settles. -/
structure Outcome where
  status : NodeCommandStatus
  resultJson : Option ResultJson
  errorCode : Option String
  errorMessage : Option String
  completedAt : Option Time
  deriving DecidableEq

def outcomeOf (c : InfraNodeCommand) : Outcome :=
  ⟨c.status, c.resultJson, c.errorCode, c.errorMessage, c.completedAt⟩

/-- Every terminal command of `s` has the same outcome in `s'`. -/
def KeepsOutcomes (s s' : Store) : Prop :=
  ∀ id c, s.getCommand id = some c → c.status.isTerminal →
    ∃ c', s'.getCommand id = some c' ∧ outcomeOf c' = outcomeOf c

/-- Along the run, a terminal command's outcome never changes. -/
def TerminalStatesFinal (llm : LLMService) (s : Store) (es : List ControlEvent) : Prop :=
  Along (controlStep llm) KeepsOutcomes s es

/-- The outcome a result frame records at `now`. -/
def reportedOutcome (now : Time) (payload : CommandResult) : Outcome where
  status := if payload.success then .succeeded else .failed
  resultJson := some (payload.result.getD .empty)
  errorCode := payload.errorCode
  errorMessage := payload.errorMessage
  completedAt := some now

/-- No acknowledgement or progress frame names a terminal command of its sender, and a result frame
for one repeats the recorded outcome or carries an error code the column cannot hold. -/
def sparesTerminal (s : Store) : ControlEvent → Bool
  | .ack _ nodeId commandId _ | .progress _ nodeId commandId _ =>
    (ownCommand s nodeId commandId).all fun c => !c.status.isTerminal
  | .result now nodeId commandId payload =>
    (ownCommand s nodeId commandId).all fun c =>
      !c.status.isTerminal || !fits 128 payload.errorCode ||
        outcomeOf c = reportedOutcome now payload
  | _ => true

variable {llm : LLMService} {s s' : Store} {e : ControlEvent}

theorem KeepsOutcomes.refl (s : Store) : KeepsOutcomes s s := fun _ c hc _ => ⟨c, hc, rfl⟩

theorem KeepsOutcomes.trans {s₁ s₂ s₃ : Store} (h₁ : KeepsOutcomes s₁ s₂)
    (h₂ : KeepsOutcomes s₂ s₃) : KeepsOutcomes s₁ s₃ := by
  intro id c hc ht
  obtain ⟨c₂, hc₂, ho₂⟩ := h₁ id c hc ht
  have hs : c₂.status = c.status := congrArg Outcome.status ho₂
  obtain ⟨c₃, hc₃, ho₃⟩ := h₂ id c₂ hc₂ (by rw [hs]; exact ht)
  exact ⟨c₃, hc₃, ho₃.trans ho₂⟩

theorem outcomeOf_resultRow {now : Time} {payload : CommandResult} {c : InfraNodeCommand} :
    outcomeOf (resultRow now payload c) = reportedOutcome now payload := by
  unfold resultRow outcomeOf reportedOutcome setCommandStatus
  cases payload.success <;> rfl

/-- A frame that leaves its row with another outcome breaks the relation. -/
theorem KeepsOutcomes.of_own {nodeId commandId : Uuid} {c c' : InfraNodeCommand}
    (h : KeepsOutcomes s s') (hc : ownCommand s nodeId commandId = some c)
    (ht : c.status.isTerminal) (hc' : s'.getCommand c.id = some c') :
    outcomeOf c' = outcomeOf c := by
  obtain ⟨d, hd, ho⟩ := h c.id c (ownCommand_get hc) ht
  rw [hc'] at hd
  cases hd
  exact ho

theorem sparesTerminal_of_keeps (h : KeepsOutcomes s (controlStep llm s e)) :
    sparesTerminal s e := by
  cases e with
  | ack now nodeId commandId message =>
    simp only [sparesTerminal, Option.all_eq_true, Bool.not_eq_true']
    intro c hc
    by_contra ht
    have ho := h.of_own hc (by simpa using ht) (getCommand_recordCommandAck hc)
    have hs : c.status = .acked := (congrArg Outcome.status ho).symm
    simp [hs, NodeCommandStatus.isTerminal] at ht
  | progress now nodeId commandId message =>
    simp only [sparesTerminal, Option.all_eq_true, Bool.not_eq_true']
    intro c hc
    by_contra ht
    have ho := h.of_own hc (by simpa using ht) (getCommand_recordCommandProgress hc)
    have hs : c.status = .running := (congrArg Outcome.status ho).symm
    simp [hs, NodeCommandStatus.isTerminal] at ht
  | result now nodeId commandId payload =>
    simp only [sparesTerminal, Option.all_eq_true, Bool.or_eq_true, Bool.not_eq_true',
      decide_eq_true_eq]
    intro c hc
    by_contra! hne
    obtain ⟨⟨ht, hf⟩, ho⟩ := hne
    obtain ⟨s', hs', hrows⟩ := recordCommandResult_own llm.nodeControl now hc (by simpa using hf)
    have hc' : (controlStep llm s (.result now nodeId commandId payload)).getCommand c.id =
        some (resultRow now payload c) := by
      simp only [controlStep, hs', committed]
      rw [getCommand_congr hrows]
      exact getCommand_updateCommand_own (ownCommand_get hc) rfl
    exact ho ((h.of_own hc (by simpa using ht) hc').symm.trans outcomeOf_resultRow)
  | _ => rfl

/-- The relation on rows that finality asks for. -/
def FinalRow (c c' : InfraNodeCommand) : Prop := c.status.isTerminal → outcomeOf c' = outcomeOf c

theorem keeps_of_sparesTerminal (hk : s.Keyed) (h : sparesTerminal s e) :
    KeepsOutcomes s (controlStep llm s e) := by
  have ha : Allows llm FinalRow s e := by
    refine ⟨fun _ _ => rfl, ?_, fun _ _ _ _ => rfl, ?_, ?_, ?_, ?_, ?_⟩
    · intro a b c hab hbc ht
      have hs : b.status = a.status := congrArg Outcome.status (hab ht)
      exact (hbc (by rw [hs]; exact ht)).trans (hab ht)
    · intro _ c hq ht
      simp [hq, NodeCommandStatus.isTerminal] at ht
    · intro _ _ c hi ht
      simp [NodeCommandStatus.isTerminal_of_isInflight hi] at ht
    · rintro _ _ _ _ rfl c hc ht
      simp [sparesTerminal, hc, ht] at h
    · rintro _ _ _ _ rfl c hc ht
      simp [sparesTerminal, hc, ht] at h
    · rintro now _ _ payload rfl c hc hf ht
      simp only [sparesTerminal, hc, Option.all_some, ht, hf, Bool.not_true, Bool.false_or,
        decide_eq_true_eq] at h
      exact outcomeOf_resultRow.trans h.symm
  intro id c hc ht
  obtain ⟨c', hc', -, hp⟩ := (controlStep_extends ha hk).rows hc
  exact ⟨c', hc', hp ht⟩

/-- From any store with a primary key, terminal states are final along a run exactly when every call
of the run spares the terminal commands. -/
theorem terminalStatesFinal_iff {es : List ControlEvent} (hk : s.Keyed) :
    TerminalStatesFinal llm s es ↔
      Guarded (controlStep llm) (fun s e => sparesTerminal s e) s es := by
  refine along_iff_guarded .refl (fun _ _ _ => .trans) (fun _ _ => controlStep_keyed) ?_ hk
  intro s e hk
  exact ⟨sparesTerminal_of_keeps, keeps_of_sparesTerminal hk⟩

/-- A command that is issued, dispatched, acknowledged and reported as successful. -/
def finishedRun : List ControlEvent :=
  [.issue ⟨0, 1, 2⟩ ⟨7, .drainNode, ⟨.missing, true, []⟩, none, none, none, some "drain"⟩,
    .listForDispatch (seconds 1) 7 50, .ack (seconds 2) 7 1 none,
    .result (seconds 3) 7 1 ⟨true, none, none, none⟩]

theorem terminalStatesFinal_finishedRun :
    TerminalStatesFinal .plain (.oneNode 7) finishedRun :=
  (terminalStatesFinal_iff keyed_oneNode).2 (by decide)

/-- The acknowledgement of a second copy of the command moves it out of its terminal state. -/
theorem not_terminalStatesFinal_late_ack :
    ¬ TerminalStatesFinal .plain (.oneNode 7) (finishedRun ++ [.ack (seconds 4) 7 1 none]) := by
  intro h
  have hc : ((run (controlStep .plain) (.oneNode 7) finishedRun).getCommand 1).map outcomeOf =
      some ⟨.succeeded, some .empty, none, none, some (seconds 3)⟩ := by decide
  have hc' : ((run (controlStep .plain) (.oneNode 7)
      (finishedRun ++ [.ack (seconds 4) 7 1 none])).getCommand 1).map outcomeOf =
      some ⟨.acked, some .empty, none, none, some (seconds 3)⟩ := by decide
  obtain ⟨c, hc, ho⟩ := Option.map_eq_some_iff.1 hc
  have ht : c.status.isTerminal := by
    have hs : c.status = .succeeded := congrArg Outcome.status ho
    rw [hs]
    rfl
  obtain ⟨d, hd, hdo⟩ := h finishedRun [.ack (seconds 4) 7 1 none] [] (by simp) 1 c hc ht
  rw [hd, Option.map_some, hdo, ho] at hc'
  exact absurd hc' (by decide)

end LlmPort.Backend
