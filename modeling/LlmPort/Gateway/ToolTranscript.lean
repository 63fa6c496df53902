import LlmPort.Gateway.ToolLoop

/-!
# The transcripts of the tool loop

Which answers the loop acts on, which calls it makes and which message lists it sends, and when the
tool calls in these are answered.
-/

namespace LlmPort.Gateway

open Text Transition

namespace McpToolLoop

variable (cfg : McpToolLoop)

/-! ## The answers the loop acts on -/

/-- The answer has calls that are the gateway's, and every name in it can be read. -/
structure ActsOn (answer : LoopAnswer) (message : AssistantMessage) : Prop where
  chosen : answer.choices.head? = some message
  readable : ∀ tc ∈ message.toolCalls, tc.rawName ≠ none
  owned : cfg.ownCalls message.toolCalls ≠ []

/-- None of the calls raises, the first of which is the `index`th of the turn. -/
def Completes (round : LoopRound) (iteration index : Nat) (toolCalls : List FunctionCall) : Prop :=
  ∀ i tc, toolCalls[i]? = some tc → cfg.callResult round iteration (index + i) tc ≠ none

/-- Some of the calls are for the client. -/
def Mixed (message : AssistantMessage) : Prop :=
  (cfg.ownCalls message.toolCalls).length < message.toolCalls.length

instance (message : AssistantMessage) : Decidable (cfg.Mixed message) :=
  inferInstanceAs (Decidable (_ < _))

/-- The answer that the `k`th turn begins with. -/
inductive AnswerAt (rounds : Nat → LoopRound) (first : LoopAnswer) : Nat → LoopAnswer → Prop
  | first : AnswerAt rounds first 0 first
  | next : AnswerAt rounds first k answer → cfg.ActsOn answer message →
      cfg.Completes (rounds k) k 0 (cfg.ownCalls message.toolCalls) → ¬ cfg.Mixed message →
      (rounds k).recalled = some answer' → answer'.statusCode < 400 →
      AnswerAt rounds first (k + 1) answer'

/-- There is a `k`th turn, and it runs calls of this message. -/
structure ActsAt (rounds : Nat → LoopRound) (first : LoopAnswer) (k : Nat)
    (message : AssistantMessage) : Prop where
  available : cfg.useRouter ∨ cfg.mcpClient
  bounded : k < cfg.maxIterations
  acts : ∃ answer, cfg.AnswerAt rounds first k answer ∧ cfg.ActsOn answer message

variable {cfg} {rounds : Nat → LoopRound} {round : LoopRound} {first answer : LoopAnswer}
  {message : AssistantMessage} {p p' : LoopPoint} {iteration index k : Nat}
  {toolCalls : List FunctionCall} {tc : FunctionCall} {output : LoopOutput}
  {base messages toolMessages : List LoopMessage} {d : ToolDispatch}

theorem completes_nil : cfg.Completes round iteration index [] := by
  simp [Completes]

theorem completes_cons : cfg.Completes round iteration index (tc :: toolCalls) ↔
    cfg.callResult round iteration index tc ≠ none ∧
      cfg.Completes round iteration (index + 1) toolCalls := by
  constructor
  · intro h
    refine ⟨h 0 tc rfl, fun i tc' htc' => ?_⟩
    rw [show index + 1 + i = index + (i + 1) by omega]
    exact h (i + 1) tc' htc'
  · rintro ⟨hhead, htail⟩ i tc' htc'
    cases i with
    | zero =>
      obtain rfl : tc = tc' := by simpa using htc'
      exact hhead
    | succ i =>
      rw [show index + (i + 1) = index + 1 + i by omega]
      exact htail i tc' (by simpa using htc')

/-! ## The calls of a turn -/

/-- A tool message for the call. -/
def IsReplyTo (tc : FunctionCall) (message : LoopMessage) : Prop :=
  ∃ content, message = .tool tc.callId content

/-- Where none of the calls raises, there is one reply to each of them, in order. -/
theorem runCalls_of_completes (h : cfg.Completes round iteration index toolCalls) :
    ∃ outputs toolMessages,
      cfg.runCalls round iteration index toolCalls = (outputs, some toolMessages) ∧
        List.Forall₂ IsReplyTo toolCalls toolMessages := by
  induction toolCalls generalizing index with
  | nil => exact ⟨[], [], rfl, .nil⟩
  | cons tc rest ih =>
    obtain ⟨hhead, htail⟩ := completes_cons.1 h
    obtain ⟨⟨content, record⟩, hresult⟩ := Option.ne_none_iff_exists'.1 hhead
    obtain ⟨outputs, toolMessages, hrun, hreplies⟩ := ih htail
    refine ⟨.dispatched (cfg.dispatch round index tc) :: .recorded record :: outputs,
      .tool tc.callId content :: toolMessages, ?_, .cons ⟨content, rfl⟩ hreplies⟩
    simp only [runCalls, hresult, hrun, Option.map_some]

theorem runCalls_of_not_completes (h : ¬ cfg.Completes round iteration index toolCalls) :
    (cfg.runCalls round iteration index toolCalls).2 = none := by
  induction toolCalls generalizing index with
  | nil => exact absurd completes_nil h
  | cons tc rest ih =>
    rw [completes_cons] at h
    cases hresult : cfg.callResult round iteration index tc with
    | none => simp only [runCalls, hresult]
    | some result =>
      have hrest : ¬ cfg.Completes round iteration (index + 1) rest :=
        fun hrest => h ⟨by simp [hresult], hrest⟩
      simp only [runCalls, hresult, ih hrest, Option.map_none]

/-- A call is made if none of those before it raises. -/
theorem mem_runCalls : .dispatched d ∈ (cfg.runCalls round iteration index toolCalls).1 ↔
    ∃ i tc, toolCalls[i]? = some tc ∧ cfg.Completes round iteration index (toolCalls.take i) ∧
      d = cfg.dispatch round (index + i) tc := by
  induction toolCalls generalizing index with
  | nil => simp [runCalls]
  | cons tc rest ih =>
    constructor
    · intro h
      cases hresult : cfg.callResult round iteration index tc with
      | none =>
        simp only [runCalls, hresult, List.mem_singleton, LoopOutput.dispatched.injEq] at h
        exact ⟨0, tc, rfl, completes_nil, h⟩
      | some result =>
        simp only [runCalls, hresult, List.mem_cons, LoopOutput.dispatched.injEq, reduceCtorEq,
          false_or] at h
        obtain h | h := h
        · exact ⟨0, tc, rfl, completes_nil, h⟩
        · obtain ⟨i, tc', htc', hbefore, hd⟩ := ih.1 h
          refine ⟨i + 1, tc', htc', completes_cons.2 ⟨by simp [hresult], hbefore⟩, ?_⟩
          rwa [show index + (i + 1) = index + 1 + i by omega]
    · rintro ⟨i, tc', htc', hbefore, hd⟩
      cases i with
      | zero =>
        obtain rfl : tc = tc' := by simpa using htc'
        cases hresult : cfg.callResult round iteration index tc with
        | none => simp [runCalls, hresult, hd]
        | some result => simp [runCalls, hresult, hd]
      | succ i =>
        obtain ⟨hhead, hbefore⟩ := completes_cons.1 hbefore
        obtain ⟨result, hresult⟩ := Option.ne_none_iff_exists'.1 hhead
        have hrest := ih.2 ⟨i, tc', by simpa using htc', hbefore,
          by rwa [show index + 1 + i = index + (i + 1) by omega]⟩
        simp only [runCalls, hresult]
        exact List.mem_cons_of_mem _ (List.mem_cons_of_mem _ hrest)

theorem sent_not_mem_runCalls :
    .sent messages ∉ (cfg.runCalls round iteration index toolCalls).1 := by
  induction toolCalls generalizing index with
  | nil => simp [runCalls]
  | cons tc rest ih =>
    cases hresult : cfg.callResult round iteration index tc with
    | none => simp [runCalls, hresult]
    | some result => simpa [runCalls, hresult] using ih

/-! ## One turn -/

theorem ActsOn.unique {message' : AssistantMessage} (h : cfg.ActsOn answer message)
    (h' : cfg.ActsOn answer message') : message = message' :=
  Option.some.inj (h.chosen.symm.trans h'.chosen)

theorem turn_of_not_actsOn (h : ∀ message, ¬ cfg.ActsOn p.result message) :
    (cfg.turn rounds p).outputs = [] ∧ ∀ p', (cfg.turn rounds p).after ≠ .ok p' := by
  unfold turn
  split
  next => simp
  next message _ hchoices =>
    dsimp only
    split
    next => simp
    next hreadable =>
      split
      next => simp
      next howned =>
        refine absurd ?_ (h message)
        constructor
        · rw [hchoices, List.head?_cons]
        · simpa using hreadable
        · simpa using howned

section
variable (hacts : cfg.ActsOn p.result message)
include hacts

theorem turn_of_actsOn : cfg.turn rounds p =
    match cfg.runCalls (rounds p.iteration) p.iteration 0 (cfg.ownCalls message.toolCalls) with
    | (outputs, none) => ⟨outputs, .error .raised⟩
    | (outputs, some toolMessages) =>
      let messages := p.messages ++ .assistant message :: toolMessages
      ⟨outputs ++ [.sent messages], onRecall p (decide (cfg.Mixed message)) messages
        (rounds p.iteration).recalled⟩ := by
  obtain ⟨rest, hchoices⟩ := List.head?_eq_some_iff.1 hacts.chosen
  have hreadable : message.toolCalls.any (·.rawName.isNone) = false := by
    simpa using hacts.readable
  have howned : (cfg.ownCalls message.toolCalls).isEmpty = false := by
    simpa using hacts.owned
  simp only [turn, hchoices, hreadable, howned, Bool.false_eq_true, if_false]
  rfl

theorem turn_of_not_completes (h : ¬ cfg.Completes (rounds p.iteration) p.iteration 0
    (cfg.ownCalls message.toolCalls)) :
    cfg.turn rounds p = ⟨(cfg.runCalls (rounds p.iteration) p.iteration 0
      (cfg.ownCalls message.toolCalls)).1, .error .raised⟩ := by
  obtain ⟨outputs, hrun⟩ : ∃ outputs, cfg.runCalls (rounds p.iteration) p.iteration 0
      (cfg.ownCalls message.toolCalls) = (outputs, none) :=
    ⟨_, Prod.ext rfl (runCalls_of_not_completes h)⟩
  rw [turn_of_actsOn hacts, hrun]

theorem turn_of_completes (h : cfg.Completes (rounds p.iteration) p.iteration 0
    (cfg.ownCalls message.toolCalls)) :
    ∃ toolMessages, List.Forall₂ IsReplyTo (cfg.ownCalls message.toolCalls) toolMessages ∧
      cfg.turn rounds p =
        let messages := p.messages ++ .assistant message :: toolMessages
        ⟨(cfg.runCalls (rounds p.iteration) p.iteration 0 (cfg.ownCalls message.toolCalls)).1 ++
            [.sent messages],
          onRecall p (decide (cfg.Mixed message)) messages (rounds p.iteration).recalled⟩ := by
  obtain ⟨outputs, toolMessages, hrun, hreplies⟩ := runCalls_of_completes h
  refine ⟨toolMessages, hreplies, ?_⟩
  rw [turn_of_actsOn hacts, hrun]

end

theorem onRecall_eq_ok {mixed : Bool} {recalled : Option LoopAnswer} :
    onRecall p mixed messages recalled = .ok p' ↔ ∃ result, recalled = some result ∧
      result.statusCode < 400 ∧ mixed = false ∧ p' = ⟨p.iteration + 1, result, messages⟩ := by
  cases recalled with
  | none => simp [onRecall]
  | some result =>
    by_cases hstatus : 400 ≤ result.statusCode
    · simp [onRecall, hstatus]
    · cases mixed with
      | true => simp [onRecall, hstatus]
      | false =>
        simp [onRecall, hstatus, eq_comm]
        omega

/-- A turn runs all the gateway's calls of the answer, then sends their replies; or else it sends
nothing and is the last one. -/
theorem turn_cases (cfg : McpToolLoop) (rounds : Nat → LoopRound) (p : LoopPoint) :
    (∃ message toolMessages, cfg.ActsOn p.result message ∧
      cfg.Completes (rounds p.iteration) p.iteration 0 (cfg.ownCalls message.toolCalls) ∧
      List.Forall₂ IsReplyTo (cfg.ownCalls message.toolCalls) toolMessages ∧
      cfg.turn rounds p =
        let messages := p.messages ++ .assistant message :: toolMessages
        ⟨(cfg.runCalls (rounds p.iteration) p.iteration 0 (cfg.ownCalls message.toolCalls)).1 ++
            [.sent messages],
          onRecall p (decide (cfg.Mixed message)) messages (rounds p.iteration).recalled⟩) ∨
      (∀ messages, .sent messages ∉ (cfg.turn rounds p).outputs) ∧
        ∀ p', (cfg.turn rounds p).after ≠ .ok p' := by
  by_cases hacts : ∃ message, cfg.ActsOn p.result message
  · obtain ⟨message, hacts⟩ := hacts
    by_cases hcompletes : cfg.Completes (rounds p.iteration) p.iteration 0
        (cfg.ownCalls message.toolCalls)
    · obtain ⟨toolMessages, hreplies, hturn⟩ := turn_of_completes hacts hcompletes
      exact .inl ⟨message, toolMessages, hacts, hcompletes, hreplies, hturn⟩
    · rw [turn_of_not_completes hacts hcompletes]
      exact .inr ⟨fun _ => sent_not_mem_runCalls, by simp⟩
  · obtain ⟨hnil, hlast⟩ := turn_of_not_actsOn (not_exists.1 hacts)
    rw [hnil]
    exact .inr ⟨fun _ => List.not_mem_nil, hlast⟩

/-- A turn that another one follows. -/
theorem exists_of_after_eq_ok (h : (cfg.turn rounds p).after = .ok p') :
    ∃ message toolMessages, cfg.ActsOn p.result message ∧
      cfg.Completes (rounds p.iteration) p.iteration 0 (cfg.ownCalls message.toolCalls) ∧
      List.Forall₂ IsReplyTo (cfg.ownCalls message.toolCalls) toolMessages ∧
      ¬ cfg.Mixed message ∧ (rounds p.iteration).recalled = some p'.result ∧
      p'.result.statusCode < 400 ∧ p'.iteration = p.iteration + 1 ∧
      p'.messages = p.messages ++ .assistant message :: toolMessages := by
  obtain ⟨message, toolMessages, hacts, hcompletes, hreplies, hturn⟩ | ⟨-, hlast⟩ :=
    turn_cases cfg rounds p
  · rw [hturn] at h
    obtain ⟨result, hrecall, hstatus, hmixed, rfl⟩ := onRecall_eq_ok.1 h
    exact ⟨message, toolMessages, hacts, hcompletes, hreplies, of_decide_eq_false hmixed, hrecall,
      hstatus, rfl, rfl⟩
  · exact absurd h (hlast p')

/-- What a turn sends. -/
theorem exists_of_sent (h : .sent messages ∈ (cfg.turn rounds p).outputs) :
    ∃ message toolMessages, cfg.ActsOn p.result message ∧
      cfg.Completes (rounds p.iteration) p.iteration 0 (cfg.ownCalls message.toolCalls) ∧
      List.Forall₂ IsReplyTo (cfg.ownCalls message.toolCalls) toolMessages ∧
      messages = p.messages ++ .assistant message :: toolMessages := by
  obtain ⟨message, toolMessages, hacts, hcompletes, hreplies, hturn⟩ | ⟨hnone, -⟩ :=
    turn_cases cfg rounds p
  · rw [hturn] at h
    simp only [List.mem_append, sent_not_mem_runCalls, List.mem_singleton,
      LoopOutput.sent.injEq, false_or] at h
    exact ⟨message, toolMessages, hacts, hcompletes, hreplies, h⟩
  · exact absurd h (hnone messages)

theorem mem_turn_dispatched : .dispatched d ∈ (cfg.turn rounds p).outputs ↔
    ∃ message, cfg.ActsOn p.result message ∧
      .dispatched d ∈ (cfg.runCalls (rounds p.iteration) p.iteration 0
        (cfg.ownCalls message.toolCalls)).1 := by
  by_cases hacts : ∃ message, cfg.ActsOn p.result message
  · obtain ⟨message, hacts⟩ := hacts
    have hturn : .dispatched d ∈ (cfg.turn rounds p).outputs ↔
        .dispatched d ∈ (cfg.runCalls (rounds p.iteration) p.iteration 0
          (cfg.ownCalls message.toolCalls)).1 := by
      by_cases hcompletes : cfg.Completes (rounds p.iteration) p.iteration 0
          (cfg.ownCalls message.toolCalls)
      · obtain ⟨toolMessages, _, hturn⟩ := turn_of_completes hacts hcompletes
        simp [hturn]
      · rw [turn_of_not_completes hacts hcompletes]
    rw [hturn]
    constructor
    · exact fun h => ⟨message, hacts, h⟩
    · rintro ⟨message', hacts', h⟩
      rwa [hacts.unique hacts']
  · constructor
    · intro h
      rw [(turn_of_not_actsOn (not_exists.1 hacts)).1] at h
      exact absurd h List.not_mem_nil
    · rintro ⟨message, hacts', _⟩
      exact absurd ⟨message, hacts'⟩ hacts

/-! ## The turns of a run -/

theorem answerAt_of_turns (h : Turns (cfg.turn rounds) k ⟨0, first, base⟩ p) :
    p.iteration = k ∧ cfg.AnswerAt rounds first k p.result := by
  induction k generalizing p with
  | zero => cases h; exact ⟨rfl, .first⟩
  | succ k ih =>
    obtain ⟨p', hturns, hafter⟩ := turns_succ_iff.1 h
    obtain ⟨rfl, hanswer⟩ := ih hturns
    obtain ⟨message, _, hacts, hcompletes, _, hmixed, hrecall, hstatus, hiteration, _⟩ :=
      exists_of_after_eq_ok hafter
    exact ⟨hiteration, .next hanswer hacts hcompletes hmixed hrecall hstatus⟩

theorem exists_turns (base : List LoopMessage) (h : cfg.AnswerAt rounds first k answer) :
    ∃ messages, Turns (cfg.turn rounds) k ⟨0, first, base⟩ ⟨k, answer, messages⟩ := by
  induction h with
  | first => exact ⟨base, .refl⟩
  | @next k answer message answer' _ hacts hcompletes hmixed hrecall hstatus ih =>
    obtain ⟨messages, hturns⟩ := ih
    obtain ⟨toolMessages, _, hturn⟩ :=
      turn_of_completes (p := ⟨k, answer, messages⟩) hacts hcompletes
    refine ⟨messages ++ .assistant message :: toolMessages, turns_succ_iff.2 ⟨_, hturns, ?_⟩⟩
    rw [hturn]
    exact onRecall_eq_ok.2 ⟨answer', hrecall, hstatus, decide_eq_false hmixed, rfl⟩

theorem run_eq (h : cfg.useRouter ∨ cfg.mcpClient) : cfg.run rounds first base =
    loop (cfg.turn rounds) (fun p => .returned p.result p.iteration) cfg.maxIterations
      ⟨0, first, base⟩ := by
  have : (!cfg.useRouter && !cfg.mcpClient) = false := by
    obtain h | h := h <;> simp [h]
  simp [run, this]

theorem run_of_not (h : ¬ (cfg.useRouter ∨ cfg.mcpClient)) :
    cfg.run rounds first base = ([], .raised) := by
  have : (!cfg.useRouter && !cfg.mcpClient) = true := by simpa using h
  simp [run, this]

/-- What the loop does is what one of its turns does. -/
theorem mem_run : output ∈ (cfg.run rounds first base).1 ↔
    (cfg.useRouter ∨ cfg.mcpClient) ∧ ∃ k < cfg.maxIterations, ∃ p,
      Turns (cfg.turn rounds) k ⟨0, first, base⟩ p ∧ output ∈ (cfg.turn rounds p).outputs := by
  by_cases havailable : cfg.useRouter ∨ cfg.mcpClient
  · rw [run_eq havailable, mem_loop]
    exact (and_iff_right havailable).symm
  · simp [run_of_not havailable, havailable]

/-- The calls the loop makes: those of the gateway's in the messages it acts on, up to one that
raises. -/
theorem mem_run_dispatched : .dispatched d ∈ (cfg.run rounds first base).1 ↔
    ∃ k message, cfg.ActsAt rounds first k message ∧ ∃ i tc,
      (cfg.ownCalls message.toolCalls)[i]? = some tc ∧
      cfg.Completes (rounds k) k 0 ((cfg.ownCalls message.toolCalls).take i) ∧
      d = cfg.dispatch (rounds k) i tc := by
  rw [mem_run]
  constructor
  · rintro ⟨havailable, k, hk, p, hturns, hmem⟩
    obtain ⟨rfl, hanswer⟩ := answerAt_of_turns hturns
    obtain ⟨message, hacts, hmem⟩ := mem_turn_dispatched.1 hmem
    obtain ⟨i, tc, htc, hbefore, rfl⟩ := mem_runCalls.1 hmem
    exact ⟨p.iteration, message, ⟨havailable, hk, _, hanswer, hacts⟩, i, tc, htc, hbefore,
      by rw [Nat.zero_add]⟩
  · rintro ⟨k, message, ⟨havailable, hk, answer, hanswer, hacts⟩, i, tc, htc, hbefore, rfl⟩
    obtain ⟨messages, hturns⟩ := exists_turns base hanswer
    refine ⟨havailable, k, hk, _, hturns, mem_turn_dispatched.2 ⟨message, hacts, ?_⟩⟩
    exact mem_runCalls.2 ⟨i, tc, htc, hbefore, by rw [Nat.zero_add]⟩

end McpToolLoop

/-! ## Answered tool calls -/

/-- The ids that the tool messages at the head of the list answer. -/
def repliesAtHead : List LoopMessage → List Json
  | .tool toolCallId _ :: rest => toolCallId :: repliesAtHead rest
  | _ => []

def LoopMessage.callIds : LoopMessage → List Json
  | .assistant message => message.toolCalls.map (·.callId)
  | _ => []

/-- Each id of an assistant message's tool calls is answered by exactly one of the tool messages
directly after it. -/
def WellAnswered : List LoopMessage → Prop
  | [] => True
  | message :: rest =>
    (∀ id ∈ message.callIds, (repliesAtHead rest).count id = 1) ∧ WellAnswered rest

instance WellAnswered.decidable : DecidablePred WellAnswered
  | [] => .isTrue trivial
  | _ :: rest => @instDecidableAnd _ _ inferInstance (WellAnswered.decidable rest)

/-- Each id in the message is that of exactly one call that the gateway runs. -/
def McpToolLoop.AnswersEachId (cfg : McpToolLoop) (message : AssistantMessage) : Prop :=
  ∀ id ∈ message.toolCalls.map (·.callId),
    ((cfg.ownCalls message.toolCalls).map (·.callId)).count id = 1

section
variable {l l' toolMessages : List LoopMessage} {toolCalls : List FunctionCall}
  {message : AssistantMessage}

theorem repliesAtHead_append (h : repliesAtHead l' = []) :
    repliesAtHead (l ++ l') = repliesAtHead l := by
  induction l with
  | nil => exact h
  | cons message rest ih =>
    cases message with
    | tool toolCallId content => simp only [List.cons_append, repliesAtHead, ih]
    | assistant _ | other _ _ => rfl

theorem wellAnswered_append (h : repliesAtHead l' = []) :
    WellAnswered (l ++ l') ↔ WellAnswered l ∧ WellAnswered l' := by
  induction l with
  | nil => exact (and_iff_right trivial).symm
  | cons message rest ih =>
    simp only [List.cons_append, WellAnswered, repliesAtHead_append h, ih, and_assoc]

theorem repliesAtHead_eq (h : List.Forall₂ McpToolLoop.IsReplyTo toolCalls toolMessages) :
    repliesAtHead toolMessages = toolCalls.map (·.callId) := by
  induction h with
  | nil => rfl
  | cons hreply _ ih =>
    obtain ⟨content, rfl⟩ := hreply
    simp only [repliesAtHead, ih, List.map_cons]

theorem wellAnswered_replies (h : List.Forall₂ McpToolLoop.IsReplyTo toolCalls toolMessages) :
    WellAnswered toolMessages := by
  induction h with
  | nil => trivial
  | cons hreply _ ih =>
    obtain ⟨content, rfl⟩ := hreply
    exact ⟨by simp [LoopMessage.callIds], ih⟩

/-- What a turn appends to a list. -/
theorem wellAnswered_extended {cfg : McpToolLoop}
    (h : List.Forall₂ McpToolLoop.IsReplyTo (cfg.ownCalls message.toolCalls) toolMessages) :
    WellAnswered (l ++ .assistant message :: toolMessages) ↔
      WellAnswered l ∧ cfg.AnswersEachId message := by
  have hblock : WellAnswered (.assistant message :: toolMessages) ↔ cfg.AnswersEachId message := by
    simp only [WellAnswered, wellAnswered_replies h, and_true, repliesAtHead_eq h]
    rfl
  rw [wellAnswered_append rfl, hblock]

end

def LoopOutput.sent? : LoopOutput → Option (List LoopMessage)
  | sent messages => some messages
  | _ => none

theorem LoopOutput.sent?_eq_some {output : LoopOutput} {messages : List LoopMessage} :
    output.sent? = some messages ↔ output = .sent messages := by
  cases output <;> simp [sent?]

namespace McpToolLoop

/-- The message lists of a run. -/
def sentLists (outputs : List LoopOutput) : List (List LoopMessage) :=
  outputs.filterMap LoopOutput.sent?

variable {cfg : McpToolLoop} {rounds : Nat → LoopRound} {first answer : LoopAnswer}
  {message : AssistantMessage} {p : LoopPoint} {k : Nat} {base messages : List LoopMessage}
  {outputs : List LoopOutput}

theorem mem_sentLists : messages ∈ sentLists outputs ↔ .sent messages ∈ outputs := by
  simp only [sentLists, List.mem_filterMap, LoopOutput.sent?_eq_some, exists_eq_right]

theorem countP_sent_turn_le : (cfg.turn rounds p).outputs.countP (·.sent?.isSome) ≤ 1 := by
  have hcalls : ∀ {round : LoopRound} {iteration : Nat} {toolCalls : List FunctionCall},
      (cfg.runCalls round iteration 0 toolCalls).1.countP (·.sent?.isSome) = 0 := by
    intro round iteration toolCalls
    refine List.countP_eq_zero.2 fun output hmem hsent => ?_
    obtain ⟨messages, hmessages⟩ := Option.isSome_iff_exists.1 hsent
    rw [LoopOutput.sent?_eq_some] at hmessages
    exact sent_not_mem_runCalls (hmessages ▸ hmem)
  by_cases hacts : ∃ message, cfg.ActsOn p.result message
  · obtain ⟨message, hacts⟩ := hacts
    by_cases hcompletes : cfg.Completes (rounds p.iteration) p.iteration 0
        (cfg.ownCalls message.toolCalls)
    · obtain ⟨toolMessages, _, hturn⟩ := turn_of_completes hacts hcompletes
      rw [hturn, List.countP_append, hcalls]
      rfl
    · simp [turn_of_not_completes hacts hcompletes, hcalls]
  · simp [(turn_of_not_actsOn (not_exists.1 hacts)).1]

theorem length_sentLists_le :
    (sentLists (cfg.run rounds first base).1).length ≤ cfg.maxIterations := by
  rw [sentLists, List.length_filterMap_eq_countP]
  by_cases havailable : cfg.useRouter ∨ cfg.mcpClient
  · rw [run_eq havailable]
    simpa using countP_loop_le (c := 1) fun _ => countP_sent_turn_le
  · simp [run_of_not havailable]

/-- The `k`th turn asks the model again, about this message. -/
structure RecallsAt (cfg : McpToolLoop) (rounds : Nat → LoopRound) (first : LoopAnswer) (k : Nat)
    (message : AssistantMessage) : Prop extends cfg.ActsAt rounds first k message where
  completes : cfg.Completes (rounds k) k 0 (cfg.ownCalls message.toolCalls)

/-- What a point's messages are made of. -/
theorem messages_of_turns (h : Turns (cfg.turn rounds) k ⟨0, first, base⟩ p) :
    (∃ l, p.messages = base ++ l ∧ repliesAtHead l = []) ∧
      (WellAnswered base → (∀ j < k, ∀ answer message, cfg.AnswerAt rounds first j answer →
        cfg.ActsOn answer message →
        cfg.Completes (rounds j) j 0 (cfg.ownCalls message.toolCalls) →
        cfg.AnswersEachId message) → WellAnswered p.messages) := by
  induction k generalizing p with
  | zero =>
    cases h
    exact ⟨⟨[], (List.append_nil _).symm, rfl⟩, fun h _ => h⟩
  | succ k ih =>
    obtain ⟨p', hturns, hafter⟩ := turns_succ_iff.1 h
    obtain ⟨⟨l, hl, hhead⟩, hwell⟩ := ih hturns
    obtain ⟨rfl, hanswer⟩ := answerAt_of_turns hturns
    obtain ⟨message, toolMessages, hacts, hcompletes, hreplies, _, _, _, _, hmessages⟩ :=
      exists_of_after_eq_ok hafter
    rw [hmessages]
    constructor
    · refine ⟨l ++ .assistant message :: toolMessages, by rw [hl, List.append_assoc], ?_⟩
      rwa [repliesAtHead_append rfl]
    · intro hbase heach
      rw [wellAnswered_extended hreplies]
      exact ⟨hwell hbase fun j hj => heach j (Nat.lt_succ_of_lt hj),
        heach _ (Nat.lt_succ_self _) _ _ hanswer hacts hcompletes⟩

/-- Every list that the loop sends is well answered if and only if no list is sent, or the request's
own is and each id of a message acted on is that of exactly one call the gateway runs. There are
at most the configured number of calls of the model. -/
theorem toolLoop_wellAnswered_iff (cfg : McpToolLoop) (rounds : Nat → LoopRound)
    (first : LoopAnswer) (base : List LoopMessage) :
    ((∀ messages ∈ sentLists (cfg.run rounds first base).1, WellAnswered messages) ↔
      ∀ k message, cfg.RecallsAt rounds first k message →
        WellAnswered base ∧ cfg.AnswersEachId message) ∧
    (sentLists (cfg.run rounds first base).1).length ≤ cfg.maxIterations := by
  refine ⟨⟨fun hsent k message hrecalls => ?_, fun hrecalls messages hmem => ?_⟩,
    length_sentLists_le⟩
  · obtain ⟨answer, hanswer, hacts⟩ := hrecalls.acts
    obtain ⟨messages, hturns⟩ := exists_turns base hanswer
    obtain ⟨toolMessages, hreplies, hturn⟩ :=
      turn_of_completes (p := ⟨k, answer, messages⟩) hacts hrecalls.completes
    have hmem : .sent (messages ++ .assistant message :: toolMessages) ∈
        (cfg.run rounds first base).1 :=
      mem_run.2 ⟨hrecalls.available, k, hrecalls.bounded, _, hturns, by simp [hturn]⟩
    have hwell := hsent _ (mem_sentLists.2 hmem)
    rw [wellAnswered_extended hreplies] at hwell
    obtain ⟨⟨l, hl, hhead⟩, _⟩ := messages_of_turns hturns
    rw [show messages = base ++ l from hl, wellAnswered_append hhead] at hwell
    exact ⟨hwell.1.1, hwell.2⟩
  · obtain ⟨havailable, k, hk, p, hturns, hmem⟩ := mem_run.1 (mem_sentLists.1 hmem)
    obtain ⟨message, toolMessages, hacts, hcompletes, hreplies, rfl⟩ := exists_of_sent hmem
    obtain ⟨rfl, hanswer⟩ := answerAt_of_turns hturns
    have hlast := hrecalls _ message ⟨⟨havailable, hk, _, hanswer, hacts⟩, hcompletes⟩
    rw [wellAnswered_extended hreplies]
    refine ⟨(messages_of_turns hturns).2 hlast.1 ?_, hlast.2⟩
    intro j hj answer message' hanswer' hacts' hcompletes'
    exact (hrecalls j message' ⟨⟨havailable, hj.trans hk, answer, hanswer', hacts'⟩,
      hcompletes'⟩).2

/-- A call for the client is left without a reply. -/
theorem mixed_answer_unanswered :
    ∃ (cfg : McpToolLoop) (rounds : Nat → LoopRound) (first : LoopAnswer),
      ∃ messages ∈ sentLists (cfg.run rounds first [.other "user" "compare"]).1,
        ¬ WellAnswered messages := by
  let cfg : McpToolLoop := ⟨fun _ => false, fun _ => none, false, true, none, 5⟩
  let own : FunctionCall := ⟨some (.string "a"), .string "mcp.fs.read", none⟩
  let foreign : FunctionCall := ⟨some (.string "b"), .string "lookup", none⟩
  let result : McpCallOutcome := .result ⟨"text", false, none⟩
  let done : LoopAnswer := ⟨200, [⟨.string "done", []⟩], none⟩
  let rounds : Nat → LoopRound := fun _ => ⟨fun _ => ⟨[], .raised⟩, fun _ => (result, 1), some done⟩
  exact ⟨cfg, rounds, ⟨200, [⟨.null, [own, foreign]⟩], none⟩, by decide⟩

end McpToolLoop

end LlmPort.Gateway
