import LlmPort.Gateway.RequestRun

/-!
# What reaches a remote provider

Under a policy that scans the egress to the cloud and blocks when the scan fails, the texts that a
remote provider receives are those that the PII service returned. The tool loop appends the model's
answers and the results of the tools to them.
-/

namespace LlmPort.Gateway

open Pii Transition

/-- The egress to cloud providers is scanned, and blocked when that fails. -/
def PIIPolicy.blocksEgress (policy : PIIPolicy) : Bool :=
  policy.egress.enabledForCloud && policy.egress.failAction = .block

/-- The PII service returned the text, or it is a prompt of the gateway. -/
def TextSource.isClean : TextSource → Bool
  | sanitized | gateway => true
  | _ => false

/-- What the tool loop appends to the conversation. -/
def TextSource.isAppended : TextSource → Bool
  | model | toolResult => true
  | _ => false

def UpstreamCall.mayCarry (call : UpstreamCall) (source : TextSource) : Bool :=
  source.isClean || call.inLoop && source.isAppended

namespace RequestRun

/-- No call of a remote provider carries a raw text, under a policy that blocks the egress; the
texts that the tool loop appends are not considered. -/
def NoRawEgress (q : RequestRun) : Prop :=
  ∀ policy, q.piiPolicy = some policy → policy.blocksEgress →
    ∀ call ∈ q.upstreamCalls, call.candidate.providerType.isRemote →
      ∀ m ∈ call.messages, call.mayCarry m.source

/-- Where the policy blocks the egress and the decision is remote, the sources meet `p`. -/
def Covers (p : TextSource → Bool) (messages : List Message) (q : RequestRun) : Prop :=
  ∀ policy d, q.piiPolicy = some policy → policy.blocksEgress → q.decision = some d →
    d.isCloudProvider → ∀ m ∈ messages, p m.source

/-- The payload may be sent. -/
structure Cleared (q : RequestRun) : Prop where
  calls : NoRawEgress q
  payload : Covers TextSource.isClean q.egressPayload q

/-- The conversation of the tool loop may be sent. -/
structure LoopCleared (messages : List Message) (q : RequestRun) : Prop where
  calls : NoRawEgress q
  messages : Covers (fun source => source.isClean || source.isAppended) messages q

/-- The policy is not one that blocks the egress. -/
def Open (q : RequestRun) : Prop :=
  ∀ policy, q.piiPolicy = some policy → policy.blocksEgress = false

/-- What holds of the texts where the request waits at the point. -/
def ShieldedAt (q : RequestRun) : Point → Prop
  | .tenantPolicy | .limits | .candidates | .pick | .rag | .session | .skills | .override =>
    q.upstreamCalls = []
  | .fallbackRelease _ | .fallbackPick | .localEgress => Open q
  | .telemetry | .mcpTools | .calling _ | .completion _ => Cleared q
  | .toolCall loop | .recalling loop | .recallCompletion loop => LoopCleared loop.messages q
  | _ => NoRawEgress q

def Shielded (q : RequestRun) : Prop := ShieldedAt q q.point

variable {cfg : GatewayConfig} {q : RequestRun} {e : RequestEvent}

theorem noRawEgress_nil (h : q.upstreamCalls = []) : NoRawEgress q := by
  intro policy _ _ call hc
  rw [h] at hc
  cases hc

theorem Open.noRawEgress (h : Open q) : NoRawEgress q := by
  intro policy hp hb
  rw [h policy hp] at hb
  cases hb

theorem Open.covers (h : Open q) (p : TextSource → Bool) (messages : List Message) :
    Covers p messages q := by
  intro policy d hp hb
  rw [h policy hp] at hb
  cases hb

theorem Open.cleared (h : Open q) : Cleared q := ⟨h.noRawEgress, h.covers _ _⟩

theorem Shielded.noRawEgress (h : Shielded q) : NoRawEgress q := by
  unfold Shielded ShieldedAt at h
  split at h
  case h_1 | h_2 | h_3 | h_4 | h_5 | h_6 | h_7 | h_8 => exact noRawEgress_nil h
  case h_9 | h_10 | h_11 => exact h.noRawEgress
  case h_12 | h_13 | h_14 | h_15 => exact h.calls
  case h_16 | h_17 | h_18 => exact h.calls
  case h_19 => exact h

theorem shielded_initial (request : RouteRequest) : Shielded (initial request) := rfl

/-! ## The ends -/

theorem NoRawEgress.enterAudit (h : NoRawEgress q) : Shielded q.enterAudit := by
  unfold RequestRun.enterAudit
  split
  · exact h
  · exact h

theorem NoRawEgress.enterFinally (h : NoRawEgress q) : Shielded q.enterFinally := by
  unfold RequestRun.enterFinally
  split
  · exact h
  · exact h.enterAudit

theorem NoRawEgress.fail (h : NoRawEgress q) (e : Raised) : Shielded (q.fail e) := by
  unfold RequestRun.fail
  split
  · exact NoRawEgress.enterFinally h
  · exact h.enterFinally

theorem NoRawEgress.failFallback (h : NoRawEgress q) (e : Raised) :
    Shielded (q.failFallback e) := by
  unfold RequestRun.failFallback
  split
  · refine NoRawEgress.fail ?_ _
    exact h
  · exact h.fail e

theorem NoRawEgress.released? {α : Type} (h : NoRawEgress q) (lease : Nat) (r : Outcome α) :
    NoRawEgress (q.released? lease r) := by
  unfold RequestRun.released?
  split
  · exact h
  · exact h

theorem NoRawEgress.audited? {α : Type} (h : NoRawEgress q) (r : Outcome α) :
    NoRawEgress (q.audited? r) := by
  unfold RequestRun.audited?
  split
  · exact h
  · exact h

theorem NoRawEgress.streamAfterSkills (h : NoRawEgress q) : Shielded q.streamAfterSkills := by
  unfold RequestRun.streamAfterSkills
  split
  · exact h
  · exact h

theorem NoRawEgress.streamAfterPersist (h : NoRawEgress q) : Shielded q.streamAfterPersist := by
  unfold RequestRun.streamAfterPersist
  split
  · exact h
  · exact h.streamAfterSkills

theorem NoRawEgress.finalize (h : NoRawEgress q) : Shielded q.finalize := by
  unfold RequestRun.finalize
  split
  · exact h
  · exact h.streamAfterPersist

/-! ## Before the first call of the adapter -/

theorem mem_insertAfterSystem {new messages : List Message} {m : Message} :
    m ∈ insertAfterSystem new messages ↔ m ∈ new ∨ m ∈ messages := by
  have hsplit : m ∈ messages ↔ m ∈ messages.takeWhile (·.role = "system") ∨
      m ∈ messages.dropWhile (·.role = "system") := by
    rw [← List.mem_append, List.takeWhile_append_dropWhile]
  rw [insertAfterSystem, List.mem_append, List.mem_append, hsplit]
  tauto

theorem Cleared.injectDatetime (h : Cleared q) : Cleared q.injectDatetime := by
  unfold RequestRun.injectDatetime
  split
  · refine ⟨h.calls, fun policy d hp hb hd hr m hm => ?_⟩
    rcases List.mem_cons.1 hm with rfl | hm
    · rfl
    · exact h.payload policy d hp hb hd hr m hm
  · exact h

theorem Cleared.injectPiiPrompt (h : Cleared q) (policy : PIIPolicy) :
    Cleared (q.injectPiiPrompt policy) := by
  unfold RequestRun.injectPiiPrompt
  split
  · refine ⟨h.calls, fun policy d hp hb hd hr m hm => ?_⟩
    rcases mem_insertAfterSystem.1 hm with hm | hm
    · rw [List.mem_singleton.1 hm]
      rfl
    · exact h.payload policy d hp hb hd hr m hm
  · exact h

theorem Cleared.afterTelemetry (h : Cleared q) : Shielded (q.afterTelemetry cfg) := by
  have hq := h.injectDatetime
  unfold RequestRun.afterTelemetry
  dsimp only
  split
  · exact ⟨hq.calls, hq.payload⟩
  · exact ⟨hq.calls, hq.payload⟩

theorem Cleared.afterEgress (h : Cleared q) : Shielded (q.afterEgress cfg) := by
  unfold RequestRun.afterEgress
  split
  next => exact h.afterTelemetry
  next policy _ =>
    have hq := h.injectPiiPrompt policy
    dsimp only
    split
    · exact ⟨hq.calls, hq.payload⟩
    · exact hq.afterTelemetry

/-- A remote decision is scanned under a policy that blocks the egress. -/
theorem shouldScan_of_blocksEgress {policy : PIIPolicy} (h : policy.blocksEgress) :
    shouldScan policy true := by
  simp only [PIIPolicy.blocksEgress, Bool.and_eq_true] at h
  rw [shouldScan, if_pos rfl]
  exact h.1

theorem shielded_afterOverride (hc : cfg.piiClient) (hu : q.upstreamCalls = [])
    (sessionOverride : Option SessionPIIOverride) :
    Shielded (q.afterOverride cfg sessionOverride) := by
  unfold RequestRun.afterOverride
  dsimp only
  split
  next policy d hp hd =>
    split
    next => exact noRawEgress_nil hu
    next hscan =>
      refine Cleared.afterEgress ⟨noRawEgress_nil hu, fun policy' d' hp' hb hd' hr => ?_⟩
      -- the decision is not remote, or the policy does not scan the egress to the cloud
      obtain rfl : policy = policy' := Option.some.inj (hp.symm.trans hp')
      obtain rfl : d = d' := Option.some.inj (hd.symm.trans hd')
      exact (hscan ⟨hc, by rw [hr]; exact shouldScan_of_blocksEgress hb⟩).elim
  next hno =>
    refine Cleared.afterEgress ⟨noRawEgress_nil hu, fun policy d hp _ hd => ?_⟩
    exact (hno policy d hp hd).elim

theorem shielded_afterSkills (hc : cfg.piiClient) (hu : q.upstreamCalls = []) :
    Shielded (q.afterSkills cfg) := by
  unfold RequestRun.afterSkills
  split
  · exact hu
  · exact shielded_afterOverride hc hu none

theorem shielded_afterRag (hc : cfg.piiClient) (hu : q.upstreamCalls = []) :
    Shielded (q.afterRag cfg) := by
  unfold RequestRun.afterRag
  split
  · exact hu
  · exact shielded_afterSkills hc hu

theorem open_of_failAction {policy : PIIPolicy} (hp : q.piiPolicy = some policy)
    (hf : policy.egress.failAction ≠ .block) : Open q := by
  intro policy' hp'
  obtain rfl : policy = policy' := Option.some.inj (hp.symm.trans hp')
  simp [PIIPolicy.blocksEgress, hf]

theorem NoRawEgress.onSanitized {policy : PIIPolicy} (h : NoRawEgress q)
    (hp : q.piiPolicy = some policy) (isCloud : Bool)
    (r : Outcome (List (String × String) × Bool)) :
    Shielded (q.onSanitized cfg policy isCloud r) := by
  unfold RequestRun.onSanitized
  split
  next =>
    refine Cleared.afterEgress ⟨h, fun _ _ _ _ _ _ m hm => ?_⟩
    obtain ⟨_, _, rfl⟩ := List.mem_map.1 hm
    rfl
  next => exact h.fail _
  next =>
    split
    next => exact h.fail _
    next hf _ => exact open_of_failAction (q := { q with decision := none }) hp (by rw [hf]; nofun)
    next hf _ => exact (open_of_failAction hp hf).cleared.afterEgress

/-! ## The fallback -/

theorem Open.pickLocal (h : Open q) : Shielded q.pickLocal := by
  unfold RequestRun.pickLocal
  split
  · exact h.noRawEgress.failFallback _
  · exact h

theorem Open.afterFallback (h : Open q) : Shielded (q.afterFallback cfg) := by
  unfold RequestRun.afterFallback
  split
  · split
    · exact h
    · exact h.cleared.afterEgress
  · exact h.cleared.afterEgress

/-! ## The calls of the adapter -/

/-- A call whose messages may be sent. -/
theorem NoRawEgress.callUpstream {messages : List Message} {inLoop : Bool} (h : NoRawEgress q)
    (hm : Covers (fun source => source.isClean || inLoop && source.isAppended) messages q)
    (stream : Bool) : NoRawEgress (q.callUpstream messages stream inLoop) := by
  unfold RequestRun.callUpstream
  split
  next d hd =>
    intro policy hp hb call hcall hr
    rcases List.mem_append.1 hcall with hcall | hcall
    · exact h policy hp hb call hcall hr
    · rw [List.mem_singleton.1 hcall] at hr ⊢
      exact hm policy d hp hb hd hr
  next => exact h

theorem callUpstream_piiPolicy (messages : List Message) (stream inLoop : Bool) :
    (q.callUpstream messages stream inLoop).piiPolicy = q.piiPolicy := by
  unfold RequestRun.callUpstream
  split <;> rfl

theorem callUpstream_decision (messages : List Message) (stream inLoop : Bool) :
    (q.callUpstream messages stream inLoop).decision = q.decision := by
  unfold RequestRun.callUpstream
  split <;> rfl

theorem callUpstream_egressPayload (messages : List Message) (stream inLoop : Bool) :
    (q.callUpstream messages stream inLoop).egressPayload = q.egressPayload := by
  unfold RequestRun.callUpstream
  split <;> rfl

theorem Covers.callUpstream {p : TextSource → Bool} {messages : List Message}
    (h : Covers p messages q)
    (sent : List Message) (stream inLoop : Bool) :
    Covers p messages (q.callUpstream sent stream inLoop) := by
  unfold Covers
  rw [callUpstream_piiPolicy, callUpstream_decision]
  exact h

theorem Cleared.call (h : Cleared q) (stream : Bool) :
    Cleared (q.callUpstream q.egressPayload stream false) := by
  refine ⟨h.calls.callUpstream ?_ stream, ?_⟩
  · simpa only [Bool.false_and, Bool.or_false] using h.payload
  · rw [callUpstream_egressPayload]
    exact h.payload.callUpstream _ _ _

theorem LoopCleared.call {messages : List Message} (h : LoopCleared messages q) :
    LoopCleared messages (q.callUpstream messages false true) := by
  refine ⟨h.calls.callUpstream ?_ false, h.messages.callUpstream _ _ _⟩
  simpa only [Bool.true_and] using h.messages

theorem NoRawEgress.afterAnswer (h : NoRawEgress q) : Shielded (q.afterAnswer cfg) := by
  unfold RequestRun.afterAnswer
  split
  · exact h
  · exact h

theorem NoRawEgress.afterLoop (h : NoRawEgress q) : Shielded (q.afterLoop cfg) := by
  unfold RequestRun.afterLoop
  split
  · exact h
  · exact h.afterAnswer

/-- The tool loop appends a text of its own. -/
theorem LoopCleared.append {messages : List Message} {m : Message} (h : LoopCleared messages q)
    (hm : m.source.isAppended) : LoopCleared (messages ++ [m]) q := by
  refine ⟨h.calls, fun policy d hp hb hd hr m' hm' => ?_⟩
  rcases List.mem_append.1 hm' with hm' | hm'
  · exact h.messages policy d hp hb hd hr m' hm'
  · rw [List.mem_singleton.1 hm']
    exact Bool.or_eq_true_iff.2 (.inr hm)

theorem LoopCleared.loopHead {messages : List Message} (h : LoopCleared messages q)
    (iteration : Nat)
    (answer : Answer) : Shielded (q.loopHead cfg iteration answer messages) := by
  unfold RequestRun.loopHead
  dsimp only
  split
  next => exact h.calls.afterLoop
  next =>
    have happ := h.append (m := ⟨"assistant", answer.content, answer.toolCalls, none, .model⟩) rfl
    exact ⟨happ.calls, happ.messages⟩

theorem Cleared.loop (h : Cleared q) : LoopCleared q.egressPayload q := by
  refine ⟨h.calls, fun policy d hp hb hd hr m hm => ?_⟩
  exact Bool.or_eq_true_iff.2 (.inl (h.payload policy d hp hb hd hr m hm))

theorem Cleared.startLoop (h : Cleared q) (answer : Answer) :
    Shielded (q.startLoop cfg answer) := by
  unfold RequestRun.startLoop
  split
  · exact h.loop.loopHead 0 answer
  · exact h.calls.fail _

theorem Cleared.onAnswer (h : Cleared q) (attempt : Nat) (r : Outcome Answer) :
    Shielded (q.onAnswer cfg attempt r) := by
  unfold RequestRun.onAnswer
  split
  next =>
    split
    next => exact h.calls.fail _
    next answer =>
      split
      next =>
        split
        next => exact h.calls.fail _
        next => exact h.startLoop answer
      next => exact h.calls
  next =>
    split
    next => exact h.calls.fail _
    next =>
      split
      next => exact h.calls.fail _
      next => exact ⟨h.calls, h.payload⟩
    next answer =>
      have hq : Cleared { q with statusCode := answer.statusCode } := ⟨h.calls, h.payload⟩
      dsimp only
      split
      next => exact hq.startLoop answer
      next => exact hq.calls.afterAnswer

theorem LoopCleared.appendResult {loop : ToolLoop} (h : LoopCleared loop.messages q) (tc : ToolCall)
    (todo : List ToolCall) (content : String) : Shielded (q.appendResult loop tc todo content) := by
  have happ := h.append (m := ⟨"tool", content, [], some tc.id, .toolResult⟩) rfl
  unfold RequestRun.appendResult
  dsimp only
  split
  · exact ⟨happ.calls, happ.messages⟩
  · exact ⟨happ.calls, happ.messages⟩

theorem LoopCleared.onToolResult {loop : ToolLoop} (h : LoopCleared loop.messages q)
    (hp : q.point = .toolCall loop) (r : Outcome String) :
    Shielded (q.onToolResult cfg loop r) := by
  unfold RequestRun.onToolResult
  split
  next =>
    unfold Shielded
    rw [hp]
    exact h
  next => exact h.appendResult _ _ _
  next =>
    split
    next => exact h.calls.fail _
    next => exact h.appendResult _ _ _

theorem LoopCleared.onRecall {loop : ToolLoop} (h : LoopCleared loop.messages q)
    (r : Outcome Answer) :
    Shielded (q.onRecall cfg loop r) := by
  unfold RequestRun.onRecall
  split
  next => exact h.calls.fail _
  next answer =>
    split
    next => exact h.calls.fail _
    next =>
      split
      next => exact h.calls.afterLoop
      next => exact h.loopHead _ _

/-! ## Every step -/

theorem Shielded.at {p : Point} (h : Shielded q) (hp : q.point = p) : ShieldedAt q p := by
  subst hp
  exact h

theorem Shielded.step (hc : cfg.piiClient) (h : Shielded q) : Shielded (q.step cfg e) := by
  have hraw := h.noRawEgress
  cases e with
  | tenantPolicy r =>
    simp only [RequestRun.step]
    split
    next hp =>
      have hu : q.upstreamCalls = [] := h.at hp
      exact hu
    next => exact hraw
    next => exact h
  | limits r =>
    simp only [RequestRun.step]
    split
    next hp =>
      have hu : q.upstreamCalls = [] := h.at hp
      exact hu
    next => exact hraw
    next => exact h
  | candidates r =>
    simp only [RequestRun.step]
    split
    next hp =>
      have hu : q.upstreamCalls = [] := h.at hp
      exact hu
    next => exact hraw
    next => exact h
  | picked r =>
    simp only [RequestRun.step]
    split
    next i hp =>
      have hu : q.upstreamCalls = [] := h.at hp
      split
      next => exact hu
      next => exact h
    next => exact hraw
    next i hp =>
      have hopen : Open q := h.at hp
      split
      next => exact Open.afterFallback hopen
      next => exact h
    next =>
      split
      all_goals
        refine NoRawEgress.failFallback ?_ _
        exact hraw
    next => exact h
  | rag r =>
    simp only [RequestRun.step]
    split
    next hp =>
      have hu : q.upstreamCalls = [] := h.at hp
      exact shielded_afterRag hc hu
    next hp =>
      have hu : q.upstreamCalls = [] := h.at hp
      exact shielded_afterRag hc hu
    next e _ _ => exact hraw.fail e
    next => exact h
  | session r =>
    simp only [RequestRun.step]
    split
    next hp =>
      have hu : q.upstreamCalls = [] := h.at hp
      exact hu
    next hp =>
      have hu : q.upstreamCalls = [] := h.at hp
      exact hu
    next e _ _ => exact hraw.fail e
    next => exact h
  | skills r =>
    simp only [RequestRun.step]
    split
    next hp =>
      have hu : q.upstreamCalls = [] := h.at hp
      exact shielded_afterSkills hc hu
    next e _ _ => exact hraw.fail e
    next => exact h
  | override r =>
    simp only [RequestRun.step]
    split
    next hp =>
      have hu : q.upstreamCalls = [] := h.at hp
      exact shielded_afterOverride hc hu _
    next e _ _ => exact hraw.fail e
    next => exact h
  | sanitized r =>
    simp only [RequestRun.step]
    split
    next hpolicy _ => exact hraw.onSanitized hpolicy _ r
    next hpolicy => exact hraw.onSanitized hpolicy _ r
    next => exact h
  | released r =>
    simp only [RequestRun.step]
    split
    next d hp =>
      have hopen : Open q := h.at hp
      exact Open.pickLocal hopen
    next d e _ _ =>
      refine NoRawEgress.failFallback ?_ e
      exact hraw.released? _ _
    next d _ =>
      apply NoRawEgress.enterAudit
      exact hraw.released? _ _
    next d _ _ _ => exact hraw.released? _ _
    next d _ => exact hraw.released? _ _
    next d _ _ _ => exact hraw.released? _ _
    next => exact h
  | telemetry r =>
    simp only [RequestRun.step]
    split
    next => exact hraw.fail _
    next hp _ =>
      have hq : Cleared q := h.at hp
      exact hq.afterTelemetry
    next => exact h
  | mcpTools r =>
    simp only [RequestRun.step]
    split
    next hp =>
      have hq : Cleared q := h.at hp
      exact ⟨hq.calls, hq.payload⟩
    next e _ _ => exact hraw.fail e
    next => exact h
  | call =>
    simp only [RequestRun.step]
    split
    next hp =>
      have hq : Cleared q := h.at hp
      have hcall := hq.call (q.kind = .stream ∧ ¬ q.viaTools cfg)
      exact ⟨hcall.calls, hcall.payload⟩
    next loop hp =>
      have hq : LoopCleared loop.messages q := h.at hp
      exact ⟨hq.call.calls, hq.call.messages⟩
    next => exact h
  | answered r =>
    simp only [RequestRun.step]
    split
    next hp =>
      have hq : Cleared q := h.at hp
      exact hq.onAnswer _ r
    next loop hp =>
      have hq : LoopCleared loop.messages q := h.at hp
      exact hq.onRecall r
    next => exact h
  | toolResult r =>
    simp only [RequestRun.step]
    split
    next loop hp =>
      have hq : LoopCleared loop.messages q := h.at hp
      exact hq.onToolResult hp r
    next => exact h
  | detokenized r =>
    simp only [RequestRun.step]
    split
    next => exact hraw.fail _
    next => exact hraw
    next => exact h
  | persisted r =>
    simp only [RequestRun.step]
    split
    next => exact hraw
    next e _ _ => exact hraw.fail e
    next => exact hraw
    next => exact hraw.streamAfterPersist
    next => exact h
  | skillsRecorded r =>
    simp only [RequestRun.step]
    split
    next => exact hraw.enterFinally
    next e _ _ => exact hraw.fail e
    next => exact hraw
    next => exact hraw.streamAfterSkills
    next => exact h
  | audited r =>
    simp only [RequestRun.step]
    split
    next => exact hraw.audited? r
    next => exact hraw.audited? r
    next => exact h
  | start =>
    simp only [RequestRun.step]
    split
    next => exact hraw
    next => exact h
  | drop =>
    simp only [RequestRun.step]
    split
    next => exact hraw
    next => exact h
  | chunk r =>
    simp only [RequestRun.step]
    split
    next => exact hraw
    next => exact hraw.finalize
    next => exact hraw.finalize
    next => exact hraw
    next => exact h
  | resume =>
    simp only [RequestRun.step]
    split
    next => exact hraw
    next => exact hraw.finalize
    next => exact h
  | close =>
    simp only [RequestRun.step]
    split
    next => exact hraw.finalize
    next => exact hraw.finalize
    next => exact h

/-- With the PII client at hand, no run sends a raw text to a remote provider under a policy that
blocks the egress. -/
theorem noRawEgress_run (cfg : GatewayConfig) (hc : cfg.piiClient) (request : RouteRequest)
    (es : List RequestEvent) : NoRawEgress (run (step cfg) (initial request) es) := by
  have hrun : Shielded (run (step cfg) (initial request) es) :=
    run_invariant (fun _ _ h => h.step hc) (shielded_initial request)
  exact hrun.noRawEgress

/-- The egress to the cloud is redacted or blocked, and nothing else is scanned. -/
def blockPolicy : PIIPolicy :=
  ⟨⟨false, "sanitized", false⟩, ⟨true, false, .redact, .block⟩, ⟨"en", 0, []⟩⟩

/-- A chat request that is routed to a remote provider under `blockPolicy`, up to the egress. -/
def toRemote : List RequestEvent :=
  [.tenantPolicy (.done (some blockPolicy, false)), .limits (.done ()),
    .candidates (.done [⟨"i", .remoteOpenai⟩]), .picked (.done 0), .rag (.done none),
    .session (.done none), .skills (.done [])]

def phoneRequest : RouteRequest := ⟨.chat, none, [("user", "call 555")], "today"⟩

/-- The PII service and the provider answer. -/
theorem noRawEgress_phoneRequest :
    NoRawEgress (run (step ⟨true, false, false, false, 0, 0⟩) (initial phoneRequest)
      (toRemote ++ [.sanitized (.done ([("user", "call [REDACTED]")], false)), .call,
        .answered (.done ⟨200, "done", [], "", none⟩)])) :=
  noRawEgress_run _ rfl _ _

/-- What every call of a remote provider is to carry, those of the tool loop included. -/
def OnlySanitized (q : RequestRun) : Prop :=
  ∀ policy, q.piiPolicy = some policy → policy.blocksEgress →
    ∀ call ∈ q.upstreamCalls, call.candidate.providerType.isRemote →
      ∀ m ∈ call.messages, m.source.isClean

/-- Without the client the user's text is sent as it is; with it, the result of a tool is. -/
theorem not_onlySanitized :
    (¬ ∀ request es,
      OnlySanitized (run (step ⟨false, false, true, false, 0, 1⟩) (initial request) es)) ∧
    ¬ ∀ request es,
      OnlySanitized (run (step ⟨true, false, true, false, 0, 1⟩) (initial request) es) := by
  constructor
  · intro H
    have hs := H phoneRequest (toRemote ++ [.call]) blockPolicy rfl rfl
    revert hs
    decide
  · intro H
    have hs := H phoneRequest
      (toRemote ++ [.sanitized (.done ([("user", "call [REDACTED]")], false)), .call,
        .answered (.done ⟨200, "", [⟨"t", "mcp.phonebook.find"⟩], "", none⟩),
        .toolResult (.done "Ada: 555"), .call]) blockPolicy rfl rfl
    revert hs
    decide

end RequestRun

end LlmPort.Gateway
