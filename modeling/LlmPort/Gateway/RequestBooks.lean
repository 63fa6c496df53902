import LlmPort.Gateway.RequestRun

/-!
# The leases and the audit row of a request

A lease that a request acquires is to be released once when the request is over, and one audit row
is to be written for it.
-/

namespace LlmPort.Gateway

open Transition

namespace RequestRun

def isOver (q : RequestRun) : Bool := match q.point with
  | .finished => true
  | _ => false

/-- Every lease acquired was released once, and one audit row was written. -/
structure Settled (q : RequestRun) : Prop where
  leases : ∀ lease, lease < q.acquired → q.released.count lease = 1
  audits : q.audits.length = 1

/-- The await gives a value. -/
def isDone {α : Type} : Outcome α → Bool
  | .done _ => true
  | .raised .. => false

def isCancelled {α : Type} : Outcome α → Bool
  | .raised .cancelled _ => true
  | _ => false

/-- No await raises before the `try` or in a `finally`, where that leaves a lease or the audit row
behind, no lease is acquired or kept by an operation that raises, `route_non_stream` gets past the
RAG search, and the generator that is returned is started. -/
def keepsBooks (q : RequestRun) (e : RequestEvent) : Bool :=
  match q.point, e with
  | .tenantPolicy, .tenantPolicy r => isDone r
  | .limits, .limits r => isDone r
  | .candidates, .candidates r => isDone r
  | .pick, .picked r => isDone r
  | .rag, .rag r => isDone r || q.kind = .stream
  | .fallbackRelease _, .released r => tookEffect r
  | .fallbackPick, .picked r => isDone r || !tookEffect r
  | .release _, .released r => isDone r
  | .audit, .audited r => tookEffect r
  | .notStarted, .drop => false
  | .streamPersist, .persisted r => !isCancelled r
  | .streamSkills, .skillsRecorded r => !isCancelled r
  | .streamRelease _, .released r => isDone r
  | .streamAudit, .audited r => tookEffect r
  | _, _ => true

/-- The lease that is still to be released. -/
def owed (q : RequestRun) : Option Nat :=
  match q.point with
  | .audit | .streamAudit | .finished => none
  | .fallbackRelease d | .release d | .streamRelease d => some d.lease
  | _ => q.decision.map (·.lease)

/-- Before the first lease, and while the fallback has none. -/
def isFree : Point → Bool
  | .tenantPolicy | .limits | .candidates | .pick | .fallbackRelease _ | .fallbackPick => true
  | _ => false

/-- Before `resolved_session_id` is assigned. -/
def isUnbound : Point → Bool
  | .tenantPolicy | .limits | .candidates | .pick | .rag => true
  | _ => false

/-- Each lease acquired is released once or, if it is the one given, still to be released. -/
def Balanced (owed : Option Nat) (q : RequestRun) : Prop :=
  ∀ lease, q.released.count lease + (if owed = some lease then 1 else 0) =
    if lease < q.acquired then 1 else 0

/-- The books of a request that can still be settled. -/
structure OnTrack (q : RequestRun) : Prop where
  balanced : Balanced q.owed q
  audits : q.audits.length = q.isOver.toNat
  free : isFree q.point → q.decision = none
  unbound : isUnbound q.point → q.resolvedSessionId = none
  bound : isUnbound q.point = false → q.kind = .stream ∨ q.resolvedSessionId.isSome

/-- The books of a request that is in its `try`, wherever it waits. -/
structure Live (q : RequestRun) : Prop where
  balanced : Balanced (q.decision.map (·.lease)) q
  audits : q.audits = []
  bound : q.kind = .stream ∨ q.resolvedSessionId.isSome

/-- Within the `try` or the generator, where the lease given is that of the decision. -/
def isInside : Point → Bool
  | .tenantPolicy | .limits | .candidates | .pick | .rag | .fallbackRelease _ | .fallbackPick
  | .release _ | .streamRelease _ | .audit | .streamAudit | .finished => false
  | _ => true

variable {cfg : GatewayConfig} {q : RequestRun} {e : RequestEvent}

theorem OnTrack.settled (h : OnTrack q) (hover : q.isOver) : Settled q := by
  have howed : q.owed = none := by
    unfold isOver at hover
    unfold owed
    split at hover
    next hp => simp [hp]
    next => cases hover
  refine ⟨fun lease hl => ?_, by rw [h.audits, hover]; rfl⟩
  have hb := h.balanced lease
  simpa [howed, hl] using hb

theorem onTrack_initial (request : RouteRequest) : OnTrack (initial request) where
  balanced lease := by simp [initial, owed]
  audits := rfl
  free _ := rfl
  unbound _ := rfl
  bound := nofun

/-! ## The ends -/

theorem onTrack_enterAudit (hd : Balanced none q) (ha : q.audits = [])
    (hb : q.kind = .stream ∨ q.resolvedSessionId.isSome) : OnTrack q.enterAudit := by
  have hbound : ¬ (q.kind ≠ .stream ∧ q.resolvedSessionId = none) := by
    rintro ⟨hk, hr⟩
    rcases hb with hs | hs
    · exact hk hs
    · rw [hr] at hs
      cases hs
  rw [enterAudit, if_neg hbound]
  exact ⟨hd, by simp [ha, isOver], nofun, nofun, fun _ => hb⟩

theorem Live.enterFinally (h : Live q) : OnTrack q.enterFinally := by
  have hb := h.balanced
  unfold RequestRun.enterFinally
  split
  next d hd =>
    rw [hd] at hb
    exact ⟨hb, by simp [h.audits, isOver], nofun, nofun, fun _ => h.bound⟩
  next hd =>
    rw [hd] at hb
    exact onTrack_enterAudit hb h.audits h.bound

theorem Live.fail (h : Live q) (e : Raised) : OnTrack (q.fail e) := by
  unfold RequestRun.fail
  split
  · exact Live.enterFinally ⟨h.balanced, h.audits, h.bound⟩
  · exact h.enterFinally

theorem Live.waits (h : Live q) (hp : isInside q.point) : OnTrack q := by
  have howed : q.owed = q.decision.map (·.lease) := by
    unfold owed
    split <;> simp_all [isInside]
  refine ⟨howed ▸ h.balanced, ?_, fun hf => ?_, fun hu => ?_, fun _ => h.bound⟩
  · unfold isOver
    split <;> simp_all [isInside, h.audits]
  · unfold isFree at hf
    split at hf <;> simp_all [isInside]
  · unfold isUnbound at hu
    split at hu <;> simp_all [isInside]

theorem OnTrack.live {p : Point} (h : OnTrack q) (hp : q.point = p) (hi : isInside p) : Live q := by
  subst hp
  have howed : q.owed = q.decision.map (·.lease) := by
    unfold owed
    split <;> simp_all [isInside]
  have hunbound : isUnbound q.point = false := by
    unfold isUnbound
    split <;> simp_all [isInside]
  have hover : q.isOver = false := by
    unfold isOver
    split <;> simp_all [isInside]
  exact ⟨howed ▸ h.balanced, by simpa [hover] using h.audits, h.bound hunbound⟩

/-! ## Before the first call of the adapter -/

theorem Live.injectDatetime (h : Live q) : Live q.injectDatetime := by
  unfold RequestRun.injectDatetime
  split
  · exact ⟨h.balanced, h.audits, h.bound⟩
  · exact h

theorem Live.injectPiiPrompt (h : Live q) (policy : PIIPolicy) :
    Live (q.injectPiiPrompt policy) := by
  unfold RequestRun.injectPiiPrompt
  split
  · exact ⟨h.balanced, h.audits, h.bound⟩
  · exact h

theorem Live.afterTelemetry (h : Live q) : OnTrack (q.afterTelemetry cfg) := by
  have hq := h.injectDatetime
  unfold RequestRun.afterTelemetry
  dsimp only
  split <;> exact Live.waits ⟨hq.balanced, hq.audits, hq.bound⟩ rfl

theorem Live.afterEgress (h : Live q) : OnTrack (q.afterEgress cfg) := by
  unfold RequestRun.afterEgress
  split
  next => exact h.afterTelemetry
  next policy _ =>
    have hq := h.injectPiiPrompt policy
    dsimp only
    split
    next => exact Live.waits ⟨hq.balanced, hq.audits, hq.bound⟩ rfl
    next => exact hq.afterTelemetry

theorem Live.afterOverride (h : Live q) (sessionOverride : Option SessionPIIOverride) :
    OnTrack (q.afterOverride cfg sessionOverride) := by
  unfold RequestRun.afterOverride
  dsimp only
  split
  next =>
    split
    next => exact Live.waits ⟨h.balanced, h.audits, h.bound⟩ rfl
    next => exact Live.afterEgress ⟨h.balanced, h.audits, h.bound⟩
  next => exact Live.afterEgress ⟨h.balanced, h.audits, h.bound⟩

theorem Live.afterSkills (h : Live q) : OnTrack (q.afterSkills cfg) := by
  unfold RequestRun.afterSkills
  split
  next => exact Live.waits ⟨h.balanced, h.audits, h.bound⟩ rfl
  next => exact h.afterOverride none

theorem OnTrack.afterRag (h : OnTrack q) (hp : q.point = .rag) : OnTrack (q.afterRag cfg) := by
  have hlive : Live { q with resolvedSessionId := some none } := by
    refine ⟨?_, ?_, .inr rfl⟩
    · have hb := h.balanced
      simp only [owed, hp] at hb
      exact hb
    · simpa [isOver, hp] using h.audits
  unfold RequestRun.afterRag
  split
  next => exact Live.waits ⟨hlive.balanced, hlive.audits, hlive.bound⟩ rfl
  next => exact hlive.afterSkills

theorem Live.onSanitized (h : Live q) (policy : PIIPolicy) (isCloud : Bool)
    (r : Outcome (List (String × String) × Bool)) :
    OnTrack (q.onSanitized cfg policy isCloud r) := by
  unfold RequestRun.onSanitized
  split
  next => exact Live.afterEgress ⟨h.balanced, h.audits, h.bound⟩
  next => exact h.fail _
  next =>
    split
    next => exact h.fail _
    next d hd =>
      -- the lease is owed until the fallback has released it
      refine ⟨?_, by simp [h.audits, isOver], fun _ => rfl, nofun, fun _ => h.bound⟩
      have hb := h.balanced
      rw [hd] at hb
      exact hb
    next => exact h.afterEgress

theorem Live.failFallback (h : Live q) (e : Raised) : OnTrack (q.failFallback e) := by
  unfold RequestRun.failFallback
  split
  · refine Live.fail ?_ _
    exact ⟨h.balanced, h.audits, h.bound⟩
  · exact h.fail e

theorem Live.pickLocal (h : Live q) (hd : q.decision = none) : OnTrack q.pickLocal := by
  unfold RequestRun.pickLocal
  split
  next => exact h.failFallback _
  next => exact ⟨h.balanced, by simp [h.audits, isOver], fun _ => hd, nofun, fun _ => h.bound⟩

theorem Balanced.lease (h : Balanced none q) (candidate : Candidate) :
    Balanced (some q.acquired) (q.lease candidate) := by
  intro lease
  have hl := h lease
  simp only [RequestRun.lease, Option.some.injEq] at hl ⊢
  by_cases he : q.acquired = lease
  · subst he
    simp_all
  · have hlt : lease < q.acquired + 1 ↔ lease < q.acquired := by omega
    simp_all

theorem Live.lease (h : Live q) (hd : q.decision = none) (candidate : Candidate) :
    Live (q.lease candidate) := by
  have hb := h.balanced
  rw [hd] at hb
  exact ⟨hb.lease candidate, h.audits, h.bound⟩

theorem Live.afterFallback (h : Live q) : OnTrack (q.afterFallback cfg) := by
  unfold RequestRun.afterFallback
  split
  next =>
    split
    next => exact Live.waits ⟨h.balanced, h.audits, h.bound⟩ rfl
    next => exact h.afterEgress
  next => exact h.afterEgress

/-! ## The calls of the adapter -/

theorem Live.callUpstream (h : Live q) (messages : List Message) (stream inLoop : Bool) :
    Live (q.callUpstream messages stream inLoop) := by
  unfold RequestRun.callUpstream
  split
  next => exact ⟨h.balanced, h.audits, h.bound⟩
  next => exact h

theorem Live.afterAnswer (h : Live q) : OnTrack (q.afterAnswer cfg) := by
  unfold RequestRun.afterAnswer
  split <;> exact Live.waits ⟨h.balanced, h.audits, h.bound⟩ rfl

theorem Live.returnStream (h : Live q) : OnTrack q.returnStream := by
  unfold RequestRun.returnStream
  exact Live.waits ⟨h.balanced, h.audits, h.bound⟩ rfl

theorem Live.afterLoop (h : Live q) : OnTrack (q.afterLoop cfg) := by
  unfold RequestRun.afterLoop
  split
  next => exact h.returnStream
  next => exact h.afterAnswer

theorem Live.loopHead (h : Live q) (iteration : Nat) (answer : Answer) (messages : List Message) :
    OnTrack (q.loopHead cfg iteration answer messages) := by
  unfold RequestRun.loopHead
  dsimp only
  split
  next => exact h.afterLoop
  next => exact Live.waits ⟨h.balanced, h.audits, h.bound⟩ rfl

theorem Live.startLoop (h : Live q) (answer : Answer) : OnTrack (q.startLoop cfg answer) := by
  unfold RequestRun.startLoop
  split
  next => exact h.loopHead 0 answer _
  next => exact h.fail _

theorem Live.onAnswer (h : Live q) (attempt : Nat) (r : Outcome Answer) :
    OnTrack (q.onAnswer cfg attempt r) := by
  unfold RequestRun.onAnswer
  split
  next =>
    split
    next => exact h.fail _
    next answer =>
      split
      next =>
        split
        next => exact h.fail _
        next => exact h.startLoop answer
      next => exact h.returnStream
  next =>
    split
    next => exact h.fail _
    next =>
      split
      next => exact h.fail _
      next => exact Live.waits ⟨h.balanced, h.audits, h.bound⟩ rfl
    next answer =>
      have hq : Live { q with statusCode := answer.statusCode } := ⟨h.balanced, h.audits, h.bound⟩
      dsimp only
      split
      next => exact hq.startLoop answer
      next => exact hq.afterAnswer

theorem Live.appendResult (h : Live q) (loop : ToolLoop) (tc : ToolCall) (todo : List ToolCall)
    (content : String) : OnTrack (q.appendResult loop tc todo content) := by
  unfold RequestRun.appendResult
  refine Live.waits ⟨h.balanced, h.audits, h.bound⟩ ?_
  dsimp only
  split <;> rfl

theorem Live.onRecall (h : Live q) (loop : ToolLoop) (r : Outcome Answer) :
    OnTrack (q.onRecall cfg loop r) := by
  unfold RequestRun.onRecall
  split
  next => exact h.fail _
  next answer =>
    split
    next => exact h.fail _
    next =>
      split
      next => exact h.afterLoop
      next => exact h.loopHead _ _ _

/-! ## The generator -/

theorem Live.streamAfterSkills (h : Live q) : OnTrack q.streamAfterSkills := by
  have hb := h.balanced
  unfold RequestRun.streamAfterSkills
  split
  next d hd =>
    rw [hd] at hb
    exact ⟨hb, by simp [h.audits, isOver], nofun, nofun, fun _ => h.bound⟩
  next hd =>
    rw [hd] at hb
    exact ⟨hb, by simp [h.audits, isOver], nofun, nofun, fun _ => h.bound⟩

theorem Live.streamAfterPersist (h : Live q) : OnTrack q.streamAfterPersist := by
  unfold RequestRun.streamAfterPersist
  split
  next => exact Live.waits ⟨h.balanced, h.audits, h.bound⟩ rfl
  next => exact h.streamAfterSkills

theorem Live.finalize (h : Live q) : OnTrack q.finalize := by
  unfold RequestRun.finalize
  split
  next => exact Live.waits ⟨h.balanced, h.audits, h.bound⟩ rfl
  next => exact h.streamAfterPersist

/-! ## Every step -/

/-- The books before the first lease. -/
structure Early (q : RequestRun) : Prop where
  balanced : Balanced none q
  audits : q.audits = []
  decision : q.decision = none
  unbound : q.resolvedSessionId = none

def isEarly : Point → Bool
  | .tenantPolicy | .limits | .candidates | .pick => true
  | _ => false

theorem OnTrack.early (h : OnTrack q) (hp : isEarly q.point) : Early q := by
  have hd : q.decision = none := by
    apply h.free
    unfold isFree
    split <;> simp_all [isEarly]
  have howed : q.owed = none := by
    unfold owed
    split <;> simp_all [isEarly]
  have hr : q.resolvedSessionId = none := by
    apply h.unbound
    unfold isUnbound
    split <;> simp_all [isEarly]
  refine ⟨howed ▸ h.balanced, ?_, hd, hr⟩
  have hover : q.isOver = false := by
    unfold isOver
    split <;> simp_all [isEarly]
  simpa [hover] using h.audits

theorem OnTrack.fallback (h : OnTrack q) (hp : q.point = .fallbackPick) : Live q := by
  refine ⟨?_, by simpa [isOver, hp] using h.audits, h.bound (by simp [hp, isUnbound])⟩
  have hb := h.balanced
  simp only [owed, hp] at hb
  exact hb

theorem Early.waits (h : Early q) (hp : isEarly q.point) : OnTrack q := by
  have howed : q.owed = none := by
    unfold owed
    split <;> simp_all [isEarly, h.decision]
  refine ⟨howed ▸ h.balanced, ?_, fun _ => h.decision, fun _ => h.unbound, fun hu => ?_⟩
  · unfold isOver
    split <;> simp_all [isEarly, h.audits]
  · unfold isUnbound at hu
    split at hu <;> simp_all [isEarly]

theorem Early.lease (h : Early q) (candidate : Candidate) :
    OnTrack { q.lease candidate with point := .rag } := by
  refine ⟨h.balanced.lease candidate, ?_, ?_, fun _ => h.unbound, ?_⟩
  · simp [RequestRun.lease, h.audits, isOver]
  · simp [isFree]
  · simp [isUnbound]

theorem Balanced.release {lease : Nat} (h : Balanced (some lease) q) :
    Balanced none { q with released := q.released ++ [lease] } := by
  intro l
  have hl := h l
  simp only [Option.some.injEq] at hl
  change (q.released ++ [lease]).count l + 0 = if l < q.acquired then 1 else 0
  simpa only [List.count_append, List.count_singleton, beq_iff_eq, Nat.add_zero] using hl

theorem released?_eq {α : Type} {lease : Nat} {r : Outcome α} (hr : tookEffect r) :
    q.released? lease r = { q with released := q.released ++ [lease] } :=
  if_pos hr

/-- After the release of the fallback the request has no lease. -/
theorem OnTrack.fallbackReleased {d : RoutingDecision} {r : Outcome Unit} (h : OnTrack q)
    (hp : q.point = .fallbackRelease d) (hr : tookEffect r) :
    Live (q.released? d.lease r) ∧ (q.released? d.lease r).decision = none := by
  have hd := h.free (by rw [hp]; rfl)
  have hb := h.balanced
  simp only [owed, hp] at hb
  rw [released?_eq hr]
  refine ⟨⟨?_, by simpa [isOver, hp] using h.audits, ?_⟩, hd⟩
  · rw [hd]
    exact hb.release
  · exact h.bound (by simp [hp, isUnbound])

theorem OnTrack.audited {r : Outcome Unit} (h : OnTrack q)
    (hp : q.point = .audit ∨ q.point = .streamAudit) (hr : tookEffect r) :
    OnTrack { q.audited? r with point := .finished } := by
  have hbound : q.kind = .stream ∨ q.resolvedSessionId.isSome := by
    apply h.bound
    rcases hp with hp | hp <;> simp [hp, isUnbound]
  have hb : Balanced none q := by
    have hb := h.balanced
    rcases hp with hp | hp
    · simpa only [owed, hp] using hb
    · simpa only [owed, hp] using hb
  have ha : q.audits = [] := by
    rcases hp with hp | hp <;> simpa [isOver, hp] using h.audits
  rw [audited?, if_pos hr]
  exact ⟨hb, by simp [ha, isOver], nofun, nofun, fun _ => hbound⟩

theorem Live.onToolResult (h : Live q) {loop : ToolLoop} (hp : q.point = .toolCall loop)
    (r : Outcome String) : OnTrack (q.onToolResult cfg loop r) := by
  unfold RequestRun.onToolResult
  split
  next => exact h.waits (by rw [hp]; rfl)
  next => exact h.appendResult _ _ _ _
  next =>
    split
    next => exact h.fail _
    next => exact h.appendResult _ _ _ _

theorem OnTrack.step (h : OnTrack q) (hok : keepsBooks q e) : OnTrack (q.step cfg e) := by
  cases e with
  | tenantPolicy r =>
    simp only [RequestRun.step]
    split
    next floor allowModeOverride hp =>
      have hq := h.early (by rw [hp]; rfl)
      exact Early.waits ⟨hq.balanced, hq.audits, hq.decision, hq.unbound⟩ rfl
    next hp => simp [keepsBooks, hp, isDone] at hok
    next => exact h
  | limits r =>
    simp only [RequestRun.step]
    split
    next hp =>
      have hq := h.early (by rw [hp]; rfl)
      exact Early.waits ⟨hq.balanced, hq.audits, hq.decision, hq.unbound⟩ rfl
    next hp => simp [keepsBooks, hp, isDone] at hok
    next => exact h
  | candidates r =>
    simp only [RequestRun.step]
    split
    next candidates hp =>
      have hq := h.early (by rw [hp]; rfl)
      exact Early.waits ⟨hq.balanced, hq.audits, hq.decision, hq.unbound⟩ rfl
    next hp => simp [keepsBooks, hp, isDone] at hok
    next => exact h
  | picked r =>
    simp only [RequestRun.step]
    split
    next i hp =>
      split
      next candidate hc =>
        have hq := h.early (by rw [hp]; rfl)
        exact hq.lease candidate
      next => exact h
    next hp => simp [keepsBooks, hp, isDone] at hok
    next i hp =>
      have hq := h.fallback hp
      have hd := h.free (by rw [hp]; rfl)
      split
      next candidate hc =>
        have hl := hq.lease hd candidate
        exact Live.afterFallback ⟨hl.balanced, hl.audits, hl.bound⟩
      next => exact h
    next e tookEffect hp =>
      have hq := h.fallback hp
      have ht : tookEffect = false :=
        by simpa [keepsBooks, hp, isDone, RequestRun.tookEffect] using hok
      subst ht
      have hq : Live { q with acquired := q.acquired + Bool.toNat false } :=
        ⟨hq.balanced, hq.audits, hq.bound⟩
      split
      next => exact hq.failFallback _
      next => exact hq.failFallback _
    next => exact h
  | rag r =>
    simp only [RequestRun.step]
    split
    next hp => exact h.afterRag hp
    next context hp =>
      refine OnTrack.afterRag ⟨?_, ?_, ?_, ?_, ?_⟩ hp
      · have hb := h.balanced
        simp only [owed, hp] at hb ⊢
        exact hb
      · have ha := h.audits
        simp only [isOver, hp] at ha ⊢
        exact ha
      · exact h.free
      · exact h.unbound
      · exact h.bound
    next e _ hp =>
      have hk : q.kind = .stream := by simpa [keepsBooks, hp, isDone] using hok
      refine Live.fail ⟨?_, by simpa [isOver, hp] using h.audits, .inl hk⟩ e
      have hb := h.balanced
      simp only [owed, hp] at hb
      exact hb
    next => exact h
  | session r =>
    simp only [RequestRun.step]
    split
    next hp =>
      have hq := h.live hp rfl
      exact Live.waits ⟨hq.balanced, hq.audits, hq.bound⟩ rfl
    next hp =>
      have hq := h.live hp rfl
      exact Live.waits ⟨hq.balanced, hq.audits, .inr rfl⟩ rfl
    next e _ hp => exact (h.live hp rfl).fail e
    next => exact h
  | skills r =>
    simp only [RequestRun.step]
    split
    next hp =>
      have hq := h.live hp rfl
      exact Live.afterSkills ⟨hq.balanced, hq.audits, hq.bound⟩
    next e _ hp => exact (h.live hp rfl).fail e
    next => exact h
  | override r =>
    simp only [RequestRun.step]
    split
    next override hp =>
      exact (h.live hp rfl).afterOverride _
    next e _ hp => exact (h.live hp rfl).fail e
    next => exact h
  | sanitized r =>
    simp only [RequestRun.step]
    split
    next hp _ _ => exact (h.live hp rfl).onSanitized _ _ r
    next hp _ => exact (h.live hp rfl).onSanitized _ _ r
    next => exact h
  | released r =>
    simp only [RequestRun.step]
    split
    next d hp =>
      obtain ⟨hq, hd⟩ := h.fallbackReleased (r := .done ()) hp rfl
      exact hq.pickLocal hd
    next d e tookEffect hp =>
      have hr : RequestRun.tookEffect (.raised e tookEffect : Outcome Unit) := by
        simpa [keepsBooks, hp] using hok
      exact (h.fallbackReleased hp hr).1.failFallback e
    next d hp =>
      have hb := h.balanced
      simp only [owed, hp] at hb
      rw [released?_eq rfl]
      refine onTrack_enterAudit hb.release ?_ (h.bound (by simp [hp, isUnbound]))
      simpa [isOver, hp] using h.audits
    next d hp => simp [keepsBooks, hp, isDone] at hok
    next d hp =>
      have hb := h.balanced
      simp only [owed, hp] at hb
      rw [released?_eq rfl]
      refine ⟨hb.release, ?_, ?_, ?_, fun _ => h.bound (by simp [hp, isUnbound])⟩
      · simpa [isOver, hp] using h.audits
      · simp [isFree]
      · simp [isUnbound]
    next d hp => simp [keepsBooks, hp, isDone] at hok
    next => exact h
  | telemetry r =>
    simp only [RequestRun.step]
    split
    next hp => exact (h.live hp rfl).fail _
    next hp _ => exact (h.live hp rfl).afterTelemetry
    next => exact h
  | mcpTools r =>
    simp only [RequestRun.step]
    split
    next hp =>
      have hq := h.live hp rfl
      exact Live.waits ⟨hq.balanced, hq.audits, hq.bound⟩ rfl
    next e _ hp => exact (h.live hp rfl).fail e
    next => exact h
  | call =>
    simp only [RequestRun.step]
    split
    next hp =>
      have hq := (h.live hp rfl).callUpstream q.egressPayload
        (q.kind = .stream ∧ ¬ q.viaTools cfg) false
      exact Live.waits ⟨hq.balanced, hq.audits, hq.bound⟩ rfl
    next loop hp =>
      have hq := (h.live hp rfl).callUpstream loop.messages false true
      exact Live.waits ⟨hq.balanced, hq.audits, hq.bound⟩ rfl
    next => exact h
  | answered r =>
    simp only [RequestRun.step]
    split
    next hp => exact (h.live hp rfl).onAnswer _ r
    next hp => exact (h.live hp rfl).onRecall _ r
    next => exact h
  | toolResult r =>
    simp only [RequestRun.step]
    split
    next hp => exact (h.live hp rfl).onToolResult hp r
    next => exact h
  | detokenized r =>
    simp only [RequestRun.step]
    split
    next hp => exact (h.live hp rfl).fail _
    next hp _ =>
      have hq := h.live hp rfl
      exact Live.waits ⟨hq.balanced, hq.audits, hq.bound⟩ rfl
    next => exact h
  | persisted r =>
    simp only [RequestRun.step]
    split
    next hp =>
      have hq := h.live hp rfl
      exact Live.waits ⟨hq.balanced, hq.audits, hq.bound⟩ rfl
    next e _ hp => exact (h.live hp rfl).fail e
    next hp => simp [keepsBooks, hp, isCancelled] at hok
    next hp _ => exact (h.live hp rfl).streamAfterPersist
    next => exact h
  | skillsRecorded r =>
    simp only [RequestRun.step]
    split
    next hp => exact (h.live hp rfl).enterFinally
    next e _ hp => exact (h.live hp rfl).fail e
    next hp => simp [keepsBooks, hp, isCancelled] at hok
    next hp _ => exact (h.live hp rfl).streamAfterSkills
    next => exact h
  | audited r =>
    simp only [RequestRun.step]
    split
    next hp =>
      have hr : tookEffect r := by simpa [keepsBooks, hp] using hok
      exact h.audited (.inl hp) hr
    next hp =>
      have hr : tookEffect r := by simpa [keepsBooks, hp] using hok
      exact h.audited (.inr hp) hr
    next => exact h
  | start =>
    simp only [RequestRun.step]
    split
    next hp =>
      have hq := h.live hp rfl
      exact Live.waits ⟨hq.balanced, hq.audits, hq.bound⟩ rfl
    next => exact h
  | drop =>
    simp only [RequestRun.step]
    split
    next hp => simp [keepsBooks, hp] at hok
    next => exact h
  | chunk r =>
    simp only [RequestRun.step]
    split
    next hp =>
      have hq := h.live hp rfl
      exact Live.waits ⟨hq.balanced, hq.audits, hq.bound⟩ rfl
    next hp => exact (h.live hp rfl).finalize
    next hp => exact (h.live hp rfl).finalize
    next hp =>
      have hq := h.live hp rfl
      exact Live.waits ⟨hq.balanced, hq.audits, hq.bound⟩ rfl
    next => exact h
  | resume =>
    simp only [RequestRun.step]
    split
    next hp =>
      have hq := h.live hp rfl
      exact Live.waits ⟨hq.balanced, hq.audits, hq.bound⟩ rfl
    next hp => exact (h.live hp rfl).finalize
    next => exact h
  | close =>
    simp only [RequestRun.step]
    split
    next hp => exact (h.live hp rfl).finalize
    next hp => exact (h.live hp rfl).finalize
    next => exact h

/-! ## What cannot be settled any more -/

/-- A lease was acquired and is not released. -/
def Leaks (q : RequestRun) : Prop := ∃ lease < q.acquired, lease ∉ q.released

/-- Whatever follows, the books will not be settled: the request is over without its audit row, is
about to write it although a lease was lost, or will miss it as `resolved_session_id` is unbound. -/
def Derailed (q : RequestRun) : Prop :=
  match q.point with
  | .finished => q.audits = [] ∨ Leaks q
  | .audit => Leaks q
  | .release _ => q.kind ≠ .stream ∧ q.resolvedSessionId = none ∧ q.audits = []
  | _ => False

theorem Derailed.not_settled (h : Derailed q) (hover : q.isOver) : ¬ Settled q := by
  intro hs
  unfold isOver at hover
  unfold Derailed at h
  split at h
  next hp =>
    rcases h with ha | ⟨lease, hl, hr⟩
    · have hlen := hs.audits
      simp [ha] at hlen
    · have hcount := hs.leases lease hl
      rw [List.count_eq_zero.2 hr] at hcount
      cases hcount
  all_goals simp_all

theorem derailed_over (ha : q.audits = []) : Derailed { q with point := .finished } := .inl ha

/-- A request that is over stays as it is. -/
theorem step_over (hp : q.point = .finished) : q.step cfg e = q := by
  cases e <;> simp [RequestRun.step, hp]

theorem step_audit (cfg : GatewayConfig) (e : RequestEvent) (hp : q.point = .audit) :
    q.step cfg e = q ∨
      ∃ r : Outcome Unit, q.step cfg e = { q.audited? r with point := .finished } := by
  cases e with
  | audited r => exact .inr ⟨r, by simp only [RequestRun.step, hp]⟩
  | _ => exact .inl (by simp [RequestRun.step, hp])

theorem step_release (cfg : GatewayConfig) (e : RequestEvent) {d : RoutingDecision}
    (hp : q.point = .release d) :
    q.step cfg e = q ∨ q.step cfg e = (q.released? d.lease (.done ())).enterAudit ∨
      ∃ r : Outcome Unit, q.step cfg e = { q.released? d.lease r with point := .finished } := by
  cases e with
  | released r =>
    cases r with
    | done => exact .inr (.inl (by simp only [RequestRun.step, hp]))
    | raised e b => exact .inr (.inr ⟨.raised e b, by simp only [RequestRun.step, hp]⟩)
  | _ => exact .inl (by simp [RequestRun.step, hp])

theorem audits_released? {α : Type} (lease : Nat) (r : Outcome α) :
    (q.released? lease r).audits = q.audits := by
  unfold RequestRun.released?
  split <;> rfl

theorem leaks_audited? {α : Type} (r : Outcome α) : Leaks (q.audited? r) ↔ Leaks q := by
  unfold RequestRun.audited?
  split <;> rfl

theorem Derailed.step (h : Derailed q) : Derailed (q.step cfg e) := by
  have hq := h
  unfold Derailed at hq
  split at hq
  next hp => rwa [step_over hp]
  next hp =>
    rcases step_audit cfg e hp with hs | ⟨r, hs⟩
    · rwa [hs]
    · rw [hs]
      exact .inr ((leaks_audited? r).2 hq)
  next d hp =>
    obtain ⟨hk, hr, ha⟩ := hq
    rcases step_release cfg e hp with hs | hs | ⟨r, hs⟩
    · rwa [hs]
    · rw [hs, released?_eq rfl, enterAudit, if_pos ⟨hk, hr⟩]
      exact .inl ha
    · rw [hs]
      exact derailed_over ((audits_released? d.lease r).trans ha)
  next => exact hq.elim

/-- A lost lease, where the request has none to release. -/
theorem derailed_fail (hd : q.decision = none) (hb : q.kind = .stream ∨ q.resolvedSessionId.isSome)
    (hl : Leaks q) (e : Raised) : Derailed (q.fail e) := by
  have hbound : ¬ (q.kind ≠ .stream ∧ q.resolvedSessionId = none) := by
    rintro ⟨hk, hr⟩
    rcases hb with hs | hs
    · exact hk hs
    · rw [hr] at hs
      cases hs
  unfold RequestRun.fail
  split <;> simp only [RequestRun.enterFinally, hd, enterAudit, if_neg hbound] <;> exact hl

theorem derailed_failFallback (hd : q.decision = none)
    (hb : q.kind = .stream ∨ q.resolvedSessionId.isSome) (hl : Leaks q) (e : Raised) :
    Derailed (q.failFallback e) := by
  unfold RequestRun.failFallback
  split
  · refine derailed_fail ?_ ?_ ?_ _
    exacts [hd, hb, hl]
  · exact derailed_fail hd hb hl e

/-- `resolved_session_id` is unbound where the audit row is to be written. -/
theorem derailed_unbound (hk : q.kind ≠ .stream) (hr : q.resolvedSessionId = none)
    (ha : q.audits = []) : Derailed q.enterFinally := by
  unfold RequestRun.enterFinally
  split
  next => exact ⟨hk, hr, ha⟩
  next =>
    rw [enterAudit, if_pos ⟨hk, hr⟩]
    exact .inl ha

theorem OnTrack.audits_eq (h : OnTrack q) (ho : q.isOver = false) : q.audits = [] := by
  simpa [ho] using h.audits

theorem eq_cancelled {α : Type} {r : Outcome α} (h : ¬ (!isCancelled r) = true) :
    ∃ b, r = .raised .cancelled b := by
  unfold isCancelled at h
  split at h
  next b => exact ⟨b, rfl⟩
  next => exact (h rfl).elim

/-- A step that does not keep the books spoils them for good. -/
theorem OnTrack.derails (h : OnTrack q) (hno : ¬ keepsBooks q e) : Derailed (q.step cfg e) := by
  unfold keepsBooks at hno
  split at hno
  next r hp =>
    cases r with
    | done => exact (hno rfl).elim
    | raised =>
      simp only [RequestRun.step, hp]
      exact derailed_over (h.audits_eq (by simp [isOver, hp]))
  next r hp =>
    cases r with
    | done => exact (hno rfl).elim
    | raised =>
      simp only [RequestRun.step, hp]
      exact derailed_over (h.audits_eq (by simp [isOver, hp]))
  next r hp =>
    cases r with
    | done => exact (hno rfl).elim
    | raised =>
      simp only [RequestRun.step, hp]
      exact derailed_over (h.audits_eq (by simp [isOver, hp]))
  next r hp =>
    cases r with
    | done => exact (hno rfl).elim
    | raised =>
      simp only [RequestRun.step, hp]
      exact .inl (h.audits_eq (by simp [isOver, hp]))
  next r hp =>
    -- the search raises before `resolved_session_id` is assigned
    cases r with
    | done => exact (hno rfl).elim
    | raised e b =>
      have hk : q.kind ≠ .stream := by simpa [isDone] using hno
      have hr := h.unbound (by rw [hp]; rfl)
      have ha := h.audits_eq (by simp [isOver, hp])
      simp only [RequestRun.step, hp]
      unfold RequestRun.fail
      split
      · exact derailed_unbound hk hr ha
      · exact derailed_unbound hk hr ha
  next d r hp =>
    -- the decision is gone, and with it the lease
    cases r with
    | done => exact (hno rfl).elim
    | raised e b =>
      have hb : b = false := by simpa [tookEffect] using hno
      subst hb
      have hbal := h.balanced d.lease
      simp only [owed, hp] at hbal
      have hl : Leaks q := by
        refine ⟨d.lease, ?_, ?_⟩
        · by_contra hlt
          simp [hlt] at hbal
        · rw [← List.count_eq_zero]
          by_cases hlt : d.lease < q.acquired
          · simpa [hlt] using hbal
          · simp [hlt] at hbal
      simp only [RequestRun.step, hp]
      exact derailed_failFallback (h.free (by rw [hp]; rfl)) (h.bound (by rw [hp]; rfl)) hl e
  next r hp =>
    -- a lease is acquired, and the decision is not
    cases r with
    | done => exact (hno rfl).elim
    | raised e b =>
      have hb : b = true := by simpa [isDone, tookEffect] using hno
      subst hb
      have hd := h.free (by rw [hp]; rfl)
      have hbound := h.bound (by rw [hp]; rfl)
      have hbal := h.balanced q.acquired
      simp only [owed, hp, hd] at hbal
      have hl : Leaks { q with acquired := q.acquired + Bool.toNat true } := by
        refine ⟨q.acquired, Nat.lt_succ_self _, ?_⟩
        rw [← List.count_eq_zero]
        simpa using hbal
      simp only [RequestRun.step, hp]
      split
      all_goals
        refine derailed_failFallback ?_ ?_ ?_ _
        exacts [hd, hbound, hl]
  next d r hp =>
    cases r with
    | done => exact (hno rfl).elim
    | raised =>
      simp only [RequestRun.step, hp]
      exact derailed_over ((audits_released? _ _).trans (h.audits_eq (by simp [isOver, hp])))
  next r hp =>
    simp only [RequestRun.step, hp, RequestRun.audited?, if_neg hno]
    exact derailed_over (h.audits_eq (by simp [isOver, hp]))
  next hp =>
    simp only [RequestRun.step, hp]
    exact derailed_over (h.audits_eq (by simp [isOver, hp]))
  next r hp =>
    obtain ⟨b, rfl⟩ := eq_cancelled hno
    simp only [RequestRun.step, hp]
    exact derailed_over (h.audits_eq (by simp [isOver, hp]))
  next r hp =>
    obtain ⟨b, rfl⟩ := eq_cancelled hno
    simp only [RequestRun.step, hp]
    exact derailed_over (h.audits_eq (by simp [isOver, hp]))
  next d r hp =>
    cases r with
    | done => exact (hno rfl).elim
    | raised =>
      simp only [RequestRun.step, hp]
      exact derailed_over ((audits_released? _ _).trans (h.audits_eq (by simp [isOver, hp])))
  next r hp =>
    simp only [RequestRun.step, hp, RequestRun.audited?, if_neg hno]
    exact derailed_over (h.audits_eq (by simp [isOver, hp]))
  next => exact (hno rfl).elim

/-- Where a request is over, its books are settled exactly if each of its steps kept them. -/
theorem settled_iff (cfg : GatewayConfig) (request : RouteRequest) (es : List RequestEvent)
    (hover : (run (step cfg) (initial request) es).isOver) :
    Settled (run (step cfg) (initial request) es) ↔
      Guarded (step cfg) (fun q e => keepsBooks q e) (initial request) es :=
  ends_iff_guarded (fun _ => OnTrack.settled) (fun _ => Derailed.not_settled)
    (fun _ _ => OnTrack.step) (fun _ _ => OnTrack.derails) (fun _ _ => Derailed.step)
    (onTrack_initial request) hover

/-- A stream that is consumed to its end. -/
theorem settled_consumed :
    Settled (run (step ⟨false, false, false, false, 0, 0⟩)
      (initial ⟨.stream, none, [("user", "hello")], "today"⟩)
      [.tenantPolicy (.done (none, false)), .limits (.done ()),
        .candidates (.done [⟨"i", .vllm⟩]), .picked (.done 0), .rag (.done none),
        .session (.done none), .skills (.done []), .call, .answered (.done ⟨200, "", [], "", none⟩),
        .start, .chunk (.done (some "hi")), .resume, .chunk (.done none), .released (.done ()),
        .audited (.done ())]) :=
  (settled_iff _ _ _ (by decide)).2 (by decide)

/-- The RAG search of a chat request raises: the lease is released, and no audit row is written. -/
theorem not_settled_rag_raises :
    ¬ ∀ cfg request es, (run (step cfg) (initial request) es).isOver →
      Settled (run (step cfg) (initial request) es) := by
  intro H
  have hs := H ⟨false, false, false, false, 0, 0⟩ ⟨.chat, none, [("user", "hello")], "today"⟩
    [.tenantPolicy (.done (none, false)), .limits (.done ()), .candidates (.done [⟨"i", .vllm⟩]),
      .picked (.done 0), .rag (.raised (.exception "timeout") false), .released (.done ())] (by decide)
  have haudits := hs.audits
  revert haudits
  decide

end RequestRun

end LlmPort.Gateway
