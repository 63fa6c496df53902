import Mathlib.Algebra.GroupWithZero.Nat
import LlmPort.Gateway.RecentHistory

/-!
# The budget of a context

`assemble` of `services/gateway/context_assembler.py` with all that it keeps: what it has used, what
is left of the budget, and the tokens it reports. A segment is a message with the tokens it is
charged.
-/

namespace LlmPort.Gateway

open Ranking

structure AssembledContext where
  messages : List RequestMessage
  summaryUsed : Option SessionSummary
  factsUsed : List MemoryFact
  attachmentsUsed : List ChatAttachment
  totalTokenEstimate : Int

abbrev Segment := RequestMessage × Int

/-! ## Segments -/

def instructionSegments (systemInstructions : Option String) : List Segment :=
  (systemInstructions.filter (· ≠ "")).toList.map fun text =>
    (⟨some "system", .text text⟩, estimateText text)

def SessionSummary.segment (summary : SessionSummary) : Segment :=
  (⟨some "system", .text s!"[Session Summary]\n{summary.summaryText}"⟩,
    tokensOr (some summary.tokenEstimate) summary.summaryText)

/-- All facts together. -/
def factSegment (facts : List MemoryFact) : Segment :=
  let lines := facts.map fun fact => s!"- {fact.key}: {fact.value}"
  let block := "[Memory]\n" ++ "\n".intercalate lines
  (⟨some "system", .text block⟩, estimateText block)

/-- `none` for an attachment that is not ready, or cannot be read. -/
def ChatAttachment.segment (fileStore : Option (String → Option String)) (att : ChatAttachment) :
    Option Segment :=
  match att.extractionStatus, att.extractedText.filter (· ≠ "") with
  | .completed, some text =>
    let note := if att.truncated then " (truncated)" else ""
    let block := s!"[Attached: {att.filename}{note}]\n{text}"
    some (⟨some "system", .text block⟩, estimateText block)
  | .skipped, _ => (fileStore.bind (· att.storageKey)).map fun b64 =>
    (⟨some "user", .parts [.text s!"[Attached image: {att.filename}]",
      .imageUrl s!"data:{att.contentType};base64,{b64}"]⟩, 85)
  | _, _ => none

def LoggedMessage.segment (m : LoggedMessage) : Segment := (m.toRequest, m.tokens)

/-- `_estimate_tokens`, which cannot iterate over `null`. -/
def MessageContent.tokens : MessageContent → Option Int
  | null => none
  | text t => some (estimateText t)
  | parts ps => some (max 1 (ps.map (·.tokens)).sum : Nat)

/-! ## `assemble` -/

/-- The context so far, what is left of the budget, and the tokens charged. -/
structure Assembling extends AssembledContext where
  budget : Int
  totalTokens : Int

namespace Assembling

def start (tokenBudget : Int) : Assembling := ⟨⟨[], none, [], [], 0⟩, tokenBudget, 0⟩

def add (a : Assembling) (seg : Segment) : Assembling :=
  { a with
    messages := a.messages ++ [seg.1]
    budget := a.budget - seg.2
    totalTokens := a.totalTokens + seg.2 }

def addInstructions (a : Assembling) (systemInstructions : Option String) : Assembling :=
  (instructionSegments systemInstructions).foldl add a

def addSummary (a : Assembling) : Option SessionSummary → Assembling
  | none => a
  | some summary =>
    if summary.segment.2 ≤ a.budget then
      { a.add summary.segment with summaryUsed := some summary }
    else a

def addFacts (a : Assembling) (facts : List MemoryFact) : Assembling :=
  if facts.isEmpty then a
  else if (factSegment facts).2 ≤ a.budget then
    { a.add (factSegment facts) with factsUsed := facts }
  else a

/-- One round of the loop of `_inject_attachments`. -/
def addAttachment (fileStore : Option (String → Option String)) (a : Assembling)
    (att : ChatAttachment) : Assembling :=
  match att.segment fileStore with
  | none => a
  | some seg =>
    if seg.2 ≤ a.budget then
      { a.add seg with attachmentsUsed := a.attachmentsUsed ++ [att] }
    else a

/-- The loop over the recent messages, which breaks at the first that does not fit. -/
def addRecent (a : Assembling) : List LoggedMessage → Assembling
  | [] => a
  | m :: rest => if m.tokens ≤ a.budget then addRecent (a.add m.segment) rest else a

/-- A message of the request is charged to the total only. -/
def addCurrent (a : Assembling) (m : RequestMessage) : Option Assembling :=
  m.content.tokens.map fun tokens =>
    { a with messages := a.messages ++ [m], totalTokens := a.totalTokens + tokens }

end Assembling

namespace SessionState

/-- The segments before the history, with what they cost. -/
def assembling (session : SessionState) (settings : ContextSettings) (orders : ReadOrders) :
    Assembling :=
  session.attachments.foldl (Assembling.addAttachment settings.fileStore)
    (((Assembling.start settings.tokenBudget).addInstructions session.systemInstructions
      |>.addSummary (session.getLatestSummary orders)).addFacts session.collectFacts)

/-- `assemble` with all that it returns. -/
def assembleContext (session : SessionState) (settings : ContextSettings) (orders : ReadOrders)
    (current : List RequestMessage) : Option AssembledContext :=
  let a := (session.assembling settings orders).addRecent (session.eligible settings orders)
  (current.foldlM Assembling.addCurrent a).map fun a =>
    { a.toAssembledContext with totalTokenEstimate := a.totalTokens }

end SessionState

/-! ## What a context is charged -/

def charge (segs : List Segment) : Int := (segs.map (·.2)).sum

namespace AssembledContext

/-- What a context has from the budget besides the history. -/
def used (ctx : AssembledContext) (fileStore : Option (String → Option String)) : List Segment :=
  ctx.summaryUsed.toList.map (·.segment) ++
    (if ctx.factsUsed.isEmpty then [] else [factSegment ctx.factsUsed]) ++
    ctx.attachmentsUsed.filterMap (·.segment fileStore)

/-- The messages of the context are those of the instructions, of what it has used, of the history,
and of the request; what is taken from the budget is within what the instructions leave; and the
total is the charge of them all. -/
structure Accounted (ctx : AssembledContext) (session : SessionState) (settings : ContextSettings)
    (history : List LoggedMessage) (current : List RequestMessage) : Prop where
  messages : ctx.messages = (instructionSegments session.systemInstructions).map (·.1) ++
    (ctx.used settings.fileStore ++ history.map (·.segment)).map (·.1) ++ current
  within : charge (ctx.used settings.fileStore ++ history.map (·.segment)) ≤
    max 0 (settings.tokenBudget - charge (instructionSegments session.systemInstructions))
  total : ctx.totalTokenEstimate = charge (instructionSegments session.systemInstructions) +
    charge (ctx.used settings.fileStore ++ history.map (·.segment)) +
    (current.filterMap (·.content.tokens)).sum

end AssembledContext

@[simp] theorem charge_nil : charge [] = 0 := rfl

@[simp] theorem charge_append (segs others : List Segment) :
    charge (segs ++ others) = charge segs + charge others := by
  simp [charge]

@[simp] theorem charge_singleton (seg : Segment) : charge [seg] = seg.2 := by
  simp [charge]

namespace Assembling

section
variable {a b : Assembling} {segs : List Segment} {seg : Segment}
  {fileStore : Option (String → Option String)} {tokenBudget : Int}

/-- The segments have been charged to the state `a` one after the other, each to what was left. -/
structure Charged (a b : Assembling) (segs : List Segment) : Prop where
  messages : b.messages = a.messages ++ segs.map (·.1)
  budget : b.budget = a.budget - charge segs
  totalTokens : b.totalTokens = a.totalTokens + charge segs
  within : charge segs ≤ max 0 a.budget

namespace Charged

theorem refl (a : Assembling) : Charged a a [] where
  messages := by simp
  budget := by simp
  totalTokens := by simp
  within := by simp

theorem add (h : Charged a b segs) (hfits : seg.2 ≤ b.budget) :
    Charged a (b.add seg) (segs ++ [seg]) where
  messages := by simp [Assembling.add, h.messages]
  budget := by
    have := h.budget
    simp only [Assembling.add, charge_append, charge_singleton]
    omega
  totalTokens := by
    have := h.totalTokens
    simp only [Assembling.add, charge_append, charge_singleton]
    omega
  within := by
    have := h.budget
    rw [charge_append, charge_singleton]
    omega

end Charged

/-- What the state has used is what has been charged to `a`. -/
def Spent (fileStore : Option (String → Option String)) (a b : Assembling) : Prop :=
  Charged a b (b.used fileStore)

theorem spent_addSummary (latest : Option SessionSummary) (hsummary : a.summaryUsed = none)
    (hfacts : a.factsUsed = []) (hatts : a.attachmentsUsed = []) :
    Spent fileStore a (a.addSummary latest) ∧ (a.addSummary latest).factsUsed = [] ∧
      (a.addSummary latest).attachmentsUsed = [] := by
  have hused : Spent fileStore a a := by
    have hnil : a.used fileStore = [] := by
      simp [AssembledContext.used, hsummary, hfacts, hatts]
    rw [Spent, hnil]
    exact Charged.refl a
  cases latest with
  | none => exact ⟨hused, hfacts, hatts⟩
  | some summary =>
    rw [addSummary]
    split
    next hfits =>
      have h := (Charged.refl a).add hfits
      refine ⟨?_, hfacts, hatts⟩
      simp only [Spent, AssembledContext.used, add, hfacts, hatts]
      exact ⟨h.messages, h.budget, h.totalTokens, h.within⟩
    next => exact ⟨hused, hfacts, hatts⟩

theorem spent_addFacts (h : Spent fileStore a b) (facts : List MemoryFact)
    (hfacts : b.factsUsed = []) (hatts : b.attachmentsUsed = []) :
    Spent fileStore a (b.addFacts facts) ∧ (b.addFacts facts).attachmentsUsed = [] := by
  unfold addFacts
  split
  next => exact ⟨h, hatts⟩
  next hne =>
    split
    next hfits =>
      have hadd := Charged.add h hfits
      have hused : b.used fileStore = b.summaryUsed.toList.map (·.segment) := by
        simp [AssembledContext.used, hfacts, hatts]
      rw [hused] at hadd
      refine ⟨?_, hatts⟩
      simp only [Spent, AssembledContext.used, add, hatts, hne]
      simpa using ⟨hadd.messages, hadd.budget, hadd.totalTokens, hadd.within⟩
    next => exact ⟨h, hatts⟩

theorem spent_addAttachment (h : Spent fileStore a b) (att : ChatAttachment) :
    Spent fileStore a (b.addAttachment fileStore att) := by
  unfold addAttachment
  split
  next => exact h
  next seg hseg =>
    split
    next hfits =>
      have hadd := Charged.add h hfits
      have hused : b.used fileStore ++ [seg] =
          ({ b.add seg with attachmentsUsed := b.attachmentsUsed ++ [att] } : Assembling).used
            fileStore := by
        simp [AssembledContext.used, add, hseg]
      rw [hused] at hadd
      exact ⟨hadd.messages, hadd.budget, hadd.totalTokens, hadd.within⟩
    next => exact h

theorem spent_addAttachments (h : Spent fileStore a b) (atts : List ChatAttachment) :
    Spent fileStore a (atts.foldl (addAttachment fileStore) b) := by
  induction atts generalizing b with
  | nil => exact h
  | cons att atts ih => exact ih (spent_addAttachment h att)

/-- The history is what the loop takes from the front of the recent messages. -/
theorem charged_addRecent (h : Charged a b segs) (recent : List LoggedMessage) :
    Charged a (b.addRecent recent)
      (segs ++ (fitting LoggedMessage.tokens b.budget recent).map (·.segment)) := by
  induction recent generalizing b segs with
  | nil => simpa [addRecent, fitting] using h
  | cons m rest ih =>
    rw [addRecent, fitting]
    split
    next hfits =>
      have hseg : m.segment.2 ≤ b.budget := hfits
      have hadd := ih (h.add hseg)
      rw [List.append_assoc] at hadd
      exact hadd
    next => simpa using h

/-- The loop changes nothing that has been used before. -/
theorem used_addRecent (recent : List LoggedMessage) :
    (b.addRecent recent).used fileStore = b.used fileStore := by
  induction recent generalizing b with
  | nil => rfl
  | cons m rest ih =>
    rw [addRecent]
    split
    next => exact ih
    next => rfl

/-- The messages of the request go behind the others, and only the total is charged for them. -/
theorem addCurrent_foldlM {current : List RequestMessage}
    (h : current.foldlM addCurrent a = some b) :
    b.messages = a.messages ++ current ∧
      (∀ fileStore, b.used fileStore = a.used fileStore) ∧
      b.totalTokens = a.totalTokens + (current.filterMap (·.content.tokens)).sum := by
  induction current generalizing a with
  | nil =>
    obtain rfl : a = b := Option.some.inj h
    simp
  | cons m current ih =>
    rw [List.foldlM_cons] at h
    obtain ⟨next, hnext, hrest⟩ := Option.bind_eq_some_iff.1 h
    obtain ⟨tokens, htokens, rfl⟩ := Option.map_eq_some_iff.1 hnext
    obtain ⟨hmessages, hused, htotal⟩ := ih hrest
    refine ⟨by simpa using hmessages, hused, ?_⟩
    have hcons : (m :: current).filterMap (·.content.tokens) =
        tokens :: current.filterMap (·.content.tokens) := List.filterMap_cons_some htokens
    rw [hcons, List.sum_cons]
    simp only at htotal
    omega

/-- The part of the state that is a `ContextSoFar`. -/
def soFar (a : Assembling) : ContextSoFar := ⟨a.messages, a.budget⟩

theorem soFar_addInstructions (instructions : Option String) :
    (a.addInstructions instructions).soFar = a.soFar.addInstructions instructions := by
  unfold addInstructions instructionSegments ContextSoFar.addInstructions
  cases instructions.filter (· ≠ "") with
  | none => rfl
  | some text => rfl

theorem soFar_addSummary (latest : Option SessionSummary) :
    (a.addSummary latest).soFar = a.soFar.addSummary latest := by
  cases latest with
  | none => rfl
  | some summary => exact apply_ite soFar _ _ _

theorem soFar_addFacts (facts : List MemoryFact) :
    (a.addFacts facts).soFar = a.soFar.addFacts facts := by
  unfold addFacts ContextSoFar.addFacts
  split
  next => rfl
  next => exact apply_ite soFar _ _ _

theorem soFar_addAttachment (att : ChatAttachment) :
    (a.addAttachment fileStore att).soFar = a.soFar.addAttachment fileStore att := by
  unfold addAttachment ContextSoFar.addAttachment ChatAttachment.segment
  cases att.extractionStatus with
  | completed =>
    cases att.extractedText.filter (· ≠ "") with
    | none => rfl
    | some text => exact apply_ite soFar _ _ _
  | skipped =>
    cases fileStore.bind (· att.storageKey) with
    | none => rfl
    | some b64 => exact apply_ite soFar _ _ _
  | pending => rfl
  | failed => rfl

theorem soFar_addAttachments (atts : List ChatAttachment) :
    (atts.foldl (addAttachment fileStore) a).soFar =
      atts.foldl (ContextSoFar.addAttachment fileStore) a.soFar := by
  induction atts generalizing a with
  | nil => rfl
  | cons att atts ih => rw [List.foldl_cons, List.foldl_cons, ih, soFar_addAttachment]

/-- The messages of the request are added unless one has content `null`. -/
theorem addCurrent_foldlM_isSome (current : List RequestMessage) :
    (current.foldlM addCurrent a).isSome = current.all (·.content ≠ .null) := by
  induction current generalizing a with
  | nil => rfl
  | cons m current ih =>
    rw [List.foldlM_cons, List.all_cons, addCurrent]
    cases hcontent : m.content with
    | null => rfl
    | text t => exact ih
    | parts ps => exact ih

end

end Assembling

section
variable {session : SessionState} {settings : ContextSettings} {orders : ReadOrders}
  {current : List RequestMessage} {ctx : AssembledContext}

theorem soFar_assembling :
    (session.assembling settings orders).soFar = session.segments settings orders := by
  unfold SessionState.assembling SessionState.segments
  rw [Assembling.soFar_addAttachments, Assembling.soFar_addFacts, Assembling.soFar_addSummary,
    Assembling.soFar_addInstructions]
  rfl

/-- The instructions are charged whatever the budget is. -/
theorem addInstructions_start (tokenBudget : Int) (instructions : Option String) :
    (Assembling.start tokenBudget).addInstructions instructions =
      ⟨⟨(instructionSegments instructions).map (·.1), none, [], [], 0⟩,
        tokenBudget - charge (instructionSegments instructions),
        charge (instructionSegments instructions)⟩ := by
  unfold Assembling.addInstructions instructionSegments
  cases instructions.filter (· ≠ "") with
  | none => simp [Assembling.start]
  | some text => simp [Assembling.start, Assembling.add]

/-- What is used before the history is charged to what the instructions leave. -/
theorem spent_assembling (session : SessionState) (settings : ContextSettings)
    (orders : ReadOrders) : Assembling.Spent settings.fileStore
    ((Assembling.start settings.tokenBudget).addInstructions session.systemInstructions)
    (session.assembling settings orders) := by
  have hstart := addInstructions_start settings.tokenBudget session.systemInstructions
  obtain ⟨hsummary, hfacts, hatts⟩ := Assembling.spent_addSummary
    (session.getLatestSummary orders) (congrArg (·.summaryUsed) hstart)
    (congrArg (·.factsUsed) hstart) (congrArg (·.attachmentsUsed) hstart)
  obtain ⟨h, hatts⟩ := Assembling.spent_addFacts hsummary session.collectFacts hfacts hatts
  exact Assembling.spent_addAttachments h session.attachments

/-- So is the history. -/
theorem charged_history (session : SessionState) (settings : ContextSettings)
    (orders : ReadOrders) : Assembling.Charged
    ((Assembling.start settings.tokenBudget).addInstructions session.systemInstructions)
    ((session.assembling settings orders).addRecent (session.eligible settings orders))
    ((session.assembling settings orders).used settings.fileStore ++
      (session.history settings orders).map (·.segment)) := by
  have hbudget : (session.assembling settings orders).budget =
      (session.segments settings orders).budget := congrArg (·.budget) soFar_assembling
  have h := Assembling.charged_addRecent (spent_assembling session settings orders)
    (session.eligible settings orders)
  rwa [hbudget] at h

/-- What a context takes from the budget is within what the instructions leave, and the total that
it reports is the charge of all that it includes. -/
theorem assembleContext_accounted
    (h : session.assembleContext settings orders current = some ctx) :
    ctx.Accounted session settings (session.history settings orders) current := by
  obtain ⟨b, hb, rfl⟩ := Option.map_eq_some_iff.1 h
  obtain ⟨hmessages, hused, htotal⟩ := Assembling.addCurrent_foldlM hb
  have hcharged := charged_history session settings orders
  rw [addInstructions_start] at hcharged
  have heq : b.used settings.fileStore =
      (session.assembling settings orders).used settings.fileStore :=
    (hused _).trans (Assembling.used_addRecent _)
  refine ⟨?_, ?_, ?_⟩
  · change b.messages = _ ++ (b.used settings.fileStore ++ _).map (·.1) ++ current
    rw [hmessages, hcharged.messages, heq]
  · change charge (b.used settings.fileStore ++ _) ≤ _
    rw [heq]
    exact hcharged.within
  · change b.totalTokens = _ + charge (b.used settings.fileStore ++ _) + _
    rw [htotal, hcharged.totalTokens, heq]

theorem segments_messages : (session.segments settings orders).messages =
    (instructionSegments session.systemInstructions).map (·.1) ++
      ((session.assembling settings orders).used settings.fileStore).map (·.1) := by
  have h := (spent_assembling session settings orders).messages
  rw [addInstructions_start] at h
  exact (congrArg (·.messages) soFar_assembling).symm.trans h

/-- The messages are those of `assemble`. -/
theorem assembleContext_messages (session : SessionState) (settings : ContextSettings)
    (orders : ReadOrders) (current : List RequestMessage) :
    (session.assembleContext settings orders current).map (·.messages) =
      session.assemble settings orders current := by
  have hsome : (session.assembleContext settings orders current).isSome =
      current.all (·.content ≠ .null) := by
    rw [SessionState.assembleContext, Option.isSome_map, Assembling.addCurrent_foldlM_isSome]
  cases hctx : session.assembleContext settings orders current with
  | none =>
    rw [hctx] at hsome
    obtain ⟨m, hm, hnull⟩ := List.all_eq_false.1 hsome.symm
    cases hout : session.assemble settings orders current with
    | none => rfl
    | some out => exact (hnull (by simpa using noNull_of_assemble hout m hm)).elim
  | some ctx =>
    rw [hctx] at hsome
    rw [assemble_eq session settings orders (by simpa using hsome.symm), segments_messages]
    obtain ⟨b, hb, rfl⟩ := Option.map_eq_some_iff.1 hctx
    obtain ⟨hmessages, -, -⟩ := Assembling.addCurrent_foldlM hb
    have hcharged := (charged_history session settings orders).messages
    rw [addInstructions_start] at hcharged
    change some b.messages = _
    rw [hmessages, hcharged, List.map_append, List.map_map, ← List.append_assoc]
    rfl

end

/-- A session with something of everything. -/
def fullSession : SessionState where
  systemInstructions := some "Be brief."
  summaries := [⟨"They greeted.", 1#128, 3, 1⟩]
  userFacts := [⟨"language", "English"⟩]
  projectFacts := []
  sessionFacts := []
  sessionAttachments := [⟨3#128, "a.txt", "text/plain", "a", .completed, some "Some text", true⟩]
  projectAttachments := [⟨4#128, "b.png", "image/png", "b", .skipped, none, false⟩]
  log := [⟨1#128, "user", "Hi", none, none, 0⟩, ⟨2#128, "assistant", "Hello", none, some 5, 2⟩]

theorem assembleContext_accounted_fullSession : ∃ ctx : AssembledContext,
    fullSession.assembleContext ⟨20, 120, some fun _ => some "AA=="⟩
      ⟨.stable _, .stable _, .stable _⟩ [⟨some "user", .text "Go on"⟩] = some ctx ∧
    ctx.totalTokenEstimate = 112 ∧
    ctx.Accounted fullSession ⟨20, 120, some fun _ => some "AA=="⟩
      (fullSession.history ⟨20, 120, some fun _ => some "AA=="⟩
        ⟨.stable _, .stable _, .stable _⟩) [⟨some "user", .text "Go on"⟩] :=
  ⟨_, rfl, by decide +kernel, assembleContext_accounted rfl⟩

end LlmPort.Gateway
