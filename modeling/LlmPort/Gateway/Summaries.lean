import LlmPort.Gateway.SessionContext
import LlmPort.Transition.Run

/-!
# Summaries of a session

`Summarizer` of `services/gateway/summarizer.py` beside the requests that append to the log of one
session. `created_at` is the time at which the row's transaction began, and a row can be read once
its transaction has committed. Which messages a summary is made from is recorded with it.
-/

namespace LlmPort.Gateway

open Ranking Transition

structure CoveredSummary extends SessionSummary where
  /-- The messages in the text it was made from, and those of the previous summary in that text. -/
  covers : List LoggedMessage

/-- A transaction that appends messages. -/
structure AppendTransaction where
  begun : Int
  rows : List LoggedMessage
  isOpen : Bool

/-- One run of `maybe_summarise`. -/
structure SummaryRun where
  begun : Int
  existing : Option CoveredSummary
  /-- `messages`, once they are listed. -/
  listed : Option (List LoggedMessage)
  ended : Bool

structure SummarySys where
  clock : Int
  log : List LoggedMessage
  summaries : List CoveredSummary
  transactions : List AppendTransaction
  runs : List SummaryRun

structure SummarySettings where
  threshold : Nat
  maxRecentMessages : Nat
  listOrder : TimeOrder LoggedMessage.createdAt
  recentOrder : TimeOrder LoggedMessage.createdAt
  latestOrder : TimeOrder fun s : CoveredSummary => s.createdAt

inductive SummaryEvent where
  | begin (now : Int)
  | append (t : Nat) (row : LoggedMessage)
  | commit (t : Nat)
  /-- A run begins, and reads the latest summary. -/
  | startRun (now : Int)
  | listMessages (r : Nat)
  /-- The answer of the model, `none` when the call raises. -/
  | finishRun (r : Nat) (answer : Option String)

namespace SummarySys

def fresh : SummarySys := ⟨0, [], [], [], []⟩

def getLatestSummary (cfg : SummarySettings) (sys : SummarySys) : Option CoveredSummary :=
  cfg.latestOrder.newest sys.summaries

/-- `list_messages` -/
def listMessages (cfg : SummarySettings) (sys : SummarySys) (afterMessageId : Option SessionUuid) :
    List LoggedMessage :=
  match afterMessageId with
  | none => cfg.listOrder.sort sys.log
  | some id => match sys.log.find? (·.id = id) with
    | none => []
    | some cutoff => (cfg.listOrder.sort sys.log).filter fun m => m.createdAt > cutoff.createdAt

/-- The messages that may come into the history of a request, before the budget. -/
def eligible (cfg : SummarySettings) (sys : SummarySys) : List LoggedMessage :=
  afterSummary ((sys.getLatestSummary cfg).map (·.toSessionSummary))
    (cfg.recentOrder.recent cfg.maxRecentMessages sys.log)

/-- No row has the id yet. -/
def isFresh (sys : SummarySys) (id : SessionUuid) : Bool :=
  sys.log.all (·.id ≠ id) && sys.transactions.all (·.rows.all (·.id ≠ id))

def openTransaction (sys : SummarySys) (t : Nat) : Option AppendTransaction :=
  sys.transactions[t]?.filter (·.isOpen)

/-- The run, while it awaits the model. -/
def awaiting (sys : SummarySys) (r : Nat) : Option (SummaryRun × List LoggedMessage) :=
  (sys.runs[r]?.filter (!·.ended)).bind fun run => run.listed.map fun messages => (run, messages)

end SummarySys

/-- `_produce_summary`, with the threshold before it: the row that is made. -/
def SummaryRun.summary (cfg : SummarySettings) (run : SummaryRun) (messages : List LoggedMessage)
    (answer : Option String) : Option CoveredSummary :=
  if messages.length < cfg.threshold then none
  else (answer.filter (· ≠ "")).bind fun text => messages.getLast?.map fun last =>
    { summaryText := text
      lastMessageId := last.id
      tokenEstimate := estimateText text
      createdAt := run.begun
      covers := ((run.existing.map (·.covers)).getD []) ++ messages }

namespace SummarySys

def step (cfg : SummarySettings) (sys : SummarySys) : SummaryEvent → SummarySys
  | .begin now =>
    if sys.clock ≤ now then
      { sys with clock := now, transactions := sys.transactions ++ [⟨now, [], true⟩] }
    else sys
  | .append t row => match sys.openTransaction t with
    | none => sys
    | some tx =>
      if sys.isFresh row.id then
        let rows := tx.rows ++ [{ row with createdAt := tx.begun }]
        { sys with transactions := sys.transactions.set t { tx with rows } }
      else sys
  | .commit t => match sys.openTransaction t with
    | none => sys
    | some tx =>
      { sys with
        log := sys.log ++ tx.rows
        transactions := sys.transactions.set t { tx with isOpen := false } }
  | .startRun now =>
    if sys.clock ≤ now then
      { sys with clock := now, runs := sys.runs ++ [⟨now, sys.getLatestSummary cfg, none, false⟩] }
    else sys
  | .listMessages r => match sys.runs[r]?.filter (·.listed.isNone) with
    | none => sys
    | some run =>
      let messages := sys.listMessages cfg (run.existing.map (·.lastMessageId))
      { sys with runs := sys.runs.set r { run with listed := some messages } }
  | .finishRun r answer => match sys.awaiting r with
    | none => sys
    | some (run, messages) =>
      { sys with
        summaries := sys.summaries ++ (run.summary cfg messages answer).toList
        runs := sys.runs.set r { run with ended := true } }

end SummarySys

/-- Every message is among those of the latest summary, or may come into the history. -/
def NoneLost (cfg : SummarySettings) (sys : SummarySys) : Prop :=
  ∀ m ∈ sys.log, (∃ s, sys.getLatestSummary cfg = some s ∧ m ∈ s.covers) ∨ m ∈ sys.eligible cfg

namespace SummarySys

/-- A transaction that commits began after the run of the latest summary, and the messages that it
pushes out of the most recent ones are covered; and the messages that a new latest summary does not
cover are of transactions begun after its run, and among the most recent ones. -/
def losesNone (cfg : SummarySettings) (sys : SummarySys) : SummaryEvent → Prop
  | .commit t => ∀ tx, sys.openTransaction t = some tx →
    (tx.rows ≠ [] → ∀ s, sys.getLatestSummary cfg = some s → s.createdAt < tx.begun) ∧
    ∀ m ∈ sys.log ++ tx.rows,
      m ∈ cfg.recentOrder.recent cfg.maxRecentMessages (sys.log ++ tx.rows) ∨
        ∃ s, sys.getLatestSummary cfg = some s ∧ m ∈ s.covers
  | .finishRun r answer => ∀ run messages, sys.awaiting r = some (run, messages) →
    ∀ s, run.summary cfg messages answer = some s →
    ∀ latest, cfg.latestOrder.newest (sys.summaries ++ [s]) = some latest →
    ∀ m ∈ sys.log, m ∉ latest.covers → latest.createdAt < m.createdAt ∧
      m ∈ cfg.recentOrder.recent cfg.maxRecentMessages sys.log
  | _ => True

end SummarySys

/-- What every step preserves. -/
structure SummaryInv (sys : SummarySys) : Prop where
  begun : ∀ (t : Nat) tx, sys.transactions[t]? = some tx → ∀ m ∈ tx.rows, m.createdAt = tx.begun
  unread : ∀ (t : Nat) tx, sys.transactions[t]? = some tx → tx.isOpen → ∀ m ∈ tx.rows,
    ∀ x ∈ sys.log, x.id ≠ m.id
  apart : ∀ (t t' : Nat) tx tx', sys.transactions[t]? = some tx → sys.transactions[t']? = some tx' →
    t ≠ t' → ∀ m ∈ tx.rows, ∀ x ∈ tx'.rows, x.id ≠ m.id
  summaries : ∀ s ∈ sys.summaries, s.covers ⊆ sys.log
  existing : ∀ run ∈ sys.runs, ∀ s, run.existing = some s → s.covers ⊆ sys.log
  listed : ∀ run ∈ sys.runs, ∀ messages, run.listed = some messages → messages ⊆ sys.log

section
variable {cfg : SummarySettings} {sys : SummarySys} {e : SummaryEvent} {m : LoggedMessage}
  {t r : Nat}

theorem mem_eligible_iff : m ∈ sys.eligible cfg ↔
    m ∈ cfg.recentOrder.recent cfg.maxRecentMessages sys.log ∧
      ∀ s, sys.getLatestSummary cfg = some s → s.createdAt < m.createdAt := by
  unfold SummarySys.eligible
  cases sys.getLatestSummary cfg with
  | none => simp [afterSummary]
  | some s => simp [afterSummary, List.mem_filter]

theorem openTransaction_eq_some {tx : AppendTransaction} :
    sys.openTransaction t = some tx ↔ sys.transactions[t]? = some tx ∧ tx.isOpen := by
  simp [SummarySys.openTransaction, Option.filter_eq_some_iff]

theorem of_awaiting {run : SummaryRun} {messages : List LoggedMessage}
    (h : sys.awaiting r = some (run, messages)) : run ∈ sys.runs ∧ run.listed = some messages := by
  obtain ⟨run', hrun, h⟩ := Option.bind_eq_some_iff.1 h
  obtain ⟨messages', hlisted, heq⟩ := Option.map_eq_some_iff.1 h
  cases heq
  exact ⟨List.mem_of_getElem? (Option.filter_eq_some_iff.1 hrun).1, hlisted⟩

theorem listMessages_subset {afterMessageId : Option SessionUuid} :
    sys.listMessages cfg afterMessageId ⊆ sys.log := by
  intro m h
  unfold SummarySys.listMessages at h
  split at h
  next => exact TimeOrder.mem_sort.1 h
  next =>
    split at h
    next => cases h
    next => exact TimeOrder.mem_sort.1 (List.mem_of_mem_filter h)

theorem summary_covers_subset {run : SummaryRun} {messages log : List LoggedMessage}
    {answer : Option String} {s : CoveredSummary} (h : run.summary cfg messages answer = some s)
    (hexisting : ∀ s, run.existing = some s → s.covers ⊆ log) (hlisted : messages ⊆ log) :
    s.covers ⊆ log := by
  unfold SummaryRun.summary at h
  split at h
  next => cases h
  next =>
    obtain ⟨text, -, h⟩ := Option.bind_eq_some_iff.1 h
    obtain ⟨last, -, rfl⟩ := Option.map_eq_some_iff.1 h
    intro m hm
    obtain hm | hm := List.mem_append.1 hm
    · cases he : run.existing with
      | none =>
        rw [he] at hm
        cases hm
      | some s =>
        rw [he] at hm
        exact hexisting s he hm
    · exact hlisted hm

theorem isFresh_iff {id : SessionUuid} : sys.isFresh id ↔
    (∀ x ∈ sys.log, x.id ≠ id) ∧ ∀ tx ∈ sys.transactions, ∀ x ∈ tx.rows, x.id ≠ id := by
  simp [SummarySys.isFresh]

namespace SummaryInv

theorem begin (h : SummaryInv sys) {now : Int} : SummaryInv (sys.step cfg (.begin now)) := by
  unfold SummarySys.step
  dsimp only
  split
  next =>
    have hold {t : Nat} {tx : AppendTransaction} {m : LoggedMessage}
        (ht : (sys.transactions ++ [⟨now, [], true⟩])[t]? = some tx) (hm : m ∈ tx.rows) :
        sys.transactions[t]? = some tx := by
      rcases Nat.lt_or_ge t sys.transactions.length with hlt | hge
      · rwa [List.getElem?_append_left hlt] at ht
      · rw [List.getElem?_append_right hge] at ht
        rw [List.mem_singleton.1 (List.mem_of_getElem? ht)] at hm
        cases hm
    exact
      { h with
        begun := fun t tx ht m hm => h.begun t tx (hold ht hm) m hm
        unread := fun t tx ht ho m hm => h.unread t tx (hold ht hm) ho m hm
        apart := fun t t' tx tx' ht ht' hne m hm x hx =>
          h.apart t t' tx tx' (hold ht hm) (hold ht' hx) hne m hm x hx }
  next => exact h

theorem append (h : SummaryInv sys) {row : LoggedMessage} :
    SummaryInv (sys.step cfg (.append t row)) := by
  unfold SummarySys.step
  dsimp only
  split
  next => exact h
  next tx htx =>
    obtain ⟨ht, ho⟩ := openTransaction_eq_some.1 htx
    obtain ⟨hlt, -⟩ := List.getElem?_eq_some_iff.1 ht
    split
    next hfresh =>
      obtain ⟨hlog, hrows⟩ := isFresh_iff.1 hfresh
      -- the rows of a transaction after the step are those before it, and the new one in `t`
      have hold {t' : Nat} {tx' : AppendTransaction}
          (ht' : (sys.transactions.set t { tx with
            rows := tx.rows ++ [{ row with createdAt := tx.begun }] })[t']? = some tx') :
          ∃ old, sys.transactions[t']? = some old ∧ old.begun = tx'.begun ∧
            old.isOpen = tx'.isOpen ∧ ∀ m ∈ tx'.rows, m ∈ old.rows ∨
              t = t' ∧ m = { row with createdAt := tx.begun } := by
        by_cases hne : t = t'
        · subst hne
          rw [List.getElem?_set_self hlt] at ht'
          cases ht'
          refine ⟨tx, ht, rfl, rfl, fun m hm => ?_⟩
          obtain hm | hm := List.mem_append.1 hm
          · exact .inl hm
          · exact .inr ⟨rfl, List.mem_singleton.1 hm⟩
        · rw [List.getElem?_set_ne hne] at ht'
          exact ⟨tx', ht', rfl, rfl, fun m hm => .inl hm⟩
      refine { h with begun := ?_, unread := ?_, apart := ?_ }
      · intro t' tx' ht' m hm
        obtain ⟨old, hold, hbegun, -, hrow⟩ := hold ht'
        obtain hm | ⟨rfl, rfl⟩ := hrow m hm
        · exact (h.begun t' old hold m hm).trans hbegun
        · rw [ht] at hold
          cases hold
          exact hbegun
      · intro t' tx' ht' ho' m hm
        obtain ⟨old, hold, -, hopen, hrow⟩ := hold ht'
        obtain hm | ⟨-, rfl⟩ := hrow m hm
        · exact h.unread t' old hold (hopen.trans ho') m hm
        · exact hlog
      · intro t₁ t₂ tx₁ tx₂ ht₁ ht₂ hne m hm x hx
        obtain ⟨old₁, hold₁, -, -, hrow₁⟩ := hold ht₁
        obtain ⟨old₂, hold₂, -, -, hrow₂⟩ := hold ht₂
        obtain hm | ⟨rfl, rfl⟩ := hrow₁ m hm
        · obtain hx | ⟨rfl, rfl⟩ := hrow₂ x hx
          · exact h.apart t₁ t₂ old₁ old₂ hold₁ hold₂ hne m hm x hx
          · exact (hrows old₁ (List.mem_of_getElem? hold₁) m hm).symm
        · obtain hx | ⟨rfl, -⟩ := hrow₂ x hx
          · exact hrows old₂ (List.mem_of_getElem? hold₂) x hx
          · exact (hne rfl).elim
    next => exact h

theorem commit (h : SummaryInv sys) : SummaryInv (sys.step cfg (.commit t)) := by
  unfold SummarySys.step
  dsimp only
  split
  next => exact h
  next tx htx =>
    obtain ⟨ht, ho⟩ := openTransaction_eq_some.1 htx
    obtain ⟨hlt, -⟩ := List.getElem?_eq_some_iff.1 ht
    have hgrow : sys.log ⊆ sys.log ++ tx.rows := List.subset_append_left ..
    have hold {t' : Nat} {tx' : AppendTransaction}
        (ht' : (sys.transactions.set t { tx with isOpen := false })[t']? = some tx') :
        ∃ old, sys.transactions[t']? = some old ∧ old.begun = tx'.begun ∧ old.rows = tx'.rows ∧
          (tx'.isOpen → old.isOpen ∧ t ≠ t') := by
      by_cases hne : t = t'
      · subst hne
        rw [List.getElem?_set_self hlt] at ht'
        cases ht'
        exact ⟨tx, ht, rfl, rfl, fun ho => by cases ho⟩
      · rw [List.getElem?_set_ne hne] at ht'
        exact ⟨tx', ht', rfl, rfl, fun ho => ⟨ho, hne⟩⟩
    constructor
    · intro t' tx' ht' m hm
      obtain ⟨old, hold, hbegun, hrows, -⟩ := hold ht'
      exact (h.begun t' old hold m (hrows ▸ hm)).trans hbegun
    · intro t' tx' ht' ho' m hm x hx
      obtain ⟨old, hold, -, hrows, hopen⟩ := hold ht'
      obtain ⟨hopen, hne⟩ := hopen ho'
      rw [← hrows] at hm
      obtain hx | hx := List.mem_append.1 hx
      · exact h.unread t' old hold hopen m hm x hx
      · exact h.apart t' t old tx hold ht hne.symm m hm x hx
    · intro t₁ t₂ tx₁ tx₂ ht₁ ht₂ hne m hm x hx
      obtain ⟨old₁, hold₁, -, hrows₁, -⟩ := hold ht₁
      obtain ⟨old₂, hold₂, -, hrows₂, -⟩ := hold ht₂
      exact h.apart t₁ t₂ old₁ old₂ hold₁ hold₂ hne m (hrows₁ ▸ hm) x (hrows₂ ▸ hx)
    · exact fun s hs => List.Subset.trans (h.summaries s hs) hgrow
    · exact fun run hrun s hs => List.Subset.trans (h.existing run hrun s hs) hgrow
    · exact fun run hrun messages hm => List.Subset.trans (h.listed run hrun messages hm) hgrow

theorem startRun (h : SummaryInv sys) {now : Int} : SummaryInv (sys.step cfg (.startRun now)) := by
  unfold SummarySys.step
  dsimp only
  split
  next =>
    refine { h with existing := ?_, listed := ?_ }
    · intro run hrun s hs
      obtain hrun | hrun := List.mem_append.1 hrun
      · exact h.existing run hrun s hs
      · rw [List.mem_singleton.1 hrun] at hs
        exact h.summaries s (TimeOrder.mem_of_newest hs)
    · intro run hrun messages hm
      obtain hrun | hrun := List.mem_append.1 hrun
      · exact h.listed run hrun messages hm
      · rw [List.mem_singleton.1 hrun] at hm
        cases hm
  next => exact h

theorem listMessages (h : SummaryInv sys) : SummaryInv (sys.step cfg (.listMessages r)) := by
  unfold SummarySys.step
  dsimp only
  split
  next => exact h
  next run hrun =>
    have hmem := List.mem_of_getElem? (Option.filter_eq_some_iff.1 hrun).1
    refine { h with existing := ?_, listed := ?_ }
    · intro run' hrun' s hs
      obtain hrun' | rfl := List.mem_or_eq_of_mem_set hrun'
      · exact h.existing run' hrun' s hs
      · exact h.existing run hmem s hs
    · intro run' hrun' messages hm
      obtain hrun' | rfl := List.mem_or_eq_of_mem_set hrun'
      · exact h.listed run' hrun' messages hm
      · cases hm
        exact listMessages_subset

theorem finishRun (h : SummaryInv sys) {answer : Option String} :
    SummaryInv (sys.step cfg (.finishRun r answer)) := by
  unfold SummarySys.step
  dsimp only
  split
  next => exact h
  next run messages hawait =>
    obtain ⟨hmem, hlisted⟩ := of_awaiting hawait
    refine { h with summaries := ?_, existing := ?_, listed := ?_ }
    · intro s hs
      obtain hs | hs := List.mem_append.1 hs
      · exact h.summaries s hs
      · exact summary_covers_subset (Option.mem_toList.1 hs) (h.existing run hmem)
          (h.listed run hmem messages hlisted)
    · intro run' hrun' s hs
      obtain hrun' | rfl := List.mem_or_eq_of_mem_set hrun'
      · exact h.existing run' hrun' s hs
      · exact h.existing run hmem s hs
    · intro run' hrun' messages' hm
      obtain hrun' | rfl := List.mem_or_eq_of_mem_set hrun'
      · exact h.listed run' hrun' messages' hm
      · exact h.listed run hmem messages' hm

theorem step (h : SummaryInv sys) : SummaryInv (sys.step cfg e) := by
  cases e with
  | begin => exact h.begin
  | append => exact h.append
  | commit => exact h.commit
  | startRun => exact h.startRun
  | listMessages => exact h.listMessages
  | finishRun => exact h.finishRun

end SummaryInv

theorem noneLost_congr {sys' : SummarySys} (hlog : sys'.log = sys.log)
    (hsummaries : sys'.summaries = sys.summaries) : NoneLost cfg sys' ↔ NoneLost cfg sys := by
  unfold NoneLost SummarySys.eligible SummarySys.getLatestSummary
  rw [hlog, hsummaries]

/-- A transaction commits: its rows are covered by no summary yet. -/
theorem noneLost_commit_iff (h : SummaryInv sys) (hn : NoneLost cfg sys) :
    NoneLost cfg (sys.step cfg (.commit t)) ↔ sys.losesNone cfg (.commit t) := by
  cases htx : sys.openTransaction t with
  | none =>
    have hstep : sys.step cfg (.commit t) = sys := by simp [SummarySys.step, htx]
    rw [hstep]
    exact iff_of_true hn fun tx htx' => by rw [htx] at htx'; cases htx'
  | some tx =>
    obtain ⟨ht, ho⟩ := openTransaction_eq_some.1 htx
    have hlog : (sys.step cfg (.commit t)).log = sys.log ++ tx.rows := by
      simp [SummarySys.step, htx]
    have hlatest : (sys.step cfg (.commit t)).getLatestSummary cfg = sys.getLatestSummary cfg := by
      simp [SummarySys.step, htx, SummarySys.getLatestSummary]
    constructor
    · intro hn' tx' htx'
      rw [htx] at htx'
      cases htx'
      constructor
      · intro hne s hs
        obtain ⟨m, hm⟩ := List.exists_mem_of_ne_nil _ hne
        obtain ⟨s', hs', hcovered⟩ | helig := hn' m (hlog ▸ List.mem_append_right _ hm)
        · have hread := h.summaries s' (TimeOrder.mem_of_newest (hlatest ▸ hs')) hcovered
          exact (h.unread t tx ht ho m hm m hread rfl).elim
        · rw [← h.begun t tx ht m hm]
          exact (mem_eligible_iff.1 helig).2 s (hlatest ▸ hs)
      · intro m hm
        obtain ⟨s, hs, hcovered⟩ | helig := hn' m (hlog ▸ hm)
        · exact .inr ⟨s, hlatest ▸ hs, hcovered⟩
        · exact .inl (hlog ▸ (mem_eligible_iff.1 helig).1)
    · intro hok m hm
      obtain ⟨hnewer, hrecent⟩ := hok tx htx
      rw [hlog] at hm
      obtain hrecent | ⟨s, hs, hcovered⟩ := hrecent m hm
      · obtain hm | hm := List.mem_append.1 hm
        · obtain ⟨s, hs, hcovered⟩ | helig := hn m hm
          · exact .inl ⟨s, hlatest ▸ hs, hcovered⟩
          · refine .inr (mem_eligible_iff.2 ⟨hlog ▸ hrecent, fun s hs => ?_⟩)
            exact (mem_eligible_iff.1 helig).2 s (hlatest ▸ hs)
        · refine .inr (mem_eligible_iff.2 ⟨hlog ▸ hrecent, fun s hs => ?_⟩)
          rw [h.begun t tx ht m hm]
          exact hnewer (List.ne_nil_of_mem hm) s (hlatest ▸ hs)
      · exact .inl ⟨s, hlatest ▸ hs, hcovered⟩

theorem noneLost_finishRun_iff {answer : Option String} (hn : NoneLost cfg sys) :
    NoneLost cfg (sys.step cfg (.finishRun r answer)) ↔
      sys.losesNone cfg (.finishRun r answer) := by
  cases hawait : sys.awaiting r with
  | none =>
    have hstep : sys.step cfg (.finishRun r answer) = sys := by simp [SummarySys.step, hawait]
    rw [hstep]
    exact iff_of_true hn fun run messages h => by rw [hawait] at h; cases h
  | some x =>
    obtain ⟨run, messages⟩ := x
    have hlog : (sys.step cfg (.finishRun r answer)).log = sys.log := by
      simp [SummarySys.step, hawait]
    have hsummaries : (sys.step cfg (.finishRun r answer)).summaries =
        sys.summaries ++ (run.summary cfg messages answer).toList := by
      simp [SummarySys.step, hawait]
    cases hs : run.summary cfg messages answer with
    | none =>
      rw [hs, Option.toList_none, List.append_nil] at hsummaries
      rw [noneLost_congr hlog hsummaries]
      refine iff_of_true hn fun run' messages' h s hs' => ?_
      rw [hawait] at h
      cases h
      rw [hs] at hs'
      cases hs'
    | some s =>
      rw [hs, Option.toList_some] at hsummaries
      constructor
      · intro hn' run' messages' h s' hs' latest hlatest m hm hno
        rw [hawait] at h
        cases h
        rw [hs] at hs'
        cases hs'
        have hlatest' :
            (sys.step cfg (.finishRun r answer)).getLatestSummary cfg = some latest := by
          rw [SummarySys.getLatestSummary, hsummaries, hlatest]
        obtain ⟨s'', hs'', hcovered⟩ | helig := hn' m (hlog ▸ hm)
        · rw [hlatest'] at hs''
          cases hs''
          exact (hno hcovered).elim
        · obtain ⟨hrecent, hnewer⟩ := mem_eligible_iff.1 helig
          exact ⟨hnewer latest hlatest', hlog ▸ hrecent⟩
      · intro hok m hm
        rw [hlog] at hm
        cases hlatest : (sys.step cfg (.finishRun r answer)).getLatestSummary cfg with
        | none =>
          rw [SummarySys.getLatestSummary, hsummaries, TimeOrder.newest_eq_none_iff] at hlatest
          simp at hlatest
        | some latest =>
          have hnewest : cfg.latestOrder.newest (sys.summaries ++ [s]) = some latest := by
            rw [← hlatest, SummarySys.getLatestSummary, hsummaries]
          by_cases hcovered : m ∈ latest.covers
          · exact .inl ⟨latest, rfl, hcovered⟩
          · obtain ⟨hnewer, hrecent⟩ := hok run messages hawait s hs latest hnewest m hm hcovered
            refine .inr (mem_eligible_iff.2 ⟨hlog ▸ hrecent, fun s' hs' => ?_⟩)
            rw [hlatest] at hs'
            cases hs'
            exact hnewer

theorem noneLost_step_iff (h : SummaryInv sys) (hn : NoneLost cfg sys) :
    NoneLost cfg (sys.step cfg e) ↔ sys.losesNone cfg e := by
  cases e with
  | commit => exact noneLost_commit_iff h hn
  | finishRun => exact noneLost_finishRun_iff hn
  | begin =>
    refine iff_of_true ((noneLost_congr ?_ ?_).2 hn) trivial
    all_goals
      simp only [SummarySys.step]
      split <;> rfl
  | append =>
    refine iff_of_true ((noneLost_congr ?_ ?_).2 hn) trivial
    all_goals
      simp only [SummarySys.step]
      split
      next => rfl
      next => split <;> rfl
  | startRun =>
    refine iff_of_true ((noneLost_congr ?_ ?_).2 hn) trivial
    all_goals
      simp only [SummarySys.step]
      split <;> rfl
  | listMessages =>
    refine iff_of_true ((noneLost_congr ?_ ?_).2 hn) trivial
    all_goals
      simp only [SummarySys.step]
      split <;> rfl

end

end LlmPort.Gateway
