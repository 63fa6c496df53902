import LlmPort.Gateway.SessionContext

/-!
# The history in the context of a session

The module docstring of `services/gateway/context_assembler.py` has the most recent messages in the
context. `assemble` goes through the recent messages with the oldest first, and stops at the first
that the budget does not hold.
-/

namespace LlmPort.Gateway

open Ranking

namespace SessionState

/-- The messages of the log that `assemble` puts into the context. -/
def history (session : SessionState) (settings : ContextSettings) (orders : ReadOrders) :
    List LoggedMessage :=
  fitting LoggedMessage.tokens (session.segments settings orders).budget
    (session.eligible settings orders)

/-- The history is the longest run of the most recent eligible messages that fits into what the
other segments leave of the budget, and it is in the order of time. -/
structure KeepsMostRecent (session : SessionState) (settings : ContextSettings)
    (orders : ReadOrders) : Prop where
  longest : LongestRun LoggedMessage.tokens (session.segments settings orders).budget
    (session.eligible settings orders) (session.history settings orders)
  chronological : (session.history settings orders).Pairwise fun a b => a.createdAt ≤ b.createdAt

end SessionState

section
variable {settings : ContextSettings} {orders : ReadOrders} {session : SessionState}
  {current : List RequestMessage}

theorem assemble_eq (session : SessionState) (settings : ContextSettings) (orders : ReadOrders)
    (h : ∀ x ∈ current, x.content ≠ .null) :
    session.assemble settings orders current = some ((session.segments settings orders).messages ++
      (session.history settings orders).map (·.toRequest) ++ current) :=
  assemble_of_noNull session settings orders h

theorem afterSummary_sublist (latest : Option SessionSummary) (recent : List LoggedMessage) :
    (afterSummary latest recent).Sublist recent := by
  cases latest with
  | none => exact List.Sublist.refl _
  | some summary => exact List.filter_sublist

theorem eligible_sublist :
    (session.eligible settings orders).Sublist (orders.recentMessages.sort session.log) :=
  (afterSummary_sublist _ _).trans (TimeOrder.recent_sublist _ _)

theorem nodup_eligible (hids : (session.log.map (·.id)).Nodup) :
    (session.eligible settings orders).Nodup := by
  have hlog : session.log.Nodup := List.Nodup.of_map _ hids
  have hsort := (orders.recentMessages.perm session.log).nodup_iff.2 hlog
  exact hsort.sublist eligible_sublist

theorem history_isPrefix :
    session.history settings orders <+: session.eligible settings orders :=
  fitting_isPrefix _ _ _

theorem history_chronological :
    (session.history settings orders).Pairwise fun a b => a.createdAt ≤ b.createdAt :=
  (orders.recentMessages.sorted session.log).sublist
    (history_isPrefix.sublist.trans eligible_sublist)

/-- The most recent messages are kept exactly if all eligible ones fit, one after the other, or
neither the oldest fits nor any run of the most recent. -/
theorem keepsMostRecent_iff (session : SessionState) (settings : ContextSettings)
    (orders : ReadOrders) (hids : (session.log.map (·.id)).Nodup) :
    session.KeepsMostRecent settings orders ↔
      AllFit LoggedMessage.tokens (session.segments settings orders).budget
          (session.eligible settings orders) ∨
        (∀ m, (session.eligible settings orders).head? = some m →
          (session.segments settings orders).budget < m.tokens) ∧
        ∀ run, run <:+ session.eligible settings orders → run ≠ [] →
          (session.segments settings orders).budget < (run.map LoggedMessage.tokens).sum := by
  rw [← longestRun_fitting_iff (nodup_eligible hids)]
  exact ⟨fun h => h.longest, fun h => ⟨h, history_chronological⟩⟩

end

/-- A question, and an answer for which the budget has no room. -/
def twoMessages : SessionState where
  systemInstructions := none
  summaries := []
  userFacts := []
  projectFacts := []
  sessionFacts := []
  sessionAttachments := []
  projectAttachments := []
  log := [⟨1#128, "user", "Hi", none, some 5, 0⟩, ⟨2#128, "assistant", "Hello", none, some 5, 1⟩]

theorem keepsMostRecent_twoMessages :
    twoMessages.KeepsMostRecent ⟨20, 10, none⟩ ⟨.stable _, .stable _, .stable _⟩ := by
  refine (keepsMostRecent_iff _ _ _ (by decide)).2 (.inl ?_)
  rw [← fitting_eq_self_iff]
  decide

/-- Where only one of the two messages fits, it is the older that is kept. -/
theorem not_keepsMostRecent_twoMessages :
    ¬ twoMessages.KeepsMostRecent ⟨20, 5, none⟩ ⟨.stable _, .stable _, .stable _⟩ := by
  intro h
  have hends := h.longest.ends
  revert hends
  decide

end LlmPort.Gateway
