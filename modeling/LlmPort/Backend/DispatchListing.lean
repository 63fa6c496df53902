import LlmPort.Backend.ControlPlane

/-!
# What a dispatch listing returns

`list_dispatchable_commands` goes through the pending commands first and then through the commands
in flight, among them those it has just dispatched. Both listings are limited.
-/

namespace LlmPort.Backend

open Transition NodeControl NodeControlService Store Llm

/-- What is to hold of the items that a listing in `s` returns. -/
structure ListedProperly (svc : NodeControlService) (now : Time) (s : Store)
    (items : List DispatchItem) : Prop where
  once : (items.map (·.command.id)).Nodup
  overdue : ∀ item ∈ items, ∀ c, s.getCommand item.command.id = some c → c.status = .dispatched →
    svc.commandIsOverdue now c
  flagged : ∀ item ∈ items, ∀ c, s.getCommand item.command.id = some c → c.status ≠ .queued →
    item.redispatch
  live : ∀ item ∈ items, item.command.status.isTerminal = false ∧
    ∀ c, s.getCommand item.command.id = some c → c.status.isTerminal = false
  ordered : items.Pairwise (·.command.issuedAt ≤ ·.command.issuedAt)

/-- The row as the first loop leaves it. -/
def delivered (now : Time) (c : InfraNodeCommand) : InfraNodeCommand :=
  if c.status = .queued then setCommandStatus now c .dispatched none none none else c

namespace NodeControl.Store

variable (s : Store) (nodeId : Uuid) (limit : Nat)

/-- The first loop goes through the row. -/
def isListedPending (c : InfraNodeCommand) : Bool :=
  (s.listPendingCommands nodeId limit).any (·.id = c.id)

/-- The rows that the second loop goes through, as they are before the first one. -/
def seenInflight : List InfraNodeCommand :=
  oldestFirst limit (s.commands.filter fun c =>
    c.nodeId = nodeId ∧ (c.status.isInflight ∨ s.isListedPending nodeId limit c))

/-- Those of them that the second loop sends. -/
def resent (svc : NodeControlService) (now : Time) : List InfraNodeCommand :=
  (s.seenInflight nodeId limit).filter fun c => svc.commandIsOverdue now (delivered now c)

/-- All pending commands are queued ones, none of which is overdue as soon as it is dispatched, and
none was issued after a command that is sent again. -/
def PendingFirst (svc : NodeControlService) (now : Time) : Prop :=
  (∀ c ∈ s.listPendingCommands nodeId limit, c.status = .queued) ∧
    ∀ d ∈ s.resent nodeId limit svc now, d.status ≠ .queued ∧
      ∀ c ∈ s.listPendingCommands nodeId limit, c.issuedAt ≤ d.issuedAt

end NodeControl.Store

variable {svc : NodeControlService} {now : Time} {s s' : Store} {nodeId : Uuid} {limit : Nat}
  {c d : InfraNodeCommand}

@[simp] theorem delivered_id : (delivered now c).id = c.id := by
  rw [delivered]
  split <;> rfl

@[simp] theorem delivered_nodeId : (delivered now c).nodeId = c.nodeId := by
  rw [delivered]
  split <;> rfl

@[simp] theorem delivered_issuedAt : (delivered now c).issuedAt = c.issuedAt := by
  rw [delivered]
  split <;> rfl

theorem delivered_of_ne (h : c.status ≠ .queued) : delivered now c = c := if_neg h

theorem delivered_status_of_isPending (h : c.status.isPending) :
    (delivered now c).status = .dispatched := by
  rw [delivered]
  split
  next => rfl
  next hne =>
    revert h hne
    cases c.status <;> simp [NodeCommandStatus.isPending]

/-! ## The two loops -/

/-- The first loop sends the pending rows and leaves them as it sends them. -/
theorem listCommandsForDispatch_eq (hk : s.Keyed) :
    (listCommandsForDispatch now nodeId limit s).2 =
        (s.listPendingCommands nodeId limit).map (fun c => ⟨delivered now c, false⟩) ∧
      (listCommandsForDispatch now nodeId limit s).1.commands = s.commands.map fun c =>
        if s.isListedPending nodeId limit c then delivered now c else c := by
  refine @forEachCommand_rewrite _ (·.1) (dispatchOne now) (delivered now)
    (fun done (a : Store × List DispatchItem) =>
      a.2 = done.map fun c => ⟨delivered now c, false⟩) (s, []) (fun _ => delivered_id) _ hk
    (nodup_oldestFirst (hk.nodup_filter _))
    (fun c hc => List.mem_of_mem_filter (mem_of_mem_oldestFirst hc)) rfl ?_
  rintro done ⟨s₁, items⟩ c - hitems hk₁ hlive
  simp only at hitems hk₁ hlive
  rw [dispatchOne, List.map_append, hitems]
  split
  next hq =>
    rw [List.map_singleton, delivered, if_pos hq]
    exact ⟨rfl, rfl⟩
  next hq =>
    rw [List.map_singleton, delivered_of_ne hq]
    exact ⟨rfl, (updateCommand_self hk₁ hlive).symm⟩

/-- The second loop sends the overdue rows and changes none. -/
theorem redispatch_eq (commands : List InfraNodeCommand) (hk : s.Keyed) (items : List DispatchItem)
    (hnodup : (commands.map (·.id)).Nodup) (hmem : ∀ c ∈ commands, c ∈ s.commands) :
    (forEachCommand commands (s, items) (·.1) (svc.redispatchOne now)).2 =
      items ++ (commands.filter (svc.commandIsOverdue now)).map (⟨·, true⟩) := by
  refine (@forEachCommand_rewrite _ (·.1) (svc.redispatchOne now) id
    (fun done (a : Store × List DispatchItem) =>
      a.2 = items ++ (done.filter (svc.commandIsOverdue now)).map (⟨·, true⟩)) (s, items)
    (fun _ => rfl) commands hk hnodup hmem (List.append_nil _).symm ?_).1
  rintro done ⟨s₁, sent⟩ c - hsent hk₁ hlive
  simp only at hsent hk₁ hlive
  rw [redispatchOne, List.filter_append, List.map_append, hsent, id_eq,
    updateCommand_self hk₁ hlive]
  cases hover : svc.commandIsOverdue now c with
  | true => simp [hover]
  | false => simp [hover]

theorem oldestFirst_map {f : InfraNodeCommand → InfraNodeCommand}
    (hf : ∀ c, (f c).issuedAt = c.issuedAt) (commands : List InfraNodeCommand) :
    oldestFirst limit (commands.map f) = (oldestFirst limit commands).map f := by
  rw [oldestFirst, oldestFirst, List.map_take]
  congr 1
  refine (List.map_insertionSort _ _ _ _ fun a _ b _ => ?_).symm
  rw [hf, hf]

theorem mem_listPending (h : c ∈ s.listPendingCommands nodeId limit) :
    c ∈ s.commands ∧ c.nodeId = nodeId ∧ c.status.isPending := by
  obtain ⟨hmem, hc⟩ := List.mem_filter.1 (mem_of_mem_oldestFirst h)
  exact ⟨hmem, of_decide_eq_true hc⟩

theorem isListedPending_iff (hk : s.Keyed) (hc : c ∈ s.commands) :
    s.isListedPending nodeId limit c ↔ c ∈ s.listPendingCommands nodeId limit := by
  rw [isListedPending, List.any_eq_true]
  constructor
  · rintro ⟨d, hd, hid⟩
    rw [← hk.eq_of_mem (mem_listPending hd).1 hc (of_decide_eq_true hid)]
    exact hd
  · intro h
    exact ⟨c, h, decide_eq_true rfl⟩

theorem mem_seenInflight (hk : s.Keyed) (h : c ∈ s.seenInflight nodeId limit) :
    c ∈ s.commands ∧ (c.status.isInflight ∨ c ∈ s.listPendingCommands nodeId limit) := by
  obtain ⟨hmem, hc⟩ := List.mem_filter.1 (mem_of_mem_oldestFirst h)
  refine ⟨hmem, (of_decide_eq_true hc).2.imp_right (isListedPending_iff hk hmem).1⟩

/-- The commands in flight after the first loop. -/
theorem listInflightCommands_eq (hk : s.Keyed)
    (h : s'.commands = s.commands.map fun c =>
      if s.isListedPending nodeId limit c then delivered now c else c) :
    s'.listInflightCommands nodeId limit = (s.seenInflight nodeId limit).map (delivered now) := by
  have hsame : ∀ c ∈ s.commands, (c.status.isInflight ∨ s.isListedPending nodeId limit c) →
      (if s.isListedPending nodeId limit c then delivered now c else c) = delivered now c := by
    intro c _ hseen
    split
    next => rfl
    next hlisted =>
      refine (delivered_of_ne fun hq => ?_).symm
      rw [hq] at hseen
      rcases hseen with hseen | hseen
      · cases hseen
      · exact hlisted hseen
  have hrows : (s.commands.map fun c =>
      if s.isListedPending nodeId limit c then delivered now c else c).filter
        (fun c => c.nodeId = nodeId ∧ c.status.isInflight) =
      (s.commands.filter fun c =>
        c.nodeId = nodeId ∧ (c.status.isInflight ∨ s.isListedPending nodeId limit c)).map
          (delivered now) := by
    rw [List.filter_map]
    have hfilter : s.commands.filter ((fun c : InfraNodeCommand =>
        decide (c.nodeId = nodeId ∧ c.status.isInflight)) ∘ fun c =>
          if s.isListedPending nodeId limit c then delivered now c else c) =
        s.commands.filter fun c =>
          c.nodeId = nodeId ∧ (c.status.isInflight ∨ s.isListedPending nodeId limit c) := by
      refine List.filter_congr fun c hc => ?_
      rw [Function.comp_apply, decide_eq_decide]
      split
      next hlisted =>
        have hpending := (mem_listPending ((isListedPending_iff hk hc).1 hlisted)).2.2
        rw [delivered_nodeId, delivered_status_of_isPending hpending]
        exact and_congr_right fun _ => iff_of_true rfl (.inr hlisted)
      next hlisted => exact and_congr_right fun _ => (or_iff_left hlisted).symm
    rw [hfilter]
    refine List.map_congr_left fun c hc => ?_
    obtain ⟨hmem, hc⟩ := List.mem_filter.1 hc
    exact hsame c hmem (of_decide_eq_true hc).2
  rw [listInflightCommands, h, hrows, oldestFirst_map fun _ => delivered_issuedAt, seenInflight]

/-- What a dispatch listing returns. -/
theorem listDispatchableCommands_eq (svc : NodeControlService) (now : Time) (nodeId : Uuid)
    (limit : Nat) (hk : s.Keyed) :
    (svc.listDispatchableCommands now nodeId limit s).2 =
      (s.listPendingCommands nodeId limit).map (fun c => ⟨delivered now c, false⟩) ++
        (s.resent nodeId limit svc now).map fun c => ⟨delivered now c, true⟩ := by
  obtain ⟨hitems, hcommands⟩ := @listCommandsForDispatch_eq now s nodeId limit hk
  have hk' := (listCommandsForDispatch_listed now nodeId limit hk).rewrites.keyed hk
  have hmem : ∀ c ∈ (listCommandsForDispatch now nodeId limit s).1.listInflightCommands nodeId limit,
      c ∈ (listCommandsForDispatch now nodeId limit s).1.commands :=
    fun c hc => List.mem_of_mem_filter (mem_of_mem_oldestFirst hc)
  have hnodup : (((listCommandsForDispatch now nodeId limit s).1.listInflightCommands nodeId
      limit).map (·.id)).Nodup := nodup_oldestFirst (hk'.nodup_filter _)
  rw [listDispatchableCommands]
  simp only
  rw [redispatch_eq _ hk' _ hnodup hmem, hitems, listInflightCommands_eq hk hcommands, List.filter_map,
    List.map_map]
  rfl

/-! ## When the listing is as it should be -/

theorem delivered_of_mem_resent (h : d ∈ s.resent nodeId limit svc now) (hne : d.status ≠ .queued) :
    svc.commandIsOverdue now d := by
  have hover := (List.mem_filter.1 h).2
  rw [delivered_of_ne hne] at hover
  exact hover

theorem nodup_resent (hk : s.Keyed) : ((s.resent nodeId limit svc now).map (·.id)).Nodup :=
  List.Nodup.sublist (List.filter_sublist.map _)
    (nodup_oldestFirst (hk.nodup_filter fun c =>
      c.nodeId = nodeId ∧ (c.status.isInflight ∨ s.isListedPending nodeId limit c)))

theorem pairwise_oldestFirst (commands : List InfraNodeCommand) :
    (oldestFirst limit commands).Pairwise (·.issuedAt ≤ ·.issuedAt) :=
  (List.pairwise_insertionSort _ commands).sublist (List.take_sublist _ _)

/-- The two halves of a listing. -/
theorem forall_mem_listing {P : DispatchItem → Prop} {items resent : List InfraNodeCommand} :
    (∀ item ∈ items.map (fun c => DispatchItem.mk (delivered now c) false) ++
        resent.map fun c => DispatchItem.mk (delivered now c) true, P item) ↔
      (∀ c ∈ items, P ⟨delivered now c, false⟩) ∧ ∀ d ∈ resent, P ⟨delivered now d, true⟩ := by
  simp only [List.forall_mem_append, List.forall_mem_map]

theorem listedProperly_iff (hk : s.Keyed) :
    ListedProperly svc now s (svc.listDispatchableCommands now nodeId limit s).2 ↔
      s.PendingFirst nodeId limit svc now := by
  rw [listDispatchableCommands_eq svc now nodeId limit hk]
  have hrow : ∀ c ∈ s.commands, ∀ c', s.getCommand (delivered now c).id = some c' → c' = c := by
    intro c hc c' hc'
    rw [delivered_id, hk.getCommand hc] at hc'
    exact (Option.some.inj hc').symm
  have hresent : ∀ d ∈ s.resent nodeId limit svc now, d ∈ s.commands := fun d hd =>
    (mem_seenInflight hk (List.mem_of_mem_filter hd)).1
  constructor
  · intro h
    obtain ⟨hflagged, -⟩ := forall_mem_listing.1 h.flagged
    have hqueued : ∀ c ∈ s.listPendingCommands nodeId limit, c.status = .queued := by
      intro c hc
      by_contra hne
      have hget := hk.getCommand (mem_listPending hc).1
      rw [← @delivered_id now c] at hget
      cases hflagged c hc c hget hne
    refine ⟨hqueued, fun d hd => ⟨fun hq => ?_, fun c hc => ?_⟩⟩
    · -- the row that was just dispatched is sent a second time
      have hpending : d ∈ s.listPendingCommands nodeId limit := by
        rcases (mem_seenInflight hk (List.mem_of_mem_filter hd)).2 with hinflight | hpending
        · rw [hq] at hinflight
          cases hinflight
        · exact hpending
      have honce := h.once
      rw [List.map_append, List.map_map, List.map_map, List.nodup_append] at honce
      exact honce.2.2 d.id (List.mem_map.2 ⟨d, hpending, delivered_id⟩) d.id
        (List.mem_map.2 ⟨d, hd, delivered_id⟩) rfl
    · have hordered := (List.pairwise_append.1 h.ordered).2.2 _ (List.mem_map_of_mem hc) _
        (List.mem_map_of_mem hd)
      rw [delivered_issuedAt, delivered_issuedAt] at hordered
      exact hordered
  · rintro ⟨hqueued, hapart⟩
    have hover : ∀ d ∈ s.resent nodeId limit svc now, svc.commandIsOverdue now d := fun d hd =>
      delivered_of_mem_resent hd (hapart d hd).1
    refine ⟨?_, ?_, ?_, ?_, ?_⟩
    · rw [List.map_append, List.map_map, List.map_map, List.nodup_append]
      have hids (commands : List InfraNodeCommand) {redispatch : Bool} :
          commands.map ((fun item : DispatchItem => item.command.id) ∘ fun c =>
            ⟨delivered now c, redispatch⟩) = commands.map (·.id) :=
        List.map_congr_left fun c _ => delivered_id
      rw [hids, hids]
      refine ⟨nodup_oldestFirst (hk.nodup_filter _), nodup_resent hk, ?_⟩
      intro id hid id' hid' heq
      obtain ⟨c, hc, rfl⟩ := List.mem_map.1 hid
      obtain ⟨d, hd, rfl⟩ := List.mem_map.1 hid'
      have hsame := hk.eq_of_mem (mem_listPending hc).1 (hresent d hd) heq
      apply (hapart d hd).1
      rw [← hsame]
      exact hqueued c hc
    · refine forall_mem_listing.2 ⟨fun c hc c' hc' hdispatched => ?_, fun d hd d' hd' _ => ?_⟩
      · rw [hrow c (mem_listPending hc).1 c' hc', hqueued c hc] at hdispatched
        cases hdispatched
      · rw [hrow d (hresent d hd) d' hd']
        exact hover d hd
    · refine forall_mem_listing.2 ⟨fun c hc c' hc' hne => ?_, fun _ _ _ _ _ => rfl⟩
      rw [hrow c (mem_listPending hc).1 c' hc', hqueued c hc] at hne
      exact absurd rfl hne
    · refine forall_mem_listing.2 ⟨fun c hc => ⟨?_, fun c' hc' => ?_⟩, fun d hd => ?_⟩
      · rw [delivered_status_of_isPending (mem_listPending hc).2.2]
        rfl
      · rw [hrow c (mem_listPending hc).1 c' hc', hqueued c hc]
        rfl
      · have hlive := NodeCommandStatus.isTerminal_of_isInflight
          (isInflight_of_commandIsOverdue (hover d hd))
        rw [delivered_of_ne (hapart d hd).1]
        refine ⟨hlive, fun d' hd' => ?_⟩
        rw [hk.getCommand (hresent d hd)] at hd'
        cases hd'
        exact hlive
    · refine List.pairwise_append.2 ⟨?_, ?_, ?_⟩
      · rw [List.pairwise_map]
        simp only [delivered_issuedAt]
        exact pairwise_oldestFirst _
      · rw [List.pairwise_map]
        simp only [delivered_issuedAt]
        exact (pairwise_oldestFirst _).sublist List.filter_sublist
      · intro x hx y hy
        obtain ⟨c, hc, rfl⟩ := List.mem_map.1 hx
        obtain ⟨d, hd, rfl⟩ := List.mem_map.1 hy
        rw [delivered_issuedAt, delivered_issuedAt]
        exact (hapart d hd).2 c hc

/-- After any calls of the control plane, a listing is as it should be exactly if what is pending is
queued, comes first and is not overdue at once. -/
theorem listDispatchable_iff (llm : LLMService) (s₀ : Store) (events : List ControlEvent) (now : Time)
    (nodeId : Uuid) (limit : Nat) :
    ListedProperly llm.nodeControl now (run (controlStep llm) { s₀ with commands := [] } events)
        (llm.nodeControl.listDispatchableCommands now nodeId limit
          (run (controlStep llm) { s₀ with commands := [] } events)).2 ↔
      (run (controlStep llm) { s₀ with commands := [] } events).PendingFirst nodeId limit
        llm.nodeControl now :=
  listedProperly_iff (run_controlStep_keyed (keyed_noCommands s₀))

/-- A command that is issued and dispatched. -/
def dispatchedOnce : List ControlEvent :=
  [.issue ⟨0, 5, 6⟩ ⟨1, .fetchContainerLogs, ⟨.missing, true, []⟩, none, none, none, none⟩,
    .listForDispatch 1 1 50]

/-- A microsecond later it is listed again, without the flag. -/
theorem not_listedProperly_dispatchedOnce :
    ¬ ListedProperly LLMService.plain.nodeControl 2
      (run (controlStep LLMService.plain) { oneNode 1 with commands := [] } dispatchedOnce)
      (LLMService.plain.nodeControl.listDispatchableCommands 2 1 50
        (run (controlStep LLMService.plain) { oneNode 1 with commands := [] } dispatchedOnce)).2 := by
  intro h
  obtain ⟨hqueued, -⟩ := (listedProperly_iff (run_controlStep_keyed (keyed_noCommands _))).1 h
  revert hqueued
  decide +kernel

end LlmPort.Backend
