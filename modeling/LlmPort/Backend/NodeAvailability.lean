import LlmPort.Transition.Run
import LlmPort.Backend.NodeControl.Scheduling

/-!
# Which nodes are scheduled

The writers of a node's status: its enrollment, its stream sessions, its heartbeats and the two
toggles. A drain or maintenance command writes no node row; what the agent makes of it comes back in
a heartbeat.
-/

namespace LlmPort.Backend

open Transition NodeControl NodeControlService Store

/-- The control plane with the latest snapshot of each node. -/
structure Fleet where
  store : Store
  snapshots : List InventorySnapshot

inductive FleetEvent where
  | enroll (nodeId : Uuid) (host : String) (gpuCount : Int)
  | connect (sessionId nodeId : Uuid)
  | disconnect (sessionId : Uuid)
  | heartbeat (sessionId : Uuid) (status : NodeHealthStatus) (host : Option String)
      (gpuCount : Option Int)
  | inventory (sessionId : Uuid) (snapshot : InventorySnapshot)
  | setMaintenance (nodeId : Uuid) (enabled : Bool)
  | setDraining (nodeId : Uuid) (enabled : Bool)

namespace Fleet

/-- The stream of an open session. -/
def openSession (fleet : Fleet) (sessionId : Uuid) : Option InfraNodeSession :=
  fleet.store.sessions.find? fun x => x.id = sessionId ∧ x.connected

/-- The store after a call, the old one when it raises. -/
def after (fleet : Fleet) : Except ServiceError Store → Fleet
  | .ok store => { fleet with store }
  | .error _ => fleet

def step (svc : NodeControlService) (fleet : Fleet) : FleetEvent → Fleet
  | .enroll nodeId host gpuCount =>
    { fleet with store := enrollNodeRow nodeId host gpuCount fleet.store }
  | .connect sessionId nodeId =>
    if fleet.store.sessions.any (·.id = sessionId) ∨
      fleet.store.getNodeById nodeId = none then fleet
    else { fleet with store := createStreamSession sessionId nodeId fleet.store }
  | .disconnect sessionId => match fleet.openSession sessionId with
    | none => fleet
    | some _ => { fleet with store := svc.closeStreamSession sessionId fleet.store }
  | .heartbeat sessionId status host gpuCount => match fleet.openSession sessionId with
    | none => fleet
    | some session => match fleet.store.getNodeById session.nodeId with
      | none => fleet
      | some node => { fleet with
          store := heartbeatNode
            { node with capabilityGpuCount := gpuCount.getD node.capabilityGpuCount } status host
            fleet.store }
  | .inventory sessionId snapshot => match fleet.openSession sessionId with
    | none => fleet
    | some session => { fleet with
        snapshots := { snapshot with nodeId := session.nodeId } ::
          fleet.snapshots.filter (·.nodeId ≠ session.nodeId) }
  | .setMaintenance nodeId enabled => fleet.after (setNodeMaintenance nodeId enabled fleet.store)
  | .setDraining nodeId enabled => fleet.after (setNodeDraining nodeId enabled fleet.store)

/-- A node is declared healthy by an enrollment or by the end of a maintenance or a drain only while
it has a stream, or while something else on its row keeps the scheduler away. -/
def keepsOffline (fleet : Fleet) : FleetEvent → Bool
  | .enroll nodeId _ _ => 0 < countActiveSessions fleet.store nodeId ||
    (fleet.store.getNodeById nodeId).any
      fun node => !node.schedulerEligible || node.maintenanceMode || node.draining
  | .setMaintenance nodeId false => 0 < countActiveSessions fleet.store nodeId ||
    (fleet.store.getNodeById nodeId).all fun node => !node.schedulerEligible || node.draining
  | .setDraining nodeId false => 0 < countActiveSessions fleet.store nodeId ||
    (fleet.store.getNodeById nodeId).all fun node => !node.schedulerEligible ||
      node.maintenanceMode || !(node.status = .draining || isUp node.status)
  | _ => true

end Fleet

open Fleet

variable {svc : NodeControlService} {fleet : Fleet} {s s' : Store} {e : FleetEvent}

/-- Whatever the scheduler selects has an active stream session. -/
def SchedulesConnected (fleet : Fleet) : Prop :=
  ∀ roundScore provider capabilityRequiresGpu selected,
    scheduleNodeForRuntime roundScore provider capabilityRequiresGpu fleet.snapshots fleet.store =
      .ok selected →
    0 < countActiveSessions fleet.store selected.node.id

/-- An eligible node has an active stream session, and a session is one row. -/
structure EligibleConnected (s : Store) : Prop where
  active : ∀ node ∈ s.nodes, isEligible node → 0 < countActiveSessions s node.id
  keyed : (s.sessions.map (·.id)).Nodup

theorem EligibleConnected.schedules (h : EligibleConnected fleet.store) :
    SchedulesConnected fleet := by
  intro roundScore provider capabilityRequiresGpu selected hs
  obtain ⟨node, hn, he, hid⟩ := scheduleNodeForRuntime_eligible hs
  rw [← hid]
  exact h.active node hn he

theorem countActiveSessions_congr {nodeId : Uuid} (h : s'.sessions = s.sessions) :
    countActiveSessions s' nodeId = countActiveSessions s nodeId := by
  unfold countActiveSessions
  rw [h]

/-- A node row is written that is eligible only if it has a stream. -/
theorem EligibleConnected.updateNode {node : InfraNode} (h : EligibleConnected s)
    (hn : isEligible node → 0 < countActiveSessions s node.id) :
    EligibleConnected (s.updateNode node) where
  active row hm he := by
    obtain ⟨row', hm', rfl⟩ := List.mem_map.1 hm
    rw [countActiveSessions_congr rfl]
    by_cases hid : row'.id = node.id
    · rw [if_pos hid] at he ⊢
      exact hn he
    · rw [if_neg hid] at he ⊢
      exact h.active row' hm' he
  keyed := h.keyed

theorem EligibleConnected.of_nodes_sessions (h : EligibleConnected s) (hn : s'.nodes = s.nodes)
    (hs : s'.sessions = s.sessions) : EligibleConnected s' where
  active node hm he := by
    rw [countActiveSessions_congr hs]
    exact h.active node (hn ▸ hm) he
  keyed := hs ▸ h.keyed

theorem upsertWorkloadAssignment_tables {row : InfraNodeWorkloadAssignment} :
    (s.upsertWorkloadAssignment row).nodes = s.nodes ∧
      (s.upsertWorkloadAssignment row).sessions = s.sessions := by
  unfold upsertWorkloadAssignment
  split <;> exact ⟨rfl, rfl⟩

theorem demoteOne_tables (svc : NodeControlService) (nodeId : Uuid) (s : Store) (row : LLMRuntime) :
    (svc.demoteOne nodeId s row).nodes = s.nodes ∧
      (svc.demoteOne nodeId s row).sessions = s.sessions := by
  unfold demoteOne syncCall
  split
  · exact ⟨rfl, rfl⟩
  · dsimp only
    rw [upsertWorkloadAssignment_tables.1, upsertWorkloadAssignment_tables.2]
    split <;> exact ⟨rfl, rfl⟩

theorem demoteNodeRuntimes_tables {nodeId : Uuid} :
    (svc.demoteNodeRuntimes nodeId s).nodes = s.nodes ∧
      (svc.demoteNodeRuntimes nodeId s).sessions = s.sessions := by
  unfold demoteNodeRuntimes
  dsimp only
  generalize s.runtimes.filter _ = active
  induction active generalizing s with
  | nil => exact ⟨rfl, rfl⟩
  | cons row active ih =>
    rw [List.foldl_cons]
    obtain ⟨hn, hs⟩ := demoteOne_tables svc nodeId s row
    exact ⟨ih.1.trans hn, ih.2.trans hs⟩

theorem isEligible_offline {node : InfraNode} :
    isEligible { node with status := .offline } = false := by
  unfold isEligible
  exact Bool.and_false _

theorem keyed_eq {s : Store} {x y : InfraNodeSession} (h : (s.sessions.map (·.id)).Nodup)
    (hx : x ∈ s.sessions) (hy : y ∈ s.sessions) (hid : x.id = y.id) : x = y :=
  List.inj_on_of_nodup_map h hx hy hid

/-- Closing a session leaves the streams of the other nodes. -/
theorem countActiveSessions_close {session : InfraNodeSession} {nodeId : Uuid}
    (h : (s.sessions.map (·.id)).Nodup) (hm : session ∈ s.sessions)
    (hne : nodeId ≠ session.nodeId) :
    countActiveSessions (s.updateSession { session with connected := false }) nodeId =
      countActiveSessions s nodeId := by
  unfold countActiveSessions Store.updateSession
  rw [List.countP_map]
  refine List.countP_congr fun x hx => ?_
  dsimp only [Function.comp]
  by_cases hid : x.id = session.id
  · obtain rfl := keyed_eq h hx hm hid
    simp [hne.symm]
  · simp [hid]

theorem sessions_keyed_updateSession {session : InfraNodeSession}
    (h : (s.sessions.map (·.id)).Nodup) :
    ((s.updateSession session).sessions.map (·.id)).Nodup := by
  have : (s.updateSession session).sessions.map (·.id) = s.sessions.map (·.id) := by
    unfold Store.updateSession
    rw [List.map_map]
    refine List.map_congr_left fun x _ => ?_
    dsimp only [Function.comp]
    split
    next hid => exact hid.symm
    next => rfl
  rw [this]
  exact h

/-- The last session of a node takes it offline; other nodes keep their streams. -/
theorem EligibleConnected.close {sessionId : Uuid} (h : EligibleConnected s) :
    EligibleConnected (svc.closeStreamSession sessionId s) := by
  unfold closeStreamSession
  split
  next => exact h
  next session hsession =>
    have hm : session ∈ s.sessions := List.mem_of_find?_eq_some hsession
    have hkeyed : ((s.updateSession { session with connected := false }).sessions.map (·.id)).Nodup :=
      sessions_keyed_updateSession h.keyed
    dsimp only
    split
    next hnone =>
      refine ⟨fun node hn he => ?_, hkeyed⟩
      rw [countActiveSessions_close h.keyed hm ?_]
      · exact h.active node hn he
      · rintro hid
        exact absurd (List.find?_eq_none.1 hnone node hn) (by simp [hid])
    next node hnode =>
      have hid : node.id = session.nodeId := getNodeById_id hnode
      split
      next hzero =>
        refine EligibleConnected.of_nodes_sessions (s := (s.updateSession
          { session with connected := false }).updateNode { node with status := .offline })
          ⟨fun row hr he => ?_, hkeyed⟩ demoteNodeRuntimes_tables.1 demoteNodeRuntimes_tables.2
        obtain ⟨row', hr', rfl⟩ := List.mem_map.1 hr
        by_cases hrow : row'.id = node.id
        · rw [if_pos hrow, isEligible_offline] at he
          cases he
        · rw [if_neg hrow] at he ⊢
          have hclose := countActiveSessions_close h.keyed hm (hid ▸ hrow)
          exact hclose.symm ▸ h.active row' hr' he
      next hpos =>
        refine ⟨fun row hr he => ?_, hkeyed⟩
        by_cases hrow : row.id = session.nodeId
        · rw [show row.id = node.id from hrow.trans hid.symm]
          exact Nat.pos_of_ne_zero hpos
        · rw [countActiveSessions_close h.keyed hm hrow]
          exact h.active row hr he

theorem EligibleConnected.connect {sessionId nodeId : Uuid} (h : EligibleConnected s)
    (hfresh : ¬ s.sessions.any (·.id = sessionId)) :
    EligibleConnected (createStreamSession sessionId nodeId s) where
  active node hn he := by
    have hactive := h.active node hn he
    unfold countActiveSessions at hactive ⊢
    unfold createStreamSession
    rw [List.countP_append]
    omega
  keyed := by
    unfold createStreamSession
    rw [List.map_append, List.nodup_append]
    refine ⟨h.keyed, List.nodup_singleton _, ?_⟩
    rintro id hid _ hs rfl
    obtain ⟨x, hx, rfl⟩ := List.mem_map.1 hid
    exact hfresh (List.any_eq_true.2 ⟨x, hx, by simpa using hs⟩)

/-- A node with an open session has an active one. -/
theorem active_of_openSession {sessionId : Uuid} {session : InfraNodeSession}
    (h : fleet.openSession sessionId = some session) :
    0 < countActiveSessions fleet.store session.nodeId := by
  have hc : session.connected := by
    have := List.find?_some h
    simp only [Bool.decide_and, Bool.and_eq_true, decide_eq_true_eq] at this
    exact this.2
  exact List.countP_pos_iff.2 ⟨session, List.mem_of_find?_eq_some h, by simp [hc]⟩

/-- The flags and the status of an eligible row. -/
theorem isEligible_iff {node : InfraNode} : isEligible node ↔
    node.schedulerEligible ∧ node.maintenanceMode = false ∧ node.draining = false ∧
      isUp node.status := by
  simp [isEligible, and_assoc]

theorem EligibleConnected.enroll {nodeId : Uuid} {host : String} {gpuCount : Int}
    (h : EligibleConnected fleet.store) (hok : fleet.keepsOffline (.enroll nodeId host gpuCount)) :
    EligibleConnected (enrollNodeRow nodeId host gpuCount fleet.store) := by
  unfold enrollNodeRow
  split
  next hnone =>
    have hactive : 0 < countActiveSessions fleet.store nodeId := by
      simpa [keepsOffline, hnone] using hok
    refine ⟨fun node hn he => ?_, h.keyed⟩
    obtain hn | hn := List.mem_append.1 hn
    · exact h.active node hn he
    · rw [List.mem_singleton.1 hn]
      exact hactive
  next node hnode =>
    refine h.updateNode fun he => ?_
    obtain ⟨hs, hm, hd, -⟩ := isEligible_iff.1 he
    dsimp only at hs hm hd ⊢
    rw [getNodeById_id hnode]
    simpa [keepsOffline, hnode, hs, hm, hd] using hok

theorem EligibleConnected.setMaintenance {nodeId : Uuid} {enabled : Bool}
    (h : EligibleConnected fleet.store)
    (hok : fleet.keepsOffline (.setMaintenance nodeId enabled)) :
    EligibleConnected (fleet.after (setNodeMaintenance nodeId enabled fleet.store)).store := by
  unfold setNodeMaintenance Fleet.after
  cases hnode : fleet.store.getNodeById nodeId with
  | none => exact h
  | some node =>
    refine h.updateNode fun he => ?_
    obtain ⟨hs, hm, hd, -⟩ := isEligible_iff.1 he
    dsimp only at hs hm hd ⊢
    subst hm
    rw [getNodeById_id hnode]
    simpa [keepsOffline, hnode, hs, hd] using hok

theorem EligibleConnected.setDraining {nodeId : Uuid} {enabled : Bool}
    (h : EligibleConnected fleet.store) (hok : fleet.keepsOffline (.setDraining nodeId enabled)) :
    EligibleConnected (fleet.after (setNodeDraining nodeId enabled fleet.store)).store := by
  unfold setNodeDraining Fleet.after
  cases hnode : fleet.store.getNodeById nodeId with
  | none => exact h
  | some node =>
    refine h.updateNode fun he => ?_
    obtain ⟨hs, hm, hd, hup⟩ := isEligible_iff.1 he
    dsimp only at hs hm hd hup ⊢
    subst hd
    rw [getNodeById_id hnode]
    have hstatus : node.status = .draining ∨ isUp node.status = true := by
      by_cases hdr : node.status = .draining
      · exact .inl hdr
      · exact .inr (by simpa [hdr] using hup)
    obtain hst | hst := hstatus
    · simpa [keepsOffline, hnode, hs, hm, hst] using hok
    · simpa [keepsOffline, hnode, hs, hm, hst] using hok

theorem EligibleConnected.step (h : EligibleConnected fleet.store) (hok : fleet.keepsOffline e) :
    EligibleConnected (fleet.step svc e).store := by
  cases e with
  | enroll nodeId host gpuCount => exact h.enroll hok
  | connect sessionId nodeId =>
    simp only [Fleet.step]
    split
    next => exact h
    next hfresh => exact h.connect (fun ha => hfresh (.inl ha))
  | disconnect sessionId =>
    simp only [Fleet.step]
    split
    next => exact h
    next => exact h.close
  | heartbeat sessionId status host gpuCount =>
    simp only [Fleet.step]
    split
    next => exact h
    next session hsession =>
      split
      next => exact h
      next node hnode =>
        refine h.updateNode fun _ => ?_
        have hactive := active_of_openSession hsession
        rw [← getNodeById_id hnode] at hactive
        exact hactive
  | inventory sessionId snapshot =>
    simp only [Fleet.step]
    split <;> exact h
  | setMaintenance nodeId enabled => exact h.setMaintenance hok
  | setDraining nodeId enabled => exact h.setDraining hok

/-- One enrolled node that is offline, and a provider that needs no GPU. -/
def oneOffline : Fleet where
  store := { Store.oneNode 7 with nodes := [⟨7, "10.0.0.7", .offline, false, false, true, 0⟩] }
  snapshots := []

theorem eligibleConnected_oneOffline : EligibleConnected oneOffline.store where
  active node hn he := by
    rw [List.mem_singleton.1 hn] at he
    cases he
  keyed := List.nodup_nil

end LlmPort.Backend
