import LlmPort.Backend.RoutingCommands

/-!
# Reports under the routing invariant

What the agents report: the results of commands, the health of workloads, and, when nothing is
reported any more, the reaper and the demotion of a node's runtimes.
-/

namespace LlmPort.Backend

open Transition NodeControl NodeControlService Store Llm LLMService

variable {svc : NodeControlService} {g : GatewayDb} {s s' s₁ : Store} {seen : Uuid → Bool}
  {id nodeId commandId : Uuid} {r r' : LLMRuntime} {x : Option ProviderInstance}
  {c : InfraNodeCommand} {p : CommandResult} {now : Time}

theorem ShowsUrl.eq_none (h : ShowsUrl x none) : x = none := by
  cases x with
  | none => rfl
  | some y => cases h y rfl

/-- A running runtime is published with the endpoint it has, if any. -/
theorem Writes.publish_row (w : Writes svc g id s s₁ r x) (r' : LLMRuntime) (hid : r'.id = id)
    (hp : (s₁.getProvider r'.providerId).isSome) (hx : r'.endpointUrl = none → x = none) :
    ∃ x', Writes svc g id s (svc.publishRuntimeToGateway r' s₁) r x' ∧
      ShowsUrl x' r'.endpointUrl ∧ Shows x' True := by
  cases hurl : r'.endpointUrl with
  | some url => exact w.publish hid hurl hp
  | none =>
    have hnone := hx hurl
    subst hnone
    have hsame : svc.publishRuntimeToGateway r' s₁ = s₁ := by
      unfold publishRuntimeToGateway
      rw [hurl]
      split <;> rfl
    rw [hsame]
    exact ⟨none, w, showsUrl_none, shows_none⟩

/-- What a failure does to the instance. -/
theorem applyFailure_writes (w : Writes svc g id s s₁ r x) (hid : r'.id = id) :
    Writes svc g id s (svc.applyFailure c p r' s₁).1 r
      (if isProvisioning c.commandType then x.map (withHealth .unhealthy) else x) := by
  subst hid
  unfold applyFailure
  simp only
  split
  next => exact w.health .unhealthy
  next => exact w

/-- What a success does to the instance. -/
theorem applySuccess_writes (row : LLMRuntime) (c : InfraNodeCommand) (p : CommandResult)
    (w : Writes svc g id s s₁ r x) (hid : row.id = id)
    (hp : (s₁.getProvider row.providerId).isSome) (hurl : ShowsUrl x row.endpointUrl) :
    ∃ x', Writes svc g id s (svc.applySuccess c p row s₁).1 r x' ∧
      ShowsUrl x' (svc.applySuccess c p row s₁).2.endpointUrl ∧
      match c.commandType with
      | .deployWorkload | .startWorkload | .restartWorkload =>
        (p.result.getD .empty).endpointUrl = none ∧ x' = x ∨ Shows x' True
      | .stopWorkload => x' = x.map (withHealth .unhealthy)
      | .removeWorkload => x' = none
      | _ => x' = x := by
  subst hid
  unfold applySuccess
  cases c.commandType with
  | deployWorkload | startWorkload | restartWorkload =>
    simp only
    split
    next url hres =>
      obtain ⟨x', w', hurl', hup⟩ := w.publish_row { row with
        statusMessage := none
        status := .running
        endpointUrl := some (rewriteEndpointHost s₁ url c.nodeId)
        containerRef := some s!"node:{uuidStr c.nodeId}:{uuidStr row.id}" } rfl hp
        (fun hnone => by cases hnone)
      exact ⟨x', (w'.congr (promoteModelStatus_frame _)).call fun _ => rfl, hurl', .inr hup⟩
    next hres =>
      exact ⟨x, (w.congr (promoteModelStatus_frame _)).call fun _ => rfl, hurl, .inl ⟨hres, rfl⟩⟩
  | stopWorkload => exact ⟨_, w.health .unhealthy, hurl.withHealth, rfl⟩
  | removeWorkload => exact ⟨_, w.unpublish.call fun _ => rfl, showsUrl_none, rfl⟩
  | _ => exact ⟨x, w, hurl, rfl⟩

/-- The runtime row that an outcome leaves. -/
theorem applyOutcome_row {ok : Bool} :
    (svc.applyOutcome c ok p r s).2.id = r.id ∧
      (svc.applyOutcome c ok p r s).2.providerId = r.providerId ∧
      (ok = false → (svc.applyOutcome c ok p r s).2.endpointUrl = r.endpointUrl) := by
  unfold applyOutcome
  cases ok with
  | true =>
    unfold applySuccess
    cases (p.result.getD .empty).endpointUrl <;> cases c.commandType <;>
      exact ⟨rfl, rfl, fun h => by cases h⟩
  | false =>
    unfold applyFailure
    simp only [Bool.false_eq_true, if_false]
    split <;> exact ⟨rfl, rfl, fun _ => rfl⟩

/-- The side effect of an outcome writes the row and the instance of its runtime. -/
theorem applyRuntimeSideEffect_writes {ok : Bool} {x' : Option ProviderInstance}
    (hid : runtimeIdOf c.payloadJson = some id) (hr : s₁.getRuntime id = some r)
    (w : Writes svc g id s (svc.applyOutcome c ok p (drivenBy c r) s₁).1 r x') :
    Writes svc g id s (svc.applyRuntimeSideEffect c ok p s₁)
      (svc.applyOutcome c ok p (drivenBy c r) s₁).2 x' := by
  have hpayload : ∃ b, c.payloadJson.runtimeId = .uuid id b := by
    unfold runtimeIdOf at hid
    split at hid
    next id' b heq => exact ⟨b, by rw [heq, Option.some.inj hid]⟩
    all_goals cases hid
  obtain ⟨b, hb⟩ := hpayload
  have hrow : (svc.applyOutcome c ok p (drivenBy c r) s₁).2.id = (drivenBy c r).id :=
    applyOutcome_row.1
  have hrid : r.id = id := getRuntime_id hr
  replace hrow : (svc.applyOutcome c ok p (drivenBy c r) s₁).2.id = id := hrow.trans hrid
  unfold applyRuntimeSideEffect
  simp only [hb, hr]
  exact (w.updateRuntime _ hrow).congr (upsertWorkloadAssignment_frame _)

/-- What a failure does to the routing of its runtime. -/
theorem applyRuntimeSideEffect_failure (p : CommandResult) (h : Linked svc g s)
    (hid : runtimeIdOf c.payloadJson = some id) (hr : s.getRuntime id = some r)
    (hs : SameRuntimes s s₁) :
    let out := (svc.applyOutcome c false p (drivenBy c r) s₁).2
    let x' := if isProvisioning c.commandType then (shown g s id).map (withHealth .unhealthy)
      else shown g s id
    Writes svc g id s (svc.applyRuntimeSideEffect c false p s₁) out x' ∧
      ShowsUrl x' out.endpointUrl ∧ out.providerId = r.providerId ∧ out.status = .error := by
  have hr₁ : s₁.getRuntime id = some r := (getRuntime_congr hs.runtimes).trans hr
  have hrid : r.id = id := getRuntime_id hr
  have wout : Writes svc g id s (svc.applyOutcome c false p (drivenBy c r) s₁).1 r
      (if isProvisioning c.commandType then (shown g s id).map (withHealth .unhealthy)
        else shown g s id) :=
    applyFailure_writes ((Writes.refl hr h.synced).congr hs) hrid
  have hsame : (svc.applyOutcome c false p (drivenBy c r) s₁).2.endpointUrl = r.endpointUrl :=
    applyOutcome_row.2.2 rfl
  have hurl : ShowsUrl (shown g s id) r.endpointUrl := h.showsUrl hr
  refine ⟨applyRuntimeSideEffect_writes hid hr₁ wout, ?_, applyOutcome_row.2.1,
    (applyOutcome_runtime svc c false p (drivenBy c r) s₁).2.2⟩
  rw [hsame]
  split
  · exact hurl.withHealth
  · exact hurl

/-- What a result does to the routing of its runtime. -/
theorem applyRuntimeSideEffect_shows (seen : Uuid → Bool) (p : CommandResult) (h : Linked svc g s)
    (hid : runtimeIdOf c.payloadJson = some id) (hr : s.getRuntime id = some r)
    (hs : SameRuntimes s s₁) :
    ∃ x', Writes svc g id s (svc.applyRuntimeSideEffect c p.success p s₁)
        (svc.applyOutcome c p.success p (drivenBy c r) s₁).2 x' ∧
      ShowsUrl x' (svc.applyOutcome c p.success p (drivenBy c r) s₁).2.endpointUrl ∧
      (resultKeeps (shown g s id) (seen id) r c p →
        Shows x' ((svc.applyOutcome c p.success p (drivenBy c r) s₁).2.status = .running ∧
          (if p.success ∧ isProvisioning c.commandType then false else seen id) = false)) := by
  have hr₁ : s₁.getRuntime id = some r := (getRuntime_congr hs.runtimes).trans hr
  have w := (Writes.refl hr h.synced).congr hs
  have hrid : r.id = id := getRuntime_id hr
  have hp : (s₁.getProvider (drivenBy c r).providerId).isSome := by
    unfold Store.getProvider
    rw [hs.providers]
    exact h.providers id r hr
  have hurl₀ : ShowsUrl (shown g s id) r.endpointUrl := h.showsUrl hr
  obtain ⟨-, -, hst⟩ := applyOutcome_runtime svc c p.success p (drivenBy c r) s₁
  cases hok : p.success with
  | true =>
    obtain ⟨x', w', hurl, heffect⟩ := applySuccess_writes (drivenBy c r) c p w hrid hp hurl₀
    rw [hok] at hst
    have wout : Writes svc g id s (svc.applyOutcome c true p (drivenBy c r) s₁).1 r x' := w'
    refine ⟨x', applyRuntimeSideEffect_writes hid hr₁ wout, hurl, fun hkeep => ?_⟩
    rw [hst]
    unfold resultKeeps at hkeep
    rw [hok, if_pos rfl] at hkeep
    cases hct : c.commandType with
    | deployWorkload | startWorkload | restartWorkload =>
      simp only [hct] at heffect hkeep
      obtain ⟨hnone, rfl⟩ | hup := heffect
      · exact (hkeep hnone).congr (by simp [outcomeStatus, isProvisioning])
      · exact hup.congr (by simp [outcomeStatus, isProvisioning])
    | stopWorkload =>
      simp only [hct] at heffect
      rw [heffect]
      exact shows_unhealthy (by simp [outcomeStatus])
    | removeWorkload =>
      simp only [hct] at heffect
      rw [heffect]
      exact shows_none
    | _ =>
      simp only [hct] at heffect hkeep
      rw [heffect]
      exact hkeep.congr (by simp [outcomeStatus, isProvisioning, drivenBy])
  | false =>
    obtain ⟨w', hurl, -, hst'⟩ := applyRuntimeSideEffect_failure p h hid hr hs
    refine ⟨_, w', hurl, fun hkeep => ?_⟩
    rw [hst']
    unfold resultKeeps at hkeep
    rw [hok, if_neg Bool.false_ne_true] at hkeep
    split
    next => exact shows_unhealthy (by simp)
    next hprov => exact (hkeep.resolve_left hprov).congr (by simp)

/-- What is known of the runtimes after a call of the control plane. -/
def seenAfter (seen : Uuid → Bool) (s : Store) (e : ControlEvent) (id : Uuid) : Bool :=
  if provisioned s e = some id then false else seen id

theorem seenAfter_eq {e : ControlEvent} (h : provisioned s e = none) : seenAfter seen s e = seen :=
  funext fun id => if_neg (by rw [h]; exact (Option.some_ne_none id).symm)

theorem seenAfter_result (hown : ownCommand s nodeId commandId = some c)
    (hfits : fits 128 p.errorCode) (hid : runtimeIdOf c.payloadJson = some id) (id' : Uuid) :
    seenAfter seen s (.result now nodeId commandId p) id' =
      if id' = id then (if p.success ∧ isProvisioning c.commandType then false else seen id)
      else seen id' := by
  have hprov : provisioned s (.result now nodeId commandId p) =
      if p.success ∧ isProvisioning c.commandType then some id else none := by
    simp only [provisioned, hown, Option.bind_some, hfits, true_and, hid]
  unfold seenAfter
  rw [hprov]
  by_cases hs : (p.success ∧ isProvisioning c.commandType)
  · rw [if_pos hs, if_pos hs]
    by_cases hne : id' = id
    · rw [hne, if_pos rfl, if_pos rfl]
    · rw [if_neg hne, if_neg fun e => hne (Option.some.inj e).symm]
  · rw [if_neg hs, if_neg hs, if_neg (Option.some_ne_none id').symm]
    by_cases hne : id' = id
    · rw [hne, if_pos rfl]
    · rw [if_neg hne]

/-- A write on one row that keeps the keys. -/
def WritesRow (commandId : Uuid) (c c' : InfraNodeCommand) : Prop :=
  c'.idempotencyKey = c.idempotencyKey ∧ (c.id ≠ commandId → c'.status = c.status)

/-- Rewriting one command row leaves the commands of the other runtimes in flight. -/
theorem WritesRow.quiet {id' : Uuid} (hw : Rewrites (WritesRow c.id) s s') (hk : s.Keyed)
    (hc : c ∈ s.commands) (hid : runtimeIdOf c.payloadJson = some id) (hne : id' ≠ id)
    (hq : Quiet s' id') : Quiet s id' := by
  refine rewrites_quiet hw hk (fun d hd hdid d' hwrite hopen => ?_) hq
  rw [hwrite.2 fun e => hne ?_]
  · exact hopen
  · rw [hk.eq_of_mem hd hc e, hid] at hdid
    exact (Option.some.inj hdid).symm

/-- The other commands of a runtime after one row is rewritten. -/
theorem WritesRow.others (hw : Rewrites (WritesRow c.id) s s') (hk : s.Keyed) (hq : Quiet s' id)
    (d : InfraNodeCommand) (hd : d ∈ s.commands) (hne : d.id ≠ c.id)
    (hid : runtimeIdOf d.payloadJson = some id) : d.status.isTerminal := by
  obtain ⟨d', hd', hspec, hwrite⟩ := hw.rows d.id d (hk.getCommand hd)
  have hpay : d'.payloadJson = d.payloadJson := congrArg CommandSpec.payloadJson hspec
  rw [← hwrite.2 hne]
  exact hq d' (getCommand_mem hd') (by rw [hpay, hid])

theorem Routing.recordCommandResult (h : Routing svc g seen s)
    (hkeep : ∀ c id r, ownCommand s nodeId commandId = some c → fits 128 p.errorCode →
      runtimeIdOf c.payloadJson = some id → s.getRuntime id = some r →
      (∀ d ∈ s.commands, d.id ≠ c.id → runtimeIdOf d.payloadJson = some id →
        d.status.isTerminal) → resultKeeps (shown g s id) (seen id) r c p)
    (hs : svc.recordCommandResult now nodeId commandId p s = .ok s') :
    Routing svc g (seenAfter seen s (.result now nodeId commandId p)) s' := by
  unfold NodeControlService.recordCommandResult at hs
  split at hs
  next hown =>
    cases hs
    rw [seenAfter_eq (by simp [provisioned, hown])]
    exact h
  next c hown =>
    split at hs
    next hfits =>
      cases hs
      have hget := ownCommand_get hown
      have hmem := getCommand_mem hget
      obtain ⟨id, hnamed, hsome⟩ := h.commands c hmem
      obtain ⟨r, hr⟩ := Option.isSome_iff_exists.1 hsome
      have hid := hnamed.runtimeIdOf_eq
      let row := resultRow now p c
      let s₁ := (s.updateCommand row).appendCommandEvent row.id "result"
        (if p.success then "Command succeeded." else "Command failed.") (some (.result p))
      have hsame : SameRuntimes s s₁ := ⟨rfl, rfl, rfl⟩
      have hidrow : runtimeIdOf row.payloadJson = some id := hid
      obtain ⟨x', w, hurl, hshows⟩ := applyRuntimeSideEffect_shows seen p h.toLinked hidrow hr hsame
      have hup : Rewrites (WritesRow c.id) s (s.updateCommand row) :=
        .updateCommand (fun _ => ⟨rfl, fun _ => rfl⟩) h.keyed hget
          ⟨rfl, fun hne => (hne rfl).elim⟩ rfl
      have hw : Rewrites (WritesRow c.id) s (svc.applyRuntimeSideEffect row p.success p s₁) :=
        hup.trans_commands applyRuntimeSideEffect_commands
      refine h.write w (h.toLinked.write w (hw.keyed h.keyed) ?_ ?_ hurl) ?_ ?_ ?_
      · intro d hd
        obtain ⟨id', hn, hsome'⟩ := rewrites_named hw h.keyed (fun _ _ hp => hp.1) h.commands d hd
        exact ⟨id', hn, w.isSome hsome'⟩
      · rw [applyOutcome_row.2.1]
        exact h.providers _ r hr
      · exact fun id' hne => WritesRow.quiet hw h.keyed hmem hid hne
      · intro id' hne
        rw [seenAfter_result hown hfits hid, if_neg hne]
      · intro hq
        rw [seenAfter_result hown hfits hid, if_pos rfl]
        exact hshows (hkeep c id r hown hfits hid hr (WritesRow.others hw h.keyed hq))
    next => cases hs

/-- The store in the middle of a reaper pass over the commands `done`: the runtimes of the rows that
were timed out are failed, and their instances are down where a provisioning was among them. -/
structure Reaped (svc : NodeControlService) (g : GatewayDb) (now : Time) (s : Store)
    (done : List InfraNodeCommand) (a : Store) : Prop where
  linked : Linked svc g a
  nodes : a.nodes = s.nodes
  rows : ∀ id, id ∉ done.map (·.id) → a.getCommand id = s.getCommand id
  untouched : ∀ id, (∀ c ∈ done, svc.isStale now s c → runtimeIdOf c.payloadJson ≠ some id) →
    a.getRuntime id = s.getRuntime id ∧ shown g a id = shown g s id
  failed : ∀ c ∈ done, svc.isStale now s c → ∀ id, runtimeIdOf c.payloadJson = some id →
    ∀ r, a.getRuntime id = some r → r.status = .error
  down : ∀ id, (Shows (shown g s id) False ∨ ∃ c ∈ done, svc.isStale now s c ∧
      runtimeIdOf c.payloadJson = some id ∧ isProvisioning c.commandType) →
    Shows (shown g a id) False

/-- One command of the pass. -/
theorem Reaped.step {done rest : List InfraNodeCommand} {a : Store × Nat}
    (hk : s.Keyed) (hl : s.listInflightCommandsAllNodes 200 = done ++ c :: rest)
    (h : Reaped svc g now s done a.1) :
    Reaped svc g now s (done ++ [c]) (match a.1.getCommand c.id with
      | some command => svc.reapOne now a command
      | none => a).1 := by
  have hmem : c ∈ s.listInflightCommandsAllNodes 200 := by
    rw [hl]
    exact List.mem_append_right _ List.mem_cons_self
  have hc : c ∈ s.commands := List.mem_of_mem_filter (mem_of_mem_oldestFirst hmem)
  have hnodup : ((done ++ c :: rest).map (·.id)).Nodup := by
    rw [← hl]
    exact nodup_oldestFirst (hk.nodup_filter _)
  have hfresh : c.id ∉ done.map (·.id) := by
    rw [List.map_append, List.map_cons, List.nodup_append] at hnodup
    exact fun hm => hnodup.2.2 _ hm _ List.mem_cons_self rfl
  have hlive : a.1.getCommand c.id = some c := (h.rows c.id hfresh).trans (hk.getCommand hc)
  have hstale : svc.isStale now a.1 c = svc.isStale now s c := by
    simp only [isStale, getNodeById, h.nodes]
  rw [hlive]
  simp only [reapOne, hstale]
  split
  next hst =>
    obtain ⟨id, hnamed, hsome⟩ := h.linked.commands c (getCommand_mem hlive)
    obtain ⟨r, hr⟩ := Option.isSome_iff_exists.1 hsome
    have hid : runtimeIdOf (svc.timedOutRow now c).payloadJson = some id := hnamed.runtimeIdOf_eq
    let s₁ := (a.1.updateCommand (svc.timedOutRow now c)).appendCommandEvent
      (svc.timedOutRow now c).id "timed_out"
      "Command reaped: node offline with no result in flight." none
    have hsame : SameRuntimes a.1 s₁ := ⟨rfl, rfl, rfl⟩
    obtain ⟨w, hurl, hprov, herror⟩ :=
      applyRuntimeSideEffect_failure timedOutPayload h.linked hid hr hsame
    have hup : Rewrites (WritesRow c.id) a.1 (a.1.updateCommand (svc.timedOutRow now c)) :=
      .updateCommand (fun _ => ⟨rfl, fun _ => rfl⟩) h.linked.keyed hlive
        ⟨rfl, fun hne => (hne rfl).elim⟩ rfl
    have hw : Rewrites (WritesRow c.id) a.1
        (svc.applyRuntimeSideEffect (svc.timedOutRow now c) false timedOutPayload s₁) :=
      hup.trans_commands applyRuntimeSideEffect_commands
    have hother {id' : Uuid} (hne : id' ≠ id) {d : InfraNodeCommand}
        (hd : d ∈ done ++ [c]) (hdid : runtimeIdOf d.payloadJson = some id') : d ∈ done := by
      obtain hd | hd := List.mem_append.1 hd
      · exact hd
      · rw [List.mem_singleton.1 hd] at hdid
        exact absurd (Option.some.inj (hdid.symm.trans hnamed.runtimeIdOf_eq)) hne
    refine ⟨h.linked.write w (hw.keyed h.linked.keyed) ?_ ?_ hurl,
      applyRuntimeSideEffect_nodes.trans h.nodes, fun id' hid' => ?_, fun id' hid' => ?_, ?_, ?_⟩
    · intro d hd
      obtain ⟨id', hn, hsome'⟩ := rewrites_named hw h.linked.keyed (fun _ _ hp => hp.1)
        h.linked.commands d hd
      exact ⟨id', hn, w.isSome hsome'⟩
    · rw [hprov]
      exact h.linked.providers id r hr
    · rw [List.map_append, List.mem_append, not_or] at hid'
      have hne : id' ≠ (svc.timedOutRow now c).id := fun e => hid'.2 (List.mem_singleton.2 e)
      rw [getCommand_congr applyRuntimeSideEffect_commands]
      exact (getCommand_updateCommand_of_ne hne).trans (h.rows id' hid'.1)
    · have hne : id' ≠ id := by
        rintro rfl
        exact hid' c (List.mem_append_right _ (List.mem_singleton_self c)) hst
          hnamed.runtimeIdOf_eq
      rw [w.runtime id' hne, w.instances id' hne]
      exact h.untouched id' fun d hd => hid' d (List.mem_append_left _ hd)
    · intro d hd hsd id' hdid r' hr'
      by_cases hne : id' = id
      · subst hne
        rw [w.row] at hr'
        cases hr'
        exact herror
      · rw [w.runtime id' hne] at hr'
        exact h.failed d (hother hne hd hdid) hsd id' hdid r' hr'
    · intro id' hdown
      by_cases hne : id' = id
      · subst hne
        rw [w.published]
        split
        next => exact shows_unhealthy not_false
        next hnot =>
          refine h.down id' (hdown.imp_right ?_)
          rintro ⟨d, hd, hsd, hdid, hdprov⟩
          obtain hd | hd := List.mem_append.1 hd
          · exact ⟨d, hd, hsd, hdid, hdprov⟩
          · rw [List.mem_singleton.1 hd] at hdprov
            exact absurd hdprov hnot
      · rw [w.instances id' hne]
        refine h.down id' (hdown.imp_right ?_)
        rintro ⟨d, hd, hsd, hdid, hdprov⟩
        exact ⟨d, hother hne hd hdid, hsd, hdid, hdprov⟩
  next hst =>
    have hno {Q : Prop} (hs : svc.isStale now s c = true) : Q := absurd hs hst
    refine ⟨h.linked, h.nodes, fun id hid => h.rows id ?_, fun id hid => h.untouched id ?_, ?_, ?_⟩
    · rw [List.map_append, List.mem_append, not_or] at hid
      exact hid.1
    · exact fun d hd => hid d (List.mem_append_left _ hd)
    · intro d hd hsd
      obtain hd | hd := List.mem_append.1 hd
      · exact h.failed d hd hsd
      · rw [List.mem_singleton.1 hd] at hsd
        exact hno hsd
    · rintro id (hdown | ⟨d, hd, hsd, hrest⟩)
      · exact h.down id (.inl hdown)
      · obtain hd | hd := List.mem_append.1 hd
        · exact h.down id (.inr ⟨d, hd, hsd, hrest⟩)
        · rw [List.mem_singleton.1 hd] at hsd
          exact hno hsd

theorem reaped_reapStaleCommands (now : Time) (h : Linked svc g s) :
    Reaped svc g now s (s.listInflightCommandsAllNodes 200) (svc.reapStaleCommands now s).1 := by
  refine forEachCommand_induct_done _ (motive := fun done (a : Store × Nat) =>
    Reaped svc g now s done a.1) ?_ fun done c rest a hl ha => ha.step h.keyed hl
  refine ⟨h, rfl, fun _ _ => rfl, fun _ _ => ⟨rfl, rfl⟩, fun c hc => ?_, ?_⟩
  · cases hc
  · rintro id (hdown | ⟨c, hc, -⟩)
    · exact hdown
    · cases hc

/-- A reaper pass that keeps the routing. -/
theorem Routing.reapStaleCommands (h : Routing svc g seen s)
    (hkeep : ∀ c ∈ staleRows svc now s, ∀ id, runtimeIdOf c.payloadJson = some id →
      isProvisioning c.commandType = false →
      (∃ d ∈ staleRows svc now s, runtimeIdOf d.payloadJson = some id ∧
        isProvisioning d.commandType) ∨
      (∃ d ∈ s.commands, d.id ∉ (staleRows svc now s).map (·.id) ∧
        runtimeIdOf d.payloadJson = some id ∧ d.status.isTerminal = false) ∨
      Shows (shown g s id) False) :
    Routing svc g seen (svc.reapStaleCommands now s).1 := by
  have hreaped := reaped_reapStaleCommands now h.toLinked
  -- a row that is not timed out is as it was
  have hrow {d : InfraNodeCommand} (hd : d ∈ s.commands)
      (hfree : d.id ∉ (staleRows svc now s).map (·.id)) :
      d ∈ (svc.reapStaleCommands now s).1.commands :=
    getCommand_mem ((getCommand_reapStaleCommands h.keyed hfree).trans (h.keyed.getCommand hd))
  refine ⟨hreaped.linked, fun id r hr hq => ?_⟩
  by_cases hst : ∃ c ∈ staleRows svc now s, runtimeIdOf c.payloadJson = some id
  · obtain ⟨c, hc, hid⟩ := hst
    obtain ⟨hlist, hstale⟩ := List.mem_filter.1 hc
    have herror : r.status = .error := hreaped.failed c hlist hstale id hid r hr
    have hdown : Shows (shown g (svc.reapStaleCommands now s).1 id) False := by
      have hprov {d : InfraNodeCommand} (hd : d ∈ staleRows svc now s)
          (hdid : runtimeIdOf d.payloadJson = some id) (hp : isProvisioning d.commandType) :
          Shows (shown g (svc.reapStaleCommands now s).1 id) False := by
        obtain ⟨hlist, hstale⟩ := List.mem_filter.1 hd
        exact hreaped.down id (.inr ⟨d, hlist, hstale, hdid, hp⟩)
      by_cases hp : isProvisioning c.commandType
      · exact hprov hc hid hp
      · obtain ⟨d, hd, hdid, hdp⟩ | ⟨d, hd, hfree, hdid, hopen⟩ | hdown :=
          hkeep c hc id hid (by simpa using hp)
        · exact hprov hd hdid hdp
        · exact absurd hq (not_quiet (hrow hd hfree) hdid hopen)
        · exact hreaped.down id (.inl hdown)
    exact hdown.congr (by simp [herror])
  · have hnone : ∀ c ∈ s.listInflightCommandsAllNodes 200, svc.isStale now s c →
        runtimeIdOf c.payloadJson ≠ some id :=
      fun c hc hs hid => hst ⟨c, List.mem_filter.2 ⟨hc, hs⟩, hid⟩
    obtain ⟨hsame, hshown⟩ := hreaped.untouched id hnone
    rw [hsame] at hr
    rw [hshown]
    refine h.health id r hr fun d hd hdid => hq d (hrow hd fun hm => ?_) hdid
    obtain ⟨c, hc, he⟩ := List.mem_map.1 hm
    have hmem : c ∈ s.commands :=
      List.mem_of_mem_filter (mem_of_mem_oldestFirst (List.mem_filter.1 hc).1)
    rw [h.keyed.eq_of_mem hmem hd he] at hc
    exact hst ⟨d, hc, hdid⟩

/-- The demotion of a runtime whose node went offline. -/
theorem Routing.demoteOne (h : Routing svc g seen s) (row : LLMRuntime) :
    Routing svc g seen (svc.demoteOne nodeId s row) := by
  unfold NodeControlService.demoteOne
  split
  next => exact h
  next r hr =>
    have hid : r.id = row.id := getRuntime_id hr
    rw [← hid] at hr
    have w := (((Writes.refl hr h.synced).updateRuntime
      { r with status := .error, statusMessage := some "Node offline" } rfl).health
      .unhealthy).congr (upsertWorkloadAssignment_frame ⟨r.id, nodeId, r.desiredState, some .error⟩)
    exact h.write_kept hr w (upsertWorkloadAssignment_commands.trans syncCall_commands) rfl rfl
      (fun _ => ShowsUrl.withHealth) fun _ => shows_unhealthy (by simp)

theorem Routing.closeStreamSession {sessionId : Uuid} (h : Routing svc g seen s) :
    Routing svc g seen (svc.closeStreamSession sessionId s) := by
  unfold NodeControlService.closeStreamSession
  split
  next => exact h
  next session hsession =>
    have hup : Routing svc g seen (s.updateSession { session with connected := false }) :=
      h.same ⟨rfl, rfl, rfl⟩ rfl
    simp only
    split
    next => exact hup
    next node hnode =>
      split
      next =>
        unfold demoteNodeRuntimes
        refine List.foldlRecOn _ _ (motive := Routing svc g seen) (hup.same ⟨rfl, rfl, rfl⟩ rfl) ?_
        intro s' h' row _
        exact h'.demoteOne row
      next => exact hup

/-- What is known of the runtimes after a health event. -/
def seenByEvent (seen : Uuid → Bool) (event : HealthEvent) (id : Uuid) : Bool :=
  if healthRuntimeId event = some id then (reportsUnhealthy event.eventType).getD (seen id)
  else seen id

/-- A container that (re)started. -/
theorem reconcileRunning_writes (nodeId : Uuid) (payload : HealthPayload) (h : Linked svc g s)
    (hr : s.getRuntime r.id = some r) :
    ∃ x', Writes svc g r.id s (svc.reconcileRunning nodeId payload r s).1 r x' ∧
      ShowsUrl x' (svc.reconcileRunning nodeId payload r s).2.endpointUrl ∧ Shows x' True := by
  have hnone : (svc.reconcileRunning nodeId payload r s).2.endpointUrl = none →
      shown g s r.id = none := by
    have hurl := h.showsUrl hr
    unfold reconcileRunning
    simp only
    split
    next url hp => exact fun hno => by cases hno
    next hp =>
      intro hno
      rw [hno] at hurl
      exact hurl.eq_none
  obtain ⟨x', w, hurl, hup⟩ := (Writes.refl hr h.synced).publish_row
    (svc.reconcileRunning nodeId payload r s).2 rfl (h.providers _ r hr) hnone
  exact ⟨x', (w.congr (promoteModelStatus_frame _)).call fun _ => rfl, hurl, hup⟩

/-- The row `r'` and the store it is to be written to show the runtime as it is. -/
structure KeepsRow (svc : NodeControlService) (g : GatewayDb) (s s' : Store) (r r' : LLMRuntime)
    (unhealthySeen : Bool) : Prop where
  id_eq : r'.id = r.id
  provider : r'.providerId = r.providerId
  commands : s'.commands = s.commands
  shows : ∃ x', Writes svc g r.id s s' r x' ∧ ShowsUrl x' r'.endpointUrl ∧
    (Quiet s r.id → Shows x' (r'.status = .running ∧ unhealthySeen = false))

/-- What a health event writes on its runtime and its instance. -/
theorem reconcileRow_keeps {event : HealthEvent} (h : Routing svc g seen s)
    (hr : s.getRuntime r.id = some r)
    (hkeep : event.eventType = .running → r.status = .running → Quiet s r.id →
      Shows (shown g s r.id) True)
    (hrow : svc.reconcileRow nodeId event r s = some (s₁, r')) :
    KeepsRow svc g s s₁ r r' ((reportsUnhealthy event.eventType).getD (seen r.id)) := by
  have w := Writes.refl hr h.synced
  have hurl : ShowsUrl (shown g s r.id) r.endpointUrl := h.showsUrl hr
  have hhealth := h.health _ r hr
  have hrunning : KeepsRow svc g s (svc.reconcileRunning nodeId event.payload r s).1 r
      (svc.reconcileRunning nodeId event.payload r s).2
      ((reportsUnhealthy .running).getD (seen r.id)) := by
    obtain ⟨x', w', hurl', hup⟩ := reconcileRunning_writes nodeId event.payload h.toLinked hr
    refine ⟨rfl, rfl, ?_, x', w', hurl', fun _ => hup.congr (iff_of_true trivial ⟨rfl, rfl⟩)⟩
    unfold reconcileRunning
    simp
  -- an event that finds nothing to do
  have hidle {unhealthySeen : Bool}
      (hup : Quiet s r.id → Shows (shown g s r.id) (r.status = .running ∧ unhealthySeen = false)) :
      KeepsRow svc g s s r r unhealthySeen :=
    ⟨rfl, rfl, rfl, _, w, hurl, hup⟩
  have hdown {unhealthySeen : Bool} (r' : LLMRuntime) (hid : r'.id = r.id)
      (hp : r'.providerId = r.providerId) (hsame : r'.endpointUrl = r.endpointUrl)
      (hup : ¬ (r'.status = .running ∧ unhealthySeen = false)) :
      KeepsRow svc g s (svc.syncCall (.setInstanceHealth r.id .unhealthy) s) r r' unhealthySeen :=
    ⟨hid, hp, syncCall_commands, _, w.health .unhealthy, hsame ▸ hurl.withHealth,
      fun _ => shows_unhealthy hup⟩
  obtain ⟨eventType, payload⟩ := event
  unfold reconcileRow at hrow
  cases eventType with
  | running =>
    simp only at hrow
    cases hst : r.status with
    | error =>
      rw [hst] at hrow
      cases hrow
      exact hrunning
    | starting | creating =>
      rw [hst] at hrow
      simp only at hrow
      split at hrow
      · cases hrow
      · cases hrow
        exact hrunning
    | running =>
      rw [hst] at hrow
      cases hrow
      exact hidle fun hq => (hkeep rfl hst hq).congr (iff_of_true trivial ⟨hst, rfl⟩)
    | stopping | stopped =>
      rw [hst] at hrow
      cases hrow
      exact hidle fun hq => (hhealth hq).congr (by simp [hst])
  | stopped | missing =>
    simp only at hrow
    split at hrow
    all_goals cases hrow
    next => exact hdown _ rfl rfl rfl (by simp)
    next => exact hidle hhealth
  | crashLoop =>
    cases hrow
    exact hdown _ rfl rfl rfl (by simp)
  | unhealthy =>
    simp only at hrow
    split at hrow
    all_goals cases hrow
    next => exact hdown _ rfl rfl rfl (by simp [reportsUnhealthy])
    next hst => exact hidle fun hq => (hhealth hq).congr (by simp [hst])

/-- A health event that is ignored finds its runtime coming up. -/
theorem status_of_reconcileRow_eq_none {event : HealthEvent}
    (h : svc.reconcileRow nodeId event r s = none) : r.status ≠ .running := by
  obtain ⟨eventType, payload⟩ := event
  unfold reconcileRow at h
  cases eventType with
  | running =>
    intro hst
    simp only [hst] at h
    cases h
  | stopped | missing | unhealthy =>
    simp only at h
    split at h <;> cases h
  | crashLoop => cases h

/-- A health event that keeps the routing. -/
theorem Routing.reconcileRuntimeFromEvent {event : HealthEvent} (h : Routing svc g seen s)
    (hkeep : ∀ id r, healthRuntimeId event = some id → s.getRuntime id = some r →
      event.eventType = .running → r.status = .running → Quiet s id →
      Shows (shown g s id) True) :
    Routing svc g (seenByEvent seen event)
      (svc.reconcileRuntimeFromEvent nodeId event s) := by
  unfold NodeControlService.reconcileRuntimeFromEvent
  cases hp : event.payload.runtimeId with
  | missing | falsy | malformed =>
    have hseen : seenByEvent seen event = seen :=
      funext fun id => if_neg (by unfold healthRuntimeId; simp [hp])
    rw [hseen]
    exact h
  | uuid id b =>
    have hid : healthRuntimeId event = some id := by
      unfold healthRuntimeId
      rw [hp]
    have hother : ∀ id' ≠ id, seenByEvent seen event id' = seen id' := fun id' hne => by
      unfold seenByEvent
      rw [hid, if_neg fun e => hne (Option.some.inj e).symm]
    have hself : seenByEvent seen event id =
        (reportsUnhealthy event.eventType).getD (seen id) := if_pos hid
    simp only
    split
    next hnew => exact h.seen_of_absent hnew hother
    next r hr =>
      obtain rfl : r.id = id := getRuntime_id hr
      split
      next hrow =>
        refine h.write_row (Writes.refl hr h.synced) rfl (h.providers _ r hr) (h.showsUrl hr) hother
          fun hq => (h.health _ r hr hq).congr ?_
        have hst := status_of_reconcileRow_eq_none hrow
        simp [hst]
      next s₁ r' hrow =>
        have hk := reconcileRow_keeps h hr (hkeep r.id r hid hr) hrow
        obtain ⟨x', w, hurl, hup⟩ := hk.shows
        have w' := (w.updateRuntime r' hk.id_eq).congr (upsertWorkloadAssignment_frame
          ⟨r'.id, nodeId, r'.desiredState, some r'.status⟩)
        refine h.write_row w' ?_ ?_ hurl hother fun hq => ?_
        · exact upsertWorkloadAssignment_commands.trans hk.commands
        · rw [hk.provider]
          exact h.providers _ r hr
        · rw [hself]
          exact hup hq

end LlmPort.Backend
