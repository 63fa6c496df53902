import LlmPort.Backend.RoutingCommands

/-!
# Requests under the routing invariant

The operations of the runtime service: lifecycle requests, creations, reconciliations and probes.
-/

namespace LlmPort.Backend

open Transition NodeControl NodeControlService Store Llm LLMService

variable {llm : LLMService} {g : GatewayDb} {s s' : Store} {seen : Uuid → Bool}
  {id runtimeId : Uuid} {r : LLMRuntime} {draw : Draw}

theorem Routing.startRuntime (h : Routing llm.nodeControl g seen s)
    (hkeep : ∀ r, s.getRuntime runtimeId = some r → requestNode (.start runtimeId) s = none →
      localKeeps s (shown g s r.id) (seen r.id) r (.start runtimeId))
    (hs : llm.startRuntime draw runtimeId s = .ok s') : Routing llm.nodeControl g seen s' := by
  unfold LLMService.startRuntime at hs
  split at hs
  next => cases hs
  next r hr =>
    obtain rfl : r.id = runtimeId := getRuntime_id hr
    have w := Writes.refl hr h.synced
    split at hs
    next nodeId hn => exact h.issueLifecycle hr rfl rfl rfl hs
    next hn =>
      have hk := hkeep r hr (bind_hostingNode hr hn)
      split at hs
      all_goals cases hs
      next hc =>
        simp only [localKeeps, hc, if_true] at hk
        exact h.write_kept hr ((w.setStatus .running).health .healthy)
          (syncCall_commands.trans setStatus_commands) rfl rfl (fun _ => ShowsUrl.withHealth)
          fun _ => shows_healthy fun hx => ⟨rfl, hk hx⟩
      next containerRef hc =>
        simp only [localKeeps, hc, reduceCtorEq, if_false] at hk
        exact h.write_kept hr ((w.call fun _ => rfl).setStatus .starting) setStatus_commands rfl rfl
          (fun _ hx => hx) fun _ => hk.congr (by simp)

theorem Routing.stopRuntime (h : Routing llm.nodeControl g seen s)
    (hs : llm.stopRuntime draw runtimeId s = .ok s') : Routing llm.nodeControl g seen s' := by
  unfold LLMService.stopRuntime at hs
  split at hs
  next => cases hs
  next r hr =>
    obtain rfl : r.id = runtimeId := getRuntime_id hr
    have w := Writes.refl hr h.synced
    split at hs
    next nodeId hn => exact h.issueLifecycle hr rfl rfl rfl hs
    next hn =>
      cases hs
      split
      next =>
        exact h.write_kept hr ((w.setStatus .stopped).health .unhealthy)
          (syncCall_commands.trans setStatus_commands) rfl rfl (fun _ => ShowsUrl.withHealth)
          fun _ => shows_unhealthy (by simp)
      next containerRef hc =>
        exact h.write_kept hr
          ((((w.setStatus .stopping).call fun _ => rfl).setStatus .stopped).health .unhealthy)
          (syncCall_commands.trans (setStatus_commands.trans setStatus_commands)) rfl rfl
          (fun _ => ShowsUrl.withHealth) fun _ => shows_unhealthy (by simp)

theorem Routing.restartRuntime (h : Routing llm.nodeControl g seen s)
    (hkeep : ∀ r, s.getRuntime runtimeId = some r → requestNode (.restart runtimeId) s = none →
      localKeeps s (shown g s r.id) (seen r.id) r (.restart runtimeId))
    (hs : llm.restartRuntime draw runtimeId s = .ok s') : Routing llm.nodeControl g seen s' := by
  unfold LLMService.restartRuntime at hs
  split at hs
  next => cases hs
  next r hr =>
    obtain rfl : r.id = runtimeId := getRuntime_id hr
    have w := Writes.refl hr h.synced
    split at hs
    next nodeId hn => exact h.issueLifecycle hr rfl rfl rfl hs
    next hn =>
      have hk := hkeep r hr (bind_hostingNode hr hn)
      split at hs
      all_goals cases hs
      next hc =>
        simp only [localKeeps, hc, true_and] at hk
        exact h.write_kept hr (w.setStatus .running) setStatus_commands rfl rfl (fun _ hx => hx)
          fun _ => hk.congr (by simp)
      next containerRef hc =>
        simp only [localKeeps, hc, reduceCtorEq, false_and] at hk
        exact h.write_kept hr ((w.call fun _ => rfl).setStatus .starting) setStatus_commands rfl rfl
          (fun _ hx => hx) fun _ => hk.congr (by simp)

/-- New configuration on the row of a runtime. -/
theorem Routing.updateRuntime {r' : LLMRuntime} (h : Routing llm.nodeControl g seen s)
    (hr : s.getRuntime r'.id = some r) (hp : r'.providerId = r.providerId)
    (hurl : r'.endpointUrl = r.endpointUrl) (hst : r'.status = r.status) :
    Routing llm.nodeControl g seen (s.updateRuntime r') := by
  refine h.write_kept hr ((Writes.refl hr h.synced).updateRuntime r' rfl) rfl hp hurl
    (fun _ hx => hx) fun hq => ?_
  rw [hst]
  exact h.health _ r hr hq

theorem Routing.updateLocally {placement : Placement} {config : UpdateConfig}
    (h : Routing llm.nodeControl g seen s) (hr : s.getRuntime r.id = some r)
    (hkeep : localKeeps s (shown g s r.id) (seen r.id) r (.update r.id config placement))
    (hs : updateLocally placement (updateConfig config r)
      (s.updateRuntime (updateConfig config r)) = .ok s') : Routing llm.nodeControl g seen s' := by
  have hrow : s.getRuntime (updateConfig config r).id = some r := hr
  have w := (Writes.refl hrow h.synced).updateRuntime (updateConfig config r) rfl
  unfold LLMService.updateLocally at hs
  simp only [localKeeps] at hkeep
  split at hs
  next hremote =>
    have hremote : (s.getProvider r.providerId).any (·.remoteEndpoint) = true := hremote
    rw [if_pos hremote] at hkeep
    cases hs
    exact h.write_kept hrow (w.setStatus .running) setStatus_commands rfl rfl (fun _ hx => hx)
      fun _ => hkeep.congr (by simp [updateConfig])
  next hremote =>
    have hremote : ¬ (s.getProvider r.providerId).any (·.remoteEndpoint) = true := hremote
    rw [if_neg hremote] at hkeep
    split at hs
    next => cases hs
    next model hmodel =>
      have hcmd : (teardownRuntime (updateConfig config r)
          (s.updateRuntime (updateConfig config r))).commands = s.commands :=
        teardownRuntime_commands
      have wdown : Writes llm.nodeControl g r.id s (teardownRuntime (updateConfig config r)
          (s.updateRuntime (updateConfig config r))) (updateConfig config r) (shown g s r.id) := by
        unfold teardownRuntime
        split
        · exact w
        · split
          · exact w
          · exact w.call fun _ => rfl
      simp only at hs
      split at hs
      all_goals cases hs
      next =>
        exact h.write_kept hr wdown hcmd rfl rfl (fun _ hx => hx) fun hq => h.health _ r hr hq
      next containerId url hbuilt =>
        obtain ⟨hdown, hurl⟩ := hkeep containerId url (by
          have hmodel : s.getModel r.modelId = some model := hmodel
          rw [hmodel]
          rfl) hbuilt
        have wup := (wdown.updateRuntime { updateConfig config r with
          containerRef := some containerId
          endpointUrl := url <|> r.endpointUrl } rfl).setStatus .starting
        refine h.write_row wup (setStatus_commands.trans hcmd) ?_ hurl (fun _ _ => rfl)
          fun _ => hdown.congr (by simp)
        exact h.providers _ r hr

theorem Routing.updateAndRestartRuntime {config : UpdateConfig} {placement : Placement}
    (h : Routing llm.nodeControl g seen s)
    (hkeep : ∀ r, s.getRuntime runtimeId = some r →
      requestNode (.update runtimeId config placement) s = none →
      localKeeps s (shown g s r.id) (seen r.id) r (.update runtimeId config placement))
    (hs : llm.updateAndRestartRuntime draw runtimeId config placement s = .ok s') :
    Routing llm.nodeControl g seen s' := by
  unfold LLMService.updateAndRestartRuntime at hs
  split at hs
  next => cases hs
  next r hr =>
    obtain rfl : r.id = runtimeId := getRuntime_id hr
    simp only at hs
    split at hs
    next ht =>
      unfold updateOnNode at hs
      split at hs
      next => cases hs
      next provider hprov =>
        split at hs
        next => cases hs
        next nodeId hn =>
          let runtime := { updateConfig config r with assignedNodeId := some nodeId }
          have hup : Routing llm.nodeControl g seen (s.updateRuntime runtime) :=
            h.updateRuntime (r := r) hr rfl rfl rfl
          exact hup.issueLifecycle (getRuntime_updateRuntime_self hr) rfl rfl rfl hs
    next ht =>
      have ht : ¬ r.executionTarget = .node := ht
      refine h.updateLocally hr (hkeep r hr ?_) hs
      change (s.getRuntime r.id).bind _ = none
      rw [hr]
      exact if_neg ht

/-- A lifecycle request that keeps the routing. -/
theorem Routing.handle {req : LifecycleRequest} (h : Routing llm.nodeControl g seen s)
    (hkeep : ∀ r, s.getRuntime req.runtimeId = some r → requestNode req s = none →
      localKeeps s (shown g s r.id) (seen r.id) r req)
    (hs : llm.handle draw req s = .ok s') : Routing llm.nodeControl g seen s' := by
  cases req with
  | start => exact h.startRuntime hkeep hs
  | stop => exact h.stopRuntime hs
  | restart => exact h.restartRuntime hkeep hs
  | update => exact h.updateAndRestartRuntime hkeep hs

@[simp] theorem reconcileRuntimeStatus_commands {inspected : Option ContainerState} :
    (llm.reconcileRuntimeStatus r inspected s).commands = s.commands := by
  unfold reconcileRuntimeStatus
  split <;> simp

/-- What a reconciliation writes. -/
theorem reconcileRuntimeStatus_writes (inspected : Option ContainerState)
    (hr : s.getRuntime r.id = some r)
    (hs : llm.nodeControl.gatewaySync = false → ∀ id, shown g s id = none) :
    ∃ r' x', Writes llm.nodeControl g r.id s (llm.reconcileRuntimeStatus r inspected s) r' x' ∧
      r'.providerId = r.providerId ∧ r'.endpointUrl = r.endpointUrl ∧
      match llm.verdict r inspected s with
      | .keep => r'.status = r.status ∧ x' = shown g s r.id
      | .promote => r'.status = .running ∧ x' = (shown g s r.id).map (withHealth .healthy)
      | .fail _ => r'.status = .error ∧ x' = (shown g s r.id).map (withHealth .unhealthy) := by
  have w := Writes.refl hr hs
  unfold reconcileRuntimeStatus
  cases llm.verdict r inspected s with
  | keep => exact ⟨_, _, w, rfl, rfl, rfl, rfl⟩
  | promote => exact ⟨_, _, (w.setStatus .running).health .healthy, rfl, rfl, rfl, rfl⟩
  | fail message =>
    exact ⟨_, _, ((w.updateRuntime { r with statusMessage := some message } rfl).setStatus
      .error).health .unhealthy, rfl, rfl, rfl, rfl⟩

theorem Routing.reconcileRuntimeStatus {inspected : Option ContainerState}
    (h : Routing llm.nodeControl g seen s) (hr : s.getRuntime r.id = some r)
    (hkeep : llm.verdict r inspected s = .promote →
      (shown g s r.id).isSome → seen r.id = false) :
    Routing llm.nodeControl g seen (llm.reconcileRuntimeStatus r inspected s) := by
  obtain ⟨r', x', w, hp, hurl, hcase⟩ := reconcileRuntimeStatus_writes inspected hr h.synced
  cases hv : llm.verdict r inspected s with
  | keep =>
    rw [hv] at hcase
    obtain ⟨hst, rfl⟩ := hcase
    refine h.write_kept hr w reconcileRuntimeStatus_commands hp hurl (fun _ hx => hx) fun hq => ?_
    rw [hst]
    exact h.health _ r hr hq
  | promote =>
    rw [hv] at hcase
    obtain ⟨hst, rfl⟩ := hcase
    exact h.write_kept hr w reconcileRuntimeStatus_commands hp hurl (fun _ => ShowsUrl.withHealth)
      fun _ => shows_healthy fun hx => ⟨hst, hkeep hv hx⟩
  | fail message =>
    rw [hv] at hcase
    obtain ⟨hst, rfl⟩ := hcase
    exact h.write_kept hr w reconcileRuntimeStatus_commands hp hurl (fun _ => ShowsUrl.withHealth)
      fun _ => shows_unhealthy (by simp [hst])

theorem Routing.getRuntimeHealth {inspected : Option ContainerState} {healthy : Bool}
    (h : Routing llm.nodeControl g seen s)
    (hkeep : ∀ r, s.getRuntime runtimeId = some r → match llm.verdict r inspected s with
      | .promote => (shown g s runtimeId).isSome → seen runtimeId = false
      | .fail _ => True
      | .keep => healthy → r.status = .starting → Quiet s runtimeId →
        Shows (shown g s runtimeId) (seen runtimeId = false))
    (hs : llm.getRuntimeHealth runtimeId inspected healthy s = .ok s') :
    Routing llm.nodeControl g seen s' := by
  unfold LLMService.getRuntimeHealth at hs
  split at hs
  next => cases hs
  next r hr =>
    obtain rfl : r.id = runtimeId := getRuntime_id hr
    have hk := hkeep r hr
    split at hs
    next => cases hs
    next =>
      have hrec : Routing llm.nodeControl g seen (llm.reconcileRuntimeStatus r inspected s) :=
        h.reconcileRuntimeStatus hr fun hv => by rwa [hv] at hk
      simp only at hs
      split at hs
      all_goals cases hs
      next hprobe =>
        obtain ⟨hhealthy, hstarting⟩ := hprobe
        obtain ⟨r', x', w, hp, hurl, hcase⟩ := reconcileRuntimeStatus_writes inspected hr
          h.synced
        have hst : r'.status = .starting := by
          unfold runtimeStatus at hstarting
          rw [w.row] at hstarting
          exact Option.some.inj hstarting
        cases hv : llm.verdict r inspected s with
        | keep =>
          rw [hv] at hcase hk
          obtain ⟨hsame, rfl⟩ := hcase
          exact h.write_kept hr (w.setStatus .running)
            (setStatus_commands.trans reconcileRuntimeStatus_commands) hp hurl (fun _ hx => hx)
            fun hq => (hk hhealthy (hsame ▸ hst) hq).congr (by simp)
        | promote =>
          rw [hv, hst] at hcase
          cases hcase.1
        | fail message =>
          rw [hv, hst] at hcase
          cases hcase.1
      next => exact hrec

theorem Routing.stopRuntimeRaising (h : Routing llm.nodeControl g seen s)
    (hkeep : ∀ r, s.getRuntime runtimeId = some r → hostingNode r = none →
      r.containerRef.filter (· ≠ "") ≠ none → Shows (shown g s runtimeId) False) :
    Routing llm.nodeControl g seen (stopRuntimeRaising runtimeId s) := by
  unfold LLMService.stopRuntimeRaising
  split
  next => exact h
  next r hr =>
    obtain rfl : r.id = runtimeId := getRuntime_id hr
    split
    next containerRef hn hc =>
      have hdown : Shows (shown g s r.id) False :=
        hkeep r hr hn fun hnone => Option.some_ne_none _ (hc.symm.trans hnone)
      exact h.write_kept hr (((Writes.refl hr h.synced).setStatus .stopping).call fun _ => rfl)
        setStatus_commands rfl rfl (fun _ hx => hx) fun _ => hdown.congr (by simp)
    next => exact h

/-- A new row, which nothing is published for. -/
theorem Writes.insert (h : Linked llm.nodeControl g s) (r' : LLMRuntime) (hid : r'.id = id)
    (hnew : s.getRuntime id = none) :
    Writes llm.nodeControl g id s { s with runtimes := s.runtimes ++ [r'] } r' none where
  runtime id' hne := by
    simp only [Store.getRuntime, List.find?_append]
    simp [hid, Ne.symm hne]
  instances _ _ := rfl
  providers := rfl
  row := by
    unfold Store.getRuntime at hnew ⊢
    rw [List.find?_append, hnew]
    simp [hid]
  published := by
    by_contra hsome
    obtain ⟨r, hr, -⟩ := h.linked id (Option.ne_none_iff_isSome.1 hsome)
    rw [hr] at hnew
    cases hnew
  synced _ := rfl

/-- A new runtime has been reported unhealthy by nobody. -/
theorem Routing.insert (h : Routing llm.nodeControl g seen s) (r' : LLMRuntime) (hid : r'.id = id)
    (hnew : s.getRuntime id = none) (hp : (s.getProvider r'.providerId).isSome) :
    Routing llm.nodeControl g (Function.update seen id false)
      { s with runtimes := s.runtimes ++ [r'] } :=
  h.write_row (.insert h.toLinked r' hid hnew) rfl hp showsUrl_none
    (fun _ hne => Function.update_of_ne hne ..) fun _ => shows_none

theorem Routing.settle {svc : NodeControlService} (h : Routing svc g seen s) :
    Routing svc (deliver g s) seen { s with syncCalls := [] } :=
  ⟨⟨h.keyed, h.commands, h.providers, h.synced, h.linked⟩, h.health⟩

/-- A runtime is published as it is. -/
theorem Routing.publish {req : PublishRequest} {name : String} {url : EndpointUrl}
    (h : Routing llm.nodeControl g seen s) (hdrained : s.syncCalls = [])
    (hsync : llm.nodeControl.gatewaySync = true) (hr : s.getRuntime id = some r)
    (hurl : r.endpointUrl = some url) (hreq : req.baseUrl = endpointText url)
    (hhealth : req.healthStatus = "healthy" ↔ r.status = .running ∧ seen id = false) :
    Routing llm.nodeControl (g.publishRuntime id name req) seen s := by
  have hshown (g : GatewayDb) (id : Uuid) : shown g s id = g.instances.find? (·.id = id) := by
    unfold shown deliver
    rw [hdrained]
    rfl
  have hself : shown (g.publishRuntime id name req) s id =
      some (GatewayDb.publishedInstance id req) :=
    (hshown _ id).trans (find?_publishRuntime.trans (if_pos rfl))
  have hother {id' : Uuid} (hne : id' ≠ id) :
      shown (g.publishRuntime id name req) s id' = shown g s id' :=
    (hshown _ id').trans ((find?_publishRuntime.trans (if_neg hne)).trans (hshown g id').symm)
  refine ⟨⟨h.keyed, h.commands, h.providers, fun hno => ?_, fun id' hsome => ?_⟩,
    fun id' r₁ hr₁ hq => ?_⟩
  · rw [hsync] at hno
    cases hno
  · by_cases hid : id' = id
    · subst hid
      refine ⟨r, hr, fun x hx => ?_⟩
      rw [hself] at hx
      cases hx
      rw [hurl]
      change some (normalizeBaseUrl (endpointText url)) = some (normalizeBaseUrl req.baseUrl)
      rw [hreq]
    · rw [hother hid] at hsome ⊢
      exact h.linked id' hsome
  · by_cases hid : id' = id
    · subst hid
      rw [hr] at hr₁
      cases hr₁
      rw [hself]
      intro x hx
      cases hx
      exact hhealth
    · rw [hother hid]
      exact h.health id' r₁ hr₁ hq

theorem checkCreate_eq_ok {req : CreateRequest} {compatible : Except ServiceError Unit}
    {p : LLMProvider × LLMModel} (h : checkCreate req compatible s = .ok p) :
    (s.getProvider req.providerId).isSome := by
  unfold checkCreate at h
  split at h
  next => cases h
  next => cases h
  next provider model hprov hmodel =>
    rw [hprov]
    rfl

theorem Routing.createOnNode {req : CreateRequest} {compatible : Except ServiceError Unit}
    {scheduled : Except ServiceError Uuid} (h : Routing llm.nodeControl g seen s)
    (hnew : s.getRuntime runtimeId = none)
    (hs : llm.createOnNode draw runtimeId req compatible scheduled s = .ok s') :
    Routing llm.nodeControl g (Function.update seen runtimeId false) s' := by
  unfold LLMService.createOnNode at hs
  split at hs
  next => cases hs
  next => cases hs
  next provider model hprov hmodel =>
    split at hs
    next => cases hs
    next =>
      split at hs
      next => cases hs
      next =>
        split at hs
        next => cases hs
        next nodeId hnode =>
          have hp : (s.getProvider (createdRow runtimeId req nodeId).providerId).isSome := by
            change (s.getProvider req.providerId).isSome = true
            rw [hprov]
            rfl
          let row := createdRow runtimeId req nodeId
          have w := Writes.insert h.toLinked row rfl hnew
          have hins := (h.insert row rfl hnew hp).same
            (upsertWorkloadAssignment_frame ⟨row.id, nodeId, row.desiredState, none⟩)
            upsertWorkloadAssignment_commands
          simp only at hs
          split at hs
          next => cases hs
          next s₁ command hi =>
            cases hs
            have hrow := (w.congr (upsertWorkloadAssignment_frame
              ⟨row.id, nodeId, row.desiredState, none⟩)).row
            exact hins.issue hrow rfl rfl rfl rfl hi rfl

/-- What is published for a new runtime shows it as it is. -/
def ShowsNew (s : Store) (id : Uuid) (req : PublishRequest) : Prop :=
  ∃ r url, s.getRuntime id = some r ∧ r.endpointUrl = some url ∧ req.baseUrl = endpointText url ∧
    (req.healthStatus = "healthy" ↔ r.status = .running)

theorem Routing.createRemote {req : CreateRequest} {env : CreateEnvironment}
    {publish : PublishRequest} (h : Routing llm.nodeControl g seen s)
    (hnew : s.getRuntime runtimeId = none)
    (hs : createRemote runtimeId req env s = .ok (s', publish)) :
    Routing llm.nodeControl g (Function.update seen runtimeId false) s' ∧
      ShowsNew s' runtimeId publish := by
  unfold LLMService.createRemote at hs
  split at hs
  next => cases hs
  next provider model hcheck =>
    split at hs
    next => cases hs
    next url hurl =>
      cases hs
      let row : LLMRuntime := { insertedRow runtimeId req with
        executionTarget := .remote
        endpointUrl := some url
        status := .running }
      have w := Writes.insert h.toLinked row rfl hnew
      refine ⟨h.insert row rfl hnew (checkCreate_eq_ok hcheck), row, url, w.row, rfl, rfl, ?_⟩
      exact iff_of_true rfl rfl

theorem Routing.createLocally {req : CreateRequest} {env : CreateEnvironment}
    {publish : Option PublishRequest} (h : Routing llm.nodeControl g seen s)
    (hnew : s.getRuntime runtimeId = none)
    (hs : createLocally runtimeId req env s = .ok (s', publish)) :
    Routing llm.nodeControl g (Function.update seen runtimeId false) s' ∧
      ∀ p, publish = some p → ShowsNew s' runtimeId p := by
  unfold LLMService.createLocally at hs
  split at hs
  next => cases hs
  next provider model hcheck =>
    split at hs
    all_goals cases hs
    next =>
      exact ⟨h.seen_of_absent hnew fun _ hne => Function.update_of_ne hne ..,
        fun p hp => by cases hp⟩
    next containerId endpointUrl hbuilt =>
      let row : LLMRuntime := { insertedRow runtimeId req with
        containerRef := some containerId
        endpointUrl
        status := .starting }
      have w := Writes.insert h.toLinked row rfl hnew
      refine ⟨h.insert row rfl hnew (checkCreate_eq_ok hcheck), fun p hp => ?_⟩
      obtain ⟨url, hurl, rfl⟩ := Option.map_eq_some_iff.1 hp
      refine ⟨row, url, w.row, hurl, rfl, ?_⟩
      exact iff_of_false (by decide : ¬ "unknown" = "healthy") (fun e : row.status = .running => by
        cases e)

theorem Routing.createRuntime {req : CreateRequest} {env : CreateEnvironment}
    {publish : Option PublishRequest} (h : Routing llm.nodeControl g seen s)
    (hnew : s.getRuntime runtimeId = none)
    (hs : llm.createRuntime draw runtimeId req env s = .ok (s', publish)) :
    Routing llm.nodeControl g (Function.update seen runtimeId false) s' ∧
      ∀ p, publish = some p → ShowsNew s' runtimeId p := by
  unfold LLMService.createRuntime at hs
  split at hs
  next =>
    cases hc : LLMService.createRemote runtimeId req env s with
    | error e =>
      rw [hc] at hs
      cases hs
    | ok created =>
      rw [hc] at hs
      cases hs
      obtain ⟨hroute, hnew'⟩ := h.createRemote hnew hc
      exact ⟨hroute, fun p hp => by cases hp; exact hnew'⟩
  next =>
    split at hs
    next =>
      cases hc : llm.createOnNode draw runtimeId req env.compatible env.scheduled s with
      | error e =>
        rw [hc] at hs
        cases hs
      | ok created =>
        rw [hc] at hs
        cases hs
        exact ⟨h.createOnNode hnew hc, fun p hp => by cases hp⟩
    next => exact h.createLocally hnew hs

end LlmPort.Backend
