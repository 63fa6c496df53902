import LlmPort.Gateway.ToolTranscript

/-!
# The tool constraints of skills

`_inject_mcp_tools` and `_apply_skill_tool_constraints` of `services/gateway/service.py`, and the
tools that the loop runs afterwards.
-/

namespace LlmPort.Gateway

open Text

/-- The tool lists of a `ResolvedSkill`. -/
structure ResolvedSkill where
  allowedTools : Option (List String)
  preferredTools : Option (List String)
  forbiddenTools : Option (List String)

/-- The entries of a payload that offer tools to the model. -/
structure ToolOffer where
  tools : Option (List Json)
  toolChoice : Option Json

/-- `_inject_mcp_tools`, given what `get_tools` returns. -/
def injectMcpTools (mcpTools : List Json) (payload : ToolOffer) : ToolOffer :=
  if mcpTools.isEmpty then payload
  else
    { tools := some (payload.tools.getD [] ++ mcpTools.map fun t => (t.get? "openai_tool").getD t)
      toolChoice := some (payload.toolChoice.getD (.string "auto")) }

/-- `tool.get("function", {}).get("name", "")` -/
def offeredName (tool : Json) : Json :=
  ((tool.get? "function").bind (·.get? "name")).getD (.string "")

/-- `all_forbidden` -/
def allForbidden (skills : List ResolvedSkill) : List String :=
  skills.foldl (fun all skill => all ++ skill.forbiddenTools.getD []) []

/-- `all_allowed` with a skill's list added, where it has one. -/
def addAllowed (all : Option (List String)) (skill : ResolvedSkill) : Option (List String) :=
  match skill.allowedTools.getD [] with
  | [] => all
  | tools => some (all.getD [] ++ tools)

/-- `all_allowed` -/
def allAllowed (skills : List ResolvedSkill) : Option (List String) := skills.foldl addAllowed none

/-- The filter lets a name pass. -/
def keepsName (skills : List ResolvedSkill) (name : Json) : Bool :=
  !(allForbidden skills).any (.string · = name) &&
    (allAllowed skills).all (·.any (.string · = name))

/-- `_apply_skill_tool_constraints` -/
def applySkillToolConstraints (skills : List ResolvedSkill) (payload : ToolOffer) : ToolOffer :=
  if skills.isEmpty then payload
  else match payload.tools with
    | none | some [] => payload
    | some tools =>
      if (allAllowed skills).isNone && (allForbidden skills).isEmpty then payload
      else
        let filtered := tools.filter fun tool => keepsName skills (offeredName tool)
        { payload with tools := some filtered }

/-- No skill forbids the tool, and where a skill has a list of allowed tools, some skill allows
it. -/
def Permitted (skills : List ResolvedSkill) (name : String) : Prop :=
  (∀ skill ∈ skills, name ∉ skill.forbiddenTools.getD []) ∧
    ((∃ skill ∈ skills, skill.allowedTools.getD [] ≠ []) →
      ∃ skill ∈ skills, name ∈ skill.allowedTools.getD [])

instance (skills : List ResolvedSkill) (name : String) : Decidable (Permitted skills name) :=
  inferInstanceAs (Decidable (_ ∧ _))

/-! ## What is offered -/

section
variable {skills : List ResolvedSkill} {payload : ToolOffer} {name : String} {tool : Json}
  {tools : List Json}

theorem allForbidden_eq : allForbidden skills = skills.flatMap (·.forbiddenTools.getD []) := by
  have hfold : ∀ all, skills.foldl (fun all skill => all ++ skill.forbiddenTools.getD []) all =
      all ++ skills.flatMap (·.forbiddenTools.getD []) := by
    induction skills with
    | nil => simp
    | cons skill rest ih =>
      intro all
      rw [List.foldl_cons, ih, List.flatMap_cons, List.append_assoc]
  exact hfold []

theorem allAllowed_eq : allAllowed skills =
    if skills.flatMap (·.allowedTools.getD []) = [] then none
    else some (skills.flatMap (·.allowedTools.getD [])) := by
  have hfold : ∀ all, skills.foldl addAllowed all =
      if skills.flatMap (·.allowedTools.getD []) = [] then all
      else some (all.getD [] ++ skills.flatMap (·.allowedTools.getD [])) := by
    induction skills with
    | nil => intro all; rfl
    | cons skill rest ih =>
      intro all
      rw [List.foldl_cons, ih, List.flatMap_cons, addAllowed]
      cases skill.allowedTools.getD [] with
      | nil => rfl
      | cons tool tools =>
        by_cases hrest : rest.flatMap (·.allowedTools.getD []) = []
        · simp [hrest]
        · simp [hrest]
  exact hfold none

theorem allows_iff : Permitted skills name ↔
    name ∉ skills.flatMap (·.forbiddenTools.getD []) ∧
      (skills.flatMap (·.allowedTools.getD []) ≠ [] →
        name ∈ skills.flatMap (·.allowedTools.getD [])) := by
  simp only [Permitted, List.mem_flatMap, not_exists, not_and, ne_eq, List.flatMap_eq_nil_iff,
    not_forall, exists_prop]

theorem keepsName_iff : keepsName skills (.string name) ↔ Permitted skills name := by
  have hmem : ∀ names : List String, names.any (fun n => decide (Json.string n = .string name)) ↔
      name ∈ names := by
    intro names
    simp only [List.any_eq_true, decide_eq_true_eq, Json.string.injEq, exists_eq_right]
  rw [allows_iff, keepsName, Bool.and_eq_true, Bool.not_eq_true', ← Bool.not_eq_true, hmem,
    allForbidden_eq, allAllowed_eq]
  by_cases hallowed : skills.flatMap (·.allowedTools.getD []) = []
  · simp [hallowed]
  · simp only [hallowed, if_false, Option.all_some, hmem, ne_eq, not_false_eq_true, true_imp_iff]

/-- What is offered after the filter is permitted. -/
theorem offered_permitted (h : (applySkillToolConstraints skills payload).tools = some tools)
    (htool : tool ∈ tools) (hname : offeredName tool = .string name) : Permitted skills name := by
  rw [← keepsName_iff, ← hname]
  have hfree : (allAllowed skills).isNone && (allForbidden skills).isEmpty →
      keepsName skills (offeredName tool) := by
    rw [Bool.and_eq_true, Option.isNone_iff_eq_none, List.isEmpty_iff]
    rintro ⟨hallowed, hforbidden⟩
    simp [keepsName, hallowed, hforbidden]
  unfold applySkillToolConstraints at h
  split at h
  next hskills =>
    apply hfree
    rw [List.isEmpty_iff.1 hskills]
    rfl
  next =>
    split at h
    next hnone => exact absurd (hnone.symm.trans h) (by simp)
    next hnil =>
      obtain rfl : tools = [] := Option.some.inj (h.symm.trans hnil)
      exact absurd htool List.not_mem_nil
    next =>
      split at h
      next hunconstrained => exact hfree hunconstrained
      next =>
        obtain rfl := Option.some.inj h
        exact (List.mem_filter.1 htool).2

end

/-! ## What is executed -/

def LoopOutput.executed? : LoopOutput → Option ToolDispatch
  | dispatched d => if d.executed then some d else none
  | _ => none

/-- The calls that were executed. -/
def executedCalls (outputs : List LoopOutput) : List ToolDispatch :=
  outputs.filterMap LoopOutput.executed?

theorem mem_executedCalls {outputs : List LoopOutput} {d : ToolDispatch} :
    d ∈ executedCalls outputs ↔ .dispatched d ∈ outputs ∧ d.executed := by
  have hexecuted : ∀ output : LoopOutput,
      output.executed? = some d ↔ output = .dispatched d ∧ d.executed := by
    intro output
    cases output with
    | dispatched d' =>
      simp only [LoopOutput.executed?, Option.ite_none_right_eq_some, Option.some.injEq,
        LoopOutput.dispatched.injEq]
      constructor
      · rintro ⟨h, rfl⟩
        exact ⟨rfl, h⟩
      · rintro ⟨rfl, h⟩
        exact ⟨h, rfl⟩
    | recorded _ | sent _ => simp [LoopOutput.executed?]
  simp only [executedCalls, List.mem_filterMap, hexecuted]
  constructor
  · rintro ⟨output, hmem, rfl, h⟩
    exact ⟨hmem, h⟩
  · rintro ⟨hmem, h⟩
    exact ⟨_, hmem, rfl, h⟩

/-- A chat with skills: the tools offered, and the loop over what the model makes of them. -/
def runChat (cfg : McpToolLoop) (skills : List ResolvedSkill) (mcpTools : List Json)
    (payload : ToolOffer) (messages : List LoopMessage) (first : ToolOffer → LoopAnswer)
    (rounds : ToolOffer → Nat → LoopRound) : List LoopOutput × LoopEnding :=
  let offer := applySkillToolConstraints skills (injectMcpTools mcpTools payload)
  cfg.run (rounds offer) (first offer) messages

/-- The loop comes to the `i`th of the gateway's calls in the message it acts on in turn `k`, and
the router, where there is one, runs it on an executor. -/
structure McpToolLoop.RunsCall (cfg : McpToolLoop) (rounds : Nat → LoopRound) (first : LoopAnswer)
    (k i : Nat) (tc : FunctionCall) : Prop where
  reached : ∃ message, cfg.ActsAt rounds first k message ∧
    (cfg.ownCalls message.toolCalls)[i]? = some tc ∧
    cfg.Completes (rounds k) k 0 ((cfg.ownCalls message.toolCalls).take i)
  routed : cfg.useRouter → ((rounds k).routed i).runs ≠ []

theorem McpToolLoop.mem_executedCalls_run {cfg : McpToolLoop} {rounds : Nat → LoopRound}
    {first : LoopAnswer} {messages : List LoopMessage} {d : ToolDispatch} :
    d ∈ executedCalls (cfg.run rounds first messages).1 ↔
      ∃ k i tc, cfg.RunsCall rounds first k i tc ∧ d = cfg.dispatch (rounds k) i tc := by
  have hexecuted : ∀ k i tc, (cfg.dispatch (rounds k) i tc).executed ↔
      (cfg.useRouter → ((rounds k).routed i).runs ≠ []) := by
    intro k i tc
    cases hrouter : cfg.useRouter <;> simp [dispatch, hrouter]
  rw [mem_executedCalls, mem_run_dispatched]
  constructor
  · rintro ⟨⟨k, message, hacts, i, tc, htc, hbefore, rfl⟩, h⟩
    exact ⟨k, i, tc, ⟨⟨message, hacts, htc, hbefore⟩, (hexecuted k i tc).1 h⟩, rfl⟩
  · rintro ⟨k, i, tc, ⟨⟨message, hacts, htc, hbefore⟩, h⟩, rfl⟩
    exact ⟨⟨k, message, hacts, i, tc, htc, hbefore, rfl⟩, (hexecuted k i tc).2 h⟩

/-- Nothing in the loop enforces the constraints: only permitted tools are executed if and only if
the model calls no others. -/
theorem executed_permitted_iff (cfg : McpToolLoop) (skills : List ResolvedSkill)
    (mcpTools : List Json) (payload : ToolOffer) (messages : List LoopMessage)
    (first : ToolOffer → LoopAnswer) (rounds : ToolOffer → Nat → LoopRound) :
    (∀ d ∈ executedCalls (runChat cfg skills mcpTools payload messages first rounds).1,
      Permitted skills d.qualifiedName) ↔
    let offer := applySkillToolConstraints skills (injectMcpTools mcpTools payload)
    ∀ k i tc, cfg.RunsCall (rounds offer) (first offer) k i tc →
      Permitted skills (cfg.qualifiedName tc) := by
  simp only [runChat, McpToolLoop.mem_executedCalls_run]
  constructor
  · exact fun h k i tc hruns => h _ ⟨k, i, tc, hruns, rfl⟩
  · rintro h d ⟨k, i, tc, hruns, rfl⟩
    exact h k i tc hruns

/-- The model calls a tool that was taken out of the tools offered to it. -/
theorem forbidden_tool_executed :
    ∃ (cfg : McpToolLoop) (skills : List ResolvedSkill) (mcpTools : List Json)
      (payload : ToolOffer) (messages : List LoopMessage) (first : ToolOffer → LoopAnswer)
      (rounds : ToolOffer → Nat → LoopRound),
      ∃ d ∈ executedCalls (runChat cfg skills mcpTools payload messages first rounds).1,
        ¬ Permitted skills d.qualifiedName := by
  let cfg : McpToolLoop := ⟨fun _ => false, fun _ => none, false, true, none, 5⟩
  let skill : ResolvedSkill := ⟨none, none, some ["mcp.fs.delete"]⟩
  let tool : Json := .object [("type", .string "function"),
    ("function", .object [("name", .string "mcp.fs.delete")])]
  let delete : FunctionCall := ⟨some (.string "a"), .string "mcp.fs.delete", none⟩
  let gone : McpCallOutcome := .result ⟨"gone", false, none⟩
  let round : LoopRound := ⟨fun _ => ⟨[], .raised⟩, fun _ => (gone, 1), none⟩
  exact ⟨cfg, [skill], [tool], ⟨none, none⟩, [.other "user" "clean up"],
    fun _ => ⟨200, [⟨.null, [delete]⟩], none⟩, fun _ _ => round, by decide⟩

end LlmPort.Gateway
