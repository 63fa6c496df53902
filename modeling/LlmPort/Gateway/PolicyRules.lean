import LlmPort.Gateway.ToolPolicy

/-!
# What the policy engine makes of its rules

An engine is built with rules, which may be none, and more are added in front or behind. What it
decides of a call is compared with what its rules say: the first that matches decides, and allows
the call only in its realms. The engine looks at no realm, takes a rule that asks for approval by
its action for one that allows, and has rules of its own where it was given none.
-/

namespace LlmPort.Gateway

variable {V : Type}

/-! ## What the rules say -/

namespace ToolPolicyRule

variable [BEq V] (rule : ToolPolicyRule V) (arguments : ToolArguments V) (realm : String)

/-- Each argument with a list of values has one of them. -/
def constraintsHold : Bool :=
  rule.argumentConstraints.all fun constraint =>
    constraint.2.all fun allowed => allowed.contains (arguments.get constraint.1)

/-- The realms, where there are any, contain the call's. -/
def realmAllowed : Bool := rule.allowedRealms.isEmpty || rule.allowedRealms.contains realm

/-- The decision of a rule. -/
def verdict : PolicyAction :=
  if rule.action = .deny then .deny
  else if rule.requiresApproval ∨ rule.action = .approvalRequired then .approvalRequired
  else if rule.constraintsHold arguments ∧ rule.realmAllowed realm then .allow
  else .deny

/-- What the engine does not look at: that the action asks for approval, or that the realm is none
of those allowed. -/
structure Overlooked : Prop where
  noApproval : rule.requiresApproval = false
  overlooked : rule.action = .approvalRequired ∨
    rule.action = .allow ∧ rule.constraintsHold arguments = true ∧ rule.realmAllowed realm = false

end ToolPolicyRule

/-- A call that adds to the rules. -/
inductive PolicyOp (V : Type) where
  | addRule (rule : ToolPolicyRule V) (prepend : Bool)
  | addDeny (toolPattern : String) (reason : Option String)

namespace PolicyOp

/-- The rules put in front. -/
def inserted : PolicyOp V → List (ToolPolicyRule V)
  | addRule rule prepend => if prepend then [rule] else []
  | addDeny toolPattern reason => [PolicyEngine.denyRule toolPattern reason]

/-- The rules put behind. -/
def appended : PolicyOp V → List (ToolPolicyRule V)
  | addRule rule prepend => if prepend then [] else [rule]
  | addDeny _ _ => []

end PolicyOp

namespace PolicyEngine

def apply (engine : PolicyEngine V) : PolicyOp V → PolicyEngine V
  | .addRule rule prepend => engine.addRule rule prepend
  | .addDeny toolPattern reason => engine.addDeny toolPattern reason

def run (engine : PolicyEngine V) (ops : List (PolicyOp V)) : PolicyEngine V :=
  ops.foldl apply engine

end PolicyEngine

/-- A call of a tool, and how the engine came about that decides it. -/
structure PolicyCall (V : Type) where
  rules : List (ToolPolicyRule V)
  tenantDenyList : List String
  ops : List (PolicyOp V)
  toolId : String
  arguments : ToolArguments V
  realm : String

namespace PolicyCall

variable (c : PolicyCall V)

/-- The engine after the calls. -/
def engine : PolicyEngine V := (PolicyEngine.init c.rules c.tenantDenyList).run c.ops

/-- The rules as they were given and added. -/
def givenRules : List (ToolPolicyRule V) := ((⟨c.rules, []⟩ : PolicyEngine V).run c.ops).rules

/-- The first of the rules that matches. -/
def firstOf (rules : List (ToolPolicyRule V)) : Option (ToolPolicyRule V) :=
  rules.find? fun rule => matchesPattern c.toolId rule.toolPattern

def onDenyList : Bool := c.tenantDenyList.any (matchesPattern c.toolId)

variable [BEq V]

def decision : PolicyDecision := c.engine.evaluate c.toolId c.arguments c.realm

/-- The engine honours its rules in a call. -/
structure Honoured : Prop where
  denyList : c.onDenyList = true → c.decision.action = .deny
  firstMatch : c.onDenyList = false → ∀ rule, c.firstOf c.givenRules = some rule →
    c.decision.action = rule.verdict c.arguments c.realm
  /-- It is allowed only by a rule that does. -/
  allowedBy : c.decision.action = .allow → ∀ rule, c.firstOf c.givenRules = some rule →
    rule.action = .allow ∧ rule.requiresApproval = false ∧
      rule.constraintsHold c.arguments = true ∧ rule.realmAllowed c.realm = true
  noMatch : c.onDenyList = false → c.firstOf c.givenRules = none → c.decision.action = .allow
  /-- Another `add_deny` denies what it matches, and nothing else changes. -/
  addDeny : ∀ toolPattern reason,
    let decision := (c.engine.addDeny toolPattern reason).evaluate c.toolId c.arguments c.realm
    if matchesPattern c.toolId toolPattern then decision.action = .deny else decision = c.decision

/-- The default rule that matches asks for approval. -/
def asksByDefault : Bool :=
  (c.firstOf PolicyEngine.defaultRules).any (·.requiresApproval)

/-- The default rules decide as those that were put behind. -/
def DefaultsAgree : Prop :=
  if c.asksByDefault then
    ∃ rule, c.firstOf (c.ops.flatMap PolicyOp.appended) = some rule ∧ rule.action ≠ .deny ∧
      (rule.requiresApproval = true ∨ rule.action = .approvalRequired)
  else
    ∀ rule, c.firstOf (c.ops.flatMap PolicyOp.appended) = some rule → rule.action = .allow ∧
      rule.requiresApproval = false ∧ rule.constraintsHold c.arguments = true ∧
      rule.realmAllowed c.realm = true

/-- Where rules were given, or one put in front matches, the rule that decides is none that is
overlooked; else the default rules happen to agree. -/
def Heeded : Prop :=
  if c.rules.isEmpty ∧ (c.firstOf (c.ops.reverse.flatMap PolicyOp.inserted)).isNone then
    c.DefaultsAgree
  else ∀ rule, c.firstOf c.givenRules = some rule → ¬ rule.Overlooked c.arguments c.realm

end PolicyCall

/-! ## Patterns -/

theorem startsWith_append (start text : String) : startsWith (start ++ text) start = true := by
  rw [startsWith, String.toList_append, List.isPrefixOf_iff_prefix]
  exact List.prefix_append _ _

/-- A pattern matches itself. -/
theorem matchesPattern_self (toolId : String) : matchesPattern toolId toolId = true := by
  unfold matchesPattern
  split
  next => rfl
  next =>
    split
    next hend =>
      obtain ⟨start, hstart⟩ := List.isSuffixOf_iff_suffix.1 hend
      have hlength : toolId.length - 2 = start.length := by
        rw [← String.length_toList, ← hstart, List.length_append]
        rfl
      have htake : toolId.toList.take (toolId.length - 2) = start := by
        rw [hlength, ← hstart, List.take_left]
      have hsplit : toolId = String.ofList start ++ "." ++ "*" := by
        have hlist : (String.ofList start).toList = start := String.toList_ofList
        rw [← String.toList_inj, ← hstart, String.toList_append, String.toList_append, hlist,
          List.append_assoc]
        rfl
      have hstarts := startsWith_append (String.ofList start ++ ".") "*"
      rw [← hsplit] at hstarts
      dsimp only
      rw [htake, hstarts, Bool.or_true]
    next => exact decide_eq_true rfl

/-! ## Decisions -/

namespace PolicyEngine

variable {engine : PolicyEngine V}

theorem rules_apply (engine : PolicyEngine V) (op : PolicyOp V) :
    (engine.apply op).rules = op.inserted ++ engine.rules ++ op.appended := by
  cases op with
  | addRule rule prepend =>
    cases prepend with
    | false => rfl
    | true => exact (List.append_nil _).symm
  | addDeny toolPattern reason => exact (List.append_nil _).symm

theorem tenantDenyList_apply (engine : PolicyEngine V) (op : PolicyOp V) :
    (engine.apply op).tenantDenyList = engine.tenantDenyList := by
  cases op with
  | addRule rule prepend =>
    cases prepend with
    | false => rfl
    | true => rfl
  | addDeny toolPattern reason => rfl

/-- What was put in front stands there with the last first, what was put behind in order. -/
theorem rules_run (engine : PolicyEngine V) (ops : List (PolicyOp V)) :
    (engine.run ops).rules = ops.reverse.flatMap PolicyOp.inserted ++ engine.rules ++
      ops.flatMap PolicyOp.appended := by
  induction ops generalizing engine with
  | nil => exact (List.append_nil _).symm
  | cons op ops ih =>
    rw [run, List.foldl_cons, ← run, ih, rules_apply]
    simp only [List.reverse_cons, List.flatMap_append, List.flatMap_cons, List.flatMap_nil,
      List.append_nil, List.append_assoc]

theorem tenantDenyList_run (engine : PolicyEngine V) (ops : List (PolicyOp V)) :
    (engine.run ops).tenantDenyList = engine.tenantDenyList := by
  induction ops generalizing engine with
  | nil => rfl
  | cons op ops ih =>
    rw [run, List.foldl_cons, ← run, ih, tenantDenyList_apply]

variable [BEq V] {rule : ToolPolicyRule V} {toolId realm : String} {arguments : ToolArguments V}

theorem find?_constraint_eq_none_iff :
    (rule.argumentConstraints.find? fun constraint =>
      constraint.2.any fun allowed => !allowed.contains (arguments.get constraint.1)) = none ↔
      rule.constraintsHold arguments = true := by
  rw [List.find?_eq_none, ToolPolicyRule.constraintsHold, List.all_eq_true]
  refine forall₂_congr fun constraint _ => ?_
  cases constraint.2 with
  | none => simp
  | some allowed => simp

/-- What a rule decides. -/
theorem action_decideRule :
    (decideRule rule arguments).action =
      if rule.action = .deny then .deny
      else if rule.requiresApproval then .approvalRequired
      else if rule.constraintsHold arguments then .allow
      else .deny := by
  unfold decideRule
  split
  next => rfl
  next =>
    split
    next => rfl
    next =>
      split
      next key _ hfind =>
        have hfails : ¬ rule.constraintsHold arguments = true := by
          rw [← find?_constraint_eq_none_iff, hfind]
          exact Option.some_ne_none _
        rw [if_neg hfails]
      next hfind => rw [if_pos (find?_constraint_eq_none_iff.1 hfind)]

theorem not_overlooked_iff : ¬ rule.Overlooked arguments realm ↔
    (rule.requiresApproval = false → rule.action ≠ .approvalRequired ∧
      (rule.action = .allow → rule.constraintsHold arguments = true →
        rule.realmAllowed realm = true)) := by
  constructor
  · intro h happroval
    refine ⟨fun haction => h ⟨happroval, .inl haction⟩, fun haction hconstraints => ?_⟩
    rw [← Bool.not_eq_false]
    exact fun hrealm => h ⟨happroval, .inr ⟨haction, hconstraints, hrealm⟩⟩
  · rintro h ⟨happroval, haction | ⟨haction, hconstraints, hrealm⟩⟩
    · exact (h happroval).1 haction
    · exact Bool.false_ne_true (hrealm.symm.trans ((h happroval).2 haction hconstraints))

/-- A rule decides as it says exactly if nothing is overlooked. -/
theorem action_decideRule_iff :
    (decideRule rule arguments).action = rule.verdict arguments realm ↔
      ¬ rule.Overlooked arguments realm := by
  rw [action_decideRule, ToolPolicyRule.verdict, not_overlooked_iff]
  cases rule.action with
  | deny => simp
  | approvalRequired =>
    cases rule.requiresApproval with
    | true => simp
    | false => cases rule.constraintsHold arguments <;> simp
  | allow =>
    cases rule.requiresApproval with
    | true => simp
    | false =>
      cases rule.constraintsHold arguments with
      | true => simp
      | false => simp

theorem evaluate_congr {engine' : PolicyEngine V}
    (hlist : engine'.tenantDenyList = engine.tenantDenyList)
    (hfirst : (engine'.rules.find? fun rule => matchesPattern toolId rule.toolPattern) =
      engine.rules.find? fun rule => matchesPattern toolId rule.toolPattern) :
    engine'.evaluate toolId arguments realm = engine.evaluate toolId arguments realm := by
  rw [evaluate, evaluate, hlist, hfirst]

theorem evaluate_of_listed (h : engine.tenantDenyList.any (matchesPattern toolId) = true) :
    (engine.evaluate toolId arguments realm).action = .deny := by
  unfold evaluate
  split
  next => rfl
  next =>
    split
    next => rfl
    next hfind =>
      obtain ⟨pattern, hmem, hmatch⟩ := List.any_eq_true.1 h
      exact absurd hmatch (List.find?_eq_none.1 hfind pattern hmem)

theorem evaluate_of_not_listed (h : engine.tenantDenyList.any (matchesPattern toolId) = false) :
    engine.evaluate toolId arguments realm =
      ((engine.rules.find? fun rule => matchesPattern toolId rule.toolPattern).map fun rule =>
        decideRule rule arguments).getD ⟨.allow, none, none⟩ := by
  rw [List.any_eq_false] at h
  have hmem : toolId ∉ engine.tenantDenyList := fun hmem => h toolId hmem (matchesPattern_self _)
  have hfind : engine.tenantDenyList.find? (matchesPattern toolId) = none := List.find?_eq_none.2 h
  rw [evaluate, if_neg hmem, hfind]
  cases engine.rules.find? fun rule => matchesPattern toolId rule.toolPattern with
  | none => rfl
  | some rule => rfl

/-- `add_deny` denies what its pattern matches, and leaves the rest alone. -/
theorem evaluate_addDeny (engine : PolicyEngine V) (toolPattern : String) (reason : Option String) :
    if matchesPattern toolId toolPattern then
      ((engine.addDeny toolPattern reason).evaluate toolId arguments realm).action = .deny
    else (engine.addDeny toolPattern reason).evaluate toolId arguments realm =
      engine.evaluate toolId arguments realm := by
  split
  next hmatch =>
    cases hlisted :
        (engine.addDeny toolPattern reason).tenantDenyList.any (matchesPattern toolId) with
    | true => exact evaluate_of_listed hlisted
    | false =>
      have hfirst : ((engine.addDeny toolPattern reason).rules.find? fun rule =>
          matchesPattern toolId rule.toolPattern) = some (denyRule toolPattern reason) :=
        List.find?_cons_of_pos hmatch
      rw [evaluate_of_not_listed hlisted, hfirst]
      rfl
  next hmatch => exact evaluate_congr rfl (List.find?_cons_of_neg hmatch)

end PolicyEngine

/-! ## When the rules are honoured -/

namespace ToolPolicyRule

variable [BEq V] {rule : ToolPolicyRule V} {arguments : ToolArguments V} {realm : String}

theorem verdict_eq_allow_iff : rule.verdict arguments realm = .allow ↔
    rule.action = .allow ∧ rule.requiresApproval = false ∧
      rule.constraintsHold arguments = true ∧ rule.realmAllowed realm = true := by
  unfold verdict
  cases rule.action with
  | deny => simp
  | approvalRequired => simp
  | allow => cases rule.requiresApproval <;> simp

theorem verdict_eq_approvalRequired_iff : rule.verdict arguments realm = .approvalRequired ↔
    rule.action ≠ .deny ∧ (rule.requiresApproval = true ∨ rule.action = .approvalRequired) := by
  unfold verdict
  cases rule.action with
  | deny => simp
  | approvalRequired => simp
  | allow =>
    cases rule.requiresApproval with
    | true => simp
    | false =>
      refine iff_of_false ?_ (by simp)
      rw [if_neg (by simp), if_neg (by simp)]
      split <;> exact nofun

end ToolPolicyRule

namespace PolicyCall

variable {c : PolicyCall V}

theorem givenRules_eq (c : PolicyCall V) : c.givenRules =
    c.ops.reverse.flatMap PolicyOp.inserted ++ c.rules ++ c.ops.flatMap PolicyOp.appended :=
  PolicyEngine.rules_run _ _

theorem rules_engine (c : PolicyCall V) : c.engine.rules =
    c.ops.reverse.flatMap PolicyOp.inserted ++
      (if c.rules.isEmpty then PolicyEngine.defaultRules else c.rules) ++
      c.ops.flatMap PolicyOp.appended := PolicyEngine.rules_run _ _

theorem tenantDenyList_engine (c : PolicyCall V) :
    c.engine.tenantDenyList = c.tenantDenyList := PolicyEngine.tenantDenyList_run _ _

theorem firstOf_append (c : PolicyCall V) (rules others : List (ToolPolicyRule V)) :
    c.firstOf (rules ++ others) = (c.firstOf rules).or (c.firstOf others) := List.find?_append

/-- The last of the default rules matches whatever the others do not. -/
theorem firstOf_defaultRules (c : PolicyCall V) :
    ∃ rule, c.firstOf PolicyEngine.defaultRules = some rule ∧ rule ∈ PolicyEngine.defaultRules := by
  cases hfirst : c.firstOf PolicyEngine.defaultRules with
  | none =>
    have hlast : ¬ matchesPattern c.toolId "*" = true :=
      List.find?_eq_none.1 hfirst ⟨"*", .allow, .low, false, [], [], none⟩ (by
        simp [PolicyEngine.defaultRules])
    exact absurd rfl hlast
  | some rule => exact ⟨rule, rfl, List.mem_of_find?_eq_some hfirst⟩

variable [BEq V]

theorem action_decideRule_default (arguments : ToolArguments V) :
    ∀ rule ∈ PolicyEngine.defaultRules, (PolicyEngine.decideRule rule arguments).action =
      if rule.requiresApproval then .approvalRequired else .allow := by
  simp only [PolicyEngine.defaultRules, List.forall_mem_cons]
  exact ⟨rfl, rfl, rfl, rfl, rfl, rfl, List.forall_mem_nil _⟩

/-- What the rules as they were given and added say of the call. -/
def said (c : PolicyCall V) : PolicyAction :=
  ((c.firstOf c.givenRules).map (·.verdict c.arguments c.realm)).getD .allow

theorem decision_of_not_listed (h : c.onDenyList = false) : c.decision.action =
    ((c.firstOf c.engine.rules).map fun rule =>
      (PolicyEngine.decideRule rule c.arguments).action).getD .allow := by
  have hlisted : c.engine.tenantDenyList.any (matchesPattern c.toolId) = false := by
    rwa [tenantDenyList_engine]
  rw [decision, PolicyEngine.evaluate_of_not_listed hlisted, firstOf]
  cases c.engine.rules.find? fun rule => matchesPattern c.toolId rule.toolPattern with
  | none => rfl
  | some rule => rfl

theorem decision_of_listed (h : c.onDenyList = true) : c.decision.action = .deny := by
  apply PolicyEngine.evaluate_of_listed
  rwa [tenantDenyList_engine]

/-- Beside the deny list, the rules are honoured if the decision is what they say. -/
theorem honoured_iff_said (h : c.onDenyList = false) :
    c.Honoured ↔ c.decision.action = c.said := by
  constructor
  · intro H
    rw [said]
    cases hfirst : c.firstOf c.givenRules with
    | none => exact H.noMatch h hfirst
    | some rule => exact H.firstMatch h rule hfirst
  · intro hsaid
    have hverdict (rule : ToolPolicyRule V) (hfirst : c.firstOf c.givenRules = some rule) :
        c.decision.action = rule.verdict c.arguments c.realm := by
      rw [hsaid, said, hfirst]
      rfl
    refine ⟨fun hlisted => ?_, fun _ => hverdict, fun hallow rule hfirst => ?_, fun _ hnone => ?_,
      fun toolPattern reason => ?_⟩
    · exact absurd (h.symm.trans hlisted) Bool.false_ne_true
    · exact ToolPolicyRule.verdict_eq_allow_iff.1 ((hverdict rule hfirst).symm.trans hallow)
    · rw [hsaid, said, hnone]
      rfl
    · exact PolicyEngine.evaluate_addDeny c.engine toolPattern reason

theorem honoured_of_listed (h : c.onDenyList = true) : c.Honoured := by
  have hdeny := decision_of_listed h
  refine ⟨fun _ => hdeny, fun hnot => ?_, fun hallow => ?_, fun hnot => ?_,
    PolicyEngine.evaluate_addDeny c.engine⟩
  · exact absurd (hnot.symm.trans h) Bool.false_ne_true
  · cases hdeny.symm.trans hallow
  · exact absurd (hnot.symm.trans h) Bool.false_ne_true

/-- Where the rule that decides is one that was given or added, the decision is what it says unless
something is overlooked. -/
theorem said_iff_of_first (h : c.onDenyList = false)
    (hfirst : c.firstOf c.engine.rules = c.firstOf c.givenRules) :
    c.decision.action = c.said ↔
      ∀ rule, c.firstOf c.givenRules = some rule → ¬ rule.Overlooked c.arguments c.realm := by
  rw [decision_of_not_listed h, hfirst, said]
  cases c.firstOf c.givenRules with
  | none => exact iff_of_true rfl nofun
  | some rule =>
    apply PolicyEngine.action_decideRule_iff.trans
    refine ⟨fun hrule r hr => ?_, fun hrule => hrule rule rfl⟩
    rwa [← Option.some.inj hr]

/-- Where none was given, and none in front matches, the default rules decide. -/
theorem said_iff_of_defaults (h : c.onDenyList = false) (hrules : c.rules.isEmpty = true)
    (hfront : c.firstOf (c.ops.reverse.flatMap PolicyOp.inserted) = none) :
    c.decision.action = c.said ↔ c.DefaultsAgree := by
  obtain ⟨rule, hrule, hmem⟩ := firstOf_defaultRules c
  have hengine : c.firstOf c.engine.rules = some rule := by
    rw [rules_engine, if_pos hrules, firstOf_append, firstOf_append, hfront, hrule]
    rfl
  have hgiven : c.firstOf c.givenRules = c.firstOf (c.ops.flatMap PolicyOp.appended) := by
    rw [givenRules_eq, List.isEmpty_iff.1 hrules, List.append_nil, firstOf_append, hfront,
      Option.none_or]
  have hasks : c.asksByDefault = rule.requiresApproval := by
    rw [asksByDefault, hrule]
    rfl
  rw [decision_of_not_listed h, hengine, Option.map_some, Option.getD_some,
    action_decideRule_default _ rule hmem, said, hgiven, DefaultsAgree, hasks]
  cases rule.requiresApproval with
  | true =>
    rw [if_pos rfl, if_pos rfl]
    cases c.firstOf (c.ops.flatMap PolicyOp.appended) with
    | none => simp
    | some added =>
      rw [Option.map_some, Option.getD_some, eq_comm,
        ToolPolicyRule.verdict_eq_approvalRequired_iff]
      simp only [Option.some.injEq, exists_eq_left']
  | false =>
    rw [if_neg Bool.false_ne_true, if_neg Bool.false_ne_true]
    cases c.firstOf (c.ops.flatMap PolicyOp.appended) with
    | none => simp
    | some added =>
      rw [Option.map_some, Option.getD_some, eq_comm, ToolPolicyRule.verdict_eq_allow_iff]
      simp only [Option.some.injEq, forall_eq']

/-- The engine honours its rules exactly in the calls that are on the deny list, and in those whose
rule is heeded. -/
theorem honoured_iff (c : PolicyCall V) : c.Honoured ↔ c.onDenyList = true ∨ c.Heeded := by
  cases h : c.onDenyList with
  | true => exact iff_of_true (honoured_of_listed h) (.inl rfl)
  | false =>
    rw [honoured_iff_said h, or_iff_right Bool.false_ne_true, Heeded]
    split
    next hdefaults =>
      exact said_iff_of_defaults h hdefaults.1 (Option.isNone_iff_eq_none.1 hdefaults.2)
    next hgiven =>
      refine said_iff_of_first h ?_
      rw [rules_engine, givenRules_eq]
      split
      next hempty =>
        cases hfront : c.firstOf (c.ops.reverse.flatMap PolicyOp.inserted) with
        | none =>
          rw [hfront] at hgiven
          exact absurd ⟨hempty, rfl⟩ hgiven
        | some rule =>
          rw [firstOf_append, firstOf_append, firstOf_append, firstOf_append, hfront]
          rfl
      next => rfl

end PolicyCall

/-- A rule for calls in the gateway, and a call elsewhere. -/
def elsewhere : PolicyCall Unit where
  rules := [⟨"mcp.*", .allow, .low, false, ["server_managed"], [], none⟩]
  tenantDenyList := []
  ops := []
  toolId := "mcp.github.create_issue"
  arguments := []
  realm := "mcp_remote"

/-- A rule whose action is to ask. -/
def askedByAction : PolicyCall Unit where
  rules := [⟨"client.*", .approvalRequired, .high, false, [], [], none⟩]
  tenantDenyList := []
  ops := []
  toolId := "client.desktop.run_command"
  arguments := []
  realm := "client_local"

/-- An engine that was given no rules. -/
def withoutRules : PolicyCall Unit where
  rules := []
  tenantDenyList := []
  ops := []
  toolId := "client.fs.read"
  arguments := []
  realm := "client_local"

/-- The first two are allowed, and the third is not. -/
theorem not_honoured : ¬ elsewhere.Honoured ∧ ¬ askedByAction.Honoured ∧
    ¬ withoutRules.Honoured := by
  refine ⟨fun H => ?_, fun H => ?_, fun H => ?_⟩
  · have hdecision := H.allowedBy rfl _ rfl
    revert hdecision
    decide
  · have hdecision := H.allowedBy rfl _ rfl
    revert hdecision
    decide
  · have hdecision := H.noMatch rfl rfl
    revert hdecision
    decide

end LlmPort.Gateway
