import LlmPort.Backend.Containers

/-!
# Stack revisions

`db/dao/stacks_dao.py` and the endpoints of `web/api/admin/stacks/views.py` that append a revision.
A request reads what it needs, reads the number of the stack's last revision, and commits the new
one with the number after it; no index of the table keeps two requests from the same number.
-/

namespace LlmPort.Backend.Stacks

open Transition NodeControl Containers

/-- What a revision deploys. -/
structure StackContent where
  composeYaml : String
  envBlob : Option String
  imageDigests : Option String
  deriving DecidableEq

structure StackRevision where
  id : Uuid
  stackId : String
  rev : Nat
  content : StackContent
  createdBy : Uuid
  deriving DecidableEq

inductive StackEndpoint where
  | deployStack (stackId : String) (content : StackContent)
  | updateStack (stackId : String) (content : StackContent)
  | rollbackStack (stackId : String) (rev : Nat)
  deriving DecidableEq

namespace StackEndpoint

def stackId : StackEndpoint → String
  | deployStack id _ | updateStack id _ | rollbackStack id _ => id

def action : StackEndpoint → Action
  | deployStack .. => .stackDeploy
  | updateStack .. => .stackUpdate
  | rollbackStack .. => .stackRollback

/-- `from_rev` of the metadata. -/
def fromRev : StackEndpoint → Option Nat
  | rollbackStack _ rev => some rev
  | _ => none

end StackEndpoint

/-- The row of the audit log that is committed with a revision. -/
structure StackAudit where
  actorId : Uuid
  action : String
  targetId : String
  severity : String
  fromRev : Option Nat
  rev : Nat
  deriving DecidableEq

structure StackRequest where
  user : Uuid
  rootMode : Bool
  endpoint : StackEndpoint
  content : StackContent
  /-- The number it has taken. -/
  rev : Option Nat
  deriving DecidableEq

namespace StackRequest

variable (r : StackRequest)

def revision (id : Uuid) (rev : Nat) : StackRevision :=
  ⟨id, r.endpoint.stackId, rev, r.content, r.user⟩

def audit (rev : Nat) : StackAudit where
  actorId := r.user
  action := r.endpoint.action.value
  targetId := r.endpoint.stackId
  severity := if r.endpoint.fromRev.isSome ∨ r.rootMode then "high" else "normal"
  fromRev := r.endpoint.fromRev
  rev

end StackRequest

structure StackDb where
  /-- In the order in which they were committed. -/
  revisions : List StackRevision
  audit : List StackAudit
  requests : Nat → Option StackRequest

inductive StackEvent where
  /-- A request that its user has the permission for. -/
  | begin (k : Nat) (user : Uuid) (rootMode : Bool) (endpoint : StackEndpoint)
  | number (k : Nat)
  /-- The transaction ends. -/
  | finish (k : Nat) (id : Uuid) (commits : Bool)

namespace StackDb

variable (st : StackDb)

def start : StackDb := ⟨[], [], fun _ => none⟩

/-- The revisions of a stack. -/
def ofStack (stackId : String) : List StackRevision := st.revisions.filter (·.stackId = stackId)

/-- `StackRevisionDAO.next_rev` -/
def nextRev (stackId : String) : Nat := ((st.ofStack stackId).map (·.rev)).foldl max 0 + 1

/-- `StackRevisionDAO.get_revision`; where several rows have the number it raises, and the request
ends as it does where none has. -/
def getRevision (stackId : String) (rev : Nat) : Option StackRevision :=
  match (st.ofStack stackId).filter (·.rev = rev) with
  | [revision] => some revision
  | _ => none

/-- What the revision of a request deploys, if the request gets as far as to append it. -/
def content : StackEndpoint → Option StackContent
  | .deployStack _ content => some content
  | .updateStack stackId content => if st.ofStack stackId = [] then none else some content
  | .rollbackStack stackId rev => (st.getRevision stackId rev).map (·.content)

/-- The endpoint up to `stacks_dao.create`. -/
def prepare (user : Uuid) (rootMode : Bool) (endpoint : StackEndpoint) : Option StackRequest :=
  if check endpoint.action .tenantApp .free rootMode then
    (st.content endpoint).map (⟨user, rootMode, endpoint, ·, none⟩)
  else none

def step (st : StackDb) : StackEvent → StackDb
  | .begin k user rootMode endpoint =>
    if (st.requests k).isSome then st
    else { st with requests := Function.update st.requests k (st.prepare user rootMode endpoint) }
  | .number k =>
    match st.requests k with
    | none => st
    | some r =>
      let numbered : StackRequest := { r with rev := some (st.nextRev r.endpoint.stackId) }
      { st with
        requests := Function.update st.requests k (some (if r.rev.isSome then r else numbered)) }
  | .finish k id commits =>
    match st.requests k with
    | none => st
    | some r =>
      match r.rev with
      | none => st
      | some rev =>
        { revisions := if commits then st.revisions ++ [r.revision id rev] else st.revisions
          audit := if commits then st.audit ++ [r.audit rev] else st.audit
          requests := Function.update st.requests k none }

/-! ## Numbers -/

variable {st} {e : StackEvent} {es : List StackEvent} {stackId : String}

/-- No policy refuses what is done to a stack: it counts as its tenant's. -/
theorem check_stack (endpoint : StackEndpoint) (rootMode : Bool) :
    check endpoint.action .tenantApp .free rootMode = true := by
  cases endpoint <;> cases rootMode <;> rfl

/-- The revisions of each stack have the numbers from 1 on, in the order in which they came. -/
def Numbered (st : StackDb) : Prop :=
  ∀ stackId, (st.ofStack stackId).map (·.rev) = List.range' 1 (st.ofStack stackId).length

/-- A revision that is committed has the next number of its stack: none has come for the stack since
the request took it. -/
def Serial (st : StackDb) : StackEvent → Prop
  | .finish k _ true => ∀ r rev, st.requests k = some r → r.rev = some rev →
    rev = st.nextRev r.endpoint.stackId
  | _ => True

theorem foldl_max_range' (n : Nat) : (List.range' 1 n).foldl max 0 = n := by
  induction n with
  | zero => rfl
  | succ n ih =>
    rw [List.range'_1_concat, List.foldl_append, ih]
    simp
    omega

theorem Numbered.nextRev (h : Numbered st) :
    st.nextRev stackId = (st.ofStack stackId).length + 1 := by
  rw [StackDb.nextRev, h stackId, foldl_max_range']

/-- What a step makes of the tables. -/
theorem step_tables (st : StackDb) (e : StackEvent) :
    (step st e).revisions = st.revisions ∧ (step st e).audit = st.audit ∨
    ∃ k id r rev, e = .finish k id true ∧ st.requests k = some r ∧ r.rev = some rev ∧
      (step st e).revisions = st.revisions ++ [r.revision id rev] ∧
      (step st e).audit = st.audit ++ [r.audit rev] := by
  cases e with
  | begin k user rootMode endpoint =>
    simp only [step]
    split <;> exact .inl ⟨rfl, rfl⟩
  | number k =>
    simp only [step]
    split <;> exact .inl ⟨rfl, rfl⟩
  | finish k id commits =>
    cases hk : st.requests k with
    | none => exact .inl (by simp [step, hk])
    | some r =>
      cases hrev : r.rev with
      | none => exact .inl (by simp [step, hk, hrev])
      | some rev =>
        simp only [step, hk, hrev]
        cases commits with
        | false => exact .inl ⟨rfl, rfl⟩
        | true => exact .inr ⟨k, id, r, rev, rfl, hk, hrev, rfl, rfl⟩

theorem numbered_append {revision : StackRevision} {st' : StackDb} (h : Numbered st)
    (hst' : st'.revisions = st.revisions ++ [revision]) :
    Numbered st' ↔ revision.rev = st.nextRev revision.stackId := by
  have hof (stackId : String) : st'.ofStack stackId =
      st.ofStack stackId ++ if revision.stackId = stackId then [revision] else [] := by
    rw [ofStack, hst', List.filter_append, ofStack, List.filter_singleton]
    simp
  rw [h.nextRev]
  constructor
  · intro h'
    have hself := h' revision.stackId
    rw [hof, if_pos rfl, List.map_append, List.length_append, List.length_singleton,
      List.range'_1_concat, h revision.stackId] at hself
    have hlast := (List.append_inj' hself rfl).2
    simp only [List.map_cons, List.map_nil, List.cons.injEq, and_true] at hlast
    rw [hlast, Nat.add_comm]
  · intro hrev stackId
    rw [hof]
    split
    next heq =>
      subst heq
      rw [List.map_append, List.length_append, List.length_singleton, List.range'_1_concat,
        h revision.stackId, List.map_singleton, hrev, Nat.add_comm 1]
    next => rw [List.append_nil, h stackId]

theorem numbered_step (h : Numbered st) : Numbered (step st e) ↔ Serial st e := by
  rcases step_tables st e with
    ⟨heq, -⟩ | ⟨k, id, r, rev, rfl, hk, hrev, heq, -⟩
  · refine iff_of_true ?_ ?_
    · intro stackId
      rw [ofStack, heq]
      exact h stackId
    · cases e with
      | finish k id commits =>
        cases commits with
        | false => trivial
        | true =>
          intro r rev hk hrev
          simp [step, hk, hrev] at heq
      | _ => trivial
  · rw [numbered_append h heq]
    constructor
    · intro hnext r' rev' hk' hrev'
      rw [hk] at hk'
      cases hk'
      rw [hrev] at hrev'
      cases hrev'
      exact hnext
    · exact fun hser => hser r rev hk hrev

theorem mem_ofStack {x : StackRevision} :
    x ∈ st.ofStack stackId ↔ x ∈ st.revisions ∧ x.stackId = stackId := by
  simp [ofStack, List.mem_filter]

theorem getRevision_eq_some {rev : Nat} {x : StackRevision}
    (h : st.getRevision stackId rev = some x) :
    x ∈ st.revisions ∧ x.stackId = stackId ∧ x.rev = rev := by
  unfold getRevision at h
  split at h
  next y hy =>
    cases h
    have hmem : x ∈ (st.ofStack stackId).filter (·.rev = rev) := hy ▸ List.mem_singleton_self x
    obtain ⟨hmem, hrev⟩ := List.mem_filter.1 hmem
    exact ⟨(mem_ofStack.1 hmem).1, (mem_ofStack.1 hmem).2, of_decide_eq_true hrev⟩
  next => cases h

/-- A number that is taken once leads to its revision. -/
theorem Numbered.getRevision (h : Numbered st) {x : StackRevision} (hx : x ∈ st.revisions) :
    st.getRevision x.stackId x.rev = some x := by
  have hnodup : ((st.ofStack x.stackId).map (·.rev)).Nodup := by
    rw [h]
    exact List.nodup_range'
  have hmem : x ∈ (st.ofStack x.stackId).filter (·.rev = x.rev) :=
    List.mem_filter.2 ⟨mem_ofStack.2 ⟨hx, rfl⟩, decide_eq_true rfl⟩
  have hall : ∀ y ∈ (st.ofStack x.stackId).filter (·.rev = x.rev), y = x := by
    intro y hy
    obtain ⟨hy, hrev⟩ := List.mem_filter.1 hy
    exact List.inj_on_of_nodup_map hnodup hy (mem_ofStack.2 ⟨hx, rfl⟩) (of_decide_eq_true hrev)
  have hrep := List.eq_replicate_of_mem hall
  have hlength : ((st.ofStack x.stackId).filter (·.rev = x.rev)).length ≤ 1 := by
    rw [← List.nodup_replicate (a := x), ← hrep]
    exact hnodup.of_map.filter _
  have hone : ((st.ofStack x.stackId).filter (·.rev = x.rev)).length = 1 :=
    le_antisymm hlength (List.length_pos_of_mem hmem)
  unfold StackDb.getRevision
  rw [hrep, hone]
  rfl

/-- A request in hand was in hand before the step, was admitted by it, or took its number in it. -/
theorem step_requests {k : Nat} {r : StackRequest} (h : (step st e).requests k = some r) :
    st.requests k = some r ∨
    (∃ user rootMode endpoint, st.prepare user rootMode endpoint = some r) ∨
    ∃ r', st.requests k = some r' ∧
      r = { r' with rev := some (st.nextRev r'.endpoint.stackId) } := by
  cases e with
  | begin k' user rootMode endpoint =>
    simp only [step] at h
    split at h
    next => exact .inl h
    next =>
      change Function.update st.requests k' (st.prepare user rootMode endpoint) k = some r at h
      rcases eq_or_ne k k' with rfl | hne
      · rw [Function.update_self] at h
        exact .inr (.inl ⟨user, rootMode, endpoint, h⟩)
      · rw [Function.update_of_ne hne] at h
        exact .inl h
  | number k' =>
    simp only [step] at h
    split at h
    next => exact .inl h
    next r' hk' =>
      rcases eq_or_ne k k' with rfl | hne
      · simp only [Function.update_self, Option.some.injEq] at h
        split at h
        next => exact .inl (hk'.trans (congrArg some h))
        next => exact .inr (.inr ⟨r', hk', h.symm⟩)
      · simp only [Function.update_of_ne hne] at h
        exact .inl h
  | finish k' id commits =>
    simp only [step] at h
    split at h
    next => exact .inl h
    next r' hk' =>
      split at h
      next => exact .inl h
      next =>
        rcases eq_or_ne k k' with rfl | hne
        · simp only [Function.update_self] at h
          cases h
        · simp only [Function.update_of_ne hne] at h
          exact .inl h

/-- Revisions are only appended. -/
theorem revisions_prefix_step : st.revisions <+: (step st e).revisions := by
  rcases step_tables st e with ⟨heq, -⟩ | ⟨k, id, r, rev, -, -, -, heq, -⟩
  · rw [heq]
  · rw [heq]
    exact List.prefix_append _ _

/-- The revision has the number and the content. -/
def Holds (st : StackDb) (stackId : String) (rev : Nat) (content : StackContent) : Prop :=
  ∃ x ∈ st.revisions, x.stackId = stackId ∧ x.rev = rev ∧ x.content = content

theorem Holds.step {rev : Nat} {content : StackContent} (h : Holds st stackId rev content) :
    Holds (step st e) stackId rev content :=
  let ⟨x, hx, h⟩ := h
  ⟨x, revisions_prefix_step.subset hx, h⟩

/-- Whoever rolls back is about to append what he has found, and has appended it. -/
structure Tracked (st : StackDb) : Prop where
  requests : ∀ k r rev, st.requests k = some r → r.endpoint.fromRev = some rev →
    Holds st r.endpoint.stackId rev r.content
  audit : ∀ a ∈ st.audit, ∀ rev, a.fromRev = some rev →
    ∃ content, Holds st a.targetId rev content ∧ Holds st a.targetId a.rev content

theorem prepare_holds {user : Uuid} {rootMode : Bool} {endpoint : StackEndpoint} {r : StackRequest}
    {rev : Nat} (h : st.prepare user rootMode endpoint = some r)
    (hrev : r.endpoint.fromRev = some rev) : Holds st r.endpoint.stackId rev r.content := by
  rw [prepare, if_pos (check_stack endpoint rootMode)] at h
  obtain ⟨content, hcontent, rfl⟩ := Option.map_eq_some_iff.1 h
  cases endpoint with
  | rollbackStack stackId rev' =>
    cases hrev
    obtain ⟨x, hx, rfl⟩ := Option.map_eq_some_iff.1 hcontent
    obtain ⟨hmem, hstack, hrev⟩ := getRevision_eq_some hx
    exact ⟨x, hmem, hstack, hrev, rfl⟩
  | _ => cases hrev

theorem tracked_step (h : Tracked st) : Tracked (step st e) := by
  refine ⟨fun k r rev hk hrev => ?_, ?_⟩
  · rcases step_requests hk with hk | ⟨user, rootMode, endpoint, hprepare⟩ | ⟨r', hk', rfl⟩
    · exact (h.requests k r rev hk hrev).step
    · exact (prepare_holds hprepare hrev).step
    · exact (h.requests k r' rev hk' hrev).step
  · have hold : ∀ a ∈ st.audit, ∀ rev, a.fromRev = some rev → ∃ content,
        Holds (step st e) a.targetId rev content ∧ Holds (step st e) a.targetId a.rev content := by
      intro a ha rev hrev
      obtain ⟨content, hfrom, hto⟩ := h.audit a ha rev hrev
      exact ⟨content, hfrom.step, hto.step⟩
    rcases step_tables st e with
      ⟨-, heq⟩ | ⟨k, id, r, rev, rfl, hk, hrev, hrevisions, heq⟩
    · rw [heq]
      exact hold
    · rw [heq]
      intro a ha
      rcases List.mem_append.1 ha with ha | ha
      · exact hold a ha
      · obtain rfl := List.mem_singleton.1 ha
        intro rev' hrev'
        have hnew : r.revision id rev ∈ (step st (.finish k id true)).revisions := by
          rw [hrevisions]
          exact List.mem_append_right _ (List.mem_singleton_self _)
        have hfrom := (h.requests k r rev' hk hrev').step (e := .finish k id true)
        exact ⟨r.content, hfrom, r.revision id rev, hnew, rfl, rfl, rfl⟩

/-- A rollback that the audit log tells of has given its stack the content of the revision that it
went back to: each of the two numbers leads to one revision, and they deploy the same. -/
def RolledBack (st : StackDb) (a : StackAudit) (rev : Nat) : Prop :=
  ∃ x y, st.getRevision a.targetId rev = some x ∧ st.getRevision a.targetId a.rev = some y ∧
    x.content = y.content

def firstContent : StackContent := ⟨"services: \x7b\x7d", none, none⟩

def secondContent : StackContent := ⟨"services: \x7bweb: \x7b\x7d\x7d", none, none⟩

/-- Two deployments and a rollback to the first, one after the other. -/
def inTurn : List StackEvent :=
  [.begin 0 1 false (.deployStack "shop" firstContent), .number 0, .finish 0 10 true,
    .begin 1 1 false (.updateStack "shop" secondContent), .number 1, .finish 1 11 true,
    .begin 2 1 false (.rollbackStack "shop" 1), .number 2, .finish 2 12 true]

/-- The number has been taken twice. -/
def Shared (st : StackDb) (stackId : String) (rev : Nat) : Prop :=
  2 ≤ ((st.ofStack stackId).filter (·.rev = rev)).length

/-- No request gets at a revision whose number is shared, and so none rolls back to it. -/
theorem Shared.getRevision {rev : Nat} (h : Shared st stackId rev) :
    st.getRevision stackId rev = none := by
  unfold Shared at h
  unfold StackDb.getRevision
  split
  next x hx =>
    rw [hx, List.length_singleton] at h
    omega
  next => rfl

theorem ofStack_sublist_step : (st.ofStack stackId).Sublist ((step st e).ofStack stackId) :=
  revisions_prefix_step.sublist.filter _

theorem Shared.step {rev : Nat} (h : Shared st stackId rev) : Shared (step st e) stackId rev :=
  h.trans (ofStack_sublist_step.filter _).length_le

/-- The numbers that requests have taken are those of their stacks' revisions, or the next. -/
def Taken (st : StackDb) : Prop :=
  ∀ k r rev, st.requests k = some r → r.rev = some rev →
    1 ≤ rev ∧ rev ≤ (st.ofStack r.endpoint.stackId).length + 1

theorem taken_step (hnum : Numbered st) (h : Taken st) : Taken (step st e) := by
  intro k r rev hk hrev
  have hgrow : (st.ofStack r.endpoint.stackId).length ≤
      ((step st e).ofStack r.endpoint.stackId).length := ofStack_sublist_step.length_le
  rcases step_requests hk with hk | ⟨user, rootMode, endpoint, hprepare⟩ | ⟨r', hk', rfl⟩
  · have hold := h k r rev hk hrev
    omega
  · rw [prepare, if_pos (check_stack endpoint rootMode)] at hprepare
    obtain ⟨content, -, rfl⟩ := Option.map_eq_some_iff.1 hprepare
    cases hrev
  · cases hrev
    rw [hnum.nextRev]
    exact ⟨Nat.le_add_left .., Nat.succ_le_succ hgrow⟩

/-- A commit that does not have the next number has one that is taken. -/
theorem exists_shared (hnum : Numbered st) (htaken : Taken st) (hno : ¬ Serial st e) :
    ∃ stackId rev, Shared (step st e) stackId rev := by
  rcases step_tables st e with ⟨heq, -⟩ | ⟨k, id, r, rev, rfl, hk, hrev, heq, -⟩
  · refine absurd ((numbered_step hnum).1 fun stackId => ?_) hno
    rw [ofStack, heq]
    exact hnum stackId
  · have hne : rev ≠ st.nextRev r.endpoint.stackId := by
      intro hnext
      refine hno fun r' rev' hk' hrev' => ?_
      rw [hk] at hk'
      cases hk'
      rw [hrev] at hrev'
      cases hrev'
      exact hnext
    -- the number was the next when the request took it, so another has committed it since
    obtain ⟨x, hx, hxrev⟩ : ∃ x ∈ st.ofStack r.endpoint.stackId, x.rev = rev := by
      have hbounds := htaken k r rev hk hrev
      rw [hnum.nextRev] at hne
      have hmem : rev ∈ (st.ofStack r.endpoint.stackId).map (·.rev) := by
        rw [hnum, List.mem_range'_1]
        omega
      exact List.mem_map.1 hmem
    refine ⟨r.endpoint.stackId, rev, ?_⟩
    have hof : (step st (.finish k id true)).ofStack r.endpoint.stackId =
        st.ofStack r.endpoint.stackId ++ [r.revision id rev] := by
      rw [ofStack, heq, List.filter_append, ofStack]
      simp [StackRequest.revision]
    have hpos : 0 < ((st.ofStack r.endpoint.stackId).filter (·.rev = rev)).length :=
      List.length_pos_of_mem (List.mem_filter.2 ⟨hx, decide_eq_true hxrev⟩)
    have hself : [r.revision id rev].filter (·.rev = rev) = [r.revision id rev] := by
      simp [StackRequest.revision]
    rw [Shared, hof, List.filter_append, List.length_append, hself]
    exact Nat.succ_le_succ hpos

/-- Two requests take their numbers before either of them commits. -/
def overlapping : List StackEvent :=
  [.begin 0 1 false (.deployStack "shop" firstContent),
    .begin 1 2 false (.deployStack "shop" secondContent), .number 0, .number 1, .finish 0 10 true]

end StackDb

end LlmPort.Backend.Stacks
