import LlmPort.Backend.Llm.Monitoring

/-!
# Provisioning as a whole

`provision` writes the target before it renders the dashboard, and names are put into the text of
the template as they are. So the target and the dashboard are both right where the names are read
between quotation marks as what they are; where the dashboard cannot be rendered, the target has
been written already, and `rebuild_all` ends.
-/

namespace LlmPort.Backend.Llm

open Text Json Transition

namespace MonitoringProvisioner

variable {m : MonitoringProvisioner} {plan : Plan} {template : DashboardTemplate}

/-! ## What the template becomes -/

/-- What stands for a value in the rendered template: the placeholders in it are replaced too. -/
def effective (m : MonitoringProvisioner) (plan : Plan) (slot : Slot) : List Char :=
  m.replaceSlot plan .instanceName (m.replaceSlot plan .runtimeName
    (m.replaceSlot plan .title (m.replaceSlot plan .uid slot.token)))

theorem token_ne_nil (slot : Slot) : slot.token ≠ [] := by
  cases slot <;> decide

theorem replaceSlot_render (slot : Slot) (f : Slot → List Char) :
    m.replaceSlot plan slot (render f (template.document.layout 0)) =
      render (fun i => m.replaceSlot plan slot (f i)) (template.document.layout 0) :=
  replace_render_apart (token_ne_nil slot) (template.separated slot)

theorem renderDashboard_eq (h : m.template = some template) : m.renderDashboard plan =
    match loads (render (m.effective plan) (template.document.layout 0)) with
    | none => .error .valueError
    | some data => .ok data := by
  rw [renderDashboard, h]
  dsimp only
  rw [DashboardTemplate.text, replaceSlot_render, replaceSlot_render, replaceSlot_render,
    replaceSlot_render]
  rfl

/-- The names come out of the dashboard as they have been put in. -/
def RendersNames (m : MonitoringProvisioner) (plan : Plan) : Prop :=
  ∃ template, m.template = some template ∧
    ∀ slot ∈ template.document.slots, ReadsAs (m.effective plan slot) (m.slotValue plan slot)

theorem RendersNames.renderDashboard (h : m.RendersNames plan) :
    ∃ template, m.template = some template ∧
      m.renderDashboard plan = .ok (template.document.fill (m.slotValue plan)) := by
  obtain ⟨template, htemplate, hslots⟩ := h
  refine ⟨template, htemplate, ?_⟩
  rw [renderDashboard_eq htemplate,
    Document.loads_layout template.keysDistinct fun slot hslot => (hslots slot hslot).scans]

/-- No name holds a placeholder that is replaced behind it. -/
structure NoPlaceholders (plan : Plan) : Prop where
  titleRuntime : ¬ Slot.runtimeName.token <:+: plan.title.toList
  titleInstance : ¬ Slot.instanceName.token <:+: plan.title.toList
  runtimeInstance : ¬ Slot.instanceName.token <:+: plan.runtimeName.toList

theorem underscore_notMem_uid (id : String) : '_' ∉ m.dashboardUidFor id := by
  intro hmem
  rcases List.mem_append.1 hmem with hmem | hmem
  · revert hmem
    decide
  · have halnum := m.hexdigits id '_' hmem
    revert halnum
    decide

theorem replaceSlot_self (slot : Slot) :
    m.replaceSlot plan slot slot.token = m.slotValue plan slot := by
  have hself : replace slot.token (m.slotValue plan slot) (slot.token ++ []) =
      m.slotValue plan slot ++ replace slot.token (m.slotValue plan slot) [] :=
    replace_append_self (token_ne_nil slot)
  rwa [List.append_nil, replace_nil, List.append_nil] at hself

theorem effective_eq (h : NoPlaceholders plan) (slot : Slot) :
    m.effective plan slot = m.slotValue plan slot := by
  have htoken {i j : Slot} (hij : i ≠ j) : m.replaceSlot plan i j.token = j.token := by
    refine replace_eq_self ?_
    revert hij
    cases i <;> cases j <;> decide
  have huid (i : Slot) :
      m.replaceSlot plan i (m.slotValue plan .uid) = m.slotValue plan .uid := by
    refine replace_eq_self fun hin => underscore_notMem_uid (m := m) plan.runtimeId ?_
    refine hin.subset ?_
    cases i <;> decide
  cases slot with
  | uid => rw [effective, replaceSlot_self, huid, huid, huid]
  | title =>
    rw [effective, htoken (by decide), replaceSlot_self]
    have hruntime : m.replaceSlot plan .runtimeName (m.slotValue plan .title) =
        m.slotValue plan .title := replace_eq_self h.titleRuntime
    have hinstance : m.replaceSlot plan .instanceName (m.slotValue plan .title) =
        m.slotValue plan .title := replace_eq_self h.titleInstance
    rw [hruntime, hinstance]
  | runtimeName =>
    rw [effective, htoken (by decide), htoken (by decide), replaceSlot_self]
    exact replace_eq_self h.runtimeInstance
  | instanceName =>
    rw [effective, htoken (by decide), htoken (by decide), htoken (by decide), replaceSlot_self]

/-- Without placeholders in the names, no other text is read as the names. -/
theorem rendersNames_of_renderDashboard (h : NoPlaceholders plan)
    (htemplate : m.template = some template)
    (hdata : m.renderDashboard plan = .ok (template.document.fill (m.slotValue plan))) :
    m.RendersNames plan := by
  have heffective : m.effective plan = m.slotValue plan := funext (effective_eq h)
  rw [renderDashboard_eq htemplate, heffective] at hdata
  refine ⟨template, htemplate, fun slot hslot => ?_⟩
  cases hloads : loads (render (m.slotValue plan) (template.document.layout 0)) with
  | none =>
    rw [hloads] at hdata
    cases hdata
  | some data =>
    rw [hloads] at hdata
    rw [Except.ok.inj hdata] at hloads
    rw [heffective]
    exact readsAs_self_iff.2 (Document.flatMap_escape_of_loads hloads slot hslot)

/-- Names without placeholders come out as they have been put in if none has a quotation mark, a
backslash or a control character. -/
theorem rendersNames_iff (h : NoPlaceholders plan) : m.RendersNames plan ↔
    ∃ template, m.template = some template ∧ ∀ slot ∈ template.document.slots,
      (m.slotValue plan slot).flatMap escape = m.slotValue plan slot := by
  refine exists_congr fun template => and_congr_right fun _ => forall₂_congr fun slot _ => ?_
  rw [effective_eq h, readsAs_self_iff]

/-! ## One runtime -/

variable {disk after : Disk} {row : Option MonitoredRow}

/-- The target is in its file, and the dashboard holds the names as they are. -/
def Provisioned (m : MonitoringProvisioner) (disk : Disk) (plan : Plan) : Prop :=
  plan.entry ∈ disk.readTargets ∧ ∃ template, m.template = some template ∧
    disk.dashboards.read (m.dashboardPath plan.runtimeId) =
      some (template.document.fill (m.slotValue plan))

/-- What is put in for the row that is found. -/
def PlannedFor (m : MonitoringProvisioner) (row : Option MonitoredRow) (plan : Plan) : Prop :=
  ∃ r, row = some r ∧ m.provisionedPlan r = .ok (some plan)

/-- The target and the dashboard are written, or nothing is. -/
def AllOrNothing (m : MonitoringProvisioner) (disk : Disk) (row : Option MonitoredRow) : Prop :=
  (∀ url, (m.provision disk row).1 = .ok (some url) →
    ∃ plan, m.PlannedFor row plan ∧ m.Provisioned (m.provision disk row).2 plan) ∧
  ((∀ url, (m.provision disk row).1 ≠ .ok (some url)) → (m.provision disk row).2 = disk)

/-- Once the target is written, the dashboard is written with the names, or the target has been
there as it is. -/
def Carries (m : MonitoringProvisioner) (disk : Disk) (plan : Plan) : Prop :=
  ∀ after, m.upsertTarget disk plan.runtimeId plan.entry = .ok after →
    (disk.dashboardsWritable = true ∧ m.RendersNames plan) ∨
      (after = disk ∧
        (disk.dashboardsWritable = false ∨ ∃ e, m.renderDashboard plan = .error e))

theorem readTargets_objects {targets : List JsonObject}
    (h : disk.targets = some (.array (targets.map .object))) : disk.readTargets = targets := by
  rw [Disk.readTargets, h]
  simp only [List.filterMap_map]
  exact List.filterMap_some

theorem readTargets_writeTargets {targets : List JsonObject}
    (h : disk.writeTargets targets = .ok after) : after.readTargets = targets := by
  rw [Disk.writeTargets] at h
  split at h
  next =>
    cases h
    exact readTargets_objects rfl
  next => cases h

theorem writeTargets_dashboards {targets : List JsonObject}
    (h : disk.writeTargets targets = .ok after) : after.dashboards = disk.dashboards ∧
      after.dashboardsWritable = disk.dashboardsWritable := by
  rw [Disk.writeTargets] at h
  split at h
  next =>
    cases h
    exact ⟨rfl, rfl⟩
  next => cases h

theorem upsertTarget_ok {entry : JsonObject} {id : String}
    (h : m.upsertTarget disk id entry = .ok after) :
    entry ∈ after.readTargets ∧ after.dashboardsWritable = disk.dashboardsWritable := by
  rw [upsertTarget] at h
  split at h
  next =>
    refine ⟨?_, (writeTargets_dashboards h).2⟩
    rw [readTargets_writeTargets h, sortTargets, List.mem_insertionSort]
    exact List.mem_append_right _ List.mem_cons_self
  next => cases h

/-- What `provision` does once the target is written. -/
theorem provisionPlan_of_upsert (h : m.upsertTarget disk plan.runtimeId plan.entry = .ok after) :
    ((after.dashboardsWritable = false ∨ ∃ e, m.renderDashboard plan = .error e) ∧
      ∃ e, m.provisionPlan disk plan = (.error e, after)) ∨
    ∃ data, after.dashboardsWritable = true ∧ m.renderDashboard plan = .ok data ∧
      m.provisionPlan disk plan = (.ok (some (m.dashboardUrl plan.runtimeId)),
        { after with
          dashboards := after.dashboards.write (m.dashboardPath plan.runtimeId) data }) := by
  cases hrender : m.renderDashboard plan with
  | error e =>
    refine .inl ⟨.inr ⟨e, rfl⟩, e, ?_⟩
    rw [provisionPlan, h]
    dsimp only
    rw [hrender]
  | ok data =>
    rcases Bool.eq_false_or_eq_true after.dashboardsWritable with hwritable | hwritable
    · refine .inr ⟨data, hwritable, rfl, ?_⟩
      rw [provisionPlan, h]
      dsimp only
      rw [hrender]
      dsimp only
      rw [Disk.writeDashboard, hwritable]
      rfl
    · refine .inl ⟨.inl hwritable, .osError, ?_⟩
      rw [provisionPlan, h]
      dsimp only
      rw [hrender]
      dsimp only
      rw [Disk.writeDashboard, hwritable]
      rfl

theorem provisionPlan_of_upsert_error {e : MonitoringError}
    (h : m.upsertTarget disk plan.runtimeId plan.entry = .error e) :
    m.provisionPlan disk plan = (.error e, disk) := by
  rw [provisionPlan, h]

theorem provision_cases (m : MonitoringProvisioner) (disk : Disk) (row : Option MonitoredRow) :
    (∃ plan, m.PlannedFor row plan ∧ m.provision disk row = m.provisionPlan disk plan) ∨
      ((∀ plan, ¬ m.PlannedFor row plan) ∧ (∀ url, (m.provision disk row).1 ≠ .ok (some url)) ∧
        (m.provision disk row).2 = disk) := by
  cases row with
  | none => exact .inr ⟨fun plan ⟨r, hr, _⟩ => (nomatch hr), nofun, rfl⟩
  | some r =>
    have hplanned {plan : Plan} (h : m.PlannedFor (some r) plan) :
        m.provisionedPlan r = .ok (some plan) := by
      obtain ⟨r', hr, hplan⟩ := h
      rwa [Option.some.inj hr]
    cases hplan : m.provisionedPlan r with
    | error e =>
      refine .inr ⟨fun plan h => ?_, fun url => ?_, ?_⟩
      · rw [hplanned h] at hplan
        cases hplan
      · rw [provision, hplan]
        nofun
      · rw [provision, hplan]
    | ok plan =>
      cases plan with
      | none =>
        refine .inr ⟨fun plan h => ?_, fun url => ?_, ?_⟩
        · rw [hplanned h] at hplan
          cases hplan
        · rw [provision, hplan]
          nofun
        · rw [provision, hplan]
      | some plan =>
        refine .inl ⟨plan, ⟨r, rfl, hplan⟩, ?_⟩
        rw [provision, hplan]

theorem PlannedFor.unique {plan' : Plan} (h : m.PlannedFor row plan)
    (h' : m.PlannedFor row plan') : plan' = plan := by
  obtain ⟨r, rfl, hr⟩ := h
  obtain ⟨r', hr', hplan⟩ := h'
  cases hr'
  rw [hr] at hplan
  exact (Option.some.inj (Except.ok.inj hplan)).symm

/-- Names that come out as they have been put in are provisioned as a whole. -/
theorem allOrNothing_of_carries (h : ∀ plan, m.PlannedFor row plan → m.Carries disk plan) :
    m.AllOrNothing disk row := by
  rcases m.provision_cases disk row with ⟨plan, hplanned, hrun⟩ | ⟨-, hnone, hsame⟩
  · cases hupsert : m.upsertTarget disk plan.runtimeId plan.entry with
    | error e =>
      rw [AllOrNothing, hrun, provisionPlan_of_upsert_error hupsert]
      exact ⟨nofun, fun _ => rfl⟩
    | ok after =>
      obtain ⟨hentry, hflag⟩ := upsertTarget_ok hupsert
      have hcarries := h plan hplanned after hupsert
      rw [← hflag] at hcarries
      rcases provisionPlan_of_upsert hupsert with
        ⟨hfails, e, hfailed⟩ | ⟨data, hwritable, hrender, hdone⟩
      · rw [AllOrNothing, hrun, hfailed]
        refine ⟨nofun, fun _ => ?_⟩
        rcases hcarries with ⟨hwritable, hnames⟩ | ⟨hsame, -⟩
        · obtain ⟨template, -, hok⟩ := hnames.renderDashboard
          rcases hfails with hfalse | ⟨e', he'⟩
          · rw [hwritable] at hfalse
            cases hfalse
          · rw [hok] at he'
            cases he'
        · exact hsame
      · rw [AllOrNothing, hrun, hdone]
        refine ⟨fun _ _ => ⟨plan, hplanned, hentry, ?_⟩, fun hnever => (hnever _ rfl).elim⟩
        rcases hcarries with ⟨-, hnames⟩ | ⟨-, hfalse | ⟨e, he⟩⟩
        · obtain ⟨template, htemplate, hok⟩ := hnames.renderDashboard
          rw [hrender] at hok
          refine ⟨template, htemplate, ?_⟩
          rw [Directory.read_write, if_pos rfl, Except.ok.inj hok]
        · rw [hwritable] at hfalse
          cases hfalse
        · rw [hrender] at he
          cases he
  · exact ⟨fun url hurl => (hnone url hurl).elim, fun _ => hsame⟩

/-- Without placeholders in the names nothing else is. -/
theorem carries_of_allOrNothing (h : m.AllOrNothing disk row) (hplanned : m.PlannedFor row plan)
    (hnames : NoPlaceholders plan) : m.Carries disk plan := by
  intro after hupsert
  obtain ⟨hentry, hflag⟩ := upsertTarget_ok hupsert
  rcases m.provision_cases disk row with ⟨plan', hplanned', hrun⟩ | ⟨hno, -, -⟩
  · cases hplanned.unique hplanned'
    rw [AllOrNothing, hrun] at h
    rw [← hflag]
    rcases provisionPlan_of_upsert hupsert with
      ⟨hfails, e, hfailed⟩ | ⟨data, hwritable, hrender, hdone⟩
    · rw [hfailed] at h
      exact .inr ⟨h.2 nofun, hfails⟩
    · rw [hdone] at h
      obtain ⟨plan', hplan', -, template, htemplate, hread⟩ := h.1 _ rfl
      cases hplanned.unique hplan'
      rw [Directory.read_write, if_pos rfl] at hread
      refine .inl ⟨hwritable, rendersNames_of_renderDashboard hnames htemplate ?_⟩
      rw [hrender, Option.some.inj hread]
  · exact (hno plan hplanned).elim

/-! ## All runtimes -/

variable {rows : List MonitoredRow} {data : Json}

/-- What the loop has of a row: the plan and its dashboard, `none` where it is skipped. -/
def outcome (m : MonitoringProvisioner) (row : MonitoredRow) :
    Except MonitoringError (Option (Plan × Json)) :=
  match m.rebuiltPlan row with
  | .error e => .error e
  | .ok none => .ok none
  | .ok (some plan) => (m.renderDashboard plan).map fun data => some (plan, data)

/-- The loop gets past the row. -/
def succeeds (m : MonitoringProvisioner) (row : MonitoredRow) : Bool := (m.outcome row).isOk

/-- The plans of the rows that are rendered. -/
def plansOf (m : MonitoringProvisioner) (rows : List MonitoredRow) : List Plan :=
  rows.filterMap fun row =>
    match m.outcome row with
    | .ok (some found) => some found.1
    | _ => none

/-- The directory with the dashboards of the rows that are rendered. -/
def writtenBy (m : MonitoringProvisioner) (rows : List MonitoredRow) (dir : Directory) :
    Directory :=
  rows.foldl (fun dir row =>
    match m.outcome row with
    | .ok (some found) => dir.write (m.dashboardPath found.1.runtimeId) found.2
    | _ => dir) dir

theorem rebuildRows_cons (row : MonitoredRow) (rows : List MonitoredRow) (plans : List Plan)
    (disk : Disk) : m.rebuildRows (row :: rows) plans disk =
      match m.outcome row with
      | .error e => (.error e, disk)
      | .ok none => m.rebuildRows rows plans disk
      | .ok (some found) =>
        match disk.writeDashboard (m.dashboardPath found.1.runtimeId) found.2 with
        | .error e => (.error e, disk)
        | .ok disk => m.rebuildRows rows (plans ++ [found.1]) disk := by
  rw [rebuildRows, outcome]
  cases m.rebuiltPlan row with
  | error e => rfl
  | ok plan =>
    cases plan with
    | none => rfl
    | some plan =>
      dsimp only
      cases m.renderDashboard plan with
      | error e => rfl
      | ok data => rfl

section
variable {r : MonitoredRow} {found : Plan × Json} {dir : Directory}

theorem writtenBy_cons_none (h : m.outcome r = .ok none) :
    m.writtenBy (r :: rows) dir = m.writtenBy rows dir := by
  rw [writtenBy, List.foldl_cons, h]
  rfl

theorem writtenBy_cons_some (h : m.outcome r = .ok (some found)) :
    m.writtenBy (r :: rows) dir =
      m.writtenBy rows (dir.write (m.dashboardPath found.1.runtimeId) found.2) := by
  rw [writtenBy, List.foldl_cons, h]
  rfl

theorem writtenBy_cons_error {e : MonitoringError} (h : m.outcome r = .error e) :
    m.writtenBy (r :: rows) dir = m.writtenBy rows dir := by
  rw [writtenBy, List.foldl_cons, h]
  rfl

theorem plansOf_cons_none (h : m.outcome r = .ok none) :
    m.plansOf (r :: rows) = m.plansOf rows := by
  rw [plansOf, List.filterMap_cons, h]
  rfl

theorem plansOf_cons_some (h : m.outcome r = .ok (some found)) :
    m.plansOf (r :: rows) = found.1 :: m.plansOf rows := by
  rw [plansOf, List.filterMap_cons, h]
  rfl

end

/-- Where the dashboards can be written, the loop writes those up to the first row that fails. -/
theorem rebuildRows_of_writable (rows : List MonitoredRow) (plans : List Plan)
    (hwritable : disk.dashboardsWritable = true) :
    (m.rebuildRows rows plans disk).2 = { disk with
        dashboards := m.writtenBy (rows.takeWhile m.succeeds) disk.dashboards } ∧
      if rows.all m.succeeds then
        (m.rebuildRows rows plans disk).1 = .ok (plans ++ m.plansOf rows)
      else ∃ e, (m.rebuildRows rows plans disk).1 = .error e := by
  induction rows generalizing plans disk with
  | nil => exact ⟨rfl, by simp [rebuildRows, plansOf]⟩
  | cons row rows ih =>
    rw [rebuildRows_cons]
    cases houtcome : m.outcome row with
    | error e =>
      have hfails : m.succeeds row = false := by rw [succeeds, houtcome]; rfl
      rw [List.takeWhile_cons_of_neg (Bool.eq_false_iff.1 hfails), List.all_cons, hfails]
      exact ⟨rfl, e, rfl⟩
    | ok found =>
      have hsucceeds : m.succeeds row = true := by rw [succeeds, houtcome]; rfl
      rw [List.takeWhile_cons_of_pos hsucceeds, List.all_cons, hsucceeds, Bool.true_and]
      cases found with
      | none =>
        rw [writtenBy_cons_none houtcome, plansOf_cons_none houtcome]
        exact ih plans hwritable
      | some found =>
        have hwrite : disk.writeDashboard (m.dashboardPath found.1.runtimeId) found.2 =
            .ok { disk with dashboards :=
              disk.dashboards.write (m.dashboardPath found.1.runtimeId) found.2 } := by
          rw [Disk.writeDashboard, if_pos hwritable]
        rw [writtenBy_cons_some houtcome, plansOf_cons_some houtcome, List.append_cons]
        dsimp only
        rw [hwrite]
        exact ih (plans ++ [found.1]) hwritable

/-- Where they cannot be written, nothing is. -/
theorem rebuildRows_of_not_writable (rows : List MonitoredRow) (plans : List Plan)
    (hwritable : disk.dashboardsWritable = false) :
    (m.rebuildRows rows plans disk).2 = disk ∧
      ∀ row ∈ rows, ∀ found, m.outcome row = .ok (some found) →
        ∃ e, (m.rebuildRows rows plans disk).1 = .error e := by
  induction rows generalizing plans with
  | nil => exact ⟨rfl, nofun⟩
  | cons row rows ih =>
    rw [rebuildRows_cons]
    have hwrite (path : List Char) (data : Json) :
        disk.writeDashboard path data = .error .osError := by
      rw [Disk.writeDashboard, if_neg (Bool.eq_false_iff.1 hwritable)]
    cases houtcome : m.outcome row with
    | error e => exact ⟨rfl, fun _ _ _ _ => ⟨e, rfl⟩⟩
    | ok found =>
      cases found with
      | none =>
        obtain ⟨hsame, herror⟩ := ih plans
        refine ⟨hsame, fun r hr found hfound => ?_⟩
        rcases List.mem_cons.1 hr with rfl | hr
        · rw [houtcome] at hfound
          cases hfound
        · exact herror r hr found hfound
      | some found =>
        dsimp only
        rw [hwrite]
        exact ⟨rfl, fun _ _ _ _ => ⟨_, rfl⟩⟩

/-- What a runtime that is rendered has after `rebuild_all` it has as if none failed. -/
def KeepsOthers (m : MonitoringProvisioner) (disk : Disk) (rows : List MonitoredRow) : Prop :=
  ∀ row ∈ rows, ∀ plan data, m.outcome row = .ok (some (plan, data)) →
    (plan.entry ∈ (m.rebuildAll disk (rows.filter m.succeeds)).2.readTargets →
      plan.entry ∈ (m.rebuildAll disk rows).2.readTargets) ∧
    (m.rebuildAll disk rows).2.dashboards.read (m.dashboardPath plan.runtimeId) =
      (m.rebuildAll disk (rows.filter m.succeeds)).2.dashboards.read
        (m.dashboardPath plan.runtimeId)

/-- The entries of the rows that are rendered are in the targets file before, and so are the
dashboards of those behind the first row that fails. -/
def InPlace (m : MonitoringProvisioner) (disk : Disk) (rows : List MonitoredRow) : Prop :=
  ∀ row ∈ rows, ∀ plan data, m.outcome row = .ok (some (plan, data)) →
    (disk.targetsWritable = true → plan.entry ∈ disk.readTargets) ∧
    (m.writtenBy (rows.takeWhile m.succeeds) disk.dashboards).read
        (m.dashboardPath plan.runtimeId) =
      (m.writtenBy rows disk.dashboards).read (m.dashboardPath plan.runtimeId)

theorem rebuildAll_of_not_writable (hwritable : disk.dashboardsWritable = false)
    {found : Plan × Json} {r : MonitoredRow} (hr : r ∈ rows)
    (hfound : m.outcome r = .ok (some found)) : (m.rebuildAll disk rows).2 = disk := by
  obtain ⟨hsame, herror⟩ := m.rebuildRows_of_not_writable rows [] hwritable
  obtain ⟨e, he⟩ := herror r hr found hfound
  rw [rebuildAll]
  generalize m.rebuildRows rows [] disk = run at hsame he
  obtain ⟨result, after⟩ := run
  cases he
  exact hsame

theorem rebuildAll_of_fails (hwritable : disk.dashboardsWritable = true)
    (hfails : ¬ rows.all m.succeeds = true) : (m.rebuildAll disk rows).2 = { disk with
        dashboards := m.writtenBy (rows.takeWhile m.succeeds) disk.dashboards } := by
  obtain ⟨hafter, hresult⟩ := m.rebuildRows_of_writable rows [] hwritable
  rw [if_neg hfails] at hresult
  obtain ⟨e, he⟩ := hresult
  rw [rebuildAll, ← hafter]
  generalize m.rebuildRows rows [] disk = run at he
  obtain ⟨result, after⟩ := run
  cases he
  rfl

/-- Where no row fails, the targets and the dashboards are those of the rows. -/
theorem rebuildAll_of_succeeds (hwritable : disk.dashboardsWritable = true)
    (hall : rows.all m.succeeds = true) :
    (m.rebuildAll disk rows).2.readTargets =
      (if disk.targetsWritable then m.sortTargets ((m.plansOf rows).map (·.entry))
        else disk.readTargets) ∧
    (m.rebuildAll disk rows).2.dashboards =
      (if disk.targetsWritable then
        (m.writtenBy rows disk.dashboards).keep fun path => !isGenerated path ||
          path ∈ (m.plansOf rows).map fun plan => m.dashboardPath plan.runtimeId
        else m.writtenBy rows disk.dashboards) := by
  obtain ⟨hafter, hresult⟩ := m.rebuildRows_of_writable rows [] hwritable
  rw [if_pos hall, List.nil_append] at hresult
  rw [List.takeWhile_eq_self_iff.2 (List.all_eq_true.1 hall)] at hafter
  rw [rebuildAll]
  generalize m.rebuildRows rows [] disk = run at hafter hresult
  obtain ⟨result, after⟩ := run
  cases hresult
  cases hafter
  dsimp only
  rcases Bool.eq_false_or_eq_true disk.targetsWritable with htargets | htargets
  · rw [Disk.writeTargets, if_pos htargets]
    dsimp only
    rw [Disk.removeDashboards, hwritable, Bool.true_or, if_pos rfl, if_pos htargets,
      if_pos htargets]
    exact ⟨readTargets_objects rfl, rfl⟩
  · rw [Disk.writeTargets, if_neg (Bool.eq_false_iff.1 htargets),
      if_neg (Bool.eq_false_iff.1 htargets), if_neg (Bool.eq_false_iff.1 htargets)]
    exact ⟨rfl, rfl⟩

theorem writtenBy_filter (rows : List MonitoredRow) (dir : Directory) :
    m.writtenBy (rows.filter m.succeeds) dir = m.writtenBy rows dir := by
  induction rows generalizing dir with
  | nil => rfl
  | cons row rows ih =>
    cases houtcome : m.outcome row with
    | error e =>
      have hfails : ¬ m.succeeds row = true := by rw [succeeds, houtcome]; nofun
      rw [List.filter_cons_of_neg hfails, writtenBy_cons_error houtcome, ih]
    | ok found =>
      have hsucceeds : m.succeeds row = true := by rw [succeeds, houtcome]; rfl
      rw [List.filter_cons_of_pos hsucceeds]
      cases found with
      | none => rw [writtenBy_cons_none houtcome, writtenBy_cons_none houtcome, ih]
      | some found => rw [writtenBy_cons_some houtcome, writtenBy_cons_some houtcome, ih]

theorem mem_plansOf {row : MonitoredRow} (hrow : row ∈ rows)
    (h : m.outcome row = .ok (some (plan, data))) : plan ∈ m.plansOf rows := by
  refine List.mem_filterMap.2 ⟨row, hrow, ?_⟩
  rw [h]

/-- The others are kept if and only if no row fails, no dashboard can be written at all, or what
they should have is there already. -/
theorem keepsOthers_iff (m : MonitoringProvisioner) (disk : Disk) (rows : List MonitoredRow) :
    m.KeepsOthers disk rows ↔ rows.all m.succeeds = true ∨ disk.dashboardsWritable = false ∨
      m.InPlace disk rows := by
  have hothers : (rows.filter m.succeeds).all m.succeeds = true :=
    List.all_eq_true.2 fun row hrow => (List.mem_filter.1 hrow).2
  by_cases hall : rows.all m.succeeds = true
  · refine iff_of_true (fun row hrow plan data houtcome => ?_) (.inl hall)
    rw [List.filter_eq_self.2 (List.all_eq_true.1 hall)]
    exact ⟨id, rfl⟩
  · rcases Bool.eq_false_or_eq_true disk.dashboardsWritable with hwritable | hwritable
    · rw [or_iff_right hall, or_iff_right (by rw [hwritable]; nofun), KeepsOthers, InPlace,
        rebuildAll_of_fails hwritable hall]
      obtain ⟨htargets, hdashboards⟩ := rebuildAll_of_succeeds (m := m) hwritable hothers
      refine forall_congr' fun row => forall_congr' fun hrow => forall_congr' fun plan =>
        forall_congr' fun data => forall_congr' fun houtcome => ?_
      have hsucceeds : m.succeeds row = true := by rw [succeeds, houtcome]; rfl
      have hplan : plan ∈ m.plansOf (rows.filter m.succeeds) :=
        mem_plansOf (List.mem_filter.2 ⟨hrow, hsucceeds⟩) houtcome
      rw [htargets, hdashboards, writtenBy_filter]
      rcases Bool.eq_false_or_eq_true disk.targetsWritable with hflag | hflag
      · have hentry : plan.entry ∈ m.sortTargets
            ((m.plansOf (rows.filter m.succeeds)).map (·.entry)) :=
          (List.mem_insertionSort _).2 (List.mem_map_of_mem hplan)
        have hpath : m.dashboardPath plan.runtimeId ∈
            (m.plansOf (rows.filter m.succeeds)).map fun plan => m.dashboardPath plan.runtimeId :=
          List.mem_map_of_mem hplan
        rw [if_pos hflag, if_pos hflag, Directory.read_keep, decide_eq_true hpath, Bool.or_true,
          if_pos rfl]
        exact and_congr_left' (imp_congr (iff_of_true hentry hflag) Iff.rfl)
      · rw [if_neg (Bool.eq_false_iff.1 hflag), if_neg (Bool.eq_false_iff.1 hflag)]
        exact and_congr_left' (iff_of_true id fun htrue => nomatch hflag.symm.trans htrue)
    · refine iff_of_true (fun row hrow plan data houtcome => ?_) (.inr (.inl hwritable))
      have hsucceeds : m.succeeds row = true := by rw [succeeds, houtcome]; rfl
      rw [rebuildAll_of_not_writable hwritable hrow houtcome, rebuildAll_of_not_writable hwritable
        (List.mem_filter.2 ⟨hrow, hsucceeds⟩) houtcome]
      exact ⟨id, rfl⟩

/-- Provisioning is all or nothing where the names come out of the dashboard as they have been put
in, and of names without placeholders only there; and the runtimes that are rendered keep what they
have if and only if no other one fails, or what they should have is there already. -/
theorem provisioning_iff (m : MonitoringProvisioner) (disk : Disk) (row : Option MonitoredRow)
    (rows : List MonitoredRow) :
    ((∀ plan, m.PlannedFor row plan → m.Carries disk plan) → m.AllOrNothing disk row) ∧
    ((∀ plan, m.PlannedFor row plan → NoPlaceholders plan) →
      (m.AllOrNothing disk row ↔ ∀ plan, m.PlannedFor row plan → m.Carries disk plan)) ∧
    (m.KeepsOthers disk rows ↔ rows.all m.succeeds = true ∨ disk.dashboardsWritable = false ∨
      m.InPlace disk rows) :=
  ⟨allOrNothing_of_carries,
    fun hnames => ⟨fun h plan hplanned => carries_of_allOrNothing h hplanned (hnames plan hplanned),
      allOrNothing_of_carries⟩,
    m.keepsOthers_iff disk rows⟩

/-- A runtime's name between the quotation marks of a selector. -/
def quotedTemplate : DashboardTemplate where
  document := .object
    [("expr", .string [.text "up\x7bruntime_name=\"".toList, .value .runtimeName,
        .text "\"\x7d".toList]),
      ("title", .string [.value .title]), ("uid", .string [.value .uid])]
  keysDistinct := by decide
  separated slot := by cases slot <;> decide +kernel

def quotedProvisioner : MonitoringProvisioner where
  hostname _ := .ok (some "node")
  port _ := .ok (some 8000)
  hash8 _ := "0a1b2c3d".toList
  hexdigits := fun _ => List.all_eq_true.1 (by decide)
  repr _ := ""
  template := some quotedTemplate
  grafanaUrl := "/grafana"

/-- With a quotation mark in the runtime's name the target is written and the dashboard is not. -/
theorem not_allOrNothing_quotedName : ¬ quotedProvisioner.AllOrNothing
    ⟨none, ⟨[], List.nodup_nil⟩, true, true⟩
    (some ⟨⟨"1", "a\"b", some "http://node:8000"⟩, ⟨"m", none⟩, ⟨"p", .vllm, none⟩⟩) := by
  intro h
  have hresult : (quotedProvisioner.provision ⟨none, ⟨[], List.nodup_nil⟩, true, true⟩
      (some ⟨⟨"1", "a\"b", some "http://node:8000"⟩, ⟨"m", none⟩, ⟨"p", .vllm, none⟩⟩)).1.isOk =
      false := by decide +kernel
  have htargets : (quotedProvisioner.provision ⟨none, ⟨[], List.nodup_nil⟩, true, true⟩
      (some ⟨⟨"1", "a\"b", some "http://node:8000"⟩, ⟨"m", none⟩, ⟨"p", .vllm, none⟩⟩)).2.targets ≠
      none := by decide +kernel
  refine htargets (congrArg Disk.targets (h.2 fun url hurl => ?_))
  rw [hurl] at hresult
  cases hresult

end MonitoringProvisioner

end LlmPort.Backend.Llm
