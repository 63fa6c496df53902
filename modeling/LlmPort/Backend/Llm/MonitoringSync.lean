import LlmPort.Backend.Llm.ProvisionAtomicity

/-!
# Incremental monitoring and the full rebuild

Runtimes change, and `provision` and `deprovision` follow up each change. What they leave is what
`rebuild_all` makes of the rows, unless a runtime that was provisioned is no longer monitorable:
`provision` returns early then and leaves the target and the dashboard.
-/

namespace LlmPort.Backend.Llm

open Text Json Transition

inductive MonitoringEvent where
  | create (row : MonitoredRow)
  | setEndpoint (id : String) (url : Option String)
  | rename (id name : String)
  | delete (id : String)
  | provision (id : String)
  | deprovision (id : String)
  /-- `delete_runtime`: `deprovision`, then the row -/
  | deleteRuntime (id : String)

structure MonitoringState where
  rows : List MonitoredRow
  disk : Disk
  /-- The runtimes whose last change has not been followed up. -/
  pending : List String

namespace MonitoringState

variable (s : MonitoringState)

def rowOf (id : String) : Option MonitoredRow := s.rows.find? (·.runtime.id = id)

/-- A change of a row, if there is one. -/
def change (id : String) (f : LLMRuntime → LLMRuntime) : MonitoringState :=
  match s.rowOf id with
  | none => s
  | some _ => { s with
      rows := s.rows.map fun row =>
        if row.runtime.id = id then { row with runtime := f row.runtime } else row
      pending := id :: s.pending }

/-- The runtime has a row, or had one that is not followed up yet. -/
def Known (id : String) : Prop := (∃ row ∈ s.rows, row.runtime.id = id) ∨ id ∈ s.pending

end MonitoringState

namespace MonitoringProvisioner

variable (m : MonitoringProvisioner)

def step (s : MonitoringState) : MonitoringEvent → MonitoringState
  | .create row =>
    match s.rowOf row.runtime.id with
    | some _ => s
    | none => { s with rows := s.rows ++ [row], pending := row.runtime.id :: s.pending }
  | .setEndpoint id url => s.change id fun runtime => { runtime with endpointUrl := url }
  | .rename id name => s.change id fun runtime => { runtime with name := name }
  | .delete id =>
    match s.rowOf id with
    | none => s
    | some _ => { s with
        rows := s.rows.filter (·.runtime.id ≠ id)
        pending := id :: s.pending }
  | .provision id => { s with
      disk := (m.provision s.disk (s.rowOf id)).2
      pending := if (s.rowOf id).isSome then s.pending.filter (· ≠ id) else s.pending }
  | .deprovision id => { s with
      disk := (m.deprovision s.disk id).2
      pending := if (s.rowOf id).isSome then s.pending else s.pending.filter (· ≠ id) }
  | .deleteRuntime id =>
    match s.rowOf id with
    | none => s
    | some _ => {
      rows := s.rows.filter (·.runtime.id ≠ id)
      disk := (m.deprovision s.disk id).2
      pending := s.pending.filter (· ≠ id) }

/-- The runtime has neither a target nor a dashboard. -/
def Absent (disk : Disk) (id : String) : Prop :=
  (∀ t ∈ disk.readTargets, isOf id t = false) ∧
    disk.dashboards.read (m.dashboardPath id) = none

/-- A runtime is only created with a dashboard file of its own, is only provisioned where nothing
raises and, where it is not monitorable, has not been provisioned before, and is only deprovisioned
where its dashboard is no present runtime's. -/
def Meets (s : MonitoringState) : MonitoringEvent → Prop
  | .create row => ∀ id, s.Known id →
      m.dashboardPath id = m.dashboardPath row.runtime.id → id = row.runtime.id
  | .provision id => ∀ row, s.rowOf id = some row →
      (∃ found, m.outcome row = .ok found) ∧ (m.outcome row = .ok none → m.Absent s.disk id)
  | .deprovision id => ∀ row ∈ s.rows, m.dashboardPath row.runtime.id ≠ m.dashboardPath id
  | _ => True

/-- Files before the first runtime. -/
structure Fresh (disk : Disk) : Prop where
  targets : disk.readTargets = []
  dashboards : ∀ path, isGenerated path = true → disk.dashboards.read path = none
  targetsWritable : disk.targetsWritable = true
  dashboardsWritable : disk.dashboardsWritable = true

/-- The states that are reached by events that meet the condition. -/
inductive Runs : MonitoringState → Prop
  | start (disk : Disk) : Fresh disk → Runs ⟨[], disk, []⟩
  | step (s : MonitoringState) (e : MonitoringEvent) : Runs s → m.Meets s e → Runs (m.step s e)

/-- The files are those that `rebuild_all` makes of the rows, and it makes the same ones again. -/
structure Agrees (s : MonitoringState) : Prop where
  targets : ∀ t, t ∈ s.disk.readTargets ↔ t ∈ (m.rebuildAll s.disk s.rows).2.readTargets
  dashboards : ∀ path, s.disk.dashboards.read path =
    (m.rebuildAll s.disk s.rows).2.dashboards.read path
  targetsAgain : (m.rebuildAll (m.rebuildAll s.disk s.rows).2 s.rows).2.targets =
    (m.rebuildAll s.disk s.rows).2.targets
  dashboardsAgain : ∀ path,
    (m.rebuildAll (m.rebuildAll s.disk s.rows).2 s.rows).2.dashboards.read path =
      (m.rebuildAll s.disk s.rows).2.dashboards.read path

/-! ## The invariant -/

/-- A row that has been followed up has the target and the dashboard it should have. -/
structure RowAgrees (disk : Disk) (row : MonitoredRow) (found : Option (Plan × Json)) : Prop where
  outcome : m.outcome row = .ok found
  only : ∀ t ∈ disk.readTargets, isOf row.runtime.id t = true →
    ∃ plan data, found = some (plan, data) ∧ t = plan.entry
  target : ∀ plan data, found = some (plan, data) → plan.entry ∈ disk.readTargets
  dashboard : disk.dashboards.read (m.dashboardPath row.runtime.id) = found.map (·.2)

structure Inv (s : MonitoringState) : Prop where
  targetsWritable : s.disk.targetsWritable = true
  dashboardsWritable : s.disk.dashboardsWritable = true
  nodup : (s.rows.map (·.runtime.id)).Nodup
  labels : s.disk.readTargets.all hasLabels = true
  /-- No target is left of a runtime that is not known. -/
  targetsKnown : ∀ t ∈ s.disk.readTargets, ∃ id, isOf id t = true ∧ s.Known id
  dashboardsKnown : ∀ path, isGenerated path = true → s.disk.dashboards.read path ≠ none →
    ∃ id, path = m.dashboardPath id ∧ s.Known id
  paths : ∀ id id', s.Known id → s.Known id' → m.dashboardPath id = m.dashboardPath id' → id = id'
  settled : ∀ row ∈ s.rows, row.runtime.id ∉ s.pending → ∃ found, m.RowAgrees s.disk row found

variable {m} {s : MonitoringState} {disk : Disk} {row : MonitoredRow} {plan : Plan} {data : Json}
  {id : String}

theorem isOf_entry (plan : Plan) : isOf plan.runtimeId plan.entry = true := by
  rw [isOf]
  simp [Plan.entry, List.lookup_cons]

theorem hasLabels_entry (plan : Plan) : hasLabels plan.entry = true := rfl

theorem isOf_unique {t : JsonObject} {id' : String} (h : isOf id t = true)
    (h' : isOf id' t = true) : id = id' := by
  rw [isOf] at h h'
  split at h
  next labels hlookup =>
    rw [hlookup] at h'
    have hlabel := of_decide_eq_true h
    rw [of_decide_eq_true h'] at hlabel
    exact (Json.string.inj (Option.some.inj hlabel)).symm
  next => cases h

theorem outcome_ok {found : Option (Plan × Json)} (h : m.outcome row = .ok found) :
    m.rebuiltPlan row = .ok (found.map (·.1)) ∧
      ∀ plan data, found = some (plan, data) → m.renderDashboard plan = .ok data := by
  rw [MonitoringProvisioner.outcome] at h
  cases hplan : m.rebuiltPlan row with
  | error e =>
    rw [hplan] at h
    cases h
  | ok plan =>
    rw [hplan] at h
    cases plan with
    | none =>
      cases h
      exact ⟨rfl, fun _ _ hnone => absurd hnone.symm (Option.some_ne_none _)⟩
    | some plan =>
      dsimp only at h
      cases hrender : m.renderDashboard plan with
      | error e =>
        rw [hrender] at h
        cases h
      | ok data =>
        rw [hrender] at h
        cases h
        refine ⟨rfl, fun plan' data' heq => ?_⟩
        cases heq
        exact hrender

/-- Where the rebuild does not raise, `provision` puts in the same. -/
theorem provisionedPlan_eq {found : Option Plan} (h : m.rebuiltPlan row = .ok found) :
    m.provisionedPlan row = .ok found ∧
      ∀ plan, found = some plan → plan.runtimeId = row.runtime.id := by
  have hid {target : String × Option Nat} {plan : Plan} (h : m.planOf row target = .ok plan) :
      plan.runtimeId = row.runtime.id := by
    rw [planOf] at h
    cases hhost : m.nodeHostOf row.runtime row.provider with
    | error e =>
      rw [hhost] at h
      cases h
    | ok host =>
      rw [hhost] at h
      cases h
      rfl
  rw [rebuiltPlan] at h
  rw [provisionedPlan]
  rcases Bool.eq_false_or_eq_true (isMonitored row.provider) with hmon | hmon
  · rw [hmon] at h ⊢
    simp only [Bool.not_true, Bool.false_eq_true, if_false] at h ⊢
    cases htarget : m.endpointHostForTarget (textOr row.runtime.endpointUrl "") with
    | error e =>
      rw [htarget] at h
      cases h
    | ok target =>
      rw [htarget] at h
      cases target with
      | none =>
        cases h
        split
        next => exact ⟨rfl, nofun⟩
        next => exact ⟨rfl, nofun⟩
      | some target =>
        by_cases hblank : ModelSync.strip (textOr row.runtime.endpointUrl "").toList = []
        · rw [if_pos hblank]
          have hnone : (pure none : Except MonitoringError (Option Plan)) = .ok found := by
            rw [← h]
            exact (if_pos hblank).symm
          cases hnone
          exact ⟨rfl, nofun⟩
        · rw [if_neg hblank]
          have hplan : (do return some (← m.planOf row target) :
              Except MonitoringError (Option Plan)) = .ok found := by
            rw [← h]
            exact (if_neg hblank).symm
          refine ⟨hplan, fun plan hfound => ?_⟩
          subst hfound
          cases hof : m.planOf row target with
          | error e =>
            rw [hof] at hplan
            cases hplan
          | ok plan' =>
            rw [hof] at hplan
            cases hplan
            exact hid hof
  · rw [hmon] at h ⊢
    cases h
    exact ⟨rfl, nofun⟩

/-! ## What the calls do to the files -/

/-- Both files can be written, and the targets file can be updated. -/
structure Usable (disk : Disk) : Prop where
  targetsWritable : disk.targetsWritable = true
  dashboardsWritable : disk.dashboardsWritable = true
  labels : disk.readTargets.all hasLabels = true

theorem provision_of_skipped (h : m.outcome row = .ok none) :
    (m.provision disk (some row)).2 = disk := by
  have hplan := (provisionedPlan_eq (outcome_ok h).1).1
  rw [provision, hplan]
  rfl

theorem provision_of_found (hdisk : Usable disk) (h : m.outcome row = .ok (some (plan, data))) :
    (m.provision disk (some row)).2.readTargets =
        m.sortTargets ((disk.readTargets.filter fun t => !isOf row.runtime.id t) ++ [plan.entry]) ∧
      (m.provision disk (some row)).2.dashboards =
        disk.dashboards.write (m.dashboardPath row.runtime.id) data ∧
      (m.provision disk (some row)).2.targetsWritable = disk.targetsWritable ∧
      (m.provision disk (some row)).2.dashboardsWritable = disk.dashboardsWritable := by
  obtain ⟨hrebuilt, hrender⟩ := outcome_ok h
  obtain ⟨hplan, hid⟩ := provisionedPlan_eq hrebuilt
  have hid := hid plan rfl
  rw [provision, hplan]
  dsimp only [Option.map_some]
  rw [provisionPlan, upsertTarget, if_pos hdisk.labels, Disk.writeTargets,
    if_pos hdisk.targetsWritable]
  dsimp only
  rw [hrender plan data rfl]
  dsimp only
  rw [Disk.writeDashboard, if_pos hdisk.dashboardsWritable, hid]
  exact ⟨readTargets_objects rfl, rfl, rfl, rfl⟩

theorem deprovision_spec (hdisk : Usable disk) (id : String) :
    (m.deprovision disk id).2.readTargets = (disk.readTargets.filter fun t => !isOf id t) ∧
      (m.deprovision disk id).2.dashboards =
        disk.dashboards.keep (· ≠ m.dashboardPath id) ∧
      (m.deprovision disk id).2.targetsWritable = disk.targetsWritable ∧
      (m.deprovision disk id).2.dashboardsWritable = disk.dashboardsWritable := by
  rw [deprovision, if_pos hdisk.labels]
  dsimp only
  split_ifs with hlength
  · have hself : (disk.readTargets.filter fun t => !isOf id t) = disk.readTargets :=
      List.filter_eq_self.2 (List.length_filter_eq_length_iff.1 hlength)
    rw [hself]
    dsimp only
    rw [Disk.removeDashboards, hdisk.dashboardsWritable, Bool.true_or, if_pos rfl]
    exact ⟨rfl, rfl, rfl, rfl⟩
  · rw [Disk.writeTargets, if_pos hdisk.targetsWritable]
    dsimp only
    rw [Disk.removeDashboards, hdisk.dashboardsWritable, Bool.true_or, if_pos rfl]
    exact ⟨readTargets_objects rfl, rfl, rfl, rfl⟩

/-! ## Rows -/

theorem rowOf_some (h : s.rowOf id = some row) : row ∈ s.rows ∧ row.runtime.id = id :=
  ⟨List.mem_of_find?_eq_some h, of_decide_eq_true (List.find?_eq_some_iff_append.1 h).1⟩

theorem rowOf_none (h : s.rowOf id = none) : ∀ row ∈ s.rows, row.runtime.id ≠ id :=
  fun row hrow heq => List.find?_eq_none.1 h row hrow (decide_eq_true heq)

theorem rowOf_mem (hnodup : (s.rows.map (·.runtime.id)).Nodup) (h : row ∈ s.rows) :
    s.rowOf row.runtime.id = some row := by
  cases hrow : s.rowOf row.runtime.id with
  | none => exact (rowOf_none hrow row h rfl).elim
  | some found =>
    obtain ⟨hfound, hid⟩ := rowOf_some hrow
    rw [List.inj_on_of_nodup_map hnodup hfound h hid]

variable {disk' : Disk} {found : Option (Plan × Json)}

theorem RowAgrees.runtimeId (h : m.RowAgrees disk row found) (hfound : found = some (plan, data)) :
    plan.runtimeId = row.runtime.id := by
  subst hfound
  exact (provisionedPlan_eq (outcome_ok h.outcome).1).2 plan rfl

/-- A row agrees with files that have the same of it. -/
theorem RowAgrees.transfer (h : m.RowAgrees disk row found)
    (htargets : ∀ t, isOf row.runtime.id t = true → (t ∈ disk'.readTargets ↔ t ∈ disk.readTargets))
    (hread : disk'.dashboards.read (m.dashboardPath row.runtime.id) =
      disk.dashboards.read (m.dashboardPath row.runtime.id)) : m.RowAgrees disk' row found where
  outcome := h.outcome
  only t ht hof := h.only t ((htargets t hof).1 ht) hof
  target plan data hfound :=
    (htargets _ (h.runtimeId hfound ▸ isOf_entry plan)).2 (h.target plan data hfound)
  dashboard := hread.trans h.dashboard

theorem Inv.usable (h : m.Inv s) : Usable s.disk := ⟨h.targetsWritable, h.dashboardsWritable,
  h.labels⟩

/-- Known runtimes and files with the same owners, and rows that agree as far as they are
followed up. -/
theorem Inv.of_same_disk {s' : MonitoringState} (h : m.Inv s) (hdisk : s'.disk = s.disk)
    (hknown : ∀ id, s.Known id → s'.Known id)
    (hpaths : ∀ id id', s'.Known id → s'.Known id' → m.dashboardPath id = m.dashboardPath id' →
      id = id')
    (hnodup : (s'.rows.map (·.runtime.id)).Nodup)
    (hrows : ∀ row ∈ s'.rows, row.runtime.id ∉ s'.pending →
      row ∈ s.rows ∧ row.runtime.id ∉ s.pending) : m.Inv s' where
  targetsWritable := hdisk ▸ h.targetsWritable
  dashboardsWritable := hdisk ▸ h.dashboardsWritable
  nodup := hnodup
  labels := hdisk ▸ h.labels
  targetsKnown t ht := by
    obtain ⟨id, hid, hk⟩ := h.targetsKnown t (hdisk ▸ ht)
    exact ⟨id, hid, hknown id hk⟩
  dashboardsKnown path hpath hread := by
    obtain ⟨id, hid, hk⟩ := h.dashboardsKnown path hpath (hdisk ▸ hread)
    exact ⟨id, hid, hknown id hk⟩
  paths := hpaths
  settled row hrow hp := by
    obtain ⟨hmem, hpending⟩ := hrows row hrow hp
    rw [hdisk]
    exact h.settled row hmem hpending

theorem inv_create (h : m.Inv s) (hmeets : m.Meets s (.create row)) :
    m.Inv (m.step s (.create row)) := by
  rw [step]
  cases hrow : s.rowOf row.runtime.id with
  | some old => exact h
  | none =>
    have hback : ∀ id, MonitoringState.Known { s with
        rows := s.rows ++ [row]
        pending := row.runtime.id :: s.pending } id → s.Known id ∨ id = row.runtime.id := by
      rintro id (⟨r, hr, hid⟩ | hid)
      · rcases List.mem_append.1 hr with hr | hr
        · exact .inl (.inl ⟨r, hr, hid⟩)
        · rw [List.mem_singleton.1 hr] at hid
          exact .inr hid.symm
      · rcases List.mem_cons.1 hid with hid | hid
        · exact .inr hid
        · exact .inl (.inr hid)
    refine h.of_same_disk rfl ?_ ?_ ?_ ?_
    · rintro id (⟨r, hr, hid⟩ | hid)
      · exact .inl ⟨r, List.mem_append_left _ hr, hid⟩
      · exact .inr (List.mem_cons_of_mem _ hid)
    · intro id id' hid hid' hpath
      rcases hback id hid with hid | rfl
      · rcases hback id' hid' with hid' | rfl
        · exact h.paths id id' hid hid' hpath
        · exact hmeets id hid hpath
      · rcases hback id' hid' with hid' | rfl
        · exact (hmeets id' hid' hpath.symm).symm
        · rfl
    · rw [List.map_append, List.map_singleton]
      refine List.nodup_append.2 ⟨h.nodup, List.nodup_singleton _, fun x hx y hy hxy => ?_⟩
      obtain ⟨r, hr, rfl⟩ := List.mem_map.1 hx
      exact rowOf_none hrow r hr (hxy.trans (List.mem_singleton.1 hy))
    · intro r hr hpending
      obtain ⟨hne, hpending⟩ := List.ne_and_not_mem_of_not_mem_cons hpending
      refine ⟨(List.mem_append.1 hr).resolve_right fun hr => hne ?_, hpending⟩
      rw [List.mem_singleton.1 hr]

theorem inv_change (h : m.Inv s) (f : LLMRuntime → LLMRuntime)
    (hf : ∀ runtime, (f runtime).id = runtime.id) : m.Inv (s.change id f) := by
  rw [MonitoringState.change]
  cases hrow : s.rowOf id with
  | none => exact h
  | some old =>
    obtain ⟨hold, hid⟩ := rowOf_some hrow
    have hsame : ∀ r : MonitoredRow, (if r.runtime.id = id then
        { r with runtime := f r.runtime } else r).runtime.id = r.runtime.id := by
      intro r
      split
      · exact hf r.runtime
      · rfl
    have hids : (s.rows.map fun r => if r.runtime.id = id then
        { r with runtime := f r.runtime } else r).map (·.runtime.id) =
        s.rows.map (·.runtime.id) := by
      rw [List.map_map]
      exact List.map_congr_left fun r _ => hsame r
    refine h.of_same_disk rfl ?_ ?_ ?_ ?_
    · rintro x (⟨r, hr, hx⟩ | hx)
      · exact .inl ⟨_, List.mem_map_of_mem hr, (hsame r).trans hx⟩
      · exact .inr (List.mem_cons_of_mem _ hx)
    · have hback : ∀ x, MonitoringState.Known { s with
          rows := s.rows.map fun r => if r.runtime.id = id then
            { r with runtime := f r.runtime } else r
          pending := id :: s.pending } x → s.Known x := by
        rintro x (⟨r', hr', hx⟩ | hx)
        · obtain ⟨r, hr, rfl⟩ := List.mem_map.1 hr'
          exact .inl ⟨r, hr, (hsame r).symm.trans hx⟩
        · rcases List.mem_cons.1 hx with rfl | hx
          · exact .inl ⟨old, hold, hid⟩
          · exact .inr hx
      exact fun x y hx hy => h.paths x y (hback x hx) (hback y hy)
    · exact hids ▸ h.nodup
    · intro r' hr' hpending
      obtain ⟨hne, hpending⟩ := List.ne_and_not_mem_of_not_mem_cons hpending
      obtain ⟨r, hr, rfl⟩ := List.mem_map.1 hr'
      rw [hsame r] at hne hpending
      rw [if_neg hne]
      exact ⟨hr, hpending⟩

theorem inv_delete (h : m.Inv s) : m.Inv (m.step s (.delete id)) := by
  rw [step]
  cases hrow : s.rowOf id with
  | none => exact h
  | some old =>
    obtain ⟨hold, hid⟩ := rowOf_some hrow
    refine h.of_same_disk rfl ?_ ?_ ?_ ?_
    · rintro x (⟨r, hr, hx⟩ | hx)
      · by_cases hx' : x = id
        · exact .inr (hx' ▸ List.mem_cons_self)
        · exact .inl ⟨r, List.mem_filter.2 ⟨hr, decide_eq_true (hx.symm ▸ hx')⟩, hx⟩
      · exact .inr (List.mem_cons_of_mem _ hx)
    · have hback : ∀ x, MonitoringState.Known { s with
          rows := s.rows.filter (·.runtime.id ≠ id)
          pending := id :: s.pending } x → s.Known x := by
        rintro x (⟨r, hr, hx⟩ | hx)
        · exact .inl ⟨r, (List.mem_filter.1 hr).1, hx⟩
        · rcases List.mem_cons.1 hx with rfl | hx
          · exact .inl ⟨old, hold, hid⟩
          · exact .inr hx
      exact fun x y hx hy => h.paths x y (hback x hx) (hback y hy)
    · exact h.nodup.sublist ((List.filter_sublist ..).map _)
    · intro r hr hpending
      exact ⟨(List.mem_filter.1 hr).1, (List.ne_and_not_mem_of_not_mem_cons hpending).2⟩

/-- Only the target and the dashboard of one runtime are changed. -/
structure Updates (m : MonitoringProvisioner) (disk disk' : Disk) (id : String) : Prop where
  usable : Usable disk'
  targets : ∀ t, isOf id t = false → (t ∈ disk'.readTargets ↔ t ∈ disk.readTargets)
  dashboards : ∀ path, path ≠ m.dashboardPath id →
    disk'.dashboards.read path = disk.dashboards.read path

/-- A row with another dashboard keeps what it has. -/
theorem Updates.rowAgrees (h : m.Updates disk disk' id) (hrow : m.RowAgrees disk row found)
    (hpath : m.dashboardPath row.runtime.id ≠ m.dashboardPath id) :
    m.RowAgrees disk' row found := by
  refine hrow.transfer (fun t ht => h.targets t ?_) (h.dashboards _ hpath)
  refine Bool.eq_false_iff.2 fun hof => hpath ?_
  rw [isOf_unique ht hof]

theorem provision_updates (hdisk : Usable disk) (houtcome : m.outcome row = .ok found)
    (habsent : found = none → m.Absent disk row.runtime.id) :
    m.Updates disk (m.provision disk (some row)).2 row.runtime.id ∧
      m.RowAgrees (m.provision disk (some row)).2 row found := by
  cases found with
  | none =>
    obtain ⟨htargets, hdashboard⟩ := habsent rfl
    rw [provision_of_skipped houtcome]
    exact ⟨⟨hdisk, fun _ _ => Iff.rfl, fun _ _ => rfl⟩, houtcome,
      fun t ht hof => (nomatch (htargets t ht).symm.trans hof), nofun, hdashboard⟩
  | some found =>
    obtain ⟨plan, data⟩ := found
    obtain ⟨htargets, hdashboards, hflag, hflag'⟩ := provision_of_found hdisk houtcome
    have hentry : isOf row.runtime.id plan.entry = true :=
      (provisionedPlan_eq (outcome_ok houtcome).1).2 plan rfl ▸ isOf_entry plan
    have hmem (t : JsonObject) : t ∈ (m.provision disk (some row)).2.readTargets ↔
        (t ∈ disk.readTargets ∧ isOf row.runtime.id t = false) ∨ t = plan.entry := by
      rw [htargets, sortTargets, List.mem_insertionSort, List.mem_append, List.mem_filter,
        List.mem_singleton, Bool.not_eq_true']
    refine ⟨⟨⟨hflag.trans hdisk.targetsWritable, hflag'.trans hdisk.dashboardsWritable, ?_⟩,
      fun t ht => ?_, fun path hpath => ?_⟩, houtcome, fun t ht hof => ?_, fun plan' data' h => ?_,
      ?_⟩
    · refine List.all_eq_true.2 fun t ht => ?_
      rcases (hmem t).1 ht with ⟨ht, -⟩ | rfl
      · exact List.all_eq_true.1 hdisk.labels t ht
      · exact hasLabels_entry plan
    · rw [hmem]
      refine ⟨fun h => h.elim And.left fun heq => ?_, fun h => .inl ⟨h, ht⟩⟩
      rw [heq, hentry] at ht
      cases ht
    · rw [hdashboards, Directory.read_write, if_neg hpath]
    · rcases (hmem t).1 ht with ⟨-, hno⟩ | rfl
      · rw [hof] at hno
        cases hno
      · exact ⟨plan, data, rfl, rfl⟩
    · cases h
      exact (hmem _).2 (.inr rfl)
    · rw [hdashboards, Directory.read_write, if_pos rfl]
      rfl

theorem deprovision_updates (hdisk : Usable disk) (id : String) :
    m.Updates disk (m.deprovision disk id).2 id ∧ m.Absent (m.deprovision disk id).2 id := by
  obtain ⟨htargets, hdashboards, hflag, hflag'⟩ := m.deprovision_spec hdisk id
  have hmem (t : JsonObject) : t ∈ (m.deprovision disk id).2.readTargets ↔
      t ∈ disk.readTargets ∧ isOf id t = false := by
    rw [htargets, List.mem_filter, Bool.not_eq_true']
  refine ⟨⟨⟨hflag.trans hdisk.targetsWritable, hflag'.trans hdisk.dashboardsWritable, ?_⟩,
    fun t ht => ?_, fun path hpath => ?_⟩, fun t ht => ((hmem t).1 ht).2, ?_⟩
  · exact List.all_eq_true.2 fun t ht => List.all_eq_true.1 hdisk.labels t ((hmem t).1 ht).1
  · rw [hmem]
    exact ⟨And.left, fun h => ⟨h, ht⟩⟩
  · rw [hdashboards, Directory.read_keep, if_pos (decide_eq_true hpath)]
  · rw [hdashboards, Directory.read_keep, if_neg (by simp)]

theorem inv_provision (h : m.Inv s) (hmeets : m.Meets s (.provision id)) :
    m.Inv (m.step s (.provision id)) := by
  cases hrow : s.rowOf id with
  | none =>
    have hstep : m.step s (.provision id) = s := by
      rw [step, hrow]
      rfl
    rwa [hstep]
  | some row =>
    obtain ⟨hmem, rfl⟩ := rowOf_some hrow
    obtain ⟨⟨found, houtcome⟩, habsent⟩ := hmeets row hrow
    obtain ⟨hupdates, hagrees⟩ := provision_updates h.usable houtcome
      fun hnone => habsent (hnone ▸ houtcome)
    rw [step, hrow]
    dsimp only [Option.isSome_some]
    rw [if_pos rfl]
    generalize (m.provision s.disk (some row)).2 = after at hupdates hagrees
    have hknown (x : String) : MonitoringState.Known { s with
        disk := after
        pending := s.pending.filter (· ≠ row.runtime.id) } x ↔ s.Known x := by
      refine ⟨Or.imp_right fun hx => (List.mem_filter.1 hx).1, fun hx => ?_⟩
      rcases hx with hx | hx
      · exact .inl hx
      · by_cases heq : x = row.runtime.id
        · exact .inl ⟨row, hmem, heq.symm⟩
        · exact .inr (List.mem_filter.2 ⟨hx, decide_eq_true heq⟩)
    have hself : s.Known row.runtime.id := .inl ⟨row, hmem, rfl⟩
    exact {
      targetsWritable := hupdates.usable.targetsWritable
      dashboardsWritable := hupdates.usable.dashboardsWritable
      nodup := h.nodup
      labels := hupdates.usable.labels
      targetsKnown := fun t ht => by
        rcases Bool.eq_false_or_eq_true (isOf row.runtime.id t) with hof | hof
        · exact ⟨_, hof, (hknown _).2 hself⟩
        · obtain ⟨x, hx, hk⟩ := h.targetsKnown t ((hupdates.targets t hof).1 ht)
          exact ⟨x, hx, (hknown x).2 hk⟩
      dashboardsKnown := fun path hpath hread => by
        by_cases heq : path = m.dashboardPath row.runtime.id
        · exact ⟨_, heq, (hknown _).2 hself⟩
        · obtain ⟨x, hx, hk⟩ := h.dashboardsKnown path hpath
            (hupdates.dashboards path heq ▸ hread)
          exact ⟨x, hx, (hknown x).2 hk⟩
      paths := fun x y hx hy => h.paths x y ((hknown x).1 hx) ((hknown y).1 hy)
      settled := fun r hr hpending => by
        by_cases heq : r.runtime.id = row.runtime.id
        · rw [List.inj_on_of_nodup_map h.nodup hr hmem heq]
          exact ⟨found, hagrees⟩
        · have hnot : r.runtime.id ∉ s.pending := fun hp =>
            hpending (List.mem_filter.2 ⟨hp, decide_eq_true heq⟩)
          obtain ⟨found', hfound⟩ := h.settled r hr hnot
          exact ⟨found', hupdates.rowAgrees hfound fun hpath =>
            heq (h.paths _ _ (.inl ⟨r, hr, rfl⟩) hself hpath)⟩ }

theorem inv_deprovision (h : m.Inv s) (hmeets : m.Meets s (.deprovision id)) :
    m.Inv (m.step s (.deprovision id)) := by
  have hrow : s.rowOf id = none := by
    cases hrow : s.rowOf id with
    | none => rfl
    | some row =>
      obtain ⟨hmem, rfl⟩ := rowOf_some hrow
      exact (hmeets row hmem rfl).elim
  obtain ⟨hupdates, htargets, hdashboard⟩ := m.deprovision_updates h.usable id
  rw [step, hrow]
  dsimp only [Option.isSome_none]
  rw [if_neg (by nofun)]
  generalize (m.deprovision s.disk id).2 = after at hupdates htargets hdashboard
  have hback (x : String) (hx : MonitoringState.Known { s with
      disk := after
      pending := s.pending.filter (· ≠ id) } x) : s.Known x :=
    hx.imp_right fun hx => (List.mem_filter.1 hx).1
  have hknown (x : String) (hx : s.Known x) (hne : x ≠ id) : MonitoringState.Known { s with
      disk := after
      pending := s.pending.filter (· ≠ id) } x :=
    hx.imp_right fun hx => List.mem_filter.2 ⟨hx, decide_eq_true hne⟩
  exact {
    targetsWritable := hupdates.usable.targetsWritable
    dashboardsWritable := hupdates.usable.dashboardsWritable
    nodup := h.nodup
    labels := hupdates.usable.labels
    targetsKnown := fun t ht => by
      have hof := htargets t ht
      obtain ⟨x, hx, hk⟩ := h.targetsKnown t ((hupdates.targets t hof).1 ht)
      refine ⟨x, hx, hknown x hk fun heq => ?_⟩
      rw [heq, hof] at hx
      cases hx
    dashboardsKnown := fun path hpath hread => by
      have hne : path ≠ m.dashboardPath id := fun heq => hread (heq ▸ hdashboard)
      obtain ⟨x, hx, hk⟩ := h.dashboardsKnown path hpath (hupdates.dashboards path hne ▸ hread)
      exact ⟨x, hx, hknown x hk fun heq => hne (heq ▸ hx)⟩
    paths := fun x y hx hy => h.paths x y (hback x hx) (hback y hy)
    settled := fun r hr hpending => by
      have hnot : r.runtime.id ∉ s.pending := fun hp =>
        hpending (List.mem_filter.2 ⟨hp, decide_eq_true (rowOf_none hrow r hr)⟩)
      obtain ⟨found, hfound⟩ := h.settled r hr hnot
      exact ⟨found, hupdates.rowAgrees hfound (hmeets r hr)⟩ }

/-- The row may as well be deleted first. -/
theorem step_deleteRuntime (h : s.rowOf id = some row) : m.step s (.deleteRuntime id) =
    m.step (m.step s (.delete id)) (.deprovision id) := by
  have hgone : MonitoringState.rowOf { s with
      rows := s.rows.filter (·.runtime.id ≠ id)
      pending := id :: s.pending } id = none := by
    refine List.find?_eq_none.2 fun r hr heq => ?_
    exact of_decide_eq_true (List.mem_filter.1 hr).2 (of_decide_eq_true heq)
  have hpending : (id :: s.pending).filter (· ≠ id) = s.pending.filter (· ≠ id) :=
    List.filter_cons_of_neg (by simp)
  have hdelete : m.step s (.delete id) = { s with
      rows := s.rows.filter (·.runtime.id ≠ id)
      pending := id :: s.pending } := by rw [step, h]
  have hleft : m.step s (.deleteRuntime id) = {
      rows := s.rows.filter (·.runtime.id ≠ id)
      disk := (m.deprovision s.disk id).2
      pending := s.pending.filter (· ≠ id) } := by rw [step, h]
  rw [hdelete, hleft, step, hgone, ← hpending]
  rfl

theorem inv_deleteRuntime (h : m.Inv s) : m.Inv (m.step s (.deleteRuntime id)) := by
  cases hrow : s.rowOf id with
  | none =>
    rw [step, hrow]
    exact h
  | some row =>
    obtain ⟨hmem, hid⟩ := rowOf_some hrow
    rw [step_deleteRuntime hrow]
    refine inv_deprovision (inv_delete h) fun r hr hpath => ?_
    rw [step, hrow] at hr
    obtain ⟨hr, hne⟩ := List.mem_filter.1 hr
    exact of_decide_eq_true hne (h.paths _ _ (.inl ⟨r, hr, rfl⟩) (.inl ⟨row, hmem, hid⟩) hpath)

theorem inv_of_runs (h : m.Runs s) : m.Inv s := by
  induction h with
  | start disk hfresh =>
    exact {
      targetsWritable := hfresh.targetsWritable
      dashboardsWritable := hfresh.dashboardsWritable
      nodup := List.nodup_nil
      labels := by rw [hfresh.targets]; rfl
      targetsKnown := fun t ht => by
        rw [hfresh.targets] at ht
        cases ht
      dashboardsKnown := fun path hpath hread => (hread (hfresh.dashboards path hpath)).elim
      paths := fun _ _ hx => by
        rcases hx with ⟨r, hr, -⟩ | hx
        · cases hr
        · cases hx
      settled := nofun }
  | step s e _ hmeets ih =>
    cases e with
    | create row => exact inv_create ih hmeets
    | setEndpoint id url =>
      exact inv_change ih (fun r => { r with endpointUrl := url }) fun _ => rfl
    | rename id name => exact inv_change ih (fun r => { r with name := name }) fun _ => rfl
    | delete id => exact inv_delete ih
    | provision id => exact inv_provision ih hmeets
    | deprovision id => exact inv_deprovision ih hmeets
    | deleteRuntime id => exact inv_deleteRuntime ih

/-! ## The rebuild -/

variable {rows : List MonitoredRow}

/-- Every dashboard of the rows is in the directory. -/
def InDirectory (m : MonitoringProvisioner) (dir : Directory) (rows : List MonitoredRow) : Prop :=
  ∀ row ∈ rows, ∀ plan data, m.outcome row = .ok (some (plan, data)) →
    dir.read (m.dashboardPath plan.runtimeId) = some data

theorem read_writtenBy_of_inDirectory {dir : Directory} (h : m.InDirectory dir rows)
    (path : List Char) : (m.writtenBy rows dir).read path = dir.read path := by
  induction rows generalizing dir with
  | nil => rfl
  | cons row rows ih =>
    have htail : m.InDirectory dir rows := fun r hr => h r (List.mem_cons_of_mem _ hr)
    cases houtcome : m.outcome row with
    | error e => rw [writtenBy_cons_error houtcome, ih htail]
    | ok found =>
      cases found with
      | none => rw [writtenBy_cons_none houtcome, ih htail]
      | some found =>
        obtain ⟨plan, data⟩ := found
        have hsame : ∀ q, (dir.write (m.dashboardPath plan.runtimeId) data).read q =
            dir.read q := by
          intro q
          rw [Directory.read_write]
          split
          next hq => rw [hq, h row List.mem_cons_self plan data houtcome]
          next => rfl
        rw [writtenBy_cons_some houtcome, ih fun r hr plan' data' hfound => ?_, hsame]
        rw [hsame]
        exact htail r hr plan' data' hfound

theorem rebuildAll_of_usable (hdisk : Usable disk) (hall : rows.all m.succeeds = true) :
    (m.rebuildAll disk rows).2 =
      { targets := some (.array ((m.sortTargets ((m.plansOf rows).map (·.entry))).map .object))
        dashboards := (m.writtenBy rows disk.dashboards).keep fun path => !isGenerated path ||
          path ∈ (m.plansOf rows).map fun plan => m.dashboardPath plan.runtimeId
        targetsWritable := true
        dashboardsWritable := true } := by
  obtain ⟨hafter, hresult⟩ := m.rebuildRows_of_writable rows [] hdisk.dashboardsWritable
  rw [if_pos hall, List.nil_append] at hresult
  rw [List.takeWhile_eq_self_iff.2 (List.all_eq_true.1 hall)] at hafter
  rw [rebuildAll]
  generalize m.rebuildRows rows [] disk = run at hafter hresult
  obtain ⟨result, after⟩ := run
  cases hresult
  cases hafter
  dsimp only
  rw [Disk.writeTargets, if_pos hdisk.targetsWritable]
  dsimp only
  rw [Disk.removeDashboards, hdisk.dashboardsWritable, Bool.true_or, if_pos rfl,
    hdisk.targetsWritable]

theorem of_mem_plansOf (h : plan ∈ m.plansOf rows) :
    ∃ row ∈ rows, ∃ data, m.outcome row = .ok (some (plan, data)) := by
  obtain ⟨row, hrow, hplan⟩ := List.mem_filterMap.1 h
  refine ⟨row, hrow, ?_⟩
  split at hplan
  next found houtcome =>
    cases hplan
    exact ⟨found.2, houtcome⟩
  next => cases hplan

theorem readTargets_rebuildAll (hdisk : Usable disk) (hall : rows.all m.succeeds = true) :
    (m.rebuildAll disk rows).2.readTargets =
      m.sortTargets ((m.plansOf rows).map (·.entry)) :=
  (rebuildAll_of_succeeds hdisk.dashboardsWritable hall).1.trans (if_pos hdisk.targetsWritable)

theorem row_of_known (hid : s.Known id) (hp : s.pending = []) :
    ∃ row ∈ s.rows, row.runtime.id = id :=
  hid.resolve_right (hp ▸ List.not_mem_nil)

section
variable (h : m.Inv s) (hp : s.pending = [])
include h hp

theorem Inv.rowAgrees (hrow : row ∈ s.rows) : ∃ found, m.RowAgrees s.disk row found :=
  h.settled row hrow (hp ▸ List.not_mem_nil)

theorem Inv.rowAgrees_of_outcome (hrow : row ∈ s.rows) (houtcome : m.outcome row = .ok found) :
    m.RowAgrees s.disk row found := by
  obtain ⟨found', hfound⟩ := h.rowAgrees hp hrow
  have heq := hfound.outcome
  rw [houtcome] at heq
  rwa [Except.ok.inj heq]

theorem Inv.succeeds : s.rows.all m.succeeds = true := by
  refine List.all_eq_true.2 fun row hrow => ?_
  obtain ⟨found, hfound⟩ := h.rowAgrees hp hrow
  rw [MonitoringProvisioner.succeeds, hfound.outcome]
  rfl

theorem Inv.mem_readTargets (t : JsonObject) :
    t ∈ s.disk.readTargets ↔ t ∈ (m.plansOf s.rows).map (·.entry) := by
  constructor
  · intro ht
    obtain ⟨id, hof, hid⟩ := h.targetsKnown t ht
    obtain ⟨row, hrow, rfl⟩ := row_of_known hid hp
    obtain ⟨found, hfound⟩ := h.rowAgrees hp hrow
    obtain ⟨plan, data, rfl, rfl⟩ := hfound.only t ht hof
    exact List.mem_map_of_mem (mem_plansOf hrow hfound.outcome)
  · intro ht
    obtain ⟨plan, hplan, rfl⟩ := List.mem_map.1 ht
    obtain ⟨row, hrow, data, houtcome⟩ := of_mem_plansOf hplan
    exact (h.rowAgrees_of_outcome hp hrow houtcome).target plan data rfl

theorem Inv.inDirectory : m.InDirectory s.disk.dashboards s.rows := by
  intro row hrow plan data houtcome
  have hagrees := h.rowAgrees_of_outcome hp hrow houtcome
  rw [hagrees.runtimeId rfl, hagrees.dashboard]
  rfl

/-- No generated dashboard is there but those of the rows. -/
theorem Inv.read_of_not_kept {path : List Char}
    (hkept : (!isGenerated path || decide (path ∈ (m.plansOf s.rows).map fun plan =>
      m.dashboardPath plan.runtimeId)) ≠ true) : s.disk.dashboards.read path = none := by
  rw [Ne, Bool.or_eq_true, not_or, Bool.not_eq_true', Bool.not_eq_false,
    decide_eq_true_iff] at hkept
  by_contra hread
  obtain ⟨id, rfl, hid⟩ := h.dashboardsKnown path hkept.1 hread
  obtain ⟨row, hrow, rfl⟩ := row_of_known hid hp
  obtain ⟨found, hfound⟩ := h.rowAgrees hp hrow
  cases found with
  | none => exact hread hfound.dashboard
  | some found =>
    refine hkept.2 (List.mem_map.2 ⟨found.1, mem_plansOf hrow hfound.outcome, ?_⟩)
    rw [hfound.runtimeId rfl]

/-- The dashboards of the rows, where those are the files of the directory already. -/
theorem Inv.read_rebuilt {dir : Directory}
    (hdir : ∀ path, dir.read path = s.disk.dashboards.read path) (path : List Char) :
    ((m.writtenBy s.rows dir).keep fun path => !isGenerated path ||
      path ∈ (m.plansOf s.rows).map fun plan => m.dashboardPath plan.runtimeId).read path =
        s.disk.dashboards.read path := by
  have hin : m.InDirectory dir s.rows := fun row hrow plan data houtcome =>
    (hdir _).trans (h.inDirectory hp row hrow plan data houtcome)
  rw [Directory.read_keep, read_writtenBy_of_inDirectory hin, hdir]
  split
  next => rfl
  next hkept => rw [h.read_of_not_kept hp hkept]

end

/-- Once every change has been followed up, the files are those of a rebuild. -/
theorem agrees_of_runs (h : m.Runs s) (hp : s.pending = []) : m.Agrees s := by
  have hinv := inv_of_runs h
  have hall := hinv.succeeds hp
  have hagain : Usable (m.rebuildAll s.disk s.rows).2 := by
    refine ⟨by rw [rebuildAll_of_usable hinv.usable hall],
      by rw [rebuildAll_of_usable hinv.usable hall], List.all_eq_true.2 fun t ht => ?_⟩
    rw [readTargets_rebuildAll hinv.usable hall, sortTargets, List.mem_insertionSort] at ht
    obtain ⟨plan, -, rfl⟩ := List.mem_map.1 ht
    exact hasLabels_entry plan
  have hread (path : List Char) : (m.rebuildAll s.disk s.rows).2.dashboards.read path =
      s.disk.dashboards.read path := by
    rw [rebuildAll_of_usable hinv.usable hall]
    exact hinv.read_rebuilt hp (fun _ => rfl) path
  exact {
    targets := fun t => by
      rw [readTargets_rebuildAll hinv.usable hall, sortTargets, List.mem_insertionSort]
      exact hinv.mem_readTargets hp t
    dashboards := fun path => (hread path).symm
    targetsAgain := by
      rw [rebuildAll_of_usable hagain hall, rebuildAll_of_usable hinv.usable hall]
    dashboardsAgain := fun path => by
      rw [rebuildAll_of_usable hagain hall, hread]
      exact hinv.read_rebuilt hp hread path }

def freshDisk : Disk := ⟨none, ⟨[], List.nodup_nil⟩, true, true⟩

/-- Only URLs with a scheme have a host. -/
def schemeProvisioner : MonitoringProvisioner := { quotedProvisioner with
  hostname := fun url =>
    .ok (if "http://".toList.isPrefixOf url.toList then some "node" else none) }

def plainRow : MonitoredRow :=
  ⟨⟨"1", "a", some "http://node:8000"⟩, ⟨"m", none⟩, ⟨"p", .vllm, none⟩⟩

/-- A runtime is created and provisioned. -/
theorem agrees_plainRow : schemeProvisioner.Agrees
    ([.create plainRow, .provision "1"].foldl schemeProvisioner.step ⟨[], freshDisk, []⟩) := by
  have hfound : (schemeProvisioner.outcome plainRow).toOption.join.isSome = true := by
    decide +kernel
  rw [List.foldl_cons, List.foldl_cons, List.foldl_nil]
  refine agrees_of_runs (.step _ _ (.step _ _ (.start _ ⟨rfl, fun _ _ => rfl, rfl, rfl⟩) ?_) ?_) rfl
  · rintro id (⟨r, hr, -⟩ | hid)
    · cases hr
    · cases hid
  · intro row hrow
    have heq : row = plainRow := by
      rw [show MonitoringState.rowOf _ "1" = some plainRow from rfl] at hrow
      exact (Option.some.inj hrow).symm
    rw [heq]
    cases houtcome : schemeProvisioner.outcome plainRow with
    | error e =>
      rw [houtcome] at hfound
      cases hfound
    | ok found =>
      refine ⟨⟨found, rfl⟩, fun hnone => ?_⟩
      rw [houtcome, Except.ok.inj hnone] at hfound
      cases hfound

/-- The endpoint of a provisioned runtime is changed to one without a scheme, and `provision`
follows it up. -/
theorem not_agrees_changedEndpoint :
    ([.create plainRow, .provision "1", .setEndpoint "1" (some "10.0.0.5:8000"),
        .provision "1"].foldl schemeProvisioner.step ⟨[], freshDisk, []⟩).pending = [] ∧
      ¬ schemeProvisioner.Agrees
        ([.create plainRow, .provision "1", .setEndpoint "1" (some "10.0.0.5:8000"),
          .provision "1"].foldl schemeProvisioner.step ⟨[], freshDisk, []⟩) := by
  refine ⟨by decide +kernel, fun h => ?_⟩
  generalize hrun : [MonitoringEvent.create plainRow, .provision "1",
    .setEndpoint "1" (some "10.0.0.5:8000"), .provision "1"].foldl schemeProvisioner.step
      ⟨[], freshDisk, []⟩ = s at h
  have hleft : s.disk.readTargets.length = 1 := by
    rw [← hrun]
    decide +kernel
  have hrebuilt : (schemeProvisioner.rebuildAll s.disk s.rows).2.readTargets.length = 0 := by
    rw [← hrun]
    decide +kernel
  obtain ⟨t, ht⟩ := List.length_eq_one_iff.1 hleft
  have hmem := (h.targets t).1 (ht ▸ List.mem_cons_self)
  rw [List.length_eq_zero_iff.1 hrebuilt] at hmem
  cases hmem

end MonitoringProvisioner

end LlmPort.Backend.Llm
