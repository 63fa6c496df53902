import LlmPort.Backend.Downloads.Sessions

/-!
# The artifact rows of a model

Every worker that succeeds inserts all it has scanned. The rows are those of the latest snapshot
exactly as long as each success finds none.
-/

namespace LlmPort.Backend.Downloads

open Transition

/-- A run, with the snapshot of the latest success. -/
structure Downloaded where
  sys : DownloadSystem
  snapshot : Option Snapshot

variable {d : Downloaded} {sys : DownloadSystem} {e : DownloadEvent}

namespace DownloadSystem

/-- The snapshot that a step commits. -/
def succeeds (sys : DownloadSystem) : DownloadEvent → Option (Option Snapshot)
  | .worker i .proceed => match sys.workers[i]? with
    | none => none
    | some w => match w.point with
      | .committing snapshot _ _ =>
        if sys.blocked w.pending = false ∧ (sys.db.commit w.pending).isSome then some snapshot
        else none
      | _ => none
  | _ => none

end DownloadSystem

namespace Downloaded

def step (d : Downloaded) (e : DownloadEvent) : Downloaded where
  sys := d.sys.step e
  snapshot := match e with
    | .deleteModel => none
    | _ => (d.sys.succeeds e).getD d.snapshot

def initial : Downloaded := ⟨.initial, none⟩

/-- There is one row for each artifact file of the snapshot, and none for another. -/
structure OneRowEach (d : Downloaded) : Prop where
  once : (d.sys.db.artifacts.map (·.path)).Nodup
  files : ∀ path, path ∈ d.sys.db.artifacts.map (·.path) ↔ IsArtifactFile d.snapshot path

/-- A success finds no rows. -/
def FindsNone (d : Downloaded) (e : DownloadEvent) : Prop :=
  (d.sys.succeeds e).isSome → d.sys.db.artifacts = []

end Downloaded

theorem artifacts_commit {t t' : DownloadTables} {c : Changes} (h : t.commit c = some t') :
    t'.artifacts = t.artifacts ++ c.artifacts := by
  obtain ⟨-, heq⟩ := Option.ite_none_left_eq_some.1 h
  cases heq
  rfl

theorem artifacts_execute {t t' : DownloadTables} {w : Writes} (h : t.execute w = some t') :
    t'.artifacts = t.artifacts := by
  cases w with
  | insertRows errorMessage =>
    obtain ⟨-, heq⟩ := Option.ite_none_right_eq_some.1 h
    cases heq
    rfl
  | update model job => exact (artifacts_commit h).trans (List.append_nil _)

theorem succeeds_eq_some {snapshot : Option Snapshot} (h : sys.succeeds e = some snapshot) :
    (sys.step e).db.artifacts = sys.db.artifacts ++ scanModelDirectory snapshot := by
  cases e with
  | worker i e =>
    cases e with
    | proceed =>
      rw [DownloadSystem.succeeds] at h
      split at h
      next => cases h
      next w hw =>
        split at h
        next snapshot' model job hpoint =>
          obtain ⟨⟨hfree, hcommit⟩, heq⟩ := Option.ite_none_right_eq_some.1 h
          cases heq
          obtain ⟨t, ht⟩ := Option.isSome_iff_exists.1 hcommit
          have hdb : (sys.step (.worker i .proceed)).db = t := by
            simp [DownloadSystem.step, DownloadSystem.onWorker, hw, hfree, DownloadWorker.step,
              DownloadWorker.proceed, hpoint, ht]
          rw [hdb, artifacts_commit ht, DownloadWorker.pending, hpoint]
        next => cases h
    | _ => cases h
  | _ => cases h

/-- Rows come by success only. -/
theorem artifacts_step (hnone : sys.succeeds e = none) (hdelete : e ≠ .deleteModel) :
    (sys.step e).db.artifacts = sys.db.artifacts := by
  obtain heq | hcommits := step_db sys e
  · rw [heq]
  generalize (sys.step e).db = t at hcommits
  cases hcommits with
  | request hr hpoint h => exact artifacts_execute h
  | reported hw hpoint hfree h =>
    rw [artifacts_commit h, DownloadWorker.pending, hpoint]
    exact List.append_nil _
  | success hw hpoint hfree h =>
    rw [DownloadSystem.succeeds, hw] at hnone
    simp [hpoint, hfree, h] at hnone
  | error hw hpoint hfree h =>
    rw [artifacts_commit h, DownloadWorker.pending, hpoint]
    exact List.append_nil _
  | deleteModel => exact (hdelete rfl).elim

namespace Downloaded

theorem oneRowEach_scan {snapshot : Option Snapshot}
    (h : d.sys.db.artifacts = scanModelDirectory snapshot) (hsnapshot : d.snapshot = snapshot) :
    d.OneRowEach where
  once := h ▸ nodup_scanModelDirectory snapshot
  files path := by rw [h, hsnapshot, mem_scanModelDirectory]

/-- Rows there were before are doubled, or of no file of the snapshot. -/
theorem OneRowEach.eq_nil {snapshot : Option Snapshot} {before : List ModelArtifact}
    (H : d.OneRowEach) (h : d.sys.db.artifacts = before ++ scanModelDirectory snapshot)
    (hsnapshot : d.snapshot = snapshot) : before = [] := by
  cases before with
  | nil => rfl
  | cons a before =>
    have honce := H.once
    rw [h, List.map_append] at honce
    have hfile : IsArtifactFile snapshot a.path := by
      rw [← hsnapshot, ← H.files, h]
      exact List.mem_map_of_mem (List.mem_append_left _ List.mem_cons_self)
    have hscanned := mem_scanModelDirectory.2 hfile
    exact (List.disjoint_of_nodup_append honce List.mem_cons_self hscanned).elim

theorem step_of_succeeds {snapshot : Option Snapshot} (h : d.sys.succeeds e = some snapshot) :
    (d.step e).snapshot = snapshot := by
  cases e with
  | worker i e => exact congrArg (·.getD d.snapshot) h
  | _ => cases h

theorem OneRowEach.step (H : d.OneRowEach) (hok : d.FindsNone e) : (d.step e).OneRowEach := by
  cases hsucceeds : d.sys.succeeds e with
  | some snapshot =>
    have hnone : d.sys.db.artifacts = [] := hok (hsucceeds ▸ rfl)
    apply oneRowEach_scan _ (step_of_succeeds hsucceeds)
    exact (succeeds_eq_some hsucceeds).trans (congrArg (· ++ _) hnone)
  | none =>
    by_cases hdelete : e = .deleteModel
    · subst hdelete
      exact @oneRowEach_scan _ none rfl rfl
    · have hrows : (d.step e).sys.db.artifacts = d.sys.db.artifacts :=
        artifacts_step hsucceeds hdelete
      have hsnapshot : (d.step e).snapshot = d.snapshot := by
        cases e with
        | deleteModel => exact (hdelete rfl).elim
        | worker i e => exact congrArg (·.getD d.snapshot) hsucceeds
        | _ => rfl
      constructor
      · rw [hrows]
        exact H.once
      · intro path
        rw [hrows, hsnapshot]
        exact H.files path

theorem findsNone_of_oneRowEach (h : (d.step e).OneRowEach) : d.FindsNone e := by
  intro hsome
  obtain ⟨snapshot, hsucceeds⟩ := Option.isSome_iff_exists.1 hsome
  exact h.eq_nil (succeeds_eq_some hsucceeds) (step_of_succeeds hsucceeds)

/-- The rows are those of the latest snapshot all along a run exactly if each success finds
none. -/
theorem oneRowEach_iff (es : List DownloadEvent) :
    Always Downloaded.step OneRowEach .initial es ↔
      Guarded Downloaded.step FindsNone .initial es :=
  always_iff_guarded_of_invariant (fun _ H => H) (fun _ _ H => H.step)
    (fun _ _ _ => findsNone_of_oneRowEach) (@oneRowEach_scan _ none rfl rfl)

/-- A worker that downloads a snapshot of one file. -/
def completed (i : Nat) (s : Snapshot) : List DownloadEvent :=
  [.worker i .proceed, .worker i .proceed, .worker i .downloaded, .worker i .proceed,
    .worker i .proceed, .worker i (.scanned (some s)), .worker i .proceed, .worker i .proceed,
    .worker i .proceed, .worker i .proceed]

def oneFile : Snapshot where
  root := ["snapshot".toList]
  dir := .file "model.gguf".toList (some 7) .empty
  distinct := ⟨nofun, trivial⟩

/-- A retry of a job that is still queued. -/
def retriedQueued : List DownloadEvent :=
  [.request 0 .proceed, .request 0 .proceed, .retry, .request 1 .proceed,
    .request 1 .proceed, .request 1 .proceed, .consume, .consume] ++
    completed 0 oneFile ++ completed 1 oneFile

/-- Both workers insert the row. -/
theorem not_oneRowEach_retriedQueued :
    (run Downloaded.step .initial retriedQueued).sys.db.model = some .available ∧
      (∀ w ∈ (run Downloaded.step .initial retriedQueued).sys.workers, w.hasReturned) ∧
      ¬ (run Downloaded.step .initial retriedQueued).OneRowEach := by
  refine ⟨by decide +kernel, by decide +kernel, fun h => ?_⟩
  have hrows : ((run Downloaded.step .initial retriedQueued).sys.db.artifacts.map (·.path)) =
      [["snapshot".toList, "model.gguf".toList], ["snapshot".toList, "model.gguf".toList]] := by
    decide +kernel
  have honce := h.once
  rw [hrows] at honce
  revert honce
  decide

end Downloaded

end LlmPort.Backend.Downloads
