import Mathlib.Data.List.Sort
import Mathlib.Data.List.Dedup
import Mathlib.Logic.Function.Basic
import LlmPort.Backend.SystemSettings.Registry

/-!
# Updating a setting

`update_value` of `services/system_settings/service.py`: the value is stored and the running
backend is changed first, an executor applies the change, and where it fails a rollback asks the
executor again.
-/

namespace LlmPort.Backend

open Text

structure SystemSettingValue where
  valueJson : JsonObject
  updatedBy : Option Nat
  version : Nat

structure SystemSettingSecret where
  ciphertext : String
  nonce : Option String
  kekVersion : String
  updatedBy : Option Nat

inductive SystemApplyStatus where
  | pending | running | success | failed | rollbackRunning | rollbackFailed
  deriving DecidableEq

inductive SystemApplyEventResult where
  | info | success | failed

structure SystemApplyJobEvent where
  seq : Nat
  service : String
  action : String
  result : SystemApplyEventResult
  message : String

structure SystemApplyJob where
  status : SystemApplyStatus
  targetHost : String
  triggeredBy : Option Nat
  changeSetJson : JsonObject
  previousSnapshotJson : Option JsonObject
  error : Option String
  ended : Bool
  events : List SystemApplyJobEvent

/-- The settings tables, the apply jobs and the attributes of the running backend's `settings`. -/
structure SettingsState where
  values : String → Option SystemSettingValue
  secrets : String → Option SystemSettingSecret
  jobs : Nat → Option SystemApplyJob
  runtime : String → Json

/-- Fernet. Encrypting draws an initialisation vector. -/
structure SettingsCrypto where
  encrypt : Nat → String → String
  /-- `none` is an `InvalidToken`. -/
  decrypt : String → Option String
  decrypt_encrypt : ∀ iv plaintext, decrypt (encrypt iv plaintext) = some plaintext

namespace SettingsCrypto

/-- A non-sensitive preview of a secret value. -/
def mask (value : String) : String :=
  let text := value.toList
  if text.length ≤ 6 then String.ofList (List.replicate text.length '*')
  else String.ofList (text.take 2 ++ ['*', '*', '*'] ++ text.drop (text.length - 2))

end SettingsCrypto

structure ApplyAction where
  scope : SystemApplyScope
  services : List String
  changedKeys : List String

/-- What one call of an executor comes to: its messages or the text of what it raises. The number
tells the apply from the rollback. -/
abbrev ApplyExecutor := Nat → ApplyAction → String → Except String (List String)

structure ApplySummary where
  jobId : Option Nat
  applyStatus : String
  applyScope : String
  messages : List String

inductive SettingsError where
  | keyError (message : String)
  | permissionError (message : String)
  | valueError (message : String)
  | invalidToken

structure UpdateValueRequest where
  key : String
  value : Json
  actorId : Option Nat
  rootModeActive : Bool
  targetHost : String
  /-- What encrypting and creating a job draw. -/
  iv : Nat
  jobId : Nat

namespace SettingsState

variable (s : SettingsState)

def upsertValue (key : String) (valueJson : JsonObject) (updatedBy : Option Nat) : SettingsState :=
  { s with
    values := Function.update s.values key <| some
      { valueJson, updatedBy, version := (s.values key).elim 1 (·.version + 1) } }

def upsertSecret (key ciphertext : String) (nonce : Option String) (kekVersion : String)
    (updatedBy : Option Nat) : SettingsState :=
  { s with
    secrets := Function.update s.secrets key (some { ciphertext, nonce, kekVersion, updatedBy }) }

def setJob (jobId : Nat) (job : SystemApplyJob) : SettingsState :=
  { s with jobs := Function.update s.jobs jobId (some job) }

def modifyJob (jobId : Nat) (f : SystemApplyJob → SystemApplyJob) : SettingsState :=
  { s with jobs := Function.update s.jobs jobId ((s.jobs jobId).map f) }

def appendApplyEvent (jobId seq : Nat) (service action : String)
    (result : SystemApplyEventResult) (message : String) : SettingsState :=
  s.modifyJob jobId fun job =>
    { job with events := job.events ++ [{ seq, service, action, result, message }] }

def setApplyJobStatus (jobId : Nat) (status : SystemApplyStatus) (error : Option String)
    (ended : Bool) : SettingsState :=
  s.modifyJob jobId fun job => { job with status, error, ended := job.ended || ended }

/-- One event for each message of an executor. -/
def appendSteps (jobId : Nat) (service action : String) (seq : Nat) (messages : List String) :
    SettingsState :=
  (messages.zipIdx seq).foldl
    (fun s (message, seq) => s.appendApplyEvent jobId seq service action .success message) s

end SettingsState

structure SystemSettingsService where
  registry : List SettingDefinition
  mapping : RuntimeMapping
  crypto : SettingsCrypto
  localExecutor : ApplyExecutor
  agentExecutor : ApplyExecutor
  agentEnabled : Bool
  /-- `str(value)` of values that are no strings. -/
  repr : Json → String

namespace SystemSettingsService

variable (svc : SystemSettingsService)

/-- The entry of one setting in `list_values`. -/
def listValue (s : SettingsState) (defn : SettingDefinition) : Option Json :=
  if defn.isSecret then
    match s.secrets defn.key with
    | none => some (.object
        [("configured", .bool false), ("masked", .string ""), ("is_secret", .bool true)])
    | some secret => (svc.crypto.decrypt secret.ciphertext).map fun plain => .object
        [("configured", .bool true), ("masked", .string (SettingsCrypto.mask plain)),
          ("is_secret", .bool true)]
  else
    let value := match s.values defn.key with
      | some row => (row.valueJson.lookup "value").getD defn.default
      | none => defn.default
    some (.object [("value", value), ("is_secret", .bool false)])

/-- Effective values with masked secret previews; `none` is a secret that does not decrypt. -/
def listValues (s : SettingsState) : Option JsonObject :=
  svc.registry.mapM fun defn => (svc.listValue s defn).map fun entry => (defn.key, entry)

def applyRuntimeOverride (key : String) (value : Json) (s : SettingsState) : SettingsState :=
  match svc.mapping.resolveRuntimeAttr key with
  | none => s
  | some attr => { s with runtime := Function.update s.runtime attr value }

def str : Json → String
  | .string text => text
  | value => svc.repr value

/-- The definition of a key and the value it takes. -/
def checked (req : UpdateValueRequest) : Except SettingsError (SettingDefinition × Json) :=
  match svc.registry.reverse.find? (·.key = req.key) with
  | none => .error (.keyError ("Unknown setting key: " ++ req.key))
  | some defn =>
    if defn.protect && !req.rootModeActive then
      .error (.permissionError ("Setting '" ++ req.key ++ "' requires active root mode."))
    else match validateValue defn req.value with
      | .error message => .error (.valueError message)
      | .ok validated => .ok (defn, validated)

/-- The row that `update_value` writes. -/
def written (req : UpdateValueRequest) (defn : SettingDefinition) (validated : Json)
    (s : SettingsState) : SettingsState :=
  if defn.isSecret then
    s.upsertSecret req.key (svc.crypto.encrypt req.iv (svc.str validated)) none "v1" req.actorId
  else s.upsertValue req.key [("value", validated)] req.actorId

/-- The row and the override as `update_value` leaves them before anything is applied. -/
def stored (req : UpdateValueRequest) (defn : SettingDefinition) (validated : Json)
    (s : SettingsState) : SettingsState :=
  svc.applyRuntimeOverride req.key validated (svc.written req defn validated s)

/-- One use of the executor for a host. -/
def execute (call : Nat) (action : ApplyAction) (targetHost : String) :
    Except String (List String) :=
  if targetHost = "local" then svc.localExecutor call action targetHost
  else if svc.agentEnabled then svc.agentExecutor call action targetHost
  else .error "Remote target requested but agent execution is disabled."

/-- Run best-effort rollback for failed non-live apply actions. -/
def attemptRollback (jobId seqStart : Nat) (action : ApplyAction) (targetHost reason : String)
    (s : SettingsState) : SettingsState × Bool :=
  let s := s.appendApplyEvent jobId seqStart "rollback" "rollback.start" .info
    ("Rollback started after failure: " ++ reason)
  let seq := seqStart + 1
  if (s.jobs jobId).isNone then (s, false)
  else
    let s := s.setApplyJobStatus jobId .rollbackRunning none false
    if targetHost ≠ "local" ∧ svc.agentEnabled = false then
      (s.appendApplyEvent jobId seq "rollback" "rollback.skipped" .failed
        "Rollback skipped: agent execution disabled for remote target.", false)
    else match svc.execute 1 action targetHost with
      | .ok messages =>
        ((s.appendSteps jobId "rollback" "rollback.step" seq messages).appendApplyEvent jobId
          (seq + messages.length) "rollback" "rollback.done" .success "Rollback completed.", true)
      | .error message =>
        (s.appendApplyEvent jobId seq "rollback" "rollback.failed" .failed message, false)

/-- The action for changed settings. -/
def actionOf (defs : List SettingDefinition) : ApplyAction where
  scope := if defs.any (·.applyScope = .stackRecreate) then .stackRecreate else .serviceRestart
  services := (defs.flatMap (·.serviceTargets)).dedup.insertionSort (· ≤ ·)
  changedKeys := defs.map (·.key)

/-- The job of an action. -/
def newJob (action : ApplyAction) (req : UpdateValueRequest) (snapshot : JsonObject) :
    SystemApplyJob where
  status := .pending
  targetHost := req.targetHost
  triggeredBy := req.actorId
  changeSetJson := [("scope", .string action.scope.value),
    ("services", .array (action.services.map .string)),
    ("changed_keys", .array (action.changedKeys.map .string))]
  previousSnapshotJson := some snapshot
  error := none
  ended := false
  events := []

def runApplyForKeys (defs : List SettingDefinition) (req : UpdateValueRequest)
    (s : SettingsState) : SettingsState × Except SettingsError ApplySummary :=
  let action := actionOf defs
  match svc.listValues s with
  | none => (s, .error .invalidToken)
  | some snapshot =>
    let s := s.setJob req.jobId (newJob action req snapshot)
    let s := s.appendApplyEvent req.jobId 1 "system" "apply.start" .info
      ("Starting apply for scope=" ++ action.scope.value)
    let s := s.setApplyJobStatus req.jobId .running none false
    match svc.execute 0 action req.targetHost with
    | .ok messages =>
      let s := s.appendSteps req.jobId "executor" "apply.step" 2 messages
      (s.setApplyJobStatus req.jobId .success none true,
        .ok ⟨some req.jobId, "success", action.scope.value, messages⟩)
    | .error reason =>
      let s := s.appendApplyEvent req.jobId 2 "executor" "apply.failed" .failed reason
      let (s, rollbackOk) := svc.attemptRollback req.jobId 3 action req.targetHost reason s
      (s.setApplyJobStatus req.jobId (if rollbackOk then .failed else .rollbackFailed)
          (some reason) true,
        .ok ⟨some req.jobId, "failed", action.scope.value, [reason, "Rollback attempted."]⟩)

/-- Update one setting and execute immediate apply semantics. -/
def updateValue (req : UpdateValueRequest) (s : SettingsState) :
    SettingsState × Except SettingsError ApplySummary :=
  match svc.checked req with
  | .error e => (s, .error e)
  | .ok (defn, validated) =>
    let s := svc.stored req defn validated s
    if defn.applyScope = .liveReload then
      (s, .ok ⟨none, "success", defn.applyScope.value,
        ["Applied " ++ req.key ++ " as live reload setting."]⟩)
    else svc.runApplyForKeys [defn] req s

end SystemSettingsService

/-! ## What an apply leaves alone -/

/-- The stored settings, the secrets in plain text and the runtime attributes. -/
structure SameSettings (crypto : SettingsCrypto) (s t : SettingsState) : Prop where
  value : ∀ key, (t.values key).map (·.valueJson) = (s.values key).map (·.valueJson)
  secret : ∀ key, (t.secrets key).map (crypto.decrypt ·.ciphertext) =
    (s.secrets key).map (crypto.decrypt ·.ciphertext)
  override : ∀ attr, t.runtime attr = s.runtime attr

/-- Only jobs differ, and no job has another snapshot. -/
structure OnlyJobs (s t : SettingsState) : Prop where
  values : t.values = s.values
  secrets : t.secrets = s.secrets
  runtime : t.runtime = s.runtime
  snapshot : ∀ id, (t.jobs id).map (·.previousSnapshotJson) =
    (s.jobs id).map (·.previousSnapshotJson)

section
variable {s t u : SettingsState} {jobId : Nat} {f : SystemApplyJob → SystemApplyJob}

theorem OnlyJobs.refl : OnlyJobs s s := ⟨rfl, rfl, rfl, fun _ => rfl⟩

theorem OnlyJobs.trans (h : OnlyJobs s t) (h' : OnlyJobs t u) : OnlyJobs s u where
  values := h'.values.trans h.values
  secrets := h'.secrets.trans h.secrets
  runtime := h'.runtime.trans h.runtime
  snapshot id := (h'.snapshot id).trans (h.snapshot id)

theorem OnlyJobs.modifyJob (h : OnlyJobs s t)
    (hf : ∀ job, (f job).previousSnapshotJson = job.previousSnapshotJson) :
    OnlyJobs s (t.modifyJob jobId f) where
  values := h.values
  secrets := h.secrets
  runtime := h.runtime
  snapshot id := by
    rw [← h.snapshot id]
    by_cases hid : id = jobId
    · subst hid
      simp only [SettingsState.modifyJob, Function.update_self, Option.map_map]
      exact congrArg (Option.map · (t.jobs id)) (funext hf)
    · simp only [SettingsState.modifyJob, Function.update_of_ne hid]

theorem OnlyJobs.appendApplyEvent {seq : Nat} {service action : String}
    {result : SystemApplyEventResult} {message : String} (h : OnlyJobs s t) :
    OnlyJobs s (t.appendApplyEvent jobId seq service action result message) :=
  h.modifyJob fun _ => rfl

theorem OnlyJobs.setApplyJobStatus {status : SystemApplyStatus} {error : Option String}
    {ended : Bool} (h : OnlyJobs s t) :
    OnlyJobs s (t.setApplyJobStatus jobId status error ended) :=
  h.modifyJob fun _ => rfl

theorem OnlyJobs.appendSteps {seq : Nat} {service action : String} {messages : List String}
    (h : OnlyJobs s t) : OnlyJobs s (t.appendSteps jobId service action seq messages) := by
  induction messages generalizing t seq with
  | nil => exact h
  | cons message messages ih => exact ih h.appendApplyEvent

variable {svc : SystemSettingsService} {req : UpdateValueRequest} {defn : SettingDefinition}
  {validated : Json}

theorem OnlyJobs.attemptRollback {jobId seqStart : Nat} {action : ApplyAction}
    {targetHost reason : String} (h : OnlyJobs s t) :
    OnlyJobs s (svc.attemptRollback jobId seqStart action targetHost reason t).1 := by
  unfold SystemSettingsService.attemptRollback
  dsimp only
  split
  next => exact h.appendApplyEvent
  next =>
    split
    next => exact h.appendApplyEvent.setApplyJobStatus.appendApplyEvent
    next =>
      split
      next => exact h.appendApplyEvent.setApplyJobStatus.appendSteps.appendApplyEvent
      next => exact h.appendApplyEvent.setApplyJobStatus.appendApplyEvent

/-- An apply reads the settings once, for the job's snapshot. -/
theorem runApplyForKeys_ok {defs : List SettingDefinition} {summary : ApplySummary}
    (h : svc.runApplyForKeys defs req s = (t, .ok summary)) :
    ∃ snapshot, svc.listValues s = some snapshot ∧
      OnlyJobs (s.setJob req.jobId (SystemSettingsService.newJob
        (SystemSettingsService.actionOf defs) req snapshot)) t := by
  unfold SystemSettingsService.runApplyForKeys at h
  dsimp only at h
  split at h
  next => cases h
  next snapshot hsnapshot =>
    refine ⟨snapshot, hsnapshot, ?_⟩
    split at h
    next =>
      cases h
      exact OnlyJobs.refl.appendApplyEvent.setApplyJobStatus.appendSteps.setApplyJobStatus
    next =>
      cases h
      apply OnlyJobs.setApplyJobStatus
      apply OnlyJobs.attemptRollback
      exact OnlyJobs.refl.appendApplyEvent.setApplyJobStatus.appendApplyEvent

theorem listValue_congr (h : SameSettings svc.crypto s t) :
    svc.listValue t defn = svc.listValue s defn := by
  unfold SystemSettingsService.listValue
  have hvalue := h.value defn.key
  have hsecret := h.secret defn.key
  split
  next =>
    cases hs : s.secrets defn.key <;> cases ht : t.secrets defn.key <;>
      simp_all
  next =>
    cases hs : s.values defn.key <;> cases ht : t.values defn.key <;>
      simp_all

theorem listValues_congr (h : SameSettings svc.crypto s t) :
    svc.listValues t = svc.listValues s := by
  unfold SystemSettingsService.listValues
  congr
  funext defn
  rw [listValue_congr h]

/-- The setting is stored with a value already, and the running backend has it. -/
structure AlreadySet (svc : SystemSettingsService) (key : String) (defn : SettingDefinition)
    (validated : Json) (s : SettingsState) : Prop where
  secret : defn.isSecret → (s.secrets key).map (svc.crypto.decrypt ·.ciphertext) =
    some (some (svc.str validated))
  value : defn.isSecret = false →
    (s.values key).map (·.valueJson) = some [("value", validated)]
  override : ∀ attr, svc.mapping.resolveRuntimeAttr key = some attr → s.runtime attr = validated

@[simp] theorem values_applyRuntimeOverride (key : String) :
    (svc.applyRuntimeOverride key validated s).values = s.values := by
  unfold SystemSettingsService.applyRuntimeOverride
  split <;> rfl

@[simp] theorem secrets_applyRuntimeOverride (key : String) :
    (svc.applyRuntimeOverride key validated s).secrets = s.secrets := by
  unfold SystemSettingsService.applyRuntimeOverride
  split <;> rfl

theorem stored_runtime (attr : String) :
    (svc.stored req defn validated s).runtime attr =
      if svc.mapping.resolveRuntimeAttr req.key = some attr then validated
      else s.runtime attr := by
  have hwritten : (svc.written req defn validated s).runtime = s.runtime := by
    unfold SystemSettingsService.written
    split <;> rfl
  unfold SystemSettingsService.stored SystemSettingsService.applyRuntimeOverride
  split
  next hattr => rw [hattr, if_neg (by simp), hwritten]
  next own hattr =>
    rw [hattr]
    by_cases h : attr = own
    · rw [h, if_pos rfl]
      exact Function.update_self _ _ _
    · rw [if_neg fun heq => h (Option.some.inj heq).symm, ← hwritten]
      exact Function.update_of_ne h _ _

theorem stored_value (key : String) :
    ((svc.stored req defn validated s).values key).map (·.valueJson) =
      if defn.isSecret = false ∧ key = req.key then some [("value", validated)]
      else (s.values key).map (·.valueJson) := by
  rw [SystemSettingsService.stored, values_applyRuntimeOverride, SystemSettingsService.written]
  cases hsecret : defn.isSecret with
  | true => simp [SettingsState.upsertSecret]
  | false =>
    by_cases hkey : key = req.key
    · simp [SettingsState.upsertValue, hkey]
    · simp [SettingsState.upsertValue, hkey]

theorem stored_secret (key : String) :
    ((svc.stored req defn validated s).secrets key).map (svc.crypto.decrypt ·.ciphertext) =
      if defn.isSecret ∧ key = req.key then some (some (svc.str validated))
      else (s.secrets key).map (svc.crypto.decrypt ·.ciphertext) := by
  rw [SystemSettingsService.stored, secrets_applyRuntimeOverride, SystemSettingsService.written]
  cases hsecret : defn.isSecret with
  | false => simp [SettingsState.upsertValue]
  | true =>
    by_cases hkey : key = req.key
    · simp [SettingsState.upsertSecret, hkey, svc.crypto.decrypt_encrypt]
    · simp [SettingsState.upsertSecret, hkey]

/-- Storing a value changes nothing exactly where it is there already. -/
theorem sameSettings_stored_iff :
    SameSettings svc.crypto s (svc.stored req defn validated s) ↔
      AlreadySet svc req.key defn validated s := by
  constructor
  · intro h
    refine ⟨fun hsecret => ?_, fun hsecret => ?_, fun attr hattr => ?_⟩
    · rw [← h.secret, stored_secret, if_pos ⟨hsecret, rfl⟩]
    · rw [← h.value, stored_value, if_pos ⟨hsecret, rfl⟩]
    · rw [← h.override, stored_runtime, if_pos hattr]
  · intro h
    refine ⟨fun key => ?_, fun key => ?_, fun attr => ?_⟩
    · rw [stored_value]
      split
      next hkey => rw [hkey.2, h.value hkey.1]
      next => rfl
    · rw [stored_secret]
      split
      next hkey => rw [hkey.2, h.secret hkey.1]
      next => rfl
    · rw [stored_runtime]
      split
      next hattr => exact (h.override attr hattr).symm
      next => rfl

theorem SameSettings.of_onlyJobs {crypto : SettingsCrypto} (h : OnlyJobs t u) :
    SameSettings crypto s u ↔ SameSettings crypto s t := by
  constructor
  · intro hs
    exact ⟨fun key => h.values ▸ hs.value key, fun key => h.secrets ▸ hs.secret key,
      fun attr => h.runtime ▸ hs.override attr⟩
  · intro hs
    exact ⟨fun key => h.values.symm ▸ hs.value key, fun key => h.secrets.symm ▸ hs.secret key,
      fun attr => h.runtime.symm ▸ hs.override attr⟩

/-- The settings are as before a call, and its job's snapshot is of them. -/
structure RolledBack (svc : SystemSettingsService) (s t : SettingsState) (job : SystemApplyJob) :
    Prop where
  settings : SameSettings svc.crypto s t
  snapshot : job.previousSnapshotJson = svc.listValues s

/-- After an apply that failed, whatever became of its rollback, the settings are those from before
exactly where the new value was there already. -/
theorem rolledBack_iff (svc : SystemSettingsService) (req : UpdateValueRequest)
    (s t : SettingsState) (defn : SettingDefinition) (validated : Json) (summary : ApplySummary)
    (job : SystemApplyJob) (hchecked : svc.checked req = .ok (defn, validated))
    (h : svc.updateValue req s = (t, .ok summary)) (hfailed : summary.applyStatus = "failed")
    (hjob : t.jobs req.jobId = some job) :
    RolledBack svc s t job ↔ AlreadySet svc req.key defn validated s := by
  unfold SystemSettingsService.updateValue at h
  rw [hchecked] at h
  dsimp only at h
  split at h
  next =>
    cases h
    simp at hfailed
  next =>
    obtain ⟨snapshot, hsnapshot, hjobs⟩ := runApplyForKeys_ok h
    have hsame : SameSettings svc.crypto s t ↔
        SameSettings svc.crypto s (svc.stored req defn validated s) :=
      (SameSettings.of_onlyJobs hjobs).trans ⟨fun hs => ⟨hs.1, hs.2, hs.3⟩,
        fun hs => ⟨hs.1, hs.2, hs.3⟩⟩
    have hprevious : job.previousSnapshotJson = some snapshot := by
      have hid := hjobs.snapshot req.jobId
      simp only [hjob, SettingsState.setJob, Function.update_self, Option.map_some] at hid
      exact Option.some.inj hid
    constructor
    · intro hrolled
      exact sameSettings_stored_iff.1 (hsame.1 hrolled.settings)
    · intro hset
      have hstored := sameSettings_stored_iff.2 hset
      refine ⟨hsame.2 hstored, ?_⟩
      rw [hprevious, ← hsnapshot, listValues_congr hstored]

end

/-! ## An apply that fails once -/

/-- A backend whose executor cannot restart a service at first. -/
def restartsLate : SystemSettingsService where
  registry := settingsRegistry
  mapping := runtimeMapping
  crypto := ⟨fun _ plaintext => plaintext, some, fun _ _ => rfl⟩
  localExecutor call action _ :=
    if call = 0 then .error "restart failed"
    else .ok (action.services.map ("Restarted service container: " ++ · ++ "."))
  agentExecutor _ _ _ := .error "Remote agent execution is not enabled in this environment."
  agentEnabled := false
  repr _ := ""

/-- PII detection off, or stored as switched on. -/
def piiState (row : Option SystemSettingValue) (enabled : Bool) : SettingsState where
  values key := if key = "llm_port_api.pii_enabled" then row else none
  secrets _ := none
  jobs _ := none
  runtime attr := if attr = "pii_enabled" then .bool enabled else .null

def enablePii : UpdateValueRequest :=
  ⟨"llm_port_api.pii_enabled", .bool true, none, false, "local", 0, 0⟩

theorem rolledBack_storedTwice :
    ∃ t summary job,
      restartsLate.updateValue enablePii
        (piiState (some ⟨[("value", .bool true)], none, 1⟩) true) = (t, .ok summary) ∧
      t.jobs 0 = some job ∧ job.status = .failed ∧
      RolledBack restartsLate (piiState (some ⟨[("value", .bool true)], none, 1⟩) true) t job :=
  ⟨_, _, _, rfl, rfl, rfl, (rolledBack_iff restartsLate enablePii _ _
    ⟨"llm_port_api.pii_enabled", .bool, false, .bool false, .serviceRestart, ["llm-port-api"], false,
      []⟩ (.bool true) _ _ rfl rfl rfl rfl).2
    ⟨(by simp), fun _ => rfl, fun _ hattr => by cases hattr; rfl⟩⟩

/-- The new value and the override stay, and the job's snapshot shows them. -/
theorem not_rolledBack_enablePii :
    ∃ t summary job, restartsLate.updateValue enablePii (piiState none false) = (t, .ok summary) ∧
      summary.applyStatus = "failed" ∧ t.jobs 0 = some job ∧ job.status = .failed ∧
      job.events.map (·.action) =
        ["apply.start", "apply.failed", "rollback.start", "rollback.step", "rollback.done"] ∧
      (t.values "llm_port_api.pii_enabled").map (·.valueJson) = some [("value", .bool true)] ∧
      t.runtime "pii_enabled" = .bool true ∧
      ¬ RolledBack restartsLate (piiState none false) t job := by
  refine ⟨_, _, _, rfl, rfl, rfl, rfl, rfl, rfl, rfl, ?_⟩
  intro h
  have hoverride := h.settings.override "pii_enabled"
  cases hoverride

end LlmPort.Backend
