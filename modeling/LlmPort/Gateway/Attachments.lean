import Mathlib.Algebra.Order.BigOperators.Group.List
import Mathlib.Algebra.Order.Group.Nat
import Mathlib.Algebra.Order.Ring.Nat
import LlmPort.Files.Path
import LlmPort.Gateway.SessionContext
import LlmPort.Gateway.SessionIsolation

/-!
# Chat attachments

`services/gateway/attachment_service.py` and the endpoints that upload and delete attachments or
delete a project with them. The rows are in the database and the bytes in the file store; a request
reads the one, writes the other, and ends its transaction later, while others run.
-/

namespace LlmPort.Gateway

open Files Transition

/-! ## The checks and the extraction -/

structure UploadSettings where
  /-- The set of `chat_upload_allowed_extensions`, sorted. -/
  allowedExtensions : List String
  maxFileMb : Nat
  maxAttachmentsPerSession : Nat
  maxTotalAttachmentMb : Nat
  maxPages : Nat
  /-- `chat_docling_url` is set. -/
  docling : Bool

/-- `_MB` -/
def mb : Nat := 1024 * 1024

structure AttachmentError where
  message : String
  statusCode : Nat
  deriving DecidableEq

inductive AttachmentTarget where
  | session (id : SessionUuid)
  | project (id : SessionUuid)
  deriving DecidableEq

namespace AttachmentTarget

def sessionId : AttachmentTarget → Option SessionUuid
  | session id => some id
  | project _ => none

def projectId : AttachmentTarget → Option SessionUuid
  | session _ => none
  | project id => some id

def scopeId : AttachmentTarget → SessionUuid
  | session id | project id => id

end AttachmentTarget

/-- A row of `chat_attachment`, with what the context takes from it. -/
structure StoredAttachment extends ChatAttachment where
  owner : AuthContext
  sessionId : Option SessionUuid
  projectId : Option SessionUuid
  sizeBytes : Nat
  pageCount : Option Nat

/-- `os.path.splitext(filename)[1].lower()` -/
def fileExtension (filename : String) : String :=
  let base := ((filename.toList.splitOn '/').getLast?).getD []
  let stem := base.dropWhile (· = '.')
  let ext := if '.' ∈ stem then '.' :: (stem.reverse.takeWhile (· ≠ '.')).reverse else []
  String.ofList (ext.map Char.toLower)

def plaintextExtensions : List String := [".txt", ".md", ".csv", ".json", ".html"]

def imageExtensions : List String := [".png", ".jpg", ".jpeg", ".gif", ".webp"]

structure AttachmentUpload where
  auth : AuthContext
  target : AttachmentTarget
  filename : String
  contentType : String
  bytes : ByteArray

/-- `LocalFileStore._resolve`: the path of a key below the root; `none` is a `ValueError`. -/
def storagePath (key : String) : Option (List Name) :=
  if isAbsolute key.toList ∨ dotdot ∈ pathParts key.toList then none
  else some (pathParts key.toList)

def AttachmentUpload.storageKey (u : AttachmentUpload) (fileId : String) : String :=
  s!"{u.auth.tenantId}/{uuidText u.target.scopeId}/{fileId}/{u.filename}"

/-- What is known of the text of a file. -/
structure Extraction where
  text : Option String
  status : ExtractionStatus
  pageCount : Option Nat
  truncated : Bool

/-- The extraction, given what the conversion service answers, if it does. -/
def extract (settings : UploadSettings) (u : AttachmentUpload)
    (answer : Option (String × Option Nat)) : Except AttachmentError Extraction :=
  let ext := fileExtension u.filename
  if ext ∈ imageExtensions then .ok ⟨none, .skipped, none, false⟩
  else if ext ∈ plaintextExtensions then
    match String.fromUTF8? u.bytes with
    | some text => .ok ⟨some text, .completed, none, false⟩
    | none => .ok ⟨none, .failed, none, false⟩
  else if settings.docling then
    match answer with
    | none => .ok ⟨none, .failed, none, false⟩
    | some (content, pageCount) =>
      let pages := pageCount.getD 0
      if settings.maxPages < pages then
        .ok ⟨some (content ++ s!"\n\n[Note: Only the first {settings.maxPages} of {pages} pages " ++
          "were processed. For full-document search, upload to a Knowledge Base.]"), .completed,
          pageCount, true⟩
      else .ok ⟨some content, .completed, pageCount, false⟩
  else .error ⟨s!"Cannot extract text from '{ext}' files. " ++
    "The document conversion service (Docling) is not configured. " ++
    "Please upload a plaintext file (.txt, .md, .csv, .json, .html) " ++
    "or enable the Docling service.", 400⟩

def AttachmentUpload.row (u : AttachmentUpload) (id : SessionUuid) (key : String)
    (extraction : Extraction) : StoredAttachment where
  id
  filename := u.filename
  contentType := u.contentType
  storageKey := key
  extractionStatus := extraction.status
  extractedText := extraction.text
  truncated := extraction.truncated
  owner := u.auth
  sessionId := u.target.sessionId
  projectId := u.target.projectId
  sizeBytes := u.bytes.size
  pageCount := extraction.pageCount

/-! ## The tables and the file store -/

/-- A row of `chat_project`. -/
structure ProjectRow where
  id : SessionUuid
  owner : AuthContext

/-- What the foreign keys know of a row of `chat_session`. -/
structure SessionRow where
  id : SessionUuid
  projectId : Option SessionUuid

/-- What a request does next. -/
inductive AttachmentTask where
  /-- The upload has passed its checks. -/
  | put (u : AttachmentUpload)
  /-- Its file is there. -/
  | insert (u : AttachmentUpload) (key : String)
  /-- The row to delete has been found. -/
  | removeFile (row : StoredAttachment)
  /-- Its file is gone. -/
  | deleteRow (id : SessionUuid)
  /-- The rows of the project have been read. -/
  | clearFiles (auth : AuthContext) (projectId : SessionUuid) (rows : List StoredAttachment)
  | deleteProject (auth : AuthContext) (projectId : SessionUuid)

structure ChatFiles where
  projects : List ProjectRow
  sessions : List SessionRow
  rows : List StoredAttachment
  files : List Name → Option ByteArray
  requests : Nat → Option AttachmentTask

inductive AttachmentEvent where
  | createProject (row : ProjectRow)
  | createSession (row : SessionRow)
  | upload (k : Nat) (u : AttachmentUpload)
  | deleteAttachment (k : Nat) (auth : AuthContext) (id : SessionUuid)
  | deleteProject (k : Nat) (auth : AuthContext) (id : SessionUuid)
  /-- The upload writes its file under a key with this id, or the write raises. -/
  | put (k : Nat) (fileId : String) (fails : Bool)
  /-- It inserts its row, given what the conversion service answers, or its transaction fails. -/
  | insert (k : Nat) (id : SessionUuid) (answer : Option (String × Option Nat)) (fails : Bool)
  | removeFile (k : Nat) (fails : Bool)
  | deleteRow (k : Nat) (fails : Bool)
  /-- The files of the project are deleted but those under these keys, where it raises. -/
  | clearFiles (k : Nat) (failing : List String)
  | deleteProjectRow (k : Nat) (fails : Bool)

namespace ChatFiles

variable (settings : UploadSettings) (st : ChatFiles)

def initial : ChatFiles := ⟨[], [], [], fun _ => none, fun _ => none⟩

/-- `attachment_stats` -/
def totalBytes (owner : AuthContext) : Nat :=
  ((st.rows.filter (·.owner = owner)).map (·.sizeBytes)).sum

/-- `list_attachments_for_session` -/
def ofSession (id : SessionUuid) : List StoredAttachment :=
  st.rows.filter (·.sessionId = some id)

/-- The checks of `ChatAttachmentService.upload`. -/
def checkUpload (u : AttachmentUpload) : Except AttachmentError Unit :=
  let ext := fileExtension u.filename
  if ext ∉ settings.allowedExtensions then
    .error ⟨s!"File type '{ext}' is not allowed. Allowed: " ++
      ", ".intercalate settings.allowedExtensions, 400⟩
  else if settings.maxFileMb * mb < u.bytes.size then
    .error ⟨s!"File exceeds maximum size of {settings.maxFileMb} MB.", 413⟩
  else if u.target.sessionId.any fun id =>
      settings.maxAttachmentsPerSession ≤ (st.ofSession id).length then
    .error ⟨s!"Maximum of {settings.maxAttachmentsPerSession} attachments per session reached.",
      400⟩
  else if settings.maxTotalAttachmentMb * mb < st.totalBytes u.auth + u.bytes.size then
    .error ⟨"Total attachment storage would exceed " ++
      s!"{settings.maxTotalAttachmentMb} MB.", 413⟩
  else .ok ()

/-- The foreign keys of a row are there. -/
def hasTarget : AttachmentTarget → Bool
  | .session id => st.sessions.any (·.id = id)
  | .project id => st.projects.any (·.id = id)

def setTask (k : Nat) (task : Option AttachmentTask) : ChatFiles :=
  { st with requests := Function.update st.requests k task }

def begin (k : Nat) (task : Option AttachmentTask) : ChatFiles :=
  if (st.requests k).isSome then st else st.setTask k task

def removePath (key : String) : ChatFiles :=
  match storagePath key with
  | none => st
  | some path => { st with files := Function.update st.files path none }

/-- `delete_project` of the DAO, and what the foreign keys make of it. -/
def deleteProjectOf (auth : AuthContext) (id : SessionUuid) : ChatFiles :=
  if st.projects.any fun row => row.id = id ∧ row.owner = auth then
    let gone := (st.sessions.filter (·.projectId = some id)).map (·.id)
    { st with
      projects := st.projects.filter (·.id ≠ id)
      sessions := st.sessions.filter (·.projectId ≠ some id)
      rows := st.rows.filter fun row =>
        row.projectId ≠ some id ∧ row.sessionId.all fun id => gone.all (· ≠ id) }
  else st

def step (st : ChatFiles) : AttachmentEvent → ChatFiles
  | .createProject row =>
    if st.projects.any (·.id = row.id) then st else { st with projects := st.projects ++ [row] }
  | .createSession row =>
    if st.sessions.any (·.id = row.id) then st else { st with sessions := st.sessions ++ [row] }
  | .upload k u =>
    match st.checkUpload settings u with
    | .error _ => st
    | .ok () => st.begin k (some (.put u))
  | .deleteAttachment k auth id =>
    st.begin k ((st.rows.find? fun row => row.id = id ∧ row.owner = auth).map .removeFile)
  | .deleteProject k auth id =>
    st.begin k (some (.clearFiles auth id (st.rows.filter (·.projectId = some id))))
  | .put k fileId fails =>
    match st.requests k with
    | some (.put u) =>
      let key := u.storageKey fileId
      match storagePath key with
      | none => st.setTask k none
      | some path =>
        if fails then st.setTask k none
        else { st with files := Function.update st.files path (some u.bytes) }.setTask k
          (some (.insert u key))
    | _ => st
  | .insert k id answer fails =>
    match st.requests k with
    | some (.insert u key) =>
      match extract settings u answer with
      | .error _ => st.setTask k none
      | .ok extraction =>
        if fails ∨ !st.hasTarget u.target ∨ st.rows.any (·.id = id) then st.setTask k none
        else { st with rows := st.rows ++ [u.row id key extraction] }.setTask k none
    | _ => st
  | .removeFile k fails =>
    match st.requests k with
    | some (.removeFile row) =>
      if fails then st.setTask k none
      else (st.removePath row.storageKey).setTask k (some (.deleteRow row.id))
    | _ => st
  | .deleteRow k fails =>
    match st.requests k with
    | some (.deleteRow id) =>
      if fails then st.setTask k none
      else { st with rows := st.rows.filter (·.id ≠ id) }.setTask k none
    | _ => st
  | .clearFiles k failing =>
    match st.requests k with
    | some (.clearFiles auth id rows) =>
      let keys := (rows.map (·.storageKey)).filter (· ∉ failing)
      (keys.foldl removePath st).setTask k (some (.deleteProject auth id))
    | _ => st
  | .deleteProjectRow k fails =>
    match st.requests k with
    | some (.deleteProject auth id) =>
      if fails then st.setTask k none
      else (st.deleteProjectOf auth id).setTask k none
    | _ => st

/-! ## The limits -/

variable {settings st} {e : AttachmentEvent} {es : List AttachmentEvent} {k : Nat}

structure WithinLimits (settings : UploadSettings) (st : ChatFiles) : Prop where
  total : ∀ owner, st.totalBytes owner ≤ settings.maxTotalAttachmentMb * mb
  session : ∀ id, (st.ofSession id).length ≤ settings.maxAttachmentsPerSession
  file : ∀ row ∈ st.rows, row.sizeBytes ≤ settings.maxFileMb * mb

/-- The upload has passed its checks, and its row has not been inserted. -/
def InFlight (st : ChatFiles) (k : Nat) (u : AttachmentUpload) : Prop :=
  st.requests k = some (.put u) ∨ ∃ key, st.requests k = some (.insert u key)

/-- The uploads count against one limit. -/
def Rival (u u' : AttachmentUpload) : Prop :=
  u.auth = u'.auth ∨ ∃ id, u.target.sessionId = some id ∧ u'.target.sessionId = some id

/-- An upload is checked when no other is in flight that counts against a limit of its own. -/
def OneByOne (st : ChatFiles) : AttachmentEvent → Prop
  | .upload _ u => ∀ k u', InFlight st k u' → ¬ Rival u' u
  | _ => True

/-- The checks of an upload in flight still hold, and no other counts against its limits. -/
structure Roomy (settings : UploadSettings) (st : ChatFiles) : Prop where
  limits : WithinLimits settings st
  file : ∀ k u, InFlight st k u → u.bytes.size ≤ settings.maxFileMb * mb
  total : ∀ k u, InFlight st k u →
    st.totalBytes u.auth + u.bytes.size ≤ settings.maxTotalAttachmentMb * mb
  session : ∀ k u id, InFlight st k u → u.target.sessionId = some id →
    (st.ofSession id).length < settings.maxAttachmentsPerSession
  sole : ∀ k k' u u', InFlight st k u → InFlight st k' u' → Rival u u' → k = k'

theorem Roomy.shrink {st' : ChatFiles} (h : Roomy settings st) (hrows : st'.rows.Sublist st.rows)
    (hflight : ∀ k u, InFlight st' k u → InFlight st k u) : Roomy settings st' := by
  have htotal (owner : AuthContext) : st'.totalBytes owner ≤ st.totalBytes owner :=
    ((hrows.filter _).map _).sum_le_sum fun _ _ => Nat.zero_le _
  have hsession (id : SessionUuid) : (st'.ofSession id).length ≤ (st.ofSession id).length :=
    (hrows.filter _).length_le
  refine ⟨⟨fun owner => ?_, fun id => ?_, fun row hrow => ?_⟩, fun k u hk => ?_, fun k u hk => ?_,
    fun k u id hk hid => ?_, fun k k' u u' hk hk' => ?_⟩
  · exact (htotal owner).trans (h.limits.total owner)
  · exact (hsession id).trans (h.limits.session id)
  · exact h.limits.file row (hrows.subset hrow)
  · exact h.file k u (hflight k u hk)
  · exact (Nat.add_le_add_right (htotal u.auth) _).trans (h.total k u (hflight k u hk))
  · exact (hsession id).trans_lt (h.session k u id (hflight k u hk) hid)
  · exact h.sole k k' u u' (hflight k u hk) (hflight k' u' hk')

theorem inFlight_setTask {task : Option AttachmentTask} {k' : Nat} {u : AttachmentUpload}
    (h : InFlight (st.setTask k task) k' u) :
    k' = k ∧ (task = some (.put u) ∨ ∃ key, task = some (.insert u key)) ∨
      k' ≠ k ∧ InFlight st k' u := by
  rcases eq_or_ne k' k with rfl | hne
  · simp only [InFlight, setTask, Function.update_self] at h
    exact .inl ⟨rfl, h⟩
  · simp only [InFlight, setTask, Function.update_of_ne hne] at h
    exact .inr ⟨hne, h⟩

theorem removePath_rows {key : String} : (st.removePath key).rows = st.rows := by
  unfold removePath
  split <;> rfl

theorem removePath_requests {key : String} : (st.removePath key).requests = st.requests := by
  unfold removePath
  split <;> rfl

theorem clear_rows {keys : List String} : (keys.foldl removePath st).rows = st.rows := by
  induction keys generalizing st with
  | nil => rfl
  | cons key keys ih => exact ih.trans removePath_rows

theorem clear_requests {keys : List String} :
    (keys.foldl removePath st).requests = st.requests := by
  induction keys generalizing st with
  | nil => rfl
  | cons key keys ih => exact ih.trans removePath_requests

theorem deleteProjectOf_rows {auth : AuthContext} {id : SessionUuid} :
    (st.deleteProjectOf auth id).rows.Sublist st.rows := by
  unfold deleteProjectOf
  split
  · exact List.filter_sublist
  · exact List.Sublist.refl _

theorem deleteProjectOf_requests {auth : AuthContext} {id : SessionUuid} :
    (st.deleteProjectOf auth id).requests = st.requests := by
  unfold deleteProjectOf
  split <;> rfl

/-- A task that is no upload takes the place of the request's. -/
theorem Roomy.setTask {st' : ChatFiles} {task : Option AttachmentTask} (h : Roomy settings st)
    (hrows : st'.rows.Sublist st.rows) (hrequests : st'.requests = st.requests)
    (htask : ∀ u, task ≠ some (.put u) ∧ ∀ key, task ≠ some (.insert u key)) :
    Roomy settings (st'.setTask k task) := by
  refine h.shrink hrows fun k' u hk' => ?_
  rcases inFlight_setTask hk' with ⟨-, hput | ⟨key, hinsert⟩⟩ | ⟨-, hold⟩
  · exact absurd hput (htask u).1
  · exact absurd hinsert ((htask u).2 key)
  · rwa [InFlight, hrequests] at hold

theorem Roomy.begin {task : Option AttachmentTask} (h : Roomy settings st)
    (htask : ∀ u, task ≠ some (.put u) ∧ ∀ key, task ≠ some (.insert u key)) :
    Roomy settings (st.begin k task) := by
  unfold ChatFiles.begin
  split
  · exact h
  · exact h.setTask (List.Sublist.refl _) rfl htask

theorem checkUpload_ok {u : AttachmentUpload} (h : st.checkUpload settings u = .ok ()) :
    u.bytes.size ≤ settings.maxFileMb * mb ∧
      (∀ id, u.target.sessionId = some id →
        (st.ofSession id).length < settings.maxAttachmentsPerSession) ∧
      st.totalBytes u.auth + u.bytes.size ≤ settings.maxTotalAttachmentMb * mb := by
  simp only [checkUpload] at h
  split at h
  · cases h
  · split at h
    · cases h
    next hfile =>
      split at h
      · cases h
      next hsession =>
        split at h
        · cases h
        next htotal =>
          refine ⟨Nat.le_of_not_lt hfile, fun id hid => ?_, Nat.le_of_not_lt htotal⟩
          rw [hid] at hsession
          simpa using hsession

/-- An upload that no rival is in flight with passes its checks. -/
theorem Roomy.upload {u : AttachmentUpload} (h : Roomy settings st)
    (hok : st.checkUpload settings u = .ok ())
    (halone : ∀ k u', InFlight st k u' → ¬ Rival u' u) :
    Roomy settings (st.begin k (some (.put u))) := by
  unfold ChatFiles.begin
  split
  · exact h
  · obtain ⟨hfile, hsession, htotal⟩ := checkUpload_ok hok
    have hold {k' : Nat} {u' : AttachmentUpload}
        (hk : InFlight (st.setTask k (some (.put u))) k' u') :
        k' = k ∧ u' = u ∨ InFlight st k' u' := by
      rcases inFlight_setTask hk with ⟨rfl, hput | ⟨key, hinsert⟩⟩ | ⟨-, hold⟩
      · cases hput
        exact .inl ⟨rfl, rfl⟩
      · cases hinsert
      · exact .inr hold
    refine ⟨⟨h.limits.total, h.limits.session, h.limits.file⟩, fun k' u' hk => ?_,
      fun k' u' hk => ?_, fun k' u' id hk hid => ?_, fun k₁ k₂ u₁ u₂ h₁ h₂ hrival => ?_⟩
    · rcases hold hk with ⟨-, rfl⟩ | hk
      · exact hfile
      · exact h.file k' u' hk
    · rcases hold hk with ⟨-, rfl⟩ | hk
      · exact htotal
      · exact h.total k' u' hk
    · rcases hold hk with ⟨-, rfl⟩ | hk
      · exact hsession id hid
      · exact h.session k' u' id hk hid
    · rcases hold h₁ with ⟨heq₁, rfl⟩ | hold₁
      · rcases hold h₂ with ⟨heq₂, -⟩ | hold₂
        · rw [heq₁, heq₂]
        · refine absurd ?_ (halone k₂ u₂ hold₂)
          exact hrival.imp Eq.symm fun ⟨id, hid, hid'⟩ => ⟨id, hid', hid⟩
      · rcases hold h₂ with ⟨-, rfl⟩ | hold₂
        · exact absurd hrival (halone k₁ u₁ hold₁)
        · exact h.sole k₁ k₂ u₁ u₂ hold₁ hold₂ hrival

/-- The row of an upload in flight takes the room that was checked for it. -/
theorem Roomy.insert {u : AttachmentUpload} {key : String} {row : StoredAttachment}
    (h : Roomy settings st) (hk : st.requests k = some (.insert u key))
    (howner : row.owner = u.auth) (hsession : row.sessionId = u.target.sessionId)
    (hsize : row.sizeBytes = u.bytes.size) :
    Roomy settings ({ st with rows := st.rows ++ [row] }.setTask k none) := by
  have hflight : InFlight st k u := .inr ⟨key, hk⟩
  have htotal (owner : AuthContext) :
      ({ st with rows := st.rows ++ [row] }.setTask k none).totalBytes owner =
        st.totalBytes owner + if row.owner = owner then row.sizeBytes else 0 := by
    change (((st.rows ++ [row]).filter _).map _).sum = _
    rw [List.filter_append, List.map_append, List.sum_append]
    split
    next heq => simp [totalBytes, heq]
    next hne => simp [totalBytes, hne]
  have hcount (id : SessionUuid) :
      (({ st with rows := st.rows ++ [row] }.setTask k none).ofSession id).length =
        (st.ofSession id).length + if row.sessionId = some id then 1 else 0 := by
    change ((st.rows ++ [row]).filter _).length = _
    rw [List.filter_append, List.length_append]
    split
    next heq => simp [ofSession, heq]
    next hne => simp [ofSession, hne]
  have hold {k' : Nat} {u' : AttachmentUpload}
      (hk' : InFlight ({ st with rows := st.rows ++ [row] }.setTask k none) k' u') :
      InFlight st k' u' ∧ ¬ Rival u' u := by
    rcases inFlight_setTask hk' with ⟨-, hput | ⟨key, hinsert⟩⟩ | ⟨hne, hold⟩
    · cases hput
    · cases hinsert
    · exact ⟨hold, fun hrival => hne (h.sole k' k u' u hold hflight hrival)⟩
  refine ⟨⟨fun owner => ?_, fun id => ?_, fun row' hrow' => ?_⟩, fun k' u' hk' => ?_,
    fun k' u' hk' => ?_, fun k' u' id hk' hid => ?_, fun k₁ k₂ u₁ u₂ h₁ h₂ hrival => ?_⟩
  · rw [htotal]
    split
    next heq =>
      rw [← heq, howner, hsize]
      exact h.total k u hflight
    next => exact h.limits.total owner
  · rw [hcount]
    split
    next heq => exact h.session k u id hflight (hsession ▸ heq)
    next => exact h.limits.session id
  · rcases List.mem_append.1 hrow' with hrow' | hrow'
    · exact h.limits.file row' hrow'
    · rw [List.mem_singleton.1 hrow', hsize]
      exact h.file k u hflight
  · exact h.file k' u' (hold hk').1
  · obtain ⟨hflight', hno⟩ := hold hk'
    rw [htotal, if_neg fun heq => hno (.inl (heq.symm.trans howner))]
    exact h.total k' u' hflight'
  · obtain ⟨hflight', hno⟩ := hold hk'
    rw [hcount, if_neg fun heq => hno (.inr ⟨id, hid, hsession ▸ heq⟩)]
    exact h.session k' u' id hflight' hid
  · exact h.sole k₁ k₂ u₁ u₂ (hold h₁).1 (hold h₂).1 hrival

theorem roomy_step (h : Roomy settings st) (hok : OneByOne st e) :
    Roomy settings (step settings st e) := by
  have hnone (k : Nat) : Roomy settings (st.setTask k none) :=
    h.setTask (List.Sublist.refl _) rfl fun u => ⟨by simp, by simp⟩
  cases e with
  | createProject row =>
    simp only [step]
    split <;> exact h.shrink (List.Sublist.refl _) fun _ _ hk => hk
  | createSession row =>
    simp only [step]
    split <;> exact h.shrink (List.Sublist.refl _) fun _ _ hk => hk
  | upload k u =>
    simp only [step]
    split
    next => exact h
    next hcheck => exact h.upload hcheck hok
  | deleteAttachment k auth id =>
    refine h.begin fun u => ?_
    cases st.rows.find? _ <;> simp
  | deleteProject k auth id => exact h.begin fun u => ⟨by simp, by simp⟩
  | put k fileId fails =>
    simp only [step]
    split
    next u hk =>
      split
      · exact hnone k
      · split
        · exact hnone k
        · refine h.shrink (List.Sublist.refl _) fun k' u' hk' => ?_
          rcases inFlight_setTask hk' with ⟨rfl, hput | ⟨key, hinsert⟩⟩ | ⟨-, hold⟩
          · cases hput
          · cases hinsert
            exact .inl hk
          · exact hold
    next => exact h
  | insert k id answer fails =>
    simp only [step]
    split
    next u key hk =>
      split
      · exact hnone k
      · split
        · exact hnone k
        · exact h.insert hk rfl rfl rfl
    next => exact h
  | removeFile k fails =>
    simp only [step]
    split
    · split
      · exact hnone k
      · exact h.setTask (by rw [removePath_rows]) removePath_requests fun u => ⟨by simp, by simp⟩
    · exact h
  | deleteRow k fails =>
    simp only [step]
    split
    · split
      · exact hnone k
      · exact h.setTask List.filter_sublist rfl fun u => ⟨by simp, by simp⟩
    · exact h
  | clearFiles k failing =>
    simp only [step]
    split
    · exact h.setTask (by rw [clear_rows]) clear_requests fun u => ⟨by simp, by simp⟩
    · exact h
  | deleteProjectRow k fails =>
    simp only [step]
    split
    · split
      · exact hnone k
      · exact h.setTask deleteProjectOf_rows deleteProjectOf_requests fun u => ⟨by simp, by simp⟩
    · exact h

/-- As long as each upload is checked when no other of its user or to its session is in flight, no
user ever has more than the total that is allowed, no session more attachments, and no attachment
more bytes. -/
theorem withinLimits_always (H : Guarded (step settings) OneByOne initial es) :
    Always (step settings) (WithinLimits settings) initial es := by
  refine H.always (I := Roomy settings) (fun _ _ => roomy_step) (fun _ hI => hI.limits)
    ⟨⟨fun _ => Nat.zero_le _, fun _ => Nat.zero_le _, ?_⟩, ?_, ?_, ?_, ?_⟩
  · exact fun _ hrow => by cases hrow
  · rintro k u (hk | ⟨key, hk⟩) <;> cases hk
  · rintro k u (hk | ⟨key, hk⟩) <;> cases hk
  · rintro k u id (hk | ⟨key, hk⟩) <;> cases hk
  · rintro k k' u u' (hk | ⟨key, hk⟩) <;> cases hk

def defaultUploads : UploadSettings where
  allowedExtensions := [".md", ".png"]
  maxFileMb := 10
  maxAttachmentsPerSession := 20
  maxTotalAttachmentMb := 50
  maxPages := 50
  docling := false

def picture : AttachmentUpload where
  auth := ⟨"acme", "alice"⟩
  target := .session 1
  filename := "cat.PNG"
  contentType := "image/png"
  bytes := ⟨#[137, 80, 78, 71]⟩

def oneUpload : List AttachmentEvent :=
  [.createSession ⟨1, none⟩, .upload 0 picture, .put 0 "00ff" false, .insert 0 2 none false]

theorem withinLimits_oneUpload :
    WithinLimits defaultUploads (run (step defaultUploads) initial oneUpload) ∧
      (run (step defaultUploads) initial oneUpload).totalBytes ⟨"acme", "alice"⟩ = 4 := by
  have hguard : Guarded (step defaultUploads) OneByOne initial oneUpload := by
    refine ⟨trivial, ?_, trivial, trivial, trivial⟩
    rintro k u' (hk | ⟨key, hk⟩) <;> cases hk
  exact ⟨withinLimits_always hguard oneUpload (List.prefix_refl _), by decide +kernel⟩

end ChatFiles

end LlmPort.Gateway
