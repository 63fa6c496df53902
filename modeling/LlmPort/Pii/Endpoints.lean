import LlmPort.Pii.Tokenize

/-!
# The endpoints of the PII service

`web/api/pii/views.py`: what `POST /scan` reports, and what `POST /sanitize` answers in each mode
it knows and in the others.
-/

namespace LlmPort.Pii

/-- What `EngineResult.text` adds to the stretches the anonymizer replaces. -/
structure PIIApp extends PIIService where
  engineText (text : List Char) (analyzerResults : List RecognizerResult) : List Char

structure PIIScanRequest where
  text : List Char
  language : Option String
  entities : Option (List String)
  scoreThreshold : Option Score

/-- The body of a sanitize request, its mode as it was posted. -/
structure PIISanitizeRequest where
  payload : RequestPayload (List Char)
  mode : String
  language : Option String
  entities : Option (List String)
  scoreThreshold : Option Score

structure PIISanitizeResponse where
  sanitizedPayload : RequestPayload (List Char)
  entitiesFound : Nat
  piiReport : List RecognizerResult
  tokenMapping : Option (List (List Char × List Char))

inductive SanitizeReply where
  | ok (response : PIISanitizeResponse)
  | error (statusCode : Nat) (detail : String)

/-- `body.mode not in ("redact", "tokenize")` -/
def SanitizeMode.parse (mode : String) : Option SanitizeMode :=
  if mode = "redact" then some .redact
  else if mode = "tokenize" then some .tokenize
  else none

def PIISanitizeRequest.inMode (body : PIISanitizeRequest) (mode : SanitizeMode) :
    SanitizeRequest :=
  ⟨mode, body.language, body.entities, body.scoreThreshold⟩

namespace PIIApp

variable (app : PIIApp)

/-- `ScanResult.entities`; a scan has no mode, and `analyzeText` does not look at it. -/
def scan (body : PIIScanRequest) : List RecognizerResult :=
  app.analyzeText ⟨.redact, body.language, body.entities, body.scoreThreshold⟩ body.text

theorem analyzeText_valid (request : SanitizeRequest) (text : List Char) :
    ∀ r ∈ app.analyzeText request text, r.start < r.stop ∧ r.stop ≤ text.length := by
  intro r hr
  rw [PIIService.analyzeText_eq] at hr
  exact app.analyzer.findings_valid _ _ r (List.mem_filter.1 hr).1

def segment (request : SanitizeRequest) (text : List Char) : Segment where
  text := text
  results := app.analyzeText request text
  valid := app.analyzeText_valid request text

/-- `_redact_text` -/
def redactText (request : SanitizeRequest) (text : List Char) : List Char :=
  let results := app.analyzeText request text
  if results = [] then text else app.engineText text results

/-- `sanitize_payload` of the service, with the report it makes of every text walked. -/
def sanitizePayload (body : PIISanitizeRequest) (mode : SanitizeMode) : PIISanitizeResponse :=
  let request := body.inMode mode
  let report := body.payload.texts.flatMap (app.analyzeText request)
  match mode with
  | .redact =>
    ⟨body.payload.walk (m := Id) (app.redactText request), report.length, report, none⟩
  | .tokenize =>
    let result := Pii.sanitizePayload (body.payload.walk (m := Id) (app.segment request))
    ⟨result.payload, report.length, report, result.tokenMapping⟩

/-- `POST /sanitize` -/
def sanitize (body : PIISanitizeRequest) : SanitizeReply :=
  match SanitizeMode.parse body.mode with
  | none => .error 400 ("Unsupported sanitize mode '" ++ body.mode ++
      "'. Supported modes: 'redact', 'tokenize'.")
  | some mode => .ok (app.sanitizePayload body mode)

end PIIApp

variable {app : PIIApp} {body : PIISanitizeRequest}

theorem PIIApp.sanitize_known {mode : SanitizeMode} (h : SanitizeMode.parse body.mode = some mode) :
    app.sanitize body = .ok (app.sanitizePayload body mode) := by
  unfold sanitize
  rw [h]

theorem PIIApp.sanitize_unknown (h : SanitizeMode.parse body.mode = none) :
    ∃ detail, app.sanitize body = .error 400 detail := by
  unfold sanitize
  rw [h]
  exact ⟨_, rfl⟩

/-- In either mode the count is what the analyzer finds in the texts. -/
theorem PIIApp.sanitizePayload_entitiesFound (mode : SanitizeMode) :
    (app.sanitizePayload body mode).entitiesFound =
      (body.payload.texts.flatMap (app.analyzeText (body.inMode mode))).length := by
  cases mode <;> rfl

end LlmPort.Pii
