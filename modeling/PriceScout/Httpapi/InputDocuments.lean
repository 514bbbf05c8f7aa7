import PriceScout.Domain
import PriceScout.Library.StoredDocuments

/-!
The document that the control plane writes of the input of an execution. A column that
holds a document gives it back as it was stored.
-/

namespace PriceScout.Httpapi.InputDocuments

open PriceScout.Domain
open PriceScout.Library.JsonDocuments
open PriceScout.Library.StoredDocuments

def monitorStatusText : MonitorStatus → String
  | .compiling => "compiling"
  | .awaitingConfirmation => "awaiting_confirmation"
  | .active => "active"
  | .needsReview => "needs_review"
  | .paused => "paused"
  | .blocked => "blocked"

def executionStateText : ExecutionState → String
  | .queued => "queued"
  | .running => "running"
  | .succeeded => "succeeded"
  | .failed => "failed"
  | .blocked => "blocked"
  | .needsReview => "needs_review"

def validationStateText : ValidationState → String
  | .candidate => "candidate"
  | .awaitingConfirmation => "awaiting_confirmation"
  | .active => "active"
  | .rejected => "rejected"

def revisionSourceText : RevisionSource → String
  | .compile => "compile"
  | .repair => "repair"
  | .manual => "manual"

/-- A pointer with `omitempty`. -/
def pointer {α : Type} (json : α → Json) (name : String) (value : Option α) :
    List (String × Json) :=
  (value.map fun a => (name, json a)).toList

/-- A string with `omitempty`. -/
def omittedText (name text : String) : List (String × Json) :=
  if text = "" then [] else [(name, .str text)]

def resultObservationJson (o : ResultObservation) : Json :=
  .obj ([("priceMinor", .int o.priceMinor), ("currency", .str o.currency),
    ("inStock", .bool o.inStock), ("title", .str o.title)] ++ omittedText "rawText" o.rawText ++
    pointer id "identity" o.identity ++ omittedText "verificationState" o.verificationState ++
    pointer .bool "conditionMatched" o.conditionMatched)

def resultArtifactJson (a : ResultArtifact) : Json :=
  .obj ([("kind", .str a.kind), ("storageKey", .str a.storageKey),
    ("contentType", .str a.contentType)] ++ omittedText "sha256" a.sha256 ++
    if a.sizeBytes = 0 then [] else [("sizeBytes", .int a.sizeBytes)])

/-- The result as `ApplyResult` marshals it for its column. -/
def resultJson (r : ExecutionResult) : Json :=
  .obj ([("status", .str r.status)] ++
    omittedText "failureClassification" r.failureClassification ++ omittedText "error" r.error ++
    omittedText "provider" r.provider ++ omittedText "traceId" r.traceId ++
    omittedText "browserSessionUrl" r.browserSessionUrl ++ pointer id "plan" r.plan ++
    pointer resultObservationJson "observation" r.observation ++
    (if r.artifacts = [] then [] else
      [("artifacts", .arr (r.artifacts.map resultArtifactJson))]) ++
    (if r.autoPromote then [("autoPromote", .bool true)] else []) ++
    pointer id "diagnostics" r.diagnostics)

section Documents

/- `jsonTime` is the text of a time. -/
variable (jsonTime : Timestamp → String)

def time (name : String) (value : Option Timestamp) : List (String × Json) :=
  pointer (fun now => .str (jsonTime now)) name value

def uuid (name : String) (value : Option UUID) : List (String × Json) :=
  pointer (fun id => .str id.string) name value

def monitorJson (m : Monitor) : Json :=
  .obj ([("id", .str m.id.string), ("url", .str m.url), ("intent", .str m.intent),
    ("intervalMinutes", .int m.intervalMinutes), ("condition", stored m.condition),
    ("status", .str (monitorStatusText m.status))] ++
    uuid "currentRevisionId" m.currentRevisionId ++
    [("conditionMatched", .bool m.conditionMatched)] ++ time jsonTime "nextRunAt" m.nextRunAt ++
    [("createdAt", .str (jsonTime m.createdAt)), ("updatedAt", .str (jsonTime m.updatedAt))])

def revisionJson (r : Revision) : Json :=
  .obj ([("id", .str r.id.string), ("monitorId", .str r.monitorId.string),
    ("generation", .int r.generation), ("plan", stored r.plan),
    ("source", .str (revisionSourceText r.source)),
    ("validationState", .str (validationStateText r.validationState))] ++
    time jsonTime "activatedAt" r.activatedAt ++ [("createdAt", .str (jsonTime r.createdAt))])

def executionJson (e : Execution) : Json :=
  .obj ([("id", .str e.id.string), ("monitorId", .str e.monitorId.string)] ++
    uuid "revisionId" e.revisionId ++ [("kind", .str e.kind.string)] ++
    pointer (fun n : Nat => .int n) "requestedGeneration" e.requestedGeneration ++
    [("attempt", .int e.attempt)] ++ uuid "recoveryOf" e.recoveryOf ++
    [("state", .str (executionStateText e.state))] ++
    pointer .str "failureClassification" e.failureClassification ++
    pointer .str "provider" e.provider ++ pointer .str "traceId" e.traceId ++
    pointer .str "browserSessionUrl" e.browserSessionUrl ++ [("input", stored e.input)] ++
    pointer (fun r => stored (resultJson r)) "result" e.result ++ pointer .str "error" e.error ++
    [("createdAt", .str (jsonTime e.createdAt))] ++ time jsonTime "startedAt" e.startedAt ++
    time jsonTime "completedAt" e.completedAt)

/-- The body of the answer to a worker that asks for its input. -/
def inputJson (input : ExecutionInput) : Json :=
  .obj ([("schemaVersion", .int input.schemaVersion),
    ("execution", executionJson jsonTime input.execution),
    ("monitor", monitorJson jsonTime input.monitor)] ++
    pointer (revisionJson jsonTime) "revision" input.revision ++
    pointer stored "plan" input.plan)

end Documents

end PriceScout.Httpapi.InputDocuments
