import PriceScout.Httpapi.Conditions
import PriceScout.Store.Operations

/-!
The HTTP API: each request is decoded and validated, and then makes at most one
call of the store.
-/

namespace PriceScout.Httpapi.Handlers

open PriceScout.Domain
open PriceScout.Httpapi.Conditions
open PriceScout.Library.GoStrings
open PriceScout.Library.JsonDocuments
open PriceScout.Library.Runs
open PriceScout.Library.StoredDocuments
open PriceScout.Store.Alerts
open PriceScout.Store.Executions
open PriceScout.Store.Monitors
open PriceScout.Store.Operations
open PriceScout.Store.Outbox
open PriceScout.Store.Recovery
open PriceScout.Store.Schema

/-- A server: its settings, the validator of monitored URLs, and the parser of
UUIDs, which accepts more than their canonical texts. -/
structure Server where
  minInterval : Int
  defaultInterval : Int
  workerToken : String
  store : OpenStore
  validate : String → Except String String
  parseUUID : String → Option UUID

/-- A request body: text that does not start with a JSON value, or a value with
the number of bytes up to its end and whether anything but white space within
the limit of a body follows. -/
inductive Body where
  | malformed
  | document (value : Json) (bytes : Nat) (trailing : Bool)

/-- The body of a response. The message of a body that does not decode goes on
with the text of the decoder. -/
inductive Content where
  | error (message : String)
  | invalidJSON
  | created (monitor : Monitor) (execution : Execution)
  | monitor (monitor : Monitor)
  | check (execution : Execution) (created : Bool)
  | input (input : ExecutionInput)
  | result (execution : Execution) (accepted : Bool)

structure Response where
  status : Nat
  content : Content

def writeError (status : Nat) (message : String) : Response where
  status := status
  content := .error message

def maxBytes : Nat :=
  2 ^ 20

def decodeJSON {α : Type} (fields : List (Json.Field α)) (zero : α) : Body → Except Response α
  | .malformed => .error ⟨400, .invalidJSON⟩
  | .document value bytes trailing =>
      if maxBytes < bytes then .error ⟨400, .invalidJSON⟩
      else match Json.decodeStruct fields zero value with
        | none => .error ⟨400, .invalidJSON⟩
        | some body =>
            if trailing then .error (writeError 400 "request body must contain one JSON object")
            else .ok body

def pathUUID (s : Server) (raw name : String) : Except Response UUID :=
  match s.parseUUID raw with
  | some id => .ok id
  | none => .error (writeError 400 (name ++ " must be a UUID"))

def internalError : Response :=
  writeError 500 "internal server error"

def storeError : StoreError → Response
  | .notFound => writeError 404 "resource not found"
  | .conflict => writeError 409 "resource state does not allow this operation"
  | _ => internalError

/-- Call the store and answer with what it returns. -/
def answer {α : Type} (refuse : StoreError → Response) (reply : α → Response)
    (transaction : Database → Except StoreError (α × Database)) (db : Database) :
    Except Response (Response × Database) :=
  match transaction db with
  | .ok (a, db') => .ok (reply a, db')
  | .error e => .error (refuse e)

theorem commit_answer {α : Type} (refuse : StoreError → Response) (reply : α → Response)
    (transaction : Database → Except StoreError (α × Database)) (db : Database) :
    commit (answer refuse reply transaction) db = commit transaction db := by
  unfold commit answer
  cases transaction db <;> rfl

/-- A field that keeps a part of the body as it is. -/
def assignRaw (value : Json) : Option (Option Json) :=
  some (some value)

/-- A field of type `uuid.UUID`: `null` leaves it as it is. -/
def assignUUID (s : Server) (current : UUID) : Json → Option UUID
  | .null => some current
  | .str text => s.parseUUID text
  | _ => none

structure CreateBody where
  url : String
  intent : String
  intervalMinutes : Int

def createFields : List (Json.Field CreateBody) :=
  [⟨"url", fun body value => (Json.assignString body.url value).map ({ body with url := · })⟩,
   ⟨"intent", fun body value =>
      (Json.assignString body.intent value).map ({ body with intent := · })⟩,
   ⟨"intervalMinutes", fun body value =>
      (Json.assignInt64 body.intervalMinutes value).map ({ body with intervalMinutes := · })⟩]

def maxInterval : Int :=
  525600

def createParams (s : Server) (traceparent : String) (body : Body) :
    Except Response CreateMonitorParams := do
  let body ← decodeJSON createFields ⟨"", "", 0⟩ body
  if trimSpace body.intent = "" ∨ 2000 < byteLength body.intent then
    throw (writeError 400 "intent must contain 1 to 2000 characters")
  match s.validate body.url with
  | .error message => throw (writeError 400 message)
  | .ok canonicalURL => do
      let intervalMinutes :=
        if body.intervalMinutes = 0 then s.defaultInterval else body.intervalMinutes
      if intervalMinutes < s.minInterval ∨ maxInterval < intervalMinutes then
        throw (writeError 400
          ("intervalMinutes must be between " ++ toString s.minInterval ++ " and 525600"))
      return { url := canonicalURL, intent := trimSpace body.intent, intervalMinutes, traceparent }

structure ConfirmBody where
  revisionId : UUID
  condition : Option Json

def confirmFields (s : Server) : List (Json.Field ConfirmBody) :=
  [⟨"revisionId", fun body value =>
      (assignUUID s body.revisionId value).map ({ body with revisionId := · })⟩,
   ⟨"condition", fun body value => (assignRaw value).map ({ body with condition := · })⟩]

/-- A condition that a body may leave out. -/
def checkCondition : Option Json → Except Response Unit
  | none => .ok ()
  | some condition =>
      match validatePriceCondition condition with
      | .ok () => .ok ()
      | .error message => .error (writeError 400 message)

/-- The condition goes into a `jsonb` column and is read back from there. -/
def confirmParams (s : Server) (monitorID : String) (body : Body) :
    Except Response (UUID × ConfirmMonitorParams) := do
  let monitorID ← pathUUID s monitorID "monitorID"
  let body ← decodeJSON (confirmFields s) ⟨⟨0⟩, none⟩ body
  if body.revisionId = ⟨0⟩ ∨ validJSONObject body.condition = false then
    throw (writeError 400 "revisionId and a JSON object condition are required")
  checkCondition body.condition
  return (monitorID, ⟨body.revisionId, body.condition.map stored⟩)

structure PatchBody where
  intervalMinutes : Option Int
  condition : Option Json
  action : String

def patchFields : List (Json.Field PatchBody) :=
  [⟨"intervalMinutes", fun body value =>
      (Json.assignInt64Ptr body.intervalMinutes value).map ({ body with intervalMinutes := · })⟩,
   ⟨"condition", fun body value => (assignRaw value).map ({ body with condition := · })⟩,
   ⟨"action", fun body value =>
      (Json.assignString body.action value).map ({ body with action := · })⟩]

def patchAction : String → PatchAction
  | "pause" => .pause
  | "resume" => .resume
  | "" => .none
  | name => .unsupported name

def patchParams (s : Server) (monitorID : String) (body : Body) :
    Except Response (UUID × PatchMonitorParams) := do
  let monitorID ← pathUUID s monitorID "monitorID"
  let body ← decodeJSON patchFields ⟨none, none, ""⟩ body
  if body.intervalMinutes.any fun minutes =>
      decide (minutes < s.minInterval) || decide (maxInterval < minutes) then
    throw (writeError 400 "intervalMinutes is outside the allowed range")
  if body.condition.isSome ∧ validJSONObject body.condition = false then
    throw (writeError 400 "condition must be a JSON object")
  checkCondition body.condition
  return (monitorID,
    ⟨body.intervalMinutes, body.condition.map stored, patchAction body.action⟩)

def checkParams (s : Server) (monitorID idempotencyKey : String) :
    Except Response (UUID × String) := do
  let monitorID ← pathUUID s monitorID "monitorID"
  let idempotencyKey := trimSpace idempotencyKey
  if idempotencyKey = "" ∨ 200 < byteLength idempotencyKey then
    throw (writeError 400
      "Idempotency-Key header is required and must be at most 200 characters")
  return (monitorID, idempotencyKey)

def reviewParams (s : Server) (monitorID revisionID : String) : Except Response (UUID × UUID) := do
  let monitorID ← pathUUID s monitorID "monitorID"
  let revisionID ← pathUUID s revisionID "revisionID"
  return (monitorID, revisionID)

def workerAuthentication (s : Server) (received : String) : Except Response Unit :=
  if received = s.workerToken then .ok () else .error (writeError 401 "invalid worker token")

def observationFields : List (Json.Field ResultObservation) :=
  [⟨"priceMinor", fun o value =>
      (Json.assignInt64 o.priceMinor value).map ({ o with priceMinor := · })⟩,
   ⟨"currency", fun o value => (Json.assignString o.currency value).map ({ o with currency := · })⟩,
   ⟨"inStock", fun o value => (Json.assignBool o.inStock value).map ({ o with inStock := · })⟩,
   ⟨"title", fun o value => (Json.assignString o.title value).map ({ o with title := · })⟩,
   ⟨"rawText", fun o value => (Json.assignString o.rawText value).map ({ o with rawText := · })⟩,
   ⟨"identity", fun o value => (assignRaw value).map ({ o with identity := · })⟩,
   ⟨"verificationState", fun o value =>
      (Json.assignString o.verificationState value).map ({ o with verificationState := · })⟩,
   ⟨"conditionMatched", fun o value =>
      (Json.assignBoolPtr value).map ({ o with conditionMatched := · })⟩]

def zeroObservation : ResultObservation where
  priceMinor := 0
  currency := ""
  inStock := false
  title := ""
  rawText := ""
  identity := none
  verificationState := ""
  conditionMatched := none

def artifactFields : List (Json.Field ResultArtifact) :=
  [⟨"kind", fun a value => (Json.assignString a.kind value).map ({ a with kind := · })⟩,
   ⟨"storageKey", fun a value =>
      (Json.assignString a.storageKey value).map ({ a with storageKey := · })⟩,
   ⟨"contentType", fun a value =>
      (Json.assignString a.contentType value).map ({ a with contentType := · })⟩,
   ⟨"sha256", fun a value => (Json.assignString a.sha256 value).map ({ a with sha256 := · })⟩,
   ⟨"sizeBytes", fun a value =>
      (Json.assignInt64 a.sizeBytes value).map ({ a with sizeBytes := · })⟩]

def zeroArtifact : ResultArtifact where
  kind := ""
  storageKey := ""
  contentType := ""
  sha256 := ""
  sizeBytes := 0

def resultFields : List (Json.Field ExecutionResult) :=
  [⟨"status", fun r value => (Json.assignString r.status value).map ({ r with status := · })⟩,
   ⟨"failureClassification", fun r value =>
      (Json.assignString r.failureClassification value).map
        ({ r with failureClassification := · })⟩,
   ⟨"error", fun r value => (Json.assignString r.error value).map ({ r with error := · })⟩,
   ⟨"provider", fun r value => (Json.assignString r.provider value).map ({ r with provider := · })⟩,
   ⟨"traceId", fun r value => (Json.assignString r.traceId value).map ({ r with traceId := · })⟩,
   ⟨"browserSessionUrl", fun r value =>
      (Json.assignString r.browserSessionUrl value).map ({ r with browserSessionUrl := · })⟩,
   ⟨"plan", fun r value => (assignRaw value).map ({ r with plan := · })⟩,
   ⟨"observation", fun r value =>
      (Json.assignPtr observationFields zeroObservation r.observation value).map
        ({ r with observation := · })⟩,
   ⟨"artifacts", fun r value =>
      (Json.assignSlice artifactFields zeroArtifact value).map ({ r with artifacts := · })⟩,
   ⟨"autoPromote", fun r value =>
      (Json.assignBool r.autoPromote value).map ({ r with autoPromote := · })⟩,
   ⟨"diagnostics", fun r value => (assignRaw value).map ({ r with diagnostics := · })⟩]

/-- A plan that is present is a JSON value of the body, and so is valid JSON. -/
def resultParams (s : Server) (executionID : String) (body : Body) :
    Except Response (UUID × ExecutionResult) := do
  let executionID ← pathUUID s executionID "executionID"
  let result ← decodeJSON resultFields (ExecutionResult.bare "" "") body
  return (executionID, result)

def resultError : StoreError → Response
  | .invalidResult message => writeError 400 ("invalid execution result: " ++ message)
  | e => storeError e

/-- The requests that change the store, by their routes. -/
inductive Request where
  | createMonitor (traceparent : String) (body : Body)
  | confirmMonitor (monitorID : String) (body : Body)
  | patchMonitor (monitorID : String) (body : Body)
  | enqueueCheck (monitorID idempotencyKey traceparent : String)
  | acceptRevision (monitorID revisionID : String)
  | rejectRevision (monitorID revisionID : String)
  | executionInput (workerToken executionID : String)
  | executionResult (workerToken executionID : String) (body : Body)

def reviewRevision (s : Server) (now : Timestamp) (monitorID revisionID : String) (accept : Bool)
    (db : Database) : Except Response (Response × Database) := do
  let (monitorID, revisionID) ← reviewParams s monitorID revisionID
  answer storeError (fun monitor => ⟨200, .monitor monitor⟩)
    (Store.Monitors.reviewRevision now monitorID revisionID accept) db

/-- The answer to a request and the state it leaves, or a refusal that changes nothing. -/
def handle (s : Server) (now : Timestamp) (request : Request) (db : Database) :
    Except Response (Response × Database) :=
  match request with
  | .createMonitor traceparent body => do
      let params ← createParams s traceparent body
      answer (fun _ => internalError) (fun a => ⟨202, .created a.1 a.2⟩)
        (createMonitor now params) db
  | .confirmMonitor monitorID body => do
      let (monitorID, params) ← confirmParams s monitorID body
      answer storeError (fun monitor => ⟨200, .monitor monitor⟩)
        (confirmMonitor now monitorID params) db
  | .patchMonitor monitorID body => do
      let (monitorID, params) ← patchParams s monitorID body
      answer storeError (fun monitor => ⟨200, .monitor monitor⟩)
        (patchMonitor now monitorID params) db
  | .enqueueCheck monitorID idempotencyKey traceparent => do
      let (monitorID, idempotencyKey) ← checkParams s monitorID idempotencyKey
      answer storeError (fun a => ⟨202, .check a.1 a.2⟩)
        (enqueueCheck now monitorID idempotencyKey traceparent) db
  | .acceptRevision monitorID revisionID => reviewRevision s now monitorID revisionID true db
  | .rejectRevision monitorID revisionID => reviewRevision s now monitorID revisionID false db
  | .executionInput workerToken executionID => do
      workerAuthentication s workerToken
      let executionID ← pathUUID s executionID "executionID"
      answer storeError (fun input => ⟨200, .input input⟩) (getExecutionInput now executionID) db
  | .executionResult workerToken executionID body => do
      workerAuthentication s workerToken
      let (executionID, result) ← resultParams s executionID body
      answer resultError (fun a => ⟨200, .result a.1 a.2⟩)
        (applyResult s.store now executionID result) db

/-- The call of the store that a request makes, once it is validated. -/
def Request.operation (s : Server) : Request → Except Response Operation
  | .createMonitor traceparent body => (createParams s traceparent body).map .createMonitor
  | .confirmMonitor monitorID body =>
      (confirmParams s monitorID body).map fun a => .confirmMonitor a.1 a.2
  | .patchMonitor monitorID body => (patchParams s monitorID body).map fun a =>
      .patchMonitor a.1 a.2
  | .enqueueCheck monitorID idempotencyKey traceparent =>
      (checkParams s monitorID idempotencyKey).map fun a => .enqueueCheck a.1 a.2 traceparent
  | .acceptRevision monitorID revisionID =>
      (reviewParams s monitorID revisionID).map fun a => .reviewRevision a.1 a.2 true
  | .rejectRevision monitorID revisionID =>
      (reviewParams s monitorID revisionID).map fun a => .reviewRevision a.1 a.2 false
  | .executionInput workerToken executionID => do
      workerAuthentication s workerToken
      (pathUUID s executionID "executionID").map .getExecutionInput
  | .executionResult workerToken executionID body => do
      workerAuthentication s workerToken
      (resultParams s executionID body).map fun a => .applyResult s.store a.1 a.2

/-- What runs besides the requests: the scheduler's passes and sweeps, and the
relay of the outbox. -/
inductive Task where
  | claimDueMonitors (limit : Nat) (locked : UUID → Bool)
  | sweepStaleExecutions (runningStaleAfter : Timestamp) (maxAttempts limit : Nat)
      (locked : UUID → Bool)
  | processOutbox (locked : Nat → Bool) (limit : Nat) (publish : OutboxRow → Except String Unit)
      (commits : Bool)

def Task.operation : Task → Operation
  | .claimDueMonitors limit locked => .claimDueMonitors limit locked
  | .sweepStaleExecutions runningStaleAfter maxAttempts limit locked =>
      .sweepStaleExecutions runningStaleAfter maxAttempts limit locked
  | .processOutbox locked limit publish commits => .processOutbox locked limit publish commits

/-- An event of the control plane, at the clock of the process it happens in. -/
inductive Event where
  | received (s : Server) (now : Timestamp) (request : Request)
  | ran (now : Timestamp) (task : Task)

def serve (db : Database) : Event → Database
  | .received s now request => commit (handle s now request) db
  | .ran now task => step db ⟨now, task.operation⟩

/-- The call of the store that an event makes, if it makes one. -/
def Event.call? : Event → Option Call
  | .received s now request => (request.operation s).toOption.map fun operation => ⟨now, operation⟩
  | .ran now task => some ⟨now, task.operation⟩

section Handling

variable {s : Server} {now : Timestamp} {db : Database}

/-- The state left by the call that validation lets through, if it does. -/
def called (now : Timestamp) (db : Database) : Except Response Operation → Database
  | .ok operation => step db ⟨now, operation⟩
  | .error _ => db

theorem commit_validated {α : Type} (params : Except Response α) {operation : α → Operation}
    {handler : α → Database → Except Response (Response × Database)}
    (h : ∀ a, commit (handler a) db = step db ⟨now, operation a⟩) :
    commit (fun db => params >>= fun a => handler a db) db =
      called now db (params.map operation) := by
  cases params with
  | error _ => rfl
  | ok a => exact h a

theorem commit_authenticated (workerToken : String) {operation : Except Response Operation}
    {handler : Database → Except Response (Response × Database)}
    (h : commit handler db = called now db operation) :
    commit (fun db => workerAuthentication s workerToken >>= fun _ => handler db) db =
      called now db (workerAuthentication s workerToken >>= fun _ => operation) := by
  cases workerAuthentication s workerToken with
  | error _ => rfl
  | ok _ => exact h

/-- A request that is refused changes nothing, and any other makes its one call. -/
theorem commit_handle (s : Server) (now : Timestamp) (request : Request) (db : Database) :
    commit (handle s now request) db = called now db (request.operation s) := by
  cases request with
  | createMonitor traceparent body =>
      exact commit_validated (createParams s traceparent body) fun _ => commit_answer _ _ _ db
  | confirmMonitor monitorID body =>
      exact commit_validated (confirmParams s monitorID body) fun _ => commit_answer _ _ _ db
  | patchMonitor monitorID body =>
      exact commit_validated (patchParams s monitorID body) fun _ => commit_answer _ _ _ db
  | enqueueCheck monitorID idempotencyKey traceparent =>
      exact commit_validated (checkParams s monitorID idempotencyKey)
        fun _ => commit_answer _ _ _ db
  | acceptRevision monitorID revisionID | rejectRevision monitorID revisionID =>
      exact commit_validated (reviewParams s monitorID revisionID) fun _ => commit_answer _ _ _ db
  | executionInput workerToken executionID =>
      exact commit_authenticated workerToken
        (commit_validated (pathUUID s executionID "executionID") fun _ => commit_answer _ _ _ db)
  | executionResult workerToken executionID body =>
      exact commit_authenticated workerToken
        (commit_validated (resultParams s executionID body) fun _ => commit_answer _ _ _ db)

end Handling

theorem serve_eq (db : Database) (event : Event) :
    serve db event = (event.call?.map (step db)).getD db := by
  cases event with
  | ran now task => rfl
  | received s now request =>
      refine (commit_handle s now request db).trans ?_
      simp only [Event.call?]
      cases request.operation s <;> rfl

theorem serve_of_call {db : Database} {event : Event} {call : Call} (h : event.call? = some call) :
    serve db event = step db call := by
  simp [serve_eq, h]

/-- The condition that the body of a request gives, as it is written there. -/
def Request.condition? (s : Server) : Request → Option Json
  | .confirmMonitor _ body =>
      (decodeJSON (confirmFields s) ⟨⟨0⟩, none⟩ body).toOption.bind (·.condition)
  | .patchMonitor _ body =>
      (decodeJSON patchFields ⟨none, none, ""⟩ body).toOption.bind (·.condition)
  | _ => none

def Event.condition? : Event → Option Json
  | .received s _ request => request.condition? s
  | .ran _ _ => none

/-- A condition in the form that the store gives back of one that the event
gives and that validation accepts. -/
def Validated (event : Event) (condition : Json) : Prop :=
  ∃ raw, event.condition? = some raw ∧ validJSONObject (some raw) = true ∧ Accepted raw ∧
    condition = stored raw

section Conditions

variable {s : Server} {now : Timestamp} {id : UUID} {monitorID : String} {body : Body}
  {event : Event}

theorem checkCondition_eq_ok {condition : Option Json} :
    checkCondition condition = .ok () ↔ ∀ raw ∈ condition, Accepted raw := by
  cases condition with
  | none => simp [checkCondition]
  | some raw =>
      simp only [checkCondition, Accepted, Option.mem_def, Option.some.injEq, forall_eq']
      cases validatePriceCondition raw <;> simp

theorem confirmParams_ok {params : ConfirmMonitorParams}
    (h : confirmParams s monitorID body = .ok (id, params)) :
    ∃ condition, params.condition = some condition ∧
      Validated (.received s now (.confirmMonitor monitorID body)) condition := by
  simp only [confirmParams, bind_eq_ok] at h
  obtain ⟨_, -, decoded, hdecoded, h⟩ := h
  split at h
  · exact absurd h throw_bind_ne_ok
  · rename_i hguard
    simp only [not_or, Bool.not_eq_false, bind_eq_ok, pure_eq_ok, Prod.mk.injEq] at hguard h
    obtain ⟨⟨⟩, hcheck, -, rfl⟩ := h
    cases hcondition : decoded.condition with
    | none => simp [hcondition, validJSONObject] at hguard
    | some raw =>
        refine ⟨stored raw, by simp, raw, ?_, hcondition ▸ hguard.2,
          checkCondition_eq_ok.mp hcheck raw hcondition, rfl⟩
        simp [Event.condition?, Request.condition?, hdecoded, Except.toOption, hcondition]

theorem patchParams_ok {params : PatchMonitorParams}
    (h : patchParams s monitorID body = .ok (id, params)) :
    ∀ condition ∈ params.condition,
      Validated (.received s now (.patchMonitor monitorID body)) condition := by
  simp only [patchParams, bind_eq_ok] at h
  obtain ⟨_, -, decoded, hdecoded, h⟩ := h
  split at h
  · exact absurd h throw_bind_ne_ok
  · split at h
    · exact absurd h throw_bind_ne_ok
    · rename_i hguard
      simp only [bind_eq_ok, pure_eq_ok, Prod.mk.injEq] at h
      obtain ⟨⟨⟩, hcheck, -, rfl⟩ := h
      intro condition hcondition
      obtain ⟨raw, hraw, rfl⟩ := Option.map_eq_some_iff.mp hcondition
      refine ⟨raw, ?_, by simpa [hraw] using hguard, checkCondition_eq_ok.mp hcheck raw hraw, rfl⟩
      simp [Event.condition?, Request.condition?, hdecoded, Except.toOption, hraw]

theorem operation_of_call {operation : Operation} (h : event.call? = some ⟨now, operation⟩) :
    (∃ s request, event = .received s now request ∧ request.operation s = .ok operation) ∨
      ∃ task, event = .ran now task ∧ operation = task.operation := by
  cases event with
  | ran now' task =>
      obtain ⟨rfl, rfl⟩ := Call.mk.inj (Option.some.inj h)
      exact Or.inr ⟨task, rfl, rfl⟩
  | received s now' request =>
      simp only [Event.call?] at h
      cases hoperation : request.operation s with
      | error _ => simp [hoperation, Except.toOption] at h
      | ok operation' =>
          simp only [hoperation, Except.toOption, Option.map_some, Option.some.injEq,
            Call.mk.injEq] at h
          obtain ⟨rfl, rfl⟩ := h
          exact Or.inl ⟨s, request, rfl, hoperation⟩

theorem eq_of_operation_confirmMonitor {request : Request} {params : ConfirmMonitorParams}
    (h : request.operation s = .ok (.confirmMonitor id params)) :
    ∃ monitorID body, request = .confirmMonitor monitorID body ∧
      confirmParams s monitorID body = .ok (id, params) := by
  cases request with
  | confirmMonitor monitorID body =>
      simp only [Request.operation, map_eq_ok, Operation.confirmMonitor.injEq] at h
      obtain ⟨_, hparams, rfl, rfl⟩ := h
      exact ⟨monitorID, body, rfl, hparams⟩
  | _ =>
      simp only [Request.operation, bind_eq_ok, map_eq_ok, reduceCtorEq, and_false,
        exists_false] at h

theorem eq_of_operation_patchMonitor {request : Request} {params : PatchMonitorParams}
    (h : request.operation s = .ok (.patchMonitor id params)) :
    ∃ monitorID body, request = .patchMonitor monitorID body ∧
      patchParams s monitorID body = .ok (id, params) := by
  cases request with
  | patchMonitor monitorID body =>
      simp only [Request.operation, map_eq_ok, Operation.patchMonitor.injEq] at h
      obtain ⟨_, hparams, rfl, rfl⟩ := h
      exact ⟨monitorID, body, rfl, hparams⟩
  | _ =>
      simp only [Request.operation, bind_eq_ok, map_eq_ok, reduceCtorEq, and_false,
        exists_false] at h

/-- Only a request with a validated condition confirms a monitor. -/
theorem validated_of_confirm {params : ConfirmMonitorParams}
    (h : event.call? = some ⟨now, .confirmMonitor id params⟩) :
    ∃ condition, params.condition = some condition ∧ Validated event condition := by
  rcases operation_of_call h with ⟨s, request, rfl, hoperation⟩ | ⟨task, rfl, htask⟩
  · obtain ⟨monitorID, body, rfl, hparams⟩ := eq_of_operation_confirmMonitor hoperation
    exact confirmParams_ok hparams
  · cases task <;> cases htask

/-- Only a validated condition is given by a patch of a monitor. -/
theorem validated_of_patch {params : PatchMonitorParams}
    (h : event.call? = some ⟨now, .patchMonitor id params⟩) :
    ∀ condition ∈ params.condition, Validated event condition := by
  rcases operation_of_call h with ⟨s, request, rfl, hoperation⟩ | ⟨task, rfl, htask⟩
  · obtain ⟨monitorID, body, rfl, hparams⟩ := eq_of_operation_patchMonitor hoperation
    exact patchParams_ok hparams
  · cases task <;> cases htask

end Conditions

/-- The states of the control plane are states that the store reaches. -/
theorem storeReachable_of_served {db : Database} (h : Reachable serve Database.empty db) :
    StoreReachable db := by
  refine h.invariant (P := StoreReachable) reachable_init fun s event _ hs => ?_
  rw [serve_eq]
  cases event.call? with
  | none => exact hs
  | some call => exact hs.next call

end PriceScout.Httpapi.Handlers
