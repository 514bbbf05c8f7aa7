import PriceScout.Store.Alerts
import PriceScout.Store.Recovery

/-!
Execution inputs, manual checks and the application of worker results.
-/

namespace PriceScout.Store.Executions

open PriceScout.Domain
open PriceScout.Library.GoStrings
open PriceScout.Library.JsonDocuments
open PriceScout.Library.Runs
open PriceScout.Library.Tables
open PriceScout.Store.Alerts
open PriceScout.Store.Outbox
open PriceScout.Store.Recovery
open PriceScout.Store.Schema

/-- A query for one row by id that is reported as not found when it has none. -/
def orNotFound {α : Type} : Option α → Except StoreError α
  | some a => .ok a
  | none => .error .notFound

/-- A query for one row whose absence is an internal error. -/
def orNoRows {α : Type} : Option α → Except StoreError α
  | some a => .ok a
  | none => .error (.failed "no rows in result set")

/-- Claim a queued execution, or renew the age of a running one. -/
def claimExecution (now : Timestamp) (execution : Execution) (db : Database) :
    Execution × Database :=
  match execution.state with
  | .queued =>
      let db := db.updateExecution execution.id fun e =>
        { e with state := .running, startedAt := some (e.startedAt.getD now) }
      let execution := { execution with state := .running }
      match execution.kind with
      | .repair =>
          (execution, db.updateRepairAttempts
            (fun a => decide (a.executionId = execution.id) && decide (a.state = .queued))
            fun a => { a with state := .running })
      | _ => (execution, db)
  | .running =>
      (execution, { db with
        executions := db.executions.update
          (fun e => decide (e.id = execution.id) && decide (e.state = .running))
          fun e => { e with startedAt := some now } })
  | _ => (execution, db)

def getExecutionInput (now : Timestamp) (id : UUID) (db : Database) :
    Except StoreError (ExecutionInput × Database) := do
  let execution ← orNotFound (db.executions.lookup id)
  let (execution, db) := claimExecution now execution db
  let monitor ← orNoRows (db.monitors.lookup execution.monitorId)
  match execution.revisionId with
  | none =>
      return ({ schemaVersion := schemaVersion, execution, monitor, revision := none,
                plan := none }, db)
  | some revisionId =>
      let revision ← orNoRows (db.revisions.lookup revisionId)
      return ({ schemaVersion := schemaVersion, execution, monitor, revision := some revision,
                plan := some revision.plan }, db)

def inFlightOf (monitorId : UUID) (e : Execution) : Bool :=
  decide (e.monitorId = monitorId) && e.inFlight

/-- A check of the plan a monitor runs. -/
def checkExecution (now : Timestamp) (id monitorId revisionId : UUID) (generation : Nat)
    (idempotencyKey : String) : Execution :=
  { newExecution id monitorId .check now with
    revisionId := some revisionId, requestedGeneration := some generation,
    idempotencyKey := nullIfEmpty idempotencyKey }

/-- The execution that an earlier request with the same key made. -/
def existingExecution (monitorId : UUID) (idempotencyKey : String) (db : Database) :
    Option Execution :=
  if idempotencyKey = "" then none else
    db.executions.find fun e =>
      decide (e.monitorId = monitorId) && decide (e.idempotencyKey = some idempotencyKey)

def enqueueCheck (now : Timestamp) (monitorId : UUID) (idempotencyKey traceparent : String)
    (db : Database) : Except StoreError ((Execution × Bool) × Database) :=
  match existingExecution monitorId idempotencyKey db with
  | some execution => .ok ((execution, false), db)
  | none => do
      let monitor ← orNotFound (db.monitors.lookup monitorId)
      match monitor.status, monitor.currentRevisionId with
      | .active, some currentRevisionId =>
          if db.executions.any (inFlightOf monitorId) then throw .conflict
          let revision ← orNoRows (db.revisions.lookup currentRevisionId)
          let (executionId, db) := db.newUUID
          let execution :=
            checkExecution now executionId monitorId currentRevisionId revision.generation
              idempotencyKey
          let db ← db.insertExecution execution
          let db ← insertOutbox db now "scout.monitor.check"
            (workMessage executionId monitorId (some currentRevisionId) traceparent)
          return ((execution, true), db)
      | _, _ => throw .conflict

/-- The condition of a monitor, as `MatchesCondition` decodes it. -/
structure MatchCondition where
  priceBelowMinor : Option Int
  maxPriceMinor : Option Int
  currency : String
  requireInStock : Bool

def decodeMatchCondition (raw : Json) : Option MatchCondition := do
  let priceBelowMinor ← raw.decodeInt64Ptr "priceBelowMinor"
  let maxPriceMinor ← raw.decodeInt64Ptr "maxPriceMinor"
  let currency ← raw.decodeString "currency"
  let requireInStock ← raw.decodeBool "requireInStock"
  return { priceBelowMinor, maxPriceMinor, currency, requireInStock }

def matchesCondition (raw : Json) (observation : ResultObservation) : Bool :=
  match decodeMatchCondition raw with
  | none => false
  | some condition =>
      if condition.priceBelowMinor = none ∧ condition.maxPriceMinor = none then false
      else if condition.currency ≠ "" ∧ ¬ equalFold condition.currency observation.currency then
        false
      else if condition.requireInStock ∧ ¬ observation.inStock then false
      else match condition.priceBelowMinor, condition.maxPriceMinor with
        | some priceBelowMinor, _ => decide (observation.priceMinor < priceBelowMinor)
        | none, some maxPriceMinor => decide (observation.priceMinor ≤ maxPriceMinor)
        | none, none => false

/-- The state a result status names, when it is a valid one. -/
def validResultStatus : String → Option ExecutionState
  | "succeeded" => some .succeeded
  | "failed" => some .failed
  | "blocked" => some .blocked
  | "needs_review" => some .needsReview
  | _ => none

def isTerminalExecution : ExecutionState → Bool
  | .succeeded | .failed | .blocked | .needsReview => true
  | .queued | .running => false

def validArtifact (execution : Execution) (artifact : ResultArtifact) : Bool :=
  let key := replaceChar '\\' '/' artifact.storageKey
  let clean := trimPrefix (trimSpace key) "./"
  if clean = "" ∨ hasPrefix clean "/" ∨ contains clean "../" ∨
      ¬ hasPrefix clean (execution.id.string ++ "/") ∨ artifact.sizeBytes < 0 ∨
      artifact.sizeBytes > 50 * 2 ^ 20 then false
  else if artifact.contentType = "image/png" ∨ artifact.contentType = "text/plain" ∨
      artifact.contentType = "application/json" then trimSpace artifact.kind ≠ ""
  else false

def validateResult (execution : Execution) (result : ExecutionResult) : Except StoreError Unit :=
  if result.status ≠ "succeeded" then
    if result.error = "" ∧ result.failureClassification = "" then
      .error (.invalidResult "failed result requires error or failureClassification")
    else .ok ()
  else match execution.kind with
    | .compile | .repair =>
        if result.plan.isNone then
          .error (.invalidResult
            ("successful " ++ execution.kind.string ++ " result requires a valid plan"))
        else .ok ()
    | .check =>
        if result.observation.isNone then
          .error (.invalidResult "successful check result requires an observation")
        else .ok ()

def executionIsAlertConfirmation (execution : Execution) : Bool :=
  execution.input.decodeBool "alertConfirmation" = some true

def alertConfirmationInput (triggerObservationId : UUID) : Json :=
  .obj [("alertConfirmation", .bool true),
    ("triggerObservationId", .str triggerObservationId.string)]

/-- A second look at what a check observed, with the same plan. -/
def confirmationExecution (now : Timestamp) (id : UUID) (execution : Execution)
    (triggerObservationId : UUID) : Execution :=
  { newExecution id execution.monitorId .check now with
    revisionId := execution.revisionId, requestedGeneration := execution.requestedGeneration,
    input := alertConfirmationInput triggerObservationId }

def enqueueAlertConfirmation (now : Timestamp) (execution : Execution)
    (triggerObservationId : UUID) (db : Database) : Except StoreError Database :=
  if db.executions.any fun e => inFlightOf execution.monitorId e && decide (e.kind = .check) &&
      e.input.containsTrue "alertConfirmation" then .ok db
  else do
    let (confirmationId, db) := db.newUUID
    let db ← db.insertExecution
      (confirmationExecution now confirmationId execution triggerObservationId)
    insertOutbox db now "scout.monitor.check"
      (workMessage confirmationId execution.monitorId execution.revisionId "")

/-- The verification state an observation is stored with: absent means verified. -/
def observationVerification (observation : ResultObservation) :
    Except StoreError VerificationState :=
  match observation.verificationState with
  | "" | "verified" => .ok .verified
  | "review_required" => .ok .reviewRequired
  | other => .error (.invalidResult ("unsupported verification state " ++ other))

/-- Whether an observation matches: the worker's word when it gives one. -/
def observationMatched (condition : Json) (observation : ResultObservation) : Bool :=
  observation.conditionMatched.getD (matchesCondition condition observation)

/-- Set the latch of a monitor. -/
def setConditionMatched (now : Timestamp) (monitorId : UUID) (matched : Bool) (db : Database) :
    Database :=
  db.updateMonitor monitorId fun m => { m with conditionMatched := matched, updatedAt := now }

/-- What a verified observation of a check does to the latch and the alerts. A
non-match of an ordinary check rearms the latch; only a confirmation sets it. -/
def reactToCheck (store : OpenStore) (now : Timestamp) (execution : Execution)
    (observationId : UUID)
    (matched previousMatched : Bool) (db : Database) : Except StoreError Database :=
  let confirmation := executionIsAlertConfirmation execution
  let db :=
    if confirmation then setConditionMatched now execution.monitorId matched db
    else if !matched then setConditionMatched now execution.monitorId false db
    else db
  if confirmation && matched && !previousMatched then
    createAlert store now execution.monitorId observationId
      ("condition:" ++ execution.monitorId.string ++ ":" ++ observationId.string) db
  else if !confirmation && matched && !previousMatched then
    enqueueAlertConfirmation now execution observationId db
  else .ok db

def newObservation (now : Timestamp) (id : UUID) (execution : Execution)
    (observation : ResultObservation) (verification : VerificationState) (matched : Bool) :
    Observation where
  id := id
  monitorId := execution.monitorId
  executionId := execution.id
  priceMinor := observation.priceMinor
  currency := observation.currency.toUpper
  inStock := observation.inStock
  title := observation.title
  rawText := nullIfEmpty observation.rawText
  identity := observation.identity.getD (.obj [])
  verificationState := verification
  conditionMatched := matched
  observedAt := now

def applyObservation (store : OpenStore) (now : Timestamp) (execution : Execution)
    (observation : ResultObservation) (db : Database) : Except StoreError Database := do
  if observation.priceMinor ≤ 0 ∨ byteLength observation.currency ≠ 3 ∨
      trimSpace observation.title = "" then
    throw (.invalidResult "observation requires positive priceMinor, ISO currency, and title")
  let monitor ← orNoRows (db.monitors.lookup execution.monitorId)
  let matched := observationMatched monitor.condition observation
  let verification ← observationVerification observation
  let (observationId, db) := db.newUUID
  let db ← db.insertObservation
    (newObservation now observationId execution observation verification matched)
  if execution.kind = .check ∧ verification = .verified then
    reactToCheck store now execution observationId matched monitor.conditionMatched db
  else return db

def nextGeneration (monitorId : UUID) (db : Database) : Nat :=
  ((db.revisions.rows.filter fun r => r.monitorId = monitorId).map (·.generation)).foldr max 0 + 1

def revisionSource : ExecutionKind → Except StoreError RevisionSource
  | .compile => .ok .compile
  | .repair => .ok .repair
  | .check => .error (.constraint "monitor_revisions_source_check")

/-- Promote a repaired plan when the monitor still runs the plan it repairs;
`none` when the comparison fails. -/
def promoteRevision (now : Timestamp) (execution : Execution) (revisionId : UUID)
    (failedRevisionId : UUID) (db : Database) : Option Database :=
  let unchanged := fun m : Monitor =>
    decide (m.id = execution.monitorId) && decide (m.currentRevisionId = some failedRevisionId)
  if db.monitors.count unchanged = 1 then
    some (({ db with monitors := db.monitors.update unchanged fun m =>
        { m with currentRevisionId := some revisionId, status := .active,
                 nextRunAt := some (now + 60 * m.intervalMinutes), updatedAt := now } }
      |>.updateRevisions (fun r => r.id = revisionId) fun r =>
        { r with validationState := .active, activatedAt := some now })
      |>.updateRepairAttempts (fun a => a.executionId = execution.id) fun a =>
        { a with state := .activated })
  else none

/-- The revision a plan result inserts. -/
def planRevision (now : Timestamp) (id : UUID) (execution : Execution) (generation : Nat)
    (source : RevisionSource) (plan : Json) : Revision where
  id := id
  monitorId := execution.monitorId
  generation := generation
  plan := plan
  source := source
  validationState := if execution.kind = .repair then .candidate else .awaitingConfirmation
  activatedAt := none
  createdAt := now

def applyPlanResult (now : Timestamp) (execution : Execution) (plan : Json) (autoPromote : Bool)
    (db : Database) : Except StoreError Database := do
  let generation := nextGeneration execution.monitorId db
  let source ← revisionSource execution.kind
  let (revisionId, db) := db.newUUID
  let db ← db.insertRevision (planRevision now revisionId execution generation source plan)
  if execution.kind = .compile then
    return db.updateMonitor execution.monitorId fun m =>
      { m with status := .awaitingConfirmation, updatedAt := now }
  else
    let db := db.updateRepairAttempts (fun a => a.executionId = execution.id) fun a =>
      { a with state := .candidate, candidateRevisionId := some revisionId,
               completedAt := some now }
    let promoted := if autoPromote then
      execution.revisionId.bind fun failed => promoteRevision now execution revisionId failed db
      else none
    match promoted with
    | some db => return db
    | none => return db.updateMonitor execution.monitorId fun m =>
        { m with status := .needsReview, updatedAt := now }

def shouldRetryExecutionResult (execution : Execution) (result : ExecutionResult)
    (maxAttempts : Nat) : Bool :=
  if result.status ≠ "failed" ∨ execution.attempt ≥ maxAttempts ∨
      (execution.kind ≠ .compile ∧ execution.kind ≠ .repair) then false
  else decide (result.failureClassification = "transient_infrastructure" ∨
    result.failureClassification = "rate_limited")

/-- Take a monitor off its schedule until an operator reviews it. -/
theorem heldForReview_id (now : Timestamp) (m : Monitor) :
    { m with status := .needsReview, nextRunAt := none, updatedAt := now }.id = m.id :=
  rfl

def holdForReview (now : Timestamp) (monitorId : UUID) (db : Database) : Database :=
  db.updateMonitor monitorId
    (fun m => { m with status := .needsReview, nextRunAt := none, updatedAt := now })
    (heldForReview_id now)

def repairExecution (now : Timestamp) (id : UUID) (execution : Execution) (generation : Nat) :
    Execution :=
  { newExecution id execution.monitorId .repair now with
    revisionId := execution.revisionId, requestedGeneration := some generation }

def newRepairAttempt (now : Timestamp) (id monitorId : UUID) (failedGeneration : Nat)
    (executionId : UUID) : RepairAttempt where
  id := id
  monitorId := monitorId
  failedGeneration := failedGeneration
  executionId := executionId
  candidateRevisionId := none
  state := .queued
  outcome := none
  createdAt := now
  completedAt := none

/-- A failed check of a stale plan queues the one repair of its generation. -/
def enqueueRepair (now : Timestamp) (execution : Execution) (generation : Nat) (db : Database) :
    Except StoreError Database :=
  if db.repairAttempts.any fun a =>
      decide (a.monitorId = execution.monitorId) && decide (a.failedGeneration = generation) then
    .ok db
  else do
    let (repairExecutionId, db) := db.newUUID
    let db ← db.insertExecution (repairExecution now repairExecutionId execution generation)
    let (repairAttemptId, db) := db.newUUID
    let db ← db.insertRepairAttempt
      (newRepairAttempt now repairAttemptId execution.monitorId generation repairExecutionId)
    let db ← insertOutbox db now "scout.monitor.repair"
      (workMessage repairExecutionId execution.monitorId execution.revisionId "")
    return holdForReview now execution.monitorId db

def staleClassification (result : ExecutionResult) : Bool :=
  result.failureClassification = "stale_action" || result.failureClassification = "stale_extractor"

/-- A failed check that is not put down to a stale plan. -/
theorem blocked_id (now : Timestamp) (m : Monitor) :
    { m with status := .blocked, updatedAt := now }.id = m.id :=
  rfl

def applyCheckFailure (now : Timestamp) (execution : Execution) (result : ExecutionResult)
    (db : Database) : Database :=
  if result.status = "blocked" ∨ result.failureClassification = "blocked" then
    db.updateMonitor execution.monitorId (fun m => { m with status := .blocked, updatedAt := now })
      (blocked_id now)
  else if result.status = "needs_review" ∨ result.failureClassification = "ambiguous_value" ∨
      result.failureClassification = "identity_drift" then
    holdForReview now execution.monitorId db
  else db

/-- The first of the texts that is not empty. -/
def repairOutcome (result : ExecutionResult) : String :=
  ((nullIfEmpty result.failureClassification).orElse fun _ => nullIfEmpty result.error).getD
    "repair failed"

def applyFailure (store : OpenStore) (now : Timestamp) (execution : Execution)
    (result : ExecutionResult) (db : Database) : Except StoreError Database :=
  if shouldRetryExecutionResult execution result store.maxExecutionAttempts then
    (enqueueExecutionReplacement now execution db).map (·.2)
  else match execution.kind with
    | .compile =>
        .ok <| db.updateMonitor execution.monitorId fun m =>
          { m with status := if result.status = "needs_review" then .needsReview else .blocked,
                   updatedAt := now }
    | .repair =>
        .ok <| holdForReview now execution.monitorId <|
          db.updateRepairAttempts (fun a => a.executionId = execution.id) fun a =>
            { a with state := .failed, outcome := some (repairOutcome result),
                     completedAt := some now }
    | .check =>
        match execution.requestedGeneration with
        | some generation =>
            if staleClassification result then enqueueRepair now execution generation db
            else .ok (applyCheckFailure now execution result db)
        | none => .ok (applyCheckFailure now execution result db)

/-- An execution with its result. -/
def withResult (now : Timestamp) (state : ExecutionState) (result : ExecutionResult)
    (e : Execution) : Execution :=
  { e with state := state, failureClassification := nullIfEmpty result.failureClassification,
           provider := nullIfEmpty result.provider, traceId := nullIfEmpty result.traceId,
           browserSessionUrl := nullIfEmpty result.browserSessionUrl, result := some result,
           error := nullIfEmpty result.error, completedAt := some now,
           startedAt := some (e.startedAt.getD now) }

def recordResult (now : Timestamp) (state : ExecutionState) (result : ExecutionResult)
    (executionId : UUID) (db : Database) : Database :=
  db.updateExecution executionId (withResult now state result)

def insertArtifacts (now : Timestamp) (execution : Execution) (artifacts : List ResultArtifact)
    (db : Database) : Except StoreError Database :=
  artifacts.foldlM (fun db artifact =>
    if validArtifact execution artifact then
      let (artifactId, db) := db.newUUID
      db.insertArtifact
        { id := artifactId, executionId := execution.id, kind := artifact.kind,
          storageKey := artifact.storageKey, contentType := artifact.contentType,
          sha256 := nullIfEmpty artifact.sha256,
          sizeBytes := if artifact.sizeBytes = 0 then none else some artifact.sizeBytes,
          createdAt := now }
    else throw (.invalidResult "artifact metadata or storage path is invalid")) db

def getArtifact (id : UUID) (db : Database) : Except StoreError Artifact :=
  orNotFound (db.artifacts.lookup id)

/-- The plan of a succeeded result, which only compiles and repairs have a use for. -/
def applyPlan (now : Timestamp) (execution : Execution) (result : ExecutionResult) (db : Database) :
    Except StoreError Database :=
  match result.plan with
  | some plan =>
      if execution.kind = .compile ∨ execution.kind = .repair then
        applyPlanResult now execution plan result.autoPromote db
      else .ok db
  | none => .ok db

/-- What a recorded result changes beyond its execution and artifacts. -/
def applyOutcome (store : OpenStore) (now : Timestamp) (execution : Execution)
    (result : ExecutionResult) (db : Database) : Except StoreError Database :=
  if result.status = "succeeded" then do
    let db ← applyPlan now execution result db
    match result.observation with
    | some observation => applyObservation store now execution observation db
    | none => return db
  else applyFailure store now execution result db

/-- `ApplyResult`; the flag tells whether the result was accepted, which only
the first result of an execution is. -/
def applyResult (store : OpenStore) (now : Timestamp) (executionId : UUID)
    (result : ExecutionResult)
    (db : Database) : Except StoreError ((Execution × Bool) × Database) := do
  let execution ← orNotFound (db.executions.lookup executionId)
  if isTerminalExecution execution.state then
    return ((execution, false), db)
  else match validResultStatus result.status with
    | none => throw (.invalidResult ("invalid status " ++ result.status))
    | some state => do
        validateResult execution result
        let db ← insertArtifacts now execution result.artifacts
          (recordResult now state result executionId db)
        let db ← applyOutcome store now execution result db
        let updated ← orNotFound (db.executions.lookup executionId)
        return ((updated, true), db)

end PriceScout.Store.Executions
