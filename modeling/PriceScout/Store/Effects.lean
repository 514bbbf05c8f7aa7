import Mathlib.Logic.Relation
import PriceScout.Store.Operations

/-!
What each committed operation did to the tables. Invariants of the store are
proved from these relations alone, without opening an operation again.
-/

namespace PriceScout.Store.Effects

open PriceScout.Domain
open PriceScout.Library.GoStrings
open PriceScout.Library.JsonDocuments
open PriceScout.Library.Runs
open PriceScout.Library.Tables
open PriceScout.Store.Alerts
open PriceScout.Store.Executions
open PriceScout.Store.Monitors
open PriceScout.Store.Operations
open PriceScout.Store.Outbox
open PriceScout.Store.Recovery
open PriceScout.Store.Schema

/-- The columns of an execution that no operation assigns after its insertion. -/
structure SameJob (e e' : Execution) : Prop where
  id : e'.id = e.id
  monitorId : e'.monitorId = e.monitorId
  revisionId : e'.revisionId = e.revisionId
  kind : e'.kind = e.kind
  requestedGeneration : e'.requestedGeneration = e.requestedGeneration
  attempt : e'.attempt = e.attempt
  recoveryOf : e'.recoveryOf = e.recoveryOf
  input : e'.input = e.input
  idempotencyKey : e'.idempotencyKey = e.idempotencyKey

/-- The outbox row written with an execution. -/
def announcement (now : Timestamp) (id : Nat) (e : Execution) (traceparent : String) :
    OutboxRow where
  id := id
  subject := recoverySubject e.kind
  payload := workMessage e.id e.monitorId e.revisionId traceparent
  publishedAt := none
  attempts := 0
  lastError := none
  createdAt := now

/-- What the relay does to an outbox row: its message stays as it was written. -/
structure Relayed (row row' : OutboxRow) : Prop where
  subject : row'.subject = row.subject
  payload : row'.payload = row.payload
  createdAt : row'.createdAt = row.createdAt
  attempts : row.attempts ≤ row'.attempts
  publishedAt : row.publishedAt.isSome → row'.publishedAt.isSome

theorem Relayed.refl (row : OutboxRow) : Relayed row row :=
  ⟨rfl, rfl, rfl, le_refl _, id⟩

theorem Relayed.trans (a b c : OutboxRow) (h : Relayed a b) (h' : Relayed b c) : Relayed a c :=
  ⟨h'.subject.trans h.subject, h'.payload.trans h.payload, h'.createdAt.trans h.createdAt,
    h.attempts.trans h'.attempts, fun hp => h'.publishedAt (h.publishedAt hp)⟩

/-- `db'` is `db` with a queued execution and the message that announces it. -/
structure Enqueued (now : Timestamp) (db : Database) (e : Execution) (traceparent : String)
    (db' : Database) : Prop where
  queued : e.state = .queued
  monitor : db.hasMonitor e.monitorId
  revision : ∀ id ∈ e.revisionId, db.hasRevision id
  unrecovered : ∀ s ∈ db.executions, s.recoveryOf.isSome → s.recoveryOf ≠ e.recoveryOf
  inserted : ∃ executions' outbox' uuids', db.executions.Appended e executions' ∧
    db.outbox.Appended (announcement now db.outboxIds e traceparent) outbox' ∧
    db' = { db with executions := executions', outbox := outbox',
                    outboxIds := db.outboxIds + 1, uuids := uuids' }

/-- `db'` is `db` with an execution in flight made terminal. -/
structure Retired (db : Database) (e e' : Execution) (db' : Database) : Prop where
  mem : e ∈ db.executions
  inFlight : e.inFlight = true
  sameJob : SameJob e e'
  terminal : e'.inFlight = false
  retired : ∃ executions' artifacts' uuids', db.executions.Substituted e e' executions' ∧
    db' = { db with executions := executions', artifacts := artifacts', uuids := uuids' }

theorem repointed_id (replacementId : UUID) (a : RepairAttempt) :
    { a with executionId := replacementId, state := .queued, candidateRevisionId := none,
             outcome := none, completedAt := none }.id = a.id :=
  rfl

/-- The repair attempts after the replacement of a repair's execution. -/
def repointedAttempts (db : Database) (e : Execution) (replacementId : UUID) :
    Table RepairAttempt.id :=
  db.repairAttempts.update (fun a => decide (a.executionId = e.id))
    (fun a => { a with executionId := replacementId, state := .queued, candidateRevisionId := none,
                       outcome := none, completedAt := none })
    (repointed_id replacementId)

/-- `db'` is `db` with a replacement for the execution. -/
inductive Replaced (now : Timestamp) (db : Database) (e : Execution) : Database → Prop
  | enqueued (id : UUID) (db' : Database) (hkind : e.kind ≠ .repair)
      (h : Enqueued now db (replacementExecution now id e) "" db') : Replaced now db e db'
  | repointed (id : UUID) (db' : Database) (a : RepairAttempt) (hkind : e.kind = .repair)
      (hmem : a ∈ db.repairAttempts) (hexecution : a.executionId = e.id)
      (h : Enqueued now db (replacementExecution now id e) "" db') :
      Replaced now db e { db' with repairAttempts := repointedAttempts db e id }

/-- What inserting the plan of a result did. -/
inductive PlanEffect (now : Timestamp) (e : Execution) (plan : Json) (autoPromote : Bool)
    (db : Database) : Database → Prop
  | compiled (id : UUID) (revisions' : Table Revision.id) (uuids' : Nat) (hkind : e.kind = .compile)
      (hrevision : db.revisions.Appended
        (planRevision now id e (nextGeneration e.monitorId db) .compile plan) revisions') :
      PlanEffect now e plan autoPromote db
        { db with
          revisions := revisions', uuids := uuids'
          monitors := db.monitors.update (fun m => decide (m.id = e.monitorId)) fun m =>
            { m with status := .awaitingConfirmation, updatedAt := now } }
  | promoted (id failedRevisionId : UUID) (m : Monitor) (revisions' : Table Revision.id)
      (uuids' : Nat) (hkind : e.kind = .repair) (hauto : autoPromote = true)
      (hfailed : e.revisionId = some failedRevisionId) (hmem : m ∈ db.monitors)
      (hid : m.id = e.monitorId) (hcurrent : m.currentRevisionId = some failedRevisionId)
      (hrevision : db.revisions.Appended
        { planRevision now id e (nextGeneration e.monitorId db) .repair plan with
          validationState := .active, activatedAt := some now } revisions') :
      PlanEffect now e plan autoPromote db
        { db with
          revisions := revisions', uuids := uuids'
          repairAttempts :=
            db.repairAttempts.update (fun a => decide (a.executionId = e.id)) fun a =>
            { a with state := .activated, candidateRevisionId := some id, completedAt := some now }
          monitors := db.monitors.update (fun m => decide (m.id = e.monitorId)) fun m =>
            { m with currentRevisionId := some id, status := .active,
                     nextRunAt := some (now + 60 * m.intervalMinutes), updatedAt := now } }
  | held (id : UUID) (revisions' : Table Revision.id) (uuids' : Nat) (hkind : e.kind = .repair)
      (hheld : autoPromote = true → ∀ failedRevisionId ∈ e.revisionId, ∀ m ∈ db.monitors,
        m.id = e.monitorId → m.currentRevisionId ≠ some failedRevisionId)
      (hrevision : db.revisions.Appended
        (planRevision now id e (nextGeneration e.monitorId db) .repair plan) revisions') :
      PlanEffect now e plan autoPromote db
        { db with
          revisions := revisions', uuids := uuids'
          repairAttempts :=
            db.repairAttempts.update (fun a => decide (a.executionId = e.id)) fun a =>
            { a with state := .candidate, candidateRevisionId := some id, completedAt := some now }
          monitors := db.monitors.update (fun m => decide (m.id = e.monitorId)) fun m =>
            { m with status := .needsReview, updatedAt := now } }

/-- What an observation was recorded as. -/
structure Recorded (now : Timestamp) (e : Execution) (observation : ResultObservation)
    (db : Database) (m : Monitor) (o : Observation) (db' : Database) : Prop where
  mem : m ∈ db.monitors
  monitorId : m.id = e.monitorId
  row : ∃ id verification, observationVerification observation = .ok verification ∧
    o = newObservation now id e observation verification
      (observationMatched m.condition observation)
  fresh : ∀ s ∈ db.observations, s.executionId ≠ e.id
  inserted : ∃ observations' uuids', db.observations.Appended o observations' ∧
    db' = { db with observations := observations', uuids := uuids' }

/-- What the observation of a succeeded result did after it was recorded. -/
inductive Reaction (store : OpenStore) (now : Timestamp) (e : Execution) (m : Monitor)
    (o : Observation) (db : Database) : Database → Prop
  | diagnostic (h : ¬ (e.kind = .check ∧ o.verificationState = .verified)) :
      Reaction store now e m o db db
  | unchanged (hkind : e.kind = .check) (hverified : o.verificationState = .verified)
      (hordinary : executionIsAlertConfirmation e = false) (hmatched : o.conditionMatched = true)
      (h : m.conditionMatched = true ∨ ∃ s ∈ db.executions, inFlightOf e.monitorId s = true) :
      Reaction store now e m o db db
  | latched (hkind : e.kind = .check) (hverified : o.verificationState = .verified)
      (h : o.conditionMatched = false ∨
        executionIsAlertConfirmation e = true ∧ m.conditionMatched = true) :
      Reaction store now e m o db (setConditionMatched now e.monitorId o.conditionMatched db)
  | alerted (id : UUID) (alerts' : Table Alert.id) (alertDeliveries' : Table AlertDelivery.id)
      (uuids' : Nat) (hkind : e.kind = .check) (hverified : o.verificationState = .verified)
      (hconfirmation : executionIsAlertConfirmation e = true) (hmatched : o.conditionMatched = true)
      (hprevious : m.conditionMatched = false)
      (halert : db.alerts.Appended (newAlert store now id e.monitorId o.id
        ("condition:" ++ e.monitorId.string ++ ":" ++ o.id.string)) alerts') :
      Reaction store now e m o db
        { setConditionMatched now e.monitorId true db with
          alerts := alerts', alertDeliveries := alertDeliveries', uuids := uuids' }
  | confirmationQueued (id : UUID) (db' : Database) (hkind : e.kind = .check)
      (hverified : o.verificationState = .verified)
      (hordinary : executionIsAlertConfirmation e = false) (hmatched : o.conditionMatched = true)
      (hprevious : m.conditionMatched = false)
      (h : Enqueued now db (confirmationExecution now id e o.id) "" db') :
      Reaction store now e m o db db'

/-- What a failed result did. -/
inductive FailureEffect (store : OpenStore) (now : Timestamp) (e : Execution)
    (result : ExecutionResult) (db : Database) : Database → Prop
  | retried (db' : Database)
      (hretry : shouldRetryExecutionResult e result store.maxExecutionAttempts = true)
      (h : Replaced now db e db') : FailureEffect store now e result db db'
  | compileFailed (hkind : e.kind = .compile)
      (hfinal : shouldRetryExecutionResult e result store.maxExecutionAttempts = false) :
      FailureEffect store now e result db
        (db.updateMonitor e.monitorId fun m =>
          { m with status := if result.status = "needs_review" then .needsReview else .blocked,
                   updatedAt := now })
  | repairFailed (hkind : e.kind = .repair)
      (hfinal : shouldRetryExecutionResult e result store.maxExecutionAttempts = false) :
      FailureEffect store now e result db
        (holdForReview now e.monitorId <|
          db.updateRepairAttempts (fun a => a.executionId = e.id) fun a =>
            { a with state := .failed, outcome := some (repairOutcome result),
                     completedAt := some now })
  | checkFailed (hkind : e.kind = .check)
      (hfresh : e.requestedGeneration = none ∨ staleClassification result = false) :
      FailureEffect store now e result db (applyCheckFailure now e result db)
  | repairExists (a : RepairAttempt) (hkind : e.kind = .check)
      (hstale : staleClassification result = true) (hmem : a ∈ db.repairAttempts)
      (hmonitor : a.monitorId = e.monitorId)
      (hgeneration : e.requestedGeneration = some a.failedGeneration) :
      FailureEffect store now e result db db
  | repairQueued (id attemptId : UUID) (generation : Nat)
      (repairAttempts' : Table RepairAttempt.id) (uuids' : Nat) (db' : Database)
      (hkind : e.kind = .check) (hstale : staleClassification result = true)
      (hgeneration : e.requestedGeneration = some generation)
      (hnone : ∀ a ∈ db.repairAttempts, a.monitorId = e.monitorId → a.failedGeneration ≠ generation)
      (hattempt : db.repairAttempts.Appended
        (newRepairAttempt now attemptId e.monitorId generation id) repairAttempts')
      (h : Enqueued now db (repairExecution now id e generation) "" db') :
      FailureEffect store now e result db
        (holdForReview now e.monitorId
          { db' with repairAttempts := repairAttempts', uuids := uuids' })

/-- What an accepted result did after its execution was made terminal. -/
inductive Outcome (store : OpenStore) (now : Timestamp) (e : Execution) (result : ExecutionResult)
    (db : Database) : Database → Prop
  | planned (plan : Json) (db' : Database) (hstatus : result.status = "succeeded")
      (hkind : e.kind ≠ .check) (hplan : result.plan = some plan)
      (h : PlanEffect now e plan result.autoPromote db db')
      (hobservation : result.observation = none) : Outcome store now e result db db'
  | plannedAndRecorded (plan : Json) (observation : ResultObservation) (m : Monitor)
      (o : Observation) (db₁ db' : Database) (hstatus : result.status = "succeeded")
      (hkind : e.kind ≠ .check) (hplan : result.plan = some plan)
      (h : PlanEffect now e plan result.autoPromote db db₁)
      (hobservation : result.observation = some observation)
      (hrecorded : Recorded now e observation db₁ m o db') : Outcome store now e result db db'
  | observed (observation : ResultObservation) (m : Monitor) (o : Observation) (db₁ db' : Database)
      (hstatus : result.status = "succeeded") (hkind : e.kind = .check)
      (hobservation : result.observation = some observation)
      (hrecorded : Recorded now e observation db m o db₁) (h : Reaction store now e m o db₁ db') :
      Outcome store now e result db db'
  | failed (db' : Database) (hstatus : result.status ≠ "succeeded")
      (h : FailureEffect store now e result db db') : Outcome store now e result db db'

/-- The checks on the observation of a succeeded result. -/
structure AcceptableObservation (observation : ResultObservation) : Prop where
  price : 0 < observation.priceMinor
  currency : byteLength observation.currency = 3
  title : trimSpace observation.title ≠ ""
  verification : ∃ verification, observationVerification observation = .ok verification

/-- The checks that a result passes before it is applied. -/
structure Acceptable (e : Execution) (result : ExecutionResult) : Prop where
  status : (validResultStatus result.status).isSome = true
  valid : validateResult e result = .ok ()
  artifacts : ∀ artifact ∈ result.artifacts, validArtifact e artifact = true
  observation : result.status = "succeeded" → ∀ observation ∈ result.observation,
    AcceptableObservation observation

/-- What `ApplyResult` did when it accepted a result. -/
structure Settled (store : OpenStore) (now : Timestamp) (executionId : UUID)
    (result : ExecutionResult) (db : Database) (e e' : Execution) (db₁ db' : Database) : Prop where
  acceptable : Acceptable e result
  id : e.id = executionId
  retired : Retired db e e' db₁
  state : validResultStatus result.status = some e'.state
  recorded : e'.result = some result
  outcome : Outcome store now e result db₁ db'

/-- A monitor that takes a new check: active, with a plan and nothing in flight. -/
structure Admitting (db : Database) (m : Monitor) (r : Revision) : Prop where
  monitor : m ∈ db.monitors
  active : m.status = .active
  revision : r ∈ db.revisions
  current : m.currentRevisionId = some r.id
  idle : ∀ e ∈ db.executions, inFlightOf m.id e = false

/-- What the operations other than `ApplyResult` do, one monitor or execution at a time. -/
inductive Effect (call : Call) (db : Database) : Database → Prop
  | created (monitorId executionId : UUID) (params : CreateMonitorParams)
      (monitors' : Table Monitor.id) (db' : Database)
        (hcall : call.operation = .createMonitor params)
      (hinterval : 1 ≤ params.intervalMinutes)
      (hmonitor : db.monitors.Appended (newMonitor call.now monitorId params) monitors')
      (h : Enqueued call.now { db with monitors := monitors' }
        (compileExecution call.now executionId monitorId params) params.traceparent db') :
      Effect call db db'
  | claimed (e e' : Execution) (executions' : Table Execution.id)
      (repairAttempts' : Table RepairAttempt.id) (hqueued : e.state = .queued)
      (hcall : call.operation = .getExecutionInput e.id)
      (he' : e' = { e with state := .running, startedAt := some (e.startedAt.getD call.now) })
      (hexecution : db.executions.Substituted e e' executions')
      (hattempts : e.kind ≠ .repair ∧ repairAttempts' = db.repairAttempts ∨ e.kind = .repair ∧
        repairAttempts' = db.repairAttempts.update
          (fun a => decide (a.executionId = e.id) && decide (a.state = .queued))
          fun a => { a with state := .running }) :
      Effect call db { db with executions := executions', repairAttempts := repairAttempts' }
  | renewed (e e' : Execution) (executions' : Table Execution.id) (hrunning : e.state = .running)
      (hcall : call.operation = .getExecutionInput e.id)
      (he' : e' = { e with startedAt := some call.now })
      (hexecution : db.executions.Substituted e e' executions') :
      Effect call db { db with executions := executions' }
  | checkQueued (id : UUID) (m : Monitor) (r : Revision) (idempotencyKey traceparent : String)
      (db' : Database) (hcall : call.operation = .enqueueCheck m.id idempotencyKey traceparent)
      (hnew : existingExecution m.id idempotencyKey db = none) (hadmitting : Admitting db m r)
      (h : Enqueued call.now db (checkExecution call.now id m.id r.id r.generation idempotencyKey)
        traceparent db') : Effect call db db'
  | dueQueued (id : UUID) (m : Monitor) (r : Revision) (limit : Nat) (locked : UUID → Bool)
      (db' : Database) (hcall : call.operation = .claimDueMonitors limit locked)
      (hadmitting : Admitting db m r)
      (h : Enqueued call.now db (checkExecution call.now id m.id r.id r.generation "") "" db') :
      Effect call db (db'.updateMonitor m.id fun m =>
        { m with nextRunAt := some (call.now + 60 * m.intervalMinutes), updatedAt := call.now })
  | confirmed (m : Monitor) (r : Revision) (condition : Option Json)
      (hcall : call.operation = .confirmMonitor m.id ⟨r.id, condition⟩) (hmonitor : m ∈ db.monitors)
      (hrevision : r ∈ db.revisions) (hdecidable : decidable m.id r.id r = true) :
      Effect call db
        { db with
          revisions := (db.revisions.update (decidable m.id r.id) fun r =>
              { r with validationState := .active, activatedAt := some call.now }).update
            (otherPending m.id r.id) fun r => { r with validationState := .rejected }
          monitors := db.monitors.update (fun m' => decide (m'.id = m.id)) fun m =>
            { m with currentRevisionId := some r.id, condition := condition.getD (.obj []),
                     status := .active, nextRunAt := some (call.now + 60 * m.intervalMinutes),
                     updatedAt := call.now } }
  | patched (m : Monitor) (params : PatchMonitorParams)
      (hcall : call.operation = .patchMonitor m.id params) (hmonitor : m ∈ db.monitors)
      (haction : ∀ name, params.action ≠ .unsupported name)
      (hinterval : ∀ minutes ∈ params.intervalMinutes, 1 ≤ minutes) :
      Effect call db
        (db.updateMonitor m.id (patchAssign call.now params) (patchAssign_id call.now params))
  | accepted (m : Monitor) (r : Revision)
      (hcall : call.operation = .reviewRevision m.id r.id true) (hmonitor : m ∈ db.monitors)
      (hrevision : r ∈ db.revisions) (hdecidable : decidable m.id r.id r = true) :
      Effect call db
        { db with
          revisions := db.revisions.update (decidable m.id r.id) fun r =>
            { r with validationState := .active, activatedAt := some call.now }
          monitors := db.monitors.update (fun m' => decide (m'.id = m.id)) fun m =>
            { m with currentRevisionId := some r.id, status := .active,
                     nextRunAt := some (call.now + 60 * m.intervalMinutes), updatedAt := call.now }
          repairAttempts := db.repairAttempts.update
            (fun a => decide (a.monitorId = m.id) && decide (a.candidateRevisionId = some r.id))
            fun a => { a with state := .activated, candidateRevisionId := some r.id,
                              completedAt := some call.now } }
  | rejected (m : Monitor) (r : Revision)
      (hcall : call.operation = .reviewRevision m.id r.id false) (hmonitor : m ∈ db.monitors)
      (hrevision : r ∈ db.revisions) (hdecidable : decidable m.id r.id r = true) :
      Effect call db
        { db with
          revisions := db.revisions.update (decidable m.id r.id) fun r =>
            { r with validationState := .rejected }
          monitors := db.monitors.update (fun m' => decide (m'.id = m.id)) fun m =>
            { m with status := if m.currentRevisionId.isNone then .blocked else .active,
                     updatedAt := call.now }
          repairAttempts := db.repairAttempts.update
            (fun a => decide (a.monitorId = m.id) && decide (a.candidateRevisionId = some r.id))
            fun a => { a with state := .rejected, candidateRevisionId := some r.id,
                              completedAt := some call.now } }
  | terminalized (e e' : Execution) (db₁ : Database) (runningStaleAfter : Timestamp)
      (maxAttempts limit : Nat) (locked : UUID → Bool)
      (hcall : call.operation = .sweepStaleExecutions runningStaleAfter maxAttempts limit locked)
      (hattempts : maxAttempts ≤ e.attempt) (h : Retired db e e' db₁)
      (hrunning : e.state = .running) (hfailed : e'.state = .failed) :
      Effect call db (terminalizeStaleExecution call.now e staleReason db₁)
  | replaced (e e' : Execution) (db₁ db' : Database) (runningStaleAfter : Timestamp)
      (maxAttempts limit : Nat) (locked : UUID → Bool)
      (hcall : call.operation = .sweepStaleExecutions runningStaleAfter maxAttempts limit locked)
      (hattempts : e.attempt < maxAttempts) (h : Retired db e e' db₁)
      (hrunning : e.state = .running) (hfailed : e'.state = .failed)
      (hreplaced : Replaced call.now db₁ e db') : Effect call db db'
  | published (outbox' : Table OutboxRow.id) (locked : Nat → Bool) (limit : Nat)
      (publish : OutboxRow → Except String Unit) (commits : Bool)
      (hcall : call.operation = .processOutbox locked limit publish commits)
      (h : db.outbox.Evolves Relayed outbox') :
      Effect call db { db with outbox := outbox' }

section Executions

variable {now : Timestamp} {db db' : Database} {e e' s : Execution} {traceparent : String}

theorem Enqueued.mem_executions (h : Enqueued now db e traceparent db') (hs : s ∈ db.executions) :
    s ∈ db'.executions := by
  obtain ⟨executions', outbox', uuids', happended, -, rfl⟩ := h.inserted
  exact happended.mem_of_mem hs

theorem Replaced.mem_executions (h : Replaced now db e db') (hs : s ∈ db.executions) :
    s ∈ db'.executions := by
  cases h with
  | enqueued id db' hkind h => exact h.mem_executions hs
  | repointed id db' a hkind hmem hexecution h => exact h.mem_executions hs

theorem Retired.mem_of_ne (h : Retired db e e' db') (hs : s ∈ db.executions) (hne : s.id ≠ e.id) :
    s ∈ db'.executions := by
  obtain ⟨executions', artifacts', uuids', hsubstituted, rfl⟩ := h.retired
  exact hsubstituted.mem_of_ne hs hne

theorem terminalizeStaleExecution_executions (now : Timestamp) (e : Execution) (reason : String)
    (db : Database) : (terminalizeStaleExecution now e reason db).executions = db.executions := by
  unfold terminalizeStaleExecution
  cases e.kind <;> rfl

theorem Enqueued.appended (h : Enqueued now db e traceparent db') :
    db.executions.Appended e db'.executions := by
  obtain ⟨executions', outbox', uuids', happended, -, rfl⟩ := h.inserted
  exact happended

theorem Retired.substituted (h : Retired db e e' db') :
    db.executions.Substituted e e' db'.executions := by
  obtain ⟨executions', artifacts', uuids', hsubstituted, rfl⟩ := h.retired
  exact hsubstituted

theorem Enqueued.monitors (h : Enqueued now db e traceparent db') : db'.monitors = db.monitors := by
  obtain ⟨executions', outbox', uuids', -, -, rfl⟩ := h.inserted
  rfl

theorem Enqueued.revisions (h : Enqueued now db e traceparent db') :
    db'.revisions = db.revisions := by
  obtain ⟨executions', outbox', uuids', -, -, rfl⟩ := h.inserted
  rfl

theorem Enqueued.repairAttempts (h : Enqueued now db e traceparent db') :
    db'.repairAttempts = db.repairAttempts := by
  obtain ⟨executions', outbox', uuids', -, -, rfl⟩ := h.inserted
  rfl

theorem Enqueued.observations (h : Enqueued now db e traceparent db') :
    db'.observations = db.observations := by
  obtain ⟨executions', outbox', uuids', -, -, rfl⟩ := h.inserted
  rfl

theorem Enqueued.alerts (h : Enqueued now db e traceparent db') : db'.alerts = db.alerts := by
  obtain ⟨executions', outbox', uuids', -, -, rfl⟩ := h.inserted
  rfl

theorem Retired.monitors (h : Retired db e e' db') : db'.monitors = db.monitors := by
  obtain ⟨executions', artifacts', uuids', -, rfl⟩ := h.retired
  rfl

theorem Retired.revisions (h : Retired db e e' db') : db'.revisions = db.revisions := by
  obtain ⟨executions', artifacts', uuids', -, rfl⟩ := h.retired
  rfl

theorem Retired.repairAttempts (h : Retired db e e' db') :
    db'.repairAttempts = db.repairAttempts := by
  obtain ⟨executions', artifacts', uuids', -, rfl⟩ := h.retired
  rfl

theorem Retired.observations (h : Retired db e e' db') : db'.observations = db.observations := by
  obtain ⟨executions', artifacts', uuids', -, rfl⟩ := h.retired
  rfl

theorem Retired.alerts (h : Retired db e e' db') : db'.alerts = db.alerts := by
  obtain ⟨executions', artifacts', uuids', -, rfl⟩ := h.retired
  rfl

theorem Replaced.monitors (h : Replaced now db e db') : db'.monitors = db.monitors := by
  cases h with
  | enqueued id db' hkind h => exact h.monitors
  | repointed id db' a hkind hmem hexecution h => exact h.monitors

theorem Replaced.revisions (h : Replaced now db e db') : db'.revisions = db.revisions := by
  cases h with
  | enqueued id db' hkind h => exact h.revisions
  | repointed id db' a hkind hmem hexecution h => exact h.revisions

theorem Replaced.observations (h : Replaced now db e db') : db'.observations = db.observations := by
  cases h with
  | enqueued id db' hkind h => exact h.observations
  | repointed id db' a hkind hmem hexecution h => exact h.observations

theorem Replaced.alerts (h : Replaced now db e db') : db'.alerts = db.alerts := by
  cases h with
  | enqueued id db' hkind h => exact h.alerts
  | repointed id db' a hkind hmem hexecution h => exact h.alerts

theorem Recorded.unchanged {observation : ResultObservation} {m : Monitor} {o : Observation}
    (h : Recorded now e observation db m o db') :
    db'.monitors = db.monitors ∧ db'.revisions = db.revisions ∧
      db'.repairAttempts = db.repairAttempts ∧ db'.alerts = db.alerts := by
  obtain ⟨observations', uuids', -, rfl⟩ := h.inserted
  exact ⟨rfl, rfl, rfl, rfl⟩

/-- The executions that one made terminal can be followed by. -/
inductive Follows (now : Timestamp) (e : Execution) : Execution → Prop
  | replacement (id : UUID) : Follows now e (replacementExecution now id e)
  | confirmation (id observationId : UUID) (hkind : e.kind = .check) :
      Follows now e (confirmationExecution now id e observationId)
  | repair (id : UUID) (generation : Nat) (hkind : e.kind = .check)
      (hgeneration : e.requestedGeneration = some generation) :
      Follows now e (repairExecution now id e generation)

theorem Follows.monitorId {n : Execution} (h : Follows now e n) : n.monitorId = e.monitorId := by
  cases h <;> rfl

theorem Follows.revisionId {n : Execution} (h : Follows now e n) : n.revisionId = e.revisionId := by
  cases h <;> rfl

theorem Follows.requestedGeneration {n : Execution} (h : Follows now e n) :
    n.requestedGeneration = e.requestedGeneration := by
  cases h with
  | replacement id => rfl
  | confirmation id observationId hkind => rfl
  | repair id generation hkind hgeneration => exact hgeneration.symm

/-- The follower of a compile is a compile, and no other is. -/
theorem Follows.compile_iff {n : Execution} (h : Follows now e n) :
    n.kind = .compile ↔ e.kind = .compile := by
  cases h with
  | replacement id => rfl
  | confirmation id observationId hkind => simp [confirmationExecution, newExecution, hkind]
  | repair id generation hkind hgeneration => simp [repairExecution, newExecution, hkind]

/-- At most one execution follows, at the end of the table. -/
def FollowedIn (now : Timestamp) (e : Execution) (db db' : Database) : Prop :=
  db'.executions = db.executions ∨
    ∃ n, Follows now e n ∧ n.inFlight = true ∧ db.executions.Appended n db'.executions

theorem Replaced.followedIn (h : Replaced now db e db') : FollowedIn now e db db' := by
  cases h with
  | enqueued id db' hkind h => exact Or.inr ⟨_, .replacement id, rfl, h.appended⟩
  | repointed id db' a hkind hmem hexecution h =>
      exact Or.inr ⟨_, .replacement id, rfl, h.appended⟩

theorem Reaction.followedIn {store : OpenStore} {m : Monitor} {o : Observation}
    (h : Reaction store now e m o db db') : FollowedIn now e db db' := by
  cases h with
  | diagnostic h => exact Or.inl rfl
  | unchanged hkind hverified hordinary hmatched h => exact Or.inl rfl
  | latched hkind hverified h => exact Or.inl rfl
  | alerted => exact Or.inl rfl
  | confirmationQueued id db' hkind hverified hordinary hmatched hprevious h =>
      exact Or.inr ⟨_, .confirmation id o.id hkind, rfl, h.appended⟩

theorem applyCheckFailure_executions (now : Timestamp) (e : Execution) (result : ExecutionResult)
    (db : Database) : (applyCheckFailure now e result db).executions = db.executions := by
  unfold applyCheckFailure
  split
  · rfl
  · split <;> rfl

theorem FailureEffect.followedIn {store : OpenStore} {result : ExecutionResult}
    (h : FailureEffect store now e result db db') : FollowedIn now e db db' := by
  cases h with
  | retried db' hretry h => exact h.followedIn
  | compileFailed hkind => exact Or.inl rfl
  | repairFailed hkind => exact Or.inl rfl
  | checkFailed hkind hfresh => exact Or.inl (applyCheckFailure_executions now e result db)
  | repairExists a hkind hstale hmem hmonitor hgeneration => exact Or.inl rfl
  | repairQueued id attemptId generation repairAttempts' uuids' db' hkind hstale hgeneration hnone
      hattempt h =>
      exact Or.inr ⟨_, .repair id generation hkind hgeneration, rfl, h.appended⟩

theorem PlanEffect.executions {plan : Json} {autoPromote : Bool}
    (h : PlanEffect now e plan autoPromote db db') : db'.executions = db.executions := by
  cases h <;> rfl

theorem Recorded.executions {observation : ResultObservation} {m : Monitor} {o : Observation}
    (h : Recorded now e observation db m o db') : db'.executions = db.executions := by
  obtain ⟨observations', uuids', -, rfl⟩ := h.inserted
  rfl

theorem Outcome.followedIn {store : OpenStore} {result : ExecutionResult}
    (h : Outcome store now e result db db') : FollowedIn now e db db' := by
  cases h with
  | planned plan db' hstatus hkind hplan h hobservation => exact Or.inl h.executions
  | plannedAndRecorded plan observation m o db₁ db' hstatus hkind hplan h hobservation hrecorded =>
      exact Or.inl (hrecorded.executions.trans h.executions)
  | observed observation m o db₁ db' hstatus hkind hobservation hrecorded h =>
      have hfollowed := h.followedIn
      unfold FollowedIn at hfollowed
      rwa [hrecorded.executions] at hfollowed
  | failed db' hstatus h => exact h.followedIn

theorem Reaction.db_eq_of_not_check {store : OpenStore} {m : Monitor} {o : Observation}
    (h : Reaction store now e m o db db') (hkind : e.kind ≠ .check) : db' = db := by
  cases h with
  | diagnostic _ => rfl
  | unchanged hcheck | latched hcheck | alerted _ _ _ _ hcheck | confirmationQueued _ _ hcheck =>
      exact absurd hcheck hkind

end Executions

end PriceScout.Store.Effects
