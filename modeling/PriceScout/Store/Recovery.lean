import PriceScout.Store.Outbox

/-!
Recovery of stale executions: a stale execution fails and, while its attempts
last, is replaced by a new execution that records what it recovers.
-/

namespace PriceScout.Store.Recovery

open PriceScout.Domain
open PriceScout.Library.JsonDocuments
open PriceScout.Library.Runs
open PriceScout.Library.Tables
open PriceScout.Store.Outbox
open PriceScout.Store.Schema

inductive RecoveryOutcome where
  | requeued
  | terminal
deriving DecidableEq, Repr

structure ExecutionRecovery where
  executionId : UUID
  replacementId : Option UUID
  kind : ExecutionKind
  priorState : ExecutionState
  outcome : RecoveryOutcome
  attempt : Nat

def recoveryDecision (attempt maxAttempts : Nat) : RecoveryOutcome :=
  if attempt ≥ maxAttempts then .terminal else .requeued

/-- A row of `executions` with the column defaults. -/
def newExecution (id monitorId : UUID) (kind : ExecutionKind) (now : Timestamp) : Execution where
  id := id
  monitorId := monitorId
  revisionId := none
  kind := kind
  requestedGeneration := none
  attempt := 1
  recoveryOf := none
  state := .queued
  failureClassification := none
  provider := none
  traceId := none
  browserSessionUrl := none
  input := .obj []
  result := none
  error := none
  idempotencyKey := none
  createdAt := now
  startedAt := none
  completedAt := none

/-- The message that announces an execution. -/
def workMessage (executionId monitorId : UUID) (revisionId : Option UUID) (traceparent : String) :
    WorkMessage where
  schemaVersion := schemaVersion
  executionId := executionId
  monitorId := monitorId
  revisionId := revisionId
  traceparent := traceparent

/-- Point a repair attempt at the replacement of its execution. -/
def repointRepairAttempt (db : Database) (execution : Execution) (replacementId : UUID) :
    Except StoreError Database := do
  let affected := fun a : RepairAttempt => decide (a.executionId = execution.id)
  let db' := db.updateRepairAttempts affected fun a =>
    { a with executionId := replacementId, state := .queued, candidateRevisionId := none,
             outcome := none, completedAt := none }
  require "repair_attempts_execution_id_key" (db'.repairAttempts.rows.map (·.executionId)).Nodup
  if db.repairAttempts.count affected ≠ 1 then
    .error (.failed ("repair execution " ++ execution.id.string ++ " has no repair attempt"))
  else .ok db'

/-- The next attempt at the work of an execution. -/
def replacementExecution (now : Timestamp) (id : UUID) (execution : Execution) : Execution :=
  { newExecution id execution.monitorId execution.kind now with
    revisionId := execution.revisionId, requestedGeneration := execution.requestedGeneration,
    attempt := execution.attempt + 1, input := execution.input, recoveryOf := some execution.id }

def enqueueExecutionReplacement (now : Timestamp) (execution : Execution) (db : Database) :
    Except StoreError (UUID × Database) := do
  let (replacementId, db) := db.newUUID
  let db ← db.insertExecution (replacementExecution now replacementId execution)
  let db ← if execution.kind = .repair then repointRepairAttempt db execution replacementId
    else pure db
  let db ← insertOutbox db now (recoverySubject execution.kind)
    (workMessage replacementId execution.monitorId execution.revisionId "")
  return (replacementId, db)

def terminalizeStaleExecution (now : Timestamp) (execution : Execution) (reason : String)
    (db : Database) : Database :=
  match execution.kind with
  | .compile =>
      db.updateMonitor execution.monitorId fun m => { m with status := .blocked, updatedAt := now }
  | .repair =>
      (db.updateRepairAttempts (fun a => a.executionId = execution.id) fun a =>
        { a with state := .failed, outcome := some reason, completedAt := some now }).updateMonitor
          execution.monitorId fun m =>
            { m with status := .needsReview, nextRunAt := none, updatedAt := now }
  | .check => db

/-- Running executions that started too long ago and have no replacement yet,
longest running first. `locked` are the rows that `SKIP LOCKED` passes over. -/
def staleExecutions (db : Database) (now runningStaleAfter : Timestamp) (locked : UUID → Bool)
    (limit : Nat) : List Execution :=
  let since := fun e : Execution => e.startedAt.getD e.createdAt
  ((db.executions.rows.filter fun e =>
      e.state = .running && e.startedAt.any (· < now - max runningStaleAfter 1) &&
        !db.executions.any (fun child => child.recoveryOf = some e.id) &&
        !locked e.id).insertionSort
    fun a b => since a < since b ∨ since a = since b ∧ a.id.value ≤ b.id.value).take limit

def staleReason : String :=
  "running execution exceeded its stale recovery timeout"

/-- Make one stale execution terminal, unless it has moved on. -/
def failStale (now : Timestamp) (execution : Execution) (db : Database) : Database :=
  { db with
    executions := db.executions.update
      (fun e => decide (e.id = execution.id) && decide (e.state = execution.state)) fun e =>
        { e with state := .failed, failureClassification := some "execution_stale",
                 error := some staleReason, completedAt := some now } }

/-- One pass of the sweep's loop. -/
def sweepExecution (now : Timestamp) (maxAttempts : Nat)
    (acc : List ExecutionRecovery × Database) (execution : Execution) :
    Except StoreError (List ExecutionRecovery × Database) :=
  let db := acc.2
  if db.executions.count
    (fun e => decide (e.id = execution.id) && decide (e.state = execution.state)) ≠ 1
  then .ok acc
  else
    let db := failStale now execution db
    let recovery : ExecutionRecovery :=
      { executionId := execution.id, replacementId := none, kind := execution.kind,
        priorState := execution.state, outcome := recoveryDecision execution.attempt maxAttempts,
        attempt := execution.attempt }
    match recovery.outcome with
    | .terminal =>
        .ok (acc.1 ++ [recovery], terminalizeStaleExecution now execution staleReason db)
    | .requeued => do
        let (replacementId, db) ← enqueueExecutionReplacement now execution db
        return (acc.1 ++ [{ recovery with replacementId := some replacementId }], db)

def sweepStaleExecutions (now runningStaleAfter : Timestamp) (maxAttempts limit : Nat)
    (locked : UUID → Bool) (db : Database) :
    Except StoreError (List ExecutionRecovery × Database) :=
  (staleExecutions db now runningStaleAfter locked limit).foldlM (sweepExecution now maxAttempts)
    ([], db)

end PriceScout.Store.Recovery
