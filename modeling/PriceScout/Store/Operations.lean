import PriceScout.Store.Monitors

/-!
The store as a system: its operations in any order, each an atomic
transaction of a process with its own settings and its own clock.
-/

namespace PriceScout.Store.Operations

open PriceScout.Domain
open PriceScout.Library.Runs
open PriceScout.Store.Alerts
open PriceScout.Store.Executions
open PriceScout.Store.Monitors
open PriceScout.Store.Outbox
open PriceScout.Store.Recovery
open PriceScout.Store.Schema

inductive Operation where
  | createMonitor (params : CreateMonitorParams)
  | getExecutionInput (id : UUID)
  | enqueueCheck (monitorId : UUID) (idempotencyKey traceparent : String)
  | applyResult (store : OpenStore) (executionId : UUID) (result : ExecutionResult)
  | confirmMonitor (monitorId : UUID) (params : ConfirmMonitorParams)
  | patchMonitor (id : UUID) (params : PatchMonitorParams)
  | reviewRevision (monitorId revisionId : UUID) (accept : Bool)
  | claimDueMonitors (limit : Nat) (locked : UUID → Bool)
  | sweepStaleExecutions (runningStaleAfter : Timestamp) (maxAttempts limit : Nat)
      (locked : UUID → Bool)
  | processOutbox (locked : Nat → Bool) (limit : Nat) (publish : OutboxRow → Except String Unit)
      (commits : Bool)

/-- An operation with the time at which its transaction runs. -/
structure Call where
  now : Timestamp
  operation : Operation

def step (db : Database) (call : Call) : Database :=
  match call.operation with
  | .createMonitor params => commit (createMonitor call.now params) db
  | .getExecutionInput id => commit (getExecutionInput call.now id) db
  | .enqueueCheck monitorId idempotencyKey traceparent =>
      commit (enqueueCheck call.now monitorId idempotencyKey traceparent) db
  | .applyResult store executionId result =>
      commit (applyResult store call.now executionId result) db
  | .confirmMonitor monitorId params => commit (confirmMonitor call.now monitorId params) db
  | .patchMonitor id params => commit (patchMonitor call.now id params) db
  | .reviewRevision monitorId revisionId accept =>
      commit (reviewRevision call.now monitorId revisionId accept) db
  | .claimDueMonitors limit locked => commit (claimDueMonitors call.now limit locked) db
  | .sweepStaleExecutions runningStaleAfter maxAttempts limit locked =>
      commit (sweepStaleExecutions call.now runningStaleAfter maxAttempts limit locked) db
  | .processOutbox locked limit publish commits =>
      (processOutbox db call.now locked limit publish commits).1

/-- The states of the store that some sequence of operations reaches. -/
abbrev StoreReachable (db : Database) : Prop :=
  Reachable step Database.empty db

end PriceScout.Store.Operations
