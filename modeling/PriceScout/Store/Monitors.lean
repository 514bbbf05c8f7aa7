import PriceScout.Store.Executions

/-!
The operations of the operator and of the scheduler on monitors.
-/

namespace PriceScout.Store.Monitors

open PriceScout.Domain
open PriceScout.Library.GoStrings
open PriceScout.Library.JsonDocuments
open PriceScout.Library.Runs
open PriceScout.Library.Tables
open PriceScout.Store.Executions
open PriceScout.Store.Outbox
open PriceScout.Store.Recovery
open PriceScout.Store.Schema

structure CreateMonitorParams where
  url : String
  intent : String
  intervalMinutes : Int
  traceparent : String

def newMonitor (now : Timestamp) (id : UUID) (params : CreateMonitorParams) : Monitor where
  id := id
  url := params.url
  intent := params.intent
  intervalMinutes := params.intervalMinutes
  condition := .obj []
  status := .compiling
  currentRevisionId := none
  conditionMatched := false
  nextRunAt := none
  createdAt := now
  updatedAt := now

def compileExecution (now : Timestamp) (id monitorId : UUID) (params : CreateMonitorParams) :
    Execution :=
  { newExecution id monitorId .compile now with
    input := .obj [("url", .str params.url), ("intent", .str params.intent)] }

def createMonitor (now : Timestamp) (params : CreateMonitorParams) (db : Database) :
    Except StoreError ((Monitor × Execution) × Database) := do
  let (monitorId, db) := db.newUUID
  let (executionId, db) := db.newUUID
  let db ← db.insertMonitor (newMonitor now monitorId params)
  let db ← db.insertExecution (compileExecution now executionId monitorId params)
  let db ← insertOutbox db now "scout.monitor.compile"
    (workMessage executionId monitorId none params.traceparent)
  let monitor ← orNotFound (db.monitors.lookup monitorId)
  let execution ← orNotFound (db.executions.lookup executionId)
  return ((monitor, execution), db)

structure ConfirmMonitorParams where
  revisionId : UUID
  condition : Option Json

/-- A revision that an operator may still decide on. -/
def decidable (monitorId revisionId : UUID) (r : Revision) : Bool :=
  decide (r.id = revisionId) && decide (r.monitorId = monitorId) && r.pending

theorem id_of_decidable {monitorId revisionId : UUID} {r : Revision}
    (h : decidable monitorId revisionId r = true) : r.id = revisionId := by
  simp only [decidable, Bool.and_eq_true, decide_eq_true_eq] at h
  exact h.1.1

/-- The other revisions of a monitor that are still to be decided on. -/
def otherPending (monitorId revisionId : UUID) (r : Revision) : Bool :=
  decide (r.monitorId = monitorId) && decide (r.id ≠ revisionId) && r.pending

theorem activated_id (now : Timestamp) (r : Revision) :
    { r with validationState := .active, activatedAt := some now }.id = r.id :=
  rfl

def confirmMonitor (now : Timestamp) (monitorId : UUID) (params : ConfirmMonitorParams)
    (db : Database) : Except StoreError (Monitor × Database) := do
  let condition := params.condition.getD (.obj [])
  if db.revisions.count (decidable monitorId params.revisionId) = 0 then throw .conflict
  let db := db.updateRevisions (decidable monitorId params.revisionId)
    (fun r => { r with validationState := .active, activatedAt := some now }) (activated_id now)
  let db := db.updateRevisions (otherPending monitorId params.revisionId) fun r =>
    { r with validationState := .rejected }
  if db.monitors.count (fun m => m.id = monitorId) = 0 then throw .notFound
  let db := db.updateMonitor monitorId fun m =>
    { m with currentRevisionId := some params.revisionId, condition := condition, status := .active,
             nextRunAt := some (now + 60 * m.intervalMinutes), updatedAt := now }
  let monitor ← orNotFound (db.monitors.lookup monitorId)
  return (monitor, db)

inductive PatchAction where
  | pause
  | resume
  | none
  | unsupported (name : String)
deriving DecidableEq, Repr

structure PatchMonitorParams where
  intervalMinutes : Option Int
  condition : Option Json
  action : PatchAction

/-- The assignments of a patch, all made by one statement. -/
def patchAssign (now : Timestamp) (params : PatchMonitorParams) (m : Monitor) : Monitor :=
  let m := { m with intervalMinutes := params.intervalMinutes.getD m.intervalMinutes,
                    condition := params.condition.getD m.condition, updatedAt := now }
  match params.action with
  | .pause => { m with status := .paused, nextRunAt := none }
  | .resume => { m with status := .active, nextRunAt := some now }
  | _ => m

theorem patchAssign_id (now : Timestamp) (params : PatchMonitorParams) (m : Monitor) :
    (patchAssign now params m).id = m.id := by
  unfold patchAssign
  cases params.action <;> rfl

def patchMonitor (now : Timestamp) (id : UUID) (params : PatchMonitorParams) (db : Database) :
    Except StoreError (Monitor × Database) :=
  match params.action with
  | .unsupported name => .error (.failed ("unsupported action " ++ name))
  | _ => do
      if db.monitors.count (fun m => m.id = id) = 0 then throw .notFound
      require "monitors_interval_minutes_check" (∀ minutes ∈ params.intervalMinutes, 1 ≤ minutes)
      let db := db.updateMonitor id (patchAssign now params) (patchAssign_id now params)
      let monitor ← orNotFound (db.monitors.lookup id)
      return (monitor, db)

theorem resumed_id (now : Timestamp) (revisionId : UUID) (m : Monitor) :
    { m with currentRevisionId := some revisionId, status := .active,
             nextRunAt := some (now + 60 * m.intervalMinutes), updatedAt := now }.id = m.id :=
  rfl

def reviewRevision (now : Timestamp) (monitorId revisionId : UUID) (accept : Bool)
    (db : Database) : Except StoreError (Monitor × Database) := do
  if db.revisions.count (decidable monitorId revisionId) = 0 then throw .conflict
  let db := db.updateRevisions (decidable monitorId revisionId) fun r =>
    { r with validationState := if accept then .active else .rejected,
             activatedAt := if accept then some now else r.activatedAt }
  let db :=
    if accept then
      db.updateMonitor monitorId
        (fun m => { m with currentRevisionId := some revisionId, status := .active,
                           nextRunAt := some (now + 60 * m.intervalMinutes), updatedAt := now })
        (resumed_id now revisionId)
    else
      db.updateMonitor monitorId fun m =>
        { m with status := if m.currentRevisionId.isNone then .blocked else .active,
                 updatedAt := now }
  let db := db.updateRepairAttempts
    (fun a => decide (a.monitorId = monitorId) && decide (a.candidateRevisionId = some revisionId))
    fun a => { a with state := if accept then .activated else .rejected,
                      candidateRevisionId := some revisionId, completedAt := some now }
  let monitor ← orNotFound (db.monitors.lookup monitorId)
  return (monitor, db)

/-- A monitor that is due and has no execution in flight. -/
def due (now : Timestamp) (db : Database) (m : Monitor) : Bool :=
  decide (m.status = .active) && m.currentRevisionId.isSome && m.nextRunAt.any (· ≤ now) &&
    !db.executions.any (inFlightOf m.id)

/-- The monitors one scheduler pass claims, longest due first. `locked` are the
rows that `SKIP LOCKED` passes over. -/
def dueMonitors (now : Timestamp) (limit : Nat) (locked : UUID → Bool) (db : Database) :
    List (UUID × UUID) :=
  let items := ((db.monitors.rows.filter fun m => due now db m && !locked m.id).insertionSort
    fun a b => a.nextRunAt.getD 0 ≤ b.nextRunAt.getD 0).take limit
  items.filterMap fun m => m.currentRevisionId.map fun revisionId => (m.id, revisionId)

/-- Queue the scheduled check of one claimed monitor. -/
def claimDueMonitor (now : Timestamp) (db : Database) (item : UUID × UUID) :
    Except StoreError Database := do
  let (executionId, db) := db.newUUID
  let revision ← orNoRows (db.revisions.lookup item.2)
  let db ← db.insertExecution
    (checkExecution now executionId item.1 item.2 revision.generation "")
  let db ← insertOutbox db now "scout.monitor.check"
    (workMessage executionId item.1 (some item.2) "")
  return db.updateMonitor item.1 fun m =>
    { m with nextRunAt := some (now + 60 * m.intervalMinutes), updatedAt := now }

def claimDueMonitors (now : Timestamp) (limit : Nat) (locked : UUID → Bool) (db : Database) :
    Except StoreError (Nat × Database) := do
  let items := dueMonitors now limit locked db
  let db ← items.foldlM (claimDueMonitor now) db
  return (items.length, db)

end PriceScout.Store.Monitors
