import PriceScout.Domain
import PriceScout.Library.Runs
import PriceScout.Library.Tables

/-!
The tables of the migrations with their constraints. A statement that violates
one fails, and with it the transaction it belongs to.
-/

namespace PriceScout.Store.Schema

open PriceScout.Domain
open PriceScout.Library.JsonDocuments
open PriceScout.Library.Runs
open PriceScout.Library.Tables

inductive StoreError where
  | notFound
  | conflict
  | invalidResult (message : String)
  | constraint (name : String)
  | failed (message : String)
deriving DecidableEq, Repr

structure RepairAttempt where
  id : UUID
  monitorId : UUID
  failedGeneration : Nat
  executionId : UUID
  candidateRevisionId : Option UUID
  state : RepairState
  outcome : Option String
  createdAt : Timestamp
  completedAt : Option Timestamp

inductive AlertState where
  | unconfigured
  | pending
  | failed
  | delivered
deriving DecidableEq, Repr

structure Alert where
  id : UUID
  monitorId : UUID
  observationId : UUID
  channel : String
  idempotencyKey : String
  deliveryState : AlertState
  createdAt : Timestamp
  deliveredAt : Option Timestamp

inductive DeliveryState where
  | pending
  | leased
  | delivered
  | failed
deriving DecidableEq, Repr

structure AlertDelivery where
  id : UUID
  alertId : UUID
  channel : String
  state : DeliveryState
  attempts : Nat
  nextAttemptAt : Timestamp
  leaseOwner : Option UUID
  leaseExpiresAt : Option Timestamp
  lastError : Option String
  lastStatusCode : Option Int
  deliveredAt : Option Timestamp

structure OutboxRow where
  id : Nat
  subject : String
  payload : WorkMessage
  publishedAt : Option Timestamp
  attempts : Nat
  lastError : Option String
  createdAt : Timestamp

/-- The database with the sources of fresh identifiers: `uuid.New` and the
serial column of the outbox. -/
structure Database where
  monitors : Table Monitor.id
  revisions : Table Revision.id
  executions : Table Execution.id
  observations : Table Observation.id
  repairAttempts : Table RepairAttempt.id
  alerts : Table Alert.id
  alertDeliveries : Table AlertDelivery.id
  artifacts : Table Artifact.id
  outbox : Table OutboxRow.id
  uuids : Nat
  outboxIds : Nat

/-- The database after the migrations. -/
def Database.empty : Database where
  monitors := .empty _
  revisions := .empty _
  executions := .empty _
  observations := .empty _
  repairAttempts := .empty _
  alerts := .empty _
  alertDeliveries := .empty _
  artifacts := .empty _
  outbox := .empty _
  uuids := 1
  outboxIds := 1

/-- `uuid.New`; the nil UUID is never drawn. -/
def Database.newUUID (db : Database) : UUID × Database :=
  (⟨db.uuids⟩, { db with uuids := db.uuids + 1 })

def require (name : String) (c : Prop) [Decidable c] : Except StoreError Unit :=
  if c then .ok () else .error (.constraint name)

theorem require_eq_ok {name : String} {c : Prop} [Decidable c] {u : Unit} :
    require name c = .ok u ↔ c := by
  unfold require
  by_cases h : c <;> simp [h]

def insertRow {α κ : Type} [DecidableEq κ] {key : α → κ} (table : Table key) (name : String)
    (row : α) : Except StoreError (Table key) :=
  match table.insert row with
  | some table' => .ok table'
  | none => .error (.constraint name)

theorem appended_of_insertRow {α κ : Type} [DecidableEq κ] {key : α → κ}
    {table table' : Table key} {name : String} {row : α}
    (h : insertRow table name row = .ok table') : table.Appended row table' := by
  unfold insertRow at h
  split at h
  · cases h
    rename_i hinsert
    exact Table.appended_of_insert hinsert
  · cases h

theorem insertRow_of_fresh {α κ : Type} [DecidableEq κ] {key : α → κ} {table : Table key}
    {row : α} (name : String) (h : ∀ r ∈ table, key r ≠ key row) :
    ∃ table', insertRow table name row = .ok table' ∧ table.Appended row table' := by
  obtain ⟨table', htable'⟩ := Option.isSome_iff_exists.mp (Table.insert_isSome h)
  exact ⟨table', by simp [insertRow, htable'], Table.appended_of_insert htable'⟩

@[simp] theorem avoids_require {bad : StoreError → Prop} {name : String} {c : Prop} [Decidable c] :
    Avoids bad (require name c) ↔ (¬ c → ¬ bad (.constraint name)) := by
  unfold require
  by_cases h : c <;> simp [h]

theorem avoids_insertRow {α κ : Type} [DecidableEq κ] {key : α → κ} {table : Table key}
    {bad : StoreError → Prop} {name : String} {row : α} (h : ¬ bad (.constraint name)) :
    Avoids bad (insertRow table name row) := by
  unfold insertRow
  split <;> simp [h]

namespace Database

def hasMonitor (db : Database) (id : UUID) : Prop :=
  (db.monitors.lookup id).isSome

instance (db : Database) (id : UUID) : Decidable (db.hasMonitor id) :=
  inferInstanceAs (Decidable (_ = true))

def hasRevision (db : Database) (id : UUID) : Prop :=
  (db.revisions.lookup id).isSome

instance (db : Database) (id : UUID) : Decidable (db.hasRevision id) :=
  inferInstanceAs (Decidable (_ = true))

def hasExecution (db : Database) (id : UUID) : Prop :=
  (db.executions.lookup id).isSome

instance (db : Database) (id : UUID) : Decidable (db.hasExecution id) :=
  inferInstanceAs (Decidable (_ = true))

theorem hasMonitor_iff {db : Database} {id : UUID} :
    db.hasMonitor id ↔ ∃ m ∈ db.monitors, m.id = id := by
  simp only [hasMonitor, Option.isSome_iff_exists, Table.lookup_eq_some_iff]

theorem hasExecution_iff {db : Database} {id : UUID} :
    db.hasExecution id ↔ ∃ e ∈ db.executions, e.id = id := by
  simp only [hasExecution, Option.isSome_iff_exists, Table.lookup_eq_some_iff]

def insertMonitor (db : Database) (row : Monitor) : Except StoreError Database := do
  require "monitors_interval_minutes_check" (1 ≤ row.intervalMinutes)
  let monitors ← insertRow db.monitors "monitors_pkey" row
  return { db with monitors }

def insertRevision (db : Database) (row : Revision) : Except StoreError Database := do
  require "monitor_revisions_monitor_id_fkey" (db.hasMonitor row.monitorId)
  require "monitor_revisions_generation_check" (0 < row.generation)
  require "monitor_revisions_monitor_id_generation_key"
    (db.revisions.any (fun r => r.monitorId = row.monitorId ∧ r.generation = row.generation) =
      false)
  let revisions ← insertRow db.revisions "monitor_revisions_pkey" row
  return { db with revisions }

def insertExecution (db : Database) (row : Execution) : Except StoreError Database := do
  require "executions_monitor_id_fkey" (db.hasMonitor row.monitorId)
  require "executions_revision_id_fkey" (∀ id ∈ row.revisionId, db.hasRevision id)
  require "executions_recovery_of_fk" (∀ id ∈ row.recoveryOf, db.hasExecution id)
  require "executions_monitor_id_idempotency_key_key"
    (db.executions.any (fun e => e.monitorId = row.monitorId ∧
      e.idempotencyKey = row.idempotencyKey ∧ e.idempotencyKey.isSome) = false)
  require "executions_recovery_of_unique"
    (db.executions.any (fun e => e.recoveryOf = row.recoveryOf ∧ e.recoveryOf.isSome) = false)
  let executions ← insertRow db.executions "executions_pkey" row
  return { db with executions }

def insertObservation (db : Database) (row : Observation) : Except StoreError Database := do
  require "observations_monitor_id_fkey" (db.hasMonitor row.monitorId)
  require "observations_execution_id_fkey" (db.hasExecution row.executionId)
  require "observations_price_minor_check" (0 < row.priceMinor)
  require "observations_execution_id_key"
    (db.observations.any (fun o => o.executionId = row.executionId) = false)
  let observations ← insertRow db.observations "observations_pkey" row
  return { db with observations }

def insertRepairAttempt (db : Database) (row : RepairAttempt) : Except StoreError Database := do
  require "repair_attempts_monitor_id_fkey" (db.hasMonitor row.monitorId)
  require "repair_attempts_execution_id_fkey" (db.hasExecution row.executionId)
  require "repair_attempts_execution_id_key"
    (db.repairAttempts.any (fun a => a.executionId = row.executionId) = false)
  require "repair_attempts_monitor_id_failed_generation_key"
    (db.repairAttempts.any (fun a => a.monitorId = row.monitorId ∧
      a.failedGeneration = row.failedGeneration) = false)
  let repairAttempts ← insertRow db.repairAttempts "repair_attempts_pkey" row
  return { db with repairAttempts }

def insertAlert (db : Database) (row : Alert) : Except StoreError Database := do
  require "alerts_monitor_id_fkey" (db.hasMonitor row.monitorId)
  require "alerts_observation_id_fkey" ((db.observations.lookup row.observationId).isSome = true)
  require "alerts_idempotency_key_key"
    (db.alerts.any (fun a => a.idempotencyKey = row.idempotencyKey) = false)
  let alerts ← insertRow db.alerts "alerts_pkey" row
  return { db with alerts }

/-- `INSERT ... ON CONFLICT (alert_id, channel) DO NOTHING`. -/
def insertAlertDelivery (db : Database) (row : AlertDelivery) : Except StoreError Database :=
  if db.alertDeliveries.any (fun d => d.alertId = row.alertId ∧ d.channel = row.channel) then
    .ok db
  else do
    require "alert_deliveries_alert_id_fkey" ((db.alerts.lookup row.alertId).isSome = true)
    let alertDeliveries ← insertRow db.alertDeliveries "alert_deliveries_pkey" row
    return { db with alertDeliveries }

/-- `INSERT ... ON CONFLICT (execution_id, storage_key) DO NOTHING`. -/
def insertArtifact (db : Database) (row : Artifact) : Except StoreError Database :=
  if db.artifacts.any
    (fun a => a.executionId = row.executionId ∧ a.storageKey = row.storageKey) then
    .ok db
  else do
    require "artifacts_execution_id_fkey" (db.hasExecution row.executionId)
    let artifacts ← insertRow db.artifacts "artifacts_pkey" row
    return { db with artifacts }

/-- `UPDATE monitors ... WHERE id = $1`. -/
def updateMonitor (db : Database) (id : UUID) (assign : Monitor → Monitor)
    (h : ∀ m, (assign m).id = m.id := by intro _; rfl) : Database :=
  { db with monitors := db.monitors.update (fun m => m.id = id) assign h }

/-- `UPDATE executions ... WHERE id = $1`. -/
def updateExecution (db : Database) (id : UUID) (assign : Execution → Execution)
    (h : ∀ e, (assign e).id = e.id := by intro _; rfl) : Database :=
  { db with executions := db.executions.update (fun e => e.id = id) assign h }

def updateRevisions (db : Database) (p : Revision → Bool) (assign : Revision → Revision)
    (h : ∀ r, (assign r).id = r.id := by intro _; rfl) : Database :=
  { db with revisions := db.revisions.update p assign h }

def updateRepairAttempts (db : Database) (p : RepairAttempt → Bool)
    (assign : RepairAttempt → RepairAttempt)
    (h : ∀ a, (assign a).id = a.id := by intro _; rfl) : Database :=
  { db with repairAttempts := db.repairAttempts.update p assign h }

section Inversion

variable {db db' : Database}

theorem insertMonitor_ok {row : Monitor} (h : db.insertMonitor row = .ok db') :
    1 ≤ row.intervalMinutes ∧
      ∃ monitors',
        db.monitors.Appended row monitors' ∧ db' = { db with monitors := monitors' } := by
  simp only [insertMonitor, bind_eq_ok, require_eq_ok] at h
  obtain ⟨_, hinterval, monitors', hinsert, h⟩ := h
  exact ⟨hinterval, monitors', appended_of_insertRow hinsert, (pure_eq_ok.mp h).symm⟩

theorem insertRevision_ok {row : Revision} (h : db.insertRevision row = .ok db') :
    ∃ revisions', db.revisions.Appended row revisions' ∧
      db' = { db with revisions := revisions' } ∧
      ∀ r ∈ db.revisions, r.monitorId = row.monitorId → r.generation ≠ row.generation := by
  simp only [insertRevision, bind_eq_ok, require_eq_ok] at h
  obtain ⟨_, _, _, _, _, hunique, revisions', hinsert, h⟩ := h
  refine ⟨revisions', appended_of_insertRow hinsert, (pure_eq_ok.mp h).symm, ?_⟩
  intro r hr hmonitor hgeneration
  have := Table.any_eq_false_iff.mp hunique r hr
  simp [hmonitor, hgeneration] at this

theorem insertExecution_ok {row : Execution} (h : db.insertExecution row = .ok db') :
    ∃ executions', db.executions.Appended row executions' ∧
      db' = { db with executions := executions' } ∧ db.hasMonitor row.monitorId ∧
      (∀ id ∈ row.revisionId, db.hasRevision id) ∧
      ∀ e ∈ db.executions, e.recoveryOf.isSome → e.recoveryOf ≠ row.recoveryOf := by
  simp only [insertExecution, bind_eq_ok, require_eq_ok] at h
  obtain ⟨_, hmonitor, _, hrevision, _, _, _, _, _, hrecovery, executions', hinsert, h⟩ := h
  refine ⟨executions', appended_of_insertRow hinsert, (pure_eq_ok.mp h).symm, hmonitor, hrevision,
      ?_⟩
  intro e he hsome heq
  have := Table.any_eq_false_iff.mp hrecovery e he
  simp [heq] at this
  simp [heq, this] at hsome

theorem insertObservation_ok {row : Observation} (h : db.insertObservation row = .ok db') :
    ∃ observations', db.observations.Appended row observations' ∧
      db' = { db with observations := observations' } ∧
      ∀ o ∈ db.observations, o.executionId ≠ row.executionId := by
  simp only [insertObservation, bind_eq_ok, require_eq_ok] at h
  obtain ⟨_, _, _, _, _, _, _, hunique, observations', hinsert, h⟩ := h
  refine ⟨observations', appended_of_insertRow hinsert, (pure_eq_ok.mp h).symm, ?_⟩
  intro o ho heq
  have := Table.any_eq_false_iff.mp hunique o ho
  simp [heq] at this

theorem insertRepairAttempt_ok {row : RepairAttempt} (h : db.insertRepairAttempt row = .ok db') :
    ∃ repairAttempts', db.repairAttempts.Appended row repairAttempts' ∧
      db' = { db with repairAttempts := repairAttempts' } ∧
      (∀ a ∈ db.repairAttempts, a.executionId ≠ row.executionId) ∧
      ∀ a ∈ db.repairAttempts, a.monitorId = row.monitorId →
        a.failedGeneration ≠ row.failedGeneration := by
  simp only [insertRepairAttempt, bind_eq_ok, require_eq_ok] at h
  obtain ⟨_, _, _, _, _, hexecution, _, hgeneration, repairAttempts', hinsert, h⟩ := h
  refine ⟨repairAttempts', appended_of_insertRow hinsert, (pure_eq_ok.mp h).symm, ?_, ?_⟩
  · intro a ha heq
    have := Table.any_eq_false_iff.mp hexecution a ha
    simp [heq] at this
  · intro a ha hmonitor heq
    have := Table.any_eq_false_iff.mp hgeneration a ha
    simp [hmonitor, heq] at this

theorem insertAlert_ok {row : Alert} (h : db.insertAlert row = .ok db') :
    ∃ alerts', db.alerts.Appended row alerts' ∧ db' = { db with alerts := alerts' } := by
  simp only [insertAlert, bind_eq_ok, require_eq_ok] at h
  obtain ⟨_, _, _, _, _, _, alerts', hinsert, h⟩ := h
  exact ⟨alerts', appended_of_insertRow hinsert, (pure_eq_ok.mp h).symm⟩

theorem insertAlertDelivery_ok {row : AlertDelivery} (h : db.insertAlertDelivery row = .ok db') :
    ∃ alertDeliveries', db' = { db with alertDeliveries := alertDeliveries' } := by
  unfold insertAlertDelivery at h
  split at h
  · cases h
    exact ⟨_, rfl⟩
  · simp only [bind_eq_ok, require_eq_ok] at h
    obtain ⟨_, _, alertDeliveries', _, h⟩ := h
    exact ⟨alertDeliveries', (pure_eq_ok.mp h).symm⟩

theorem insertArtifact_ok {row : Artifact} (h : db.insertArtifact row = .ok db') :
    ∃ artifacts', db' = { db with artifacts := artifacts' } := by
  unfold insertArtifact at h
  split at h
  · cases h
    exact ⟨_, rfl⟩
  · simp only [bind_eq_ok, require_eq_ok] at h
    obtain ⟨_, _, artifacts', _, h⟩ := h
    exact ⟨artifacts', (pure_eq_ok.mp h).symm⟩

end Inversion

end Database

end PriceScout.Store.Schema
