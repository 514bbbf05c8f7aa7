import Mathlib.Data.List.Sort
import PriceScout.Store.Alerts

/-!
The deliveries of alerts: a runner leases those that are due, sends them, and
records what came of it. Every change ends with the state of the alert.
-/

namespace PriceScout.Store.Deliveries

open PriceScout.Domain
open PriceScout.Library.GoStrings
open PriceScout.Library.Runs
open PriceScout.Library.Tables
open PriceScout.Store.Alerts
open PriceScout.Store.Schema

/-- `count(*)` and `max` over the deliveries of one alert. -/
structure DeliveryStats where
  pending : Nat
  failed : Nat
  deliveredAt : Option Timestamp

/-- The deliveries that are neither delivered nor failed. -/
def unsettled (d : AlertDelivery) : Bool :=
  d.state = .pending || d.state = .leased

/-- The rows that `WHERE alert_id = $1` selects. -/
def deliveriesOf (alertId : UUID) (db : Database) : List AlertDelivery :=
  db.alertDeliveries.rows.filter fun d => d.alertId = alertId

/-- The group of an alert; there is none when the alert has no deliveries. -/
def deliveryStats (deliveries : List AlertDelivery) : Option DeliveryStats :=
  if deliveries.isEmpty then none
  else some
    { pending := deliveries.countP unsettled
      failed := deliveries.countP fun d => d.state = .failed
      deliveredAt := (deliveries.filterMap (·.deliveredAt)).max? }

/-- The assignments of both refresh statements. -/
def refreshed (stats : DeliveryStats) (a : Alert) : Alert :=
  { a with
    deliveryState :=
      if stats.pending > 0 then .pending else if stats.failed > 0 then .failed else .delivered
    deliveredAt := if stats.pending = 0 ∧ stats.failed = 0 then stats.deliveredAt else none }

theorem refreshed_id (stats : DeliveryStats) (a : Alert) : (refreshed stats a).id = a.id :=
  rfl

def refreshAlertState (alertId : UUID) (db : Database) : Database :=
  match deliveryStats (deliveriesOf alertId db) with
  | none => db
  | some stats =>
      { db with
        alerts :=
          db.alerts.update (fun a => a.id = alertId) (refreshed stats) (refreshed_id stats) }

def refreshByStats (db : Database) (a : Alert) : Alert :=
  match deliveryStats (deliveriesOf a.id db) with
  | none => a
  | some stats => refreshed stats a

theorem refreshByStats_id (db : Database) (a : Alert) : (refreshByStats db a).id = a.id := by
  unfold refreshByStats
  split <;> rfl

def refreshAllAlertStates (db : Database) : Database :=
  { db with
    alerts := db.alerts.update (fun _ => true) (refreshByStats db) (refreshByStats_id db) }

/-- The lease of the delivery has run out. -/
def expired (now : Timestamp) (d : AlertDelivery) : Bool :=
  d.state = .leased && d.leaseExpiresAt.any (· ≤ now)

/-- Alerts without deliveries, oldest first, at most 500. `locked` are the rows
that `SKIP LOCKED` passes over. -/
def undelivered (db : Database) (locked : UUID → Bool) : List Alert :=
  ((db.alerts.rows.filter fun a =>
      (a.deliveryState = .pending || a.deliveryState = .unconfigured) &&
    (deliveriesOf a.id db).isEmpty && !locked a.id).insertionSort
      fun a b => a.createdAt ≤ b.createdAt).take 500

/-- `UPDATE alerts SET delivery_state = ... WHERE id = $1`. -/
def setDeliveryState (alertId : UUID) (state : AlertState) (db : Database) : Database :=
  { db with
    alerts := db.alerts.update (fun a => a.id = alertId) fun a =>
      { a with deliveryState := state } }

def backfill (store : OpenStore) (now : Timestamp) (alertId : UUID) (db : Database) :
    Except StoreError Database :=
  if store.alertChannels.isEmpty then .ok (setDeliveryState alertId .unconfigured db)
  else (insertDeliveries now alertId store.alertChannels db).map (setDeliveryState alertId .pending)

/-- The deliveries on channels that are no longer configured. -/
def closable (store : OpenStore) (now : Timestamp) (d : AlertDelivery) : Bool :=
  (d.state = .pending || expired now d) &&
    (store.alertChannels.isEmpty || !store.alertChannels.contains d.channel)

def closed (d : AlertDelivery) : AlertDelivery :=
  { d with state := .failed, leaseOwner := none, leaseExpiresAt := none,
           lastError := some "delivery channel is no longer configured" }

theorem closed_id (d : AlertDelivery) : (closed d).id = d.id :=
  rfl

def closeRemoved (store : OpenStore) (now : Timestamp) (db : Database) : Database :=
  { db with alertDeliveries := db.alertDeliveries.update (closable store now) closed closed_id }

def reconcileAlertDeliveries (store : OpenStore) (now : Timestamp) (locked : UUID → Bool)
    (db : Database) : Except StoreError (Unit × Database) := do
  let db ← ((undelivered db locked).map (·.id)).foldlM
    (fun db alertId => backfill store now alertId db) db
  return ((), refreshAllAlertStates (closeRemoved store now db))

/-- A claimed delivery with what its message is made of. -/
structure ClaimedDelivery where
  id : UUID
  alertId : UUID
  channel : String
  attempt : Nat
  alertCreatedAt : Timestamp
  monitorId : UUID
  monitorUrl : String
  monitorIntent : String
  observationId : UUID
  executionId : UUID
  priceMinor : Int
  currency : String
  inStock : Bool
  title : String
  observationTime : Timestamp

/-- Due deliveries on configured channels, and those whose lease has run out. -/
def claimable (store : OpenStore) (now : Timestamp) (d : AlertDelivery) : Bool :=
  store.alertChannels.contains d.channel &&
    (d.state = .pending && d.nextAttemptAt ≤ now || expired now d)

/-- The rows a claim picks: by the time of their next attempt, then by id, at most `limit`. -/
def picked (store : OpenStore) (now : Timestamp) (locked : UUID → Bool) (limit : Nat)
    (db : Database) : List AlertDelivery :=
  ((db.alertDeliveries.rows.filter fun d => claimable store now d && !locked d.id).insertionSort
    fun a b => a.nextAttemptAt < b.nextAttemptAt ∨
      a.nextAttemptAt = b.nextAttemptAt ∧ a.id.value ≤ b.id.value).take limit

def leased (now : Timestamp) (owner : UUID) (leaseSeconds : Nat) (d : AlertDelivery) :
    AlertDelivery :=
  { d with state := .leased, attempts := d.attempts + 1, leaseOwner := some owner,
           leaseExpiresAt := some (now + leaseSeconds) }

theorem leased_id (now : Timestamp) (owner : UUID) (leaseSeconds : Nat) (d : AlertDelivery) :
    (leased now owner leaseSeconds d).id = d.id :=
  rfl

/-- Join a leased delivery with its alert, monitor and observation. -/
def claimedDelivery (db : Database) (d : AlertDelivery) : Option ClaimedDelivery := do
  let alert ← db.alerts.lookup d.alertId
  let monitor ← db.monitors.lookup alert.monitorId
  let observation ← db.observations.lookup alert.observationId
  return {
    id := d.id, alertId := d.alertId, channel := d.channel, attempt := d.attempts,
    alertCreatedAt := alert.createdAt, monitorId := monitor.id, monitorUrl := monitor.url,
    monitorIntent := monitor.intent, observationId := observation.id,
    executionId := observation.executionId, priceMinor := observation.priceMinor,
    currency := observation.currency, inStock := observation.inStock, title := observation.title,
    observationTime := observation.observedAt }

/-- The seconds of a lease that is given in nanoseconds. -/
def leaseSeconds (lease : Nat) : Nat :=
  max (lease / 1000000000) 1

/-- `ClaimAlertDeliveries`, one statement. -/
def claimAlertDeliveries (store : OpenStore) (now : Timestamp) (owner : UUID) (lease : Nat)
    (locked : UUID → Bool) (limit : Nat) (db : Database) : List ClaimedDelivery × Database :=
  if store.alertChannels.isEmpty then ([], db)
  else
    let ids := (picked store now locked limit db).map (·.id)
    let db := { db with
      alertDeliveries := db.alertDeliveries.update (fun d => ids.contains d.id)
        (leased now owner (leaseSeconds lease)) (leased_id now owner (leaseSeconds lease)) }
    (((db.alertDeliveries.rows.filter fun d => ids.contains d.id).insertionSort
      fun a b => a.id.value ≤ b.id.value).filterMap (claimedDelivery db), db)

/-- The row that a completion or a failure updates: the delivery as long as the runner
has it leased. -/
def leasedBy (deliveryId owner : UUID) (d : AlertDelivery) : Bool :=
  d.id = deliveryId && d.state = .leased && decide (d.leaseOwner = some owner)

def delivered (now : Timestamp) (d : AlertDelivery) : AlertDelivery :=
  { d with state := .delivered, deliveredAt := some now, leaseOwner := none, leaseExpiresAt := none,
           lastError := none }

theorem delivered_id (now : Timestamp) (d : AlertDelivery) : (delivered now d).id = d.id :=
  rfl

def completeAlertDelivery (now : Timestamp) (deliveryId owner : UUID) (db : Database) :
    Except StoreError (Unit × Database) :=
  match db.alertDeliveries.find (leasedBy deliveryId owner) with
  | none => .error .notFound
  | some d =>
      .ok ((), refreshAlertState d.alertId { db with
        alertDeliveries := db.alertDeliveries.update (leasedBy deliveryId owner) (delivered now)
          (delivered_id now) })

/-- What `FailAlertDelivery` is told about the attempt. -/
structure DeliveryFailure where
  attempt : Nat
  maxAttempts : Nat
  nextAttempt : Timestamp
  statusCode : Int
  message : String
  permanent : Bool
deriving DecidableEq

def DeliveryFailure.state (failure : DeliveryFailure) : DeliveryState :=
  if failure.permanent || failure.attempt ≥ failure.maxAttempts then .failed else .pending

/-- The message as it is stored, at most 1000 bytes. -/
def failureMessage (message : String) : String :=
  clip 1000 (trimSpace message)

def returned (failure : DeliveryFailure) (d : AlertDelivery) : AlertDelivery :=
  { d with state := failure.state, nextAttemptAt := failure.nextAttempt, leaseOwner := none,
           leaseExpiresAt := none,
           lastStatusCode := if failure.statusCode = 0 then none else some failure.statusCode,
           lastError := nullIfEmpty (failureMessage failure.message) }

theorem returned_id (failure : DeliveryFailure) (d : AlertDelivery) :
    (returned failure d).id = d.id :=
  rfl

/-- `FailAlertDelivery`, which answers with the state the delivery is left in. -/
def failAlertDelivery (deliveryId owner : UUID) (failure : DeliveryFailure) (db : Database) :
    Except StoreError (DeliveryState × Database) :=
  match db.alertDeliveries.find (leasedBy deliveryId owner) with
  | none => .error .notFound
  | some d =>
      .ok (failure.state, refreshAlertState d.alertId { db with
        alertDeliveries := db.alertDeliveries.update (leasedBy deliveryId owner) (returned failure)
          (returned_id failure) })

end PriceScout.Store.Deliveries
