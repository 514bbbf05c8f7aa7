import PriceScout.Store.Schema

/-!
The settings a process opens the store with, and the creation of alerts.
-/

namespace PriceScout.Store.Alerts

open PriceScout.Domain
open PriceScout.Library.Runs
open PriceScout.Library.Tables
open PriceScout.Store.Schema

/-- What a process opens the store with. -/
structure OpenStore where
  alertChannels : List String
  maxExecutionAttempts : Nat
  maxExecutionAttempts_pos : 1 ≤ maxExecutionAttempts

/-- `Open`: unknown channels are dropped and a missing attempt limit is 3. -/
def openStore (alertChannels : List String) (maxExecutionAttempts : Nat) : OpenStore where
  alertChannels := alertChannels.filter fun channel => channel = "webhook" || channel = "discord"
  maxExecutionAttempts := if maxExecutionAttempts < 1 then 3 else maxExecutionAttempts
  maxExecutionAttempts_pos := by split <;> omega

/-- One delivery row for each configured channel. -/
def insertDeliveries (now : Timestamp) (alertId : UUID) (channels : List String) (db : Database) :
    Except StoreError Database :=
  channels.foldlM (fun db channel =>
    let (deliveryId, db) := db.newUUID
    db.insertAlertDelivery
      { id := deliveryId, alertId := alertId, channel := channel, state := .pending, attempts := 0,
        nextAttemptAt := now, leaseOwner := none, leaseExpiresAt := none, lastError := none,
        lastStatusCode := none, deliveredAt := none }) db

def newAlert (store : OpenStore) (now : Timestamp) (id monitorId observationId : UUID)
    (idempotencyKey : String) : Alert where
  id := id
  monitorId := monitorId
  observationId := observationId
  channel := "configured"
  idempotencyKey := idempotencyKey
  deliveryState := if store.alertChannels.length > 0 then .pending else .unconfigured
  createdAt := now
  deliveredAt := none

def createAlert (store : OpenStore) (now : Timestamp) (monitorId observationId : UUID)
    (idempotencyKey : String) (db : Database) : Except StoreError Database := do
  let (alertId, db) := db.newUUID
  let db ← db.insertAlert (newAlert store now alertId monitorId observationId idempotencyKey)
  insertDeliveries now alertId store.alertChannels db

end PriceScout.Store.Alerts
