import Mathlib.Data.List.Sort
import PriceScout.Store.Schema

/-!
The transactional outbox: work messages are rows written with the execution
they announce, and a relay publishes them afterwards.
-/

namespace PriceScout.Store.Outbox

open PriceScout.Domain
open PriceScout.Library.Runs
open PriceScout.Library.Tables
open PriceScout.Store.Schema

def insertOutbox (db : Database) (now : Timestamp) (subject : String) (message : WorkMessage) :
    Except StoreError Database := do
  let outbox ← insertRow db.outbox "outbox_pkey"
    { id := db.outboxIds, subject := subject, payload := message, publishedAt := none,
      attempts := 0, lastError := none, createdAt := now }
  return { db with outbox, outboxIds := db.outboxIds + 1 }

def recoverySubject (kind : ExecutionKind) : String :=
  "scout.monitor." ++ kind.string

/-- The rows a relay call takes: unpublished, in id order, at most `limit`.
`locked` are the rows that `SKIP LOCKED` passes over. -/
def unpublished (db : Database) (locked : Nat → Bool) (limit : Nat) : List OutboxRow :=
  ((db.outbox.rows.filter fun row => row.publishedAt.isNone && !locked row.id).insertionSort
    fun a b => a.id ≤ b.id).take limit

/-- Mark one row published. -/
def markPublished (db : Database) (now : Timestamp) (id : Nat) : Database :=
  { db with
    outbox := db.outbox.update (fun row => row.id = id) fun row =>
      { row with publishedAt := some now, attempts := row.attempts + 1, lastError := none } }

def markFailed (db : Database) (id : Nat) (error : String) : Database :=
  { db with
    outbox := db.outbox.update (fun row => row.id = id) fun row =>
      { row with attempts := row.attempts + 1, lastError := some error } }

/-- Publish the batch in order; the first publish error is recorded on its row
and ends the batch. The third component is what `publish` was called for and
succeeded with. -/
def publishBatch (now : Timestamp) (publish : OutboxRow → Except String Unit) :
    Database → List OutboxRow → Database × Except String Nat × List OutboxRow
  | db, [] => (db, .ok 0, [])
  | db, row :: rest =>
      match publish row with
      | .error message => (markFailed db row.id message, .error message, [])
      | .ok _ =>
          let (db, count, published) := publishBatch now publish (markPublished db now row.id) rest
          (db, count.map (· + 1), row :: published)

/-- `ProcessOutbox`: the publications happen as the batch goes along; the
marks are lost when the commit fails. -/
def processOutbox (db : Database) (now : Timestamp) (locked : Nat → Bool) (limit : Nat)
    (publish : OutboxRow → Except String Unit) (commits : Bool) :
    Database × Except String Nat × List OutboxRow :=
  let (db', count, published) := publishBatch now publish db (unpublished db locked limit)
  if commits then (db', count, published) else (db, .error "commit failed", published)

end PriceScout.Store.Outbox
