import PriceScout.Library.ReadCommitted
import PriceScout.Store.AlertAggregates

/-!
The transactions with which a runner records what came of its deliveries,
statement by statement. Each counts the deliveries of the alert before it waits
for the row of the alert, so the counts can be out of date when it writes them.
-/

namespace PriceScout.Store.Completions

open PriceScout.Domain
open PriceScout.Library.ReadCommitted
open PriceScout.Library.Runs
open PriceScout.Library.Tables
open PriceScout.Store.AlertAggregates
open PriceScout.Store.Alerts
open PriceScout.Store.Deliveries
open PriceScout.Store.DeliveryRuns
open PriceScout.Store.Schema

/-- A call of `FailAlertDelivery`, or of `CompleteAlertDelivery` when there is no
failure, with the time of its transaction. -/
structure Request where
  now : Timestamp
  deliveryId : UUID
  owner : UUID
  failure : Option DeliveryFailure
deriving DecidableEq

/-- The same call as one atomic step. -/
def Request.call (r : Request) : DeliveryCall where
  now := r.now
  operation := match r.failure with
    | none => .complete r.deliveryId r.owner
    | some failure => .fail r.deliveryId r.owner failure

/-- The assignments of the first statement. -/
def Request.assign (r : Request) (d : AlertDelivery) : AlertDelivery :=
  match r.failure with
  | none => delivered r.now d
  | some failure => returned failure d

theorem Request.assign_id (r : Request) (d : AlertDelivery) : (r.assign d).id = d.id := by
  unfold assign
  split <;> rfl

theorem Request.assign_alertId (r : Request) (d : AlertDelivery) :
    (r.assign d).alertId = d.alertId := by
  unfold assign
  split <;> rfl

/-- The delivery is delivered or failed afterwards. -/
def Request.settles (r : Request) : Bool :=
  match r.failure with
  | none => true
  | some failure => failure.state = .failed

/-- The rows that are locked. -/
inductive Row where
  | delivery (id : UUID)
  | alert (id : UUID)
deriving DecidableEq

inductive Write where
  | delivery (r : Request)
  | alert (alertId : UUID) (stats : DeliveryStats)

def Write.apply (db : Database) : Write → Database
  | .delivery r =>
      { db with
        alertDeliveries :=
          db.alertDeliveries.update (fun d => d.id = r.deliveryId) r.assign r.assign_id }
  | .alert alertId stats =>
      { db with
        alerts :=
          db.alerts.update (fun a => a.id = alertId) (refreshed stats) (refreshed_id stats) }

/-- The statement that a transaction executes next, with what it has read so far.
An update finds its row, waits for it, looks at it again, and then writes. -/
inductive Progress where
  | findDelivery (r : Request)
  | lockDelivery (r : Request)
  | writeDelivery (r : Request) (alertId : UUID)
  | countDeliveries (r : Request) (alertId : UUID)
  | lockAlert (r : Request) (alertId : UUID) (stats : DeliveryStats)
  | writeAlert (r : Request) (alertId : UUID) (stats : DeliveryStats)
  | commit (r : Request) (alertId : UUID) (stats : Option DeliveryStats)
  | rollback

def statement : Progress → Statement Row Database Write Progress
  | .findDelivery r => .select fun db =>
      match db.alertDeliveries.find (leasedBy r.deliveryId r.owner) with
      | none => .rollback
      | some _ => .lockDelivery r
  | .lockDelivery r => .lock (.delivery r.deliveryId) fun db =>
      match db.alertDeliveries.find (leasedBy r.deliveryId r.owner) with
      | none => .rollback
      | some d => .writeDelivery r d.alertId
  | .writeDelivery r alertId => .write fun _ => some (.delivery r, .countDeliveries r alertId)
  | .countDeliveries r alertId => .select fun db =>
      match deliveryStats (deliveriesOf alertId db) with
      | none => .commit r alertId none
      | some stats => .lockAlert r alertId stats
  -- the counts are kept while the update waits for the row of the alert
  | .lockAlert r alertId stats => .lock (.alert alertId) fun _ => .writeAlert r alertId stats
  | .writeAlert r alertId stats => .write fun _ =>
      some (.alert alertId stats, .commit r alertId (some stats))
  | .commit _ _ _ => .commit
  | .rollback => .rollback

def completions : System Row Request Database Write Progress where
  apply w db := w.apply db
  initial := .findDelivery
  statement := statement

abbrev State := World Row Nat Database Write Progress

/-- The alert whose deliveries the transaction has counted. -/
def Progress.counted : Progress → Option UUID
  | .lockAlert _ alertId _ | .writeAlert _ alertId _ | .commit _ alertId _ => some alertId
  | _ => none

/-- When a transaction that settles its delivery commits, every other one that has
counted the deliveries of the same alert has another one that is not settled. -/
def LeavesUnsettled (w : State) : Event Nat Request → Prop
  | .advance t => ∀ r alertId stats writes,
      w.active t = some ⟨.commit r alertId stats, writes⟩ → r.settles = true →
      ∀ u tx, u ≠ t → w.active u = some tx → tx.state.counted = some alertId →
        ∃ d ∈ deliveriesOf alertId (completions.view tx.writes w.committed),
          d.id ≠ r.deliveryId ∧ unsettled d = true
  | _ => True

/-- What the first statement makes of a delivery. -/
def Request.record (r : Request) (d : AlertDelivery) : AlertDelivery :=
  if d.id = r.deliveryId then r.assign d else d

section Records

variable {db : Database} {r r' : Request} {alertId : UUID} {d : AlertDelivery} {a : Alert}
  {stats : DeliveryStats}

/-- The database as the transaction sees it after its first statement. -/
def recorded (r : Request) (db : Database) : Database :=
  (Write.delivery r).apply db

theorem record_id (r : Request) (d : AlertDelivery) : (r.record d).id = d.id := by
  unfold Request.record
  split
  · exact r.assign_id d
  · rfl

theorem record_of_ne (h : d.id ≠ r.deliveryId) : r.record d = d :=
  if_neg h

theorem record_comm (h : r.deliveryId ≠ r'.deliveryId) (d : AlertDelivery) :
    r.record (r'.record d) = r'.record (r.record d) := by
  by_cases hd : d.id = r.deliveryId
  · have hother : d.id ≠ r'.deliveryId := fun hd' => h (hd.symm.trans hd')
    rw [record_of_ne hother]
    exact (record_of_ne (by rwa [record_id])).symm
  · rw [record_of_ne hd]
    exact record_of_ne (by rwa [record_id])

theorem deliveriesOf_recorded :
    deliveriesOf alertId (recorded r db) = (deliveriesOf alertId db).map r.record := by
  rw [deliveriesOf_update r.assign_alertId rfl]
  refine List.map_congr_left fun d _ => ?_
  simp [Request.record]

/-- A delivery that goes back to its queue is as unsettled as it was. -/
theorem summarizes_record_of_unsettled {deliveries : List AlertDelivery}
    (hsettles : r.settles = false)
    (hleased : ∀ d ∈ deliveries, d.id = r.deliveryId → d.state = .leased)
    (h : Summarizes deliveries a) : Summarizes (deliveries.map r.record) a := by
  obtain ⟨failure, hfailure, hpending⟩ : ∃ failure, r.failure = some failure ∧
      failure.state = .pending := by
    unfold Request.settles at hsettles
    split at hsettles
    · cases hsettles
    · rename_i failure hfailure
      refine ⟨failure, hfailure, ?_⟩
      unfold DeliveryFailure.state at hsettles ⊢
      split <;> simp_all
  have hrecord : ∀ d, d.id = r.deliveryId → r.record d = returned failure d := by
    intro d hd
    simp [Request.record, hd, Request.assign, hfailure]
  refine summarizes_map (fun d hd => ?_) (fun d hd => ?_) (fun d hd => ?_) h
  all_goals
    by_cases hid : d.id = r.deliveryId
    · rw [hrecord d hid]
      simp [returned, unsettled, hpending, hleased d hd hid]
    · rw [record_of_ne hid]

/-- Another unsettled delivery keeps the alert pending. -/
theorem summarizes_record_of_another {deliveries : List AlertDelivery}
    (h : ∃ d ∈ deliveries, d.id ≠ r.deliveryId ∧ unsettled d = true)
    (hsummarizes : Summarizes deliveries a) : Summarizes (deliveries.map r.record) a := by
  obtain ⟨d, hd, hid, hunsettled⟩ := h
  have hbefore := aggregate_of_unsettled hd hunsettled
  have hafter : aggregate (deliveries.map r.record) = .pending :=
    aggregate_of_unsettled (List.mem_map.mpr ⟨d, hd, record_of_ne hid⟩) hunsettled
  simp only [Summarizes, deliveryTime, hbefore] at hsummarizes
  simpa [Summarizes, deliveryTime, hafter] using hsummarizes

end Records

section Transactions

/-- The row that the transaction updates is a delivery of the alert. -/
def Placed (db : Database) (r : Request) (alertId : UUID) : Prop :=
  ∃ d ∈ db.alertDeliveries, d.id = r.deliveryId ∧ d.alertId = alertId

/-- The counts of the transaction are those of the deliveries it sees now. -/
def UpToDate (db : Database) (r : Request) (alertId : UUID) (stats : DeliveryStats) : Prop :=
  ∀ a, Summarizes (deliveriesOf alertId (recorded r db)) (refreshed stats a)

/-- What holds of an open transaction, whatever it executes next. -/
def Sound (db : Database) (tx : Transaction Write Progress) : Prop :=
  match tx.state with
  | .findDelivery _ | .lockDelivery _ | .rollback => tx.writes = []
  | .writeDelivery r alertId => tx.writes = [] ∧ Placed db r alertId
  | .countDeliveries r alertId => tx.writes = [.delivery r] ∧ Placed db r alertId
  | .lockAlert r alertId stats | .writeAlert r alertId stats =>
      tx.writes = [.delivery r] ∧ Placed db r alertId ∧ UpToDate db r alertId stats
  | .commit r alertId stats => ∃ counted, stats = some counted ∧
      tx.writes = [.delivery r, .alert alertId counted] ∧ Placed db r alertId ∧
      UpToDate db r alertId counted

/-- The delivery that a transaction has found and is about to update. -/
def Progress.found : Progress → Option UUID
  | .writeDelivery r _ | .countDeliveries r _ | .lockAlert r _ _ | .writeAlert r _ _
  | .commit r _ _ => some r.deliveryId
  | _ => none

def Write.target : Write → Option UUID
  | .delivery r => some r.deliveryId
  | .alert _ _ => none

/-- The transaction relies on the row of the delivery. -/
def Records (deliveryId : UUID) (tx : Transaction Write Progress) : Prop :=
  tx.state.found = some deliveryId ∨ ∃ write ∈ tx.writes, write.target = some deliveryId

def LeasedIn (deliveryId : UUID) (db : Database) : Prop :=
  ∃ d ∈ db.alertDeliveries, d.id = deliveryId ∧ d.state = .leased

variable {w w' : State} {event : Event Nat Request} {deliveryId alertId : UUID} {db : Database}
  {tx : Transaction Write Progress} {r : Request} {d : AlertDelivery}

theorem leasedIn_view {writes : List Write} (h : LeasedIn deliveryId db)
    (hother : ∀ write ∈ writes, write.target ≠ some deliveryId) :
    LeasedIn deliveryId (completions.view writes db) := by
  unfold System.view
  induction writes generalizing db with
  | nil => exact h
  | cons write writes ih =>
      refine ih ?_ fun write hmem => hother write (List.mem_cons_of_mem _ hmem)
      obtain ⟨d, hd, hid, hstate⟩ := h
      cases write with
      | alert alertId stats => exact ⟨d, hd, hid, hstate⟩
      | delivery r =>
          have hne : deliveryId ≠ r.deliveryId := fun heq =>
            hother _ List.mem_cons_self (congrArg some heq.symm)
          exact ⟨d, Table.mem_update_of_neg hd (by simp [hid, hne]), hid, hstate⟩

theorem leasedIn_of_find (h : db.alertDeliveries.find (leasedBy r.deliveryId r.owner) = some d) :
    d ∈ db.alertDeliveries ∧ d.id = r.deliveryId ∧ d.state = .leased := by
  obtain ⟨hd, hleased⟩ := Table.mem_of_find h
  obtain ⟨hid, hstate, -⟩ := leasedBy_iff.mp hleased
  exact ⟨hd, hid, hstate⟩

theorem found_of_select {next : Database → Progress}
    (hstatement : completions.statement tx.state = .select next)
    (hfound : (next db).found = some deliveryId) : tx.state.found = some deliveryId := by
  revert hstatement
  cases hstate : tx.state with
  | findDelivery r =>
      intro hstatement
      cases hstatement
      dsimp only at hfound
      split at hfound <;> cases hfound
  | countDeliveries r alertId =>
      intro hstatement
      cases hstatement
      dsimp only at hfound
      split at hfound <;> exact hfound
  | _ => nofun

/-- The lock of its row is where a transaction finds its delivery. -/
theorem found_of_lock {key : Row} {next : Database → Progress} (hsound : Sound db tx)
    (hstatement : completions.statement tx.state = .lock key next)
    (hfound : (next (completions.view tx.writes db)).found = some deliveryId) :
    tx.state.found = some deliveryId ∨ (key = .delivery deliveryId ∧ LeasedIn deliveryId db) := by
  revert hstatement
  unfold Sound at hsound
  cases hstate : tx.state with
  | lockDelivery r =>
      intro hstatement
      rw [hstate] at hsound
      cases hstatement
      rw [hsound] at hfound
      dsimp only at hfound
      split at hfound
      · cases hfound
      · rename_i d hd
        cases hfound
        obtain ⟨hd, hid, hleased⟩ := leasedIn_of_find hd
        exact Or.inr ⟨rfl, d, hd, hid, hleased⟩
  | lockAlert r alertId stats =>
      intro hstatement
      cases hstatement
      exact Or.inl hfound
  | _ => nofun

theorem not_lockOrSkip {key : Row} {next : Database → Progress} {skipped : Progress} :
    completions.statement tx.state ≠ .lockOrSkip key next skipped := by
  intro hstatement
  cases hstate : tx.state <;> rw [hstate] at hstatement <;> cases hstatement

/-- A transaction writes the delivery that it has found, and keeps to it. -/
theorem found_of_write {attempt : Database → Option (Write × Progress)} {write : Write}
    {next : Progress} (hstatement : completions.statement tx.state = .write attempt)
    (hattempt : attempt db = some (write, next)) :
    next.found = tx.state.found ∧
      (write.target = some deliveryId → tx.state.found = some deliveryId) := by
  revert hstatement
  cases hstate : tx.state with
  | writeDelivery r alertId =>
      intro hstatement
      cases hstatement
      cases hattempt
      exact ⟨rfl, id⟩
  | writeAlert r alertId stats =>
      intro hstatement
      cases hstatement
      cases hattempt
      exact ⟨rfl, nofun⟩
  | _ => nofun

/-- A transaction comes to rely on a delivery under the lock of its row. -/
theorem justified_records (hsound : ∀ t tx, w.active t = some tx → Sound w.committed tx)
    (hstep : Step completions w event w') :
    Justified (Records deliveryId) (LeasedIn deliveryId) (.delivery deliveryId) w w' := by
  refine .of_statements ?_ ?_ ?_ ?_ ?_ hstep
  · rintro r (hfound | ⟨write, hmem, -⟩)
    · cases hfound
    · cases hmem
  · intro t tx next hactive hstatement hrecords
    exact Or.inl (hrecords.imp_left (found_of_select hstatement))
  · intro t tx key next hevent hactive hfree hstatement hrecords
    rcases hrecords with hfound | hwrote
    · rcases hstatement with hstatement | ⟨skipped, hstatement⟩
      · exact (found_of_lock (hsound t tx hactive) hstatement hfound).imp_left Or.inl
      · exact absurd hstatement not_lockOrSkip
    · exact Or.inl (Or.inr hwrote)
  · intro tx key next skipped hstatement
    exact absurd hstatement not_lockOrSkip
  · intro tx attempt db write next hstatement hattempt hrecords
    obtain ⟨hnext, htarget⟩ := found_of_write hstatement hattempt
    rcases hrecords with hfound | ⟨written, hmem, hwritten⟩
    · exact Or.inl (hnext ▸ hfound)
    · rcases List.mem_append.mp hmem with hmem | hmem
      · exact Or.inr ⟨written, hmem, hwritten⟩
      · obtain rfl := List.mem_singleton.mp hmem
        exact Or.inl (htarget hwritten)

theorem sound_step (h : ∀ t tx, w.active t = some tx → Sound w.committed tx)
    (hstep : Step completions w event w') :
    ∀ t tx, w'.active t = some tx → Sound w.committed tx := by
  refine forall_active_seen h ?_ ?_ ?_ ?_ ?_ hstep
  · intro r
    exact (rfl : ([] : List Write) = [])
  · rintro ⟨state, writes⟩ next hsound hstatement
    cases state with
    | findDelivery r =>
        cases hstatement
        dsimp only
        split <;> exact hsound
    | countDeliveries r alertId =>
        cases hstatement
        obtain ⟨rfl, hplaced⟩ := hsound
        dsimp only
        split
        · rename_i hnone
          obtain ⟨d, hd, -, rfl⟩ := hplaced
          have hempty : deliveriesOf d.alertId (recorded r w.committed) = [] :=
            deliveryStats_eq_none_iff.mp hnone
          rw [deliveriesOf_recorded, List.map_eq_nil_iff] at hempty
          exact absurd (mem_deliveriesOf.mpr ⟨hd, rfl⟩) (hempty ▸ List.not_mem_nil)
        · rename_i stats hstats
          exact ⟨rfl, hplaced, fun a => refreshed_summarizes hstats a⟩
    | _ => cases hstatement
  · rintro ⟨state, writes⟩ key next hsound hstatement
    rcases hstatement with hstatement | ⟨skipped, hstatement⟩
    · cases state with
      | lockDelivery r =>
          cases hstatement
          obtain rfl : writes = [] := hsound
          dsimp only
          split
          · rfl
          · rename_i d hfound
            obtain ⟨hd, hid, -⟩ := leasedIn_of_find hfound
            exact ⟨rfl, d, hd, hid, rfl⟩
      | lockAlert r alertId stats =>
          cases hstatement
          exact hsound
      | _ => cases hstatement
    · cases state <;> cases hstatement
  · rintro ⟨state, writes⟩ key next skipped hsound hstatement
    cases state <;> cases hstatement
  · rintro ⟨state, writes⟩ attempt write next hsound hstatement hattempt
    cases state with
    | writeDelivery r alertId =>
        cases hstatement
        cases hattempt
        obtain ⟨rfl, hplaced⟩ := hsound
        exact ⟨rfl, hplaced⟩
    | writeAlert r alertId stats =>
        cases hstatement
        cases hattempt
        obtain ⟨rfl, hplaced, hcurrent⟩ := hsound
        exact ⟨stats, rfl, rfl, hplaced, hcurrent⟩
    | _ => cases hstatement

/-- The database after the commit of a transaction with these counts. -/
def settled (r : Request) (alertId : UUID) (stats : DeliveryStats) (db : Database) : Database :=
  (Write.alert alertId stats).apply (recorded r db)

theorem deliveriesOf_settled {stats : DeliveryStats} {id : UUID} :
    deliveriesOf id (settled r alertId stats db) = (deliveriesOf id db).map r.record :=
  deliveriesOf_recorded

theorem placed_settled {r' : Request} {alertId' : UUID} {stats : DeliveryStats}
    (h : Placed db r alertId) : Placed (settled r' alertId' stats db) r alertId := by
  obtain ⟨d, hd, hid, halert⟩ := h
  have hd' : r'.record d ∈ deliveriesOf alertId (settled r' alertId' stats db) := by
    rw [deliveriesOf_settled]
    exact List.mem_map_of_mem (mem_deliveriesOf.mpr ⟨hd, halert⟩)
  obtain ⟨hmem, hsame⟩ := mem_deliveriesOf.mp hd'
  exact ⟨r'.record d, hmem, (record_id r' d).trans hid, hsame⟩

/-- The deliveries of other alerts stay as they are. -/
theorem map_record_elsewhere {id : UUID} (hplaced : Placed db r alertId) (hne : id ≠ alertId) :
    (deliveriesOf id db).map r.record = deliveriesOf id db := by
  obtain ⟨d, hd, hid, halert⟩ := hplaced
  conv_rhs => rw [← List.map_id (deliveriesOf id db)]
  refine List.map_congr_left fun s hs => record_of_ne fun hsame => hne ?_
  obtain ⟨hs, hsid⟩ := mem_deliveriesOf.mp hs
  obtain rfl := Table.eq_of_key_eq hs hd (hsame.trans hid.symm)
  exact hsid.symm.trans halert

theorem assign_timed (hstate : (r.assign d).state = .delivered) :
    (r.assign d).deliveredAt.isSome = true := by
  unfold Request.assign at hstate ⊢
  split
  · rfl
  · rename_i failure hfailure
    simp only [hfailure, returned, DeliveryFailure.state] at hstate
    split at hstate <;> cases hstate

theorem consistent_settled {stats : DeliveryStats} (h : Consistent db)
    (hplaced : Placed db r alertId)
    (hcurrent : UpToDate db r alertId stats) : Consistent (settled r alertId stats db) := by
  refine ⟨fun a ha => ?_, fun d hd => ?_, fun d hd => ?_⟩
  · rw [deliveriesOf_settled]
    rcases Table.mem_update_cases ha with ⟨s, hs, hid, rfl⟩ | ⟨ha, hid⟩
    · obtain rfl : s.id = alertId := by simpa using hid
      rw [refreshed_id, ← deliveriesOf_recorded]
      exact hcurrent s
    · rw [map_record_elsewhere hplaced (by simpa using hid)]
      exact h.summarized a ha
  · have howned : ∃ a ∈ db.alerts, a.id = d.alertId := by
      rcases Table.mem_update_cases hd with ⟨s, hs, -, rfl⟩ | ⟨hd, -⟩
      · rw [r.assign_alertId]
        exact h.owned s hs
      · exact h.owned d hd
    obtain ⟨a, ha, hid⟩ := howned
    obtain ⟨a', ha', hid'⟩ := Table.exists_mem_update ha
    exact ⟨a', ha', hid'.trans hid⟩
  · rcases Table.mem_update_cases hd with ⟨s, hs, -, rfl⟩ | ⟨hd, -⟩
    · exact assign_timed
    · exact h.timed d hd

/-- Counts stay up to date when another delivery goes back to its queue, or is
settled while one more is not. -/
theorem upToDate_settled {r' : Request} {alertId' : UUID} {stats stats' : DeliveryStats}
    (h : UpToDate db r alertId stats) (hplaced : Placed db r' alertId')
    (hleased : LeasedIn r'.deliveryId db) (hne : r.deliveryId ≠ r'.deliveryId)
    (hleaves : r'.settles = true → alertId = alertId' →
      ∃ d ∈ deliveriesOf alertId (recorded r db), d.id ≠ r'.deliveryId ∧ unsettled d = true) :
    UpToDate (settled r' alertId' stats' db) r alertId stats := by
  intro a
  have hsummarizes := h a
  have hview : deliveriesOf alertId (recorded r (settled r' alertId' stats' db)) =
      (deliveriesOf alertId (recorded r db)).map r'.record := by
    rw [deliveriesOf_recorded, deliveriesOf_settled, deliveriesOf_recorded, List.map_map,
      List.map_map]
    exact List.map_congr_left fun d _ => record_comm hne d
  rw [hview]
  by_cases hsettles : r'.settles = true
  · by_cases halert : alertId = alertId'
    · exact summarizes_record_of_another (hleaves hsettles halert) hsummarizes
    · have helsewhere : (deliveriesOf alertId (recorded r db)).map r'.record =
          deliveriesOf alertId (recorded r db) := by
        rw [deliveriesOf_recorded, List.map_map]
        conv_rhs => rw [← map_record_elsewhere hplaced halert, List.map_map]
        exact List.map_congr_left fun d _ => (record_comm hne d).symm
      rwa [helsewhere]
  · refine summarizes_record_of_unsettled (by simpa using hsettles) (fun d hd hid => ?_) hsummarizes
    -- a delivery that this transaction has not recorded is as it was committed
    rw [deliveriesOf_recorded] at hd
    obtain ⟨s, hs, rfl⟩ := List.mem_map.mp hd
    rw [record_id] at hid
    rw [record_of_ne fun hsame => hne (hsame.symm.trans hid)]
    obtain ⟨d, hd, hdid, hstate⟩ := hleased
    obtain rfl := Table.eq_of_key_eq (mem_deliveriesOf.mp hs).1 hd (hid.trans hdid.symm)
    exact hstate

theorem sound_settled {r' : Request} {alertId' : UUID} {stats' : DeliveryStats} (h : Sound db tx)
    (hplaced : Placed db r' alertId') (hleased : LeasedIn r'.deliveryId db)
    (hne : tx.state.found ≠ some r'.deliveryId)
    (hleaves : r'.settles = true → tx.state.counted = some alertId' →
      ∃ d ∈ deliveriesOf alertId' (completions.view tx.writes db),
        d.id ≠ r'.deliveryId ∧ unsettled d = true) :
    Sound (settled r' alertId' stats' db) tx := by
  obtain ⟨state, writes⟩ := tx
  cases state with
  | findDelivery | lockDelivery | rollback => exact h
  | writeDelivery | countDeliveries => exact h.imp_right placed_settled
  | lockAlert r alertId stats | writeAlert r alertId stats =>
      obtain ⟨rfl, hown, hcurrent⟩ := h
      refine ⟨rfl, placed_settled hown, upToDate_settled hcurrent hplaced hleased
        (fun hsame => hne (congrArg some hsame)) ?_⟩
      rintro hsettles rfl
      exact hleaves hsettles rfl
  | commit r alertId stats =>
      obtain ⟨counted, rfl, rfl, hown, hcurrent⟩ := h
      refine ⟨counted, rfl, rfl, placed_settled hown, upToDate_settled hcurrent hplaced hleased
        (fun hsame => hne (congrArg some hsame)) ?_⟩
      rintro hsettles rfl
      exact hleaves hsettles rfl

/-- What holds as long as no settled delivery is missed. -/
structure Kept (w : State) : Prop where
  consistent : Consistent w.committed
  sound : ∀ t tx, w.active t = some tx → Sound w.committed tx
  recording : ∀ deliveryId,
    Protected (Records deliveryId) (LeasedIn deliveryId) (.delivery deliveryId) w

theorem kept_quiet (h : Consistent db) : Kept (World.quiet db) :=
  ⟨h, fun _ _ hactive => (nomatch hactive), fun _ => protected_quiet db⟩

theorem Kept.step (h : Kept w) (hleaves : LeavesUnsettled w event) :
    Kept (step completions w event) := by
  have hstep := step_step completions w event
  generalize Library.ReadCommitted.step completions w event = w' at hstep
  have hrecording : ∀ deliveryId,
      Protected (Records deliveryId) (LeasedIn deliveryId) (.delivery deliveryId) w' := fun id =>
    (h.recording id).step (fun tx db hnot hleased => leasedIn_view hleased fun write hmem htarget =>
      hnot (Or.inr ⟨write, hmem, htarget⟩)) (justified_records h.sound hstep) hstep
  rcases committed_cases hstep with hsame | ⟨t, ⟨state, writes⟩, rfl, hactive, hstatement, rfl⟩
  · refine ⟨hsame.symm ▸ h.consistent, ?_, hrecording⟩
    rw [hsame]
    exact sound_step h.sound hstep
  · cases state with
    | commit r alertId stats =>
        obtain ⟨counted, rfl, rfl, hplaced, hcurrent⟩ := h.sound t _ hactive
        have hown := h.recording r.deliveryId t _ hactive (Or.inl rfl)
        refine ⟨consistent_settled h.consistent hplaced hcurrent, fun u tx hu => ?_, hrecording⟩
        obtain ⟨hut, hu⟩ := World.active_finish hu
        refine sound_settled (h.sound u tx hu) hplaced hown.2 (fun hfound => hut ?_) ?_
        · have hother := (h.recording r.deliveryId u tx hu (Or.inl hfound)).1
          rw [hown.1, Option.some.injEq] at hother
          exact hother.symm
        · exact fun hsettles hcounted => hleaves r alertId _ _ hactive hsettles u tx hut hu hcounted
    | _ => cases hstatement

end Transactions

section Alone

variable {db : Database} {r : Request} {d : AlertDelivery}

/-- The row with the id of a leased delivery is the leased row. -/
theorem update_leasedBy
    (hfound : db.alertDeliveries.find (leasedBy r.deliveryId r.owner) = some d) :
    db.alertDeliveries.update (leasedBy r.deliveryId r.owner) r.assign r.assign_id =
      db.alertDeliveries.update (fun d => d.id = r.deliveryId) r.assign r.assign_id := by
  refine Table.update_congr fun s hs => ?_
  obtain ⟨hd, hleased⟩ := Table.mem_of_find hfound
  obtain ⟨hid, hstate, howner⟩ := leasedBy_iff.mp hleased
  by_cases hsame : s.id = r.deliveryId
  · obtain rfl := Table.eq_of_key_eq hs hd (hsame.trans hid.symm)
    rw [hleased, decide_eq_true hsame]
  · simp [leasedBy, hsame]

theorem deliveryStep_of_missing
    (hnone : db.alertDeliveries.find (leasedBy r.deliveryId r.owner) = none) :
    deliveryStep db r.call = db := by
  obtain ⟨now, deliveryId, owner, failure⟩ := r
  cases failure with
  | none =>
      refine commit_of_error (e := .notFound) ?_
      simp [completeAlertDelivery, hnone]
  | some failure =>
      refine commit_of_error (e := .notFound) ?_
      simp [failAlertDelivery, hnone]

theorem deliveryStep_of_found
    (hfound : db.alertDeliveries.find (leasedBy r.deliveryId r.owner) = some d) :
    deliveryStep db r.call = refreshAlertState d.alertId (recorded r db) := by
  have hrecorded : recorded r db = { db with
      alertDeliveries := db.alertDeliveries.update (leasedBy r.deliveryId r.owner) r.assign
        r.assign_id } := by
    rw [update_leasedBy hfound]
    rfl
  rw [hrecorded]
  obtain ⟨now, deliveryId, owner, failure⟩ := r
  cases failure with
  | none =>
      refine commit_of_ok (a := ()) ?_
      simp only [completeAlertDelivery, hfound]
      rfl
  | some failure =>
      refine commit_of_ok (a := failure.state) ?_
      simp only [failAlertDelivery, hfound]
      rfl

/-- A call that is not disturbed does in its seven statements what the atomic step does. -/
theorem run_alone (db : Database) (t : Nat) (r : Request) :
    run (step completions) (World.quiet db) (.start t r :: List.replicate 7 (.advance t)) =
      World.quiet (deliveryStep db r.call) := by
  have hstarted := alone_start completions db t r
  change run (step completions) (step completions (World.quiet db) (.start t r))
    (List.replicate 7 (.advance t)) = _
  generalize Library.ReadCommitted.step completions (World.quiet db) (.start t r) = w at hstarted
  cases hfound : db.alertDeliveries.find (leasedBy r.deliveryId r.owner) with
  | none =>
      have hmissed : Alone _ db t ⟨Progress.rollback, []⟩ := hstarted.select completions rfl (by
        change (match db.alertDeliveries.find (leasedBy r.deliveryId r.owner) with
          | none => Progress.rollback
          | some _ => .lockDelivery r) = _
        rw [hfound])
      rw [deliveryStep_of_missing hfound]
      exact (congrArg (fun w => run (step completions) w (List.replicate 5 (.advance t)))
        (hmissed.rollback completions rfl)).trans (run_quiet completions db t 5)
  | some d =>
      have hfind : Alone _ db t ⟨Progress.lockDelivery r, []⟩ := hstarted.select completions rfl (by
        change (match db.alertDeliveries.find (leasedBy r.deliveryId r.owner) with
          | none => Progress.rollback
          | some _ => .lockDelivery r) = _
        rw [hfound])
      have hlock : Alone _ db t ⟨Progress.writeDelivery r d.alertId, []⟩ :=
        hfind.lock completions rfl (by
        change (match db.alertDeliveries.find (leasedBy r.deliveryId r.owner) with
          | none => Progress.rollback
          | some d => .writeDelivery r d.alertId) = _
        rw [hfound])
      have hwrite : Alone _ db t ⟨Progress.countDeliveries r d.alertId, [Write.delivery r]⟩ :=
        hlock.write completions rfl rfl
      have hcount : Alone _ db t ⟨match deliveryStats (deliveriesOf d.alertId (recorded r db)) with
          | none => Progress.commit r d.alertId none
          | some stats => .lockAlert r d.alertId stats, [Write.delivery r]⟩ :=
        hwrite.select completions rfl rfl
      rw [deliveryStep_of_found hfound, refreshAlertState]
      cases hstats : deliveryStats (deliveriesOf d.alertId (recorded r db)) with
      | none =>
          rw [hstats] at hcount
          exact (congrArg (fun w => run (step completions) w (List.replicate 2 (.advance t)))
            (hcount.commit completions rfl)).trans (run_quiet completions _ t 2)
      | some stats =>
          rw [hstats] at hcount
          exact ((hcount.lock completions rfl rfl).write completions rfl rfl).commit completions rfl

end Alone

/-- Whatever completions and failures overlap, every alert says what its deliveries
say, as long as none of them settles the last delivery that another has counted. -/
theorem aggregates_kept (db : Database) (events : List (Event Nat Request))
    (hdb : Reachable act Database.empty db)
    (hleaves : ∀ n (h : n < events.length),
      LeavesUnsettled (stateAt (step completions) (World.quiet db) events n) events[n]) :
    ∀ n, ∀ a ∈ (stateAt (step completions) (World.quiet db) events n).committed.alerts,
      Aggregates (stateAt (step completions) (World.quiet db) events n).committed a := by
  have hkept : ∀ n, Kept (stateAt (step completions) (World.quiet db) events n) :=
    stateAt_invariant (C := LeavesUnsettled) (kept_quiet (consistent_of_reachable hdb))
      (fun w event _ h hleaves => h.step hleaves) hleaves
  exact fun n a ha => (hkept n).consistent.aggregates ha

/-- Nothing is missed while only one transaction has counted. -/
theorem leavesUnsettled_of_one {w : State} {event : Event Nat Request}
    (h : ∀ t u tx tx', w.active t = some tx → w.active u = some tx' →
      tx.state.counted.isSome = true → tx'.state.counted.isSome = true → t = u) :
    LeavesUnsettled w event := by
  cases event with
  | advance t =>
      intro r alertId stats writes hactive hsettles u tx hne hu hcounted
      exact absurd (h u t tx _ hu hactive (by rw [hcounted]; rfl) rfl) hne
  | start | cancel => trivial

/-- A runner has claimed both deliveries of an alert. -/
def bothClaimed : Database :=
  run act Database.empty (alertRaised.map .store ++
    [.delivery ⟨10, .claim twoChannels ⟨500⟩ 45000000000 8 fun _ => false⟩])

/-- The completion of each delivery. -/
def bothCompleted : List (Event Nat Request) :=
  [.start 0 ⟨11, ⟨9⟩, ⟨500⟩, none⟩, .start 1 ⟨12, ⟨10⟩, ⟨500⟩, none⟩]

/-- Both count the deliveries before one of them commits. -/
def overlapping : List (Event Nat Request) :=
  bothCompleted ++ List.replicate 4 (.advance 0) ++ List.replicate 4 (.advance 1) ++
    List.replicate 3 (.advance 0) ++ List.replicate 3 (.advance 1)

/-- Both are started, and one commits before the other counts. -/
def inTurn : List (Event Nat Request) :=
  bothCompleted ++ List.replicate 7 (.advance 0) ++ List.replicate 7 (.advance 1)

theorem overlapping_leaves_pending :
    ¬ ∀ (db : Database) (events : List (Event Nat Request)), Reachable act Database.empty db →
      (∀ t, Event.cancel t ∉ events) →
      (∀ t, (run (step completions) (World.quiet db) events).active t = none) →
      ∀ a ∈ (run (step completions) (World.quiet db) events).committed.alerts,
        Aggregates (run (step completions) (World.quiet db) events).committed a := by
  intro h
  have hclosed : ∀ t,
    (run (step completions) (World.quiet bothClaimed) overlapping).active t = none := by
    intro t
    match t with
    | 0 | 1 => exact Option.isNone_iff_eq_none.mp (by decide +kernel)
    | t + 2 =>
        refine active_eq_none bothClaimed fun request hmem => ?_
        simp [overlapping, bothCompleted] at hmem
  have hpending :
    ∃ a ∈ (run (step completions) (World.quiet bothClaimed) overlapping).committed.alerts,
      a.deliveryState = .pending ∧ aggregate (deliveriesOf a.id
        (run (step completions) (World.quiet bothClaimed) overlapping).committed) = .delivered := by
    decide +kernel
  obtain ⟨a, ha, hstate, haggregate⟩ := hpending
  have := (h bothClaimed overlapping ⟨_, rfl⟩ (by simp [overlapping, bothCompleted]) hclosed a
      ha).state
  rw [hstate, haggregate] at this
  cases this

theorem aggregates_kept_in_turn :
    (∃ a ∈ (run (step completions) (World.quiet bothClaimed) inTurn).committed.alerts,
      a.deliveryState = .delivered) ∧
    ∀ n, ∀ a ∈ (stateAt (step completions) (World.quiet bothClaimed) inTurn n).committed.alerts,
      Aggregates (stateAt (step completions) (World.quiet bothClaimed) inTurn n).committed a := by
  refine ⟨by decide +kernel, aggregates_kept bothClaimed inTurn ⟨_, rfl⟩ fun n hn => ?_⟩
  have hone : ∀ n < inTurn.length, ∀ t < 2, ∀ u < 2, u ≠ t →
      ((stateAt (step completions) (World.quiet bothClaimed) inTurn n).active t).any
        (fun tx => tx.state.counted.isSome) = true →
      ((stateAt (step completions) (World.quiet bothClaimed) inTurn n).active u).any
        (fun tx => tx.state.counted.isSome) = false := by
    decide +kernel
  have hnone : ∀ t, 2 ≤ t →
      (stateAt (step completions) (World.quiet bothClaimed) inTurn n).active t = none := by
    intro t ht
    refine active_eq_none bothClaimed fun request hmem => ?_
    have hmem := List.mem_of_mem_take hmem
    simp only [inTurn, bothCompleted, List.mem_append, List.mem_cons, List.mem_replicate,
      List.not_mem_nil, Event.start.injEq, reduceCtorEq, and_false, or_false] at hmem
    omega
  refine leavesUnsettled_of_one fun t u tx tx' ht hu hcounted hcounted' => ?_
  by_contra hne
  have htwo : ∀ {v tx}, (stateAt (step completions) (World.quiet bothClaimed) inTurn n).active v =
      some tx → v < 2 := by
    intro v tx hv
    by_contra hlarge
    rw [hnone v (by omega)] at hv
    cases hv
  have := hone n hn t (htwo ht) u (htwo hu) (fun heq => hne heq.symm) (by rw [ht]; exact hcounted)
  rw [hu] at this
  exact absurd hcounted' (by simpa using this)

end PriceScout.Store.Completions
