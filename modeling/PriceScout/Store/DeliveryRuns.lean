import PriceScout.Store.Deliveries
import PriceScout.Store.Alerting

/-!
Runs of the store together with the operations on deliveries, and what one
step makes of the alerts and of each delivery.
-/

namespace PriceScout.Store.DeliveryRuns

open PriceScout.Domain
open PriceScout.Library.Runs
open PriceScout.Library.Tables
open PriceScout.Store.Alerting
open PriceScout.Store.Alerts
open PriceScout.Store.Deliveries
open PriceScout.Store.Effects
open PriceScout.Store.Executions
open PriceScout.Store.Inversions
open PriceScout.Store.Operations
open PriceScout.Store.Recovery
open PriceScout.Store.Schema

inductive DeliveryOperation where
  | reconcile (store : OpenStore) (locked : UUID → Bool)
  | claim (store : OpenStore) (owner : UUID) (lease : Nat) (limit : Nat) (locked : UUID → Bool)
  | complete (deliveryId owner : UUID)
  | fail (deliveryId owner : UUID) (failure : DeliveryFailure)

structure DeliveryCall where
  now : Timestamp
  operation : DeliveryOperation

def deliveryStep (db : Database) (call : DeliveryCall) : Database :=
  match call.operation with
  | .reconcile store locked => commit (reconcileAlertDeliveries store call.now locked) db
  | .claim store owner lease limit locked =>
      (claimAlertDeliveries store call.now owner lease locked limit db).2
  | .complete deliveryId owner => commit (completeAlertDelivery call.now deliveryId owner) db
  | .fail deliveryId owner failure => commit (failAlertDelivery deliveryId owner failure) db

/-- A transaction of the store, on monitors or on deliveries. -/
inductive Action where
  | store (call : Call)
  | delivery (call : DeliveryCall)

def act (db : Database) : Action → Database
  | .store call => step db call
  | .delivery call => deliveryStep db call

/-- A delivery that no runner has claimed yet. -/
structure Unsent (alertId : UUID) (channels : List String) (d : AlertDelivery) : Prop where
  alertId : d.alertId = alertId
  channel : d.channel ∈ channels
  state : d.state = .pending
  attempts : d.attempts = 0
  leaseOwner : d.leaseOwner = none
  leaseExpiresAt : d.leaseExpiresAt = none
  deliveredAt : d.deliveredAt = none

/-- Deliveries of one alert are added, one for each channel that has none. -/
structure Opens (alertId : UUID) (channels : List String) (t t' : Table AlertDelivery.id) :
    Prop where
  added : ∃ added, t'.rows = t.rows ++ added ∧ ∀ d ∈ added, Unsent alertId channels d
  present : channels ≠ [] → ∃ d ∈ t', d.alertId = alertId

/-- What an operation of the store does to alerts and deliveries: nothing, or
it raises one alert with its deliveries. -/
inductive Raising (db db' : Database) : Prop
  | kept (halerts : db'.alerts = db.alerts) (hdeliveries : db'.alertDeliveries = db.alertDeliveries)
  | raised (store : OpenStore) (now : Timestamp) (id monitorId observationId : UUID) (key : String)
      (halert : db.alerts.Appended (newAlert store now id monitorId observationId key) db'.alerts)
      (hdeliveries : Opens id store.alertChannels db.alertDeliveries db'.alertDeliveries)

/-- An operation of the store keeps alerts and deliveries, or it ends with a new alert. -/
inductive Creates (now : Timestamp) (db db' : Database) : Prop
  | kept (halerts : db'.alerts = db.alerts) (hdeliveries : db'.alertDeliveries = db.alertDeliveries)
  | created (store : OpenStore) (monitorId observationId : UUID) (key : String) (db₁ : Database)
      (halerts : db₁.alerts = db.alerts) (hdeliveries : db₁.alertDeliveries = db.alertDeliveries)
      (hcreated : createAlert store now monitorId observationId key db₁ = .ok db')

/-- What an operation on deliveries makes of a delivery. -/
inductive Moved (db : Database) (call : DeliveryCall) (d : AlertDelivery) : AlertDelivery → Prop
  | kept : Moved db call d d
  | leased (store : OpenStore) (owner : UUID) (lease limit : Nat) (locked : UUID → Bool)
      (hcall : call.operation = .claim store owner lease limit locked)
      (hpicked : d ∈ picked store call.now locked limit db) :
      Moved db call d (leased call.now owner (leaseSeconds lease) d)
  | delivered (owner : UUID) (hcall : call.operation = .complete d.id owner)
      (hleased : leasedBy d.id owner d = true) : Moved db call d (delivered call.now d)
  | returned (owner : UUID) (failure : DeliveryFailure)
      (hcall : call.operation = .fail d.id owner failure)
      (hleased : leasedBy d.id owner d = true) : Moved db call d (returned failure d)
  | closed (store : OpenStore) (locked : UUID → Bool)
      (hcall : call.operation = .reconcile store locked)
      (hclosable : closable store call.now d = true) : Moved db call d (closed d)

section Opening

variable {now : Timestamp} {db db' : Database} {alertId : UUID} {channels : List String}

theorem insertAlertDelivery_cases {row : AlertDelivery}
    (h : db.insertAlertDelivery row = .ok db') :
    (db' = db ∧ ∃ d ∈ db.alertDeliveries, d.alertId = row.alertId) ∨
      ∃ t, db.alertDeliveries.Appended row t ∧ db' = { db with alertDeliveries := t } := by
  unfold Database.insertAlertDelivery at h
  split at h
  · rename_i hconflict
    obtain ⟨d, hd, hsame⟩ := Table.any_eq_true_iff.mp hconflict
    simp only [decide_eq_true_eq] at hsame
    exact Or.inl ⟨(Except.ok.inj h).symm, d, hd, hsame.1⟩
  · simp only [bind_eq_ok, require_eq_ok] at h
    obtain ⟨_, _, t, hinsert, h⟩ := h
    exact Or.inr ⟨t, appended_of_insertRow hinsert, (pure_eq_ok.mp h).symm⟩

/-- Each channel of an alert gets a delivery. -/
theorem opens_of_insertDeliveries (h : insertDeliveries now alertId channels db = .ok db') :
    Opens alertId channels db.alertDeliveries db'.alertDeliveries ∧ db'.alerts = db.alerts := by
  induction channels generalizing db with
  | nil =>
      obtain rfl := pure_eq_ok.mp h
      exact ⟨⟨⟨[], by simp, by simp⟩, fun hne => absurd rfl hne⟩, rfl⟩
  | cons channel rest ih =>
      simp only [insertDeliveries, List.foldlM_cons, bind_eq_ok, Database.newUUID] at h
      obtain ⟨db₁, hinsert, hrest⟩ := h
      obtain ⟨hopens, halerts⟩ := ih hrest
      obtain ⟨added, hrows, hadded⟩ := hopens.added
      have widen : ∀ d, Unsent alertId rest d → Unsent alertId (channel :: rest) d := fun d hd =>
        { hd with channel := List.mem_cons_of_mem _ hd.channel }
      obtain ⟨row, hunsent, hinsert⟩ : ∃ row, Unsent alertId (channel :: rest) row ∧
          Database.insertAlertDelivery { db with uuids := db.uuids + 1 } row = .ok db₁ :=
        ⟨_, ⟨rfl, List.mem_cons_self, rfl, rfl, rfl, rfl, rfl⟩, hinsert⟩
      rcases insertAlertDelivery_cases hinsert with ⟨rfl, d, hd, hsame⟩ | ⟨t, happended, rfl⟩
      · refine ⟨⟨⟨added, hrows, fun d hd => widen d (hadded d hd)⟩,
          fun _ => ⟨d, ?_, hsame.trans hunsent.alertId⟩⟩, halerts⟩
        rw [Table.mem_def, hrows]
        exact List.mem_append_left _ hd
      · have hmem : ∀ d ∈ t, d ∈ db'.alertDeliveries := by
          intro d hd
          rw [Table.mem_def, hrows]
          exact List.mem_append_left _ hd
        refine ⟨⟨⟨row :: added, ?_, ?_⟩,
          fun _ => ⟨row, hmem row happended.mem, hunsent.alertId⟩⟩, halerts⟩
        · rw [hrows]
          show t.rows ++ added = _
          rw [happended, List.append_assoc]
          rfl
        · rw [List.forall_mem_cons]
          exact ⟨hunsent, fun d hd => widen d (hadded d hd)⟩

theorem raising_createAlert {store : OpenStore} {monitorId observationId : UUID} {key : String}
    (h : createAlert store now monitorId observationId key db = .ok db') : Raising db db' := by
  simp only [createAlert, Database.newUUID, bind_eq_ok] at h
  obtain ⟨db₁, halert, hdeliveries⟩ := h
  obtain ⟨alerts', happended, rfl⟩ := Database.insertAlert_ok halert
  obtain ⟨hopens, halerts⟩ := opens_of_insertDeliveries hdeliveries
  exact .raised store now _ monitorId observationId key (halerts ▸ happended) hopens

end Opening

section Raisings

variable {now : Timestamp} {db db' db₁ : Database} {e e' : Execution} {traceparent : String}

theorem Raising.of_kept (h : Raising db₁ db') (halerts : db₁.alerts = db.alerts)
    (hdeliveries : db₁.alertDeliveries = db.alertDeliveries) : Raising db db' := by
  cases h with
  | kept halerts' hdeliveries' =>
      exact .kept (halerts'.trans halerts) (hdeliveries'.trans hdeliveries)
  | raised store now id monitorId observationId key halert hopens =>
      exact .raised store now id monitorId observationId key (halerts ▸ halert)
        (hdeliveries ▸ hopens)

theorem Creates.raising (h : Creates now db db') : Raising db db' := by
  cases h with
  | kept halerts hdeliveries => exact .kept halerts hdeliveries
  | created store monitorId observationId key db₁ halerts hdeliveries hcreated =>
      exact (raising_createAlert hcreated).of_kept halerts hdeliveries

theorem Creates.of_kept (h : Creates now db₁ db') (halerts : db₁.alerts = db.alerts)
    (hdeliveries : db₁.alertDeliveries = db.alertDeliveries) : Creates now db db' := by
  cases h with
  | kept halerts' hdeliveries' =>
      exact .kept (halerts'.trans halerts) (hdeliveries'.trans hdeliveries)
  | created store monitorId observationId key db₂ halerts' hdeliveries' hcreated =>
      exact .created store monitorId observationId key db₂ (halerts'.trans halerts)
        (hdeliveries'.trans hdeliveries) hcreated

theorem deliveries_enqueued (h : Enqueued now db e traceparent db') :
    db'.alertDeliveries = db.alertDeliveries := by
  obtain ⟨executions', outbox', uuids', -, -, rfl⟩ := h.inserted
  rfl

theorem deliveries_retired (h : Retired db e e' db') :
    db'.alertDeliveries = db.alertDeliveries := by
  obtain ⟨executions', artifacts', uuids', -, rfl⟩ := h.retired
  rfl

theorem deliveries_replaced (h : Replaced now db e db') :
    db'.alertDeliveries = db.alertDeliveries := by
  cases h with
  | enqueued id db' hkind h => exact (deliveries_enqueued h :)
  | repointed id db' a hkind hmem hexecution h => exact (deliveries_enqueued h :)

theorem deliveries_effect {call : Call} (h : Effect call db db') :
    db'.alertDeliveries = db.alertDeliveries := by
  cases h with
  | created monitorId executionId params monitors' db' hcall hinterval hmonitor henqueued =>
      exact (deliveries_enqueued henqueued :)
  | claimed | renewed | confirmed | patched | accepted | rejected | published => rfl
  | checkQueued id m r idempotencyKey traceparent db' hcall hnew hadmitting henqueued =>
      exact (deliveries_enqueued henqueued :)
  | dueQueued id m r limit locked db' hcall hadmitting henqueued =>
      exact (deliveries_enqueued henqueued :)
  | terminalized e e' db₁ runningStaleAfter maxAttempts limit locked hcall hattempts hretired
      hrunning hfailed =>
      rw [← deliveries_retired hretired]
      unfold terminalizeStaleExecution
      cases e.kind <;> rfl
  | replaced e e' db₁ db' runningStaleAfter maxAttempts limit locked hcall hattempts hretired
      hrunning hfailed hreplaced =>
      exact (deliveries_replaced hreplaced).trans (deliveries_retired hretired)

theorem deliveries_failureEffect {store : OpenStore} {result : ExecutionResult}
    (h : FailureEffect store now e result db db') : db'.alertDeliveries = db.alertDeliveries := by
  cases h with
  | retried db' hretry hreplaced => exact deliveries_replaced hreplaced
  | compileFailed | repairFailed | repairExists => rfl
  | checkFailed =>
      unfold applyCheckFailure
      split
      · rfl
      · split <;> rfl
  | repairQueued id attemptId generation repairAttempts' uuids' db' hkind hstale hgeneration hnone
      hattempt henqueued => exact (deliveries_enqueued henqueued :)

theorem kept_applyPlan {result : ExecutionResult} (h : applyPlan now e result db = .ok db') :
    db'.alerts = db.alerts ∧ db'.alertDeliveries = db.alertDeliveries := by
  unfold applyPlan at h
  split at h
  · split at h
    · rename_i hkind
      have hcheck : e.kind ≠ .check := by
        rcases hkind with hkind | hkind <;> simp [hkind]
      cases applyPlanResult_ok hcheck h <;> exact ⟨rfl, rfl⟩
    · obtain rfl := Except.ok.inj h
      exact ⟨rfl, rfl⟩
  · obtain rfl := Except.ok.inj h
    exact ⟨rfl, rfl⟩

theorem creates_reactToCheck {store : OpenStore} {observationId : UUID} {matched previous : Bool}
    (h : reactToCheck store now e observationId matched previous db = .ok db') :
    Creates now db db' := by
  simp only [reactToCheck] at h
  split at h
  · refine .created store _ _ _ _ ?_ ?_ h <;> split_ifs <;> rfl
  · split at h
    · rcases enqueueAlertConfirmation_ok h with ⟨rfl, -⟩ | ⟨id, henqueued⟩
      · refine .kept ?_ ?_ <;> split_ifs <;> rfl
      · refine .kept (henqueued.alerts.trans ?_) ((deliveries_enqueued henqueued).trans ?_) <;>
          split_ifs <;> rfl
    · obtain rfl := Except.ok.inj h
      refine .kept ?_ ?_ <;> split_ifs <;> rfl

theorem creates_applyObservation {store : OpenStore} {observation : ResultObservation}
    (h : applyObservation store now e observation db = .ok db') : Creates now db db' := by
  simp only [applyObservation] at h
  split at h
  · exact absurd h throw_bind_ne_ok
  · simp only [Database.newUUID, bind_eq_ok] at h
    obtain ⟨m, -, verification, -, db₁, hinsert, h⟩ := h
    obtain ⟨observations', -, rfl, -⟩ := Database.insertObservation_ok hinsert
    split at h
    · exact (creates_reactToCheck h).of_kept rfl rfl
    · obtain rfl := pure_eq_ok.mp h
      exact .kept rfl rfl

theorem creates_applyOutcome {store : OpenStore} {result : ExecutionResult}
    (h : applyOutcome store now e result db = .ok db') : Creates now db db' := by
  by_cases hstatus : result.status = "succeeded"
  · simp only [applyOutcome, hstatus, if_true, bind_eq_ok] at h
    obtain ⟨db₁, hplan, h⟩ := h
    obtain ⟨halerts, hdeliveries⟩ := kept_applyPlan hplan
    cases hobservation : result.observation with
    | none =>
        rw [hobservation] at h
        obtain rfl := pure_eq_ok.mp h
        exact .kept halerts hdeliveries
    | some observation =>
        rw [hobservation] at h
        exact (creates_applyObservation h).of_kept halerts hdeliveries
  · simp only [applyOutcome, hstatus, if_false] at h
    have hfailure := applyFailure_ok h
    exact .kept (alerts_failureEffect hfailure) (deliveries_failureEffect hfailure)

theorem creates_applyResult {store : OpenStore} {executionId : UUID} {result : ExecutionResult}
    {answer : Execution × Bool}
    (h : applyResult store now executionId result db = .ok (answer, db')) : Creates now db db' := by
  simp only [applyResult, bind_eq_ok] at h
  obtain ⟨e, -, h⟩ := h
  split at h
  · simp only [pure_eq_ok, Prod.mk.injEq] at h
    obtain ⟨-, rfl⟩ := h
    exact .kept rfl rfl
  · split at h
    · exact absurd h throw_ne_ok
    · simp only [bind_eq_ok, pure_eq_ok, Prod.mk.injEq] at h
      obtain ⟨_, -, db₁, hartifacts, db₂, houtcome, updated, -, -, rfl⟩ := h
      obtain ⟨artifacts', uuids', rfl⟩ := insertArtifacts_ok hartifacts
      exact (creates_applyOutcome houtcome).of_kept rfl rfl

theorem creates_step (db : Database) (call : Call) : Creates call.now db (step db call) := by
  obtain ⟨now, operation⟩ := call
  by_cases hresult : ∃ store executionId result, operation = .applyResult store executionId result
  · obtain ⟨store, executionId, result, rfl⟩ := hresult
    rcases commit_cases (applyResult store now executionId result) db with h | ⟨answer, h⟩
    · rw [show step db ⟨now, .applyResult store executionId result⟩ = db from h]
      exact .kept rfl rfl
    · exact creates_applyResult h
  · rcases step_effects db ⟨now, operation⟩ with heffects | ⟨store, id, result, -, -, -, hcall, -⟩
    · generalize step db ⟨now, operation⟩ = s' at heffects
      suffices hkept : s'.alerts = db.alerts ∧ s'.alertDeliveries = db.alertDeliveries from
        .kept hkept.1 hkept.2
      induction heffects with
      | refl => exact ⟨rfl, rfl⟩
      | tail _ hlast ih =>
          exact ⟨(alerts_effect hlast).trans ih.1, (deliveries_effect hlast).trans ih.2⟩
    · exact absurd ⟨store, id, result, hcall⟩ hresult

theorem raising_step (db : Database) (call : Call) : Raising db (step db call) :=
  (creates_step db call).raising

end Raisings

section Moves

variable {now : Timestamp} {db db' : Database} {store : OpenStore} {d d' : AlertDelivery}

/-- A delivery that no runner has claimed yet, of some alert on one of the channels. -/
def New (channels : List String) (d : AlertDelivery) : Prop :=
  ∃ alertId, Unsent alertId channels d

theorem backfill_rows {alertId : UUID} (h : backfill store now alertId db = .ok db') :
    ∃ added, db'.alertDeliveries.rows = db.alertDeliveries.rows ++ added ∧
      ∀ d ∈ added, New store.alertChannels d := by
  unfold backfill at h
  split at h
  · obtain rfl := Except.ok.inj h
    exact ⟨[], (List.append_nil _).symm, by simp⟩
  · obtain ⟨db₁, hinsert, rfl⟩ := map_eq_ok.mp h
    obtain ⟨added, hrows, hadded⟩ := (opens_of_insertDeliveries hinsert).1.added
    exact ⟨added, hrows, fun d hd => ⟨alertId, hadded d hd⟩⟩

/-- A reconciliation adds deliveries, closes those on removed channels and then
refreshes every alert. -/
theorem reconcile_ok {locked : UUID → Bool} {u : Unit}
    (h : reconcileAlertDeliveries store now locked db = .ok (u, db')) :
    ∃ db₁, ((undelivered db locked).map (·.id)).foldlM
        (fun db alertId => backfill store now alertId db) db = .ok db₁ ∧
      (∃ added, db₁.alertDeliveries.rows = db.alertDeliveries.rows ++ added ∧
        ∀ d ∈ added, New store.alertChannels d) ∧
      db' = refreshAllAlertStates (closeRemoved store now db₁) := by
  simp only [reconcileAlertDeliveries, bind_eq_ok, pure_eq_ok, Prod.mk.injEq] at h
  obtain ⟨db₁, hloop, -, rfl⟩ := h
  refine ⟨db₁, hloop, ?_, rfl⟩
  refine foldlM_induction (fun _ s => ∃ added, s.alertDeliveries.rows =
    db.alertDeliveries.rows ++ added ∧ ∀ d ∈ added, New store.alertChannels d) ?_ _ _ _
    ⟨[], (List.append_nil _).symm, by simp⟩ hloop
  rintro alertId rest s s' ⟨added, hrows, hadded⟩ hstep
  obtain ⟨added', hrows', hadded'⟩ := backfill_rows hstep
  refine ⟨added ++ added', by rw [hrows', hrows, List.append_assoc], ?_⟩
  intro d hd
  exact (List.mem_append.mp hd).elim (hadded d) (hadded' d)

/-- A new delivery is on a configured channel, so it is not closed at once. -/
theorem not_closable_of_new (h : New store.alertChannels d) : closable store now d = false := by
  obtain ⟨alertId, hunsent⟩ := h
  have hconfigured : store.alertChannels.contains d.channel = true :=
    List.contains_iff_mem.mpr hunsent.channel
  have hsome : store.alertChannels.isEmpty = false := by
    cases hchannels : store.alertChannels with
    | nil => simp [hchannels] at hconfigured
    | cons channel rest => rfl
  simp only [closable, hconfigured, hsome]
  simp

theorem refreshAlertState_alertDeliveries (alertId : UUID) (db : Database) :
    (refreshAlertState alertId db).alertDeliveries = db.alertDeliveries := by
  unfold refreshAlertState
  split <;> rfl

theorem claimable_of_picked {locked : UUID → Bool} {limit : Nat}
    (h : d ∈ picked store now locked limit db) :
    d ∈ db.alertDeliveries ∧ claimable store now d = true := by
  have hmem := (List.mem_insertionSort _).mp (List.mem_of_mem_take h)
  obtain ⟨hd, hclaimable⟩ := List.mem_filter.mp hmem
  exact ⟨hd, (Bool.and_eq_true_iff.mp hclaimable).1⟩

/-- The deliveries that a claim updates are those it has picked. -/
theorem picked_of_contains {locked : UUID → Bool} {limit : Nat} (hd : d ∈ db.alertDeliveries)
    (h : ((picked store now locked limit db).map (·.id)).contains d.id = true) :
    d ∈ picked store now locked limit db := by
  obtain ⟨s, hs, hid⟩ := List.mem_map.mp (List.contains_iff_mem.mp h)
  obtain rfl := Table.eq_of_key_eq (claimable_of_picked hs).1 hd hid
  exact hs

/-- A claim leases the rows it has picked. -/
theorem claim_cases (owner : UUID) (lease limit : Nat) (locked : UUID → Bool) :
    (claimAlertDeliveries store now owner lease locked limit db).2 = db ∨
      (claimAlertDeliveries store now owner lease locked limit db).2 = { db with
        alertDeliveries := db.alertDeliveries.update
          (fun d => ((picked store now locked limit db).map (·.id)).contains d.id)
          (leased now owner (leaseSeconds lease)) (leased_id now owner (leaseSeconds lease)) } := by
  unfold claimAlertDeliveries
  split
  · exact Or.inl rfl
  · exact Or.inr rfl

theorem claimedDelivery_eq_some {delivery : ClaimedDelivery}
    (h : claimedDelivery db d = some delivery) :
    delivery.id = d.id ∧ delivery.attempt = d.attempts := by
  unfold claimedDelivery at h
  obtain ⟨alert, -, h⟩ := Option.bind_eq_some_iff.mp h
  obtain ⟨monitor, -, h⟩ := Option.bind_eq_some_iff.mp h
  obtain ⟨observation, -, h⟩ := Option.bind_eq_some_iff.mp h
  cases h
  exact ⟨rfl, rfl⟩

theorem leasedBy_iff {deliveryId owner : UUID} :
    leasedBy deliveryId owner d = true ↔
      d.id = deliveryId ∧ d.state = .leased ∧ d.leaseOwner = some owner := by
  simp [leasedBy, and_assoc]

theorem complete_ok {deliveryId owner : UUID} {u : Unit}
    (h : completeAlertDelivery now deliveryId owner db = .ok (u, db')) :
    ∃ d, db.alertDeliveries.find (leasedBy deliveryId owner) = some d ∧
      db' = refreshAlertState d.alertId { db with
        alertDeliveries := db.alertDeliveries.update (leasedBy deliveryId owner) (delivered now)
          (delivered_id now) } := by
  unfold completeAlertDelivery at h
  split at h
  · cases h
  · rename_i d hfound
    exact ⟨d, hfound, (Prod.mk.inj (Except.ok.inj h)).2.symm⟩

theorem fail_ok {deliveryId owner : UUID} {failure : DeliveryFailure} {state : DeliveryState}
    (h : failAlertDelivery deliveryId owner failure db = .ok (state, db')) :
    ∃ d, db.alertDeliveries.find (leasedBy deliveryId owner) = some d ∧
      db' = refreshAlertState d.alertId { db with
        alertDeliveries := db.alertDeliveries.update (leasedBy deliveryId owner) (returned failure)
          (returned_id failure) } := by
  unfold failAlertDelivery at h
  split at h
  · cases h
  · rename_i d hfound
    exact ⟨d, hfound, (Prod.mk.inj (Except.ok.inj h)).2.symm⟩

theorem grows_deliveryStep (db : Database) (call : DeliveryCall) :
    db.alertDeliveries.Grows (Moved db call) (fun d => ∃ channels, New channels d)
      (deliveryStep db call).alertDeliveries := by
  have same : db.alertDeliveries.Grows (Moved db call) (fun d => ∃ channels, New channels d)
      db.alertDeliveries := .of_evolves (.refl (fun _ => .kept) _)
  obtain ⟨now, operation⟩ := call
  cases operation with
  | reconcile store locked =>
      rcases commit_cases (reconcileAlertDeliveries store now locked) db with h | ⟨u, h⟩
      · exact (congrArg Database.alertDeliveries h).symm ▸ same
      · obtain ⟨db₁, -, ⟨added, hrows, hadded⟩, hdb'⟩ := reconcile_ok h
        have hgrows : db.alertDeliveries.Grows Eq (New store.alertChannels) db₁.alertDeliveries :=
          .of_rows (fun _ => rfl) hrows hadded
        have hdeliveries : (deliveryStep db ⟨now, .reconcile store locked⟩).alertDeliveries =
            db₁.alertDeliveries.update (closable store now) closed closed_id :=
          congrArg Database.alertDeliveries hdb'
        rw [hdeliveries]
        constructor
        · intro d hd
          obtain ⟨_, hd, -, rfl⟩ := hgrows.forward d hd
          by_cases hclosable : closable store now d = true
          · exact ⟨closed d, Table.mem_update_of_pos hd hclosable, rfl,
              .closed store locked rfl hclosable⟩
          · exact ⟨d, Table.mem_update_of_neg hd (by simpa using hclosable), rfl, .kept⟩
        · intro d' hd'
          rcases Table.mem_update_cases hd' with ⟨d, hd, hclosable, rfl⟩ | ⟨hd, -⟩
          · rcases hgrows.backward d hd with ⟨_, hold, -, rfl⟩ | hnew
            · exact Or.inl ⟨_, hold, rfl, .closed store locked rfl hclosable⟩
            · rw [not_closable_of_new hnew] at hclosable
              cases hclosable
          · rcases hgrows.backward d' hd with ⟨_, hold, -, rfl⟩ | hnew
            · exact Or.inl ⟨_, hold, rfl, .kept⟩
            · exact Or.inr ⟨_, hnew⟩
  | claim store owner lease limit locked =>
      show db.alertDeliveries.Grows _ _
        (claimAlertDeliveries store now owner lease locked limit db).2.alertDeliveries
      rcases claim_cases owner lease limit locked with h | h
      · rw [h]
        exact same
      · rw [h]
        refine .of_evolves (Table.evolves_update (fun _ => .kept) fun d hd hpicked => ?_)
        exact .leased store owner lease limit locked rfl (picked_of_contains hd hpicked)
  | complete deliveryId owner =>
      show db.alertDeliveries.Grows _ _
        (commit (completeAlertDelivery now deliveryId owner) db).alertDeliveries
      rcases commit_cases (completeAlertDelivery now deliveryId owner) db with h | ⟨u, h⟩
      · rw [h]
        exact same
      · obtain ⟨s, -, hdb'⟩ := complete_ok h
        rw [hdb', refreshAlertState_alertDeliveries]
        refine .of_evolves (Table.evolves_update (fun _ => .kept) fun d hd hleased => ?_)
        obtain rfl := (leasedBy_iff.mp hleased).1
        exact .delivered owner rfl hleased
  | fail deliveryId owner failure =>
      show db.alertDeliveries.Grows _ _
        (commit (failAlertDelivery deliveryId owner failure) db).alertDeliveries
      rcases commit_cases (failAlertDelivery deliveryId owner failure) db with h | ⟨state, h⟩
      · rw [h]
        exact same
      · obtain ⟨s, -, hdb'⟩ := fail_ok h
        rw [hdb', refreshAlertState_alertDeliveries]
        refine .of_evolves (Table.evolves_update (fun _ => .kept) fun d hd hleased => ?_)
        obtain rfl := (leasedBy_iff.mp hleased).1
        exact .returned owner failure rfl hleased

/-- An operation of the store keeps every delivery and adds only unclaimed ones. -/
theorem grows_step (db : Database) (call : Call) :
    db.alertDeliveries.Grows Eq (fun d => ∃ channels, New channels d)
      (step db call).alertDeliveries := by
  cases raising_step db call with
  | kept halerts hdeliveries =>
      rw [hdeliveries]
      exact .of_evolves (.refl (fun _ => rfl) _)
  | raised store now id monitorId observationId key halert hopens =>
      obtain ⟨added, hrows, hadded⟩ := hopens.added
      exact .of_rows (fun _ => rfl) hrows fun d hd => ⟨_, id, hadded d hd⟩

end Moves

end PriceScout.Store.DeliveryRuns
