import PriceScout.Alertdelivery.Runner
import PriceScout.Store.AlertAggregates
import PriceScout.Store.Constraints
import PriceScout.Store.Persistence
import PriceScout.Store.Transitions

/-!
What a delivery tells its receiver. It is read anew at every claim, and every
claim reads the same.
-/

namespace PriceScout.Alertdelivery.Contents

open PriceScout.Alertdelivery.Runner
open PriceScout.Domain
open PriceScout.Library.Runs
open PriceScout.Library.Tables
open PriceScout.Store.Alerting
open PriceScout.Store.Alerts
open PriceScout.Store.Constraints
open PriceScout.Store.Deliveries
open PriceScout.Store.DeliveryRuns
open PriceScout.Store.Effects
open PriceScout.Store.Inversions
open PriceScout.Store.Monitors
open PriceScout.Store.Operations
open PriceScout.Store.Persistence
open PriceScout.Store.Schema
open PriceScout.Store.Transitions

/-- What an alert says, whatever becomes of its deliveries. -/
structure SameAlert (a a' : Alert) : Prop where
  monitorId : a'.monitorId = a.monitorId
  observationId : a'.observationId = a.observationId
  createdAt : a'.createdAt = a.createdAt

structure SameDelivery (d d' : AlertDelivery) : Prop where
  alertId : d'.alertId = d.alertId
  channel : d'.channel = d.channel

/-- The rows that an alert is about exist. -/
structure References (db : Database) (a : Alert) : Prop where
  monitor : ∃ m ∈ db.monitors, m.id = a.monitorId
  observation : ∃ o ∈ db.observations, o.id = a.observationId

/-- The alert that a delivery announces exists. -/
def Announces (db : Database) (d : AlertDelivery) : Prop :=
  ∃ a ∈ db.alerts, a.id = d.alertId

/-- What deliveries are made of lasts from one database to the other, and new ones are
complete. -/
structure Lasts (db db' : Database) : Prop where
  deliveries : db.alertDeliveries.Grows SameDelivery (Announces db') db'.alertDeliveries
  alerts : db.alerts.Grows SameAlert (References db') db'.alerts
  monitors : db.monitors.Extends SameMonitor db'.monitors
  observations : db.observations.Extends Eq db'.observations

section Lasting

variable {db db' db'' : Database} {call : Call} {m m' : Monitor} {now : Timestamp}
  {store : OpenStore}

theorem SameAlert.refl (a : Alert) : SameAlert a a :=
  ⟨rfl, rfl, rfl⟩

theorem SameAlert.trans (a b c : Alert) (h : SameAlert a b) (h' : SameAlert b c) : SameAlert a c :=
  ⟨h'.monitorId.trans h.monitorId, h'.observationId.trans h.observationId,
    h'.createdAt.trans h.createdAt⟩

theorem SameDelivery.refl (d : AlertDelivery) : SameDelivery d d :=
  ⟨rfl, rfl⟩

theorem SameDelivery.trans (a b c : AlertDelivery) (h : SameDelivery a b) (h' : SameDelivery b c) :
    SameDelivery a c :=
  ⟨h'.alertId.trans h.alertId, h'.channel.trans h.channel⟩

theorem Lasts.refl (db : Database) : Lasts db db :=
  ⟨.of_evolves (.refl SameDelivery.refl _), .of_evolves (.refl SameAlert.refl _),
    .refl SameMonitor.refl _, .refl (fun _ => rfl) _⟩

theorem Lasts.announces {d d' : AlertDelivery} (h : Lasts db db') (hannounces : Announces db d)
    (hsame : SameDelivery d d') : Announces db' d' := by
  obtain ⟨a, ha, hid⟩ := hannounces
  obtain ⟨a', ha', hid', -⟩ := h.alerts.forward a ha
  exact ⟨a', ha', hid'.trans (hid.trans hsame.alertId.symm)⟩

theorem Lasts.references {a a' : Alert} (h : Lasts db db') (href : References db a)
    (hsame : SameAlert a a') : References db' a' := by
  constructor
  · obtain ⟨m, hm, hid⟩ := href.monitor
    obtain ⟨m', hm', hid', -⟩ := h.monitors m hm
    exact ⟨m', hm', hid'.trans (hid.trans hsame.monitorId.symm)⟩
  · obtain ⟨o, ho, hid⟩ := href.observation
    obtain ⟨o', ho', hid', -⟩ := h.observations o ho
    exact ⟨o', ho', hid'.trans (hid.trans hsame.observationId.symm)⟩

theorem Lasts.trans (h : Lasts db db') (h' : Lasts db' db'') : Lasts db db'' :=
  ⟨h.deliveries.trans SameDelivery.trans (fun _ _ => h'.announces) h'.deliveries,
    h.alerts.trans SameAlert.trans (fun _ _ => h'.references) h'.alerts,
    h.monitors.trans SameMonitor.trans h'.monitors,
    h.observations.trans (fun _ _ _ => Eq.trans) h'.observations⟩

theorem monitors_step (db : Database) (call : Call) :
    db.monitors.Extends SameMonitor (step db call).monitors := by
  intro m hm
  obtain ⟨m', hm', hid, -⟩ := (Persists.step db call).monitors m hm
  exact ⟨m', hm', hid, sameMonitor_of_rewritten (rewritten_of_mem hm hm' hid)⟩

theorem alerts_step (db : Database) (call : Call) :
    db.alerts.Grows SameAlert (References (step db call)) (step db call).alerts := by
  rcases step_effects db call with heffects | ⟨store, id, result, e, e', db₁, -, hsettled⟩
  · have hsame : (step db call).alerts = db.alerts := by
      generalize step db call = s at heffects
      induction heffects with
      | refl => rfl
      | tail _ hlast ih => exact (alerts_effect hlast).trans ih
    rw [hsame]
    exact .of_evolves (.refl SameAlert.refl _)
  · rcases alerts_keyed hsettled with hsame | ⟨a, happended, -, hmonitor, hobservation⟩
    · rw [hsame]
      exact .of_evolves (.refl SameAlert.refl _)
    · refine .of_rows SameAlert.refl happended fun b hb => ?_
      obtain rfl := List.mem_singleton.mp hb
      exact ⟨hmonitor, hobservation⟩

theorem deliveries_step (db : Database) (call : Call) :
    db.alertDeliveries.Grows SameDelivery (Announces (step db call))
      (step db call).alertDeliveries := by
  cases raising_step db call with
  | kept halerts hdeliveries =>
      rw [hdeliveries]
      exact .of_evolves (.refl SameDelivery.refl _)
  | raised store now id monitorId observationId key halert hopens =>
      obtain ⟨added, hrows, hadded⟩ := hopens.added
      refine .of_rows SameDelivery.refl hrows fun d hd => ?_
      exact ⟨_, halert.mem, (hadded d hd).alertId.symm⟩

theorem lasts_step (db : Database) (call : Call) : Lasts db (step db call) where
  deliveries := deliveries_step db call
  alerts := alerts_step db call
  monitors := monitors_step db call
  observations := (Persists.step db call).observations

theorem sameDelivery_of_moved {call : DeliveryCall} {d d' : AlertDelivery}
    (h : Moved db call d d') : SameDelivery d d' := by
  cases h <;> exact ⟨rfl, rfl⟩

theorem refreshAlertState_eq (alertId : UUID) (db : Database) :
    ∃ alerts', refreshAlertState alertId db = { db with alerts := alerts' } ∧
      db.alerts.Evolves SameAlert alerts' := by
  unfold refreshAlertState
  split
  · exact ⟨db.alerts, rfl, .refl SameAlert.refl _⟩
  · exact ⟨_, rfl, Table.evolves_update SameAlert.refl fun _ _ _ => ⟨rfl, rfl, rfl⟩⟩

/-- The deliveries of alerts are refreshed or marked; the alerts say the same. -/
theorem lasts_alerts {alerts' : Table Alert.id} (h : db.alerts.Evolves SameAlert alerts') :
    Lasts db { db with alerts := alerts' } where
  deliveries := .of_evolves (.refl SameDelivery.refl _)
  alerts := .of_evolves h
  monitors := .refl SameMonitor.refl _
  observations := .refl (fun _ => rfl) _

/-- An update of deliveries that keeps what they are for. -/
theorem lasts_update {p : AlertDelivery → Bool} {f : AlertDelivery → AlertDelivery}
    {hf : ∀ d, (f d).id = d.id} (h : ∀ d, SameDelivery d (f d)) :
    Lasts db { db with alertDeliveries := db.alertDeliveries.update p f hf } where
  deliveries := .of_evolves (Table.evolves_update SameDelivery.refl fun d _ _ => h d)
  alerts := .of_evolves (.refl SameAlert.refl _)
  monitors := .refl SameMonitor.refl _
  observations := .refl (fun _ => rfl) _

theorem lasts_refreshAlertState (alertId : UUID) (db : Database) :
    Lasts db (refreshAlertState alertId db) := by
  obtain ⟨alerts', heq, halerts⟩ := refreshAlertState_eq alertId db
  rw [heq]
  exact lasts_alerts halerts

theorem lasts_refreshAllAlertStates (db : Database) : Lasts db (refreshAllAlertStates db) := by
  refine lasts_alerts (Table.evolves_update SameAlert.refl fun a _ _ => ?_)
  unfold refreshByStats
  split
  · exact .refl a
  · exact ⟨rfl, rfl, rfl⟩

theorem lasts_setDeliveryState (alertId : UUID) (state : AlertState) (db : Database) :
    Lasts db (setDeliveryState alertId state db) :=
  lasts_alerts (Table.evolves_update SameAlert.refl fun _ _ _ => ⟨rfl, rfl, rfl⟩)

/-- A delivery is inserted for an alert that exists. -/
theorem insertAlertDelivery_referenced {row : AlertDelivery}
    (h : db.insertAlertDelivery row = .ok db') :
    db' = db ∨ ∃ t, db.alertDeliveries.Appended row t ∧ Announces db row ∧
      db' = { db with alertDeliveries := t } := by
  unfold Database.insertAlertDelivery at h
  split at h
  · exact Or.inl (Except.ok.inj h).symm
  · simp only [bind_eq_ok, require_eq_ok] at h
    obtain ⟨_, halert, t, hinsert, h⟩ := h
    obtain ⟨a, ha⟩ := Option.isSome_iff_exists.mp halert
    exact Or.inr ⟨t, appended_of_insertRow hinsert, ⟨a, Table.lookup_eq_some_iff.mp ha⟩,
      (pure_eq_ok.mp h).symm⟩

theorem lasts_insertDeliveries {alertId : UUID} {channels : List String}
    (h : insertDeliveries now alertId channels db = .ok db') : Lasts db db' := by
  refine foldlM_induction (fun _ s => Lasts db s) ?_ channels db db' (.refl db) h
  intro channel rest s s' hlasts hstep
  refine hlasts.trans ?_
  rcases insertAlertDelivery_referenced hstep with rfl | ⟨t, happended, hannounces, rfl⟩
  · exact ⟨.of_evolves (.refl SameDelivery.refl _), .of_evolves (.refl SameAlert.refl _),
      .refl SameMonitor.refl _, .refl (fun _ => rfl) _⟩
  · refine ⟨.of_rows SameDelivery.refl happended fun d hd => ?_,
      .of_evolves (.refl SameAlert.refl _), .refl SameMonitor.refl _, .refl (fun _ => rfl) _⟩
    obtain rfl := List.mem_singleton.mp hd
    exact hannounces

theorem lasts_backfill {alertId : UUID} (h : backfill store now alertId db = .ok db') :
    Lasts db db' := by
  unfold backfill at h
  split at h
  · obtain rfl := Except.ok.inj h
    exact lasts_setDeliveryState alertId _ db
  · obtain ⟨db₁, hinsert, rfl⟩ := map_eq_ok.mp h
    exact (lasts_insertDeliveries hinsert).trans (lasts_setDeliveryState alertId _ db₁)

theorem lasts_deliveryStep (db : Database) (call : DeliveryCall) :
    Lasts db (deliveryStep db call) := by
  obtain ⟨now, operation⟩ := call
  cases operation with
  | reconcile store locked =>
      show Lasts db (commit (reconcileAlertDeliveries store now locked) db)
      rcases commit_cases (reconcileAlertDeliveries store now locked) db with h | ⟨u, h⟩
      · rw [h]
        exact .refl db
      · obtain ⟨db₁, hloop, -, hdb'⟩ := reconcile_ok h
        have hlasts : Lasts db db₁ := foldlM_induction (fun _ s => Lasts db s)
          (fun _ _ _ _ hlasts hstep => hlasts.trans (lasts_backfill hstep)) _ _ _ (.refl db) hloop
        have hclosed : Lasts db₁ (closeRemoved store now db₁) := lasts_update fun _ => ⟨rfl, rfl⟩
        rw [hdb']
        exact (hlasts.trans hclosed).trans (lasts_refreshAllAlertStates _)
  | claim store owner lease limit locked =>
      show Lasts db (claimAlertDeliveries store now owner lease locked limit db).2
      rcases claim_cases owner lease limit locked with h | h
      · rw [h]
        exact .refl db
      · rw [h]
        exact lasts_update fun _ => ⟨rfl, rfl⟩
  | complete deliveryId owner =>
      show Lasts db (commit (completeAlertDelivery now deliveryId owner) db)
      rcases commit_cases (completeAlertDelivery now deliveryId owner) db with h | ⟨u, h⟩
      · rw [h]
        exact .refl db
      · obtain ⟨d, -, hdb'⟩ := complete_ok h
        rw [hdb']
        refine .trans ?_ (lasts_refreshAlertState _ _)
        exact lasts_update fun _ => ⟨rfl, rfl⟩
  | fail deliveryId owner failure =>
      show Lasts db (commit (failAlertDelivery deliveryId owner failure) db)
      rcases commit_cases (failAlertDelivery deliveryId owner failure) db with h | ⟨state, h⟩
      · rw [h]
        exact .refl db
      · obtain ⟨d, -, hdb'⟩ := fail_ok h
        rw [hdb']
        refine .trans ?_ (lasts_refreshAlertState _ _)
        exact lasts_update fun _ => ⟨rfl, rfl⟩

theorem lasts_event (parseTime : String → Option Timestamp) (w : World) (event : Event) :
    Lasts w.db (Runner.step parseTime w event).db := by
  unfold Runner.step
  cases event with
  | store call => exact lasts_step w.db call
  | _ =>
      dsimp only
      split
      · exact lasts_deliveryStep _ _
      · exact .refl _

end Lasting

section Reading

variable {parseTime : String → Option Timestamp} {events : List Event} {db db' : Database}
  {w : World} {event : Event} {d d' : AlertDelivery} {delivery delivery' : ClaimedDelivery}
  {i j : Nat}

theorem lasts_worldAt (hij : i ≤ j) :
    Lasts (worldAt parseTime events i).db (worldAt parseTime events j).db :=
  stateAt_mono (P := fun w => Lasts (worldAt parseTime events i).db w.db)
    (fun w event h => h.trans (lasts_event parseTime w event)) hij (.refl _)

/-- What a delivery tells its receiver is the same in a later database. -/
theorem content_lasts (h : Lasts db db') (hd : d ∈ db.alertDeliveries)
    (hd' : d' ∈ db'.alertDeliveries) (hid : d'.id = d.id)
    (hjoined : claimedDelivery db d = some delivery)
    (hjoined' : claimedDelivery db' d' = some delivery') :
    delivery' = { delivery with attempt := delivery'.attempt } := by
  obtain ⟨s, hs, hsid, hsame⟩ := h.deliveries.forward d hd
  obtain rfl := Table.eq_of_key_eq hs hd' (hsid.trans hid.symm)
  simp only [claimedDelivery, Option.bind_eq_bind, Option.bind_eq_some_iff,
    Option.pure_def] at hjoined hjoined'
  obtain ⟨a, ha, m, hm, o, ho, heq⟩ := hjoined
  obtain ⟨a', ha', m', hm', o', ho', heq'⟩ := hjoined'
  obtain ⟨ha, haid⟩ := Table.lookup_eq_some_iff.mp ha
  obtain ⟨ha', haid'⟩ := Table.lookup_eq_some_iff.mp ha'
  obtain ⟨b, hb, hbid, hsameAlert⟩ := h.alerts.forward a ha
  obtain rfl := Table.eq_of_key_eq hb ha' (by rw [hbid, haid, haid', hsame.alertId])
  obtain ⟨hm, hmid⟩ := Table.lookup_eq_some_iff.mp hm
  obtain ⟨hm', hmid'⟩ := Table.lookup_eq_some_iff.mp hm'
  obtain ⟨n, hn, hnid, hsameMonitor⟩ := h.monitors m hm
  obtain rfl := Table.eq_of_key_eq hn hm' (by rw [hnid, hmid, hmid', hsameAlert.monitorId])
  obtain ⟨ho, hoid⟩ := Table.lookup_eq_some_iff.mp ho
  obtain ⟨ho', hoid'⟩ := Table.lookup_eq_some_iff.mp ho'
  obtain ⟨u, hu, huid, rfl⟩ := h.observations o ho
  obtain rfl := Table.eq_of_key_eq hu ho' (by rw [hoid, hoid', hsameAlert.observationId])
  obtain rfl := Option.some.inj heq
  obtain rfl := Option.some.inj heq'
  simp [hid, hsame.alertId, hsame.channel, hsameAlert.createdAt, hnid, hsameMonitor.url,
    hsameMonitor.intent]

/-- What a claim hands over has been read from the database that it leaves. -/
theorem joined_of_handed (h : delivery ∈ handed w event) :
    ∃ d ∈ (Runner.step parseTime w event).db.alertDeliveries, d.id = delivery.id ∧
      claimedDelivery (Runner.step parseTime w event).db d = some delivery := by
  cases event with
  | claim owner now locked received =>
      simp only [handed] at h
      split at h
      · rename_i store hclaiming
        split at h
        · have hdb : (Runner.step parseTime w (.claim owner now locked received)).db =
              (claimAlertDeliveries store now owner claimLease locked claimBatch w.db).2 := by
            simp only [Runner.step, executed, hclaiming, Option.map_some]
            rfl
          rw [hdb]
          unfold claimAlertDeliveries at h ⊢
          split at h
          · cases h
          · rename_i hchannels
            rw [if_neg hchannels]
            obtain ⟨row, hrow, hjoined⟩ := List.mem_filterMap.mp h
            obtain ⟨hrow, -⟩ := List.mem_filter.mp ((List.mem_insertionSort _).mp hrow)
            exact ⟨row, hrow, (claimedDelivery_eq_some hjoined).1.symm, hjoined⟩
        · cases h
      · cases h
  | _ => cases h

end Reading

end PriceScout.Alertdelivery.Contents
