import Mathlib.Order.Bounds.Basic
import PriceScout.Store.DeliveryRuns

/-!
The state of an alert as the aggregate of its deliveries. The code keeps it in
the row of the alert; every transaction that changes a delivery restores it.
-/

namespace PriceScout.Store.AlertAggregates

open PriceScout.Domain
open PriceScout.Library.Runs
open PriceScout.Library.Tables
open PriceScout.Store.Alerting (confirmedMatch fiveDollars)
open PriceScout.Store.Alerts
open PriceScout.Store.Deliveries
open PriceScout.Store.DeliveryRuns
open PriceScout.Store.Operations (Call)
open PriceScout.Store.Schema

/-- What the state of an alert with these deliveries means. -/
def aggregate (deliveries : List AlertDelivery) : AlertState :=
  if deliveries.isEmpty then .unconfigured
  else if deliveries.any fun d => d.state = .pending || d.state = .leased then .pending
  else if deliveries.any fun d => d.state = .failed then .failed
  else .delivered

/-- The row of the alert says what its deliveries say. -/
structure Aggregates (db : Database) (a : Alert) : Prop where
  state : a.deliveryState = aggregate (deliveriesOf a.id db)
  unconfigured : a.deliveryState = .unconfigured ↔ ∀ d ∈ db.alertDeliveries, d.alertId ≠ a.id
  delivered : a.deliveryState = .delivered → ∃ t, a.deliveredAt = some t ∧
    IsGreatest {t | ∃ d ∈ db.alertDeliveries, d.alertId = a.id ∧ d.deliveredAt = some t} t
  undelivered : a.deliveryState ≠ .delivered → a.deliveredAt = none

/-- The latest delivery, once all are delivered. -/
def deliveryTime (deliveries : List AlertDelivery) : Option Timestamp :=
  if aggregate deliveries = .delivered then (deliveries.filterMap (·.deliveredAt)).max? else none

def Summarizes (deliveries : List AlertDelivery) (a : Alert) : Prop :=
  a.deliveryState = aggregate deliveries ∧ a.deliveredAt = deliveryTime deliveries

/-- Every alert is up to date; every delivery has its alert, and a delivered one its time. -/
structure Consistent (db : Database) : Prop where
  summarized : ∀ a ∈ db.alerts, Summarizes (deliveriesOf a.id db) a
  owned : ∀ d ∈ db.alertDeliveries, ∃ a ∈ db.alerts, a.id = d.alertId
  timed : ∀ d ∈ db.alertDeliveries, d.state = .delivered → d.deliveredAt.isSome = true

section Lists

variable {deliveries deliveries' : List AlertDelivery} {a : Alert} {stats : DeliveryStats}

@[simp] theorem aggregate_nil : aggregate [] = .unconfigured :=
  rfl

@[simp] theorem deliveryTime_nil : deliveryTime [] = none :=
  rfl

theorem aggregate_eq_unconfigured_iff :
    aggregate deliveries = .unconfigured ↔ deliveries = [] := by
  unfold aggregate
  constructor
  · intro h
    split_ifs at h with hempty
    exact List.isEmpty_iff.mp hempty
  · rintro rfl
    rfl

theorem aggregate_of_unsettled {d : AlertDelivery} (hd : d ∈ deliveries)
    (hunsettled : unsettled d = true) : aggregate deliveries = .pending := by
  have hempty : deliveries.isEmpty = false := by
    rw [← Bool.not_eq_true, List.isEmpty_iff]
    exact List.ne_nil_of_mem hd
  have hany : (deliveries.any fun d => d.state = .pending || d.state = .leased) = true :=
    List.any_eq_true.mpr ⟨d, hd, hunsettled⟩
  simp only [aggregate, hempty, hany]
  rfl

/-- All deliveries of a delivered alert are delivered. -/
theorem state_of_aggregate (h : aggregate deliveries = .delivered) :
    deliveries ≠ [] ∧ ∀ d ∈ deliveries, d.state = .delivered := by
  unfold aggregate at h
  split_ifs at h with hempty hpending hfailed
  refine ⟨fun hnil => hempty (List.isEmpty_iff.mpr hnil), fun d hd => ?_⟩
  simp only [List.any_eq_true, not_exists, not_and] at hpending hfailed
  have hnotPending := hpending d hd
  have hnotFailed := hfailed d hd
  cases hstate : d.state <;> simp_all

/-- What the refresh statements compute is the aggregate. -/
theorem refreshed_summarizes (h : deliveryStats deliveries = some stats) (a : Alert) :
    Summarizes deliveries (refreshed stats a) := by
  unfold deliveryStats at h
  split at h
  · cases h
  · rename_i hempty
    cases h
    have hpending : 0 < deliveries.countP unsettled ↔
        (deliveries.any fun d => d.state = .pending || d.state = .leased) = true := by
      rw [List.countP_pos_iff, List.any_eq_true]
      rfl
    have hfailed : 0 < deliveries.countP (fun d => decide (d.state = .failed)) ↔
        (deliveries.any fun d => d.state = .failed) = true := by
      rw [List.countP_pos_iff, List.any_eq_true]
    have hstate : (refreshed ⟨deliveries.countP unsettled,
        deliveries.countP fun d => d.state = .failed,
        (deliveries.filterMap (·.deliveredAt)).max?⟩ a).deliveryState = aggregate deliveries := by
      simp only [refreshed, aggregate, hempty, gt_iff_lt, hpending, hfailed]
      rfl
    refine ⟨hstate, ?_⟩
    simp only [refreshed, deliveryTime, aggregate, hempty]
    by_cases hany : (deliveries.any fun d => d.state = .pending || d.state = .leased) = true
    · have := hpending.mpr hany
      simp [hany, this.ne']
    · have hzero : deliveries.countP unsettled = 0 := by
        have := mt hpending.mp hany
        omega
      by_cases hanyFailed : (deliveries.any fun d => d.state = .failed) = true
      · have := hfailed.mpr hanyFailed
        simp [hany, hanyFailed, hzero, this.ne']
      · have hzero' : (deliveries.countP fun d => decide (d.state = .failed)) = 0 := by
          have := mt hfailed.mp hanyFailed
          omega
        simp [hany, hanyFailed, hzero, hzero']

theorem deliveryStats_eq_none_iff : deliveryStats deliveries = none ↔ deliveries = [] := by
  unfold deliveryStats
  split
  · rename_i hempty
    simpa using hempty
  · rename_i hempty
    simpa using hempty

/-- Deliveries that stay unsettled, failed or delivered when they did before leave
the alert as it is. -/
theorem summarizes_map {f : AlertDelivery → AlertDelivery}
    (hunsettled : ∀ d ∈ deliveries, unsettled (f d) = unsettled d)
    (hfailed : ∀ d ∈ deliveries, (f d).state = .failed ↔ d.state = .failed)
    (hdeliveredAt : ∀ d ∈ deliveries, (f d).deliveredAt = d.deliveredAt)
    (h : Summarizes deliveries a) : Summarizes (deliveries.map f) a := by
  have hpending : ((deliveries.map f).any fun d => d.state = .pending || d.state = .leased) =
      deliveries.any fun d => d.state = .pending || d.state = .leased := by
    rw [List.any_map, Bool.eq_iff_iff, List.any_eq_true, List.any_eq_true]
    refine exists_congr fun d => and_congr_right fun hd => ?_
    exact Bool.eq_iff_iff.mp (hunsettled d hd)
  have hany : ((deliveries.map f).any fun d => d.state = .failed) =
      deliveries.any fun d => d.state = .failed := by
    rw [List.any_map, Bool.eq_iff_iff, List.any_eq_true, List.any_eq_true]
    refine exists_congr fun d => and_congr_right fun hd => ?_
    simpa using hfailed d hd
  have hempty : (deliveries.map f).isEmpty = deliveries.isEmpty := by
    cases deliveries <;> rfl
  have hstate : aggregate (deliveries.map f) = aggregate deliveries := by
    simp only [aggregate, hpending, hany, hempty]
  have htimes : (deliveries.map f).filterMap (·.deliveredAt) =
      deliveries.filterMap (·.deliveredAt) := by
    rw [List.filterMap_map]
    exact List.filterMap_congr fun d hd => hdeliveredAt d hd
  unfold Summarizes deliveryTime
  rw [hstate, htimes]
  exact h

end Lists

section Groups

variable {db db' : Database} {alertId : UUID} {d : AlertDelivery} {a : Alert}

theorem mem_deliveriesOf : d ∈ deliveriesOf alertId db ↔
    d ∈ db.alertDeliveries ∧ d.alertId = alertId := by
  simp [deliveriesOf, Table.mem_def]

theorem deliveriesOf_eq_nil_iff :
    deliveriesOf alertId db = [] ↔ ∀ d ∈ db.alertDeliveries, d.alertId ≠ alertId := by
  simp [deliveriesOf, List.filter_eq_nil_iff, Table.mem_def]

theorem deliveriesOf_congr (h : db'.alertDeliveries = db.alertDeliveries) :
    deliveriesOf alertId db' = deliveriesOf alertId db := by
  unfold deliveriesOf
  rw [h]

theorem deliveriesOf_update {p : AlertDelivery → Bool} {f : AlertDelivery → AlertDelivery}
    {hf : ∀ d, (f d).id = d.id} (halert : ∀ d, (f d).alertId = d.alertId)
    (h : db'.alertDeliveries = db.alertDeliveries.update p f hf) :
    deliveriesOf alertId db' = (deliveriesOf alertId db).map fun d => if p d then f d else d := by
  unfold deliveriesOf
  rw [h]
  simp only [Table.update]
  rw [List.filter_map]
  congr 1
  refine List.filter_congr fun d _ => ?_
  simp only [Function.comp_apply]
  split
  · rw [halert]
  · rfl

theorem deliveriesOf_added {added : List AlertDelivery}
    (h : db'.alertDeliveries.rows = db.alertDeliveries.rows ++ added) :
    deliveriesOf alertId db' =
      deliveriesOf alertId db ++ added.filter fun d => d.alertId = alertId := by
  unfold deliveriesOf
  rw [h, List.filter_append]

theorem Consistent.aggregates (h : Consistent db) (ha : a ∈ db.alerts) : Aggregates db a := by
  obtain ⟨hstate, htime⟩ := h.summarized a ha
  refine ⟨hstate, ?_, fun hdelivered => ?_, fun hundelivered => ?_⟩
  · rw [hstate, aggregate_eq_unconfigured_iff, deliveriesOf_eq_nil_iff]
  · rw [hstate] at hdelivered
    obtain ⟨hne, hall⟩ := state_of_aggregate hdelivered
    rw [deliveryTime, if_pos hdelivered] at htime
    have htimes : (deliveriesOf a.id db).filterMap (·.deliveredAt) ≠ [] := by
      obtain ⟨d, hd⟩ := List.exists_mem_of_ne_nil _ hne
      obtain ⟨t, ht⟩ := Option.isSome_iff_exists.mp
        (h.timed d (mem_deliveriesOf.mp hd).1 (hall d hd))
      exact List.ne_nil_of_mem (List.mem_filterMap.mpr ⟨d, hd, ht⟩)
    obtain ⟨t, ht⟩ := Option.isSome_iff_exists.mp (List.isSome_max?_of_ne_nil htimes)
    obtain ⟨hmem, hmax⟩ := List.max?_eq_some_iff.mp ht
    refine ⟨t, htime.trans ht, ?_, ?_⟩
    · obtain ⟨d, hd, hdt⟩ := List.mem_filterMap.mp hmem
      exact ⟨d, (mem_deliveriesOf.mp hd).1, (mem_deliveriesOf.mp hd).2, hdt⟩
    · rintro u ⟨d, hd, halert, hdu⟩
      exact hmax u (List.mem_filterMap.mpr ⟨d, mem_deliveriesOf.mpr ⟨hd, halert⟩, hdu⟩)
  · rw [hstate] at hundelivered
    rw [htime, deliveryTime, if_neg hundelivered]

/-- A refresh of one alert makes up for a change of its deliveries. -/
theorem summarizes_refreshAlertState
    (h : ∀ a ∈ db.alerts, a.id ≠ alertId → Summarizes (deliveriesOf a.id db) a)
    (hne : deliveriesOf alertId db ≠ []) :
    ∀ a ∈ (refreshAlertState alertId db).alerts,
      Summarizes (deliveriesOf a.id (refreshAlertState alertId db)) a := by
  intro a ha
  rw [deliveriesOf_congr (refreshAlertState_alertDeliveries alertId db)]
  cases hstats : deliveryStats (deliveriesOf alertId db) with
  | none => exact absurd (deliveryStats_eq_none_iff.mp hstats) hne
  | some stats =>
      simp only [refreshAlertState, hstats] at ha
      rcases Table.mem_update_cases ha with ⟨s, hs, hid, rfl⟩ | ⟨ha, hid⟩
      · have hid : s.id = alertId := by simpa using hid
        rw [refreshed_id, hid]
        exact refreshed_summarizes hstats s
      · exact h a ha (by simpa using hid)

/-- A refresh of all alerts leaves only those without deliveries as they were. -/
theorem summarizes_refreshAllAlertStates
    (h : ∀ a ∈ db.alerts, deliveriesOf a.id db = [] → Summarizes [] a) :
    ∀ a ∈ (refreshAllAlertStates db).alerts,
      Summarizes (deliveriesOf a.id (refreshAllAlertStates db)) a := by
  intro a ha
  have hsame : deliveriesOf a.id (refreshAllAlertStates db) = deliveriesOf a.id db := rfl
  rw [hsame]
  rcases Table.mem_update_cases ha with ⟨s, hs, -, rfl⟩ | ⟨-, hfalse⟩
  · rw [refreshByStats_id]
    unfold refreshByStats
    cases hstats : deliveryStats (deliveriesOf s.id db) with
    | none =>
        have hnil := deliveryStats_eq_none_iff.mp hstats
        rw [hnil]
        exact h s hs hnil
    | some stats => exact refreshed_summarizes hstats s
  · cases hfalse

theorem refreshAlertState_ids (alertId : UUID) (db : Database) :
    ∀ a ∈ db.alerts, ∃ a' ∈ (refreshAlertState alertId db).alerts, a'.id = a.id := by
  intro a ha
  unfold refreshAlertState
  split
  · exact ⟨a, ha, rfl⟩
  · exact Table.exists_mem_update ha

end Groups

section Preservation

variable {now : Timestamp} {db db' : Database} {store : OpenStore} {call : DeliveryCall}
  {d d' : AlertDelivery} {a : Alert}

theorem Moved.alertId (h : Moved db call d d') : d'.alertId = d.alertId := by
  cases h <;> rfl

theorem Moved.timed (h : Moved db call d d')
    (htimed : d.state = .delivered → d.deliveredAt.isSome = true)
    (hstate : d'.state = .delivered) : d'.deliveredAt.isSome = true := by
  cases h with
  | kept => exact htimed hstate
  | leased => cases hstate
  | delivered => rfl
  | returned owner failure hcall hleased =>
      simp only [returned, DeliveryFailure.state] at hstate
      split at hstate <;> cases hstate
  | closed => cases hstate

theorem Consistent.empty : Consistent Database.empty :=
  ⟨fun a ha => absurd ha (Table.not_mem_empty a), fun d hd => absurd hd (Table.not_mem_empty d),
    fun d hd => absurd hd (Table.not_mem_empty d)⟩

theorem Consistent.timed_deliveryStep (h : Consistent db) (call : DeliveryCall) :
    ∀ d ∈ (deliveryStep db call).alertDeliveries, d.state = .delivered →
      d.deliveredAt.isSome = true := by
  refine (grows_deliveryStep db call).forall_mem h.timed (fun d d' _ htimed hmoved => ?_) ?_
  · exact Moved.timed hmoved htimed
  · rintro d ⟨channels, alertId, hunsent⟩ hstate
    rw [hunsent.state] at hstate
    cases hstate

/-- A completion or a failure: one delivery changes, and its alert is refreshed. -/
theorem Consistent.settled {deliveryId owner : UUID} {f : AlertDelivery → AlertDelivery}
    {hf : ∀ d, (f d).id = d.id} (h : Consistent db) (halert : ∀ d, (f d).alertId = d.alertId)
    (hfound : db.alertDeliveries.find (leasedBy deliveryId owner) = some d)
    (hdb' : db' = refreshAlertState d.alertId { db with
      alertDeliveries := db.alertDeliveries.update (leasedBy deliveryId owner) f hf })
    (htimed : ∀ d ∈ db'.alertDeliveries, d.state = .delivered → d.deliveredAt.isSome = true) :
    Consistent db' := by
  obtain ⟨hd, hleased⟩ := Table.mem_of_find hfound
  have hother : ∀ s ∈ db.alertDeliveries, leasedBy deliveryId owner s = true → s = d := by
    intro s hs hs'
    exact Table.eq_of_key_eq hs hd ((leasedBy_iff.mp hs').1.trans (leasedBy_iff.mp hleased).1.symm)
  subst hdb'
  refine ⟨summarizes_refreshAlertState (fun a ha hne => ?_) ?_, ?_, htimed⟩
  · rw [deliveriesOf_update halert rfl]
    have hsame : (deliveriesOf a.id db).map
        (fun s => if leasedBy deliveryId owner s then f s else s) = deliveriesOf a.id db := by
      conv_rhs => rw [← List.map_id (deliveriesOf a.id db)]
      refine List.map_congr_left fun s hs => if_neg fun hs' => ?_
      obtain ⟨hs, halert⟩ := mem_deliveriesOf.mp hs
      exact hne (by rw [← halert, hother s hs hs'])
    rw [hsame]
    exact h.summarized a ha
  · rw [deliveriesOf_update halert rfl]
    exact List.map_eq_nil_iff.not.mpr (List.ne_nil_of_mem (mem_deliveriesOf.mpr ⟨hd, rfl⟩))
  · intro s hs
    rw [refreshAlertState_alertDeliveries] at hs
    have howned : ∀ s ∈ db.alertDeliveries.update (leasedBy deliveryId owner) f hf,
        ∃ a ∈ db.alerts, a.id = s.alertId :=
      Table.forall_update h.owned fun s _ hs => by rwa [halert s]
    obtain ⟨a, ha, hid⟩ := howned s hs
    obtain ⟨a', ha', hid'⟩ := refreshAlertState_ids d.alertId { db with
      alertDeliveries := db.alertDeliveries.update (leasedBy deliveryId owner) f hf } a ha
    exact ⟨a', ha', hid'.trans hid⟩

theorem Consistent.claimed {owner : UUID} {lease limit : Nat} {locked : UUID → Bool}
    (h : Consistent db)
    (htimed : ∀ d ∈ (claimAlertDeliveries store now owner lease locked limit db).2.alertDeliveries,
      d.state = .delivered → d.deliveredAt.isSome = true) :
    Consistent (claimAlertDeliveries store now owner lease locked limit db).2 := by
  rcases claim_cases owner lease limit locked with hdb' | hdb'
  · rw [hdb']
    exact h
  · rw [hdb'] at htimed ⊢
    have halert : ∀ d, (leased now owner (leaseSeconds lease) d).alertId = d.alertId := fun _ => rfl
    refine ⟨fun a ha => ?_, ?_, htimed⟩
    · rw [deliveriesOf_update halert rfl]
      refine summarizes_map ?_ ?_ ?_ (h.summarized a ha)
      · intro d hd
        split
        · rename_i hpicked
          have hclaimable :=
            (claimable_of_picked (picked_of_contains (mem_deliveriesOf.mp hd).1 hpicked)).2
          simp only [claimable, expired, Bool.and_eq_true, Bool.or_eq_true, decide_eq_true_eq]
            at hclaimable
          rcases hclaimable.2 with ⟨hstate, -⟩ | ⟨hstate, -⟩ <;> simp [unsettled, leased, hstate]
        · rfl
      · intro d hd
        split
        · rename_i hpicked
          have hclaimable :=
            (claimable_of_picked (picked_of_contains (mem_deliveriesOf.mp hd).1 hpicked)).2
          simp only [claimable, expired, Bool.and_eq_true, Bool.or_eq_true, decide_eq_true_eq]
            at hclaimable
          rcases hclaimable.2 with ⟨hstate, -⟩ | ⟨hstate, -⟩ <;> simp [leased, hstate]
        · rfl
      · intro d hd
        split <;> rfl
    · exact Table.forall_update h.owned fun d _ hd => by rwa [halert d]

/-- The loop of a reconciliation: alerts without deliveries stay unconfigured. -/
structure Backfilling (alertIds : List UUID) (db : Database) : Prop where
  bare : ∀ a ∈ db.alerts, deliveriesOf a.id db = [] → Summarizes [] a
  owned : ∀ d ∈ db.alertDeliveries, ∃ a ∈ db.alerts, a.id = d.alertId
  exist : ∀ alertId ∈ alertIds, ∃ a ∈ db.alerts, a.id = alertId

theorem setDeliveryState_ids (alertId : UUID) (state : AlertState) (db : Database) :
    ∀ a ∈ db.alerts, ∃ a' ∈ (setDeliveryState alertId state db).alerts, a'.id = a.id := by
  exact fun a ha => Table.exists_mem_update ha

theorem Backfilling.backfill {alertId : UUID} {rest : List UUID}
    (h : Backfilling (alertId :: rest) db) (hok : backfill store now alertId db = .ok db') :
    Backfilling rest db' := by
  obtain ⟨owner, howner, hid⟩ := h.exist alertId List.mem_cons_self
  have keep : ∀ {state : AlertState} {db₁ : Database}, db₁.alerts = db.alerts →
      ∀ id, (∃ a ∈ db.alerts, a.id = id) →
        ∃ a ∈ (setDeliveryState alertId state db₁).alerts, a.id = id := by
    rintro state db₁ halerts id ⟨a, ha, rfl⟩
    exact setDeliveryState_ids alertId state db₁ a (halerts ▸ ha)
  unfold Deliveries.backfill at hok
  split at hok
  · obtain rfl := Except.ok.inj hok
    refine ⟨fun a ha hnil => ?_, fun d hd => keep rfl _ (h.owned d hd),
      fun id hid => keep rfl _ (h.exist id (List.mem_cons_of_mem _ hid))⟩
    rcases Table.mem_update_cases ha with ⟨s, hs, -, rfl⟩ | ⟨ha, -⟩
    · exact ⟨rfl, (h.bare s hs hnil).2⟩
    · exact h.bare a ha hnil
  · rename_i hchannels
    obtain ⟨db₁, hinsert, rfl⟩ := map_eq_ok.mp hok
    obtain ⟨hopens, halerts⟩ := opens_of_insertDeliveries hinsert
    obtain ⟨added, hrows, hadded⟩ := hopens.added
    have hsplit : ∀ id, deliveriesOf id (setDeliveryState alertId .pending db₁) =
        deliveriesOf id db ++ added.filter fun d => d.alertId = id := fun id =>
      deliveriesOf_added hrows
    refine ⟨fun a ha hnil => ?_, fun d hd => ?_,
      fun id hid => keep halerts _ (h.exist id (List.mem_cons_of_mem _ hid))⟩
    · rcases Table.mem_update_cases ha with ⟨s, hs, hid, rfl⟩ | ⟨ha, -⟩
      · -- the alert has just got its deliveries
        obtain ⟨d, hd, halert⟩ := hopens.present fun hnil => hchannels (by rw [hnil]; rfl)
        have hid : s.id = alertId := by simpa using hid
        exact absurd (halert.trans hid.symm) (deliveriesOf_eq_nil_iff.mp hnil d hd)
      · rw [hsplit] at hnil
        exact h.bare a (halerts ▸ ha) (List.append_eq_nil_iff.mp hnil).1
    · have hmem : d ∈ db.alertDeliveries.rows ++ added := hrows ▸ hd
      rcases List.mem_append.mp hmem with hd | hd
      · exact keep halerts _ (h.owned d hd)
      · rw [(hadded d hd).alertId]
        exact keep halerts _ ⟨owner, howner, hid⟩

theorem Consistent.reconciled {locked : UUID → Bool} {u : Unit} (h : Consistent db)
    (hok : reconcileAlertDeliveries store now locked db = .ok (u, db'))
    (htimed : ∀ d ∈ db'.alertDeliveries, d.state = .delivered → d.deliveredAt.isSome = true) :
    Consistent db' := by
  obtain ⟨db₁, hloop, -, rfl⟩ := reconcile_ok hok
  have hstart : Backfilling ((undelivered db locked).map (·.id)) db := by
    refine ⟨fun a ha hnil => hnil ▸ h.summarized a ha, h.owned, fun id hid => ?_⟩
    obtain ⟨a, ha, rfl⟩ := List.mem_map.mp hid
    have hmem := (List.mem_insertionSort _).mp (List.mem_of_mem_take ha)
    exact ⟨a, (List.mem_filter.mp hmem).1, rfl⟩
  have hdone : Backfilling [] db₁ :=
    foldlM_induction Backfilling (fun _ _ _ _ hloop hstep => hloop.backfill hstep) _ _ _ hstart
      hloop
  have hclosed : ∀ id, deliveriesOf id (closeRemoved store now db₁) =
      (deliveriesOf id db₁).map fun d => if closable store now d then closed d else d := fun id =>
    deliveriesOf_update (fun _ => rfl : ∀ d, (closed d).alertId = d.alertId) rfl
  refine ⟨summarizes_refreshAllAlertStates fun a ha hnil => ?_, fun d hd => ?_, htimed⟩
  · rw [hclosed] at hnil
    exact hdone.bare a ha (List.map_eq_nil_iff.mp hnil)
  · have howned : ∀ d ∈ db₁.alertDeliveries.update (closable store now) closed closed_id,
        ∃ a ∈ db₁.alerts, a.id = d.alertId :=
      Table.forall_update hdone.owned fun _ _ hd => hd
    obtain ⟨a, ha, hid⟩ := howned d hd
    obtain ⟨a', ha', hid'⟩ :
        ∃ a' ∈ (refreshAllAlertStates (closeRemoved store now db₁)).alerts, a'.id = a.id :=
      Table.exists_mem_update ha
    exact ⟨a', ha', hid'.trans hid⟩

theorem Consistent.raising (h : Consistent db) (hraising : Raising db db') : Consistent db' := by
  cases hraising with
  | kept halerts hdeliveries =>
      refine ⟨fun a ha => ?_, ?_, ?_⟩
      · rw [deliveriesOf_congr hdeliveries]
        exact h.summarized a (halerts ▸ ha)
      · rw [hdeliveries, halerts]
        exact h.owned
      · rw [hdeliveries]
        exact h.timed
  | raised store now id monitorId observationId key halert hopens =>
      obtain ⟨added, hrows, hadded⟩ := hopens.added
      have hnone : deliveriesOf id db = [] := by
        rw [deliveriesOf_eq_nil_iff]
        intro d hd hid
        obtain ⟨a, ha, hid'⟩ := h.owned d hd
        exact halert.key_ne ha (hid'.trans hid)
      have hmem : ∀ d ∈ db'.alertDeliveries, d ∈ db.alertDeliveries ∨ d ∈ added := by
        intro d hd
        rw [Table.mem_def, hrows] at hd
        exact List.mem_append.mp hd
      refine ⟨Table.forall_appended halert (fun a ha => ?_) ?_, fun d hd => ?_, fun d hd hstate =>
        ?_⟩
      · have hothers : (added.filter fun d => d.alertId = a.id) = [] := by
          rw [List.filter_eq_nil_iff]
          intro d hd
          rw [(hadded d hd).alertId, decide_eq_true_eq]
          exact fun hid => halert.key_ne ha hid.symm
        rw [deliveriesOf_added hrows, hothers, List.append_nil]
        exact h.summarized a ha
      · show Summarizes (deliveriesOf id db') _
        rw [deliveriesOf_added hrows, hnone, List.nil_append]
        by_cases hchannels : store.alertChannels = []
        · have hempty : (added.filter fun d => d.alertId = id) = [] := by
            rw [List.filter_eq_nil_iff]
            intro d hd
            have := (hadded d hd).channel
            rw [hchannels] at this
            cases this
          rw [hempty]
          simp [Summarizes, newAlert, hchannels]
        · obtain ⟨d, hd, hid⟩ := hopens.present hchannels
          have hadd : d ∈ added := (hmem d hd).resolve_left fun hold =>
            deliveriesOf_eq_nil_iff.mp hnone d hold hid
          have hmember : d ∈ added.filter fun d => d.alertId = id :=
            List.mem_filter.mpr ⟨hadd, by simpa using hid⟩
          have hpending := aggregate_of_unsettled hmember
            (by simp [unsettled, (hadded d hadd).state])
          have hlength : store.alertChannels.length > 0 := List.length_pos_iff.mpr hchannels
          simp [Summarizes, deliveryTime, hpending, newAlert, hlength]
      · rcases hmem d hd with hd | hd
        · obtain ⟨a, ha, hid⟩ := h.owned d hd
          exact ⟨a, halert.mem_of_mem ha, hid⟩
        · exact ⟨_, halert.mem, (hadded d hd).alertId.symm⟩
      · rcases hmem d hd with hd | hd
        · exact h.timed d hd hstate
        · rw [(hadded d hd).state] at hstate
          cases hstate

theorem Consistent.completed {deliveryId owner : UUID} {u : Unit} (h : Consistent db)
    (hok : completeAlertDelivery now deliveryId owner db = .ok (u, db'))
    (htimed : ∀ d ∈ db'.alertDeliveries, d.state = .delivered → d.deliveredAt.isSome = true) :
    Consistent db' := by
  obtain ⟨d, hfound, hdb'⟩ := complete_ok hok
  exact h.settled (fun _ => rfl : ∀ d, (delivered now d).alertId = d.alertId) hfound hdb' htimed

theorem Consistent.failed {deliveryId owner : UUID} {failure : DeliveryFailure}
    {state : DeliveryState} (h : Consistent db)
    (hok : failAlertDelivery deliveryId owner failure db = .ok (state, db'))
    (htimed : ∀ d ∈ db'.alertDeliveries, d.state = .delivered → d.deliveredAt.isSome = true) :
    Consistent db' := by
  obtain ⟨d, hfound, hdb'⟩ := fail_ok hok
  exact h.settled (fun _ => rfl : ∀ d, (returned failure d).alertId = d.alertId) hfound hdb' htimed

theorem Consistent.deliveryStep (h : Consistent db) (call : DeliveryCall) :
    Consistent (deliveryStep db call) := by
  have htimed := h.timed_deliveryStep call
  obtain ⟨now, operation⟩ := call
  cases operation with
  | reconcile store locked =>
      show Consistent (commit (reconcileAlertDeliveries store now locked) db)
      rcases commit_cases (reconcileAlertDeliveries store now locked) db with hsame | ⟨u, hok⟩
      · rw [hsame]
        exact h
      · exact h.reconciled hok htimed
  | claim store owner lease limit locked => exact h.claimed htimed
  | complete deliveryId owner =>
      show Consistent (commit (completeAlertDelivery now deliveryId owner) db)
      rcases commit_cases (completeAlertDelivery now deliveryId owner) db with hsame | ⟨u, hok⟩
      · rw [hsame]
        exact h
      · exact h.completed hok htimed
  | fail deliveryId owner failure =>
      show Consistent (commit (failAlertDelivery deliveryId owner failure) db)
      rcases commit_cases (failAlertDelivery deliveryId owner failure) db with hsame | ⟨state, hok⟩
      · rw [hsame]
        exact h
      · exact h.failed hok htimed

end Preservation

theorem consistent_of_reachable {db : Database} (h : Reachable act Database.empty db) :
    Consistent db := by
  refine h.invariant Consistent.empty fun db action _ hconsistent => ?_
  cases action with
  | store call => exact hconsistent.raising (raising_step db call)
  | delivery call => exact hconsistent.deliveryStep call

/-- In every state of a run of the store and of runners with any channels, every
alert says what its deliveries say. -/
theorem alert_aggregates (actions : List Action) :
    ∀ a ∈ (run act Database.empty actions).alerts,
      Aggregates (run act Database.empty actions) a := by
  intro a ha
  exact (consistent_of_reachable ⟨actions, rfl⟩).aggregates ha

def twoChannels : OpenStore :=
  openStore ["webhook", "discord"] 3

/-- A confirmed match raises an alert on two channels. -/
def alertRaised : List Call :=
  confirmedMatch.dropLast ++ [⟨5, .applyResult twoChannels ⟨6⟩ fiveDollars⟩]

/-- A runner claims both deliveries and completes one after the other. -/
def alertDelivered : List Action :=
  alertRaised.map .store ++
    [.delivery ⟨10, .claim twoChannels ⟨500⟩ 45000000000 8 fun _ => false⟩,
     .delivery ⟨11, .complete ⟨9⟩ ⟨500⟩⟩, .delivery ⟨12, .complete ⟨10⟩ ⟨500⟩⟩]

theorem alert_aggregates_delivered :
    ∃ a ∈ (run act Database.empty alertDelivered).alerts, a.deliveryState = .delivered ∧
      Aggregates (run act Database.empty alertDelivered) a := by
  obtain ⟨a, ha, hdelivered⟩ : ∃ a ∈ (run act Database.empty alertDelivered).alerts,
      a.deliveryState = .delivered := by
    decide +kernel
  exact ⟨a, ha, hdelivered, alert_aggregates alertDelivered a ha⟩

end PriceScout.Store.AlertAggregates
