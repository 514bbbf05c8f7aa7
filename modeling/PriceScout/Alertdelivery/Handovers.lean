import PriceScout.Alertdelivery.Attempts
import PriceScout.Alertdelivery.Contents
import PriceScout.Alertdelivery.LeaseProtocol

/-!
No delivery is lost between the database and a sender. What a claim leases it hands
over, and what is leased to a runner that goes on is in its hands.
-/

namespace PriceScout.Alertdelivery.Handovers

open PriceScout.Alertdelivery.Attempts
open PriceScout.Alertdelivery.Contents
open PriceScout.Alertdelivery.LeaseProtocol
open PriceScout.Alertdelivery.Runner
open PriceScout.Domain
open PriceScout.Library.Runs
open PriceScout.Library.Tables
open PriceScout.Store.Alerts
open PriceScout.Store.Deliveries
open PriceScout.Store.DeliveryRuns
open PriceScout.Store.Schema

/-- The rows that a claim joins a delivery with exist. -/
structure Joinable (db : Database) : Prop where
  deliveries : ∀ d ∈ db.alertDeliveries, Announces db d
  alerts : ∀ a ∈ db.alerts, References db a

section Joins

variable {db db' : Database} {d : AlertDelivery} {store : OpenStore} {now : Timestamp}

theorem Joinable.empty : Joinable Database.empty :=
  ⟨fun d hd => absurd hd (Table.not_mem_empty d), fun a ha => absurd ha (Table.not_mem_empty a)⟩

theorem Joinable.lasts (h : Joinable db) (hlasts : Lasts db db') : Joinable db' where
  deliveries := by
    intro d' hd'
    rcases hlasts.deliveries.backward d' hd' with ⟨d, hd, -, hsame⟩ | hnew
    · exact hlasts.announces (h.deliveries d hd) hsame
    · exact hnew
  alerts := by
    intro a' ha'
    rcases hlasts.alerts.backward a' ha' with ⟨a, ha, -, hsame⟩ | hnew
    · exact hlasts.references (h.alerts a ha) hsame
    · exact hnew

theorem joinable_worldAt (parseTime : String → Option Timestamp) (events : List Event) (n : Nat) :
    Joinable (worldAt parseTime events n).db :=
  Reachable.invariant (P := fun w => Joinable w.db) Joinable.empty
    (fun w event _ h => h.lasts (lasts_event parseTime w event)) (reachable_stateAt events n)

/-- The join of a claim finds every delivery. -/
theorem Joinable.exists_claimedDelivery (h : Joinable db) (hd : d ∈ db.alertDeliveries) :
    ∃ delivery, claimedDelivery db d = some delivery := by
  obtain ⟨a, ha, hid⟩ := h.deliveries d hd
  obtain ⟨⟨m, hm, hmid⟩, o, ho, hoid⟩ := h.alerts a ha
  have halert := Table.lookup_eq_some_iff.mpr ⟨ha, hid⟩
  have hmonitor := Table.lookup_eq_some_iff.mpr ⟨hm, hmid⟩
  have hobservation := Table.lookup_eq_some_iff.mpr ⟨ho, hoid⟩
  exact Option.isSome_iff_exists.mp (by simp [claimedDelivery, halert, hmonitor, hobservation])

theorem map_joined (rows : List AlertDelivery)
    (h : ∀ d ∈ rows, ∃ delivery, claimedDelivery db d = some delivery) :
    ((rows.filterMap (claimedDelivery db)).map fun delivery => (delivery.id, delivery.attempt)) =
      rows.map fun d => (d.id, d.attempts) := by
  induction rows with
  | nil => rfl
  | cons d rows ih =>
      obtain ⟨delivery, hdelivery⟩ := h d List.mem_cons_self
      obtain ⟨hid, hattempt⟩ := claimedDelivery_eq_some hdelivery
      rw [List.filterMap_cons_some hdelivery, List.map_cons, List.map_cons, hid, hattempt,
        ih fun d hd => h d (List.mem_cons_of_mem _ hd)]

theorem nodup_picked (locked : UUID → Bool) (limit : Nat) :
    (picked store now locked limit db).Nodup := by
  refine List.Nodup.sublist (List.take_sublist _ _) ?_
  rw [(List.perm_insertionSort _ _).nodup_iff]
  exact db.alertDeliveries.nodup_rows.filter _

/-- The rows with the ids of the picked ones are the picked ones. -/
theorem perm_picked (locked : UUID → Bool) (limit : Nat) :
    (db.alertDeliveries.rows.filter fun d =>
      ((picked store now locked limit db).map (·.id)).contains d.id).Perm
      (picked store now locked limit db) := by
  refine (List.perm_ext_iff_of_nodup (db.alertDeliveries.nodup_rows.filter _)
    (nodup_picked locked limit)).mpr fun d => ?_
  rw [List.mem_filter]
  constructor
  · rintro ⟨hd, hcontains⟩
    exact picked_of_contains hd hcontains
  · intro hd
    exact ⟨(claimable_of_picked hd).1, List.contains_iff_mem.mpr (List.mem_map_of_mem hd)⟩

/-- A claim hands over what it leases, each delivery once and with the attempt it counted. -/
theorem Joinable.perm_claimAlertDeliveries (h : Joinable db) (owner : UUID) (lease limit : Nat)
    (locked : UUID → Bool) (hchannels : store.alertChannels.isEmpty = false) :
    ((claimAlertDeliveries store now owner lease locked limit db).1.map fun delivery =>
        (delivery.id, delivery.attempt)).Perm
      ((picked store now locked limit db).map fun d => (d.id, d.attempts + 1)) := by
  have hlasts : Lasts db { db with
      alertDeliveries := db.alertDeliveries.update
        (fun d => ((picked store now locked limit db).map (·.id)).contains d.id)
        (leased now owner (leaseSeconds lease)) (leased_id now owner (leaseSeconds lease)) } :=
    lasts_update fun _ => ⟨rfl, rfl⟩
  simp only [claimAlertDeliveries, hchannels]
  rw [if_neg (by simp), map_joined]
  · refine ((List.perm_insertionSort _ _).map _).trans ?_
    rw [Table.rows_update, List.filter_map, List.map_map]
    have hids : ((fun d => ((picked store now locked limit db).map (·.id)).contains d.id) ∘
        fun d => if ((picked store now locked limit db).map (·.id)).contains d.id then
          leased now owner (leaseSeconds lease) d else d) =
        fun d => ((picked store now locked limit db).map (·.id)).contains d.id := by
      funext d
      simp only [Function.comp_apply]
      split <;> rfl
    rw [hids]
    refine .trans (.of_eq (List.map_congr_left fun d hd => ?_)) ((perm_picked locked limit).map _)
    simp only [Function.comp_apply, (List.mem_filter.mp hd).2, if_true]
    rfl
  · intro d hd
    obtain ⟨hd, -⟩ := List.mem_filter.mp ((List.mem_insertionSort _).mp hd)
    exact (h.lasts hlasts).exists_claimedDelivery hd

end Joins

/-- The answers of the database that reach nobody: the rows of a claim, or a record. -/
def Loses (owner : UUID) : Event → Prop
  | .claim claimer _ _ received => claimer = owner ∧ received = false
  | .record recorder _ _ _ written => recorder = owner ∧ written = false
  | _ => False

/-- What is leased to a runner is in its hands, with the attempt that it is on. -/
structure Held (owner : UUID) (w : World) : Prop where
  inHand : ∀ d ∈ w.db.alertDeliveries, d.state = .leased → d.leaseOwner = some owner →
    ∀ store tasks, w.processes owner = .running store tasks →
      ∃ task ∈ tasks, task.delivery.id = d.id ∧ task.delivery.attempt = d.attempts
  launched : ∀ d ∈ w.db.alertDeliveries, d.leaseOwner = some owner → w.processes owner ≠ .absent

section Hands

variable {parseTime : String → Option Timestamp} {w : World} {event : Event} {owner : UUID}
  {d d' : AlertDelivery}

theorem perm_handed (h : Joinable w.db) (owner : UUID) (now : Timestamp) (locked : UUID → Bool) :
    ((handed w (.claim owner now locked true)).map fun delivery =>
        (delivery.id, delivery.attempt)).Perm
      ((claimed w (.claim owner now locked true)).map fun d => (d.id, d.attempts + 1)) := by
  simp only [handed, claimed, if_true]
  cases hclaiming : w.claiming owner with
  | none => exact .refl _
  | some store =>
      by_cases hchannels : store.alertChannels.isEmpty = true
      · have hnone : picked store now locked claimBatch w.db = [] := by
          refine List.eq_nil_iff_forall_not_mem.mpr fun d hd => ?_
          have hclaimable := (claimable_of_picked hd).2
          rw [claimable, List.isEmpty_iff.mp hchannels] at hclaimable
          cases hclaimable
        simp [hnone, claimAlertDeliveries, hchannels]
      · exact h.perm_claimAlertDeliveries owner claimLease claimBatch locked
          (Bool.eq_false_iff.mpr hchannels)

/-- A process that has been launched stays known. -/
theorem ne_absent_step (h : w.processes owner ≠ .absent) :
    (step parseTime w event).processes owner ≠ .absent := by
  rcases processes_step parseTime w event owner with hsame | hprocessed
  · rwa [hsame]
  · intro habsent
    rw [habsent] at hprocessed
    cases event with
    | claim claimer now locked received =>
        obtain ⟨store, -, hpair⟩ := Option.map_eq_some_iff.mp hprocessed
        cases hpair
    | store | reconcile => cases hprocessed
    | launch | answer | record | crash =>
        simp only [processed] at hprocessed
        split at hprocessed <;> cases hprocessed

theorem processes_of_claiming {store : OpenStore} {now : Timestamp} {locked : UUID → Bool}
    {received : Bool} (h : w.claiming owner = some store) :
    (step parseTime w (.claim owner now locked received)).processes owner =
      .running store ((handed w (.claim owner now locked received)).map fun delivery =>
        ⟨delivery, none⟩) := by
  simp [step, processed, h]

theorem not_leasedBy_of_mem_update {t : Table AlertDelivery.id} {deliveryId : UUID}
    {f : AlertDelivery → AlertDelivery} {hf : ∀ d, (f d).id = d.id}
    (hfree : ∀ d, (f d).leaseOwner = none) (hd : d ∈ t.update (leasedBy deliveryId owner) f hf) :
    leasedBy deliveryId owner d = false := by
  rcases Table.mem_update_cases hd with ⟨s, -, -, rfl⟩ | ⟨-, hnot⟩
  · simp [leasedBy, hfree]
  · exact hnot

/-- A delivery that is recorded is not leased to the runner any more. -/
theorem not_leasedBy_deliveryStep {db : Database} {call : DeliveryCall} {deliveryId : UUID}
    (hcall : call.operation = .complete deliveryId owner ∨
      ∃ failure, call.operation = .fail deliveryId owner failure)
    (hd : d ∈ (deliveryStep db call).alertDeliveries) : leasedBy deliveryId owner d = false := by
  by_cases hunleased : ∀ s ∈ db.alertDeliveries, leasedBy deliveryId owner s = false
  · rw [(outcome_of_unleased hcall hunleased).2] at hd
    exact hunleased d hd
  obtain ⟨s, hfound⟩ := Option.ne_none_iff_exists'.mp fun hnone =>
    hunleased (Table.find_eq_none_iff.mp hnone)
  obtain ⟨now, operation⟩ := call
  rcases hcall with hcall | ⟨failure, hcall⟩
  · obtain rfl : operation = .complete deliveryId owner := hcall
    have hdone : deliveryStep db ⟨now, .complete deliveryId owner⟩ = _ :=
      commit_of_ok (by simp only [completeAlertDelivery, hfound]; rfl)
    rw [hdone, refreshAlertState_alertDeliveries] at hd
    exact not_leasedBy_of_mem_update (fun _ => rfl) hd
  · obtain rfl : operation = .fail deliveryId owner failure := hcall
    have hdone : deliveryStep db ⟨now, .fail deliveryId owner failure⟩ = _ :=
      commit_of_ok (by simp only [failAlertDelivery, hfound]; rfl)
    rw [hdone, refreshAlertState_alertDeliveries] at hd
    exact not_leasedBy_of_mem_update (fun _ => rfl) hd

/-- A runner that has recorded an answer holds no lease on the delivery. -/
theorem not_leasedBy_of_answered {now clock : Timestamp} {deliveryId : UUID}
    {entry : Task × Except String DeliveryResponse} (h : w.answered owner deliveryId = some entry)
    (hd : d ∈ (step parseTime w (.record owner deliveryId now clock true)).db.alertDeliveries) :
    leasedBy deliveryId owner d = false := by
  obtain ⟨task, sent⟩ := entry
  obtain ⟨-, hid, -⟩ := answered_eq_some h
  have hexecuted : executed parseTime w (.record owner deliveryId now clock true) =
      some ⟨now, deliver parseTime owner clock task.delivery sent⟩ := by
    simp [executed, h]
  rw [db_of_executed hexecuted] at hd
  refine not_leasedBy_deliveryStep ?_ hd
  rw [← hid]
  exact deliver_cases parseTime owner clock task.delivery sent

/-- What a claim leases is in the hands of the runner that claims. -/
theorem inHand_of_claimed {now : Timestamp} {locked : UUID → Bool} {received : Bool}
    {store : OpenStore} {tasks : List Task} (hjoinable : Joinable w.db)
    (hkept : ¬ Loses owner (.claim owner now locked received))
    (hclaimed : d ∈ claimed w (.claim owner now locked received))
    (hrunning : (step parseTime w (.claim owner now locked received)).processes owner =
      .running store tasks) :
    ∃ task ∈ tasks, task.delivery.id = d.id ∧ task.delivery.attempt = d.attempts + 1 := by
  obtain rfl : received = true := by
    by_contra hlost
    exact hkept ⟨rfl, Bool.eq_false_iff.mpr hlost⟩
  have hpair : (d.id, d.attempts + 1) ∈
      (handed w (.claim owner now locked true)).map fun delivery =>
        (delivery.id, delivery.attempt) :=
    (perm_handed hjoinable owner now locked).mem_iff.mpr (List.mem_map_of_mem hclaimed)
  obtain ⟨delivery, hdelivery, heq⟩ := List.mem_map.mp hpair
  obtain ⟨owner', store', now', locked', received', hevent, hclaiming, -⟩ :=
    claimable_of_claimed hclaimed
  cases hevent
  rw [processes_of_claiming hclaiming] at hrunning
  cases hrunning
  exact ⟨⟨delivery, none⟩, List.mem_map_of_mem hdelivery, (Prod.mk.inj heq).1, (Prod.mk.inj heq).2⟩

/-- A runner lets go of no delivery that stays leased to it. -/
theorem Held.kept_step {store : OpenStore} {tasks : List Task} (h : Held owner w)
    (hkept : ¬ Loses owner event) (hd : d ∈ w.db.alertDeliveries)
    (hd' : d ∈ (step parseTime w event).db.alertDeliveries) (hstate : d.state = .leased)
    (howner : d.leaseOwner = some owner)
    (hrunning : (step parseTime w event).processes owner = .running store tasks) :
    ∃ task ∈ tasks, task.delivery.id = d.id ∧ task.delivery.attempt = d.attempts := by
  rcases processes_step parseTime w event owner with hsame | hprocessed
  · exact h.inHand d hd hstate howner store tasks (hsame ▸ hrunning)
  rw [hrunning] at hprocessed
  cases event with
  | store | reconcile => cases hprocessed
  | launch starter settings =>
      simp only [processed] at hprocessed
      split at hprocessed
      · rename_i habsent
        cases hprocessed
        exact absurd habsent (h.launched d hd howner)
      · cases hprocessed
  | claim claimer now locked received =>
      obtain ⟨settings, hclaiming, hpair⟩ := Option.map_eq_some_iff.mp hprocessed
      cases hpair
      -- a runner claims with empty hands, so it has leased nothing before
      obtain ⟨task, htask, -⟩ :=
        h.inHand d hd hstate howner _ _ (claiming_eq_some.mp hclaiming)
      cases htask
  | answer asked deliveryId sent =>
      simp only [processed] at hprocessed
      split at hprocessed
      · rename_i settings held hheld
        cases hprocessed
        obtain ⟨task, htask, hid, hattempt⟩ := h.inHand d hd hstate howner _ _ hheld
        refine ⟨_, List.mem_map_of_mem htask, ?_⟩
        split <;> exact ⟨hid, hattempt⟩
      · cases hprocessed
  | record recorder deliveryId now clock written =>
      simp only [processed] at hprocessed
      split at hprocessed
      · rename_i settings held entry hheld hanswered
        cases hprocessed
        obtain rfl : written = true := by
          by_contra hlost
          exact hkept ⟨rfl, Bool.eq_false_iff.mpr hlost⟩
        obtain ⟨task, htask, hid, hattempt⟩ := h.inHand d hd hstate howner _ _ hheld
        refine ⟨task, List.mem_filter.mpr ⟨htask, ?_⟩, hid, hattempt⟩
        have hunleased := not_leasedBy_of_answered hanswered hd'
        simp only [decide_not, Bool.not_eq_true', decide_eq_false_iff_not, hid]
        rintro rfl
        rw [leasedBy_iff.mpr ⟨rfl, hstate, howner⟩] at hunleased
        cases hunleased
      · cases hprocessed
  | crash crashed =>
      simp only [processed] at hprocessed
      split at hprocessed <;> cases hprocessed

theorem Held.step (h : Held owner w) (hjoinable : Joinable w.db) (hkept : ¬ Loses owner event) :
    Held owner (step parseTime w event) := by
  have hgrows := grows_event parseTime w event
  constructor
  · intro d' hd' hstate howner store tasks hrunning
    rcases hgrows.backward d' hd' with ⟨d, hd, -, hturned⟩ | ⟨channels, hnew⟩
    · cases hturned with
      | kept => exact h.kept_step hkept hd hd' hstate howner hrunning
      | leased claimer now locked received hevent hclaimed =>
          cases howner
          subst hevent
          exact inHand_of_claimed hjoinable hkept hclaimed hrunning
      | delivered | returned | closed => cases howner
    · rw [New.leaseOwner hnew] at howner
      cases howner
  · intro d' hd' howner
    rcases hgrows.backward d' hd' with ⟨d, hd, -, hturned⟩ | ⟨channels, hnew⟩
    · cases hturned with
      | kept => exact ne_absent_step (h.launched d' hd howner)
      | leased claimer now locked received hevent hclaimed =>
          cases howner
          subst hevent
          obtain ⟨owner', store, now', locked', received', hevent', hclaiming, -⟩ :=
            claimable_of_claimed hclaimed
          cases hevent'
          rw [processes_of_claiming hclaiming]
          nofun
      | delivered | returned | closed => cases howner
    · rw [New.leaseOwner hnew] at howner
      cases howner

theorem Held.empty (owner : UUID) : Held owner World.empty :=
  ⟨fun d hd => absurd hd (Table.not_mem_empty d), fun d hd => absurd hd (Table.not_mem_empty d)⟩

end Hands

/-- A claim hands over all it leases, and as long as no answer of the database to a runner
is lost, everything leased to the runner is in its hands. -/
theorem no_delivery_is_dropped (parseTime : String → Option Timestamp) (events : List Event)
    (n : Nat) (owner : UUID) :
    (∀ now locked,
      ((handed (worldAt parseTime events n) (.claim owner now locked true)).map fun delivery =>
          (delivery.id, delivery.attempt)).Perm
        ((claimed (worldAt parseTime events n) (.claim owner now locked true)).map fun d =>
          (d.id, d.attempts + 1))) ∧
    ((∀ k (h : k < events.length), k < n → ¬ Loses owner events[k]) →
      ∀ d ∈ (worldAt parseTime events n).db.alertDeliveries, d.state = .leased →
        d.leaseOwner = some owner → ∀ store tasks,
          (worldAt parseTime events n).processes owner = .running store tasks →
            ∃ task ∈ tasks, task.delivery.id = d.id ∧ task.delivery.attempt = d.attempts) := by
  constructor
  · exact perm_handed (joinable_worldAt parseTime events n) owner
  · intro hkept
    suffices hheld : Held owner (worldAt parseTime events n) from hheld.inHand
    induction n with
    | zero => exact .empty owner
    | succ n ih =>
        have hbefore := ih fun k hk hkn => hkept k hk (Nat.lt_succ_of_lt hkn)
        by_cases hn : n < events.length
        · rw [worldAt_succ hn]
          exact hbefore.step (joinable_worldAt parseTime events n)
            (hkept n hn (Nat.lt_succ_self n))
        · rwa [worldAt_succ_of_length_le (Nat.le_of_not_lt hn)]

end PriceScout.Alertdelivery.Handovers
