import Mathlib.Data.Prod.Lex
import PriceScout.Alertdelivery.Handovers
import PriceScout.Library.Selections

/-!
No delivery is stuck. Whatever runners and consoles have done, an hour later every
delivery that is neither delivered nor failed is due or has a lease that has run out.
-/

namespace PriceScout.Alertdelivery.Readiness

open PriceScout.Alertdelivery.Handovers
open PriceScout.Alertdelivery.LeaseProtocol
open PriceScout.Alertdelivery.Runner
open PriceScout.Domain
open PriceScout.Library.GoStrings
open PriceScout.Library.Runs
open PriceScout.Library.Selections
open PriceScout.Library.Tables
open PriceScout.Store
open PriceScout.Store.Alerts
open PriceScout.Store.Deliveries
open PriceScout.Store.DeliveryRuns
open PriceScout.Store.Operations (Call)
open PriceScout.Store.Schema

/-- The times that an event brings, those of the database and those of the process. -/
def times : Event → List Timestamp
  | .store call => [call.now]
  | .reconcile _ now _ => [now]
  | .claim _ now _ _ => [now]
  | .record _ _ now clock _ => [now, clock]
  | .launch _ _ | .answer _ _ _ | .crash _ => []

/-- A delivery that waits is due, and one that is leased is free again, within an hour. -/
structure Recurs (time : Timestamp) (d : AlertDelivery) : Prop where
  pending : d.state = .pending → d.nextAttemptAt ≤ time + 3600
  leased : d.state = .leased → ∃ expires, d.leaseExpiresAt = some expires ∧ expires ≤ time + 45

/-- Every delivery was there before or is due at once. -/
def AddsDue (now : Timestamp) (db db' : Database) : Prop :=
  ∀ d ∈ db'.alertDeliveries,
    d ∈ db.alertDeliveries ∨ d.state = .pending ∧ d.nextAttemptAt = now

/-- A transaction no later than the time, which leases as runners do and puts nothing off by
more than an hour. -/
structure Prompt (time : Timestamp) (call : DeliveryCall) : Prop where
  now : call.now ≤ time
  lease : ∀ store owner lease limit locked,
    call.operation = .claim store owner lease limit locked → lease = claimLease
  nextAttempt : ∀ deliveryId owner failure,
    call.operation = .fail deliveryId owner failure → failure.nextAttempt ≤ time + 3600

section Insertions

variable {now : Timestamp} {db db' db'' : Database} {store : OpenStore}

theorem AddsDue.of_eq (h : db'.alertDeliveries = db.alertDeliveries) : AddsDue now db db' :=
  fun _ hd => Or.inl (h ▸ hd)

theorem AddsDue.trans (h : AddsDue now db db') (h' : AddsDue now db' db'') :
    AddsDue now db db'' :=
  fun d hd => (h' d hd).elim (h d) Or.inr

theorem addsDue_insertDeliveries {alertId : UUID} {channels : List String}
    (h : insertDeliveries now alertId channels db = .ok db') : AddsDue now db db' := by
  refine foldlM_induction (fun _ s => AddsDue now db s) ?_ channels db db' (.of_eq rfl) h
  intro channel rest s s' hs hstep
  refine hs.trans fun d hd => ?_
  rcases insertAlertDelivery_cases hstep with ⟨rfl, -⟩ | ⟨t, happended, rfl⟩
  · exact Or.inl hd
  · rcases happended.mem_iff.mp hd with hd | rfl
    · exact Or.inl hd
    · exact Or.inr ⟨rfl, rfl⟩

theorem addsDue_createAlert {monitorId observationId : UUID} {key : String}
    (h : createAlert store now monitorId observationId key db = .ok db') :
    AddsDue now db db' := by
  simp only [createAlert, Database.newUUID, bind_eq_ok] at h
  obtain ⟨db₁, halert, hdeliveries⟩ := h
  obtain ⟨alerts', -, rfl⟩ := Database.insertAlert_ok halert
  exact (addsDue_insertDeliveries hdeliveries :)

/-- An operation of the store adds only deliveries that are due at once. -/
theorem addsDue_step (db : Database) (call : Call) :
    AddsDue call.now db (Operations.step db call) := by
  cases creates_step db call with
  | kept halerts hdeliveries => exact .of_eq hdeliveries
  | created store monitorId observationId key db₁ halerts hdeliveries hcreated =>
      exact (AddsDue.of_eq hdeliveries).trans (addsDue_createAlert hcreated)

theorem addsDue_backfill {alertId : UUID} (h : backfill store now alertId db = .ok db') :
    AddsDue now db db' := by
  unfold backfill at h
  split at h
  · obtain rfl := Except.ok.inj h
    exact .of_eq rfl
  · obtain ⟨db₁, hinsert, rfl⟩ := map_eq_ok.mp h
    exact (addsDue_insertDeliveries hinsert).trans (.of_eq rfl)

end Insertions

section Steps

variable {time now : Timestamp} {db db' : Database} {d : AlertDelivery} {call : DeliveryCall}
  {parseTime : String → Option Timestamp} {w : World} {event : Event}

/-- A delivery with an outcome never comes up again. -/
theorem Recurs.settled (h : Settled d) : Recurs time d := by
  rcases h with h | h <;>
    exact ⟨fun hstate => (nomatch h.symm.trans hstate), fun hstate => (nomatch h.symm.trans hstate)⟩

theorem recurs_of_addsDue (hadds : AddsDue now db db') (hnow : now ≤ time)
    (h : ∀ d ∈ db.alertDeliveries, Recurs time d) : ∀ d ∈ db'.alertDeliveries, Recurs time d := by
  intro d hd
  rcases hadds d hd with hd | ⟨hstate, hdue⟩
  · exact h d hd
  · refine ⟨fun _ => ?_, fun hleased => nomatch hstate.symm.trans hleased⟩
    rw [hdue]
    unfold Timestamp at *
    omega

theorem recurs_deliveryStep (hprompt : Prompt time call)
    (h : ∀ d ∈ db.alertDeliveries, Recurs time d) :
    ∀ d ∈ (deliveryStep db call).alertDeliveries, Recurs time d := by
  obtain ⟨now, operation⟩ := call
  cases operation with
  | reconcile store locked =>
      rcases commit_cases (reconcileAlertDeliveries store now locked) db with hsame | ⟨u, hdone⟩
      · exact (congrArg Database.alertDeliveries hsame).symm ▸ h
      · obtain ⟨db₁, hloop, -, hdb'⟩ := reconcile_ok hdone
        have hadds : AddsDue now db db₁ :=
          foldlM_induction (fun _ s => AddsDue now db s)
            (fun _ _ _ _ hs hstep => hs.trans (addsDue_backfill hstep)) _ _ _ (.of_eq rfl) hloop
        have hdeliveries : (deliveryStep db ⟨now, .reconcile store locked⟩).alertDeliveries =
            db₁.alertDeliveries.update (closable store now) closed closed_id :=
          congrArg Database.alertDeliveries hdb'
        rw [hdeliveries]
        exact Table.forall_update (recurs_of_addsDue hadds hprompt.now h)
          fun d _ _ => .settled (Or.inr rfl)
  | claim store owner lease limit locked =>
      show ∀ d ∈ (claimAlertDeliveries store now owner lease locked limit db).2.alertDeliveries, _
      rcases claim_cases owner lease limit locked with hsame | hdone
      · rw [hsame]
        exact h
      · rw [hdone]
        obtain rfl := hprompt.lease store owner lease limit locked rfl
        refine Table.forall_update h fun d _ _ => ⟨nofun, fun _ => ⟨_, rfl, ?_⟩⟩
        exact Int.add_le_add_right hprompt.now 45
  | complete deliveryId owner =>
      show ∀ d ∈ (commit (completeAlertDelivery now deliveryId owner) db).alertDeliveries, _
      rcases commit_cases (completeAlertDelivery now deliveryId owner) db with hsame | ⟨u, hdone⟩
      · rw [hsame]
        exact h
      · obtain ⟨s, -, hdb'⟩ := complete_ok hdone
        rw [hdb', refreshAlertState_alertDeliveries]
        exact Table.forall_update h fun d _ _ => .settled (Or.inl rfl)
  | fail deliveryId owner failure =>
      show ∀ d ∈ (commit (failAlertDelivery deliveryId owner failure) db).alertDeliveries, _
      rcases commit_cases (failAlertDelivery deliveryId owner failure) db with
        hsame | ⟨state, hdone⟩
      · rw [hsame]
        exact h
      · obtain ⟨s, -, hdb'⟩ := fail_ok hdone
        rw [hdb', refreshAlertState_alertDeliveries]
        refine Table.forall_update h fun d _ _ => ?_
        refine ⟨fun _ => hprompt.nextAttempt deliveryId owner failure rfl, fun hleased => ?_⟩
        by_cases hfailed : failure.state = .failed
        · cases hfailed.symm.trans hleased
        · cases (state_of_ne_failed hfailed).symm.trans hleased

/-- However a server asks for it, a runner waits for an hour at most. -/
theorem parseRetryAfter_le {raw : String} {clock retryAt : Timestamp}
    (h : parseRetryAfter parseTime raw clock = some retryAt) : retryAt ≤ clock + 3600 := by
  unfold parseRetryAfter at h
  dsimp only at h
  split at h
  · cases h
  · split at h
    · obtain rfl := Option.some.inj h
      unfold Timestamp at *
      omega
    · obtain ⟨asked, -, rfl⟩ := Option.map_eq_some_iff.mp h
      unfold Timestamp at *
      split <;> omega

theorem nextAttempt_le {owner owner' deliveryId : UUID} {clock : Timestamp}
    {delivery : ClaimedDelivery} {sent : Except String DeliveryResponse}
    {failure : DeliveryFailure}
    (h : deliver parseTime owner clock delivery sent = .fail deliveryId owner' failure) :
    failure.nextAttempt ≤ clock + 3600 := by
  have hdelay : clock + retryDelay delivery.attempt ≤ clock + 3600 := by
    unfold retryDelay Timestamp at *
    omega
  unfold deliver at h
  cases sent with
  | error message =>
      cases h
      exact hdelay
  | ok response =>
      dsimp only at h
      split at h
      · cases h
      · cases h
        dsimp only
        cases hretry : parseRetryAfter parseTime response.retryAfter clock with
        | none => exact hdelay
        | some retryAt => exact parseRetryAfter_le hretry

theorem prompt_of_executed (htimes : ∀ t ∈ times event, t ≤ time)
    (hexecuted : executed parseTime w event = some call) : Prompt time call := by
  cases event with
  | store call' => cases hexecuted
  | launch owner store => cases hexecuted
  | answer owner deliveryId sent => cases hexecuted
  | crash owner => cases hexecuted
  | reconcile owner now locked =>
      obtain ⟨store, -, rfl⟩ := Option.map_eq_some_iff.mp hexecuted
      exact ⟨htimes now (by simp [times]), nofun, nofun⟩
  | claim owner now locked received =>
      obtain ⟨store, -, rfl⟩ := Option.map_eq_some_iff.mp hexecuted
      refine ⟨htimes now (by simp [times]), ?_, nofun⟩
      rintro _ _ _ _ _ ⟨⟩
      rfl
  | record owner deliveryId now clock written =>
      cases written with
      | false => cases hexecuted
      | true =>
          obtain ⟨⟨task, sent⟩, -, rfl⟩ := Option.map_eq_some_iff.mp hexecuted
          refine ⟨htimes now (by simp [times]), fun _ _ _ _ _ hclaim => ?_,
            fun _ _ _ hfail => ?_⟩
          · rcases deliver_cases parseTime owner clock task.delivery sent with
              hmade | ⟨failure, hmade⟩ <;>
              cases hmade.symm.trans hclaim
          · exact (nextAttempt_le hfail).trans
              (Int.add_le_add_right (htimes clock (by simp [times])) 3600)

theorem recurs_event (h : ∀ d ∈ w.db.alertDeliveries, Recurs time d)
    (htimes : ∀ t ∈ times event, t ≤ time) :
    ∀ d ∈ (step parseTime w event).db.alertDeliveries, Recurs time d := by
  cases event with
  | store call => exact recurs_of_addsDue (addsDue_step w.db call) (htimes _ (by simp [times])) h
  | _ =>
      unfold step
      dsimp only
      split
      · rename_i hexecuted
        exact recurs_deliveryStep (prompt_of_executed htimes hexecuted) h
      · exact h

end Steps

section Claims

variable {time now : Timestamp} {db : Database} {d : AlertDelivery} {store : OpenStore}

/-- An hour later a delivery without an outcome waits no more. -/
theorem Recurs.waits_no_more (h : Recurs time d) (hunsettled : unsettled d = true)
    (hnow : time + 3600 ≤ now) :
    d.state = .pending ∧ d.nextAttemptAt ≤ now ∨ expired now d = true := by
  simp only [unsettled, Bool.or_eq_true, decide_eq_true_eq] at hunsettled
  rcases hunsettled with hpending | hleased
  · exact Or.inl ⟨hpending, (h.pending hpending).trans hnow⟩
  · obtain ⟨expires, hexpires, hle⟩ := h.leased hleased
    have hpassed : expires ≤ now := by
      unfold Timestamp at *
      omega
    exact Or.inr (by simp [expired, hleased, hexpires, hpassed])

/-- A claim picks by the time of the next attempt, then by id. -/
theorem picked_eq_earliest (locked : UUID → Bool) (limit : Nat) :
    picked store now locked limit db =
      earliest (fun d => toLex (d.nextAttemptAt, d.id.value)) limit
        (db.alertDeliveries.rows.filter fun d => claimable store now d && !locked d.id) := by
  simp only [picked, earliest, Prod.Lex.toLex_le_toLex]

/-- What a claim that finds no row locked leaves out comes after a full batch. -/
theorem full_of_not_picked {limit : Nat} (hd : d ∈ db.alertDeliveries)
    (hclaimable : claimable store now d = true)
    (hout : d ∉ picked store now (fun _ => false) limit db) :
    (picked store now (fun _ => false) limit db).length = limit ∧
      ∀ s ∈ picked store now (fun _ => false) limit db, s.nextAttemptAt ≤ d.nextAttemptAt := by
  rw [picked_eq_earliest] at hout ⊢
  have hmem : d ∈ db.alertDeliveries.rows.filter fun d => claimable store now d && !false :=
    List.mem_filter.mpr ⟨hd, by simp [hclaimable]⟩
  refine ⟨length_of_not_mem hmem hout, fun s hs => ?_⟩
  rcases Prod.Lex.toLex_le_toLex.mp (le_of_not_mem hmem hout hs) with hlt | ⟨heq, -⟩
  · exact hlt.le
  · exact heq.le

/-- A reconciliation that commits closes what is closable. -/
theorem closed_of_reconcile {locked : UUID → Bool} {db' : Database}
    (hd : d ∈ db.alertDeliveries) (hclosable : closable store now d = true)
    (h : reconcileAlertDeliveries store now locked db = .ok ((), db')) :
    closed d ∈ db'.alertDeliveries := by
  obtain ⟨db₁, -, ⟨added, hrows, -⟩, rfl⟩ := reconcile_ok h
  refine Table.mem_update_of_pos ?_ hclosable
  rw [Table.mem_def, hrows]
  exact List.mem_append_left _ hd

end Claims

theorem recurs_worldAt (parseTime : String → Option Timestamp) {events : List Event} {n : Nat}
    {time : Timestamp}
    (htimes : ∀ k (h : k < events.length), k < n → ∀ t ∈ times events[k], t ≤ time) :
    ∀ d ∈ (worldAt parseTime events n).db.alertDeliveries, Recurs time d := by
  induction n with
  | zero => exact fun d hd => absurd hd (Table.not_mem_empty d)
  | succ n ih =>
      have hbefore := ih fun k hk hkn => htimes k hk (Nat.lt_succ_of_lt hkn)
      by_cases hn : n < events.length
      · rw [worldAt_succ hn]
        exact recurs_event hbefore (htimes n hn (Nat.lt_succ_self n))
      · rwa [worldAt_succ_of_length_le (Nat.le_of_not_lt hn)]

/-- An hour after the last event, a delivery without an outcome is stuck nowhere. A runner
whose settings have its channel is handed it, or a full batch of which none comes later;
one whose settings do not have it closes it. -/
theorem no_delivery_is_stuck (parseTime : String → Option Timestamp) {events : List Event}
    {n : Nat} {time now : Timestamp}
    (htimes : ∀ k (h : k < events.length), k < n → ∀ t ∈ times events[k], t ≤ time)
    (hnow : time + 3600 ≤ now) {owner : UUID} {store : OpenStore}
    (hclaiming : (worldAt parseTime events n).claiming owner = some store) {d : AlertDelivery}
    (hd : d ∈ (worldAt parseTime events n).db.alertDeliveries) (hunsettled : unsettled d = true) :
    (d.channel ∈ store.alertChannels →
      (∃ delivery ∈ handed (worldAt parseTime events n) (.claim owner now (fun _ => false) true),
        delivery.id = d.id ∧ delivery.attempt = d.attempts + 1) ∨
      (handed (worldAt parseTime events n) (.claim owner now (fun _ => false) true)).length =
          claimBatch ∧
        ∀ s ∈ claimed (worldAt parseTime events n) (.claim owner now (fun _ => false) true),
          s.nextAttemptAt ≤ d.nextAttemptAt) ∧
    (d.channel ∉ store.alertChannels → ∀ locked db',
      reconcileAlertDeliveries store now locked (worldAt parseTime events n).db = .ok ((), db') →
        closed d ∈ db'.alertDeliveries) := by
  have hready := (recurs_worldAt parseTime htimes d hd).waits_no_more hunsettled hnow
  constructor
  · intro hchannel
    have hclaimable : claimable store now d = true := by
      simp only [claimable, List.contains_iff_mem.mpr hchannel, Bool.true_and, Bool.or_eq_true,
        Bool.and_eq_true, decide_eq_true_eq]
      exact hready
    have hperm := perm_handed (joinable_worldAt parseTime events n) owner now (fun _ => false)
    have hclaimed : claimed (worldAt parseTime events n) (.claim owner now (fun _ => false) true) =
        picked store now (fun _ => false) claimBatch (worldAt parseTime events n).db := by
      simp only [claimed, hclaiming]
    rw [hclaimed] at hperm ⊢
    by_cases hpicked :
        d ∈ picked store now (fun _ => false) claimBatch (worldAt parseTime events n).db
    · obtain ⟨delivery, hdelivery, hpair⟩ :=
        List.mem_map.mp (hperm.mem_iff.mpr (List.mem_map_of_mem hpicked))
      exact Or.inl ⟨delivery, hdelivery, (Prod.mk.inj hpair).1, (Prod.mk.inj hpair).2⟩
    · obtain ⟨hfull, hlater⟩ := full_of_not_picked hd hclaimable hpicked
      refine Or.inr ⟨?_, hlater⟩
      rw [← hfull]
      simpa using hperm.length_eq
  · intro hchannel locked db' hreconciled
    refine closed_of_reconcile hd ?_ hreconciled
    have hunconfigured : store.alertChannels.contains d.channel = false :=
      Bool.eq_false_iff.mpr fun hconfigured => hchannel (List.contains_iff_mem.mp hconfigured)
    simp only [closable, hunconfigured, Bool.not_false, Bool.or_true, Bool.and_true,
      Bool.or_eq_true, decide_eq_true_eq]
    exact hready.imp_left And.left

/-- A process crashes with two deliveries in hand, and another one starts. -/
def abandoned : List Event :=
  AlertAggregates.alertRaised.map .store ++ Attempts.crashedClaim 0 ++
    [.launch ⟨501⟩ AlertAggregates.twoChannels]

theorem no_delivery_is_stuck_abandoned :
    ∃ delivery ∈ handed (worldAt (fun _ => none) abandoned abandoned.length)
      (.claim ⟨501⟩ 3700 (fun _ => false) true), delivery.attempt = 2 := by
  have htimes : ∀ k (h : k < abandoned.length), k < abandoned.length →
      ∀ t ∈ times abandoned[k], t ≤ 100 := by
    decide +kernel
  have hclaiming : (worldAt (fun _ => none) abandoned abandoned.length).claiming ⟨501⟩ =
      some AlertAggregates.twoChannels := rfl
  obtain ⟨d, hd, hunsettled, hchannel, hattempts⟩ :
      ∃ d ∈ (worldAt (fun _ => none) abandoned abandoned.length).db.alertDeliveries,
        unsettled d = true ∧ d.channel ∈ AlertAggregates.twoChannels.alertChannels ∧
          d.attempts = 1 := by
    decide +kernel
  have hroom : (handed (worldAt (fun _ => none) abandoned abandoned.length)
      (.claim ⟨501⟩ 3700 (fun _ => false) true)).length ≠ claimBatch := by
    decide +kernel
  rcases (no_delivery_is_stuck (fun _ => none) htimes (le_refl (100 + 3600)) hclaiming hd
    hunsettled).1 hchannel with ⟨delivery, hdelivery, -, hattempt⟩ | ⟨hfull, -⟩
  · exact ⟨delivery, hdelivery, by rw [hattempt, hattempts]⟩
  · exact absurd hfull hroom

end PriceScout.Alertdelivery.Readiness
