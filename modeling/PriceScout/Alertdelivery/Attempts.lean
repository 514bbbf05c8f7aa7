import PriceScout.Alertdelivery.Runner
import PriceScout.Store.AlertAggregates

/-!
How often a delivery is attempted. The limit is looked at when a failure is
recorded, so an attempt whose record is lost does not count against it.
-/

namespace PriceScout.Alertdelivery.Attempts

open PriceScout.Alertdelivery.Runner
open PriceScout.Domain
open PriceScout.Library.Runs
open PriceScout.Library.Tables
open PriceScout.Store
open PriceScout.Store.Alerts
open PriceScout.Store.Deliveries
open PriceScout.Store.DeliveryRuns
open PriceScout.Store.Schema

section Runs

variable (parseTime : String → Option Timestamp) (events : List Event)

/-- The event number `k` hands the delivery to a sender. -/
def handsOver (deliveryId : UUID) (k : Nat) : Bool :=
  events[k]?.any fun event =>
    (handed (worldAt parseTime events k) event).any fun delivery => delivery.id = deliveryId

/-- How often the delivery has been handed to a sender before the event number `n`. -/
def handOvers (n : Nat) (deliveryId : UUID) : Nat :=
  (List.range n).countP (handsOver parseTime events deliveryId)

/-- No delivery has been attempted, or handed to a sender, more often than the limit. -/
structure WithinAttempts (n : Nat) : Prop where
  attempts : ∀ d ∈ (worldAt parseTime events n).db.alertDeliveries, d.attempts ≤ maxAttempts
  handOvers : ∀ deliveryId, handOvers parseTime events n deliveryId ≤ maxAttempts

end Runs

/-- A claim takes over no delivery whose last attempt was the last one allowed. -/
def SparesExhausted (w : World) (event : Event) : Prop :=
  ∀ d ∈ claimed w event, d.state = .leased → d.attempts < maxAttempts

/-- What holds as long as no exhausted delivery is taken over. -/
structure Budgeted (w : World) : Prop where
  bounded : ∀ d ∈ w.db.alertDeliveries, d.attempts ≤ maxAttempts
  pending : ∀ d ∈ w.db.alertDeliveries, d.state = .pending → d.attempts < maxAttempts
  inHand : ∀ owner, ∀ task ∈ w.tasks owner, ∀ d ∈ w.db.alertDeliveries,
    d.id = task.delivery.id → d.leaseOwner = some owner → d.attempts = task.delivery.attempt

section Steps

variable {parseTime : String → Option Timestamp} {w : World} {event : Event}
  {d d' : AlertDelivery} {channels : List String}

theorem New.attempts (h : New channels d) : d.attempts = 0 := by
  obtain ⟨alertId, hunsent⟩ := h
  exact hunsent.attempts

theorem New.leaseOwner (h : New channels d) : d.leaseOwner = none := by
  obtain ⟨alertId, hunsent⟩ := h
  exact hunsent.leaseOwner

/-- What a claim leases can be attempted once more. -/
theorem Budgeted.claimed (h : Budgeted w) (hspares : SparesExhausted w event)
    (hclaimed : d ∈ claimed w event) : d.attempts < maxAttempts := by
  obtain ⟨_, _, _, _, _, -, -, hd, hclaimable⟩ := claimable_of_claimed hclaimed
  simp only [claimable, expired, Bool.and_eq_true, Bool.or_eq_true, decide_eq_true_eq] at hclaimable
  rcases hclaimable.2 with ⟨hstate, -⟩ | ⟨hstate, -⟩
  · exact h.pending d hd hstate
  · exact hspares d hclaimed hstate

theorem Budgeted.bounded_step (h : Budgeted w) (hspares : SparesExhausted w event) :
    ∀ d ∈ (step parseTime w event).db.alertDeliveries, d.attempts ≤ maxAttempts := by
  refine (grows_event parseTime w event).forall_mem h.bounded (fun d d' hd hbound hturned => ?_) ?_
  · cases hturned with
    | kept | delivered | returned | closed => exact hbound
    | leased owner now locked received hevent hclaimed => exact h.claimed hspares hclaimed
  · rintro d ⟨channels, hnew⟩
    rw [New.attempts hnew]
    exact Nat.zero_le _

theorem Budgeted.pending_step (h : Budgeted w) :
    ∀ d ∈ (step parseTime w event).db.alertDeliveries, d.state = .pending →
      d.attempts < maxAttempts := by
  refine (grows_event parseTime w event).forall_mem h.pending (fun d d' hd hbound hturned => ?_) ?_
  · cases hturned with
    | kept => exact hbound
    | leased | delivered | closed =>
        intro hstate
        cases hstate
    | returned owner now clock task sent failure hevent hanswered hattempt hmax hleased =>
        intro hstate
        obtain ⟨htask, hid, -⟩ := answered_eq_some hanswered
        obtain ⟨-, -, howner⟩ := leasedBy_iff.mp hleased
        have hnumber := h.inHand owner task htask d hd hid.symm howner
        -- the delivery goes back only when the attempt was not the last one
        simp only [returned, DeliveryFailure.state] at hstate
        split at hstate
        · cases hstate
        · rename_i hgoesOn
          simp only [Bool.or_eq_true, decide_eq_true_eq, not_or, hattempt, hmax] at hgoesOn
          show d.attempts < maxAttempts
          omega
  · rintro d ⟨channels, hnew⟩ -
    rw [New.attempts hnew]
    decide

theorem Budgeted.inHand_step (h : Budgeted w) (owner : UUID) :
    ∀ task ∈ (step parseTime w event).tasks owner,
      ∀ d ∈ (step parseTime w event).db.alertDeliveries, d.id = task.delivery.id →
        d.leaseOwner = some owner → d.attempts = task.delivery.attempt := by
  have hgrows := grows_event parseTime w event
  intro task htask d' hd' hid howner
  have held : ∀ task' ∈ w.tasks owner, task'.delivery = task.delivery →
      d'.attempts = task.delivery.attempt := by
    intro task' htask' hsame
    rcases hgrows.backward d' hd' with ⟨d, hd, hkey, hturned⟩ | ⟨channels, hnew⟩
    · rw [← hsame] at hid ⊢
      cases hturned with
      | kept => exact h.inHand owner task' htask' d' hd hid howner
      | leased claimer now locked received hevent hclaimed =>
          cases howner
          rw [hevent] at hclaimed
          rw [tasks_of_claimed hclaimed] at htask'
          cases htask'
      | delivered | returned | closed => cases howner
    · rw [New.leaseOwner hnew] at howner
      cases howner
  cases taskFrom_step htask with
  | held task hmem => exact held task hmem rfl
  | answered task' sent hmem hevent hnone => exact held task' hmem rfl
  | claimed now locked delivery hevent hhanded =>
      obtain ⟨d, hclaimed, hdid, hattempt⟩ := claimed_of_handed hhanded
      obtain ⟨owner', now', hleased⟩ := leased_of_claimed parseTime hclaimed
      have hrow := Table.eq_of_key_eq hd' hleased (hid.trans hdid.symm)
      rw [hrow]
      exact hattempt.symm

theorem Budgeted.step (h : Budgeted w) (hspares : SparesExhausted w event) :
    Budgeted (step parseTime w event) :=
  ⟨h.bounded_step hspares, h.pending_step, h.inHand_step⟩

theorem Budgeted.empty : Budgeted World.empty :=
  ⟨fun d hd => absurd hd (Table.not_mem_empty d), fun d hd => absurd hd (Table.not_mem_empty d),
    fun _ _ htask => nomatch htask⟩

end Steps

section Runs

variable {parseTime : String → Option Timestamp} {events : List Event} {n : Nat}
  {deliveryId : UUID}

theorem handOvers_succ : handOvers parseTime events (n + 1) deliveryId =
    handOvers parseTime events n deliveryId + if handsOver parseTime events deliveryId n then
      1 else 0 := by
  unfold handOvers
  rw [List.range_succ, List.countP_append, List.countP_singleton]

theorem handOvers_succ_of_length_le (hn : events.length ≤ n) :
    handOvers parseTime events (n + 1) deliveryId = handOvers parseTime events n deliveryId := by
  rw [handOvers_succ, if_neg]
  · rfl
  · simp [handsOver, List.getElem?_eq_none hn]

/-- A delivery that is handed out has spent an attempt on it. -/
theorem attempt_of_handsOver (hn : n < events.length)
    (h : handsOver parseTime events deliveryId n = true) :
    ∃ d ∈ (worldAt parseTime events n).db.alertDeliveries, d.id = deliveryId ∧
      ∃ d' ∈ (step parseTime (worldAt parseTime events n) events[n]).db.alertDeliveries,
        d'.id = deliveryId ∧ d'.attempts = d.attempts + 1 := by
  simp only [handsOver, List.getElem?_eq_getElem hn, Option.any_some, List.any_eq_true,
    decide_eq_true_eq] at h
  obtain ⟨delivery, hdelivery, rfl⟩ := h
  obtain ⟨d, hclaimed, hid, -⟩ := claimed_of_handed hdelivery
  obtain ⟨owner, now, hleased⟩ := leased_of_claimed parseTime hclaimed
  obtain ⟨_, _, _, _, _, -, -, hd, -⟩ := claimable_of_claimed hclaimed
  exact ⟨d, hd, hid, _, hleased, hid, rfl⟩

/-- A delivery has been handed out at most once an attempt, and not at all before it exists. -/
theorem handOvers_le (parseTime : String → Option Timestamp) (events : List Event) (n : Nat) :
    (∀ d ∈ (worldAt parseTime events n).db.alertDeliveries,
        handOvers parseTime events n d.id ≤ d.attempts) ∧
      ∀ deliveryId, (∀ d ∈ (worldAt parseTime events n).db.alertDeliveries, d.id ≠ deliveryId) →
        handOvers parseTime events n deliveryId = 0 := by
  induction n with
  | zero => exact ⟨fun d hd => absurd hd (Table.not_mem_empty d), fun _ _ => rfl⟩
  | succ n ih =>
      obtain ⟨hrows, hnone⟩ := ih
      by_cases hn : n < events.length
      · have hgrows := grows_event parseTime (worldAt parseTime events n) events[n]
        rw [worldAt_succ hn]
        refine ⟨fun d' hd' => ?_, fun deliveryId hfresh => ?_⟩
        · rw [handOvers_succ]
          split
          · rename_i hhands
            obtain ⟨d, hd, hid, d'', hd'', hid', hattempts⟩ := attempt_of_handsOver hn hhands
            obtain rfl := Table.eq_of_key_eq hd'' hd' hid'
            have := hrows d hd
            rw [hid] at this
            omega
          · by_cases hold : ∃ d ∈ (worldAt parseTime events n).db.alertDeliveries, d.id = d'.id
            · obtain ⟨d, hd, hid⟩ := hold
              obtain ⟨d'', hd'', hid', hturned⟩ := hgrows.forward d hd
              obtain rfl := Table.eq_of_key_eq hd'' hd' (hid'.trans hid)
              have hattempts : d.attempts ≤ d''.attempts := by
                cases hturned with
                | kept | delivered | returned | closed => exact le_rfl
                | leased => exact Nat.le_succ _
              rw [← hid]
              exact (hrows d hd).trans hattempts
            · rw [hnone d'.id fun d hd hid => hold ⟨d, hd, hid⟩]
              exact Nat.zero_le _
        · rw [handOvers_succ, hnone deliveryId ?_, if_neg ?_]
          · intro hhands
            obtain ⟨-, -, -, d', hd', hid, -⟩ := attempt_of_handsOver hn hhands
            exact hfresh d' hd' hid
          · intro d hd hid
            obtain ⟨d', hd', hid', -⟩ := hgrows.forward d hd
            exact hfresh d' hd' (hid'.trans hid)
      · have hsame : worldAt parseTime events (n + 1) = worldAt parseTime events n :=
          worldAt_succ_of_length_le (Nat.le_of_not_lt hn)
        simp only [hsame, handOvers_succ_of_length_le (Nat.le_of_not_lt hn)]
        exact ⟨hrows, hnone⟩

theorem handOvers_le_maxAttempts
    (h : ∀ d ∈ (worldAt parseTime events n).db.alertDeliveries, d.attempts ≤ maxAttempts)
    (deliveryId : UUID) : handOvers parseTime events n deliveryId ≤ maxAttempts := by
  obtain ⟨hrows, hnone⟩ := handOvers_le parseTime events n
  by_cases hexists : ∃ d ∈ (worldAt parseTime events n).db.alertDeliveries, d.id = deliveryId
  · obtain ⟨d, hd, rfl⟩ := hexists
    exact (hrows d hd).trans (h d hd)
  · rw [hnone deliveryId fun d hd hid => hexists ⟨d, hd, hid⟩]
    exact Nat.zero_le _

end Runs

/-- Every delivery stays within its attempts throughout a run exactly when no claim of
the run takes over a delivery that has had its last attempt. -/
theorem attempts_bounded_iff (parseTime : String → Option Timestamp) (events : List Event) :
    (∀ n, WithinAttempts parseTime events n) ↔
      ∀ n (h : n < events.length), SparesExhausted (worldAt parseTime events n) events[n] := by
  constructor
  · intro hwithin n hn d hclaimed hstate
    by_contra hexhausted
    obtain ⟨owner, now, hleased⟩ := leased_of_claimed parseTime hclaimed
    rw [← worldAt_succ hn] at hleased
    have hbound := (hwithin (n + 1)).attempts _ hleased
    exact hexhausted (Nat.lt_of_succ_le hbound)
  · intro hspares n
    have hbudgeted : Budgeted (worldAt parseTime events n) :=
      stateAt_invariant (C := SparesExhausted) Budgeted.empty
        (fun _ _ _ hbudgeted hspares => hbudgeted.step hspares) hspares n
    exact ⟨hbudgeted.bounded, handOvers_le_maxAttempts hbudgeted.bounded⟩

/-- A process claims what is due and crashes before it records anything. -/
def crashedClaim (k : Nat) : List Event :=
  [.launch ⟨500 + k⟩ AlertAggregates.twoChannels,
   .claim ⟨500 + k⟩ (100 * (k + 1)) (fun _ => false) true, .crash ⟨500 + k⟩]

/-- Seven processes crash one after the other, each with the deliveries in hand. -/
def sevenCrashes : List Event :=
  AlertAggregates.alertRaised.map .store ++ (List.range 7).flatMap crashedClaim

theorem sevenCrashes_exceed :
    ¬ ∀ (parseTime : String → Option Timestamp) (events : List Event) (n : Nat),
      WithinAttempts parseTime events n := by
  intro h
  have hexceeded : ∃ d ∈ (run (step fun _ => none) World.empty sevenCrashes).db.alertDeliveries,
      maxAttempts < d.attempts := by
    decide +kernel
  obtain ⟨d, hd, hexceeded⟩ := hexceeded
  rw [← stateAt_length] at hd
  exact absurd ((h (fun _ => none) sevenCrashes sevenCrashes.length).attempts d hd)
    (Nat.not_le_of_lt hexceeded)

end PriceScout.Alertdelivery.Attempts
