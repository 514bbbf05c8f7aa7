import PriceScout.Alertdelivery.Runner
import PriceScout.Library.Leases

/-!
The leases of deliveries. To the runners every delivery is a job that is
leased for a time; each event makes of it what a move of the leases can.
-/

namespace PriceScout.Alertdelivery.LeaseProtocol

open PriceScout.Alertdelivery.Runner
open PriceScout.Domain
open PriceScout.Library
open PriceScout.Library.Leases (Job Move)
open PriceScout.Library.Runs
open PriceScout.Library.Tables
open PriceScout.Store.Alerts
open PriceScout.Store.Deliveries
open PriceScout.Store.DeliveryRuns
open PriceScout.Store.Schema

/-- What a transaction on deliveries is answered. -/
def outcome (db : Database) (call : DeliveryCall) : Except StoreError Unit :=
  match call.operation with
  | .reconcile store locked => (reconcileAlertDeliveries store call.now locked db).map Prod.fst
  | .claim _ _ _ _ _ => .ok ()
  | .complete deliveryId owner => (completeAlertDelivery call.now deliveryId owner db).map Prod.fst
  | .fail deliveryId owner failure =>
      (failAlertDelivery deliveryId owner failure db).map fun _ => ()

/-- The delivery is one that the runner has in hand. -/
def InHand (w : World) (owner deliveryId : UUID) : Prop :=
  ∃ task ∈ w.tasks owner, task.delivery.id = deliveryId

/-- The runner has been answered, and has not recorded it yet. -/
def Answered (owner deliveryId : UUID) (sent : Except String DeliveryResponse) (w : World) : Prop :=
  ∃ task ∈ w.tasks owner, task.delivery.id = deliveryId ∧ task.answer = some sent

/-- The delivery is leased exactly when it has an owner and an expiry. -/
def LeaseComplete (d : AlertDelivery) : Prop :=
  d.state = .leased ↔ d.leaseOwner.isSome ∧ d.leaseExpiresAt.isSome

/-- A settled delivery is not attempted any more. -/
def Settled (d : AlertDelivery) : Prop :=
  d.state = .delivered ∨ d.state = .failed

section Jobs

/-- A delivery as a job of the runners. -/
def jobOf (d : AlertDelivery) : Job UUID DeliveryState :=
  match d.state, d.leaseOwner, d.leaseExpiresAt with
  | .leased, some owner, some expires => .leased owner expires
  | .leased, _, _ | .pending, _, _ => .waiting
  | state, _, _ => .done state

/-- The job of a delivery; one that does not exist yet waits. -/
def jobIn (db : Database) (deliveryId : UUID) : Job UUID DeliveryState :=
  ((db.alertDeliveries.lookup deliveryId).map jobOf).getD .waiting

/-- What an event is to the jobs. -/
def moveOf (w : World) : Event → Move UUID
  | .claim owner now _ _ => if (w.claiming owner).isSome then .take owner now else .other
  | .record owner _ _ _ _ => .report owner
  | .reconcile _ now _ => .abandon now
  | _ => .other

variable {parseTime : String → Option Timestamp} {w : World} {event : Event}
  {d d' : AlertDelivery} {owner deliveryId : UUID} {now : Timestamp}

theorem jobOf_of_pending (h : d.state = .pending) : jobOf d = .waiting := by
  simp [jobOf, h]

theorem jobOf_of_leased {expires : Timestamp} (hstate : d.state = .leased)
    (howner : d.leaseOwner = some owner) (hexpires : d.leaseExpiresAt = some expires) :
    jobOf d = .leased owner expires := by
  simp [jobOf, hstate, howner, hexpires]

theorem jobOf_of_settled (h : Settled d) : jobOf d = .done d.state := by
  rcases h with h | h <;> simp [jobOf, h]

theorem jobIn_of_mem {db : Database} (h : d ∈ db.alertDeliveries) : jobIn db d.id = jobOf d := by
  rw [jobIn, (Table.lookup_eq_some_iff).mpr ⟨h, rfl⟩]
  rfl

theorem jobIn_of_absent {db : Database} (h : ∀ d ∈ db.alertDeliveries, d.id ≠ deliveryId) :
    jobIn db deliveryId = .waiting := by
  unfold jobIn
  cases hlookup : db.alertDeliveries.lookup deliveryId with
  | none => rfl
  | some d =>
      obtain ⟨hd, hid⟩ := Table.lookup_eq_some_iff.mp hlookup
      exact absurd hid (h d hd)

/-- A delivery is available when it waits or its lease has run out. -/
theorem available_of_expired (h : expired now d = true) : (jobOf d).Available now := by
  simp only [expired, Bool.and_eq_true, decide_eq_true_eq, Option.any_eq_true] at h
  obtain ⟨hstate, expires, hexpires, hnow⟩ := h
  cases howner : d.leaseOwner with
  | none => simp [jobOf, hstate, howner, Job.Available]
  | some owner =>
      rw [jobOf_of_leased hstate howner hexpires]
      exact hnow

theorem available_of_claimable {store : OpenStore} (h : claimable store now d = true) :
    (jobOf d).Available now := by
  simp only [claimable, Bool.and_eq_true, Bool.or_eq_true, decide_eq_true_eq] at h
  rcases h.2 with ⟨hstate, -⟩ | hexpired
  · rw [jobOf_of_pending hstate]
    trivial
  · exact available_of_expired hexpired

theorem available_of_closable {store : OpenStore} (h : closable store now d = true) :
    (jobOf d).Available now := by
  simp only [closable, Bool.and_eq_true, Bool.or_eq_true, decide_eq_true_eq] at h
  rcases h.1 with hstate | hexpired
  · rw [jobOf_of_pending hstate]
    trivial
  · exact available_of_expired hexpired

theorem heldBy_of_leasedBy (hcomplete : LeaseComplete d) (h : leasedBy deliveryId owner d = true) :
    ∃ expires, jobOf d = .leased owner expires := by
  obtain ⟨-, hstate, howner⟩ := leasedBy_iff.mp h
  obtain ⟨expires, hexpires⟩ := Option.isSome_iff_exists.mp (hcomplete.mp hstate).2
  exact ⟨expires, jobOf_of_leased hstate howner hexpires⟩

theorem leasedBy_of_heldBy (h : (jobOf d).HeldBy owner) : leasedBy d.id owner d = true := by
  unfold jobOf at h
  split at h
  · rename_i holder expires hstate howner hexpires
    obtain rfl : holder = owner := h
    exact leasedBy_iff.mpr ⟨rfl, hstate, howner⟩
  all_goals exact absurd h id

theorem leasedBy_eq_false (h : ¬ (jobOf d).HeldBy owner) (hcomplete : LeaseComplete d) :
    leasedBy deliveryId owner d = false := by
  by_contra hleased
  obtain ⟨expires, hjob⟩ := heldBy_of_leasedBy hcomplete (by simpa using hleased)
  rw [hjob] at h
  exact h rfl

theorem state_of_ne_failed {failure : DeliveryFailure} (h : failure.state ≠ .failed) :
    failure.state = .pending := by
  unfold DeliveryFailure.state at h ⊢
  split
  · rename_i hfailed
    rw [if_pos hfailed] at h
    exact absurd rfl h
  · rfl

/-- What an event makes of a delivery is a step of its job. -/
theorem step_of_turned (hcomplete : LeaseComplete d) (h : Turned w event d d') :
    Leases.Step (moveOf w event) (jobOf d) (jobOf d') := by
  cases h with
  | kept => exact .stayed _ _
  | leased owner now locked received hevent hclaimed =>
      obtain ⟨_, store, _, _, _, hclaim, hclaiming, -, hclaimable⟩ := claimable_of_claimed hclaimed
      cases hevent.symm.trans hclaim
      have hmove : moveOf w event = .take owner now := by
        simp [hevent, moveOf, hclaiming]
      rw [hmove]
      exact .taken owner now _ _ (available_of_claimable hclaimable)
  | delivered owner now clock task response hevent hanswered hsuccessful hleased =>
      obtain ⟨expires, hjob⟩ := heldBy_of_leasedBy hcomplete hleased
      rw [hjob, hevent]
      exact .finished owner expires _
  | returned owner now clock task sent failure hevent hanswered hattempt hmax hleased =>
      obtain ⟨expires, hjob⟩ := heldBy_of_leasedBy hcomplete hleased
      rw [hjob, hevent]
      by_cases hstate : failure.state = .failed
      · rw [jobOf_of_settled (Or.inr hstate)]
        exact .finished owner expires _
      · rw [jobOf_of_pending (state_of_ne_failed hstate)]
        exact .returned owner expires
  | closed owner store now locked hevent hclaiming hclosable =>
      rw [hevent]
      exact .abandoned now _ _ (available_of_closable hclosable)

theorem not_settled_of_available (h : (jobOf d).Available now) : ¬ Settled d := by
  intro hsettled
  rw [jobOf_of_settled hsettled] at h
  exact h

/-- A settled delivery is not touched by any event. -/
theorem Settled.of_turned (h : Settled d) (hturned : Turned w event d d') : d' = d := by
  have hleased : ∀ {owner}, leasedBy d.id owner d ≠ true := by
    intro owner hleased
    obtain ⟨-, hstate, -⟩ := leasedBy_iff.mp hleased
    rcases h with h | h <;> cases h.symm.trans hstate
  cases hturned with
  | kept => rfl
  | leased owner now locked received hevent hclaimed =>
      obtain ⟨_, _, _, _, _, -, -, -, hclaimable⟩ := claimable_of_claimed hclaimed
      exact absurd h (not_settled_of_available (available_of_claimable hclaimable))
  | delivered owner now clock task response hevent hanswered hsuccessful hby =>
      exact absurd hby hleased
  | returned owner now clock task sent failure hevent hanswered hattempt hmax hby =>
      exact absurd hby hleased
  | closed owner store now locked hevent hclaiming hclosable =>
      exact absurd h (not_settled_of_available (available_of_closable hclosable))

/-- An unexpired lease is not claimed. -/
theorem not_claimed_of_unexpired {expires : Timestamp} {locked : UUID → Bool} {received : Bool}
    (hcomplete : LeaseComplete d) (hstate : d.state = .leased)
    (hexpires : d.leaseExpiresAt = some expires) (hnow : now < expires) :
    d ∉ claimed w (.claim owner now locked received) := by
  intro hclaimed
  obtain ⟨_, _, _, _, _, hevent, -, -, hclaimable⟩ := claimable_of_claimed hclaimed
  cases hevent
  obtain ⟨holder, howner⟩ := Option.isSome_iff_exists.mp (hcomplete.mp hstate).1
  have havailable := available_of_claimable hclaimable
  rw [jobOf_of_leased hstate howner hexpires] at havailable
  exact not_lt_of_ge havailable hnow

theorem LeaseComplete.of_turned (h : LeaseComplete d) (hturned : Turned w event d d') :
    LeaseComplete d' := by
  cases hturned with
  | kept => exact h
  | leased => exact ⟨fun _ => ⟨rfl, rfl⟩, fun _ => rfl⟩
  | delivered | closed => exact ⟨nofun, fun hsome => absurd hsome.1 Bool.false_ne_true⟩
  | returned owner now clock task sent failure =>
      refine ⟨fun hstate => ?_, fun hsome => absurd hsome.1 Bool.false_ne_true⟩
      by_cases hfailed : failure.state = .failed
      · cases hfailed.symm.trans hstate
      · cases (state_of_ne_failed hfailed).symm.trans hstate

theorem LeaseComplete.of_new {channels : List String} (h : New channels d) : LeaseComplete d := by
  obtain ⟨alertId, hunsent⟩ := h
  constructor
  · intro hstate
    cases hunsent.state.symm.trans hstate
  · rintro ⟨howner, -⟩
    rw [hunsent.leaseOwner] at howner
    cases howner

theorem leaseComplete_step (h : ∀ d ∈ w.db.alertDeliveries, LeaseComplete d) :
    ∀ d ∈ (step parseTime w event).db.alertDeliveries, LeaseComplete d := by
  refine (grows_event parseTime w event).forall_mem h
    (fun d d' _ hd hturned => hd.of_turned hturned) ?_
  rintro d ⟨channels, hnew⟩
  exact .of_new hnew

/-- An event is a move of the leases for every delivery. -/
theorem step_refines (h : ∀ d ∈ w.db.alertDeliveries, LeaseComplete d) (deliveryId : UUID) :
    Leases.Step (moveOf w event) (jobIn w.db deliveryId)
      (jobIn (step parseTime w event).db deliveryId) := by
  have hgrows := grows_event parseTime w event
  by_cases hexists : ∃ d ∈ w.db.alertDeliveries, d.id = deliveryId
  · obtain ⟨d, hd, rfl⟩ := hexists
    obtain ⟨d', hd', hid, hturned⟩ := hgrows.forward d hd
    rw [jobIn_of_mem hd, ← (hid : d'.id = d.id), jobIn_of_mem hd']
    exact step_of_turned (h d hd) hturned
  · have habsent : jobIn w.db deliveryId = .waiting :=
      jobIn_of_absent fun d hd hid => hexists ⟨d, hd, hid⟩
    have hnew : jobIn (step parseTime w event).db deliveryId = .waiting := by
      by_cases hexists' : ∃ d ∈ (step parseTime w event).db.alertDeliveries, d.id = deliveryId
      · obtain ⟨d', hd', rfl⟩ := hexists'
        rw [jobIn_of_mem hd']
        rcases hgrows.backward d' hd' with ⟨d, hd, hid, -⟩ | ⟨channels, alertId, hunsent⟩
        · exact absurd ⟨d, hd, hid.symm⟩ hexists
        · exact jobOf_of_pending hunsent.state
      · exact jobIn_of_absent fun d hd hid => hexists' ⟨d, hd, hid⟩
    rw [habsent, hnew]
    exact .stayed _ _

end Jobs

section Transactions

variable {parseTime : String → Option Timestamp} {w : World} {event : Event}
  {d : AlertDelivery} {owner deliveryId : UUID}

/-- A transaction that finds no lease of its owner is answered not found. -/
theorem outcome_of_unleased {db : Database} {call : DeliveryCall}
    (hcall : call.operation = .complete deliveryId owner ∨
      ∃ failure, call.operation = .fail deliveryId owner failure)
    (h : ∀ d ∈ db.alertDeliveries, leasedBy deliveryId owner d = false) :
    outcome db call = .error .notFound ∧ deliveryStep db call = db := by
  obtain ⟨now, operation⟩ := call
  have hnone : db.alertDeliveries.find (leasedBy deliveryId owner) = none :=
    Table.find_eq_none_iff.mpr h
  rcases hcall with hcall | ⟨failure, hcall⟩
  · obtain rfl : operation = .complete deliveryId owner := hcall
    have herror : completeAlertDelivery now deliveryId owner db = .error .notFound := by
      unfold completeAlertDelivery
      rw [hnone]
    constructor
    · simp only [outcome, herror]
      rfl
    · exact commit_of_error herror
  · obtain rfl : operation = .fail deliveryId owner failure := hcall
    have herror : failAlertDelivery deliveryId owner failure db = .error .notFound := by
      unfold failAlertDelivery
      rw [hnone]
    constructor
    · simp only [outcome, herror]
      rfl
    · exact commit_of_error herror

/-- A runner with a delivery in hand does not claim. -/
theorem moveOf_ne_take (h : InHand w owner deliveryId) (now : Timestamp) :
    moveOf w event ≠ .take owner now := by
  obtain ⟨task, htask, -⟩ := h
  cases event with
  | claim claimer now' locked received =>
      intro hmove
      simp only [moveOf] at hmove
      split at hmove
      · rename_i hclaiming
        cases hmove
        obtain ⟨store, hclaiming⟩ := Option.isSome_iff_exists.mp hclaiming
        rw [tasks_of_claiming hclaiming] at htask
        cases htask
      · cases hmove
  | _ => nofun

theorem db_of_executed {now clock : Timestamp} {written : Bool} {call : DeliveryCall}
    (h : executed parseTime w (.record owner deliveryId now clock written) = some call) :
    (step parseTime w (.record owner deliveryId now clock written)).db =
      deliveryStep w.db call := by
  simp only [step, h]

end Transactions

section Protocol

variable (parseTime : String → Option Timestamp) (events : List Event)

/-- What the runners of a run may rely on. -/
structure LeasesKept : Prop where
  /-- A delivery is leased exactly when it has an owner and an expiry. -/
  complete : ∀ n, ∀ d ∈ (worldAt parseTime events n).db.alertDeliveries,
    d.state = .leased ↔ d.leaseOwner.isSome ∧ d.leaseExpiresAt.isSome
  /-- A claim before the expiry of a lease neither changes the delivery nor hands it out. -/
  exclusive : ∀ n owner now locked received,
    events[n]? = some (.claim owner now locked received) →
    ∀ d ∈ (worldAt parseTime events n).db.alertDeliveries, ∀ expires,
      d.state = .leased → d.leaseExpiresAt = some expires → now < expires →
      d ∈ (worldAt parseTime events (n + 1)).db.alertDeliveries ∧
      ∀ delivery ∈ handed (worldAt parseTime events n) (.claim owner now locked received),
        delivery.id ≠ d.id
  /-- A runner that has lost the lease of a delivery it has in hand records nothing. -/
  late : ∀ i n owner deliveryId, i ≤ n →
    (∀ d ∈ (worldAt parseTime events i).db.alertDeliveries, leasedBy deliveryId owner d = false) →
    (∀ k, i ≤ k → k ≤ n → InHand (worldAt parseTime events k) owner deliveryId) →
    ∀ now clock written, events[n]? = some (.record owner deliveryId now clock written) →
      ∀ call, executed parseTime (worldAt parseTime events n)
          (.record owner deliveryId now clock written) = some call →
        outcome (worldAt parseTime events n).db call = .error .notFound ∧
        (worldAt parseTime events (n + 1)).db = (worldAt parseTime events n).db
  /-- What becomes delivered is completed by a runner that was answered in the two
  hundreds for this delivery, and had it in hand ever since. -/
  delivered : ∀ n, ∀ d ∈ (worldAt parseTime events (n + 1)).db.alertDeliveries,
    d.state = .delivered →
    (∀ d' ∈ (worldAt parseTime events n).db.alertDeliveries, d'.id = d.id → d'.state ≠ .delivered) →
    ∃ owner now clock response i, i < n ∧
      events[n]? = some (.record owner d.id now clock true) ∧
      executed parseTime (worldAt parseTime events n) (.record owner d.id now clock true) =
        some ⟨now, .complete d.id owner⟩ ∧
      events[i]? = some (.answer owner d.id (.ok response)) ∧
      response.successful = true ∧
      ∀ k, i ≤ k → k ≤ n → InHand (worldAt parseTime events k) owner d.id
  /-- A delivered or failed delivery stays as it is, and is not handed out again. -/
  settled : ∀ i n, i ≤ n → ∀ d ∈ (worldAt parseTime events i).db.alertDeliveries,
    d.state = .delivered ∨ d.state = .failed →
      d ∈ (worldAt parseTime events n).db.alertDeliveries ∧
      ∀ event, events[n]? = some event →
        ∀ delivery ∈ handed (worldAt parseTime events n) event, delivery.id ≠ d.id

variable {parseTime events}

theorem leaseComplete_at (n : Nat) :
    ∀ d ∈ (worldAt parseTime events n).db.alertDeliveries, LeaseComplete d := by
  have hreachable : Reachable (step parseTime) World.empty (worldAt parseTime events n) :=
    reachable_stateAt events n
  refine hreachable.invariant (P := fun w => ∀ d ∈ w.db.alertDeliveries, LeaseComplete d) ?_ ?_
  · exact fun d hd => absurd hd (Table.not_mem_empty d)
  · exact fun w event _ h => leaseComplete_step h

/-- The event number `n`, as a move of the leases. -/
def moveAt (parseTime : String → Option Timestamp) (events : List Event) (n : Nat) : Move UUID :=
  (events[n]?.map (moveOf (worldAt parseTime events n))).getD .other

theorem step_at {n : Nat} (deliveryId : UUID) :
    Leases.Step (moveAt parseTime events n) (jobIn (worldAt parseTime events n).db deliveryId)
      (jobIn (worldAt parseTime events (n + 1)).db deliveryId) := by
  by_cases hn : n < events.length
  · have hmove : moveAt parseTime events n = moveOf (worldAt parseTime events n) events[n] := by
      rw [moveAt, List.getElem?_eq_getElem hn]
      rfl
    rw [hmove, worldAt_succ hn]
    exact step_refines (leaseComplete_at n) deliveryId
  · rw [worldAt_succ_of_length_le (Nat.le_of_not_lt hn)]
    exact .stayed _ _

theorem not_handed_of_not_claimed {w : World} {event : Event} {d : AlertDelivery}
    (hd : d ∈ w.db.alertDeliveries) (h : d ∉ claimed w event) :
    ∀ delivery ∈ handed w event, delivery.id ≠ d.id := by
  intro delivery hdelivery hid
  obtain ⟨row, hrow, hsame, -⟩ := claimed_of_handed hdelivery
  obtain ⟨_, _, _, _, _, -, -, hmem, -⟩ := claimable_of_claimed hrow
  obtain rfl := Table.eq_of_key_eq hmem hd (hsame.trans hid)
  exact h hrow

/-- A lost lease is still lost when the runner records. -/
theorem unleased_of_lost {i n : Nat} {owner deliveryId : UUID} (hin : i ≤ n)
    (hlost : ∀ d ∈ (worldAt parseTime events i).db.alertDeliveries,
      leasedBy deliveryId owner d = false)
    (hhand : ∀ k, i ≤ k → k ≤ n → InHand (worldAt parseTime events k) owner deliveryId) :
    ∀ d ∈ (worldAt parseTime events n).db.alertDeliveries, leasedBy deliveryId owner d = false := by
  have hbefore : ¬ (jobIn (worldAt parseTime events i).db deliveryId).HeldBy owner := by
    intro hheld
    by_cases hexists : ∃ d ∈ (worldAt parseTime events i).db.alertDeliveries, d.id = deliveryId
    · obtain ⟨d, hd, rfl⟩ := hexists
      rw [jobIn_of_mem hd] at hheld
      cases (hlost d hd).symm.trans (leasedBy_of_heldBy hheld)
    · rw [jobIn_of_absent fun d hd hid => hexists ⟨d, hd, hid⟩] at hheld
      exact hheld
  have hafter : ¬ (jobIn (worldAt parseTime events n).db deliveryId).HeldBy owner := by
    refine Leases.not_heldBy_of_lost (moveAt parseTime events)
      (fun k => jobIn (worldAt parseTime events k).db deliveryId)
      (fun k _ _ => step_at deliveryId) (fun k hik hkn now htake => ?_) hbefore hin
    by_cases hk : k < events.length
    · rw [moveAt, List.getElem?_eq_getElem hk] at htake
      exact moveOf_ne_take (hhand k hik (Nat.le_of_lt hkn)) now htake
    · rw [moveAt, List.getElem?_eq_none (Nat.le_of_not_lt hk)] at htake
      cases htake
  intro d hd
  by_cases hid : d.id = deliveryId
  · subst hid
    rw [jobIn_of_mem hd] at hafter
    exact leasedBy_eq_false hafter (leaseComplete_at n d hd)
  · simp [leasedBy, hid]

/-- An answer that a runner is about to record came while it had the delivery in hand. -/
theorem answered_before {n : Nat} {owner deliveryId : UUID} {task : Task}
    {sent : Except String DeliveryResponse}
    (h : (worldAt parseTime events n).answered owner deliveryId = some (task, sent)) :
    ∃ i < n, events[i]? = some (.answer owner deliveryId sent) ∧
      ∀ k, i ≤ k → k ≤ n → InHand (worldAt parseTime events k) owner deliveryId := by
  obtain ⟨htask, hid, hanswer⟩ := answered_eq_some h
  have hempty : ¬ Answered owner deliveryId sent World.empty := fun ⟨task, htask, _⟩ =>
    nomatch htask
  have hnow : Answered owner deliveryId sent (stateAt (step parseTime) World.empty events n) :=
    ⟨task, htask, hid, hanswer⟩
  obtain ⟨i, hin, hnot, hsince⟩ := exists_last_step hempty hnow
  have hi : i < events.length := by
    by_contra hlast
    refine hnot ?_
    have hnext := hsince (i + 1) (Nat.lt_succ_self i) hin
    rwa [stateAt_succ_of_length_le (Nat.le_of_not_lt hlast)] at hnext
  obtain ⟨task', htask', hid', hanswer'⟩ := hsince (i + 1) (Nat.lt_succ_self i) hin
  rw [stateAt_succ hi] at htask'
  cases taskFrom_step htask' with
  | held _ hheld => exact absurd ⟨task', hheld, hid', hanswer'⟩ hnot
  | claimed => cases hanswer'
  | answered held sent' hheld hevent hnone =>
      cases hanswer'
      refine ⟨i, hin, ?_, fun k hik hkn => ?_⟩
      · rw [List.getElem?_eq_getElem hi, hevent, ← hid']
      · rcases Nat.eq_or_lt_of_le hik with rfl | hlt
        · exact ⟨held, hheld, hid'⟩
        · obtain ⟨later, hlater, hlaterId, -⟩ := hsince k hlt hkn
          exact ⟨later, hlater, hlaterId⟩

theorem late_record {n : Nat} {owner deliveryId : UUID} {now clock : Timestamp} {written : Bool}
    {call : DeliveryCall} (hevent : events[n]? = some (.record owner deliveryId now clock written))
    (hexecuted : executed parseTime (worldAt parseTime events n)
      (.record owner deliveryId now clock written) = some call)
    (hunleased : ∀ d ∈ (worldAt parseTime events n).db.alertDeliveries,
      leasedBy deliveryId owner d = false) :
    outcome (worldAt parseTime events n).db call = .error .notFound ∧
      (worldAt parseTime events (n + 1)).db = (worldAt parseTime events n).db := by
  obtain ⟨hn, hget⟩ := List.getElem?_eq_some_iff.mp hevent
  have hoperation : call.operation = .complete deliveryId owner ∨
      ∃ failure, call.operation = .fail deliveryId owner failure := by
    cases written with
    | false => cases hexecuted
    | true =>
        obtain ⟨⟨task, sent⟩, hanswered, rfl⟩ := Option.map_eq_some_iff.mp hexecuted
        obtain ⟨-, rfl, -⟩ := answered_eq_some hanswered
        exact deliver_cases parseTime owner clock task.delivery sent
  obtain ⟨houtcome, hdb⟩ := outcome_of_unleased hoperation hunleased
  refine ⟨houtcome, ?_⟩
  rw [worldAt_succ hn, hget, db_of_executed hexecuted, hdb]

theorem becomes_delivered {n : Nat} {d : AlertDelivery}
    (hd : d ∈ (worldAt parseTime events (n + 1)).db.alertDeliveries) (hstate : d.state = .delivered)
    (hbefore : ∀ d' ∈ (worldAt parseTime events n).db.alertDeliveries, d'.id = d.id →
      d'.state ≠ .delivered) :
    ∃ owner now clock task response,
      events[n]? = some (.record owner d.id now clock true) ∧
      (worldAt parseTime events n).answered owner d.id = some (task, .ok response) ∧
      response.successful = true := by
  by_cases hn : n < events.length
  · rw [worldAt_succ hn] at hd
    rcases (grows_event parseTime _ _).backward d hd with
      ⟨old, hold, hid, hturned⟩ | ⟨channels, hnew⟩
    · cases hturned with
      | kept => exact absurd hstate (hbefore d hold rfl)
      | leased | closed => cases hstate
      | returned owner now clock task sent failure =>
          by_cases hfailed : failure.state = .failed
          · cases hfailed.symm.trans hstate
          · cases (state_of_ne_failed hfailed).symm.trans hstate
      | delivered owner now clock task response hevent hanswered hsuccessful hleased =>
          refine ⟨owner, now, clock, task, response, ?_, hanswered, hsuccessful⟩
          rw [List.getElem?_eq_getElem hn, hevent]
          rfl
    · obtain ⟨alertId, hunsent⟩ := hnew
      cases hunsent.state.symm.trans hstate
  · rw [worldAt_succ_of_length_le (Nat.le_of_not_lt hn)] at hd
    exact absurd hstate (hbefore d hd rfl)

theorem settled_stays {i n : Nat} (hin : i ≤ n) {d : AlertDelivery}
    (hd : d ∈ (worldAt parseTime events i).db.alertDeliveries) (hsettled : Settled d) :
    d ∈ (worldAt parseTime events n).db.alertDeliveries := by
  refine stateAt_mono (P := fun w : World => d ∈ w.db.alertDeliveries) (fun w event hmem => ?_) hin
    hd
  obtain ⟨d', hd', -, hturned⟩ := (grows_event parseTime w event).forward d hmem
  obtain rfl := hsettled.of_turned hturned
  exact hd'

end Protocol

/-- Over every run of any number of runners the leases are kept. -/
theorem leases_kept (parseTime : String → Option Timestamp) (events : List Event) :
    LeasesKept parseTime events where
  complete n d hd := leaseComplete_at n d hd
  exclusive n owner now locked received hevent d hd expires hstate hexpires hnow := by
    obtain ⟨hn, hget⟩ := List.getElem?_eq_some_iff.mp hevent
    have hnot : d ∉ claimed (worldAt parseTime events n) (.claim owner now locked received) :=
      not_claimed_of_unexpired (leaseComplete_at n d hd) hstate hexpires hnow
    refine ⟨?_, not_handed_of_not_claimed hd hnot⟩
    rw [worldAt_succ hn, hget]
    obtain ⟨d', hd', -, hturned⟩ := (grows_event parseTime _ _).forward d hd
    cases hturned with
    | kept => exact hd'
    | leased _ _ _ _ hclaim hclaimed => exact absurd hclaimed hnot
    | delivered _ _ _ _ _ hrecord => cases hrecord
    | returned _ _ _ _ _ _ hrecord => cases hrecord
    | closed _ _ _ _ hreconcile => cases hreconcile
  late i n owner deliveryId hin hlost hhand now clock written hevent call hexecuted :=
    late_record hevent hexecuted (unleased_of_lost hin hlost hhand)
  delivered n d hd hstate hbefore := by
    obtain ⟨owner, now, clock, task, response, hevent, hanswered, hsuccessful⟩ :=
      becomes_delivered hd hstate hbefore
    obtain ⟨i, hin, hanswer, hhand⟩ := answered_before hanswered
    refine ⟨owner, now, clock, response, i, hin, hevent, ?_, hanswer, hsuccessful, hhand⟩
    obtain ⟨-, hid, -⟩ := answered_eq_some hanswered
    simp [executed, hanswered, deliver, hsuccessful, hid]
  settled i n hin d hd hsettled := by
    have hstays := settled_stays hin hd hsettled
    refine ⟨hstays, fun event hevent => ?_⟩
    refine not_handed_of_not_claimed hstays fun hclaimed => ?_
    obtain ⟨_, _, _, _, _, -, -, -, hclaimable⟩ := claimable_of_claimed hclaimed
    exact not_settled_of_available (available_of_claimable hclaimable) hsettled

end PriceScout.Alertdelivery.LeaseProtocol
