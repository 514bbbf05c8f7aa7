import PriceScout.Store.DeliveryRuns

/-!
The runners that deliver alerts: each claims a batch, sends its deliveries in
parallel, records every answer, and claims again when all are recorded.
-/

namespace PriceScout.Alertdelivery.Runner

open PriceScout.Domain
open PriceScout.Library.GoStrings
open PriceScout.Library.Runs
open PriceScout.Library.Tables
open PriceScout.Store.Alerts
open PriceScout.Store.Deliveries
open PriceScout.Store.DeliveryRuns
open PriceScout.Store.Operations (Call)
open PriceScout.Store.Schema

def maxAttempts : Nat := 6

def claimBatch : Nat := 8

/-- 45 seconds, in nanoseconds. -/
def claimLease : Nat := 45 * 1000000000

structure DeliveryResponse where
  statusCode : Int
  retryAfter : String
  message : String

/-- The statuses of a delivery that was accepted. -/
def DeliveryResponse.successful (response : DeliveryResponse) : Bool :=
  200 ≤ response.statusCode && response.statusCode < 300

def retryableStatus (status : Int) : Bool :=
  status = 408 || status = 425 || status = 429 || status ≥ 500

/-- The wait after an attempt, in seconds. -/
def retryDelay (attempt : Nat) : Int :=
  min (5 * 2 ^ min (max attempt 1 - 1) 8) 900

section Delivery

variable (parseTime : String → Option Timestamp)

/-- The time a response asks to retry at; `parseTime` is `http.ParseTime`. -/
def parseRetryAfter (raw : String) (now : Timestamp) : Option Timestamp :=
  let raw := trimSpace raw
  if raw = "" then none
  else match atoi raw with
    | some seconds => some (now + max 1 (min seconds 3600))
    | none => (parseTime raw).map fun time =>
        let time := if time < now + 1 then now + 1 else time
        if now + 3600 < time then now + 3600 else time

/-- The transaction with which `deliver` records what sending a delivery gave. -/
def deliver (owner : UUID) (clock : Timestamp) (delivery : ClaimedDelivery)
    (sent : Except String DeliveryResponse) : DeliveryOperation :=
  let retryAt := clock + retryDelay delivery.attempt
  match sent with
  | .ok response =>
      if response.successful then .complete delivery.id owner
      else .fail delivery.id owner
        { attempt := delivery.attempt, maxAttempts := maxAttempts
          nextAttempt := (parseRetryAfter parseTime response.retryAfter clock).getD retryAt
          statusCode := response.statusCode, message := response.message
          permanent := !retryableStatus response.statusCode }
  | .error message => .fail delivery.id owner
      { attempt := delivery.attempt, maxAttempts := maxAttempts, nextAttempt := retryAt,
        statusCode := 0, message := message, permanent := false }

end Delivery

/-- A delivery that a runner has in hand; there is no answer while it is being sent. -/
structure Task where
  delivery : ClaimedDelivery
  answer : Option (Except String DeliveryResponse)

/-- A process, by the owner id it draws when it starts. -/
inductive Process where
  | absent
  | running (store : OpenStore) (tasks : List Task)
  | stopped

structure World where
  db : Database
  processes : UUID → Process

/-- The database after the migrations, and no process yet. -/
def World.empty : World where
  db := Database.empty
  processes := fun _ => .absent

/-- What can happen next: an operation of the store; a runner starts, stops,
reconciles, claims, is answered, or records an answer. A claim may take effect
without its rows being received, and a record may be lost. -/
inductive Event where
  | store (call : Call)
  | launch (owner : UUID) (store : OpenStore)
  | reconcile (owner : UUID) (now : Timestamp) (locked : UUID → Bool)
  | claim (owner : UUID) (now : Timestamp) (locked : UUID → Bool) (received : Bool)
  | answer (owner deliveryId : UUID) (sent : Except String DeliveryResponse)
  | record (owner deliveryId : UUID) (now clock : Timestamp) (written : Bool)
  | crash (owner : UUID)

def Process.tasks : Process → List Task
  | .running _ tasks => tasks
  | _ => []

/-- The tasks of a runner. -/
def World.tasks (w : World) (owner : UUID) : List Task :=
  (w.processes owner).tasks

/-- The settings of a runner that is about to claim. -/
def World.claiming (w : World) (owner : UUID) : Option OpenStore :=
  match w.processes owner with
  | .running store [] => some store
  | _ => none

/-- The answered task that a runner records for a delivery. -/
def World.answered (w : World) (owner deliveryId : UUID) :
    Option (Task × Except String DeliveryResponse) :=
  (w.tasks owner).findSome? fun task =>
    if task.delivery.id = deliveryId then task.answer.map fun sent => (task, sent) else none

/-- The rows that the claim of an event leases. -/
def claimed (w : World) : Event → List AlertDelivery
  | .claim owner now locked _ =>
      match w.claiming owner with
      | some store => picked store now locked claimBatch w.db
      | none => []
  | _ => []

/-- The deliveries that a claim hands to the senders of its runner. -/
def handed (w : World) : Event → List ClaimedDelivery
  | .claim owner now locked received =>
      match w.claiming owner with
      | some store =>
          if received then
            (claimAlertDeliveries store now owner claimLease locked claimBatch w.db).1
          else []
      | none => []
  | _ => []

/-- The transaction on deliveries that an event executes. -/
def executed (parseTime : String → Option Timestamp) (w : World) : Event → Option DeliveryCall
  | .reconcile owner now locked =>
      (w.claiming owner).map fun store => ⟨now, .reconcile store locked⟩
  | .claim owner now locked _ =>
      (w.claiming owner).map fun store => ⟨now, .claim store owner claimLease claimBatch locked⟩
  | .record owner deliveryId now clock written =>
      if written then
        (w.answered owner deliveryId).map fun (task, sent) =>
          ⟨now, deliver parseTime owner clock task.delivery sent⟩
      else none
  | _ => none

/-- What a process has in hand after an event of its own. -/
def processed (w : World) : Event → Option (UUID × Process)
  | .launch owner store =>
      match w.processes owner with
      | .absent => some (owner, .running store [])
      | _ => none
  | .claim owner now locked received =>
      (w.claiming owner).map fun store =>
        (owner, .running store
          ((handed w (.claim owner now locked received)).map fun delivery => ⟨delivery, none⟩))
  | .answer owner deliveryId sent =>
      match w.processes owner with
      | .running store tasks =>
          some (owner, .running store (tasks.map fun task =>
            if task.delivery.id = deliveryId ∧ task.answer.isNone then
              { task with answer := some sent }
            else task))
      | _ => none
  | .record owner deliveryId _ _ _ =>
      match w.processes owner, w.answered owner deliveryId with
      | .running store tasks, some _ =>
          some (owner, .running store (tasks.filter fun task => task.delivery.id ≠ deliveryId))
      | _, _ => none
  | .crash owner =>
      match w.processes owner with
      | .running _ _ => some (owner, .stopped)
      | _ => none
  | _ => none

def step (parseTime : String → Option Timestamp) (w : World) (event : Event) : World where
  db := match event with
    | .store call => PriceScout.Store.Operations.step w.db call
    | event => match executed parseTime w event with
      | some call => deliveryStep w.db call
      | none => w.db
  processes := match processed w event with
    | some (owner, process) => Function.update w.processes owner process
    | none => w.processes

/-- What an event makes of a delivery. -/
inductive Turned (w : World) (event : Event) (d : AlertDelivery) : AlertDelivery → Prop
  | kept : Turned w event d d
  | leased (owner : UUID) (now : Timestamp) (locked : UUID → Bool) (received : Bool)
      (hevent : event = .claim owner now locked received) (hclaimed : d ∈ claimed w event) :
      Turned w event d (leased now owner (leaseSeconds claimLease) d)
  | delivered (owner : UUID) (now clock : Timestamp) (task : Task) (response : DeliveryResponse)
      (hevent : event = .record owner d.id now clock true)
      (hanswered : w.answered owner d.id = some (task, .ok response))
      (hsuccessful : response.successful = true) (hleased : leasedBy d.id owner d = true) :
      Turned w event d (delivered now d)
  | returned (owner : UUID) (now clock : Timestamp) (task : Task)
      (sent : Except String DeliveryResponse) (failure : DeliveryFailure)
      (hevent : event = .record owner d.id now clock true)
      (hanswered : w.answered owner d.id = some (task, sent))
      (hattempt : failure.attempt = task.delivery.attempt)
      (hmax : failure.maxAttempts = maxAttempts) (hleased : leasedBy d.id owner d = true) :
      Turned w event d (returned failure d)
  | closed (owner : UUID) (store : OpenStore) (now : Timestamp) (locked : UUID → Bool)
      (hevent : event = .reconcile owner now locked) (hclaiming : w.claiming owner = some store)
      (hclosable : closable store now d = true) : Turned w event d (closed d)

/-- Where a task that a runner has in hand after an event comes from. -/
inductive TaskFrom (w : World) (event : Event) (owner : UUID) : Task → Prop
  | held (task : Task) (h : task ∈ w.tasks owner) : TaskFrom w event owner task
  | answered (task : Task) (sent : Except String DeliveryResponse) (h : task ∈ w.tasks owner)
      (hevent : event = .answer owner task.delivery.id sent) (hnone : task.answer = none) :
      TaskFrom w event owner { task with answer := some sent }
  | claimed (now : Timestamp) (locked : UUID → Bool) (delivery : ClaimedDelivery)
      (hevent : event = .claim owner now locked true) (h : delivery ∈ handed w event) :
      TaskFrom w event owner ⟨delivery, none⟩

section Steps

variable {parseTime : String → Option Timestamp} {w : World} {event : Event}
  {owner deliveryId : UUID} {task : Task} {sent : Except String DeliveryResponse}
  {d d' : AlertDelivery}

theorem claiming_eq_some {store : OpenStore} :
    w.claiming owner = some store ↔ w.processes owner = .running store [] := by
  unfold World.claiming
  split
  · rename_i hrunning
    rw [hrunning, Option.some.injEq]
    constructor
    · rintro rfl
      rfl
    · intro h
      cases h
      rfl
  · rename_i hnot
    exact ⟨nofun, fun h => absurd h (hnot store)⟩

theorem tasks_of_claiming {store : OpenStore} (h : w.claiming owner = some store) :
    w.tasks owner = [] := by
  rw [World.tasks, claiming_eq_some.mp h]
  rfl

theorem answered_eq_some (h : w.answered owner deliveryId = some (task, sent)) :
    task ∈ w.tasks owner ∧ task.delivery.id = deliveryId ∧ task.answer = some sent := by
  obtain ⟨t, ht, h⟩ := List.exists_of_findSome?_eq_some h
  split at h
  · rename_i hid
    obtain ⟨answer, hanswer, hpair⟩ := Option.map_eq_some_iff.mp h
    cases hpair
    exact ⟨ht, hid, hanswer⟩
  · cases h

/-- A completion is only made for an answer in the two hundreds. -/
theorem deliver_eq_complete {clock : Timestamp} {owner' : UUID} {delivery : ClaimedDelivery}
    (h : deliver parseTime owner clock delivery sent = .complete deliveryId owner') :
    owner' = owner ∧ ∃ response, sent = .ok response ∧ response.successful = true := by
  unfold deliver at h
  cases sent with
  | error message => cases h
  | ok response =>
      dsimp only at h
      split at h
      · rename_i hsuccessful
        cases h
        exact ⟨rfl, response, rfl, hsuccessful⟩
      · cases h

theorem deliver_eq_fail {clock : Timestamp} {owner' : UUID} {delivery : ClaimedDelivery}
    {failure : DeliveryFailure}
    (h : deliver parseTime owner clock delivery sent = .fail deliveryId owner' failure) :
    owner' = owner ∧ failure.attempt = delivery.attempt ∧ failure.maxAttempts = maxAttempts := by
  unfold deliver at h
  cases sent with
  | error message =>
      cases h
      exact ⟨rfl, rfl, rfl⟩
  | ok response =>
      dsimp only at h
      split at h
      · cases h
      · cases h
        exact ⟨rfl, rfl, rfl⟩

theorem deliver_cases (parseTime : String → Option Timestamp) (owner : UUID) (clock : Timestamp)
    (delivery : ClaimedDelivery) (sent : Except String DeliveryResponse) :
    deliver parseTime owner clock delivery sent = .complete delivery.id owner ∨
      ∃ failure, deliver parseTime owner clock delivery sent = .fail delivery.id owner failure := by
  unfold deliver
  cases sent with
  | error message => exact Or.inr ⟨_, rfl⟩
  | ok response =>
      dsimp only
      split
      · exact Or.inl rfl
      · exact Or.inr ⟨_, rfl⟩

/-- What a transaction of a runner makes of a delivery. -/
theorem turned_of_moved {call : DeliveryCall} (hexecuted : executed parseTime w event = some call)
    (h : Moved w.db call d d') : Turned w event d d' := by
  cases event with
  | store call' => cases hexecuted
  | launch owner store => cases hexecuted
  | answer owner deliveryId sent => cases hexecuted
  | crash owner => cases hexecuted
  | reconcile owner now locked =>
      obtain ⟨store, hclaiming, rfl⟩ := Option.map_eq_some_iff.mp hexecuted
      cases h with
      | kept => exact .kept
      | leased _ _ _ _ _ hcall => cases hcall
      | delivered _ hcall => cases hcall
      | returned _ _ hcall => cases hcall
      | closed store' locked' hcall hclosable =>
          cases hcall
          exact .closed owner store now locked rfl hclaiming hclosable
  | claim owner now locked received =>
      obtain ⟨store, hclaiming, rfl⟩ := Option.map_eq_some_iff.mp hexecuted
      cases h with
      | kept => exact .kept
      | leased store' owner' lease limit locked' hcall hpicked =>
          cases hcall
          refine .leased owner now locked received rfl ?_
          rw [claimed, hclaiming]
          exact hpicked
      | delivered _ hcall => cases hcall
      | returned _ _ hcall => cases hcall
      | closed _ _ hcall => cases hcall
  | record owner deliveryId now clock written =>
      cases written with
      | false => cases hexecuted
      | true =>
          obtain ⟨⟨task, sent⟩, hanswered, rfl⟩ := Option.map_eq_some_iff.mp hexecuted
          obtain ⟨-, hid, -⟩ := answered_eq_some hanswered
          have hsame : ∀ {id owner'}, (deliver parseTime owner clock task.delivery sent =
              .complete id owner' ∨ ∃ failure, deliver parseTime owner clock task.delivery sent =
              .fail id owner' failure) → deliveryId = id := by
            rintro id owner' hcall
            rcases deliver_cases parseTime owner clock task.delivery sent with
              hmade | ⟨f, hmade⟩ <;>
              rw [hmade] at hcall <;> rcases hcall with hcall | ⟨failure, hcall⟩ <;> cases hcall <;>
              exact hid.symm
          cases h with
          | kept => exact .kept
          | leased _ _ _ _ _ hcall =>
              rcases deliver_cases parseTime owner clock task.delivery sent with
                hmade | ⟨f, hmade⟩ <;>
                cases hmade.symm.trans hcall
          | delivered owner' hcall hleased =>
              obtain rfl := hsame (Or.inl hcall)
              obtain ⟨rfl, response, rfl, hsuccessful⟩ := deliver_eq_complete hcall
              exact .delivered _ now clock task response rfl hanswered hsuccessful hleased
          | returned owner' failure hcall hleased =>
              obtain rfl := hsame (Or.inr ⟨failure, hcall⟩)
              obtain ⟨rfl, hattempt, hmax⟩ := deliver_eq_fail hcall
              exact .returned _ now clock task sent failure rfl hanswered hattempt hmax hleased
          | closed _ _ hcall =>
              rcases deliver_cases parseTime owner clock task.delivery sent with
                hmade | ⟨f, hmade⟩ <;>
                cases hmade.symm.trans hcall

theorem grows_event (parseTime : String → Option Timestamp) (w : World) (event : Event) :
    w.db.alertDeliveries.Grows (Turned w event) (fun d => ∃ channels, New channels d)
      (step parseTime w event).db.alertDeliveries := by
  have transaction : ∀ e : Event, (match executed parseTime w e with
      | some call => deliveryStep w.db call
      | none => w.db) = (step parseTime w e).db → w.db.alertDeliveries.Grows (Turned w e)
        (fun d => ∃ channels, New channels d) (step parseTime w e).db.alertDeliveries := by
    intro e hdb
    rw [← hdb]
    cases hexecuted : executed parseTime w e with
    | none => exact .of_evolves (.refl (fun _ => .kept) _)
    | some call =>
        have hgrows := grows_deliveryStep w.db call
        refine ⟨fun d hd => ?_, fun d' hd' => ?_⟩
        · obtain ⟨d', hd', hid, hmoved⟩ := hgrows.forward d hd
          exact ⟨d', hd', hid, turned_of_moved hexecuted hmoved⟩
        · refine (hgrows.backward d' hd').imp_left ?_
          rintro ⟨d, hd, hid, hmoved⟩
          exact ⟨d, hd, hid, turned_of_moved hexecuted hmoved⟩
  cases event with
  | store call =>
      have hgrows := grows_step w.db call
      refine ⟨fun d hd => ?_, fun d' hd' => ?_⟩
      · obtain ⟨d', hd', hid, rfl⟩ := hgrows.forward d hd
        exact ⟨d, hd', hid, .kept⟩
      · refine (hgrows.backward d' hd').imp_left ?_
        rintro ⟨d, hd, hid, rfl⟩
        exact ⟨d, hd, hid, .kept⟩
  | _ => exact transaction _ rfl

theorem processes_step (parseTime : String → Option Timestamp) (w : World) (event : Event)
    (owner : UUID) :
    (step parseTime w event).processes owner = w.processes owner ∨
      processed w event = some (owner, (step parseTime w event).processes owner) := by
  unfold step
  dsimp only
  cases hprocessed : processed w event with
  | none => exact Or.inl rfl
  | some entry =>
      obtain ⟨actor, process⟩ := entry
      by_cases howner : owner = actor
      · subst howner
        right
        simp
      · left
        exact Function.update_of_ne howner _ _

theorem taskFrom_step (h : task ∈ (step parseTime w event).tasks owner) :
    TaskFrom w event owner task := by
  rcases processes_step parseTime w event owner with hsame | hprocessed
  · rw [World.tasks, hsame] at h
    exact .held task h
  · unfold World.tasks at h
    generalize (step parseTime w event).processes owner = process at hprocessed h
    cases event with
    | store call => cases hprocessed
    | reconcile owner now locked => cases hprocessed
    | launch starter store =>
        simp only [processed] at hprocessed
        split at hprocessed <;> cases hprocessed
        cases h
    | claim claimer now locked received =>
        obtain ⟨store, hclaiming, hpair⟩ := Option.map_eq_some_iff.mp hprocessed
        cases hpair
        obtain ⟨delivery, hdelivery, rfl⟩ := List.mem_map.mp h
        cases received with
        | true => exact .claimed now locked delivery rfl hdelivery
        | false => simp [handed, hclaiming] at hdelivery
    | answer asked deliveryId sent =>
        simp only [processed] at hprocessed
        split at hprocessed
        · rename_i store tasks hrunning
          cases hprocessed
          obtain ⟨held, hheld, rfl⟩ := List.mem_map.mp h
          have hmem : held ∈ w.tasks owner := by
            rw [World.tasks, hrunning]
            exact hheld
          split
          · rename_i hmatches
            obtain ⟨rfl, hnone⟩ := hmatches
            exact .answered held sent hmem rfl (Option.isNone_iff_eq_none.mp hnone)
          · exact .held held hmem
        · cases hprocessed
    | record recorder deliveryId now clock written =>
        simp only [processed] at hprocessed
        split at hprocessed
        · rename_i store tasks entry hrunning hanswered
          cases hprocessed
          refine .held task ?_
          rw [World.tasks, hrunning]
          exact (List.mem_filter.mp h).1
        · cases hprocessed
    | crash crashed =>
        simp only [processed] at hprocessed
        split at hprocessed <;> cases hprocessed
        cases h

/-- A runner without tasks claims, and only what is claimable. -/
theorem claimable_of_claimed (h : d ∈ claimed w event) :
    ∃ owner store now locked received, event = .claim owner now locked received ∧
      w.claiming owner = some store ∧ d ∈ w.db.alertDeliveries ∧ claimable store now d = true := by
  cases event with
  | claim owner now locked received =>
      simp only [claimed] at h
      split at h
      · rename_i store hclaiming
        obtain ⟨hd, hclaimable⟩ := claimable_of_picked h
        exact ⟨owner, store, now, locked, received, rfl, hclaiming, hd, hclaimable⟩
      · cases h
  | _ => cases h

theorem tasks_of_claimed {now : Timestamp} {locked : UUID → Bool} {received : Bool}
    (h : d ∈ claimed w (.claim owner now locked received)) : w.tasks owner = [] := by
  obtain ⟨owner', store, now', locked', received', hevent, hclaiming, -⟩ := claimable_of_claimed h
  cases hevent
  exact tasks_of_claiming hclaiming

theorem leased_of_claimed (parseTime : String → Option Timestamp) (h : d ∈ claimed w event) :
    ∃ owner now, leased now owner (leaseSeconds claimLease) d ∈
      (step parseTime w event).db.alertDeliveries := by
  cases event with
  | claim owner now locked received =>
      simp only [claimed] at h
      split at h
      · rename_i store hclaiming
        obtain ⟨hd, hclaimable⟩ := claimable_of_picked h
        have hdb : (step parseTime w (.claim owner now locked received)).db =
            (claimAlertDeliveries store now owner claimLease locked claimBatch w.db).2 := by
          simp only [step, executed, hclaiming, Option.map_some]
          rfl
        have hchannels : store.alertChannels.isEmpty = false := by
          have hconfigured := (Bool.and_eq_true_iff.mp hclaimable).1
          cases hlist : store.alertChannels with
          | nil => simp [hlist] at hconfigured
          | cons channel rest => rfl
        refine ⟨owner, now, ?_⟩
        rw [hdb]
        unfold claimAlertDeliveries
        simp only [hchannels]
        exact Table.mem_update_of_pos hd (List.contains_iff_mem.mpr (List.mem_map_of_mem h))
      · cases h
  | _ => cases h

/-- What is handed to a sender has been leased by the same claim. -/
theorem claimed_of_handed {delivery : ClaimedDelivery} (h : delivery ∈ handed w event) :
    ∃ d ∈ claimed w event, d.id = delivery.id ∧ delivery.attempt = d.attempts + 1 := by
  cases event with
  | claim owner now locked received =>
      simp only [handed, claimed] at h ⊢
      split at h
      · split at h
        · unfold claimAlertDeliveries at h
          split at h
          · cases h
          · obtain ⟨row, hrow, hjoined⟩ := List.mem_filterMap.mp h
            obtain ⟨hrow, hcontains⟩ := List.mem_filter.mp ((List.mem_insertionSort _).mp hrow)
            obtain ⟨hid, hattempt⟩ := claimedDelivery_eq_some hjoined
            rcases Table.mem_update_cases hrow with ⟨d, hd, hpicked, rfl⟩ | ⟨-, hnot⟩
            · exact ⟨d, picked_of_contains hd hpicked, hid.symm, hattempt⟩
            · rw [hcontains] at hnot
              cases hnot
        · cases h
      · cases h
  | _ => cases h

end Steps

section Runs

variable (parseTime : String → Option Timestamp) (events : List Event)

/-- The world before the event number `n`. -/
def worldAt (n : Nat) : World :=
  stateAt (step parseTime) World.empty events n

variable {parseTime events}

theorem worldAt_succ {n : Nat} (hn : n < events.length) :
    worldAt parseTime events (n + 1) = step parseTime (worldAt parseTime events n) events[n] :=
  stateAt_succ hn

theorem worldAt_succ_of_length_le {n : Nat} (hn : events.length ≤ n) :
    worldAt parseTime events (n + 1) = worldAt parseTime events n :=
  stateAt_succ_of_length_le hn

end Runs

end PriceScout.Alertdelivery.Runner
