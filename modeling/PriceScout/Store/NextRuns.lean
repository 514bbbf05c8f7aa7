import PriceScout.Store.ClaimPasses
import PriceScout.Store.Transitions

/-!
How a step of the store moves the next run of a monitor.
-/

namespace PriceScout.Store.NextRuns

open PriceScout.Domain
open PriceScout.Library.JsonDocuments
open PriceScout.Library.Runs
open PriceScout.Library.Selections
open PriceScout.Library.Tables
open PriceScout.Store.Alerting
open PriceScout.Store.Alerts
open PriceScout.Store.ClaimPasses
open PriceScout.Store.Effects
open PriceScout.Store.Executions
open PriceScout.Store.Inversions
open PriceScout.Store.Monitors
open PriceScout.Store.Operations
open PriceScout.Store.Outbox
open PriceScout.Store.Recovery
open PriceScout.Store.Schema
open PriceScout.Store.Serialization
open PriceScout.Store.Transitions

/-- The next run is put off until an operator decides, or stays as it is. -/
structure Held (m m' : Monitor) : Prop where
  nextRunAt : m'.nextRunAt = m.nextRunAt ∨ m'.nextRunAt = none
  intervalMinutes : m'.intervalMinutes = m.intervalMinutes

/-- What a call makes of the next run of a monitor: it is held, comes a whole
interval after the call, or is now because the monitor is resumed. -/
inductive Moved (call : Call) (m m' : Monitor) : Prop
  | held (h : m'.nextRunAt = m.nextRunAt ∨ m'.nextRunAt = none)
  | spaced (h : m'.nextRunAt = some (call.now + 60 * m.intervalMinutes))
  | resumed (params : PatchMonitorParams) (hcall : call.operation = .patchMonitor m.id params)
      (haction : params.action = .resume) (h : m'.nextRunAt = some call.now)

theorem Held.refl (m : Monitor) : Held m m :=
  ⟨Or.inl rfl, rfl⟩

theorem Held.trans (a b c : Monitor) (h : Held a b) (h' : Held b c) : Held a c := by
  refine ⟨?_, h'.intervalMinutes.trans h.intervalMinutes⟩
  rcases h'.nextRunAt with hkept | hnone
  · rw [hkept]
    exact h.nextRunAt
  · exact Or.inr hnone

theorem Moved.refl (call : Call) (m : Monitor) : Moved call m m :=
  .held (Or.inl rfl)

theorem Moved.of_held {call : Call} {m m' : Monitor} (h : Held m m') : Moved call m m' :=
  .held h.nextRunAt

section Results

variable {now : Timestamp} {db db' db₁ : Database} {e e' : Execution} {store : OpenStore}
  {result : ExecutionResult}

theorem held_of_eq (h : db'.monitors = db.monitors) : db.monitors.Evolves Held db'.monitors := by
  rw [h]
  exact .refl Held.refl _

theorem held_update {monitors : Table Monitor.id} {p : Monitor → Bool} {f : Monitor → Monitor}
    {hf : ∀ m, (f m).id = m.id} (hassign : ∀ m, Held m (f m)) :
    monitors.Evolves Held (monitors.update p f hf) :=
  Table.evolves_update Held.refl fun m _ _ => hassign m

theorem held_terminalize (reason : String) :
    db.monitors.Evolves Held (terminalizeStaleExecution now e reason db).monitors := by
  unfold terminalizeStaleExecution
  split
  · exact held_update fun m => ⟨Or.inl rfl, rfl⟩
  · exact held_update fun m => ⟨Or.inr rfl, rfl⟩
  · exact held_of_eq rfl

theorem held_failure (h : FailureEffect store now e result db db') :
    db.monitors.Evolves Held db'.monitors := by
  cases h with
  | retried db' hretry hreplaced => exact held_of_eq hreplaced.monitors
  | compileFailed => exact held_update fun m => ⟨Or.inl rfl, rfl⟩
  | repairFailed => exact held_update fun m => ⟨Or.inr rfl, rfl⟩
  | checkFailed =>
      unfold applyCheckFailure
      split
      · exact held_update fun m => ⟨Or.inl rfl, rfl⟩
      · split
        · exact held_update fun m => ⟨Or.inr rfl, rfl⟩
        · exact held_of_eq rfl
  | repairExists => exact held_of_eq rfl
  | repairQueued id attemptId generation repairAttempts' uuids' db' hkind hstale hgeneration hnone
      hattempt henqueued =>
      refine (held_of_eq henqueued.monitors).trans Held.trans ?_
      exact held_update fun m => ⟨Or.inr rfl, rfl⟩

theorem held_reaction {m : Monitor} {o : Observation} (h : Reaction store now e m o db db') :
    db.monitors.Evolves Held db'.monitors := by
  cases h with
  | diagnostic | unchanged => exact held_of_eq rfl
  | latched | alerted => exact held_update fun m => ⟨Or.inl rfl, rfl⟩
  | confirmationQueued id db' hkind hverified hordinary hmatched hprevious henqueued =>
      exact held_of_eq henqueued.monitors

/-- Of what an accepted result does, only a promotion schedules a monitor. -/
theorem moved_plan {call : Call} {plan : Json} {autoPromote : Bool}
    (h : PlanEffect call.now e plan autoPromote db db') :
    db.monitors.Evolves (Moved call) db'.monitors := by
  cases h with
  | compiled | held => exact Table.evolves_update (Moved.refl call) fun m _ _ => .held (Or.inl rfl)
  | promoted => exact Table.evolves_update (Moved.refl call) fun m _ _ => .spaced rfl

theorem moved_of_held {call : Call} {monitors monitors' : Table Monitor.id}
    (h : monitors.Evolves Held monitors') : monitors.Evolves (Moved call) monitors' := by
  refine ⟨fun m hm => ?_, fun m' hm' => ?_⟩
  · obtain ⟨m', hm', hid, hheld⟩ := h.forward m hm
    exact ⟨m', hm', hid, .of_held hheld⟩
  · obtain ⟨m, hm, hid, hheld⟩ := h.backward m' hm'
    exact ⟨m, hm, hid, .of_held hheld⟩

theorem moved_settled {call : Call} {executionId : UUID}
    (h : Settled store call.now executionId result db e e' db₁ db') :
    db.monitors.Evolves (Moved call) db'.monitors := by
  have hretired := h.retired.monitors
  cases h.outcome with
  | planned plan db' hstatus hkind hplan heffect hobservation =>
      rw [← hretired]
      exact moved_plan heffect
  | plannedAndRecorded plan observation m o db₂ db' hstatus hkind hplan heffect hobservation
      hrecorded =>
      rw [← hretired, hrecorded.unchanged.1]
      exact moved_plan heffect
  | observed observation m o db₂ db' hstatus hkind hobservation hrecorded hreaction =>
      rw [← hretired, ← hrecorded.unchanged.1]
      exact moved_of_held (held_reaction hreaction)
  | failed db' hstatus heffect =>
      rw [← hretired]
      exact moved_of_held (held_failure heffect)

end Results

section Steps

variable {db db' : Database} {call : Call} {m m' : Monitor}

/-- A new monitor is not scheduled. -/
def Unscheduled (m : Monitor) : Prop :=
  m.nextRunAt = none

theorem moved_patchAssign {params : PatchMonitorParams}
    (hcall : call.operation = .patchMonitor m.id params) :
    Moved call m (patchAssign call.now params m) := by
  unfold patchAssign
  cases haction : params.action with
  | pause => exact .held (Or.inr rfl)
  | resume => exact .resumed params hcall haction rfl
  | none | unsupported => exact .held (Or.inl rfl)

/-- An effect schedules only monitors that were there. -/
theorem moved_effect (h : Effect call db db') :
    db.monitors.Grows (Moved call) Unscheduled db'.monitors := by
  cases h with
  | created monitorId executionId params monitors' db' hcall hinterval hmonitor henqueued =>
      rw [henqueued.monitors]
      exact .of_rows (Moved.refl call) hmonitor fun m hm => by
        rw [List.mem_singleton.mp hm]
        rfl
  | claimed | renewed | published => exact .of_evolves (.refl (Moved.refl call) _)
  | checkQueued id m r idempotencyKey traceparent db' hcall hnew hadmitting henqueued =>
      rw [henqueued.monitors]
      exact .of_evolves (.refl (Moved.refl call) _)
  | dueQueued id m r limit locked db' hcall hadmitting henqueued =>
      simp only [Database.updateMonitor, henqueued.monitors]
      exact .of_evolves (Table.evolves_update (Moved.refl call) fun m _ _ => .spaced rfl)
  | confirmed | accepted =>
      exact .of_evolves (Table.evolves_update (Moved.refl call) fun m _ _ => .spaced rfl)
  | patched m params hcall hmonitor haction hinterval =>
      refine .of_evolves (Table.evolves_update (Moved.refl call) fun u _ hu => ?_)
      have hid : u.id = m.id := of_decide_eq_true hu
      exact moved_patchAssign (hid ▸ hcall)
  | rejected =>
      exact .of_evolves (Table.evolves_update (Moved.refl call) fun m _ _ => .held (Or.inl rfl))
  | terminalized e e' db₁ runningStaleAfter maxAttempts limit locked hcall hattempts hretired
      hrunning hfailed =>
      rw [← hretired.monitors]
      exact .of_evolves (moved_of_held (held_terminalize _))
  | replaced e e' db₁ db' runningStaleAfter maxAttempts limit locked hcall hattempts hretired
      hrunning hfailed hreplaced =>
      rw [hreplaced.monitors, hretired.monitors]
      exact .of_evolves (.refl (Moved.refl call) _)

/-- A sweep puts monitors off the schedule, if anything. -/
theorem held_sweep {runningStaleAfter : Timestamp} {maxAttempts limit : Nat} {locked : UUID → Bool}
    (hcall : call.operation = .sweepStaleExecutions runningStaleAfter maxAttempts limit locked)
    (h : Relation.ReflTransGen (Effect call) db db') : db.monitors.Evolves Held db'.monitors := by
  induction h with
  | refl => exact .refl Held.refl _
  | tail _ hlast ih =>
      refine ih.trans Held.trans ?_
      cases hlast with
      | terminalized e e' db₁ _ _ _ _ _ hattempts hretired =>
          rw [← hretired.monitors]
          exact held_terminalize _
      | replaced e e' db₁ db' _ _ _ _ _ hattempts hretired hrunning hfailed hreplaced =>
          rw [hreplaced.monitors, hretired.monitors]
          exact .refl Held.refl _
      | created _ _ _ _ _ hother | claimed _ _ _ _ _ hother | renewed _ _ _ _ hother
      | checkQueued _ _ _ _ _ _ hother | dueQueued _ _ _ _ _ _ hother | confirmed _ _ _ hother
      | patched _ _ hother | accepted _ _ hother | rejected _ _ hother
      | published _ _ _ _ _ hother =>
          simp [hcall] at hother

/-- A monitor that a pass claims runs next after a whole interval. -/
theorem moved_passed {monitors : List Monitor} (h : Passed call.now monitors db db') :
    db.monitors.Evolves (Moved call) db'.monitors := by
  constructor
  · intro m hm
    by_cases hclaimed : m.id ∈ monitors.map Monitor.id
    · refine ⟨rescheduled call.now m, ?_, rfl, .spaced rfl⟩
      rw [Table.mem_def, h.schedule]
      exact List.mem_map.mpr ⟨m, hm, if_pos hclaimed⟩
    · refine ⟨m, ?_, rfl, .refl call m⟩
      rw [Table.mem_def, h.schedule]
      exact List.mem_map.mpr ⟨m, hm, if_neg hclaimed⟩
  · intro m' hm'
    rw [Table.mem_def, h.schedule] at hm'
    obtain ⟨m, hm, rfl⟩ := List.mem_map.mp hm'
    refine ⟨m, hm, ?_⟩
    split
    · exact ⟨rfl, .spaced rfl⟩
    · exact ⟨rfl, .refl call m⟩

theorem moved_step (db : Database) (call : Call) :
    db.monitors.Grows (Moved call) Unscheduled (step db call).monitors := by
  rcases step_cases db call with h | h | ⟨limit, locked, count, hcall, h⟩ |
      ⟨runningStaleAfter, maxAttempts, limit, locked, recoveries, hcall, h⟩ |
      ⟨store, id, result, e, e', db₁, hcall, -, h⟩
  · rw [h]
    exact .of_evolves (.refl (Moved.refl call) _)
  · exact moved_effect h
  · exact .of_evolves (moved_passed (passed_of_claimDueMonitors h).2)
  · have heffects := sweepStaleExecutions_ok h
    rw [← hcall] at heffects
    exact .of_evolves (moved_of_held (held_sweep hcall heffects))
  · exact .of_evolves (moved_settled h)

/-- Every monitor has an interval of a minute at least. -/
def Intervals (db : Database) : Prop :=
  ∀ m ∈ db.monitors, 1 ≤ m.intervalMinutes

theorem interval_of_turned {store : OpenStore} {now : Timestamp} {e : Execution}
    {result : ExecutionResult} (h : Turned store now db e result m m') :
    m'.intervalMinutes = m.intervalMinutes := by
  cases h <;> rfl

theorem interval_of_rewritten (h : Rewritten db call m m') :
    m'.intervalMinutes = m.intervalMinutes ∨
      ∃ params, call.operation = .patchMonitor m.id params ∧
        ∃ minutes ∈ params.intervalMinutes, m'.intervalMinutes = minutes ∧ 1 ≤ minutes := by
  cases h with
  | kept | rescheduled | confirmed | accepted | rejected | abandoned => exact Or.inl rfl
  | settled store executionId result e e' db₁ m' hcall haccepted hsettled hmonitor hturned =>
      exact Or.inl (interval_of_turned hturned)
  | patched params hcall haction hinterval =>
      have hassign : (patchAssign call.now params m).intervalMinutes =
          params.intervalMinutes.getD m.intervalMinutes := by
        unfold patchAssign
        cases params.action <;> rfl
      rw [hassign]
      cases hminutes : params.intervalMinutes with
      | none => exact Or.inl rfl
      | some minutes =>
          exact Or.inr ⟨params, hcall, minutes, hminutes, rfl, hinterval minutes hminutes⟩

/-- The schema refuses a new monitor with a shorter interval. -/
theorem interval_of_created (hm' : m' ∈ (step db call).monitors) (h : CreatedBy db call m') :
    1 ≤ m'.intervalMinutes := by
  obtain ⟨id, params, hcall, rfl, hnone⟩ := h
  have hnew : newMonitor call.now id params ∉ db.monitors := fun hm =>
    hnone (Database.hasMonitor_iff.mpr ⟨_, hm, rfl⟩)
  rcases step_cases db call with h | h | ⟨limit, locked, count, hother, -⟩ |
      ⟨runningStaleAfter, maxAttempts, limit, locked, recoveries, hother, -⟩ |
      ⟨store, id, result, e, e', db₁, hother, -⟩
  · rw [h] at hm'
    exact absurd hm' hnew
  · generalize step db call = db' at h hm'
    cases h with
    | created monitorId executionId params' monitors' db' hcall' hinterval hmonitor henqueued =>
        rw [henqueued.monitors] at hm'
        rcases hmonitor.mem_iff.mp hm' with hold | hsame
        · exact absurd hold hnew
        · rw [hsame]
          exact hinterval
    | claimed _ _ _ _ _ hother | renewed _ _ _ _ hother
    | checkQueued _ _ _ _ _ _ hother | dueQueued _ _ _ _ _ _ hother | confirmed _ _ _ hother
    | patched _ _ hother | accepted _ _ hother | rejected _ _ hother
    | terminalized _ _ _ _ _ _ _ hother | replaced _ _ _ _ _ _ _ _ hother
    | published _ _ _ _ _ hother =>
        simp [hcall] at hother
  all_goals simp [hcall] at hother

theorem intervals_of_reachable {db : Database} (h : StoreReachable db) : Intervals db := by
  refine Reachable.invariant (fun m hm => absurd hm (Table.not_mem_empty m)) ?_ h
  intro s call _ hs m' hm'
  rcases rewritten_of_step hm' with hcreated | ⟨m, hm, hrewritten⟩
  · exact interval_of_created hm' hcreated
  · rcases interval_of_rewritten hrewritten with hsame | ⟨-, -, minutes, -, hsame, hpositive⟩
    · rw [hsame]
      exact hs m hm
    · rw [hsame]
      exact hpositive

theorem step_claimDueMonitors {limit : Nat} {locked : UUID → Bool} (db : Database)
    (hcall : call.operation = .claimDueMonitors limit locked) :
    step db call = db ∨
      Passed call.now (claimed call.now limit locked db) db (step db call) := by
  have hstep : step db call = commit (claimDueMonitors call.now limit locked) db := by
    simp only [step, hcall]
  rw [hstep]
  rcases commit_cases (claimDueMonitors call.now limit locked) db with hsame | ⟨count, hok⟩
  · exact Or.inl hsame
  · exact Or.inr (passed_of_claimDueMonitors hok).2

end Steps

section Spacing

variable {db db' : Database} {call : Call} {id : UUID} {t : Timestamp}

/-- The step is a pass of the scheduler that starts a check of the monitor. -/
structure Schedules (id : UUID) (call : Call) (db db' : Database) : Prop where
  pass : ∃ limit locked, call.operation = .claimDueMonitors limit locked
  check : ∃ e ∈ db'.executions, ¬ db.hasExecution e.id ∧ e.monitorId = id

/-- The call asks for the monitor to be checked at once. -/
def Resumes (id : UUID) (call : Call) : Prop :=
  ∃ params, call.operation = .patchMonitor id params ∧ params.action = .resume

/-- The monitor does not run before `t`. -/
def RestsUntil (id : UUID) (t : Timestamp) (db : Database) : Prop :=
  ∀ m ∈ db.monitors, m.id = id → ∀ s, m.nextRunAt = some s → t ≤ s

/-- A pass starts checks of the monitors it claims only. -/
theorem Schedules.claimed (h : Schedules id call db (step db call)) :
    ∃ monitors, Passed call.now monitors db (step db call) ∧
      ∃ m ∈ monitors, m.id = id ∧ m ∈ db.monitors ∧ ∃ s, m.nextRunAt = some s ∧ s ≤ call.now := by
  obtain ⟨limit, locked, hcall⟩ := h.pass
  obtain ⟨e, he, hnew, hid⟩ := h.check
  rcases step_claimDueMonitors db hcall with hstep | hpassed
  · rw [hstep] at he
    exact absurd (Database.hasExecution_iff.mpr ⟨e, he, rfl⟩) hnew
  · refine ⟨_, hpassed, ?_⟩
    obtain ⟨checks, messages, hexecutions, -, hchecks, -⟩ := hpassed.started
    rw [Table.mem_def, hexecutions] at he
    rcases List.mem_append.mp he with hold | he
    · exact absurd (Database.hasExecution_iff.mpr ⟨e, hold, rfl⟩) hnew
    · obtain ⟨m, hm, executionId, r, -, -, rfl⟩ := exists_left_of_mem hchecks he
      obtain ⟨hmem, hdue, -⟩ := claimable_of_mem_claimed hm
      exact ⟨m, hm, hid, hmem, (due_iff.mp hdue).2.2.1⟩

/-- A monitor whose check is started rests for its interval. -/
theorem restsUntil_of_schedules {interval : Int}
    (hinterval : ∀ m ∈ db.monitors, m.id = id → interval ≤ m.intervalMinutes)
    (h : Schedules id call db (step db call)) :
    RestsUntil id (call.now + 60 * interval) (step db call) := by
  obtain ⟨monitors, hpassed, m, hm, rfl, -⟩ := h.claimed
  intro u hu hid s hs
  rw [Table.mem_def, hpassed.schedule] at hu
  obtain ⟨v, hv, rfl⟩ := List.mem_map.mp hu
  have hsame : v.id = m.id := by
    split at hid <;> exact hid
  rw [if_pos (hsame ▸ List.mem_map_of_mem hm)] at hs
  have hle := hinterval v hv hsame
  obtain rfl : call.now + 60 * v.intervalMinutes = s := Option.some.inj hs
  unfold Timestamp at *
  omega

/-- Whatever is done to it afterwards, short of resuming it, it rests until then. -/
theorem RestsUntil.step {since : Timestamp} {interval : Int} (hclock : since ≤ call.now)
    (hinterval : ∀ m ∈ db.monitors, m.id = id → interval ≤ m.intervalMinutes)
    (hresumes : ¬ Resumes id call) (h : RestsUntil id (since + 60 * interval) db) :
    RestsUntil id (since + 60 * interval) (Operations.step db call) := by
  intro m' hm' hid s hs
  rcases (moved_step db call).backward m' hm' with ⟨m, hm, hsame, hmoved⟩ | hnew
  · have hmid : m.id = id := hsame.symm.trans hid
    cases hmoved with
    | held hheld =>
        rcases hheld with hkept | hnone
        · exact h m hm hmid s (hkept ▸ hs)
        · simp [hnone] at hs
    | spaced hspaced =>
        obtain rfl : call.now + 60 * m.intervalMinutes = s := Option.some.inj (hspaced ▸ hs)
        have hle := hinterval m hm hmid
        unfold Timestamp at *
        omega
    | resumed params hcall haction hnow => exact absurd ⟨params, hmid ▸ hcall, haction⟩ hresumes
  · simp [show m'.nextRunAt = none from hnew] at hs

end Spacing

/-- Scheduled checks of a monitor are a whole interval apart, unless the operator
resumes it in between. -/
theorem scheduled_checks_are_spaced {calls : List Call} {i j : Nat} {id : UUID} {interval : Int}
    (hij : i < j) (hj : j < calls.length)
    (hfirst : Schedules id calls[i] (stateAt step Database.empty calls i)
      (stateAt step Database.empty calls (i + 1)))
    (hsecond : Schedules id calls[j] (stateAt step Database.empty calls j)
      (stateAt step Database.empty calls (j + 1)))
    (hclock : ∀ k (hk : k < calls.length), i < k → k < j → calls[i].now ≤ calls[k].now)
    (hresumes : ∀ k (hk : k < calls.length), i < k → k < j → ¬ Resumes id calls[k])
    (hinterval : ∀ k, i ≤ k → k < j → ∀ m ∈ (stateAt step Database.empty calls k).monitors,
      m.id = id → interval ≤ m.intervalMinutes) :
    calls[i].now + 60 * interval ≤ calls[j].now := by
  rw [stateAt_succ (hij.trans hj)] at hfirst
  rw [stateAt_succ hj] at hsecond
  have hrests : ∀ k, i + 1 ≤ k → k ≤ j →
      RestsUntil id (calls[i].now + 60 * interval) (stateAt step Database.empty calls k) := by
    intro k hik
    induction k, hik using Nat.le_induction with
    | base =>
        intro _
        rw [stateAt_succ (hij.trans hj)]
        exact restsUntil_of_schedules (hinterval i le_rfl hij) hfirst
    | succ k hik ih =>
        intro hkj
        rw [stateAt_succ (by omega)]
        exact (ih (by omega)).step (hclock k (by omega) (by omega) (by omega))
          (hinterval k (by omega) (by omega)) (hresumes k (by omega) (by omega) (by omega))
  obtain ⟨monitors, -, m, -, hid, hm, s, hs, hdue⟩ := hsecond.claimed
  exact (hrests j hij le_rfl m hm hid s hs).trans hdue

/-- A monitor is checked on schedule, an hour apart. -/
def hourly : List Call :=
  [⟨0, .createMonitor ⟨"https://shop.example/item", "price of the item", 60, ""⟩⟩,
   ⟨1, .applyResult (openStore [] 3) ⟨2⟩
     { ExecutionResult.bare "succeeded" "" with plan := some (.obj []) }⟩,
   ⟨2, .confirmMonitor ⟨1⟩ ⟨⟨3⟩, some (.obj [("priceBelowMinor", .int 400),
     ("currency", .str "USD"), ("requireInStock", .bool true)])⟩⟩,
   ⟨4000, .claimDueMonitors 1 fun _ => false⟩,
   ⟨4001, .applyResult (openStore [] 3) ⟨4⟩ fiveDollars⟩,
   ⟨7600, .claimDueMonitors 1 fun _ => false⟩]

theorem scheduled_checks_are_spaced_hourly : hourly[3].now + 60 * 60 ≤ hourly[5].now := by
  have hfirst : Schedules ⟨1⟩ hourly[3] (stateAt step Database.empty hourly 3)
      (stateAt step Database.empty hourly 4) := by
    refine ⟨⟨1, fun _ => false, rfl⟩, ?_⟩
    decide +kernel
  have hsecond : Schedules ⟨1⟩ hourly[5] (stateAt step Database.empty hourly 5)
      (stateAt step Database.empty hourly 6) := by
    refine ⟨⟨1, fun _ => false, rfl⟩, ?_⟩
    decide +kernel
  refine scheduled_checks_are_spaced (by decide) (by decide) hfirst hsecond ?_ ?_ ?_
  · intro k hk hik hkj
    obtain rfl : k = 4 := by omega
    exact (by decide : (4000 : Timestamp) ≤ 4001)
  · rintro k hk hik hkj ⟨params, hcall, -⟩
    obtain rfl : k = 4 := by omega
    cases hcall
  · intro k hik hkj
    obtain rfl | rfl : k = 3 ∨ k = 4 := by omega
    · decide +kernel
    · decide +kernel

end PriceScout.Store.NextRuns
