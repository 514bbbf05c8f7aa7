import PriceScout.Library.Progress
import PriceScout.Store.NextRuns

/-!
Every due monitor has its turn. Passes claim the monitors that have been due the
longest, and a monitor that is claimed falls behind all that are waiting.
-/

namespace PriceScout.Store.Fairness

open PriceScout.Domain
open PriceScout.Library.JsonDocuments
open PriceScout.Library.Progress
open PriceScout.Library.Runs
open PriceScout.Library.Selections
open PriceScout.Library.Tables
open PriceScout.Store.Alerts
open PriceScout.Store.ClaimPasses
open PriceScout.Store.Constraints
open PriceScout.Store.Effects
open PriceScout.Store.Executions
open PriceScout.Store.Inversions
open PriceScout.Store.Monitors
open PriceScout.Store.NextRuns
open PriceScout.Store.Operations
open PriceScout.Store.Recovery
open PriceScout.Store.Schema
open PriceScout.Store.Serialization
open PriceScout.Store.Transitions

/-- The monitor is waiting for the check that was due at `t`. -/
structure Waiting (id : UUID) (t : Timestamp) (db : Database) : Prop where
  monitor : ∃ m ∈ db.monitors, m.id = id ∧ m.status = .active ∧
    m.currentRevisionId.isSome = true ∧ m.nextRunAt = some t
  idle : Idle db id

/-- The monitors whose next run is no later than `t`. -/
def ahead (t : Timestamp) (db : Database) : Nat :=
  db.monitors.count fun m => m.nextRunAt.any (· ≤ t)

/-- The call is a decision of the operator on the monitor. -/
def Decides (id : UUID) (call : Call) : Prop :=
  match call.operation with
  | .confirmMonitor monitorId _ | .patchMonitor monitorId _ | .reviewRevision monitorId _ _ =>
      monitorId = id
  | _ => False

/-- The call is a pass that may claim `limit` monitors and does not find this one locked. -/
def reaches (id : UUID) (limit : Nat) (call : Call) : Bool :=
  match call.operation with
  | .claimDueMonitors limit' locked => decide (limit' = limit) && !locked id
  | _ => false

/-- The step starts a check of the monitor, in a scheduler pass or at the
operator's request. -/
structure Starts (id : UUID) (call : Call) (db db' : Database) : Prop where
  check : ∃ e ∈ db'.executions, ¬ db.hasExecution e.id ∧ e.monitorId = id ∧ e.kind = .check ∧
    e.recoveryOf = none ∧ e.state = .queued
  asked : (∃ limit locked, call.operation = .claimDueMonitors limit locked) ∨
    ∃ idempotencyKey traceparent, call.operation = .enqueueCheck id idempotencyKey traceparent

section Steps

variable {db db' db₁ : Database} {call : Call} {id : UUID} {t : Timestamp} {e e' n : Execution}

theorem ne_of_inFlight (hidle : Idle db id) (he : e ∈ db.executions) (hflight : e.inFlight = true) :
    e.monitorId ≠ id := fun hmonitor => by
  simp [hidle e he hmonitor] at hflight

theorem idle_substituted (hidle : Idle db id)
    (hsubstituted : db.executions.Substituted e e' db'.executions) (hmonitor : e'.monitorId ≠ id) :
    Idle db' id := by
  intro s hs hid
  rcases hsubstituted.mem_cases hs with ⟨hs, -⟩ | rfl
  · exact hidle s hs hid
  · exact absurd hid hmonitor

theorem idle_appended (hidle : Idle db id) (happended : db.executions.Appended n db'.executions)
    (hmonitor : n.monitorId ≠ id) : Idle db' id :=
  Table.forall_appended happended hidle fun hid => absurd hid hmonitor

theorem idle_congr (hidle : Idle db id) (h : db'.executions = db.executions) : Idle db' id := by
  unfold Idle
  rw [h]
  exact hidle

theorem idle_retired (hidle : Idle db id) (h : Retired db e e' db') : Idle db' id := by
  refine idle_substituted hidle h.substituted ?_
  rw [h.sameJob.monitorId]
  exact ne_of_inFlight hidle h.mem h.inFlight

theorem idle_replaced {now : Timestamp} (hidle : Idle db id) (hmonitor : e.monitorId ≠ id)
    (h : Replaced now db e db') : Idle db' id := by
  cases h with
  | enqueued newId db' hkind henqueued => exact idle_appended hidle henqueued.appended hmonitor
  | repointed newId db' a hkind hmem hexecution henqueued =>
      exact idle_appended hidle henqueued.appended hmonitor

/-- What follows an execution of another monitor is of another monitor. -/
theorem idle_followed {now : Timestamp} (hidle : Idle db id) (hmonitor : e.monitorId ≠ id)
    (h : FollowedIn now e db db') : Idle db' id := by
  rcases h with hsame | ⟨n, hfollows, -, happended⟩
  · exact idle_congr hidle hsame
  · exact idle_appended hidle happended (hfollows.monitorId ▸ hmonitor)

/-- An effect other than a claim leaves the monitor idle or starts the check that was asked for. -/
theorem idle_effect (hidle : Idle db id) (hmonitor : db.hasMonitor id) (h : Effect call db db')
    (hclaim : ∀ limit locked, call.operation ≠ .claimDueMonitors limit locked) :
    Idle db' id ∨ Starts id call db db' := by
  cases h with
  | created monitorId executionId params monitors' db' hcall hinterval happended henqueued =>
      obtain ⟨m, hm, rfl⟩ := Database.hasMonitor_iff.mp hmonitor
      exact Or.inl (idle_appended hidle henqueued.appended (happended.key_ne hm).symm)
  | claimed e e' executions' repairAttempts' hqueued hcall he' hexecution hattempts =>
      have hflight : e.inFlight = true := by
        simp [Execution.inFlight, hqueued, ExecutionState.inFlight]
      have hne : e.monitorId ≠ id := ne_of_inFlight hidle hexecution.mem hflight
      subst he'
      exact Or.inl (idle_substituted hidle hexecution hne)
  | renewed e e' executions' hrunning hcall he' hexecution =>
      have hflight : e.inFlight = true := by
        simp [Execution.inFlight, hrunning, ExecutionState.inFlight]
      have hne : e.monitorId ≠ id := ne_of_inFlight hidle hexecution.mem hflight
      subst he'
      exact Or.inl (idle_substituted hidle hexecution hne)
  | checkQueued executionId m r idempotencyKey traceparent db' hcall hnew hadmitting henqueued =>
      by_cases hid : m.id = id
      · subst hid
        refine Or.inr ⟨⟨_, henqueued.appended.mem, fun hold => ?_, rfl, rfl, rfl, rfl⟩,
          Or.inr ⟨idempotencyKey, traceparent, hcall⟩⟩
        obtain ⟨s, hs, hsame⟩ := Database.hasExecution_iff.mp hold
        exact henqueued.appended.key_ne hs hsame
      · exact Or.inl (idle_appended hidle henqueued.appended hid)
  | dueQueued _ _ _ limit locked _ hcall => exact absurd hcall (hclaim limit locked)
  | confirmed | patched | accepted | rejected | published => exact Or.inl (idle_congr hidle rfl)
  | terminalized e e' db₁ _ _ _ _ hcall hattempts hretired =>
      exact Or.inl (idle_congr (idle_retired hidle hretired)
        (terminalizeStaleExecution_executions _ _ _ _))
  | replaced e e' db₁ db' _ _ _ _ hcall hattempts hretired hrunning hfailed hreplaced =>
      exact Or.inl (idle_replaced (idle_retired hidle hretired)
        (ne_of_inFlight hidle hretired.mem hretired.inFlight) hreplaced)

/-- A sweep recovers executions of other monitors. -/
theorem idle_sweep {runningStaleAfter : Timestamp} {maxAttempts limit : Nat} {locked : UUID → Bool}
    (hcall : call.operation = .sweepStaleExecutions runningStaleAfter maxAttempts limit locked)
    (hidle : Idle db id) (h : Relation.ReflTransGen (Effect call) db db') : Idle db' id := by
  induction h with
  | refl => exact hidle
  | tail _ hlast ih =>
      cases hlast with
      | terminalized e e' db₁ _ _ _ _ _ hattempts hretired =>
          exact idle_congr (idle_retired ih hretired)
            (terminalizeStaleExecution_executions _ _ _ _)
      | replaced e e' db₁ db' _ _ _ _ _ hattempts hretired hrunning hfailed hreplaced =>
          exact idle_replaced (idle_retired ih hretired)
            (ne_of_inFlight ih hretired.mem hretired.inFlight) hreplaced
      | created _ _ _ _ _ hother | claimed _ _ _ _ _ hother | renewed _ _ _ _ hother
      | checkQueued _ _ _ _ _ _ hother | dueQueued _ _ _ _ _ _ hother | confirmed _ _ _ hother
      | patched _ _ hother | accepted _ _ hother | rejected _ _ hother
      | published _ _ _ _ _ hother =>
          simp [hcall] at hother

/-- A result that is accepted is one of another monitor. -/
theorem idle_settled {now : Timestamp} {store : OpenStore} {executionId : UUID}
    {result : ExecutionResult} (hidle : Idle db id)
    (h : Settled store now executionId result db e e' db₁ db') : Idle db' id :=
  idle_followed (idle_retired hidle h.retired)
    (ne_of_inFlight hidle h.retired.mem h.retired.inFlight) h.outcome.followedIn

theorem mem_started {checks : List Execution}
    (h : db'.executions.rows = db.executions.rows ++ checks) (hn : n ∈ checks) :
    n ∈ db'.executions := by
  rw [Table.mem_def, h]
  exact List.mem_append_right _ hn

theorem not_hasExecution {checks : List Execution}
    (h : db'.executions.rows = db.executions.rows ++ checks) (hn : n ∈ checks) :
    ¬ db.hasExecution n.id := by
  intro hold
  obtain ⟨s, hs, hid⟩ := Database.hasExecution_iff.mp hold
  have hnodup := db'.executions.nodup
  rw [h, List.map_append, List.nodup_append] at hnodup
  exact hnodup.2.2 _ (List.mem_map_of_mem hs) _ (List.mem_map_of_mem hn) hid

/-- A pass starts a check of each monitor it claims, and of no other. -/
theorem idle_passed {limit : Nat} {locked : UUID → Bool} {monitors : List Monitor}
    (hcall : call.operation = .claimDueMonitors limit locked) (hidle : Idle db id)
    (h : Passed call.now monitors db db') :
    Idle db' id ∧ id ∉ monitors.map Monitor.id ∨ Starts id call db db' := by
  obtain ⟨checks, messages, hexecutions, -, hchecks, -⟩ := h.started
  by_cases hclaimed : id ∈ monitors.map Monitor.id
  · obtain ⟨m, hm, rfl⟩ := List.mem_map.mp hclaimed
    obtain ⟨n, hn, executionId, r, hr, hcurrent, rfl⟩ := exists_right_of_mem hchecks hm
    refine Or.inr ⟨⟨_, mem_started hexecutions hn, not_hasExecution hexecutions hn, rfl, rfl,
      rfl, rfl⟩, Or.inl ⟨limit, locked, hcall⟩⟩
  · refine Or.inl ⟨fun s hs hid => ?_, hclaimed⟩
    rw [Table.mem_def, hexecutions] at hs
    rcases List.mem_append.mp hs with hs | hs
    · exact hidle s hs hid
    · obtain ⟨m, hm, executionId, r, -, -, rfl⟩ := exists_left_of_mem hchecks hs
      exact absurd (List.mem_map.mpr ⟨m, hm, hid⟩) hclaimed

/-- While the operator makes no decision on it, the row of an idle monitor is only
changed by a pass. -/
theorem mem_step_of_idle {m : Monitor} (hidle : Idle db id) (hm : m ∈ db.monitors)
    (hid : m.id = id) (hundecided : ¬ Decides id call)
    (hclaim : ∀ limit locked, call.operation ≠ .claimDueMonitors limit locked) :
    m ∈ (step db call).monitors := by
  obtain ⟨m', hm', hsame, -⟩ := (Persistence.Persists.step db call).monitors m hm
  have hkept : m' = m := by
    cases rewritten_of_mem hm hm' hsame with
    | kept => rfl
    | rescheduled limit locked _ _ hcall => exact absurd hcall (hclaim limit locked)
    | confirmed r condition hcall => exact absurd (by simp [Decides, hcall, hid]) hundecided
    | patched params hcall => exact absurd (by simp [Decides, hcall, hid]) hundecided
    | accepted r hcall | rejected r hcall =>
        exact absurd (by simp [Decides, hcall, hid]) hundecided
    | abandoned e _ _ _ _ _ _ hcall hstale hmonitor =>
        obtain ⟨he, hrunning⟩ := (staleItems_staleExecutions db _ _ _ _).running e hstale
        refine absurd (hmonitor.trans hid) (ne_of_inFlight hidle he ?_)
        simp [Execution.inFlight, hrunning, ExecutionState.inFlight]
    | settled store executionId result e e' db₁ m' hcall haccepted hsettled hmonitor hturned =>
        exact absurd (hmonitor.trans hid)
          (ne_of_inFlight hidle hsettled.retired.mem hsettled.retired.inFlight)
  exact hkept ▸ hm'

/-- In a sound state a pass runs to its end. -/
theorem passed_of_sound {limit : Nat} {locked : UUID → Bool} (hsound : Sound db)
    (hcall : call.operation = .claimDueMonitors limit locked) :
    Passed call.now (claimed call.now limit locked db) db (step db call) := by
  have hsucceeds : ∃ answer, claimDueMonitors call.now limit locked db = .ok answer :=
    exists_ok_of_avoids (avoids_scheduling hsound)
  obtain ⟨⟨count, db'⟩, hok⟩ := hsucceeds
  have hstep : step db call = db' := by
    simp only [step, hcall, commit_of_ok hok]
  rw [hstep]
  exact (passed_of_claimDueMonitors hok).2

/-- Until a check is started, a waiting monitor goes on waiting. -/
theorem Waiting.step (h : Waiting id t db) (hundecided : ¬ Decides id call) :
    Waiting id t (step db call) ∨ Starts id call db (step db call) := by
  obtain ⟨m, hm, hid, hrest⟩ := h.monitor
  have hmonitor : db.hasMonitor id := Database.hasMonitor_iff.mpr ⟨m, hm, hid⟩
  have waits : (∀ limit locked, call.operation ≠ .claimDueMonitors limit locked) →
      Idle (Operations.step db call) id → Waiting id t (Operations.step db call) :=
    fun hclaim hidle => ⟨⟨m, mem_step_of_idle h.idle hm hid hundecided hclaim, hid, hrest⟩, hidle⟩
  by_cases hclaim : ∃ limit locked, call.operation = .claimDueMonitors limit locked
  · obtain ⟨limit, locked, hcall⟩ := hclaim
    rcases step_claimDueMonitors db hcall with hstep | hpassed
    · rw [hstep]
      exact Or.inl h
    · refine (idle_passed hcall h.idle hpassed).imp_left fun hidle => ?_
      refine ⟨⟨m, ?_, hid, hrest⟩, hidle.1⟩
      rw [Table.mem_def, hpassed.schedule]
      exact List.mem_map.mpr ⟨m, hm, if_neg (hid ▸ hidle.2)⟩
  · push Not at hclaim
    rcases step_cases db call with hstep | hstep | ⟨limit, locked, count, hcall, hstep⟩ |
        ⟨runningStaleAfter, maxAttempts, limit, locked, recoveries, hcall, hstep⟩ |
        ⟨store, executionId, result, e, e', db₁, hcall, -, hstep⟩
    · rw [hstep]
      exact Or.inl h
    · exact (idle_effect h.idle hmonitor hstep hclaim).imp_left (waits hclaim)
    · exact absurd hcall (hclaim limit locked)
    · have heffects := sweepStaleExecutions_ok hstep
      rw [← hcall] at heffects
      exact Or.inl (waits hclaim (idle_sweep hcall h.idle heffects))
    · exact Or.inl (waits hclaim (idle_settled h.idle hstep))

end Steps

section Measure

variable {id : UUID} {t : Timestamp} {db : Database} {call : Call} {limit : Nat} {m' : Monitor}

/-- A monitor that is ahead after a step was ahead before it. -/
theorem ahead_of_step (hintervals : Intervals db) (hclock : t < call.now)
    (hm' : m' ∈ (step db call).monitors) (hahead : m'.nextRunAt.any (· ≤ t) = true) :
    ∃ m ∈ db.monitors, m.id = m'.id ∧ m.nextRunAt.any (· ≤ t) = true := by
  rcases (moved_step db call).backward m' hm' with ⟨m, hm, hid, hmoved⟩ | hnew
  · refine ⟨m, hm, hid.symm, ?_⟩
    cases hmoved with
    | held hheld =>
        rcases hheld with hsame | hnone
        · rwa [← hsame]
        · simp [hnone] at hahead
    | spaced hspaced =>
        have hinterval := hintervals m hm
        have hle : call.now + 60 * m.intervalMinutes ≤ t := by simpa [hspaced] using hahead
        unfold Timestamp at *
        omega
    | resumed params hcall haction hnow =>
        have hle : call.now ≤ t := by simpa [hnow] using hahead
        exact absurd hclock (not_lt_of_ge hle)
  · simp [show m'.nextRunAt = none from hnew] at hahead

/-- No monitor joins those that are ahead. -/
theorem ahead_step_le (hintervals : Intervals db) (hclock : t < call.now) :
    ahead t (step db call) ≤ ahead t db := by
  have hle : ahead t (step db call) + ([] : List Monitor).length ≤ ahead t db := by
    refine count_add_length_le List.nodup_nil (by simp) fun m' hm' hahead => ?_
    obtain ⟨m, hm, hid, hbefore⟩ := ahead_of_step hintervals hclock hm' hahead
    exact ⟨m, hm, hid, hbefore, List.not_mem_nil⟩
  exact hle

/-- A pass that leaves a waiting monitor out claims as many as it may of those ahead. -/
theorem ahead_step_add_le (hsound : Sound db) (hintervals : Intervals db) (hclock : t < call.now)
    (hreaches : reaches id limit call = true) (h : Waiting id t db)
    (hnot : ¬ Starts id call db (step db call)) :
    ahead t (step db call) + limit ≤ ahead t db := by
  obtain ⟨m, hm, hid, hactive, hcurrent, hnext⟩ := h.monitor
  obtain ⟨locked, hcall, hfree⟩ : ∃ locked, call.operation = .claimDueMonitors limit locked ∧
      locked id = false := by
    unfold reaches at hreaches
    split at hreaches
    · rename_i limit' locked hcall
      simp only [Bool.and_eq_true, decide_eq_true_eq, Bool.not_eq_true'] at hreaches
      obtain ⟨rfl, hfree⟩ := hreaches
      exact ⟨locked, hcall, hfree⟩
    · cases hreaches
  have hpassed := passed_of_sound hsound hcall
  let monitors := claimed call.now limit locked db
  have hclaimable : m ∈ db.monitors.rows.filter (claimable call.now locked db) := by
    refine mem_claimable_iff.mpr ⟨hm, due_iff.mpr ⟨hactive, hcurrent, ⟨t, hnext, hclock.le⟩, ?_⟩,
      hid ▸ hfree⟩
    intro e he
    by_cases hmonitor : e.monitorId = m.id
    · simp [inFlightOf, h.idle e he (hmonitor.trans hid)]
    · simp [inFlightOf, hmonitor]
  have hout : m ∉ monitors := by
    intro hmem
    rcases idle_passed hcall h.idle hpassed with ⟨-, hothers⟩ | hstarts
    · exact hothers (List.mem_map.mpr ⟨m, hmem, hid⟩)
    · exact hnot hstarts
  rw [← length_of_not_mem hclaimable hout]
  refine count_add_length_le nodup_claimed (fun c hc => ⟨(claimable_of_mem_claimed hc).1, ?_⟩) ?_
  · -- what the pass takes has been due no shorter than what it leaves out
    obtain ⟨-, -, ⟨s, hs, -⟩, -⟩ := due_iff.mp (claimable_of_mem_claimed hc).2.1
    have hle := le_of_not_mem hclaimable hout hc
    simpa [hs, hnext] using hle
  · intro m' hm' hahead
    rw [Table.mem_def, hpassed.schedule] at hm'
    obtain ⟨u, hu, rfl⟩ := List.mem_map.mp hm'
    split at hahead
    · -- a monitor that has been claimed is no longer ahead
      have hinterval := hintervals u hu
      have hle : call.now + 60 * u.intervalMinutes ≤ t := by simpa [rescheduled] using hahead
      unfold Timestamp at *
      omega
    · rename_i hkept
      rw [if_neg hkept]
      exact ⟨u, hu, rfl, hahead, fun hmem => hkept (List.mem_map_of_mem hmem)⟩

end Measure

/-- The run starts no check of the monitor before the state number `j`, from `i` on. -/
def NoneStarted (calls : List Call) (id : UUID) (i j : Nat) : Prop :=
  ∀ k (hk : k < calls.length), i ≤ k → k < j →
    ¬ Starts id calls[k] (stateAt step Database.empty calls k)
      (stateAt step Database.empty calls (k + 1))

/-- As long as no check is started, the monitor waits. -/
theorem waiting_of_noneStarted {calls : List Call} {i j : Nat} {id : UUID} {t : Timestamp}
    (hij : i ≤ j) (hj : j ≤ calls.length)
    (hwaiting : Waiting id t (stateAt step Database.empty calls i))
    (hundecided : ∀ k (hk : k < calls.length), i ≤ k → k < j → ¬ Decides id calls[k])
    (hnone : NoneStarted calls id i j) : Waiting id t (stateAt step Database.empty calls j) := by
  induction j, hij using Nat.le_induction with
  | base => exact hwaiting
  | succ j hij ih =>
      have hbefore := ih (by omega) (fun k hk hik hkj => hundecided k hk hik (by omega))
        fun k hk hik hkj => hnone k hk hik (by omega)
      have hstep := hbefore.step (hundecided j (by omega) hij (by omega))
      have hlast := hnone j (by omega) hij (by omega)
      rw [stateAt_succ (by omega)] at hlast ⊢
      exact hstep.resolve_right hlast

/-- No due monitor is starved. A monitor that waits for a check gets one as soon as
the passes that do not find it locked could have claimed every monitor that was
due before it, whatever else the store does in between, unless the operator
decides on the monitor. -/
theorem no_monitor_is_starved {calls : List Call} {i j : Nat} {id : UUID} {t : Timestamp}
    {limit : Nat} (hij : i ≤ j) (hj : j ≤ calls.length)
    (hwaiting : Waiting id t (stateAt step Database.empty calls i))
    (hclock : ∀ k (hk : k < calls.length), i ≤ k → k < j → t < calls[k].now)
    (hundecided : ∀ k (hk : k < calls.length), i ≤ k → k < j → ¬ Decides id calls[k])
    (hpasses : ahead t (stateAt step Database.empty calls i) ≤
      limit * passes (reaches id limit) calls i j) :
    ∃ k, ∃ hk : k < calls.length, i ≤ k ∧ k < j ∧
      Starts id calls[k] (stateAt step Database.empty calls k)
        (stateAt step Database.empty calls (k + 1)) := by
  by_contra hnever
  push Not at hnever
  have hnone : NoneStarted calls id i j := hnever
  have hwaits : ∀ k, i ≤ k → k ≤ j → Waiting id t (stateAt step Database.empty calls k) :=
    fun k hik hkj => waiting_of_noneStarted hik (hkj.trans hj) hwaiting
      (fun l hl hil hlk => hundecided l hl hil (by omega))
      fun l hl hil hlk => hnone l hl hil (by omega)
  have hbound : ahead t (stateAt step Database.empty calls j) +
      limit * passes (reaches id limit) calls i j ≤
        ahead t (stateAt step Database.empty calls i) := by
    refine measure_add_passes_le hij hj fun k hk hik hkj => ?_
    have hreachable : StoreReachable (stateAt step Database.empty calls k) :=
      reachable_stateAt calls k
    have hnot := hnone k hk hik hkj
    rw [stateAt_succ hk] at hnot ⊢
    split
    · rename_i hreaches
      exact ahead_step_add_le (sound_of_reachable hreachable) (intervals_of_reachable hreachable)
        (hclock k hk hik hkj) hreaches (hwaits k hik hkj.le) hnot
    · exact ahead_step_le (intervals_of_reachable hreachable) (hclock k hk hik hkj)
  obtain ⟨m, hm, -, -, -, hnext⟩ := (hwaits j hij le_rfl).monitor
  have hself : ahead t (stateAt step Database.empty calls j) ≠ 0 := by
    intro hzero
    simpa [hnext] using Table.count_eq_zero_iff.mp hzero m hm
  omega

/-- Two monitors come due, and each pass claims one. -/
def dueInTurn : List Call :=
  [⟨0, .createMonitor ⟨"https://shop.example/item", "price of the item", 60, ""⟩⟩,
   ⟨0, .createMonitor ⟨"https://shop.example/part", "price of the part", 60, ""⟩⟩,
   ⟨1, .applyResult (openStore [] 3) ⟨2⟩
     { ExecutionResult.bare "succeeded" "" with plan := some (.obj []) }⟩,
   ⟨1, .applyResult (openStore [] 3) ⟨4⟩
     { ExecutionResult.bare "succeeded" "" with plan := some (.obj []) }⟩,
   ⟨2, .confirmMonitor ⟨1⟩ ⟨⟨5⟩, some (.obj [("priceBelowMinor", .int 1000),
     ("currency", .str "USD"), ("requireInStock", .bool true)])⟩⟩,
   ⟨3, .confirmMonitor ⟨3⟩ ⟨⟨6⟩, some (.obj [("priceBelowMinor", .int 1000),
     ("currency", .str "USD"), ("requireInStock", .bool true)])⟩⟩,
   ⟨4000, .claimDueMonitors 1 fun _ => false⟩,
   ⟨4060, .claimDueMonitors 1 fun _ => false⟩]

theorem waiting_dueInTurn : Waiting ⟨3⟩ 3603 (stateAt step Database.empty dueInTurn 6) := by
  refine ⟨by decide +kernel, idle_of_inFlightOf ?_⟩
  decide +kernel

theorem no_monitor_is_starved_dueInTurn : ∃ k, ∃ hk : k < dueInTurn.length, 6 ≤ k ∧ k < 8 ∧
    Starts ⟨3⟩ dueInTurn[k] (stateAt step Database.empty dueInTurn k)
      (stateAt step Database.empty dueInTurn (k + 1)) := by
  have hpasses : ahead 3603 (stateAt step Database.empty dueInTurn 6) ≤
      1 * passes (reaches ⟨3⟩ 1) dueInTurn 6 8 := by
    decide +kernel
  refine no_monitor_is_starved (by decide) (by decide) waiting_dueInTurn ?_ ?_ hpasses
  · intro k hk hik hkj
    obtain rfl | rfl : k = 6 ∨ k = 7 := by omega
    · exact (by decide : (3603 : Timestamp) < 4000)
    · exact (by decide : (3603 : Timestamp) < 4060)
  · intro k hk hik hkj
    obtain rfl | rfl : k = 6 ∨ k = 7 := by omega
    · exact not_false
    · exact not_false

end PriceScout.Store.Fairness
