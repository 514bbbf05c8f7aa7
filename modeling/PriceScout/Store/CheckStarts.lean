import PriceScout.Store.Transitions

/-!
Checks start on active monitors, as long as every match that asks for a
confirmation is found while its monitor is active.
-/

namespace PriceScout.Store.CheckStarts

open PriceScout.Domain
open PriceScout.Library.JsonDocuments
open PriceScout.Library.Runs
open PriceScout.Library.Tables
open PriceScout.Store.Alerts
open PriceScout.Store.Effects
open PriceScout.Store.Executions
open PriceScout.Store.Inversions
open PriceScout.Store.Monitors
open PriceScout.Store.Operations
open PriceScout.Store.Recovery
open PriceScout.Store.Schema
open PriceScout.Store.Transitions

def Active (db : Database) (monitorId : UUID) : Prop :=
  ∃ m ∈ db.monitors, m.id = monitorId ∧ m.status = .active

instance (db : Database) (monitorId : UUID) : Decidable (Active db monitorId) :=
  inferInstanceAs (Decidable (∃ m ∈ db.monitors, m.id = monitorId ∧ m.status = .active))

/-- A check that does not recover another execution. -/
def isFreshCheck (e : Execution) : Bool :=
  decide (e.kind = .check) && e.recoveryOf.isNone

/-- Every fresh check that the step inserts belongs to a monitor that was active before it. -/
def ChecksStartActive (db : Database) (call : Call) : Prop :=
  ∀ n ∈ (step db call).executions, ¬ db.hasExecution n.id → isFreshCheck n = true →
    Active db n.monitorId

instance (db : Database) (call : Call) : Decidable (ChecksStartActive db call) :=
  inferInstanceAs (Decidable (∀ n ∈ (step db call).executions, _ → _ → _))

/-- An acceptable result of an ordinary check whose verified observation matches
the condition while the latch is not set finds its monitor active. -/
def ConfirmsActive (db : Database) (call : Call) : Prop :=
  ∀ store executionId result observation,
    call.operation = .applyResult store executionId result →
    ∀ e ∈ db.executions, e.id = executionId → e.inFlight = true → Acceptable e result →
      result.status = "succeeded" → e.kind = .check → executionIsAlertConfirmation e = false →
      result.observation = some observation →
      observationVerification observation = .ok .verified →
      ∀ m ∈ db.monitors, m.id = e.monitorId →
        observationMatched m.condition observation = true → m.conditionMatched = false →
        m.status = .active

theorem ConfirmsActive.of_operation {db : Database} {call : Call}
    (h : ∀ store executionId result, call.operation ≠ .applyResult store executionId result) :
    ConfirmsActive db call :=
  fun store executionId result _ hcall => absurd hcall (h store executionId result)

/-- Every execution of `s` is one of `db`, or no fresh check, or of an active monitor. -/
def StartedActive (db s : Database) : Prop :=
  ∀ n ∈ s.executions, db.hasExecution n.id ∨ (isFreshCheck n = true → Active db n.monitorId)

namespace StartedActive

variable {now : Timestamp} {db db₁ s s' : Database} {call : Call} {e e' n : Execution}

theorem refl (db : Database) : StartedActive db db :=
  fun n hn => Or.inl (Database.hasExecution_iff.mpr ⟨n, hn, rfl⟩)

theorem congr (h : StartedActive db s) (heq : s'.executions = s.executions) :
    StartedActive db s' := by
  rw [StartedActive, heq]
  exact h

theorem substituted (h : StartedActive db s)
    (hsubstituted : s.executions.Substituted e e' s'.executions) (hjob : SameJob e e') :
    StartedActive db s' := by
  intro n hn
  rcases hsubstituted.mem_cases hn with ⟨hn, -⟩ | rfl
  · exact h n hn
  · have hold := h e hsubstituted.mem
    simp only [isFreshCheck, hjob.id, hjob.kind, hjob.recoveryOf, hjob.monitorId]
    exact hold

theorem retired (h : StartedActive db s) (hretired : Retired s e e' s') : StartedActive db s' :=
  h.substituted hretired.substituted hretired.sameJob

theorem appended (h : StartedActive db s) (happended : s.executions.Appended n s'.executions)
    (hactive : isFreshCheck n = true → Active db n.monitorId) : StartedActive db s' :=
  Table.forall_appended happended h (Or.inr hactive)

theorem replaced (h : StartedActive db s) (hreplaced : Replaced now s e s') :
    StartedActive db s' := by
  cases hreplaced with
  | enqueued id s' hkind henqueued =>
      exact h.appended henqueued.appended (by simp [isFreshCheck, replacementExecution])
  | repointed id s' a hkind hmem hexecution henqueued =>
      exact h.appended henqueued.appended (by simp [isFreshCheck, replacementExecution])

theorem effect (h : Effect call db s) : StartedActive db s := by
  cases h with
  | created monitorId executionId params monitors' s hcall hinterval hmonitor henqueued =>
      exact (refl db).appended henqueued.appended
        (by simp [isFreshCheck, compileExecution, newExecution])
  | claimed e e' executions' repairAttempts' hqueued hcall he' hexecution hattempts =>
      refine (refl db).substituted hexecution ?_
      rw [he']
      exact ⟨rfl, rfl, rfl, rfl, rfl, rfl, rfl, rfl, rfl⟩
  | renewed e e' executions' hrunning hcall he' hexecution =>
      refine (refl db).substituted hexecution ?_
      rw [he']
      exact ⟨rfl, rfl, rfl, rfl, rfl, rfl, rfl, rfl, rfl⟩
  | checkQueued id m r idempotencyKey traceparent s hcall hnew hadmitting henqueued =>
      exact (refl db).appended henqueued.appended
        fun _ => ⟨m, hadmitting.monitor, rfl, hadmitting.active⟩
  | dueQueued id m r limit locked s hcall hadmitting henqueued =>
      exact (refl db).appended henqueued.appended
        fun _ => ⟨m, hadmitting.monitor, rfl, hadmitting.active⟩
  | confirmed | patched | accepted | rejected | published => exact (refl db).congr rfl
  | terminalized e e' db₁ runningStaleAfter maxAttempts limit locked hcall hattempts hretired =>
      exact ((refl db).retired hretired).congr (terminalizeStaleExecution_executions _ _ _ _)
  | replaced e e' db₁ s runningStaleAfter maxAttempts limit locked hcall hattempts hretired hrunning
      hfailed hreplaced =>
      exact ((refl db).retired hretired).replaced hreplaced

theorem claimDueMonitors {limit claimed : Nat} {locked : UUID → Bool}
    (hcall : call.operation = .claimDueMonitors limit locked)
    (h : claimDueMonitors call.now limit locked db = .ok (claimed, s)) : StartedActive db s := by
  simp only [Monitors.claimDueMonitors, bind_eq_ok, pure_eq_ok, Prod.mk.injEq] at h
  obtain ⟨_, hfold, -, rfl⟩ := h
  refine (foldlM_induction (fun items s => DueItems items s ∧
    RewrittenIn db call db.monitors s.monitors ∧ StartedActive db s) ?_ _ db _
    ⟨dueItems_dueMonitors call.now limit locked db, rewrittenIn_of_eq rfl, refl db⟩ hfold).2.2
  rintro item rest s s' ⟨hdue, hrewritten, hstarted⟩ hstep
  refine ⟨(claimDueMonitor_ok limit locked hdue hstep).2,
    rewrittenIn_claimDueMonitor hcall hrewritten hstep, ?_⟩
  obtain ⟨u, hu, hid, hactive, -⟩ := hdue.due item (List.mem_cons_self ..)
  obtain ⟨m, hm, hwritten⟩ := hrewritten u hu
  simp only [claimDueMonitor, Database.newUUID, bind_eq_ok, pure_eq_ok] at hstep
  obtain ⟨r, -, s₁, hinsert, s₂, hmessage, rfl⟩ := hstep
  refine hstarted.appended (enqueued_of_insert rfl hinsert hmessage).appended fun _ => ?_
  exact ⟨m, hm, hwritten.id.symm.trans hid, (status_of_claimDueMonitors hcall hwritten) ▸ hactive⟩

theorem sweepStaleExecutions {runningStaleAfter : Timestamp} {maxAttempts limit : Nat}
    {locked : UUID → Bool} {recoveries : List ExecutionRecovery}
    (h : sweepStaleExecutions now runningStaleAfter maxAttempts limit locked db =
      .ok (recoveries, s)) : StartedActive db s := by
  refine (foldlM_induction (fun items s => StaleItems items s.2 ∧ StartedActive db s.2) ?_ _
    ([], db) (recoveries, s)
    ⟨staleItems_staleExecutions db now runningStaleAfter locked limit, refl db⟩ h).2
  rintro e rest ⟨_, s⟩ ⟨_, s'⟩ ⟨hitems, hstarted⟩ hstep
  refine ⟨(sweepExecution_ok runningStaleAfter limit locked hitems hstep).2, ?_⟩
  obtain ⟨he, hrunning⟩ := hitems.running e (List.mem_cons_self ..)
  obtain rfl | ⟨e', s₁, -, hretired, ⟨-, rfl⟩ | ⟨-, hreplaced⟩⟩ :=
    sweepExecution_cases he hrunning hstep
  · exact hstarted
  · exact (hstarted.retired hretired).congr (terminalizeStaleExecution_executions _ _ _ _)
  · exact (hstarted.retired hretired).replaced hreplaced

theorem settled {store : OpenStore} {executionId : UUID} {result : ExecutionResult}
    (hconfirms : ConfirmsActive db call)
    (hcall : call.operation = .applyResult store executionId result)
    (h : Settled store now executionId result db e e' db₁ s) : StartedActive db s := by
  have hretired := (refl db).retired h.retired
  cases h.outcome with
  | planned plan s hstatus hkind hplan heffect hobservation =>
      exact hretired.congr heffect.executions
  | plannedAndRecorded plan observation m o db₂ s hstatus hkind hplan heffect hobservation
      hrecorded =>
      exact hretired.congr (hrecorded.executions.trans heffect.executions)
  | observed observation m o db₂ s hstatus hkind hobservation hrecorded hreaction =>
      have hobserved := hretired.congr hrecorded.executions
      cases hreaction with
      | diagnostic | unchanged | latched | alerted => exact hobserved.congr rfl
      | confirmationQueued id s hkind hverified hordinary hmatched hprevious henqueued =>
          refine hobserved.appended henqueued.appended fun _ => ?_
          have hm : m ∈ db.monitors := h.retired.monitors ▸ hrecorded.mem
          obtain ⟨_, verification, hverification, rfl⟩ := hrecorded.row
          obtain rfl : verification = .verified := hverified
          refine ⟨m, hm, hrecorded.monitorId, ?_⟩
          exact hconfirms store executionId result observation hcall e h.retired.mem h.id
            h.retired.inFlight h.acceptable hstatus hkind hordinary hobservation hverification m hm
            hrecorded.monitorId hmatched hprevious
  | failed s hstatus heffect =>
      cases heffect with
      | retried s hretry hreplaced => exact hretired.replaced hreplaced
      | compileFailed | repairFailed | repairExists => exact hretired.congr rfl
      | checkFailed hkind hfresh => exact hretired.congr (applyCheckFailure_executions _ _ _ _)
      | repairQueued id attemptId generation repairAttempts' uuids' s hkind hstale hgeneration hnone
          hattempt henqueued =>
          exact hretired.appended henqueued.appended
            (by simp [isFreshCheck, repairExecution, newExecution])

theorem of_step (hconfirms : ConfirmsActive db call) : StartedActive db (step db call) := by
  rcases step_cases db call with h | h | ⟨limit, locked, claimed, hcall, h⟩ |
      ⟨runningStaleAfter, maxAttempts, limit, locked, recoveries, hcall, h⟩ |
      ⟨store, id, result, e, e', db₁, hcall, -, h⟩
  · rw [h]
    exact refl db
  · exact effect h
  · exact claimDueMonitors hcall h
  · exact sweepStaleExecutions h
  · exact settled hconfirms hcall h

end StartedActive

/-- In a run that finds the monitor of every match to be confirmed active, every
step starts checks on active monitors only. -/
theorem checks_start_active (calls : List Call)
    (hconfirms : ∀ n (h : n < calls.length),
      ConfirmsActive (stateAt step Database.empty calls n) calls[n])
    (n : Nat) (hn : n < calls.length) :
    ChecksStartActive (stateAt step Database.empty calls n) calls[n] := by
  intro e he hnew hfresh
  rcases StartedActive.of_step (hconfirms n hn) e he with hold | hactive
  · exact absurd hold hnew
  · exact hactive hfresh

def belowTenDollars : Json :=
  .obj [("priceBelowMinor", .int 1000), ("currency", .str "USD"), ("requireInStock", .bool true)]

/-- A check that observes the item in stock at a price. -/
def observedAt (priceMinor : Int) : ExecutionResult :=
  { ExecutionResult.bare "succeeded" "" with
    observation := some { priceMinor := priceMinor, currency := "USD", inStock := true,
                          title := "Desk Lamp", rawText := "", identity := none,
                          verificationState := "", conditionMatched := none } }

/-- A check is queued, the operator patches the monitor, and the check finds a match. -/
def matchedAfter (action : PatchAction) : List Call :=
  [⟨0, .createMonitor ⟨"https://shop.example/item", "price of the item", 60, ""⟩⟩,
   ⟨1, .applyResult (openStore [] 3) ⟨2⟩
     { ExecutionResult.bare "succeeded" "" with plan := some (.obj []) }⟩,
   ⟨2, .confirmMonitor ⟨1⟩ ⟨⟨3⟩, some belowTenDollars⟩⟩,
   ⟨3, .enqueueCheck ⟨1⟩ "" ""⟩,
   ⟨4, .patchMonitor ⟨1⟩ ⟨some 30, none, action⟩⟩,
   ⟨5, .applyResult (openStore [] 3) ⟨4⟩ (observedAt 500)⟩]

/-- The confirmation of a match is a check of a monitor that is still active. -/
theorem checks_start_active_confirmation :
    ChecksStartActive (stateAt step Database.empty (matchedAfter .none) 5)
      ⟨5, .applyResult (openStore [] 3) ⟨4⟩ (observedAt 500)⟩ := by
  have compile : ∀ e ∈ (stateAt step Database.empty (matchedAfter .none) 1).executions,
      e.kind ≠ .check := by
    decide +kernel
  have active : ∀ m ∈ (stateAt step Database.empty (matchedAfter .none) 5).monitors,
      m.status = .active := by
    decide +kernel
  refine checks_start_active (matchedAfter .none) ?_ 5 (by decide)
  intro n hn
  match n, hn with
  | 0, _ | 2, _ | 3, _ | 4, _ => exact .of_operation (by simp [matchedAfter])
  | 1, _ =>
      rintro store id result observation hcall e he hid hflight hacceptable hstatus hkind
      exact absurd hkind (compile e he)
  | 5, _ =>
      rintro store id result observation hcall e he hid hflight hacceptable hstatus hkind hordinary
        hobservation hverified m hm hmonitor hmatched hlatch
      exact active m hm

/-- A match found after the pause starts a check on a paused monitor. -/
theorem matchedAfterPause_starts_check :
    ¬ ∀ db call, StoreReachable db → ChecksStartActive db call := by
  intro h
  exact absurd (h _ ⟨5, .applyResult (openStore [] 3) ⟨4⟩ (observedAt 500)⟩
    (reachable_stateAt (matchedAfter .pause) 5)) (by decide +kernel)

end PriceScout.Store.CheckStarts
