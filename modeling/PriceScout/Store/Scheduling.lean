import PriceScout.Store.Transitions

/-!
An active monitor with a plan stays on the schedule, as long as no candidate is
rejected while its monitor is off the schedule.
-/

namespace PriceScout.Store.Scheduling

open PriceScout.Domain
open PriceScout.Library.JsonDocuments
open PriceScout.Library.Runs
open PriceScout.Library.Tables
open PriceScout.Store.Alerts
open PriceScout.Store.Executions
open PriceScout.Store.Monitors
open PriceScout.Store.Operations
open PriceScout.Store.Schema
open PriceScout.Store.Transitions

/-- An active monitor with a plan has a next run. -/
def OnSchedule (m : Monitor) : Prop :=
  m.status = .active → m.currentRevisionId.isSome = true → m.nextRunAt.isSome = true

instance (m : Monitor) : Decidable (OnSchedule m) :=
  inferInstanceAs (Decidable (_ → _ → _))

def Scheduled (db : Database) : Prop :=
  ∀ m ∈ db.monitors, OnSchedule m

/-- A candidate is rejected only while its monitor, when it has a plan, has a next run. -/
def RejectsOnSchedule (db : Database) (call : Call) : Prop :=
  ∀ monitorId revisionId, call.operation = .reviewRevision monitorId revisionId false →
    db.revisions.any (decidable monitorId revisionId) = true →
    ∀ m ∈ db.monitors, m.id = monitorId → m.currentRevisionId.isSome = true →
      m.nextRunAt.isSome = true

section Preservation

variable {db : Database} {call : Call} {m m' : Monitor}

theorem onSchedule_of_status (h : m.status ≠ .active) : OnSchedule m :=
  fun hactive => absurd hactive h

theorem onSchedule_of_nextRunAt (h : m.nextRunAt.isSome = true) : OnSchedule m :=
  fun _ _ => h

theorem onSchedule_patchAssign {now : Timestamp} {params : PatchMonitorParams}
    (h : OnSchedule m) : OnSchedule (patchAssign now params m) := by
  unfold patchAssign
  cases params.action with
  | pause => exact onSchedule_of_status (by simp)
  | resume => exact onSchedule_of_nextRunAt rfl
  | none | unsupported name => exact h

theorem onSchedule_turned {store : OpenStore} {now : Timestamp} {e : Execution}
    {result : ExecutionResult} (h : OnSchedule m) (hturned : Turned store now db e result m m') :
    OnSchedule m' := by
  cases hturned with
  | kept hsets hlatch => exact h
  | latched observation hlatch => exact h
  | compiled hstatus hkind => exact onSchedule_of_status (by simp)
  | promoted id failedRevisionId hstatus hkind hauto hfailed hcurrent =>
      exact onSchedule_of_nextRunAt rfl
  | held hstatus hkind => exact onSchedule_of_status (by simp)
  | refused status nextRunAt hstatus hsets =>
      refine onSchedule_of_status ?_
      rcases hstatus with rfl | rfl <;> simp

theorem onSchedule_rewritten (hrejects : RejectsOnSchedule db call) (hm : m ∈ db.monitors)
    (h : OnSchedule m) (hwritten : Rewritten db call m m') : OnSchedule m' := by
  cases hwritten with
  | kept => exact h
  | rescheduled limit locked nextRunAt updatedAt hcall => exact onSchedule_of_nextRunAt rfl
  | confirmed r condition hcall hrevision hdecidable => exact onSchedule_of_nextRunAt rfl
  | patched params hcall haction hinterval => exact onSchedule_patchAssign h
  | accepted r hcall hrevision hdecidable => exact onSchedule_of_nextRunAt rfl
  | rejected r hcall hrevision hdecidable =>
      -- the next run is the one the monitor had
      have hpending : db.revisions.any (decidable m.id r.id) = true :=
        Table.any_eq_true_iff.mpr ⟨r, hrevision, hdecidable⟩
      exact fun _ hcurrent => hrejects m.id r.id hcall hpending m hm rfl hcurrent
  | abandoned e status nextRunAt runningStaleAfter maxAttempts limit locked hcall hstale hmonitor
      hkind hattempts hstatus =>
      refine onSchedule_of_status ?_
      rcases hstatus with rfl | rfl <;> simp
  | settled store executionId result e e' db₁ m' hcall haccepted hsettled hmonitor hturned =>
      exact onSchedule_turned h hturned

theorem Scheduled.step (h : Scheduled db) (hrejects : RejectsOnSchedule db call) :
    Scheduled (step db call) := by
  refine forall_step h ?_ fun m hm m' => onSchedule_rewritten hrejects hm
  rintro m ⟨id, params, -, rfl, -⟩
  exact onSchedule_of_status (by simp [newMonitor])

/-- Rejecting a candidate commits, and leaves an active monitor with the next run it had. -/
theorem rejectsOnSchedule_of_scheduled (h : Scheduled (Operations.step db call)) :
    RejectsOnSchedule db call := by
  rintro monitorId revisionId hcall hpending m hm rfl hcurrent
  obtain ⟨r, hr, hdecidable⟩ := Table.any_eq_true_iff.mp hpending
  obtain rfl : r.id = revisionId := id_of_decidable hdecidable
  have hscheduled := h _ (step_reviewRevision hcall hm hr hdecidable)
  obtain ⟨current, hsome⟩ := Option.isSome_iff_exists.mp hcurrent
  exact hscheduled (by simp [reviewAssign, hsome]) (by simp [reviewAssign, hsome])

end Preservation

/-- A run keeps every active monitor with a plan on the schedule exactly when
each of its rejections finds its monitor on the schedule. -/
theorem scheduled_iff_rejectsOnSchedule (calls : List Call) :
    (∀ n, Scheduled (stateAt step Database.empty calls n)) ↔
      ∀ n (h : n < calls.length),
        RejectsOnSchedule (stateAt step Database.empty calls n) calls[n] := by
  constructor
  · intro hscheduled n hn
    have hnext := hscheduled (n + 1)
    rw [stateAt_succ hn] at hnext
    exact rejectsOnSchedule_of_scheduled hnext
  · intro hrejects
    refine stateAt_invariant (fun m hm => absurd hm (Table.not_mem_empty m)) ?_ hrejects
    exact fun s call _ hscheduled hreject => hscheduled.step hreject

/-- A check finds its plan stale, the repaired plan is held for review, and the
operator rejects it. -/
def rejectedRepair : List Call :=
  [⟨0, .createMonitor ⟨"https://shop.example/item", "price of the item", 60, ""⟩⟩,
   ⟨1, .applyResult (openStore [] 3) ⟨2⟩
     { ExecutionResult.bare "succeeded" "" with plan := some (.obj []) }⟩,
   ⟨2, .confirmMonitor ⟨1⟩ ⟨⟨3⟩, none⟩⟩,
   ⟨3, .enqueueCheck ⟨1⟩ "" ""⟩,
   ⟨4, .applyResult (openStore [] 3) ⟨4⟩ (.bare "failed" "stale_extractor")⟩,
   ⟨5, .applyResult (openStore [] 3) ⟨5⟩
     { ExecutionResult.bare "succeeded" "" with plan := some (.obj []) }⟩,
   ⟨6, .reviewRevision ⟨1⟩ ⟨7⟩ false⟩]

/-- After the rejection the monitor is active, has a plan and no next run. -/
theorem rejectedRepair_off_schedule :
    ¬ ∀ db, StoreReachable db → ∀ m ∈ db.monitors, m.status = .active →
      m.currentRevisionId.isSome = true → m.nextRunAt.isSome = true := by
  intro h
  have hall : (run step Database.empty rejectedRepair).monitors.rows.all
      (fun m => decide (OnSchedule m)) = true := by
    rw [List.all_eq_true]
    intro m hm
    exact decide_eq_true (h _ ⟨rejectedRepair, rfl⟩ m hm)
  exact absurd hall (by decide +kernel)

end PriceScout.Store.Scheduling
