import PriceScout.Store.Transitions

/-!
An active monitor has a plan, as long as no monitor without one is resumed.
-/

namespace PriceScout.Store.Activation

open PriceScout.Domain
open PriceScout.Library.JsonDocuments
open PriceScout.Library.Runs
open PriceScout.Library.Tables
open PriceScout.Store.Alerts
open PriceScout.Store.Executions
open PriceScout.Store.Monitors
open PriceScout.Store.Operations
open PriceScout.Store.Schema
open PriceScout.Store.Transitions

/-- An active monitor has a plan. -/
def RunsAPlan (m : Monitor) : Prop :=
  m.status = .active → m.currentRevisionId.isSome = true

instance (m : Monitor) : Decidable (RunsAPlan m) :=
  inferInstanceAs (Decidable (_ → _))

def Activated (db : Database) : Prop :=
  ∀ m ∈ db.monitors, RunsAPlan m

/-- A patch that resumes a monitor, and gives no interval the table refuses, finds
it with a plan. -/
def ResumesPlanned (db : Database) (call : Call) : Prop :=
  ∀ id params, call.operation = .patchMonitor id params → params.action = .resume →
    (∀ minutes ∈ params.intervalMinutes, 1 ≤ minutes) →
    ∀ m ∈ db.monitors, m.id = id → m.currentRevisionId.isSome = true

section Preservation

variable {db : Database} {call : Call} {m m' : Monitor}

theorem runsAPlan_of_status (h : m.status ≠ .active) : RunsAPlan m :=
  fun hactive => absurd hactive h

theorem runsAPlan_patchAssign {now : Timestamp} {params : PatchMonitorParams} (h : RunsAPlan m)
    (hresume : params.action = .resume → m.currentRevisionId.isSome = true) :
    RunsAPlan (patchAssign now params m) := by
  unfold patchAssign
  cases haction : params.action with
  | pause => exact runsAPlan_of_status (by simp)
  | resume => exact fun _ => hresume haction
  | none | unsupported name => exact h

theorem runsAPlan_turned {store : OpenStore} {now : Timestamp} {e : Execution}
    {result : ExecutionResult} (h : RunsAPlan m) (hturned : Turned store now db e result m m') :
    RunsAPlan m' := by
  cases hturned with
  | kept hsets hlatch => exact h
  | latched observation hlatch => exact h
  | compiled hstatus hkind => exact runsAPlan_of_status (by simp)
  | promoted id failedRevisionId hstatus hkind hauto hfailed hcurrent => exact fun _ => rfl
  | held hstatus hkind => exact runsAPlan_of_status (by simp)
  | refused status nextRunAt hstatus hsets =>
      refine runsAPlan_of_status ?_
      rcases hstatus with rfl | rfl <;> simp

theorem runsAPlan_rewritten (hresumes : ResumesPlanned db call) (hm : m ∈ db.monitors)
    (h : RunsAPlan m) (hwritten : Rewritten db call m m') : RunsAPlan m' := by
  cases hwritten with
  | kept => exact h
  | rescheduled limit locked nextRunAt updatedAt hcall => exact h
  | confirmed r condition hcall hrevision hdecidable => exact fun _ => rfl
  | patched params hcall haction hinterval =>
      exact runsAPlan_patchAssign h fun hresume =>
        hresumes m.id params hcall hresume hinterval m hm rfl
  | accepted r hcall hrevision hdecidable => exact fun _ => rfl
  | rejected r hcall hrevision hdecidable =>
      intro hactive
      cases hcurrent : m.currentRevisionId with
      | none => simp [hcurrent] at hactive
      | some revisionId => rfl
  | abandoned e status nextRunAt runningStaleAfter maxAttempts limit locked hcall hstale hmonitor
      hkind hattempts hstatus =>
      refine runsAPlan_of_status ?_
      rcases hstatus with rfl | rfl <;> simp
  | settled store executionId result e e' db₁ m' hcall haccepted hsettled hmonitor hturned =>
      exact runsAPlan_turned h hturned

theorem Activated.step (h : Activated db) (hresumes : ResumesPlanned db call) :
    Activated (step db call) := by
  refine forall_step h ?_ fun m hm m' => runsAPlan_rewritten hresumes hm
  rintro m ⟨id, params, -, rfl, -⟩
  exact runsAPlan_of_status (by simp [newMonitor])

/-- Resuming a monitor makes it active with the plan it had. -/
theorem resumesPlanned_of_activated (h : Activated (Operations.step db call)) :
    ResumesPlanned db call := by
  intro id params hcall haction hinterval m hm hid
  have hmem := step_patchMonitor hcall hm hid (by simp [haction]) hinterval
  have hplanned := h _ hmem
  simp only [patchAssign, haction] at hplanned
  exact hplanned rfl

end Preservation

/-- A run keeps every active monitor with a plan exactly when each of its resumes
finds its monitor with one. -/
theorem active_iff_resumesPlanned (calls : List Call) :
    (∀ n, Activated (stateAt step Database.empty calls n)) ↔
      ∀ n (h : n < calls.length),
        ResumesPlanned (stateAt step Database.empty calls n) calls[n] := by
  constructor
  · intro hactivated n hn
    have hnext := hactivated (n + 1)
    rw [stateAt_succ hn] at hnext
    exact resumesPlanned_of_activated hnext
  · intro hresumes
    refine stateAt_invariant (fun m hm => absurd hm (Table.not_mem_empty m)) ?_ hresumes
    exact fun s call _ hactivated hplanned => hactivated.step hplanned

/-- The plan of a compile is rejected, and the operator resumes the monitor. -/
def resumedAfterRejection : List Call :=
  [⟨0, .createMonitor ⟨"https://shop.example/item", "price of the item", 60, ""⟩⟩,
   ⟨1, .applyResult (openStore [] 3) ⟨2⟩
     { ExecutionResult.bare "succeeded" "" with plan := some (.obj []) }⟩,
   ⟨2, .reviewRevision ⟨1⟩ ⟨3⟩ false⟩,
   ⟨3, .patchMonitor ⟨1⟩ ⟨none, none, .resume⟩⟩]

/-- After the resume the monitor is active and has no plan. -/
theorem resumedAfterRejection_unplanned :
    ¬ ∀ db, StoreReachable db → ∀ m ∈ db.monitors, m.status = .active →
      m.currentRevisionId.isSome = true := by
  intro h
  have hall : (run step Database.empty resumedAfterRejection).monitors.rows.all
      (fun m => decide (RunsAPlan m)) = true := by
    rw [List.all_eq_true]
    intro m hm
    exact decide_eq_true (h _ ⟨resumedAfterRejection, rfl⟩ m hm)
  exact absurd hall (by decide +kernel)

end PriceScout.Store.Activation
