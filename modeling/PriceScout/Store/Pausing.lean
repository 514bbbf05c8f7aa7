import PriceScout.Store.Transitions

/-!
A paused monitor stays paused until the operator ends the pause, as long as no
result, sweep or rejection that sets the status of its monitor comes in meanwhile.
-/

namespace PriceScout.Store.Pausing

open PriceScout.Domain
open PriceScout.Library.JsonDocuments
open PriceScout.Library.Runs
open PriceScout.Library.Tables
open PriceScout.Store.Alerts
open PriceScout.Store.Effects
open PriceScout.Store.Executions
open PriceScout.Store.Monitors
open PriceScout.Store.Operations
open PriceScout.Store.Recovery
open PriceScout.Store.Schema
open PriceScout.Store.Transitions

def Paused (db : Database) (monitorId : UUID) : Prop :=
  ∃ m ∈ db.monitors, m.id = monitorId ∧ m.status = .paused

instance (db : Database) (monitorId : UUID) : Decidable (Paused db monitorId) :=
  inferInstanceAs (Decidable (∃ m ∈ db.monitors, m.id = monitorId ∧ m.status = .paused))

/-- The call pauses the monitor and commits. -/
def PausesMonitor (db : Database) (call : Call) (monitorId : UUID) : Prop :=
  ∃ params, call.operation = .patchMonitor monitorId params ∧ params.action = .pause ∧
    (patchMonitor call.now monitorId params db).isOk = true

/-- The operations with which the operator ends a pause. -/
def EndsPause (call : Call) (monitorId : UUID) : Prop :=
  (∃ params, call.operation = .patchMonitor monitorId params ∧ params.action = .resume) ∨
    (∃ params, call.operation = .confirmMonitor monitorId params) ∨
    ∃ revisionId, call.operation = .reviewRevision monitorId revisionId true

/-- Nothing that sets the status of a paused monitor comes in: no rejection of one
of its pending revisions, no acceptable result of one of its executions in flight
that sets a status, and no sweep that gives up one of its compiles or repairs. -/
structure LeavesPaused (db : Database) (call : Call) : Prop where
  rejection : ∀ monitorId revisionId, call.operation = .reviewRevision monitorId revisionId false →
    Paused db monitorId → db.revisions.any (decidable monitorId revisionId) = false
  result : ∀ store executionId result, call.operation = .applyResult store executionId result →
    ∀ e ∈ db.executions, e.id = executionId → e.inFlight = true → Acceptable e result →
      Paused db e.monitorId → ¬ SetsStatus store db e result
  sweep : ∀ runningStaleAfter maxAttempts limit locked,
    call.operation = .sweepStaleExecutions runningStaleAfter maxAttempts limit locked →
    ∀ e ∈ staleExecutions db call.now runningStaleAfter locked limit,
      Paused db e.monitorId → e.kind = .check ∨ e.attempt < maxAttempts

section Preservation

variable {db : Database} {call : Call} {m m' : Monitor} {monitorId : UUID}

/-- Nothing can end a pause when no monitor is paused. -/
theorem LeavesPaused.of_unpaused (h : ∀ m ∈ db.monitors, m.status ≠ .paused) :
    LeavesPaused db call := by
  have hnone : ∀ id, ¬ Paused db id := by
    rintro id ⟨m, hm, -, hstatus⟩
    exact h m hm hstatus
  exact ⟨fun _ _ _ hpaused => absurd hpaused (hnone _),
    fun _ _ _ _ _ _ _ _ _ hpaused => absurd hpaused (hnone _),
    fun _ _ _ _ _ _ _ hpaused => absurd hpaused (hnone _)⟩

theorem paused_turned {store : OpenStore} {now : Timestamp} {e : Execution}
    {result : ExecutionResult} (h : m.status = .paused) (hsets : ¬ SetsStatus store db e result)
    (hturned : Turned store now db e result m m') : m'.status = .paused := by
  cases hturned with
  | kept hnot hlatch => exact h
  | latched observation hlatch => exact h
  | compiled hstatus hkind =>
      exact absurd (setsStatus_of_planned hstatus (by simp [hkind])) hsets
  | promoted id failedRevisionId hstatus hkind hauto hfailed hcurrent =>
      exact absurd (setsStatus_of_planned hstatus (by simp [hkind])) hsets
  | held hstatus hkind =>
      exact absurd (setsStatus_of_planned hstatus (by simp [hkind])) hsets
  | refused status nextRunAt hstatus hrefused => exact absurd hrefused hsets

theorem paused_rewritten (hleaves : LeavesPaused db call) (hends : ¬ EndsPause call m.id)
    (hm : m ∈ db.monitors) (h : m.status = .paused) (hwritten : Rewritten db call m m') :
    m'.status = .paused := by
  have hpaused : Paused db m.id := ⟨m, hm, rfl, h⟩
  cases hwritten with
  | kept => exact h
  | rescheduled limit locked nextRunAt updatedAt hcall => exact h
  | confirmed r condition hcall hrevision hdecidable =>
      exact absurd (Or.inr (Or.inl ⟨_, hcall⟩)) hends
  | patched params hcall hsupported hinterval =>
      unfold patchAssign
      cases haction : params.action with
      | pause => rfl
      | resume => exact absurd (Or.inl ⟨params, hcall, haction⟩) hends
      | none | unsupported name => exact h
  | accepted r hcall hrevision hdecidable =>
      exact absurd (Or.inr (Or.inr ⟨r.id, hcall⟩)) hends
  | rejected r hcall hrevision hdecidable =>
      have hnone :=
        Table.any_eq_false_iff.mp (hleaves.rejection m.id r.id hcall hpaused) r hrevision
      simp [hdecidable] at hnone
  | abandoned e status nextRunAt runningStaleAfter maxAttempts limit locked hcall hstale hmonitor
      hkind hattempts hstatus =>
      rcases hleaves.sweep runningStaleAfter maxAttempts limit locked hcall e hstale
        (hmonitor ▸ hpaused) with hcheck | hless
      · exact absurd hcheck hkind
      · exact absurd hattempts (not_le.mpr hless)
  | settled store executionId result e e' db₁ m' hcall haccepted hsettled hmonitor hturned =>
      refine paused_turned h ?_ hturned
      exact hleaves.result store executionId result hcall e hsettled.retired.mem hsettled.id
        hsettled.retired.inFlight hsettled.acceptable (hmonitor ▸ hpaused)

/-- A paused monitor is paused after every step that neither ends the pause nor
sets its status. -/
theorem Paused.step (h : Paused db monitorId) (hleaves : LeavesPaused db call)
    (hends : ¬ EndsPause call monitorId) : Paused (step db call) monitorId := by
  obtain ⟨m, hm, rfl, hstatus⟩ := h
  obtain ⟨m', hm', hid, -⟩ := (Persistence.Persists.step db call).monitors m hm
  have hwritten := rewritten_of_mem hm hm' hid
  exact ⟨m', hm', hid, paused_rewritten hleaves hends hm hstatus hwritten⟩

theorem paused_of_pausesMonitor (h : PausesMonitor db call monitorId) :
    Paused (Operations.step db call) monitorId := by
  obtain ⟨params, hcall, haction, hok⟩ := h
  obtain ⟨m, hm, hid, hsupported, hinterval⟩ :
      ∃ m ∈ db.monitors, m.id = monitorId ∧ (∀ name, params.action ≠ .unsupported name) ∧
        ∀ minutes ∈ params.intervalMinutes, 1 ≤ minutes := by
    cases hresult : patchMonitor call.now monitorId params db with
    | error error =>
        rw [hresult] at hok
        cases hok
    | ok result => exact exists_monitor_of_patchMonitor hresult
  refine ⟨_, step_patchMonitor hcall hm hid hsupported hinterval,
    (patchAssign_id _ _ _).trans hid, ?_⟩
  simp only [patchAssign, haction]

end Preservation

/-- A check is queued, the operator pauses the monitor, and the check fails. -/
def pausedMeanwhile (result : ExecutionResult) : List Call :=
  [⟨0, .createMonitor ⟨"https://shop.example/item", "price of the item", 60, ""⟩⟩,
   ⟨1, .applyResult (openStore [] 3) ⟨2⟩
     { ExecutionResult.bare "succeeded" "" with plan := some (.obj []) }⟩,
   ⟨2, .confirmMonitor ⟨1⟩ ⟨⟨3⟩, none⟩⟩,
   ⟨3, .enqueueCheck ⟨1⟩ "" ""⟩,
   ⟨4, .patchMonitor ⟨1⟩ ⟨none, none, .pause⟩⟩,
   ⟨5, .applyResult (openStore [] 3) ⟨4⟩ result⟩]

end PriceScout.Store.Pausing
