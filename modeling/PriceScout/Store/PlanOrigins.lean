import PriceScout.Store.Results

/-!
Where the plans of revisions come from: every plan in the store has been given by the
result of an execution, and is kept as it was given.
-/

namespace PriceScout.Store.PlanOrigins

open PriceScout.Domain
open PriceScout.Library.JsonDocuments
open PriceScout.Library.Tables
open PriceScout.Store.Effects
open PriceScout.Store.Inversions
open PriceScout.Store.Operations
open PriceScout.Store.Recovery
open PriceScout.Store.Results
open PriceScout.Store.Schema

/-- Every plan of the store is one of those that `P` holds of. -/
def PlansWithin (P : Json → Prop) (db : Database) : Prop :=
  ∀ r ∈ db.revisions, P r.plan

/-- The plan that the result of a call gives. -/
inductive GivesPlan (call : Call) (plan : Json) : Prop
  | intro (store : Alerts.OpenStore) (executionId : UUID) (result : ExecutionResult)
      (hcall : call.operation = .applyResult store executionId result)
      (hplan : result.plan = some plan)

variable {P : Json → Prop} {db db' : Database} {call : Call} {now : Timestamp} {e e' : Execution}

theorem plansWithin_empty : PlansWithin P Database.empty :=
  fun _ hr => absurd hr (Table.not_mem_empty _)

theorem PlansWithin.of_revisions (h : PlansWithin P db) (hsame : db'.revisions = db.revisions) :
    PlansWithin P db' := by
  intro r hr
  exact h r (hsame ▸ hr)

/-- An assignment that keeps every plan. -/
theorem forall_plan_update {t : Table Revision.id} {p : Revision → Bool}
    {f : Revision → Revision} {hf : ∀ r, (f r).id = r.id} (h : ∀ r ∈ t, P r.plan)
    (hplan : ∀ r, (f r).plan = r.plan) : ∀ r ∈ t.update p f hf, P r.plan :=
  Table.forall_update h fun r _ hr => by rwa [hplan]

theorem terminalizeStaleExecution_revisions (reason : String) :
    (terminalizeStaleExecution now e reason db).revisions = db.revisions := by
  unfold terminalizeStaleExecution
  cases e.kind <;> rfl

theorem PlansWithin.effect (h : PlansWithin P db) (heffect : Effect call db db') :
    PlansWithin P db' := by
  cases heffect with
  | created monitorId executionId params monitors' db' hcall hinterval hmonitor henqueued =>
      exact h.of_revisions henqueued.revisions
  | claimed | renewed | patched | published => exact h.of_revisions rfl
  | checkQueued id m r idempotencyKey traceparent db' hcall hnew hadmitting henqueued =>
      exact h.of_revisions henqueued.revisions
  | dueQueued id m r limit locked db' hcall hadmitting henqueued =>
      exact h.of_revisions henqueued.revisions
  | confirmed m r condition hcall hmonitor hrevision hdecidable =>
      exact forall_plan_update (forall_plan_update h fun _ => rfl) fun _ => rfl
  | accepted m r hcall hmonitor hrevision hdecidable =>
      exact forall_plan_update h fun _ => rfl
  | rejected m r hcall hmonitor hrevision hdecidable =>
      exact forall_plan_update h fun _ => rfl
  | terminalized e e' db₁ runningStaleAfter maxAttempts limit locked hcall hattempts hretired =>
      exact h.of_revisions ((terminalizeStaleExecution_revisions _).trans hretired.revisions)
  | replaced e e' db₁ db' runningStaleAfter maxAttempts limit locked hcall hattempts hretired
      hrunning hfailed hreplaced =>
      exact h.of_revisions (hreplaced.revisions.trans hretired.revisions)

theorem PlansWithin.planEffect {plan : Json} {autoPromote : Bool} (h : PlansWithin P db)
    (hplan : P plan) (heffect : PlanEffect now e plan autoPromote db db') : PlansWithin P db' := by
  cases heffect with
  | compiled id revisions' uuids' hkind happended =>
      exact Table.forall_appended happended h hplan
  | promoted id failedRevisionId m revisions' uuids' hkind hauto hfailed hmem hid hcurrent
      happended =>
      exact Table.forall_appended happended h hplan
  | held id revisions' uuids' hkind hheld happended =>
      exact Table.forall_appended happended h hplan

theorem PlansWithin.settled {store : Alerts.OpenStore} {executionId : UUID}
    {result : ExecutionResult} {db₁ : Database} (h : PlansWithin P db)
    (hplans : ∀ plan, result.plan = some plan → P plan)
    (hsettled : Settled store now executionId result db e e' db₁ db') : PlansWithin P db' := by
  have hretired := h.of_revisions hsettled.retired.revisions
  cases hsettled.outcome with
  | planned plan db' hstatus hkind hplan heffect hobservation =>
      exact hretired.planEffect (hplans plan hplan) heffect
  | plannedAndRecorded plan observation m o db₂ db' hstatus hkind hplan heffect hobservation
      hrecorded =>
      exact (hretired.planEffect (hplans plan hplan) heffect).of_revisions hrecorded.unchanged.2.1
  | observed observation m o db₂ db' hstatus hkind hobservation hrecorded hreaction =>
      exact (hretired.of_revisions hrecorded.unchanged.2.1).of_revisions
        (Reaction.revisions hreaction)
  | failed db' hstatus heffect =>
      exact hretired.of_revisions (FailureEffect.unchanged heffect).2

/-- An operation adds no plan but the one that its result gives. -/
theorem PlansWithin.step (h : PlansWithin P db) (hplans : ∀ plan, GivesPlan call plan → P plan) :
    PlansWithin P (step db call) := by
  rcases step_effects db call with heffects |
    ⟨store, executionId, result, e, e', db₁, hcall, hsettled⟩
  · generalize Operations.step db call = db' at heffects
    induction heffects with
    | refl => exact h
    | tail _ hlast ih => exact ih.effect hlast
  · exact h.settled (fun plan hplan => hplans plan ⟨store, executionId, result, hcall, hplan⟩)
      hsettled

end PriceScout.Store.PlanOrigins
