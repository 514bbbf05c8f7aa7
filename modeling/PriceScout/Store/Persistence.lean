import PriceScout.Store.Inversions

/-!
No operation deletes a row, and none touches what a row was inserted to say:
the job of an execution, the plan of a revision, an observation, an alert.
-/

namespace PriceScout.Store.Persistence

open PriceScout.Domain
open PriceScout.Library.JsonDocuments
open PriceScout.Library.Runs
open PriceScout.Library.Tables
open PriceScout.Store.Alerts
open PriceScout.Store.Effects
open PriceScout.Store.Executions
open PriceScout.Store.Inversions
open PriceScout.Store.Monitors
open PriceScout.Store.Operations
open PriceScout.Store.Outbox
open PriceScout.Store.Recovery
open PriceScout.Store.Schema

theorem SameJob.refl (e : Execution) : SameJob e e :=
  ⟨rfl, rfl, rfl, rfl, rfl, rfl, rfl, rfl, rfl⟩

theorem SameJob.trans (a b c : Execution) (h : SameJob a b) (h' : SameJob b c) : SameJob a c :=
  ⟨h'.id.trans h.id, h'.monitorId.trans h.monitorId, h'.revisionId.trans h.revisionId,
    h'.kind.trans h.kind, h'.requestedGeneration.trans h.requestedGeneration,
    h'.attempt.trans h.attempt, h'.recoveryOf.trans h.recoveryOf, h'.input.trans h.input,
    h'.idempotencyKey.trans h.idempotencyKey⟩

/-- A revision keeps its plan; once it is active it keeps everything. -/
structure SameRevision (r r' : Revision) : Prop where
  monitorId : r'.monitorId = r.monitorId
  generation : r'.generation = r.generation
  plan : r'.plan = r.plan
  source : r'.source = r.source
  active : r.validationState = .active → r' = r

theorem SameRevision.refl (r : Revision) : SameRevision r r :=
  ⟨rfl, rfl, rfl, rfl, fun _ => rfl⟩

theorem SameRevision.trans (a b c : Revision) (h : SameRevision a b) (h' : SameRevision b c) :
    SameRevision a c := by
  refine ⟨h'.monitorId.trans h.monitorId, h'.generation.trans h.generation, h'.plan.trans h.plan,
    h'.source.trans h.source, fun hactive => ?_⟩
  have hb := h.active hactive
  exact (h'.active (hb ▸ hactive)).trans hb

/-- The repair attempt of a generation stays the attempt of that generation. -/
structure SameAttempt (a a' : RepairAttempt) : Prop where
  monitorId : a'.monitorId = a.monitorId
  failedGeneration : a'.failedGeneration = a.failedGeneration

theorem SameAttempt.refl (a : RepairAttempt) : SameAttempt a a :=
  ⟨rfl, rfl⟩

theorem SameAttempt.trans (a b c : RepairAttempt) (h : SameAttempt a b) (h' : SameAttempt b c) :
    SameAttempt a c :=
  ⟨h'.monitorId.trans h.monitorId, h'.failedGeneration.trans h.failedGeneration⟩

/-- What every row of a database keeps in a later one. -/
structure Persists (db db' : Database) : Prop where
  monitors : db.monitors.Extends (fun _ _ => True) db'.monitors
  revisions : db.revisions.Extends SameRevision db'.revisions
  executions : db.executions.Extends SameJob db'.executions
  observations : db.observations.Extends Eq db'.observations
  repairAttempts : db.repairAttempts.Extends SameAttempt db'.repairAttempts
  alerts : db.alerts.Extends Eq db'.alerts
  outbox : db.outbox.Extends Relayed db'.outbox

namespace Persists

theorem refl (db : Database) : Persists db db :=
  ⟨.refl (fun _ => trivial) _, .refl SameRevision.refl _, .refl SameJob.refl _,
    .refl (fun _ => rfl) _, .refl SameAttempt.refl _, .refl (fun _ => rfl) _,
    .refl Relayed.refl _⟩

variable {now : Timestamp} {db db' db'' db₁ : Database} {e e' : Execution}

theorem trans (h : Persists db db') (h' : Persists db' db'') : Persists db db'' :=
  ⟨h.monitors.trans (fun _ _ _ _ _ => trivial) h'.monitors,
    h.revisions.trans SameRevision.trans h'.revisions,
    h.executions.trans SameJob.trans h'.executions,
    h.observations.trans (fun _ _ _ => Eq.trans) h'.observations,
    h.repairAttempts.trans SameAttempt.trans h'.repairAttempts,
    h.alerts.trans (fun _ _ _ => Eq.trans) h'.alerts,
    h.outbox.trans Relayed.trans h'.outbox⟩

theorem hasMonitor (h : Persists db db') {id : UUID} (hm : db.hasMonitor id) :
    db'.hasMonitor id := by
  obtain ⟨m, hm, hid⟩ := Database.hasMonitor_iff.mp hm
  obtain ⟨m', hm', hkey, -⟩ := h.monitors m hm
  exact Database.hasMonitor_iff.mpr ⟨m', hm', hkey.trans hid⟩

theorem mem_observations (h : Persists db db') {o : Observation} (ho : o ∈ db.observations) :
    o ∈ db'.observations := by
  obtain ⟨o', ho', -, rfl⟩ := h.observations o ho
  exact ho'

/-- An active revision stays as it is. -/
theorem mem_revisions (h : Persists db db') {r : Revision} (hr : r ∈ db.revisions)
    (hactive : r.validationState = .active) : r ∈ db'.revisions := by
  obtain ⟨r', hr', -, hsame⟩ := h.revisions r hr
  exact hsame.active hactive ▸ hr'

theorem updateMonitor {id : UUID} {f : Monitor → Monitor} {hf : ∀ m, (f m).id = m.id} :
    Persists db (db.updateMonitor id f hf) :=
  { refl db with monitors := Table.extends_update (fun _ => trivial) fun _ _ _ => trivial }

theorem updateRepairAttempts {p : RepairAttempt → Bool} {f : RepairAttempt → RepairAttempt}
    {hf : ∀ a, (f a).id = a.id} (hassign : ∀ a, SameAttempt a (f a)) :
    Persists db (db.updateRepairAttempts p f hf) :=
  { refl db with
    repairAttempts := Table.extends_update SameAttempt.refl fun a _ _ => hassign a }

theorem enqueued {traceparent : String} (h : Enqueued now db e traceparent db') :
    Persists db db' := by
  obtain ⟨-, -, -, -, executions', outbox', uuids', happended, houtbox, rfl⟩ := h
  exact { refl db with
    executions := .of_appended SameJob.refl happended
    outbox := .of_appended Relayed.refl houtbox }

theorem retired (h : Retired db e e' db') : Persists db db' := by
  obtain ⟨-, -, hjob, -, executions', artifacts', uuids', hsubstituted, rfl⟩ := h
  exact { refl db with executions := .of_substituted SameJob.refl hsubstituted hjob }

theorem replaced (h : Replaced now db e db') : Persists db db' := by
  cases h with
  | enqueued id db' hkind h => exact enqueued h
  | repointed id db' a hkind hmem hexecution h =>
      have henqueued := enqueued h
      exact { henqueued with
        repairAttempts := Table.extends_update SameAttempt.refl fun _ _ _ => ⟨rfl, rfl⟩ }

theorem planEffect {plan : Json} {autoPromote : Bool}
    (h : PlanEffect now e plan autoPromote db db') : Persists db db' := by
  cases h with
  | compiled id revisions' uuids' hkind hrevision =>
      exact { refl db with
        monitors := Table.extends_update (fun _ => trivial) fun _ _ _ => trivial
        revisions := .of_appended SameRevision.refl hrevision }
  | promoted id failedRevisionId m revisions' uuids' hkind hauto hfailed hmem hid hcurrent
      hrevision =>
      exact { refl db with
        monitors := Table.extends_update (fun _ => trivial) fun _ _ _ => trivial
        revisions := .of_appended SameRevision.refl hrevision
        repairAttempts := Table.extends_update SameAttempt.refl fun _ _ _ => ⟨rfl, rfl⟩ }
  | held id revisions' uuids' hkind hheld hrevision =>
      exact { refl db with
        monitors := Table.extends_update (fun _ => trivial) fun _ _ _ => trivial
        revisions := .of_appended SameRevision.refl hrevision
        repairAttempts := Table.extends_update SameAttempt.refl fun _ _ _ => ⟨rfl, rfl⟩ }

theorem recorded {observation : ResultObservation} {m : Monitor} {o : Observation}
    (h : Recorded now e observation db m o db') : Persists db db' := by
  obtain ⟨-, -, -, -, observations', uuids', happended, rfl⟩ := h
  exact { refl db with observations := .of_appended (fun _ => rfl) happended }

theorem reaction {store : OpenStore} {m : Monitor} {o : Observation}
    (h : Reaction store now e m o db db') : Persists db db' := by
  cases h with
  | diagnostic h => exact refl db
  | unchanged hkind hverified hordinary hmatched h => exact refl db
  | latched hkind hverified h => exact updateMonitor
  | alerted id alerts' alertDeliveries' uuids' hkind hverified hconfirmation hmatched hprevious
      halert =>
      exact { refl db with
        monitors := Table.extends_update (fun _ => trivial) fun _ _ _ => trivial
        alerts := .of_appended (fun _ => rfl) halert }
  | confirmationQueued id db' hkind hverified hordinary hmatched hprevious h => exact enqueued h

theorem applyCheckFailure {result : ExecutionResult} :
    Persists db (applyCheckFailure now e result db) := by
  unfold Executions.applyCheckFailure
  split
  · exact updateMonitor
  · split
    · exact updateMonitor
    · exact refl db

theorem failureEffect {store : OpenStore} {result : ExecutionResult}
    (h : FailureEffect store now e result db db') : Persists db db' := by
  cases h with
  | retried db' hretry h => exact replaced h
  | compileFailed hkind => exact updateMonitor
  | repairFailed hkind =>
      refine trans ?_ updateMonitor
      exact updateRepairAttempts fun _ => ⟨rfl, rfl⟩
  | checkFailed hkind hfresh => exact applyCheckFailure
  | repairExists a hkind hstale hmem hmonitor hgeneration => exact refl db
  | repairQueued id attemptId generation repairAttempts' uuids' db' hkind hstale hgeneration hnone
      hattempt h =>
      have henqueued := enqueued h
      exact { henqueued with
        monitors := henqueued.monitors.trans (fun _ _ _ _ _ => trivial)
          (Table.extends_update (fun _ => trivial) fun _ _ _ => trivial)
        repairAttempts := .of_appended SameAttempt.refl hattempt }

theorem outcome {store : OpenStore} {result : ExecutionResult}
    (h : Outcome store now e result db db') : Persists db db' := by
  cases h with
  | planned plan db' hstatus hkind hplan h hobservation => exact planEffect h
  | plannedAndRecorded plan observation m o db₁ db' hstatus hkind hplan h hobservation hrecorded =>
      exact (planEffect h).trans (recorded hrecorded)
  | observed observation m o db₁ db' hstatus hkind hobservation hrecorded h =>
      exact (recorded hrecorded).trans (reaction h)
  | failed db' hstatus h => exact failureEffect h

theorem settled {store : OpenStore} {executionId : UUID} {result : ExecutionResult}
    (h : Settled store now executionId result db e e' db₁ db') : Persists db db' :=
  (retired h.retired).trans (outcome h.outcome)

theorem terminalizeStaleExecution {reason : String} :
    Persists db (terminalizeStaleExecution now e reason db) := by
  unfold Recovery.terminalizeStaleExecution
  cases e.kind with
  | compile => exact updateMonitor
  | repair =>
      refine trans ?_ updateMonitor
      exact updateRepairAttempts fun _ => ⟨rfl, rfl⟩
  | check => exact refl db

/-- Deciding on revisions changes pending ones only. -/
theorem sameRevision_of_pending {r r' : Revision} (hpending : r.pending = true)
    (hmonitor : r'.monitorId = r.monitorId) (hgeneration : r'.generation = r.generation)
    (hplan : r'.plan = r.plan) (hsource : r'.source = r.source) : SameRevision r r' := by
  refine ⟨hmonitor, hgeneration, hplan, hsource, fun hactive => ?_⟩
  simp [Revision.pending, ValidationState.pending, hactive] at hpending

theorem effect {call : Call} (h : Effect call db db') : Persists db db' := by
  cases h with
  | created monitorId executionId params monitors' db' hcall hinterval hmonitor h =>
      have hinserted : Persists db { db with monitors := monitors' } :=
        { refl db with monitors := .of_appended (fun _ => trivial) hmonitor }
      exact hinserted.trans (enqueued h)
  | claimed e e' executions' repairAttempts' hqueued hcall he' hexecution hattempts =>
      have hjob : SameJob e e' := by rw [he']; exact ⟨rfl, rfl, rfl, rfl, rfl, rfl, rfl, rfl, rfl⟩
      have hrepairAttempts : db.repairAttempts.Extends SameAttempt repairAttempts' := by
        rcases hattempts with ⟨-, rfl⟩ | ⟨-, rfl⟩
        · exact .refl SameAttempt.refl _
        · exact Table.extends_update SameAttempt.refl fun _ _ _ => ⟨rfl, rfl⟩
      exact { refl db with
        executions := .of_substituted SameJob.refl hexecution hjob
        repairAttempts := hrepairAttempts }
  | renewed e e' executions' hrunning hcall he' hexecution =>
      have hjob : SameJob e e' := by rw [he']; exact ⟨rfl, rfl, rfl, rfl, rfl, rfl, rfl, rfl, rfl⟩
      exact { refl db with executions := .of_substituted SameJob.refl hexecution hjob }
  | checkQueued id m r idempotencyKey traceparent db' hcall hnew hadmitting h => exact enqueued h
  | dueQueued id m r limit locked db' hcall hadmitting h => exact (enqueued h).trans updateMonitor
  | confirmed m r condition hcall hmonitor hrevision hdecidable =>
      refine { refl db with
        monitors := Table.extends_update (fun _ => trivial) fun _ _ _ => trivial
        revisions := ?_ }
      refine Table.Extends.trans SameRevision.trans
        (Table.extends_update SameRevision.refl fun s _ hp => ?_)
        (Table.extends_update SameRevision.refl fun s _ hp => ?_)
      · exact sameRevision_of_pending (Bool.and_eq_true_iff.mp hp).2 rfl rfl rfl rfl
      · exact sameRevision_of_pending (Bool.and_eq_true_iff.mp hp).2 rfl rfl rfl rfl
  | patched m params hcall hmonitor => exact updateMonitor
  | accepted m r hcall hmonitor hrevision hdecidable =>
      exact { refl db with
        monitors := Table.extends_update (fun _ => trivial) fun _ _ _ => trivial
        revisions := Table.extends_update SameRevision.refl fun s _ hp =>
          sameRevision_of_pending (Bool.and_eq_true_iff.mp hp).2 rfl rfl rfl rfl
        repairAttempts := Table.extends_update SameAttempt.refl fun _ _ _ => ⟨rfl, rfl⟩ }
  | rejected m r hcall hmonitor hrevision hdecidable =>
      exact { refl db with
        monitors := Table.extends_update (fun _ => trivial) fun _ _ _ => trivial
        revisions := Table.extends_update SameRevision.refl fun s _ hp =>
          sameRevision_of_pending (Bool.and_eq_true_iff.mp hp).2 rfl rfl rfl rfl
        repairAttempts := Table.extends_update SameAttempt.refl fun _ _ _ => ⟨rfl, rfl⟩ }
  | terminalized e e' db₁ runningStaleAfter maxAttempts limit locked hcall hattempts h hrunning
      hfailed =>
      exact (retired h).trans terminalizeStaleExecution
  | replaced e e' db₁ db' runningStaleAfter maxAttempts limit locked hcall hattempts h hrunning
      hfailed hreplaced =>
      exact (retired h).trans (replaced hreplaced)
  | published outbox' locked limit publish commits hcall h =>
      exact { refl db with outbox := h.forward }

theorem step (db : Database) (call : Call) : Persists db (step db call) := by
  rcases step_effects db call with heffects | ⟨store, id, result, e, e', db₁, -, hsettled⟩
  · generalize Operations.step db call = s' at heffects
    induction heffects with
    | refl => exact refl db
    | tail _ hlast ih => exact ih.trans (effect hlast)
  · exact settled hsettled

/-- What a row keeps from any point of a run to any later one. -/
theorem stateAt (init : Database) (calls : List Call) {i j : Nat} (hij : i ≤ j) :
    Persists (Library.Runs.stateAt Operations.step init calls i)
      (Library.Runs.stateAt Operations.step init calls j) :=
  stateAt_mono (P := fun s => Persists (Library.Runs.stateAt Operations.step init calls i) s)
    (fun s call h => h.trans (step s call)) hij (refl _)

end Persists

/-- What failures, sweeps and the calendar leave alone in a monitor. -/
structure Touched (m m' : Monitor) : Prop where
  currentRevisionId : m'.currentRevisionId = m.currentRevisionId
  conditionMatched : m'.conditionMatched = m.conditionMatched

theorem Touched.refl (m : Monitor) : Touched m m :=
  ⟨rfl, rfl⟩

theorem Touched.trans (a b c : Monitor) (h : Touched a b) (h' : Touched b c) : Touched a c :=
  ⟨h'.currentRevisionId.trans h.currentRevisionId, h'.conditionMatched.trans h.conditionMatched⟩

def SamePlan (m m' : Monitor) : Prop :=
  m'.currentRevisionId = m.currentRevisionId

def SameLatch (m m' : Monitor) : Prop :=
  m'.conditionMatched = m.conditionMatched

section Monitors

variable {now : Timestamp} {db db' : Database} {e e' : Execution}

theorem touched_updateMonitor {id : UUID} {f : Monitor → Monitor} {hf : ∀ m, (f m).id = m.id}
    (hassign : ∀ m, Touched m (f m)) :
    db.monitors.Evolves Touched (db.updateMonitor id f hf).monitors :=
  Table.evolves_update Touched.refl fun m _ _ => hassign m

theorem touched_of_eq (h : db'.monitors = db.monitors) :
    db.monitors.Evolves Touched db'.monitors := by
  rw [h]
  exact .refl Touched.refl _

theorem touched_patchAssign (params : PatchMonitorParams) (m : Monitor) :
    Touched m (patchAssign now params m) := by
  unfold patchAssign
  cases params.action <;> exact ⟨rfl, rfl⟩

theorem touched_terminalizeStaleExecution {reason : String} :
    db.monitors.Evolves Touched (terminalizeStaleExecution now e reason db).monitors := by
  unfold terminalizeStaleExecution
  cases e.kind with
  | compile => exact touched_updateMonitor fun _ => ⟨rfl, rfl⟩
  | repair => exact touched_updateMonitor fun _ => ⟨rfl, rfl⟩
  | check => exact touched_of_eq rfl

theorem touched_applyCheckFailure {result : ExecutionResult} :
    db.monitors.Evolves Touched (applyCheckFailure now e result db).monitors := by
  unfold applyCheckFailure
  split
  · exact touched_updateMonitor fun _ => ⟨rfl, rfl⟩
  · split
    · exact touched_updateMonitor fun _ => ⟨rfl, rfl⟩
    · exact touched_of_eq rfl

theorem touched_failureEffect {store : OpenStore} {result : ExecutionResult}
    (h : FailureEffect store now e result db db') : db.monitors.Evolves Touched db'.monitors := by
  cases h with
  | retried db' hretry h => exact touched_of_eq h.monitors
  | compileFailed hkind => exact touched_updateMonitor fun _ => ⟨rfl, rfl⟩
  | repairFailed hkind => exact touched_updateMonitor fun _ => ⟨rfl, rfl⟩
  | checkFailed hkind hfresh => exact touched_applyCheckFailure
  | repairExists a hkind hstale hmem hmonitor hgeneration => exact touched_of_eq rfl
  | repairQueued id attemptId generation repairAttempts' uuids' db' hkind hstale hgeneration hnone
      hattempt h =>
      refine (touched_of_eq h.monitors).trans Touched.trans ?_
      exact touched_updateMonitor fun _ => ⟨rfl, rfl⟩

theorem samePlan_refl (m : Monitor) : SamePlan m m :=
  rfl

theorem sameLatch_refl (m : Monitor) : SameLatch m m :=
  rfl

/-- A reaction leaves the plan of every monitor alone. -/
theorem plan_reaction {store : OpenStore} {m : Monitor} {o : Observation}
    (h : Reaction store now e m o db db') :
    db.monitors.Evolves SamePlan db'.monitors := by
  cases h with
  | diagnostic h => exact .refl samePlan_refl _
  | unchanged hkind hverified hordinary hmatched h => exact .refl samePlan_refl _
  | latched hkind hverified h => exact Table.evolves_update samePlan_refl fun _ _ _ => rfl
  | alerted id alerts' alertDeliveries' uuids' hkind hverified hconfirmation hmatched hprevious
      halert =>
      exact Table.evolves_update samePlan_refl fun _ _ _ => rfl
  | confirmationQueued id db' hkind hverified hordinary hmatched hprevious h =>
      rw [h.monitors]
      exact .refl samePlan_refl _

/-- A plan result leaves the latch of every monitor alone. -/
theorem latch_planEffect {plan : Json} {autoPromote : Bool}
    (h : PlanEffect now e plan autoPromote db db') :
    db.monitors.Evolves SameLatch db'.monitors := by
  cases h with
  | compiled => exact Table.evolves_update sameLatch_refl fun _ _ _ => rfl
  | promoted => exact Table.evolves_update sameLatch_refl fun _ _ _ => rfl
  | held => exact Table.evolves_update sameLatch_refl fun _ _ _ => rfl

end Monitors

end PriceScout.Store.Persistence
