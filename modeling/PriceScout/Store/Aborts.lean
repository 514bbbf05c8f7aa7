import PriceScout.Store.Generations
import PriceScout.Store.Lifecycles

/-!
The errors that end a transaction. Those of the recovery and repair keys, and
of a repair without its attempt, end none that starts from a reachable state.
-/

namespace PriceScout.Store.Aborts

open PriceScout.Domain
open PriceScout.Library.JsonDocuments
open PriceScout.Library.Runs
open PriceScout.Library.Tables
open PriceScout.Store.Alerts
open PriceScout.Store.Effects
open PriceScout.Store.Executions
open PriceScout.Store.Generations
open PriceScout.Store.Inversions
open PriceScout.Store.Lifecycles
open PriceScout.Store.Monitors
open PriceScout.Store.Operations
open PriceScout.Store.Outbox
open PriceScout.Store.Persistence
open PriceScout.Store.Recovery
open PriceScout.Store.Schema

/-- What the transaction of a call ends with. -/
def outcome (db : Database) (call : Call) : Except StoreError Database :=
  match call.operation with
  | .createMonitor params => (createMonitor call.now params db).map (·.2)
  | .getExecutionInput id => (getExecutionInput call.now id db).map (·.2)
  | .enqueueCheck monitorId idempotencyKey traceparent =>
      (enqueueCheck call.now monitorId idempotencyKey traceparent db).map (·.2)
  | .applyResult store executionId result =>
      (applyResult store call.now executionId result db).map (·.2)
  | .confirmMonitor monitorId params => (confirmMonitor call.now monitorId params db).map (·.2)
  | .patchMonitor id params => (patchMonitor call.now id params db).map (·.2)
  | .reviewRevision monitorId revisionId accept =>
      (reviewRevision call.now monitorId revisionId accept db).map (·.2)
  | .claimDueMonitors limit locked => (claimDueMonitors call.now limit locked db).map (·.2)
  | .sweepStaleExecutions runningStaleAfter maxAttempts limit locked =>
      (sweepStaleExecutions call.now runningStaleAfter maxAttempts limit locked db).map (·.2)
  | .processOutbox locked limit publish commits =>
      .ok (processOutbox db call.now locked limit publish commits).1

theorem commit_eq {α : Type} (transaction : Database → Except StoreError (α × Database))
    (db : Database) :
    commit transaction db =
      match (transaction db).map (·.2) with
      | .ok db' => db'
      | .error _ => db := by
  unfold commit
  cases transaction db <;> rfl

/-- A step is its transaction when that commits, and nothing when it aborts. -/
theorem step_eq (db : Database) (call : Call) :
    step db call =
      match outcome db call with
      | .ok db' => db'
      | .error _ => db := by
  obtain ⟨now, operation⟩ := call
  cases operation <;> simp only [step, outcome, commit_eq]

/-- The keys on `recovery_of` and of the repair attempts. -/
def violatesRecoveryKey : StoreError → Prop
  | .constraint name => name = "executions_recovery_of_unique" ∨
      name = "repair_attempts_execution_id_key" ∨
      name = "repair_attempts_monitor_id_failed_generation_key"
  | _ => False

/-- The error for a repair execution that no attempt points to. -/
def missesRepairAttempt : StoreError → Prop
  | .failed message =>
      ∃ id : UUID, message = "repair execution " ++ id.string ++ " has no repair attempt"
  | _ => False

def breaksRecovery (e : StoreError) : Prop :=
  violatesRecoveryKey e ∨ missesRepairAttempt e

section Errors

@[simp] theorem not_breaksRecovery_notFound : ¬ breaksRecovery .notFound := by
  simp [breaksRecovery, violatesRecoveryKey, missesRepairAttempt]

@[simp] theorem not_breaksRecovery_conflict : ¬ breaksRecovery .conflict := by
  simp [breaksRecovery, violatesRecoveryKey, missesRepairAttempt]

@[simp] theorem not_breaksRecovery_invalidResult (message : String) :
    ¬ breaksRecovery (.invalidResult message) := by
  simp [breaksRecovery, violatesRecoveryKey, missesRepairAttempt]

@[simp] theorem breaksRecovery_constraint (name : String) :
    breaksRecovery (.constraint name) ↔ name = "executions_recovery_of_unique" ∨
      name = "repair_attempts_execution_id_key" ∨
      name = "repair_attempts_monitor_id_failed_generation_key" := by
  simp [breaksRecovery, violatesRecoveryKey, missesRepairAttempt]

/-- A message that starts otherwise is another error. -/
theorem not_breaksRecovery_failed {message : String} (h : message.toList.head? ≠ some 'r') :
    ¬ breaksRecovery (.failed message) := by
  rintro (hkey | ⟨id, rfl⟩)
  · exact hkey
  · simp at h

@[simp] theorem not_breaksRecovery_noRows : ¬ breaksRecovery (.failed "no rows in result set") :=
  not_breaksRecovery_failed (by simp)

@[simp] theorem not_breaksRecovery_unsupported (name : String) :
    ¬ breaksRecovery (.failed ("unsupported action " ++ name)) :=
  not_breaksRecovery_failed (by simp)

end Errors

section Inserts

variable {now : Timestamp} {db : Database}

@[simp] theorem avoids_orNotFound {α : Type} {x : Option α} :
    Avoids breaksRecovery (orNotFound x) := by
  cases x <;> simp [orNotFound]

@[simp] theorem avoids_orNoRows {α : Type} {x : Option α} : Avoids breaksRecovery (orNoRows x) := by
  cases x <;> simp [orNoRows]

@[simp] theorem avoids_insertOutbox {subject : String} {message : WorkMessage} :
    Avoids breaksRecovery (insertOutbox db now subject message) := by
  simp [insertOutbox, avoids_insertRow]

@[simp] theorem avoids_insertMonitor {row : Monitor} :
    Avoids breaksRecovery (db.insertMonitor row) := by
  simp [Database.insertMonitor, avoids_insertRow]

@[simp] theorem avoids_insertRevision {row : Revision} :
    Avoids breaksRecovery (db.insertRevision row) := by
  simp [Database.insertRevision, avoids_insertRow]

@[simp] theorem avoids_insertObservation {row : Observation} :
    Avoids breaksRecovery (db.insertObservation row) := by
  simp [Database.insertObservation, avoids_insertRow]

@[simp] theorem avoids_insertAlert {row : Alert} : Avoids breaksRecovery (db.insertAlert row) := by
  simp [Database.insertAlert, avoids_insertRow]

@[simp] theorem avoids_insertAlertDelivery {row : AlertDelivery} :
    Avoids breaksRecovery (db.insertAlertDelivery row) := by
  unfold Database.insertAlertDelivery
  split <;> simp [avoids_insertRow]

@[simp] theorem avoids_insertArtifact {row : Artifact} :
    Avoids breaksRecovery (db.insertArtifact row) := by
  unfold Database.insertArtifact
  split <;> simp [avoids_insertRow]

/-- An execution that recovers none that has been recovered. -/
theorem avoids_insertExecution {row : Execution}
    (h : ∀ s ∈ db.executions, s.recoveryOf.isSome = true → s.recoveryOf ≠ row.recoveryOf) :
    Avoids breaksRecovery (db.insertExecution row) := by
  have hunique : ∀ s ∈ db.executions, s.recoveryOf = row.recoveryOf → row.recoveryOf = none := by
    intro s hs hsame
    by_contra hsome
    exact h s hs (by rwa [hsame, Option.isSome_iff_ne_none]) hsame
  simp +contextual [Database.insertExecution, avoids_insertRow]
  exact fun _ _ _ _ _ _ _ _ => hunique

theorem avoids_insertExecution_of_root (row : Execution) (h : row.recoveryOf = none) :
    Avoids breaksRecovery (db.insertExecution row) := by
  refine avoids_insertExecution fun s _ hsome hsame => ?_
  simp [hsame, h] at hsome

theorem avoids_insertRepairAttempt {row : RepairAttempt}
    (hexecution : ∀ a ∈ db.repairAttempts, a.executionId ≠ row.executionId)
    (hgeneration : ∀ a ∈ db.repairAttempts, a.monitorId = row.monitorId →
      a.failedGeneration ≠ row.failedGeneration) :
    Avoids breaksRecovery (db.insertRepairAttempt row) := by
  simp +contextual [Database.insertRepairAttempt, avoids_insertRow, hexecution, hgeneration]

end Inserts

section Operations

variable {now : Timestamp} {db : Database}

theorem avoids_createMonitor {params : CreateMonitorParams} :
    Avoids breaksRecovery (createMonitor now params db) := by
  simp [createMonitor, Database.newUUID,
    avoids_insertExecution_of_root (compileExecution _ _ _ _) rfl]

theorem avoids_getExecutionInput {id : UUID} :
    Avoids breaksRecovery (getExecutionInput now id db) := by
  simp only [getExecutionInput, avoids_bind, avoids_orNotFound, avoids_orNoRows, true_and]
  intro e _ m _
  split <;> simp

theorem avoids_enqueueCheck {monitorId : UUID} {idempotencyKey traceparent : String} :
    Avoids breaksRecovery (enqueueCheck now monitorId idempotencyKey traceparent db) := by
  unfold enqueueCheck
  split
  · exact avoids_ok
  · simp only [avoids_bind, avoids_orNotFound, true_and]
    intro m _
    split
    · split
      · simp
      · simp [Database.newUUID, avoids_insertExecution_of_root (checkExecution _ _ _ _ _ _) rfl]
    · simp

theorem avoids_claimDueMonitors {limit : Nat} {locked : UUID → Bool} :
    Avoids breaksRecovery (claimDueMonitors now limit locked db) := by
  simp only [claimDueMonitors, avoids_bind, avoids_pure, implies_true, and_true]
  refine avoids_foldlM (fun _ _ => True) (fun item rest s _ => ⟨?_, fun _ _ => trivial⟩) _ _ trivial
  simp [claimDueMonitor, Database.newUUID,
    avoids_insertExecution_of_root (checkExecution _ _ _ _ _ _) rfl]

theorem avoids_confirmMonitor {monitorId : UUID} {params : ConfirmMonitorParams} :
    Avoids breaksRecovery (confirmMonitor now monitorId params db) := by
  simp [confirmMonitor]

theorem avoids_patchMonitor {id : UUID} {params : PatchMonitorParams} :
    Avoids breaksRecovery (patchMonitor now id params db) := by
  unfold patchMonitor
  split <;> simp

theorem avoids_reviewRevision {monitorId revisionId : UUID} {accept : Bool} :
    Avoids breaksRecovery (reviewRevision now monitorId revisionId accept db) := by
  simp [reviewRevision]

theorem avoids_createAlert {store : OpenStore} {monitorId observationId : UUID} {key : String} :
    Avoids breaksRecovery (createAlert store now monitorId observationId key db) := by
  simp only [createAlert, Database.newUUID, avoids_bind, avoids_insertAlert, true_and]
  intro db₁ _
  refine avoids_foldlM (fun _ _ => True) (fun channel rest s _ => ⟨?_, fun _ _ => trivial⟩) _ _
    trivial
  simp [Database.newUUID]

theorem avoids_enqueueAlertConfirmation {e : Execution} {observationId : UUID} :
    Avoids breaksRecovery (enqueueAlertConfirmation now e observationId db) := by
  unfold enqueueAlertConfirmation
  split
  · exact avoids_ok
  · simp [Database.newUUID, avoids_insertExecution_of_root (confirmationExecution _ _ _ _) rfl]

theorem avoids_reactToCheck {store : OpenStore} {e : Execution} {observationId : UUID}
    {matched previousMatched : Bool} :
    Avoids breaksRecovery (reactToCheck store now e observationId matched previousMatched db) := by
  simp [reactToCheck, avoids_createAlert, avoids_enqueueAlertConfirmation]

theorem avoids_observationVerification {observation : ResultObservation} :
    Avoids breaksRecovery (observationVerification observation) := by
  unfold observationVerification
  split <;> simp

theorem avoids_applyObservation {store : OpenStore} {e : Execution}
    {observation : ResultObservation} :
    Avoids breaksRecovery (applyObservation store now e observation db) := by
  simp [applyObservation, Database.newUUID, avoids_observationVerification, avoids_reactToCheck]

theorem avoids_revisionSource {kind : ExecutionKind} :
    Avoids breaksRecovery (revisionSource kind) := by
  cases kind <;> simp [revisionSource]

theorem avoids_applyPlanResult {e : Execution} {plan : Json} {autoPromote : Bool} :
    Avoids breaksRecovery (applyPlanResult now e plan autoPromote db) := by
  simp only [applyPlanResult, Database.newUUID, avoids_bind, avoids_revisionSource,
    avoids_insertRevision, true_and]
  intro source _ db₁ _
  split
  · exact avoids_pure
  · split <;> exact avoids_pure

theorem avoids_insertArtifacts {e : Execution} {artifacts : List ResultArtifact} :
    Avoids breaksRecovery (insertArtifacts now e artifacts db) := by
  refine avoids_foldlM (fun _ _ => True) (fun artifact rest s _ => ⟨?_, fun _ _ => trivial⟩) _ _
    trivial
  split <;> simp [Database.newUUID]

theorem avoids_validateResult {e : Execution} {result : ExecutionResult} :
    Avoids breaksRecovery (validateResult e result) := by
  unfold validateResult
  split
  · split <;> simp
  · split <;> split <;> simp

/-- The attempt of a repair in flight is the only row that its replacement repoints. -/
theorem count_attempt {e : Execution} (h : Lineage db) (hwell : WellFounded db e)
    (hkind : e.kind = .repair) :
    db.repairAttempts.count (fun a => decide (a.executionId = e.id)) = 1 := by
  obtain ⟨generation, -, -, a, ha, -, -, hexecution, -⟩ := hwell.2 hkind
  refine Table.count_eq_one ha (by simpa using hexecution) fun b hb hp => ?_
  exact h.attempts.execution b hb a ha ((of_decide_eq_true hp).trans hexecution.symm)

theorem nodup_repointed {e : Execution} {id : UUID} (h : Lineage db)
    (hfresh : ∀ a ∈ db.repairAttempts, a.executionId ≠ id) :
    ((repointedAttempts db e id).rows.map (·.executionId)).Nodup :=
  List.Nodup.map_on (fun a ha b hb => (h.attempts_repointed hfresh).execution a ha b hb)
    (repointedAttempts db e id).nodup_rows

theorem avoids_enqueueExecutionReplacement {e : Execution} (h : Coherent.Retiring db e)
    (hchildless : ∀ s ∈ db.executions, s.recoveryOf ≠ some e.id) :
    Avoids breaksRecovery (enqueueExecutionReplacement now e db) := by
  simp only [enqueueExecutionReplacement, Database.newUUID, avoids_bind, avoids_ite,
    avoids_insertOutbox, avoids_pure, implies_true, and_true]
  refine ⟨avoids_insertExecution fun s hs _ => hchildless s hs, fun db₁ hinsert hkind => ?_⟩
  obtain ⟨executions', happended, rfl, -⟩ := Database.insertExecution_ok hinsert
  have hlineage := h.coherent.lineage
  have hcount := count_attempt hlineage h.wellFounded hkind
  have hnodup := nodup_repointed (e := e) hlineage (hlineage.executionId_fresh happended)
  simp only [repointRepairAttempt, avoids_bind, avoids_require, hcount, ne_eq, not_true_eq_false,
    if_false, avoids_ok, implies_true, and_true]
  exact fun hnot => absurd hnodup hnot

theorem avoids_enqueueRepair {e : Execution} {generation : Nat} (h : Lineage db) :
    Avoids breaksRecovery (enqueueRepair now e generation db) := by
  unfold enqueueRepair
  split
  · exact avoids_ok
  · rename_i hnone
    simp only [Database.newUUID, avoids_bind, avoids_insertOutbox, avoids_pure, implies_true,
      and_true]
    refine ⟨avoids_insertExecution_of_root _ rfl, fun db₁ hinsert => ?_⟩
    obtain ⟨executions', happended, rfl, -⟩ := Database.insertExecution_ok hinsert
    refine avoids_insertRepairAttempt (h.executionId_fresh happended) fun a ha hmonitor hsame => ?_
    exact hnone (Table.any_eq_true_iff.mpr ⟨a, ha, by simpa using ⟨hmonitor, hsame⟩⟩)

theorem avoids_applyFailure {store : OpenStore} {e : Execution} {result : ExecutionResult}
    (h : Coherent.Retiring db e) (hchildless : ∀ s ∈ db.executions, s.recoveryOf ≠ some e.id) :
    Avoids breaksRecovery (applyFailure store now e result db) := by
  simp only [applyFailure, avoids_ite, avoids_map]
  refine ⟨fun _ => avoids_enqueueExecutionReplacement h hchildless, fun _ => ?_⟩
  split
  · exact avoids_ok
  · exact avoids_ok
  · split
    · rw [avoids_ite]
      exact ⟨fun _ => avoids_enqueueRepair h.coherent.lineage, fun _ => avoids_ok⟩
    · exact avoids_ok

theorem avoids_applyOutcome {store : OpenStore} {e : Execution} {result : ExecutionResult}
    (h : Coherent.Retiring db e) (hchildless : ∀ s ∈ db.executions, s.recoveryOf ≠ some e.id) :
    Avoids breaksRecovery (applyOutcome store now e result db) := by
  simp only [applyOutcome, avoids_ite, avoids_bind]
  refine ⟨fun _ => ⟨?_, fun db₁ _ => ?_⟩, fun _ => avoids_applyFailure h hchildless⟩
  · unfold applyPlan
    split
    · rw [avoids_ite]
      exact ⟨fun _ => avoids_applyPlanResult, fun _ => avoids_ok⟩
    · exact avoids_ok
  · split
    · exact avoids_applyObservation
    · exact avoids_pure

/-- No execution made terminal has been replaced. -/
theorem childless_retired {e e' : Execution} {db' : Database} (h : Linear db.executions)
    (hretired : Retired db e e' db') : ∀ s ∈ db'.executions, s.recoveryOf ≠ some e.id := by
  intro s hs
  rcases hretired.substituted.mem_cases hs with ⟨hs, -⟩ | rfl
  · exact h.childless hretired.mem hretired.inFlight s hs
  · rw [hretired.sameJob.recoveryOf]
    exact h.childless hretired.mem hretired.inFlight e hretired.mem

theorem avoids_applyResult {store : OpenStore} {executionId : UUID} {result : ExecutionResult}
    (h : Coherent db) (hlinear : Linear db.executions) :
    Avoids breaksRecovery (applyResult store now executionId result db) := by
  simp only [applyResult, avoids_bind, avoids_orNotFound, orNotFound_eq_ok, true_and]
  intro e hlookup
  obtain ⟨he, rfl⟩ := Table.lookup_eq_some_iff.mp hlookup
  rw [avoids_ite]
  refine ⟨fun _ => avoids_pure, fun hterminal => ?_⟩
  split
  · simp
  · rename_i state hstate
    simp only [avoids_bind, avoids_validateResult, avoids_insertArtifacts, avoids_orNotFound,
      avoids_pure, implies_true, true_and, and_true]
    intro _ _ db₁ hartifacts
    obtain ⟨artifacts', uuids', rfl⟩ := insertArtifacts_ok hartifacts
    have hretired := retired_recordResult result now artifacts' uuids' he
      (inFlight_of_not_terminal hterminal) (not_inFlight_of_validResultStatus hstate)
    exact avoids_applyOutcome (h.retired hretired) (childless_retired hlinear hretired)

theorem avoids_sweepStaleExecutions {runningStaleAfter : Timestamp} {maxAttempts limit : Nat}
    {locked : UUID → Bool} (h : Coherent db) (hlinear : Linear db.executions) :
    Avoids breaksRecovery
      (sweepStaleExecutions now runningStaleAfter maxAttempts limit locked db) := by
  refine avoids_foldlM
    (fun items s => StaleItems items s.2 ∧ Coherent s.2 ∧ Linear s.2.executions) ?_ _ _
    ⟨staleItems_staleExecutions db now runningStaleAfter locked limit, h, hlinear⟩
  rintro e rest ⟨recoveries, s⟩ ⟨hstale, hcoherent, hlinear⟩
  constructor
  · obtain ⟨he, hrunning⟩ := hstale.running e (List.mem_cons_self ..)
    obtain ⟨e', -, hretired⟩ := retired_failStale now he hrunning
    simp only [sweepExecution, avoids_ite]
    refine ⟨fun _ => avoids_ok, fun _ => ?_⟩
    split
    · exact avoids_ok
    · simp only [avoids_bind, avoids_pure, implies_true, and_true]
      exact avoids_enqueueExecutionReplacement (hcoherent.retired hretired)
        (childless_retired hlinear hretired)
  · rintro ⟨recoveries', s'⟩ hpass
    obtain ⟨rfl | heffect, hrest⟩ := sweepExecution_ok runningStaleAfter limit locked hstale hpass
    · exact ⟨hrest, hcoherent, hlinear⟩
    · exact ⟨hrest, hcoherent.effect heffect, hlinear.allWorked (worked_of_effect heffect)⟩

end Operations

/-- From a reachable state no transaction ends with an error that breaks recovery. -/
theorem avoids_outcome {db : Database} (h : StoreReachable db) (call : Call) :
    Avoids breaksRecovery (outcome db call) := by
  have hcoherent := coherent_of_reachable h
  have hlinear := linear_of_reachable h
  obtain ⟨now, operation⟩ := call
  cases operation with
  | createMonitor params => simpa [outcome] using avoids_createMonitor
  | getExecutionInput id => simpa [outcome] using avoids_getExecutionInput
  | enqueueCheck monitorId idempotencyKey traceparent => simpa [outcome] using avoids_enqueueCheck
  | applyResult store executionId result =>
      simpa [outcome] using avoids_applyResult hcoherent hlinear
  | confirmMonitor monitorId params => simpa [outcome] using avoids_confirmMonitor
  | patchMonitor id params => simpa [outcome] using avoids_patchMonitor
  | reviewRevision monitorId revisionId accept => simpa [outcome] using avoids_reviewRevision
  | claimDueMonitors limit locked => simpa [outcome] using avoids_claimDueMonitors
  | sweepStaleExecutions runningStaleAfter maxAttempts limit locked =>
      simpa [outcome] using avoids_sweepStaleExecutions hcoherent hlinear
  | processOutbox locked limit publish commits => exact avoids_ok

end PriceScout.Store.Aborts
