import PriceScout.Store.Persistence

/-!
Which results `ApplyResult` rejects as invalid. One that passes its checks is
never rejected so, whatever else a transaction may fail with.
-/

namespace PriceScout.Store.Rejections

open PriceScout.Domain
open PriceScout.Library.GoStrings
open PriceScout.Library.JsonDocuments
open PriceScout.Library.Runs
open PriceScout.Library.Tables
open PriceScout.Store.Alerts
open PriceScout.Store.Effects
open PriceScout.Store.Executions
open PriceScout.Store.Inversions
open PriceScout.Store.Monitors
open PriceScout.Store.Outbox
open PriceScout.Store.Persistence
open PriceScout.Store.Recovery
open PriceScout.Store.Schema

/-- The errors that wrap `ErrInvalidResult`. -/
def isInvalidResult : StoreError → Prop
  | .invalidResult _ => True
  | _ => False

@[simp] theorem isInvalidResult_invalidResult (message : String) :
    isInvalidResult (.invalidResult message) :=
  trivial

@[simp] theorem not_isInvalidResult_notFound : ¬ isInvalidResult .notFound :=
  id

@[simp] theorem not_isInvalidResult_conflict : ¬ isInvalidResult .conflict :=
  id

@[simp] theorem not_isInvalidResult_constraint (name : String) :
    ¬ isInvalidResult (.constraint name) :=
  id

@[simp] theorem not_isInvalidResult_failed (message : String) :
    ¬ isInvalidResult (.failed message) :=
  id

section Acceptance

variable {store : OpenStore} {now : Timestamp} {db : Database} {e : Execution}
  {result : ExecutionResult}

@[simp] theorem avoids_orNotFound {α : Type} {x : Option α} :
    Avoids isInvalidResult (orNotFound x) := by
  cases x <;> simp [orNotFound]

@[simp] theorem avoids_orNoRows {α : Type} {x : Option α} :
    Avoids isInvalidResult (orNoRows x) := by
  cases x <;> simp [orNoRows]

@[simp] theorem avoids_insertRow {α κ : Type} [DecidableEq κ] {key : α → κ} {table : Table key}
    {name : String} {row : α} : Avoids isInvalidResult (insertRow table name row) :=
  Schema.avoids_insertRow (not_isInvalidResult_constraint name)

@[simp] theorem avoids_insertOutbox {subject : String} {message : WorkMessage} :
    Avoids isInvalidResult (insertOutbox db now subject message) := by
  simp [insertOutbox]

@[simp] theorem avoids_insertRevision {row : Revision} :
    Avoids isInvalidResult (db.insertRevision row) := by
  simp [Database.insertRevision]

@[simp] theorem avoids_insertExecution {row : Execution} :
    Avoids isInvalidResult (db.insertExecution row) := by
  simp [Database.insertExecution]

@[simp] theorem avoids_insertObservation {row : Observation} :
    Avoids isInvalidResult (db.insertObservation row) := by
  simp [Database.insertObservation]

@[simp] theorem avoids_insertRepairAttempt {row : RepairAttempt} :
    Avoids isInvalidResult (db.insertRepairAttempt row) := by
  simp [Database.insertRepairAttempt]

@[simp] theorem avoids_insertAlert {row : Alert} : Avoids isInvalidResult (db.insertAlert row) := by
  simp [Database.insertAlert]

@[simp] theorem avoids_insertAlertDelivery {row : AlertDelivery} :
    Avoids isInvalidResult (db.insertAlertDelivery row) := by
  unfold Database.insertAlertDelivery
  split <;> simp

@[simp] theorem avoids_insertArtifact {row : Artifact} :
    Avoids isInvalidResult (db.insertArtifact row) := by
  unfold Database.insertArtifact
  split <;> simp

theorem avoids_createAlert {monitorId observationId : UUID} {key : String} :
    Avoids isInvalidResult (createAlert store now monitorId observationId key db) := by
  simp only [createAlert, Database.newUUID, avoids_bind, avoids_insertAlert, true_and]
  intro db₁ _
  refine avoids_foldlM (fun _ _ => True) (fun channel rest s _ => ⟨?_, fun _ _ => trivial⟩) _ _
    trivial
  exact avoids_insertAlertDelivery

theorem avoids_enqueueAlertConfirmation {observationId : UUID} :
    Avoids isInvalidResult (enqueueAlertConfirmation now e observationId db) := by
  simp [enqueueAlertConfirmation, Database.newUUID]

theorem avoids_reactToCheck {observationId : UUID} {matched previousMatched : Bool} :
    Avoids isInvalidResult (reactToCheck store now e observationId matched previousMatched db) := by
  simp [reactToCheck, avoids_createAlert, avoids_enqueueAlertConfirmation]

theorem avoids_applyObservation {observation : ResultObservation}
    (h : AcceptableObservation observation) :
    Avoids isInvalidResult (applyObservation store now e observation db) := by
  have hchecks : ¬ (observation.priceMinor ≤ 0 ∨ byteLength observation.currency ≠ 3 ∨
      trimSpace observation.title = "") := by
    rintro (hprice | hcurrency | htitle)
    · exact absurd h.price (not_lt.mpr hprice)
    · exact hcurrency h.currency
    · exact h.title htitle
  obtain ⟨verification, hverification⟩ := h.verification
  simp [applyObservation, hchecks, hverification, Database.newUUID, avoids_reactToCheck]

theorem avoids_applyPlanResult {plan : Json} {autoPromote : Bool} :
    Avoids isInvalidResult (applyPlanResult now e plan autoPromote db) := by
  simp only [applyPlanResult, Database.newUUID, avoids_bind, avoids_insertRevision, true_and]
  refine ⟨by cases hkind : e.kind <;> simp [revisionSource], fun source _ db₁ _ => ?_⟩
  split
  · exact avoids_pure
  · split <;> exact avoids_pure

theorem avoids_insertArtifacts {artifacts : List ResultArtifact}
    (h : ∀ artifact ∈ artifacts, validArtifact e artifact = true) :
    Avoids isInvalidResult (insertArtifacts now e artifacts db) := by
  refine avoids_foldlM (fun items _ => ∀ artifact ∈ items, validArtifact e artifact = true)
    (fun artifact rest s hitems => ⟨?_, fun _ _ other hother =>
      hitems other (List.mem_cons_of_mem _ hother)⟩) _ _ h
  simp [hitems artifact (List.mem_cons_self ..), Database.newUUID]

theorem avoids_repointRepairAttempt {id : UUID} :
    Avoids isInvalidResult (repointRepairAttempt db e id) := by
  simp only [repointRepairAttempt, avoids_bind, avoids_require, avoids_ite]
  exact ⟨fun _ => not_isInvalidResult_constraint _, fun _ _ =>
    ⟨fun _ => avoids_error.mpr (not_isInvalidResult_failed _), fun _ => avoids_ok⟩⟩

theorem avoids_enqueueExecutionReplacement :
    Avoids isInvalidResult (enqueueExecutionReplacement now e db) := by
  simp [enqueueExecutionReplacement, avoids_repointRepairAttempt, Database.newUUID]

theorem avoids_enqueueRepair {generation : Nat} :
    Avoids isInvalidResult (enqueueRepair now e generation db) := by
  simp [enqueueRepair, Database.newUUID]

theorem avoids_applyFailure : Avoids isInvalidResult (applyFailure store now e result db) := by
  simp only [applyFailure, avoids_ite, avoids_map]
  refine ⟨fun _ => avoids_enqueueExecutionReplacement, fun _ => ?_⟩
  split
  · exact avoids_ok
  · exact avoids_ok
  · split
    · rw [avoids_ite]
      exact ⟨fun _ => avoids_enqueueRepair, fun _ => avoids_ok⟩
    · exact avoids_ok

theorem avoids_applyOutcome (h : Acceptable e result) :
    Avoids isInvalidResult (applyOutcome store now e result db) := by
  simp only [applyOutcome, avoids_ite, avoids_bind]
  refine ⟨fun hstatus => ⟨?_, fun db₁ _ => ?_⟩, fun _ => avoids_applyFailure⟩
  · unfold applyPlan
    split
    · rw [avoids_ite]
      exact ⟨fun _ => avoids_applyPlanResult, fun _ => avoids_ok⟩
    · exact avoids_ok
  · split
    · rename_i observation hobservation
      exact avoids_applyObservation (h.observation hstatus observation hobservation)
    · exact avoids_pure

/-- A result that its execution can accept is not rejected as invalid. -/
theorem avoids_applyResult {executionId : UUID}
    (h : ∀ e ∈ db.executions, e.id = executionId → isTerminalExecution e.state = false →
      Acceptable e result) :
    Avoids isInvalidResult (applyResult store now executionId result db) := by
  simp only [applyResult, avoids_bind, avoids_orNotFound, orNotFound_eq_ok, true_and]
  intro e hlookup
  obtain ⟨he, hid⟩ := Table.lookup_eq_some_iff.mp hlookup
  rw [avoids_ite]
  refine ⟨fun _ => avoids_pure, fun hterminal => ?_⟩
  have haccept := h e he hid (by simpa using hterminal)
  obtain ⟨state, hstate⟩ := Option.isSome_iff_exists.mp haccept.status
  simp only [hstate, avoids_bind, avoids_orNotFound, avoids_pure, implies_true, and_true]
  refine ⟨?_, fun _ _ => ⟨avoids_insertArtifacts haccept.artifacts, fun db₁ _ =>
    avoids_applyOutcome haccept⟩⟩
  rw [haccept.valid]
  exact avoids_ok

end Acceptance

section Refusal

variable {store : OpenStore} {now : Timestamp} {db : Database} {e : Execution}
  {result : ExecutionResult}

/-- A database with one execution, of its one monitor. -/
def soleDatabase (e : Execution) : Database :=
  { Database.empty with
    monitors := ⟨[newMonitor 0 e.monitorId ⟨"https://shop.example/item", "price", 60, ""⟩],
      List.nodup_singleton _⟩
    executions := ⟨[e], List.nodup_singleton _⟩ }

/-- The monitor and the execution are there, and no plan yet. -/
structure Ready (e : Execution) (db : Database) : Prop where
  monitor : db.hasMonitor e.monitorId
  execution : db.hasExecution e.id
  revisions : db.revisions = .empty _
  artifacts : ∀ a ∈ db.artifacts, a.id.value < db.uuids

theorem ready_soleDatabase : Ready e (soleDatabase e) where
  monitor := Database.hasMonitor_iff.mpr ⟨_, List.mem_singleton_self _, rfl⟩
  execution := Database.hasExecution_iff.mpr ⟨e, List.mem_singleton_self _, rfl⟩
  revisions := rfl
  artifacts := fun _ ha => absurd ha (Table.not_mem_empty _)

theorem Ready.recordResult {state : ExecutionState} (h : Ready e db) :
    Ready e (recordResult now state result e.id db) := by
  obtain ⟨s, hs, hid⟩ := Database.hasExecution_iff.mp h.execution
  have hmem :
    withResult now state result s ∈ (Executions.recordResult now state result e.id db).executions :=
    Table.mem_update_of_pos hs (by simpa using hid)
  exact ⟨h.monitor, Database.hasExecution_iff.mpr ⟨_, hmem, hid⟩, h.revisions, h.artifacts⟩

/-- An artifact of an execution that exists is inserted, or is there already. -/
theorem insertArtifact_of_fresh (db : Database) (row : Artifact)
    (hexecution : db.hasExecution row.executionId) (hfresh : ∀ a ∈ db.artifacts, a.id ≠ row.id) :
    ∃ artifacts', db.insertArtifact row = .ok { db with artifacts := artifacts' } ∧
      ∀ a ∈ artifacts', a ∈ db.artifacts ∨ a = row := by
  unfold Database.insertArtifact
  split
  · exact ⟨db.artifacts, rfl, fun a ha => Or.inl ha⟩
  · obtain ⟨artifacts', hinsert, happended⟩ := insertRow_of_fresh "artifacts_pkey" hfresh
    refine ⟨artifacts', ?_, fun a ha => happended.mem_iff.mp ha⟩
    simp only [bind_eq_ok, require_eq_ok, pure_eq_ok]
    exact ⟨(), hexecution, artifacts', hinsert, rfl⟩

/-- Artifacts are refused as invalid, or all of them are valid and inserted. -/
theorem Ready.insertArtifacts_cases {artifacts : List ResultArtifact} (h : Ready e db) :
    (∃ message, insertArtifacts now e artifacts db = .error (.invalidResult message)) ∨
      (∀ artifact ∈ artifacts, validArtifact e artifact = true) ∧
        ∃ db', insertArtifacts now e artifacts db = .ok db' ∧ Ready e db' := by
  induction artifacts generalizing db with
  | nil => exact Or.inr ⟨by simp, db, rfl, h⟩
  | cons artifact rest ih =>
      simp only [insertArtifacts, List.foldlM_cons, List.forall_mem_cons]
      cases hvalid : validArtifact e artifact with
      | false => exact Or.inl ⟨_, rfl⟩
      | true =>
          let row : Artifact :=
            { id := ⟨db.uuids⟩, executionId := e.id, kind := artifact.kind,
              storageKey := artifact.storageKey, contentType := artifact.contentType,
              sha256 := nullIfEmpty artifact.sha256,
              sizeBytes := if artifact.sizeBytes = 0 then none else some artifact.sizeBytes,
              createdAt := now }
          obtain ⟨artifacts', hinsert, hmem⟩ := insertArtifact_of_fresh
            { db with uuids := db.uuids + 1 } row h.execution
            (fun a ha hid => (h.artifacts a ha).ne (congrArg UUID.value hid))
          have hready : Ready e { db with artifacts := artifacts', uuids := db.uuids + 1 } := by
            refine ⟨h.monitor, h.execution, h.revisions, fun a ha => ?_⟩
            rcases hmem a ha with hold | rfl
            · exact (h.artifacts a hold).trans (Nat.lt_succ_self _)
            · exact Nat.lt_succ_self _
          rcases ih hready with ⟨message, hmessage⟩ | ⟨hvalid', db', hok, hdone⟩
          · refine Or.inl ⟨message, ?_⟩
            simp only [Database.newUUID, if_true]
            rw [hinsert]
            exact hmessage
          · refine Or.inr ⟨⟨rfl, hvalid'⟩, db', ?_, hdone⟩
            simp only [Database.newUUID, if_true]
            rw [hinsert]
            exact hok

/-- The first revision of a monitor is inserted. -/
theorem avoids_insertRevision_of_empty {row : Revision} {bad : StoreError → Prop}
    (hmonitor : db.hasMonitor row.monitorId) (hgeneration : 0 < row.generation)
    (hempty : db.revisions = .empty _) : Avoids bad (db.insertRevision row) := by
  have hnone : ∀ r, r ∉ db.revisions := fun r hr => Table.not_mem_empty r (hempty ▸ hr)
  have hunique : db.revisions.any (fun r =>
      r.monitorId = row.monitorId ∧ r.generation = row.generation) = false :=
    Table.any_eq_false_iff.mpr fun r hr => absurd hr (hnone r)
  obtain ⟨revisions', hinsert⟩ : ∃ revisions',
      insertRow db.revisions "monitor_revisions_pkey" row = .ok revisions' :=
    (insertRow_of_fresh _ fun r hr => absurd hr (hnone r)).imp fun _ h => h.1
  simp only [Database.insertRevision, avoids_bind, avoids_require, hinsert]
  exact ⟨fun h => absurd hmonitor h, fun _ _ => ⟨fun h => absurd hgeneration h, fun _ _ =>
    ⟨fun h => absurd hunique h, fun _ _ => ⟨avoids_ok, fun _ _ => avoids_pure⟩⟩⟩⟩

/-- A plan is taken by a monitor without one. -/
theorem Ready.applyPlan_ok (h : Ready e db) :
    ∃ db', applyPlan now e result db = .ok db' ∧ db'.hasMonitor e.monitorId := by
  unfold applyPlan
  split
  · rename_i plan hplan
    split
    · rename_i hkind
      have hruns : Avoids (fun _ => True) (applyPlanResult now e plan result.autoPromote db) := by
        simp only [applyPlanResult, Database.newUUID, avoids_bind]
        refine ⟨?_, fun source _ => ⟨?_, fun db₁ _ => ?_⟩⟩
        · rcases hkind with hkind | hkind <;> simp [hkind, revisionSource]
        · exact avoids_insertRevision_of_empty h.monitor (Nat.succ_pos _) h.revisions
        · split
          · exact avoids_pure
          · split <;> exact avoids_pure
      obtain ⟨db', hok⟩ := exists_ok_of_avoids hruns
      have hcheck : e.kind ≠ .check := by
        rcases hkind with hkind | hkind <;> simp [hkind]
      exact ⟨db', hok, (Persists.planEffect (applyPlanResult_ok hcheck hok)).hasMonitor h.monitor⟩
    · exact ⟨db, rfl, h.monitor⟩
  · exact ⟨db, rfl, h.monitor⟩

theorem observationVerification_cases (observation : ResultObservation) :
    (∃ verification, observationVerification observation = .ok verification) ∨
      ∃ message, observationVerification observation = .error (.invalidResult message) := by
  unfold observationVerification
  split
  · exact Or.inl ⟨_, rfl⟩
  · exact Or.inl ⟨_, rfl⟩
  · exact Or.inl ⟨_, rfl⟩
  · exact Or.inr ⟨_, rfl⟩

/-- An observation that fails its checks is refused as invalid. -/
theorem applyObservation_invalid {observation : ResultObservation}
    (hmonitor : db.hasMonitor e.monitorId) (h : ¬ AcceptableObservation observation) :
    ∃ message, applyObservation store now e observation db = .error (.invalidResult message) := by
  unfold applyObservation
  by_cases hchecks : observation.priceMinor ≤ 0 ∨ byteLength observation.currency ≠ 3 ∨
      trimSpace observation.title = ""
  · exact ⟨_, by rw [if_pos hchecks]; rfl⟩
  · rw [if_neg hchecks]
    obtain ⟨m, hm⟩ := Option.isSome_iff_exists.mp hmonitor
    rcases observationVerification_cases observation with hverification | ⟨message, hmessage⟩
    · simp only [not_or, not_le, not_not] at hchecks
      exact absurd ⟨hchecks.1, hchecks.2.1, hchecks.2.2, hverification⟩ h
    · exact ⟨message, by simp only [hm, hmessage, orNoRows]; rfl⟩

theorem validateResult_cases (e : Execution) (result : ExecutionResult) :
    validateResult e result = .ok () ∨
      ∃ message, validateResult e result = .error (.invalidResult message) := by
  unfold validateResult
  split
  · split
    · exact Or.inr ⟨_, rfl⟩
    · exact Or.inl rfl
  · split <;> split
    all_goals first | exact Or.inr ⟨_, rfl⟩ | exact Or.inl rfl

/-- A result that an execution cannot accept is refused as invalid. -/
theorem refused_of_not_acceptable (hlive : isTerminalExecution e.state = false)
    (h : ¬ Acceptable e result) :
    ∃ message, applyResult store now e.id result (soleDatabase e) =
      .error (.invalidResult message) := by
  have hlookup : (soleDatabase e).executions.lookup e.id = some e :=
    Table.lookup_eq_some_iff.mpr ⟨List.mem_singleton_self _, rfl⟩
  simp only [applyResult, hlookup, orNotFound, ok_bind, hlive, Bool.false_eq_true, if_false]
  cases hstatus : validResultStatus result.status with
  | none => exact ⟨_, rfl⟩
  | some state =>
      rcases validateResult_cases e result with hvalid | ⟨message, hmessage⟩
      · simp only [hvalid, ok_bind]
        have hready : Ready e (recordResult now state result e.id (soleDatabase e)) :=
          ready_soleDatabase.recordResult
        rcases hready.insertArtifacts_cases with
          ⟨message, hmessage⟩ | ⟨hartifacts, db₁, hok, hready⟩
        · exact ⟨message, by rw [hmessage, error_bind]⟩
        · obtain ⟨hsucceeded, observation, hobservation, hrefused⟩ :
              result.status = "succeeded" ∧ ∃ observation, result.observation = some observation ∧
                ¬ AcceptableObservation observation := by
            by_contra hnone
            exact h ⟨by simp [hstatus], hvalid, hartifacts,
              fun hsucceeded observation hobservation =>
              by_contra fun hrefused => hnone ⟨hsucceeded, observation, hobservation, hrefused⟩⟩
          obtain ⟨db₂, hplan, hmonitor⟩ : ∃ db₂, applyPlan now e result db₁ = .ok db₂ ∧
              db₂.hasMonitor e.monitorId := hready.applyPlan_ok
          obtain ⟨message, hmessage⟩ : ∃ message, applyObservation store now e observation db₂ =
              .error (.invalidResult message) := applyObservation_invalid hmonitor hrefused
          refine ⟨message, ?_⟩
          simp only [hok, ok_bind, applyOutcome, if_pos hsucceeded, hplan, hobservation, hmessage,
            error_bind]
      · exact ⟨message, by simp only [hmessage, error_bind]⟩

end Refusal

end PriceScout.Store.Rejections
