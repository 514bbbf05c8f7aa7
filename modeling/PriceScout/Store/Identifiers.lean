import PriceScout.Library.Postconditions
import PriceScout.Store.Inversions

/-!
Identifiers are drawn before they are used: every row of a reachable state has
a key that the next draw differs from.
-/

namespace PriceScout.Store.Identifiers

open PriceScout.Domain
open PriceScout.Library.JsonDocuments
open PriceScout.Library.Postconditions
open PriceScout.Library.Runs
open PriceScout.Library.Tables
open PriceScout.Store.Alerts
open PriceScout.Store.Executions
open PriceScout.Store.Inversions
open PriceScout.Store.Monitors
open PriceScout.Store.Operations
open PriceScout.Store.Outbox
open PriceScout.Store.Recovery
open PriceScout.Store.Schema

section Keys

variable {α : Type} {key : α → UUID} {t t' : Table key} {n n' : Nat}

/-- The keys of a table were drawn before the identifier number `n`. -/
def Below (n : Nat) (t : Table key) : Prop :=
  ∀ r ∈ t, (key r).value < n

theorem Below.empty : Below n (Table.empty key) :=
  fun r hr => absurd hr (Table.not_mem_empty r)

theorem Below.mono (h : Below n t) (hn : n ≤ n') : Below n' t :=
  fun r hr => (h r hr).trans_le hn

theorem Below.update {p : α → Bool} {f : α → α} {hf : ∀ r, key (f r) = key r} (h : Below n t) :
    Below n (t.update p f hf) := by
  intro r hr
  obtain ⟨s, hs, hkey, -⟩ := Table.exists_mem_of_mem_update hr
  rw [← hkey]
  exact h s hs

theorem Below.appended {r : α} (h : Below n t) (happ : t.Appended r t') (hr : (key r).value < n) :
    Below n t' :=
  Table.forall_appended happ h hr

theorem Below.key_ne {r : α} {id : UUID} (h : Below n t) (hid : id.value = n) (hr : r ∈ t) :
    key r ≠ id := by
  rintro rfl
  exact (h r hr).ne hid

end Keys

/-- No identifier that a table uses will be drawn again. -/
structure Fresh (db : Database) : Prop where
  monitors : Below db.uuids db.monitors
  revisions : Below db.uuids db.revisions
  executions : Below db.uuids db.executions
  observations : Below db.uuids db.observations
  repairAttempts : Below db.uuids db.repairAttempts
  alerts : Below db.uuids db.alerts
  alertDeliveries : Below db.uuids db.alertDeliveries
  artifacts : Below db.uuids db.artifacts

/-- `db'` comes after `db`: identifiers were only drawn, and are still fresh. -/
structure Drawn (db db' : Database) : Prop where
  fresh : Fresh db'
  uuids : db.uuids ≤ db'.uuids

theorem Fresh.empty : Fresh Database.empty :=
  ⟨.empty, .empty, .empty, .empty, .empty, .empty, .empty, .empty⟩

theorem Fresh.drawn {db : Database} (h : Fresh db) : Drawn db db :=
  ⟨h, le_refl _⟩

theorem Drawn.trans {db db' db'' : Database} (h : Drawn db db') (h' : Drawn db' db'') :
    Drawn db db'' :=
  ⟨h'.fresh, h.uuids.trans h'.uuids⟩

section Statements

variable {now : Timestamp} {db : Database}

/-- `uuid.New`. -/
theorem Fresh.newUUID (h : Fresh db) : Drawn db { db with uuids := db.uuids + 1 } := by
  have hle : db.uuids ≤ db.uuids + 1 := Nat.le_succ _
  exact ⟨⟨h.monitors.mono hle, h.revisions.mono hle, h.executions.mono hle,
    h.observations.mono hle, h.repairAttempts.mono hle, h.alerts.mono hle,
    h.alertDeliveries.mono hle, h.artifacts.mono hle⟩, hle⟩

theorem drawn_updateMonitors {p : Monitor → Bool} {f : Monitor → Monitor}
    {hf : ∀ m, (f m).id = m.id} (h : Fresh db) :
    Drawn db { db with monitors := db.monitors.update p f hf } :=
  ⟨{ h with monitors := h.monitors.update }, le_refl _⟩

theorem drawn_updateRevisions {p : Revision → Bool} {f : Revision → Revision}
    {hf : ∀ r, (f r).id = r.id} (h : Fresh db) : Drawn db (db.updateRevisions p f hf) :=
  ⟨{ h with revisions := h.revisions.update }, le_refl _⟩

theorem drawn_updateExecutions {p : Execution → Bool} {f : Execution → Execution}
    {hf : ∀ e, (f e).id = e.id} (h : Fresh db) :
    Drawn db { db with executions := db.executions.update p f hf } :=
  ⟨{ h with executions := h.executions.update }, le_refl _⟩

theorem drawn_updateRepairAttempts {p : RepairAttempt → Bool} {f : RepairAttempt → RepairAttempt}
    {hf : ∀ a, (f a).id = a.id} (h : Fresh db) : Drawn db (db.updateRepairAttempts p f hf) :=
  ⟨{ h with repairAttempts := h.repairAttempts.update }, le_refl _⟩

theorem ends_insertMonitor {row : Monitor} (h : Fresh db) (hid : row.id.value < db.uuids) :
    Ends (Drawn db) (db.insertMonitor row) := by
  intro db' hok
  obtain ⟨-, monitors', happended, rfl⟩ := Database.insertMonitor_ok hok
  exact ⟨{ h with monitors := h.monitors.appended happended hid }, le_refl _⟩

theorem ends_insertRevision {row : Revision} (h : Fresh db) (hid : row.id.value < db.uuids) :
    Ends (Drawn db) (db.insertRevision row) := by
  intro db' hok
  obtain ⟨revisions', happended, rfl, -⟩ := Database.insertRevision_ok hok
  exact ⟨{ h with revisions := h.revisions.appended happended hid }, le_refl _⟩

theorem ends_insertExecution {row : Execution} (h : Fresh db) (hid : row.id.value < db.uuids) :
    Ends (Drawn db) (db.insertExecution row) := by
  intro db' hok
  obtain ⟨executions', happended, rfl, -⟩ := Database.insertExecution_ok hok
  exact ⟨{ h with executions := h.executions.appended happended hid }, le_refl _⟩

theorem ends_insertObservation {row : Observation} (h : Fresh db) (hid : row.id.value < db.uuids) :
    Ends (Drawn db) (db.insertObservation row) := by
  intro db' hok
  obtain ⟨observations', happended, rfl, -⟩ := Database.insertObservation_ok hok
  exact ⟨{ h with observations := h.observations.appended happended hid }, le_refl _⟩

theorem ends_insertRepairAttempt {row : RepairAttempt} (h : Fresh db)
    (hid : row.id.value < db.uuids) : Ends (Drawn db) (db.insertRepairAttempt row) := by
  intro db' hok
  obtain ⟨repairAttempts', happended, rfl, -⟩ := Database.insertRepairAttempt_ok hok
  exact ⟨{ h with repairAttempts := h.repairAttempts.appended happended hid }, le_refl _⟩

theorem ends_insertAlert {row : Alert} (h : Fresh db) (hid : row.id.value < db.uuids) :
    Ends (Drawn db) (db.insertAlert row) := by
  intro db' hok
  obtain ⟨alerts', happended, rfl⟩ := Database.insertAlert_ok hok
  exact ⟨{ h with alerts := h.alerts.appended happended hid }, le_refl _⟩

theorem ends_insertAlertDelivery {row : AlertDelivery} (h : Fresh db)
    (hid : row.id.value < db.uuids) : Ends (Drawn db) (db.insertAlertDelivery row) := by
  simp only [Database.insertAlertDelivery, ends_ite, ends_ok, ends_bind, ends_pure]
  refine ⟨fun _ => h.drawn, fun _ _ _ table hinsert => ⟨?_, le_refl _⟩⟩
  exact { h with alertDeliveries := h.alertDeliveries.appended (appended_of_insertRow hinsert) hid }

theorem ends_insertArtifact {row : Artifact} (h : Fresh db) (hid : row.id.value < db.uuids) :
    Ends (Drawn db) (db.insertArtifact row) := by
  simp only [Database.insertArtifact, ends_ite, ends_ok, ends_bind, ends_pure]
  refine ⟨fun _ => h.drawn, fun _ _ _ table hinsert => ⟨?_, le_refl _⟩⟩
  exact { h with artifacts := h.artifacts.appended (appended_of_insertRow hinsert) hid }

theorem ends_insertOutbox {subject : String} {message : WorkMessage} (h : Fresh db) :
    Ends (Drawn db) (insertOutbox db now subject message) := by
  simp only [insertOutbox, ends_bind, ends_pure]
  exact fun _ _ => ⟨{ h with }, le_refl _⟩

end Statements

section Operations

variable {now : Timestamp} {db db₁ : Database} {e : Execution} {store : OpenStore}

/-- What comes later than a later state. -/
theorem Drawn.ends {x : Except StoreError Database} (h : Drawn db db₁)
    (hx : Fresh db₁ → Ends (Drawn db₁) x) : Ends (Drawn db) x :=
  (hx h.fresh).imp fun _ => h.trans

theorem ends_createMonitor {params : CreateMonitorParams} (h : Fresh db) :
    Ends (fun result => Drawn db result.2) (createMonitor now params db) := by
  simp only [createMonitor, Database.newUUID, ends_bind, ends_pure]
  have hdrawn : Drawn db { db with uuids := db.uuids + 1 + 1 } :=
    h.newUUID.trans h.newUUID.fresh.newUUID
  refine (ends_insertMonitor hdrawn.fresh ?_).imp fun db₁ h₁ => ?_
  · exact Nat.lt_succ_of_lt (Nat.lt_succ_self _)
  refine (ends_insertExecution h₁.fresh ?_).imp fun db₂ h₂ => ?_
  · exact (Nat.lt_succ_self (db.uuids + 1)).trans_le h₁.uuids
  refine (ends_insertOutbox h₂.fresh).imp fun db₃ h₃ => ?_
  exact fun _ _ _ _ => ((hdrawn.trans h₁).trans h₂).trans h₃

theorem drawn_claimExecution (h : Fresh db) : Drawn db (claimExecution now e db).2 := by
  unfold claimExecution
  split
  · dsimp only
    split
    · refine Drawn.trans (drawn_updateExecutions h) (drawn_updateRepairAttempts ?_)
      exact (drawn_updateExecutions h).fresh
    · exact drawn_updateExecutions h
  · exact drawn_updateExecutions h
  · exact h.drawn

theorem ends_getExecutionInput {id : UUID} (h : Fresh db) :
    Ends (fun result => Drawn db result.2) (getExecutionInput now id db) := by
  simp only [getExecutionInput, ends_bind]
  intro s _ m _
  split
  · exact ends_pure.mpr (drawn_claimExecution h)
  · simp only [ends_bind, ends_pure]
    exact fun _ _ => drawn_claimExecution h

/-- A new execution and its message. -/
theorem ends_enqueue {row : Execution} {subject : String} {message : WorkMessage} (h : Fresh db)
    (hid : row.id = ⟨db.uuids⟩) :
    Ends (fun db₁ => Ends (Drawn db) (insertOutbox db₁ now subject message))
      ({ db with uuids := db.uuids + 1 }.insertExecution row) := by
  refine (ends_insertExecution h.newUUID.fresh ?_).imp fun db₁ h₁ => ?_
  · rw [hid]
    exact Nat.lt_succ_self _
  · exact (h.newUUID.trans h₁).ends ends_insertOutbox

theorem ends_enqueueCheck {monitorId : UUID} {idempotencyKey traceparent : String}
    (h : Fresh db) :
    Ends (fun result => Drawn db result.2)
      (enqueueCheck now monitorId idempotencyKey traceparent db) := by
  unfold enqueueCheck
  split
  · exact ends_ok.mpr h.drawn
  · simp only [ends_bind]
    intro m _
    split
    · split
      · exact ends_throw
      · simp only [Database.newUUID, ends_bind, ends_pure]
        intro r _
        exact ends_enqueue h rfl
    · exact ends_throw

theorem ends_claimDueMonitor {item : UUID × UUID} (h : Fresh db) :
    Ends (Drawn db) (claimDueMonitor now db item) := by
  simp only [claimDueMonitor, Database.newUUID, ends_bind, ends_pure]
  intro r _
  refine (ends_enqueue h rfl).imp fun db₁ h₁ => h₁.imp fun db₂ h₂ => ?_
  exact h₂.trans (drawn_updateMonitors h₂.fresh)

theorem ends_claimDueMonitors {limit : Nat} {locked : UUID → Bool} (h : Fresh db) :
    Ends (fun result => Drawn db result.2) (claimDueMonitors now limit locked db) := by
  simp only [claimDueMonitors, ends_bind, ends_pure]
  exact ends_foldlM (fun s _ hs => hs.ends ends_claimDueMonitor) _ db h.drawn

theorem ends_confirmMonitor {monitorId : UUID} {params : ConfirmMonitorParams} (h : Fresh db) :
    Ends (fun result => Drawn db result.2) (confirmMonitor now monitorId params db) := by
  simp only [confirmMonitor, ends_bind, ends_ite, ends_throw, ends_pure, implies_true, true_and]
  intro _ _ m _
  exact ⟨{ h with revisions := h.revisions.update.update, monitors := h.monitors.update },
    le_refl _⟩

theorem ends_patchMonitor {id : UUID} {params : PatchMonitorParams} (h : Fresh db) :
    Ends (fun result => Drawn db result.2) (patchMonitor now id params db) := by
  unfold patchMonitor
  split
  · exact ends_error
  · simp only [ends_bind, ends_ite, ends_throw, ends_pure, implies_true, true_and]
    exact fun _ _ _ _ _ => drawn_updateMonitors h

theorem ends_reviewRevision {monitorId revisionId : UUID} {accept : Bool} (h : Fresh db) :
    Ends (fun result => Drawn db result.2) (reviewRevision now monitorId revisionId accept db) := by
  simp only [reviewRevision, ends_bind, ends_ite, ends_throw, ends_pure, implies_true, true_and]
  intro _ m _
  cases accept <;>
    exact ⟨{ h with
      revisions := h.revisions.update, monitors := h.monitors.update,
      repairAttempts := h.repairAttempts.update }, le_refl _⟩

theorem ends_repointRepairAttempt {id : UUID} (h : Fresh db) :
    Ends (Drawn db) (repointRepairAttempt db e id) := by
  simp only [repointRepairAttempt, ends_bind, ends_ite, ends_error, ends_ok, implies_true,
    true_and]
  exact fun _ _ _ => drawn_updateRepairAttempts h

theorem ends_enqueueExecutionReplacement (h : Fresh db) :
    Ends (fun result => Drawn db result.2) (enqueueExecutionReplacement now e db) := by
  simp only [enqueueExecutionReplacement, Database.newUUID, ends_bind]
  refine (ends_insertExecution h.newUUID.fresh (Nat.lt_succ_self _)).imp fun db₁ h₁ => ?_
  have hdrawn := h.newUUID.trans h₁
  simp only [ends_ite, ends_bind, ends_pure]
  refine ⟨fun _ => ?_, fun _ => ?_⟩
  · exact (hdrawn.ends ends_repointRepairAttempt).imp fun db₂ h₂ => h₂.ends ends_insertOutbox
  · exact hdrawn.ends ends_insertOutbox

theorem drawn_terminalizeStaleExecution {reason : String} (h : Fresh db) :
    Drawn db (terminalizeStaleExecution now e reason db) := by
  unfold terminalizeStaleExecution
  split
  · exact drawn_updateMonitors h
  · exact ⟨{ h with repairAttempts := h.repairAttempts.update, monitors := h.monitors.update },
      le_refl _⟩
  · exact h.drawn

theorem ends_sweepExecution {maxAttempts : Nat} {recoveries : List ExecutionRecovery}
    (h : Fresh db) :
    Ends (fun result => Drawn db result.2) (sweepExecution now maxAttempts (recoveries, db) e) := by
  have hfailed : Drawn db (failStale now e db) := drawn_updateExecutions h
  simp only [sweepExecution, ends_ite, ends_ok]
  refine ⟨fun _ => h.drawn, fun _ => ?_⟩
  split
  · exact ends_ok.mpr (hfailed.trans (drawn_terminalizeStaleExecution hfailed.fresh))
  · simp only [ends_bind, ends_pure]
    exact (ends_enqueueExecutionReplacement hfailed.fresh).imp fun _ => hfailed.trans

theorem ends_sweepStaleExecutions {runningStaleAfter : Timestamp} {maxAttempts limit : Nat}
    {locked : UUID → Bool} (h : Fresh db) :
    Ends (fun result => Drawn db result.2)
      (sweepStaleExecutions now runningStaleAfter maxAttempts limit locked db) :=
  ends_foldlM (P := fun s : List ExecutionRecovery × Database => Drawn db s.2)
    (fun _ _ hs => (ends_sweepExecution hs.fresh).imp fun _ => hs.trans) _ ([], db) h.drawn

theorem ends_createAlert {monitorId observationId : UUID} {idempotencyKey : String}
    (h : Fresh db) :
    Ends (Drawn db) (createAlert store now monitorId observationId idempotencyKey db) := by
  simp only [createAlert, Database.newUUID, ends_bind]
  refine (ends_insertAlert h.newUUID.fresh (Nat.lt_succ_self _)).imp fun db₁ h₁ => ?_
  refine ends_foldlM (fun s channel hs => hs.ends fun hfresh => ?_) _ db₁ (h.newUUID.trans h₁)
  exact hfresh.newUUID.ends fun hnew => ends_insertAlertDelivery hnew (Nat.lt_succ_self _)

theorem ends_enqueueAlertConfirmation {observationId : UUID} (h : Fresh db) :
    Ends (Drawn db) (enqueueAlertConfirmation now e observationId db) := by
  simp only [enqueueAlertConfirmation, Database.newUUID, ends_ite, ends_ok, ends_bind]
  exact ⟨fun _ => h.drawn, fun _ => ends_enqueue h rfl⟩

theorem ends_reactToCheck {observationId : UUID} {matched previousMatched : Bool} (h : Fresh db) :
    Ends (Drawn db) (reactToCheck store now e observationId matched previousMatched db) := by
  unfold reactToCheck
  extract_lets confirmation latched
  have hlatched : Drawn db latched := by
    unfold latched
    split
    · exact drawn_updateMonitors h
    · split
      · exact drawn_updateMonitors h
      · exact h.drawn
  simp only [ends_ite, ends_ok]
  exact ⟨fun _ => hlatched.ends ends_createAlert, fun _ =>
    ⟨fun _ => hlatched.ends ends_enqueueAlertConfirmation, fun _ => hlatched⟩⟩

theorem ends_applyObservation {observation : ResultObservation} (h : Fresh db) :
    Ends (Drawn db) (applyObservation store now e observation db) := by
  simp only [applyObservation, Database.newUUID, ends_bind, ends_ite, ends_throw, ends_pure,
    implies_true, true_and]
  intro _ m _ verification _
  refine (ends_insertObservation h.newUUID.fresh (Nat.lt_succ_self _)).imp fun db₁ h₁ => ?_
  have hdrawn := h.newUUID.trans h₁
  exact ⟨fun _ => hdrawn.ends ends_reactToCheck, fun _ => hdrawn⟩

theorem drawn_promoteRevision {revisionId failedRevisionId : UUID} (h : Fresh db) :
    ∀ db' ∈ promoteRevision now e revisionId failedRevisionId db, Drawn db db' := by
  intro db' hpromoted
  simp only [promoteRevision, Option.mem_def, Option.ite_none_right_eq_some, Option.some.injEq]
    at hpromoted
  rw [← hpromoted.2]
  exact ⟨{ h with
    revisions := h.revisions.update, monitors := h.monitors.update,
    repairAttempts := h.repairAttempts.update }, le_refl _⟩

theorem ends_applyPlanResult {plan : Json} {autoPromote : Bool} (h : Fresh db) :
    Ends (Drawn db) (applyPlanResult now e plan autoPromote db) := by
  simp only [applyPlanResult, Database.newUUID, ends_bind]
  intro source _
  refine (ends_insertRevision h.newUUID.fresh (Nat.lt_succ_self _)).imp fun db₁ h₁ => ?_
  have hdrawn := h.newUUID.trans h₁
  rw [ends_ite]
  refine ⟨fun _ => ends_pure.mpr (hdrawn.trans (drawn_updateMonitors hdrawn.fresh)), fun _ => ?_⟩
  generalize hupdate : db₁.updateRepairAttempts _ _ _ = db₂
  have hheld : Drawn db db₂ :=
    hupdate ▸ hdrawn.trans (drawn_updateRepairAttempts hdrawn.fresh)
  split
  · rename_i db₃ hpromoted
    refine ends_pure.mpr (hheld.trans ?_)
    split at hpromoted
    · obtain ⟨failed, -, hsome⟩ := Option.bind_eq_some_iff.mp hpromoted
      exact drawn_promoteRevision hheld.fresh _ hsome
    · cases hpromoted
  · exact ends_pure.mpr (hheld.trans (drawn_updateMonitors hheld.fresh))

theorem ends_enqueueRepair {generation : Nat} (h : Fresh db) :
    Ends (Drawn db) (enqueueRepair now e generation db) := by
  simp only [enqueueRepair, Database.newUUID, ends_ite, ends_ok, ends_bind, ends_pure]
  refine ⟨fun _ => h.drawn, fun _ => ?_⟩
  refine (ends_insertExecution h.newUUID.fresh (Nat.lt_succ_self _)).imp fun db₁ h₁ => ?_
  have hdrawn := (h.newUUID.trans h₁).trans h₁.fresh.newUUID
  refine (hdrawn.ends fun hfresh =>
    ends_insertRepairAttempt hfresh (Nat.lt_succ_self _)).imp fun db₂ h₂ => ?_
  refine (h₂.ends ends_insertOutbox).imp fun db₃ h₃ => ?_
  exact h₃.trans (drawn_updateMonitors h₃.fresh)

theorem drawn_applyCheckFailure {result : ExecutionResult} (h : Fresh db) :
    Drawn db (applyCheckFailure now e result db) := by
  unfold applyCheckFailure
  split
  · exact drawn_updateMonitors h
  · split
    · exact drawn_updateMonitors h
    · exact h.drawn

theorem ends_applyFailure {result : ExecutionResult} (h : Fresh db) :
    Ends (Drawn db) (applyFailure store now e result db) := by
  simp only [applyFailure, ends_ite, ends_map]
  refine ⟨fun _ => ends_enqueueExecutionReplacement h, fun _ => ?_⟩
  split
  · exact ends_ok.mpr (drawn_updateMonitors h)
  · exact ends_ok.mpr ⟨{ h with
      monitors := h.monitors.update, repairAttempts := h.repairAttempts.update }, le_refl _⟩
  · split
    · simp only [ends_ite, ends_ok]
      exact ⟨fun _ => ends_enqueueRepair h, fun _ => drawn_applyCheckFailure h⟩
    · exact ends_ok.mpr (drawn_applyCheckFailure h)

theorem ends_applyPlan {result : ExecutionResult} (h : Fresh db) :
    Ends (Drawn db) (applyPlan now e result db) := by
  unfold applyPlan
  split
  · simp only [ends_ite, ends_ok]
    exact ⟨fun _ => ends_applyPlanResult h, fun _ => h.drawn⟩
  · exact ends_ok.mpr h.drawn

theorem ends_applyOutcome {result : ExecutionResult} (h : Fresh db) :
    Ends (Drawn db) (applyOutcome store now e result db) := by
  simp only [applyOutcome, ends_ite, ends_bind]
  refine ⟨fun _ => (ends_applyPlan h).imp fun db₁ h₁ => ?_, fun _ => ends_applyFailure h⟩
  split
  · exact h₁.ends ends_applyObservation
  · exact ends_pure.mpr h₁

theorem ends_insertArtifacts {artifacts : List ResultArtifact} (h : Fresh db) :
    Ends (Drawn db) (insertArtifacts now e artifacts db) := by
  refine ends_foldlM (fun s artifact hs => ?_) _ db h.drawn
  simp only [ends_ite, ends_throw, implies_true, and_true]
  intro _
  exact (hs.trans hs.fresh.newUUID).ends fun hfresh =>
    ends_insertArtifact hfresh (Nat.lt_succ_self _)

theorem ends_applyResult {executionId : UUID} {result : ExecutionResult} (h : Fresh db) :
    Ends (fun answer => Drawn db answer.2) (applyResult store now executionId result db) := by
  simp only [applyResult, ends_bind, ends_ite, ends_pure]
  intro e _
  refine ⟨fun _ => h.drawn, fun _ => ?_⟩
  split
  · exact ends_throw
  · rename_i state _
    simp only [ends_bind, ends_pure]
    have hrecorded : Drawn db (recordResult now state result executionId db) :=
      drawn_updateExecutions h
    intro _ _
    refine (hrecorded.ends ends_insertArtifacts).imp fun db₁ h₁ => ?_
    exact (h₁.ends ends_applyOutcome).imp fun db₂ h₂ _ _ => h₂

end Operations

theorem Fresh.markPublished {db : Database} (h : Fresh db) (now : Timestamp) (id : Nat) :
    Fresh (markPublished db now id) :=
  { h with }

/-- The relay draws no identifiers. -/
theorem Fresh.publishBatch {now : Timestamp} {publish : OutboxRow → Except String Unit}
    {rows : List OutboxRow} {db : Database} (h : Fresh db) :
    Fresh (publishBatch now publish db rows).1 := by
  induction rows generalizing db with
  | nil => exact h
  | cons row rest ih =>
      unfold Outbox.publishBatch
      split
      · exact { h with }
      · exact ih (h.markPublished now row.id)

theorem Fresh.step {db : Database} (h : Fresh db) (call : Call) : Fresh (step db call) := by
  have committed : ∀ {α : Type} {transaction : Database → Except StoreError (α × Database)},
      Ends (fun result => Drawn db result.2) (transaction db) → Fresh (commit transaction db) := by
    intro α transaction hends
    rcases commit_cases transaction db with hsame | ⟨a, hok⟩
    · rw [hsame]
      exact h
    · exact (hends _ hok).fresh
  obtain ⟨now, operation⟩ := call
  cases operation with
  | createMonitor params => exact committed (ends_createMonitor h)
  | getExecutionInput id => exact committed (ends_getExecutionInput h)
  | enqueueCheck monitorId idempotencyKey traceparent => exact committed (ends_enqueueCheck h)
  | applyResult store executionId result => exact committed (ends_applyResult h)
  | confirmMonitor monitorId params => exact committed (ends_confirmMonitor h)
  | patchMonitor id params => exact committed (ends_patchMonitor h)
  | reviewRevision monitorId revisionId accept => exact committed (ends_reviewRevision h)
  | claimDueMonitors limit locked => exact committed (ends_claimDueMonitors h)
  | sweepStaleExecutions runningStaleAfter maxAttempts limit locked =>
      exact committed (ends_sweepStaleExecutions h)
  | processOutbox locked limit publish commits =>
      simp only [Operations.step, processOutbox]
      split
      · exact h.publishBatch
      · exact h

theorem fresh_of_reachable {db : Database} (h : StoreReachable db) : Fresh db :=
  Reachable.invariant Fresh.empty (fun _ call _ hfresh => hfresh.step call) h

end PriceScout.Store.Identifiers
