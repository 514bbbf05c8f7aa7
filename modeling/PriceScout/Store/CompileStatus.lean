import PriceScout.Store.Lifecycles
import PriceScout.Store.Promotion

/-!
A monitor that is compiling has its compile in flight, and one that awaits
confirmation has the one revision to be confirmed.
-/

namespace PriceScout.Store.CompileStatus

open PriceScout.Domain
open PriceScout.Library.JsonDocuments
open PriceScout.Library.Runs
open PriceScout.Library.Tables
open PriceScout.Store.Alerts
open PriceScout.Store.Effects
open PriceScout.Store.Executions
open PriceScout.Store.Generations
open PriceScout.Store.Inversions
open PriceScout.Store.Lifecycles
open PriceScout.Store.Monitors
open PriceScout.Store.Operations
open PriceScout.Store.Promotion
open PriceScout.Store.Recovery
open PriceScout.Store.Schema
open PriceScout.Store.Serialization

/-- The executions that compile the plan of a monitor and have not ended. -/
def compileOf (monitorId : UUID) (e : Execution) : Bool :=
  decide (e.kind = .compile) && inFlightOf monitorId e

/-- The revisions of a monitor that an operator has yet to confirm. -/
def awaitedOf (monitorId : UUID) (r : Revision) : Bool :=
  decide (r.monitorId = monitorId) && decide (r.validationState = .awaitingConfirmation)

def Compiling (executions : Table Execution.id) (monitorId : UUID) : Prop :=
  ∃ e ∈ executions, compileOf monitorId e = true

def Awaiting (revisions : Table Revision.id) (monitorId : UUID) : Prop :=
  ∃ r ∈ revisions, awaitedOf monitorId r = true

/-- What is to end the status of a monitor is there. -/
structure Attended (db : Database) (m : Monitor) : Prop where
  compiling : m.status = .compiling → Compiling db.executions m.id
  awaiting : m.status = .awaitingConfirmation → Awaiting db.revisions m.id

def AllAttended (db : Database) : Prop :=
  ∀ m ∈ db.monitors, Attended db m

/-- A monitor keeps its status and what is to end it. -/
structure Carries (db : Database) (m : Monitor) (db' : Database) (m' : Monitor) : Prop where
  id : m'.id = m.id
  status : m'.status = m.status
  compiling : Compiling db.executions m.id → Compiling db'.executions m.id
  awaiting : Awaiting db.revisions m.id → Awaiting db'.revisions m.id

theorem compileOf_iff {monitorId : UUID} {e : Execution} :
    compileOf monitorId e = true ↔
      e.kind = .compile ∧ e.monitorId = monitorId ∧ e.inFlight = true := by
  simp [compileOf, inFlightOf]

theorem awaitedOf_iff {monitorId : UUID} {r : Revision} :
    awaitedOf monitorId r = true ↔
      r.monitorId = monitorId ∧ r.validationState = .awaitingConfirmation := by
  simp [awaitedOf]

section Preservation

variable {now : Timestamp} {db db' db₁ : Database} {e e' : Execution} {m m' : Monitor}

theorem Attended.carries (h : Attended db m) (hcarries : Carries db m db' m') :
    Attended db' m' := by
  constructor
  · rw [hcarries.id, hcarries.status]
    exact fun hstatus => hcarries.compiling (h.compiling hstatus)
  · rw [hcarries.id, hcarries.status]
    exact fun hstatus => hcarries.awaiting (h.awaiting hstatus)

theorem attended_of_status (h : m.status ≠ .compiling) (h' : m.status ≠ .awaitingConfirmation) :
    Attended db m :=
  ⟨fun hstatus => absurd hstatus h, fun hstatus => absurd hstatus h'⟩

theorem Compiling.appended {executions executions' : Table Execution.id} {monitorId : UUID}
    (h : Compiling executions monitorId) (happended : executions.Appended e executions') :
    Compiling executions' monitorId := by
  obtain ⟨s, hs, hcompile⟩ := h
  exact ⟨s, happended.mem_of_mem hs, hcompile⟩

/-- An execution that moves on without ending leaves its monitor compiling. -/
theorem Compiling.substituted {executions executions' : Table Execution.id} {monitorId : UUID}
    (h : Compiling executions monitorId) (hsubstituted : executions.Substituted e e' executions')
    (hjob : SameJob e e') (hflight : e'.inFlight = true) : Compiling executions' monitorId := by
  obtain ⟨s, hs, hcompile⟩ := h
  by_cases hid : s.id = e.id
  · obtain rfl := Table.eq_of_key_eq hs hsubstituted.mem hid
    obtain ⟨hkind, hmonitor, -⟩ := compileOf_iff.mp hcompile
    refine ⟨e', hsubstituted.mem_new, compileOf_iff.mpr ⟨?_, ?_, hflight⟩⟩
    · rw [hjob.kind, hkind]
    · rw [hjob.monitorId, hmonitor]
  · exact ⟨s, hsubstituted.mem_of_ne hs hid, hcompile⟩

/-- The end of an execution ends the compiling of its own monitor at most. -/
theorem Compiling.retired {monitorId : UUID} (h : Compiling db.executions monitorId)
    (hretired : Retired db e e' db₁) :
    Compiling db₁.executions monitorId ∨ e.kind = .compile ∧ e.monitorId = monitorId := by
  obtain ⟨s, hs, hcompile⟩ := h
  by_cases hid : s.id = e.id
  · obtain rfl := Table.eq_of_key_eq hs hretired.mem hid
    obtain ⟨hkind, hmonitor, -⟩ := compileOf_iff.mp hcompile
    exact Or.inr ⟨hkind, hmonitor⟩
  · exact Or.inl ⟨s, hretired.mem_of_ne hs hid, hcompile⟩

/-- A decision on a revision leaves the revisions of other monitors alone. -/
theorem Awaiting.update {revisions : Table Revision.id} {monitorId : UUID} {p : Revision → Bool}
    {f : Revision → Revision} {hf : ∀ r, (f r).id = r.id} (h : Awaiting revisions monitorId)
    (hother : ∀ r, p r = true → r.monitorId ≠ monitorId) :
    Awaiting (revisions.update p f hf) monitorId := by
  obtain ⟨r, hr, hawaited⟩ := h
  refine ⟨r, Table.mem_update_of_neg hr ?_, hawaited⟩
  by_contra hp
  exact hother r (by simpa using hp) (awaitedOf_iff.mp hawaited).1

theorem Awaiting.appended {revisions revisions' : Table Revision.id} {r : Revision}
    {monitorId : UUID} (h : Awaiting revisions monitorId)
    (happended : revisions.Appended r revisions') : Awaiting revisions' monitorId := by
  obtain ⟨s, hs, hawaited⟩ := h
  exact ⟨s, happended.mem_of_mem hs, hawaited⟩

theorem monitorId_of_decidable {monitorId revisionId : UUID} {r : Revision}
    (h : decidable monitorId revisionId r = true) : r.monitorId = monitorId := by
  simp only [decidable, Bool.and_eq_true, decide_eq_true_eq] at h
  exact h.1.2

theorem monitorId_of_otherPending {monitorId revisionId : UUID} {r : Revision}
    (h : otherPending monitorId revisionId r = true) : r.monitorId = monitorId := by
  simp only [otherPending, Bool.and_eq_true, decide_eq_true_eq] at h
  exact h.1.1

/-- Monitors whose row and work stay as they are stay attended. -/
theorem AllAttended.congr (h : AllAttended db) (hmonitors : db'.monitors = db.monitors)
    (hcompiling : ∀ id, Compiling db.executions id → Compiling db'.executions id)
    (hrevisions : db'.revisions = db.revisions) : AllAttended db' := by
  intro m hm
  rw [hmonitors] at hm
  exact (h m hm).carries ⟨rfl, rfl, hcompiling m.id, by rw [hrevisions]; exact id⟩

theorem AllAttended.enqueued {traceparent : String} (h : AllAttended db)
    (henqueued : Enqueued now db e traceparent db') : AllAttended db' :=
  h.congr henqueued.monitors (fun _ hcompiling => hcompiling.appended henqueued.appended)
    henqueued.revisions

/-- An assignment to one monitor that takes it out of both statuses, or keeps its status. -/
theorem AllAttended.updateMonitor {id : UUID} {f : Monitor → Monitor} {hf : ∀ m, (f m).id = m.id}
    (h : AllAttended db)
    (hassign : ∀ m, (f m).status = m.status ∨
      (f m).status ≠ .compiling ∧ (f m).status ≠ .awaitingConfirmation) :
    AllAttended (db.updateMonitor id f hf) := by
  intro m' hm'
  rcases Table.mem_update_cases hm' with ⟨m, hm, -, rfl⟩ | ⟨hm, -⟩
  · rcases hassign m with hsame | ⟨hcompiling, hawaiting⟩
    · exact (h m hm).carries ⟨hf m, hsame, fun hc => hc, fun ha => ha⟩
    · exact attended_of_status hcompiling hawaiting
  · exact (h m' hm).carries ⟨rfl, rfl, fun hc => hc, fun ha => ha⟩

/-- A decision of the operator takes the monitor out of both statuses. -/
theorem AllAttended.decided {id : UUID} {f : Monitor → Monitor} {hf : ∀ m, (f m).id = m.id}
    (h : AllAttended db) (hexecutions : db'.executions = db.executions)
    (hmonitors : db'.monitors = db.monitors.update (fun m => decide (m.id = id)) f hf)
    (hassign : ∀ m, (f m).status ≠ .compiling ∧ (f m).status ≠ .awaitingConfirmation)
    (hothers : ∀ monitorId, monitorId ≠ id → Awaiting db.revisions monitorId →
      Awaiting db'.revisions monitorId) : AllAttended db' := by
  intro m' hm'
  rw [hmonitors] at hm'
  rcases Table.mem_update_cases hm' with ⟨m, hm, -, rfl⟩ | ⟨hm, hid⟩
  · exact attended_of_status (hassign m).1 (hassign m).2
  · refine (h m' hm).carries ⟨rfl, rfl, ?_, hothers m'.id (by simpa using hid)⟩
    rw [hexecutions]
    exact fun hc => hc

theorem AllAttended.empty : AllAttended Database.empty :=
  fun m hm => absurd hm (Table.not_mem_empty m)

/-- After the end of a check or a repair everything is attended as before. -/
theorem AllAttended.retired (h : AllAttended db) (hretired : Retired db e e' db₁)
    (hkind : e.kind ≠ .compile) : AllAttended db₁ := by
  refine h.congr hretired.monitors (fun id hcompiling => ?_) hretired.revisions
  rcases hcompiling.retired hretired with hcompiling | ⟨hcompile, -⟩
  · exact hcompiling
  · exact absurd hcompile hkind

/-- After the end of a compile all monitors but its own are attended as before. -/
theorem AllAttended.others (h : AllAttended db) (hretired : Retired db e e' db₁) :
    ∀ m ∈ db₁.monitors, m.id ≠ e.monitorId → Attended db₁ m := by
  intro m hm hid
  rw [hretired.monitors] at hm
  refine (h m hm).carries ⟨rfl, rfl, fun hcompiling => ?_, fun hawaiting => ?_⟩
  · rcases hcompiling.retired hretired with hcompiling | ⟨-, hown⟩
    · exact hcompiling
    · exact absurd hown.symm hid
  · rwa [hretired.revisions]

/-- A replacement carries on what its execution was to do. -/
theorem AllAttended.replaced (h : AllAttended db) (hretired : Retired db e e' db₁)
    (hreplaced : Replaced now db₁ e db') : AllAttended db' := by
  obtain ⟨id, happended⟩ := Replaced.appended hreplaced
  refine h.congr (hreplaced.monitors.trans hretired.monitors) (fun id hcompiling => ?_)
    (hreplaced.revisions.trans hretired.revisions)
  rcases hcompiling.retired hretired with hcompiling | ⟨hkind, hown⟩
  · exact hcompiling.appended happended
  · exact ⟨_, happended.mem, compileOf_iff.mpr ⟨hkind, hown, rfl⟩⟩

theorem AllAttended.terminalized {reason : String} (h : AllAttended db)
    (hretired : Retired db e e' db₁) :
    AllAttended (terminalizeStaleExecution now e reason db₁) := by
  unfold terminalizeStaleExecution
  cases hkind : e.kind with
  | compile =>
      intro m' hm'
      rcases Table.mem_update_cases hm' with ⟨m, hm, -, rfl⟩ | ⟨hm, hid⟩
      · exact attended_of_status (by simp) (by simp)
      · exact (h.others hretired m' hm (by simpa using hid)).carries
          ⟨rfl, rfl, fun hc => hc, fun ha => ha⟩
  | repair =>
      have h₁ := h.retired hretired (by simp [hkind])
      have hattempts :
        AllAttended (db₁.updateRepairAttempts (fun a => a.executionId = e.id) fun a =>
          { a with state := .failed, outcome := some reason, completedAt := some now }) :=
        h₁.congr rfl (fun _ hc => hc) rfl
      exact hattempts.updateMonitor fun _ => Or.inr (by simp)
  | check => exact h.retired hretired (by simp [hkind])

theorem AllAttended.effect {call : Call} (h : AllAttended db) (heffect : Effect call db db') :
    AllAttended db' := by
  cases heffect with
  | created monitorId executionId params monitors' db' hcall hinterval hmonitor henqueued =>
      intro m hm
      rw [henqueued.monitors] at hm
      rcases hmonitor.mem_iff.mp hm with hm | rfl
      · refine (h m hm).carries ⟨rfl, rfl, fun hc => hc.appended henqueued.appended, ?_⟩
        rw [henqueued.revisions]
        exact fun ha => ha
      · refine ⟨fun _ => ⟨_, henqueued.appended.mem, compileOf_iff.mpr ⟨rfl, rfl, rfl⟩⟩, ?_⟩
        exact fun hstatus => absurd hstatus (by simp [newMonitor])
  | claimed e e' executions' repairAttempts' hqueued hcall he' hexecution hattempts =>
      have hjob : SameJob e e' := by
        rw [he']
        exact ⟨rfl, rfl, rfl, rfl, rfl, rfl, rfl, rfl, rfl⟩
      have hflight : e'.inFlight = true := by
        rw [he']
        rfl
      exact h.congr rfl (fun _ hc => hc.substituted hexecution hjob hflight) rfl
  | renewed e e' executions' hrunning hcall he' hexecution =>
      have hjob : SameJob e e' := by
        rw [he']
        exact ⟨rfl, rfl, rfl, rfl, rfl, rfl, rfl, rfl, rfl⟩
      have hflight : e'.inFlight = true := by
        simp [he', Execution.inFlight, hrunning, ExecutionState.inFlight]
      exact h.congr rfl (fun _ hc => hc.substituted hexecution hjob hflight) rfl
  | checkQueued id m r idempotencyKey traceparent db' hcall hnew hadmitting henqueued =>
      exact h.enqueued henqueued
  | dueQueued id m r limit locked db' hcall hadmitting henqueued =>
      exact (h.enqueued henqueued).updateMonitor fun _ => Or.inl rfl
  | confirmed m r condition hcall hmonitor hrevision hdecidable =>
      refine h.decided rfl rfl (fun _ => by simp) fun monitorId hne hawaiting => ?_
      refine (hawaiting.update fun s hs heq => ?_).update fun s hs heq => ?_
      · exact hne (heq.symm.trans (monitorId_of_decidable hs))
      · exact hne (heq.symm.trans (monitorId_of_otherPending hs))
  | patched m params hcall hmonitor haction hinterval =>
      refine h.updateMonitor fun m => ?_
      unfold patchAssign
      cases params.action with
      | pause | resume => exact Or.inr (by simp)
      | none | unsupported name => exact Or.inl rfl
  | accepted m r hcall hmonitor hrevision hdecidable =>
      refine h.decided rfl rfl (fun _ => by simp) fun monitorId hne hawaiting => ?_
      exact hawaiting.update fun s hs heq => hne (heq.symm.trans (monitorId_of_decidable hs))
  | rejected m r hcall hmonitor hrevision hdecidable =>
      refine h.decided rfl rfl (fun m => ?_) fun monitorId hne hawaiting => ?_
      · cases m.currentRevisionId <;> simp
      · exact hawaiting.update fun s hs heq => hne (heq.symm.trans (monitorId_of_decidable hs))
  | terminalized e e' db₁ runningStaleAfter maxAttempts limit locked hcall hattempts hretired
      hrunning hfailed =>
      exact h.terminalized hretired
  | replaced e e' db₁ db' runningStaleAfter maxAttempts limit locked hcall hattempts hretired
      hrunning hfailed hreplaced =>
      exact h.replaced hretired hreplaced
  | published outbox' locked limit publish commits hcall hevolves =>
      exact h.congr rfl (fun _ hc => hc) rfl

/-- A compiled plan awaits its confirmation. -/
theorem AllAttended.compiled {id : UUID} {generation uuids' : Nat} {plan : Json}
    {revisions' : Table Revision.id}
    (hothers : ∀ m ∈ db.monitors, m.id ≠ e.monitorId → Attended db m) (hkind : e.kind = .compile)
    (hrevision :
      db.revisions.Appended (planRevision now id e generation .compile plan) revisions') :
    AllAttended
      { db with
        revisions := revisions', uuids := uuids'
        monitors := db.monitors.update (fun m => decide (m.id = e.monitorId)) fun m =>
          { m with status := .awaitingConfirmation, updatedAt := now } } := by
  intro m' hm'
  rcases Table.mem_update_cases hm' with ⟨m, hm, hid, rfl⟩ | ⟨hm, hid⟩
  · refine ⟨fun hstatus => by simp at hstatus, fun _ => ⟨_, hrevision.mem, awaitedOf_iff.mpr ?_⟩⟩
    exact ⟨(of_decide_eq_true hid).symm, by simp [planRevision, hkind]⟩
  · exact (hothers m' hm (by simpa using hid)).carries
      ⟨rfl, rfl, fun hc => hc, fun ha => ha.appended hrevision⟩

theorem AllAttended.planEffect {plan : Json} {autoPromote : Bool} (h : AllAttended db)
    (hretired : Retired db e e' db₁) (heffect : PlanEffect now e plan autoPromote db₁ db') :
    AllAttended db' := by
  cases heffect with
  | compiled id revisions' uuids' hkind hrevision =>
      exact AllAttended.compiled (h.others hretired) hkind hrevision
  | promoted id failedRevisionId m revisions' uuids' hkind hauto hfailed hmem hid hcurrent
      hrevision =>
      exact (h.retired hretired (by simp [hkind])).decided rfl rfl (fun _ => by simp)
        fun _ _ ha => ha.appended hrevision
  | held id revisions' uuids' hkind hheld hrevision =>
      exact (h.retired hretired (by simp [hkind])).decided rfl rfl (fun _ => by simp)
        fun _ _ ha => ha.appended hrevision

theorem AllAttended.recorded {observation : ResultObservation} {o : Observation}
    (h : AllAttended db) (hrecorded : Recorded now e observation db m o db') : AllAttended db' := by
  obtain ⟨hmonitors, hrevisions, -, -⟩ := hrecorded.unchanged
  exact h.congr hmonitors (by rw [hrecorded.executions]; exact fun _ hc => hc) hrevisions

theorem AllAttended.reaction {store : OpenStore} {o : Observation} (h : AllAttended db)
    (hreaction : Reaction store now e m o db db') : AllAttended db' := by
  cases hreaction with
  | diagnostic | unchanged => exact h
  | latched => exact h.updateMonitor fun _ => Or.inl rfl
  | alerted =>
      have hlatched : AllAttended (setConditionMatched now e.monitorId true db) :=
        h.updateMonitor fun _ => Or.inl rfl
      exact hlatched.congr rfl (fun _ hc => hc) rfl
  | confirmationQueued id db' hkind hverified hordinary hmatched hprevious henqueued =>
      exact h.enqueued henqueued

theorem AllAttended.holdForReview {monitorId : UUID} (h : AllAttended db) :
    AllAttended (holdForReview now monitorId db) :=
  h.updateMonitor fun _ => Or.inr (by simp)

theorem AllAttended.applyCheckFailure {result : ExecutionResult} (h : AllAttended db) :
    AllAttended (applyCheckFailure now e result db) := by
  unfold Executions.applyCheckFailure
  split
  · exact h.updateMonitor fun _ => Or.inr (by simp)
  · split
    · exact h.holdForReview
    · exact h

theorem AllAttended.failureEffect {store : OpenStore} {result : ExecutionResult}
    (h : AllAttended db) (hretired : Retired db e e' db₁)
    (heffect : FailureEffect store now e result db₁ db') : AllAttended db' := by
  cases heffect with
  | retried db' hretry hreplaced => exact h.replaced hretired hreplaced
  | compileFailed hkind =>
      intro m' hm'
      rcases Table.mem_update_cases hm' with ⟨m, hm, -, rfl⟩ | ⟨hm, hid⟩
      · by_cases hreview : result.status = "needs_review" <;>
          exact attended_of_status (by simp [hreview]) (by simp [hreview])
      · exact (h.others hretired m' hm (by simpa using hid)).carries
          ⟨rfl, rfl, fun hc => hc, fun ha => ha⟩
  | repairFailed hkind =>
      have h₁ := h.retired hretired (by simp [hkind])
      exact AllAttended.holdForReview (h₁.congr rfl (fun _ hc => hc) rfl)
  | checkFailed hkind hfresh => exact (h.retired hretired (by simp [hkind])).applyCheckFailure
  | repairExists a hkind hstale hmem hmonitor hgeneration =>
      exact h.retired hretired (by simp [hkind])
  | repairQueued id attemptId generation repairAttempts' uuids' db' hkind hstale hgeneration hnone
      hattempt henqueued =>
      have hqueued := (h.retired hretired (by simp [hkind])).enqueued henqueued
      exact AllAttended.holdForReview (hqueued.congr rfl (fun _ hc => hc) rfl)

theorem AllAttended.settled {store : OpenStore} {executionId : UUID} {result : ExecutionResult}
    (h : AllAttended db) (hsettled : Settled store now executionId result db e e' db₁ db') :
    AllAttended db' := by
  have hretired := hsettled.retired
  cases hsettled.outcome with
  | planned plan db' hstatus hkind hplan heffect hobservation => exact h.planEffect hretired heffect
  | plannedAndRecorded plan observation m o db₂ db' hstatus hkind hplan heffect hobservation
      hrecorded =>
      exact (h.planEffect hretired heffect).recorded hrecorded
  | observed observation m o db₂ db' hstatus hkind hobservation hrecorded hreaction =>
      exact ((h.retired hretired (by simp [hkind])).recorded hrecorded).reaction hreaction
  | failed db' hstatus heffect => exact h.failureEffect hretired heffect

end Preservation

theorem allAttended_of_reachable {db : Database} (h : StoreReachable db) : AllAttended db :=
  StoreReachable.invariant AllAttended.empty (fun _ _ _ => AllAttended.effect)
    (fun _ _ _ _ _ _ _ _ _ => AllAttended.settled) h

/-- In every reachable state, a compiling monitor has exactly one compile queued or
running, and one that awaits confirmation has exactly one revision to confirm. -/
theorem no_dead_end {db : Database} (h : StoreReachable db) {m : Monitor} (hm : m ∈ db.monitors) :
    (m.status = .compiling → db.executions.count (compileOf m.id) = 1) ∧
      (m.status = .awaitingConfirmation → db.revisions.count (awaitedOf m.id) = 1) := by
  have hattended := allAttended_of_reachable h m hm
  have hcoherent := coherent_of_reachable h
  constructor
  · intro hstatus
    obtain ⟨e, he, hcompile⟩ := hattended.compiling hstatus
    refine Table.count_eq_one he hcompile fun s hs hother => ?_
    obtain ⟨-, hmonitor, hflight⟩ := compileOf_iff.mp hcompile
    obtain ⟨-, hmonitor', hflight'⟩ := compileOf_iff.mp hother
    exact hcoherent.serialized.single s hs e he hflight' hflight (hmonitor'.trans hmonitor.symm)
  · intro hstatus
    obtain ⟨r, hr, hawaited⟩ := hattended.awaiting hstatus
    refine Table.count_eq_one hr hawaited fun s hs hother => ?_
    obtain ⟨hmonitor, hstate⟩ := awaitedOf_iff.mp hawaited
    obtain ⟨hmonitor', hstate'⟩ := awaitedOf_iff.mp hother
    -- the pending revisions of a monitor are one
    have hpending : r.pending = true := by simp [Revision.pending, hstate, ValidationState.pending]
    have hpending' : s.pending = true := by
      simp [Revision.pending, hstate', ValidationState.pending]
    exact pending_unique hcoherent.lineage.line hs hr hpending' hpending
      (hmonitor'.trans hmonitor.symm)

/-- A monitor is compiled, then its plan awaits confirmation. -/
def compiled : List Call :=
  [⟨0, .createMonitor ⟨"https://shop.example/item", "price of the item", 60, ""⟩⟩,
   ⟨1, .applyResult (openStore [] 3) ⟨2⟩
     { ExecutionResult.bare "succeeded" "" with plan := some (.obj []) }⟩]

theorem no_dead_end_compiled :
    ∃ m ∈ (run step Database.empty compiled).monitors, m.status = .awaitingConfirmation ∧
      (run step Database.empty compiled).revisions.count (awaitedOf m.id) = 1 := by
  obtain ⟨m, hm, hstatus⟩ : ∃ m ∈ (run step Database.empty compiled).monitors,
      m.status = .awaitingConfirmation := by
    decide +kernel
  exact ⟨m, hm, hstatus, (no_dead_end ⟨compiled, rfl⟩ hm).2 hstatus⟩

end PriceScout.Store.CompileStatus
