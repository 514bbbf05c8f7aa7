import PriceScout.Store.Lifecycles

/-!
A result is applied at most once. What it leaves of a succeeded execution, one
observation of a check and one revision of a compile or repair, is left by no
other call.
-/

namespace PriceScout.Store.Results

open PriceScout.Domain
open PriceScout.Library.JsonDocuments
open PriceScout.Library.Runs
open PriceScout.Library.Tables
open PriceScout.Store.Alerts
open PriceScout.Store.Effects
open PriceScout.Store.Executions
open PriceScout.Store.Inversions
open PriceScout.Store.Lifecycles
open PriceScout.Store.Monitors
open PriceScout.Store.Operations
open PriceScout.Store.Persistence
open PriceScout.Store.Recovery
open PriceScout.Store.Schema

/-- Among the first calls of a run, one hands in a result of the execution, and the
revision is there after it and not before. -/
def CreatedFrom (calls : List Call) (n : Nat) (executionId revisionId : UUID) : Prop :=
  ∃ k, ∃ h : k < calls.length, k < n ∧
    (∃ store result, calls[k].operation = .applyResult store executionId result) ∧
    (∀ r ∈ (stateAt step Database.empty calls k).revisions, r.id ≠ revisionId) ∧
    ∃ r ∈ (stateAt step Database.empty calls (k + 1)).revisions, r.id = revisionId

/-- The number of observations that an execution has. -/
def observationCount (db : Database) (executionId : UUID) : Nat :=
  db.observations.count fun o => decide (o.executionId = executionId)

/-- A succeeded check has its observation and a succeeded compile or repair its
revision; other executions have neither. -/
structure Accounted (calls : List Call) (n : Nat) (e : Execution) : Prop where
  observed : e.kind = .check → (e.state = .succeeded ↔
    observationCount (stateAt step Database.empty calls n) e.id = 1)
  planned : e.kind ≠ .check → (e.state = .succeeded ↔ ∃! id, CreatedFrom calls n e.id id)
  neither : e.state ≠ .succeeded →
    observationCount (stateAt step Database.empty calls n) e.id = 0 ∧
      ∀ id, ¬ CreatedFrom calls n e.id id

/-- No result is applied: nothing is observed and no execution succeeds. -/
structure Quiet (db db' : Database) : Prop where
  observations : db'.observations = db.observations
  succeeded : ∀ e ∈ db'.executions, e.state = .succeeded → e ∈ db.executions

/-- Every observation is the only one of a succeeded execution, and every succeeded
check has one. -/
structure ObservedOnce (db : Database) : Prop where
  single : ∀ o ∈ db.observations, ∀ p ∈ db.observations, o.executionId = p.executionId → o = p
  source : ∀ o ∈ db.observations, ∃ e ∈ db.executions, e.id = o.executionId ∧ e.state = .succeeded
  checks : ∀ e ∈ db.executions, e.kind = .check → e.state = .succeeded →
    ∃ o ∈ db.observations, o.executionId = e.id

section Steps

variable {now : Timestamp} {db db' db'' db₁ : Database} {e e' s : Execution} {call : Call}
  {store : OpenStore} {executionId : UUID} {result : ExecutionResult}

/-- A result of a terminal execution is answered with the execution as it is. -/
theorem applyResult_terminal (store : OpenStore) (now : Timestamp) (result : ExecutionResult)
    (he : e ∈ db.executions) (hterminal : e.inFlight = false) :
    applyResult store now e.id result db = .ok ((e, false), db) := by
  have hlookup : db.executions.lookup e.id = some e := Table.lookup_eq_some_iff.mpr ⟨he, rfl⟩
  have hstate : isTerminalExecution e.state = true := by
    revert hterminal
    unfold Execution.inFlight
    cases e.state <;> simp [ExecutionState.inFlight, isTerminalExecution]
  simp [applyResult, hlookup, orNotFound, hstate, bind, Except.bind, pure, Except.pure]

theorem Quiet.refl (db : Database) : Quiet db db :=
  ⟨rfl, fun _ he _ => he⟩

theorem Quiet.trans (h : Quiet db db') (h' : Quiet db' db'') : Quiet db db'' :=
  ⟨h'.observations.trans h.observations,
    fun e he hsucceeded => h.succeeded e (h'.succeeded e he hsucceeded) hsucceeded⟩

theorem quiet_of_eq (hobservations : db'.observations = db.observations)
    (hexecutions : db'.executions = db.executions) : Quiet db db' :=
  ⟨hobservations, fun _ he _ => hexecutions ▸ he⟩

theorem quiet_of_enqueued {traceparent : String} (h : Enqueued now db e traceparent db') :
    Quiet db db' := by
  refine ⟨h.observations, fun s hs hsucceeded => ?_⟩
  rcases h.appended.mem_iff.mp hs with hs | rfl
  · exact hs
  · simp [h.queued] at hsucceeded

theorem quiet_of_substituted (hobservations : db'.observations = db.observations)
    (hsubstituted : db.executions.Substituted e e' db'.executions)
    (hstate : e'.state ≠ .succeeded) : Quiet db db' := by
  refine ⟨hobservations, fun s hs hsucceeded => ?_⟩
  rcases hsubstituted.mem_cases hs with ⟨hs, -⟩ | rfl
  · exact hs
  · exact absurd hsucceeded hstate

theorem quiet_of_replaced (h : Replaced now db e db') : Quiet db db' := by
  obtain ⟨id, happended⟩ := Replaced.appended h
  refine ⟨h.observations, fun s hs hsucceeded => ?_⟩
  rcases happended.mem_iff.mp hs with hs | rfl
  · exact hs
  · simp [replacementExecution, newExecution] at hsucceeded

theorem quiet_of_effect (h : Effect call db db') : Quiet db db' := by
  cases h with
  | created monitorId executionId params monitors' db' hcall hinterval hmonitor henqueued =>
      have hinserted : Quiet db { db with monitors := monitors' } := quiet_of_eq rfl rfl
      exact hinserted.trans (quiet_of_enqueued henqueued)
  | claimed e e' executions' repairAttempts' hqueued hcall he' hexecution hattempts =>
      exact quiet_of_substituted rfl hexecution (by simp [he'])
  | renewed e e' executions' hrunning hcall he' hexecution =>
      exact quiet_of_substituted rfl hexecution (by simp [he', hrunning])
  | checkQueued id m r idempotencyKey traceparent db' hcall hnew hadmitting henqueued =>
      exact quiet_of_enqueued henqueued
  | dueQueued id m r limit locked db' hcall hadmitting henqueued =>
      exact (quiet_of_enqueued henqueued).trans (quiet_of_eq rfl rfl)
  | confirmed | patched | accepted | rejected | published => exact quiet_of_eq rfl rfl
  | terminalized e e' db₁ runningStaleAfter maxAttempts limit locked hcall hattempts hretired
      hrunning hfailed =>
      refine (quiet_of_substituted hretired.observations hretired.substituted
        (by simp [hfailed])).trans (quiet_of_eq ?_ (terminalizeStaleExecution_executions _ _ _ _))
      unfold terminalizeStaleExecution
      split <;> rfl
  | replaced e e' db₁ db' runningStaleAfter maxAttempts limit locked hcall hattempts hretired
      hrunning hfailed hreplaced =>
      exact (quiet_of_substituted hretired.observations hretired.substituted
        (by simp [hfailed])).trans (quiet_of_replaced hreplaced)

theorem quiet_or_settled (db : Database) (call : Call) :
    Quiet db (step db call) ∨
      ∃ store executionId result e e' db₁, call.operation = .applyResult store executionId result ∧
        Settled store call.now executionId result db e e' db₁ (step db call) := by
  rcases step_effects db call with heffects | hsettled
  · left
    generalize step db call = s' at heffects ⊢
    induction heffects with
    | refl => exact Quiet.refl db
    | tail _ hlast ih => exact ih.trans (quiet_of_effect hlast)
  · exact Or.inr hsettled

/-- A call that hands in a result applies it or does nothing. -/
theorem settled_of_applyResult (hcall : call.operation = .applyResult store executionId result) :
    step db call = db ∨
      ∃ e e' db₁, Settled store call.now executionId result db e e' db₁ (step db call) := by
  have hstep : step db call = commit (applyResult store call.now executionId result) db := by
    simp only [step, hcall]
  rw [hstep]
  rcases commit_cases (applyResult store call.now executionId result) db with h | ⟨answer, h⟩
  · exact Or.inl h
  · rcases applyResult_ok h with ⟨-, hsame, -⟩ | ⟨-, hsettled⟩
    · exact Or.inl hsame
    · exact Or.inr hsettled

theorem succeeded_iff_status (h : Settled store now executionId result db e e' db₁ db') :
    e'.state = .succeeded ↔ result.status = "succeeded" := by
  have hstate := h.state
  constructor
  · intro hsucceeded
    rw [hsucceeded] at hstate
    unfold validResultStatus at hstate
    split at hstate
    · assumption
    all_goals cases hstate
  · intro hstatus
    simpa [hstatus, validResultStatus, eq_comm] using hstate

/-- The execution of an accepted result, and the executions beside it. -/
theorem executions_settled (h : Settled store now executionId result db e e' db₁ db') :
    e' ∈ db'.executions ∧ ∀ s ∈ db'.executions, s.state = .succeeded →
      s = e' ∨ s ∈ db.executions := by
  have hsubstituted := h.retired.substituted
  have hold : ∀ s ∈ db₁.executions, s = e' ∨ s ∈ db.executions := by
    intro s hs
    rcases hsubstituted.mem_cases hs with ⟨hs, -⟩ | rfl
    · exact Or.inr hs
    · exact Or.inl rfl
  rcases h.outcome.followedIn with hsame | ⟨n, -, hflight, happended⟩
  · rw [hsame]
    exact ⟨hsubstituted.mem_new, fun s hs _ => hold s hs⟩
  · refine ⟨happended.mem_of_mem hsubstituted.mem_new, fun s hs hsucceeded => ?_⟩
    rcases happended.mem_iff.mp hs with hs | rfl
    · exact hold s hs
    · simp [Execution.inFlight, hsucceeded, ExecutionState.inFlight] at hflight

theorem Reaction.observations {m : Monitor} {o : Observation}
    (h : Reaction store now e m o db db') : db'.observations = db.observations := by
  cases h with
  | diagnostic | unchanged | latched | alerted => rfl
  | confirmationQueued id db' hkind hverified hordinary hmatched hprevious h => exact h.observations

theorem FailureEffect.unchanged (h : FailureEffect store now e result db db') :
    db'.observations = db.observations ∧ db'.revisions = db.revisions := by
  cases h with
  | retried db' hretry h => exact ⟨h.observations, h.revisions⟩
  | compileFailed | repairFailed | repairExists => exact ⟨rfl, rfl⟩
  | checkFailed =>
      unfold applyCheckFailure
      split
      · exact ⟨rfl, rfl⟩
      · split <;> exact ⟨rfl, rfl⟩
  | repairQueued id attemptId generation repairAttempts' uuids' db' hkind hstale hgeneration hnone
      hattempt h => exact ⟨h.observations, h.revisions⟩

theorem Reaction.revisions {m : Monitor} {o : Observation}
    (h : Reaction store now e m o db db') : db'.revisions = db.revisions := by
  cases h with
  | diagnostic | unchanged | latched | alerted => rfl
  | confirmationQueued id db' hkind hverified hordinary hmatched hprevious h => exact h.revisions

theorem PlanEffect.creates {plan : Json} {autoPromote : Bool}
    (h : PlanEffect now e plan autoPromote db db') :
    db'.observations = db.observations ∧ ∃ r, db.revisions.Appended r db'.revisions := by
  cases h with
  | compiled id revisions' uuids' hkind hrevision => exact ⟨rfl, _, hrevision⟩
  | promoted id failedRevisionId m revisions' uuids' hkind hauto hfailed hmem hid hcurrent
      hrevision =>
      exact ⟨rfl, _, hrevision⟩
  | held id revisions' uuids' hkind hheld hrevision => exact ⟨rfl, _, hrevision⟩

theorem Recorded.observes {observation : ResultObservation} {m : Monitor} {o : Observation}
    (h : Recorded now e observation db m o db') :
    o.executionId = e.id ∧ db.observations.Appended o db'.observations := by
  obtain ⟨id, verification, -, hrow⟩ := h.row
  obtain ⟨observations', uuids', happended, rfl⟩ := h.inserted
  exact ⟨by rw [hrow]; rfl, happended⟩

/-- An accepted result adds one observation of its execution or none, and does add
one to a check that succeeds. -/
theorem observations_settled (h : Settled store now executionId result db e e' db₁ db') :
    (e'.state = .succeeded ∧
      ∃ o, o.executionId = e.id ∧ db.observations.Appended o db'.observations) ∨
    db'.observations = db.observations ∧ (e.kind = .check → e'.state ≠ .succeeded) := by
  have hretired := h.retired.observations
  have hiff := succeeded_iff_status h
  cases h.outcome with
  | planned plan db' hstatus hkind hplan heffect hobservation =>
      exact Or.inr
        ⟨(PlanEffect.creates heffect).1.trans hretired, fun hcheck => absurd hcheck hkind⟩
  | plannedAndRecorded plan observation m o db₂ db' hstatus hkind hplan heffect hobservation
      hrecorded =>
      obtain ⟨hexecution, happended⟩ := Recorded.observes hrecorded
      rw [(PlanEffect.creates heffect).1, hretired] at happended
      exact Or.inl ⟨hiff.mpr hstatus, o, hexecution, happended⟩
  | observed observation m o db₂ db' hstatus hkind hobservation hrecorded hreaction =>
      obtain ⟨hexecution, happended⟩ := Recorded.observes hrecorded
      rw [hretired, ← Reaction.observations hreaction] at happended
      exact Or.inl ⟨hiff.mpr hstatus, o, hexecution, happended⟩
  | failed db' hstatus heffect =>
      refine Or.inr ⟨(FailureEffect.unchanged heffect).1.trans hretired, fun _ hsucceeded => ?_⟩
      exact hstatus (hiff.mp hsucceeded)

/-- An accepted result creates one revision of a compile or repair that succeeds,
and none otherwise. -/
theorem revisions_settled (h : Settled store now executionId result db e e' db₁ db') :
    (e'.state = .succeeded ∧ e.kind ≠ .check ∧ ∃ r, db.revisions.Appended r db'.revisions) ∨
    db'.revisions = db.revisions ∧ (e.kind ≠ .check → e'.state ≠ .succeeded) := by
  have hretired := h.retired.revisions
  have hiff := succeeded_iff_status h
  cases h.outcome with
  | planned plan db' hstatus hkind hplan heffect hobservation =>
      obtain ⟨-, r, happended⟩ := PlanEffect.creates heffect
      rw [hretired] at happended
      exact Or.inl ⟨hiff.mpr hstatus, hkind, r, happended⟩
  | plannedAndRecorded plan observation m o db₂ db' hstatus hkind hplan heffect hobservation
      hrecorded =>
      obtain ⟨-, r, happended⟩ := PlanEffect.creates heffect
      rw [hretired, ← hrecorded.unchanged.2.1] at happended
      exact Or.inl ⟨hiff.mpr hstatus, hkind, r, happended⟩
  | observed observation m o db₂ db' hstatus hkind hobservation hrecorded hreaction =>
      exact Or.inr ⟨(Reaction.revisions hreaction).trans (hrecorded.unchanged.2.1.trans hretired),
        fun hother => absurd hkind hother⟩
  | failed db' hstatus heffect =>
      refine Or.inr ⟨(FailureEffect.unchanged heffect).2.trans hretired, fun _ hsucceeded => ?_⟩
      exact hstatus (hiff.mp hsucceeded)

/-- A succeeded execution stays as it is. -/
theorem mem_of_succeeded (hprogressed : db.executions.Extends Progressed db'.executions)
    (he : e ∈ db.executions) (hsucceeded : e.state = .succeeded) : e ∈ db'.executions := by
  obtain ⟨e', he', -, hprogressed⟩ := hprogressed e he
  obtain rfl := hprogressed.terminal
    (by simp [Execution.inFlight, hsucceeded, ExecutionState.inFlight])
  exact he'

namespace ObservedOnce

theorem empty : ObservedOnce Database.empty :=
  ⟨fun _ ho => absurd ho (Table.not_mem_empty _), fun _ ho => absurd ho (Table.not_mem_empty _),
    fun _ he => absurd he (Table.not_mem_empty _)⟩

theorem quiet (h : ObservedOnce db) (hprogressed : db.executions.Extends Progressed db'.executions)
    (hquiet : Quiet db db') : ObservedOnce db' := by
  constructor
  · rw [hquiet.observations]
    exact h.single
  · rw [hquiet.observations]
    intro o ho
    obtain ⟨e, he, hid, hsucceeded⟩ := h.source o ho
    exact ⟨e, mem_of_succeeded hprogressed he hsucceeded, hid, hsucceeded⟩
  · rw [hquiet.observations]
    exact fun e he hkind hsucceeded =>
      h.checks e (hquiet.succeeded e he hsucceeded) hkind hsucceeded

/-- An execution in flight has not been observed. -/
theorem unobserved (h : ObservedOnce db) (he : e ∈ db.executions)
    (hstate : e.state ≠ .succeeded) : ∀ o ∈ db.observations, o.executionId ≠ e.id := by
  intro o ho hexecution
  obtain ⟨s, hs, hid, hsucceeded⟩ := h.source o ho
  obtain rfl := Table.eq_of_key_eq hs he (hid.trans hexecution)
  exact hstate hsucceeded

theorem settled (h : ObservedOnce db)
    (hprogressed : db.executions.Extends Progressed db'.executions)
    (hsettled : Settled store now executionId result db e e' db₁ db') : ObservedOnce db' := by
  obtain ⟨hmem, hothers⟩ := executions_settled hsettled
  have hkept : ∀ o ∈ db.observations, ∃ s ∈ db'.executions, s.id = o.executionId ∧
      s.state = .succeeded := by
    intro o ho
    obtain ⟨s, hs, hid, hsucceeded⟩ := h.source o ho
    exact ⟨s, mem_of_succeeded hprogressed hs hsucceeded, hid, hsucceeded⟩
  rcases observations_settled hsettled with ⟨hsucceeded, o, hexecution, happended⟩ | ⟨hsame, hnone⟩
  · have hflight : e.state ≠ .succeeded := fun hstate => by
      have := hsettled.retired.inFlight
      simp [Execution.inFlight, hstate, ExecutionState.inFlight] at this
    have hfresh := h.unobserved hsettled.retired.mem hflight
    constructor
    · intro p hp q hq hsame
      rcases happended.mem_iff.mp hp with hp | rfl <;> rcases happended.mem_iff.mp hq with hq | rfl
      · exact h.single p hp q hq hsame
      · exact absurd (hsame.trans hexecution) (hfresh p hp)
      · exact absurd (hsame.symm.trans hexecution) (hfresh q hq)
      · rfl
    · exact Table.forall_appended happended hkept
        ⟨e', hmem, hsettled.retired.sameJob.id.trans hexecution.symm, hsucceeded⟩
    · intro s hs hkind hstate
      rcases hothers s hs hstate with rfl | hs
      · exact ⟨o, happended.mem, hexecution.trans hsettled.retired.sameJob.id.symm⟩
      · obtain ⟨p, hp, hid⟩ := h.checks s hs hkind hstate
        exact ⟨p, happended.mem_of_mem hp, hid⟩
  · refine ⟨hsame ▸ h.single, hsame ▸ hkept, fun s hs hkind hstate => ?_⟩
    rw [hsame]
    rcases hothers s hs hstate with rfl | hs
    · exact absurd hstate (hnone (hsettled.retired.sameJob.kind.symm.trans hkind))
    · exact h.checks s hs hkind hstate

theorem step (h : ObservedOnce db) (call : Call) : ObservedOnce (step db call) := by
  have hprogressed := progressed_of_step db call
  rcases quiet_or_settled db call with hquiet | ⟨store, id, result, e, e', db₁, -, hsettled⟩
  · exact h.quiet hprogressed hquiet
  · exact h.settled hprogressed hsettled

theorem count_eq_zero (h : ObservedOnce db) (he : e ∈ db.executions)
    (hstate : e.state ≠ .succeeded) : observationCount db e.id = 0 :=
  Table.count_eq_zero_iff.mpr fun o ho => by simpa using h.unobserved he hstate o ho

theorem count_eq_one (h : ObservedOnce db) (he : e ∈ db.executions) (hkind : e.kind = .check)
    (hsucceeded : e.state = .succeeded) : observationCount db e.id = 1 := by
  obtain ⟨o, ho, hexecution⟩ := h.checks e he hkind hsucceeded
  refine Table.count_eq_one ho (by simpa using hexecution) fun p hp hsame => ?_
  exact h.single p hp o ho ((of_decide_eq_true hsame).trans hexecution.symm)

end ObservedOnce

end Steps

section Runs

variable {calls : List Call} {n k : Nat} {e : Execution} {executionId revisionId : UUID}

theorem CreatedFrom.succ (h : CreatedFrom calls n executionId revisionId) :
    CreatedFrom calls (n + 1) executionId revisionId := by
  obtain ⟨k, hk, hkn, hrest⟩ := h
  exact ⟨k, hk, Nat.lt_succ_of_lt hkn, hrest⟩

/-- The result that created a revision was accepted for a compile or repair, in
flight before and succeeded from then on. -/
theorem settled_of_created (hk : k < calls.length)
    (hcall : ∃ store result, calls[k].operation = .applyResult store executionId result)
    (hnone : ∀ r ∈ (stateAt step Database.empty calls k).revisions, r.id ≠ revisionId)
    (hsome : ∃ r ∈ (stateAt step Database.empty calls (k + 1)).revisions, r.id = revisionId) :
    ∃ e ∈ (stateAt step Database.empty calls k).executions,
      ∃ e' ∈ (stateAt step Database.empty calls (k + 1)).executions, e.id = executionId ∧
        e.inFlight = true ∧ SameJob e e' ∧ e'.state = .succeeded ∧ e.kind ≠ .check ∧
        ∃ r, r.id = revisionId ∧ (stateAt step Database.empty calls k).revisions.Appended r
          (stateAt step Database.empty calls (k + 1)).revisions := by
  rw [stateAt_succ hk] at hsome ⊢
  obtain ⟨store, result, hcall⟩ := hcall
  obtain ⟨r, hr, rfl⟩ := hsome
  rcases settled_of_applyResult hcall with hsame | ⟨e, e', db₁, hsettled⟩
  · rw [hsame] at hr
    exact absurd rfl (hnone r hr)
  · refine ⟨e, hsettled.retired.mem, e', (executions_settled hsettled).1, hsettled.id,
      hsettled.retired.inFlight, hsettled.retired.sameJob, ?_⟩
    rcases revisions_settled hsettled with ⟨hsucceeded, hkind, s, happended⟩ | ⟨hsame, -⟩
    · refine ⟨hsucceeded, hkind, s, ?_, happended⟩
      rcases happended.mem_iff.mp hr with hr | rfl
      · exact absurd rfl (hnone r hr)
      · rfl
    · rw [hsame] at hr
      exact absurd rfl (hnone r hr)

/-- A revision is created from a succeeded compile or repair. -/
theorem succeeded_of_created (h : CreatedFrom calls n e.id revisionId)
    (he : e ∈ (stateAt step Database.empty calls n).executions) :
    e.state = .succeeded ∧ e.kind ≠ .check := by
  obtain ⟨k, hk, hkn, hcall, hnone, hsome⟩ := h
  obtain ⟨s, -, s', hs', hid, -, hjob, hsucceeded, hkind, -⟩ :=
    settled_of_created hk hcall hnone hsome
  have hmem := mem_of_succeeded (progressed_of_le calls hkn) hs' hsucceeded
  obtain rfl := Table.eq_of_key_eq hmem he (hjob.id.trans hid)
  exact ⟨hsucceeded, hjob.kind ▸ hkind⟩

/-- Only one revision is created from an execution: its result is accepted once. -/
theorem CreatedFrom.unique {otherId : UUID} (h : CreatedFrom calls n executionId revisionId)
    (h' : CreatedFrom calls n executionId otherId) : revisionId = otherId := by
  obtain ⟨k, hk, -, hcall, hnone, hsome⟩ := h
  obtain ⟨j, hj, -, hcall', hnone', hsome'⟩ := h'
  obtain ⟨e, he, e', he', hid, hflight, hjob, hsucceeded, -, r, hrid, hr⟩ :=
    settled_of_created hk hcall hnone hsome
  obtain ⟨s, hs, s', hs', hsid, hsflight, hsjob, hssucceeded, -, u, huid, hu⟩ :=
    settled_of_created hj hcall' hnone' hsome'
  rcases Nat.lt_trichotomy k j with hkj | rfl | hjk
  · have hmem := mem_of_succeeded (progressed_of_le calls hkj) he' hsucceeded
    obtain rfl := Table.eq_of_key_eq hmem hs (by rw [hjob.id, hid, hsid])
    simp [Execution.inFlight, hsucceeded, ExecutionState.inFlight] at hsflight
  · have hrows : (stateAt step Database.empty calls k).revisions.rows ++ [r] =
        (stateAt step Database.empty calls k).revisions.rows ++ [u] := hr.symm.trans hu
    obtain rfl := List.singleton_injective (List.append_cancel_left hrows)
    exact hrid.symm.trans huid
  · have hmem := mem_of_succeeded (progressed_of_le calls hjk) hs' hssucceeded
    obtain rfl := Table.eq_of_key_eq hmem he (by rw [hsjob.id, hsid, hid])
    simp [Execution.inFlight, hssucceeded, ExecutionState.inFlight] at hflight

/-- A succeeded compile or repair has created its revision. -/
theorem exists_created (calls : List Call) (n : Nat) :
    ∀ e ∈ (stateAt step Database.empty calls n).executions, e.state = .succeeded →
      e.kind ≠ .check → ∃ id, CreatedFrom calls n e.id id := by
  induction n with
  | zero =>
      intro e he
      rw [stateAt_zero] at he
      exact absurd he (Table.not_mem_empty e)
  | succ n ih =>
      intro e he hsucceeded hkind
      by_cases hn : n < calls.length
      · rw [stateAt_succ hn] at he
        rcases quiet_or_settled _ calls[n] with
          hquiet | ⟨store, id, result, s, s', db₁, hcall, hsettled⟩
        · obtain ⟨id, hcreated⟩ := ih e (hquiet.succeeded e he hsucceeded) hsucceeded hkind
          exact ⟨id, hcreated.succ⟩
        · rcases (executions_settled hsettled).2 e he hsucceeded with rfl | he
          · rcases revisions_settled hsettled with ⟨-, -, r, happended⟩ | ⟨-, hnone⟩
            · refine ⟨r.id, n, hn, Nat.lt_succ_self n, ?_, fun s hs => happended.key_ne hs, ?_⟩
              · rw [hsettled.retired.sameJob.id, hsettled.id]
                exact ⟨store, result, hcall⟩
              · rw [stateAt_succ hn]
                exact ⟨r, happended.mem, rfl⟩
            · exact absurd hsucceeded (hnone (hsettled.retired.sameJob.kind ▸ hkind))
          · obtain ⟨id, hcreated⟩ := ih e he hsucceeded hkind
            exact ⟨id, hcreated.succ⟩
      · rw [stateAt_succ_of_length_le (Nat.le_of_not_lt hn)] at he
        obtain ⟨id, hcreated⟩ := ih e he hsucceeded hkind
        exact ⟨id, hcreated.succ⟩

theorem observedOnce_of_reachable {db : Database} (h : StoreReachable db) : ObservedOnce db :=
  Reachable.invariant (P := ObservedOnce) ObservedOnce.empty (fun _ call _ h => h.step call) h

theorem accounted (he : e ∈ (stateAt step Database.empty calls n).executions) :
    Accounted calls n e := by
  have hobserved := observedOnce_of_reachable (reachable_stateAt calls n)
  refine ⟨fun hkind => ⟨hobserved.count_eq_one he hkind, fun hcount => ?_⟩,
    fun hkind => ⟨fun hsucceeded => ?_, ?_⟩, fun hstate => ⟨hobserved.count_eq_zero he hstate, ?_⟩⟩
  · by_contra hstate
    simp [hobserved.count_eq_zero he hstate] at hcount
  · obtain ⟨id, hcreated⟩ := exists_created calls n e he hsucceeded hkind
    exact ⟨id, hcreated, fun otherId hother => hother.unique hcreated⟩
  · rintro ⟨id, hcreated, -⟩
    exact (succeeded_of_created hcreated he).1
  · exact fun id hcreated => hstate (succeeded_of_created hcreated he).1

end Runs

/-- In every run executions only move forward and stay as their end left them, a
result of a terminal execution is refused without a change, and observations and
revisions account for exactly the results that succeeded. -/
theorem results_applied_once (calls : List Call) :
    (∀ i j, i ≤ j → (stateAt step Database.empty calls i).executions.Extends Progressed
      (stateAt step Database.empty calls j).executions) ∧
    (∀ n, ∀ e ∈ (stateAt step Database.empty calls n).executions, e.inFlight = false →
      ∀ store now result, applyResult store now e.id result (stateAt step Database.empty calls n) =
        .ok ((e, false), stateAt step Database.empty calls n)) ∧
    ∀ n, ∀ e ∈ (stateAt step Database.empty calls n).executions, Accounted calls n e :=
  ⟨fun _ _ hij => progressed_of_le calls hij,
    fun _ _ he hterminal store now result => applyResult_terminal store now result he hterminal,
    fun _ _ he => accounted he⟩

end PriceScout.Store.Results
