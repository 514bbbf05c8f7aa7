import PriceScout.Store.Persistence

/-!
Every execution is announced by an outbox row that is written with it, and an
execution that has ended never starts again.
-/

namespace PriceScout.Store.Announcements

open PriceScout.Domain
open PriceScout.Library.JsonDocuments
open PriceScout.Library.Runs
open PriceScout.Library.Tables
open PriceScout.Store.Alerts
open PriceScout.Store.Effects
open PriceScout.Store.Executions
open PriceScout.Store.Inversions
open PriceScout.Store.Monitors
open PriceScout.Store.Operations
open PriceScout.Store.Outbox
open PriceScout.Store.Persistence
open PriceScout.Store.Recovery
open PriceScout.Store.Schema

/-- The trace context of a request that is going to create an execution. -/
def creates (db : Database) : Operation → Option String
  | .createMonitor params => if 1 ≤ params.intervalMinutes then some params.traceparent else none
  | .enqueueCheck monitorId idempotencyKey traceparent =>
      if (existingExecution monitorId idempotencyKey db).isNone ∧
          db.monitors.any (fun m => decide (m.id = monitorId) && decide (m.status = .active) &&
            m.currentRevisionId.isSome) ∧
          db.executions.any (inFlightOf monitorId) = false then some traceparent
      else none
  | _ => none

/-- The operations other than the relay's. -/
def NotRelay (operation : Operation) : Prop :=
  ∀ locked limit publish commits, operation ≠ .processOutbox locked limit publish commits

/-- Outbox rows are only added, each for an execution that exists; executions
are only added with a row; and those that have ended stay so. -/
structure Announces (created : Option String) (db db' : Database) : Prop where
  kept : ∀ row ∈ db.outbox, row ∈ db'.outbox
  rows : ∀ row ∈ db'.outbox, row ∈ db.outbox ∨
    row.publishedAt = none ∧
      (row.payload.traceparent = "" ∨ created = some row.payload.traceparent) ∧
      db'.hasExecution row.payload.executionId
  executions : ∀ e' ∈ db'.executions,
    (∃ e ∈ db.executions, e'.id = e.id ∧ (e.inFlight = false → e'.inFlight = false)) ∨
    (¬ db.hasExecution e'.id ∧ ∃ row ∈ db'.outbox, row.payload.executionId = e'.id)
  persists : ∀ id, db.hasExecution id → db'.hasExecution id

namespace Announces

variable {now : Timestamp} {created : Option String} {t : String} {db db' db'' db₁ : Database}
  {e e' : Execution}

theorem of_eq (houtbox : db'.outbox = db.outbox) (hexecutions : db'.executions = db.executions) :
    Announces created db db' := by
  refine ⟨?_, ?_, ?_, ?_⟩
  · rw [houtbox]
    exact fun _ h => h
  · rw [houtbox]
    exact fun _ h => Or.inl h
  · rw [hexecutions]
    exact fun s hs => Or.inl ⟨s, hs, rfl, id⟩
  · unfold Database.hasExecution
    rw [hexecutions]
    exact fun _ h => h

theorem of_substituted (houtbox : db'.outbox = db.outbox)
    (h : db.executions.Substituted e e' db'.executions)
    (hended : e.inFlight = false → e'.inFlight = false) : Announces created db db' := by
  refine ⟨?_, ?_, ?_, ?_⟩
  · rw [houtbox]
    exact fun _ h => h
  · rw [houtbox]
    exact fun _ h => Or.inl h
  · intro s hs
    rcases h.mem_cases hs with ⟨hs, -⟩ | rfl
    · exact Or.inl ⟨s, hs, rfl, id⟩
    · exact Or.inl ⟨e, h.mem, h.key_eq, hended⟩
  · intro id hid
    obtain ⟨s, hs, rfl⟩ := Database.hasExecution_iff.mp hid
    by_cases hkey : s.id = e.id
    · exact Database.hasExecution_iff.mpr ⟨e', h.mem_new, h.key_eq.trans hkey.symm⟩
    · exact Database.hasExecution_iff.mpr ⟨s, h.mem_of_ne hs hkey, rfl⟩

theorem of_enqueued (ht : t = "" ∨ created = some t) (h : Enqueued now db e t db') :
    Announces created db db' := by
  have happended := h.appended
  obtain ⟨executions', outbox', uuids', -, houtbox, rfl⟩ := h.inserted
  refine ⟨fun row hrow => houtbox.mem_of_mem hrow, ?_, ?_, ?_⟩
  · refine Table.forall_appended houtbox (fun row hrow => Or.inl hrow) (Or.inr ⟨rfl, ht, ?_⟩)
    exact Database.hasExecution_iff.mpr ⟨e, happended.mem, rfl⟩
  · refine Table.forall_appended happended (fun s hs => Or.inl ⟨s, hs, rfl, id⟩) (Or.inr ⟨?_, ?_⟩)
    · intro hold
      obtain ⟨s, hs, hid⟩ := Database.hasExecution_iff.mp hold
      exact happended.key_ne hs hid
    · exact ⟨_, houtbox.mem, rfl⟩
  · intro id hid
    obtain ⟨s, hs, rfl⟩ := Database.hasExecution_iff.mp hid
    exact Database.hasExecution_iff.mpr ⟨s, happended.mem_of_mem hs, rfl⟩

theorem refl (db : Database) : Announces created db db :=
  of_eq rfl rfl

theorem trans (h : Announces created db db') (h' : Announces created db' db'') :
    Announces created db db'' := by
  refine ⟨fun row hrow => h'.kept row (h.kept row hrow), fun row hrow => ?_, fun s hs => ?_,
    fun id hid => h'.persists id (h.persists id hid)⟩
  · rcases h'.rows row hrow with hrow' | hnew
    · refine (h.rows row hrow').imp_right ?_
      rintro ⟨hunpublished, htrace, hexecution⟩
      exact ⟨hunpublished, htrace, h'.persists _ hexecution⟩
    · exact Or.inr hnew
  · rcases h'.executions s hs with ⟨u, hu, hid, hended⟩ | ⟨hfresh, hannounced⟩
    · rw [hid]
      rcases h.executions u hu with ⟨v, hv, hid', hended'⟩ | ⟨hfresh, row, hrow, hrowid⟩
      · exact Or.inl ⟨v, hv, hid', fun hv' => hended (hended' hv')⟩
      · exact Or.inr ⟨hfresh, row, h'.kept row hrow, hrowid⟩
    · exact Or.inr ⟨fun hold => hfresh (h.persists _ hold), hannounced⟩

theorem retired (h : Retired db e e' db') : Announces created db db' := by
  have hsubstituted := h.substituted
  refine of_substituted ?_ hsubstituted fun hended => by simp [h.inFlight] at hended
  obtain ⟨executions', artifacts', uuids', -, rfl⟩ := h.retired
  rfl

theorem replaced (h : Replaced now db e db') : Announces created db db' := by
  cases h with
  | enqueued id db' hkind h => exact of_enqueued (Or.inl rfl) h
  | repointed id db' a hkind hmem hexecution h =>
      exact (of_enqueued (Or.inl rfl) h).trans (of_eq rfl rfl)

theorem terminalizeStaleExecution {reason : String} :
    Announces created db (terminalizeStaleExecution now e reason db) := by
  refine of_eq ?_ (terminalizeStaleExecution_executions _ _ _ _)
  unfold Recovery.terminalizeStaleExecution
  cases e.kind <;> rfl

theorem effect {call : Call} (hcall : NotRelay call.operation) (h : Effect call db db') :
    Announces (creates db call.operation) db db' := by
  cases h with
  | created monitorId executionId params monitors' db' hoperation hinterval hmonitor h =>
      have hcreates : creates db call.operation = some params.traceparent := by
        simp [creates, hoperation, hinterval]
      have hinserted : Announces (creates db call.operation) db { db with monitors := monitors' } :=
        of_eq rfl rfl
      exact hinserted.trans (of_enqueued (Or.inr hcreates) h)
  | claimed e e' executions' repairAttempts' hqueued hoperation he' hexecution hattempts =>
      refine of_substituted rfl hexecution fun hended => ?_
      simp [Execution.inFlight, hqueued, ExecutionState.inFlight] at hended
  | renewed e e' executions' hrunning hoperation he' hexecution =>
      refine of_substituted rfl hexecution fun hended => ?_
      simp [Execution.inFlight, hrunning, ExecutionState.inFlight] at hended
  | checkQueued id m r idempotencyKey traceparent db' hoperation hnew hadmitting h =>
      refine of_enqueued (Or.inr ?_) h
      have hmonitor :
        db.monitors.any (fun s => decide (s.id = m.id) && decide (s.status = .active) &&
          s.currentRevisionId.isSome) = true :=
        Table.any_eq_true_iff.mpr
          ⟨m, hadmitting.monitor, by simp [hadmitting.active, hadmitting.current]⟩
      have hidle : db.executions.any (inFlightOf m.id) = false :=
        Table.any_eq_false_iff.mpr hadmitting.idle
      simp only [creates, hoperation, hnew, hmonitor, hidle, Option.isNone_none, and_self, if_true]
  | dueQueued id m r limit locked db' hoperation hadmitting h =>
      exact (of_enqueued (Or.inl rfl) h).trans (of_eq rfl rfl)
  | confirmed | patched | accepted | rejected => exact of_eq rfl rfl
  | terminalized e e' db₁ runningStaleAfter maxAttempts limit locked hoperation hattempts h hrunning
      hfailed => exact (retired h).trans terminalizeStaleExecution
  | replaced e e' db₁ db' runningStaleAfter maxAttempts limit locked hoperation hattempts h hrunning
      hfailed hreplaced => exact (retired h).trans (replaced hreplaced)
  | published outbox' locked limit publish commits hoperation h =>
      exact absurd hoperation (hcall locked limit publish commits)

theorem planEffect {plan : Json} {autoPromote : Bool}
    (h : PlanEffect now e plan autoPromote db db') : Announces created db db' := by
  cases h <;> exact of_eq rfl rfl

theorem recorded {observation : ResultObservation} {m : Monitor} {o : Observation}
    (h : Recorded now e observation db m o db') : Announces created db db' := by
  obtain ⟨observations', uuids', -, rfl⟩ := h.inserted
  exact of_eq rfl rfl

theorem reaction {store : OpenStore} {m : Monitor} {o : Observation}
    (h : Reaction store now e m o db db') : Announces created db db' := by
  cases h with
  | diagnostic | unchanged => exact refl db
  | latched | alerted => exact of_eq rfl rfl
  | confirmationQueued id db' hkind hverified hordinary hmatched hprevious h =>
      exact of_enqueued (Or.inl rfl) h

theorem failureEffect {store : OpenStore} {result : ExecutionResult}
    (h : FailureEffect store now e result db db') : Announces created db db' := by
  cases h with
  | retried db' hretry h => exact replaced h
  | compileFailed | repairFailed => exact of_eq rfl rfl
  | repairExists => exact refl db
  | checkFailed =>
      refine of_eq ?_ (applyCheckFailure_executions _ _ _ _)
      unfold applyCheckFailure
      split
      · rfl
      · split <;> rfl
  | repairQueued id attemptId generation repairAttempts' uuids' db' hkind hstale hgeneration hnone
      hattempt h => exact (of_enqueued (Or.inl rfl) h).trans (of_eq rfl rfl)

theorem settled {store : OpenStore} {executionId : UUID} {result : ExecutionResult}
    (h : Settled store now executionId result db e e' db₁ db') : Announces created db db' := by
  refine (retired h.retired).trans ?_
  cases h.outcome with
  | planned plan db' hstatus hkind hplan h hobservation => exact planEffect h
  | plannedAndRecorded plan observation m o db₂ db' hstatus hkind hplan h hobservation hrecorded =>
      exact (planEffect h).trans (recorded hrecorded)
  | observed observation m o db₂ db' hstatus hkind hobservation hrecorded h =>
      exact (recorded hrecorded).trans (reaction h)
  | failed db' hstatus h => exact failureEffect h

theorem step {call : Call} (hcall : NotRelay call.operation) (db : Database) :
    Announces (creates db call.operation) db (step db call) := by
  by_cases hcheck : ∃ monitorId idempotencyKey traceparent,
      call.operation = .enqueueCheck monitorId idempotencyKey traceparent
  · obtain ⟨now, operation⟩ := call
    obtain ⟨monitorId, idempotencyKey, traceparent, rfl⟩ := hcheck
    rcases commit_cases (enqueueCheck now monitorId idempotencyKey traceparent) db with
      hsame | ⟨a, hok⟩
    · exact of_eq (congrArg Database.outbox hsame) (congrArg Database.executions hsame)
    · rcases enqueueCheck_ok hok with hsame | heffect
      · exact of_eq (congrArg Database.outbox hsame) (congrArg Database.executions hsame)
      · exact effect hcall heffect
  · -- whether another request creates an execution does not depend on the state
    have hcreates : ∀ s, creates s call.operation = creates db call.operation := by
      intro s
      cases hoperation : call.operation with
      | enqueueCheck monitorId idempotencyKey traceparent =>
          exact absurd ⟨monitorId, idempotencyKey, traceparent, hoperation⟩ hcheck
      | _ => rfl
    rcases step_effects db call with heffects | ⟨store, id, result, e, e', db₁, -, hsettled⟩
    · generalize Operations.step db call = s' at heffects
      induction heffects with
      | refl => exact refl db
      | tail _ hlast ih => exact ih.trans (hcreates _ ▸ effect hcall hlast)
    · exact settled hsettled

end Announces

theorem claimExecution_of_terminal {now : Timestamp} {e : Execution} {db : Database}
    (h : isTerminalExecution (claimExecution now e db).1.state = true) :
    isTerminalExecution e.state = true ∧ (claimExecution now e db).2 = db := by
  obtain ⟨id, monitorId, revisionId, kind, requestedGeneration, attempt, recoveryOf, state, _⟩ := e
  cases state <;> cases kind <;> first | exact ⟨rfl, rfl⟩ | cases h

theorem not_inFlight_of_terminal {e : Execution} (h : isTerminalExecution e.state = true) :
    e.inFlight = false := by
  obtain ⟨id, monitorId, revisionId, kind, requestedGeneration, attempt, recoveryOf, state, _⟩ := e
  cases state <;> first | rfl | cases h

/-- An execution that a worker is given as terminal has ended. -/
theorem ended_of_getExecutionInput {now : Timestamp} {id : UUID} {db db' : Database}
    {input : ExecutionInput} (h : getExecutionInput now id db = .ok (input, db'))
    (hterminal : isTerminalExecution input.execution.state = true) :
    ∃ e ∈ db'.executions, e.id = id ∧ e.inFlight = false := by
  simp only [getExecutionInput, bind_eq_ok, orNotFound_eq_ok, orNoRows_eq_ok,
    Table.lookup_eq_some_iff] at h
  obtain ⟨e, ⟨he, rfl⟩, m, -, h⟩ := h
  have hended : isTerminalExecution (claimExecution now e db).1.state = true ∧
      db' = (claimExecution now e db).2 := by
    split at h
    · simp only [pure_eq_ok, Prod.mk.injEq] at h
      obtain ⟨rfl, rfl⟩ := h
      exact ⟨hterminal, rfl⟩
    · simp only [bind_eq_ok, pure_eq_ok, Prod.mk.injEq] at h
      obtain ⟨r, -, rfl, rfl⟩ := h
      exact ⟨hterminal, rfl⟩
  obtain ⟨hstate, hsame⟩ := claimExecution_of_terminal hended.1
  rw [hended.2, hsame]
  exact ⟨e, he, rfl, not_inFlight_of_terminal hstate⟩

/-- An execution whose result the store answers for has ended. -/
theorem ended_of_applyResult {now : Timestamp} {store : OpenStore} {id : UUID}
    {result : ExecutionResult} {db db' : Database} {answer : Execution × Bool}
    (h : applyResult store now id result db = .ok (answer, db')) :
    ∃ e ∈ db'.executions, e.id = id ∧ e.inFlight = false := by
  rcases applyResult_ok h with ⟨-, rfl, e, he, hid, hterminal⟩ | ⟨-, e, e', db₁, hsettled⟩
  · exact ⟨e, he, hid, not_inFlight_of_terminal hterminal⟩
  · have hretired := hsettled.retired
    refine ⟨e', ?_, hretired.sameJob.id.trans hsettled.id, hretired.terminal⟩
    rcases hsettled.outcome.followedIn with heq | ⟨n, -, -, happended⟩
    · exact heq ▸ hretired.substituted.mem_new
    · exact happended.mem_of_mem hretired.substituted.mem_new

end PriceScout.Store.Announcements
