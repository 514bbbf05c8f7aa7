import PriceScout.Store.Persistence

/-!
What one step does to the executions. Each moves from queued to running to a
terminal state, in which no operation touches it again; a failed one may be
replaced, once, by its next attempt.
-/

namespace PriceScout.Store.Lifecycles

open PriceScout.Domain
open PriceScout.Library.Runs
open PriceScout.Library.Tables
open PriceScout.Store.Alerts
open PriceScout.Store.Effects
open PriceScout.Store.Executions
open PriceScout.Store.Inversions
open PriceScout.Store.Monitors
open PriceScout.Store.Operations
open PriceScout.Store.Persistence
open PriceScout.Store.Recovery
open PriceScout.Store.Schema

/-- The attempt limit that a call goes by. -/
def attemptLimit (call : Call) : Option Nat :=
  match call.operation with
  | .applyResult store _ _ => some store.maxExecutionAttempts
  | .sweepStaleExecutions _ maxAttempts _ _ => some maxAttempts
  | _ => none

/-- The call makes the execution terminal: with the result it hands in, or as a stale one. -/
inductive Ends (call : Call) (e e' : Execution) : Prop
  | byResult (store : OpenStore) (result : ExecutionResult)
      (hcall : call.operation = .applyResult store e.id result)
      (hstate : validResultStatus result.status = some e'.state)
  | stale (hfailed : e'.state = .failed)

/-- One of the things that a call does to the executions. -/
inductive Worked (call : Call) (t : Table Execution.id) : Table Execution.id → Prop
  | claimed (e e' : Execution) (t' : Table Execution.id) (hflight : e.inFlight = true)
      (hrunning : e'.state = .running) (hjob : SameJob e e') (h : t.Substituted e e' t') :
      Worked call t t'
  | ended (e e' : Execution) (t' : Table Execution.id) (hflight : e.inFlight = true)
      (hterminal : e'.inFlight = false) (hjob : SameJob e e') (hends : Ends call e e')
      (h : t.Substituted e e' t') : Worked call t t'
  | replaced (e e' : Execution) (id : UUID) (limit : Nat) (t₁ t' : Table Execution.id)
      (hflight : e.inFlight = true) (hfailed : e'.state = .failed) (hjob : SameJob e e')
      (hends : Ends call e e') (hlimit : limit ∈ attemptLimit call) (hattempt : e.attempt < limit)
      (h₁ : t.Substituted e e' t₁) (h : t₁.Appended (replacementExecution call.now id e) t') :
      Worked call t t'
  | enqueued (n : Execution) (t' : Table Execution.id) (hqueued : n.state = .queued)
      (hfirst : n.attempt = 1) (hroot : n.recoveryOf = none) (h : t.Appended n t') :
      Worked call t t'

section Steps

variable {now : Timestamp} {db db' db₁ : Database} {e e' : Execution} {call : Call}

theorem Replaced.appended (h : Replaced now db e db') :
    ∃ id, db.executions.Appended (replacementExecution now id e) db'.executions := by
  cases h with
  | enqueued id db' hkind h => exact ⟨id, h.appended⟩
  | repointed id db' a hkind hmem hexecution h => exact ⟨id, h.appended⟩

theorem worked_of_eq (h : db'.executions = db.executions) :
    Relation.ReflTransGen (Worked call) db.executions db'.executions := by
  rw [h]

theorem worked_of_appended {n : Execution} (h : db.executions.Appended n db'.executions)
    (hqueued : n.state = .queued) (hfirst : n.attempt = 1) (hroot : n.recoveryOf = none) :
    Relation.ReflTransGen (Worked call) db.executions db'.executions :=
  .single (.enqueued n _ hqueued hfirst hroot h)

theorem worked_of_retired (h : Retired db e e' db') (hends : Ends call e e') :
    Relation.ReflTransGen (Worked call) db.executions db'.executions :=
  .single (.ended e e' _ h.inFlight h.terminal h.sameJob hends h.substituted)

theorem worked_of_replaced {limit : Nat} (h : Retired db e e' db₁) (hends : Ends call e e')
    (hfailed : e'.state = .failed) (hlimit : limit ∈ attemptLimit call)
    (hattempt : e.attempt < limit)
    (hreplaced : Replaced call.now db₁ e db') :
    Relation.ReflTransGen (Worked call) db.executions db'.executions := by
  obtain ⟨id, happended⟩ := Replaced.appended hreplaced
  exact .single (.replaced e e' id limit _ _ h.inFlight hfailed h.sameJob hends hlimit hattempt
    h.substituted happended)

theorem worked_of_effect (h : Effect call db db') :
    Relation.ReflTransGen (Worked call) db.executions db'.executions := by
  cases h with
  | created monitorId executionId params monitors' db' hcall hinterval hmonitor henqueued =>
      exact worked_of_appended henqueued.appended rfl rfl rfl
  | claimed e e' executions' repairAttempts' hqueued hcall he' hexecution hattempts =>
      refine .single (.claimed e e' executions' ?_ ?_ ?_ hexecution)
      · simp [Execution.inFlight, hqueued, ExecutionState.inFlight]
      · rw [he']
      · rw [he']
        exact ⟨rfl, rfl, rfl, rfl, rfl, rfl, rfl, rfl, rfl⟩
  | renewed e e' executions' hrunning hcall he' hexecution =>
      refine .single (.claimed e e' executions' ?_ ?_ ?_ hexecution)
      · simp [Execution.inFlight, hrunning, ExecutionState.inFlight]
      · rw [he', hrunning]
      · rw [he']
        exact ⟨rfl, rfl, rfl, rfl, rfl, rfl, rfl, rfl, rfl⟩
  | checkQueued id m r idempotencyKey traceparent db' hcall hnew hadmitting henqueued =>
      exact worked_of_appended henqueued.appended rfl rfl rfl
  | dueQueued id m r limit locked db' hcall hadmitting henqueued =>
      exact worked_of_appended henqueued.appended rfl rfl rfl
  | confirmed | patched | accepted | rejected | published => exact worked_of_eq rfl
  | terminalized e e' db₁ runningStaleAfter maxAttempts limit locked hcall hattempts hretired
      hrunning hfailed =>
      rw [terminalizeStaleExecution_executions]
      exact worked_of_retired hretired (.stale hfailed)
  | replaced e e' db₁ db' runningStaleAfter maxAttempts limit locked hcall hattempts hretired
      hrunning hfailed hreplaced =>
      refine worked_of_replaced hretired (.stale hfailed) hfailed ?_ hattempts hreplaced
      simp [attemptLimit, hcall]

/-- A retry is of a failed execution whose attempts are not used up. -/
theorem of_shouldRetry {result : ExecutionResult} {maxAttempts : Nat}
    (h : shouldRetryExecutionResult e result maxAttempts = true) :
    result.status = "failed" ∧ e.attempt < maxAttempts ∧ e.kind ≠ .check := by
  unfold shouldRetryExecutionResult at h
  split at h
  · cases h
  · rename_i hretry
    simp only [ne_eq, ge_iff_le, not_or, not_not, not_le, not_and] at hretry
    refine ⟨hretry.1, hretry.2.1, fun hcheck => ?_⟩
    simp [hcheck] at hretry

theorem worked_of_settled {store : OpenStore} {executionId : UUID} {result : ExecutionResult}
    (hcall : call.operation = .applyResult store executionId result)
    (h : Settled store call.now executionId result db e e' db₁ db') :
    Relation.ReflTransGen (Worked call) db.executions db'.executions := by
  obtain rfl := h.id
  have hends : Ends call e e' := .byResult store result hcall h.state
  have hended := worked_of_retired h.retired hends
  cases h.outcome with
  | planned plan db' hstatus hkind hplan heffect hobservation =>
      exact hended.trans (worked_of_eq heffect.executions)
  | plannedAndRecorded plan observation m o db₂ db' hstatus hkind hplan heffect hobservation
      hrecorded =>
      exact hended.trans (worked_of_eq (hrecorded.executions.trans heffect.executions))
  | observed observation m o db₂ db' hstatus hkind hobservation hrecorded hreaction =>
      rw [← hrecorded.executions] at hended
      cases hreaction with
      | diagnostic | unchanged => exact hended
      | latched | alerted => exact hended.trans (worked_of_eq rfl)
      | confirmationQueued id db' hcheck hverified hordinary hmatched hprevious henqueued =>
          exact hended.trans (worked_of_appended henqueued.appended rfl rfl rfl)
  | failed db' hstatus heffect =>
      cases heffect with
      | retried db' hretry hreplaced =>
          obtain ⟨hfailed, hattempt, -⟩ := of_shouldRetry hretry
          have hstate := h.state
          simp only [hfailed, validResultStatus, Option.some.injEq] at hstate
          refine worked_of_replaced h.retired hends hstate.symm ?_ hattempt hreplaced
          simp [attemptLimit, hcall]
      | compileFailed | repairFailed => exact hended.trans (worked_of_eq rfl)
      | checkFailed =>
          exact hended.trans (worked_of_eq (applyCheckFailure_executions _ _ _ _))
      | repairExists => exact hended
      | repairQueued id attemptId generation repairAttempts' uuids' db' hcheck hstale hgeneration
          hnone hattempt henqueued =>
          exact hended.trans (worked_of_appended henqueued.appended rfl rfl rfl)

theorem worked_of_step (db : Database) (call : Call) :
    Relation.ReflTransGen (Worked call) db.executions (step db call).executions := by
  rcases step_effects db call with heffects | ⟨store, id, result, e, e', db₁, hcall, hsettled⟩
  · generalize step db call = s' at heffects
    induction heffects with
    | refl => exact .refl
    | tail _ hlast ih => exact ih.trans (worked_of_effect hlast)
  · exact worked_of_settled hcall hsettled

end Steps

/-- The moves of an execution: from queued to running, and from either to a terminal state. -/
def Moves (s t : ExecutionState) : Prop :=
  s = t ∨ s = .queued ∧ t = .running ∨ s.inFlight = true ∧ t.inFlight = false

/-- What an execution may have become later. -/
structure Progressed (e e' : Execution) : Prop where
  sameJob : SameJob e e'
  moves : Moves e.state e'.state
  terminal : e.inFlight = false → e' = e

theorem Moves.trans {s t u : ExecutionState} (h : Moves s t) (h' : Moves t u) : Moves s u := by
  revert h h'
  unfold Moves
  cases s <;> cases t <;> cases u <;> simp [ExecutionState.inFlight]

theorem Progressed.refl (e : Execution) : Progressed e e :=
  ⟨SameJob.refl e, Or.inl rfl, fun _ => rfl⟩

theorem Progressed.trans (a b c : Execution) (h : Progressed a b) (h' : Progressed b c) :
    Progressed a c := by
  refine ⟨SameJob.trans a b c h.sameJob h'.sameJob, h.moves.trans h'.moves, fun hterminal => ?_⟩
  obtain rfl := h.terminal hterminal
  exact h'.terminal hterminal

theorem progressed_of_running {e e' : Execution} (hflight : e.inFlight = true)
    (hrunning : e'.state = .running) (hjob : SameJob e e') : Progressed e e' := by
  refine ⟨hjob, ?_, fun hterminal => by simp [hterminal] at hflight⟩
  unfold Moves
  rw [hrunning]
  revert hflight
  unfold Execution.inFlight
  cases e.state <;> simp [ExecutionState.inFlight]

theorem progressed_of_ended {e e' : Execution} (hflight : e.inFlight = true)
    (hterminal : e'.inFlight = false) (hjob : SameJob e e') : Progressed e e' :=
  ⟨hjob, Or.inr (Or.inr ⟨hflight, hterminal⟩), fun hended => by simp [hended] at hflight⟩

theorem progressed_of_worked {call : Call} {t t' : Table Execution.id} (h : Worked call t t') :
    t.Extends Progressed t' := by
  cases h with
  | claimed e e' t' hflight hrunning hjob h =>
      exact .of_substituted Progressed.refl h (progressed_of_running hflight hrunning hjob)
  | ended e e' t' hflight hterminal hjob hends h =>
      exact .of_substituted Progressed.refl h (progressed_of_ended hflight hterminal hjob)
  | replaced e e' id limit t₁ t' hflight hfailed hjob hends hlimit hattempt h₁ h =>
      have hterminal : e'.inFlight = false := by
        simp [Execution.inFlight, hfailed, ExecutionState.inFlight]
      exact (Table.Extends.of_substituted Progressed.refl h₁
        (progressed_of_ended hflight hterminal hjob)).trans Progressed.trans
          (.of_appended Progressed.refl h)
  | enqueued n t' hqueued hfirst hroot h => exact .of_appended Progressed.refl h

theorem progressed_of_step (db : Database) (call : Call) :
    db.executions.Extends Progressed (step db call).executions := by
  have hworked := worked_of_step db call
  generalize (step db call).executions = t at hworked ⊢
  induction hworked with
  | refl => exact .refl Progressed.refl _
  | tail _ hlast ih => exact ih.trans Progressed.trans (progressed_of_worked hlast)

/-- What the executions of any state of a run have become in any later one. -/
theorem progressed_of_le (calls : List Call) {i j : Nat} (hij : i ≤ j) :
    (stateAt step Database.empty calls i).executions.Extends Progressed
      (stateAt step Database.empty calls j).executions :=
  stateAt_mono (P := fun db =>
      (stateAt step Database.empty calls i).executions.Extends Progressed db.executions)
    (fun db call h => h.trans Progressed.trans (progressed_of_step db call)) hij
    (.refl Progressed.refl _)

/-- The execution took the place of a failed one: the same work, one attempt later. -/
structure Recovers (p e : Execution) : Prop where
  recoveryOf : e.recoveryOf = some p.id
  failed : p.state = .failed
  attempt : e.attempt = p.attempt + 1
  monitorId : e.monitorId = p.monitorId
  kind : e.kind = p.kind
  revisionId : e.revisionId = p.revisionId
  requestedGeneration : e.requestedGeneration = p.requestedGeneration
  input : e.input = p.input

theorem Recovers.terminal {p e : Execution} (h : Recovers p e) : p.inFlight = false := by
  simp [Execution.inFlight, h.failed, ExecutionState.inFlight]

theorem Recovers.sameJob {p e e' : Execution} (h : Recovers p e) (hjob : SameJob e e') :
    Recovers p e' where
  recoveryOf := hjob.recoveryOf.trans h.recoveryOf
  failed := h.failed
  attempt := hjob.attempt.trans h.attempt
  monitorId := hjob.monitorId.trans h.monitorId
  kind := hjob.kind.trans h.kind
  revisionId := hjob.revisionId.trans h.revisionId
  requestedGeneration := hjob.requestedGeneration.trans h.requestedGeneration
  input := hjob.input.trans h.input

theorem recovers_replacement {now : Timestamp} {id : UUID} {e e' : Execution}
    (hjob : SameJob e e') (hfailed : e'.state = .failed) :
    Recovers e' (replacementExecution now id e) where
  recoveryOf := congrArg some hjob.id.symm
  failed := hfailed
  attempt := congrArg (· + 1) hjob.attempt.symm
  monitorId := hjob.monitorId.symm
  kind := hjob.kind.symm
  revisionId := hjob.revisionId.symm
  requestedGeneration := hjob.requestedGeneration.symm
  input := hjob.input.symm

/-- First attempts recover nothing, later ones each the failed execution they
record, and no execution is recovered twice. -/
structure Linear (t : Table Execution.id) : Prop where
  first : ∀ e ∈ t, e.recoveryOf = none → e.attempt = 1
  parent : ∀ e ∈ t, ∀ id ∈ e.recoveryOf, ∃ p ∈ t, p.id = id ∧ Recovers p e
  single : ∀ e ∈ t, ∀ s ∈ t, e.recoveryOf.isSome = true → e.recoveryOf = s.recoveryOf → e = s

namespace Linear

variable {t t' : Table Execution.id} {e n : Execution}

theorem empty : Linear (Table.empty Execution.id) :=
  ⟨fun _ he => absurd he (Table.not_mem_empty _), fun _ he => absurd he (Table.not_mem_empty _),
    fun _ he => absurd he (Table.not_mem_empty _)⟩

/-- An execution in flight has not been replaced. -/
theorem childless (h : Linear t) (he : e ∈ t) (hflight : e.inFlight = true) :
    ∀ s ∈ t, s.recoveryOf ≠ some e.id := by
  intro s hs hrecovery
  obtain ⟨p, hp, hid, hrecovers⟩ := h.parent s hs e.id hrecovery
  obtain rfl := Table.eq_of_key_eq hp he hid
  simp [hrecovers.terminal] at hflight

theorem evolves (h : Linear t) (hevolves : t.Evolves Progressed t') : Linear t' := by
  constructor
  · intro e' he' hnone
    obtain ⟨e, he, -, hprogressed⟩ := hevolves.backward e' he'
    rw [hprogressed.sameJob.attempt]
    exact h.first e he (hprogressed.sameJob.recoveryOf.symm.trans hnone)
  · intro e' he' id hid
    obtain ⟨e, he, -, hprogressed⟩ := hevolves.backward e' he'
    obtain ⟨p, hp, hpid, hrecovers⟩ := h.parent e he id (hprogressed.sameJob.recoveryOf ▸ hid)
    obtain ⟨p', hp', -, hsame⟩ := hevolves.forward p hp
    obtain rfl := hsame.terminal hrecovers.terminal
    exact ⟨p', hp', hpid, hrecovers.sameJob hprogressed.sameJob⟩
  · intro e' he' s' hs' hsome hsame
    obtain ⟨e, he, heid, hpe⟩ := hevolves.backward e' he'
    obtain ⟨s, hs, hsid, hps⟩ := hevolves.backward s' hs'
    have hes := h.single e he s hs (by rwa [← hpe.sameJob.recoveryOf])
      (by rw [← hpe.sameJob.recoveryOf, ← hps.sameJob.recoveryOf, hsame])
    exact Table.eq_of_key_eq he' hs' (by rw [heid, hsid, hes])

theorem appended (h : Linear t) (happended : t.Appended n t')
    (hfirst : n.recoveryOf = none → n.attempt = 1)
    (hparent : ∀ id ∈ n.recoveryOf, ∃ p ∈ t, p.id = id ∧ Recovers p n)
    (hfresh : ∀ s ∈ t, s.recoveryOf.isSome = true → s.recoveryOf ≠ n.recoveryOf) : Linear t' := by
  constructor
  · exact Table.forall_appended happended h.first hfirst
  · refine Table.forall_appended happended (fun e he id hid => ?_) fun id hid => ?_
    · obtain ⟨p, hp, hrest⟩ := h.parent e he id hid
      exact ⟨p, happended.mem_of_mem hp, hrest⟩
    · obtain ⟨p, hp, hrest⟩ := hparent id hid
      exact ⟨p, happended.mem_of_mem hp, hrest⟩
  · intro e he s hs hsome hsame
    rcases happended.mem_iff.mp he with he | rfl <;> rcases happended.mem_iff.mp hs with hs | rfl
    · exact h.single e he s hs hsome hsame
    · exact absurd hsame (hfresh e he hsome)
    · exact absurd hsame.symm (hfresh s hs (hsame ▸ hsome))
    · rfl

theorem worked {call : Call} (h : Linear t) (hworked : Worked call t t') : Linear t' := by
  cases hworked with
  | claimed e e' t' hflight hrunning hjob hsubstituted =>
      exact h.evolves (.of_substituted Progressed.refl hsubstituted
        (progressed_of_running hflight hrunning hjob))
  | ended e e' t' hflight hterminal hjob hends hsubstituted =>
      exact h.evolves (.of_substituted Progressed.refl hsubstituted
        (progressed_of_ended hflight hterminal hjob))
  | enqueued n t' hqueued hfirst hroot happended =>
      refine h.appended happended (fun _ => hfirst) (fun id hid => ?_) fun s hs hsome hsame => ?_
      · simp [hroot] at hid
      · simp [hsame, hroot] at hsome
  | replaced e e' id limit t₁ t' hflight hfailed hjob hends hlimit hattempt hsubstituted
      happended =>
      have hterminal : e'.inFlight = false := by
        simp [Execution.inFlight, hfailed, ExecutionState.inFlight]
      have hevolves : t.Evolves Progressed t₁ := .of_substituted Progressed.refl hsubstituted
        (progressed_of_ended hflight hterminal hjob)
      refine (h.evolves hevolves).appended happended
        (fun hnone => absurd hnone (Option.some_ne_none _)) ?_ ?_
      · rintro parentId ⟨⟩
        exact ⟨e', hsubstituted.mem_new, hjob.id, recovers_replacement hjob hfailed⟩
      · intro s' hs' _ hsame
        obtain ⟨s, hs, -, hprogressed⟩ := hevolves.backward s' hs'
        exact h.childless hsubstituted.mem hflight s hs
          (hprogressed.sameJob.recoveryOf.symm.trans hsame)

theorem allWorked {call : Call} (h : Linear t)
    (hworked : Relation.ReflTransGen (Worked call) t t') :
    Linear t' := by
  induction hworked with
  | refl => exact h
  | tail _ hlast ih => exact ih.worked hlast

end Linear

theorem linear_of_reachable {db : Database} (h : StoreReachable db) : Linear db.executions :=
  h.invariant (P := fun db => Linear db.executions) Linear.empty fun db call _ hlinear =>
    hlinear.allWorked (worked_of_step db call)

end PriceScout.Store.Lifecycles
