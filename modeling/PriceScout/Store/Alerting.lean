import PriceScout.Store.Persistence

/-!
Where alerts come from: a confirmed match of a check that another check of the
monitor asked to confirm.
-/

namespace PriceScout.Store.Alerting

open PriceScout.Domain
open PriceScout.Library.GoStrings
open PriceScout.Library.JsonDocuments
open PriceScout.Library.Runs
open PriceScout.Library.Tables
open PriceScout.Store.Alerts
open PriceScout.Store.Effects
open PriceScout.Store.Executions
open PriceScout.Store.Inversions
open PriceScout.Store.Monitors
open PriceScout.Store.Operations
open PriceScout.Store.Outbox
open PriceScout.Store.Persistence
open PriceScout.Store.Recovery
open PriceScout.Store.Schema

/-- The call hands in the result of an execution in flight, which it makes terminal. -/
structure Accepts (call : Call) (db : Database) (e : Execution) (result : ExecutionResult)
    (db' : Database) : Prop where
  call : ∃ store, call.operation = .applyResult store e.id result
  mem : e ∈ db.executions
  inFlight : e.inFlight = true
  recorded : ∃ e' ∈ db'.executions, e'.id = e.id ∧ e'.inFlight = false ∧ e'.result = some result

/-- The call accepts the result of a check and records its verified observation. -/
structure Observes (call : Call) (db : Database) (e : Execution) (o : Observation)
    (db' : Database) : Prop where
  accepted : ∃ result, result.status = "succeeded" ∧ Accepts call db e result db'
  check : e.kind = .check
  recorded : o ∈ db'.observations
  first : ∀ s ∈ db.observations, s.executionId ≠ e.id
  executionId : o.executionId = e.id
  monitorId : o.monitorId = e.monitorId
  verified : o.verificationState = .verified

/-- The latch of a monitor. -/
def Latched (db : Database) (monitorId : UUID) (latch : Bool) : Prop :=
  ∃ m ∈ db.monitors, m.id = monitorId ∧ m.conditionMatched = latch

/-- One execution recovers another. -/
def Recovers (db : Database) (e s : Execution) : Prop :=
  s ∈ db.executions ∧ e.recoveryOf = some s.id ∧ s.monitorId = e.monitorId

/-- Zero or more recoveries lead from one execution back to another. -/
def Descends (db : Database) : Execution → Execution → Prop :=
  Relation.ReflTransGen (Recovers db)

/-- `c` is the confirmation that the observation `o` asks for. -/
structure Confirms (c : Execution) (o : Observation) : Prop where
  check : c.kind = .check
  original : c.recoveryOf = none
  monitorId : c.monitorId = o.monitorId
  input : c.input = alertConfirmationInput o.id

/-- Every confirmation descends from one that is no recovery. -/
def Rooted (db : Database) : Prop :=
  ∀ e ∈ db.executions, executionIsAlertConfirmation e = true → ∃ c ∈ db.executions,
    Descends db e c ∧ c.recoveryOf = none ∧ executionIsAlertConfirmation c = true

/-- Of the confirmations afterwards each was there before or recovers one that was. -/
def Inherits (db db' : Database) : Prop :=
  ∀ e' ∈ db'.executions, executionIsAlertConfirmation e' = true → ∃ e ∈ db.executions,
    SameJob e e' ∨
      e'.recoveryOf = some e.id ∧ e.monitorId = e'.monitorId ∧
        executionIsAlertConfirmation e = true

section Confirmations

variable {now : Timestamp} {db db' db₁ : Database} {e e' c n : Execution}

theorem isAlertConfirmation_congr (h : SameJob e e') :
    executionIsAlertConfirmation e' = executionIsAlertConfirmation e := by
  unfold executionIsAlertConfirmation
  rw [h.input]

theorem not_confirmation_of_input (h : e.input = .obj []) :
    executionIsAlertConfirmation e = false := by
  unfold executionIsAlertConfirmation
  rw [h]
  decide

theorem not_confirmation_compile (now : Timestamp) (id monitorId : UUID)
    (params : CreateMonitorParams) :
    executionIsAlertConfirmation (compileExecution now id monitorId params) = false := by
  have hkeys : equalFold "url" "alertConfirmation" = false ∧
      equalFold "intent" "alertConfirmation" = false := by decide
  simp [executionIsAlertConfirmation, compileExecution, Json.decodeBool, Json.decodeField,
    Json.fieldValues, hkeys.1, hkeys.2]

theorem Descends.persists (hpersists : Persists db db') (h : Descends db e c)
    {e' : Execution} (hjob : SameJob e e') (he' : e' ∈ db'.executions) :
    ∃ c' ∈ db'.executions, SameJob c c' ∧ Descends db' e' c' := by
  induction h using Relation.ReflTransGen.head_induction_on generalizing e' with
  | refl => exact ⟨e', he', hjob, .refl⟩
  | head hfirst _ ih =>
      obtain ⟨hs, hrecovers, hmonitor⟩ := hfirst
      obtain ⟨s', hs', -, hjob'⟩ := hpersists.executions _ hs
      obtain ⟨c', hc', hcjob, hdescends⟩ := ih hjob' hs'
      refine ⟨c', hc', hcjob, .head ⟨hs', ?_, ?_⟩ hdescends⟩
      · rw [hjob.recoveryOf, hrecovers, hjob'.id]
      · rw [hjob'.monitorId, hmonitor, hjob.monitorId]

theorem Descends.monitorId (h : Descends db e c) : c.monitorId = e.monitorId := by
  induction h with
  | refl => rfl
  | tail _ hlast ih => exact hlast.2.2.trans ih

theorem Rooted.empty : Rooted Database.empty :=
  fun _ he => absurd he (Table.not_mem_empty _)

/-- One more execution that is a confirmation without a past. -/
theorem Rooted.confirmation (hpersists : Persists db db') (h : Rooted db)
    (hinherits : ∀ e' ∈ db'.executions, executionIsAlertConfirmation e' = true →
      (e'.recoveryOf = none) ∨ ∃ e ∈ db.executions, SameJob e e' ∨
        e'.recoveryOf = some e.id ∧ e.monitorId = e'.monitorId ∧
          executionIsAlertConfirmation e = true) : Rooted db' := by
  intro e' he' hflag
  rcases hinherits e' he' hflag with horiginal | ⟨e, he, hjob | ⟨hrecovers, hmonitor, hflag'⟩⟩
  · exact ⟨e', he', .refl, horiginal, hflag⟩
  · obtain ⟨c, hc, hdescends, horiginal, hroot⟩ := h e he (isAlertConfirmation_congr hjob ▸ hflag)
    obtain ⟨c', hc', hcjob, hdescends'⟩ := hdescends.persists hpersists hjob he'
    exact ⟨c', hc', hdescends', hcjob.recoveryOf.trans horiginal,
      (isAlertConfirmation_congr hcjob).trans hroot⟩
  · obtain ⟨c, hc, hdescends, horiginal, hroot⟩ := h e he hflag'
    obtain ⟨s, hs, hsid, hjob⟩ := hpersists.executions e he
    obtain ⟨c', hc', hcjob, hdescends'⟩ := hdescends.persists hpersists hjob hs
    refine ⟨c', hc', .head ⟨hs, ?_, ?_⟩ hdescends', hcjob.recoveryOf.trans horiginal,
      (isAlertConfirmation_congr hcjob).trans hroot⟩
    · rw [hrecovers, hsid]
    · rw [hjob.monitorId, hmonitor]

theorem Rooted.inherits (h : Rooted db) (hpersists : Persists db db')
    (hinherits : Inherits db db') :
    Rooted db' :=
  h.confirmation hpersists fun e' he' hflag => Or.inr (hinherits e' he' hflag)

theorem inherits_of_eq (h : db'.executions = db.executions) : Inherits db db' := by
  unfold Inherits
  rw [h]
  exact fun e he _ => ⟨e, he, Or.inl (SameJob.refl e)⟩

theorem inherits_of_substituted (h : db.executions.Substituted e e' db'.executions)
    (hjob : SameJob e e') : Inherits db db' := by
  intro s hs _
  rcases h.mem_cases hs with ⟨hs, -⟩ | rfl
  · exact ⟨s, hs, Or.inl (SameJob.refl s)⟩
  · exact ⟨e, h.mem, Or.inl hjob⟩

theorem inherits_of_appended (h : db.executions.Appended n db'.executions)
    (hnone : executionIsAlertConfirmation n = false) : Inherits db db' := by
  intro s hs hflag
  rcases h.mem_iff.mp hs with hs | rfl
  · exact ⟨s, hs, Or.inl (SameJob.refl s)⟩
  · simp [hnone] at hflag

theorem inherits_followed (hretired : Retired db e e' db₁)
    (hfollowed : db₁.executions = db'.executions ∨
      ∃ n, db₁.executions.Appended n db'.executions ∧
        (executionIsAlertConfirmation n = true →
          n.recoveryOf = some e.id ∧ e.monitorId = n.monitorId ∧
            executionIsAlertConfirmation e = true)) : Inherits db db' := by
  have hsubstituted := inherits_of_substituted hretired.substituted hretired.sameJob
  rcases hfollowed with heq | ⟨n, happended, hn⟩
  · unfold Inherits at hsubstituted ⊢
    rwa [heq] at hsubstituted
  · intro s hs hflag
    rcases happended.mem_iff.mp hs with hs | rfl
    · exact hsubstituted s hs hflag
    · exact ⟨e, hretired.mem, Or.inr (hn hflag)⟩

theorem inherits_replaced (hretired : Retired db e e' db₁) (hreplaced : Replaced now db₁ e db') :
    Inherits db db' := by
  refine inherits_followed hretired (Or.inr ?_)
  cases hreplaced with
  | enqueued id db' hkind h => exact ⟨_, h.appended, fun hflag => ⟨rfl, rfl, hflag⟩⟩
  | repointed id db' a hkind hmem hexecution h =>
      exact ⟨_, h.appended, fun hflag => ⟨rfl, rfl, hflag⟩⟩

theorem inherits_effect {call : Call} (h : Effect call db db') : Inherits db db' := by
  cases h with
  | created monitorId executionId params monitors' db' hcall hinterval hmonitor henqueued =>
      exact inherits_of_appended henqueued.appended (not_confirmation_compile _ _ _ _)
  | claimed e e' executions' repairAttempts' hqueued hcall he' hexecution hattempts =>
      exact inherits_of_substituted hexecution
        (by rw [he']; exact ⟨rfl, rfl, rfl, rfl, rfl, rfl, rfl, rfl, rfl⟩)
  | renewed e e' executions' hrunning hcall he' hexecution =>
      exact inherits_of_substituted hexecution
        (by rw [he']; exact ⟨rfl, rfl, rfl, rfl, rfl, rfl, rfl, rfl, rfl⟩)
  | checkQueued id m r idempotencyKey traceparent db' hcall hnew hadmitting henqueued =>
      exact inherits_of_appended henqueued.appended (not_confirmation_of_input rfl)
  | dueQueued id m r limit locked db' hcall hadmitting henqueued =>
      exact inherits_of_appended henqueued.appended (not_confirmation_of_input rfl)
  | confirmed | patched | accepted | rejected | published => exact inherits_of_eq rfl
  | terminalized e e' db₁ runningStaleAfter maxAttempts limit locked hcall hattempts hretired
      hrunning hfailed =>
      exact inherits_followed hretired (Or.inl (terminalizeStaleExecution_executions _ _ _ _).symm)
  | replaced e e' db₁ db' runningStaleAfter maxAttempts limit locked hcall hattempts hretired
      hrunning hfailed hreplaced => exact inherits_replaced hretired hreplaced

theorem accepts_of_settled {call : Call} {store : OpenStore} {executionId : UUID}
    {result : ExecutionResult} (hcall : call.operation = .applyResult store executionId result)
    (h : Settled store call.now executionId result db e e' db₁ db') :
    Accepts call db e result db' := by
  refine ⟨⟨store, by rw [hcall, h.id]⟩, h.retired.mem, h.retired.inFlight, e', ?_,
    h.retired.sameJob.id, h.retired.terminal, h.recorded⟩
  have he' := h.retired.substituted.mem_new
  rcases h.outcome.followedIn with heq | ⟨n, -, -, happended⟩
  · rwa [heq]
  · exact happended.mem_of_mem he'

/-- What is recorded with the result of a check, before the monitor reacts to it. -/
theorem observes_of_recorded {call : Call} {result : ExecutionResult}
    {observation : ResultObservation} {m : Monitor} {o : Observation} {db₂ : Database}
    (haccepts : Accepts call db e result db') (hstatus : result.status = "succeeded")
    (hkind : e.kind = .check) (hobservations : db₁.observations = db.observations)
    (hrecorded : Recorded now e observation db₁ m o db₂)
    (hlater : db'.observations = db₂.observations) (hverified : o.verificationState = .verified) :
    Observes call db e o db' := by
  obtain ⟨-, -, ⟨id, verification, -, ho⟩, hfresh, observations', uuids', happended, rfl⟩ :=
    hrecorded
  refine ⟨⟨result, hstatus, haccepts⟩, hkind, ?_, hobservations ▸ hfresh, ?_, ?_, hverified⟩
  · rw [hlater]
    exact happended.mem
  · rw [ho]
    rfl
  · rw [ho]
    rfl

/-- An accepted result adds no confirmation but the one a verified match asks for. -/
theorem inherits_settled {call : Call} {store : OpenStore} {executionId : UUID}
    {result : ExecutionResult} (hcall : call.operation = .applyResult store executionId result)
    (h : Settled store call.now executionId result db e e' db₁ db') :
    Inherits db db' ∨ ∃ o n, Observes call db e o db' ∧ o.conditionMatched = true ∧
      Confirms n o ∧ ∀ s ∈ db'.executions, s = n ∨ ∃ e ∈ db.executions, SameJob e s := by
  have hretired := h.retired
  have haccepts := accepts_of_settled hcall h
  cases h.outcome with
  | planned plan db' hstatus hkind hplan heffect hobservation =>
      exact Or.inl (inherits_followed hretired (Or.inl heffect.executions.symm))
  | plannedAndRecorded plan observation m o db₂ db' hstatus hkind hplan heffect hobservation
      hrecorded =>
      exact Or.inl (inherits_followed hretired
        (Or.inl (hrecorded.executions.trans heffect.executions).symm))
  | observed observation m o db₂ db' hstatus hkind hobservation hrecorded hreaction =>
      cases hreaction with
      | diagnostic | unchanged | latched | alerted =>
          exact Or.inl (inherits_followed hretired (Or.inl hrecorded.executions.symm))
      | confirmationQueued id db' _ hverified hordinary hmatched hprevious henqueued =>
          have hobserves := observes_of_recorded haccepts hstatus hkind hretired.observations
            hrecorded henqueued.observations hverified
          refine Or.inr ⟨o, confirmationExecution call.now id e o.id, hobserves, hmatched,
            ⟨rfl, rfl, hobserves.monitorId.symm, rfl⟩, fun s hs => ?_⟩
          rcases henqueued.appended.mem_iff.mp hs with hs | rfl
          · rw [hrecorded.executions] at hs
            rcases hretired.substituted.mem_cases hs with ⟨hs, -⟩ | rfl
            · exact Or.inr ⟨s, hs, SameJob.refl s⟩
            · exact Or.inr ⟨e, hretired.mem, hretired.sameJob⟩
          · exact Or.inl rfl
  | failed db' hstatus heffect =>
      left
      cases heffect with
      | retried db' hretry hreplaced => exact inherits_replaced hretired hreplaced
      | compileFailed | repairFailed | repairExists => exact inherits_followed hretired (Or.inl rfl)
      | checkFailed =>
          exact inherits_followed hretired (Or.inl (applyCheckFailure_executions _ _ _ _).symm)
      | repairQueued id attemptId generation repairAttempts' uuids' db' hkind hstale hgeneration
          hnone
          hattempt henqueued =>
          refine inherits_followed hretired (Or.inr ⟨_, henqueued.appended, fun hflag => ?_⟩)
          rw [not_confirmation_of_input rfl] at hflag
          cases hflag

theorem rooted_of_reachable {db : Database} (h : StoreReachable db) : Rooted db := by
  refine Reachable.invariant Rooted.empty (fun s call _ hrooted => ?_) h
  rcases step_effects s call with heffects | ⟨store, id, result, e, e', db₁, hcall, hsettled⟩
  · generalize step s call = s' at heffects
    induction heffects with
    | refl => exact hrooted
    | tail _ hlast ih => exact ih.inherits (.effect hlast) (inherits_effect hlast)
  · rcases inherits_settled hcall hsettled with hinherits | ⟨o, n, -, -, hconfirms, hold⟩
    · exact hrooted.inherits (.settled hsettled) hinherits
    · refine hrooted.confirmation (.settled hsettled) fun s hs hflag => ?_
      rcases hold s hs with rfl | ⟨e, he, hjob⟩
      · exact Or.inl hconfirms.original
      · exact Or.inr ⟨e, he, Or.inl hjob⟩

/-- A confirmation without a past appears when a verified match asks for it. -/
theorem observes_of_original {call : Call} (hc : c ∈ (step db call).executions)
    (horiginal : c.recoveryOf = none) (hflag : executionIsAlertConfirmation c = true)
    (hfresh : ∀ s ∈ db.executions, s.id ≠ c.id) :
    ∃ t o, Observes call db t o (step db call) ∧ o.conditionMatched = true ∧ Confirms c o := by
  rcases step_effects db call with heffects | ⟨store, id, result, e, e', db₁, hcall, hsettled⟩
  · generalize step db call = s' at heffects hc
    exfalso
    induction heffects generalizing c with
    | refl => exact hfresh c hc rfl
    | tail _ hlast ih =>
        obtain ⟨s, hs, hjob | ⟨hrecovers, -⟩⟩ := inherits_effect hlast c hc hflag
        · exact ih (hjob.recoveryOf.symm.trans horiginal)
            ((isAlertConfirmation_congr hjob).symm.trans hflag)
            (fun u hu => hjob.id ▸ hfresh u hu) hs
        · simp [horiginal] at hrecovers
  · rcases inherits_settled hcall hsettled with
      hinherits | ⟨o, n, hobserves, hmatched, hconfirms, hold⟩
    · obtain ⟨s, hs, hjob | ⟨hrecovers, -⟩⟩ := hinherits c hc hflag
      · exact absurd hjob.id.symm (hfresh s hs)
      · simp [horiginal] at hrecovers
    · rcases hold c hc with rfl | ⟨s, hs, hjob⟩
      · exact ⟨e, o, hobserves, hmatched, hconfirms⟩
      · exact absurd hjob.id.symm (hfresh s hs)

end Confirmations

section Alerts

variable {now : Timestamp} {db db' db₁ : Database} {e e' : Execution}

theorem terminalizeStaleExecution_alerts (now : Timestamp) (e : Execution) (reason : String)
    (db : Database) : (terminalizeStaleExecution now e reason db).alerts = db.alerts := by
  unfold terminalizeStaleExecution
  cases e.kind <;> rfl

theorem alerts_effect {call : Call} (h : Effect call db db') : db'.alerts = db.alerts := by
  cases h with
  | created monitorId executionId params monitors' db' hcall hinterval hmonitor henqueued =>
      exact henqueued.alerts
  | claimed | renewed | confirmed | patched | accepted | rejected | published => rfl
  | checkQueued id m r idempotencyKey traceparent db' hcall hnew hadmitting henqueued =>
      exact henqueued.alerts
  | dueQueued id m r limit locked db' hcall hadmitting henqueued => exact henqueued.alerts
  | terminalized e e' db₁ runningStaleAfter maxAttempts limit locked hcall hattempts hretired
      hrunning hfailed => exact (terminalizeStaleExecution_alerts _ _ _ _).trans hretired.alerts
  | replaced e e' db₁ db' runningStaleAfter maxAttempts limit locked hcall hattempts hretired
      hrunning hfailed hreplaced => exact hreplaced.alerts.trans hretired.alerts

theorem alerts_failureEffect {store : OpenStore} {result : ExecutionResult}
    (h : FailureEffect store now e result db db') : db'.alerts = db.alerts := by
  cases h with
  | retried db' hretry hreplaced => exact hreplaced.alerts
  | compileFailed | repairFailed | repairExists => rfl
  | checkFailed =>
      unfold applyCheckFailure
      split
      · rfl
      · split <;> rfl
  | repairQueued id attemptId generation repairAttempts' uuids' db' hkind hstale hgeneration hnone
      hattempt henqueued => exact henqueued.alerts

/-- The step raises the alert `a` on the observation `o` of the confirmation `e`. -/
structure Raises (call : Call) (db : Database) (a : Alert) (e : Execution) (o : Observation)
    (db' : Database) : Prop where
  observes : Observes call db e o db'
  appended : db.alerts.Appended a db'.alerts
  observationId : a.observationId = o.id
  monitorId : a.monitorId = e.monitorId
  matched : o.conditionMatched = true
  confirmation : executionIsAlertConfirmation e = true
  before : Latched db a.monitorId false
  after : Latched db' a.monitorId true

theorem alerts_settled {call : Call} {store : OpenStore} {executionId : UUID}
    {result : ExecutionResult} (hcall : call.operation = .applyResult store executionId result)
    (h : Settled store call.now executionId result db e e' db₁ db') :
    db'.alerts = db.alerts ∨ ∃ a o, Raises call db a e o db' := by
  have hretired := h.retired
  have haccepts := accepts_of_settled hcall h
  have halerts := hretired.alerts
  cases h.outcome with
  | planned plan db' hstatus hkind hplan heffect hobservation =>
      left
      cases heffect <;> exact halerts
  | plannedAndRecorded plan observation m o db₂ db' hstatus hkind hplan heffect hobservation
      hrecorded =>
      left
      refine hrecorded.unchanged.2.2.2.trans ?_
      cases heffect <;> exact halerts
  | failed db' hstatus heffect => exact Or.inl ((alerts_failureEffect heffect).trans halerts)
  | observed observation m o db₂ db' hstatus hkind hobservation hrecorded hreaction =>
      have hsame := hrecorded.unchanged.2.2.2.trans halerts
      cases hreaction with
      | diagnostic | unchanged | latched => exact Or.inl hsame
      | confirmationQueued id db' _ hverified hordinary hmatched hprevious henqueued =>
          exact Or.inl (henqueued.alerts.trans hsame)
      | alerted id alerts' alertDeliveries' uuids' _ hverified hconfirmation hmatched hprevious
          halert =>
          have hm := hrecorded.mem
          have hid := hrecorded.monitorId
          have hafter : Latched { setConditionMatched call.now e.monitorId true db₂ with
              alerts := alerts', alertDeliveries := alertDeliveries', uuids := uuids' }
              e.monitorId true :=
            ⟨_, Table.mem_update_of_pos (hrecorded.unchanged.1 ▸ hm) (by simpa using hid), hid, rfl⟩
          refine Or.inr ⟨_, o, observes_of_recorded haccepts hstatus hkind hretired.observations
            hrecorded rfl hverified, hsame ▸ halert, rfl, rfl, hmatched, hconfirmation,
            ⟨m, ?_, hid, hprevious⟩, hafter⟩
          rwa [hretired.monitors] at hm

/-- An alert that appears in a step is raised by it. -/
theorem raises_of_step {call : Call} {a : Alert} (hnone : a ∉ db.alerts)
    (ha : a ∈ (step db call).alerts) : ∃ e o, Raises call db a e o (step db call) := by
  rcases step_effects db call with heffects | ⟨store, id, result, e, e', db₁, hcall, hsettled⟩
  · generalize step db call = s' at heffects ha
    exfalso
    induction heffects with
    | refl => exact hnone ha
    | tail _ hlast ih => exact ih (alerts_effect hlast ▸ ha)
  · rcases alerts_settled hcall hsettled with hsame | ⟨b, o, hraises⟩
    · exact absurd (hsame ▸ ha) hnone
    · rcases hraises.appended.mem_iff.mp ha with ha | rfl
      · exact absurd ha hnone
      · exact ⟨e, o, hraises⟩

end Alerts

/-- The step number `i` of the run raises the alert. -/
def RaisedAt (calls : List Call) (i : Nat) (a : Alert) (e : Execution) (o : Observation) : Prop :=
  ∃ call ∈ calls[i]?, Raises call (stateAt step Database.empty calls i) a e o
    (stateAt step Database.empty calls (i + 1))

/-- The step number `j` of the run records a verified match of the check `t`
and queues `c` to confirm it. -/
def AskedAt (calls : List Call) (j : Nat) (t : Execution) (o : Observation) (c : Execution) :
    Prop :=
  ∃ call ∈ calls[j]?, Observes call (stateAt step Database.empty calls j) t o
      (stateAt step Database.empty calls (j + 1)) ∧
    o.conditionMatched = true ∧ Confirms c o ∧
    (∀ s ∈ (stateAt step Database.empty calls j).executions, s.id ≠ c.id) ∧
    c ∈ (stateAt step Database.empty calls (j + 1)).executions

theorem exists_raisedAt (calls : List Call) {n : Nat} (hn : n ≤ calls.length) {a : Alert}
    (ha : a ∈ (stateAt step Database.empty calls n).alerts) :
    ∃ i e o, i < n ∧ RaisedAt calls i a e o := by
  obtain ⟨i, hi, hnone, hsome⟩ := exists_step_of_stateAt (P := fun db : Database => a ∈ db.alerts)
    (Table.not_mem_empty a) hn ha
  have hlt : i < calls.length := by omega
  rw [stateAt_succ hlt] at hsome
  obtain ⟨e, o, hraises⟩ := raises_of_step hnone hsome
  refine ⟨i, e, o, hi, calls[i], by simp [hlt], ?_⟩
  rwa [stateAt_succ hlt]

/-- A confirmation in some state of a run descends from one that was asked for before. -/
theorem exists_askedAt (calls : List Call) {i : Nat} (hi : i ≤ calls.length) {e : Execution}
    (he : e ∈ (stateAt step Database.empty calls i).executions)
    (hflag : executionIsAlertConfirmation e = true) :
    ∃ j t o c c', j < i ∧ AskedAt calls j t o c ∧ SameJob c c' ∧
      Descends (stateAt step Database.empty calls i) e c' := by
  obtain ⟨c', hc', hdescends, horiginal, hroot⟩ :=
    rooted_of_reachable (reachable_stateAt calls i) e he hflag
  obtain ⟨j, hj, hnone, hsome⟩ := exists_step_of_stateAt
    (P := fun db : Database => ∃ c ∈ db.executions, c.id = c'.id)
    (fun ⟨c, hc, _⟩ => Table.not_mem_empty c hc) hi ⟨c', hc', rfl⟩
  obtain ⟨c, hc, hcid⟩ := hsome
  have hjob : SameJob c c' := by
    obtain ⟨s, hs, hsid, hjob⟩ := (Persists.stateAt Database.empty calls hj).executions c hc
    exact Table.eq_of_key_eq hs hc' (hsid.trans hcid) ▸ hjob
  have hlt : j < calls.length := by omega
  have hfresh : ∀ s ∈ (stateAt step Database.empty calls j).executions, s.id ≠ c.id :=
    fun s hs hsid => hnone ⟨s, hs, hsid.trans hcid⟩
  have hborn := hc
  rw [stateAt_succ hlt] at hborn
  obtain ⟨t, o, hobserves, hmatched, hconfirms⟩ := observes_of_original hborn
    (hjob.recoveryOf.symm.trans horiginal) ((isAlertConfirmation_congr hjob).symm.trans hroot)
      hfresh
  refine ⟨j, t, o, c, c', hj, ⟨calls[j], by simp [hlt], ?_, hmatched, hconfirms, hfresh, hc⟩, hjob,
    hdescends⟩
  rwa [stateAt_succ hlt]

/-- Every alert of a run was raised on a verified match of a confirmation that
descends from one asked for by an earlier check of the monitor, another
execution with a verified match of its own; raising it turned the latch on. -/
theorem alert_provenance (calls : List Call) :
    ∀ a ∈ (run step Database.empty calls).alerts, ∃ i e o, RaisedAt calls i a e o ∧
      o ∈ (run step Database.empty calls).observations ∧
      ∃ j t p c c', j < i ∧ AskedAt calls j t p c ∧ t.id ≠ e.id ∧ t.monitorId = e.monitorId ∧
        SameJob c c' ∧ Descends (stateAt step Database.empty calls i) e c' := by
  intro a ha
  rw [← stateAt_length] at ha ⊢
  obtain ⟨i, e, o, hi, call, hcall, hraises⟩ := exists_raisedAt calls (le_refl _) ha
  obtain ⟨result, -, haccepts⟩ := hraises.observes.accepted
  obtain ⟨j, t, p, c, c', hj, hasked, hjob, hdescends⟩ :=
    exists_askedAt calls (by omega) haccepts.mem hraises.confirmation
  refine ⟨i, e, o, ⟨call, hcall, hraises⟩, ?_, j, t, p, c, c', hj, hasked, ?_, ?_, hjob, hdescends⟩
  · exact (Persists.stateAt Database.empty calls hi).mem_observations hraises.observes.recorded
  · obtain ⟨_, -, hobserves, -⟩ := hasked
    intro hsame
    refine hraises.observes.first p ?_ (hobserves.executionId.trans hsame)
    exact (Persists.stateAt Database.empty calls hj).mem_observations hobserves.recorded
  · obtain ⟨_, -, hobserves, -, hconfirms, -⟩ := hasked
    rw [← hdescends.monitorId, hjob.monitorId, hconfirms.monitorId, hobserves.monitorId]

/-- A check that observes the item in stock at five dollars. -/
def fiveDollars : ExecutionResult :=
  { ExecutionResult.bare "succeeded" "" with
    observation := some { priceMinor := 500, currency := "USD", inStock := true,
                          title := "Desk Lamp", rawText := "", identity := none,
                          verificationState := "", conditionMatched := none } }

/-- A check finds a match, and its confirmation finds it again. -/
def confirmedMatch : List Call :=
  [⟨0, .createMonitor ⟨"https://shop.example/item", "price of the item", 60, ""⟩⟩,
   ⟨1, .applyResult (openStore [] 3) ⟨2⟩
     { ExecutionResult.bare "succeeded" "" with plan := some (.obj []) }⟩,
   ⟨2, .confirmMonitor ⟨1⟩ ⟨⟨3⟩, some (.obj [("priceBelowMinor", .int 1000),
     ("currency", .str "USD"), ("requireInStock", .bool true)])⟩⟩,
   ⟨3, .enqueueCheck ⟨1⟩ "" ""⟩,
   ⟨4, .applyResult (openStore [] 3) ⟨4⟩ fiveDollars⟩,
   ⟨5, .applyResult (openStore [] 3) ⟨6⟩ fiveDollars⟩]

theorem alert_provenance_confirmedMatch :
    ∃ a ∈ (run step Database.empty confirmedMatch).alerts, ∃ i e o,
      RaisedAt confirmedMatch i a e o ∧
      o ∈ (run step Database.empty confirmedMatch).observations ∧
      ∃ j t p c c', j < i ∧ AskedAt confirmedMatch j t p c ∧ t.id ≠ e.id ∧
        t.monitorId = e.monitorId ∧ SameJob c c' ∧
        Descends (stateAt step Database.empty confirmedMatch i) e c' := by
  have hraised : (run step Database.empty confirmedMatch).alerts.rows ≠ [] := by decide +kernel
  obtain ⟨a, ha⟩ := List.exists_mem_of_ne_nil _ hraised
  exact ⟨a, ha, alert_provenance confirmedMatch a ha⟩

end PriceScout.Store.Alerting
