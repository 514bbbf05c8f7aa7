import PriceScout.Store.Persistence

/-!
Only active plans run. The plan of a monitor and the plan of every check and
repair is an active revision of that monitor, and active revisions never change.
-/

namespace PriceScout.Store.Provenance

open PriceScout.Domain
open PriceScout.Library.JsonDocuments
open PriceScout.Library.Runs
open PriceScout.Library.Tables
open PriceScout.Store.Alerts
open PriceScout.Store.Effects
open PriceScout.Store.Executions
open PriceScout.Store.Inversions
open PriceScout.Store.Monitors
open PriceScout.Store.Operations
open PriceScout.Store.Outbox
open PriceScout.Store.Persistence
open PriceScout.Store.Recovery
open PriceScout.Store.Schema

/-- The current revision of a monitor is one of its own, active since some time. -/
def RunsActivePlan (db : Database) (m : Monitor) : Prop :=
  ∀ id ∈ m.currentRevisionId, ∃ r ∈ db.revisions, r.id = id ∧ r.monitorId = m.id ∧
    r.validationState = .active ∧ r.activatedAt.isSome = true

/-- The revision of an execution is an active one of its monitor, of the
generation the execution was requested for. -/
def ExecutesActivePlan (db : Database) (e : Execution) : Prop :=
  ∃ r ∈ db.revisions, e.revisionId = some r.id ∧ r.monitorId = e.monitorId ∧
    r.validationState = .active ∧ e.requestedGeneration = some r.generation

structure PlansActive (db : Database) : Prop where
  monitors : ∀ m ∈ db.monitors, RunsActivePlan db m
  executions : ∀ e ∈ db.executions, e.kind ≠ .compile → ExecutesActivePlan db e
  compiles : ∀ e ∈ db.executions, e.kind = .compile → e.revisionId = none

theorem decidable_iff {monitorId : UUID} {r : Revision} :
    decidable monitorId r.id r = true ↔ r.monitorId = monitorId ∧ r.pending = true := by
  simp [decidable]

section Preservation

variable {now : Timestamp} {db db' db₁ : Database} {e e' n : Execution} {m : Monitor}

theorem RunsActivePlan.persists (h : RunsActivePlan db m) (hpersists : Persists db db') :
    RunsActivePlan db' m := by
  intro id hid
  obtain ⟨r, hr, hrest⟩ := h id hid
  exact ⟨r, hpersists.mem_revisions hr hrest.2.2.1, hrest⟩

theorem ExecutesActivePlan.persists (h : ExecutesActivePlan db e) (hpersists : Persists db db') :
    ExecutesActivePlan db' e := by
  obtain ⟨r, hr, hrevision, hmonitor, hactive, hgeneration⟩ := h
  exact ⟨r, hpersists.mem_revisions hr hactive, hrevision, hmonitor, hactive, hgeneration⟩

/-- It takes the same revision, monitor and generation to execute the same plan. -/
theorem ExecutesActivePlan.congr (h : ExecutesActivePlan db e)
    (hrevision : n.revisionId = e.revisionId)
    (hmonitor : n.monitorId = e.monitorId)
    (hgeneration : n.requestedGeneration = e.requestedGeneration) : ExecutesActivePlan db n := by
  unfold ExecutesActivePlan
  rwa [hrevision, hmonitor, hgeneration]

namespace PlansActive

theorem empty : PlansActive Database.empty :=
  ⟨fun _ h => absurd h (Table.not_mem_empty _), fun _ h => absurd h (Table.not_mem_empty _),
    fun _ h => absurd h (Table.not_mem_empty _)⟩

theorem of_tables (h : PlansActive db) (hpersists : Persists db db')
    (hmonitors : ∀ m ∈ db'.monitors, RunsActivePlan db' m)
    (hexecutions : db'.executions = db.executions) : PlansActive db' := by
  refine ⟨hmonitors, ?_, ?_⟩
  · rw [hexecutions]
    exact fun e he hkind => (h.executions e he hkind).persists hpersists
  · rw [hexecutions]
    exact h.compiles

theorem congr (h : PlansActive db) (hpersists : Persists db db')
    (hmonitors : db'.monitors = db.monitors) (hexecutions : db'.executions = db.executions) :
    PlansActive db' := by
  refine h.of_tables hpersists ?_ hexecutions
  rw [hmonitors]
  exact fun m hm => (h.monitors m hm).persists hpersists

/-- An assignment that keeps the current revision of a monitor. -/
theorem updateMonitor {id : UUID} {f : Monitor → Monitor} {hf : ∀ m, (f m).id = m.id}
    (h : PlansActive db) (hcurrent : ∀ m, (f m).currentRevisionId = m.currentRevisionId) :
    PlansActive (db.updateMonitor id f hf) := by
  refine h.of_tables .updateMonitor (Table.forall_update h.monitors fun m _ hm => ?_) rfl
  intro id hid
  rw [hf m]
  exact hm id (hcurrent m ▸ hid)

/-- An assignment that makes an active revision of the monitor its current one. -/
theorem promote {id : UUID} {f : Monitor → Monitor} {hf : ∀ m, (f m).id = m.id} {r : Revision}
    (h : PlansActive db) (hpersists : Persists db db')
    (hexecutions : db'.executions = db.executions)
    (hmonitors : db'.monitors = db.monitors.update (fun m => decide (m.id = id)) f hf)
    (hcurrent : ∀ m, (f m).currentRevisionId = some r.id) (hr : r ∈ db'.revisions)
    (hmonitor : r.monitorId = id) (hactive : r.validationState = .active)
    (hactivated : r.activatedAt.isSome = true) : PlansActive db' := by
  refine h.of_tables hpersists ?_ hexecutions
  rw [hmonitors]
  intro m hm
  rcases Table.mem_update_cases hm with ⟨s, hs, hsid, rfl⟩ | ⟨hm, -⟩
  · intro id' hid'
    rw [hcurrent, Option.mem_some_iff] at hid'
    have hsid : s.id = id := by simpa using hsid
    exact ⟨r, hr, hid', by rw [hmonitor, hf s, hsid], hactive, hactivated⟩
  · exact (h.monitors m hm).persists hpersists

/-- An execution that is claimed, renewed or made terminal keeps its plan. -/
theorem substituted (h : PlansActive db) (hpersists : Persists db db')
    (hmonitors : db'.monitors = db.monitors)
    (hsubstituted : db.executions.Substituted e e' db'.executions) (hjob : SameJob e e') :
    PlansActive db' := by
  refine ⟨?_, ?_, ?_⟩
  · rw [hmonitors]
    exact fun m hm => (h.monitors m hm).persists hpersists
  · intro s hs hkind
    rcases hsubstituted.mem_cases hs with ⟨hs, -⟩ | rfl
    · exact (h.executions s hs hkind).persists hpersists
    · have hplanned := h.executions e hsubstituted.mem (hjob.kind ▸ hkind)
      exact (hplanned.congr hjob.revisionId hjob.monitorId hjob.requestedGeneration).persists
        hpersists
  · intro s hs hkind
    rcases hsubstituted.mem_cases hs with ⟨hs, -⟩ | rfl
    · exact h.compiles s hs hkind
    · exact hjob.revisionId.trans (h.compiles e hsubstituted.mem (hjob.kind ▸ hkind))

theorem appended (h : PlansActive db) (hpersists : Persists db db')
    (hmonitors : ∀ m ∈ db'.monitors, RunsActivePlan db' m)
    (happended : db.executions.Appended n db'.executions)
    (hplanned : n.kind ≠ .compile → ExecutesActivePlan db' n)
    (hcompile : n.kind = .compile → n.revisionId = none) : PlansActive db' :=
  ⟨hmonitors,
    Table.forall_appended happended
      (fun s hs hkind => (h.executions s hs hkind).persists hpersists) hplanned,
    Table.forall_appended happended h.compiles hcompile⟩

theorem enqueued {traceparent : String} (h : PlansActive db)
    (henqueued : Enqueued now db n traceparent db')
    (hplanned : n.kind ≠ .compile → ExecutesActivePlan db n)
    (hcompile : n.kind = .compile → n.revisionId = none) : PlansActive db' := by
  have hpersists := Persists.enqueued henqueued
  refine h.appended hpersists ?_ henqueued.appended
    (fun hkind => (hplanned hkind).persists hpersists) hcompile
  rw [henqueued.monitors]
  exact fun m hm => (h.monitors m hm).persists hpersists

/-- An admitted check runs the current plan of its monitor. -/
theorem executesActivePlan_of_admitting {r : Revision} (h : PlansActive db)
    (hadmitting : Admitting db m r) (id : UUID) (idempotencyKey : String) :
    ExecutesActivePlan db (checkExecution now id m.id r.id r.generation idempotencyKey) := by
  obtain ⟨s, hs, hid, hmonitor, hactive, -⟩ :=
    h.monitors m hadmitting.monitor r.id hadmitting.current
  obtain rfl := Table.eq_of_key_eq hs hadmitting.revision hid
  exact ⟨s, hs, rfl, hmonitor, hactive, rfl⟩

theorem retired (h : PlansActive db) (hretired : Retired db e e' db') : PlansActive db' :=
  h.substituted (.retired hretired) hretired.monitors hretired.substituted hretired.sameJob

/-- What follows an execution runs the plan it ran. -/
theorem executions_followed (h : PlansActive db) (he : e ∈ db.executions)
    (hfollows : Follows now e n) :
    (n.kind ≠ .compile → ExecutesActivePlan db n) ∧ (n.kind = .compile → n.revisionId = none) := by
  constructor
  · intro hkind
    have hplanned := h.executions e he fun hcompile => hkind (hfollows.compile_iff.mpr hcompile)
    exact hplanned.congr hfollows.revisionId hfollows.monitorId hfollows.requestedGeneration
  · intro hkind
    exact hfollows.revisionId.trans (h.compiles e he (hfollows.compile_iff.mp hkind))

theorem followed (h : PlansActive db) (hretired : Retired db e e' db₁)
    (hpersists : Persists db₁ db')
    (hmonitors : ∀ m ∈ db'.monitors, RunsActivePlan db' m) (hfollowed : FollowedIn now e db₁ db') :
    PlansActive db' := by
  have h₁ := h.retired hretired
  rcases hfollowed with hexecutions | ⟨n, hfollows, -, happended⟩
  · exact h₁.of_tables hpersists hmonitors hexecutions
  · obtain ⟨hplanned, hcompile⟩ := h.executions_followed hretired.mem hfollows
    refine h₁.appended hpersists hmonitors happended (fun hkind => ?_) hcompile
    exact (hplanned hkind).persists ((Persists.retired hretired).trans hpersists)

theorem planEffect {plan : Json} {autoPromote : Bool} (h : PlansActive db)
    (heffect : PlanEffect now e plan autoPromote db db') : PlansActive db' := by
  have hpersists := Persists.planEffect heffect
  cases heffect with
  | compiled id revisions' uuids' hkind hrevision =>
      refine h.of_tables hpersists (Table.forall_update ?_ fun m _ hm => hm) rfl
      exact fun m hm => (h.monitors m hm).persists hpersists
  | promoted id failedRevisionId m revisions' uuids' hkind hauto hfailed hmem hid hcurrent
      hrevision =>
      exact h.promote hpersists rfl rfl (fun _ => rfl) hrevision.mem rfl rfl rfl
  | held id revisions' uuids' hkind hheld hrevision =>
      refine h.of_tables hpersists (Table.forall_update ?_ fun m _ hm => hm) rfl
      exact fun m hm => (h.monitors m hm).persists hpersists

theorem recorded {observation : ResultObservation} {o : Observation} (h : PlansActive db)
    (hrecorded : Recorded now e observation db m o db') : PlansActive db' :=
  h.congr (.recorded hrecorded) hrecorded.unchanged.1 hrecorded.executions

theorem runsActivePlan_of_evolves {R : Monitor → Monitor → Prop}
    (hR : ∀ m m', R m m' → m'.currentRevisionId = m.currentRevisionId) (h : PlansActive db)
    (hpersists : Persists db db') (hevolves : db.monitors.Evolves R db'.monitors) :
    ∀ m ∈ db'.monitors, RunsActivePlan db' m := by
  intro m' hm'
  obtain ⟨m, hm, hid, hrelated⟩ := hevolves.backward m' hm'
  have hruns := (h.monitors m hm).persists hpersists
  unfold RunsActivePlan
  rw [hid, hR m m' hrelated]
  exact hruns

theorem settled {store : OpenStore} {executionId : UUID} {result : ExecutionResult}
    (h : PlansActive db) (hsettled : Settled store now executionId result db e e' db₁ db') :
    PlansActive db' := by
  have h₁ := h.retired hsettled.retired
  have hpersists := Persists.outcome hsettled.outcome
  have hfollowed := hsettled.outcome.followedIn
  cases hsettled.outcome with
  | planned plan db' hstatus hkind hplan heffect hobservation => exact h₁.planEffect heffect
  | plannedAndRecorded plan observation m o db₂ db' hstatus hkind hplan heffect hobservation
      hrecorded =>
      exact (h₁.planEffect heffect).recorded hrecorded
  | observed observation m o db₂ db' hstatus hkind hobservation hrecorded hreaction =>
      have h₂ := h₁.recorded hrecorded
      refine h.followed hsettled.retired hpersists ?_ hfollowed
      exact h₂.runsActivePlan_of_evolves (fun _ _ hsame => hsame) (.reaction hreaction)
        (plan_reaction hreaction)
  | failed db' hstatus heffect =>
      refine h.followed hsettled.retired hpersists ?_ hfollowed
      exact h₁.runsActivePlan_of_evolves (fun _ _ htouched => htouched.currentRevisionId) hpersists
        (touched_failureEffect heffect)

theorem effect {call : Call} (h : PlansActive db) (heffect : Effect call db db') :
    PlansActive db' := by
  have hpersists := Persists.effect heffect
  cases heffect with
  | created monitorId executionId params monitors' db' hcall hinterval hmonitor henqueued =>
      have hinserted : Persists db { db with monitors := monitors' } :=
        { Persists.refl db with monitors := .of_appended (fun _ => trivial) hmonitor }
      have hcreated : PlansActive { db with monitors := monitors' } := by
        refine h.of_tables hinserted (Table.forall_appended hmonitor ?_ ?_) rfl
        · exact fun m hm => (h.monitors m hm).persists hinserted
        · intro id hid
          cases hid
      exact hcreated.enqueued henqueued (fun hkind => absurd rfl hkind) fun _ => rfl
  | claimed e e' executions' repairAttempts' hqueued hcall he' hexecution hattempts =>
      refine h.substituted hpersists rfl hexecution ?_
      rw [he']
      exact ⟨rfl, rfl, rfl, rfl, rfl, rfl, rfl, rfl, rfl⟩
  | renewed e e' executions' hrunning hcall he' hexecution =>
      refine h.substituted hpersists rfl hexecution ?_
      rw [he']
      exact ⟨rfl, rfl, rfl, rfl, rfl, rfl, rfl, rfl, rfl⟩
  | checkQueued id m r idempotencyKey traceparent db' hcall hnew hadmitting henqueued =>
      exact h.enqueued henqueued (fun _ => h.executesActivePlan_of_admitting hadmitting id _)
        fun hkind => nomatch hkind
  | dueQueued id m r limit locked db' hcall hadmitting henqueued =>
      refine updateMonitor (h.enqueued henqueued ?_ fun hkind => nomatch hkind) fun _ => rfl
      exact fun _ => h.executesActivePlan_of_admitting hadmitting id _
  | confirmed m r condition hcall hmonitor hrevision hdecidable =>
      refine h.promote (r := { r with validationState := .active, activatedAt := some call.now })
        hpersists rfl rfl (fun _ => rfl) ?_ (decidable_iff.mp hdecidable).1 rfl rfl
      exact Table.mem_update_of_neg (Table.mem_update_of_pos hrevision hdecidable)
        (by simp [otherPending])
  | patched m params hcall hmonitor =>
      exact h.updateMonitor fun m => (touched_patchAssign params m).currentRevisionId
  | accepted m r hcall hmonitor hrevision hdecidable =>
      exact h.promote (r := { r with validationState := .active, activatedAt := some call.now })
        hpersists rfl rfl (fun _ => rfl) (Table.mem_update_of_pos hrevision hdecidable)
        (decidable_iff.mp hdecidable).1 rfl rfl
  | rejected m r hcall hmonitor hrevision hdecidable =>
      refine h.of_tables hpersists ?_ rfl
      exact h.runsActivePlan_of_evolves (fun _ _ hsame => hsame) hpersists
        (Table.evolves_update samePlan_refl fun _ _ _ => rfl)
  | terminalized e e' db₁ runningStaleAfter maxAttempts limit locked hcall hattempts hretired
      hrunning hfailed =>
      have hterminalized : Persists db₁ (terminalizeStaleExecution call.now e staleReason db₁) :=
        .terminalizeStaleExecution
      have h₁ := h.retired hretired
      refine h₁.of_tables hterminalized ?_ (terminalizeStaleExecution_executions _ _ _ _)
      exact h₁.runsActivePlan_of_evolves (fun _ _ htouched => htouched.currentRevisionId)
        hterminalized touched_terminalizeStaleExecution
  | replaced e e' db₁ db' runningStaleAfter maxAttempts limit locked hcall hattempts hretired
      hrunning hfailed hreplaced =>
      have h₁ := h.retired hretired
      refine h.followed hretired (.replaced hreplaced) ?_ hreplaced.followedIn
      exact h₁.runsActivePlan_of_evolves (fun _ _ htouched => htouched.currentRevisionId)
        (.replaced hreplaced) (touched_of_eq hreplaced.monitors)
  | published outbox' locked limit publish commits hcall hevolves => exact h.congr hpersists rfl rfl

end PlansActive

end Preservation

theorem plansActive_of_reachable {db : Database} (h : StoreReachable db) : PlansActive db :=
  StoreReachable.invariant PlansActive.empty (fun _ _ _ => PlansActive.effect)
    (fun _ _ _ _ _ _ _ _ _ => PlansActive.settled) h

theorem claimExecution_kept (now : Timestamp) (e : Execution) (db : Database) :
    SameJob e (claimExecution now e db).1 ∧
      (claimExecution now e db).2.revisions = db.revisions := by
  obtain ⟨id, monitorId, revisionId, kind, requestedGeneration, attempt, recoveryOf, state, _⟩ := e
  cases state <;> cases kind <;> exact ⟨⟨rfl, rfl, rfl, rfl, rfl, rfl, rfl, rfl, rfl⟩, rfl⟩

/-- A worker is given the plan of the revision that the execution refers to. -/
theorem plan_of_getExecutionInput {now : Timestamp} {id : UUID} {db db' : Database}
    {input : ExecutionInput} (h : getExecutionInput now id db = .ok (input, db')) :
    ∃ e ∈ db.executions, e.id = id ∧ SameJob e input.execution ∧
      ((e.revisionId = none ∧ input.revision = none ∧ input.plan = none) ∨
        ∃ r ∈ db.revisions, e.revisionId = some r.id ∧ input.revision = some r ∧
          input.plan = some r.plan) := by
  simp only [getExecutionInput, bind_eq_ok, orNotFound_eq_ok, orNoRows_eq_ok,
    Table.lookup_eq_some_iff] at h
  obtain ⟨e, ⟨he, hid⟩, m, -, h⟩ := h
  obtain ⟨hjob, hrevisions⟩ := claimExecution_kept now e db
  refine ⟨e, he, hid, ?_⟩
  split at h
  · rename_i hnone
    simp only [pure_eq_ok, Prod.mk.injEq] at h
    obtain ⟨rfl, -⟩ := h
    exact ⟨hjob, Or.inl ⟨hjob.revisionId.symm.trans hnone, rfl, rfl⟩⟩
  · rename_i revisionId hsome
    simp only [bind_eq_ok, orNoRows_eq_ok, Table.lookup_eq_some_iff, pure_eq_ok,
      Prod.mk.injEq] at h
    obtain ⟨r, ⟨hr, rfl⟩, rfl, -⟩ := h
    rw [hrevisions] at hr
    exact ⟨hjob, Or.inr ⟨r, hr, hjob.revisionId.symm.trans hsome, rfl, rfl⟩⟩

/-- No worker is given a plan that is not active. -/
theorem active_of_getExecutionInput {now : Timestamp} {id : UUID} {db db' : Database}
    {input : ExecutionInput} (hplans : PlansActive db)
    (h : getExecutionInput now id db = .ok (input, db')) :
    ∀ r ∈ input.revision, r ∈ db.revisions ∧ r.validationState = .active ∧
      r.monitorId = input.execution.monitorId ∧
      input.execution.requestedGeneration = some r.generation := by
  intro r hr
  obtain ⟨e, he, -, hjob, ⟨-, hnone, -⟩ | ⟨s, hs, hrevision, hsome, -⟩⟩ :=
    plan_of_getExecutionInput h
  · rw [hnone] at hr
    cases hr
  · rw [hsome, Option.mem_some_iff] at hr
    subst hr
    have hkind : e.kind ≠ .compile := fun hcompile => by
      simp [hplans.compiles e he hcompile] at hrevision
    obtain ⟨u, hu, hrevision', hmonitor, hactive, hgeneration⟩ := hplans.executions e he hkind
    obtain rfl := Table.eq_of_key_eq hu hs (by
      rw [hrevision, Option.some.injEq] at hrevision'
      exact hrevision'.symm)
    exact ⟨hs, hactive, hmonitor.trans hjob.monitorId.symm,
      hjob.requestedGeneration.trans hgeneration⟩

/-- Two deliveries of an execution give the same plan, whatever happened between. -/
theorem plan_stable {calls : List Call} {i j : Nat} (hij : i ≤ j) {now now' : Timestamp} {id : UUID}
    {input input' : ExecutionInput} {db db' : Database}
    (h : getExecutionInput now id (stateAt step Database.empty calls i) = .ok (input, db))
    (h' : getExecutionInput now' id (stateAt step Database.empty calls j) = .ok (input', db')) :
    input.plan = input'.plan := by
  have hpersists := Persists.stateAt Database.empty calls hij
  obtain ⟨e, he, hid, -, hplan⟩ := plan_of_getExecutionInput h
  obtain ⟨e', he', hid', -, hplan'⟩ := plan_of_getExecutionInput h'
  obtain ⟨s, hs, hsid, hjob⟩ := hpersists.executions e he
  obtain rfl := Table.eq_of_key_eq hs he' (hsid.trans (hid.trans hid'.symm))
  rcases hplan with ⟨hnone, -, hplan⟩ | ⟨r, hr, hsome, -, hplan⟩ <;>
    rcases hplan' with ⟨hnone', -, hplan'⟩ | ⟨r', hr', hsome', -, hplan'⟩
  · rw [hplan, hplan']
  · simp [hjob.revisionId, hnone] at hsome'
  · simp [hjob.revisionId, hsome] at hnone'
  · obtain ⟨u, hu, huid, hsame⟩ := hpersists.revisions r hr
    rw [hjob.revisionId, hsome, Option.some.injEq] at hsome'
    obtain rfl := Table.eq_of_key_eq hu hr' (huid.trans hsome')
    rw [hplan, hplan', hsame.plan]

/-- In every state of every run the plans in use are active ones; no delivery
hands out another, and all deliveries of an execution hand out the same. -/
theorem active_plans_only (calls : List Call) :
    (∀ n, PlansActive (stateAt step Database.empty calls n)) ∧
      (∀ n now id input db,
        getExecutionInput now id (stateAt step Database.empty calls n) = .ok (input, db) →
        ∀ r ∈ input.revision, r ∈ (stateAt step Database.empty calls n).revisions ∧
          r.validationState = .active ∧ r.monitorId = input.execution.monitorId ∧
          input.execution.requestedGeneration = some r.generation) ∧
      ∀ i j now now' id input input' db db',
        getExecutionInput now id (stateAt step Database.empty calls i) = .ok (input, db) →
        getExecutionInput now' id (stateAt step Database.empty calls j) = .ok (input', db') →
        input.plan = input'.plan := by
  have hplans : ∀ n, PlansActive (stateAt step Database.empty calls n) := fun n =>
    plansActive_of_reachable (reachable_stateAt calls n)
  refine ⟨hplans, fun n now id input db h => active_of_getExecutionInput (hplans n) h, ?_⟩
  intro i j now now' id input input' db db' h h'
  rcases le_total i j with hij | hji
  · exact plan_stable hij h h'
  · exact (plan_stable hji h' h).symm

end PriceScout.Store.Provenance
