import PriceScout.Store.Persistence

/-!
What one step makes of each monitor. Invariants of single monitors are proved
from this relation alone.
-/

namespace PriceScout.Store.Transitions

open PriceScout.Domain
open PriceScout.Library.JsonDocuments
open PriceScout.Library.Runs
open PriceScout.Library.Tables
open PriceScout.Store.Alerts
open PriceScout.Store.Effects
open PriceScout.Store.Executions
open PriceScout.Store.Inversions
open PriceScout.Store.Monitors
open PriceScout.Store.Operations
open PriceScout.Store.Outbox
open PriceScout.Store.Persistence
open PriceScout.Store.Recovery
open PriceScout.Store.Schema

/-- The repair of a generation of a monitor has been asked for. -/
def RepairAsked (db : Database) (monitorId : UUID) (generation : Option Nat) : Prop :=
  ∃ a ∈ db.repairAttempts, a.monitorId = monitorId ∧ generation = some a.failedGeneration

instance (db : Database) (monitorId : UUID) (generation : Option Nat) :
    Decidable (RepairAsked db monitorId generation) :=
  inferInstanceAs (Decidable (∃ a ∈ db.repairAttempts, _))

/-- The failures of a check that send its monitor to review or block it. -/
def refusesCheck (result : ExecutionResult) : Bool :=
  result.status = "blocked" || result.failureClassification = "blocked" ||
    result.status = "needs_review" || result.failureClassification = "ambiguous_value" ||
    result.failureClassification = "identity_drift"

/-- The results that set the status of their monitor when they are accepted. -/
def SetsStatus (store : OpenStore) (db : Database) (e : Execution) (result : ExecutionResult) :
    Prop :=
  if result.status = "succeeded" then e.kind ≠ .check
  else if e.kind ≠ .check then
    shouldRetryExecutionResult e result store.maxExecutionAttempts = false
  else if e.requestedGeneration.isSome ∧ staleClassification result = true then
    ¬ RepairAsked db e.monitorId e.requestedGeneration
  else refusesCheck result = true

instance (store : OpenStore) (db : Database) (e : Execution) (result : ExecutionResult) :
    Decidable (SetsStatus store db e result) := by
  unfold SetsStatus
  infer_instance

/-- The results that set the latch of their monitor when they are accepted, and
what they set it to: verified observations of confirmations, and non-matches. -/
structure SetsLatch (e : Execution) (result : ExecutionResult) (m : Monitor)
    (observation : ResultObservation) : Prop where
  succeeded : result.status = "succeeded"
  check : e.kind = .check
  present : result.observation = some observation
  verified : observationVerification observation = .ok .verified
  writes : executionIsAlertConfirmation e = true ∨
    observationMatched m.condition observation = false

/-- What an accepted result makes of the monitor of its execution. -/
inductive Turned (store : OpenStore) (now : Timestamp) (db : Database) (e : Execution)
    (result : ExecutionResult) (m : Monitor) : Monitor → Prop
  | kept (hsets : ¬ SetsStatus store db e result)
      (hlatch : ∀ observation, ¬ SetsLatch e result m observation) :
      Turned store now db e result m m
  | latched (observation : ResultObservation) (h : SetsLatch e result m observation) :
      Turned store now db e result m
        { m with conditionMatched := observationMatched m.condition observation, updatedAt := now }
  | compiled (hstatus : result.status = "succeeded") (hkind : e.kind = .compile) :
      Turned store now db e result m { m with status := .awaitingConfirmation, updatedAt := now }
  | promoted (id failedRevisionId : UUID) (hstatus : result.status = "succeeded")
      (hkind : e.kind = .repair) (hauto : result.autoPromote = true)
      (hfailed : e.revisionId = some failedRevisionId)
      (hcurrent : m.currentRevisionId = some failedRevisionId) :
      Turned store now db e result m
        { m with currentRevisionId := some id, status := .active,
                 nextRunAt := some (now + 60 * m.intervalMinutes), updatedAt := now }
  | held (hstatus : result.status = "succeeded") (hkind : e.kind = .repair) :
      Turned store now db e result m { m with status := .needsReview, updatedAt := now }
  | refused (status : MonitorStatus) (nextRunAt : Option Timestamp)
      (hstatus : status = .blocked ∨ status = .needsReview)
      (hsets : SetsStatus store db e result) :
      Turned store now db e result m
        { m with status := status, nextRunAt := nextRunAt, updatedAt := now }

/-- What a step makes of a monitor. -/
inductive Rewritten (db : Database) (call : Call) (m : Monitor) : Monitor → Prop
  | kept : Rewritten db call m m
  | rescheduled (limit : Nat) (locked : UUID → Bool) (nextRunAt updatedAt : Timestamp)
      (hcall : call.operation = .claimDueMonitors limit locked) :
      Rewritten db call m { m with nextRunAt := some nextRunAt, updatedAt := updatedAt }
  | confirmed (r : Revision) (condition : Option Json)
      (hcall : call.operation = .confirmMonitor m.id ⟨r.id, condition⟩)
      (hrevision : r ∈ db.revisions) (hdecidable : decidable m.id r.id r = true) :
      Rewritten db call m
        { m with currentRevisionId := some r.id, condition := condition.getD (.obj []),
                 status := .active, nextRunAt := some (call.now + 60 * m.intervalMinutes),
                 updatedAt := call.now }
  | patched (params : PatchMonitorParams) (hcall : call.operation = .patchMonitor m.id params)
      (haction : ∀ name, params.action ≠ .unsupported name)
      (hinterval : ∀ minutes ∈ params.intervalMinutes, 1 ≤ minutes) :
      Rewritten db call m (patchAssign call.now params m)
  | accepted (r : Revision) (hcall : call.operation = .reviewRevision m.id r.id true)
      (hrevision : r ∈ db.revisions) (hdecidable : decidable m.id r.id r = true) :
      Rewritten db call m
        { m with currentRevisionId := some r.id, status := .active,
                 nextRunAt := some (call.now + 60 * m.intervalMinutes), updatedAt := call.now }
  | rejected (r : Revision) (hcall : call.operation = .reviewRevision m.id r.id false)
      (hrevision : r ∈ db.revisions) (hdecidable : decidable m.id r.id r = true) :
      Rewritten db call m
        { m with status := if m.currentRevisionId.isNone then .blocked else .active,
                 updatedAt := call.now }
  | abandoned (e : Execution) (status : MonitorStatus) (nextRunAt : Option Timestamp)
      (runningStaleAfter : Timestamp) (maxAttempts limit : Nat) (locked : UUID → Bool)
      (hcall : call.operation = .sweepStaleExecutions runningStaleAfter maxAttempts limit locked)
      (hstale : e ∈ staleExecutions db call.now runningStaleAfter locked limit)
      (hmonitor : e.monitorId = m.id) (hkind : e.kind ≠ .check)
      (hattempts : maxAttempts ≤ e.attempt) (hstatus : status = .blocked ∨ status = .needsReview) :
      Rewritten db call m { m with status := status, nextRunAt := nextRunAt, updatedAt := call.now }
  | settled (store : OpenStore) (executionId : UUID) (result : ExecutionResult) (e e' : Execution)
      (db₁ : Database) (m' : Monitor)
      (hcall : call.operation = .applyResult store executionId result)
      (haccepted : saysAccepted (applyResult store call.now executionId result db) = true)
      (hsettled : Settled store call.now executionId result db e e' db₁ (step db call))
      (hmonitor : e.monitorId = m.id) (h : Turned store call.now db e result m m') :
      Rewritten db call m m'

theorem Turned.id {store : OpenStore} {now : Timestamp} {db : Database} {e : Execution}
    {result : ExecutionResult} {m m' : Monitor} (h : Turned store now db e result m m') :
    m'.id = m.id := by
  cases h <;> rfl

theorem Rewritten.id {db : Database} {call : Call} {m m' : Monitor} (h : Rewritten db call m m') :
    m'.id = m.id := by
  cases h with
  | patched params hcall haction hinterval => exact patchAssign_id _ _ _
  | settled store executionId result e e' db₁ m' hcall haccepted hsettled hmonitor h => exact h.id
  | _ => rfl

theorem patchAssign_conditionMatched (now : Timestamp) (params : PatchMonitorParams) (m : Monitor) :
    (patchAssign now params m).conditionMatched = m.conditionMatched := by
  unfold patchAssign
  cases params.action <;> rfl

theorem patchAssign_condition (now : Timestamp) (params : PatchMonitorParams) (m : Monitor) :
    (patchAssign now params m).condition = params.condition.getD m.condition := by
  unfold patchAssign
  cases params.action <;> rfl

theorem patchAssign_currentRevisionId (now : Timestamp) (params : PatchMonitorParams)
    (m : Monitor) : (patchAssign now params m).currentRevisionId = m.currentRevisionId := by
  unfold patchAssign
  cases params.action <;> rfl

/-- A monitor looks at the same page for the same product. -/
structure SameMonitor (m m' : Monitor) : Prop where
  url : m'.url = m.url
  intent : m'.intent = m.intent

theorem SameMonitor.refl (m : Monitor) : SameMonitor m m :=
  ⟨rfl, rfl⟩

theorem SameMonitor.trans (a b c : Monitor) (h : SameMonitor a b) (h' : SameMonitor b c) :
    SameMonitor a c :=
  ⟨h'.url.trans h.url, h'.intent.trans h.intent⟩

/-- No operation changes where a monitor looks or what it is to look for. -/
theorem sameMonitor_of_rewritten {db : Database} {call : Call} {m m' : Monitor}
    (h : Rewritten db call m m') : SameMonitor m m' := by
  cases h with
  | kept | rescheduled | confirmed | accepted | rejected | abandoned => exact ⟨rfl, rfl⟩
  | patched params hcall haction hinterval =>
      unfold patchAssign
      cases params.action <;> exact ⟨rfl, rfl⟩
  | settled store executionId result e e' db₁ m' hcall haccepted hsettled hmonitor hturned =>
      cases hturned <;> exact ⟨rfl, rfl⟩

section Settling

variable {store : OpenStore} {now : Timestamp} {db db' db₁ : Database} {e e' : Execution}
  {result : ExecutionResult} {m m' : Monitor}

/-- Only the monitor of an execution is turned when its result is accepted. -/
def TurnedIn (store : OpenStore) (now : Timestamp) (db : Database) (e : Execution)
    (result : ExecutionResult) (monitors monitors' : Table Monitor.id) : Prop :=
  ∀ m' ∈ monitors', ∃ m ∈ monitors,
    m.id = e.monitorId ∧ Turned store now db e result m m' ∨ m.id ≠ e.monitorId ∧ m' = m

theorem turnedIn_of_eq {monitors monitors' : Table Monitor.id}
    (hsets : ¬ SetsStatus store db e result)
    (hlatch : ∀ m ∈ monitors, m.id = e.monitorId → ∀ observation,
      ¬ SetsLatch e result m observation) (h : monitors' = monitors) :
    TurnedIn store now db e result monitors monitors' := by
  subst h
  intro m hm
  refine ⟨m, hm, ?_⟩
  by_cases hid : m.id = e.monitorId
  · exact Or.inl ⟨hid, .kept hsets (hlatch m hm hid)⟩
  · exact Or.inr ⟨hid, rfl⟩

theorem turnedIn_of_failed {monitors monitors' : Table Monitor.id}
    (hstatus : result.status ≠ "succeeded") (hsets : ¬ SetsStatus store db e result)
    (h : monitors' = monitors) : TurnedIn store now db e result monitors monitors' :=
  turnedIn_of_eq hsets (fun _ _ _ _ hlatch => hstatus hlatch.succeeded) h

theorem turnedIn_update {monitors : Table Monitor.id} {f : Monitor → Monitor}
    {hf : ∀ m, (f m).id = m.id}
    (hassign : ∀ m ∈ monitors, m.id = e.monitorId → Turned store now db e result m (f m)) :
    TurnedIn store now db e result monitors
      (monitors.update (fun m => decide (m.id = e.monitorId)) f hf) := by
  intro m' hm'
  rcases Table.mem_update_cases hm' with ⟨m, hm, hid, rfl⟩ | ⟨hm, hid⟩
  · exact ⟨m, hm, Or.inl ⟨by simpa using hid, hassign m hm (by simpa using hid)⟩⟩
  · exact ⟨m', hm, Or.inr ⟨by simpa using hid, rfl⟩⟩

theorem setsStatus_of_planned (hstatus : result.status = "succeeded") (hkind : e.kind ≠ .check) :
    SetsStatus store db e result := by
  simp [SetsStatus, hstatus, hkind]

theorem not_setsStatus_of_observed (hstatus : result.status = "succeeded")
    (hkind : e.kind = .check) :
    ¬ SetsStatus store db e result := by
  simp [SetsStatus, hstatus, hkind]

theorem setsStatus_of_failed (hstatus : result.status ≠ "succeeded") (hkind : e.kind ≠ .check) :
    SetsStatus store db e result ↔
      shouldRetryExecutionResult e result store.maxExecutionAttempts = false := by
  simp [SetsStatus, hstatus, hkind]

theorem not_retried_of_check (hkind : e.kind = .check) :
    shouldRetryExecutionResult e result store.maxExecutionAttempts = false := by
  simp [shouldRetryExecutionResult, hkind]

theorem setsStatus_of_stale (hstatus : result.status ≠ "succeeded") (hkind : e.kind = .check)
    (hgeneration : e.requestedGeneration.isSome = true)
    (hstale : staleClassification result = true) :
    SetsStatus store db e result ↔ ¬ RepairAsked db e.monitorId e.requestedGeneration := by
  simp [SetsStatus, hstatus, hkind, hgeneration, hstale]

theorem setsStatus_of_fresh (hstatus : result.status ≠ "succeeded") (hkind : e.kind = .check)
    (hfresh : e.requestedGeneration = none ∨ staleClassification result = false) :
    SetsStatus store db e result ↔ refusesCheck result = true := by
  have hnot : ¬ (e.requestedGeneration.isSome = true ∧ staleClassification result = true) := by
    rintro ⟨hsome, hstale⟩
    rcases hfresh with hnone | hother
    · simp [hnone] at hsome
    · simp [hother] at hstale
  simp [SetsStatus, hstatus, hkind, hnot]

theorem turnedIn_planEffect {plan : Json} (hstatus : result.status = "succeeded")
    (h : PlanEffect now e plan result.autoPromote db₁ db') :
    TurnedIn store now db e result db₁.monitors db'.monitors := by
  cases h with
  | compiled id revisions' uuids' hkind hrevision =>
      exact turnedIn_update fun _ _ _ => .compiled hstatus hkind
  | promoted id failedRevisionId m revisions' uuids' hkind hauto hfailed hmem hid hcurrent
      hrevision =>
      refine turnedIn_update fun s hs hsid => ?_
      obtain rfl := Table.eq_of_key_eq hs hmem (hsid.trans hid.symm)
      exact .promoted id failedRevisionId hstatus hkind hauto hfailed hcurrent
  | held id revisions' uuids' hkind hheld hrevision =>
      exact turnedIn_update fun _ _ _ => .held hstatus hkind

theorem turnedIn_reaction {observation : ResultObservation} {o : Observation}
    (hstatus : result.status = "succeeded") (hkind : e.kind = .check)
    (hobservation : result.observation = some observation)
    (hrecorded : Recorded now e observation db₁ m o db') (h : Reaction store now e m o db' db'') :
    TurnedIn store now db e result db₁.monitors db''.monitors := by
  have hsets : ¬ SetsStatus store db e result := not_setsStatus_of_observed hstatus hkind
  rw [← hrecorded.unchanged.1]
  obtain ⟨id, verification, hverification, rfl⟩ := hrecorded.row
  -- only the monitor whose condition the observation was compared with has its latch set
  have latch : ∀ matched, verification = .verified →
      matched = observationMatched m.condition observation →
      (executionIsAlertConfirmation e = true ∨ matched = false) →
      TurnedIn store now db e result db'.monitors
        (setConditionMatched now e.monitorId matched db').monitors := by
    rintro matched rfl rfl hwrites
    refine turnedIn_update fun s hs hsid => ?_
    have hmem : m ∈ db'.monitors := hrecorded.unchanged.1 ▸ hrecorded.mem
    obtain rfl := Table.eq_of_key_eq hs hmem (hsid.trans hrecorded.monitorId.symm)
    exact .latched observation ⟨hstatus, hkind, hobservation, hverification, hwrites⟩
  have unlatched : (∀ u, verification = .verified → ¬ SetsLatch e result m u) →
      ∀ s ∈ db'.monitors, s.id = e.monitorId → ∀ u, ¬ SetsLatch e result s u := by
    intro hnone s hs hsid u hlatch
    have hmem : m ∈ db'.monitors := hrecorded.unchanged.1 ▸ hrecorded.mem
    obtain rfl := Table.eq_of_key_eq hs hmem (hsid.trans hrecorded.monitorId.symm)
    obtain rfl := Option.some.inj (hobservation.symm.trans hlatch.present)
    exact hnone observation (Except.ok.inj (hverification.symm.trans hlatch.verified)) hlatch
  have ordinary : executionIsAlertConfirmation e = false →
      observationMatched m.condition observation = true → ∀ u, ¬ SetsLatch e result m u := by
    intro hordinary hmatched u hlatch
    obtain rfl := Option.some.inj (hobservation.symm.trans hlatch.present)
    rcases hlatch.writes with hconfirmation | hnone
    · simp [hordinary] at hconfirmation
    · simp [hmatched] at hnone
  cases h with
  | diagnostic h =>
      exact turnedIn_of_eq hsets (unlatched fun _ hverified _ => h ⟨hkind, hverified⟩) rfl
  | unchanged hkind hverified hordinary hmatched h =>
      exact turnedIn_of_eq hsets (unlatched fun u _ => ordinary hordinary hmatched u) rfl
  | latched hkind hverified h =>
      refine latch _ hverified rfl ?_
      rcases h with h | ⟨h, -⟩
      · exact Or.inr h
      · exact Or.inl h
  | alerted id alerts' alertDeliveries' uuids' hkind hverified hconfirmation hmatched hprevious
      halert =>
      exact latch true hverified hmatched.symm (Or.inl hconfirmation)
  | confirmationQueued id db' hkind hverified hordinary hmatched hprevious h =>
      exact turnedIn_of_eq hsets (unlatched fun u _ => ordinary hordinary hmatched u) h.monitors

theorem turnedIn_applyCheckFailure (hstatus : result.status ≠ "succeeded") (hkind : e.kind = .check)
    (hfresh : e.requestedGeneration = none ∨ staleClassification result = false) :
    TurnedIn store now db e result db₁.monitors (applyCheckFailure now e result db₁).monitors := by
  have hsets : SetsStatus store db e result ↔ refusesCheck result = true :=
    setsStatus_of_fresh hstatus hkind hfresh
  unfold applyCheckFailure
  split
  · rename_i hblocked
    refine turnedIn_update fun m _ _ => .refused .blocked m.nextRunAt (Or.inl rfl) (hsets.mpr ?_)
    rcases hblocked with h | h <;> simp [refusesCheck, h]
  · rename_i hblocked
    split
    · rename_i hreview
      refine turnedIn_update fun m _ _ => .refused .needsReview none (Or.inr rfl) (hsets.mpr ?_)
      rcases hreview with h | h | h <;> simp [refusesCheck, h]
    · rename_i hreview
      refine turnedIn_of_failed hstatus (fun h => ?_) rfl
      have := hsets.mp h
      simp [refusesCheck] at this
      tauto

theorem turnedIn_failureEffect (hstatus : result.status ≠ "succeeded")
    (hattempts : db₁.repairAttempts = db.repairAttempts)
    (h : FailureEffect store now e result db₁ db') :
    TurnedIn store now db e result db₁.monitors db'.monitors := by
  cases h with
  | retried db' hretry h =>
      refine turnedIn_of_failed hstatus (fun hsets => ?_) h.monitors
      have hkind : e.kind ≠ .check := fun hkind => by
        simp [not_retried_of_check hkind] at hretry
      simp [(setsStatus_of_failed hstatus hkind).mp hsets] at hretry
  | compileFailed hkind hfinal =>
      refine turnedIn_update fun m _ _ => .refused _ m.nextRunAt ?_
        ((setsStatus_of_failed hstatus (by simp [hkind])).mpr hfinal)
      split <;> simp
  | repairFailed hkind hfinal =>
      exact turnedIn_update fun m _ _ => .refused .needsReview none (Or.inr rfl)
        ((setsStatus_of_failed hstatus (by simp [hkind])).mpr hfinal)
  | checkFailed hkind hfresh => exact turnedIn_applyCheckFailure hstatus hkind hfresh
  | repairExists a hkind hstale hmem hmonitor hgeneration =>
      refine turnedIn_of_failed hstatus (fun hsets => ?_) rfl
      refine (setsStatus_of_stale hstatus hkind (by simp [hgeneration]) hstale).mp hsets ?_
      exact ⟨a, hattempts ▸ hmem, hmonitor, hgeneration⟩
  | repairQueued id attemptId generation repairAttempts' uuids' db' hkind hstale hgeneration hnone
      hattempt h =>
      have hasked : ¬ RepairAsked db e.monitorId e.requestedGeneration := by
        rintro ⟨a, ha, hmonitor, hsome⟩
        refine hnone a (hattempts ▸ ha) hmonitor ?_
        simpa [hgeneration] using hsome.symm
      have hsets : SetsStatus store db e result :=
        (setsStatus_of_stale hstatus hkind (by simp [hgeneration]) hstale).mpr hasked
      rw [← h.monitors]
      exact turnedIn_update fun m _ _ => .refused .needsReview none (Or.inr rfl) hsets

theorem turnedIn_settled {executionId : UUID}
    (h : Settled store now executionId result db e e' db₁ db') :
    TurnedIn store now db e result db.monitors db'.monitors := by
  rw [← h.retired.monitors]
  cases h.outcome with
  | planned plan db' hstatus hkind hplan heffect hobservation =>
      exact turnedIn_planEffect hstatus heffect
  | plannedAndRecorded plan observation m o db₁ db' hstatus hkind hplan heffect hobservation
      hrecorded =>
      rw [hrecorded.unchanged.1]
      exact turnedIn_planEffect hstatus heffect
  | observed observation m o db₁ db' hstatus hkind hobservation hrecorded hreaction =>
      exact turnedIn_reaction hstatus hkind hobservation hrecorded hreaction
  | failed db' hstatus heffect =>
      exact turnedIn_failureEffect hstatus h.retired.repairAttempts heffect

end Settling

section Steps

variable {now : Timestamp} {db db' : Database} {call : Call} {m m' : Monitor}

theorem settled_of_saysAccepted {store : OpenStore} {executionId : UUID} {result : ExecutionResult}
    (hcall : call.operation = .applyResult store executionId result)
    (h : saysAccepted (applyResult store call.now executionId result db) = true) :
    ∃ e e' db₁, Settled store call.now executionId result db e e' db₁ (step db call) := by
  have hstep : step db call = commit (applyResult store call.now executionId result) db := by
    simp only [step, hcall]
  cases hok : applyResult store call.now executionId result db with
  | error error =>
      rw [hok] at h
      cases h
  | ok answer =>
      rw [hstep, commit_of_ok (a := answer.1) hok]
      rcases applyResult_ok hok with ⟨hfalse, -⟩ | ⟨-, hsettled⟩
      · rw [hok] at h
        exact absurd (h.symm.trans hfalse) (by simp)
      · exact hsettled

/-- Every monitor of `monitors'` is one of `monitors` as the step rewrites it. -/
def RewrittenIn (db : Database) (call : Call) (monitors monitors' : Table Monitor.id) : Prop :=
  ∀ m' ∈ monitors', ∃ m ∈ monitors, Rewritten db call m m'

theorem rewrittenIn_of_eq {monitors monitors' : Table Monitor.id} (h : monitors' = monitors) :
    RewrittenIn db call monitors monitors' := by
  subst h
  exact fun m hm => ⟨m, hm, .kept⟩

theorem rewrittenIn_update {monitors : Table Monitor.id} {id : UUID} {f : Monitor → Monitor}
    {hf : ∀ m, (f m).id = m.id} (hassign : ∀ m, m.id = id → Rewritten db call m (f m)) :
    RewrittenIn db call monitors (monitors.update (fun m => decide (m.id = id)) f hf) := by
  intro m' hm'
  rcases Table.mem_update_cases hm' with ⟨m, hm, hid, rfl⟩ | ⟨hm, -⟩
  · exact ⟨m, hm, hassign m (by simpa using hid)⟩
  · exact ⟨m', hm, .kept⟩

theorem rewrittenIn_settled {store : OpenStore} {executionId : UUID} {result : ExecutionResult}
    {e e' : Execution} {db₁ : Database}
    (hcall : call.operation = .applyResult store executionId result)
    (haccepted : saysAccepted (applyResult store call.now executionId result db) = true)
    (h : Settled store call.now executionId result db e e' db₁ (step db call)) :
    RewrittenIn db call db.monitors (step db call).monitors := by
  intro m' hm'
  obtain ⟨m, hm, ⟨hid, hturned⟩ | ⟨-, rfl⟩⟩ := turnedIn_settled h m' hm'
  · exact ⟨m, hm, .settled store executionId result e e' db₁ m' hcall haccepted h hid.symm hturned⟩
  · exact ⟨m', hm, .kept⟩

/-- One pass of the scheduler's loop moves the next run of the monitor it claims. -/
theorem rewrittenIn_claimDueMonitor {limit : Nat} {locked : UUID → Bool} {item : UUID × UUID}
    {s s' : Database} (hcall : call.operation = .claimDueMonitors limit locked)
    (hrewritten : RewrittenIn db call db.monitors s.monitors)
    (h : claimDueMonitor call.now s item = .ok s') :
    RewrittenIn db call db.monitors s'.monitors := by
  simp only [claimDueMonitor, Database.newUUID, bind_eq_ok, pure_eq_ok] at h
  obtain ⟨r, -, s₁, hinsert, s₂, hmessage, rfl⟩ := h
  have hmonitors : s₂.monitors = s.monitors := (enqueued_of_insert rfl hinsert hmessage).monitors
  intro m' hm'
  simp only [Database.updateMonitor, hmonitors] at hm'
  rcases Table.mem_update_cases hm' with ⟨u, hu, -, rfl⟩ | ⟨hu, -⟩
  · obtain ⟨m, hm, hold⟩ := hrewritten u hu
    refine ⟨m, hm, ?_⟩
    cases hold with
    | kept => exact .rescheduled limit locked _ _ hcall
    | rescheduled limit' locked' nextRunAt updatedAt hcall' =>
        exact .rescheduled limit locked (call.now + 60 * m.intervalMinutes) call.now hcall
    | confirmed _ _ hother | patched _ hother | accepted _ hother | rejected _ hother
    | abandoned _ _ _ _ _ _ _ hother | settled _ _ _ _ _ _ _ hother =>
        simp [hcall] at hother
  · exact hrewritten m' hu

theorem rewrittenIn_claimDueMonitors {limit claimed : Nat} {locked : UUID → Bool}
    (hcall : call.operation = .claimDueMonitors limit locked)
    (h : claimDueMonitors call.now limit locked db = .ok (claimed, db')) :
    RewrittenIn db call db.monitors db'.monitors := by
  simp only [claimDueMonitors, bind_eq_ok, pure_eq_ok, Prod.mk.injEq] at h
  obtain ⟨_, hfold, -, rfl⟩ := h
  refine foldlM_induction (fun _ s => RewrittenIn db call db.monitors s.monitors) ?_ _ db _
    (rewrittenIn_of_eq rfl) hfold
  exact fun item rest s s' hrewritten hstep => rewrittenIn_claimDueMonitor hcall hrewritten hstep

/-- A scheduler pass keeps the status of every monitor. -/
theorem status_of_claimDueMonitors {limit : Nat} {locked : UUID → Bool}
    (hcall : call.operation = .claimDueMonitors limit locked) (h : Rewritten db call m m') :
    m'.status = m.status := by
  cases h with
  | kept => rfl
  | rescheduled limit' locked' nextRunAt updatedAt hcall' => rfl
  | confirmed _ _ hother | patched _ hother | accepted _ hother | rejected _ hother
  | abandoned _ _ _ _ _ _ _ hother | settled _ _ _ _ _ _ _ hother =>
      simp [hcall] at hother

/-- Giving up a stale compile or repair sets the status of its monitor. -/
theorem rewrittenIn_terminalize {e : Execution} {runningStaleAfter : Timestamp}
    {maxAttempts limit : Nat} {locked : UUID → Bool} {reason : String} {s s' : Database}
    (hcall : call.operation = .sweepStaleExecutions runningStaleAfter maxAttempts limit locked)
    (hstale : e ∈ staleExecutions db call.now runningStaleAfter locked limit)
    (hattempts : maxAttempts ≤ e.attempt) (hmonitors : s'.monitors = s.monitors)
    (h : RewrittenIn db call db.monitors s.monitors) :
    RewrittenIn db call db.monitors
      (terminalizeStaleExecution call.now e reason s').monitors := by
  have given : ∀ (u : Monitor) (status : MonitorStatus) (nextRunAt : Monitor → Option Timestamp),
      u ∈ s.monitors → e.monitorId = u.id → e.kind ≠ .check →
      status = .blocked ∨ status = .needsReview → ∃ m ∈ db.monitors, Rewritten db call m
        { u with status := status, nextRunAt := nextRunAt u, updatedAt := call.now } := by
    intro u status nextRunAt hu hmonitor hkind hstatus
    obtain ⟨m, hm, hold⟩ := h u hu
    refine ⟨m, hm, ?_⟩
    rw [hold.id] at hmonitor
    cases hold with
    | kept =>
        exact .abandoned e status _ runningStaleAfter maxAttempts limit locked hcall hstale hmonitor
          hkind hattempts hstatus
    | abandoned e' status' nextRunAt' runningStaleAfter' maxAttempts' limit' locked' hcall' hstale'
        hmonitor' hkind' hattempts' hstatus' =>
        exact .abandoned e status _ runningStaleAfter maxAttempts limit locked hcall hstale hmonitor
          hkind hattempts hstatus
    | rescheduled _ _ _ _ hother | confirmed _ _ hother | patched _ hother | accepted _ hother
    | rejected _ hother | settled _ _ _ _ _ _ _ hother =>
        simp [hcall] at hother
  unfold terminalizeStaleExecution
  cases hkind : e.kind with
  | compile =>
      simp only [Database.updateMonitor, hmonitors]
      intro m' hm'
      rcases Table.mem_update_cases hm' with ⟨u, hu, hid, rfl⟩ | ⟨hu, -⟩
      · exact given u .blocked (·.nextRunAt) hu (by simpa using Eq.symm (of_decide_eq_true hid))
          (by simp [hkind]) (Or.inl rfl)
      · exact h m' hu
  | repair =>
      simp only [Database.updateMonitor, Database.updateRepairAttempts, hmonitors]
      intro m' hm'
      rcases Table.mem_update_cases hm' with ⟨u, hu, hid, rfl⟩ | ⟨hu, -⟩
      · exact given u .needsReview (fun _ => none) hu
          (by simpa using Eq.symm (of_decide_eq_true hid))
          (by simp [hkind]) (Or.inr rfl)
      · exact h m' hu
  | check =>
      rw [hmonitors]
      exact h

theorem rewrittenIn_sweepStaleExecutions {runningStaleAfter : Timestamp} {maxAttempts limit : Nat}
    {locked : UUID → Bool} {recoveries : List ExecutionRecovery}
    (hcall : call.operation = .sweepStaleExecutions runningStaleAfter maxAttempts limit locked)
    (h : sweepStaleExecutions call.now runningStaleAfter maxAttempts limit locked db =
      .ok (recoveries, db')) : RewrittenIn db call db.monitors db'.monitors := by
  let stale := staleExecutions db call.now runningStaleAfter locked limit
  refine (foldlM_induction
    (fun items s => StaleItems items s.2 ∧ (∀ e ∈ items, e ∈ stale) ∧
      RewrittenIn db call db.monitors s.2.monitors) ?_ _ ([], db) (recoveries, db')
    ⟨staleItems_staleExecutions db call.now runningStaleAfter locked limit, fun _ he => he,
      rewrittenIn_of_eq rfl⟩ h).2.2
  rintro e rest ⟨_, s⟩ ⟨_, s'⟩ ⟨hitems, hstale, hrewritten⟩ hstep
  have hrest := (sweepExecution_ok runningStaleAfter limit locked hitems hstep).2
  refine ⟨hrest, fun x hx => hstale x (List.mem_cons_of_mem _ hx), ?_⟩
  obtain ⟨he, hrunning⟩ := hitems.running e (List.mem_cons_self ..)
  obtain rfl | ⟨e', s₁, -, hretired, ⟨hattempts, rfl⟩ | ⟨-, hreplaced⟩⟩ :=
    sweepExecution_cases he hrunning hstep
  · exact hrewritten
  · exact rewrittenIn_terminalize hcall (hstale e (List.mem_cons_self ..)) hattempts
      hretired.monitors hrewritten
  · rw [hreplaced.monitors, hretired.monitors]
    exact hrewritten

theorem rewrittenIn_of_sweep {runningStaleAfter : Timestamp} {maxAttempts limit : Nat}
    {locked : UUID → Bool}
    (hcall : call.operation = .sweepStaleExecutions runningStaleAfter maxAttempts limit locked) :
    RewrittenIn db call db.monitors (step db call).monitors := by
  have hstep : step db call = commit
      (sweepStaleExecutions call.now runningStaleAfter maxAttempts limit locked) db := by
    simp only [step, hcall]
  rw [hstep]
  rcases commit_cases
    (sweepStaleExecutions call.now runningStaleAfter maxAttempts limit locked) db with h | ⟨a, h⟩
  · exact rewrittenIn_of_eq (congrArg Database.monitors h)
  · exact rewrittenIn_sweepStaleExecutions hcall h

/-- The monitor that a call creates. -/
def CreatedBy (db : Database) (call : Call) (m : Monitor) : Prop :=
  ∃ id params, call.operation = .createMonitor params ∧ m = newMonitor call.now id params ∧
    ¬ db.hasMonitor id

theorem rewritten_of_effect (h : Effect call db db') (hm' : m' ∈ db'.monitors) :
    (∃ runningStaleAfter maxAttempts limit locked,
        call.operation = .sweepStaleExecutions runningStaleAfter maxAttempts limit locked) ∨
      CreatedBy db call m' ∨ ∃ m ∈ db.monitors, Rewritten db call m m' := by
  have kept : db'.monitors = db.monitors → ∃ m ∈ db.monitors, Rewritten db call m m' :=
    fun heq => rewrittenIn_of_eq heq m' hm'
  cases h with
  | created monitorId executionId params monitors' db' hcall hinterval hmonitor henqueued =>
      rw [henqueued.monitors] at hm'
      rcases hmonitor.mem_iff.mp hm' with hold | rfl
      · exact Or.inr (Or.inr ⟨m', hold, .kept⟩)
      · refine Or.inr (Or.inl ⟨monitorId, params, hcall, rfl, fun hhas => ?_⟩)
        obtain ⟨m, hm, hid⟩ := Database.hasMonitor_iff.mp hhas
        exact hmonitor.key_ne hm hid
  | claimed e e' executions' repairAttempts' hqueued hcall he' hexecution hattempts =>
      exact Or.inr (Or.inr (kept rfl))
  | renewed e e' executions' hrunning hcall he' hexecution => exact Or.inr (Or.inr (kept rfl))
  | checkQueued id m r idempotencyKey traceparent db' hcall hnew hadmitting henqueued =>
      exact Or.inr (Or.inr (kept henqueued.monitors))
  | dueQueued id m r limit locked db₁ hcall hadmitting henqueued =>
      simp only [Database.updateMonitor, henqueued.monitors] at hm'
      exact Or.inr (Or.inr (rewrittenIn_update
        (fun u _ => .rescheduled limit locked _ _ hcall) m' hm'))
  | confirmed m r condition hcall hmonitor hrevision hdecidable =>
      refine Or.inr (Or.inr (rewrittenIn_update (fun u hu => ?_) m' hm'))
      exact .confirmed r condition (hu ▸ hcall) hrevision (hu ▸ hdecidable)
  | patched m params hcall hmonitor haction hinterval =>
      refine Or.inr (Or.inr (rewrittenIn_update (fun u hu => ?_) m' hm'))
      exact .patched params (hu ▸ hcall) haction hinterval
  | accepted m r hcall hmonitor hrevision hdecidable =>
      refine Or.inr (Or.inr (rewrittenIn_update (fun u hu => ?_) m' hm'))
      exact .accepted r (hu ▸ hcall) hrevision (hu ▸ hdecidable)
  | rejected m r hcall hmonitor hrevision hdecidable =>
      refine Or.inr (Or.inr (rewrittenIn_update (fun u hu => ?_) m' hm'))
      exact .rejected r (hu ▸ hcall) hrevision (hu ▸ hdecidable)
  | terminalized e e' db₁ runningStaleAfter maxAttempts limit locked hcall =>
      exact Or.inl ⟨_, _, _, _, hcall⟩
  | replaced e e' db₁ db' runningStaleAfter maxAttempts limit locked hcall =>
      exact Or.inl ⟨_, _, _, _, hcall⟩
  | published outbox' locked limit publish commits hcall hevolves =>
      exact Or.inr (Or.inr (kept rfl))

/-- A monitor after a step is new, or one of before as the step rewrites it. -/
theorem rewritten_of_step (hm' : m' ∈ (step db call).monitors) :
    CreatedBy db call m' ∨ ∃ m ∈ db.monitors, Rewritten db call m m' := by
  rcases step_cases db call with h | h | ⟨limit, locked, claimed, hcall, h⟩ |
      ⟨runningStaleAfter, maxAttempts, limit, locked, recoveries, hcall, -⟩ |
      ⟨store, id, result, e, e', db₁, hcall, haccepted, h⟩
  · exact Or.inr (rewrittenIn_of_eq (congrArg Database.monitors h) m' hm')
  · rcases rewritten_of_effect h hm' with ⟨_, _, _, _, hcall⟩ | hwritten
    · exact Or.inr (rewrittenIn_of_sweep hcall m' hm')
    · exact hwritten
  · exact Or.inr (rewrittenIn_claimDueMonitors hcall h m' hm')
  · exact Or.inr (rewrittenIn_of_sweep hcall m' hm')
  · exact Or.inr (rewrittenIn_settled hcall haccepted h m' hm')

/-- The row of a monitor after a step is its row before as the step rewrites it. -/
theorem rewritten_of_mem (hm : m ∈ db.monitors) (hm' : m' ∈ (step db call).monitors)
    (hid : m'.id = m.id) : Rewritten db call m m' := by
  rcases rewritten_of_step hm' with ⟨id, params, -, rfl, hnone⟩ | ⟨s, hs, hwritten⟩
  · exact absurd (Database.hasMonitor_iff.mpr ⟨m, hm, hid.symm⟩) hnone
  · obtain rfl := Table.eq_of_key_eq hm hs (hid.symm.trans hwritten.id)
    exact hwritten

/-- A property of single monitors that every rewriting keeps is kept by the step. -/
theorem forall_step {P : Monitor → Prop} (h : ∀ m ∈ db.monitors, P m)
    (hnew : ∀ m, CreatedBy db call m → P m)
    (hwritten : ∀ m ∈ db.monitors, ∀ m', P m → Rewritten db call m m' → P m') :
    ∀ m ∈ (step db call).monitors, P m := by
  intro m' hm'
  rcases rewritten_of_step hm' with hcreated | ⟨m, hm, hrewritten⟩
  · exact hnew m' hcreated
  · exact hwritten m hm m' (h m hm) hrewritten

theorem exists_of_id {id : UUID} (hm : m ∈ db.monitors) (hid : m.id = id) :
    db.monitors.count (fun s => decide (s.id = id)) ≠ 0 := fun hzero => by
  simpa [hid] using Table.count_eq_zero_iff.mp hzero m hm

/-- A patch that commits finds its monitor. -/
theorem exists_monitor_of_patchMonitor {id : UUID} {params : PatchMonitorParams} {answer : Monitor}
    (h : patchMonitor now id params db = .ok (answer, db')) :
    ∃ m ∈ db.monitors, m.id = id ∧ (∀ name, params.action ≠ .unsupported name) ∧
      ∀ minutes ∈ params.intervalMinutes, 1 ≤ minutes := by
  simp only [patchMonitor] at h
  split at h
  · cases h
  · rename_i haction
    split at h
    · exact absurd h throw_bind_ne_ok
    · rename_i hmonitor
      obtain ⟨m, hm, hid⟩ := Table.exists_of_count_ne_zero hmonitor
      simp only [bind_eq_ok, require_eq_ok] at h
      obtain ⟨_, hinterval, -⟩ := h
      exact ⟨m, hm, by simpa using hid, haction, hinterval⟩

/-- A patch of a monitor commits when it names an action and an interval that exist. -/
theorem step_patchMonitor {id : UUID} {params : PatchMonitorParams}
    (hcall : call.operation = .patchMonitor id params) (hm : m ∈ db.monitors) (hid : m.id = id)
    (haction : ∀ name, params.action ≠ .unsupported name)
    (hinterval : ∀ minutes ∈ params.intervalMinutes, 1 ≤ minutes) :
    patchAssign call.now params m ∈ (step db call).monitors := by
  have hmem : patchAssign call.now params m ∈
      (db.updateMonitor id (patchAssign call.now params)
        (patchAssign_id call.now params)).monitors :=
    Table.mem_update_of_pos hm (by simpa using hid)
  have hlookup := Table.lookup_eq_some_iff.mpr ⟨hmem, (patchAssign_id _ _ _).trans hid⟩
  have hok : patchMonitor call.now id params db = .ok (patchAssign call.now params m,
      db.updateMonitor id (patchAssign call.now params) (patchAssign_id call.now params)) := by
    unfold patchMonitor
    split
    · rename_i name hname
      exact absurd hname (haction name)
    · simp only [exists_of_id hm hid, if_false, bind_eq_ok, require_eq_ok, orNotFound_eq_ok]
      exact ⟨(), hinterval, _, hlookup, rfl⟩
  have hstep : step db call = commit (patchMonitor call.now id params) db := by
    simp only [step, hcall]
  rw [hstep, commit_of_ok hok]
  exact hmem

/-- What the review of a revision makes of its monitor. -/
def reviewAssign (now : Timestamp) (revisionId : UUID) (accept : Bool) (m : Monitor) : Monitor :=
  if accept then
    { m with currentRevisionId := some revisionId, status := .active,
             nextRunAt := some (now + 60 * m.intervalMinutes), updatedAt := now }
  else
    { m with status := if m.currentRevisionId.isNone then .blocked else .active, updatedAt := now }

/-- Reviewing a pending revision of a monitor commits. -/
theorem step_reviewRevision {accept : Bool} {r : Revision}
    (hcall : call.operation = .reviewRevision m.id r.id accept) (hm : m ∈ db.monitors)
    (hr : r ∈ db.revisions) (hdecidable : decidable m.id r.id r = true) :
    reviewAssign call.now r.id accept m ∈ (step db call).monitors := by
  have hcount : db.revisions.count (decidable m.id r.id) ≠ 0 := fun hzero => by
    simp [Table.count_eq_zero_iff.mp hzero r hr] at hdecidable
  have hok : ∃ db', reviewAssign call.now r.id accept m ∈ db'.monitors ∧
      reviewRevision call.now m.id r.id accept db =
        .ok (reviewAssign call.now r.id accept m, db') := by
    simp only [reviewRevision, hcount, if_false, bind_eq_ok, orNotFound_eq_ok]
    cases accept with
    | true =>
        have hmem : reviewAssign call.now r.id true m ∈ db.monitors.update
            (fun s => decide (s.id = m.id)) (reviewAssign call.now r.id true) :=
          Table.mem_update_of_pos hm (by simp)
        exact ⟨_, hmem, _, Table.lookup_eq_some_iff.mpr ⟨hmem, rfl⟩, rfl⟩
    | false =>
        have hmem : reviewAssign call.now r.id false m ∈ db.monitors.update
            (fun s => decide (s.id = m.id)) (reviewAssign call.now r.id false) :=
          Table.mem_update_of_pos hm (by simp)
        exact ⟨_, hmem, _, Table.lookup_eq_some_iff.mpr ⟨hmem, rfl⟩, rfl⟩
  obtain ⟨db', hmem, hok⟩ := hok
  have hstep : step db call = commit (reviewRevision call.now m.id r.id accept) db := by
    simp only [step, hcall]
  rw [hstep, commit_of_ok hok]
  exact hmem

/-- Confirming a pending revision of a monitor commits. -/
theorem step_confirmMonitor {r : Revision} {condition : Option Json}
    (hcall : call.operation = .confirmMonitor m.id ⟨r.id, condition⟩) (hm : m ∈ db.monitors)
    (hr : r ∈ db.revisions) (hdecidable : decidable m.id r.id r = true) :
    step db call =
      { db with
        revisions := (db.revisions.update (decidable m.id r.id) fun r =>
            { r with validationState := .active, activatedAt := some call.now }).update
          (otherPending m.id r.id) fun r => { r with validationState := .rejected }
        monitors := db.monitors.update (fun s => decide (s.id = m.id)) fun m =>
          { m with currentRevisionId := some r.id, condition := condition.getD (.obj []),
                   status := .active, nextRunAt := some (call.now + 60 * m.intervalMinutes),
                   updatedAt := call.now } } := by
  let confirm : Monitor → Monitor := fun m =>
    { m with currentRevisionId := some r.id, condition := condition.getD (.obj []),
             status := .active, nextRunAt := some (call.now + 60 * m.intervalMinutes),
             updatedAt := call.now }
  have hcount : db.revisions.count (decidable m.id r.id) ≠ 0 := fun hzero => by
    simp [Table.count_eq_zero_iff.mp hzero r hr] at hdecidable
  have hmem : confirm m ∈ db.monitors.update (fun s => decide (s.id = m.id)) confirm :=
    Table.mem_update_of_pos hm (by simp)
  have hlookup := Table.lookup_eq_some_iff.mpr ⟨hmem, rfl⟩
  have hstep : step db call = commit (confirmMonitor call.now m.id ⟨r.id, condition⟩) db := by
    simp only [step, hcall]
  rw [hstep]
  refine commit_of_ok (a := confirm m) ?_
  simp only [confirmMonitor, hcount, if_false, bind_eq_ok, orNotFound_eq_ok,
    Database.updateRevisions, exists_of_id hm rfl]
  exact ⟨confirm m, hlookup, rfl⟩

end Steps

end PriceScout.Store.Transitions
