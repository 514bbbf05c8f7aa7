import PriceScout.Store.Generations
import PriceScout.Store.Transitions

/-!
After a check finds the current plan stale, a repair is in flight or the monitor
is not active, as long as no repair of that generation was asked for before.
-/

namespace PriceScout.Store.Attendance

open PriceScout.Domain
open PriceScout.Library.JsonDocuments
open PriceScout.Library.Runs
open PriceScout.Library.Tables
open PriceScout.Store.Alerts
open PriceScout.Store.Effects
open PriceScout.Store.Executions
open PriceScout.Store.Generations
open PriceScout.Store.Inversions
open PriceScout.Store.Monitors
open PriceScout.Store.Operations
open PriceScout.Store.Provenance
open PriceScout.Store.Schema
open PriceScout.Store.Serialization
open PriceScout.Store.Transitions

/-- The call hands in the result of a check that failed because the current plan of
its monitor is stale, and the result is accepted. -/
structure FailsStale (db : Database) (call : Call) (e : Execution) (result : ExecutionResult)
    (m : Monitor) : Prop where
  accepted : ∃ store, call.operation = .applyResult store e.id result ∧
    saysAccepted (applyResult store call.now e.id result db) = true
  mem : e ∈ db.executions
  check : e.kind = .check
  failed : result.status = "failed"
  stale : staleClassification result = true
  monitor : m ∈ db.monitors
  monitorId : m.id = e.monitorId
  current : m.currentRevisionId = e.revisionId

/-- A repair of the monitor is in flight, or the monitor is not active. -/
def Attended (db : Database) (monitorId : UUID) : Prop :=
  (∃ e ∈ db.executions, e.monitorId = monitorId ∧ e.kind = .repair ∧ e.inFlight = true) ∨
    ∃ m ∈ db.monitors, m.id = monitorId ∧ m.status ≠ .active

instance (db : Database) (monitorId : UUID) : Decidable (Attended db monitorId) :=
  inferInstanceAs (Decidable ((∃ e ∈ db.executions, _) ∨ ∃ m ∈ db.monitors, _))

section Steps

variable {db db' db₁ : Database} {call : Call} {e e' : Execution} {result : ExecutionResult}
  {m : Monitor}

theorem settled_of_failsStale (h : FailsStale db call e result m) :
    ∃ store e' db₁, call.operation = .applyResult store e.id result ∧
      Settled store call.now e.id result db e e' db₁ (step db call) := by
  obtain ⟨store, hcall, haccepted⟩ := h.accepted
  obtain ⟨s, e', db₁, hsettled⟩ := settled_of_saysAccepted hcall haccepted
  obtain rfl := Table.eq_of_key_eq hsettled.retired.mem h.mem hsettled.id
  exact ⟨store, e', db₁, hcall, hsettled⟩

theorem requestedGeneration_of_check (h : Coherent db) (he : e ∈ db.executions)
    (hkind : e.kind = .check) : e.requestedGeneration.isSome = true := by
  obtain ⟨r, -, -, -, -, hgeneration⟩ := h.plans.executions e he (by simp [hkind])
  simp [hgeneration]

/-- The stale failure changes nothing more when its repair was asked for before, and
asks for it otherwise. -/
theorem step_of_failsStale (hcoherent : Coherent db) (h : FailsStale db call e result m) :
    RepairAsked db e.monitorId e.requestedGeneration ∧ Idle (step db call) e.monitorId ∧
        (step db call).monitors = db.monitors ∨
      ¬ RepairAsked db e.monitorId e.requestedGeneration ∧
        ∃ n ∈ (step db call).executions, n.monitorId = e.monitorId ∧ n.kind = .repair ∧
          n.inFlight = true := by
  obtain ⟨store, e', db₁, hcall, hsettled⟩ := settled_of_failsStale h
  have hidle := hcoherent.serialized.idle hsettled.retired
  have hsome := requestedGeneration_of_check hcoherent h.mem h.check
  have hfailed : result.status ≠ "succeeded" := by simp [h.failed]
  have houtcome := hsettled.outcome
  have hmonitors := hsettled.retired.monitors
  have hattempts := hsettled.retired.repairAttempts
  generalize step db call = db' at houtcome
  cases houtcome with
  | planned plan db' hstatus | plannedAndRecorded plan observation m o db₂ db' hstatus
  | observed observation m o db₂ db' hstatus => exact absurd hstatus hfailed
  | failed db' hstatus heffect =>
      cases heffect with
      | retried db' hretry => simp [not_retried_of_check h.check] at hretry
      | compileFailed hkind | repairFailed hkind => simp [h.check] at hkind
      | checkFailed hkind hfresh =>
          rcases hfresh with hnone | hfresh
          · simp [hnone] at hsome
          · simp [h.stale] at hfresh
      | repairExists a hkind hstale hmem hmonitor hgeneration =>
          exact Or.inl ⟨⟨a, hattempts ▸ hmem, hmonitor, hgeneration⟩, hidle, hmonitors⟩
      | repairQueued id attemptId generation repairAttempts' uuids' db' hkind hstale hgeneration
          hnone
          hattempt henqueued =>
          refine Or.inr ⟨?_, _, henqueued.appended.mem, rfl, rfl, rfl⟩
          rintro ⟨a, ha, hmonitor, hasked⟩
          refine hnone a (hattempts ▸ ha) hmonitor ?_
          simpa [hgeneration] using hasked.symm

end Steps

/-- In every run, an accepted stale failure of the current plan leaves a repair in
flight or the monitor not active exactly when the monitor was not active before, or
no repair of that generation had been asked for. -/
theorem attended_iff_not_asked (calls : List Call) (n : Nat) (hn : n < calls.length)
    (e : Execution) (result : ExecutionResult) (m : Monitor)
    (hstale : FailsStale (stateAt step Database.empty calls n) calls[n] e result m) :
    Attended (stateAt step Database.empty calls (n + 1)) e.monitorId ↔
      m.status ≠ .active ∨
        ¬ RepairAsked (stateAt step Database.empty calls n) e.monitorId e.requestedGeneration := by
  rw [stateAt_succ hn]
  have hreachable : StoreReachable (stateAt step Database.empty calls n) :=
    reachable_stateAt calls n
  have hcoherent := coherent_of_reachable hreachable
  generalize stateAt step Database.empty calls n = db at hstale hcoherent
  rcases step_of_failsStale hcoherent hstale with ⟨hasked, hidle, hmonitors⟩ | ⟨hnone, hrepair⟩
  · constructor
    · rintro (⟨s, hs, hmonitor, -, hflight⟩ | ⟨s, hs, hid, hstatus⟩)
      · simp [hidle s hs hmonitor] at hflight
      · rw [hmonitors] at hs
        obtain rfl := Table.eq_of_key_eq hs hstale.monitor (hid.trans hstale.monitorId.symm)
        exact Or.inl hstatus
    · rintro (hstatus | hnone)
      · exact Or.inr ⟨m, hmonitors ▸ hstale.monitor, hstale.monitorId, hstatus⟩
      · exact absurd hasked hnone
  · exact iff_of_true (Or.inl hrepair) (Or.inr hnone)

/-- A check finds its plan stale, the repair fails, the operator resumes the
monitor, and the next check finds the same plan stale. -/
def staleAgain : List Call :=
  [⟨0, .createMonitor ⟨"https://shop.example/item", "price of the item", 60, ""⟩⟩,
   ⟨1, .applyResult (openStore [] 3) ⟨2⟩
     { ExecutionResult.bare "succeeded" "" with plan := some (.obj []) }⟩,
   ⟨2, .confirmMonitor ⟨1⟩ ⟨⟨3⟩, none⟩⟩,
   ⟨3, .enqueueCheck ⟨1⟩ "" ""⟩,
   ⟨4, .applyResult (openStore [] 3) ⟨4⟩ (.bare "failed" "stale_extractor")⟩,
   ⟨5, .applyResult (openStore [] 3) ⟨5⟩ (.bare "failed" "identity_drift")⟩,
   ⟨6, .patchMonitor ⟨1⟩ ⟨none, none, .resume⟩⟩,
   ⟨7, .enqueueCheck ⟨1⟩ "" ""⟩,
   ⟨8, .applyResult (openStore [] 3) ⟨7⟩ (.bare "failed" "stale_extractor")⟩]

/-- A check of the plan of its monitor is known by its id. -/
theorem failsStale_of_id (db : Database) (now : Timestamp) (id : UUID) (result : ExecutionResult)
    (hstale : result.status = "failed" ∧ staleClassification result = true)
    (hcheck : ∃ e ∈ db.executions, e.id = id ∧ e.kind = .check ∧
      ∃ m ∈ db.monitors, m.id = e.monitorId ∧ m.currentRevisionId = e.revisionId)
    (haccepted : saysAccepted (applyResult (openStore [] 3) now id result db) = true) :
    ∃ (e : Execution) (m : Monitor), e.id = id ∧
      FailsStale db ⟨now, .applyResult (openStore [] 3) id result⟩ e result m := by
  obtain ⟨e, he, rfl, hkind, m, hm, hmonitor, hcurrent⟩ := hcheck
  exact ⟨e, m, rfl, ⟨_, rfl, haccepted⟩, he, hkind, hstale.1, hstale.2, hm, hmonitor, hcurrent⟩

/-- The first stale failure leaves the monitor attended. -/
theorem attended_iff_not_asked_first :
    ∃ (e : Execution) (m : Monitor), e.id = ⟨4⟩ ∧ m.id = e.monitorId ∧
      (Attended (stateAt step Database.empty staleAgain 5) e.monitorId ↔ m.status ≠ .active ∨
        ¬ RepairAsked (stateAt step Database.empty staleAgain 4) e.monitorId
          e.requestedGeneration) := by
  obtain ⟨e, m, hid, hstale⟩ := failsStale_of_id (stateAt step Database.empty staleAgain 4)
    4 ⟨4⟩ (.bare "failed" "stale_extractor") (by decide) (by decide +kernel) (by decide +kernel)
  exact ⟨e, m, hid, hstale.monitorId,
    attended_iff_not_asked staleAgain 4 (by decide) e _ m hstale⟩

/-- The second one leaves the monitor active with no repair in flight. -/
theorem staleAgain_unattended :
    ¬ ∀ (calls : List Call) (n : Nat) (hn : n < calls.length) (e : Execution)
      (result : ExecutionResult) (m : Monitor),
      FailsStale (stateAt step Database.empty calls n) calls[n] e result m →
      Attended (stateAt step Database.empty calls (n + 1)) e.monitorId := by
  intro h
  obtain ⟨e, m, hid, hstale⟩ := failsStale_of_id (stateAt step Database.empty staleAgain 8)
    8 ⟨7⟩ (.bare "failed" "stale_extractor") (by decide) (by decide +kernel) (by decide +kernel)
  have hattended := h staleAgain 8 (by decide) e _ m hstale
  have hall : ∀ e ∈ (stateAt step Database.empty staleAgain 8).executions, e.id = ⟨7⟩ →
      ¬ Attended (stateAt step Database.empty staleAgain 9) e.monitorId := by
    decide +kernel
  exact hall e hstale.mem hid hattended

end PriceScout.Store.Attendance
