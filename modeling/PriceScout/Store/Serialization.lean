import PriceScout.Store.Persistence

/-!
One execution in flight per monitor. Admission tests for work in flight; every
other insertion happens in the transaction that made the monitor's only one
terminal.
-/

namespace PriceScout.Store.Serialization

open PriceScout.Domain
open PriceScout.Library.Runs
open PriceScout.Library.Tables
open PriceScout.Store.Alerts
open PriceScout.Store.Effects
open PriceScout.Store.Executions
open PriceScout.Store.Inversions
open PriceScout.Store.Monitors
open PriceScout.Store.Operations
open PriceScout.Store.Outbox
open PriceScout.Store.Persistence
open PriceScout.Store.Recovery
open PriceScout.Store.Schema

/-- Every execution has its monitor, and no monitor has two in flight. -/
structure Serialized (db : Database) : Prop where
  housed : ∀ e ∈ db.executions, db.hasMonitor e.monitorId
  single : ∀ e ∈ db.executions, ∀ s ∈ db.executions, e.inFlight = true → s.inFlight = true →
    e.monitorId = s.monitorId → e = s

/-- No execution of the monitor is in flight. -/
def Idle (db : Database) (monitorId : UUID) : Prop :=
  ∀ s ∈ db.executions, s.monitorId = monitorId → s.inFlight = false

theorem idle_of_inFlightOf {db : Database} {monitorId : UUID}
    (h : ∀ s ∈ db.executions, inFlightOf monitorId s = false) : Idle db monitorId := by
  intro s hs hmonitor
  simpa [inFlightOf, hmonitor] using h s hs

namespace Serialized

variable {now : Timestamp} {db db' db₁ : Database} {e e' : Execution}

theorem empty : Serialized Database.empty :=
  ⟨fun _ he => absurd he (Table.not_mem_empty _), fun _ he => absurd he (Table.not_mem_empty _)⟩

theorem congr (h : Serialized db) (hpersists : Persists db db')
    (hexecutions : db'.executions = db.executions) : Serialized db' := by
  constructor
  · rw [hexecutions]
    exact fun e he => hpersists.hasMonitor (h.housed e he)
  · rw [hexecutions]
    exact h.single

/-- An execution that is claimed, renewed or made terminal keeps its monitor to itself. -/
theorem substituted (h : Serialized db) (hpersists : Persists db db')
    (hsubstituted : db.executions.Substituted e e' db'.executions) (hjob : SameJob e e')
    (hflight : e'.inFlight = true → e.inFlight = true) : Serialized db' := by
  have old : ∀ s ∈ db'.executions, ∃ r ∈ db.executions, r.id = s.id ∧ r.monitorId = s.monitorId ∧
      (s.inFlight = true → r.inFlight = true) := by
    intro s hs
    rcases hsubstituted.mem_cases hs with ⟨hs, -⟩ | rfl
    · exact ⟨s, hs, rfl, rfl, fun h => h⟩
    · exact ⟨e, hsubstituted.mem, hjob.id.symm, hjob.monitorId.symm, hflight⟩
  constructor
  · intro s hs
    obtain ⟨r, hr, -, hmonitor, -⟩ := old s hs
    exact hpersists.hasMonitor (hmonitor ▸ h.housed r hr)
  · intro s hs u hu hsf huf hmonitor
    obtain ⟨r, hr, hid, hm, hrf⟩ := old s hs
    obtain ⟨v, hv, hid', hm', hvf⟩ := old u hu
    have hrv := h.single r hr v hv (hrf hsf) (hvf huf) (by rw [hm, hm', hmonitor])
    exact Table.eq_of_key_eq hs hu (by rw [← hid, ← hid', hrv])

/-- A new execution of an idle monitor is the only one in flight. -/
theorem appended (h : Serialized db) (hpersists : Persists db db')
    (happended : db.executions.Appended e db'.executions) (hmonitor : db.hasMonitor e.monitorId)
    (hidle : Idle db e.monitorId) : Serialized db' := by
  constructor
  · refine Table.forall_appended happended ?_ (hpersists.hasMonitor hmonitor)
    exact fun s hs => hpersists.hasMonitor (h.housed s hs)
  · intro s hs u hu hsf huf hsame
    rcases happended.mem_iff.mp hs with hs | rfl <;> rcases happended.mem_iff.mp hu with hu | rfl
    · exact h.single s hs u hu hsf huf hsame
    · simp [hidle s hs hsame] at hsf
    · simp [hidle u hu hsame.symm] at huf
    · rfl

theorem enqueued {traceparent : String} (h : Serialized db)
    (henqueued : Enqueued now db e traceparent db') (hidle : Idle db e.monitorId) :
    Serialized db' :=
  h.appended (.enqueued henqueued) henqueued.appended henqueued.monitor hidle

theorem retired (h : Serialized db) (hretired : Retired db e e' db') : Serialized db' :=
  h.substituted (.retired hretired) hretired.substituted hretired.sameJob fun _ => hretired.inFlight

/-- Making the execution in flight terminal leaves its monitor idle. -/
theorem idle (h : Serialized db) (hretired : Retired db e e' db') : Idle db' e.monitorId := by
  intro s hs hmonitor
  rcases hretired.substituted.mem_cases hs with ⟨hs, hne⟩ | rfl
  · by_contra hflight
    have hsame := h.single s hs e hretired.mem (by simpa using hflight) hretired.inFlight hmonitor
    exact hne (congrArg Execution.id hsame)
  · exact hretired.terminal

theorem followed (h : Serialized db) (hretired : Retired db e e' db₁) (hpersists : Persists db₁ db')
    (hfollowed : FollowedIn now e db₁ db') : Serialized db' := by
  have h₁ := h.retired hretired
  rcases hfollowed with hexecutions | ⟨n, hfollows, -, happended⟩
  · exact h₁.congr hpersists hexecutions
  · refine h₁.appended hpersists happended ?_ ?_
    · rw [hfollows.monitorId]
      exact (Persists.retired hretired).hasMonitor (h.housed e hretired.mem)
    · rw [hfollows.monitorId]
      exact h.idle hretired

theorem effect {call : Call} (h : Serialized db) (heffect : Effect call db db') :
    Serialized db' := by
  have hpersists := Persists.effect heffect
  cases heffect with
  | created monitorId executionId params monitors' db' hcall hinterval hmonitor henqueued =>
      have hinserted : Persists db { db with monitors := monitors' } :=
        { Persists.refl db with monitors := .of_appended (fun _ => trivial) hmonitor }
      refine (h.congr hinserted rfl).enqueued henqueued fun s hs hsame => ?_
      obtain ⟨m, hm, hid⟩ := Database.hasMonitor_iff.mp (h.housed s hs)
      exact absurd (hid.trans hsame) (hmonitor.key_ne hm)
  | claimed e e' executions' repairAttempts' hqueued hcall he' hexecution hattempts =>
      refine h.substituted hpersists hexecution ?_ fun _ => ?_
      · rw [he']
        exact ⟨rfl, rfl, rfl, rfl, rfl, rfl, rfl, rfl, rfl⟩
      · simp [Execution.inFlight, hqueued, ExecutionState.inFlight]
  | renewed e e' executions' hrunning hcall he' hexecution =>
      refine h.substituted hpersists hexecution ?_ fun _ => ?_
      · rw [he']
        exact ⟨rfl, rfl, rfl, rfl, rfl, rfl, rfl, rfl, rfl⟩
      · simp [Execution.inFlight, hrunning, ExecutionState.inFlight]
  | checkQueued id m r idempotencyKey traceparent db' hcall hnew hadmitting henqueued =>
      exact h.enqueued henqueued (idle_of_inFlightOf hadmitting.idle)
  | dueQueued id m r limit locked db' hcall hadmitting henqueued =>
      exact (h.enqueued henqueued (idle_of_inFlightOf hadmitting.idle)).congr .updateMonitor rfl
  | confirmed m r condition hcall hmonitor hrevision hdecidable => exact h.congr hpersists rfl
  | patched m params hcall hmonitor => exact h.congr hpersists rfl
  | accepted m r hcall hmonitor hrevision hdecidable => exact h.congr hpersists rfl
  | rejected m r hcall hmonitor hrevision hdecidable => exact h.congr hpersists rfl
  | terminalized e e' db₁ runningStaleAfter maxAttempts limit locked hcall hattempts hretired
      hrunning hfailed =>
      have hfollowed : FollowedIn call.now e db₁ _ :=
        Or.inl (terminalizeStaleExecution_executions call.now e staleReason db₁)
      exact h.followed hretired .terminalizeStaleExecution hfollowed
  | replaced e e' db₁ db' runningStaleAfter maxAttempts limit locked hcall hattempts hretired
      hrunning hfailed hreplaced =>
      exact h.followed hretired (.replaced hreplaced) hreplaced.followedIn
  | published outbox' locked limit publish commits hcall hevolves => exact h.congr hpersists rfl

theorem settled {store : OpenStore} {executionId : UUID} {result : ExecutionResult}
    (h : Serialized db) (hsettled : Settled store now executionId result db e e' db₁ db') :
    Serialized db' :=
  h.followed hsettled.retired (.outcome hsettled.outcome) hsettled.outcome.followedIn

end Serialized

theorem serialized_of_reachable {db : Database} (h : StoreReachable db) : Serialized db :=
  StoreReachable.invariant Serialized.empty (fun _ _ _ => Serialized.effect)
    (fun _ _ _ _ _ _ _ _ _ => Serialized.settled) h

/-- After every run, every monitor has at most one execution queued or running. -/
theorem at_most_one_in_flight (calls : List Call) (monitorId : UUID) :
    ((run step Database.empty calls).executions.rows.filter (inFlightOf monitorId)).length ≤ 1 := by
  have hserialized := serialized_of_reachable ⟨calls, rfl⟩
  generalize run step Database.empty calls = db at hserialized ⊢
  rw [← not_lt]
  intro hmany
  obtain ⟨e, s, rest, hlist⟩ : ∃ e s rest, db.executions.rows.filter (inFlightOf monitorId) =
      e :: s :: rest := by
    match hfilter : db.executions.rows.filter (inFlightOf monitorId) with
    | [] | [_] => simp [hfilter] at hmany
    | e :: s :: rest => exact ⟨e, s, rest, rfl⟩
  have hnodup : (e :: s :: rest).Nodup := hlist ▸ db.executions.nodup_rows.filter _
  have hmem : ∀ r ∈ e :: s :: rest, r ∈ db.executions ∧ r.monitorId = monitorId ∧
      r.inFlight = true := by
    rw [← hlist]
    intro r hr
    obtain ⟨hr, hflight⟩ := List.mem_filter.mp hr
    simp only [inFlightOf, Bool.and_eq_true, decide_eq_true_eq] at hflight
    exact ⟨hr, hflight⟩
  obtain ⟨he, hem, hef⟩ := hmem e (by simp)
  obtain ⟨hs, hsm, hsf⟩ := hmem s (by simp)
  obtain rfl := hserialized.single e he s hs hef hsf (hem.trans hsm.symm)
  simp at hnodup

end PriceScout.Store.Serialization
