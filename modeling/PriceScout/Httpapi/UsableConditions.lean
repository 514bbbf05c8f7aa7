import PriceScout.Httpapi.Handlers
import PriceScout.Store.Transitions

/-!
A monitor with a plan has a condition that validation accepts, as long as no
plan is accepted for a monitor that has none.
-/

namespace PriceScout.Httpapi.UsableConditions

open PriceScout.Domain
open PriceScout.Httpapi.Conditions
open PriceScout.Httpapi.Handlers
open PriceScout.Library.JsonDocuments
open PriceScout.Library.Runs
open PriceScout.Library.StoredDocuments
open PriceScout.Library.Tables
open PriceScout.Store.Alerts
open PriceScout.Store.Executions
open PriceScout.Store.Monitors
open PriceScout.Store.Operations
open PriceScout.Store.Schema
open PriceScout.Store.Transitions

/-- A monitor with a plan has a condition that validation accepts. -/
def Usable (m : Monitor) : Prop :=
  m.currentRevisionId.isSome = true → Accepted m.condition

instance (m : Monitor) : Decidable (Usable m) :=
  inferInstanceAs (Decidable (_ → _))

/-- Under the empty condition, with which a monitor is created, nothing matches. -/
theorem matchesCondition_empty (observation : ResultObservation) :
    matchesCondition (.obj []) observation = false := by
  have hdecode : decodeMatchCondition (.obj []) = some ⟨none, none, "", false⟩ := rfl
  simp [matchesCondition, hdecode]

theorem ne_empty_of_usable {m : Monitor} (h : Usable m)
    (hplan : m.currentRevisionId.isSome = true) :
    m.condition ≠ .obj [] := fun hempty =>
  not_accepted_empty (hempty ▸ h hplan)

def AllUsable (db : Database) : Prop :=
  ∀ m ∈ db.monitors, Usable m

/-- The event accepts a pending revision of a monitor. -/
inductive AcceptsPlan (db : Database) (event : Event) (m : Monitor) : Prop
  | intro (now : Timestamp) (r : Revision)
      (hcall : event.call? = some ⟨now, .reviewRevision m.id r.id true⟩)
      (hmonitor : m ∈ db.monitors) (hrevision : r ∈ db.revisions)
      (hdecidable : decidable m.id r.id r = true)

/-- The event gives a condition to a monitor that has a plan, or together with one. -/
inductive GivesCondition (db : Database) (event : Event) (condition : Json) : Prop
  | confirmed (now : Timestamp) (m : Monitor) (r : Revision)
      (hcall : event.call? = some ⟨now, .confirmMonitor m.id ⟨r.id, some condition⟩⟩)
      (hmonitor : m ∈ db.monitors) (hrevision : r ∈ db.revisions)
      (hdecidable : decidable m.id r.id r = true)
  | patched (now : Timestamp) (m : Monitor) (params : PatchMonitorParams)
      (hcall : event.call? = some ⟨now, .patchMonitor m.id params⟩)
      (hmonitor : m ∈ db.monitors) (hplan : m.currentRevisionId.isSome = true)
      (haction : ∀ name, params.action ≠ .unsupported name)
      (hinterval : ∀ minutes ∈ params.intervalMinutes, 1 ≤ minutes)
      (hcondition : params.condition = some condition)

/-- A plan is accepted only for a monitor whose condition is accepted, and a
condition that is given is still accepted once it is stored. -/
structure KeepsUsable (db : Database) (event : Event) : Prop where
  plans : ∀ m, AcceptsPlan db event m → Accepted m.condition
  conditions : ∀ condition, GivesCondition db event condition → Accepted condition

section Preservation

variable {db : Database} {event : Event} {call : Call} {m m' : Monitor}

/-- A condition that an event gives has been validated. -/
theorem GivesCondition.validated {condition : Json} (h : GivesCondition db event condition) :
    Validated event condition := by
  cases h with
  | confirmed now m r hcall hmonitor hrevision hdecidable =>
      obtain ⟨_, ⟨⟩, hvalidated⟩ := validated_of_confirm hcall
      exact hvalidated
  | patched now m params hcall hmonitor hplan haction hinterval hcondition =>
      exact validated_of_patch hcall condition hcondition

/-- A request that gives no field of its condition twice leaves it accepted. -/
theorem accepted_of_unambiguous {condition : Json} (h : GivesCondition db event condition)
    (honce : ∀ raw, event.condition? = some raw → Unambiguous raw) : Accepted condition := by
  obtain ⟨raw, hraw, hobject, haccepted, rfl⟩ := h.validated
  exact accepted_stored hobject (honce raw hraw) haccepted

theorem usable_turned {store : OpenStore} {now : Timestamp} {e : Execution}
    {result : ExecutionResult} (h : Usable m) (hturned : Turned store now db e result m m') :
    Usable m' := by
  cases hturned with
  | promoted id failedRevisionId hstatus hkind hauto hfailed hcurrent =>
      exact fun _ => h (by simp [hcurrent])
  | kept hsets hlatch | latched observation hlatch | compiled hstatus hkind | held hstatus hkind
  | refused status nextRunAt hstatus hsets => exact h

theorem usable_rewritten (hcall : event.call? = some call) (hkeeps : KeepsUsable db event)
    (hm : m ∈ db.monitors) (h : Usable m) (hwritten : Rewritten db call m m') : Usable m' := by
  obtain ⟨now, operation⟩ := call
  cases hwritten with
  | kept | rescheduled limit locked nextRunAt updatedAt hoperation
  | rejected r hoperation hrevision hdecidable => exact h
  | confirmed r condition hoperation hrevision hdecidable =>
      obtain rfl := hoperation
      obtain ⟨_, hcondition, -⟩ := validated_of_confirm hcall
      obtain rfl := hcondition
      exact fun _ => hkeeps.conditions _ (.confirmed now m r hcall hm hrevision hdecidable)
  | patched params hoperation haction hinterval =>
      obtain rfl := hoperation
      intro hplan
      rw [patchAssign_currentRevisionId] at hplan
      rw [patchAssign_condition]
      cases hcondition : params.condition with
      | none => exact h hplan
      | some condition =>
          exact hkeeps.conditions _
            (.patched now m params hcall hm hplan haction hinterval hcondition)
  | accepted r hoperation hrevision hdecidable =>
      obtain rfl := hoperation
      exact fun _ => hkeeps.plans m (.intro now r hcall hm hrevision hdecidable)
  | abandoned e status nextRunAt runningStaleAfter maxAttempts limit locked hoperation hstale
      hmonitor
      hkind hattempts hstatus => exact h
  | settled store executionId result e e' db₁ m' hoperation haccepted hsettled hmonitor hturned =>
      exact usable_turned h hturned

theorem AllUsable.serve (h : AllUsable db) (hkeeps : KeepsUsable db event) :
    AllUsable (serve db event) := by
  cases hcall : event.call? with
  | none => simpa [serve_eq, hcall] using h
  | some call =>
      rw [serve_of_call hcall]
      refine forall_step h ?_ fun m hm m' => usable_rewritten hcall hkeeps hm
      rintro m ⟨id, params, -, rfl, -⟩ hplan
      simp [newMonitor] at hplan

/-- An event that leaves every condition usable has kept them so. -/
theorem keepsUsable_of_allUsable (h : AllUsable (Handlers.serve db event)) :
    KeepsUsable db event := by
  constructor
  · rintro m ⟨now, r, hcall, hm, hr, hdecidable⟩
    have hmem : reviewAssign now r.id true m ∈
        (step db ⟨now, .reviewRevision m.id r.id true⟩).monitors :=
      step_reviewRevision rfl hm hr hdecidable
    rw [serve_of_call hcall] at h
    have husable := h _ hmem
    exact husable rfl
  · intro condition hgives
    cases hgives with
    | confirmed now m r hcall hm hr hdecidable =>
        rw [serve_of_call hcall, step_confirmMonitor rfl hm hr hdecidable] at h
        exact h _ (Table.mem_update_of_pos hm (by simp)) rfl
    | patched now m params hcall hm hplan haction hinterval hcondition =>
        have hmem :
          patchAssign now params m ∈ (step db ⟨now, .patchMonitor m.id params⟩).monitors :=
          step_patchMonitor rfl hm rfl haction hinterval
        rw [serve_of_call hcall] at h
        have husable := h _ hmem
        rw [Usable, patchAssign_currentRevisionId, patchAssign_condition, hcondition] at husable
        exact husable hplan

end Preservation

/-- A run of the control plane keeps the condition of every monitor with a plan
usable exactly when each of its events does. -/
theorem usable_iff_keepsUsable (events : List Event) :
    (∀ n, AllUsable (stateAt serve Database.empty events n)) ↔
      ∀ n (h : n < events.length),
        KeepsUsable (stateAt serve Database.empty events n) events[n] := by
  constructor
  · intro husable n hn
    have hnext := husable (n + 1)
    rw [stateAt_succ hn] at hnext
    exact keepsUsable_of_allUsable hnext
  · intro hkeeps
    refine stateAt_invariant (fun m hm => absurd hm (Table.not_mem_empty m)) ?_ hkeeps
    exact fun s event _ husable hkept => husable.serve hkept

/-- A server that takes every URL, with a parser of the first few UUIDs. -/
def server : Server where
  minInterval := 15
  defaultInterval := 360
  workerToken := "dev-worker-token"
  store := openStore [] 3
  validate := .ok
  parseUUID text := ((List.range 8).map UUID.mk).find? fun id => id.string = text

/-- The plan of a compile is accepted by a review, not by a confirmation. -/
def acceptedByReview : List Event :=
  [.received server 0 (.createMonitor "" (.document
     (.obj [("url", .str "https://shop.example/item"), ("intent", .str "price of the item")])
     64 false)),
   .received server 1 (.executionInput "dev-worker-token" "00000000-0000-0000-0000-000000000002"),
   .received server 2 (.executionResult "dev-worker-token" "00000000-0000-0000-0000-000000000002"
     (.document (.obj [("status", .str "succeeded"), ("plan", .obj [])]) 32 false)),
   .received server 3 (.acceptRevision "00000000-0000-0000-0000-000000000001"
     "00000000-0000-0000-0000-000000000003")]

/-- After the review the monitor has a plan and the empty condition. -/
theorem acceptedByReview_unusable :
    ¬ ∀ db, Reachable serve Database.empty db → ∀ m ∈ db.monitors,
      m.currentRevisionId.isSome = true → validatePriceCondition m.condition = .ok () := by
  intro h
  have hall : (run serve Database.empty acceptedByReview).monitors.rows.all
      (fun m => decide (Usable m)) = true := by
    rw [List.all_eq_true]
    intro m hm
    exact decide_eq_true (h _ ⟨acceptedByReview, rfl⟩ m hm)
  exact absurd hall (by decide +kernel)

end PriceScout.Httpapi.UsableConditions
