import PriceScout.Store.Promotion
import PriceScout.Store.Transitions

/-!
A repair attempt and its candidate revision record one decision in two tables.
Reviews and promotions write both; a confirmation writes only the revision.
-/

namespace PriceScout.Store.RepairOutcomes

open PriceScout.Domain
open PriceScout.Library.JsonDocuments
open PriceScout.Library.Runs
open PriceScout.Library.Tables
open PriceScout.Store.Alerts
open PriceScout.Store.Effects
open PriceScout.Store.Executions
open PriceScout.Store.Generations
open PriceScout.Store.Inversions
open PriceScout.Store.Monitors
open PriceScout.Store.Operations
open PriceScout.Store.Persistence
open PriceScout.Store.Promotion
open PriceScout.Store.Provenance
open PriceScout.Store.Recovery
open PriceScout.Store.Schema
open PriceScout.Store.Transitions

/-- The state of a repair attempt is that of its candidate revision. -/
structure AgreesWith (a : RepairAttempt) (r : Revision) : Prop where
  candidate : a.state = .candidate ↔ r.validationState = .candidate
  activated : a.state = .activated ↔ r.validationState = .active
  rejected : a.state = .rejected ↔ r.validationState = .rejected

instance (a : RepairAttempt) (r : Revision) : Decidable (AgreesWith a r) :=
  decidable_of_iff
    ((a.state = .candidate ↔ r.validationState = .candidate) ∧
      (a.state = .activated ↔ r.validationState = .active) ∧
      (a.state = .rejected ↔ r.validationState = .rejected))
    ⟨fun h => ⟨h.1, h.2.1, h.2.2⟩, fun h => ⟨h.candidate, h.activated, h.rejected⟩⟩

theorem AgreesWith.of_decision {a : RepairAttempt} {r : Revision}
    (h : a.state = .candidate ∧ r.validationState = .candidate ∨
      a.state = .activated ∧ r.validationState = .active ∨
      a.state = .rejected ∧ r.validationState = .rejected) : AgreesWith a r := by
  rcases h with ⟨ha, hr⟩ | ⟨ha, hr⟩ | ⟨ha, hr⟩ <;> constructor <;> simp [ha, hr]

/-- Every repair attempt with a candidate agrees with it. -/
def Agreement (db : Database) : Prop :=
  ∀ a ∈ db.repairAttempts, ∀ r ∈ db.revisions, a.candidateRevisionId = some r.id → AgreesWith a r

instance (db : Database) : Decidable (Agreement db) :=
  inferInstanceAs (Decidable (∀ a ∈ db.repairAttempts, ∀ r ∈ db.revisions, _))

/-- A confirmation of a pending revision is of one that no repair has produced. -/
def ConfirmsNoCandidate (db : Database) (call : Call) : Prop :=
  ∀ monitorId condition, ∀ r ∈ db.revisions,
    call.operation = .confirmMonitor monitorId ⟨r.id, condition⟩ →
    decidable monitorId r.id r = true →
    ∀ a ∈ db.repairAttempts, a.candidateRevisionId ≠ some r.id

section Preservation

variable {now : Timestamp} {db db' db₁ : Database} {e e' : Execution} {call : Call}

theorem confirmsNoCandidate_of_operation
    (h : ∀ monitorId params, call.operation ≠ .confirmMonitor monitorId params) (db : Database) :
    ConfirmsNoCandidate db call :=
  fun monitorId _ r _ hcall => absurd hcall (h monitorId ⟨r.id, _⟩)

/-- A candidate is a revision of the monitor whose plan was repaired. -/
theorem monitorId_of_candidate (h : Lineage db) {a : RepairAttempt} (ha : a ∈ db.repairAttempts)
    {r : Revision} (hr : r ∈ db.revisions) (hcandidate : a.candidateRevisionId = some r.id) :
    a.monitorId = r.monitorId := by
  obtain ⟨s, hs, hid, hproduced⟩ := h.candidates a ha r.id hcandidate
  obtain rfl := Table.eq_of_key_eq hs hr hid
  exact hproduced.1

namespace Agreement

theorem empty : Agreement Database.empty :=
  fun a ha => absurd ha (Table.not_mem_empty a)

/-- No revision changes, and every attempt with a candidate is as it was. -/
theorem congr (h : Agreement db) (hrevisions : db'.revisions = db.revisions)
    (hattempts : ∀ a ∈ db'.repairAttempts, a.candidateRevisionId = none ∨ a ∈ db.repairAttempts) :
    Agreement db' := by
  intro a ha r hr hcandidate
  rw [hrevisions] at hr
  rcases hattempts a ha with hnone | ha
  · simp [hnone] at hcandidate
  · exact h a ha r hr hcandidate

theorem of_eq (h : Agreement db) (hrevisions : db'.revisions = db.revisions)
    (hattempts : db'.repairAttempts = db.repairAttempts) : Agreement db' :=
  h.congr hrevisions fun _ ha => Or.inr (hattempts ▸ ha)

/-- Attempts without a candidate change, or lose the candidate. -/
theorem update {p : RepairAttempt → Bool} {f : RepairAttempt → RepairAttempt}
    {hf : ∀ a, (f a).id = a.id} (h : Agreement db) (hrevisions : db'.revisions = db.revisions)
    (hattempts : db'.repairAttempts = db.repairAttempts.update p f hf)
    (hassign : ∀ a ∈ db.repairAttempts, p a = true → (f a).candidateRevisionId = none) :
    Agreement db' := by
  refine h.congr hrevisions fun a' ha' => ?_
  rw [hattempts] at ha'
  rcases Table.mem_update_cases ha' with ⟨a, ha, hp, rfl⟩ | ⟨ha', -⟩
  · exact Or.inl (hassign a ha hp)
  · exact Or.inr ha'

/-- A new revision is the candidate of no attempt of before. -/
theorem appended {r : Revision} (h : Agreement db) (hlineage : Lineage db)
    (hrevision : db.revisions.Appended r db'.revisions)
    (hattempts : ∀ a ∈ db'.repairAttempts, a ∈ db.repairAttempts ∨
      a.candidateRevisionId = some r.id ∧ AgreesWith a r) : Agreement db' := by
  intro a ha s hs hcandidate
  rcases hattempts a ha with ha | ⟨hproduced, hagrees⟩
  · rcases hrevision.mem_iff.mp hs with hs | rfl
    · exact h a ha s hs hcandidate
    · obtain ⟨u, hu, hid, -⟩ := hlineage.candidates a ha s.id hcandidate
      exact absurd hid (hrevision.key_ne hu)
  · have hid : s.id = r.id := Option.some.inj (hcandidate.symm.trans hproduced)
    obtain rfl := Table.eq_of_key_eq hs hrevision.mem hid
    exact hagrees

theorem planEffect {plan : Json} {autoPromote : Bool} (h : Agreement db) (hlineage : Lineage db)
    (heffect : PlanEffect now e plan autoPromote db db') : Agreement db' := by
  cases heffect with
  | compiled id revisions' uuids' hkind hrevision =>
      exact h.appended hlineage hrevision fun a ha => Or.inl ha
  | promoted id failedRevisionId m revisions' uuids' hkind hauto hfailed hmem hid hcurrent
      hrevision =>
      refine h.appended hlineage hrevision fun a' ha' => ?_
      rcases Table.mem_update_cases ha' with ⟨a, -, -, rfl⟩ | ⟨ha', -⟩
      · exact Or.inr ⟨rfl, .of_decision (Or.inr (Or.inl ⟨rfl, rfl⟩))⟩
      · exact Or.inl ha'
  | held id revisions' uuids' hkind hheld hrevision =>
      refine h.appended hlineage hrevision fun a' ha' => ?_
      rcases Table.mem_update_cases ha' with ⟨a, -, -, rfl⟩ | ⟨ha', -⟩
      · exact Or.inr ⟨rfl, .of_decision (Or.inl ⟨rfl, by simp [planRevision, hkind]⟩)⟩
      · exact Or.inl ha'

theorem replaced (h : Agreement db) (hreplaced : Replaced now db e db') : Agreement db' := by
  cases hreplaced with
  | enqueued id db' hkind henqueued => exact h.of_eq henqueued.revisions henqueued.repairAttempts
  | repointed id db' a hkind hmem hexecution henqueued =>
      exact h.update henqueued.revisions rfl fun _ _ _ => rfl

theorem failureEffect {store : OpenStore} {result : ExecutionResult} (h : Agreement db)
    (hlineage : Lineage db) (hwell : WellFounded db e)
    (heffect : FailureEffect store now e result db db') : Agreement db' := by
  cases heffect with
  | retried db' hretry hreplaced => exact h.replaced hreplaced
  | compileFailed hkind => exact h.of_eq rfl rfl
  | repairFailed hkind =>
      refine h.update rfl rfl fun a ha hexecution => ?_
      show a.candidateRevisionId = none
      exact hlineage.undecided hwell hkind ha (of_decide_eq_true hexecution)
  | checkFailed hkind hfresh =>
      unfold applyCheckFailure
      split
      · exact h.of_eq rfl rfl
      · split <;> exact h.of_eq rfl rfl
  | repairExists a hkind hstale hmem hmonitor hgeneration => exact h
  | repairQueued id attemptId generation repairAttempts' uuids' db' hkind hstale hgeneration hnone
      hattempt henqueued =>
      refine h.congr henqueued.revisions fun a ha => ?_
      rcases hattempt.mem_iff.mp ha with ha | rfl
      · exact Or.inr ha
      · exact Or.inl rfl

theorem reaction {store : OpenStore} {m : Monitor} {o : Observation} (h : Agreement db)
    (hreaction : Reaction store now e m o db db') : Agreement db' := by
  cases hreaction with
  | diagnostic | unchanged => exact h
  | latched | alerted => exact h.of_eq rfl rfl
  | confirmationQueued id db' hkind hverified hordinary hmatched hprevious henqueued =>
      exact h.of_eq henqueued.revisions henqueued.repairAttempts

theorem recorded {observation : ResultObservation} {m : Monitor} {o : Observation}
    (h : Agreement db) (hrecorded : Recorded now e observation db m o db') : Agreement db' :=
  h.of_eq hrecorded.unchanged.2.1 hrecorded.unchanged.2.2.1

theorem retired (h : Agreement db) (hretired : Retired db e e' db') : Agreement db' :=
  h.of_eq hretired.revisions hretired.repairAttempts

theorem settled {store : OpenStore} {executionId : UUID} {result : ExecutionResult}
    (h : Agreement db) (hcoherent : Coherent db)
    (hsettled : Settled store now executionId result db e e' db₁ db') : Agreement db' := by
  have hagrees := h.retired hsettled.retired
  obtain ⟨⟨-, -, hlineage⟩, -, -, hwell, -⟩ := hcoherent.retired hsettled.retired
  cases hsettled.outcome with
  | planned plan db' hstatus hkind hplan heffect hobservation =>
      exact hagrees.planEffect hlineage heffect
  | plannedAndRecorded plan observation m o db₂ db' hstatus hkind hplan heffect hobservation
      hrecorded =>
      exact (hagrees.planEffect hlineage heffect).recorded hrecorded
  | observed observation m o db₂ db' hstatus hkind hobservation hrecorded hreaction =>
      exact (hagrees.recorded hrecorded).reaction hreaction
  | failed db' hstatus heffect => exact hagrees.failureEffect hlineage hwell heffect

/-- A review writes the decision on a candidate to both tables. -/
theorem reviewed {m : Monitor} {r : Revision} {f : Revision → Revision}
    {g : RepairAttempt → RepairAttempt} {hf : ∀ r, (f r).id = r.id} {hg : ∀ a, (g a).id = a.id}
    (h : Agreement db) (hlineage : Lineage db) (hr : r ∈ db.revisions)
    (hdecidable : decidable m.id r.id r = true)
    (hrevisions : db'.revisions = db.revisions.update (decidable m.id r.id) f hf)
    (hattempts : db'.repairAttempts = db.repairAttempts.update
      (fun a => decide (a.monitorId = m.id) && decide (a.candidateRevisionId = some r.id)) g hg)
    (hassign : ∀ a s, (g a).candidateRevisionId = some r.id ∧ AgreesWith (g a) (f s)) :
    Agreement db' := by
  intro a' ha' r' hr' hcandidate
  rw [hattempts] at ha'
  rw [hrevisions] at hr'
  rcases Table.mem_update_cases ha' with ⟨a, -, -, rfl⟩ | ⟨ha, hother⟩ <;>
    rcases Table.mem_update_cases hr' with ⟨s, hs, hds, rfl⟩ | ⟨hr', hkept⟩
  · exact (hassign a s).2
  · have hid : r'.id = r.id := Option.some.inj (hcandidate.symm.trans (hassign a r).1)
    obtain rfl := Table.eq_of_key_eq hr' hr hid
    simp [hdecidable] at hkept
  · -- the revision is the reviewed one, so the attempt is one that the review writes
    have hsr : s.id = r.id := by
      simp only [decidable, Bool.and_eq_true, decide_eq_true_eq] at hds
      exact hds.1.1
    rw [hf, hsr] at hcandidate
    have hmonitor := monitorId_of_candidate hlineage ha hr hcandidate
    simp [hmonitor, (decidable_iff.mp hdecidable).1, hcandidate] at hother
  · exact h a' ha r' hr' hcandidate

/-- Confirming a revision rejects no other, and only disagrees with its own attempt. -/
theorem confirmed {monitorId : UUID} {r : Revision} {t : Table Revision.id} (h : Agreement db)
    (hlineage : Lineage db) (hr : r ∈ db.revisions) (hdecidable : decidable monitorId r.id r = true)
    (hnone : ∀ a ∈ db.repairAttempts, a.candidateRevisionId ≠ some r.id)
    (ht : t = (db.revisions.update (decidable monitorId r.id) fun r =>
        { r with validationState := .active, activatedAt := some now }).update
      (otherPending monitorId r.id) fun r => { r with validationState := .rejected })
    (hrevisions : db'.revisions = t) (hattempts : db'.repairAttempts = db.repairAttempts) :
    Agreement db' := by
  have hkept : ∀ s ∈ t, s ∈ db.revisions ∨ s.id = r.id := by
    intro s' hs'
    rw [ht] at hs'
    rcases Table.mem_update_cases hs' with ⟨s, hs, hother, rfl⟩ | ⟨hs, -⟩
    · simp only [otherPending, Bool.and_eq_true, decide_eq_true_eq] at hother
      obtain ⟨⟨hmonitor, hne⟩, hpending⟩ := hother
      rcases Table.mem_update_cases hs with ⟨u, hu, hdu, rfl⟩ | ⟨hs, -⟩
      · simp [Revision.pending, ValidationState.pending] at hpending
      · obtain ⟨hown, hrp⟩ := decidable_iff.mp hdecidable
        obtain rfl := pending_unique hlineage.line hs hr hpending hrp (hmonitor.trans hown.symm)
        exact absurd rfl hne
    · rcases Table.mem_update_cases hs with ⟨u, -, hdu, rfl⟩ | ⟨hs, -⟩
      · simp only [decidable, Bool.and_eq_true, decide_eq_true_eq] at hdu
        exact Or.inr hdu.1.1
      · exact Or.inl hs
  intro a ha s hs hcandidate
  rw [hattempts] at ha
  rcases hkept s (hrevisions ▸ hs) with hs | hid
  · exact h a ha s hs hcandidate
  · exact absurd (hid ▸ hcandidate) (hnone a ha)

theorem effect (h : Agreement db) (hcoherent : Coherent db)
    (hconfirms : ConfirmsNoCandidate db call)
    (heffect : Effect call db db') : Agreement db' := by
  have hlineage := hcoherent.lineage
  cases heffect with
  | created monitorId executionId params monitors' db' hcall hinterval hmonitor henqueued =>
      exact h.of_eq henqueued.revisions henqueued.repairAttempts
  | claimed e e' executions' repairAttempts' hqueued hcall he' hexecution hattempts =>
      rcases hattempts with ⟨-, rfl⟩ | ⟨hkind, rfl⟩
      · exact h.of_eq rfl rfl
      · refine h.update rfl rfl fun a ha hp => ?_
        simp only [Bool.and_eq_true, decide_eq_true_eq] at hp
        show a.candidateRevisionId = none
        have hflight : e.inFlight = true := by
          simp [Execution.inFlight, hqueued, ExecutionState.inFlight]
        exact hlineage.undecided (hlineage.wellFounded e hexecution.mem hflight) hkind ha hp.1
  | renewed e e' executions' hrunning hcall he' hexecution => exact h.of_eq rfl rfl
  | checkQueued id m r idempotencyKey traceparent db' hcall hnew hadmitting henqueued =>
      exact h.of_eq henqueued.revisions henqueued.repairAttempts
  | dueQueued id m r limit locked db' hcall hadmitting henqueued =>
      exact h.of_eq henqueued.revisions henqueued.repairAttempts
  | confirmed m r condition hcall hmonitor hrevision hdecidable =>
      exact h.confirmed hlineage hrevision hdecidable
        (hconfirms m.id condition r hrevision hcall hdecidable) rfl rfl rfl
  | patched m params hcall hmonitor haction hinterval => exact h.of_eq rfl rfl
  | accepted m r hcall hmonitor hrevision hdecidable =>
      exact h.reviewed hlineage hrevision hdecidable rfl rfl fun a s =>
        ⟨rfl, .of_decision (Or.inr (Or.inl ⟨rfl, rfl⟩))⟩
  | rejected m r hcall hmonitor hrevision hdecidable =>
      exact h.reviewed hlineage hrevision hdecidable rfl rfl fun a s =>
        ⟨rfl, .of_decision (Or.inr (Or.inr ⟨rfl, rfl⟩))⟩
  | terminalized e e' db₁ runningStaleAfter maxAttempts limit locked hcall hattempts hretired
      hrunning hfailed =>
      have hagrees := h.retired hretired
      obtain ⟨⟨-, -, hlineage₁⟩, -, -, hwell, -⟩ := hcoherent.retired hretired
      unfold terminalizeStaleExecution
      split
      · exact hagrees.of_eq rfl rfl
      · rename_i hkind
        refine hagrees.update rfl rfl fun a ha hexecution => ?_
        show a.candidateRevisionId = none
        exact hlineage₁.undecided hwell hkind ha (of_decide_eq_true hexecution)
      · exact hagrees
  | replaced e e' db₁ db' runningStaleAfter maxAttempts limit locked hcall hattempts hretired
      hrunning hfailed hreplaced =>
      exact (h.retired hretired).replaced hreplaced
  | published outbox' locked limit publish commits hcall hevolves => exact h.of_eq rfl rfl

theorem effects (h : Agreement db) (hcoherent : Coherent db)
    (hconfirms : ∀ db, ConfirmsNoCandidate db call)
    (heffects : Relation.ReflTransGen (Effect call) db db') : Agreement db' := by
  suffices hall : Coherent db' ∧ Agreement db' from hall.2
  induction heffects with
  | refl => exact ⟨hcoherent, h⟩
  | tail _ hlast ih => exact ⟨ih.1.effect hlast, ih.2.effect ih.1 (hconfirms _) hlast⟩

theorem step (h : Agreement db) (hreachable : StoreReachable db)
    (hconfirms : ConfirmsNoCandidate db call) : Agreement (step db call) := by
  have hcoherent := coherent_of_reachable hreachable
  rcases step_cases db call with hsame | heffect | ⟨limit, locked, claimed, hcall, hok⟩ |
      ⟨runningStaleAfter, maxAttempts, limit, locked, recoveries, hcall, hok⟩ |
      ⟨store, id, result, e, e', db₁, -, -, hsettled⟩
  · rwa [hsame]
  · exact h.effect hcoherent hconfirms heffect
  · have heffects := claimDueMonitors_ok hok
    rw [← hcall] at heffects
    refine h.effects hcoherent (confirmsNoCandidate_of_operation ?_) heffects
    simp [hcall]
  · have heffects := sweepStaleExecutions_ok hok
    rw [← hcall] at heffects
    refine h.effects hcoherent (confirmsNoCandidate_of_operation ?_) heffects
    simp [hcall]
  · exact h.settled hcoherent hsettled

end Agreement

/-- A confirmation after which the tables agree was of no candidate. -/
theorem confirmsNoCandidate_of_agreement (hlineage : Lineage db) (h : Agreement db)
    (h' : Agreement (step db call)) : ConfirmsNoCandidate db call := by
  intro monitorId condition r hr hcall hdecidable a ha hcandidate
  obtain ⟨hown, hpending⟩ := decidable_iff.mp hdecidable
  obtain ⟨m, hm, hid⟩ := Database.hasMonitor_iff.mp (hlineage.revisionHoused r hr)
  obtain rfl := hid.trans hown
  rw [step_confirmMonitor hcall hm hr hdecidable] at h'
  have hactivated := (h' a ha _ (Table.mem_update_of_neg
    (Table.mem_update_of_pos hr hdecidable) (by simp [otherPending])) hcandidate).activated.mpr rfl
  have hactive := (h a ha r hr hcandidate).activated.mp hactivated
  simp [Revision.pending, hactive, ValidationState.pending] at hpending

end Preservation

/-- In every state of a run each repair attempt agrees with its candidate exactly
when no confirmation of the run is of a candidate. -/
theorem outcomes_agree_iff_confirmsNoCandidate (calls : List Call) :
    (∀ n, Agreement (stateAt step Database.empty calls n)) ↔
      ∀ n (h : n < calls.length),
        ConfirmsNoCandidate (stateAt step Database.empty calls n) calls[n] := by
  constructor
  · intro hagrees n hn
    have hafter := hagrees (n + 1)
    rw [stateAt_succ hn] at hafter
    exact confirmsNoCandidate_of_agreement
      (coherent_of_reachable (reachable_stateAt calls n)).lineage (hagrees n) hafter
  · intro hconfirms
    exact stateAt_invariant Agreement.empty
      (fun db call hreachable h hcondition => h.step hreachable hcondition) hconfirms

/-- A check finds its plan stale, the repaired plan is held for review, and the
operator confirms it. -/
def confirmedRepair : List Call :=
  [⟨0, .createMonitor ⟨"https://shop.example/item", "price of the item", 60, ""⟩⟩,
   ⟨1, .applyResult (openStore [] 3) ⟨2⟩
     { ExecutionResult.bare "succeeded" "" with plan := some (.obj []) }⟩,
   ⟨2, .confirmMonitor ⟨1⟩ ⟨⟨3⟩, none⟩⟩,
   ⟨3, .enqueueCheck ⟨1⟩ "" ""⟩,
   ⟨4, .applyResult (openStore [] 3) ⟨4⟩ (.bare "failed" "stale_extractor")⟩,
   ⟨5, .applyResult (openStore [] 3) ⟨5⟩
     { ExecutionResult.bare "succeeded" "" with plan := some (.obj []) }⟩,
   ⟨6, .confirmMonitor ⟨1⟩ ⟨⟨7⟩, none⟩⟩]

/-- After the confirmation the repaired plan is active and its attempt still a candidate. -/
theorem confirmedRepair_disagrees : ¬ ∀ db, StoreReachable db → Agreement db := by
  intro h
  have hagrees := h (run step Database.empty confirmedRepair) ⟨confirmedRepair, rfl⟩
  revert hagrees
  decide +kernel

end PriceScout.Store.RepairOutcomes
