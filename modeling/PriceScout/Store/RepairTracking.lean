import PriceScout.Store.Aborts

/-!
Each repair attempt points to the newest execution of its recovery lineage and
is queued or running when that is. Every operation that moves such an execution
or replaces it keeps its attempt in step by hand.
-/

namespace PriceScout.Store.RepairTracking

open PriceScout.Domain
open PriceScout.Library.JsonDocuments
open PriceScout.Library.Runs
open PriceScout.Library.Tables
open PriceScout.Store.Aborts
open PriceScout.Store.Alerts
open PriceScout.Store.Effects
open PriceScout.Store.Executions
open PriceScout.Store.Generations
open PriceScout.Store.Inversions
open PriceScout.Store.Lifecycles
open PriceScout.Store.Monitors
open PriceScout.Store.Operations
open PriceScout.Store.Persistence
open PriceScout.Store.Provenance
open PriceScout.Store.Recovery
open PriceScout.Store.Schema

/-- The attempt points to the execution, the newest one to repair its generation. -/
structure Linked (db : Database) (a : RepairAttempt) (e : Execution) : Prop where
  executionId : a.executionId = e.id
  kind : e.kind = .repair
  monitorId : e.monitorId = a.monitorId
  requestedGeneration : e.requestedGeneration = some a.failedGeneration
  newest : ∀ s ∈ db.executions, s.recoveryOf ≠ some e.id

/-- The attempt is queued or running exactly when the execution is. -/
structure InStep (a : RepairAttempt) (e : Execution) : Prop where
  queued : a.state = .queued ↔ e.state = .queued
  running : a.state = .running ↔ e.state = .running

/-- Every attempt is linked to an execution, and in step with it unless it is the
exempted one. -/
def TrackedBut (exempt : Option UUID) (db : Database) : Prop :=
  ∀ a ∈ db.repairAttempts, ∃ e ∈ db.executions,
    Linked db a e ∧ (some a.executionId ≠ exempt → InStep a e)

/-- Every repair attempt tracks its execution. -/
def Tracked (db : Database) : Prop :=
  ∀ a ∈ db.repairAttempts, ∃ e ∈ db.executions, Linked db a e ∧ InStep a e

/-- What a change of state leaves alone in a repair attempt. -/
structure SameLink (a a' : RepairAttempt) : Prop where
  executionId : a'.executionId = a.executionId
  monitorId : a'.monitorId = a.monitorId
  failedGeneration : a'.failedGeneration = a.failedGeneration

theorem SameLink.refl (a : RepairAttempt) : SameLink a a :=
  ⟨rfl, rfl, rfl⟩

theorem inStep_of_over {a : RepairAttempt} {e : Execution} (hterminal : e.inFlight = false)
    (hqueued : a.state ≠ .queued) (hrunning : a.state ≠ .running) : InStep a e := by
  unfold Execution.inFlight at hterminal
  constructor <;> constructor <;> intro h
  · exact absurd h hqueued
  · simp [h, ExecutionState.inFlight] at hterminal
  · exact absurd h hrunning
  · simp [h, ExecutionState.inFlight] at hterminal

section Preservation

variable {now : Timestamp} {db db' db₁ : Database} {e e' n : Execution} {call : Call}
  {exempt : Option UUID}

theorem Tracked.but (h : Tracked db) (exempt : Option UUID) : TrackedBut exempt db := by
  intro a ha
  obtain ⟨e, he, hlinked, hstep⟩ := h a ha
  exact ⟨e, he, hlinked, fun _ => hstep⟩

theorem TrackedBut.tracked (h : TrackedBut none db) : Tracked db := by
  intro a ha
  obtain ⟨e, he, hlinked, hstep⟩ := h a ha
  exact ⟨e, he, hlinked, hstep (by simp)⟩

theorem Linked.congr {a a' : RepairAttempt} (h : Linked db a e) (hjob : SameJob e e')
    (hlink : SameLink a a') (hnewest : ∀ s ∈ db'.executions, s.recoveryOf ≠ some e.id) :
    Linked db' a' e' where
  executionId := by rw [hlink.executionId, h.executionId, hjob.id]
  kind := hjob.kind.trans h.kind
  monitorId := by rw [hjob.monitorId, h.monitorId, hlink.monitorId]
  requestedGeneration := by
    rw [hjob.requestedGeneration, h.requestedGeneration, hlink.failedGeneration]
  newest := by rwa [hjob.id]

namespace TrackedBut

/-- The executions stay, and every attempt out of step is the exempted one. -/
theorem evolves (h : TrackedBut exempt db) (hexecutions : db'.executions = db.executions)
    (hattempts : ∀ a' ∈ db'.repairAttempts, ∃ a ∈ db.repairAttempts, SameLink a a' ∧
      ∀ e ∈ db.executions, Linked db a e → (some a.executionId ≠ exempt → InStep a e) →
        InStep a' e) : Tracked db' := by
  intro a' ha'
  obtain ⟨a, ha, hlink, hstep⟩ := hattempts a' ha'
  obtain ⟨e, he, hlinked, hinStep⟩ := h a ha
  refine ⟨e, hexecutions ▸ he, hlinked.congr (SameJob.refl e) hlink ?_, hstep e he hlinked hinStep⟩
  rw [hexecutions]
  exact hlinked.newest

/-- Closing the attempt of an execution that has been made terminal. -/
theorem closed {f : RepairAttempt → RepairAttempt} {hf : ∀ a, (f a).id = a.id}
    (h : TrackedBut (some e.id) db) (he' : e' ∈ db.executions) (hid : e'.id = e.id)
    (hterminal : e'.inFlight = false) (hexecutions : db'.executions = db.executions)
    (hattempts : db'.repairAttempts =
      db.repairAttempts.update (fun a => decide (a.executionId = e.id)) f hf)
    (hassign : ∀ a, SameLink a (f a) ∧ (f a).state ≠ .queued ∧ (f a).state ≠ .running) :
    Tracked db' := by
  refine h.evolves hexecutions fun a' ha' => ?_
  rw [hattempts] at ha'
  rcases Table.mem_update_cases ha' with ⟨a, ha, hp, rfl⟩ | ⟨ha', hp⟩
  · refine ⟨a, ha, (hassign a).1, fun s hs hlinked _ => ?_⟩
    obtain rfl := Table.eq_of_key_eq hs he'
      (hlinked.executionId.symm.trans ((of_decide_eq_true hp).trans hid.symm))
    exact inStep_of_over hterminal (hassign a).2.1 (hassign a).2.2
  · refine ⟨a', ha', SameLink.refl a', fun s _ _ hstep => hstep fun hsame => ?_⟩
    simp [Option.some.inj hsame] at hp

/-- No attempt points to an execution that is not a repair. -/
theorem of_not_repair (h : TrackedBut (some e.id) db) (he' : e' ∈ db.executions)
    (hid : e'.id = e.id) (hkind : e'.kind ≠ .repair) : Tracked db := by
  intro a ha
  obtain ⟨s, hs, hlinked, hstep⟩ := h a ha
  refine ⟨s, hs, hlinked, hstep fun hsame => hkind ?_⟩
  obtain rfl := Table.eq_of_key_eq hs he'
    (hlinked.executionId.symm.trans ((Option.some.inj hsame).trans hid.symm))
  exact hlinked.kind

end TrackedBut

namespace Tracked

theorem empty : Tracked Database.empty :=
  fun a ha => absurd ha (Table.not_mem_empty a)

theorem of_eq (h : Tracked db) (hexecutions : db'.executions = db.executions)
    (hattempts : db'.repairAttempts = db.repairAttempts) : Tracked db' := by
  refine (h.but none).evolves hexecutions fun a ha => ?_
  exact ⟨a, hattempts ▸ ha, SameLink.refl a, fun _ _ _ hstep => hstep (by simp)⟩

/-- An execution that replaces no repair. -/
theorem appended (h : Tracked db) (happended : db.executions.Appended n db'.executions)
    (hattempts : db'.repairAttempts = db.repairAttempts)
    (hreplaces : ∀ s ∈ db.executions, s.kind = .repair → n.recoveryOf ≠ some s.id) :
    Tracked db' := by
  intro a ha
  obtain ⟨e, he, hlinked, hstep⟩ := h a (hattempts ▸ ha)
  refine ⟨e, happended.mem_of_mem he, hlinked.congr (SameJob.refl e) (SameLink.refl a) ?_, hstep⟩
  exact Table.forall_appended happended hlinked.newest (hreplaces e he hlinked.kind)

/-- An execution moves, and its attempt may change its state with it. -/
theorem substituted (h : Tracked db) (hsubstituted : db.executions.Substituted e e' db'.executions)
    (hjob : SameJob e e')
    (hattempts : ∀ a' ∈ db'.repairAttempts, ∃ a ∈ db.repairAttempts, SameLink a a' ∧
      (a.executionId ≠ e.id → a'.state = a.state) ∧
      (a.executionId = e.id → e.kind = .repair → InStep a e → some e.id ≠ exempt →
        InStep a' e')) : TrackedBut exempt db' := by
  have hnewest : ∀ {id : UUID}, (∀ s ∈ db.executions, s.recoveryOf ≠ some id) →
      ∀ s ∈ db'.executions, s.recoveryOf ≠ some id := by
    intro id hnone s hs
    rcases hsubstituted.mem_cases hs with ⟨hs, -⟩ | rfl
    · exact hnone s hs
    · rw [hjob.recoveryOf]
      exact hnone e hsubstituted.mem
  intro a' ha'
  obtain ⟨a, ha, hlink, hkept, hmoved⟩ := hattempts a' ha'
  obtain ⟨s, hs, hlinked, hstep⟩ := h a ha
  by_cases hid : s.id = e.id
  · obtain rfl := Table.eq_of_key_eq hs hsubstituted.mem hid
    refine ⟨e', hsubstituted.mem_new, hlinked.congr hjob hlink (hnewest hlinked.newest),
      fun hexempt => ?_⟩
    rw [hlink.executionId, hlinked.executionId] at hexempt
    exact hmoved hlinked.executionId hlinked.kind hstep hexempt
  · refine ⟨s, hsubstituted.mem_of_ne hs hid,
      hlinked.congr (SameJob.refl s) hlink (hnewest hlinked.newest), fun _ => ?_⟩
    have hsame := hkept (fun hexecution => hid (hlinked.executionId.symm.trans hexecution))
    exact ⟨hsame ▸ hstep.queued, hsame ▸ hstep.running⟩

theorem retired (h : Tracked db) (hretired : Retired db e e' db') : TrackedBut (some e.id) db' := by
  refine h.substituted hretired.substituted hretired.sameJob fun a ha => ?_
  rw [hretired.repairAttempts] at ha
  exact ⟨a, ha, SameLink.refl a, fun _ => rfl, fun _ _ _ hexempt => absurd rfl hexempt⟩

/-- What is known of the executions and attempts once an execution is made terminal. -/
structure Closing (db : Database) (e e' : Execution) : Prop where
  retiring : Coherent.Retiring db e
  linear : Linear db.executions
  mem : e' ∈ db.executions
  sameJob : SameJob e e'
  terminal : e'.inFlight = false
  tracked : TrackedBut (some e.id) db

theorem closing (h : Tracked db) (hcoherent : Coherent db) (hlinear : Linear db.executions)
    (hretired : Retired db e e' db') : Closing db' e e' where
  retiring := hcoherent.retired hretired
  linear := hlinear.evolves (.of_substituted Progressed.refl hretired.substituted
    (progressed_of_ended hretired.inFlight hretired.terminal hretired.sameJob))
  mem := hretired.substituted.mem_new
  sameJob := hretired.sameJob
  terminal := hretired.terminal
  tracked := h.retired hretired

end Tracked

/-- Nothing recovers an execution that has just been inserted. -/
theorem newest_appended {t t' : Table Execution.id} (h : Linear t) (happended : t.Appended n t')
    (hother : n.recoveryOf ≠ some n.id) : ∀ s ∈ t', s.recoveryOf ≠ some n.id := by
  refine Table.forall_appended happended (fun s hs hrecovery => ?_) hother
  obtain ⟨p, hp, hid, -⟩ := h.parent s hs n.id hrecovery
  exact happended.key_ne hp hid

namespace Tracked.Closing

theorem of_not_repair (h : Closing db e e') (hkind : e.kind ≠ .repair) : Tracked db :=
  h.tracked.of_not_repair h.mem h.sameJob.id (by rwa [h.sameJob.kind])

/-- The replacement of a repair takes over its attempt. -/
theorem repointed {id : UUID} (h : Closing db e e') (hkind : e.kind = .repair)
    (henqueued : Enqueued now db (replacementExecution now id e) "" db') :
    Tracked { db' with repairAttempts := repointedAttempts db e id } := by
  have happended := henqueued.appended
  have hfresh : e.id ≠ id := h.sameJob.id ▸ happended.key_ne h.mem
  intro a' ha'
  rcases Table.mem_update_cases ha' with ⟨a, ha, hp, rfl⟩ | ⟨ha, hp⟩
  · have hexecution : a.executionId = e.id := of_decide_eq_true hp
    obtain ⟨s, hs, hlinked, -⟩ := h.tracked a ha
    obtain rfl := Table.eq_of_key_eq hs h.mem
      (hlinked.executionId.symm.trans (hexecution.trans h.sameJob.id.symm))
    refine ⟨_, happended.mem,
      ⟨rfl, hkind, ?_, ?_, ?_⟩, by simp [replacementExecution, newExecution],
      by simp [replacementExecution, newExecution]⟩
    · exact h.sameJob.monitorId.symm.trans hlinked.monitorId
    · exact h.sameJob.requestedGeneration.symm.trans hlinked.requestedGeneration
    · exact newest_appended h.linear happended fun hsame => hfresh (Option.some.inj hsame)
  · have hexecution : a'.executionId ≠ e.id := of_decide_eq_false hp
    obtain ⟨s, hs, hlinked, hstep⟩ := h.tracked a' ha
    refine ⟨s, happended.mem_of_mem hs, hlinked.congr (SameJob.refl s) (SameLink.refl a') ?_,
      hstep fun hsame => hexecution (Option.some.inj hsame)⟩
    refine Table.forall_appended happended hlinked.newest fun hsame => hexecution ?_
    exact hlinked.executionId.trans (Option.some.inj hsame).symm

theorem replaced (h : Closing db e e') (hreplaced : Replaced now db e db') : Tracked db' := by
  cases hreplaced with
  | repointed id db' a hkind hmem hexecution henqueued => exact h.repointed hkind henqueued
  | enqueued id db' hkind henqueued =>
      refine (h.of_not_repair hkind).appended henqueued.appended henqueued.repairAttempts ?_
      intro s hs hrepair hsame
      obtain rfl := Table.eq_of_key_eq hs h.mem
        ((Option.some.inj hsame).symm.trans h.sameJob.id.symm)
      exact hkind (h.sameJob.kind.symm.trans hrepair)

theorem planEffect {plan : Json} {autoPromote : Bool} (h : Closing db e e')
    (heffect : PlanEffect now e plan autoPromote db db') : Tracked db' := by
  cases heffect with
  | compiled id revisions' uuids' hkind hrevision =>
      exact (h.of_not_repair (by simp [hkind])).of_eq rfl rfl
  | promoted id failedRevisionId m revisions' uuids' hkind hauto hfailed hmem hid hcurrent
      hrevision =>
      exact h.tracked.closed h.mem h.sameJob.id h.terminal rfl rfl fun a =>
        ⟨⟨rfl, rfl, rfl⟩, by simp, by simp⟩
  | held id revisions' uuids' hkind hheld hrevision =>
      exact h.tracked.closed h.mem h.sameJob.id h.terminal rfl rfl fun a =>
        ⟨⟨rfl, rfl, rfl⟩, by simp, by simp⟩

theorem repairQueued {id attemptId : UUID} {generation uuids' : Nat}
    {repairAttempts' : Table RepairAttempt.id} (h : Closing db e e') (hkind : e.kind = .check)
    (hattempt : db.repairAttempts.Appended
      (newRepairAttempt now attemptId e.monitorId generation id) repairAttempts')
    (henqueued : Enqueued now db (repairExecution now id e generation) "" db') :
    Tracked (holdForReview now e.monitorId
      { db' with repairAttempts := repairAttempts', uuids := uuids' }) := by
  have happended := henqueued.appended
  have hinserted : Tracked db' := (h.of_not_repair (by simp [hkind])).appended happended
    henqueued.repairAttempts fun s _ _ hsame => nomatch hsame
  refine Table.forall_appended hattempt ?_ ?_
  · intro a ha
    obtain ⟨s, hs, hlinked, hstep⟩ := hinserted a (henqueued.repairAttempts ▸ ha)
    exact ⟨s, hs, hlinked.congr (SameJob.refl s) (SameLink.refl a) hlinked.newest, hstep⟩
  · exact ⟨_, happended.mem,
      ⟨rfl, rfl, rfl, rfl, newest_appended h.linear happended fun hsame => nomatch hsame⟩,
      by simp [newRepairAttempt, repairExecution, newExecution],
      by simp [newRepairAttempt, repairExecution, newExecution]⟩

theorem failureEffect {store : OpenStore} {result : ExecutionResult} (h : Closing db e e')
    (heffect : FailureEffect store now e result db db') : Tracked db' := by
  cases heffect with
  | retried db' hretry hreplaced => exact h.replaced hreplaced
  | compileFailed hkind => exact (h.of_not_repair (by simp [hkind])).of_eq rfl rfl
  | repairFailed hkind =>
      exact h.tracked.closed h.mem h.sameJob.id h.terminal rfl rfl fun a =>
        ⟨⟨rfl, rfl, rfl⟩, by simp, by simp⟩
  | checkFailed hkind hfresh =>
      have htracked := h.of_not_repair (by simp [hkind])
      unfold applyCheckFailure
      split
      · exact htracked.of_eq rfl rfl
      · split <;> exact htracked.of_eq rfl rfl
  | repairExists a hkind => exact h.of_not_repair (by simp [hkind])
  | repairQueued id attemptId generation repairAttempts' uuids' db' hkind hstale hgeneration hnone
      hattempt henqueued =>
      exact h.repairQueued hkind hattempt henqueued

end Tracked.Closing

namespace Tracked

theorem reaction {store : OpenStore} {m : Monitor} {o : Observation} (h : Tracked db)
    (hreaction : Reaction store now e m o db db') : Tracked db' := by
  cases hreaction with
  | diagnostic | unchanged => exact h
  | latched | alerted => exact h.of_eq rfl rfl
  | confirmationQueued id db' hkind hverified hordinary hmatched hprevious henqueued =>
      exact h.appended henqueued.appended henqueued.repairAttempts fun s _ _ hsame => nomatch hsame

theorem recorded {observation : ResultObservation} {m : Monitor} {o : Observation}
    (h : Tracked db) (hrecorded : Recorded now e observation db m o db') : Tracked db' :=
  h.of_eq hrecorded.executions hrecorded.unchanged.2.2.1

theorem settled {store : OpenStore} {executionId : UUID} {result : ExecutionResult}
    (h : Tracked db) (hcoherent : Coherent db) (hlinear : Linear db.executions)
    (hsettled : Settled store now executionId result db e e' db₁ db') : Tracked db' := by
  have hclosing := h.closing hcoherent hlinear hsettled.retired
  cases hsettled.outcome with
  | planned plan db' hstatus hkind hplan heffect hobservation => exact hclosing.planEffect heffect
  | plannedAndRecorded plan observation m o db₂ db' hstatus hkind hplan heffect hobservation
      hrecorded =>
      exact (hclosing.planEffect heffect).recorded hrecorded
  | observed observation m o db₂ db' hstatus hkind hobservation hrecorded hreaction =>
      exact ((hclosing.of_not_repair (by simp [hkind])).recorded hrecorded).reaction hreaction
  | failed db' hstatus heffect => exact hclosing.failureEffect heffect

/-- Claiming a queued repair starts its attempt with it. -/
theorem claimed {t : Table RepairAttempt.id} (h : Tracked db)
    (hsubstituted : db.executions.Substituted e e' db'.executions) (hjob : SameJob e e')
    (hqueued : e.state = .queued) (hrunning : e'.state = .running)
    (hattempts : e.kind ≠ .repair ∧ t = db.repairAttempts ∨ e.kind = .repair ∧
      t = db.repairAttempts.update
        (fun a => decide (a.executionId = e.id) && decide (a.state = .queued))
        fun a => { a with state := .running })
    (ht : db'.repairAttempts = t) : Tracked db' := by
  refine TrackedBut.tracked (h.substituted hsubstituted hjob fun a' ha' => ?_)
  rw [ht] at ha'
  rcases hattempts with ⟨hkind, rfl⟩ | ⟨-, rfl⟩
  · exact ⟨a', ha', SameLink.refl a', fun _ => rfl, fun _ hrepair => absurd hrepair hkind⟩
  rcases Table.mem_update_cases ha' with ⟨a, ha, hp, rfl⟩ | ⟨ha, hp⟩
  · simp only [Bool.and_eq_true, decide_eq_true_eq] at hp
    exact ⟨a, ha, ⟨rfl, rfl, rfl⟩, fun hne => absurd hp.1 hne,
      fun _ _ _ _ => ⟨by simp [hrunning], by simp [hrunning]⟩⟩
  · refine ⟨a', ha, SameLink.refl a', fun _ => rfl, fun hexecution _ hstep _ => ?_⟩
    simp [hexecution, hstep.queued.mpr hqueued] at hp

/-- A review decides on attempts whose execution is over. -/
theorem reviewed {p : RepairAttempt → Bool} {f : RepairAttempt → RepairAttempt}
    {hf : ∀ a, (f a).id = a.id} (h : Tracked db) (hlineage : Lineage db)
    (hexecutions : db'.executions = db.executions)
    (hattempts : db'.repairAttempts = db.repairAttempts.update p f hf)
    (hcandidate : ∀ a, p a = true → a.candidateRevisionId ≠ none)
    (hassign : ∀ a, SameLink a (f a) ∧ (f a).state ≠ .queued ∧ (f a).state ≠ .running) :
    Tracked db' := by
  refine (h.but none).evolves hexecutions fun a' ha' => ?_
  rw [hattempts] at ha'
  rcases Table.mem_update_cases ha' with ⟨a, ha, hp, rfl⟩ | ⟨ha, -⟩
  · refine ⟨a, ha, (hassign a).1, fun s hs hlinked _ => ?_⟩
    refine inStep_of_over ?_ (hassign a).2.1 (hassign a).2.2
    by_contra hflight
    have hwell := hlineage.wellFounded s hs (by simpa using hflight)
    exact hcandidate a hp (hlineage.undecided hwell hlinked.kind ha hlinked.executionId)
  · exact ⟨a', ha, SameLink.refl a', fun s _ _ hstep => hstep (by simp)⟩

theorem effect (h : Tracked db) (hcoherent : Coherent db) (hlinear : Linear db.executions)
    (heffect : Effect call db db') : Tracked db' := by
  cases heffect with
  | created monitorId executionId params monitors' db' hcall hinterval hmonitor henqueued =>
      have hcreated : Tracked { db with monitors := monitors' } := h.of_eq rfl rfl
      exact hcreated.appended henqueued.appended henqueued.repairAttempts fun s _ _ hsame =>
        nomatch hsame
  | claimed e e' executions' repairAttempts' hqueued hcall he' hexecution hattempts =>
      refine h.claimed hexecution ?_ hqueued (by rw [he']) hattempts rfl
      rw [he']
      exact ⟨rfl, rfl, rfl, rfl, rfl, rfl, rfl, rfl, rfl⟩
  | renewed e e' executions' hrunning hcall he' hexecution =>
      refine TrackedBut.tracked (h.substituted hexecution ?_ fun a ha => ?_)
      · rw [he']
        exact ⟨rfl, rfl, rfl, rfl, rfl, rfl, rfl, rfl, rfl⟩
      · refine ⟨a, ha, SameLink.refl a, fun _ => rfl, fun _ _ hstep _ => ?_⟩
        rw [he']
        exact ⟨hstep.queued, hstep.running⟩
  | checkQueued id m r idempotencyKey traceparent db' hcall hnew hadmitting henqueued =>
      exact h.appended henqueued.appended henqueued.repairAttempts fun s _ _ hsame => nomatch hsame
  | dueQueued id m r limit locked db' hcall hadmitting henqueued =>
      exact h.appended henqueued.appended henqueued.repairAttempts fun s _ _ hsame => nomatch hsame
  | confirmed | patched | published => exact h.of_eq rfl rfl
  | accepted m r hcall hmonitor hrevision hdecidable =>
      refine h.reviewed hcoherent.lineage rfl rfl (fun a hp => ?_) fun a =>
        ⟨⟨rfl, rfl, rfl⟩, by simp, by simp⟩
      simp only [Bool.and_eq_true, decide_eq_true_eq] at hp
      simp [hp.2]
  | rejected m r hcall hmonitor hrevision hdecidable =>
      refine h.reviewed hcoherent.lineage rfl rfl (fun a hp => ?_) fun a =>
        ⟨⟨rfl, rfl, rfl⟩, by simp, by simp⟩
      simp only [Bool.and_eq_true, decide_eq_true_eq] at hp
      simp [hp.2]
  | terminalized e e' db₁ runningStaleAfter maxAttempts limit locked hcall hattempts hretired
      hrunning hfailed =>
      have hclosing := h.closing hcoherent hlinear hretired
      unfold terminalizeStaleExecution
      split
      · rename_i hkind
        exact (hclosing.of_not_repair (by simp [hkind])).of_eq rfl rfl
      · exact hclosing.tracked.closed hclosing.mem hclosing.sameJob.id hclosing.terminal rfl rfl
          fun a => ⟨⟨rfl, rfl, rfl⟩, by simp, by simp⟩
      · rename_i hkind
        exact hclosing.of_not_repair (by simp [hkind])
  | replaced e e' db₁ db' runningStaleAfter maxAttempts limit locked hcall hattempts hretired
      hrunning hfailed hreplaced =>
      exact (h.closing hcoherent hlinear hretired).replaced hreplaced

theorem step (h : Tracked db) (hreachable : StoreReachable db) (call : Call) :
    Tracked (step db call) := by
  have hcoherent := coherent_of_reachable hreachable
  have hlinear := linear_of_reachable hreachable
  rcases step_effects db call with heffects | ⟨store, id, result, e, e', db₁, -, hsettled⟩
  · generalize Operations.step db call = s' at heffects ⊢
    suffices hall : Coherent s' ∧ Linear s'.executions ∧ Tracked s' from hall.2.2
    induction heffects with
    | refl => exact ⟨hcoherent, hlinear, h⟩
    | tail _ hlast ih =>
        obtain ⟨hcoherent, hlinear, htracked⟩ := ih
        exact ⟨hcoherent.effect hlast, hlinear.allWorked (worked_of_effect hlast),
          htracked.effect hcoherent hlinear hlast⟩
  · exact h.settled hcoherent hlinear hsettled

end Tracked

/-- Every repair in flight has its one attempt. -/
theorem exists_unique_attempt (h : Lineage db) (he : e ∈ db.executions) (hkind : e.kind = .repair)
    (hflight : e.inFlight = true) : ∃! a, a ∈ db.repairAttempts ∧ a.executionId = e.id := by
  obtain ⟨generation, -, -, a, ha, -, -, hexecution, -⟩ := (h.wellFounded e he hflight).2 hkind
  exact ⟨a, ⟨ha, hexecution⟩, fun b hb =>
      h.attempts.execution b hb.1 a ha (hb.2.trans hexecution.symm)⟩

end Preservation

/-- In every state of every run the repair attempts track their executions, the
repairs in flight have one attempt each, and none is found without its attempt. -/
theorem attempts_track_executions (calls : List Call) (n : Nat) :
    Tracked (stateAt step Database.empty calls n) ∧
      (∀ e ∈ (stateAt step Database.empty calls n).executions, e.kind = .repair →
        e.inFlight = true → ∃! a,
          a ∈ (stateAt step Database.empty calls n).repairAttempts ∧ a.executionId = e.id) ∧
      ∀ call, Avoids missesRepairAttempt (outcome (stateAt step Database.empty calls n) call) := by
  have hreachable : StoreReachable (stateAt step Database.empty calls n) :=
    reachable_stateAt calls n
  refine ⟨?_, fun e he hkind hflight => ?_, fun call error herror hmisses => ?_⟩
  · exact Reachable.invariant (P := Tracked) Tracked.empty
      (fun db call hreachable h => h.step hreachable call) hreachable
  · exact exists_unique_attempt (coherent_of_reachable hreachable).lineage he hkind hflight
  · exact avoids_outcome hreachable call error herror (Or.inr hmisses)

end PriceScout.Store.RepairTracking
