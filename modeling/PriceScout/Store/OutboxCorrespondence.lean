import Mathlib.Data.Set.Function
import PriceScout.Store.Aborts

/-!
Executions and outbox rows correspond one to one, and the two of a pair are
written by one transaction.
-/

namespace PriceScout.Store.OutboxCorrespondence

open PriceScout.Domain
open PriceScout.Library.JsonDocuments
open PriceScout.Library.Runs
open PriceScout.Library.Tables
open PriceScout.Store.Aborts
open PriceScout.Store.Alerts
open PriceScout.Store.Effects
open PriceScout.Store.Executions
open PriceScout.Store.Inversions
open PriceScout.Store.Lifecycles
open PriceScout.Store.Operations
open PriceScout.Store.Outbox
open PriceScout.Store.Persistence
open PriceScout.Store.Recovery
open PriceScout.Store.Schema

/-- The message of the row announces the execution. -/
structure Announces (row : OutboxRow) (e : Execution) : Prop where
  subject : row.subject = "scout.monitor." ++ e.kind.string
  executionId : row.payload.executionId = e.id
  monitorId : row.payload.monitorId = e.monitorId
  revisionId : row.payload.revisionId = e.revisionId

/-- The execution that a row names is a bijection between rows and executions. -/
structure Corresponds (db : Database) : Prop where
  bijection : Set.BijOn (fun row => row.payload.executionId) {row | row ∈ db.outbox}
    {id | db.hasExecution id}
  announces : ∀ row ∈ db.outbox, ∀ e ∈ db.executions, row.payload.executionId = e.id →
    Announces row e

/-- A row is new exactly when its execution is. -/
def WrittenTogether (db db' : Database) : Prop :=
  ∀ row ∈ db'.outbox,
    db.hasExecution row.payload.executionId ↔ ∃ s ∈ db.outbox, s.id = row.id

/-- Every execution has its row, every row its execution, and no two rows share one. -/
structure Paired (db : Database) : Prop where
  announced : ∀ e ∈ db.executions, ∃ row ∈ db.outbox, Announces row e
  announcing : ∀ row ∈ db.outbox, ∃ e ∈ db.executions, Announces row e
  single : ∀ row ∈ db.outbox, ∀ s ∈ db.outbox,
    row.payload.executionId = s.payload.executionId → row = s

/-- Rows are numbered in the order of their insertion. -/
def Numbered (db : Database) : Prop :=
  ∀ row ∈ db.outbox, row.id < db.outboxIds

/-- The tables of executions and outbox rows keep their rows, or take a new pair. -/
inductive Written (db db' : Database) : Prop
  | kept (hexecutions : db.executions.Evolves SameJob db'.executions)
      (houtbox : db.outbox.Evolves Relayed db'.outbox) (hids : db'.outboxIds = db.outboxIds)
  | enqueued (now : Timestamp) (e : Execution) (traceparent : String)
      (h : Enqueued now db e traceparent db')

section Writing

variable {now : Timestamp} {db db' db₁ : Database} {e e' : Execution}

theorem written_of_eq (hexecutions : db'.executions = db.executions)
    (houtbox : db'.outbox = db.outbox) (hids : db'.outboxIds = db.outboxIds) :
    Relation.ReflTransGen Written db db' := by
  refine .single (.kept ?_ ?_ hids)
  · rw [hexecutions]
    exact .refl SameJob.refl _
  · rw [houtbox]
    exact .refl Relayed.refl _

theorem written_of_enqueued {traceparent : String} (h : Enqueued now db e traceparent db') :
    Relation.ReflTransGen Written db db' :=
  .single (.enqueued now e traceparent h)

theorem written_of_substituted (houtbox : db'.outbox = db.outbox)
    (hids : db'.outboxIds = db.outboxIds)
    (hsubstituted : db.executions.Substituted e e' db'.executions) (hjob : SameJob e e') :
    Relation.ReflTransGen Written db db' := by
  refine .single (.kept (.of_substituted SameJob.refl hsubstituted hjob) ?_ hids)
  rw [houtbox]
  exact .refl Relayed.refl _

theorem written_of_retired (h : Retired db e e' db') : Relation.ReflTransGen Written db db' := by
  have hsubstituted := h.substituted
  have hjob := h.sameJob
  obtain ⟨executions', artifacts', uuids', -, rfl⟩ := h.retired
  exact written_of_substituted rfl rfl hsubstituted hjob

theorem written_of_replaced (h : Replaced now db e db') : Relation.ReflTransGen Written db db' := by
  cases h with
  | enqueued id db' hkind henqueued => exact written_of_enqueued henqueued
  | repointed id db' a hkind hmem hexecution henqueued =>
      exact (written_of_enqueued henqueued).trans (written_of_eq rfl rfl rfl)

theorem written_terminalize {reason : String} :
    Relation.ReflTransGen Written db (terminalizeStaleExecution now e reason db) := by
  unfold terminalizeStaleExecution
  cases e.kind <;> exact written_of_eq rfl rfl rfl

theorem written_of_effect {call : Call} (h : Effect call db db') :
    Relation.ReflTransGen Written db db' := by
  cases h with
  | created monitorId executionId params monitors' db' hcall hinterval hmonitor henqueued =>
      have hinserted : Relation.ReflTransGen Written db { db with monitors := monitors' } :=
        written_of_eq rfl rfl rfl
      exact hinserted.trans (written_of_enqueued henqueued)
  | claimed e e' executions' repairAttempts' hqueued hcall he' hexecution hattempts =>
      refine written_of_substituted rfl rfl hexecution ?_
      rw [he']
      exact ⟨rfl, rfl, rfl, rfl, rfl, rfl, rfl, rfl, rfl⟩
  | renewed e e' executions' hrunning hcall he' hexecution =>
      refine written_of_substituted rfl rfl hexecution ?_
      rw [he']
      exact ⟨rfl, rfl, rfl, rfl, rfl, rfl, rfl, rfl, rfl⟩
  | checkQueued id m r idempotencyKey traceparent db' hcall hnew hadmitting henqueued =>
      exact written_of_enqueued henqueued
  | dueQueued id m r limit locked db' hcall hadmitting henqueued =>
      exact (written_of_enqueued henqueued).trans (written_of_eq rfl rfl rfl)
  | confirmed | patched | accepted | rejected => exact written_of_eq rfl rfl rfl
  | terminalized e e' db₁ runningStaleAfter maxAttempts limit locked hcall hattempts hretired
      hrunning hfailed =>
      exact (written_of_retired hretired).trans written_terminalize
  | replaced e e' db₁ db' runningStaleAfter maxAttempts limit locked hcall hattempts hretired
      hrunning hfailed hreplaced =>
      exact (written_of_retired hretired).trans (written_of_replaced hreplaced)
  | published outbox' locked limit publish commits hcall hevolves =>
      exact .single (.kept (.refl SameJob.refl _) hevolves rfl)

theorem written_of_planEffect {plan : Json} {autoPromote : Bool}
    (h : PlanEffect now e plan autoPromote db db') : Relation.ReflTransGen Written db db' := by
  cases h <;> exact written_of_eq rfl rfl rfl

theorem written_of_recorded {observation : ResultObservation} {m : Monitor} {o : Observation}
    (h : Recorded now e observation db m o db') : Relation.ReflTransGen Written db db' := by
  obtain ⟨observations', uuids', -, rfl⟩ := h.inserted
  exact written_of_eq rfl rfl rfl

theorem written_of_reaction {store : OpenStore} {m : Monitor} {o : Observation}
    (h : Reaction store now e m o db db') : Relation.ReflTransGen Written db db' := by
  cases h with
  | diagnostic | unchanged => exact .refl
  | latched | alerted => exact written_of_eq rfl rfl rfl
  | confirmationQueued id db' hkind hverified hordinary hmatched hprevious henqueued =>
      exact written_of_enqueued henqueued

theorem written_applyCheckFailure {result : ExecutionResult} :
    Relation.ReflTransGen Written db (applyCheckFailure now e result db) := by
  unfold applyCheckFailure
  split
  · exact written_of_eq rfl rfl rfl
  · split
    · exact written_of_eq rfl rfl rfl
    · exact .refl

theorem written_of_failureEffect {store : OpenStore} {result : ExecutionResult}
    (h : FailureEffect store now e result db db') : Relation.ReflTransGen Written db db' := by
  cases h with
  | retried db' hretry hreplaced => exact written_of_replaced hreplaced
  | compileFailed | repairFailed => exact written_of_eq rfl rfl rfl
  | repairExists => exact .refl
  | checkFailed => exact written_applyCheckFailure
  | repairQueued id attemptId generation repairAttempts' uuids' db' hkind hstale hgeneration hnone
      hattempt henqueued =>
      exact (written_of_enqueued henqueued).trans (written_of_eq rfl rfl rfl)

theorem written_of_settled {store : OpenStore} {executionId : UUID} {result : ExecutionResult}
    (h : Settled store now executionId result db e e' db₁ db') :
    Relation.ReflTransGen Written db db' := by
  refine (written_of_retired h.retired).trans ?_
  cases h.outcome with
  | planned plan db' hstatus hkind hplan heffect hobservation => exact written_of_planEffect heffect
  | plannedAndRecorded plan observation m o db₂ db' hstatus hkind hplan heffect hobservation
      hrecorded =>
      exact (written_of_planEffect heffect).trans (written_of_recorded hrecorded)
  | observed observation m o db₂ db' hstatus hkind hobservation hrecorded hreaction =>
      exact (written_of_recorded hrecorded).trans (written_of_reaction hreaction)
  | failed db' hstatus heffect => exact written_of_failureEffect heffect

/-- What every pair written keeps holds in every reachable state. -/
theorem invariant_of_written {Inv : Database → Prop} (hempty : Inv Database.empty)
    (hwritten : ∀ db db', Inv db → Written db db' → Inv db') {db : Database}
    (h : StoreReachable db) : Inv db := by
  have closed : ∀ {s s' : Database}, Relation.ReflTransGen Written s s' → Inv s → Inv s' := by
    intro s s' hclosure hinv
    induction hclosure with
    | refl => exact hinv
    | tail _ hlast ih => exact hwritten _ _ ih hlast
  exact StoreReachable.invariant hempty
    (fun _ _ _ hinv heffect => closed (written_of_effect heffect) hinv)
    (fun _ _ _ _ _ _ _ _ _ hinv hsettled => closed (written_of_settled hsettled) hinv) h

end Writing

section Pairs

variable {now : Timestamp} {db db' : Database} {e e' : Execution} {row row' : OutboxRow}

theorem Announces.evolves (h : Announces row e) (hrow : Relayed row row') (he : SameJob e e') :
    Announces row' e' := by
  refine ⟨?_, ?_, ?_, ?_⟩
  · rw [hrow.subject, he.kind]
    exact h.subject
  · rw [hrow.payload, he.id]
    exact h.executionId
  · rw [hrow.payload, he.monitorId]
    exact h.monitorId
  · rw [hrow.payload, he.revisionId]
    exact h.revisionId

theorem Paired.corresponds (h : Paired db) : Corresponds db := by
  refine ⟨⟨?_, ?_, ?_⟩, ?_⟩
  · intro row hrow
    obtain ⟨e, he, hannounces⟩ := h.announcing row hrow
    exact Database.hasExecution_iff.mpr ⟨e, he, hannounces.executionId.symm⟩
  · exact fun row hrow s hs hsame => h.single row hrow s hs hsame
  · intro id hid
    obtain ⟨e, he, rfl⟩ := Database.hasExecution_iff.mp hid
    obtain ⟨row, hrow, hannounces⟩ := h.announced e he
    exact ⟨row, hrow, hannounces.executionId⟩
  · intro row hrow e he hid
    obtain ⟨s, hs, hannounces⟩ := h.announcing row hrow
    obtain rfl := Table.eq_of_key_eq he hs (hid.symm.trans hannounces.executionId)
    exact hannounces

/-- Rows that keep their messages and executions that keep their jobs stay paired. -/
theorem Paired.evolves (h : Paired db) (hexecutions : db.executions.Evolves SameJob db'.executions)
    (houtbox : db.outbox.Evolves Relayed db'.outbox) : Paired db' := by
  refine ⟨fun e' he' => ?_, fun row' hrow' => ?_, fun row' hrow' s' hs' hsame => ?_⟩
  · obtain ⟨e, he, -, hjob⟩ := hexecutions.backward e' he'
    obtain ⟨row, hrow, hannounces⟩ := h.announced e he
    obtain ⟨row', hrow', -, hrelayed⟩ := houtbox.forward row hrow
    exact ⟨row', hrow', hannounces.evolves hrelayed hjob⟩
  · obtain ⟨row, hrow, -, hrelayed⟩ := houtbox.backward row' hrow'
    obtain ⟨e, he, hannounces⟩ := h.announcing row hrow
    obtain ⟨e', he', -, hjob⟩ := hexecutions.forward e he
    exact ⟨e', he', hannounces.evolves hrelayed hjob⟩
  · obtain ⟨row, hrow, hid, hrelayed⟩ := houtbox.backward row' hrow'
    obtain ⟨s, hs, hid', hrelayed'⟩ := houtbox.backward s' hs'
    rw [hrelayed.payload, hrelayed'.payload] at hsame
    obtain rfl := h.single row hrow s hs hsame
    exact Table.eq_of_key_eq hrow' hs' (hid.trans hid'.symm)

/-- An execution and its announcement are written together. -/
theorem Paired.enqueued {traceparent : String} (h : Paired db)
    (henqueued : Enqueued now db e traceparent db') : Paired db' := by
  have happended := henqueued.appended
  obtain ⟨executions', outbox', uuids', -, houtbox, rfl⟩ := henqueued.inserted
  have hnew : Announces (announcement now db.outboxIds e traceparent) e := ⟨rfl, rfl, rfl, rfl⟩
  -- the rows of before name executions of before
  have hfresh : ∀ row ∈ db.outbox, row.payload.executionId ≠ e.id := by
    intro row hrow hid
    obtain ⟨s, hs, hannounces⟩ := h.announcing row hrow
    exact happended.key_ne hs (hannounces.executionId.symm.trans hid)
  refine ⟨?_, ?_, ?_⟩
  · refine Table.forall_appended happended (fun s hs => ?_) ⟨_, houtbox.mem, hnew⟩
    obtain ⟨row, hrow, hannounces⟩ := h.announced s hs
    exact ⟨row, houtbox.mem_of_mem hrow, hannounces⟩
  · refine Table.forall_appended houtbox (fun row hrow => ?_) ⟨e, happended.mem, hnew⟩
    obtain ⟨s, hs, hannounces⟩ := h.announcing row hrow
    exact ⟨s, happended.mem_of_mem hs, hannounces⟩
  · intro row hrow s hs hsame
    rcases houtbox.mem_iff.mp hrow with hrow | rfl <;> rcases houtbox.mem_iff.mp hs with hs | rfl
    · exact h.single row hrow s hs hsame
    · exact absurd hsame (hfresh row hrow)
    · exact absurd hsame.symm (hfresh s hs)
    · rfl

theorem Paired.empty : Paired Database.empty :=
  ⟨fun e he => absurd he (Table.not_mem_empty e), fun row hrow =>
      absurd hrow (Table.not_mem_empty row),
    fun row hrow => absurd hrow (Table.not_mem_empty row)⟩

theorem Paired.written (h : Paired db) (hwritten : Written db db') : Paired db' := by
  cases hwritten with
  | kept hexecutions houtbox hids => exact h.evolves hexecutions houtbox
  | enqueued now e traceparent henqueued => exact h.enqueued henqueued

theorem Numbered.written (h : Numbered db) (hwritten : Written db db') : Numbered db' := by
  cases hwritten with
  | kept hexecutions houtbox hids =>
      intro row' hrow'
      obtain ⟨row, hrow, hkey, -⟩ := houtbox.backward row' hrow'
      rw [hids, hkey]
      exact h row hrow
  | enqueued now e traceparent henqueued =>
      obtain ⟨executions', outbox', uuids', -, houtbox, rfl⟩ := henqueued.inserted
      refine Table.forall_appended houtbox (fun row hrow => ?_) (Nat.lt_succ_self _)
      exact (h row hrow).trans (Nat.lt_succ_self _)

/-- What two paired states have written between them, they have written in pairs. -/
theorem Paired.writtenTogether (h : Paired db) (h' : Paired db') (hpersists : Persists db db') :
    WrittenTogether db db' := by
  intro row' hrow'
  constructor
  · intro hexecution
    obtain ⟨e, he, hid⟩ := Database.hasExecution_iff.mp hexecution
    obtain ⟨row, hrow, hannounces⟩ := h.announced e he
    obtain ⟨s', hs', hkey, hrelayed⟩ := hpersists.outbox row hrow
    have hsame : s'.payload.executionId = row'.payload.executionId := by
      rw [hrelayed.payload, hannounces.executionId, hid]
    obtain rfl := h'.single s' hs' row' hrow' hsame
    exact ⟨row, hrow, hkey.symm⟩
  · rintro ⟨row, hrow, hkey⟩
    obtain ⟨e, he, hannounces⟩ := h.announcing row hrow
    obtain ⟨s', hs', hkey', hrelayed⟩ := hpersists.outbox row hrow
    obtain rfl := Table.eq_of_key_eq hs' hrow' (hkey'.trans hkey)
    rw [hrelayed.payload]
    exact Database.hasExecution_iff.mpr ⟨e, he, hannounces.executionId.symm⟩

end Pairs

theorem paired_of_reachable {db : Database} (h : StoreReachable db) : Paired db :=
  invariant_of_written Paired.empty (fun _ _ => Paired.written) h

theorem numbered_of_reachable {db : Database} (h : StoreReachable db) : Numbered db :=
  invariant_of_written (fun row hrow => absurd hrow (Table.not_mem_empty row))
    (fun _ _ => Numbered.written) h

/-- In every state of a run, executions and outbox rows correspond one to one; every
transaction of it writes the two of a pair together, and writes neither when it fails. -/
theorem outbox_corresponds (calls : List Call) :
    (∀ n, Corresponds (stateAt step Database.empty calls n)) ∧
      ∀ n (h : n < calls.length),
        WrittenTogether (stateAt step Database.empty calls n)
          (stateAt step Database.empty calls (n + 1)) ∧
        ∀ error, outcome (stateAt step Database.empty calls n) calls[n] = .error error →
          stateAt step Database.empty calls (n + 1) = stateAt step Database.empty calls n := by
  refine ⟨fun n => (paired_of_reachable (reachable_stateAt calls n)).corresponds, fun n hn => ?_⟩
  constructor
  · have hreachable : StoreReachable (stateAt step Database.empty calls n) :=
      reachable_stateAt calls n
    rw [stateAt_succ hn]
    exact (paired_of_reachable hreachable).writtenTogether
      (paired_of_reachable (hreachable.next calls[n])) (.step _ _)
  · intro error herror
    rw [stateAt_succ hn, step_eq, herror]

end PriceScout.Store.OutboxCorrespondence
