import PriceScout.Store.Effects

/-!
Every operation of the store, when it commits, has one of the effects.
-/

namespace PriceScout.Store.Inversions

open PriceScout.Domain
open PriceScout.Library.GoStrings
open PriceScout.Library.JsonDocuments
open PriceScout.Library.Runs
open PriceScout.Library.Tables
open PriceScout.Store.Alerts
open PriceScout.Store.Effects
open PriceScout.Store.Executions
open PriceScout.Store.Monitors
open PriceScout.Store.Operations
open PriceScout.Store.Outbox
open PriceScout.Store.Recovery
open PriceScout.Store.Schema

variable {now : Timestamp} {db db' : Database}

theorem insertOutbox_ok {subject : String} {message : WorkMessage}
    (h : insertOutbox db now subject message = .ok db') :
    ∃ outbox', db.outbox.Appended
      { id := db.outboxIds, subject := subject, payload := message, publishedAt := none,
        attempts := 0, lastError := none, createdAt := now } outbox' ∧
      db' = { db with outbox := outbox', outboxIds := db.outboxIds + 1 } := by
  simp only [insertOutbox, bind_eq_ok] at h
  obtain ⟨outbox', hinsert, h⟩ := h
  exact ⟨outbox', appended_of_insertRow hinsert, (pure_eq_ok.mp h).symm⟩

/-- An execution and its message, with changes to the repair attempts between. -/
theorem enqueued_of_inserts {db₁ : Database} {e : Execution} {drawn : Nat}
    {repairAttempts' : Table RepairAttempt.id} {uuids' : Nat} (traceparent : String)
    (hqueued : e.state = .queued)
    (hinsert : ({ db with uuids := drawn } : Database).insertExecution e = .ok db₁)
    (hmessage : insertOutbox { db₁ with repairAttempts := repairAttempts', uuids := uuids' } now
      (recoverySubject e.kind) (workMessage e.id e.monitorId e.revisionId traceparent) = .ok db') :
    ∃ db₂, Enqueued now db e traceparent db₂ ∧
      db' = { db₂ with repairAttempts := repairAttempts' } := by
  obtain ⟨executions', happended, rfl, hmonitor, hrevision, hrecovery⟩ :=
    Database.insertExecution_ok hinsert
  obtain ⟨outbox', houtbox, rfl⟩ := insertOutbox_ok hmessage
  exact ⟨_, ⟨hqueued, hmonitor, hrevision, hrecovery, executions', outbox', uuids', happended,
    houtbox, rfl⟩, rfl⟩

theorem enqueued_of_insert {db₁ : Database} {e : Execution} {traceparent : String} {drawn : Nat}
    (hqueued : e.state = .queued)
    (hinsert : ({ db with uuids := drawn } : Database).insertExecution e = .ok db₁)
    (hmessage : insertOutbox db₁ now (recoverySubject e.kind)
      (workMessage e.id e.monitorId e.revisionId traceparent) = .ok db') :
    Enqueued now db e traceparent db' := by
  obtain ⟨executions', happended, rfl, hmonitor, hrevision, hrecovery⟩ :=
    Database.insertExecution_ok hinsert
  obtain ⟨outbox', houtbox, rfl⟩ := insertOutbox_ok hmessage
  exact ⟨hqueued, hmonitor, hrevision, hrecovery, executions', outbox', drawn, happended,
    houtbox, rfl⟩

theorem enqueueExecutionReplacement_ok {e : Execution} {id : UUID}
    (h : enqueueExecutionReplacement now e db = .ok (id, db')) : Replaced now db e db' := by
  by_cases hkind : e.kind = .repair
  · simp only [enqueueExecutionReplacement, Database.newUUID, hkind, if_true, bind_eq_ok,
      repointRepairAttempt, ite_error_eq_ok, not_not, Except.ok.injEq, pure_eq_ok,
      Prod.mk.injEq] at h
    obtain ⟨db₁, hinsert, _, ⟨_, -, hcount, rfl⟩, db₃, hmessage, rfl, rfl⟩ := h
    obtain ⟨executions', happended, rfl, -⟩ := Database.insertExecution_ok hinsert
    obtain ⟨a, hmem, hexecution⟩ :=
      Table.exists_of_count_ne_zero (by rw [hcount]; exact one_ne_zero)
    rw [← hkind] at hmessage
    obtain ⟨db₄, henqueued, rfl⟩ := enqueued_of_inserts "" rfl hinsert hmessage
    exact .repointed _ _ a hkind hmem (by simpa using hexecution) henqueued
  · simp only [enqueueExecutionReplacement, Database.newUUID, hkind, if_false, bind_eq_ok,
      pure_eq_ok, Prod.mk.injEq] at h
    obtain ⟨db₁, hinsert, _, rfl, db₃, hmessage, rfl, rfl⟩ := h
    exact .enqueued _ _ hkind (enqueued_of_insert rfl hinsert hmessage)

@[simp] theorem orNotFound_eq_ok {α : Type} {x : Option α} {a : α} :
    orNotFound x = .ok a ↔ x = some a := by
  cases x <;> simp [orNotFound]

@[simp] theorem orNoRows_eq_ok {α : Type} {x : Option α} {a : α} :
    orNoRows x = .ok a ↔ x = some a := by
  cases x <;> simp [orNoRows]

theorem createMonitor_ok {params : CreateMonitorParams} {created : Monitor × Execution}
    (h : createMonitor now params db = .ok (created, db')) :
    Effect ⟨now, .createMonitor params⟩ db db' := by
  simp only [createMonitor, Database.newUUID, bind_eq_ok, pure_eq_ok, Prod.mk.injEq] at h
  obtain ⟨db₁, hmonitor, db₂, hinsert, db₃, hmessage, _, _, _, _, -, rfl⟩ := h
  obtain ⟨hinterval, monitors', happended, rfl⟩ := Database.insertMonitor_ok hmonitor
  exact .created _ _ params monitors' _ rfl hinterval happended
    (enqueued_of_insert rfl hinsert hmessage)

theorem claimExecution_effect (now : Timestamp) {e : Execution} (he : e ∈ db.executions) :
    (claimExecution now e db).2 = db ∨
      Effect ⟨now, .getExecutionInput e.id⟩ db (claimExecution now e db).2 := by
  cases hstate : e.state with
  | queued =>
      right
      have hsubstituted : db.executions.Substituted e
          { e with state := .running, startedAt := some (e.startedAt.getD now) }
          (db.executions.update (fun s => decide (s.id = e.id)) fun e =>
            { e with state := .running, startedAt := some (e.startedAt.getD now) }) :=
        Table.substituted_update_key he rfl rfl
      have hclaimed : ∀ repairAttempts', _ → Effect ⟨now, .getExecutionInput e.id⟩ db _ :=
        fun repairAttempts' => Effect.claimed e _ _ repairAttempts' hstate rfl rfl hsubstituted
      cases hkind : e.kind with
      | repair =>
          simpa [claimExecution, hstate, hkind, Database.updateExecution,
            Database.updateRepairAttempts] using
            hclaimed _ (Or.inr ⟨hkind, rfl⟩)
      | compile | check =>
          simpa [claimExecution, hstate, hkind, Database.updateExecution] using
            hclaimed _ (Or.inl ⟨by simp [hkind], rfl⟩)
  | running =>
      right
      have hsubstituted : db.executions.Substituted e { e with startedAt := some now }
          (db.executions.update
            (fun s => decide (s.id = e.id) && decide (s.state = .running)) fun e =>
              { e with startedAt := some now }) := by
        refine Table.substituted_update he rfl (by simp [hstate]) ?_
        intro s hs hp
        exact Table.eq_of_key_eq hs he (by simpa using (Bool.and_eq_true_iff.mp hp).1)
      have hrenewed : Effect ⟨now, .getExecutionInput e.id⟩ db _ :=
        .renewed e _ _ hstate rfl rfl hsubstituted
      simpa [claimExecution, hstate] using hrenewed
  | succeeded | failed | blocked | needsReview =>
      left
      simp [claimExecution, hstate]

theorem getExecutionInput_ok {id : UUID} {input : ExecutionInput}
    (h : getExecutionInput now id db = .ok (input, db')) :
    db' = db ∨ Effect ⟨now, .getExecutionInput id⟩ db db' := by
  simp only [getExecutionInput, bind_eq_ok, orNotFound_eq_ok, orNoRows_eq_ok,
    Table.lookup_eq_some_iff] at h
  obtain ⟨e, ⟨he, rfl⟩, m, -, h⟩ := h
  have heffect := claimExecution_effect now he
  suffices db' = (claimExecution now e db).2 by rwa [this]
  split at h
  · exact (congrArg Prod.snd (pure_eq_ok.mp h)).symm
  · obtain ⟨r, -, h⟩ := bind_eq_ok.mp h
    exact (congrArg Prod.snd (pure_eq_ok.mp h)).symm

theorem enqueueCheck_ok {monitorId : UUID} {idempotencyKey traceparent : String}
    {answer : Execution × Bool}
    (h : enqueueCheck now monitorId idempotencyKey traceparent db = .ok (answer, db')) :
    db' = db ∨ Effect ⟨now, .enqueueCheck monitorId idempotencyKey traceparent⟩ db db' := by
  simp only [enqueueCheck] at h
  split at h
  · simp only [Except.ok.injEq, Prod.mk.injEq] at h
    exact Or.inl h.2.symm
  · right
    rename_i hnew
    simp only [bind_eq_ok, orNotFound_eq_ok, Table.lookup_eq_some_iff] at h
    obtain ⟨m, ⟨hm, rfl⟩, h⟩ := h
    split at h
    · rename_i currentRevisionId hactive hcurrent
      split at h
      · exact absurd h throw_bind_ne_ok
      · rename_i hidle
        simp only [Database.newUUID, bind_eq_ok, orNoRows_eq_ok,
          Table.lookup_eq_some_iff, pure_eq_ok, Prod.mk.injEq] at h
        obtain ⟨r, ⟨hr, rfl⟩, db₁, hinsert, db₂, hmessage, -, rfl⟩ := h
        refine .checkQueued _ m r idempotencyKey traceparent _ rfl hnew
          ⟨hm, hactive, hr, hcurrent, ?_⟩ (enqueued_of_insert rfl hinsert hmessage)
        simpa using hidle
    · exact absurd h throw_ne_ok

/-- The monitors a scheduler pass has yet to queue a check for. -/
structure DueItems (items : List (UUID × UUID)) (db : Database) : Prop where
  distinct : items.Pairwise fun a b => a.1 ≠ b.1
  due : ∀ item ∈ items, ∃ m ∈ db.monitors, m.id = item.1 ∧ m.status = .active ∧
    m.currentRevisionId = some item.2 ∧ ∀ e ∈ db.executions, inFlightOf m.id e = false

theorem pairwise_id_ne {α : Type} {key : α → UUID} (t : Table key) :
    t.rows.Pairwise fun a b => key a ≠ key b :=
  List.pairwise_map.mp t.nodup

theorem dueItems_dueMonitors (now : Timestamp) (limit : Nat) (locked : UUID → Bool)
    (db : Database) : DueItems (dueMonitors now limit locked db) db := by
  unfold dueMonitors
  simp only
  constructor
  · refine List.Pairwise.filterMap _ ?_ (List.Pairwise.sublist (List.take_sublist _ _) ?_)
      (R := fun a b : Monitor => a.id ≠ b.id)
    · rintro a b hab item hitem item' hitem'
      obtain ⟨_, -, rfl⟩ := Option.map_eq_some_iff.mp hitem
      obtain ⟨_, -, rfl⟩ := Option.map_eq_some_iff.mp hitem'
      exact hab
    · refine (List.Perm.pairwise_iff (fun hab => hab.symm) (List.perm_insertionSort _ _)).mpr ?_
      exact List.Pairwise.sublist List.filter_sublist (pairwise_id_ne db.monitors)
  · intro item hitem
    obtain ⟨m, hm, hsome⟩ := List.mem_filterMap.mp hitem
    obtain ⟨revisionId, hcurrent, rfl⟩ := Option.map_eq_some_iff.mp hsome
    have hselected := (List.mem_insertionSort _).mp (List.mem_of_mem_take hm)
    simp only [List.mem_filter, due, Bool.and_eq_true, decide_eq_true_eq, Bool.not_eq_true',
      Table.any_eq_false_iff] at hselected
    exact ⟨m, hselected.1, rfl, hselected.2.1.1.1.1, hcurrent, hselected.2.1.2⟩

/-- One pass of the scheduler's loop is an effect and leaves the rest due. -/
theorem claimDueMonitor_ok {item : UUID × UUID} {rest : List (UUID × UUID)} (limit : Nat)
    (locked : UUID → Bool) (hdue : DueItems (item :: rest) db)
    (h : claimDueMonitor now db item = .ok db') :
    Effect ⟨now, .claimDueMonitors limit locked⟩ db db' ∧ DueItems rest db' := by
  obtain ⟨m, hm, hid, hactive, hcurrent, hidle⟩ := hdue.due item (List.mem_cons_self ..)
  simp only [claimDueMonitor, Database.newUUID, bind_eq_ok, orNoRows_eq_ok,
    Table.lookup_eq_some_iff, pure_eq_ok] at h
  obtain ⟨r, ⟨hr, hrid⟩, db₁, hinsert, db₂, hmessage, rfl⟩ := h
  rw [← hid, ← hrid] at hinsert
  rw [← hid, ← hrid] at hmessage
  rw [← hid]
  rw [← hrid] at hcurrent
  have henqueued : Enqueued now db _ "" db₂ := enqueued_of_insert rfl hinsert hmessage
  refine ⟨.dueQueued _ m r limit locked _ rfl ⟨hm, hactive, hr, hcurrent, hidle⟩ henqueued,
      hdue.distinct.of_cons, ?_⟩
  obtain ⟨-, -, -, -, executions', outbox', uuids', happended, -, rfl⟩ := henqueued
  simp only [Database.updateMonitor]
  intro other hother
  have hne := List.rel_of_pairwise_cons hdue.distinct hother
  obtain ⟨m', hm', hid', hrest⟩ := hdue.due other (List.mem_cons_of_mem _ hother)
  refine ⟨m', Table.mem_update_of_neg hm' ?_, hid', hrest.1, hrest.2.1, ?_⟩
  · simpa [hid, hid'] using hne.symm
  · refine Table.forall_appended happended hrest.2.2 ?_
    have : m.id ≠ m'.id := by rwa [hid, hid']
    simp [inFlightOf, checkExecution, newExecution, this]

theorem claimDueMonitors_ok {limit claimed : Nat} {locked : UUID → Bool}
    (h : claimDueMonitors now limit locked db = .ok (claimed, db')) :
    Relation.ReflTransGen (Effect ⟨now, .claimDueMonitors limit locked⟩) db db' := by
  simp only [claimDueMonitors, bind_eq_ok, pure_eq_ok, Prod.mk.injEq] at h
  obtain ⟨_, hfold, -, rfl⟩ := h
  refine (foldlM_induction
    (fun items s => DueItems items s ∧
      Relation.ReflTransGen (Effect ⟨now, .claimDueMonitors limit locked⟩) db s)
    ?_ _ db _ ⟨dueItems_dueMonitors now limit locked db, .refl⟩ hfold).2
  rintro item rest s s' ⟨hdue, hreach⟩ hstep
  obtain ⟨heffect, hrest⟩ := claimDueMonitor_ok limit locked hdue hstep
  exact ⟨hrest, hreach.tail heffect⟩

theorem confirmMonitor_ok {monitorId : UUID} {params : ConfirmMonitorParams} {answer : Monitor}
    (h : confirmMonitor now monitorId params db = .ok (answer, db')) :
    Effect ⟨now, .confirmMonitor monitorId params⟩ db db' := by
  obtain ⟨revisionId, condition⟩ := params
  simp only [confirmMonitor] at h
  split at h
  · exact absurd h throw_bind_ne_ok
  · rename_i hpending
    split at h
    · exact absurd h throw_bind_ne_ok
    · rename_i hmonitor
      obtain ⟨r, hr, hdecidable⟩ := Table.exists_of_count_ne_zero hpending
      obtain ⟨m, hm, hid⟩ := Table.exists_of_count_ne_zero hmonitor
      obtain rfl : m.id = monitorId := by simpa using hid
      obtain rfl : r.id = revisionId := id_of_decidable hdecidable
      simp only [bind_eq_ok, pure_eq_ok, Prod.mk.injEq] at h
      obtain ⟨_, -, -, rfl⟩ := h
      exact .confirmed m r condition rfl hm hr hdecidable

theorem patchMonitor_ok {id : UUID} {params : PatchMonitorParams} {answer : Monitor}
    (h : patchMonitor now id params db = .ok (answer, db')) :
    Effect ⟨now, .patchMonitor id params⟩ db db' := by
  simp only [patchMonitor] at h
  split at h
  · cases h
  · rename_i haction
    split at h
    · exact absurd h throw_bind_ne_ok
    · rename_i hmonitor
      obtain ⟨m, hm, hid⟩ := Table.exists_of_count_ne_zero hmonitor
      obtain rfl : m.id = id := by simpa using hid
      simp only [bind_eq_ok, require_eq_ok, pure_eq_ok, Prod.mk.injEq] at h
      obtain ⟨_, hinterval, _, -, -, rfl⟩ := h
      exact .patched m params rfl hm haction hinterval

theorem reviewRevision_ok {monitorId revisionId : UUID} {accept : Bool} {answer : Monitor}
    (h : reviewRevision now monitorId revisionId accept db = .ok (answer, db')) :
    Effect ⟨now, .reviewRevision monitorId revisionId accept⟩ db db' := by
  simp only [reviewRevision] at h
  split at h
  · exact absurd h throw_bind_ne_ok
  · rename_i hpending
    obtain ⟨r, hr, hdecidable⟩ := Table.exists_of_count_ne_zero hpending
    obtain rfl : r.id = revisionId := id_of_decidable hdecidable
    cases accept with
    | true =>
        simp only [if_true, bind_eq_ok, orNotFound_eq_ok, Table.lookup_eq_some_iff, pure_eq_ok,
          Prod.mk.injEq, Database.updateMonitor, Database.updateRevisions,
          Database.updateRepairAttempts] at h
        obtain ⟨m', ⟨hm', hid⟩, -, rfl⟩ := h
        obtain ⟨m, hm, hkey, -⟩ := Table.exists_mem_of_mem_update hm'
        obtain rfl : m.id = monitorId := hkey.trans hid
        exact .accepted m r rfl hm hr hdecidable
    | false =>
        simp only [Bool.false_eq_true, if_false, bind_eq_ok, orNotFound_eq_ok,
          Table.lookup_eq_some_iff, pure_eq_ok, Prod.mk.injEq, Database.updateMonitor,
          Database.updateRevisions, Database.updateRepairAttempts] at h
        obtain ⟨m', ⟨hm', hid⟩, -, rfl⟩ := h
        obtain ⟨m, hm, hkey, -⟩ := Table.exists_mem_of_mem_update hm'
        obtain rfl : m.id = monitorId := hkey.trans hid
        exact .rejected m r rfl hm hr hdecidable

/-- The executions a sweep has yet to look at: none is touched before its turn. -/
structure StaleItems (items : List Execution) (db : Database) : Prop where
  distinct : items.Pairwise fun a b => a.id ≠ b.id
  running : ∀ e ∈ items, e ∈ db.executions ∧ e.state = .running

theorem staleItems_staleExecutions (db : Database) (now runningStaleAfter : Timestamp)
    (locked : UUID → Bool) (limit : Nat) :
    StaleItems (staleExecutions db now runningStaleAfter locked limit) db := by
  unfold staleExecutions
  constructor
  · refine List.Pairwise.sublist (List.take_sublist _ _) ?_
    refine (List.Perm.pairwise_iff (fun hab => hab.symm) (List.perm_insertionSort _ _)).mpr ?_
    exact List.Pairwise.sublist List.filter_sublist (pairwise_id_ne db.executions)
  · intro e he
    have hselected := (List.mem_insertionSort _).mp (List.mem_of_mem_take he)
    simp only [List.mem_filter, Bool.and_eq_true, decide_eq_true_eq] at hselected
    exact ⟨hselected.1, hselected.2.1.1.1⟩

theorem retired_failStale {e : Execution} (now : Timestamp) (he : e ∈ db.executions)
    (hrunning : e.state = .running) :
    ∃ e', e'.state = .failed ∧ Retired db e e' (failStale now e db) := by
  refine ⟨{ e with state := .failed, failureClassification := some "execution_stale",
                   error := some staleReason, completedAt := some now }, rfl,
    he, by simp [Execution.inFlight, hrunning, ExecutionState.inFlight],
    ⟨rfl, rfl, rfl, rfl, rfl, rfl, rfl, rfl, rfl⟩, rfl, _, _, _, ?_, rfl⟩
  refine Table.substituted_update he rfl (by simp) ?_
  intro s hs hp
  exact Table.eq_of_key_eq hs he (by simpa using (Bool.and_eq_true_iff.mp hp).1)

theorem StaleItems.rest {items : List Execution} {e : Execution}
    (h : StaleItems (e :: items) db)
    (hkept : ∀ s ∈ db.executions, s.id ≠ e.id → s ∈ db'.executions) : StaleItems items db' := by
  refine ⟨h.distinct.of_cons, fun s hs => ?_⟩
  obtain ⟨hmem, hrunning⟩ := h.running s (List.mem_cons_of_mem _ hs)
  exact ⟨hkept s hmem (List.rel_of_pairwise_cons h.distinct hs).symm, hrunning⟩

/-- One pass of the sweep's loop passes over an execution, gives it up or replaces it. -/
theorem sweepExecution_cases {maxAttempts : Nat} {recoveries recoveries' : List ExecutionRecovery}
    {e : Execution} (he : e ∈ db.executions) (hrunning : e.state = .running)
    (h : sweepExecution now maxAttempts (recoveries, db) e = .ok (recoveries', db')) :
    db' = db ∨ ∃ e' db₁, e'.state = .failed ∧ Retired db e e' db₁ ∧
      (maxAttempts ≤ e.attempt ∧ db' = terminalizeStaleExecution now e staleReason db₁ ∨
        e.attempt < maxAttempts ∧ Replaced now db₁ e db') := by
  simp only [sweepExecution] at h
  split at h
  · simp only [Except.ok.injEq, Prod.mk.injEq] at h
    exact Or.inl h.2.symm
  · obtain ⟨e', hfailed, hretired⟩ := retired_failStale now he hrunning
    refine Or.inr ⟨e', _, hfailed, hretired, ?_⟩
    split at h
    · rename_i hdecision
      simp only [Except.ok.injEq, Prod.mk.injEq] at h
      refine Or.inl ⟨?_, h.2.symm⟩
      by_contra hless
      simp [recoveryDecision, hless] at hdecision
    · rename_i hdecision
      simp only [bind_eq_ok, pure_eq_ok, Prod.mk.injEq] at h
      obtain ⟨⟨id, db₁⟩, hreplacement, -, rfl⟩ := h
      refine Or.inr ⟨?_, enqueueExecutionReplacement_ok hreplacement⟩
      by_contra hmore
      simp [recoveryDecision, not_lt.mp hmore] at hdecision

/-- One pass of the sweep's loop is an effect, or none, and leaves the rest untouched. -/
theorem sweepExecution_ok {maxAttempts : Nat} {recoveries recoveries' : List ExecutionRecovery}
    {e : Execution} {items : List Execution} (runningStaleAfter : Timestamp) (limit : Nat)
    (locked : UUID → Bool) (hstale : StaleItems (e :: items) db)
    (h : sweepExecution now maxAttempts (recoveries, db) e = .ok (recoveries', db')) :
    (db' = db ∨
      Effect ⟨now, .sweepStaleExecutions runningStaleAfter maxAttempts limit locked⟩ db db') ∧
      StaleItems items db' := by
  obtain ⟨he, hrunning⟩ := hstale.running e (List.mem_cons_self ..)
  obtain rfl | ⟨e', db₁, hfailed, hretired, ⟨hattempts, rfl⟩ | ⟨hattempts, hreplaced⟩⟩ :=
    sweepExecution_cases he hrunning h
  · exact ⟨Or.inl rfl, hstale.rest fun s hs _ => hs⟩
  · refine ⟨Or.inr (.terminalized e e' _ runningStaleAfter maxAttempts limit locked rfl hattempts
      hretired hrunning hfailed), hstale.rest fun s hs hne => ?_⟩
    rw [terminalizeStaleExecution_executions]
    exact hretired.mem_of_ne hs hne
  · refine ⟨Or.inr (.replaced e e' _ _ runningStaleAfter maxAttempts limit locked rfl hattempts
      hretired hrunning hfailed hreplaced), hstale.rest fun s hs hne => ?_⟩
    exact hreplaced.mem_executions (hretired.mem_of_ne hs hne)

theorem sweepStaleExecutions_ok {runningStaleAfter : Timestamp} {maxAttempts limit : Nat}
    {locked : UUID → Bool} {recoveries : List ExecutionRecovery}
    (h : sweepStaleExecutions now runningStaleAfter maxAttempts limit locked db =
      .ok (recoveries, db')) :
    Relation.ReflTransGen
      (Effect ⟨now, .sweepStaleExecutions runningStaleAfter maxAttempts limit locked⟩) db db' := by
  refine (foldlM_induction
    (fun items s => StaleItems items s.2 ∧ Relation.ReflTransGen
      (Effect ⟨now, .sweepStaleExecutions runningStaleAfter maxAttempts limit locked⟩) db s.2)
    ?_ _ ([], db) (recoveries, db')
    ⟨staleItems_staleExecutions db now runningStaleAfter locked limit, .refl⟩ h).2
  rintro e rest ⟨_, s⟩ ⟨_, s'⟩ ⟨hstale, hreach⟩ hstep
  obtain ⟨rfl | heffect, hrest⟩ := sweepExecution_ok runningStaleAfter limit locked hstale hstep
  · exact ⟨hrest, hreach⟩
  · exact ⟨hrest, hreach.tail heffect⟩

theorem markPublished_ok (db : Database) (now : Timestamp) (id : Nat) :
    ∃ outbox', markPublished db now id = { db with outbox := outbox' } ∧
      db.outbox.Evolves Relayed outbox' :=
  ⟨_, rfl, Table.evolves_update Relayed.refl fun _ _ _ =>
    ⟨rfl, rfl, rfl, Nat.le_succ _, fun _ => rfl⟩⟩

theorem markFailed_ok (db : Database) (id : Nat) (error : String) :
    ∃ outbox', markFailed db id error = { db with outbox := outbox' } ∧
      db.outbox.Evolves Relayed outbox' :=
  ⟨_, rfl, Table.evolves_update Relayed.refl fun _ _ _ =>
    ⟨rfl, rfl, rfl, Nat.le_succ _, fun h => h⟩⟩

theorem publishBatch_ok (now : Timestamp) (publish : OutboxRow → Except String Unit)
    (rows : List OutboxRow) (db : Database) :
    ∃ outbox', (publishBatch now publish db rows).1 = { db with outbox := outbox' } ∧
      db.outbox.Evolves Relayed outbox' := by
  induction rows generalizing db with
  | nil => exact ⟨db.outbox, rfl, .refl Relayed.refl _⟩
  | cons row rest ih =>
      simp only [publishBatch]
      cases publish row with
      | error message => exact markFailed_ok db row.id message
      | ok _ =>
          obtain ⟨outbox₁, hmarked, hevolves⟩ := markPublished_ok db now row.id
          obtain ⟨outbox₂, hrest, hevolves'⟩ := ih { db with outbox := outbox₁ }
          rw [hmarked]
          exact ⟨outbox₂, hrest, hevolves.trans Relayed.trans hevolves'⟩

theorem processOutbox_effect (db : Database) (now : Timestamp) (locked : Nat → Bool) (limit : Nat)
    (publish : OutboxRow → Except String Unit) (commits : Bool) :
    Effect ⟨now, .processOutbox locked limit publish commits⟩ db
      (processOutbox db now locked limit publish commits).1 := by
  unfold processOutbox
  cases commits with
  | true =>
      obtain ⟨outbox', hbatch, hevolves⟩ :=
        publishBatch_ok now publish (unpublished db locked limit) db
      simp only [hbatch, if_true]
      exact .published outbox' locked limit publish true rfl hevolves
  | false => exact .published db.outbox locked limit publish false rfl (.refl Relayed.refl _)

theorem promoteRevision_eq_some {e : Execution} {revisionId failedRevisionId : UUID}
    (h : promoteRevision now e revisionId failedRevisionId db = some db') :
    ∃ m ∈ db.monitors, m.id = e.monitorId ∧ m.currentRevisionId = some failedRevisionId ∧
      db' = { db with
        monitors := db.monitors.update (fun m => decide (m.id = e.monitorId)) fun m =>
          { m with currentRevisionId := some revisionId, status := .active,
                   nextRunAt := some (now + 60 * m.intervalMinutes), updatedAt := now }
        revisions := db.revisions.update (fun r => decide (r.id = revisionId)) fun r =>
          { r with validationState := .active, activatedAt := some now }
        repairAttempts := db.repairAttempts.update (fun a => decide (a.executionId = e.id)) fun a =>
          { a with state := .activated } } := by
  simp only [promoteRevision] at h
  split at h
  · rename_i hcount
    obtain ⟨m, hm, hunchanged⟩ := Table.exists_of_count_ne_zero (by rw [hcount]; exact one_ne_zero)
    simp only [Bool.and_eq_true, decide_eq_true_eq] at hunchanged
    refine ⟨m, hm, hunchanged.1, hunchanged.2, ?_⟩
    rw [← Option.some.inj h, Table.update_congr (q := fun m => decide (m.id = e.monitorId))]
    · rfl
    · intro s hs
      by_cases hid : s.id = e.monitorId
      · obtain rfl := Table.eq_of_key_eq hs hm (hid.trans hunchanged.1.symm)
        simp [hunchanged.2]
      · simp [hid]
  · cases h

theorem promoteRevision_eq_none {e : Execution} {revisionId failedRevisionId : UUID}
    (h : promoteRevision now e revisionId failedRevisionId db = none) :
    ∀ m ∈ db.monitors, m.id = e.monitorId → m.currentRevisionId ≠ some failedRevisionId := by
  intro m hm hid hcurrent
  simp only [promoteRevision] at h
  split at h
  · cases h
  · rename_i hcount
    refine hcount (Table.count_eq_one hm (by simp [hid, hcurrent]) fun s hs hunchanged => ?_)
    simp only [Bool.and_eq_true, decide_eq_true_eq] at hunchanged
    exact Table.eq_of_key_eq hs hm (hunchanged.1.trans hid.symm)

/-- The promotion of a revision just inserted amounts to inserting it active. -/
theorem appended_active (now : Timestamp) {r : Revision} {t t' : Table Revision.id}
    (happended : t.Appended r t') :
    t.Appended { r with validationState := .active, activatedAt := some now }
      (t'.update (fun s => decide (s.id = r.id)) fun r =>
        { r with validationState := .active, activatedAt := some now }) :=
  happended.update (by simp) fun s hs => by simpa using happended.key_ne hs

theorem applyPlanResult_ok {e : Execution} {plan : Json} {autoPromote : Bool}
    (hkind : e.kind ≠ .check) (h : applyPlanResult now e plan autoPromote db = .ok db') :
    PlanEffect now e plan autoPromote db db' := by
  cases hk : e.kind with
  | check => exact absurd hk hkind
  | compile =>
      simp only [applyPlanResult, revisionSource, hk, Database.newUUID, bind_eq_ok, if_true,
        pure_eq_ok, Except.ok.injEq] at h
      obtain ⟨_, rfl, db₁, hinsert, rfl⟩ := h
      obtain ⟨revisions', happended, rfl, -⟩ := Database.insertRevision_ok hinsert
      exact .compiled _ revisions' _ hk happended
  | repair =>
      simp only [applyPlanResult, revisionSource, hk, Database.newUUID, bind_eq_ok, reduceCtorEq,
        if_false, Except.ok.injEq] at h
      obtain ⟨_, rfl, db₁, hinsert, h⟩ := h
      obtain ⟨revisions', happended, rfl, -⟩ := Database.insertRevision_ok hinsert
      split at h
      · rename_i db₂ hpromoted
        obtain rfl := pure_eq_ok.mp h
        split at hpromoted
        · rename_i hauto
          obtain ⟨failedRevisionId, hfailed, hpromoted⟩ := Option.bind_eq_some_iff.mp hpromoted
          obtain ⟨m, hm, hid, hcurrent, rfl⟩ := promoteRevision_eq_some hpromoted
          have hactive := appended_active now happended
          have hpromotion : PlanEffect now e plan autoPromote db _ :=
            .promoted ⟨db.uuids⟩ failedRevisionId m _ (db.uuids + 1) hk hauto hfailed hm hid
              hcurrent
              hactive
          simp only [Database.updateRepairAttempts, Table.update_update, decide_eq_true_eq,
            imp_self, implies_true]
          exact hpromotion
        · cases hpromoted
      · rename_i hpromoted
        obtain rfl := pure_eq_ok.mp h
        refine .held _ revisions' _ hk ?_ happended
        intro hauto failedRevisionId hfailed m hm hid
        rw [if_pos hauto, Option.mem_def.mp hfailed, Option.bind_some] at hpromoted
        exact promoteRevision_eq_none hpromoted m hm hid

theorem enqueueAlertConfirmation_ok {e : Execution} {observationId : UUID}
    (h : enqueueAlertConfirmation now e observationId db = .ok db') :
    (db' = db ∧ ∃ s ∈ db.executions, inFlightOf e.monitorId s = true) ∨
      ∃ id, Enqueued now db (confirmationExecution now id e observationId) "" db' := by
  simp only [enqueueAlertConfirmation] at h
  split at h
  · rename_i hpending
    obtain ⟨s, hs, hpending⟩ := Table.any_eq_true_iff.mp hpending
    simp only [Bool.and_eq_true] at hpending
    exact Or.inl ⟨(Except.ok.inj h).symm, s, hs, hpending.1.1⟩
  · right
    simp only [Database.newUUID, bind_eq_ok] at h
    obtain ⟨db₁, hinsert, hmessage⟩ := h
    exact ⟨_, enqueued_of_insert rfl hinsert hmessage⟩

theorem insertDeliveries_ok {alertId : UUID} {channels : List String}
    (h : insertDeliveries now alertId channels db = .ok db') :
    ∃ alertDeliveries' uuids',
      db' = { db with alertDeliveries := alertDeliveries', uuids := uuids' } := by
  refine foldlM_induction
    (fun _ s => ∃ alertDeliveries' uuids',
      s = { db with alertDeliveries := alertDeliveries', uuids := uuids' })
    ?_ channels db db' ⟨_, _, rfl⟩ h
  rintro channel rest _ s' ⟨alertDeliveries', uuids', rfl⟩ hstep
  obtain ⟨alertDeliveries'', rfl⟩ := Database.insertAlertDelivery_ok hstep
  exact ⟨_, _, rfl⟩

theorem createAlert_ok {store : OpenStore} {monitorId observationId : UUID} {key : String}
    (h : createAlert store now monitorId observationId key db = .ok db') :
    ∃ id alerts' alertDeliveries' uuids',
      db.alerts.Appended (newAlert store now id monitorId observationId key) alerts' ∧
      db' = { db with alerts := alerts', alertDeliveries := alertDeliveries',
                      uuids := uuids' } := by
  simp only [createAlert, Database.newUUID, bind_eq_ok] at h
  obtain ⟨db₁, halert, hdeliveries⟩ := h
  obtain ⟨alerts', happended, rfl⟩ := Database.insertAlert_ok halert
  obtain ⟨alertDeliveries', uuids', rfl⟩ := insertDeliveries_ok hdeliveries
  exact ⟨_, _, _, _, happended, rfl⟩

theorem reactToCheck_ok {store : OpenStore} {e : Execution} {m : Monitor} {o : Observation}
    (hkind : e.kind = .check) (hverified : o.verificationState = .verified)
    (h : reactToCheck store now e o.id o.conditionMatched m.conditionMatched db = .ok db') :
    Reaction store now e m o db db' := by
  cases hconfirmation : executionIsAlertConfirmation e with
  | true =>
      cases hmatched : o.conditionMatched with
      | false =>
          simp [reactToCheck, hconfirmation, hmatched] at h
          subst h
          simpa [hmatched] using Reaction.latched hkind hverified (Or.inl hmatched)
      | true =>
          cases hprevious : m.conditionMatched with
          | true =>
              simp [reactToCheck, hconfirmation, hmatched, hprevious] at h
              subst h
              simpa [hmatched] using
                Reaction.latched hkind hverified (Or.inr ⟨hconfirmation, hprevious⟩)
          | false =>
              simp only [reactToCheck, hconfirmation, hmatched, hprevious, if_true, Bool.not_false,
                Bool.and_self] at h
              obtain ⟨id, alerts', alertDeliveries', uuids', happended, rfl⟩ := createAlert_ok h
              exact .alerted id alerts' alertDeliveries' uuids' hkind hverified hconfirmation
                hmatched hprevious happended
  | false =>
      cases hmatched : o.conditionMatched with
      | false =>
          simp [reactToCheck, hconfirmation, hmatched] at h
          subst h
          simpa [hmatched] using Reaction.latched hkind hverified (Or.inl hmatched)
      | true =>
          cases hprevious : m.conditionMatched with
          | true =>
              simp [reactToCheck, hconfirmation, hmatched, hprevious] at h
              subst h
              exact .unchanged hkind hverified hconfirmation hmatched (Or.inl hprevious)
          | false =>
              simp [reactToCheck, hconfirmation, hmatched, hprevious] at h
              rcases enqueueAlertConfirmation_ok h with ⟨rfl, hpending⟩ | ⟨id, henqueued⟩
              · exact .unchanged hkind hverified hconfirmation hmatched (Or.inr hpending)
              · exact .confirmationQueued id _ hkind hverified hconfirmation hmatched hprevious
                  henqueued

theorem applyObservation_ok {store : OpenStore} {e : Execution} {observation : ResultObservation}
    (h : applyObservation store now e observation db = .ok db') :
    ∃ m o db₁, Recorded now e observation db m o db₁ ∧ Reaction store now e m o db₁ db' := by
  simp only [applyObservation] at h
  split at h
  · exact absurd h throw_bind_ne_ok
  · simp only [Database.newUUID, bind_eq_ok, orNoRows_eq_ok, Table.lookup_eq_some_iff] at h
    obtain ⟨m, ⟨hm, hid⟩, verification, hverification, db₁, hinsert, h⟩ := h
    obtain ⟨observations', happended, rfl, hfresh⟩ := Database.insertObservation_ok hinsert
    refine ⟨m, _, _, ⟨hm, hid, ⟨_, _, hverification, rfl⟩, hfresh, observations',
      db.uuids + 1, happended, rfl⟩, ?_⟩
    split at h
    · rename_i hcheck
      exact reactToCheck_ok hcheck.1 hcheck.2 h
    · rename_i hdiagnostic
      obtain rfl := pure_eq_ok.mp h
      exact .diagnostic hdiagnostic

theorem acceptableObservation_of_ok {store : OpenStore} {e : Execution}
    {observation : ResultObservation} (h : applyObservation store now e observation db = .ok db') :
    AcceptableObservation observation := by
  simp only [applyObservation] at h
  split at h
  · exact absurd h throw_bind_ne_ok
  · rename_i hchecks
    push Not at hchecks
    simp only [bind_eq_ok] at h
    obtain ⟨_, -, verification, hverification, -⟩ := h
    exact ⟨hchecks.1, hchecks.2.1, hchecks.2.2, verification, hverification⟩

theorem enqueueRepair_ok {store : OpenStore} {e : Execution} {result : ExecutionResult}
    {generation : Nat} (hkind : e.kind = .check) (hstale : staleClassification result = true)
    (hgeneration : e.requestedGeneration = some generation)
    (h : enqueueRepair now e generation db = .ok db') :
    FailureEffect store now e result db db' := by
  simp only [enqueueRepair] at h
  split at h
  · rename_i hexists
    obtain ⟨a, ha, hmatches⟩ := Table.any_eq_true_iff.mp hexists
    simp only [Bool.and_eq_true, decide_eq_true_eq] at hmatches
    obtain rfl := Except.ok.inj h
    exact .repairExists a hkind hstale ha hmatches.1 (by rw [hgeneration, hmatches.2])
  · rename_i hnone
    simp only [Database.newUUID, bind_eq_ok, pure_eq_ok] at h
    obtain ⟨db₁, hinsert, db₂, hattempt, db₃, hmessage, rfl⟩ := h
    obtain ⟨repairAttempts', happended, rfl, -⟩ := Database.insertRepairAttempt_ok hattempt
    have hdb₁ : db₁.repairAttempts = db.repairAttempts := by
      obtain ⟨executions', -, rfl, -⟩ := Database.insertExecution_ok hinsert
      rfl
    obtain ⟨db₄, henqueued, rfl⟩ := enqueued_of_inserts "" rfl hinsert hmessage
    refine .repairQueued _ _ generation repairAttempts' db₄.uuids db₄ hkind hstale hgeneration ?_
      (hdb₁ ▸ happended) henqueued
    intro a ha hmonitor hfailed
    exact hnone (Table.any_eq_true_iff.mpr ⟨a, ha, by simp [hmonitor, hfailed]⟩)

theorem applyFailure_ok {store : OpenStore} {e : Execution} {result : ExecutionResult}
    (h : applyFailure store now e result db = .ok db') :
    FailureEffect store now e result db db' := by
  simp only [applyFailure] at h
  split at h
  · rename_i hretry
    cases hreplacement : enqueueExecutionReplacement now e db with
    | error error =>
        rw [hreplacement] at h
        cases h
    | ok replacement =>
        rw [hreplacement] at h
        obtain rfl := Except.ok.inj h
        exact .retried _ hretry (enqueueExecutionReplacement_ok hreplacement)
  · rename_i hfinal
    cases hkind : e.kind with
    | compile =>
        rw [hkind] at h
        obtain rfl := Except.ok.inj h
        exact .compileFailed hkind (by simpa using hfinal)
    | repair =>
        rw [hkind] at h
        obtain rfl := Except.ok.inj h
        exact .repairFailed hkind (by simpa using hfinal)
    | check =>
        rw [hkind] at h
        cases hgeneration : e.requestedGeneration with
        | none =>
            simp only [hgeneration, Except.ok.injEq] at h
            subst h
            exact .checkFailed hkind (Or.inl hgeneration)
        | some generation =>
            simp only [hgeneration] at h
            split at h
            · rename_i hstale
              exact enqueueRepair_ok hkind hstale hgeneration h
            · rename_i hstale
              obtain rfl := Except.ok.inj h
              exact .checkFailed hkind (Or.inr (by simpa using hstale))

theorem insertArtifacts_ok {e : Execution} {artifacts : List ResultArtifact}
    (h : insertArtifacts now e artifacts db = .ok db') :
    ∃ artifacts' uuids', db' = { db with artifacts := artifacts', uuids := uuids' } := by
  refine foldlM_induction
    (fun _ s => ∃ artifacts' uuids', s = { db with artifacts := artifacts', uuids := uuids' })
    ?_ artifacts db db' ⟨_, _, rfl⟩ h
  rintro artifact rest _ s' ⟨artifacts', uuids', rfl⟩ hstep
  split at hstep
  · obtain ⟨artifacts'', rfl⟩ := Database.insertArtifact_ok hstep
    exact ⟨_, _, rfl⟩
  · exact absurd hstep throw_ne_ok

theorem validArtifact_of_ok {e : Execution} {artifacts : List ResultArtifact}
    (h : insertArtifacts now e artifacts db = .ok db') :
    ∀ artifact ∈ artifacts, validArtifact e artifact = true := by
  unfold insertArtifacts at h
  induction artifacts generalizing db with
  | nil => simp
  | cons first rest ih =>
      rw [List.foldlM_cons, bind_eq_ok] at h
      obtain ⟨db₁, hfirst, hrest⟩ := h
      split at hfirst
      · rename_i hvalid
        exact List.forall_mem_cons.mpr ⟨hvalid, ih hrest⟩
      · exact absurd hfirst throw_ne_ok

theorem acceptableObservation_of_applyOutcome {store : OpenStore} {e : Execution}
    {result : ExecutionResult} (h : applyOutcome store now e result db = .ok db')
    (hstatus : result.status = "succeeded") :
    ∀ observation ∈ result.observation, AcceptableObservation observation := by
  intro observation hobservation
  simp only [applyOutcome, hstatus, if_true, bind_eq_ok, Option.mem_def.mp hobservation] at h
  obtain ⟨db₁, -, h⟩ := h
  exact acceptableObservation_of_ok h

theorem applyOutcome_ok {store : OpenStore} {e : Execution} {result : ExecutionResult}
    (hvalid : validateResult e result = .ok ())
    (h : applyOutcome store now e result db = .ok db') : Outcome store now e result db db' := by
  by_cases hstatus : result.status = "succeeded"
  · simp only [applyOutcome, hstatus, if_true, bind_eq_ok] at h
    obtain ⟨db₁, hplan, h⟩ := h
    by_cases hkind : e.kind = .check
    · have hdb₁ : db₁ = db := by
        unfold applyPlan at hplan
        split at hplan <;> simp_all
      rw [hdb₁] at h
      cases hobservation : result.observation with
      | none => simp [validateResult, hstatus, hkind, hobservation] at hvalid
      | some observation =>
          rw [hobservation] at h
          obtain ⟨m, o, db₂, hrecorded, hreaction⟩ := applyObservation_ok h
          exact .observed observation m o db₂ db' hstatus hkind hobservation hrecorded hreaction
    · have hplanned : e.kind = .compile ∨ e.kind = .repair := by
        cases hk : e.kind <;> simp_all
      cases hpresent : result.plan with
      | none => rcases hplanned with hk | hk <;>
          simp [validateResult, hstatus, hk, hpresent] at hvalid
      | some plan =>
          simp only [applyPlan, hpresent, hplanned, if_true] at hplan
          have heffect := applyPlanResult_ok hkind hplan
          cases hobservation : result.observation with
          | none =>
              rw [hobservation] at h
              obtain rfl := pure_eq_ok.mp h
              exact .planned plan _ hstatus hkind hpresent heffect hobservation
          | some observation =>
              rw [hobservation] at h
              obtain ⟨m, o, db₂, hrecorded, hreaction⟩ := applyObservation_ok h
              obtain rfl := hreaction.db_eq_of_not_check hkind
              exact .plannedAndRecorded plan observation m o db₁ _ hstatus hkind hpresent heffect
                hobservation hrecorded
  · simp only [applyOutcome, hstatus, if_false] at h
    exact .failed _ hstatus (applyFailure_ok h)

theorem inFlight_of_not_terminal {e : Execution} (h : ¬ isTerminalExecution e.state = true) :
    e.inFlight = true := by
  cases hstate : e.state <;>
    simp_all [isTerminalExecution, Execution.inFlight, ExecutionState.inFlight]

theorem not_inFlight_of_validResultStatus {status : String} {state : ExecutionState}
    (h : validResultStatus status = some state) : state.inFlight = false := by
  unfold validResultStatus at h
  split at h <;> simp_all [ExecutionState.inFlight]
  all_goals subst h; rfl

theorem retired_recordResult {e : Execution} {state : ExecutionState} (result : ExecutionResult)
    (now : Timestamp) (artifacts' : Table Artifact.id) (uuids' : Nat) (he : e ∈ db.executions)
    (hflight : e.inFlight = true) (hstate : state.inFlight = false) :
    Retired db e (withResult now state result e)
      { recordResult now state result e.id db with artifacts := artifacts', uuids := uuids' } := by
  refine ⟨he, hflight, ⟨rfl, rfl, rfl, rfl, rfl, rfl, rfl, rfl, rfl⟩, hstate,
    (recordResult now state result e.id db).executions, artifacts', uuids', ?_, rfl⟩
  simp only [recordResult, Database.updateExecution]
  exact Table.substituted_update_key he rfl rfl

theorem applyResult_ok {store : OpenStore} {executionId : UUID} {result : ExecutionResult}
    {answer : Execution × Bool}
    (h : applyResult store now executionId result db = .ok (answer, db')) :
    (answer.2 = false ∧ db' = db ∧
      ∃ e ∈ db.executions, e.id = executionId ∧ isTerminalExecution e.state = true) ∨
    (answer.2 = true ∧ ∃ e e' db₁, Settled store now executionId result db e e' db₁ db') := by
  simp only [applyResult, bind_eq_ok, orNotFound_eq_ok, Table.lookup_eq_some_iff] at h
  obtain ⟨e, ⟨he, rfl⟩, h⟩ := h
  split at h
  · rename_i hterminal
    simp only [pure_eq_ok, Prod.mk.injEq] at h
    obtain ⟨rfl, rfl⟩ := h
    exact Or.inl ⟨rfl, rfl, e, he, rfl, hterminal⟩
  · rename_i hterminal
    split at h
    · exact absurd h throw_ne_ok
    · rename_i state hstate
      simp only [bind_eq_ok, pure_eq_ok, Prod.mk.injEq] at h
      obtain ⟨_, hvalid, db₁, hartifacts, db₂, houtcome, updated, -, rfl, rfl⟩ := h
      have hacceptable : Acceptable e result :=
        ⟨by simp [hstate], hvalid, validArtifact_of_ok hartifacts,
          acceptableObservation_of_applyOutcome houtcome⟩
      obtain ⟨artifacts', uuids', rfl⟩ := insertArtifacts_ok hartifacts
      have hretired := retired_recordResult result now artifacts' uuids' he
        (inFlight_of_not_terminal hterminal) (not_inFlight_of_validResultStatus hstate)
      exact Or.inr ⟨rfl, e, _, _, hacceptable, rfl, hretired, hstate, rfl,
        applyOutcome_ok hvalid houtcome⟩

/-- `ApplyResult` answers that the result was accepted. -/
def saysAccepted : Except StoreError ((Execution × Bool) × Database) → Bool
  | .ok ((_, accepted), _) => accepted
  | .error _ => false

/-- What one step of the store does: nothing, the one effect of its operation, a
scheduler pass, a sweep, or what an accepted result does. -/
theorem step_cases (db : Database) (call : Call) :
    step db call = db ∨ Effect call db (step db call) ∨
      (∃ limit locked claimed, call.operation = .claimDueMonitors limit locked ∧
        claimDueMonitors call.now limit locked db = .ok (claimed, step db call)) ∨
      (∃ runningStaleAfter maxAttempts limit locked recoveries,
        call.operation = .sweepStaleExecutions runningStaleAfter maxAttempts limit locked ∧
          sweepStaleExecutions call.now runningStaleAfter maxAttempts limit locked db =
            .ok (recoveries, step db call)) ∨
      ∃ store executionId result e e' db₁, call.operation = .applyResult store executionId result ∧
        saysAccepted (applyResult store call.now executionId result db) = true ∧
        Settled store call.now executionId result db e e' db₁ (step db call) := by
  obtain ⟨now, operation⟩ := call
  cases operation with
  | createMonitor params =>
      rcases commit_cases (createMonitor now params) db with h | ⟨a, h⟩
      · exact Or.inl h
      · exact Or.inr (Or.inl (createMonitor_ok h))
  | getExecutionInput id =>
      rcases commit_cases (getExecutionInput now id) db with h | ⟨a, h⟩
      · exact Or.inl h
      · exact (getExecutionInput_ok h).imp_right Or.inl
  | enqueueCheck monitorId idempotencyKey traceparent =>
      rcases commit_cases (enqueueCheck now monitorId idempotencyKey traceparent) db with h | ⟨a, h⟩
      · exact Or.inl h
      · exact (enqueueCheck_ok h).imp_right Or.inl
  | applyResult store executionId result =>
      rcases commit_cases (applyResult store now executionId result) db with h | ⟨a, h⟩
      · exact Or.inl h
      · rcases applyResult_ok h with ⟨-, hsame, -⟩ | ⟨haccepted, e, e', db₁, hsettled⟩
        · exact Or.inl hsame
        · refine Or.inr (Or.inr (Or.inr (Or.inr
            ⟨store, executionId, result, e, e', db₁, rfl, ?_, hsettled⟩)))
          rw [h]
          exact haccepted
  | confirmMonitor monitorId params =>
      rcases commit_cases (confirmMonitor now monitorId params) db with h | ⟨a, h⟩
      · exact Or.inl h
      · exact Or.inr (Or.inl (confirmMonitor_ok h))
  | patchMonitor id params =>
      rcases commit_cases (patchMonitor now id params) db with h | ⟨a, h⟩
      · exact Or.inl h
      · exact Or.inr (Or.inl (patchMonitor_ok h))
  | reviewRevision monitorId revisionId accept =>
      rcases commit_cases (reviewRevision now monitorId revisionId accept) db with h | ⟨a, h⟩
      · exact Or.inl h
      · exact Or.inr (Or.inl (reviewRevision_ok h))
  | claimDueMonitors limit locked =>
      rcases commit_cases (claimDueMonitors now limit locked) db with h | ⟨a, h⟩
      · exact Or.inl h
      · exact Or.inr (Or.inr (Or.inl ⟨limit, locked, a, rfl, h⟩))
  | sweepStaleExecutions runningStaleAfter maxAttempts limit locked =>
      rcases commit_cases (sweepStaleExecutions now runningStaleAfter maxAttempts limit locked) db
        with h | ⟨a, h⟩
      · exact Or.inl h
      · exact Or.inr (Or.inr (Or.inr (Or.inl
          ⟨runningStaleAfter, maxAttempts, limit, locked, a, rfl, h⟩)))
  | processOutbox locked limit publish commits =>
      exact Or.inr (Or.inl (processOutbox_effect db now locked limit publish commits))

/-- What one step of the store does: the effects of an operation, one after the
other, or what an accepted result does. -/
theorem step_effects (db : Database) (call : Call) :
    Relation.ReflTransGen (Effect call) db (step db call) ∨
      ∃ store executionId result e e' db₁, call.operation = .applyResult store executionId result ∧
        Settled store call.now executionId result db e e' db₁ (step db call) := by
  rcases step_cases db call with h | h | ⟨limit, locked, claimed, hcall, h⟩ |
      ⟨runningStaleAfter, maxAttempts, limit, locked, recoveries, hcall, h⟩ |
      ⟨store, executionId, result, e, e', db₁, hcall, -, hsettled⟩
  · rw [h]
    exact Or.inl .refl
  · exact Or.inl (.single h)
  · have heffects := claimDueMonitors_ok h
    rw [← hcall] at heffects
    exact Or.inl heffects
  · have heffects := sweepStaleExecutions_ok h
    rw [← hcall] at heffects
    exact Or.inl heffects
  · exact Or.inr ⟨store, executionId, result, e, e', db₁, hcall, hsettled⟩

/-- What holds of the empty store and is kept by every effect and by every
accepted result holds in every reachable state. -/
theorem StoreReachable.invariant {Inv : Database → Prop} (hempty : Inv Database.empty)
    (heffect : ∀ call db db', Inv db → Effect call db db' → Inv db')
    (hsettled : ∀ store now executionId result db e e' db₁ db', Inv db →
      Settled store now executionId result db e e' db₁ db' → Inv db')
    {db : Database} (h : StoreReachable db) : Inv db := by
  refine Reachable.invariant hempty (fun s call _ hinv => ?_) h
  rcases step_effects s call with heffects | ⟨store, id, result, e, e', db₁, -, hsettle⟩
  · generalize step s call = s' at heffects
    induction heffects with
    | refl => exact hinv
    | tail _ hlast ih => exact heffect _ _ _ ih hlast
  · exact hsettled _ _ _ _ _ _ _ _ _ hinv hsettle

end PriceScout.Store.Inversions
