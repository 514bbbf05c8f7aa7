import PriceScout.Library.ReadCommitted
import PriceScout.Store.Serialization

/-!
The two ways a check is admitted, statement by statement. Manual checks lock the
monitor before they look for an execution in flight. The scheduler looks in the
same statement that locks, with a snapshot taken before.
-/

namespace PriceScout.Store.Admission

open PriceScout.Domain
open PriceScout.Library.JsonDocuments
open PriceScout.Library.ReadCommitted
open PriceScout.Library.Runs
open PriceScout.Library.Tables
open PriceScout.Store.Alerts
open PriceScout.Store.Executions
open PriceScout.Store.Monitors
open PriceScout.Store.Operations (Call)
open PriceScout.Store.Outbox
open PriceScout.Store.Recovery
open PriceScout.Store.Schema
open PriceScout.Store.Serialization

/-- The committed tables and the number of updates that each row of `monitors` has seen. -/
structure Versioned where
  db : Database
  version : UUID → Nat

/-- The writes of the two transactions. -/
inductive Write where
  | execution (row : Execution)
  | outbox (now : Timestamp) (subject : String) (message : WorkMessage)
  | reschedule (now : Timestamp) (monitorId : UUID)

def onSuccess (d : Versioned) : Except StoreError Database → Versioned
  | .ok db => { d with db }
  | .error _ => d

theorem rescheduled_id (now : Timestamp) (m : Monitor) :
    { m with nextRunAt := some (now + 60 * m.intervalMinutes), updatedAt := now }.id = m.id :=
  rfl

def Write.apply (d : Versioned) : Write → Versioned
  | .execution row => onSuccess d (d.db.insertExecution row)
  | .outbox now subject message => onSuccess d (insertOutbox d.db now subject message)
  | .reschedule now monitorId =>
      { db := d.db.updateMonitor monitorId
          (fun m => { m with nextRunAt := some (now + 60 * m.intervalMinutes), updatedAt := now })
          (rescheduled_id now)
        version := Function.update d.version monitorId (d.version monitorId + 1) }

/-- A call of `EnqueueCheck`, with the time of its transaction and the UUID it draws. -/
structure CheckRequest where
  now : Timestamp
  monitorId : UUID
  idempotencyKey : String
  traceparent : String
  executionId : UUID
deriving DecidableEq

/-- A call of `ClaimDueMonitors`, with the UUIDs it draws. -/
structure SchedulerPass where
  now : Timestamp
  limit : Nat
  executionIds : List UUID
deriving DecidableEq

inductive Request where
  | enqueueCheck (r : CheckRequest)
  | claimDueMonitors (p : SchedulerPass)
deriving DecidableEq

/-- The statement that a transaction executes next, with what it has read so far. -/
inductive Progress where
  | findExisting (r : CheckRequest)
  | lockMonitor (r : CheckRequest)
  | testInFlight (r : CheckRequest) (currentRevisionId : UUID)
  | readGeneration (r : CheckRequest) (currentRevisionId : UUID)
  | insertCheck (r : CheckRequest) (execution : Execution)
  | announceCheck (r : CheckRequest) (execution : Execution)
  | selectDue (p : SchedulerPass)
  | lockDue (p : SchedulerPass) (snapshot : Versioned) (candidates : List Monitor)
      (items : List (UUID × UUID))
  | readDueGeneration (p : SchedulerPass) (item : UUID × UUID) (rest : List (UUID × UUID))
  | insertDue (p : SchedulerPass) (execution : Execution) (rest : List (UUID × UUID))
  | announceDue (p : SchedulerPass) (execution : Execution) (rest : List (UUID × UUID))
  | rescheduleDue (p : SchedulerPass) (monitorId : UUID) (rest : List (UUID × UUID))
  | commit
  | rollback

/-- The rows that the scheduler's statement locks one by one: those that its
snapshot shows as due, longest due first. -/
def dueRows (now : Timestamp) (db : Database) : List Monitor :=
  (db.monitors.rows.filter (due now db)).insertionSort
    fun a b => a.nextRunAt.getD 0 ≤ b.nextRunAt.getD 0

/-- What the scheduler takes of a row once it is locked. Only a row that was
updated since the snapshot is tested again, against the executions of the snapshot. -/
def requalify (now : Timestamp) (snapshot current : Versioned) (m : Monitor) :
    Option (UUID × UUID) :=
  if current.version m.id = snapshot.version m.id then m.currentRevisionId.map fun id => (m.id, id)
  else (current.db.monitors.lookup m.id).bind fun m' =>
    if due now snapshot.db m' then m'.currentRevisionId.map fun id => (m.id, id) else none

/-- The next claimed monitor of the scheduler's loop. -/
def nextDue (p : SchedulerPass) : List (UUID × UUID) → Progress
  | [] => .commit
  | item :: rest => .readDueGeneration p item rest

/-- The UUID that is drawn when this many items are left. -/
def drawn (p : SchedulerPass) (left : Nat) : UUID :=
  (p.executionIds[left]?).getD ⟨0⟩

def initial : Request → Progress
  | .enqueueCheck r => if r.idempotencyKey = "" then .lockMonitor r else .findExisting r
  | .claimDueMonitors p => .selectDue p

def statement : Progress → Statement UUID Versioned Write Progress
  | .findExisting r => .select fun d =>
      match existingExecution r.monitorId r.idempotencyKey d.db with
      | some _ => .rollback
      | none => .lockMonitor r
  | .lockMonitor r => .lock r.monitorId fun d =>
      match d.db.monitors.lookup r.monitorId with
      | none => .rollback
      | some monitor => match monitor.status, monitor.currentRevisionId with
        | .active, some currentRevisionId => .testInFlight r currentRevisionId
        | _, _ => .rollback
  | .testInFlight r currentRevisionId => .select fun d =>
      if d.db.executions.any (inFlightOf r.monitorId) then .rollback
      else .readGeneration r currentRevisionId
  | .readGeneration r currentRevisionId => .select fun d =>
      match d.db.revisions.lookup currentRevisionId with
      | none => .rollback
      | some revision => .insertCheck r (checkExecution r.now r.executionId r.monitorId
          currentRevisionId revision.generation r.idempotencyKey)
  | .insertCheck r execution => .write fun d =>
      match d.db.insertExecution execution with
      | .ok _ => some (.execution execution, .announceCheck r execution)
      | .error _ => none
  | .announceCheck r execution => .write fun _ =>
      some (.outbox r.now "scout.monitor.check" (workMessage execution.id execution.monitorId
        execution.revisionId r.traceparent), .commit)
  | .selectDue p => .select fun d => .lockDue p d (dueRows p.now d.db) []
  | .lockDue p snapshot candidates items =>
      match candidates with
      | [] => .select fun _ => nextDue p items
      | m :: rest =>
          if items.length = p.limit then .select fun _ => nextDue p items
          else .lockOrSkip m.id
            (fun d => .lockDue p snapshot rest (items ++ (requalify p.now snapshot d m).toList))
            (.lockDue p snapshot rest items)
  | .readDueGeneration p item rest => .select fun d =>
      match d.db.revisions.lookup item.2 with
      | none => .rollback
      | some revision => .insertDue p (checkExecution p.now (drawn p rest.length) item.1 item.2
          revision.generation "") rest
  | .insertDue p execution rest => .write fun d =>
      match d.db.insertExecution execution with
      | .ok _ => some (.execution execution, .announceDue p execution rest)
      | .error _ => none
  | .announceDue p execution rest => .write fun _ =>
      some (.outbox p.now "scout.monitor.check" (workMessage execution.id execution.monitorId
        execution.revisionId ""), .rescheduleDue p execution.monitorId rest)
  | .rescheduleDue p monitorId rest => .write fun _ =>
      some (.reschedule p.now monitorId, nextDue p rest)
  | .commit => .commit
  | .rollback => .rollback

def admission : System UUID Request Versioned Write Progress where
  apply w d := w.apply d
  initial := initial
  statement := statement

abbrev State := World UUID Nat Versioned Write Progress

/-- The monitor that the next statement of a scheduler's transaction takes. -/
def takenBy (w : State) : Event Nat Request → Option UUID
  | .advance t => (w.active t).bind fun tx =>
      match tx.state with
      | .lockDue p snapshot (m :: _) items =>
          if items.length ≠ p.limit ∧ w.Free m.id t then
            (requalify p.now snapshot (admission.view tx.writes w.committed) m).map (·.1)
          else none
      | _ => none
  | _ => none

/-- No check of the monitor is committed when the scheduler takes it. -/
def TakesIdle (monitorId : UUID) (w : State) (event : Event Nat Request) : Prop :=
  takenBy w event = some monitorId →
    w.committed.db.executions.any (inFlightOf monitorId) = false

instance (monitorId : UUID) (w : State) (event : Event Nat Request) :
    Decidable (TakesIdle monitorId w event) :=
  inferInstanceAs (Decidable (_ → _))

/-- The executions of a monitor that are queued or running. -/
def inFlightCount (monitorId : UUID) (d : Versioned) : Nat :=
  d.db.executions.count (inFlightOf monitorId)

/-- The monitor of the execution that a write inserts. -/
def Write.target : Write → Option UUID
  | .execution row => some row.monitorId
  | _ => none

/-- The monitors that a transaction is still going to insert a check for. -/
def Progress.admitted : Progress → List UUID
  | .readGeneration r _ => [r.monitorId]
  | .insertCheck _ execution => [execution.monitorId]
  | .lockDue _ _ _ items => items.map (·.1)
  | .readDueGeneration _ item rest => item.1 :: rest.map (·.1)
  | .insertDue _ execution rest => execution.monitorId :: rest.map (·.1)
  | .announceDue _ _ rest => rest.map (·.1)
  | .rescheduleDue _ _ rest => rest.map (·.1)
  | _ => []

/-- The monitors that a transaction may still decide to insert a check for. -/
def Progress.candidates : Progress → List UUID
  | .findExisting r => [r.monitorId]
  | .lockMonitor r => [r.monitorId]
  | .testInFlight r _ => [r.monitorId]
  | .lockDue _ _ candidates _ => candidates.map (·.id)
  | _ => []

/-- The monitors that a transaction inserts a check for. -/
def admits (tx : Transaction Write Progress) : List UUID :=
  tx.writes.filterMap Write.target ++ tx.state.admitted

/-- The monitor that a transaction has locked to look for executions in flight. -/
def Progress.testing : Progress → Option UUID
  | .testInFlight r _ => some r.monitorId
  | _ => none

def Testing (monitorId : UUID) (tx : Transaction Write Progress) : Prop :=
  tx.state.testing = some monitorId

def Progress.starting : Progress → Bool
  | .selectDue _ => true
  | _ => false

/-- No transaction inserts two checks of one monitor. -/
structure Distinct (tx : Transaction Write Progress) : Prop where
  nodup : (admits tx ++ tx.state.candidates).Nodup
  unwritten : tx.state.starting = true → tx.writes = []

/-- The next state plans no check that the last one did not. -/
structure Narrows (state next : Progress) : Prop where
  admitted : next.admitted.Sublist state.admitted
  candidates : next.candidates.Sublist state.candidates
  started : next.starting = false
  testing : ∀ id, next.testing = some id → ∃ r, state = .lockMonitor r ∧ r.monitorId = id

def IdleIn (monitorId : UUID) (d : Versioned) : Prop :=
  d.db.executions.any (inFlightOf monitorId) = false

section Writes

variable {monitorId : UUID} {d : Versioned} {x : Write}

theorem apply_cases (x : Write) (d : Versioned) :
    (x.apply d).db.executions = d.db.executions ∨
      ∃ row, x.target = some row.monitorId ∧
        d.db.executions.Appended row (x.apply d).db.executions := by
  cases x with
  | execution row =>
      simp only [Write.apply]
      cases h : d.db.insertExecution row with
      | error e => exact Or.inl rfl
      | ok db =>
          obtain ⟨executions', happended, rfl, -⟩ := Database.insertExecution_ok h
          exact Or.inr ⟨row, rfl, happended⟩
  | outbox now subject message =>
      left
      simp only [Write.apply]
      cases h : insertOutbox d.db now subject message with
      | error e => rfl
      | ok db =>
          simp only [insertOutbox, bind_eq_ok, pure_eq_ok] at h
          obtain ⟨outbox', -, rfl⟩ := h
          rfl
  | reschedule now monitorId => exact Or.inl rfl

theorem inFlightCount_apply (monitorId : UUID) (x : Write) (d : Versioned) :
    inFlightCount monitorId (x.apply d) ≤
      inFlightCount monitorId d + (x.target.toList).count monitorId := by
  unfold inFlightCount Table.count
  rcases apply_cases x d with heq | ⟨row, htarget, happended⟩
  · rw [heq]
    exact Nat.le_add_right _ _
  · rw [happended, List.countP_append, htarget]
    apply Nat.add_le_add_left
    by_cases hrow : row.monitorId = monitorId
    · simp [hrow, List.countP_singleton]
      split <;> omega
    · simp [inFlightOf, hrow]

theorem inFlightCount_view (monitorId : UUID) (writes : List Write) (d : Versioned) :
    inFlightCount monitorId (admission.view writes d) ≤
      inFlightCount monitorId d + (writes.filterMap Write.target).count monitorId := by
  induction writes generalizing d with
  | nil => exact Nat.le_add_right _ _
  | cons x writes ih =>
      have hstep := inFlightCount_apply monitorId x d
      have hrest := ih (x.apply d)
      have hcount : ((x :: writes).filterMap Write.target).count monitorId =
          x.target.toList.count monitorId + (writes.filterMap Write.target).count monitorId := by
        cases hx : x.target <;> simp [hx, List.count_cons, Nat.add_comm]
      rw [hcount]
      exact hrest.trans (by omega)

theorem idleIn_iff : IdleIn monitorId d ↔ inFlightCount monitorId d = 0 := by
  unfold IdleIn inFlightCount
  rw [Table.count_eq_zero_iff, Table.any_eq_false_iff]

/-- A transaction sees no fewer executions than are committed. -/
theorem idleIn_of_view {writes : List Write} (h : IdleIn monitorId (admission.view writes d)) :
    IdleIn monitorId d := by
  induction writes generalizing d with
  | nil => exact h
  | cons x writes ih =>
      have hidle : IdleIn monitorId (x.apply d) := ih h
      unfold IdleIn at hidle ⊢
      rw [Table.any_eq_false_iff] at hidle ⊢
      rcases apply_cases x d with heq | ⟨row, -, happended⟩
      · rwa [heq] at hidle
      · exact fun e he => hidle e (happended.mem_of_mem he)

/-- Transactions that insert no check of the monitor leave it idle. -/
theorem idleIn_view {tx : Transaction Write Progress} (hnot : monitorId ∉ admits tx)
    (h : IdleIn monitorId d) : IdleIn monitorId (admission.view tx.writes d) := by
  rw [idleIn_iff] at h ⊢
  have hwrites : monitorId ∉ tx.writes.filterMap Write.target := fun hmem =>
    hnot (List.mem_append_left _ hmem)
  have := inFlightCount_view monitorId tx.writes d
  rw [h, List.count_eq_zero_of_not_mem hwrites] at this
  omega

end Writes

section Statements

variable {monitorId : UUID} {d : Versioned} {state next : Progress}

theorem requalify_fst {now : Timestamp} {snapshot current : Versioned} {m : Monitor}
    {item : UUID × UUID} (h : requalify now snapshot current m = some item) : item.1 = m.id := by
  unfold requalify at h
  split at h
  · obtain ⟨id, -, rfl⟩ := Option.map_eq_some_iff.mp h
    rfl
  · obtain ⟨m', -, h⟩ := Option.bind_eq_some_iff.mp h
    split at h
    · obtain ⟨id, -, rfl⟩ := Option.map_eq_some_iff.mp h
      rfl
    · cases h

theorem nodup_dueRows (now : Timestamp) (db : Database) : ((dueRows now db).map (·.id)).Nodup := by
  unfold dueRows
  rw [((List.perm_insertionSort _ _).map _).nodup_iff]
  exact (List.filter_sublist.map _).nodup db.monitors.nodup

theorem narrows_rollback : Narrows state .rollback :=
  ⟨List.nil_sublist _, List.nil_sublist _, rfl, fun _ h => nomatch h⟩

theorem narrows_nextDue (p : SchedulerPass) (snapshot : Versioned) (candidates : List Monitor)
    (items : List (UUID × UUID)) :
    Narrows (.lockDue p snapshot candidates items) (nextDue p items) := by
  cases items <;> exact ⟨List.Sublist.refl _, List.nil_sublist _, rfl, fun _ h => nomatch h⟩

/-- A plain read plans no more checks, unless it finds a monitor idle or the due monitors. -/
theorem select_cases {read : Versioned → Progress} (h : statement state = .select read) :
    Narrows state (read d) ∨
      (∃ r currentRevisionId, state = .testInFlight r currentRevisionId ∧ IdleIn r.monitorId d ∧
        read d = .readGeneration r currentRevisionId) ∨
      ∃ p, state = .selectDue p ∧ read d = .lockDue p d (dueRows p.now d.db) [] := by
  cases state with
  | findExisting r =>
      cases h
      dsimp only
      split
      · exact Or.inl narrows_rollback
      · exact Or.inl ⟨List.Sublist.refl _, List.Sublist.refl _, rfl, fun _ h => nomatch h⟩
  | testInFlight r currentRevisionId =>
      cases h
      dsimp only
      split
      · exact Or.inl narrows_rollback
      · rename_i hidle
        exact Or.inr (Or.inl ⟨r, currentRevisionId, rfl, by simpa [IdleIn] using hidle, rfl⟩)
  | readGeneration r currentRevisionId =>
      cases h
      dsimp only
      split
      · exact Or.inl narrows_rollback
      · exact Or.inl ⟨List.Sublist.refl _, List.Sublist.refl _, rfl, fun _ h => nomatch h⟩
  | selectDue p =>
      cases h
      exact Or.inr (Or.inr ⟨p, rfl, rfl⟩)
  | lockDue p snapshot candidates items =>
      left
      simp only [statement] at h
      split at h
      · cases h
        exact narrows_nextDue p snapshot _ items
      · split at h
        · cases h
          exact narrows_nextDue p snapshot _ items
        · cases h
  | readDueGeneration p item rest =>
      cases h
      dsimp only
      split
      · exact Or.inl narrows_rollback
      · exact Or.inl ⟨List.Sublist.refl _, List.Sublist.refl _, rfl, fun _ h => nomatch h⟩
  | lockMonitor | insertCheck | announceCheck | insertDue | announceDue | rescheduleDue | commit
  | rollback => cases h

/-- A row lock plans no more checks, unless the scheduler takes the row. -/
theorem lock_cases {key : UUID} {read : Versioned → Progress}
    (h : statement state = .lock key read ∨ ∃ skipped,
      statement state = .lockOrSkip key read skipped) :
    (∃ r, state = .lockMonitor r ∧ key = r.monitorId ∧ Narrows state (read d)) ∨
      ∃ p snapshot m rest items, state = .lockDue p snapshot (m :: rest) items ∧
        items.length ≠ p.limit ∧ key = m.id ∧
        read d = .lockDue p snapshot rest (items ++ (requalify p.now snapshot d m).toList) := by
  cases state with
  | lockMonitor r =>
      left
      simp only [statement, Statement.lock.injEq, reduceCtorEq, exists_false, or_false] at h
      obtain ⟨rfl, rfl⟩ := h
      refine ⟨r, rfl, rfl, ?_⟩
      dsimp only
      split
      · exact narrows_rollback
      · split
        · exact ⟨List.Sublist.refl _, List.Sublist.refl _, rfl,
            fun _ h => ⟨r, rfl, Option.some.inj h⟩⟩
        · exact narrows_rollback
  | lockDue p snapshot candidates items =>
      right
      simp only [statement] at h
      split at h
      · simp at h
      · rename_i m rest
        split at h
        · simp at h
        · rename_i hlimit
          simp only [reduceCtorEq, Statement.lockOrSkip.injEq, false_or] at h
          obtain ⟨skipped, rfl, rfl, -⟩ := h
          exact ⟨p, snapshot, m, rest, items, rfl, hlimit, rfl, rfl⟩
  | findExisting | testInFlight | readGeneration | insertCheck | announceCheck | selectDue
  | readDueGeneration | insertDue | announceDue | rescheduleDue | commit | rollback =>
      simp [statement] at h

theorem skip_cases {key : UUID} {read : Versioned → Progress} {skipped : Progress}
    (h : statement state = .lockOrSkip key read skipped) : Narrows state skipped := by
  cases state with
  | lockDue p snapshot candidates items =>
      simp only [statement] at h
      split at h
      · cases h
      · split at h
        · cases h
        · cases h
          exact ⟨List.Sublist.refl _, List.sublist_cons_self _ _, rfl, fun _ h => nomatch h⟩
  | findExisting | lockMonitor | testInFlight | readGeneration | insertCheck | announceCheck
  | selectDue | readDueGeneration | insertDue | announceDue | rescheduleDue | commit | rollback =>
      cases h

/-- A write inserts the next check that was planned, or none. -/
theorem write_cases {attempt : Versioned → Option (Write × Progress)} {x : Write}
    (h : statement state = .write attempt) (hattempt : attempt d = some (x, next)) :
    x.target.toList ++ next.admitted = state.admitted ∧ next.candidates = [] ∧
      next.starting = false ∧ next.testing = none := by
  cases state with
  | insertCheck r execution | insertDue p execution rest =>
      cases h
      dsimp only at hattempt
      split at hattempt
      · cases hattempt
        exact ⟨rfl, rfl, rfl, rfl⟩
      · cases hattempt
  | announceCheck r execution | announceDue p execution rest =>
      cases h
      cases hattempt
      exact ⟨rfl, rfl, rfl, rfl⟩
  | rescheduleDue p monitorId rest =>
      cases h
      cases hattempt
      cases rest <;> exact ⟨rfl, rfl, rfl, rfl⟩
  | findExisting | lockMonitor | testInFlight | readGeneration | selectDue | readDueGeneration
  | commit | rollback => cases h
  | lockDue p snapshot candidates items =>
      simp only [statement] at h
      split at h
      · cases h
      · split at h <;> cases h

end Statements

section Transactions

variable {monitorId : UUID} {w w' : State} {event : Event Nat Request}

theorem Distinct.narrows {tx : Transaction Write Progress} {next : Progress} (h : Distinct tx)
    (hnarrows : Narrows tx.state next) : Distinct ⟨next, tx.writes⟩ := by
  refine ⟨List.Nodup.sublist ?_ h.nodup, fun hstarting => ?_⟩
  · exact ((List.Sublist.refl _).append hnarrows.admitted).append hnarrows.candidates
  · simp [hnarrows.started] at hstarting

theorem admits_write {tx : Transaction Write Progress} {x : Write} {next : Progress}
    (h : x.target.toList ++ next.admitted = tx.state.admitted) :
    admits ⟨next, tx.writes ++ [x]⟩ = admits tx := by
  unfold admits
  rw [← h, List.filterMap_append, List.append_assoc]
  cases hx : x.target <;> simp [hx]

theorem distinct_initial (request : Request) : Distinct ⟨initial request, []⟩ := by
  cases request with
  | claimDueMonitors p => exact ⟨List.nodup_nil, fun _ => rfl⟩
  | enqueueCheck r =>
      simp only [initial]
      split <;> exact ⟨List.nodup_singleton r.monitorId, fun _ => rfl⟩

theorem distinct_step (h : ∀ t tx, w.active t = some tx → Distinct tx)
    (hstep : Step admission w event w') : ∀ t tx, w'.active t = some tx → Distinct tx := by
  refine forall_active h distinct_initial ?_ ?_ ?_ ?_ hstep
  · intro tx read d hdistinct hstatement
    rcases select_cases (d := d) hstatement with
      hnarrows | ⟨r, id, hstate, -, hread⟩ | ⟨p, hstate, hread⟩
    · exact hdistinct.narrows hnarrows
    · have hnodup := hdistinct.nodup
      rw [hread]
      rw [hstate] at hnodup
      refine ⟨?_, fun hstarting => nomatch hstarting⟩
      simpa [admits, hstate, Progress.admitted, Progress.candidates] using hnodup
    · rw [hread, hdistinct.unwritten (by rw [hstate]; rfl)]
      exact ⟨nodup_dueRows p.now d.db, fun _ => rfl⟩
  · intro tx key read d hdistinct hstatement
    rcases lock_cases (d := d) hstatement with ⟨r, -, -, hnarrows⟩ |
      ⟨p, snapshot, m, rest, items, hstate, -, -, hread⟩
    · exact hdistinct.narrows hnarrows
    · have hnodup := hdistinct.nodup
      rw [hread]
      refine ⟨List.Nodup.sublist ?_ hnodup, fun hstarting => nomatch hstarting⟩
      have htaken : ((requalify p.now snapshot d m).toList.map (·.1)).Sublist [m.id] := by
        cases hitem : requalify p.now snapshot d m with
        | none => exact List.nil_sublist _
        | some item => simp [requalify_fst hitem]
      rw [hstate]
      simp only [admits, hstate, Progress.admitted, Progress.candidates, List.map_append,
        List.map_cons, List.append_assoc]
      refine (List.Sublist.refl _).append ((List.Sublist.refl _).append ?_)
      exact htaken.append (List.Sublist.refl _)
  · intro tx key read skipped hdistinct hstatement
    exact hdistinct.narrows (skip_cases hstatement)
  · intro tx attempt d x next hdistinct hstatement hattempt
    obtain ⟨hadmitted, hcandidates, hstarting, -⟩ := write_cases hstatement hattempt
    refine ⟨?_, fun hstarting' => by simp [hstarting] at hstarting'⟩
    rw [admits_write hadmitted, hcandidates, List.append_nil]
    exact (List.sublist_append_left _ _).nodup hdistinct.nodup

/-- A transaction tests for executions in flight only under the lock of the monitor. -/
theorem justified_testing (hstep : Step admission w event w') :
    Justified (Testing monitorId) (fun _ => True) monitorId w w' := by
  refine .of_statements ?_ ?_ ?_ ?_ ?_ hstep
  · rintro request htesting
    cases request with
    | claimDueMonitors p => cases htesting
    | enqueueCheck r =>
        change (initial (.enqueueCheck r)).testing = _ at htesting
        simp only [initial] at htesting
        split at htesting <;> cases htesting
  · intro t tx read hactive hstatement htesting
    rcases select_cases (d := admission.view tx.writes w.committed) hstatement with
      hnarrows | ⟨r, id, hstate, -, hread⟩ | ⟨p, hstate, hread⟩
    · obtain ⟨r, hstate, -⟩ := hnarrows.testing monitorId htesting
      rw [hstate] at hstatement
      cases hstatement
    · simp [Testing, hread, Progress.testing] at htesting
    · simp [Testing, hread, Progress.testing] at htesting
  · intro t tx key read hevent hactive hfree hstatement htesting
    rcases lock_cases (d := admission.view tx.writes w.committed) hstatement with
      ⟨r, hstate, rfl, hnarrows⟩ | ⟨p, snapshot, m, rest, items, -, -, -, hread⟩
    · obtain ⟨q, hlock, rfl⟩ := hnarrows.testing monitorId htesting
      rw [hstate] at hlock
      cases hlock
      exact Or.inr ⟨rfl, trivial⟩
    · simp [Testing, hread, Progress.testing] at htesting
  · intro tx key read skipped hstatement htesting
    obtain ⟨r, hstate, -⟩ := (skip_cases hstatement).testing monitorId htesting
    rw [hstate] at hstatement
    cases hstatement
  · intro tx attempt d x next hstatement hattempt htesting
    obtain ⟨-, -, -, hnone⟩ := write_cases hstatement hattempt
    simp [Testing, hnone] at htesting

theorem mem_admits_of_narrows {tx : Transaction Write Progress} {next : Progress}
    (hnarrows : Narrows tx.state next) (h : monitorId ∈ admits ⟨next, tx.writes⟩) :
    monitorId ∈ admits tx :=
  (List.Sublist.append (List.Sublist.refl _) hnarrows.admitted).subset h

/-- A transaction admits a check only under the lock of an idle monitor, when
the scheduler takes the monitor only while it is idle. -/
theorem justified_admits (htesting : Protected (Testing monitorId) (fun _ => True) monitorId w)
    (htakes : TakesIdle monitorId w event) (hstep : Step admission w event w') :
    Justified (fun tx => monitorId ∈ admits tx) (IdleIn monitorId) monitorId w w' := by
  refine .of_statements ?_ ?_ ?_ ?_ ?_ hstep
  · intro request hmem
    cases request with
    | claimDueMonitors p => cases hmem
    | enqueueCheck r =>
        change monitorId ∈ (initial (.enqueueCheck r)).admitted at hmem
        simp only [initial] at hmem
        split at hmem <;> cases hmem
  · intro t tx read hactive hstatement hmem
    rcases select_cases (d := admission.view tx.writes w.committed) hstatement with
      hnarrows | ⟨r, id, hstate, hidle, hread⟩ | ⟨p, hstate, hread⟩
    · exact Or.inl (mem_admits_of_narrows hnarrows hmem)
    · rw [hread] at hmem
      rcases List.mem_append.mp hmem with hwritten | hnew
      · exact Or.inl (List.mem_append_left _ hwritten)
      · obtain rfl := List.mem_singleton.mp hnew
        right
        refine ⟨(htesting t tx hactive ?_).1, idleIn_of_view hidle⟩
        simp [Testing, hstate, Progress.testing]
    · rw [hread] at hmem
      simp only [admits, Progress.admitted, List.map_nil, List.append_nil] at hmem
      exact Or.inl (List.mem_append_left _ hmem)
  · intro t tx key read hevent hactive hfree hstatement hmem
    rcases lock_cases (d := admission.view tx.writes w.committed) hstatement with
      ⟨r, hstate, -, hnarrows⟩ | ⟨p, snapshot, m, rest, items, hstate, hlimit, rfl, hread⟩
    · exact Or.inl (mem_admits_of_narrows hnarrows hmem)
    · rw [hread] at hmem
      simp only [admits, hstate, Progress.admitted, List.map_append, List.mem_append] at hmem ⊢
      rcases hmem with hwritten | hitems | htaken
      · exact Or.inl (Or.inl hwritten)
      · exact Or.inl (Or.inr hitems)
      · right
        cases hitem : requalify p.now snapshot (admission.view tx.writes w.committed) m with
        | none => simp [hitem] at htaken
        | some item =>
            have hid := requalify_fst hitem
            obtain rfl : monitorId = m.id := by simpa [hitem, hid] using htaken
            refine ⟨rfl, htakes ?_⟩
            simp [takenBy, hevent, hactive, hstate, hlimit, hfree, hitem, hid]
  · intro tx key read skipped hstatement hmem
    exact mem_admits_of_narrows (skip_cases hstatement) hmem
  · intro tx attempt d x next hstatement hattempt hmem
    rwa [admits_write (write_cases hstatement hattempt).1] at hmem

/-- What holds of the monitor as long as the scheduler takes it only while it is idle. -/
structure Admitted (monitorId : UUID) (w : State) : Prop where
  testing : Protected (Testing monitorId) (fun _ => True) monitorId w
  admitting : Protected (fun tx => monitorId ∈ admits tx) (IdleIn monitorId) monitorId w
  distinct : ∀ t tx, w.active t = some tx → Distinct tx
  single : inFlightCount monitorId w.committed ≤ 1

theorem Admitted.step (h : Admitted monitorId w) (htakes : TakesIdle monitorId w event) :
    Admitted monitorId (step admission w event) := by
  have hstep := step_step admission w event
  generalize Library.ReadCommitted.step admission w event = w' at hstep
  refine ⟨h.testing.step (fun _ _ _ _ => trivial) (justified_testing hstep) hstep,
    h.admitting.step (fun tx d hnot hidle => idleIn_view hnot hidle)
      (justified_admits h.testing htakes hstep) hstep,
    distinct_step h.distinct hstep, ?_⟩
  cases hstep with
  | unchanged | started | selected | locked | skipped | wrote | ended => exact h.single
  | committed t tx hactive hstatement =>
      refine (inFlightCount_view monitorId tx.writes w.committed).trans ?_
      by_cases hmem : monitorId ∈ tx.writes.filterMap Write.target
      · have hidle := (h.admitting t tx hactive (List.mem_append_left _ hmem)).2
        rw [idleIn_iff.mp hidle, Nat.zero_add]
        have hnodup := (h.distinct t tx hactive).nodup
        rw [admits, List.append_assoc] at hnodup
        exact List.nodup_iff_count_le_one.mp ((List.sublist_append_left _ _).nodup hnodup) monitorId
      · rw [List.count_eq_zero_of_not_mem hmem]
        exact h.single

theorem admitted_quiet {d : Versioned} (hidle : IdleIn monitorId d) :
    Admitted monitorId (World.quiet d) := by
  refine ⟨protected_quiet d, protected_quiet d, fun t tx h => (nomatch h), ?_⟩
  rw [show (World.quiet d : State).committed = d from rfl, idleIn_iff.mp hidle]
  exact Nat.zero_le 1

end Transactions

/-- However checks are admitted for a monitor with nothing in flight, at most
one is queued, as long as the scheduler takes the monitor only while no
execution of it has been committed. -/
theorem at_most_one_admitted (d : Versioned) (monitorId : UUID) (events : List (Event Nat Request))
    (hidle : IdleIn monitorId d)
    (htakes : ∀ n (h : n < events.length),
      TakesIdle monitorId (stateAt (step admission) (World.quiet d) events n) events[n]) :
    ∀ n, inFlightCount monitorId
      (stateAt (step admission) (World.quiet d) events n).committed ≤ 1 := by
  suffices h : ∀ n, Admitted monitorId (stateAt (step admission) (World.quiet d) events n) from
    fun n => (h n).single
  intro n
  induction n with
  | zero => exact admitted_quiet hidle
  | succ n ih =>
      by_cases hn : n < events.length
      · rw [stateAt_succ hn]
        exact ih.step (htakes n hn)
      · rwa [stateAt_succ_of_length_le (Nat.le_of_not_lt hn)]

/-- An active monitor with a plan that is due. -/
def dueMonitor : Versioned where
  db := run Operations.step Database.empty
    [⟨0, .createMonitor ⟨"https://shop.example/item", "price of the item", 60, ""⟩⟩,
     ⟨1, .applyResult (openStore [] 3) ⟨2⟩
       { ExecutionResult.bare "succeeded" "" with plan := some (.obj []) }⟩,
     ⟨2, .confirmMonitor ⟨1⟩ ⟨⟨3⟩, none⟩⟩,
     ⟨3, .patchMonitor ⟨1⟩ ⟨none, none, .resume⟩⟩]
  version := fun _ => 0

def manualCheck : Request :=
  .enqueueCheck ⟨11, ⟨1⟩, "", "", ⟨101⟩⟩

def scheduledCheck : Request :=
  .claimDueMonitors ⟨10, 1, [⟨100⟩]⟩

/-- The scheduler takes its snapshot, then a manual check is admitted and
committed, then the scheduler locks the monitor. -/
def overlapping : List (Event Nat Request) :=
  [.start 0 scheduledCheck, .advance 0, .start 1 manualCheck] ++ List.replicate 6 (.advance 1) ++
    List.replicate 7 (.advance 0)

/-- The same transactions one after the other. -/
def consecutive : List (Event Nat Request) :=
  .start 1 manualCheck :: List.replicate 6 (.advance 1) ++
    .start 0 scheduledCheck :: List.replicate 3 (.advance 0)

theorem overlapping_admits_two :
    ¬ ∀ (d : Versioned) (monitorId : UUID) (events : List (Event Nat Request)),
      IdleIn monitorId d →
      (∀ t, (run (step admission) (World.quiet d) events).active t = none) →
      inFlightCount monitorId (run (step admission) (World.quiet d) events).committed ≤ 1 := by
  intro h
  have hcount : inFlightCount ⟨1⟩
      (run (step admission) (World.quiet dueMonitor) overlapping).committed = 2 := by
    decide +kernel
  have hclosed : ∀ t,
    (run (step admission) (World.quiet dueMonitor) overlapping).active t = none := by
    intro t
    match t with
    | 0 | 1 => exact Option.isNone_iff_eq_none.mp (by decide +kernel)
    | t + 2 =>
        refine active_eq_none dueMonitor fun request hmem => ?_
        simp [overlapping] at hmem
  have := h dueMonitor ⟨1⟩ overlapping (by unfold IdleIn; decide +kernel) hclosed
  omega

theorem at_most_one_admitted_consecutive :
    IdleIn ⟨1⟩ dueMonitor ∧ ∀ n, inFlightCount ⟨1⟩
      (stateAt (step admission) (World.quiet dueMonitor) consecutive n).committed ≤ 1 := by
  have hidle : IdleIn ⟨1⟩ dueMonitor := by
    unfold IdleIn
    decide +kernel
  exact ⟨hidle, at_most_one_admitted dueMonitor ⟨1⟩ consecutive hidle (by decide +kernel)⟩

end PriceScout.Store.Admission
