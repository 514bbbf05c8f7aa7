import PriceScout.Store.Admission
import PriceScout.Store.OutboxCorrespondence
import PriceScout.Store.Promotion

/-!
Manual checks that are requested again with the key of an earlier request,
statement by statement, and what each request is answered.
-/

namespace PriceScout.Store.RepeatedChecks

open PriceScout.Domain
open PriceScout.Library.GoStrings
open PriceScout.Library.JsonDocuments
open PriceScout.Library.ReadCommitted
open PriceScout.Library.Runs
open PriceScout.Library.Tables
open PriceScout.Store.Admission
open PriceScout.Store.Alerts
open PriceScout.Store.Executions
open PriceScout.Store.Generations
open PriceScout.Store.Operations (StoreReachable)
open PriceScout.Store.Outbox
open PriceScout.Store.OutboxCorrespondence
open PriceScout.Store.Recovery
open PriceScout.Store.Schema

/-- What `EnqueueCheck` returns. -/
inductive Reply where
  | returned (execution : Execution) (created : Bool)
  | refused (error : StoreError)

def Reply.created : Reply → Bool
  | .returned _ created => created
  | .refused _ => false

def insertedRow : Write → Option Execution
  | .execution row => some row
  | _ => none

/-- The answer that the next statement of a call leads to, when it ends the call. -/
def replyOf (tx : Transaction Write Progress) (d : Versioned) : Option Reply :=
  match tx.state with
  | .findExisting r =>
      (existingExecution r.monitorId r.idempotencyKey d.db).map fun e => .returned e false
  | .lockMonitor r =>
      match d.db.monitors.lookup r.monitorId with
      | none => some (.refused .notFound)
      | some monitor => match monitor.status, monitor.currentRevisionId with
        | .active, some _ => none
        | _, _ => some (.refused .conflict)
  | .testInFlight r _ =>
      if d.db.executions.any (inFlightOf r.monitorId) then some (.refused .conflict) else none
  | .readGeneration _ currentRevisionId =>
      match d.db.revisions.lookup currentRevisionId with
      | none => some (.refused (.failed "no rows in result set"))
      | some _ => none
  | .insertCheck _ execution =>
      match d.db.insertExecution execution with
      | .ok _ => none
      | .error error => some (.refused error)
  | .commit => (tx.writes.findSome? insertedRow).map fun e => .returned e true
  | _ => none

/-- The call has to wait for the lock of its monitor. -/
def waits (w : State) (t : Nat) : Progress → Bool
  | .lockMonitor r => !decide (w.Free r.monitorId t)
  | _ => false

def reply (w : State) (t : Nat) : Option Reply :=
  (w.active t).bind fun tx =>
    if waits w t tx.state then none else replyOf tx (admission.view tx.writes w.committed)

/-- Calls at work, and the answers given so far. -/
structure Session where
  world : State
  replies : List (Nat × Reply)

def opened (d : Versioned) (calls : List CheckRequest) : Session where
  world :=
    { committed := d
      holder := fun _ => none
      active := fun t => calls[t]?.map fun r => ⟨initial (.enqueueCheck r), []⟩ }
  replies := []

/-- Let a call execute its next statement. -/
def Session.advance (s : Session) (t : Nat) : Session where
  world := step admission s.world (.advance t)
  replies := s.replies ++ (reply s.world t).toList.map fun answer => (t, answer)

/-- The call has looked its key up, found nothing and not ended yet. -/
def missed : Progress → Bool
  | .lockMonitor _ | .testInFlight _ _ | .readGeneration _ _ | .insertCheck _ _
  | .announceCheck _ _ | .commit => true
  | _ => false

/-- A call looks its key up only while no other that found nothing is still at work. -/
def LooksUpAlone (w : State) (t : Nat) : Prop :=
  ∀ tx, w.active t = some tx → (∃ r, tx.state = .findExisting r) →
    ∀ u tx', w.active u = some tx' → missed tx'.state = false

/-- Every call is answered with one execution, which one of them has created. -/
structure AnsweredWith (d : Versioned) (calls : List CheckRequest) (s : Session) (e : Execution) :
    Prop where
  all : ∀ t < calls.length, ∃ created, (t, .returned e created) ∈ s.replies
  only : ∀ x ∈ s.replies, ∃ created, x.2 = .returned e created
  once : (s.replies.filter fun x => x.2.created).length = 1
  execution : d.db.executions.Appended e s.world.committed.db.executions
  announcement : ∃ row, d.db.outbox.Appended row s.world.committed.db.outbox ∧
    row.payload.executionId = e.id

/-- An active, idle monitor with a plan, and calls for it with one key and fresh UUIDs. -/
structure Retried (d : Versioned) (m : Monitor) (key : String) (calls : List CheckRequest) :
    Prop where
  reachable : StoreReachable d.db
  monitor : m ∈ d.db.monitors
  active : m.status = .active
  planned : m.currentRevisionId.isSome = true
  idle : IdleIn m.id d
  keyed : key ≠ ""
  called : calls ≠ []
  same : ∀ r ∈ calls, r.monitorId = m.id ∧ r.idempotencyKey = key
  fresh : ∀ r ∈ calls, ¬ d.db.hasExecution r.executionId

/-- The transactions of a call: a commit has written its check. -/
def OfCheck (tx : Transaction Write Progress) : Prop :=
  match tx.state with
  | .findExisting _ | .lockMonitor _ | .testInFlight _ _ | .readGeneration _ _
  | .insertCheck _ _ | .rollback => tx.writes = []
  | .announceCheck _ execution => tx.writes = [.execution execution]
  | .commit => ∃ row outbox, tx.writes = [.execution row, outbox] ∧ insertedRow outbox = none
  | _ => False

section Advancing

variable {s s' : Session} {t u : Nat} {tx tx' : Transaction Write Progress}

/-- What a call can do next. -/
inductive Advanced (s : Session) (t : Nat) : Session → Prop
  | unchanged : Advanced s t s
  | found (tx : Transaction Write Progress) (r : CheckRequest) (e : Execution)
      (hactive : s.world.active t = some tx) (hstate : tx.state = .findExisting r)
      (hfound : existingExecution r.monitorId r.idempotencyKey s.world.committed.db = some e) :
      Advanced s t ⟨s.world.put t ⟨.rollback, []⟩, s.replies ++ [(t, .returned e false)]⟩
  | missed (tx : Transaction Write Progress) (r : CheckRequest)
      (hactive : s.world.active t = some tx) (hstate : tx.state = .findExisting r)
      (hnone : existingExecution r.monitorId r.idempotencyKey s.world.committed.db = none) :
      Advanced s t ⟨s.world.put t ⟨.lockMonitor r, []⟩, s.replies⟩
  | moved (tx tx' : Transaction Write Progress) (w : State) (hactive : s.world.active t = some tx)
      (hmissed : missed tx.state = true) (hmissed' : missed tx'.state = true) (hcheck : OfCheck tx')
      (hcommitted : w.committed = s.world.committed)
      (hw : w.active = Function.update s.world.active t (some tx')) : Advanced s t ⟨w, s.replies⟩
  | refused (tx : Transaction Write Progress) (w : State) (error : StoreError)
      (hactive : s.world.active t = some tx) (hmissed : missed tx.state = true)
      (hcommitted : w.committed = s.world.committed)
      (hw : w.active = Function.update s.world.active t none ∨
        w.active = Function.update s.world.active t (some ⟨.rollback, []⟩)) :
      Advanced s t ⟨w, s.replies ++ [(t, .refused error)]⟩
  | committed (tx : Transaction Write Progress) (row : Execution) (outbox : Write)
      (hactive : s.world.active t = some tx) (hstate : tx.state = .commit)
      (hwrites : tx.writes = [.execution row, outbox]) :
      Advanced s t ⟨s.world.finish t (admission.view tx.writes s.world.committed),
        s.replies ++ [(t, .returned row true)]⟩
  | ended (tx : Transaction Write Progress) (hactive : s.world.active t = some tx)
      (hstate : tx.state = .rollback) :
      Advanced s t ⟨s.world.finish t s.world.committed, s.replies⟩

theorem advance_of_none (h : s.world.active t = none) : s.advance t = s := by
  simp [Session.advance, step, reply, h]

/-- The answer that the next statement of an open call gives. -/
theorem reply_of_active (hactive : s.world.active t = some tx)
    (hwaits : waits s.world t tx.state = false) :
    reply s.world t = replyOf tx (admission.view tx.writes s.world.committed) := by
  simp [reply, hactive, hwaits]

theorem advance_select {next : Versioned → Progress} (hactive : s.world.active t = some tx)
    (hstatement : statement tx.state = .select next) (hwaits : waits s.world t tx.state = false) :
    s.advance t =
      ⟨s.world.put t ⟨next (admission.view tx.writes s.world.committed), tx.writes⟩,
        s.replies ++ (replyOf tx (admission.view tx.writes s.world.committed)).toList.map
          fun answer => (t, answer)⟩ := by
  have hworld : step admission s.world (.advance t) =
      s.world.put t ⟨next (admission.view tx.writes s.world.committed), tx.writes⟩ := by
    simp only [step, hactive, advance, show admission.statement = statement from rfl, hstatement]
  rw [Session.advance, hworld, reply_of_active hactive hwaits]

theorem advance_busy {r : CheckRequest} (hactive : s.world.active t = some tx)
    (hstate : tx.state = .lockMonitor r) (hbusy : ¬ s.world.Free r.monitorId t) :
    s.advance t = s := by
  have hworld : step admission s.world (.advance t) = s.world := by
    simp only [step, hactive, advance, show admission.statement = statement from rfl, hstate,
      statement, hbusy, if_false]
  have hreply : reply s.world t = none := by simp [reply, hactive, hstate, waits, hbusy]
  rw [Session.advance, hworld, hreply]
  simp

theorem advance_lock {r : CheckRequest} {next : Versioned → Progress}
    (hactive : s.world.active t = some tx) (hstate : tx.state = .lockMonitor r)
    (hstatement : statement tx.state = .lock r.monitorId next)
    (hfree : s.world.Free r.monitorId t) :
    s.advance t =
      ⟨(s.world.take r.monitorId t).put t
          ⟨next (admission.view tx.writes s.world.committed), tx.writes⟩,
        s.replies ++ (replyOf tx (admission.view tx.writes s.world.committed)).toList.map
          fun answer => (t, answer)⟩ := by
  have hworld : step admission s.world (.advance t) = (s.world.take r.monitorId t).put t
      ⟨next (admission.view tx.writes s.world.committed), tx.writes⟩ := by
    simp only [step, hactive, advance, show admission.statement = statement from rfl, hstatement,
      hfree, if_true]
  rw [Session.advance, hworld, reply_of_active hactive (by simp [hstate, waits, hfree])]

theorem advance_write {attempt : Versioned → Option (Write × Progress)}
    (hactive : s.world.active t = some tx) (hstatement : statement tx.state = .write attempt)
    (hwaits : waits s.world t tx.state = false) :
    s.advance t =
      ⟨match attempt (admission.view tx.writes s.world.committed) with
          | some (x, next) => s.world.put t ⟨next, tx.writes ++ [x]⟩
          | none => s.world.finish t s.world.committed,
        s.replies ++ (replyOf tx (admission.view tx.writes s.world.committed)).toList.map
          fun answer => (t, answer)⟩ := by
  have hworld : step admission s.world (.advance t) =
      match attempt (admission.view tx.writes s.world.committed) with
      | some (x, next) => s.world.put t ⟨next, tx.writes ++ [x]⟩
      | none => s.world.finish t s.world.committed := by
    simp only [step, hactive, advance, show admission.statement = statement from rfl, hstatement]
    cases attempt (admission.view tx.writes s.world.committed) <;> rfl
  rw [Session.advance, hworld, reply_of_active hactive hwaits]

theorem advance_commit (hactive : s.world.active t = some tx) (hstate : tx.state = .commit) :
    s.advance t =
      ⟨s.world.finish t (admission.view tx.writes s.world.committed),
        s.replies ++ (replyOf tx (admission.view tx.writes s.world.committed)).toList.map
          fun answer => (t, answer)⟩ := by
  have hworld : step admission s.world (.advance t) =
      s.world.finish t (admission.view tx.writes s.world.committed) := by
    simp only [step, hactive, advance, show admission.statement = statement from rfl, hstate,
      statement]
  rw [Session.advance, hworld, reply_of_active hactive (by simp [hstate, waits])]

theorem advance_rollback (hactive : s.world.active t = some tx) (hstate : tx.state = .rollback) :
    s.advance t = ⟨s.world.finish t s.world.committed, s.replies⟩ := by
  have hworld : step admission s.world (.advance t) = s.world.finish t s.world.committed := by
    simp only [step, hactive, advance, show admission.statement = statement from rfl, hstate,
      statement]
  have hreply : reply s.world t = none := by simp [reply, hactive, hstate, waits, replyOf]
  rw [Session.advance, hworld, hreply]
  simp

/-- Under the lock of its monitor a call that may not check is refused. -/
theorem advanced_lockMonitor {r : CheckRequest}
    (hactive : s.world.active t = some ⟨.lockMonitor r, []⟩) : Advanced s t (s.advance t) := by
  by_cases hfree : s.world.Free r.monitorId t
  · rw [advance_lock hactive rfl rfl hfree]
    cases hmonitor : s.world.committed.db.monitors.lookup r.monitorId with
    | none =>
        simpa [replyOf, System.view, hmonitor] using
          .refused _ _ .notFound hactive rfl rfl (Or.inr rfl)
    | some m =>
        have refused := Advanced.refused _
          ((s.world.take r.monitorId t).put t ⟨.rollback, []⟩) .conflict hactive rfl rfl
          (Or.inr rfl)
        cases hcurrent : m.currentRevisionId with
        | none =>
            cases hstatus : m.status <;>
              simpa [replyOf, System.view, hmonitor, hcurrent, hstatus] using refused
        | some id =>
            cases hstatus : m.status with
            | active =>
                simpa [replyOf, System.view, hmonitor, hcurrent, hstatus] using
                  .moved _ ⟨.testInFlight r id, []⟩ _ hactive rfl rfl rfl rfl rfl
            | _ => simpa [replyOf, System.view, hmonitor, hcurrent, hstatus] using refused
  · rw [advance_busy hactive rfl hfree]
    exact .unchanged

theorem advanced_advance (hcheck : ∀ tx, s.world.active t = some tx → OfCheck tx) :
    Advanced s t (s.advance t) := by
  cases hactive : s.world.active t with
  | none =>
      rw [advance_of_none hactive]
      exact .unchanged
  | some tx =>
      have hof := hcheck tx hactive
      obtain ⟨state, writes⟩ := tx
      cases state with
      | findExisting r =>
          obtain rfl : writes = [] := hof
          rw [advance_select hactive rfl rfl]
          cases hexisting : existingExecution r.monitorId r.idempotencyKey s.world.committed.db with
          | none => simpa [replyOf, System.view, hexisting] using .missed _ r hactive rfl hexisting
          | some e =>
              simpa [replyOf, System.view, hexisting] using .found _ r e hactive rfl hexisting
      | lockMonitor r =>
          obtain rfl : writes = [] := hof
          exact advanced_lockMonitor hactive
      | testInFlight r id =>
          obtain rfl : writes = [] := hof
          rw [advance_select hactive rfl rfl]
          cases hflight : s.world.committed.db.executions.any (inFlightOf r.monitorId) with
          | true =>
              simpa [replyOf, System.view, -Table.any_eq_true_iff, hflight] using
                .refused _ _ .conflict hactive rfl rfl (Or.inr rfl)
          | false =>
              simpa [replyOf, System.view, -Table.any_eq_true_iff, hflight] using
                .moved _ ⟨.readGeneration r id, []⟩ _ hactive rfl rfl rfl rfl rfl
      | readGeneration r id =>
          obtain rfl : writes = [] := hof
          rw [advance_select hactive rfl rfl]
          cases hrevision : s.world.committed.db.revisions.lookup id with
          | none =>
              simpa [replyOf, System.view, hrevision] using
                .refused _ _ (.failed "no rows in result set") hactive rfl rfl (Or.inr rfl)
          | some revision =>
              simpa [replyOf, System.view, hrevision] using
                .moved _ ⟨.insertCheck r (checkExecution r.now r.executionId r.monitorId id
                  revision.generation r.idempotencyKey), []⟩ _ hactive rfl rfl rfl rfl rfl
      | insertCheck r e =>
          obtain rfl : writes = [] := hof
          rw [advance_write hactive rfl rfl]
          cases hinsert : s.world.committed.db.insertExecution e with
          | error error =>
              simpa [replyOf, System.view, hinsert] using
                .refused _ (s.world.finish t s.world.committed) error hactive rfl rfl (Or.inl rfl)
          | ok db =>
              simpa [replyOf, System.view, hinsert] using
                .moved _ ⟨.announceCheck r e, [.execution e]⟩ _ hactive rfl rfl rfl rfl rfl
      | announceCheck r e =>
          obtain rfl : writes = [.execution e] := hof
          rw [advance_write hactive rfl rfl]
          simpa [replyOf] using
            .moved _ ⟨.commit, [.execution e, .outbox r.now "scout.monitor.check"
              (workMessage e.id e.monitorId e.revisionId r.traceparent)]⟩ _ hactive rfl rfl
              ⟨e, _, rfl, rfl⟩ rfl rfl
      | commit =>
          obtain ⟨row, outbox, rfl, hother⟩ := hof
          rw [advance_commit hactive rfl]
          simpa [replyOf, insertedRow] using .committed _ row outbox hactive rfl rfl
      | rollback =>
          rw [advance_rollback hactive rfl]
          exact .ended _ hactive rfl
      | selectDue | lockDue | readDueGeneration | insertDue | announceDue | rescheduleDue =>
          exact absurd hof id

end Advancing

section Answers

variable {d : Versioned} {m : Monitor} {key : String} {calls : List CheckRequest}
  {s s' : Session} {t u : Nat}

/-- What holds of the calls at every moment: those that have been answered have
at most their rollback left, and an execution with the key is one of before or
one that an answer was created for. -/
structure Sound (d : Versioned) (monitorId : UUID) (key : String) (s : Session) : Prop where
  checks : ∀ t tx, s.world.active t = some tx → OfCheck tx
  lookups : ∀ t tx r, s.world.active t = some tx → tx.state = .findExisting r →
    r.monitorId = monitorId ∧ r.idempotencyKey = key
  answered : ∀ x ∈ s.replies, ∀ tx, s.world.active x.1 = some tx → tx.state = .rollback
  existing : (existingExecution monitorId key s.world.committed.db).isSome = true →
    (existingExecution monitorId key d.db).isSome = true ∨ ∃ x ∈ s.replies, x.2.created = true

/-- The call has found nothing under its key, now or when it was answered. -/
def Missed (s : Session) (t : Nat) : Prop :=
  (∃ tx, s.world.active t = some tx ∧ missed tx.state = true) ∨
    ∃ x ∈ s.replies, x.1 = t ∧ ∀ e, x.2 ≠ .returned e false

/-- A call that is not about to roll back has not been answered. -/
theorem Sound.unanswered (h : Sound d m.id key s) {tx : Transaction Write Progress}
    (hactive : s.world.active t = some tx) (hstate : tx.state ≠ .rollback) :
    ∀ x ∈ s.replies, x.1 ≠ t := by
  rintro x hx rfl
  exact hstate (h.answered x hx tx hactive)

/-- A step of one call keeps the others as they are. -/
theorem Sound.update (h : Sound d m.id key s) (x : Option (Transaction Write Progress))
    (answers : List Reply) (hw : s'.world.active = Function.update s.world.active t x)
    (hreplies : s'.replies = s.replies ++ answers.map fun answer => (t, answer))
    (hx : ∀ tx, x = some tx → OfCheck tx ∧ ∀ r, tx.state ≠ .findExisting r)
    (hunanswered : (∀ y ∈ s.replies, y.1 ≠ t) ∨ x = none)
    (hanswers : ∀ a ∈ answers, ∀ tx, x = some tx → tx.state = .rollback)
    (hexisting : s'.world.committed = s.world.committed ∨ ∃ a ∈ answers, a.created = true) :
    Sound d m.id key s' := by
  have opens : ∀ u tx, s'.world.active u = some tx →
      u = t ∧ x = some tx ∨ u ≠ t ∧ s.world.active u = some tx := by
    intro u tx hu
    rw [hw] at hu
    by_cases hut : u = t
    · subst hut
      rw [Function.update_self] at hu
      exact Or.inl ⟨rfl, hu⟩
    · rw [Function.update_of_ne hut] at hu
      exact Or.inr ⟨hut, hu⟩
  constructor
  · intro u tx hu
    rcases opens u tx hu with ⟨-, hnew⟩ | ⟨-, hu⟩
    · exact (hx tx hnew).1
    · exact h.checks u tx hu
  · intro u tx r hu hstate
    rcases opens u tx hu with ⟨-, hnew⟩ | ⟨-, hu⟩
    · exact absurd hstate ((hx tx hnew).2 r)
    · exact h.lookups u tx r hu hstate
  · intro y hy tx hu
    rw [hreplies] at hy
    rcases List.mem_append.mp hy with hold | hnew
    · rcases opens y.1 tx hu with ⟨hown, hsome⟩ | ⟨-, hu⟩
      · rcases hunanswered with hnone | hnone
        · exact absurd hown (hnone y hold)
        · rw [hnone] at hsome
          cases hsome
      · exact h.answered y hold tx hu
    · obtain ⟨a, ha, rfl⟩ := List.mem_map.mp hnew
      rcases opens t tx hu with ⟨-, hsome⟩ | ⟨hne, -⟩
      · exact hanswers a ha tx hsome
      · exact absurd rfl hne
  · intro hsome
    rw [hreplies]
    rcases hexisting with hsame | ⟨a, ha, hcreated⟩
    · rw [hsame] at hsome
      refine (h.existing hsome).imp_right ?_
      rintro ⟨y, hy, hcreated⟩
      exact ⟨y, List.mem_append_left _ hy, hcreated⟩
    · exact Or.inr ⟨(t, a), List.mem_append_right _ (List.mem_map_of_mem ha), hcreated⟩

theorem rolledBack_ofCheck (tx : Transaction Write Progress)
    (h : some ⟨.rollback, []⟩ = some tx) : OfCheck tx ∧ ∀ r, tx.state ≠ .findExisting r := by
  cases h
  exact ⟨rfl, fun r => by simp⟩

theorem rolledBack_state (tx : Transaction Write Progress) (h : some ⟨.rollback, []⟩ = some tx) :
    tx.state = .rollback := by
  cases h
  rfl

theorem Sound.advance (h : Sound d m.id key s) (t : Nat) : Sound d m.id key (s.advance t) := by
  have hadvanced := advanced_advance (s := s) (t := t) (h.checks t)
  generalize s.advance t = s' at hadvanced
  cases hadvanced with
  | unchanged => exact h
  | found tx r e hactive hstate hfound =>
      exact h.update (some ⟨.rollback, []⟩) [.returned e false] rfl rfl rolledBack_ofCheck
        (Or.inl (h.unanswered hactive (by simp [hstate])))
        (fun _ _ tx htx => rolledBack_state tx htx) (Or.inl rfl)
  | missed tx r hactive hstate hnone =>
      have hlock : ∀ tx', some ⟨Progress.lockMonitor r, []⟩ = some tx' →
          OfCheck tx' ∧ ∀ r, tx'.state ≠ .findExisting r := by
        rintro tx' htx
        cases htx
        exact ⟨rfl, fun r => by simp⟩
      exact h.update (some ⟨.lockMonitor r, []⟩) [] rfl (List.append_nil _).symm hlock
        (Or.inl (h.unanswered hactive (by simp [hstate]))) (by simp) (Or.inl rfl)
  | moved tx tx' w hactive hmissed hmissed' hcheck hcommitted hw =>
      have hmoved : ∀ tx'', some tx' = some tx'' →
          OfCheck tx'' ∧ ∀ r, tx''.state ≠ .findExisting r := by
        intro tx'' htx
        cases htx
        exact ⟨hcheck, fun r hstate => by simp [hstate, RepeatedChecks.missed] at hmissed'⟩
      exact h.update (some tx') [] hw (List.append_nil _).symm hmoved
        (Or.inl (h.unanswered hactive
          fun hstate => by simp [hstate, RepeatedChecks.missed] at hmissed))
        (by simp) (Or.inl hcommitted)
  | refused tx w error hactive hmissed hcommitted hw =>
      have hunanswered := h.unanswered hactive fun hstate => by
        simp [hstate, RepeatedChecks.missed] at hmissed
      rcases hw with hw | hw
      · exact h.update none [.refused error] hw rfl (by simp) (Or.inl hunanswered) (by simp)
          (Or.inl hcommitted)
      · exact h.update (some ⟨.rollback, []⟩) [.refused error] hw rfl rolledBack_ofCheck
          (Or.inl hunanswered) (fun _ _ tx htx => rolledBack_state tx htx) (Or.inl hcommitted)
  | committed tx row outbox hactive hstate hwrites =>
      exact h.update none [.returned row true] rfl rfl (by simp) (Or.inr rfl) (by simp)
        (Or.inr ⟨_, List.mem_singleton_self _, rfl⟩)
  | ended tx hactive hstate =>
      exact h.update none [] rfl (List.append_nil _).symm (by simp) (Or.inr rfl) (by simp)
        (Or.inl rfl)

/-- A call that has found nothing is not answered with an execution of before. -/
theorem Missed.advance (hsound : Sound d m.id key s) (h : Missed s u) (t : Nat) :
    Missed (s.advance t) u := by
  have hadvanced := advanced_advance (s := s) (t := t) (hsound.checks t)
  generalize s.advance t = s' at hadvanced
  -- what happens to another call, or to one that has been answered, changes nothing
  have kept : ∀ {w : State} {x : Option (Transaction Write Progress)} (added : List (Nat × Reply)),
      w.active = Function.update s.world.active t x →
      ((∃ tx, s.world.active t = some tx ∧ missed tx.state = true) →
        Missed ⟨w, s.replies ++ added⟩ t) →
      Missed ⟨w, s.replies ++ added⟩ u := by
    intro w x added hw hown
    rcases h with ⟨tx, hactive, hmissed⟩ | ⟨y, hy, hyu, hanswer⟩
    · by_cases hut : u = t
      · subst hut
        exact hown ⟨tx, hactive, hmissed⟩
      · exact Or.inl ⟨tx, by rw [hw, Function.update_of_ne hut]; exact hactive, hmissed⟩
    · exact Or.inr ⟨y, List.mem_append_left _ hy, hyu, hanswer⟩
  cases hadvanced with
  | unchanged => exact h
  | found tx r e hactive hstate hfound =>
      refine kept (x := some ⟨.rollback, []⟩) _ rfl ?_
      rintro ⟨tx', hactive', hmissed⟩
      rw [hactive, Option.some.injEq] at hactive'
      simp [← hactive', hstate, missed] at hmissed
  | missed tx r hactive hstate hnone =>
      rw [← List.append_nil s.replies]
      refine kept (x := some ⟨.lockMonitor r, []⟩) [] rfl fun _ =>
        Or.inl ⟨⟨.lockMonitor r, []⟩, ?_, rfl⟩
      exact Function.update_self _ _ _
  | moved tx tx' w hactive hmissed hmissed' hcheck hcommitted hw =>
      rw [← List.append_nil s.replies]
      refine kept [] hw fun _ => Or.inl ⟨tx', ?_, hmissed'⟩
      simp only [hw, Function.update_self]
  | refused tx w error hactive hmissed hcommitted hw =>
      have hanswered : Missed ⟨w, s.replies ++ [(t, .refused error)]⟩ t :=
        Or.inr ⟨(t, .refused error), by simp, rfl, fun _ => nofun⟩
      rcases hw with hw | hw <;> exact kept _ hw fun _ => hanswered
  | committed tx row outbox hactive hstate hwrites =>
      refine kept (x := none) _ rfl fun _ => Or.inr ⟨(t, .returned row true), by simp, rfl, ?_⟩
      simp
  | ended tx hactive hstate =>
      rw [← List.append_nil s.replies]
      refine kept (x := none) [] rfl ?_
      rintro ⟨tx', hactive', hmissed⟩
      rw [hactive, Option.some.injEq] at hactive'
      simp [← hactive', hstate, missed] at hmissed

end Answers

section Turns

variable {d : Versioned} {m : Monitor} {key : String} {calls : List CheckRequest}
  {revision : Revision} {s : Session} {t u : Nat} {r : CheckRequest} {e : Execution}

/-- The monitor can be checked with its current plan, and its key is new. -/
structure Checkable (d : Versioned) (m : Monitor) (key : String) (revision : Revision) :
    Prop where
  monitor : d.db.monitors.lookup m.id = some m
  active : m.status = .active
  current : m.currentRevisionId = some revision.id
  revision : d.db.revisions.lookup revision.id = some revision
  idle : IdleIn m.id d
  keyed : key ≠ ""
  unused : existingExecution m.id key d.db = none
  numbered : Numbered d.db

/-- The check that a call inserts. -/
def checkOf (revision : Revision) (r : CheckRequest) : Execution :=
  checkExecution r.now r.executionId r.monitorId revision.id revision.generation r.idempotencyKey

def messageOf (revision : Revision) (r : CheckRequest) : Write :=
  .outbox r.now "scout.monitor.check" (workMessage (checkOf revision r).id
    (checkOf revision r).monitorId (checkOf revision r).revisionId r.traceparent)

/-- A call for the monitor with the key and a fresh UUID. -/
structure RequestOf (d : Versioned) (m : Monitor) (key : String) (r : CheckRequest) : Prop where
  monitorId : r.monitorId = m.id
  idempotencyKey : r.idempotencyKey = key
  fresh : ¬ d.db.hasExecution r.executionId

theorem Retried.request (h : Retried d m key calls) (hr : r ∈ calls) : RequestOf d m key r :=
  ⟨(h.same r hr).1, (h.same r hr).2, h.fresh r hr⟩

theorem Retried.checkable (h : Retried d m key calls)
    (hunused : existingExecution m.id key d.db = none) :
    ∃ revision, Checkable d m key revision := by
  obtain ⟨id, hcurrent⟩ := Option.isSome_iff_exists.mp h.planned
  obtain ⟨revision, hrevision, hid, -⟩ :=
    (coherent_of_reachable h.reachable).plans.monitors m h.monitor id hcurrent
  subst hid
  exact ⟨revision, Table.lookup_eq_some_iff.mpr ⟨h.monitor, rfl⟩, h.active, hcurrent,
    Table.lookup_eq_some_iff.mpr ⟨hrevision, rfl⟩, h.idle, h.keyed, hunused,
    numbered_of_reachable h.reachable⟩

/-- The check of a call is inserted. -/
theorem Checkable.inserts (h : Checkable d m key revision) (hr : RequestOf d m key r) :
    ∃ executions', d.db.executions.Appended (checkOf revision r) executions' ∧
      d.db.insertExecution (checkOf revision r) = .ok { d.db with executions := executions' } := by
  have hmonitor : d.db.hasMonitor (checkOf revision r).monitorId := by
    show (d.db.monitors.lookup r.monitorId).isSome = true
    rw [hr.monitorId, h.monitor]
    rfl
  have hrevision : ∀ id ∈ (checkOf revision r).revisionId, d.db.hasRevision id := by
    rintro id ⟨⟩
    show (d.db.revisions.lookup revision.id).isSome = true
    rw [h.revision]
    rfl
  have hkey : d.db.executions.any (fun s => s.monitorId = (checkOf revision r).monitorId ∧
      s.idempotencyKey = (checkOf revision r).idempotencyKey ∧ s.idempotencyKey.isSome) =
        false := by
    have hunused := h.unused
    rw [existingExecution, if_neg h.keyed, Table.find_eq_none_iff] at hunused
    refine Table.any_eq_false_iff.mpr fun s hs => ?_
    have := hunused s hs
    have hstored : (checkOf revision r).idempotencyKey = some key := by
      show nullIfEmpty r.idempotencyKey = some key
      rw [hr.idempotencyKey, nullIfEmpty, if_neg h.keyed]
    rw [hstored, show (checkOf revision r).monitorId = m.id from hr.monitorId]
    simp only [Bool.and_eq_false_iff, decide_eq_false_iff_not] at this ⊢
    tauto
  have hrecovery : d.db.executions.any (fun s =>
      s.recoveryOf = (checkOf revision r).recoveryOf ∧ s.recoveryOf.isSome) = false := by
    refine Table.any_eq_false_iff.mpr fun s hs => ?_
    have hnone : (checkOf revision r).recoveryOf = none := rfl
    simp only [hnone, decide_eq_false_iff_not]
    rintro ⟨hs, hsome⟩
    simp [hs] at hsome
  have hfresh : ∀ s ∈ d.db.executions, s.id ≠ (checkOf revision r).id := fun s hs hid =>
    hr.fresh (Database.hasExecution_iff.mpr ⟨s, hs, hid⟩)
  obtain ⟨executions', hinsert, happended⟩ := insertRow_of_fresh "executions_pkey" hfresh
  refine ⟨executions', happended, ?_⟩
  simp only [Database.insertExecution, bind_eq_ok, require_eq_ok, pure_eq_ok]
  refine ⟨(), hmonitor, (), hrevision, (), ?_, (), hkey, (), hrecovery, executions', hinsert, rfl⟩
  rintro id ⟨⟩

/-- What a call commits is its check and the row that announces it. -/
theorem Checkable.commits (h : Checkable d m key revision) (hr : RequestOf d m key r) :
    d.db.executions.Appended (checkOf revision r) (admission.view
      [.execution (checkOf revision r), messageOf revision r] d).db.executions ∧
    ∃ row, d.db.outbox.Appended row (admission.view
      [.execution (checkOf revision r), messageOf revision r] d).db.outbox ∧
      row.payload.executionId = (checkOf revision r).id := by
  obtain ⟨executions', happended, hinsert⟩ := h.inserts hr
  let row : OutboxRow :=
    { id := d.db.outboxIds, subject := "scout.monitor.check",
      payload := workMessage (checkOf revision r).id (checkOf revision r).monitorId
        (checkOf revision r).revisionId r.traceparent,
      publishedAt := none, attempts := 0, lastError := none, createdAt := r.now }
  have hfresh : ∀ s ∈ d.db.outbox, s.id ≠ row.id := fun s hs hid => (h.numbered s hs).ne hid
  obtain ⟨outbox', houtbox, hrow⟩ := insertRow_of_fresh "outbox_pkey" hfresh
  have hview : admission.view [.execution (checkOf revision r), messageOf revision r] d =
      { d with db := { d.db with executions := executions', outbox := outbox',
                                 outboxIds := d.db.outboxIds + 1 } } := by
    simp only [System.view, admission, messageOf, Write.apply, List.foldl_cons, List.foldl_nil,
      onSuccess, hinsert, insertOutbox]
    rw [houtbox]
    rfl
  rw [hview]
  exact ⟨happended, row, hrow, rfl⟩

/-- A check that was inserted under a new key is what a lookup of the key finds. -/
theorem Checkable.existing {d' : Versioned} (h : Checkable d m key revision)
    (hr : RequestOf d m key r)
    (happended : d.db.executions.Appended (checkOf revision r) d'.db.executions) :
    existingExecution m.id key d'.db = some (checkOf revision r) := by
  have hunused := h.unused
  rw [existingExecution, if_neg h.keyed] at hunused ⊢
  have hfinds : (decide ((checkOf revision r).monitorId = m.id) &&
      decide ((checkOf revision r).idempotencyKey = some key)) = true := by
    have hstored : (checkOf revision r).idempotencyKey = some key := by
      show nullIfEmpty r.idempotencyKey = some key
      rw [hr.idempotencyKey, nullIfEmpty, if_neg h.keyed]
    simp [hstored, show (checkOf revision r).monitorId = m.id from hr.monitorId]
  unfold Table.find at hunused ⊢
  rw [happended, List.find?_append, hunused, Option.none_or, List.find?_singleton, hfinds]
  rfl

/-- The transaction of the call that creates the execution, after its lookup. -/
inductive Creating (revision : Revision) (r : CheckRequest) : Transaction Write Progress → Prop
  | lock : Creating revision r ⟨.lockMonitor r, []⟩
  | test : Creating revision r ⟨.testInFlight r revision.id, []⟩
  | read : Creating revision r ⟨.readGeneration r revision.id, []⟩
  | insert : Creating revision r ⟨.insertCheck r (checkOf revision r), []⟩
  | announce :
      Creating revision r ⟨.announceCheck r (checkOf revision r), [.execution (checkOf revision r)]⟩
  | commit :
      Creating revision r ⟨.commit, [.execution (checkOf revision r), messageOf revision r]⟩

theorem Creating.missed {tx : Transaction Write Progress} (h : Creating revision r tx) :
    missed tx.state = true := by
  cases h <;> rfl

/-- The execution exists, and the calls still at work are about to find it. -/
structure Created (d : Versioned) (m : Monitor) (key : String) (calls : List CheckRequest)
    (s : Session) (e : Execution) : Prop where
  found : existingExecution m.id key s.world.committed.db = some e
  execution : d.db.executions.Appended e s.world.committed.db.executions
  announcement : ∃ row, d.db.outbox.Appended row s.world.committed.db.outbox ∧
    row.payload.executionId = e.id
  only : ∀ x ∈ s.replies, ∃ created, x.2 = .returned e created
  once : (s.replies.filter fun x => x.2.created).length = 1
  others : ∀ u tx, s.world.active u = some tx → tx = ⟨.rollback, []⟩ ∨
    ∃ r ∈ calls, tx = ⟨.findExisting r, []⟩
  answered : ∀ u < calls.length, (∃ created, (u, .returned e created) ∈ s.replies) ∨
    ∃ r, s.world.active u = some ⟨.findExisting r, []⟩

/-- How far calls that look their key up one at a time have come. -/
inductive Turn (d : Versioned) (m : Monitor) (key : String) (calls : List CheckRequest)
    (revision : Revision) (s : Session) : Prop
  | waiting (h : s = opened d calls)
  | first (t : Nat) (r : CheckRequest) (tx : Transaction Write Progress) (ht : calls[t]? = some r)
      (hcreating : Creating revision r tx) (hcommitted : s.world.committed = d)
      (hreplies : s.replies = []) (hfree : s.world.Free m.id t)
      (hactive : s.world.active =
        Function.update (opened d calls).world.active t (some tx)) : Turn d m key calls revision s
  | later (e : Execution) (h : Created d m key calls s e) : Turn d m key calls revision s

theorem opened_active (h : Checkable d m key revision) (hcalls : ∀ r ∈ calls, RequestOf d m key r)
    (t : Nat) : (opened d calls).world.active t = calls[t]?.map fun r => ⟨.findExisting r, []⟩ := by
  show calls[t]?.map (fun r => _) = calls[t]?.map _
  refine Option.map_congr fun r hr => ?_
  have hkeyed : r.idempotencyKey ≠ "" := by
    rw [(hcalls r (List.mem_of_getElem? hr)).idempotencyKey]
    exact h.keyed
  rw [initial, if_neg hkeyed]

/-- The commit of the call that creates the execution. -/
theorem Created.of_commit (h : Checkable d m key revision) (hr : RequestOf d m key r)
    (hcalls : ∀ r ∈ calls, RequestOf d m key r) (hcommitted : s.world.committed = d)
    (hreplies : s.replies = [])
    (hactive : s.world.active = Function.update (opened d calls).world.active t
      (some ⟨.commit, [.execution (checkOf revision r), messageOf revision r]⟩)) :
    Created d m key calls (s.advance t) (checkOf revision r) := by
  obtain ⟨hexecution, hannouncement⟩ := h.commits hr
  have htx : s.world.active t =
      some ⟨.commit, [.execution (checkOf revision r), messageOf revision r]⟩ := by
    rw [hactive, Function.update_self]
  rw [advance_commit htx rfl, hcommitted, hreplies]
  have hreply :
    ([] : List (Nat × Reply)) ++ (replyOf ⟨.commit, [.execution (checkOf revision r),
      messageOf revision r]⟩ (admission.view [.execution (checkOf revision r),
      messageOf revision r] d)).toList.map (fun answer => (t, answer)) =
      [(t, .returned (checkOf revision r) true)] := rfl
  rw [hreply]
  refine ⟨h.existing hr hexecution, hexecution, hannouncement, ?_, ?_, ?_, ?_⟩
  · intro x hx
    rw [List.mem_singleton.mp hx]
    exact ⟨true, rfl⟩
  · rfl
  · intro u tx hu
    obtain ⟨hut, hu⟩ := World.active_finish hu
    rw [hactive, Function.update_of_ne hut, opened_active h hcalls] at hu
    obtain ⟨r', hr', rfl⟩ := Option.map_eq_some_iff.mp hu
    exact Or.inr ⟨r', List.mem_of_getElem? hr', rfl⟩
  · intro u hu
    by_cases hut : u = t
    · subst hut
      exact Or.inl ⟨true, List.mem_singleton_self _⟩
    · refine Or.inr ⟨calls[u], ?_⟩
      show Function.update s.world.active t none u = _
      rw [Function.update_of_ne hut, hactive, Function.update_of_ne hut, opened_active h hcalls,
        List.getElem?_eq_getElem hu]
      rfl

/-- The call that creates the execution does its next step. -/
theorem Turn.create (h : Checkable d m key revision) (hr : RequestOf d m key r)
    (hcalls : ∀ r ∈ calls, RequestOf d m key r)
    {tx : Transaction Write Progress} (ht : calls[t]? = some r) (hcreating : Creating revision r tx)
    (hcommitted : s.world.committed = d) (hreplies : s.replies = [])
    (hfree : s.world.Free m.id t)
    (hactive : s.world.active = Function.update (opened d calls).world.active t (some tx)) :
    Turn d m key calls revision (s.advance t) := by
  have htx : s.world.active t = some tx := by rw [hactive, Function.update_self]
  have hupdate : ∀ x, Function.update s.world.active t x =
      Function.update (opened d calls).world.active t x := by
    intro x
    rw [hactive, Function.update_idem]
  cases hcreating with
  | lock =>
      have hown : s.world.Free r.monitorId t := hr.monitorId ▸ hfree
      rw [advance_lock htx rfl rfl hown]
      refine .first t r ⟨.testInFlight r revision.id, []⟩ ht .test hcommitted ?_ ?_ ?_
      · simp [replyOf, System.view, hcommitted, hr.monitorId, h.monitor, h.active, h.current,
          hreplies]
      · rw [← hr.monitorId]
        exact Or.inr (World.holder_take_self r.monitorId t)
      · simp [World.put, World.take, System.view, hcommitted, hr.monitorId, h.monitor, h.active,
          h.current, hupdate]
  | test =>
      have hidle : d.db.executions.any (inFlightOf r.monitorId) = false := hr.monitorId ▸ h.idle
      rw [advance_select htx rfl rfl]
      refine .first t r ⟨.readGeneration r revision.id, []⟩ ht .read hcommitted ?_ hfree ?_
      · simp [replyOf, System.view, -Table.any_eq_false_iff, hcommitted, hidle, hreplies]
      · simp [World.put, System.view, -Table.any_eq_false_iff, hcommitted, hidle, hupdate]
  | read =>
      rw [advance_select htx rfl rfl]
      refine .first t r ⟨.insertCheck r (checkOf revision r), []⟩ ht .insert hcommitted ?_ hfree ?_
      · simp [replyOf, System.view, hcommitted, h.revision, hreplies]
      · simp [World.put, System.view, hcommitted, h.revision, hupdate, checkOf]
  | insert =>
      obtain ⟨executions', -, hinsert⟩ := h.inserts hr
      rw [advance_write htx rfl rfl]
      simp only [System.view, List.foldl_nil, replyOf, hcommitted, hinsert]
      exact .first t r _ ht .announce hcommitted (by simp [hreplies]) hfree (hupdate _)
  | announce =>
      rw [advance_write htx rfl rfl]
      exact .first t r _ ht .commit hcommitted (by simp [replyOf, hreplies]) hfree (hupdate _)
  | commit =>
      exact .later (checkOf revision r)
        (Created.of_commit h hr hcalls hcommitted hreplies hactive)

theorem Created.answer (h : Created d m key calls s e) :
    Created d m key calls ⟨s.world.put t ⟨.rollback, []⟩, s.replies ++ [(t, .returned e false)]⟩
      e := by
  refine ⟨h.found, h.execution, h.announcement, ?_, ?_, ?_, ?_⟩
  · intro x hx
    rcases List.mem_append.mp hx with hx | hx
    · exact h.only x hx
    · rw [List.mem_singleton.mp hx]
      exact ⟨false, rfl⟩
  · rw [List.filter_append]
    simpa [Reply.created] using h.once
  · intro u tx' hu
    rcases World.active_put_cases hu with ⟨-, rfl⟩ | ⟨-, hu⟩
    · exact Or.inl rfl
    · exact h.others u tx' hu
  · intro u hu
    by_cases hut : u = t
    · subst hut
      exact Or.inl ⟨false, by simp⟩
    · refine (h.answered u hu).imp ?_ ?_
      · rintro ⟨created, hmem⟩
        exact ⟨created, List.mem_append_left _ hmem⟩
      · rintro ⟨r', hr'⟩
        exact ⟨r', (Function.update_of_ne hut _ _).trans hr'⟩

/-- Once the execution exists, the calls find it. -/
theorem Created.advance (h : Created d m key calls s e) (hcalls : ∀ r ∈ calls, RequestOf d m key r)
    (t : Nat) : Created d m key calls (s.advance t) e := by
  have hcheck : ∀ tx, s.world.active t = some tx → OfCheck tx := by
    intro tx htx
    rcases h.others t tx htx with rfl | ⟨r, -, rfl⟩ <;> rfl
  have hunmissed : ∀ tx, s.world.active t = some tx → missed tx.state = false := by
    intro tx htx
    rcases h.others t tx htx with rfl | ⟨r, -, rfl⟩ <;> rfl
  have hadvanced := advanced_advance hcheck
  generalize s.advance t = s' at hadvanced
  cases hadvanced with
  | unchanged => exact h
  | found tx r e' hactive hstate hfound =>
      obtain ⟨hmonitor, hkey⟩ : r.monitorId = m.id ∧ r.idempotencyKey = key := by
        rcases h.others t tx hactive with rfl | ⟨r', hr', rfl⟩
        · cases hstate
        · cases hstate
          exact ⟨(hcalls r hr').monitorId, (hcalls r hr').idempotencyKey⟩
      rw [hmonitor, hkey, h.found, Option.some.injEq] at hfound
      subst hfound
      exact h.answer
  | missed tx r hactive hstate hnone =>
      rcases h.others t tx hactive with rfl | ⟨r', hr', rfl⟩
      · cases hstate
      · cases hstate
        rw [(hcalls r hr').monitorId, (hcalls r hr').idempotencyKey, h.found] at hnone
        cases hnone
  | moved tx tx' w hactive hmissed hmissed' hcheck hcommitted hw =>
      rw [hunmissed tx hactive] at hmissed
      cases hmissed
  | refused tx w error hactive hmissed hcommitted hw =>
      rw [hunmissed tx hactive] at hmissed
      cases hmissed
  | committed tx row outbox hactive hstate hwrites =>
      rcases h.others t tx hactive with rfl | ⟨r', hr', rfl⟩ <;> cases hstate
  | ended tx hactive hstate =>
      refine ⟨h.found, h.execution, h.announcement, h.only, h.once, ?_, ?_⟩
      · exact fun u tx' hu => h.others u tx' (World.active_finish hu).2
      · intro u hu
        refine (h.answered u hu).imp_right ?_
        rintro ⟨r', hr'⟩
        have hut : u ≠ t := by
          rintro rfl
          rw [hactive, Option.some.injEq] at hr'
          rw [hr'] at hstate
          cases hstate
        exact ⟨r', (Function.update_of_ne hut _ _).trans hr'⟩

theorem Turn.advance (h : Checkable d m key revision) (hcalls : ∀ r ∈ calls, RequestOf d m key r)
    (hturn : Turn d m key calls revision s) (halone : LooksUpAlone s.world t) :
    Turn d m key calls revision (s.advance t) := by
  cases hturn with
  | waiting hopened =>
      subst hopened
      cases hr : calls[t]? with
      | none =>
          rw [advance_of_none (by rw [opened_active h hcalls, hr]; rfl)]
          exact .waiting rfl
      | some r =>
          have hof := hcalls r (List.mem_of_getElem? hr)
          have hactive : (opened d calls).world.active t = some ⟨.findExisting r, []⟩ := by
            rw [opened_active h hcalls, hr]
            rfl
          have hnone : existingExecution r.monitorId r.idempotencyKey d.db = none := by
            rw [hof.monitorId, hof.idempotencyKey]
            exact h.unused
          have hcommitted : (opened d calls).world.committed = d := rfl
          rw [advance_select hactive rfl rfl]
          simp only [System.view, List.foldl_nil, replyOf, hcommitted, hnone]
          exact .first t r _ hr .lock rfl rfl (Or.inl rfl) rfl
  | first u r tx hu hcreating hcommitted hreplies hfree hactive =>
      by_cases hut : t = u
      · subst hut
        exact Turn.create h (hcalls r (List.mem_of_getElem? hu)) hcalls hu hcreating hcommitted
          hreplies hfree hactive
      · have hother : s.world.active t = calls[t]?.map fun r => ⟨.findExisting r, []⟩ := by
          rw [hactive, Function.update_of_ne hut, opened_active h hcalls]
        cases hr : calls[t]? with
        | none =>
            rw [advance_of_none (by rw [hother, hr]; rfl)]
            exact .first u r tx hu hcreating hcommitted hreplies hfree hactive
        | some r' =>
            -- nobody looks the key up before the first call has committed
            rw [hr] at hother
            have := halone _ hother ⟨r', rfl⟩ u tx (by rw [hactive, Function.update_self])
            rw [hcreating.missed] at this
            cases this
  | later e hcreated => exact .later e (hcreated.advance hcalls t)

end Turns

section Schedules

variable {d : Versioned} {m : Monitor} {key : String} {calls : List CheckRequest}
  {s : Session} {t u : Nat} {e : Execution}

theorem Retried.sound (h : Retried d m key calls) : Sound d m.id key (opened d calls) := by
  have opens : ∀ t tx, (opened d calls).world.active t = some tx →
      ∃ r ∈ calls, tx = ⟨.findExisting r, []⟩ := by
    intro t tx ht
    obtain ⟨r, hr, rfl⟩ := Option.map_eq_some_iff.mp ht
    have hmem := List.mem_of_getElem? hr
    have hkeyed : r.idempotencyKey ≠ "" := by
      rw [(h.same r hmem).2]
      exact h.keyed
    exact ⟨r, hmem, by rw [initial, if_neg hkeyed]⟩
  constructor
  · intro t tx ht
    obtain ⟨r, -, rfl⟩ := opens t tx ht
    rfl
  · intro t tx r ht hstate
    obtain ⟨r', hr', rfl⟩ := opens t tx ht
    cases hstate
    exact h.same r hr'
  · intro x hx
    cases hx
  · exact fun hsome => Or.inl hsome

theorem Retried.sound_stateAt (h : Retried d m key calls) (schedule : List Nat) (n : Nat) :
    Sound d m.id key (stateAt Session.advance (opened d calls) schedule n) :=
  (reachable_stateAt schedule n).invariant h.sound fun _ t _ hsound => hsound.advance t

/-- An answer that has been given stays given. -/
theorem mem_replies_stateAt {schedule : List Nat} {x : Nat × Reply} {i j : Nat} (hij : i ≤ j)
    (hx : x ∈ (stateAt Session.advance (opened d calls) schedule i).replies) :
    x ∈ (stateAt Session.advance (opened d calls) schedule j).replies :=
  stateAt_mono (P := fun s : Session => x ∈ s.replies)
    (fun _ _ hmem => List.mem_append_left _ hmem) hij hx

/-- A call that has found nothing has, at the end, been refused or has created its execution. -/
theorem Retried.exists_reply (h : Retried d m key calls) {schedule : List Nat} {n : Nat}
    (hn : n ≤ schedule.length)
    (hdone : ∀ t, (run Session.advance (opened d calls) schedule).world.active t = none)
    (hmissed : Missed (stateAt Session.advance (opened d calls) schedule n) t) :
    ∃ x ∈ (run Session.advance (opened d calls) schedule).replies,
      x.1 = t ∧ ∀ e, x.2 ≠ .returned e false := by
  have hboth := stateAt_mono (P := fun s : Session => Sound d m.id key s ∧ Missed s t)
    (fun s u hs => ⟨hs.1.advance u, hs.2.advance hs.1 u⟩) hn ⟨h.sound_stateAt schedule n, hmissed⟩
  rw [stateAt_length] at hboth
  rcases hboth.2 with ⟨tx, hactive, -⟩ | hanswered
  · rw [hdone t] at hactive
    cases hactive
  · exact hanswered

/-- As long as only a used key is looked up, nothing is created. -/
structure Used (d : Versioned) (s : Session) : Prop where
  committed : s.world.committed = d
  unmissed : ∀ t tx, s.world.active t = some tx → missed tx.state = false
  created : ∀ x ∈ s.replies, x.2.created = false

theorem Used.advance (h : Used d s) (hsound : Sound d m.id key s)
    (hused : (existingExecution m.id key d.db).isSome = true) (t : Nat) : Used d (s.advance t) := by
  have hadvanced := advanced_advance (s := s) (t := t) (hsound.checks t)
  generalize s.advance t = s' at hadvanced
  cases hadvanced with
  | unchanged => exact h
  | found tx r e hactive hstate hfound =>
      refine ⟨h.committed, ?_, ?_⟩
      · intro u tx' hu
        rcases World.active_put_cases hu with ⟨-, rfl⟩ | ⟨-, hu⟩
        · rfl
        · exact h.unmissed u tx' hu
      · intro x hx
        rcases List.mem_append.mp hx with hx | hx
        · exact h.created x hx
        · rw [List.mem_singleton.mp hx]
          rfl
  | missed tx r hactive hstate hnone =>
      obtain ⟨hmonitor, hkey⟩ := hsound.lookups t tx r hactive hstate
      rw [h.committed, hmonitor, hkey] at hnone
      rw [hnone] at hused
      cases hused
  | moved tx tx' w hactive hmissed hmissed' hcheck hcommitted hw =>
      rw [h.unmissed t tx hactive] at hmissed
      cases hmissed
  | refused tx w error hactive hmissed hcommitted hw =>
      rw [h.unmissed t tx hactive] at hmissed
      cases hmissed
  | committed tx row outbox hactive hstate hwrites =>
      have := h.unmissed t tx hactive
      rw [hstate] at this
      cases this
  | ended tx hactive hstate =>
      exact ⟨h.committed, fun u tx' hu => h.unmissed u tx' (World.active_finish hu).2, h.created⟩

theorem Retried.unused (h : Retried d m key calls) {schedule : List Nat}
    (hanswered : AnsweredWith d calls (run Session.advance (opened d calls) schedule) e) :
    existingExecution m.id key d.db = none := by
  by_contra hne
  have hused := Option.isSome_iff_ne_none.mpr hne
  have hopened : Used d (opened d calls) := by
    refine ⟨rfl, fun t tx ht => ?_, fun x hx => nomatch hx⟩
    obtain ⟨r, hr, rfl⟩ := Option.map_eq_some_iff.mp ht
    have hkeyed : r.idempotencyKey ≠ "" := by
      rw [(h.same r (List.mem_of_getElem? hr)).2]
      exact h.keyed
    rw [initial, if_neg hkeyed]
    rfl
  have hboth : Sound d m.id key (run Session.advance (opened d calls) schedule) ∧
      Used d (run Session.advance (opened d calls) schedule) :=
    Reachable.invariant (P := fun s => Sound d m.id key s ∧ Used d s) ⟨h.sound, hopened⟩
      (fun s t _ hs => ⟨hs.1.advance t, hs.2.advance hs.1 hused t⟩) ⟨schedule, rfl⟩
  have hnone : (run Session.advance (opened d calls) schedule).replies.filter
      (fun x => x.2.created) = [] := by
    rw [List.filter_eq_nil_iff]
    intro x hx
    simp [hboth.2.created x hx]
  have honce := hanswered.once
  rw [hnone] at honce
  cases honce

/-- Only one call is answered with an execution that it has created. -/
theorem AnsweredWith.creator (h : AnsweredWith d calls s e) {x y : Nat × Reply}
    (hx : x ∈ s.replies) (hy : y ∈ s.replies) (hxnew : ∀ e, x.2 ≠ .returned e false)
    (hynew : ∀ e, y.2 ≠ .returned e false) : x = y := by
  have hcreated : ∀ z ∈ s.replies, (∀ e, z.2 ≠ .returned e false) →
      z ∈ s.replies.filter fun x => x.2.created := by
    intro z hz hnew
    obtain ⟨created, hcreated⟩ := h.only z hz
    refine List.mem_filter.mpr ⟨hz, ?_⟩
    cases created with
    | true =>
        rw [hcreated]
        rfl
    | false => exact absurd hcreated (hnew e)
  obtain ⟨z, hz⟩ := List.length_eq_one_iff.mp h.once
  have hxz := hcreated x hx hxnew
  have hyz := hcreated y hy hynew
  rw [hz, List.mem_singleton] at hxz hyz
  rw [hxz, hyz]

theorem Retried.alone (h : Retried d m key calls) {schedule : List Nat}
    (hdone : ∀ t, (run Session.advance (opened d calls) schedule).world.active t = none)
    (hanswered : AnsweredWith d calls (run Session.advance (opened d calls) schedule) e)
    {n : Nat} (hn : n < schedule.length) :
    LooksUpAlone (stateAt Session.advance (opened d calls) schedule n).world schedule[n] := by
  rintro tx hactive ⟨r, hstate⟩ u tx' hother
  by_contra hmissed
  rw [Bool.not_eq_false] at hmissed
  have hsound := h.sound_stateAt schedule n
  have hut : u ≠ schedule[n] := by
    rintro rfl
    rw [hactive, Option.some.injEq] at hother
    rw [← hother, hstate] at hmissed
    cases hmissed
  obtain ⟨y, hy, rfl, hynew⟩ := h.exists_reply hn.le hdone (Or.inl ⟨tx', hother, hmissed⟩)
  obtain ⟨hmonitor, hkey⟩ := hsound.lookups _ tx r hactive hstate
  have hof : OfCheck tx := hsound.checks _ tx hactive
  obtain ⟨state, writes⟩ := tx
  subst hstate
  obtain rfl : writes = [] := hof
  cases hexisting : existingExecution r.monitorId r.idempotencyKey
      (stateAt Session.advance (opened d calls) schedule n).world.committed.db with
  | none =>
      -- both have found nothing
      have hnext :
        Missed (stateAt Session.advance (opened d calls) schedule (n + 1)) schedule[n] := by
        rw [stateAt_succ hn, advance_select hactive rfl rfl]
        simp only [System.view, List.foldl_nil, hexisting]
        exact Or.inl ⟨_, Function.update_self _ _ _, rfl⟩
      obtain ⟨x, hx, hxt, hxnew⟩ := h.exists_reply hn hdone hnext
      exact hut ((congrArg Prod.fst (hanswered.creator hy hx hynew hxnew)).trans hxt)
  | some e' =>
      -- the execution that is found was created by a third call
      rw [hmonitor, hkey] at hexisting
      rcases hsound.existing (by rw [hexisting]; rfl) with hused | ⟨x, hx, hcreated⟩
      · rw [h.unused hanswered] at hused
        cases hused
      · have hfinal := mem_replies_stateAt hn.le hx
        rw [stateAt_length] at hfinal
        have hxnew : ∀ e, x.2 ≠ .returned e false := by
          intro e he
          rw [he] at hcreated
          cases hcreated
        obtain rfl := hanswered.creator hfinal hy hxnew hynew
        have := hsound.answered x hx tx' hother
        rw [this] at hmissed
        cases hmissed

/-- Calls that look the key up one at a time are all answered with one new execution. -/
theorem Retried.answeredWith (h : Retried d m key calls) {schedule : List Nat}
    (hdone : ∀ t, (run Session.advance (opened d calls) schedule).world.active t = none)
    (hunused : existingExecution m.id key d.db = none)
    (halone : ∀ n (hn : n < schedule.length),
      LooksUpAlone (stateAt Session.advance (opened d calls) schedule n).world schedule[n]) :
    ∃ e, AnsweredWith d calls (run Session.advance (opened d calls) schedule) e := by
  obtain ⟨revision, hcheckable⟩ := h.checkable hunused
  have hcalls : ∀ r ∈ calls, RequestOf d m key r := fun r hr => h.request hr
  have hturn : Turn d m key calls revision (run Session.advance (opened d calls) schedule) := by
    rw [← stateAt_length]
    exact stateAt_invariant (C := fun s t => LooksUpAlone s.world t) (.waiting rfl)
      (fun s t _ hturn halone => hturn.advance hcheckable hcalls halone) halone schedule.length
  generalize run Session.advance (opened d calls) schedule = s at hdone hturn
  cases hturn with
  | waiting hopened =>
      obtain ⟨r, rest, rfl⟩ := List.exists_cons_of_ne_nil h.called
      have := hdone 0
      rw [hopened] at this
      cases this
  | first t r tx ht hcreating hcommitted hreplies hfree hactive =>
      have := hdone t
      rw [hactive, Function.update_self] at this
      cases this
  | later e hcreated =>
      refine ⟨e, fun t ht => ?_, hcreated.only, hcreated.once, hcreated.execution,
        hcreated.announcement⟩
      rcases hcreated.answered t ht with hanswered | ⟨r, hr⟩
      · exact hanswered
      · rw [hdone t] at hr
        cases hr

/-- Only the calls that were opened are ever at work. -/
theorem active_beyond {schedule : List Nat} {n : Nat} (hu : calls.length ≤ u) :
    (stateAt Session.advance (opened d calls) schedule n).world.active u = none := by
  refine (reachable_stateAt schedule n).invariant (P := fun s : Session => s.world.active u = none)
    ?_ fun s t _ hnone => ?_
  · show calls[u]?.map _ = none
    rw [List.getElem?_eq_none hu]
    rfl
  · refine Option.eq_none_iff_forall_ne_some.mpr fun tx' hsome => ?_
    rcases active_of_step (step_step admission s.world (.advance t)) hsome with
      ⟨tx, htx⟩ | ⟨request, hevent⟩
    · rw [hnone] at htx
      cases htx
    · cases hevent

/-- The calls are answered alike exactly when their key is new and each looks it
up while no other is between its own lookup and its commit. -/
theorem answered_alike_iff (h : Retried d m key calls) (schedule : List Nat)
    (hdone : ∀ t, (run Session.advance (opened d calls) schedule).world.active t = none) :
    (∃ e, AnsweredWith d calls (run Session.advance (opened d calls) schedule) e) ↔
      existingExecution m.id key d.db = none ∧ ∀ n (hn : n < schedule.length),
        LooksUpAlone (stateAt Session.advance (opened d calls) schedule n).world schedule[n] := by
  constructor
  · rintro ⟨e, hanswered⟩
    exact ⟨h.unused hanswered, fun n hn => h.alone hdone hanswered hn⟩
  · rintro ⟨hunused, halone⟩
    exact h.answeredWith hdone hunused halone

end Schedules

/-- The call `t` looks its key up while `u` has found nothing and is at work. -/
def interferes (w : State) (t u : Nat) : Bool :=
  match w.active t, w.active u with
  | some ⟨.findExisting _, _⟩, some tx => missed tx.state
  | _, _ => false

theorem looksUpAlone_of_interferes {w : State} {t : Nat} (h : ∀ u, interferes w t u = false) :
    LooksUpAlone w t := by
  rintro ⟨state, writes⟩ hactive ⟨r, rfl⟩ u tx' hother
  simpa [interferes, hactive, hother] using h u

/-- A check of a due monitor is requested twice with one key. -/
def retries : List CheckRequest :=
  [⟨10, ⟨1⟩, "retry", "", ⟨100⟩⟩, ⟨11, ⟨1⟩, "retry", "", ⟨101⟩⟩]

/-- The second request looks the key up after the first has committed. -/
def inTurn : List Nat :=
  List.replicate 7 0 ++ List.replicate 2 1

/-- The second request looks the key up before the first has committed. -/
def atOnce : List Nat :=
  [0, 1] ++ List.replicate 6 0 ++ List.replicate 3 1

theorem retried_dueMonitor : ∃ m, m.id = ⟨1⟩ ∧ Retried dueMonitor m "retry" retries := by
  obtain ⟨m, hm, hid, hactive, hplanned⟩ : ∃ m ∈ dueMonitor.db.monitors,
      m.id = ⟨1⟩ ∧ m.status = .active ∧ m.currentRevisionId.isSome = true := by
    decide +kernel
  refine ⟨m, hid, ⟨_, rfl⟩, hm, hactive, hplanned, ?_, by decide, by decide, ?_, by decide +kernel⟩
  · rw [hid]
    unfold IdleIn
    decide +kernel
  · rw [hid]
    decide

theorem retried_finished {schedule : List Nat}
    (h : ((run Session.advance (opened dueMonitor retries) schedule).world.active 0).isNone = true ∧
      ((run Session.advance (opened dueMonitor retries) schedule).world.active 1).isNone = true)
    (t : Nat) :
    (run Session.advance (opened dueMonitor retries) schedule).world.active t = none := by
  match t with
  | 0 => exact Option.isNone_iff_eq_none.mp h.1
  | 1 => exact Option.isNone_iff_eq_none.mp h.2
  | t + 2 =>
      rw [← stateAt_length]
      exact active_beyond (Nat.le_add_left 2 t)

theorem retries_refused_at_once :
    ¬ ∀ (d : Versioned) (m : Monitor) (key : String) (calls : List CheckRequest)
      (schedule : List Nat), Retried d m key calls →
      (∀ t, (run Session.advance (opened d calls) schedule).world.active t = none) →
      ∃ e, AnsweredWith d calls (run Session.advance (opened d calls) schedule) e := by
  intro h
  obtain ⟨m, -, hretried⟩ := retried_dueMonitor
  obtain ⟨e, hanswered⟩ := h dueMonitor m "retry" retries atOnce hretried
    (retried_finished (by decide +kernel))
  obtain ⟨x, hx, hrefused⟩ : ∃ x ∈ (run Session.advance (opened dueMonitor retries) atOnce).replies,
      (match x.2 with | .refused .conflict => true | _ => false) = true := by
    rw [← List.any_eq_true]
    decide +kernel
  obtain ⟨created, hreturned⟩ := hanswered.only x hx
  rw [hreturned] at hrefused
  cases hrefused

theorem retries_answered_in_turn :
    ∃ e, AnsweredWith dueMonitor retries
      (run Session.advance (opened dueMonitor retries) inTurn) e := by
  obtain ⟨m, hid, h⟩ := retried_dueMonitor
  refine (answered_alike_iff h inTurn (retried_finished (by decide +kernel))).mpr ⟨?_, ?_⟩
  · rw [hid]
    exact Option.isNone_iff_eq_none.mp (by decide +kernel)
  · intro n hn
    refine looksUpAlone_of_interferes fun u => ?_
    by_cases hu : u < 2
    · have hall : ∀ n (hn : n < inTurn.length), ∀ u < 2, interferes (stateAt Session.advance
          (opened dueMonitor retries) inTurn n).world inTurn[n] u = false := by
        decide +kernel
      exact hall n hn u hu
    · have hnone : (stateAt Session.advance (opened dueMonitor retries) inTurn n).world.active u =
          none := active_beyond (Nat.le_of_not_lt hu)
      unfold interferes
      rw [hnone]
      split <;> simp_all

end PriceScout.Store.RepeatedChecks
