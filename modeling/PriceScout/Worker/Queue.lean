import PriceScout.Library.WorkQueues
import PriceScout.Store.Announcements
import PriceScout.Worker.Contracts

/-!
The way of a work message: from the outbox through the relay into the stream,
and from there to workers that may crash, be cut off or be given the same
message many times. A message leaves the stream when a worker settles it.
-/

namespace PriceScout.Worker.Queue

open PriceScout.Domain
open PriceScout.Library
open PriceScout.Library.Runs
open PriceScout.Library.Tables
open PriceScout.Library.WorkQueues
open PriceScout.Store.Alerts
open PriceScout.Store.Announcements
open PriceScout.Store.Effects
open PriceScout.Store.Executions
open PriceScout.Store.Inversions
open PriceScout.Store.Operations (Call Operation)
open PriceScout.Store.Outbox
open PriceScout.Store.Schema
open PriceScout.Worker.Contracts (QueueJob queueJobSchema queueJobSchema_isSome_iff
  executionId_of_queueJobSchema)

/-- How a publication went. The stream may take a message for a duplicate, and
it may have stored one whose confirmation was lost. -/
inductive Publication where
  | confirmed (suppress : Bool)
  | unconfirmed (suppress : Bool) (message : String)
  | failed (message : String)

def Publication.answer : Publication → Except String Unit
  | .confirmed _ => .ok ()
  | .unconfirmed _ message => .error message
  | .failed message => .error message

/-- What the stream holds after a batch, which ends with the first publication
that the relay sees fail. -/
def receiveBatch (outcome : OutboxRow → Publication) :
    Stream WorkMessage → List OutboxRow → Stream WorkMessage
  | stream, [] => stream
  | stream, row :: rest =>
      match outcome row with
      | .confirmed suppress => receiveBatch outcome (stream.store suppress row.id row.payload) rest
      | .unconfirmed suppress _ => stream.store suppress row.id row.payload
      | .failed _ => stream

inductive Stage where
  | received
  | executing (job : QueueJob)

/-- A message in the hands of a worker. -/
structure Delivery where
  sequence : Nat
  message : WorkMessage
  stage : Stage

structure State where
  db : Database
  stream : Stream WorkMessage
  deliveries : List Delivery

/-- How a request of a worker to the control plane went: it was not carried out,
or its answer was lost or refused by the worker, or it was answered. -/
inductive Exchange where
  | refused
  | unanswered
  | answered

inductive Event where
  | call (call : Call)
  | relay (now : Timestamp) (locked : Nat → Bool) (limit : Nat) (outcome : OutboxRow → Publication)
      (commits : Bool)
  | deliver (sequence : Nat)
  | crash (delivery : Nat)
  | receive (delivery : Nat) (now : Timestamp) (exchange : Exchange) (confirmed : Bool)
  | finish (delivery : Nat) (now : Timestamp) (outcome : Option (OpenStore × ExecutionResult))
      (exchange : Exchange) (confirmed : Bool)

/-- The worker is done with a message, or has given up on it for now. -/
def State.drop (s : State) (delivery : Nat) : State :=
  { s with deliveries := s.deliveries.eraseIdx delivery }

/-- `ack` or `term`, which the server may never see. -/
def State.settle (s : State) (standing : Standing) (sequence : Nat) (confirmed : Bool) : State :=
  if confirmed then { s with stream := s.stream.settle standing sequence } else s

/-- `processDelivery` up to the start of the execution. -/
def receiveJob (s : State) (n : Nat) (delivery : Delivery) (now : Timestamp) (exchange : Exchange)
    (confirmed : Bool) : State :=
  match queueJobSchema delivery.message with
  | none => (s.settle .terminated delivery.sequence confirmed).drop n
  | some job =>
      let db := Store.Operations.step s.db ⟨now, .getExecutionInput job.executionId⟩
      match exchange with
      | .refused => s.drop n
      | .unanswered => { s with db }.drop n
      | .answered =>
          match getExecutionInput now job.executionId s.db with
          | .error _ => s.drop n
          | .ok (input, _) =>
              if isTerminalExecution input.execution.state then
                ({ s with db }.settle .acked delivery.sequence confirmed).drop n
              else { s with db, deliveries :=
                s.deliveries.set n { delivery with stage := .executing job } }

/-- `processDelivery` from the end of the execution, which may have thrown. -/
def finishJob (s : State) (n : Nat) (delivery : Delivery) (job : QueueJob) (now : Timestamp)
    (outcome : Option (OpenStore × ExecutionResult)) (exchange : Exchange) (confirmed : Bool) :
    State :=
  match outcome with
  | none => s.drop n
  | some (store, result) =>
      let db := Store.Operations.step s.db ⟨now, .applyResult store job.executionId result⟩
      match exchange with
      | .refused => s.drop n
      | .unanswered => { s with db }.drop n
      | .answered =>
          match applyResult store now job.executionId result s.db with
          | .error _ => s.drop n
          | .ok _ => ({ s with db }.settle .acked delivery.sequence confirmed).drop n

def step (s : State) : Event → State
  | .call call =>
      match call.operation with
      | .processOutbox .. => s
      | _ => { s with db := Store.Operations.step s.db call }
  | .relay now locked limit outcome commits =>
      { s with
        db := (processOutbox s.db now locked limit (fun row => (outcome row).answer) commits).1
        stream := receiveBatch outcome s.stream (unpublished s.db locked limit) }
  | .deliver sequence =>
      match s.stream[sequence]? with
      | some message =>
          if message.standing = .pending then
            { s with deliveries := s.deliveries ++ [⟨sequence, message.payload, .received⟩] }
          else s
      | none => s
  | .crash n => s.drop n
  | .receive n now exchange confirmed =>
      match s.deliveries[n]? with
      | some ⟨sequence, message, .received⟩ =>
          receiveJob s n ⟨sequence, message, .received⟩ now exchange confirmed
      | _ => s
  | .finish n now outcome exchange confirmed =>
      match s.deliveries[n]? with
      | some ⟨sequence, message, .executing job⟩ =>
          finishJob s n ⟨sequence, message, .executing job⟩ job now outcome exchange confirmed
      | _ => s

def empty : State :=
  ⟨Database.empty, [], []⟩

/-- Every execution that has not ended has an outbox row that is still to be
published, or whose message is still to be settled. -/
def Tracked (s : State) : Prop :=
  ∀ e ∈ s.db.executions, e.inFlight = true →
    ∃ row ∈ s.db.outbox, row.payload.executionId = e.id ∧
      (row.publishedAt.isNone = true ∨
        ∃ m ∈ s.stream, m.id = row.id ∧ m.payload = row.payload ∧ m.standing = .pending)

instance (s : State) : Decidable (Tracked s) :=
  inferInstanceAs (Decidable (∀ e ∈ s.db.executions, _ → ∃ row ∈ s.db.outbox, _))

/-- A request that creates an execution gives a trace context of at most 512 UTF-16 units. -/
def Traceable (s : State) : Event → Prop
  | .call call => ∀ traceparent ∈ creates s.db call.operation, JsStrings.length traceparent ≤ 512
  | _ => True

instance (s : State) (event : Event) : Decidable (Traceable s event) :=
  match event with
  | .call call => inferInstanceAs (Decidable (∀ t ∈ creates s.db call.operation, _))
  | .relay .. | .deliver .. | .crash .. | .receive .. | .finish .. =>
      inferInstanceAs (Decidable True)

/-- What ties executions, outbox rows, messages and deliveries together. -/
structure Tracking (s : State) : Prop where
  announced : ∀ e ∈ s.db.executions, ∃ row ∈ s.db.outbox, row.payload.executionId = e.id
  housed : ∀ row ∈ s.db.outbox, s.db.hasExecution row.payload.executionId
  valid : ∀ row ∈ s.db.outbox, (queueJobSchema row.payload).isSome = true
  published : ∀ row ∈ s.db.outbox, row.publishedAt.isSome = true → s.stream.Stores row.id
  messages : ∀ m ∈ s.stream, ∃ row ∈ s.db.outbox, row.id = m.id ∧ row.payload = m.payload
  settled : ∀ m ∈ s.stream, m.standing ≠ .pending →
    ∀ e ∈ s.db.executions, e.id = m.payload.executionId → e.inFlight = false
  delivered : ∀ d ∈ s.deliveries, s.stream.Carries d.sequence d.message
  executing : ∀ d ∈ s.deliveries, ∀ job, d.stage = .executing job →
    queueJobSchema d.message = some job

namespace Tracking

variable {s : State} {n : Nat}

theorem tracked (h : Tracking s) : Tracked s := by
  intro e he hflight
  obtain ⟨row, hrow, hid⟩ := h.announced e he
  refine ⟨row, hrow, hid, ?_⟩
  cases hpublished : row.publishedAt with
  | none => exact Or.inl rfl
  | some t =>
      right
      obtain ⟨m, hm, hmid⟩ := h.published row hrow (by rw [hpublished]; rfl)
      obtain ⟨row', hrow', hrowid, hpayload⟩ := h.messages m hm
      obtain rfl := Table.eq_of_key_eq hrow' hrow (hrowid.trans hmid)
      refine ⟨m, hm, hmid, hpayload.symm, ?_⟩
      by_contra hsettled
      have := h.settled m hm hsettled e he (by rw [← hpayload, hid])
      simp [this] at hflight

/-- The database moves on without the relay. -/
theorem announces {created : Option String} {db' : Database} (h : Tracking s)
    (hannounces : Announces created s.db db')
    (hshort : ∀ traceparent ∈ created, JsStrings.length traceparent ≤ 512) :
    Tracking { s with db := db' } where
  announced := by
    intro e he
    rcases hannounces.executions e he with ⟨e₀, he₀, hid, -⟩ | ⟨-, hrow⟩
    · obtain ⟨row, hrow, hrowid⟩ := h.announced e₀ he₀
      exact ⟨row, hannounces.kept row hrow, hrowid.trans hid.symm⟩
    · exact hrow
  housed := by
    intro row hrow
    rcases hannounces.rows row hrow with hold | ⟨-, -, hexecution⟩
    · exact hannounces.persists _ (h.housed row hold)
    · exact hexecution
  valid := by
    intro row hrow
    rcases hannounces.rows row hrow with hold | ⟨-, htrace, -⟩
    · exact h.valid row hold
    · rw [queueJobSchema_isSome_iff]
      rcases htrace with hempty | hcreated
      · simp [hempty, JsStrings.length]
      · exact hshort _ hcreated
  published := by
    intro row hrow hpublished
    rcases hannounces.rows row hrow with hold | ⟨hnone, -⟩
    · exact h.published row hold hpublished
    · simp [hnone] at hpublished
  messages := by
    intro m hm
    obtain ⟨row, hrow, hrest⟩ := h.messages m hm
    exact ⟨row, hannounces.kept row hrow, hrest⟩
  settled := by
    intro m hm hsettled e he hid
    rcases hannounces.executions e he with ⟨e₀, he₀, hid₀, hended⟩ | ⟨hfresh, -⟩
    · exact hended (h.settled m hm hsettled e₀ he₀ (hid₀.symm.trans hid))
    · obtain ⟨row, hrow, -, hpayload⟩ := h.messages m hm
      refine absurd ?_ hfresh
      rw [hid, ← hpayload]
      exact h.housed row hrow
  delivered := h.delivered
  executing := h.executing

theorem drop (h : Tracking s) (n : Nat) : Tracking (s.drop n) :=
  { h with
    delivered := fun d hd => h.delivered d (List.mem_of_mem_eraseIdx hd)
    executing := fun d hd => h.executing d (List.mem_of_mem_eraseIdx hd) }

/-- A message may be settled once its execution has ended. -/
theorem settle {sequence : Nat} {message : WorkMessage} {standing : Standing} {confirmed : Bool}
    (h : Tracking s) (hcarries : s.stream.Carries sequence message)
    (hended : ∀ e ∈ s.db.executions, e.id = message.executionId → e.inFlight = false) :
    Tracking (s.settle standing sequence confirmed) := by
  unfold State.settle
  cases confirmed with
  | false => exact h
  | true =>
      refine { h with
        published := fun row hrow hpublished => ?_
        messages := fun m hm => ?_
        settled := fun m hm hsettled e he hid => ?_
        delivered := fun d hd => Stream.carries_settle (h.delivered d hd) }
      · obtain ⟨m, hm, hid⟩ := h.published row hrow hpublished
        obtain ⟨m', hm', hid', -⟩ := Stream.exists_mem_settle hm
        exact ⟨m', hm', hid'.trans hid⟩
      · rcases Stream.mem_settle_cases hm with hm | ⟨old, hold, rfl⟩
        · exact h.messages m hm
        · exact h.messages old (List.mem_of_getElem? hold)
      · rcases Stream.mem_settle_cases hm with hm | ⟨old, hold, rfl⟩
        · exact h.settled m hm hsettled e he hid
        · obtain ⟨old', hold', rfl⟩ := hcarries
          rw [hold, Option.some.injEq] at hold'
          subst hold'
          exact hended e he hid

end Tracking

section Relay

variable {outcome : OutboxRow → Publication} {stream : Stream WorkMessage} {rows : List OutboxRow}

theorem mem_receiveBatch {m : Message WorkMessage} (h : m ∈ stream) :
    m ∈ receiveBatch outcome stream rows := by
  induction rows generalizing stream with
  | nil => exact h
  | cons row rest ih =>
      simp only [receiveBatch]
      split
      · exact ih (Stream.mem_store_of_mem _ h)
      · exact Stream.mem_store_of_mem _ h
      · exact h

theorem carries_receiveBatch {sequence : Nat} {payload : WorkMessage}
    (h : stream.Carries sequence payload) :
    Stream.Carries (receiveBatch outcome stream rows) sequence payload := by
  induction rows generalizing stream with
  | nil => exact h
  | cons row rest ih =>
      simp only [receiveBatch]
      split
      · exact ih (Stream.carries_store h)
      · exact Stream.carries_store h
      · exact h

/-- What the stream holds after a batch it held before, or a row of the batch gave it. -/
theorem receiveBatch_cases {m : Message WorkMessage} (h : m ∈ receiveBatch outcome stream rows) :
    m ∈ stream ∨ ∃ row ∈ rows, m = ⟨row.id, row.payload, .pending⟩ := by
  induction rows generalizing stream with
  | nil => exact Or.inl h
  | cons row rest ih =>
      have stored : ∀ {suppress : Bool}, m ∈ stream.store suppress row.id row.payload →
          m ∈ stream ∨ ∃ row' ∈ row :: rest, m = ⟨row'.id, row'.payload, .pending⟩ := fun hm =>
        (Stream.mem_store_cases hm).imp_right fun hm => ⟨row, List.mem_cons_self, hm⟩
      simp only [receiveBatch] at h
      split at h
      · rcases ih h with hm | ⟨row', hrow', hm⟩
        · exact stored hm
        · exact Or.inr ⟨row', List.mem_cons_of_mem _ hrow', hm⟩
      · exact stored h
      · exact Or.inl h

/-- A row that a batch marks as published has its message in the stream. -/
theorem stores_of_publishBatch {now : Timestamp} {db : Database} {row' : OutboxRow}
    (h : row' ∈ (publishBatch now (fun row => (outcome row).answer) db rows).1.outbox)
    (hpublished : row'.publishedAt.isSome = true) :
    (∃ row ∈ db.outbox, row.id = row'.id ∧ row.publishedAt.isSome = true) ∨
      Stream.Stores (receiveBatch outcome stream rows) row'.id := by
  induction rows generalizing db stream with
  | nil => exact Or.inl ⟨row', h, rfl, hpublished⟩
  | cons row rest ih =>
      simp only [publishBatch] at h
      simp only [receiveBatch]
      cases houtcome : outcome row with
      | confirmed suppress =>
          simp only [houtcome, Publication.answer] at h ⊢
          rcases @ih (stream.store suppress row.id row.payload) _ h with
            ⟨marked, hmarked, hid, hmark⟩ | hstores
          · rcases Table.mem_update_cases hmarked with ⟨old, hold, hp, rfl⟩ | ⟨hold, -⟩
            · right
              obtain ⟨m, hm, hmid⟩ : (stream.store suppress row.id row.payload).Stores row.id :=
                Stream.stores_store suppress
              refine ⟨m, mem_receiveBatch hm, hmid.trans ?_⟩
              rw [← hid]
              exact (of_decide_eq_true hp).symm
            · exact Or.inl ⟨marked, hold, hid, hmark⟩
          · exact Or.inr hstores
      | unconfirmed suppress message | failed message =>
          simp only [houtcome, Publication.answer] at h
          rcases Table.mem_update_cases h with ⟨old, hold, -, rfl⟩ | ⟨hold, -⟩
          · exact Or.inl ⟨old, hold, rfl, hpublished⟩
          · exact Or.inl ⟨row', hold, rfl, hpublished⟩

theorem mem_of_unpublished {db : Database} {locked : Nat → Bool} {limit : Nat} {row : OutboxRow}
    (h : row ∈ unpublished db locked limit) : row ∈ db.outbox := by
  have hmem := List.mem_of_mem_take h
  rw [(List.perm_insertionSort _ _).mem_iff] at hmem
  exact (List.mem_filter.mp hmem).1

/-- The marks of a batch change nothing that the executions are tracked by. -/
theorem Tracking.relayed {s : State} {outbox' : Table OutboxRow.id} (h : Tracking s)
    (hrows : ∀ row ∈ rows, row ∈ s.db.outbox) (hevolves : s.db.outbox.Evolves Relayed outbox')
    (hpublished : ∀ row' ∈ outbox', row'.publishedAt.isSome = true →
      (∃ row ∈ s.db.outbox, row.id = row'.id ∧ row.publishedAt.isSome = true) ∨
        Stream.Stores (receiveBatch outcome s.stream rows) row'.id) :
    Tracking { s with db := { s.db with outbox := outbox' },
                      stream := receiveBatch outcome s.stream rows } where
  announced := by
    intro e he
    obtain ⟨row, hrow, hid⟩ := h.announced e he
    obtain ⟨row', hrow', -, hrelayed⟩ := hevolves.forward row hrow
    exact ⟨row', hrow', hrelayed.payload ▸ hid⟩
  housed := by
    intro row' hrow'
    obtain ⟨row, hrow, -, hrelayed⟩ := hevolves.backward row' hrow'
    rw [hrelayed.payload]
    exact h.housed row hrow
  valid := by
    intro row' hrow'
    obtain ⟨row, hrow, -, hrelayed⟩ := hevolves.backward row' hrow'
    exact hrelayed.payload ▸ h.valid row hrow
  published := by
    intro row' hrow' hmark
    rcases hpublished row' hrow' hmark with ⟨row, hrow, hid, hmark'⟩ | hstores
    · obtain ⟨m, hm, hmid⟩ := h.published row hrow hmark'
      exact ⟨m, mem_receiveBatch hm, hmid.trans hid⟩
    · exact hstores
  messages := by
    intro m hm
    have hold : ∃ row ∈ s.db.outbox, row.id = m.id ∧ row.payload = m.payload := by
      rcases receiveBatch_cases hm with hm | ⟨row, hrow, rfl⟩
      · exact h.messages m hm
      · exact ⟨row, hrows row hrow, rfl, rfl⟩
    obtain ⟨row, hrow, hid, hpayload⟩ := hold
    obtain ⟨row', hrow', hid', hrelayed⟩ := hevolves.forward row hrow
    exact ⟨row', hrow', hid'.trans hid, hrelayed.payload.trans hpayload⟩
  settled := by
    intro m hm hsettled
    rcases receiveBatch_cases hm with hm | ⟨row, hrow, rfl⟩
    · exact h.settled m hm hsettled
    · exact absurd rfl hsettled
  delivered := fun d hd => carries_receiveBatch (h.delivered d hd)
  executing := h.executing

/-- A pass of the relay. -/
theorem Tracking.relay {s : State} (h : Tracking s) (now : Timestamp) (locked : Nat → Bool)
    (limit : Nat) (outcome : OutboxRow → Publication) (commits : Bool) :
    Tracking (step s (.relay now locked limit outcome commits)) := by
  have hrows : ∀ row ∈ unpublished s.db locked limit, row ∈ s.db.outbox := fun _ =>
    mem_of_unpublished
  simp only [step, processOutbox]
  cases commits with
  | false =>
      exact h.relayed hrows (.refl Relayed.refl _) fun row' hrow' hmark =>
        Or.inl ⟨row', hrow', rfl, hmark⟩
  | true =>
      obtain ⟨outbox', hbatch, hevolves⟩ := publishBatch_ok now (fun row => (outcome row).answer)
        (unpublished s.db locked limit) s.db
      simp only [if_true]
      rw [hbatch]
      refine h.relayed hrows hevolves fun row' hrow' hmark => ?_
      have hmem : row' ∈ (publishBatch now (fun row => (outcome row).answer) s.db
          (unpublished s.db locked limit)).1.outbox := by rwa [hbatch]
      exact stores_of_publishBatch hmem hmark

end Relay

section Workers

variable {s : State} {n : Nat} {delivery : Delivery}

theorem notRelay_getExecutionInput (now : Timestamp) (id : UUID) :
    NotRelay (Call.mk now (.getExecutionInput id)).operation := by
  intro _ _ _ _ h
  cases h

theorem notRelay_applyResult (now : Timestamp) (store : OpenStore) (id : UUID)
    (result : ExecutionResult) :
    NotRelay (Call.mk now (.applyResult store id result)).operation := by
  intro _ _ _ _ h
  cases h

/-- The calls that workers make create no execution for a request. -/
theorem Tracking.workerCall {call : Call} (h : Tracking s) (hrelay : NotRelay call.operation)
    (hcreates : creates s.db call.operation = none) :
    Tracking { s with db := Store.Operations.step s.db call } :=
  h.announces (Announces.step hrelay s.db) fun _ hmem => by simp [hcreates] at hmem

theorem Tracking.receiveJob (h : Tracking s) (hdelivery : delivery ∈ s.deliveries) (now : Timestamp)
    (exchange : Exchange) (confirmed : Bool) :
    Tracking (receiveJob s n delivery now exchange confirmed) := by
  have hcarries := h.delivered delivery hdelivery
  unfold Queue.receiveJob
  cases hjob : queueJobSchema delivery.message with
  | none =>
      obtain ⟨m, hm, hpayload⟩ := Stream.mem_of_carries hcarries
      obtain ⟨row, hrow, -, hsame⟩ := h.messages m hm
      have hvalid := h.valid row hrow
      simp [hsame, hpayload, hjob] at hvalid
  | some job =>
      have hcalled := h.workerCall (notRelay_getExecutionInput now job.executionId) rfl
      cases exchange with
      | refused => exact h.drop n
      | unanswered => exact hcalled.drop n
      | answered =>
          dsimp only
          cases hinput : getExecutionInput now job.executionId s.db with
          | error e => exact h.drop n
          | ok answer =>
              obtain ⟨input, db'⟩ := answer
              dsimp only
              split
              · rename_i hterminal
                refine (hcalled.settle hcarries fun e he hid => ?_).drop n
                have hstep :
                  Store.Operations.step s.db ⟨now, .getExecutionInput job.executionId⟩ = db' :=
                  commit_of_ok hinput
                obtain ⟨e', he', hid', hended⟩ := ended_of_getExecutionInput hinput hterminal
                rw [hstep] at he
                obtain rfl := Table.eq_of_key_eq he' he
                  (by rw [hid', hid, executionId_of_queueJobSchema hjob])
                exact hended
              · refine { hcalled with
                  delivered := fun d hd => ?_
                  executing := fun d hd job' hstage => ?_ }
                · rcases List.mem_or_eq_of_mem_set hd with hd | rfl
                  · exact h.delivered d hd
                  · exact hcarries
                · rcases List.mem_or_eq_of_mem_set hd with hd | rfl
                  · exact h.executing d hd job' hstage
                  · cases hstage
                    exact hjob

theorem Tracking.finishJob {job : QueueJob} (h : Tracking s) (hdelivery : delivery ∈ s.deliveries)
    (hjob : queueJobSchema delivery.message = some job) (now : Timestamp)
    (outcome : Option (OpenStore × ExecutionResult)) (exchange : Exchange) (confirmed : Bool) :
    Tracking (finishJob s n delivery job now outcome exchange confirmed) := by
  have hcarries := h.delivered delivery hdelivery
  unfold Queue.finishJob
  cases outcome with
  | none => exact h.drop n
  | some outcome =>
      obtain ⟨store, result⟩ := outcome
      have hcalled := h.workerCall (notRelay_applyResult now store job.executionId result) rfl
      cases exchange with
      | refused => exact h.drop n
      | unanswered => exact hcalled.drop n
      | answered =>
          dsimp only
          cases hresult : applyResult store now job.executionId result s.db with
          | error e => exact h.drop n
          | ok answer =>
              obtain ⟨answer, db'⟩ := answer
              refine (hcalled.settle hcarries fun e he hid => ?_).drop n
              have hstep : Store.Operations.step s.db
                  ⟨now, .applyResult store job.executionId result⟩ = db' := commit_of_ok hresult
              obtain ⟨e', he', hid', hended⟩ := ended_of_applyResult hresult
              rw [hstep] at he
              obtain rfl := Table.eq_of_key_eq he' he
                (by rw [hid', hid, executionId_of_queueJobSchema hjob])
              exact hended

theorem Tracking.step {event : Event} (h : Tracking s) (htraceable : Traceable s event) :
    Tracking (step s event) := by
  cases event with
  | relay now locked limit outcome commits => exact h.relay now locked limit outcome commits
  | crash n => exact h.drop n
  | call call =>
      simp only [Queue.step]
      split
      · exact h
      · rename_i hrelay
        exact h.announces (Announces.step hrelay s.db) htraceable
  | deliver sequence =>
      simp only [Queue.step]
      split
      · rename_i message hget
        split
        · refine { h with
            delivered := fun d hd => ?_
            executing := fun d hd job hstage => ?_ }
          · rcases List.mem_append.mp hd with hd | hd
            · exact h.delivered d hd
            · obtain rfl := List.mem_singleton.mp hd
              exact ⟨message, hget, rfl⟩
          · rcases List.mem_append.mp hd with hd | hd
            · exact h.executing d hd job hstage
            · obtain rfl := List.mem_singleton.mp hd
              cases hstage
        · exact h
      · exact h
  | receive n now exchange confirmed =>
      simp only [Queue.step]
      split
      · rename_i hget
        exact h.receiveJob (List.mem_of_getElem? hget) now exchange confirmed
      · exact h
  | finish n now outcome exchange confirmed =>
      simp only [Queue.step]
      split
      · rename_i hget
        have hmem := List.mem_of_getElem? hget
        exact h.finishJob hmem (h.executing _ hmem _ rfl) now outcome exchange confirmed
      · exact h

end Workers

theorem Tracking.empty : Tracking empty := by
  refine ⟨?_, ?_, ?_, ?_, ?_, ?_, ?_, ?_⟩
  all_goals first | exact fun _ h => absurd h (Table.not_mem_empty _) | exact fun _ h => (nomatch h)

/-- When no request creates an execution with a trace context over 512 units,
every message of the outbox is one that workers accept, and no execution that
has not ended is ever left without a message on its way. -/
theorem no_lost_work (events : List Event)
    (htraceable : ∀ n (h : n < events.length), Traceable (stateAt step empty events n) events[n]) :
    ∀ n, Tracked (stateAt step empty events n) ∧
      ∀ row ∈ (stateAt step empty events n).db.outbox,
        (queueJobSchema row.payload).isSome = true := by
  suffices h : ∀ n, Tracking (stateAt step empty events n) from
    fun n => ⟨(h n).tracked, (h n).valid⟩
  intro n
  induction n with
  | zero => exact Tracking.empty
  | succ n ih =>
      by_cases hn : n < events.length
      · rw [stateAt_succ hn]
        exact ih.step (htraceable n hn)
      · rwa [stateAt_succ_of_length_le (Nat.le_of_not_lt hn)]

/-- A monitor is created, its compile announced and delivered. -/
def created (traceparent : String) : List Event :=
  [.call ⟨0, .createMonitor ⟨"https://shop.example/item", "price of the item", 60, traceparent⟩⟩,
   .relay 1 (fun _ => false) 10 (fun _ => .confirmed true) true,
   .deliver 0,
   .receive 0 2 .answered true]

/-- An execution whose only message is refused is left without one. -/
theorem not_tracked_of_refused {s : State} {e : Execution} {n : Nat} {delivery : Delivery}
    (he : e ∈ s.db.executions) (hflight : e.inFlight = true)
    (hdelivery : s.deliveries[n]? = some delivery) (hstage : delivery.stage = .received)
    (hrefused : queueJobSchema delivery.message = none)
    (hrows : ∀ row ∈ s.db.outbox, row.payload.executionId = e.id → row.publishedAt.isSome = true)
    (honly : ∃ m, s.stream = [m] ∧ delivery.sequence = 0) (now : Timestamp) (exchange : Exchange) :
    ¬ Tracked (step s (.receive n now exchange true)) := by
  obtain ⟨sequence, message, stage⟩ := delivery
  obtain ⟨m, hstream, hsequence⟩ := honly
  simp only at hstage hrefused hsequence
  subst hstage hsequence
  simp only [step, hdelivery, receiveJob, hrefused]
  intro htracked
  obtain ⟨row, hrow, hid, hnone | ⟨m', hm', -, -, hpending⟩⟩ := htracked e he hflight
  · have := hrows row hrow hid
    rw [Option.isNone_iff_eq_none.mp hnone] at this
    cases this
  · simp only [State.settle, if_true, State.drop, hstream, Stream.settle, List.modify_zero_cons,
      List.mem_singleton] at hm'
    rw [hm'] at hpending
    cases hpending

/-- The worker terminates the message, and the compile stays queued without one. -/
theorem longTraceparent_lost :
    ¬ ∀ (events : List Event) (n : Nat), Tracked (stateAt step empty events n) := by
  intro h
  obtain ⟨t, hlong⟩ : ∃ t, 512 < JsStrings.length t := by
    refine ⟨String.ofList (List.replicate 513 '0'), ?_⟩
    rw [JsStrings.length_ofList]
    decide +kernel
  obtain ⟨e, hexecutions, hflight⟩ : ∃ e,
      (stateAt step empty (created t) 3).db.executions.rows = [e] ∧ e.inFlight = true :=
    ⟨_, by with_unfolding_all rfl, rfl⟩
  obtain ⟨row, houtbox, hpublished⟩ : ∃ row,
      (stateAt step empty (created t) 3).db.outbox.rows = [row] ∧ row.publishedAt.isSome = true :=
    ⟨_, by with_unfolding_all rfl, rfl⟩
  obtain ⟨delivery, hdelivery, hstage, hsequence, hmessage⟩ : ∃ delivery,
      (stateAt step empty (created t) 3).deliveries[0]? = some delivery ∧
        delivery.stage = .received ∧ delivery.sequence = 0 ∧ delivery.message.traceparent = t :=
    ⟨_, by with_unfolding_all rfl, rfl, rfl, rfl⟩
  obtain ⟨m, hstream⟩ : ∃ m, (stateAt step empty (created t) 3).stream = [m] :=
    ⟨_, by with_unfolding_all rfl⟩
  have hrefused : queueJobSchema delivery.message = none := by
    rw [← Option.not_isSome_iff_eq_none, queueJobSchema_isSome_iff, hmessage]
    omega
  have hn : 3 < (created t).length := by simp [created]
  have hlast : (created t)[3] = .receive 0 2 .answered true := rfl
  have htracked := h (created t) 4
  rw [stateAt_succ hn, hlast] at htracked
  refine not_tracked_of_refused (e := e) ?_ hflight hdelivery hstage hrefused ?_
    ⟨m, hstream, hsequence⟩ 2 .answered htracked
  · rw [Table.mem_def, hexecutions]
    exact List.mem_cons_self
  · intro row' hrow' _
    rw [Table.mem_def, houtbox, List.mem_singleton] at hrow'
    rw [hrow']
    exact hpublished

/-- The requests of the run give a trace context of the usual form. -/
def traced : List Event :=
  created "00-4bf92f3577b34da6a3ce929d0e0e4736-00f067aa0ba902b7-01"

theorem no_lost_work_created :
    (∀ n (h : n < traced.length), Traceable (stateAt step empty traced n) traced[n]) ∧
      ∀ n, Tracked (stateAt step empty traced n) ∧
        ∀ row ∈ (stateAt step empty traced n).db.outbox,
          (queueJobSchema row.payload).isSome = true := by
  have htraceable : ∀ n (h : n < traced.length),
      Traceable (stateAt step empty traced n) traced[n] := by
    decide +kernel
  exact ⟨htraceable, no_lost_work traced htraceable⟩

end PriceScout.Worker.Queue
