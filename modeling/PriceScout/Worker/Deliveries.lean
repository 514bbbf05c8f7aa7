import PriceScout.Library.Recordings
import PriceScout.Worker.Environment
import PriceScout.Worker.MonitorConditions

/-!
One delivery of a work message: what a worker does with it, in order, until it
has told the queue what is to become of the message.
-/

namespace PriceScout.Worker.Deliveries

open PriceScout.Domain (ExecutionState WorkMessage)
open PriceScout.Library
open PriceScout.Library.Attempts
open PriceScout.Library.JsonDocuments
open PriceScout.Library.JsonDocuments.Json
open PriceScout.Worker.Contracts (ExecutionInput ExecutionResult)
open PriceScout.Worker.Environment
open PriceScout.Worker.MonitorConditions (optional)

/-- What a work message asks for. -/
structure QueueJob where
  executionId : String
  traceparent : Option String
deriving DecidableEq

/-- `z.string().min(1)` -/
def executionIdSchema (value : Json) : Option String :=
  (text? value).filter fun text => 1 ≤ JsStrings.length text

/-- `z.string().max(512)` -/
def traceparentSchema (value : Json) : Option String :=
  (text? value).filter fun text => JsStrings.length text ≤ 512

def queueJobSchema : Json → Option QueueJob
  | .obj fields => do
      let executionId ← (lastValue "executionId" fields).bind executionIdSchema
      let traceparent ← optional traceparentSchema (lastValue "traceparent" fields)
      return { executionId, traceparent }
  | _ => none

/-- The payload that the outbox keeps for a message. -/
def messageJson (message : WorkMessage) : Json :=
  .obj ([("schemaVersion", .int message.schemaVersion),
    ("executionId", .str message.executionId.string),
    ("monitorId", .str message.monitorId.string)] ++
    (message.revisionId.map fun id => ("revisionId", Json.str id.string)).toList ++
    if message.traceparent = "" then [] else [("traceparent", .str message.traceparent)])

/-- A message as the queue delivers it. -/
structure Message where
  data : String
  redeliveryCount : Nat

/-- An input as the control plane reports it, with the state of the execution. -/
structure ReportedInput extends ExecutionInput where
  state : ExecutionState

/-- A result as it is submitted, with the trace it belongs to. -/
structure SubmittedResult extends ExecutionResult where
  traceId : Option String

def terminalExecutionStates : List ExecutionState :=
  [.succeeded, .failed, .blocked, .needsReview]

/-- The control plane, which may answer, fail or time out. -/
structure WorkerApi (W : Type) where
  input : String → Attempt JsError W ReportedInput
  result : String → SubmittedResult → Attempt JsError W Unit

abbrev JobExecutor (W : Type) :=
  ReportedInput → Attempt JsError W SubmittedResult

/-- What a worker tells the queue about a message; a `nak` says for how many
milliseconds the message is to be held back. -/
inductive Settlement where
  | ack
  | nak (delay : Nat)
  | term (reason : String)
deriving DecidableEq

/-- What a worker does, with the answers it gets. -/
inductive Act where
  | startHeartbeat
  | stopHeartbeat
  | startTimer
  | stopTimer
  | input (executionId : String) (answer : Except JsError ReportedInput)
  | execute (input : ReportedInput) (answer : Except JsError SubmittedResult)
  | result (executionId : String) (result : SubmittedResult) (answer : Except JsError Unit)
  | settle (settlement : Settlement)

def Act.isSettlement : Act → Bool
  | .settle _ => true
  | _ => false

/-- In milliseconds. -/
def backoff (redeliveryCount : Nat) : Nat :=
  min 60000 (1000 * 2 ^ min redeliveryCount 6)

/-- `/^[0-9a-f]{n}$/` -/
def isHexadecimal (n : Nat) (text : List Char) : Bool :=
  text.length = n && text.all fun c => JsStrings.isAsciiDigit c || ('a' ≤ c && c ≤ 'f')

/-- The first group of
`/^00-(?!0{32})([0-9a-f]{32})-(?!0{16})[0-9a-f]{16}-[0-9a-f]{2}$/`. -/
def traceIdFromTraceparent (traceparent : Option String) : Option String :=
  traceparent.bind fun text =>
    match JsStrings.splitChars '-' text.toList with
    | [version, traceId, parentId, flags] =>
        if version = ['0', '0'] ∧ isHexadecimal 32 traceId ∧ traceId ≠ List.replicate 32 '0' ∧
            isHexadecimal 16 parentId ∧ parentId ≠ List.replicate 16 '0' ∧
            isHexadecimal 2 flags then
          some (String.ofList traceId)
        else none
    | _ => none

/-- `traceId ? { ...executionResult, traceId } : executionResult` -/
def withTraceId (executionResult : SubmittedResult) : Option String → SubmittedResult
  | some traceId => { executionResult with traceId := some traceId }
  | none => executionResult

section Processing

variable (runtime : Runtime) {W : Type} (api : WorkerApi W) (executor : JobExecutor W)

/-- The time limit aborts the executor, which has to settle all the same. -/
def executeWithJobTimeout (input : ReportedInput) :
    Attempt JsError (W × List Act) SubmittedResult :=
  doFinally
    (do
      note .startTimer
      recorded (.execute input) (executor input))
    fun s => (s.1, s.2 ++ [.stopTimer])

/-- The job of a message, when it is valid. -/
def parsedJob (message : Message) : Option QueueJob :=
  (runtime.parseJson message.data).bind queueJobSchema

/-- The part of `processDelivery` that may fail. -/
def processJob (payload : QueueJob) : Attempt JsError (W × List Act) Unit := do
  note .startHeartbeat
  let input ← recorded (.input payload.executionId) (api.input payload.executionId)
  if terminalExecutionStates.contains input.state then
    note (.settle .ack)
  else
    let executionResult ← executeWithJobTimeout executor input
    let result := withTraceId executionResult (traceIdFromTraceparent payload.traceparent)
    recorded (.result payload.executionId result) (api.result payload.executionId result)
    note (.settle .ack)

def processDelivery (message : Message) : Attempt JsError (W × List Act) Unit :=
  match runtime.parseJson message.data with
  | none => note (.settle (.term "invalid price-scout work-message JSON"))
  | some raw =>
      match queueJobSchema raw with
      | none => note (.settle (.term "invalid price-scout work-message schema"))
      | some payload =>
          doFinally
            (tryCatch (processJob api executor payload) fun _ =>
              note (.settle (.nak (backoff message.redeliveryCount))))
            fun s => (s.1, s.2 ++ [.stopHeartbeat])

end Processing

/-- What is done for a job between the start of the heartbeat and the
settlement, and which settlement follows. -/
inductive Course (payload : QueueJob) (delay : Nat) : List Act → Settlement → Prop
  | unknown (error : JsError) :
      Course payload delay [.input payload.executionId (.error error)] (.nak delay)
  | terminal (input : ReportedInput) (hterminal : input.state ∈ terminalExecutionStates) :
      Course payload delay [.input payload.executionId (.ok input)] .ack
  | failed (input : ReportedInput) (hlive : input.state ∉ terminalExecutionStates)
      (error : JsError) :
      Course payload delay
        [.input payload.executionId (.ok input), .startTimer, .execute input (.error error),
          .stopTimer]
        (.nak delay)
  | unreported (input : ReportedInput) (hlive : input.state ∉ terminalExecutionStates)
      (executed : SubmittedResult) (error : JsError) :
      Course payload delay
        [.input payload.executionId (.ok input), .startTimer, .execute input (.ok executed),
          .stopTimer, .result payload.executionId
            (withTraceId executed (traceIdFromTraceparent payload.traceparent)) (.error error)]
        (.nak delay)
  | completed (input : ReportedInput) (hlive : input.state ∉ terminalExecutionStates)
      (executed : SubmittedResult) :
      Course payload delay
        [.input payload.executionId (.ok input), .startTimer, .execute input (.ok executed),
          .stopTimer, .result payload.executionId
            (withTraceId executed (traceIdFromTraceparent payload.traceparent)) (.ok ())]
        .ack

def settlements (acts : List Act) : List Settlement :=
  acts.filterMap fun
    | .settle settlement => some settlement
    | _ => none

/-- The heartbeat goes on after these acts, when it did before them or not. -/
def beating (before : Bool) (acts : List Act) : Bool :=
  acts.foldl (fun on act => match act with
    | .startHeartbeat => true
    | .stopHeartbeat => false
    | _ => on) before

/-- The timer of the job goes on after these acts. -/
def timing (before : Bool) (acts : List Act) : Bool :=
  acts.foldl (fun on act => match act with
    | .startTimer => true
    | .stopTimer => false
    | _ => on) before

/-- The control plane has reported that the execution is over, or has accepted a
result for it. -/
def Done (executionId : String) (acts : List Act) : Prop :=
  (∃ input, .input executionId (.ok input) ∈ acts ∧ input.state ∈ terminalExecutionStates) ∨
    ∃ result, .result executionId result (.ok ()) ∈ acts

/-- What a worker owes the queue, the control plane and itself for a message. -/
structure Disciplined (runtime : Runtime) (message : Message) (acts : List Act) : Prop where
  settled_once : ∃ settlement, settlements acts = [settlement]
  ack_earned : ∀ n, acts[n]? = some (.settle .ack) →
    ∃ payload, parsedJob runtime message = some payload ∧ Done payload.executionId (acts.take n)
  term_iff : (∃ reason, .settle (.term reason) ∈ acts) ↔ parsedJob runtime message = none
  executed_live : ∀ n input answer, acts[n]? = some (.execute input answer) →
    ∃ payload, parsedJob runtime message = some payload ∧
      .input payload.executionId (.ok input) ∈ acts.take n ∧
      input.state ∉ terminalExecutionStates
  terminal_not_executed : ∀ executionId input, .input executionId (.ok input) ∈ acts →
    input.state ∈ terminalExecutionStates → ∀ given answer, .execute given answer ∉ acts
  heartbeat_stopped : beating false acts = false
  timer_stopped : timing false acts = false

section Courses

variable {runtime : Runtime} {W : Type} {api : WorkerApi W} {executor : JobExecutor W}
  {message : Message}

/-- All that can happen to a valid message. -/
theorem course_processDelivery {payload : QueueJob} (h : parsedJob runtime message = some payload)
    (w : W) :
    ∃ w' acts settlement,
      Returns (processDelivery runtime api executor message) (w, []) ()
        (w', .startHeartbeat :: acts ++ [.settle settlement, .stopHeartbeat]) ∧
      Course payload (backoff message.redeliveryCount) acts settlement := by
  obtain ⟨raw, hraw, hpayload⟩ := Option.bind_eq_some_iff.mp h
  simp only [Returns, processDelivery, hraw, hpayload, processJob, executeWithJobTimeout,
    outcome_doFinally, outcome_tryCatch, outcome_bind, outcome_note, outcome_recorded,
    List.nil_append]
  rcases outcome (api.input payload.executionId) w with ⟨error | input, w₁⟩
  · exact ⟨w₁, _, _, rfl, .unknown error⟩
  · dsimp only
    by_cases hterminal : input.state ∈ terminalExecutionStates
    · rw [if_pos (List.contains_iff_mem.mpr hterminal)]
      exact ⟨w₁, _, _, rfl, .terminal input hterminal⟩
    · rw [if_neg (fun hcontains => hterminal (List.contains_iff_mem.mp hcontains))]
      simp only [outcome_doFinally, outcome_bind, outcome_note, outcome_recorded]
      rcases outcome (executor input) w₁ with ⟨error | executed, w₂⟩
      · exact ⟨w₂, _, _, rfl, .failed input hterminal error⟩
      · dsimp only
        generalize hresult :
          withTraceId executed (traceIdFromTraceparent payload.traceparent) = result
        rcases outcome (api.result payload.executionId result) w₂ with ⟨error | answer, w₃⟩
        · subst hresult
          exact ⟨w₃, _, _, rfl, .unreported input hterminal executed error⟩
        · subst hresult
          exact ⟨w₃, _, _, rfl, .completed input hterminal executed⟩

end Courses

/-- Of what the outbox writes the schema reads what it wrote. -/
theorem queueJobSchema_messageJson (message : WorkMessage) :
    queueJobSchema (messageJson message) =
      (Contracts.queueJobSchema message).map fun job =>
        { executionId := job.executionId.string, traceparent := job.traceparent } := by
  have hlength := Contracts.length_uuid_pos message.executionId
  have hid : executionIdSchema (.str message.executionId.string) =
      some message.executionId.string := by
    simp [executionIdSchema, text?, Option.filter, hlength]
  have htrace : traceparentSchema (.str message.traceparent) =
      if JsStrings.length message.traceparent > 512 then none else some message.traceparent := by
    by_cases hlong : JsStrings.length message.traceparent > 512
    · simp [traceparentSchema, text?, Option.filter, hlong]
    · simp [traceparentSchema, text?, Option.filter, hlong, Nat.le_of_not_lt hlong]
  unfold messageJson Contracts.queueJobSchema
  rw [if_neg (Nat.not_lt_of_le hlength)]
  by_cases hempty : message.traceparent = ""
  · cases message.revisionId <;>
      simp [queueJobSchema, lastValue, hempty, hid, MonitorConditions.optional]
  · rw [if_neg hempty, if_neg hempty]
    by_cases hlong : JsStrings.length message.traceparent > 512
    · cases message.revisionId <;>
        simp [queueJobSchema, lastValue, hid, htrace, hlong, MonitorConditions.optional]
    · cases message.revisionId <;>
        simp [queueJobSchema, lastValue, hid, htrace, hlong, MonitorConditions.optional]

section Discipline

variable {runtime : Runtime} {W : Type} {message : Message} {payload : QueueJob} {delay : Nat}
  {acts : List Act} {settlement : Settlement}

@[simp] theorem mem_settlements : settlement ∈ settlements acts ↔ .settle settlement ∈ acts := by
  simp only [settlements, List.mem_filterMap]
  constructor
  · rintro ⟨act, hact, hsettle⟩
    cases act <;> cases hsettle
    exact hact
  · intro h
    exact ⟨_, h, rfl⟩

theorem settlements_of_course (h : Course payload delay acts settlement) :
    settlements acts = [] := by
  cases h <;> rfl

theorem done_of_course (h : Course payload delay acts .ack) : Done payload.executionId acts := by
  cases h with
  | terminal input hterminal => exact .inl ⟨input, List.mem_cons_self, hterminal⟩
  | completed input hlive executed =>
      refine .inr ⟨withTraceId executed (traceIdFromTraceparent payload.traceparent), ?_⟩
      simp

theorem ne_term_of_course (h : Course payload delay acts settlement) (reason : String) :
    settlement ≠ .term reason := by
  rintro rfl
  cases h

/-- Whoever settles does it at the end. -/
theorem eq_of_getElem?_settle {n : Nat} {settled : Settlement} (hacts : settlements acts = [])
    (h : (Act.startHeartbeat :: acts ++ [.settle settlement, .stopHeartbeat])[n]? =
      some (.settle settled)) :
    n = acts.length + 1 ∧ settlement = settled := by
  have hbefore : ∀ act ∈ Act.startHeartbeat :: acts, act.isSettlement = false := by
    intro act hact
    cases act with
    | settle settled =>
        have hmem : settled ∈ settlements acts := by simpa using hact
        rw [hacts] at hmem
        cases hmem
    | _ => rfl
  obtain ⟨rfl, hsettled⟩ :=
    eq_of_getElem?_only (p := Act.isSettlement) hbefore (by simp [Act.isSettlement]) rfl h
  exact ⟨rfl, Act.settle.inj hsettled⟩

/-- The input is the first thing that is asked for. -/
theorem reported_of_course (h : Course payload delay acts settlement) {executionId : String}
    {input : ReportedInput} (hinput : .input executionId (.ok input) ∈ acts) :
    ∃ rest, acts = .input payload.executionId (.ok input) :: rest := by
  cases h with
  | unknown error => simp at hinput
  | terminal reported | failed reported | unreported reported | completed reported =>
      obtain ⟨-, rfl⟩ : executionId = payload.executionId ∧ input = reported := by
        simpa using hinput
      exact ⟨_, rfl⟩

theorem executed_of_course (h : Course payload delay acts settlement) {input : ReportedInput}
    {answer : Except JsError SubmittedResult} (hexecute : .execute input answer ∈ acts) :
    ∃ rest, acts = .input payload.executionId (.ok input) :: rest ∧
      input.state ∉ terminalExecutionStates := by
  cases h with
  | unknown error => simp at hexecute
  | terminal reported => simp at hexecute
  | failed reported hlive | unreported reported hlive | completed reported hlive =>
      obtain ⟨rfl, -⟩ : input = reported ∧ _ := by simpa using hexecute
      exact ⟨_, rfl, hlive⟩

theorem disciplined_of_course (hparsed : parsedJob runtime message = some payload)
    (h : Course payload delay acts settlement) :
    Disciplined runtime message
      (.startHeartbeat :: acts ++ [.settle settlement, .stopHeartbeat]) where
  settled_once := by
    have hacts := settlements_of_course h
    refine ⟨settlement, ?_⟩
    simp only [settlements, List.cons_append, List.filterMap_cons, List.filterMap_append] at hacts ⊢
    simp [hacts]
  ack_earned := by
    intro n hn
    obtain ⟨rfl, rfl⟩ := eq_of_getElem?_settle (settlements_of_course h) hn
    refine ⟨payload, hparsed, ?_⟩
    rw [List.cons_append, List.take_succ_cons, List.take_left]
    rcases done_of_course h with ⟨input, hinput, hterminal⟩ | ⟨result, hresult⟩
    · exact .inl ⟨input, List.mem_cons_of_mem _ hinput, hterminal⟩
    · exact .inr ⟨result, List.mem_cons_of_mem _ hresult⟩
  term_iff := by
    constructor
    · rintro ⟨reason, hterm⟩
      obtain ⟨n, hn⟩ := List.mem_iff_getElem?.mp hterm
      obtain ⟨-, rfl⟩ := eq_of_getElem?_settle (settlements_of_course h) hn
      exact absurd rfl (ne_term_of_course h reason)
    · intro hnone
      rw [hparsed] at hnone
      cases hnone
  executed_live := by
    intro n input answer hn
    have hexecute : .execute input answer ∈ acts := by simpa using List.mem_of_getElem? hn
    obtain ⟨rest, rfl, hlive⟩ := executed_of_course h hexecute
    refine ⟨payload, hparsed, ?_, hlive⟩
    rcases n with _ | _ | n
    · cases hn
    · cases hn
    · simp
  terminal_not_executed := by
    intro executionId input hinput hterminal given answer hgiven
    have hmem : .input executionId (.ok input) ∈ acts := by simpa using hinput
    have hexecute : .execute given answer ∈ acts := by simpa using hgiven
    obtain ⟨rest, rfl, hlive⟩ := executed_of_course h hexecute
    obtain ⟨rest', hrest⟩ := reported_of_course h hmem
    cases hrest
    exact hlive hterminal
  heartbeat_stopped := by
    rw [beating, List.foldl_append]
    rfl
  timer_stopped := by
    cases h <;> rfl

theorem disciplined_of_term (hparsed : parsedJob runtime message = none) (reason : String) :
    Disciplined runtime message [.settle (.term reason)] where
  settled_once := ⟨.term reason, rfl⟩
  ack_earned := by
    intro n hn
    have hmem := List.mem_of_getElem? hn
    simp at hmem
  term_iff := ⟨fun _ => hparsed, fun _ => ⟨reason, List.mem_singleton_self _⟩⟩
  executed_live := by
    intro n input answer hn
    have hmem := List.mem_of_getElem? hn
    simp at hmem
  terminal_not_executed := by
    intro executionId input hinput
    simp at hinput
  heartbeat_stopped := rfl
  timer_stopped := rfl

theorem processDelivery_of_invalid (api : WorkerApi W) (executor : JobExecutor W)
    (h : parsedJob runtime message = none) (w : W) :
    ∃ reason, Returns (processDelivery runtime api executor message) (w, []) ()
      (w, [.settle (.term reason)]) := by
  unfold parsedJob at h
  unfold processDelivery
  split
  · exact ⟨_, rfl⟩
  · rename_i raw hraw
    rw [hraw, Option.bind_some] at h
    rw [h]
    exact ⟨_, rfl⟩

/-- Whatever the message, the control plane and the executor do: the worker
settles the message once, acknowledges only what is done, refuses only what is
no job, does not execute what is over, and lets no heartbeat go on. -/
theorem processDelivery_is_disciplined (runtime : Runtime) (api : WorkerApi W)
    (executor : JobExecutor W) (message : Message) (w : W) :
    ∃ w' acts, Returns (processDelivery runtime api executor message) (w, []) () (w', acts) ∧
      Disciplined runtime message acts := by
  cases hparsed : parsedJob runtime message with
  | none =>
      obtain ⟨reason, hreturns⟩ := processDelivery_of_invalid api executor hparsed w
      exact ⟨w, _, hreturns, disciplined_of_term hparsed reason⟩
  | some payload =>
      obtain ⟨w', acts, settlement, hreturns, hcourse⟩ := course_processDelivery hparsed w
      exact ⟨w', _, hreturns, disciplined_of_course hparsed hcourse⟩

end Discipline

end PriceScout.Worker.Deliveries
