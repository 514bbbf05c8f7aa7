import PriceScout.Httpapi.UsableConditions
import PriceScout.Store.PlanOrigins
import PriceScout.Store.Provenance
import PriceScout.Store.Transitions
import PriceScout.Worker.Deliveries
import PriceScout.Worker.Inputs
import PriceScout.Worker.ReportedPlans

/-!
The control plane and its workers together. Workers ask for inputs, run jobs and report
results, while consoles, the scheduler and the relay do what they do. Whatever the order,
a worker can read what it is handed, and the plan that it is handed is one that a job
has reported.
-/

namespace PriceScout.Worker.Exchanges

open PriceScout.Domain (UUID Timestamp Monitor)
open PriceScout.Httpapi.Handlers
open PriceScout.Httpapi.InputDocuments (inputJson)
open PriceScout.Httpapi.UsableConditions (server)
open PriceScout.Library
open PriceScout.Library.Attempts
open PriceScout.Library.GoStrings
open PriceScout.Library.JsonDocuments
open PriceScout.Library.Runs
open PriceScout.Library.StoredDocuments
open PriceScout.Library.Tables
open PriceScout.Store.Executions
open PriceScout.Store.Inversions
open PriceScout.Store.Monitors
open PriceScout.Store.Operations
open PriceScout.Store.PlanOrigins
open PriceScout.Store.Provenance
open PriceScout.Store.Schema
open PriceScout.Store.Transitions
open PriceScout.Worker.Api
open PriceScout.Worker.Contracts
open PriceScout.Worker.Deliveries (SubmittedResult)
open PriceScout.Worker.Environment
open PriceScout.Worker.Handler
open PriceScout.Worker.Inputs
open PriceScout.Worker.MonitorConditions
open PriceScout.Worker.PlanSchema
open PriceScout.Worker.Repair (lampUrl)
open PriceScout.Worker.ReportedPlans

/-- `ControlPlaneClient.result`, with the trace of the job. -/
def submittedJson (result : SubmittedResult) : Json :=
  .obj ([("status", .str result.status.string)] ++ failureFields result.failure ++
    [("provider", .str result.browserProvider.string)] ++
    Api.optional "traceId" ((given result.traceId).map .str) ++
    Api.optional "browserSessionUrl" ((browserSessionUrl result.toExecutionResult).map .str) ++
    Api.optional "plan" (result.candidatePlan.map planJson) ++
    Api.optional "observation" (result.observation.map (observationJson result.status)) ++
    [("artifacts", .arr (result.artifacts.map artifactJson)),
     ("autoPromote", .bool (autoPromote result.toExecutionResult)),
     ("diagnostics", diagnosticsJson result.toExecutionResult)])

def submittedBody (result : SubmittedResult) : Body :=
  .document (submittedJson result) (submittedJson result).byteSize false

/-- The input as the job handles it. -/
structure Handles (read : ParsedInput) (input : ExecutionInput) : Prop where
  id : input.execution.id.string = read.execution.id
  kind : input.execution.kind = read.execution.kind
  monitorId : input.monitor.id.string = read.monitor.id
  url : input.monitor.url = read.monitor.url
  intent : input.monitor.intent = read.monitor.intent
  condition : input.monitor.condition = read.monitor.condition
  revision : input.revision = read.revision.map fun r => ⟨r.generation, r.plan⟩
  compilerMode : input.compilerMode = read.compilerMode

/-- The database, the inputs that workers have read and the plans that jobs have reported. -/
structure World where
  db : Database
  inputs : List ParsedInput
  plans : List MonitorPlanV1

def World.empty : World where
  db := Database.empty
  inputs := []
  plans := []

def reports : Event → Bool
  | .received _ _ (.executionResult _ _ _) => true
  | _ => false

/-- A condition that workers can read. -/
def Legible (condition : Json) : Prop :=
  (inputCondition false (stored condition)).isSome = true

/-- The event gives a monitor the condition. -/
inductive SetsCondition (event : Event) (condition : Json) : Prop
  | confirmed (now : Timestamp) (id revisionId : UUID)
      (hcall : event.call? = some ⟨now, .confirmMonitor id ⟨revisionId, some condition⟩⟩)
  | patched (now : Timestamp) (id : UUID) (params : PatchMonitorParams)
      (hcall : event.call? = some ⟨now, .patchMonitor id params⟩)
      (hcondition : params.condition = some condition)

/-- The server of the event lets only such URLs through as workers can parse. -/
def ParsesAlike (runtime : Runtime) : Event → Prop
  | .received s _ _ =>
      ∀ raw url, s.validate raw = .ok url → (runtime.parseUrl (JsStrings.trim url)).isSome = true
  | .ran _ _ => True

/-- What happens: a request of a console or a task, a worker that reads its input, and a
worker that reports the result of an input it has read. -/
inductive Exchange (runtime : Runtime) (jsonTime : Timestamp → String) : World → World → Prop
  | asked (w : World) (event : Event) (hconsole : reports event = false)
      (hserver : ParsesAlike runtime event)
      (hconditions : ∀ condition, SetsCondition event condition → Legible condition) :
      Exchange runtime jsonTime w { w with db := serve w.db event }
  | read (w : World) (s : Server) (now : Timestamp) (workerToken executionID : String)
      (inferenceMode : CompilerMode) (input : Domain.ExecutionInput) (db : Database)
      (read : ParsedInput)
      (hanswer : handle s now (.executionInput workerToken executionID) w.db =
        .ok (⟨200, .input input⟩, db)) (hfits : FitsColumns input)
      (hread : readInput runtime inferenceMode (inputJson jsonTime input) = some read) :
      Exchange runtime jsonTime w { w with db := db, inputs := read :: w.inputs }
  | reported (w : World) (s : Server) (now : Timestamp) (workerToken : String)
      (read : ParsedInput) (hmem : read ∈ w.inputs) (hlive : read.execution.state.inFlight = true)
      (W : Type) (outside : Outside W) (hmodel : FitsSchema outside)
      (hdescribes : Describes outside) (config : WorkerConfig) (input : ExecutionInput)
      (hhandles : Handles read input) (o o' : W) (result : SubmittedResult)
      (hreturns : Returns (executeJob runtime outside config input) o result.toExecutionResult o') :
      Exchange runtime jsonTime w
        { w with
          db := serve w.db (.received s now
            (.executionResult workerToken read.execution.id (submittedBody result)))
          plans := result.candidatePlan.toList ++ w.plans }

/-- A monitor that a worker can be told of. -/
structure Tellable (runtime : Runtime) (m : Monitor) : Prop where
  url : (runtime.parseUrl (JsStrings.trim m.url)).isSome = true
  intent : 1 ≤ JsStrings.length m.intent
  condition : Legible m.condition

/-- A plan of the store is one that a job has reported and that workers can read. -/
def Reported (runtime : Runtime) (plans : List MonitorPlanV1) (document : Json) : Prop :=
  ∃ plan ∈ plans, document = planJson plan ∧ Schematic runtime plan ∧ Described plan

/-- What is read has been parsed. -/
structure Sourced (runtime : Runtime) (read : ParsedInput) : Prop where
  condition : ∀ condition ∈ read.monitor.condition,
    ∃ document, monitorConditionSchema (stored document) = some condition
  revision : ∀ revision ∈ read.revision,
    ∃ document, monitorPlanV1Schema runtime (stored document) = some revision.plan

theorem legible_empty : Legible (.obj []) :=
  rfl

structure Understood (runtime : Runtime) (w : World) : Prop where
  monitors : ∀ m ∈ w.db.monitors, Tellable runtime m
  plans : PlansWithin (Reported runtime w.plans) w.db
  inputs : ∀ read ∈ w.inputs, Sourced runtime read

section Requests

variable {s : Server} {now : Timestamp} {event : Event} {call : Call}

theorem decode_traceId (r : Domain.ExecutionResult) (traceId : Option String) :
    Json.decodeFields resultFields r (Api.optional "traceId" (traceId.map .str)) =
      some { r with traceId := traceId.getD r.traceId } := by
  cases traceId <;>
    simp [Api.optional, Json.decodeFields, Json.findField, resultFields, Json.assignString]

/-- What the control plane reads of a report. -/
theorem decode_submittedJson (result : SubmittedResult) :
    Json.decodeStruct resultFields (.bare "" "") (submittedJson result) =
      (receivedObservation? result.toExecutionResult).bind fun observation =>
        (result.artifacts.mapM receivedArtifact).map fun artifacts =>
          { received result.toExecutionResult observation artifacts with
            traceId := (given result.traceId).getD "" } := by
  have hstatus : ∀ (r : Domain.ExecutionResult) (status : String),
      Json.decodeFields resultFields r [("status", .str status)] =
        some { r with status := status } := fun _ _ => rfl
  have hprovider : ∀ (r : Domain.ExecutionResult) (provider : String),
      Json.decodeFields resultFields r [("provider", .str provider)] =
        some { r with provider := provider } := fun _ _ => rfl
  simp only [submittedJson, Json.decodeStruct, decodeFields_append, hstatus, hprovider,
    decode_failureFields, decode_traceId, decode_sessionUrl, decode_plan, decode_rest,
    Option.bind_some]
  rw [decode_observation result.toExecutionResult rfl]
  cases receivedObservation? result.toExecutionResult with
  | none => rfl
  | some observation =>
      simp only [Domain.ExecutionResult.bare, Option.orElse_eq_orElse, Option.orElse_eq_or,
        Option.or_none, Option.map_some, Option.bind_some]
      rfl

theorem decodeStruct_of_decodeJSON {α : Type} {fields : List (Json.Field α)} {zero a : α}
    {value : Json} {bytes : Nat}
    (h : decodeJSON fields zero (.document value bytes false) = .ok a) :
    Json.decodeStruct fields zero value = some a := by
  unfold decodeJSON at h
  dsimp only at h
  by_cases hlarge : maxBytes < bytes
  · rw [if_pos hlarge] at h
    cases h
  · rw [if_neg hlarge] at h
    cases hdecode : Json.decodeStruct fields zero value with
    | none =>
        rw [hdecode] at h
        cases h
    | some body =>
        rw [hdecode] at h
        exact congrArg some (Except.ok.inj h)

/-- The plan of a report is the one that the job proposes. -/
theorem plan_of_submittedBody {result : SubmittedResult} {taken : Domain.ExecutionResult}
    (h : decodeJSON resultFields (.bare "" "") (submittedBody result) = .ok taken) :
    taken.plan = result.candidatePlan.map planJson := by
  have hdecode := decodeStruct_of_decodeJSON h
  rw [decode_submittedJson] at hdecode
  obtain ⟨observation, -, hartifacts⟩ := Option.bind_eq_some_iff.mp hdecode
  obtain ⟨artifacts, -, rfl⟩ := Option.map_eq_some_iff.mp hartifacts
  rfl

theorem createParams_ok {traceparent : String} {body : Body} {params : CreateMonitorParams}
    (h : createParams s traceparent body = .ok params) :
    (∃ raw, s.validate raw = .ok params.url) ∧ params.intent ≠ "" := by
  simp only [createParams, bind_eq_ok] at h
  obtain ⟨given, -, h⟩ := h
  by_cases hintent : trimSpace given.intent = "" ∨ 2000 < byteLength given.intent
  · rw [if_pos hintent] at h
    cases h
  · rw [if_neg hintent] at h
    cases hurl : s.validate given.url with
    | error message =>
        rw [hurl] at h
        cases h
    | ok canonicalURL =>
        rw [hurl] at h
        dsimp only at h
        split_ifs at h
        all_goals first
          | cases h; done
          | obtain rfl := Except.ok.inj h
            exact ⟨⟨_, hurl⟩, (not_or.mp hintent).1⟩

theorem eq_of_operation_createMonitor {request : Request} {params : CreateMonitorParams}
    (h : request.operation s = .ok (.createMonitor params)) :
    ∃ traceparent body, request = .createMonitor traceparent body ∧
      createParams s traceparent body = .ok params := by
  cases request with
  | createMonitor traceparent body =>
      simp only [Request.operation, map_eq_ok, Operation.createMonitor.injEq] at h
      obtain ⟨_, hparams, rfl⟩ := h
      exact ⟨traceparent, body, rfl, hparams⟩
  | _ =>
      simp only [Request.operation, bind_eq_ok, map_eq_ok, reduceCtorEq, and_false,
        exists_false] at h

theorem eq_of_operation_applyResult {request : Request} {store : Store.Alerts.OpenStore} {id : UUID}
    {result : Domain.ExecutionResult}
    (h : request.operation s = .ok (.applyResult store id result)) :
    ∃ workerToken executionID body, request = .executionResult workerToken executionID body ∧
      decodeJSON resultFields (.bare "" "") body = .ok result := by
  cases request with
  | executionResult workerToken executionID body =>
      simp only [Request.operation, bind_eq_ok, map_eq_ok, Operation.applyResult.injEq] at h
      obtain ⟨-, -, taken, hparams, -, -, rfl⟩ := h
      simp only [resultParams, bind_eq_ok, pure_eq_ok] at hparams
      obtain ⟨_, -, decoded, hdecoded, rfl⟩ := hparams
      exact ⟨workerToken, executionID, body, rfl, hdecoded⟩
  | _ =>
      simp only [Request.operation, bind_eq_ok, map_eq_ok, reduceCtorEq, and_false,
        exists_false] at h

/-- Only a report gives a plan. -/
theorem reports_of_givesPlan {plan : Json} (hcall : event.call? = some call)
    (h : GivesPlan call plan) :
    ∃ s now workerToken executionID body result,
      event = .received s now (.executionResult workerToken executionID body) ∧
      decodeJSON resultFields (.bare "" "") body = .ok result ∧ result.plan = some plan := by
  obtain ⟨store, executionId, result, hoperation, hplan⟩ := h
  obtain ⟨now, operation⟩ := call
  obtain rfl := hoperation
  rcases operation_of_call hcall with ⟨s, request, rfl, hrequest⟩ | ⟨task, rfl, htask⟩
  · obtain ⟨workerToken, executionID, body, rfl, hdecoded⟩ := eq_of_operation_applyResult hrequest
    exact ⟨s, now, workerToken, executionID, body, result, rfl, hdecoded, hplan⟩
  · cases task <;> cases htask

/-- A monitor that has just been created has a URL and an intent that workers can read. -/
theorem tellable_of_createdBy {runtime : Runtime} {db : Database} {m : Monitor}
    (hserver : ParsesAlike runtime event) (hcall : event.call? = some call)
    (h : CreatedBy db call m) : Tellable runtime m := by
  obtain ⟨id, params, hoperation, rfl, -⟩ := h
  obtain ⟨now, operation⟩ := call
  obtain rfl := hoperation
  rcases operation_of_call hcall with ⟨s, request, rfl, hrequest⟩ | ⟨task, rfl, htask⟩
  · obtain ⟨traceparent, body, -, hparams⟩ := eq_of_operation_createMonitor hrequest
    obtain ⟨⟨raw, hvalid⟩, hintent⟩ := createParams_ok hparams
    exact ⟨hserver raw _ hvalid, length_pos_of_ne hintent, legible_empty⟩
  · cases task <;> cases htask

end Requests

section Exchanging

variable {runtime : Runtime} {jsonTime : Timestamp → String} {w w' : World} {event : Event}
  {call : Call} {m m' : Monitor} {db : Database} {plans : List MonitorPlanV1}

theorem condition_of_turned {store : Store.Alerts.OpenStore} {now : Timestamp}
    {e : Domain.Execution} {result : Domain.ExecutionResult}
    (h : Turned store now db e result m m') : m'.condition = m.condition := by
  cases h <;> rfl

/-- A monitor keeps its condition unless the event gives it another. -/
theorem condition_of_rewritten (hcall : event.call? = some call) (h : Rewritten db call m m') :
    m'.condition = m.condition ∨ SetsCondition event m'.condition := by
  obtain ⟨now, operation⟩ := call
  cases h with
  | kept | rescheduled | accepted | rejected | abandoned => exact .inl rfl
  | confirmed r condition hoperation hrevision hdecidable =>
      obtain rfl := hoperation
      obtain ⟨_, hcondition, -⟩ := validated_of_confirm hcall
      obtain rfl := hcondition
      exact .inr (.confirmed now m.id r.id hcall)
  | patched params hoperation haction hinterval =>
      obtain rfl := hoperation
      rw [patchAssign_condition]
      cases hcondition : params.condition with
      | none => exact .inl rfl
      | some condition => exact .inr (.patched now m.id params hcall hcondition)
  | settled store executionId result e e' db₁ m' hoperation haccepted hsettled hmonitor hturned =>
      exact .inl (condition_of_turned hturned)

theorem Tellable.rewritten (h : Tellable runtime m) (hcall : event.call? = some call)
    (hconditions : ∀ condition, SetsCondition event condition → Legible condition)
    (hrewritten : Rewritten db call m m') : Tellable runtime m' := by
  have hsame := sameMonitor_of_rewritten hrewritten
  refine ⟨by rw [hsame.url]; exact h.url, by rw [hsame.intent]; exact h.intent, ?_⟩
  rcases condition_of_rewritten hcall hrewritten with hcondition | hsets
  · rw [hcondition]
    exact h.condition
  · exact hconditions _ hsets

theorem tellable_serve (h : ∀ m ∈ db.monitors, Tellable runtime m)
    (hcreated : ∀ call m, event.call? = some call → CreatedBy db call m → Tellable runtime m)
    (hconditions : ∀ condition, SetsCondition event condition → Legible condition) :
    ∀ m ∈ (serve db event).monitors, Tellable runtime m := by
  cases hcall : event.call? with
  | none => simpa [serve_eq, hcall] using h
  | some call =>
      rw [serve_of_call hcall]
      exact forall_step h (fun m => hcreated call m hcall)
        fun m _ m' htellable => htellable.rewritten hcall hconditions

theorem Reported.mono {plans' : List MonitorPlanV1} {document : Json}
    (h : Reported runtime plans document) (hsub : plans ⊆ plans') :
    Reported runtime plans' document := by
  obtain ⟨plan, hplan, hrest⟩ := h
  exact ⟨plan, hsub hplan, hrest⟩

theorem plansWithin_serve {P : Json → Prop} (h : PlansWithin P db)
    (hplans : ∀ call plan, event.call? = some call → GivesPlan call plan → P plan) :
    PlansWithin P (serve db event) := by
  cases hcall : event.call? with
  | none => simpa [serve_eq, hcall] using h
  | some call =>
      rw [serve_of_call hcall]
      exact h.step fun plan => hplans call plan hcall

theorem Understood.asked (h : Understood runtime w) (hconsole : reports event = false)
    (hserver : ParsesAlike runtime event)
    (hconditions : ∀ condition, SetsCondition event condition → Legible condition) :
    Understood runtime { w with db := serve w.db event } where
  monitors := tellable_serve h.monitors (fun _ _ hcall => tellable_of_createdBy hserver hcall)
    hconditions
  plans := by
    refine plansWithin_serve h.plans fun call plan hcall hgives => ?_
    obtain ⟨s, now, workerToken, executionID, body, result, rfl, -⟩ :=
      reports_of_givesPlan hcall hgives
    cases hconsole
  inputs := h.inputs

/-- The requests of workers. -/
def isWorkers : Request → Bool
  | .executionInput _ _ | .executionResult _ _ _ => true
  | _ => false

/-- The event creates no monitor and gives none a condition. -/
structure Working (event : Event) : Prop where
  creates : ∀ now params, event.call? ≠ some ⟨now, .createMonitor params⟩
  conditions : ∀ condition, ¬ SetsCondition event condition

/-- Only a confirmation or a patch gives a condition. -/
theorem request_of_setsCondition {s : Server} {now : Timestamp} {request : Request}
    {condition : Json} (h : SetsCondition (.received s now request) condition) :
    (∃ monitorID body, request = .confirmMonitor monitorID body) ∨
      ∃ monitorID body, request = .patchMonitor monitorID body := by
  cases h with
  | confirmed now' id revisionId hcall =>
      rcases operation_of_call hcall with ⟨_, _, hevent, hrequest⟩ | ⟨_, hevent, -⟩
      · obtain ⟨rfl, rfl, rfl⟩ := Event.received.inj hevent
        obtain ⟨monitorID, body, rfl, -⟩ := eq_of_operation_confirmMonitor hrequest
        exact .inl ⟨monitorID, body, rfl⟩
      · cases hevent
  | patched now' id params hcall hcondition =>
      rcases operation_of_call hcall with ⟨_, _, hevent, hrequest⟩ | ⟨_, hevent, -⟩
      · obtain ⟨rfl, rfl, rfl⟩ := Event.received.inj hevent
        obtain ⟨monitorID, body, rfl, -⟩ := eq_of_operation_patchMonitor hrequest
        exact .inr ⟨monitorID, body, rfl⟩
      · cases hevent

theorem working_of_isWorkers {s : Server} {now : Timestamp} {request : Request}
    (h : isWorkers request = true) : Working (.received s now request) := by
  constructor
  · intro now' params hcall
    rcases operation_of_call hcall with ⟨_, _, hevent, hrequest⟩ | ⟨_, hevent, -⟩
    · obtain ⟨rfl, rfl, rfl⟩ := Event.received.inj hevent
      obtain ⟨_, _, rfl, -⟩ := eq_of_operation_createMonitor hrequest
      cases h
    · cases hevent
  · intro condition hsets
    rcases request_of_setsCondition hsets with ⟨_, _, rfl⟩ | ⟨_, _, rfl⟩
    · cases h
    · cases h

theorem Working.tellable (hworking : Working event) (h : ∀ m ∈ db.monitors, Tellable runtime m) :
    ∀ m ∈ (serve db event).monitors, Tellable runtime m := by
  refine tellable_serve h (fun call m hcall hcreated => ?_) fun condition hsets =>
    absurd hsets (hworking.conditions condition)
  obtain ⟨id, params, hoperation, -⟩ := hcreated
  obtain ⟨now, operation⟩ := call
  obtain rfl := hoperation
  exact absurd hcall (hworking.creates now params)

/-- The answer to a worker that asks for its input leaves the state that `serve` does. -/
theorem Understood.answered {s : Server} {now : Timestamp} {workerToken executionID : String}
    {response : Response} (h : Understood runtime w)
    (hanswer : handle s now (.executionInput workerToken executionID) w.db = .ok (response, db)) :
    Understood runtime { w with db := db } := by
  obtain rfl : serve w.db (.received s now (.executionInput workerToken executionID)) = db :=
    commit_of_ok hanswer
  constructor
  · exact (working_of_isWorkers rfl).tellable h.monitors
  · refine plansWithin_serve h.plans fun call plan hcall hgives => ?_
    obtain ⟨_, _, _, _, _, _, hevent, -⟩ := reports_of_givesPlan hcall hgives
    cases hevent
  · exact h.inputs

theorem condition_of_inputCondition {terminal : Bool} {document : Json}
    {condition : MonitorCondition}
    (h : inputCondition terminal document = some (some condition)) :
    monitorConditionSchema document = some condition := by
  unfold inputCondition at h
  split at h
  · simpa using h
  · simpa using h
  · cases h

theorem sourced_of_reads {inferenceMode : CompilerMode} {input : Domain.ExecutionInput}
    {read : ParsedInput} (h : Reads runtime inferenceMode input read) : Sourced runtime read where
  condition := by
    intro condition hcondition
    have hread := h.condition
    rw [hcondition] at hread
    exact ⟨input.monitor.condition, condition_of_inputCondition hread⟩
  revision := by
    intro revision hrevision
    have hread := h.revision
    rw [hrevision] at hread
    generalize currentRevision input = current at hread
    cases hread with
    | some hplan => exact ⟨_, hplan.2.2⟩

/-- A job reads its input as the client of the control plane has parsed it. -/
theorem Sourced.parsed {read : ParsedInput} {input : ExecutionInput} (h : Sourced runtime read)
    (hhandles : Handles read input) : Parsed runtime input where
  condition := by
    rw [hhandles.condition]
    exact h.condition
  revision := by
    rw [hhandles.revision]
    intro revision hrevision
    obtain ⟨parsed, hparsed, rfl⟩ := Option.map_eq_some_iff.mp hrevision
    exact h.revision parsed hparsed

theorem monitor_of_getExecutionInput {now : Timestamp} {id : UUID} {db db' : Database}
    {input : Domain.ExecutionInput} (h : getExecutionInput now id db = .ok (input, db')) :
    input.monitor ∈ db.monitors := by
  simp only [getExecutionInput, bind_eq_ok, orNotFound_eq_ok, orNoRows_eq_ok] at h
  obtain ⟨e, -, m, hm, h⟩ := h
  have hmonitors : (claimExecution now e db).2.monitors = db.monitors := by
    obtain ⟨_, _, _, kind, _, _, _, state, _⟩ := e
    cases state <;> cases kind <;> rfl
  rw [hmonitors] at hm
  have hmem : m ∈ db.monitors := (Table.lookup_eq_some_iff.mp hm).1
  split at h
  · simp only [pure_eq_ok, Prod.mk.injEq] at h
    obtain ⟨rfl, -⟩ := h
    exact hmem
  · simp only [bind_eq_ok, pure_eq_ok, Prod.mk.injEq] at h
    obtain ⟨r, -, rfl, -⟩ := h
    exact hmem

theorem getExecutionInput_of_answer {s : Server} {now : Timestamp}
    {workerToken executionID : String} {input : Domain.ExecutionInput}
    (h : handle s now (.executionInput workerToken executionID) w.db =
      .ok (⟨200, .input input⟩, db)) :
    ∃ id, getExecutionInput now id w.db = .ok (input, db) := by
  simp only [handle, bind_eq_ok] at h
  obtain ⟨-, -, id, -, h⟩ := h
  refine ⟨id, ?_⟩
  unfold answer at h
  split at h
  · rename_i found db' hfound
    obtain ⟨hresponse, rfl⟩ := Prod.mk.inj (Except.ok.inj h)
    obtain rfl := Content.input.inj (Response.mk.inj hresponse).2
    exact hfound
  · cases h

/-- A worker is handed the plan beside its revision. -/
theorem plan_beside {now : Timestamp} {id : UUID} {db db' : Database}
    {input : Domain.ExecutionInput} (h : getExecutionInput now id db = .ok (input, db')) :
    input.plan = input.revision.map (·.plan) ∧ ∀ r ∈ input.revision, r ∈ db.revisions := by
  obtain ⟨e, -, -, -, ⟨-, hrevision, hplan⟩ | ⟨r, hr, -, hrevision, hplan⟩⟩ :=
    plan_of_getExecutionInput h
  · rw [hrevision, hplan]
    exact ⟨rfl, nofun⟩
  · rw [hrevision, hplan]
    refine ⟨rfl, ?_⟩
    rintro _ ⟨⟩
    exact hr

theorem Understood.reported {s : Server} {now : Timestamp} {workerToken executionID : String}
    {result : SubmittedResult} (h : Understood runtime w)
    (hplans : ∀ plan ∈ result.candidatePlan, Schematic runtime plan ∧ Described plan) :
    Understood runtime
      { w with
        db := serve w.db
          (.received s now (.executionResult workerToken executionID (submittedBody result)))
        plans := result.candidatePlan.toList ++ w.plans } where
  monitors := (working_of_isWorkers rfl).tellable h.monitors
  plans := by
    refine plansWithin_serve (fun r hr => (h.plans r hr).mono (List.subset_append_right _ _))
      fun call document hcall hgives => ?_
    obtain ⟨_, _, _, _, _, taken, hevent, hdecoded, hplan⟩ := reports_of_givesPlan hcall hgives
    obtain ⟨rfl, rfl, hrequest⟩ := Event.received.inj hevent
    obtain ⟨rfl, rfl, rfl⟩ := Request.executionResult.inj hrequest
    rw [plan_of_submittedBody hdecoded] at hplan
    obtain ⟨plan, hcandidate, rfl⟩ := Option.map_eq_some_iff.mp hplan
    exact ⟨plan, by simp [hcandidate], rfl, hplans plan hcandidate⟩
  inputs := h.inputs

theorem Understood.step (hruntime : Reliable runtime) (h : Understood runtime w)
    (hexchange : Exchange runtime jsonTime w w') : Understood runtime w' := by
  cases hexchange with
  | asked event hconsole hserver hconditions => exact h.asked hconsole hserver hconditions
  | read s now workerToken executionID inferenceMode input db read hanswer hfits hread =>
      obtain ⟨id, hinput⟩ := getExecutionInput_of_answer hanswer
      have hplan := (plan_beside hinput).1
      have hanswered := h.answered hanswer
      refine ⟨hanswered.monitors, hanswered.plans, ?_⟩
      rintro other (_ | ⟨_, hother⟩)
      · exact sourced_of_reads ((readInput_iff hfits hplan).mp hread)
      · exact h.inputs other hother
  | reported s now workerToken read hmem hlive W outside hmodel hdescribes config input hhandles
      o o' result hreturns =>
      refine h.reported fun plan hplan => ?_
      have hsound := soundPlan_of_executeJob hruntime hmodel ((h.inputs read hmem).parsed hhandles)
        hreturns plan hplan
      exact ⟨hsound.schematic, hsound.described hdescribes⟩

theorem understood_empty : Understood runtime .empty where
  monitors := fun m hm => absurd hm (Table.not_mem_empty m)
  plans := plansWithin_empty
  inputs := fun _ hread => absurd hread List.not_mem_nil

theorem understood_of_run (hruntime : Reliable runtime)
    (hrun : Relation.ReflTransGen (Exchange runtime jsonTime) .empty w) : Understood runtime w := by
  induction hrun with
  | refl => exact understood_empty
  | tail _ hlast ih => exact ih.step hruntime hlast

theorem inputCondition_over (document : Json) : inputCondition true document = some none := by
  cases document <;> rfl

theorem mem_of_currentRevision {input : Domain.ExecutionInput} {r : Domain.Revision}
    (h : currentRevision input = some r) : r ∈ input.revision := by
  unfold currentRevision at h
  split_ifs at h
  exact h

theorem readable_of_understood {now : Timestamp} {id : UUID} {input : Domain.ExecutionInput}
    (h : Understood runtime w) (hinput : getExecutionInput now id w.db = .ok (input, db)) :
    Readable runtime input := by
  have htellable := h.monitors _ (monitor_of_getExecutionInput hinput)
  refine ⟨htellable.url, htellable.intent, ?_, ?_⟩
  · cases input.execution.state.inFlight with
    | true => exact htellable.condition
    | false => rw [Bool.not_false, inputCondition_over]; rfl
  · intro r hr
    obtain ⟨plan, -, hdocument, hschematic, hdescribed⟩ :=
      h.plans r ((plan_beside hinput).2 r (mem_of_currentRevision hr))
    rw [hdocument, read_plan hschematic hdescribed]
    rfl

end Exchanging

/-- Whatever consoles, tasks, workers and the model do, and in whatever order: a worker reads
every input it is handed just as it is told, and the plan it then runs is one that a job has
reported, with its variant in the order of the keys. -/
theorem every_input_is_read {runtime : Runtime} {jsonTime : Timestamp → String}
    (hruntime : Reliable runtime) {w : World}
    (hrun : Relation.ReflTransGen (Exchange runtime jsonTime) .empty w) {s : Server}
    {now : Timestamp} {workerToken executionID : String} {input : Domain.ExecutionInput}
    {db : Database}
    (hanswer : handle s now (.executionInput workerToken executionID) w.db =
      .ok (⟨200, .input input⟩, db)) (hfits : FitsColumns input) (inferenceMode : CompilerMode) :
    ∃ read, readInput runtime inferenceMode (inputJson jsonTime input) = some read ∧
      Reads runtime inferenceMode input read ∧
      ∀ revision ∈ read.revision, ∃ plan ∈ w.plans, revision.plan = kept plan := by
  have hunderstood := understood_of_run hruntime hrun
  obtain ⟨id, hinput⟩ := getExecutionInput_of_answer hanswer
  obtain ⟨hplan, hrevisions⟩ := plan_beside hinput
  obtain ⟨read, hreads⟩ := exists_reads_iff.mpr (readable_of_understood hunderstood hinput)
  refine ⟨read, (readInput_iff hfits hplan).mpr hreads, hreads, ?_⟩
  intro revision hrevision
  have hread := hreads.revision
  rw [hrevision] at hread
  generalize hcurrent : currentRevision input = current at hread
  cases hread with
  | @some r _ hpair =>
      obtain ⟨plan, hmem, hdocument, hschematic, hdescribed⟩ :=
        hunderstood.plans r (hrevisions r (mem_of_currentRevision hcurrent))
      rw [hdocument, read_plan hschematic hdescribed] at hpair
      exact ⟨plan, hmem, (Option.some.inj hpair.2.2).symm⟩

/-! A monitor of the lamp, whose first job is to compile a plan. -/

def lampServer : Server :=
  { server with validate := fun _ => .ok lampUrl.href }

def lampCreated : Event :=
  .received lampServer 0 (.createMonitor "" (.document
    (.obj [("url", .str lampUrl.href), ("intent", .str "price of the lamp")]) 64 false))

def lampWorld : World :=
  { World.empty with db := serve Database.empty lampCreated }

theorem lampWorld_reached :
    Relation.ReflTransGen (Exchange hashingRuntime fun _ => "") .empty lampWorld := by
  refine .single (.asked .empty lampCreated rfl ?_ ?_)
  · rintro raw url ⟨⟩
    decide
  · intro condition hsets
    rcases request_of_setsCondition hsets with ⟨_, _, hrequest⟩ | ⟨_, _, hrequest⟩
    · cases hrequest
    · cases hrequest

/-- The worker that compiles the plan for the lamp reads what it is handed. -/
theorem every_input_is_read_lamp :
    ∃ input db read,
      handle lampServer 1
        (.executionInput "dev-worker-token" "00000000-0000-0000-0000-000000000002")
        lampWorld.db = .ok (⟨200, .input input⟩, db) ∧
      readInput hashingRuntime .live (inputJson (fun _ => "") input) = some read ∧
      read.monitor.intent = "price of the lamp" := by
  have hdone : (getExecutionInput 1 ⟨2⟩ lampWorld.db).toOption.any (fun r =>
      decide (r.1.execution.attempt ≤ 2 ^ 31 - 1 ∧ r.1.execution.requestedGeneration = none ∧
        r.1.revision.isNone = true ∧ r.1.monitor.intent = "price of the lamp")) = true := by
    decide +kernel
  obtain ⟨⟨input, db⟩, hfound, hinput⟩ := (Option.any_eq_true _ _).mp hdone
  obtain ⟨hattempt, hgeneration, hrevision, hintent⟩ := of_decide_eq_true hinput
  rw [Option.isNone_iff_eq_none] at hrevision
  dsimp only at hgeneration hrevision
  have hanswer : handle lampServer 1
      (.executionInput "dev-worker-token" "00000000-0000-0000-0000-000000000002") lampWorld.db =
        .ok (⟨200, .input input⟩, db) := by
    have hparsed : lampServer.parseUUID "00000000-0000-0000-0000-000000000002" = some ⟨2⟩ := by
      decide +kernel
    have htoken : "dev-worker-token" = lampServer.workerToken := rfl
    simp [handle, workerAuthentication, pathUUID, answer, htoken, hparsed,
      ok_of_toOption hfound, bind, Except.bind]
  have hfits : FitsColumns input :=
    ⟨hattempt, by simp [hgeneration], by simp [hrevision]⟩
  obtain ⟨read, hread, hreads, -⟩ :=
    every_input_is_read reliable_hashingRuntime lampWorld_reached hanswer hfits .live
  exact ⟨input, db, read, hanswer, hread, hreads.intent.1.trans hintent⟩

end PriceScout.Worker.Exchanges
