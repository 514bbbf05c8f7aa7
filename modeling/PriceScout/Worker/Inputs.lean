import PriceScout.Httpapi.InputDocuments
import PriceScout.Worker.PlanSchema

/-!
How a worker reads the input of an execution: the document of the control plane is
normalized first and then checked against the schema.
-/

namespace PriceScout.Worker.Inputs

open PriceScout.Domain (ExecutionKind ExecutionState Execution Monitor Revision Timestamp)
open PriceScout.Httpapi.InputDocuments
open PriceScout.Library
open PriceScout.Library.JsonDocuments
open PriceScout.Library.JsonDocuments.Json
open PriceScout.Library.Numbers
open PriceScout.Library.StoredDocuments
open PriceScout.Worker.Contracts
open PriceScout.Worker.Environment
open PriceScout.Worker.MonitorConditions
open PriceScout.Worker.PlanSchema

structure ParsedExecution where
  id : String
  kind : ExecutionKind
  state : ExecutionState
  attempt : Nat
  failedGeneration : Option Nat

structure ParsedMonitor where
  id : String
  url : String
  intent : String
  condition : Option MonitorCondition

structure ParsedRevision where
  id : Option String
  generation : Nat
  plan : MonitorPlanV1

/-- What `executionInputSchema` makes of an input. -/
structure ParsedInput where
  execution : ParsedExecution
  monitor : ParsedMonitor
  revision : Option ParsedRevision
  compilerMode : CompilerMode

def compilerModeText : CompilerMode → String
  | .auto => "auto"
  | .scripted => "scripted"
  | .live => "live"

/-- `z.enum` -/
def enumeration {α : Type} (values : List α) (text : α → String) (value : Json) : Option α :=
  (text? value).bind fun given => values.find? fun a => text a = given

def kindSchema : Json → Option ExecutionKind :=
  enumeration [.compile, .check, .repair] ExecutionKind.string

def stateSchema : Json → Option ExecutionState :=
  enumeration [.queued, .running, .succeeded, .failed, .blocked, .needsReview] executionStateText

def compilerModeSchema : Json → Option CompilerMode :=
  enumeration [.auto, .scripted, .live] compilerModeText

/-- A number that JavaScript takes for zero. -/
def isZero : Json → Bool
  | .num unscaled scale exponent =>
      Number.ofRat (literalValue unscaled.natAbs scale exponent) = .finite 0
  | _ => false

/-- `z.number().int().nonnegative()` -/
def nonnegativeInteger (value : Json) : Option Nat :=
  if isZero value then some 0 else positiveInteger value

def parsedExecutionSchema : Json → Option ParsedExecution
  | .obj fields => do
      let id ← required (minLength 1) "id" fields
      let kind ← required kindSchema "kind" fields
      let state ← withDefault stateSchema .running (lastValue "state" fields)
      let attempt ← withDefault positiveInteger 1 (lastValue "attempt" fields)
      let failedGeneration ← optional nonnegativeInteger (lastValue "failedGeneration" fields)
      return { id, kind, state, attempt, failedGeneration }
  | _ => none

def parsedMonitorSchema (runtime : Runtime) : Json → Option ParsedMonitor
  | .obj fields => do
      let id ← required (minLength 1) "id" fields
      let url ← required (urlSchema runtime) "url" fields
      let intent ← required (minLength 1) "intent" fields
      let condition ← optional monitorConditionSchema (lastValue "condition" fields)
      return { id, url, intent, condition }
  | _ => none

def parsedRevisionSchema (runtime : Runtime) : Json → Option ParsedRevision
  | .obj fields => do
      let id ← optional text? (lastValue "id" fields)
      let generation ← required nonnegativeInteger "generation" fields
      let plan ← required (monitorPlanV1Schema runtime) "plan" fields
      return { id, generation, plan }
  | _ => none

def executionInputSchema (runtime : Runtime) : Json → Option ParsedInput
  | .obj fields => do
      let execution ← required parsedExecutionSchema "execution" fields
      let monitor ← required (parsedMonitorSchema runtime) "monitor" fields
      let revision ← optional (parsedRevisionSchema runtime) (lastValue "revision" fields)
      let compilerMode ← withDefault compilerModeSchema .auto (lastValue "compilerMode" fields)
      return { execution, monitor, revision, compilerMode }
  | _ => none

/-- `value?.name` -/
def property (name : String) : Option Json → Option Json
  | some (.obj fields) => lastValue name fields
  | _ => none

/-- `value ?? undefined` -/
def nullish : Option Json → Option Json
  | some .null => none
  | value => value

def truthy : Option Json → Bool
  | none | some .null => false
  | some (.bool value) => value
  | some (.str text) => text ≠ ""
  | some (.num unscaled scale exponent) => !isZero (.num unscaled scale exponent)
  | some (.arr _) | some (.obj _) => true

/-- `typeof value === "object"` of a value that is not null. -/
def isObject : Option Json → Bool
  | some (.arr _) | some (.obj _) => true
  | _ => false

def terminalStates : List String :=
  ["succeeded", "failed", "blocked", "needs_review"]

/-- An execution that is over, by what the answer says of its state. -/
def isTerminal (raw : Option Json) : Bool :=
  match property "state" (property "execution" raw) with
  | some (.str state) => terminalStates.contains state
  | _ => false

def normalizedExecution (raw : Option Json) : Json :=
  let execution := property "execution" raw
  let attempt := property "attempt" execution
  .obj (Api.optional "id" (property "id" execution) ++
    Api.optional "kind" (property "kind" execution) ++
    [("state", (nullish (property "state" execution)).getD (.str "running")),
     ("attempt", if truthy attempt then attempt.getD .null else .int 1)] ++
    Api.optional "failedGeneration" (nullish (property "requestedGeneration" execution)))

def normalizedMonitor (raw : Option Json) : Json :=
  let monitor := property "monitor" raw
  let condition := property "condition" monitor
  .obj (Api.optional "id" (property "id" monitor) ++ Api.optional "url" (property "url" monitor) ++
    Api.optional "intent" (property "intent" monitor) ++
    if !isTerminal raw && isObject condition then Api.optional "condition" condition else [])

def normalizedRevision (raw : Option Json) : Option Json :=
  let revision := property "revision" raw
  if truthy revision && !isTerminal raw then
    some (.obj (Api.optional "id" (property "id" revision) ++
      Api.optional "generation" (property "generation" revision) ++
      Api.optional "plan" ((nullish (property "plan" raw)).or (property "plan" revision))))
  else none

def normalized (inferenceMode : CompilerMode) (raw : Option Json) : Json :=
  .obj ([("execution", normalizedExecution raw), ("monitor", normalizedMonitor raw)] ++
    Api.optional "revision" (normalizedRevision raw) ++
    [("compilerMode", (nullish (property "compilerMode" raw)).getD
      (.str (compilerModeText inferenceMode)))])

/-- `ControlPlaneClient.input`, for the document of an answer. -/
def readInput (runtime : Runtime) (inferenceMode : CompilerMode) : Json → Option ParsedInput
  | .null => none
  | raw => executionInputSchema runtime (normalized inferenceMode (some raw))

section Reading

variable {runtime : Runtime} {jsonTime : Timestamp → String}

theorem find?_of_injective {α : Type} {values : List α} {text : α → String} {a : α}
    (ha : a ∈ values) (htext : Function.Injective text) :
    (values.find? fun b => text b = text a) = some a := by
  induction values with
  | nil => cases ha
  | cons b rest ih =>
      by_cases hsame : text b = text a
      · simp [htext hsame]
      · have hrest : a ∈ rest := (List.mem_cons.mp ha).resolve_left fun h => hsame (by rw [h])
        rw [List.find?_cons_of_neg (by simpa using hsame), ih hrest]

theorem enumeration_str {α : Type} {values : List α} {text : α → String} {a : α}
    (ha : a ∈ values) (htext : Function.Injective text) :
    enumeration values text (.str (text a)) = some a :=
  find?_of_injective ha htext

theorem kind_injective : Function.Injective ExecutionKind.string := by
  intro a b h
  cases a <;> cases b <;> simp_all [ExecutionKind.string]

theorem state_injective : Function.Injective executionStateText := by
  intro a b h
  cases a <;> cases b <;> simp_all [executionStateText]

theorem compilerMode_injective : Function.Injective compilerModeText := by
  intro a b h
  cases a <;> cases b <;> simp_all [compilerModeText]

theorem kindSchema_str (kind : ExecutionKind) : kindSchema (.str kind.string) = some kind :=
  enumeration_str (by cases kind <;> simp) kind_injective

theorem stateSchema_str (state : ExecutionState) :
    stateSchema (.str (executionStateText state)) = some state :=
  enumeration_str (by cases state <;> simp) state_injective

theorem compilerModeSchema_str (mode : CompilerMode) :
    compilerModeSchema (.str (compilerModeText mode)) = some mode :=
  enumeration_str (by cases mode <;> simp) compilerMode_injective

theorem terminalStates_contains (state : ExecutionState) :
    terminalStates.contains (executionStateText state) = !state.inFlight := by
  cases state <;> decide

theorem isZero_int {n : Nat} (h : n ≤ 2 ^ 53) : isZero (.int n) = decide (n = 0) := by
  have hliteral : literalValue ((n : Int).natAbs : Int) 0 none = (n : ℚ) := by
    simp [literalValue]
  rw [Json.int, isZero, hliteral, ofRat_natCast h]
  simp

theorem nonnegativeInteger_int {n : Nat} (h : n ≤ 2 ^ 53 - 1) :
    nonnegativeInteger (.int n) = some n := by
  rw [nonnegativeInteger, isZero_int (h.trans (Nat.sub_le _ _))]
  by_cases hzero : n = 0
  · simp [hzero]
  · simp only [hzero, decide_false, Bool.false_eq_true, if_false]
    exact positiveInteger_int.mpr ⟨rfl, by omega, by omega⟩

theorem property_obj (name : String) (fields : List (String × Json)) :
    property name (some (.obj fields)) = lastValue name fields :=
  rfl

theorem lastValue_pointer {α : Type} (json : α → Json) (key name : String) (value : Option α) :
    lastValue key (pointer json name value) = if name = key then value.map json else none := by
  cases value with
  | none => simp [pointer, lastValue]
  | some a => simp [pointer, lastValue_cons, lastValue_nil]

theorem one_le_length_string (id : Domain.UUID) : 1 ≤ JsStrings.length id.string := by
  refine JsStrings.length_pos_of_mem (c := '-') ?_
  simp [Domain.UUID.string]

/-- The columns of an input hold its numbers. -/
structure FitsColumns (input : Domain.ExecutionInput) : Prop where
  attempt : input.execution.attempt ≤ 2 ^ 31 - 1
  requestedGeneration : ∀ n ∈ input.execution.requestedGeneration, n ≤ 2 ^ 31 - 1
  generation : ∀ r ∈ input.revision, r.generation ≤ 2 ^ 31 - 1

/-- The revision that a worker is given, which an execution that is over does without. -/
def currentRevision (input : Domain.ExecutionInput) : Option Revision :=
  if input.execution.state.inFlight then input.revision else none

/-- What a worker that reads an input is told. -/
structure Reads (runtime : Runtime) (inferenceMode : CompilerMode)
    (input : Domain.ExecutionInput) (read : ParsedInput) : Prop where
  execution : read.execution =
    { id := input.execution.id.string, kind := input.execution.kind,
      state := input.execution.state, attempt := max 1 input.execution.attempt,
      failedGeneration := input.execution.requestedGeneration }
  monitorId : read.monitor.id = input.monitor.id.string
  url : urlSchema runtime (.str input.monitor.url) = some read.monitor.url
  intent : read.monitor.intent = input.monitor.intent ∧ 1 ≤ JsStrings.length input.monitor.intent
  condition : inputCondition (!input.execution.state.inFlight) (stored input.monitor.condition) =
    some read.monitor.condition
  revision : Option.Rel
    (fun r p => p.id = some r.id.string ∧ p.generation = r.generation ∧
      monitorPlanV1Schema runtime (stored r.plan) = some p.plan)
    (currentRevision input) read.revision
  compilerMode : read.compilerMode = inferenceMode

variable {input : Domain.ExecutionInput} {inferenceMode : CompilerMode}

theorem properties_input (input : Domain.ExecutionInput) :
    let raw := some (inputJson jsonTime input)
    property "execution" raw = some (executionJson jsonTime input.execution) ∧
      property "monitor" raw = some (monitorJson jsonTime input.monitor) ∧
      property "revision" raw = input.revision.map (revisionJson jsonTime) ∧
      property "plan" raw = input.plan.map stored ∧ property "compilerMode" raw = none := by
  simp only [inputJson, property_obj]
  simp [lastValue_append, lastValue_cons, lastValue_pointer]

theorem properties_execution (e : Execution) :
    let raw := some (executionJson jsonTime e)
    property "id" raw = some (.str e.id.string) ∧ property "kind" raw = some (.str e.kind.string) ∧
      property "state" raw = some (.str (executionStateText e.state)) ∧
      property "attempt" raw = some (.int e.attempt) ∧
      property "requestedGeneration" raw = e.requestedGeneration.map fun n : Nat => .int n := by
  simp only [executionJson, property_obj]
  simp [lastValue_append, lastValue_cons, lastValue_pointer, time, uuid]

theorem properties_monitor (m : Monitor) :
    let raw := some (monitorJson jsonTime m)
    property "id" raw = some (.str m.id.string) ∧ property "url" raw = some (.str m.url) ∧
      property "intent" raw = some (.str m.intent) ∧
      property "condition" raw = some (stored m.condition) := by
  simp only [monitorJson, property_obj]
  simp [lastValue_append, lastValue_cons, lastValue_nil, lastValue_pointer, time, uuid]

theorem properties_revision (r : Revision) :
    let raw := some (revisionJson jsonTime r)
    property "id" raw = some (.str r.id.string) ∧
      property "generation" raw = some (.int r.generation) ∧
      property "plan" raw = some (stored r.plan) := by
  simp only [revisionJson, property_obj]
  simp [lastValue_append, lastValue_cons, lastValue_nil, lastValue_pointer, time]

theorem isTerminal_inputJson (input : Domain.ExecutionInput) :
    isTerminal (some (inputJson jsonTime input)) = !input.execution.state.inFlight := by
  rw [isTerminal, (properties_input input).1, (properties_execution input.execution).2.2.1]
  exact terminalStates_contains _

theorem nullish_str (text : String) : nullish (some (.str text)) = some (.str text) :=
  rfl

theorem nullish_int (value : Option Nat) :
    nullish (value.map fun n : Nat => Json.int n) = value.map fun n : Nat => Json.int n := by
  cases value <;> rfl

/-- An attempt that is not counted is the first one. -/
theorem read_attempt {n : Nat} (h : n ≤ 2 ^ 53 - 1) :
    positiveInteger (if truthy (some (.int n)) then .int n else .int 1) = some (max 1 n) := by
  have htruthy : truthy (some (.int n)) = !decide (n = 0) := by
    rw [← isZero_int (h.trans (Nat.sub_le _ _))]
    rfl
  rw [htruthy]
  by_cases hzero : n = 0
  · subst hzero
    exact positiveInteger_int.mpr (by decide)
  · simp only [hzero, decide_false, Bool.not_false, if_true]
    exact positiveInteger_int.mpr (by omega)

theorem read_execution (h : FitsColumns input) :
    parsedExecutionSchema (normalizedExecution (some (inputJson jsonTime input))) =
      some { id := input.execution.id.string, kind := input.execution.kind,
             state := input.execution.state, attempt := max 1 input.execution.attempt,
             failedGeneration := input.execution.requestedGeneration } := by
  have hattempt := h.attempt
  have hpositive := read_attempt (n := input.execution.attempt) (by omega)
  have hgeneration : MonitorConditions.optional nonnegativeInteger
      (input.execution.requestedGeneration.map fun n : Nat => Json.int n) =
        some input.execution.requestedGeneration := by
    cases hrequested : input.execution.requestedGeneration with
    | none => rfl
    | some n =>
        have hn := h.requestedGeneration n hrequested
        simp [MonitorConditions.optional, nonnegativeInteger_int (show n ≤ 2 ^ 53 - 1 by omega)]
  obtain ⟨hid, hkind, hstate, hcounted, hrequested⟩ :=
    @properties_execution jsonTime input.execution
  rw [normalizedExecution, (properties_input input).1, parsedExecutionSchema]
  simp [hid, hkind, hstate, hcounted, hrequested, nullish_int, nullish_str, required,
    lastValue_append, lastValue_cons, lastValue_optional, withDefault,
    minLength_str (one_le_length_string _), kindSchema_str, stateSchema_str, hpositive, hgeneration]

theorem minLength_str_iff {n : Nat} {text read : String} :
    minLength n (.str text) = some read ↔ read = text ∧ n ≤ JsStrings.length text := by
  simp only [minLength, text?, Option.filter_some, decide_eq_true_eq]
  split_ifs with h
  · simp [h, eq_comm]
  · simp [h]

theorem optional_condition (inFlight : Bool) (condition : Json) :
    MonitorConditions.optional monitorConditionSchema
      (if inFlight = true ∧ isObject (some condition) = true then some condition else none) =
        inputCondition (!inFlight) condition := by
  cases inFlight <;> cases condition <;> simp [isObject, inputCondition, MonitorConditions.optional]

theorem optional_if (c : Bool) (name : String) (value : Option Json) :
    (if c then Api.optional name value else []) =
      Api.optional name (if c then value else none) := by
  cases c <;> rfl

theorem read_monitor_iff {read : ParsedMonitor} :
    parsedMonitorSchema runtime (normalizedMonitor (some (inputJson jsonTime input))) = some read ↔
      read.id = input.monitor.id.string ∧
        urlSchema runtime (.str input.monitor.url) = some read.url ∧
        (read.intent = input.monitor.intent ∧ 1 ≤ JsStrings.length input.monitor.intent) ∧
        inputCondition (!input.execution.state.inFlight) (stored input.monitor.condition) =
          some read.condition := by
  obtain ⟨hid, hurl, hintent, hcondition⟩ := @properties_monitor jsonTime input.monitor
  obtain ⟨id, url, intent, condition⟩ := read
  rw [normalizedMonitor, (properties_input input).2.1, isTerminal_inputJson, parsedMonitorSchema,
    optional_if]
  simp [hid, hurl, hintent, hcondition, required, lastValue_append, lastValue_optional,
    optional_condition, minLength_str (one_le_length_string _), minLength_str_iff,
    Option.bind_eq_some_iff]
  constructor
  · rintro ⟨hurl, hlength, hcondition, rfl, rfl⟩
    exact ⟨rfl, hurl, ⟨rfl, hlength⟩, hcondition⟩
  · rintro ⟨rfl, hurl, ⟨rfl, hlength⟩, hcondition⟩
    exact ⟨hurl, hlength, hcondition, rfl, rfl⟩

theorem truthy_revision (revision : Option Revision) :
    truthy (revision.map (revisionJson jsonTime)) = revision.isSome := by
  cases revision <;> rfl

theorem or_plan (r : Revision) :
    (nullish (some (stored r.plan))).or (some (stored r.plan)) = some (stored r.plan) := by
  cases hplan : stored r.plan <;> rfl

/-- The revision as it is normalized, with the plan that stands beside it. -/
theorem normalizedRevision_inputJson (hplan : input.plan = input.revision.map (·.plan)) :
    normalizedRevision (some (inputJson jsonTime input)) =
      (currentRevision input).map fun r => .obj [("id", .str r.id.string),
        ("generation", .int r.generation), ("plan", stored r.plan)] := by
  rw [normalizedRevision, (properties_input input).2.2.1, (properties_input input).2.2.2.1,
    isTerminal_inputJson, currentRevision, hplan]
  cases hrevision : input.revision with
  | none => simp [truthy]
  | some r =>
      obtain ⟨hid, hgeneration, hplan⟩ := @properties_revision jsonTime r
      have htruthy := @truthy_revision jsonTime (some r)
      simp only [Option.map_some, Option.isSome_some] at htruthy ⊢
      rw [hid, hgeneration, hplan, htruthy, or_plan]
      cases input.execution.state.inFlight <;> rfl

theorem read_normalizedRevision {id : String} {generation : Nat} {plan : Json}
    (h : generation ≤ 2 ^ 31 - 1) :
    parsedRevisionSchema runtime
        (.obj [("id", .str id), ("generation", .int generation), ("plan", plan)]) =
      (monitorPlanV1Schema runtime plan).map fun plan => { id := some id, generation, plan } := by
  have hgeneration := nonnegativeInteger_int (show generation ≤ 2 ^ 53 - 1 by omega)
  rw [parsedRevisionSchema]
  simp [required, lastValue_cons, lastValue_nil, MonitorConditions.optional, text?, hgeneration]
  cases monitorPlanV1Schema runtime plan <;> rfl

theorem read_revision_iff (hgeneration : ∀ r ∈ input.revision, r.generation ≤ 2 ^ 31 - 1)
    (hplan : input.plan = input.revision.map (·.plan)) {read : Option ParsedRevision} :
    MonitorConditions.optional (parsedRevisionSchema runtime)
        (normalizedRevision (some (inputJson jsonTime input))) = some read ↔
      Option.Rel
        (fun r p => p.id = some r.id.string ∧ p.generation = r.generation ∧
          monitorPlanV1Schema runtime (stored r.plan) = some p.plan)
        (currentRevision input) read := by
  rw [normalizedRevision_inputJson hplan]
  cases hcurrent : currentRevision input with
  | none =>
      cases read <;> simp [MonitorConditions.optional]
  | some r =>
      have hr : r ∈ input.revision := by
        unfold currentRevision at hcurrent
        split_ifs at hcurrent
        exact hcurrent
      rw [Option.map_some, MonitorConditions.optional, read_normalizedRevision (hgeneration r hr)]
      cases read with
      | none => simp
      | some p =>
          obtain ⟨id, generation, plan⟩ := p
          simp [eq_comm, and_comm, and_left_comm, and_assoc]

/-- A worker reads the input of an execution just as it is told, or not at all. -/
theorem readInput_iff (hfits : FitsColumns input) (hplan : input.plan = input.revision.map (·.plan))
    {read : ParsedInput} :
    readInput runtime inferenceMode (inputJson jsonTime input) = some read ↔
      Reads runtime inferenceMode input read := by
  have hread : readInput runtime inferenceMode (inputJson jsonTime input) =
      executionInputSchema runtime (normalized inferenceMode (some (inputJson jsonTime input))) :=
    rfl
  obtain ⟨execution, monitor, revision, compilerMode⟩ := read
  rw [hread, normalized, (properties_input input).2.2.2.2, executionInputSchema]
  simp [required, lastValue_append, lastValue_cons, lastValue_nil, lastValue_optional, nullish,
    withDefault, compilerModeSchema_str, read_execution hfits, Option.bind_eq_some_iff]
  rw [read_monitor_iff, read_revision_iff hfits.generation hplan]
  constructor
  · rintro ⟨⟨hid, hurl, hintent, hcondition⟩, hrevision, rfl, rfl⟩
    exact ⟨rfl, hid, hurl, hintent, hcondition, hrevision, rfl⟩
  · intro h
    exact ⟨⟨h.monitorId, h.url, h.intent, h.condition⟩, h.revision, h.execution.symm,
      h.compilerMode.symm⟩

/-- What must hold of an input for a worker to read it. -/
structure Readable (runtime : Runtime) (input : Domain.ExecutionInput) : Prop where
  url : (runtime.parseUrl (JsStrings.trim input.monitor.url)).isSome = true
  intent : 1 ≤ JsStrings.length input.monitor.intent
  condition : (inputCondition (!input.execution.state.inFlight)
    (stored input.monitor.condition)).isSome = true
  plan : ∀ r ∈ currentRevision input, (monitorPlanV1Schema runtime (stored r.plan)).isSome = true

/-- A readable input is read. -/
theorem exists_reads_iff : (∃ read, Reads runtime inferenceMode input read) ↔
    Readable runtime input := by
  constructor
  · rintro ⟨⟨execution, monitor, revision, compilerMode⟩, h⟩
    refine ⟨?_, h.intent.2, by rw [h.condition]; rfl, ?_⟩
    · obtain ⟨_, htext, hurl⟩ := Option.bind_eq_some_iff.mp h.url
      obtain rfl := Option.some.inj htext
      by_contra hnone
      rw [if_neg hnone] at hurl
      cases hurl
    · intro r hr
      have hrevision := h.revision
      rw [hr] at hrevision
      cases hrevision with
      | some hread => rw [hread.2.2]; rfl
  · intro h
    obtain ⟨condition, hcondition⟩ := Option.isSome_iff_exists.mp h.condition
    have hurl : urlSchema runtime (.str input.monitor.url) =
        some (JsStrings.trim input.monitor.url) := by
      simp [urlSchema, text?, h.url]
    cases hcurrent : currentRevision input with
    | none =>
        exact ⟨⟨_, ⟨_, _, _, condition⟩, none, _⟩, rfl, rfl, hurl, ⟨rfl, h.intent⟩, hcondition,
          by rw [hcurrent]; exact .none, rfl⟩
    | some r =>
        obtain ⟨plan, hplan⟩ := Option.isSome_iff_exists.mp (h.plan r hcurrent)
        exact ⟨⟨_, ⟨_, _, _, condition⟩, some ⟨some r.id.string, r.generation, plan⟩, _⟩, rfl, rfl,
          hurl, ⟨rfl, h.intent⟩, hcondition, by rw [hcurrent]; exact .some ⟨rfl, rfl, hplan⟩, rfl⟩

end Reading

end PriceScout.Worker.Inputs
