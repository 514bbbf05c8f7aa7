import PriceScout.Worker.Compiler

/-!
Executing a job: compiling a plan, checking a page with one, or repairing one
that no longer fits its page. Whatever goes wrong becomes the job's result.
-/

namespace PriceScout.Worker.Handler

open PriceScout.Library.Attempts
open PriceScout.Library.JsStrings
open PriceScout.Library.RegularExpressions
open PriceScout.Worker.Compiler
open PriceScout.Worker.Contracts
open PriceScout.Worker.Environment
open PriceScout.Worker.Extract
open PriceScout.Worker.Safety
open PriceScout.Worker.Validation

/-- What the handler has got so far: its timings, its browser and a page of it. -/
structure Progress where
  timingsMs : List (String × Nat)
  run : Bool
  page : Bool

/-- `timings[name] = value`. -/
def setTiming (name : String) (value : Nat) : List (String × Nat) → List (String × Nat)
  | [] => [(name, value)]
  | entry :: rest =>
      if entry.1 = name then (name, value) :: rest else entry :: setTiming name value rest

def Progress.start : Progress where
  timingsMs := []
  run := false
  page := false

/-- `message.replace(/[\r\n]+/g, " ").slice(0, 1000)` -/
def safeError (error : JsError) : String :=
  slice 1000 (collapse (fun c => c = '\r' || c = '\n') error.message)

/-- `/429|rate.?limit|retry-after/` -/
def rateLimitedPattern : Regex :=
  .oneOf [.literal "429",
    .all [.literal "rate",
      .opt (.charClass fun c => !([0x0a, 0x0d, 0x2028, 0x2029].contains c.toNat)),
      .literal "limit"],
    .literal "retry-after"]

/-- `/403|captcha|access denied|blocked/` -/
def blockedPattern : Regex :=
  .oneOf (["403", "captcha", "access denied", "blocked"].map .literal)

/-- `/selector|element|xpath|locator|not found/` -/
def staleActionPattern : Regex :=
  .oneOf (["selector", "element", "xpath", "locator", "not found"].map .literal)

/-- `/extract|price|availability/` -/
def staleExtractorPattern : Regex :=
  .oneOf (["extract", "price", "availability"].map .literal)

/-- A file of evidence and what the control plane is told of it. -/
def artifact (kind : ArtifactKind) (storageKey : String) (content : Buffer) : ArtifactRef where
  kind := kind
  storageKey := storageKey
  sizeBytes := content.byteLength
  sha256 := content.sha256

def requireRevision (input : ExecutionInput) : Except JsError InputRevision :=
  match input.revision with
  | none =>
      throw (.error (input.execution.kind.string ++
        " execution requires an active monitor revision"))
  | some revision => return revision

/-- A repair is seen the same way in a second browser. -/
def assertObservationsAgree (candidate fresh : Observation) : Except JsError Unit :=
  if candidate.priceMinor ≠ fresh.priceMinor ∨ candidate.currency ≠ fresh.currency ∨
      candidate.inStock ≠ fresh.inStock ∨
      candidate.identityFingerprint ≠ fresh.identityFingerprint ∨
      candidate.selectedVariant ≠ fresh.selectedVariant then
    throw (.validationError
      "Repair candidate produced conflicting observations in an independent browser session"
      .ambiguousValue)
  else return ()

variable (runtime : Runtime) {W : Type} (outside : Outside W) (config : WorkerConfig)

def classifyFailure : JsError → FailureClassification
  | .safetyError _ => .invalidInput
  | .staleActionError _ => .staleAction
  | .validationError _ .identityDrift => .identityDrift
  | .validationError _ .ambiguousValue => .ambiguousValue
  | .error message =>
      let message := (runtime.toLowerCase (safeError (.error message))).toList
      if test rateLimitedPattern message then .rateLimited
      else if test blockedPattern message then .blocked
      else if test staleActionPattern message then .staleAction
      else if test staleExtractorPattern message then .staleExtractor
      else .transientInfrastructure

/-- Do some work and note how long it took, also when it fails. -/
def timed {α : Type} (name : String) (work : Attempt JsError W α) :
    Attempt JsError (W × Progress) α :=
  act fun s =>
    let started := outside.now s.1
    let done := outcome work started.2
    let ended := outside.now done.2
    (done.1, (ended.2, { s.2 with
      timingsMs := setTiming name (ended.1 - started.1) s.2.timingsMs }))

def setProgress (change : Progress → Progress) : Attempt JsError (W × Progress) Unit :=
  ask fun s => ((), (s.1, change s.2))

def throwIfAborted : Attempt JsError W Unit := do
  match ← ask outside.aborted with
  | some reason => throw reason
  | none => return ()

/-- A key for the files of an execution: `/[^a-zA-Z0-9_-]/g` becomes `_`. -/
def safeIdOf (executionId : String) : String :=
  slice 100 (String.ofList (executionId.toList.flatMap fun c =>
    if isWordChar c || c = '-' then [c] else List.replicate (utf16Units c) '_'))

/-- `Buffer.from(text, "utf8")` -/
def textBuffer (text : String) : Buffer where
  byteLength := text.utf8ByteSize
  sha256 := runtime.sha256 text

/-- Keep a screenshot of the viewport and a snapshot of bounded length. -/
def captureEvidence (executionId : String) : Attempt JsError W (List ArtifactRef) := do
  let safeId := safeIdOf executionId
  let directory := runtime.resolvePath [config.artifactDir, safeId]
  let root := runtime.resolvePath [config.artifactDir]
  if !startsWith directory (root ++ "/") then
    throw (.error "Unsafe artifact path")
  outside.mkdir directory
  let screenshot ← outside.screenshot
  let snapshot ← outside.snapshot
  let snapshotBuffer := textBuffer runtime (slice 2000000 snapshot.formattedTree)
  outside.writeFile (directory ++ "/page.png") screenshot
  outside.writeFile (directory ++ "/snapshot.txt") snapshotBuffer
  return [artifact .screenshot (safeId ++ "/page.png") screenshot,
    artifact .snapshot (safeId ++ "/snapshot.txt") snapshotBuffer]

/-- Read a page with a plan, after its preparation. -/
def warmCheck (session : Session) (plan : MonitorPlanV1) (target : Url) :
    Attempt JsError W Observation := do
  goto runtime outside session plan.canonicalUrl target
  executeAndVerify runtime outside session plan target

/-- Replay the steps of a plan and keep what Stagehand has healed them to. -/
def healSteps (target : Url) : List PreparationStep → Attempt JsError W (List PreparationStep)
  | [] => return []
  | step :: rest => do
      let healed ← replaySafeAction runtime outside .main step.action target
      let healedRest ← healSteps target rest
      return { step with action := healed.getLast?.getD step.action } :: healedRest

/-- A count of Stagehand's, if it keeps one. -/
def metric (name : String) : Attempt JsError W Nat := do
  let value ← ask (outside.stagehandMetric name)
  return value.getD 0

/-- The repair that keeps the plan and heals its steps. -/
def healedReplay (oldPlan : MonitorPlanV1) (target : Url) : Attempt JsError W CompileOutcome := do
  let preparationSteps ← healSteps runtime outside target oldPlan.preparationSteps
  let candidate := { oldPlan with preparationSteps }
  let first ← extractObservation runtime outside .main candidate
  check (validateObservation runtime first candidate)
  let healed ← metric outside "actSelfHealCount"
  return { plan := candidate, observation := first, modelCallCount := max 1 healed,
           source := .stagehand }

/-- The failures of a replay after which the page is not compiled anew. -/
def isFinal : JsError → Bool
  | .validationError .. | .safetyError _ => true
  | .error _ | .staleActionError _ => false

def repairLive (input : ExecutionInput) (oldPlan : MonitorPlanV1) (target : Url) :
    Attempt JsError W CompileOutcome := do
  goto runtime outside .main oldPlan.canonicalUrl target
  tryCatch (healedReplay runtime outside oldPlan target) fun error =>
    if isFinal error then throw error
    else compileMonitor runtime outside config input target

/-- Read the page of a repaired plan in a browser of its own. -/
def validateRepairFresh (target : Url) (plan : MonitorPlanV1) : Attempt JsError W Observation := do
  throwIfAborted outside
  outside.init .validator target.hostname
  throwIfAborted outside
  let observation ← warmCheck runtime outside .validator plan target
  throwIfAborted outside
  return observation

/-- `new BrowserRun`, which wants a key when it needs the model. -/
def newBrowserRun (needsModel : Bool) : Except JsError Unit :=
  if needsModel && (given config.modelApiKey).isNone then
    throw (.error "MODEL_API_KEY is required for live compile and repair jobs")
  else return ()

/-- Check the URL of a job and open a browser for it. -/
def openJob (input : ExecutionInput) : Attempt JsError (W × Progress) (Url × Bool) := do
  onFst (throwIfAborted outside)
  let target ← timed outside "urlValidation"
    (validateTargetUrl runtime outside input.monitor.url config.allowedPrivateHosts)
  onFst (throwIfAborted outside)
  let scripted ← check (chooseScripted runtime config input.compilerMode target)
  check (newBrowserRun config (!scripted &&
    (input.execution.kind = .compile || input.execution.kind = .repair)))
  setProgress fun progress => { progress with run := true }
  onFst (throwIfAborted outside)
  timed outside "browserInit" (outside.init .main target.hostname)
  setProgress fun progress => { progress with page := true }
  onFst (throwIfAborted outside)
  return (target, scripted)

/-- The result of a job, less what its kind adds. -/
def newResult (input : ExecutionInput) (status : ResultStatus) (artifacts : List ArtifactRef)
    (modelCallCount : Nat) (sessionId : Option String) (timingsMs : List (String × Nat)) :
    ExecutionResult where
  status := status
  kind := input.execution.kind
  executionId := input.execution.id
  monitorId := input.monitor.id
  generation := none
  candidatePlan := none
  observation := none
  artifacts := artifacts
  modelCallCount := modelCallCount
  browserProvider := config.browserProvider
  browserbaseSessionId := given sessionId
  cacheStatus := none
  repairSource := none
  requiresConfirmation := none
  failure := none
  timingsMs := timingsMs

/-- Capture the evidence of a job that has succeeded and begin its result. -/
def finishJob (started : Nat) (input : ExecutionInput) (modelCallCount : Nat) :
    Attempt JsError (W × Progress) ExecutionResult := do
  let artifacts ← timed outside "evidence"
    (captureEvidence runtime outside config input.execution.id.string)
  let ended ← onFst (ask outside.now)
  setProgress fun progress =>
    { progress with timingsMs := setTiming "total" (ended - started) progress.timingsMs }
  let sessionId ← onFst (ask outside.sessionId)
  let progress ← ask fun s => (s.2, s)
  return newResult config input .succeeded artifacts modelCallCount sessionId progress.timingsMs

def compileJob (started : Nat) (input : ExecutionInput) (target : Url) :
    Attempt JsError (W × Progress) ExecutionResult := do
  let compiled ← timed outside "compile" (compileMonitor runtime outside config input target)
  let result ← finishJob runtime outside config started input compiled.modelCallCount
  return { result with
    candidatePlan := some compiled.plan
    observation := some compiled.observation
    cacheStatus := some .miss
    requiresConfirmation := some true }

def checkJob (started : Nat) (input : ExecutionInput) (target : Url) :
    Attempt JsError (W × Progress) ExecutionResult := do
  let revision ← check (requireRevision input)
  let observation ← timed outside "warmCheck"
    (warmCheck runtime outside .main revision.plan target)
  let result ← finishJob runtime outside config started input 0
  return { result with
    generation := some revision.generation
    observation := some observation
    cacheStatus := some .hit }

/-- The plan that a repair proposes. -/
def proposeRepair (input : ExecutionInput) (oldPlan : MonitorPlanV1) (target : Url)
    (scripted : Bool) : Attempt JsError (W × Progress) CompileOutcome :=
  if scripted then
    timed outside "scriptedRepair" (compileMonitor runtime outside config input target)
  else timed outside "stagehandRepair" (repairLive runtime outside config input oldPlan target)

def repairJob (started : Nat) (input : ExecutionInput) (target : Url) (scripted : Bool) :
    Attempt JsError (W × Progress) ExecutionResult := do
  let revision ← check (requireRevision input)
  let repaired ← proposeRepair runtime outside config input revision.plan target scripted
  let freshObservation ← timed outside "freshValidation"
    (validateRepairFresh runtime outside target repaired.plan)
  check (assertObservationsAgree repaired.observation freshObservation)
  let result ← finishJob runtime outside config started input repaired.modelCallCount
  return { result with
    generation := some (revision.generation + 1)
    candidatePlan := some repaired.plan
    cacheStatus := some .miss
    repairSource := some repaired.source
    requiresConfirmation := some false }

def runJob (started : Nat) (input : ExecutionInput) :
    Attempt JsError (W × Progress) ExecutionResult := do
  let (target, scripted) ← openJob runtime outside config input
  match input.execution.kind with
  | .compile => compileJob runtime outside config started input target
  | .check => checkJob runtime outside config started input target
  | .repair => repairJob runtime outside config started input target scripted

def isValidationError : JsError → Bool
  | .validationError .. => true
  | _ => false

/-- The evidence of a failure, which is best effort. -/
def failureEvidence (executionId : String) (wanted : Bool) :
    Attempt JsError (W × Progress) (List ArtifactRef) :=
  if wanted then
    tryCatch (timed outside "failureEvidence" (captureEvidence runtime outside config executionId))
      fun _ => pure []
  else pure []

/-- `run?.value`, or what stands for it when there is no browser. -/
def ofRun {α : Type} (run : Bool) (value : Attempt JsError W α) (absent : α) :
    Attempt JsError (W × Progress) α :=
  if run then onFst value else pure absent

def failJob (started : Nat) (input : ExecutionInput) (error : JsError) :
    Attempt JsError (W × Progress) ExecutionResult := do
  let reason ← onFst (ask outside.aborted)
  let terminalError := reason.getD error
  let aborted ← onFst (ask outside.aborted)
  let reached ← ask fun s => (s.2, s)
  let artifacts ← failureEvidence runtime outside config input.execution.id.string
    (reached.page && aborted.isNone)
  let ended ← onFst (ask outside.now)
  setProgress fun progress =>
    { progress with timingsMs := setTiming "total" (ended - started) progress.timingsMs }
  let modelCallCount ← ofRun reached.run (metric outside "actSelfHealCount") 0
  let sessionId ← ofRun reached.run (ask outside.sessionId) none
  let progress ← ask fun s => (s.2, s)
  let status := if isValidationError terminalError then .needsReview else .failed
  return { newResult config input status artifacts modelCallCount sessionId progress.timingsMs with
    failure := some
      { classification := classifyFailure runtime terminalError
        message := safeError terminalError } }

/-- A job that could not even be recorded as failed does not return. -/
def executeJob (input : ExecutionInput) : Attempt JsError W ExecutionResult :=
  act fun w =>
    let started := outside.now w
    let done := outcome (tryCatch (runJob runtime outside config started.1 input)
      (failJob runtime outside config started.1 input)) (started.2, Progress.start)
    (done.1, done.2.1)

variable {runtime outside config}

/-- A result is one of the job's run or one of its failure. -/
theorem returns_executeJob {input : ExecutionInput} {w w' : W} {result : ExecutionResult}
    (h : Returns (executeJob runtime outside config input) w result w') :
    (∃ s, Returns (runJob runtime outside config (outside.now w).1 input)
        ((outside.now w).2, Progress.start) result s) ∨
      ∃ error s s', Returns (failJob runtime outside config (outside.now w).1 input error) s result
        s' := by
  have hfst : (outcome (tryCatch (runJob runtime outside config (outside.now w).1 input)
      (failJob runtime outside config (outside.now w).1 input))
      ((outside.now w).2, Progress.start)).1 = .ok result := congrArg Prod.fst h
  have hrun : Returns (tryCatch (runJob runtime outside config (outside.now w).1 input)
      (failJob runtime outside config (outside.now w).1 input))
      ((outside.now w).2, Progress.start) result _ := Prod.ext hfst rfl
  obtain hrun | ⟨error, s, -, hfailed⟩ := returns_tryCatch.mp hrun
  · exact .inl ⟨_, hrun⟩
  · exact .inr ⟨error, s, _, hfailed⟩

theorem returns_timed {α : Type} {name : String} {work : Attempt JsError W α}
    {s s' : W × Progress} {a : α} (h : Returns (timed outside name work) s a s') :
    ∃ w', Returns work (outside.now s.1).2 a w' := by
  have hfst : (outcome work (outside.now s.1).2).1 = .ok a := congrArg Prod.fst h
  exact ⟨_, Prod.ext hfst rfl⟩

theorem timed_returns {α : Type} {work : Attempt JsError W α} {s : W × Progress} {a : α} {w' : W}
    (h : Returns work (outside.now s.1).2 a w') (name : String) :
    ∃ s', Returns (timed outside name work) s a s' := by
  have hfst : (outcome work (outside.now s.1).2).1 = .ok a := congrArg Prod.fst h
  exact ⟨_, Prod.ext hfst rfl⟩

theorem ensures_timed {α : Type} {name : String} {work : Attempt JsError W α} {P : α → Prop}
    (h : Ensures work P) : Ensures (timed outside name work) P := by
  intro s a s' hreturns
  obtain ⟨w', hwork⟩ := returns_timed hreturns
  exact h hwork

theorem failJob_not_succeeded {started : Nat} {input : ExecutionInput} {error : JsError} :
    Ensures (failJob runtime outside config started input error)
      fun result => result.status ≠ .succeeded := by
  unfold failJob
  refine .bind_of_forall fun reason => .bind_of_forall fun aborted => .bind_of_forall fun reached =>
    .bind_of_forall fun artifacts => .bind_of_forall fun ended => .bind_of_forall fun _ =>
    .bind_of_forall fun modelCallCount => .bind_of_forall fun sessionId =>
    .bind_of_forall fun progress => .pure ?_
  simp only [newResult]
  split <;> decide

end PriceScout.Worker.Handler
