import PriceScout.Worker.Extract
import PriceScout.Worker.ExtractorPolicy
import PriceScout.Worker.Safety

/-!
Compiling a plan: for the fixture from what is known about it, for any other
page with the help of Stagehand and a model. Both survey the page first and
then adopt what it shows as the identity of the plan.
-/

namespace PriceScout.Worker.Compiler

open PriceScout.Library.Attempts
open PriceScout.Library.JsStrings
open PriceScout.Library.RegularExpressions
open PriceScout.Worker.Contracts
open PriceScout.Worker.Environment
open PriceScout.Worker.Extract
open PriceScout.Worker.ExtractorPolicy
open PriceScout.Worker.Safety
open PriceScout.Worker.Validation

structure CompileOutcome where
  plan : MonitorPlanV1
  observation : Observation
  modelCallCount : Nat
  source : PlanSource

/-- What a compiler finds on a page: the plan that it read the page with, whose
identity is still a guess, and what the page showed. -/
structure Survey where
  provisional : MonitorPlanV1
  observation : Observation
  modelCallCount : Nat

/-- The plan of a survey, about the product that the page showed. -/
def Survey.plan (survey : Survey) : MonitorPlanV1 :=
  { survey.provisional with
    identity :=
      { title := survey.observation.title
        brand := none
        sku := given survey.observation.sku
        fingerprint := survey.observation.identityFingerprint
        requestedVariant := survey.provisional.identity.requestedVariant } }

/-- `/^[a-zA-Z0-9_-]+$/` -/
def xpathLiteralPart (value : String) : Except JsError String :=
  if value ≠ "" ∧ value.toList.all fun c => isWordChar c || c = '-' then return value
  else throw (.error "Fixture variant contains unsupported characters")

/-- `/\bsilver\b/` -/
def silverPattern : Regex :=
  .all [.wordBoundary, .literal "silver", .wordBoundary]

/-- `/\b(2\s*tb|2048\s*gb)\b/` -/
def twoTerabytePattern : Regex :=
  .all [.wordBoundary,
    .alt (.all [.literal "2", .star .whiteSpace, .literal "tb"])
      (.all [.literal "2048", .star .whiteSpace, .literal "gb"]),
    .wordBoundary]

/-- The variant that the condition of a monitor asks for. -/
def conditionVariant (input : ExecutionInput) : Record :=
  (input.monitor.condition.map (·.requestedVariant)).getD []

def conditionCurrency (input : ExecutionInput) : Option SupportedCurrency :=
  input.monitor.condition.bind (·.currency)

variable (runtime : Runtime)

def fixtureVariants (input : ExecutionInput) : Record :=
  if conditionVariant input ≠ [] then conditionVariant input
  else
    let intent := (runtime.toLowerCase input.monitor.intent).toList
    [("color", if test silverPattern intent then "silver" else "black"),
     ("capacity", if test twoTerabytePattern intent then "2tb" else "1tb")]

def fixtureStep (v1 : Bool) (attributeName value : String) : Except JsError PreparationStep := do
  let part ← xpathLiteralPart value
  let action : CachedAction :=
    { selector :=
        if v1 then "xpath=//*[@id='legacy-" ++ attributeName ++ "-" ++ part ++ "']"
        else "xpath=//*[@data-variant-group='" ++ attributeName ++ "']//*[@data-value='" ++ part ++
          "']"
      description := "Select " ++ value ++ " for " ++ attributeName
      method := some "click"
      arguments := some [] }
  assertSafeAction runtime action
  return { purpose := .variant, instruction := action.description, action }

def fixturePath (v1 : Bool) (v1Selector v2Selector : String) (attributeName : Option String) :
    ExtractionStrategy :=
  .xpathText ("xpath=" ++ if v1 then v1Selector else v2Selector) attributeName

def fixtureExtractors (v1 : Bool) (requested : Record) : Extractors where
  title := [fixturePath v1 "//*[@id='product-title']" "//*[@data-ui='product-name']" none]
  sku := some [fixturePath v1 "//*[@id='product-sku']" "//*[@data-ui='product-sku']" none]
  price := [fixturePath v1 "//*[@id='current-price']" "//*[@data-ui='offer-price']" none]
  currency :=
    some [fixturePath v1 "//*[@id='price-currency']" "//*[@data-ui='price-currency']" none]
  availability := [fixturePath v1 "//*[@id='stock-status']" "//*[@data-ui='inventory-status']" none]
  selectedVariant := requested.map fun (attributeName, _) =>
    fixturePath v1 ("//*[@id='selected-" ++ attributeName ++ "']")
      ("//*[@data-selected-variant='" ++ attributeName ++ "']") (given (some attributeName))

def fixturePlan (v1 : Bool) (requested : Record) (steps : List PreparationStep) (target : Url)
    (currency : Option SupportedCurrency) : MonitorPlanV1 where
  canonicalUrl := target.href
  identity :=
    { title := "Atlas Studio Headphones"
      brand := none
      sku := some "ASH-100"
      fingerprint := fingerprint runtime "Atlas Studio Headphones" (some "ASH-100")
      requestedVariant := requested }
  preparationSteps := steps
  extractors := fixtureExtractors v1 requested
  expectedCurrency := currency.getD .usd

variable {W : Type} (outside : Outside W) (config : WorkerConfig)

def replaySteps (session : Session) (target : Url) :
    List PreparationStep → Attempt JsError W Unit
  | [] => return ()
  | step :: rest => do
      let _ ← replaySafeAction runtime outside session step.action target
      replaySteps session target rest

def executeAndVerify (session : Session) (plan : MonitorPlanV1) (target : Url) :
    Attempt JsError W Observation := do
  replaySteps runtime outside session target plan.preparationSteps
  let observation ← extractObservation runtime outside session plan
  check (validateObservation runtime observation plan)
  return observation

def verifyFresh (plan : MonitorPlanV1) (target : Url) : Attempt JsError W Unit := do
  goto runtime outside .main target.href target
  let _ ← executeAndVerify runtime outside .main plan target

/-- Take a survey's page for the product of the plan, and read it once more. -/
def adopt (survey : Survey) (source : PlanSource) (target : Url) :
    Attempt JsError W CompileOutcome := do
  check (validateObservation runtime survey.observation survey.plan)
  verifyFresh runtime outside survey.plan target
  return { plan := survey.plan, observation := survey.observation,
           modelCallCount := survey.modelCallCount, source }

def surveyFixture (input : ExecutionInput) (target : Url) : Attempt JsError W Survey := do
  let count ← outside.count .main "#legacy-color-black"
  let v1 := decide (count > 0)
  let requested := fixtureVariants runtime input
  let steps ← check (requested.mapM fun (attributeName, value) =>
    fixtureStep runtime v1 attributeName value)
  let provisional := fixturePlan runtime v1 requested steps target (conditionCurrency input)
  let observation ← executeAndVerify runtime outside .main provisional target
  return { provisional, observation, modelCallCount := 0 }

def compileFixture (input : ExecutionInput) (target : Url) : Attempt JsError W CompileOutcome := do
  let survey ← surveyFixture runtime outside input target
  adopt runtime outside survey .scripted target

/-- The model's name is a provider and a model, and its key is set. -/
def modelConfigured : Except JsError Unit :=
  match split '/' config.modelName with
  | provider :: modelParts =>
      if provider = "" ∨ "/".intercalate modelParts = "" ∨ (given config.modelApiKey).isNone then
        throw (.error "MODEL_NAME must be provider/model and MODEL_API_KEY must be set")
      else return ()
  | [] => throw (.error "MODEL_NAME must be provider/model and MODEL_API_KEY must be set")

def parseIntent (intent : String) : Attempt JsError W IntentRule := do
  check (modelConfigured config)
  outside.generateIntent intent

/-- The variant that a plan is compiled for: what the condition asks for, or
else what the model takes the intent to ask for. The number of model calls is
the third component. -/
def requestedBy (input : ExecutionInput) :
    Attempt JsError W (Record × Option SupportedCurrency × Nat) := do
  if conditionVariant input = [] then
    let intentRule ← parseIntent outside config input.monitor.intent
    return (intentRule.requestedVariant, intentRule.currency, 1)
  else return (conditionVariant input, none, 0)

def observeSteps : Record → Attempt JsError W (List PreparationStep)
  | [] => return []
  | (attributeName, value) :: rest => do
      let candidates ← outside.stagehandObserve
        ("Select the product " ++ attributeName ++ " option exactly \"" ++ value ++
          "\". Do not add to cart, buy, or leave the product page.")
      match candidates with
      | [] => throw (.error ("No safe action found for " ++ attributeName ++ "=" ++ value))
      | action :: _ =>
          check (assertSafeAction runtime action)
          let steps ← observeSteps rest
          return { purpose := .variant, instruction := action.description, action } :: steps

/-- The path of a node in a snapshot, if it has one. -/
def xpathOf (snapshot : Snapshot) (nodeId : String) : Option String :=
  given (snapshot.xpathMap.get nodeId)

def selectedIds (selected : NodeSelection) : List String :=
  [selected.titleNodeId, selected.currentPriceNodeId, selected.availabilityNodeId] ++
    (given selected.currencyNodeId).toList ++ (given selected.skuNodeId).toList ++
    selected.variantNodeIds.map (·.2)

def selectSnapshotNodes (snapshot : Snapshot) (requested : Record) :
    Attempt JsError W NodeSelection := do
  check (modelConfigured config)
  let selected ← outside.generateNodes (slice 180000 snapshot.formattedTree) requested
  if (selectedIds selected).any fun id => (xpathOf snapshot id).isNone then
    throw (.error "Model returned a node ID absent from snapshot.xpathMap")
  return selected

def strategyFor (snapshot : Snapshot) (nodeId : String) (attributeName : Option String) :
    Except JsError ExtractionStrategy :=
  match xpathOf snapshot nodeId with
  | none => throw (.error ("Model selected unknown snapshot node " ++ nodeId))
  | some xpath => return .xpathText ("xpath=" ++ xpath) attributeName

def variantStrategies (snapshot : Snapshot) (selected : NodeSelection) :
    Record → Except JsError (List ExtractionStrategy)
  | [] => return []
  | (attributeName, value) :: rest => do
      match given (selected.variantNodeIds.get attributeName) with
      | none =>
          throw (.error ("Model did not identify the selected " ++ attributeName ++ " node (" ++
            value ++ ")"))
      | some nodeId =>
          let strategy ← strategyFor snapshot nodeId (given (some attributeName))
          let strategies ← variantStrategies snapshot selected rest
          return strategy :: strategies

/-- The strategies that a selection of nodes stands for. -/
structure Strategies where
  title : ExtractionStrategy
  price : ExtractionStrategy
  availability : ExtractionStrategy
  selectedVariant : List ExtractionStrategy

def requiredStrategies (snapshot : Snapshot) (selected : NodeSelection) (requested : Record) :
    Except JsError Strategies := do
  let title ← strategyFor snapshot selected.titleNodeId none
  let price ← strategyFor snapshot selected.currentPriceNodeId none
  let availability ← strategyFor snapshot selected.availabilityNodeId none
  let selectedVariant ← variantStrategies snapshot selected requested
  return { title, price, availability, selectedVariant }

def optionalStrategy (snapshot : Snapshot) (nodeId : Option String) :
    Except JsError (Option ExtractionStrategy) :=
  match given nodeId with
  | none => return none
  | some nodeId => some <$> strategyFor snapshot nodeId none

/-- The currency in which a plan expects its prices. -/
def expectedCurrency (input : ExecutionInput) (intentCurrency : Option SupportedCurrency)
    (semantic : SemanticProduct) : Except JsError SupportedCurrency :=
  match (conditionCurrency input).orElse fun _ => intentCurrency with
  | some currency => return currency
  | none =>
      let code := runtime.toUpperCase (trim semantic.currency)
      match supportedCurrencySchema code with
      | some currency => return currency
      | none => throw (.error (runtime.unsupportedCurrency code))

def livePlan (requested : Record) (steps : List PreparationStep) (strategies : Strategies)
    (sku currency : Option ExtractionStrategy) (target : Url) (expected : SupportedCurrency) :
    MonitorPlanV1 where
  canonicalUrl := target.href
  identity :=
    { title := "pending identity"
      brand := none
      sku := none
      fingerprint := fingerprint runtime "pending identity" none
      requestedVariant := requested }
  preparationSteps := steps
  extractors := buildLiveExtractors
    { requestedVariant := requested, title := strategies.title, sku, price := strategies.price,
      currency, availability := strategies.availability,
      selectedVariant := strategies.selectedVariant }
  expectedCurrency := expected

/-- What the strategies read agrees with what Stagehand reads by itself. -/
def agreesWithSemantic (semantic : SemanticProduct) (observation : Observation) :
    Except JsError Unit := do
  if trim semantic.title ≠ "" ∧
      titleSimilarity runtime semantic.title observation.title < similarityThreshold then
    throw (.error "Snapshot extraction conflicts with Stagehand semantic title extraction")
  if runtime.toUpperCase (trim semantic.currency) ≠ observation.currency.code then
    throw (.error "Snapshot extraction conflicts with Stagehand semantic currency extraction")
  let price ← parsePrice semantic.currentPriceText
  if price.priceMinor ≠ observation.priceMinor then
    throw (.error "Snapshot extraction conflicts with Stagehand semantic price extraction")

def surveyLive (input : ExecutionInput) (target : Url) : Attempt JsError W Survey := do
  let (requested, intentCurrency, intentCalls) ← requestedBy outside config input
  let steps ← observeSteps runtime outside requested
  replaySteps runtime outside .main target steps
  let snapshot ← outside.snapshot
  let selected ← selectSnapshotNodes outside config snapshot requested
  let strategies ← check (requiredStrategies snapshot selected requested)
  let semantic ← outside.stagehandExtract
  let expected ← check (expectedCurrency runtime input intentCurrency semantic)
  let sku ← check (optionalStrategy snapshot selected.skuNodeId)
  let currency ← check (optionalStrategy snapshot selected.currencyNodeId)
  let provisional := livePlan runtime requested steps strategies sku currency target expected
  let observation ← extractObservation runtime outside .main provisional
  check (agreesWithSemantic runtime semantic observation)
  return { provisional, observation, modelCallCount := intentCalls + requested.length + 2 }

def compileLive (input : ExecutionInput) (target : Url) : Attempt JsError W CompileOutcome := do
  let survey ← surveyLive runtime outside config input target
  adopt runtime outside survey .stagehand target

/-- Whether a job uses the fixture's compiler. -/
def chooseScripted (requested : CompilerMode) (target : Url) : Except JsError Bool :=
  match requested with
  | .scripted => return true
  | .live => return false
  | .auto =>
      match runtime.parseUrl config.fixtureOrigin with
      | none => throw (.error (runtime.invalidUrl config.fixtureOrigin))
      | some fixture => return decide (target.origin = fixture.origin)

def compileMonitor (input : ExecutionInput) (target : Url) : Attempt JsError W CompileOutcome := do
  let scripted ← check (chooseScripted runtime config input.compilerMode target)
  goto runtime outside .main target.href target
  if scripted then compileFixture runtime outside input target
  else compileLive runtime outside config input target

end PriceScout.Worker.Compiler
