import PriceScout.Httpapi.Handlers
import PriceScout.Worker.Environment

/-!
The body that a worker reports a result with, and what the control plane reads
in it.
-/

namespace PriceScout.Worker.Api

open PriceScout.Domain (ResultArtifact ResultObservation)
open PriceScout.Httpapi.Handlers
open PriceScout.Library.JsonDocuments
open PriceScout.Library.Numbers
open PriceScout.Worker.Contracts
open PriceScout.Worker.Environment

/-- A field that is left out when its value is undefined. -/
def optional (name : String) (value : Option Json) : List (String × Json) :=
  (value.map (name, ·)).toList

def recordJson (record : Record) : Json :=
  .obj (record.map fun entry => (entry.1, .str entry.2))

def actionJson (action : CachedAction) : Json :=
  .obj ([("selector", .str action.selector), ("description", .str action.description)] ++
    optional "method" (action.method.map .str) ++
    optional "arguments" (action.arguments.map fun arguments => .arr (arguments.map .str)))

def strategyJson : ExtractionStrategy → Json
  | .xpathText selector attributeName =>
      .obj ([("kind", .str "xpathText"), ("selector", .str selector)] ++
        optional "attribute" (attributeName.map .str))
  | .inputValue selector attributeName =>
      .obj ([("kind", .str "inputValue"), ("selector", .str selector)] ++
        optional "attribute" (attributeName.map .str))
  | .jsonLd field => .obj [("kind", .str "jsonLd"), ("field", .str field.string)]

def strategiesJson (strategies : List ExtractionStrategy) : Json :=
  .arr (strategies.map strategyJson)

def identityJson (identity : Identity) : Json :=
  .obj ([("title", .str identity.title)] ++ optional "brand" (identity.brand.map .str) ++
    optional "sku" (identity.sku.map .str) ++
    [("fingerprint", .str identity.fingerprint),
     ("requestedVariant", recordJson identity.requestedVariant)])

def stepJson (step : PreparationStep) : Json :=
  .obj [("purpose", .str step.purpose.string), ("instruction", .str step.instruction),
    ("action", actionJson step.action)]

def extractorsJson (extractors : Extractors) : Json :=
  .obj ([("title", strategiesJson extractors.title), ("price", strategiesJson extractors.price)] ++
    optional "currency" (extractors.currency.map strategiesJson) ++
    [("availability", strategiesJson extractors.availability),
     ("selectedVariant", strategiesJson extractors.selectedVariant)] ++
    optional "sku" (extractors.sku.map strategiesJson))

def planJson (plan : MonitorPlanV1) : Json :=
  .obj [("schemaVersion", .int 1), ("stagehandVersion", .str "3.7.0"),
    ("canonicalUrl", .str plan.canonicalUrl), ("identity", identityJson plan.identity),
    ("preparationSteps", .arr (plan.preparationSteps.map stepJson)),
    ("extractors", extractorsJson plan.extractors),
    ("expectedCurrency", .str plan.expectedCurrency.code), ("validatorVersion", .int 1)]

def artifactJson (artifact : ArtifactRef) : Json :=
  .obj [("kind", .str artifact.kind.string), ("storageKey", .str artifact.storageKey),
    ("contentType", .str artifact.kind.contentType), ("sizeBytes", .int artifact.sizeBytes),
    ("sha256", .str artifact.sha256)]

/-- What an observation says of the product it was made of. -/
def observedIdentityJson (observation : Observation) : Json :=
  .obj ([("fingerprint", .str observation.identityFingerprint)] ++
    optional "sku" (observation.sku.map .str) ++
    [("selectedVariant", recordJson observation.selectedVariant)])

def verificationState (status : ResultStatus) : String :=
  if status = .needsReview then "review_required" else "verified"

def observationJson (status : ResultStatus) (observation : Observation) : Json :=
  .obj [("priceMinor", observation.priceMinor.json), ("currency", .str observation.currency.code),
    ("inStock", .bool observation.inStock), ("title", .str observation.title),
    ("rawText", .str observation.rawPrice), ("identity", observedIdentityJson observation),
    ("verificationState", .str (verificationState status))]

def diagnosticsJson (result : ExecutionResult) : Json :=
  .obj ([("modelCallCount", .int result.modelCallCount)] ++
    optional "cacheStatus" (result.cacheStatus.map fun status => .str status.string) ++
    optional "repairSource" (result.repairSource.map fun source => .str source.string) ++
    [("timingsMs", .obj (result.timingsMs.map fun entry => (entry.1, .int entry.2)))])

def failureFields (failure : Option Failure) : List (String × Json) :=
  optional "failureClassification"
    (failure.map fun failure => .str failure.classification.string) ++
    optional "error" (failure.map fun failure => .str failure.message)

def autoPromote (result : ExecutionResult) : Bool :=
  result.kind = .repair && result.status = .succeeded

def browserSessionUrl (result : ExecutionResult) : Option String :=
  (given result.browserbaseSessionId).map ("https://www.browserbase.com/sessions/" ++ ·)

/-- `ControlPlaneClient.result`; no job gives its result a trace. -/
def resultJson (result : ExecutionResult) : Json :=
  .obj ([("status", .str result.status.string)] ++ failureFields result.failure ++
    [("provider", .str result.browserProvider.string)] ++
    optional "browserSessionUrl" ((browserSessionUrl result).map .str) ++
    optional "plan" (result.candidatePlan.map planJson) ++
    optional "observation" (result.observation.map (observationJson result.status)) ++
    [("artifacts", .arr (result.artifacts.map artifactJson)),
     ("autoPromote", .bool (autoPromote result)), ("diagnostics", diagnosticsJson result)])

/-- The request body that carries a result. -/
def resultBody (result : ExecutionResult) : Body :=
  .document (resultJson result) (resultJson result).byteSize false

/-- The observation that is read, if its price is. -/
def receivedObservation (status : ResultStatus) (observation : Observation) :
    Option ResultObservation :=
  (Json.assignInt64 0 observation.priceMinor.json).map fun priceMinor =>
    { priceMinor, currency := observation.currency.code, inStock := observation.inStock,
      title := observation.title, rawText := observation.rawPrice,
      identity := some (observedIdentityJson observation),
      verificationState := verificationState status, conditionMatched := none }

/-- The artifact that is read, if its size is. -/
def receivedArtifact (artifact : ArtifactRef) : Option ResultArtifact :=
  (Json.int artifact.sizeBytes).int64?.map fun sizeBytes =>
    { kind := artifact.kind.string, storageKey := artifact.storageKey,
      contentType := artifact.kind.contentType, sha256 := artifact.sha256, sizeBytes }

/-- The result that is read, with the observation and the artifacts that are. -/
def received (result : ExecutionResult) (observation : Option ResultObservation)
    (artifacts : List ResultArtifact) : Domain.ExecutionResult where
  status := result.status.string
  failureClassification := (result.failure.map (·.classification.string)).getD ""
  error := (result.failure.map (·.message)).getD ""
  provider := result.browserProvider.string
  traceId := ""
  browserSessionUrl := (browserSessionUrl result).getD ""
  plan := result.candidatePlan.map planJson
  observation := observation
  artifacts := artifacts
  autoPromote := autoPromote result
  diagnostics := some (diagnosticsJson result)

/-- The observation of a result as it is read: none if there is none, and a
failure if it does not fit. -/
def receivedObservation? (result : ExecutionResult) : Option (Option ResultObservation) :=
  match result.observation with
  | none => some none
  | some observation => (receivedObservation result.status observation).map some

section Decoding

variable {r : Domain.ExecutionResult}

theorem decode_observationJson (status : ResultStatus) (observation : Observation) :
    Json.decodeStruct observationFields zeroObservation (observationJson status observation) =
      receivedObservation status observation := by
  unfold receivedObservation observationJson
  cases hprice : Json.assignInt64 0 observation.priceMinor.json with
  | none =>
      simp [Json.decodeStruct, Json.decodeFields, Json.findField, observationFields,
        zeroObservation, hprice]
  | some priceMinor =>
      simp [Json.decodeStruct, Json.decodeFields, Json.findField, observationFields,
        zeroObservation, hprice, Json.assignString, Json.assignBool, assignRaw]

theorem decode_artifact {size : Json} (hsize : size ≠ .null)
    (kind storageKey contentType sha256 : String) :
    Json.decodeStruct artifactFields zeroArtifact
        (.obj [("kind", .str kind), ("storageKey", .str storageKey),
          ("contentType", .str contentType), ("sizeBytes", size), ("sha256", .str sha256)]) =
      size.int64?.map fun sizeBytes => ⟨kind, storageKey, contentType, sha256, sizeBytes⟩ := by
  have hread : Json.assignInt64 0 size = size.int64? := Json.assignInt64_of_ne_null hsize
  cases hsize : size.int64? with
  | none =>
      simp [Json.decodeStruct, Json.decodeFields, Json.findField, artifactFields, zeroArtifact,
        Json.assignString, hread, hsize]
  | some sizeBytes =>
      simp [Json.decodeStruct, Json.decodeFields, Json.findField, artifactFields, zeroArtifact,
        Json.assignString, hread, hsize]

theorem decode_artifactJson (artifact : ArtifactRef) :
    Json.decodeStruct artifactFields zeroArtifact (artifactJson artifact) =
      receivedArtifact artifact :=
  decode_artifact (by simp [Json.int]) _ _ _ _

theorem decode_failureFields (failure : Option Failure) :
    Json.decodeFields resultFields r (failureFields failure) =
      some { r with
        failureClassification :=
          (failure.map (·.classification.string)).getD r.failureClassification
        error := (failure.map (·.message)).getD r.error } := by
  cases failure <;> simp [failureFields, optional, Json.decodeFields, Json.findField, resultFields,
    Json.assignString]

theorem decode_sessionUrl (url : Option String) :
    Json.decodeFields resultFields r (optional "browserSessionUrl" (url.map .str)) =
      some { r with browserSessionUrl := url.getD r.browserSessionUrl } := by
  cases url <;> simp [optional, Json.decodeFields, Json.findField, resultFields, Json.assignString]

theorem decode_plan (plan : Option Json) :
    Json.decodeFields resultFields r (optional "plan" plan) =
      some { r with plan := plan <|> r.plan } := by
  cases plan <;> simp [optional, Json.decodeFields, Json.findField, resultFields, assignRaw]

theorem decode_observation (result : ExecutionResult) (h : r.observation = none) :
    Json.decodeFields resultFields r
        (optional "observation" (result.observation.map (observationJson result.status))) =
      (receivedObservation? result).map fun observation =>
        { r with observation := observation } := by
  unfold receivedObservation?
  cases result.observation with
  | none => simp [optional, Json.decodeFields, ← h]
  | some observation =>
      have hassign : Json.assignPtr observationFields zeroObservation r.observation
          (observationJson result.status observation) =
            (receivedObservation result.status observation).map some := by
        rw [← decode_observationJson, h]
        rfl
      simp [optional, Json.decodeFields, Json.findField, resultFields, hassign]

theorem decode_rest (result : ExecutionResult) :
    Json.decodeFields resultFields r
        [("artifacts", .arr (result.artifacts.map artifactJson)),
         ("autoPromote", .bool (autoPromote result)), ("diagnostics", diagnosticsJson result)] =
      (result.artifacts.mapM receivedArtifact).map fun artifacts =>
        { r with artifacts := artifacts, autoPromote := autoPromote result,
                 diagnostics := some (diagnosticsJson result) } := by
  have hassign : Json.assignSlice artifactFields zeroArtifact
      (.arr (result.artifacts.map artifactJson)) = result.artifacts.mapM receivedArtifact := by
    simp only [Json.assignSlice, List.mapM_map, Function.comp_def, decode_artifactJson]
  cases h : result.artifacts.mapM receivedArtifact <;>
    simp [Json.decodeFields, Json.findField, resultFields, hassign, h, Json.assignBool, assignRaw]

theorem decodeFields_append {α : Type} (fields : List (Json.Field α)) (current : α)
    (front back : List (String × Json)) :
    Json.decodeFields fields current (front ++ back) =
      (Json.decodeFields fields current front).bind fun next =>
        Json.decodeFields fields next back := by
  induction front generalizing current with
  | nil => rfl
  | cons entry rest ih =>
      simp only [List.cons_append, Json.decodeFields, Option.bind_eq_bind, Option.bind_assoc, ih]

/-- The control plane reads the fields of the result, if its observation and its artifacts fit. -/
theorem decode_resultJson (result : ExecutionResult) :
    Json.decodeStruct resultFields (.bare "" "") (resultJson result) =
      (receivedObservation? result).bind fun observation =>
        (result.artifacts.mapM receivedArtifact).map (received result observation) := by
  have hstatus : ∀ (r : Domain.ExecutionResult) (status : String),
      Json.decodeFields resultFields r [("status", .str status)] =
        some { r with status := status } := fun _ _ => rfl
  have hprovider : ∀ (r : Domain.ExecutionResult) (provider : String),
      Json.decodeFields resultFields r [("provider", .str provider)] =
        some { r with provider := provider } := fun _ _ => rfl
  simp only [resultJson, Json.decodeStruct, decodeFields_append, hstatus, hprovider,
    decode_failureFields, decode_sessionUrl, decode_plan, decode_rest, Option.bind_some]
  rw [decode_observation result rfl]
  cases receivedObservation? result with
  | none => rfl
  | some observation =>
      simp only [Domain.ExecutionResult.bare, Option.orElse_eq_orElse, Option.orElse_eq_or,
        Option.or_none, Option.map_some, Option.bind_some]
      rfl

end Decoding

end PriceScout.Worker.Api
