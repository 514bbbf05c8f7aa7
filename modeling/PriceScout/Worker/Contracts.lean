import PriceScout.Domain
import PriceScout.Library.JsStrings
import PriceScout.Library.Numbers

/-!
The messages, plans, observations and results that a worker exchanges with the
control plane, and the schemas that it checks its inputs against.
-/

namespace PriceScout.Worker.Contracts

open PriceScout.Domain (UUID ExecutionKind WorkMessage)
open PriceScout.Library
open PriceScout.Library.Numbers

/-- A `Record<string, string>`: its entries in the order of their insertion. -/
abbrev Record := List (String × String)

namespace Record

def get (record : Record) (key : String) : Option String :=
  (record.find? fun entry => entry.1 = key).map (·.2)

/-- `record[key] = value`. -/
def set (key value : String) : Record → Record
  | [] => [(key, value)]
  | entry :: rest => if entry.1 = key then (key, value) :: rest else entry :: set key value rest

/-- Two records with the same value under every key. -/
def Same (a b : Record) : Prop :=
  ∀ key, a.get key = b.get key

end Record

inductive SupportedCurrency where
  | usd
  | cad
  | eur
  | gbp
  | aud
deriving DecidableEq, Repr

def SupportedCurrency.code : SupportedCurrency → String
  | .usd => "USD"
  | .cad => "CAD"
  | .eur => "EUR"
  | .gbp => "GBP"
  | .aud => "AUD"

def supportedCurrencySchema : String → Option SupportedCurrency
  | "USD" => some .usd
  | "CAD" => some .cad
  | "EUR" => some .eur
  | "GBP" => some .gbp
  | "AUD" => some .aud
  | _ => none

/-- An action that Stagehand can replay. -/
structure CachedAction where
  selector : String
  description : String
  method : Option String
  arguments : Option (List String)
deriving DecidableEq

inductive JsonLdField where
  | title
  | sku
  | price
  | currency
  | availability
deriving DecidableEq

def JsonLdField.string : JsonLdField → String
  | .title => "title"
  | .sku => "sku"
  | .price => "price"
  | .currency => "currency"
  | .availability => "availability"

inductive ExtractionStrategy where
  | xpathText (selector : String) (attributeName : Option String)
  | inputValue (selector : String) (attributeName : Option String)
  | jsonLd (field : JsonLdField)
deriving DecidableEq

def ExtractionStrategy.attributeName : ExtractionStrategy → Option String
  | .xpathText _ name => name
  | .inputValue _ name => name
  | .jsonLd _ => none

structure Identity where
  title : String
  brand : Option String
  sku : Option String
  fingerprint : String
  requestedVariant : Record
deriving DecidableEq

inductive StepPurpose where
  | consent
  | variant
  | expand
deriving DecidableEq

def StepPurpose.string : StepPurpose → String
  | .consent => "consent"
  | .variant => "variant"
  | .expand => "expand"

structure PreparationStep where
  purpose : StepPurpose
  instruction : String
  action : CachedAction
deriving DecidableEq

structure Extractors where
  title : List ExtractionStrategy
  price : List ExtractionStrategy
  currency : Option (List ExtractionStrategy)
  availability : List ExtractionStrategy
  selectedVariant : List ExtractionStrategy
  sku : Option (List ExtractionStrategy)
deriving DecidableEq

/-- A plan, less the versions, which are literals of its schema. -/
structure MonitorPlanV1 where
  canonicalUrl : String
  identity : Identity
  preparationSteps : List PreparationStep
  extractors : Extractors
  expectedCurrency : SupportedCurrency
deriving DecidableEq

structure MonitorCondition where
  maxPriceMinor : Option Nat
  priceBelowMinor : Option Nat
  currency : Option SupportedCurrency
  requireInStock : Bool
  requestedVariant : Record

inductive CompilerMode where
  | auto
  | scripted
  | live
deriving DecidableEq

structure InputExecution where
  id : UUID
  kind : ExecutionKind

structure InputMonitor where
  id : UUID
  url : String
  intent : String
  condition : Option MonitorCondition

structure InputRevision where
  generation : Nat
  plan : MonitorPlanV1

/-- What a worker executes. -/
structure ExecutionInput where
  execution : InputExecution
  monitor : InputMonitor
  revision : Option InputRevision
  compilerMode : CompilerMode

structure Observation where
  title : String
  sku : Option String
  priceMinor : Number
  currency : SupportedCurrency
  inStock : Bool
  availabilityRaw : String
  selectedVariant : Record
  rawPrice : String
  identityFingerprint : String

inductive ArtifactKind where
  | screenshot
  | snapshot
deriving DecidableEq

structure ArtifactRef where
  kind : ArtifactKind
  storageKey : String
  sizeBytes : Nat
  sha256 : String

def ArtifactKind.string : ArtifactKind → String
  | .screenshot => "screenshot"
  | .snapshot => "snapshot"

def ArtifactKind.contentType : ArtifactKind → String
  | .screenshot => "image/png"
  | .snapshot => "text/plain"

inductive FailureClassification where
  | transientInfrastructure
  | blocked
  | rateLimited
  | staleAction
  | staleExtractor
  | identityDrift
  | ambiguousValue
  | invalidInput
deriving DecidableEq

def FailureClassification.string : FailureClassification → String
  | .transientInfrastructure => "transient_infrastructure"
  | .blocked => "blocked"
  | .rateLimited => "rate_limited"
  | .staleAction => "stale_action"
  | .staleExtractor => "stale_extractor"
  | .identityDrift => "identity_drift"
  | .ambiguousValue => "ambiguous_value"
  | .invalidInput => "invalid_input"

inductive ResultStatus where
  | succeeded
  | failed
  | needsReview
deriving DecidableEq

def ResultStatus.string : ResultStatus → String
  | .succeeded => "succeeded"
  | .failed => "failed"
  | .needsReview => "needs_review"

inductive BrowserProvider where
  | localBrowser
  | browserbase
deriving DecidableEq

/-- The provider in lower case. -/
def BrowserProvider.string : BrowserProvider → String
  | .localBrowser => "local"
  | .browserbase => "browserbase"

inductive CacheStatus where
  | hit
  | miss
deriving DecidableEq

def CacheStatus.string : CacheStatus → String
  | .hit => "HIT"
  | .miss => "MISS"

/-- The compiler that a plan comes from. -/
inductive PlanSource where
  | scripted
  | stagehand
deriving DecidableEq

def PlanSource.string : PlanSource → String
  | .scripted => "scripted"
  | .stagehand => "stagehand"

structure Failure where
  classification : FailureClassification
  message : String

structure ExecutionResult where
  status : ResultStatus
  kind : ExecutionKind
  executionId : UUID
  monitorId : UUID
  generation : Option Nat
  candidatePlan : Option MonitorPlanV1
  observation : Option Observation
  artifacts : List ArtifactRef
  modelCallCount : Nat
  browserProvider : BrowserProvider
  browserbaseSessionId : Option String
  cacheStatus : Option CacheStatus
  repairSource : Option PlanSource
  requiresConfirmation : Option Bool
  failure : Option Failure
  timingsMs : List (String × Nat)

/-- A work message as the worker reads it. -/
structure QueueJob where
  executionId : UUID
  traceparent : Option String
deriving DecidableEq

/-- `queueJobSchema` on the message that the outbox writes, which leaves an
empty trace context out. -/
def queueJobSchema (message : WorkMessage) : Option QueueJob :=
  if JsStrings.length message.executionId.string < 1 then none
  else if message.traceparent = "" then
    some { executionId := message.executionId, traceparent := none }
  else if JsStrings.length message.traceparent > 512 then none
  else some { executionId := message.executionId, traceparent := some message.traceparent }

theorem length_uuid_pos (id : UUID) : 1 ≤ JsStrings.length id.string := by
  refine JsStrings.length_pos_of_mem (c := '-') ?_
  simp [UUID.string]

/-- Of the messages of the outbox only those with a long trace context are refused. -/
theorem queueJobSchema_isSome_iff {message : WorkMessage} :
    (queueJobSchema message).isSome ↔ JsStrings.length message.traceparent ≤ 512 := by
  have hid := length_uuid_pos message.executionId
  unfold queueJobSchema
  rw [if_neg (by omega)]
  split
  · rename_i hempty
    simp [hempty, JsStrings.length]
  · split
    · simp
      omega
    · simp
      omega

theorem executionId_of_queueJobSchema {message : WorkMessage} {job : QueueJob}
    (h : queueJobSchema message = some job) : job.executionId = message.executionId := by
  unfold queueJobSchema at h
  split at h
  · cases h
  · split at h
    · cases h
      rfl
    · split at h
      · cases h
      · cases h
        rfl

end PriceScout.Worker.Contracts
