import PriceScout.Library.Attempts
import PriceScout.Worker.Contracts

/-!
What the worker runs on: the errors it throws, the functions of the JavaScript
runtime that rest on large tables, and the browser, the model and the file
system, which answer as they like and may change with every question.
-/

namespace PriceScout.Worker.Environment

open PriceScout.Library.Attempts
open PriceScout.Library.JsonDocuments
open PriceScout.Worker.Contracts

/-- Why an observation needs a review. -/
inductive ReviewReason where
  | identityDrift
  | ambiguousValue
deriving DecidableEq

inductive JsError where
  | error (message : String)
  | safetyError (message : String)
  | staleActionError (message : String)
  | validationError (message : String) (reason : ReviewReason)
deriving DecidableEq

def JsError.message : JsError → String
  | .error message | .safetyError message | .staleActionError message
  | .validationError message _ => message

/-- A parsed URL; `href` is the part before the fragment. -/
structure Url where
  protocol : String
  username : String
  password : String
  hostname : String
  port : String
  origin : String
  href : String
deriving DecidableEq

/-- The functions of the runtime that are given: the Unicode tables, the URL
and JSON parsers, the hash of a text and the words of its own errors. -/
structure Runtime where
  toLowerCase : String → String
  toUpperCase : String → String
  nfkc : String → String
  sha256 : String → String
  parseUrl : String → Option Url
  invalidUrl : String → String
  parseJson : String → Option Json
  unsupportedCurrency : String → String
  isIP : String → Bool
  resolvePath : List String → String

/-- The browser of the job, and the one that validates a repair. -/
inductive Session where
  | main
  | validator
deriving DecidableEq

structure Snapshot where
  formattedTree : String
  xpathMap : Record

/-- What Stagehand reports of an action. -/
structure ActResult where
  success : Bool
  message : String
  actions : List CachedAction

/-- What Stagehand reads off a product page. -/
structure SemanticProduct where
  title : String
  currentPriceText : String
  currency : String
  availability : String
  sku : Option String

/-- What the model takes an intent to ask for. -/
structure IntentRule where
  requestedVariant : Record
  currency : Option SupportedCurrency

/-- The nodes that the model picks from a snapshot. -/
structure NodeSelection where
  titleNodeId : String
  currentPriceNodeId : String
  availabilityNodeId : String
  currencyNodeId : Option String
  skuNodeId : Option String
  variantNodeIds : Record

/-- A file, by its size and its digest. -/
structure Buffer where
  byteLength : Nat
  sha256 : String

/-- Everything outside of the worker. -/
structure Outside (W : Type) where
  aborted : W → Option JsError × W
  now : W → Nat × W
  lookup : String → Attempt JsError W (List String)
  init : Session → String → Attempt JsError W Unit
  goto : Session → String → Attempt JsError W Unit
  url : Session → W → String × W
  count : Session → String → Attempt JsError W Nat
  innerText : Session → String → Attempt JsError W String
  innerHtml : Session → String → Attempt JsError W String
  inputValue : Session → String → Attempt JsError W String
  jsonLdCount : Session → Attempt JsError W Nat
  jsonLdText : Session → Nat → Attempt JsError W String
  stagehandAct : Session → CachedAction → Attempt JsError W ActResult
  stagehandObserve : String → Attempt JsError W (List CachedAction)
  stagehandExtract : Attempt JsError W SemanticProduct
  stagehandMetric : String → W → Option Nat × W
  sessionId : W → Option String × W
  generateIntent : String → Attempt JsError W IntentRule
  generateNodes : String → Record → Attempt JsError W NodeSelection
  snapshot : Attempt JsError W Snapshot
  screenshot : Attempt JsError W Buffer
  mkdir : String → Attempt JsError W Unit
  writeFile : String → Buffer → Attempt JsError W Unit

structure WorkerConfig where
  fixtureOrigin : String
  artifactDir : String
  browserProvider : BrowserProvider
  modelName : String
  modelApiKey : Option String
  allowedPrivateHosts : List String

/-- A text that counts as given: an empty one does not. -/
def given (text : Option String) : Option String :=
  text.filter (· ≠ "")

/-- Let the result of a check decide how to go on. -/
def check {W α : Type} : Except JsError α → Attempt JsError W α
  | .ok a => pure a
  | .error e => throw e

@[simp] theorem returns_check {W α : Type} {x : Except JsError α} {a : α} {w w' : W} :
    Returns (check x) w a w' ↔ x = .ok a ∧ w = w' := by
  cases x <;> simp [check]

/-- The runtime as it is for texts of ASCII characters, and for the URLs and the
texts to hash that are listed. -/
def asciiRuntime (urls : List (String × Url)) (hashes : List (String × String)) : Runtime where
  toLowerCase := fun text => String.ofList (text.toList.map Char.toLower)
  toUpperCase := fun text => String.ofList (text.toList.map Char.toUpper)
  nfkc := id
  sha256 := fun text => ((hashes.find? fun entry => entry.1 = text).map (·.2)).getD ""
  parseUrl := fun text => (urls.find? fun entry => entry.1 = text).map (·.2)
  invalidUrl := fun _ => "Invalid URL"
  parseJson := fun _ => none
  unsupportedCurrency := fun _ => "Invalid option"
  isIP := fun _ => false
  resolvePath := fun parts => "/".intercalate parts

/-- An outside that stays as it is: one page without JSON-LD in every browser,
and what Stagehand and the model make of it. -/
structure StillPage where
  address : String
  url : String
  texts : Record
  snapshot : Snapshot
  semantic : SemanticProduct
  intent : IntentRule
  nodes : NodeSelection
  screenshot : Buffer

def StillPage.read (page : StillPage) (selector : String) : Attempt JsError Unit String :=
  match page.texts.get selector with
  | some text => pure text
  | none => throw (.error ("stale selector: " ++ selector))

def StillPage.outside (page : StillPage) : Outside Unit where
  aborted := fun w => (none, w)
  now := fun w => (0, w)
  lookup := fun _ => pure [page.address]
  init := fun _ _ => pure ()
  goto := fun _ _ => pure ()
  url := fun _ w => (page.url, w)
  count := fun _ selector => pure (if (page.texts.get selector).isSome then 1 else 0)
  innerText := fun _ => page.read
  innerHtml := fun _ => page.read
  inputValue := fun _ => page.read
  jsonLdCount := fun _ => pure 0
  jsonLdText := fun _ _ => pure ""
  stagehandAct := fun _ action => pure { success := true, message := "", actions := [action] }
  stagehandObserve := fun _ => pure []
  stagehandExtract := pure page.semantic
  stagehandMetric := fun _ w => (none, w)
  sessionId := fun w => (none, w)
  generateIntent := fun _ => pure page.intent
  generateNodes := fun _ _ => pure page.nodes
  snapshot := pure page.snapshot
  screenshot := pure page.screenshot
  mkdir := fun _ => pure ()
  writeFile := fun _ _ => pure ()

end PriceScout.Worker.Environment
