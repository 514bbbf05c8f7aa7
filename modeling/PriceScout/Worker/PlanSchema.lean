import PriceScout.Worker.Api
import PriceScout.Worker.MonitorConditions

/-!
The schema that a worker checks a plan against. A plan that has been stored is read
back as it was written, up to the order of its variant.
-/

namespace PriceScout.Worker.PlanSchema

open PriceScout.Library
open PriceScout.Library.JsonDocuments
open PriceScout.Library.JsonDocuments.Json
open PriceScout.Library.StoredDocuments
open PriceScout.Worker.Api (actionJson strategyJson strategiesJson identityJson stepJson
  extractorsJson planJson recordJson)
open PriceScout.Worker.Contracts
open PriceScout.Worker.Environment
open PriceScout.Worker.MonitorConditions

/-- A property that must be given. -/
def required {α : Type} (schema : Json → Option α) (name : String)
    (fields : List (String × Json)) : Option α :=
  (lastValue name fields).bind schema

/-- `z.string().min(n)` -/
def minLength (n : Nat) (value : Json) : Option String :=
  (text? value).filter fun text => n ≤ JsStrings.length text

/-- `z.string().url()`, which trims. -/
def urlSchema (runtime : Runtime) (value : Json) : Option String :=
  (text? value).bind fun text =>
    if (runtime.parseUrl (JsStrings.trim text)).isSome then some (JsStrings.trim text) else none

def arrayOf {α : Type} (schema : Json → Option α) : Json → Option (List α)
  | .arr items => items.mapM schema
  | _ => none

/-- `z.literal(1)` -/
def literalOne (value : Json) : Option Nat :=
  (positiveInteger value).filter (· = 1)

def literal (text : String) (value : Json) : Option String :=
  (text? value).filter (· = text)

def actionSchema : Json → Option CachedAction
  | .obj fields => do
      let selector ← required (minLength 1) "selector" fields
      let description ← required (minLength 1) "description" fields
      let method ← optional text? (lastValue "method" fields)
      let arguments ← optional (arrayOf text?) (lastValue "arguments" fields)
      return { selector, description, method, arguments }
  | _ => none

/-- `z.string().startsWith("xpath=")` -/
def xpathSchema (value : Json) : Option String :=
  (text? value).filter fun text => JsStrings.startsWith text "xpath="

def jsonLdFieldSchema (value : Json) : Option JsonLdField :=
  (text? value).bind fun text =>
    [.title, .sku, .price, .currency, .availability].find? fun field => field.string = text

def extractionStrategySchema : Json → Option ExtractionStrategy
  | .obj fields => do
      let kind ← required text? "kind" fields
      if kind = "xpathText" then
        let selector ← required xpathSchema "selector" fields
        let attributeName ← optional text? (lastValue "attribute" fields)
        return .xpathText selector attributeName
      else if kind = "inputValue" then
        let selector ← required xpathSchema "selector" fields
        let attributeName ← optional text? (lastValue "attribute" fields)
        return .inputValue selector attributeName
      else if kind = "jsonLd" then
        return .jsonLd (← required jsonLdFieldSchema "field" fields)
      else none
  | _ => none

def strategyList (value : Json) : Option (List ExtractionStrategy) :=
  (arrayOf extractionStrategySchema value).filter fun strategies => 1 ≤ strategies.length

def identitySchema : Json → Option Identity
  | .obj fields => do
      let title ← required (minLength 1) "title" fields
      let brand ← optional text? (lastValue "brand" fields)
      let sku ← optional text? (lastValue "sku" fields)
      let fingerprint ← required (minLength 8) "fingerprint" fields
      let requestedVariant ← required stringRecord "requestedVariant" fields
      return { title, brand, sku, fingerprint, requestedVariant }
  | _ => none

def purposeSchema (value : Json) : Option StepPurpose :=
  (text? value).bind fun text =>
    [.consent, .variant, .expand].find? fun purpose => purpose.string = text

def stepSchema : Json → Option PreparationStep
  | .obj fields => do
      let purpose ← required purposeSchema "purpose" fields
      let instruction ← required (minLength 1) "instruction" fields
      let action ← required actionSchema "action" fields
      return { purpose, instruction, action }
  | _ => none

def extractorsSchema : Json → Option Extractors
  | .obj fields => do
      let title ← required strategyList "title" fields
      let price ← required strategyList "price" fields
      let currency ← optional strategyList (lastValue "currency" fields)
      let availability ← required strategyList "availability" fields
      let selectedVariant ← required (arrayOf extractionStrategySchema) "selectedVariant" fields
      let sku ← optional strategyList (lastValue "sku" fields)
      return { title, price, currency, availability, selectedVariant, sku }
  | _ => none

def monitorPlanV1Schema (runtime : Runtime) : Json → Option MonitorPlanV1
  | .obj fields => do
      let _ ← required literalOne "schemaVersion" fields
      let _ ← required (literal "3.7.0") "stagehandVersion" fields
      let canonicalUrl ← required (urlSchema runtime) "canonicalUrl" fields
      let identity ← required identitySchema "identity" fields
      let preparationSteps ← required (arrayOf stepSchema) "preparationSteps" fields
      let extractors ← required extractorsSchema "extractors" fields
      let expectedCurrency ← required currencySchema "expectedCurrency" fields
      let _ ← required literalOne "validatorVersion" fields
      return { canonicalUrl, identity, preparationSteps, extractors, expectedCurrency }
  | _ => none

/-- A record as an object has it: each key once, and none that a schema leaves out. -/
structure WellKeyed (record : Record) : Prop where
  nodup : (record.map Prod.fst).Nodup
  proto : ∀ entry ∈ record, entry.1 ≠ "__proto__"

def FromXPath : ExtractionStrategy → Prop
  | .xpathText selector _ | .inputValue selector _ => JsStrings.startsWith selector "xpath=" = true
  | .jsonLd _ => True

/-- A list of strategies that the schema takes. -/
structure Listed (strategies : List ExtractionStrategy) : Prop where
  nonempty : 1 ≤ strategies.length
  fromXPath : ∀ strategy ∈ strategies, FromXPath strategy

structure ListedAll (extractors : Extractors) : Prop where
  title : Listed extractors.title
  price : Listed extractors.price
  currency : ∀ strategies ∈ extractors.currency, Listed strategies
  availability : Listed extractors.availability
  selectedVariant : ∀ strategy ∈ extractors.selectedVariant, FromXPath strategy
  sku : ∀ strategies ∈ extractors.sku, Listed strategies

/-- What the schema demands of a plan, the texts of its steps aside. -/
structure Schematic (runtime : Runtime) (plan : MonitorPlanV1) : Prop where
  url : JsStrings.trim plan.canonicalUrl = plan.canonicalUrl ∧
    (runtime.parseUrl plan.canonicalUrl).isSome = true
  titled : 1 ≤ JsStrings.length plan.identity.title
  fingerprint : 8 ≤ JsStrings.length plan.identity.fingerprint
  variant : WellKeyed plan.identity.requestedVariant
  selectors : ∀ step ∈ plan.preparationSteps, 1 ≤ JsStrings.length step.action.selector
  extractors : ListedAll plan.extractors

/-- Every step of the plan says what it does. -/
def Described (plan : MonitorPlanV1) : Prop :=
  ∀ step ∈ plan.preparationSteps,
    1 ≤ JsStrings.length step.instruction ∧ 1 ≤ JsStrings.length step.action.description

/-- The plan as it is read back, with its variant in the order of the keys. -/
def kept (plan : MonitorPlanV1) : MonitorPlanV1 :=
  { plan with
    identity := { plan.identity with
      requestedVariant := entries plan.identity.requestedVariant } }

section Reading

variable {runtime : Runtime}

theorem storedItems_eq (items : List Json) : storedItems items = items.map stored := by
  induction items with
  | nil => rfl
  | cons item rest ih => rw [storedItems, ih, List.map_cons]

theorem lastValue_optional (key name : String) (value : Option Json) :
    lastValue key (Api.optional name value) = if name = key then value else none := by
  cases value with
  | none => simp [Api.optional, lastValue]
  | some value => simp [Api.optional, lastValue_cons, lastValue_eq_none_iff.mpr]

/-- Items that are read back one by one are read back together. -/
theorem arrayOf_stored {α : Type} {schema : Json → Option α} {json : α → Json} {items : List α}
    (h : ∀ item ∈ items, schema (stored (json item)) = some item) :
    arrayOf schema (stored (.arr (items.map json))) = some items := by
  rw [stored, storedItems_eq, arrayOf]
  induction items with
  | nil => rfl
  | cons item rest ih =>
      have hrest := ih fun item hitem => h item (List.mem_cons_of_mem _ hitem)
      rw [List.map_cons, List.map_cons, List.mapM_cons, h item List.mem_cons_self, hrest]
      rfl

theorem read_texts (texts : List String) :
    arrayOf text? (stored (.arr (texts.map .str))) = some texts :=
  arrayOf_stored fun _ _ => rfl

theorem stored_obj (fields : List (String × Json)) :
    stored (.obj fields) = .obj (storedFields fields) :=
  rfl

theorem lastValue_nil (key : String) : lastValue key ([] : List (String × Json)) = none :=
  rfl

theorem stored_str (text : String) : stored (.str text) = .str text :=
  rfl

theorem required_storedFields {α : Type} (schema : Json → Option α) (name : String)
    (fields : List (String × Json)) :
    required schema name (storedFields fields) =
      (lastValue name fields).bind fun value => schema (stored value) := by
  rw [required, lastValue_storedFields]
  cases lastValue name fields <;> rfl

theorem minLength_str {n : Nat} {text : String} (h : n ≤ JsStrings.length text) :
    minLength n (.str text) = some text := by
  simp [minLength, text?, Option.filter, h]

/-- A property that is left out is not read, and one that is given is read. -/
theorem read_optional {α : Type} {schema : Json → Option α} {json : α → Json} {value : Option α}
    (h : ∀ a ∈ value, schema (stored (json a)) = some a) :
    MonitorConditions.optional schema (value.map (stored ∘ json)) = some value := by
  cases value with
  | none => rfl
  | some a => simp [MonitorConditions.optional, h a rfl]

theorem read_action {action : CachedAction} (hselector : 1 ≤ JsStrings.length action.selector)
    (hdescription : 1 ≤ JsStrings.length action.description) :
    actionSchema (stored (actionJson action)) = some action := by
  obtain ⟨selector, description, method, arguments⟩ := action
  have hmethod : MonitorConditions.optional text? (method.map (stored ∘ .str)) = some method :=
    read_optional fun _ _ => rfl
  have harguments : MonitorConditions.optional (arrayOf text?)
      (arguments.map (stored ∘ fun texts => .arr (texts.map .str))) = some arguments :=
    read_optional fun texts _ => read_texts texts
  rw [actionJson, stored_obj, actionSchema]
  simp [required_storedFields, lastValue_storedFields, lastValue_append, lastValue_cons,
    stored_str, lastValue_optional, minLength_str hselector, minLength_str hdescription, hmethod,
    harguments]

theorem read_step {step : PreparationStep} (hselector : 1 ≤ JsStrings.length step.action.selector)
    (hinstruction : 1 ≤ JsStrings.length step.instruction)
    (hdescription : 1 ≤ JsStrings.length step.action.description) :
    stepSchema (stored (stepJson step)) = some step := by
  have haction := read_action hselector hdescription
  have hpurpose : purposeSchema (.str step.purpose.string) = some step.purpose := by
    cases step.purpose <;> decide
  rw [stepJson, stored_obj, stepSchema]
  simp [required_storedFields, lastValue_cons, lastValue_nil, stored_str,
    minLength_str hinstruction, haction, hpurpose]

theorem read_xpath {selector : String} (h : JsStrings.startsWith selector "xpath=" = true) :
    xpathSchema (.str selector) = some selector := by
  simp [xpathSchema, text?, Option.filter, h]

theorem read_strategy {strategy : ExtractionStrategy} (h : FromXPath strategy) :
    extractionStrategySchema (stored (strategyJson strategy)) = some strategy := by
  have hattribute : ∀ name : Option String,
      MonitorConditions.optional text? (name.map (stored ∘ .str)) = some name :=
    fun _ => read_optional fun _ _ => rfl
  cases strategy with
  | xpathText selector attributeName =>
      rw [strategyJson, stored_obj, extractionStrategySchema]
      simp [required_storedFields, lastValue_storedFields, lastValue_cons, stored_str,
        lastValue_optional, read_xpath h, hattribute, text?]
  | inputValue selector attributeName =>
      rw [strategyJson, stored_obj, extractionStrategySchema]
      simp [required_storedFields, lastValue_storedFields, lastValue_cons, stored_str,
        lastValue_optional, read_xpath h, hattribute, text?]
  | jsonLd field => cases field <;> decide

theorem read_strategies {strategies : List ExtractionStrategy} (h : Listed strategies) :
    strategyList (stored (strategiesJson strategies)) = some strategies := by
  rw [strategyList, strategiesJson, arrayOf_stored fun strategy hstrategy =>
    read_strategy (h.fromXPath strategy hstrategy)]
  simp [Option.filter, h.nonempty]

theorem read_record {record : Record} (h : WellKeyed record) :
    stringRecord (stored (recordJson record)) = some (entries record) := by
  have hfields : stored (recordJson record) =
      .obj ((entries record).map fun entry => (entry.1, .str entry.2)) := by
    rw [recordJson, stored_obj, storedFields_eq, List.map_map, map_entries]
    rfl
  have hkeys : ((entries record).map fun entry => (entry.1, Json.str entry.2)).filter
      (fun field => field.1 ≠ "__proto__") =
        (entries record).map fun entry => (entry.1, Json.str entry.2) := by
    refine List.filter_eq_self.mpr fun field hfield => ?_
    obtain ⟨entry, hentry, rfl⟩ := List.mem_map.mp hfield
    simpa using h.proto entry (mem_entries hentry)
  rw [hfields, stringRecord, hkeys]
  induction entries record with
  | nil => rfl
  | cons entry rest ih => 
      rw [List.map_cons, List.mapM_cons, ih]
      rfl

theorem read_identity {identity : Identity} (htitle : 1 ≤ JsStrings.length identity.title)
    (hfingerprint : 8 ≤ JsStrings.length identity.fingerprint)
    (hvariant : WellKeyed identity.requestedVariant) :
    identitySchema (stored (identityJson identity)) =
      some { identity with requestedVariant := entries identity.requestedVariant } := by
  have htext : ∀ text : Option String,
      MonitorConditions.optional text? (text.map (stored ∘ .str)) = some text :=
    fun _ => read_optional fun _ _ => rfl
  have hrecord := read_record hvariant
  rw [identityJson, stored_obj, identitySchema]
  simp [required_storedFields, lastValue_storedFields, lastValue_append, lastValue_cons,
    lastValue_nil, stored_str, lastValue_optional, minLength_str htitle,
    minLength_str hfingerprint, htext, hrecord]

theorem read_extractors {extractors : Extractors} (h : ListedAll extractors) :
    extractorsSchema (stored (extractorsJson extractors)) = some extractors := by
  have hcurrency := read_optional fun l hl => read_strategies (h.currency l hl)
  have hsku := read_optional fun l hl => read_strategies (h.sku l hl)
  have hvariant : arrayOf extractionStrategySchema
      (stored (strategiesJson extractors.selectedVariant)) = some extractors.selectedVariant :=
    arrayOf_stored fun strategy hstrategy => read_strategy (h.selectedVariant strategy hstrategy)
  rw [extractorsJson, stored_obj, extractorsSchema]
  simp [required_storedFields, lastValue_storedFields, lastValue_append, lastValue_cons,
    lastValue_optional, read_strategies h.title, read_strategies h.price,
    read_strategies h.availability, hvariant, hcurrency, hsku]

theorem read_currency (currency : SupportedCurrency) :
    currencySchema (.str currency.code) = some currency := by
  cases currency <;> rfl

theorem literalOne_int : literalOne (stored (.int 1)) = some 1 := by
  have hone : positiveInteger (stored (.int 1)) = some 1 := by
    rw [positiveInteger_stored]
    exact positiveInteger_int.mpr (by decide)
  rw [literalOne, hone]
  rfl

theorem read_url {text : String} (h : JsStrings.trim text = text ∧
    (runtime.parseUrl text).isSome = true) : urlSchema runtime (.str text) = some text := by
  simp [urlSchema, text?, h.1, h.2]

/-- A stored plan is read back as it was written. -/
theorem read_plan {plan : MonitorPlanV1} (h : Schematic runtime plan) (hsteps : Described plan) :
    monitorPlanV1Schema runtime (stored (planJson plan)) = some (kept plan) := by
  have hidentity := read_identity h.titled h.fingerprint h.variant
  have hpreparation := arrayOf_stored fun step hstep =>
    read_step (h.selectors step hstep) (hsteps step hstep).1 (hsteps step hstep).2
  have hextractors := read_extractors h.extractors
  have hversion : literal "3.7.0" (.str "3.7.0") = some "3.7.0" := by decide
  rw [planJson, stored_obj, monitorPlanV1Schema]
  simp [required_storedFields, lastValue_cons, lastValue_nil, stored_str, literalOne_int, hversion,
    read_url h.url, hidentity, hpreparation, hextractors, read_currency, kept]

end Reading

section Shapes

variable {runtime : Runtime} {document : Json}

theorem exists_of_required {α : Type} {schema : Json → Option α} {name : String}
    {fields : List (String × Json)} {a : α} (h : required schema name fields = some a) :
    ∃ value, lastValue name fields = some value ∧ schema value = some a :=
  Option.bind_eq_some_iff.mp h

theorem exists_of_optional {α : Type} {schema : Json → Option α} {value : Option Json} {a : α}
    (h : MonitorConditions.optional schema value = some (some a)) :
    ∃ given, value = some given ∧ schema given = some a := by
  cases value with
  | none => cases h
  | some given =>
      obtain ⟨b, hb, heq⟩ := Option.map_eq_some_iff.mp h
      obtain rfl := Option.some.inj heq
      exact ⟨given, rfl, hb⟩

theorem of_minLength {n : Nat} {text : String} (h : minLength n document = some text) :
    n ≤ JsStrings.length text := by
  simpa using (Option.filter_eq_some_iff.mp h).2

theorem forall_of_arrayOf {α : Type} {schema : Json → Option α} {P : α → Prop} {items : List α}
    (h : arrayOf schema document = some items)
    (hschema : ∀ value a, schema value = some a → P a) : ∀ a ∈ items, P a := by
  unfold arrayOf at h
  split at h
  · intro a ha
    obtain ⟨value, -, hvalue⟩ := (Json.exists_of_mapM h).2 a ha
    exact hschema value a hvalue
  · cases h

theorem startsWith_of_xpathSchema {selector : String} (h : xpathSchema document = some selector) :
    JsStrings.startsWith selector "xpath=" = true := by
  simpa using (Option.filter_eq_some_iff.mp h).2

theorem fromXPath_of_read {strategy : ExtractionStrategy}
    (h : extractionStrategySchema document = some strategy) : FromXPath strategy := by
  unfold extractionStrategySchema at h
  split at h
  · simp only [Option.bind_eq_bind, Option.bind_eq_some_iff, Option.pure_def] at h
    obtain ⟨kind, -, h⟩ := h
    split_ifs at h
    · simp only [Option.bind_eq_some_iff] at h
      obtain ⟨selector, hselector, attributeName, -, heq⟩ := h
      obtain rfl := Option.some.inj heq
      obtain ⟨value, -, hvalue⟩ := exists_of_required hselector
      exact startsWith_of_xpathSchema hvalue
    · simp only [Option.bind_eq_some_iff] at h
      obtain ⟨selector, hselector, attributeName, -, heq⟩ := h
      obtain rfl := Option.some.inj heq
      obtain ⟨value, -, hvalue⟩ := exists_of_required hselector
      exact startsWith_of_xpathSchema hvalue
    · simp only [Option.bind_eq_some_iff] at h
      obtain ⟨field, -, heq⟩ := h
      obtain rfl := Option.some.inj heq
      trivial
  · cases h

theorem listed_of_read {strategies : List ExtractionStrategy}
    (h : strategyList document = some strategies) : Listed strategies := by
  obtain ⟨harray, hlength⟩ := Option.filter_eq_some_iff.mp h
  exact ⟨by simpa using hlength, forall_of_arrayOf harray fun _ _ => fromXPath_of_read⟩

theorem action_of_read {action : CachedAction} (h : actionSchema document = some action) :
    1 ≤ JsStrings.length action.selector ∧ 1 ≤ JsStrings.length action.description := by
  unfold actionSchema at h
  split at h
  · simp only [Option.bind_eq_bind, Option.bind_eq_some_iff, Option.pure_def] at h
    obtain ⟨selector, hselector, description, hdescription, method, -, arguments, -, heq⟩ := h
    obtain rfl := Option.some.inj heq
    obtain ⟨_, -, hselector⟩ := exists_of_required hselector
    obtain ⟨_, -, hdescription⟩ := exists_of_required hdescription
    exact ⟨of_minLength hselector, of_minLength hdescription⟩
  · cases h

theorem step_of_read {step : PreparationStep} (h : stepSchema document = some step) :
    1 ≤ JsStrings.length step.action.selector ∧ 1 ≤ JsStrings.length step.instruction ∧
      1 ≤ JsStrings.length step.action.description := by
  unfold stepSchema at h
  split at h
  · simp only [Option.bind_eq_bind, Option.bind_eq_some_iff, Option.pure_def] at h
    obtain ⟨purpose, -, instruction, hinstruction, action, haction, heq⟩ := h
    obtain rfl := Option.some.inj heq
    obtain ⟨_, -, hinstruction⟩ := exists_of_required hinstruction
    obtain ⟨_, -, haction⟩ := exists_of_required haction
    obtain ⟨hselector, hdescription⟩ := action_of_read haction
    exact ⟨hselector, of_minLength hinstruction, hdescription⟩
  · cases h

theorem keys_of_mapM {fields : List (String × Json)} {record : Record}
    (h : (fields.mapM fun field => (text? field.2).map (field.1, ·)) = some record) :
    record.map Prod.fst = fields.map Prod.fst := by
  induction fields generalizing record with
  | nil =>
      obtain rfl : record = [] := by simpa [eq_comm] using h
      rfl
  | cons field rest ih =>
      simp only [List.mapM_cons, Option.bind_eq_bind, Option.bind_eq_some_iff,
        Option.pure_def] at h
      obtain ⟨entry, hentry, others, hothers, heq⟩ := h
      obtain rfl := Option.some.inj heq
      obtain ⟨text, -, rfl⟩ := Option.map_eq_some_iff.mp hentry
      rw [List.map_cons, List.map_cons, ih hothers]

theorem exists_of_stored_eq_obj {fields' : List (String × Json)}
    (h : stored document = .obj fields') : ∃ fields, fields' = storedFields fields := by
  cases document with
  | obj fields => exact ⟨fields, (Json.obj.inj h).symm⟩
  | num unscaled scale exponent =>
      rw [stored] at h
      unfold numeric at h
      split at h
      · cases h
      · split at h <;> cases h
  | null | bool _ | str _ | arr _ => cases h

theorem nodup_keys_of_ordered {α : Type} {l : List (String × α)} (h : Ordered l) :
    (l.map Prod.fst).Nodup := by
  refine List.pairwise_map.mpr (h.imp fun hbefore hsame => ?_)
  rw [hsame] at hbefore
  exact keyBefore_irrefl _ hbefore

/-- A stored record has each of its keys once. -/
theorem wellKeyed_of_read {record : Record} (h : stringRecord (stored document) = some record) :
    WellKeyed record := by
  unfold stringRecord at h
  split at h
  · rename_i fields' hobject
    obtain ⟨fields, rfl⟩ := exists_of_stored_eq_obj hobject
    have hordered : Ordered ((storedFields fields).filter fun field => field.1 ≠ "__proto__") :=
      List.Pairwise.filter _ (ordered_storedFields fields)
    have hkeys := keys_of_mapM h
    constructor
    · rw [hkeys]
      exact nodup_keys_of_ordered hordered
    · intro entry hentry
      have hkey : entry.1 ∈ record.map Prod.fst := List.mem_map_of_mem hentry
      rw [hkeys] at hkey
      obtain ⟨field, hfield, hsame⟩ := List.mem_map.mp hkey
      rw [← hsame]
      simpa using (List.mem_filter.mp hfield).2
  · cases h

theorem identity_of_read {identity : Identity}
    (h : identitySchema (stored document) = some identity) :
    1 ≤ JsStrings.length identity.title ∧ 8 ≤ JsStrings.length identity.fingerprint ∧
      WellKeyed identity.requestedVariant := by
  unfold identitySchema at h
  split at h
  · rename_i fields' hobject
    obtain ⟨fields, rfl⟩ := exists_of_stored_eq_obj hobject
    simp only [Option.bind_eq_bind, Option.bind_eq_some_iff, Option.pure_def] at h
    obtain ⟨title, htitle, brand, -, sku, -, fingerprint, hfingerprint, variant, hvariant, heq⟩ := h
    obtain rfl := Option.some.inj heq
    obtain ⟨_, -, htitle⟩ := exists_of_required htitle
    obtain ⟨_, -, hfingerprint⟩ := exists_of_required hfingerprint
    rw [required_storedFields] at hvariant
    obtain ⟨value, -, hvariant⟩ := Option.bind_eq_some_iff.mp hvariant
    exact ⟨of_minLength htitle, of_minLength hfingerprint, wellKeyed_of_read hvariant⟩
  · cases h

theorem extractors_of_read {extractors : Extractors}
    (h : extractorsSchema document = some extractors) : ListedAll extractors := by
  unfold extractorsSchema at h
  split at h
  · simp only [Option.bind_eq_bind, Option.bind_eq_some_iff, Option.pure_def] at h
    obtain ⟨title, htitle, price, hprice, currency, hcurrency, availability, havailability,
      selectedVariant, hvariant, sku, hsku, heq⟩ := h
    obtain rfl := Option.some.inj heq
    obtain ⟨_, -, htitle⟩ := exists_of_required htitle
    obtain ⟨_, -, hprice⟩ := exists_of_required hprice
    obtain ⟨_, -, havailability⟩ := exists_of_required havailability
    obtain ⟨_, -, hvariant⟩ := exists_of_required hvariant
    refine ⟨listed_of_read htitle, listed_of_read hprice, ?_, listed_of_read havailability,
      forall_of_arrayOf hvariant fun _ _ => fromXPath_of_read, ?_⟩
    · rintro strategies rfl
      obtain ⟨_, -, hread⟩ := exists_of_optional hcurrency
      exact listed_of_read hread
    · rintro strategies rfl
      obtain ⟨_, -, hread⟩ := exists_of_optional hsku
      exact listed_of_read hread
  · cases h

theorem url_of_read {text : String} (h : urlSchema runtime document = some text) :
    JsStrings.trim text = text ∧ (runtime.parseUrl text).isSome = true := by
  obtain ⟨given, -, h⟩ := Option.bind_eq_some_iff.mp h
  split at h
  · rename_i hparsed
    obtain rfl := Option.some.inj h
    exact ⟨JsStrings.trim_trim given, hparsed⟩
  · cases h

/-- What a worker has read as a plan is one that the schema takes. -/
theorem schematic_of_read {plan : MonitorPlanV1}
    (h : monitorPlanV1Schema runtime (stored document) = some plan) :
    Schematic runtime plan ∧ Described plan := by
  unfold monitorPlanV1Schema at h
  split at h
  · rename_i fields' hobject
    obtain ⟨fields, rfl⟩ := exists_of_stored_eq_obj hobject
    simp only [Option.bind_eq_bind, Option.bind_eq_some_iff, Option.pure_def] at h
    obtain ⟨_, -, _, -, canonicalUrl, hurl, identity, hidentity, steps, hsteps, extractors,
      hextractors, expected, -, _, -, heq⟩ := h
    obtain rfl := Option.some.inj heq
    obtain ⟨_, -, hurl⟩ := exists_of_required hurl
    rw [required_storedFields] at hidentity
    obtain ⟨_, -, hidentity⟩ := Option.bind_eq_some_iff.mp hidentity
    obtain ⟨_, -, hsteps⟩ := exists_of_required hsteps
    obtain ⟨_, -, hextractors⟩ := exists_of_required hextractors
    obtain ⟨htitled, hfingerprint, hvariant⟩ := identity_of_read hidentity
    have hsteps := forall_of_arrayOf hsteps fun _ _ => step_of_read
    have hlisted := extractors_of_read hextractors
    exact ⟨⟨url_of_read hurl, htitled, hfingerprint, hvariant,
      fun step hstep => (hsteps step hstep).1, hlisted⟩, fun step hstep => (hsteps step hstep).2⟩
  · cases h

/-- A plan that the schema takes is read back from the store exactly when its steps are
described. -/
theorem read_plan_iff {plan : MonitorPlanV1} (h : Schematic runtime plan) :
    monitorPlanV1Schema runtime (stored (planJson plan)) = some (kept plan) ↔ Described plan :=
  ⟨fun hread => (schematic_of_read hread).2, read_plan h⟩

end Shapes

end PriceScout.Worker.PlanSchema
