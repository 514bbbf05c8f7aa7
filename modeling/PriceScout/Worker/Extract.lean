import PriceScout.Worker.Validation

/-!
Reading an observation off a page, through the strategies of a plan.
-/

namespace PriceScout.Worker.Extract

open PriceScout.Library.Attempts
open PriceScout.Library.JsonDocuments
open PriceScout.Library.JsStrings
open PriceScout.Library.Numbers
open PriceScout.Library.RegularExpressions
open PriceScout.Worker.Contracts
open PriceScout.Worker.Environment
open PriceScout.Worker.Validation

/-- The fields of a JSON-LD product. -/
abbrev JsonLdProduct := List (String × Json)

/-- `object[name]`; of two fields with one name the last one counts. -/
def property (fields : List (String × Json)) (name : String) : Option Json :=
  (fields.reverse.find? fun field => field.1 = name).map (·.2)

def isProductType : Option Json → Bool
  | some (.str type) => type = "Product"
  | some (.arr types) => types.any fun type => match type with
      | .str type => type = "Product"
      | _ => false
  | _ => false

mutual

def findProduct : Json → Option JsonLdProduct
  | .arr items => findProductIn items
  | .obj fields =>
      if isProductType (property fields "@type") then some fields else findProductInGraph fields
  | _ => none

def findProductIn : List Json → Option JsonLdProduct
  | [] => none
  | item :: rest => (findProduct item).orElse fun _ => findProductIn rest

/-- The product in the last field `@graph`. -/
def findProductInGraph : List (String × Json) → Option JsonLdProduct
  | [] => none
  | (name, value) :: rest =>
      if name = "@graph" && !rest.any fun field => field.1 = "@graph" then findProduct value
      else findProductInGraph rest

end

/-- The number that a literal of a JSON text denotes, as JavaScript prints it. -/
def printNumber (unscaled : Int) (scale : Nat) (exponent : Option Int) : List Char :=
  let value : ℚ := unscaled.natAbs * 10 ^ (exponent.getD 0 - scale)
  match Number.ofRat value with
  | .finite v =>
      (if unscaled < 0 ∧ v ≠ 0 then ['-'] else []) ++ (Number.finite v).json.stringify
  | _ => (if unscaled < 0 then ['-'] else []) ++ "Infinity".toList

mutual

/-- `String(value)`. -/
def textOf : Json → List Char
  | .null => "null".toList
  | .bool value => if value then "true".toList else "false".toList
  | .num unscaled scale exponent => printNumber unscaled scale exponent
  | .str value => value.toList
  | .arr items => textOfItems items
  | .obj _ => "[object Object]".toList

def textOfItems : List Json → List Char
  | [] => []
  | [item] => textOfItem item
  | item :: rest => textOfItem item ++ ',' :: textOfItems rest

/-- An item of an array, where `null` leaves no trace. -/
def textOfItem : Json → List Char
  | .null => []
  | item => textOf item

end

/-- The fields of a value, of which one that is no object has none. -/
def fieldsOf : Option Json → List (String × Json)
  | some (.obj fields) => fields
  | _ => []

/-- `a ?? b`. -/
def orElseNull (a b : Option Json) : Option Json :=
  match a with
  | none | some .null => b
  | some value => some value

def jsonLdField (product : JsonLdProduct) (field : JsonLdField) : Except JsError String :=
  let offers := match property product "offers" with
    | some (.arr offers) => offers.head?
    | offers => offers
  let offer := fieldsOf offers
  let value := match field with
    | .title => property product "name"
    | .sku => property product "sku"
    | .price => orElseNull (property offer "price") (property offer "lowPrice")
    | .currency => property offer "priceCurrency"
    | .availability => property offer "availability"
  match orElseNull value none with
  | none => throw (.error ("JSON-LD has no " ++ field.string))
  | some value => return String.ofList (textOf value)

/-- `/(outofstock|soldout|unavailable|preorder|backorder)/` -/
def unavailablePattern : Regex :=
  .oneOf (["outofstock", "soldout", "unavailable", "preorder", "backorder"].map .literal)

/-- `/(instock|available|addtocart)/` -/
def availablePattern : Regex :=
  .oneOf (["instock", "available", "addtocart"].map .literal)

variable (runtime : Runtime)

def parseAvailability (raw : String) : Except JsError Bool :=
  let value := (runtime.toLowerCase raw).toList.filter isAsciiLower
  if test unavailablePattern value then return false
  else if test availablePattern value then return true
  else throw (.error ("Unrecognized availability value: " ++ raw))

def currencyAliases : String → Option SupportedCurrency
  | "$" => some .usd
  | "US$" => some .usd
  | "€" => some .eur
  | "£" => some .gbp
  | "C$" => some .cad
  | "A$" => some .aud
  | _ => none

def normalizeCurrency (raw : String) : Except JsError SupportedCurrency :=
  let value := runtime.toUpperCase (trim raw)
  match (currencyAliases value).orElse fun _ => supportedCurrencySchema value with
  | some currency => return currency
  | none => throw (.error ("Unsupported currency: " ++ raw))

variable {W : Type} (outside : Outside W) (session : Session)

/-- The first product of the JSON-LD scripts from a position on, `n` scripts at
most. A script that cannot be read or parsed is passed over. -/
def readScripts : Nat → Nat → Attempt JsError W (Option JsonLdProduct)
  | 0, _ => return none
  | n + 1, index => do
      let raw ← tryCatch (outside.jsonLdText session index) fun _ => pure ""
      if raw = "" ∨ length raw > 1000000 then
        readScripts n (index + 1)
      else match (runtime.parseJson raw).bind findProduct with
        | some product => return some product
        | none => readScripts n (index + 1)

def readProductJsonLd : Attempt JsError W (Option JsonLdProduct) := do
  let count ← outside.jsonLdCount session
  readScripts runtime outside session (min count 20) 0

/-- The JSON-LD product, which is read once for all strategies. -/
def loadJsonLd : Attempt JsError (W × Option JsonLdProduct) (Option JsonLdProduct) :=
  act fun (w, jsonLd) =>
    match jsonLd with
    | some product => (.ok (some product), (w, jsonLd))
    | none =>
        match outcome (readProductJsonLd runtime outside session) w with
        | (.ok product, w') => (.ok product, (w', product))
        | (.error e, w') => (.error e, (w', none))

def readStrategy : ExtractionStrategy → Attempt JsError (W × Option JsonLdProduct) String
  | .xpathText selector _ => onFst (outside.innerText session selector)
  | .inputValue selector _ => onFst (outside.inputValue session selector)
  | .jsonLd field => do
      match ← loadJsonLd runtime outside session with
      | none => throw (.error "No Product JSON-LD was found")
      | some product => check (jsonLdField product field)

/-- The first text of the strategies that is not blank; the errors so far are
in their order. -/
def readFirstFrom (field : String) (errors : List String) :
    List ExtractionStrategy → Attempt JsError (W × Option JsonLdProduct) String
  | [] => throw (.error ("No " ++ field ++ " extractor succeeded: " ++ "; ".intercalate errors))
  | strategy :: rest => do
      let value ← tryCatch (Except.ok <$> readStrategy runtime outside session strategy)
        fun error => pure (Except.error error.message)
      match value with
      | .ok value =>
          if trim value = "" then readFirstFrom field errors rest else return trim value
      | .error message => readFirstFrom field (errors ++ [message]) rest

def readFirst (strategies : Option (List ExtractionStrategy)) (field : String) :
    Attempt JsError (W × Option JsonLdProduct) (Option String) :=
  match strategies with
  | none | some [] => return none
  | some strategies => some <$> readFirstFrom runtime outside session field [] strategies

/-- The selected value of each attribute that can be read. -/
def readSelectedVariant (selected : Record) :
    List ExtractionStrategy → Attempt JsError (W × Option JsonLdProduct) Record
  | [] => return selected
  | strategy :: rest =>
      match given strategy.attributeName with
      | none => readSelectedVariant selected rest
      | some attributeName => do
          let value ← tryCatch (readStrategy runtime outside session strategy) fun _ => pure ""
          readSelectedVariant
            (if trim value = "" then selected else selected.set attributeName (trim value)) rest

def extractFields (plan : MonitorPlanV1) :
    Attempt JsError (W × Option JsonLdProduct) Observation := do
  let title ← readFirst runtime outside session (some plan.extractors.title) "title"
  let rawPrice ← readFirst runtime outside session (some plan.extractors.price) "price"
  let availabilityRaw ←
    readFirst runtime outside session (some plan.extractors.availability) "availability"
  match title, rawPrice, availabilityRaw with
  | some title, some rawPrice, some availabilityRaw =>
      let sku ← readFirst runtime outside session plan.extractors.sku "sku"
      let currencyRaw ← readFirst runtime outside session plan.extractors.currency "currency"
      let parsedPrice ← check (parsePrice rawPrice)
      let currency ← check (normalizeCurrency runtime
        ((currencyRaw.orElse fun _ => parsedPrice.currency.map (·.code)).getD
          plan.expectedCurrency.code))
      let selectedVariant ←
        readSelectedVariant runtime outside session [] plan.extractors.selectedVariant
      let inStock ← check (parseAvailability runtime availabilityRaw)
      return { title, sku, priceMinor := parsedPrice.priceMinor, currency, inStock,
               availabilityRaw, selectedVariant, rawPrice,
               identityFingerprint := fingerprint runtime title sku }
  | _, _, _ => throw (.error "Required extraction returned no value")

/-- What a page shows of a plan's product. -/
def extractObservation (plan : MonitorPlanV1) : Attempt JsError W Observation :=
  act fun w =>
    let done := outcome (extractFields runtime outside session plan) (w, none)
    (done.1, done.2.1)

end PriceScout.Worker.Extract
