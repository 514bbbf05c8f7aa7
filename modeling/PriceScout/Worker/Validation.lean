import Mathlib.Data.Finset.Card
import Mathlib.Data.Finset.Dedup
import PriceScout.Library.RegularExpressions
import PriceScout.Worker.Environment

/-!
The price in a text, and whether an observation is one of the product that a
plan is about.
-/

namespace PriceScout.Worker.Validation

open PriceScout.Library.JsStrings
open PriceScout.Library.Numbers
open PriceScout.Library.RegularExpressions
open PriceScout.Worker.Contracts
open PriceScout.Worker.Environment

def currencySymbols : String → Option SupportedCurrency
  | "US$" => some .usd
  | "C$" => some .cad
  | "A$" => some .aud
  | "$" => some .usd
  | "€" => some .eur
  | "£" => some .gbp
  | _ => none

/-- `/\b(from|starting at|...)\b|\/\s*mo(?:nth)?\b/i` -/
def nonTotalPattern : Regex :=
  .alt
    (.all [.wordBoundary,
      .oneOf (["from", "starting at", "per month", "monthly", "installment", "finance"].map
        .literalIgnoreCase),
      .wordBoundary])
    (.all [.char '/', .star .whiteSpace, .literalIgnoreCase "mo",
      .opt (.literalIgnoreCase "nth"), .wordBoundary])

/-- `/[¥₹₽₩₺₫฿₱₦₴₪]/u` -/
def unsupportedSigns : List Char :=
  ['¥', '₹', '₽', '₩', '₺', '₫', '฿', '₱', '₦', '₴', '₪']

/-- `/\bJPY\b/i` -/
def jpyPattern : Regex :=
  .all [.wordBoundary, .literalIgnoreCase "JPY", .wordBoundary]

/-- `/US\$|C\$|A\$|\$|€|£/gi` -/
def symbolPattern : Regex :=
  .oneOf (["US$", "C$", "A$", "$", "€", "£"].map .literalIgnoreCase)

/-- `/\b(?:USD|CAD|EUR|GBP|AUD)\b/gi` -/
def codePattern : Regex :=
  .all [.wordBoundary, .oneOf (["USD", "CAD", "EUR", "GBP", "AUD"].map .literalIgnoreCase),
    .wordBoundary]

/-- `[.,]` -/
def separator : Regex :=
  .charClass fun c => c = '.' || c = ','

/-- `(?:[.,]\d{1,2})?` -/
def fractionPattern : Regex :=
  .opt (.seq separator (.between 1 1 .digit))

/-- The amounts of a text: in groups of three after spaces, in groups of three
after commas or points, or without groups. -/
def numericPattern : Regex :=
  .alt
    (.all [.between 1 2 .digit, .plus (.seq (.char ' ') (.times 3 .digit)), fractionPattern])
    (.all [.alt (.seq (.between 1 2 .digit) (.plus (.seq separator (.times 3 .digit))))
      (.plus .digit), fractionPattern])

/-- `/\b([A-Z]{3})\b\s*$/` -/
def codeBefore : Regex :=
  .all [.wordBoundary, .times 3 (.charClass isAsciiUpper), .wordBoundary, .star .whiteSpace,
    .atEnd]

/-- `/^([A-Z]{3})\b/` -/
def codeAfter : Regex :=
  .all [.atStart, .times 3 (.charClass isAsciiUpper), .wordBoundary]

def upperText (chars : List Char) : String :=
  String.ofList (chars.map Char.toUpper)

/-- The currencies that the marks of a text denote, in the order of their detection. -/
def detectedCurrencies (compact : List Char) : List SupportedCurrency :=
  (((matchAll symbolPattern compact).filterMap fun m => currencySymbols (upperText m.text)) ++
    (matchAll codePattern compact).filterMap fun m =>
      supportedCurrencySchema (upperText m.text)).eraseDups

/-- The first code beside an amount that is not one of a supported currency. -/
def unsupportedCode (m : Match) : Option String :=
  let before := m.before.rdropWhile isWhiteSpace
  let after := m.after.dropWhile isWhiteSpace
  let codes := ((exec codeBefore before).toList ++ (exec codeAfter after).toList).map fun m =>
    String.ofList (m.text.take 3)
  codes.find? fun code => (supportedCurrencySchema code).isNone

/-- An amount with its separators resolved: of two kinds the last one is the
decimal point, and of one kind it is one unless three digits follow it. -/
def resolveSeparators (numeric : String) : String :=
  match lastIndexOf ',' numeric.toList, lastIndexOf '.' numeric.toList with
  | some lastComma, some lastDot =>
      if lastDot < lastComma then replaceFirst ',' '.' (without '.' numeric)
      else without ',' numeric
  | some last, none => resolve ',' last
  | none, some last => resolve '.' last
  | none, none => numeric
where
  resolve (separator : Char) (last : Nat) : String :=
    if numeric.toList.length - last - 1 = 3 then without separator numeric
    else without separator (String.ofList (numeric.toList.take last)) ++ "." ++
      String.ofList (numeric.toList.drop (last + 1))

/-- The one amount of a price text, ready for `Number`, and its currency. -/
def readAmount (raw : String) : Except JsError (String × Option SupportedCurrency) := do
  let compact := trim (String.ofList (raw.toList.map fun c =>
    if c.toNat = 0xa0 ∨ c.toNat = 0x202f then ' ' else c))
  let chars := compact.toList
  if test nonTotalPattern chars then
    throw (.validationError ("Ambiguous non-total price: " ++ compact) .ambiguousValue)
  if chars.any unsupportedSigns.contains || test jpyPattern chars then
    throw (.validationError "This currency is not supported in price monitor v1" .ambiguousValue)
  let currencies := detectedCurrencies chars
  if currencies.length > 1 then
    throw (.validationError "Price text contains conflicting currencies" .ambiguousValue)
  match matchAll numericPattern chars with
  | [numericMatch] =>
      match unsupportedCode numericMatch with
      | some code =>
          throw (.validationError ("Currency " ++ code ++ " is not supported in price monitor v1")
            .ambiguousValue)
      | none =>
          return (resolveSeparators (without ' ' (String.ofList numericMatch.text)),
            currencies.head?)
  | numericMatches =>
      throw (.validationError
        ("Expected one current price, found " ++ toString numericMatches.length) .ambiguousValue)

structure ParsedPrice where
  priceMinor : Number
  currency : Option SupportedCurrency
deriving DecidableEq

/-- A positive finite number in minor units. -/
def minorUnits : Number → Except JsError Number
  | .finite value =>
      if value ≤ 0 then
        .error (.validationError "Price must be a positive finite number" .ambiguousValue)
      else .ok ((Number.finite value).scale 100).round
  | _ => .error (.validationError "Price must be a positive finite number" .ambiguousValue)

def parsePrice (raw : String) : Except JsError ParsedPrice := do
  let (numeric, currency) ← readAmount raw
  let priceMinor ← minorUnits (numberOfText numeric)
  return { priceMinor, currency }

variable (runtime : Runtime)

def normalize (input : String) : String :=
  trim (collapse (fun c => !(isAsciiLower c || isAsciiDigit c))
    (runtime.nfkc (runtime.toLowerCase input)))

def fingerprint (title : String) (sku : Option String) : String :=
  runtime.sha256 (normalize runtime title ++ "\x00" ++ normalize runtime (sku.getD ""))

/-- The words of a title. -/
def titleTokens (title : String) : Finset String :=
  ((split ' ' (normalize runtime title)).filter (· ≠ "")).toFinset

def titleSimilarity (left right : String) : ℚ :=
  let a := titleTokens runtime left
  let b := titleTokens runtime right
  if a.card = 0 ∨ b.card = 0 then 0 else nearest ((a ∩ b).card / (a ∪ b).card)

/-- The least similarity of two titles of one product. -/
def similarityThreshold : ℚ :=
  nearest (4 / 5)

/-- Two products are taken for one by their SKUs, or by their titles when one
of them has no SKU. -/
def validateProduct (identity : Identity) (observation : Observation) : Except JsError Unit :=
  match given identity.sku, given observation.sku with
  | some expected, some observed =>
      if normalize runtime expected ≠ normalize runtime observed then
        throw (.validationError "Product SKU changed" .identityDrift)
      else return ()
  | _, _ =>
      if titleSimilarity runtime identity.title observation.title < similarityThreshold then
        throw (.validationError "Product title no longer matches the compiled identity"
          .identityDrift)
      else return ()

/-- Every requested variant is the one that is selected. -/
def validateVariants (observation : Observation) : Record → Except JsError Unit
  | [] => return ()
  | (attributeName, expected) :: rest =>
      if normalize runtime ((observation.selectedVariant.get attributeName).getD "") ≠
          normalize runtime expected then
        throw (.validationError ("Requested " ++ attributeName ++ " variant is no longer selected")
          .identityDrift)
      else validateVariants observation rest

def validateObservation (observation : Observation) (plan : MonitorPlanV1) :
    Except JsError Unit := do
  if observation.currency ≠ plan.expectedCurrency then
    throw (.validationError
      ("Expected " ++ plan.expectedCurrency.code ++ ", observed " ++ observation.currency.code)
      .ambiguousValue)
  validateProduct runtime plan.identity observation
  validateVariants runtime observation plan.identity.requestedVariant

example : parsePrice "EUR 1.249,99" = .ok ⟨.finite 124999, some .eur⟩ := by decide +kernel

example : parsePrice "$0,000.001" = .ok ⟨.finite 0, some .usd⟩ := by decide +kernel

end PriceScout.Worker.Validation
