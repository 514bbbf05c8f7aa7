import PriceScout.Domain
import PriceScout.Library.Runs
import PriceScout.Library.StoredDocuments

/-!
The price conditions that the HTTP API accepts, and what the store gives back
of one that it was given.
-/

namespace PriceScout.Httpapi.Conditions

open PriceScout.Domain
open PriceScout.Library.GoStrings
open PriceScout.Library.JsonDocuments
open PriceScout.Library.Runs
open PriceScout.Library.StoredDocuments

/-- Whether a part of a body, which may be left out, is a JSON object. -/
def validJSONObject : Option Json → Bool
  | some (.obj fields) => (Json.obj fields).decodesToAny
  | _ => false

/-- The condition that `validatePriceCondition` decodes. -/
structure PriceCondition where
  priceBelowMinor : Int
  currency : String
  requireInStock : Option Bool
  requestedVariant : List (String × String)

def decodePriceCondition (raw : Json) : Option PriceCondition := do
  let priceBelowMinor ← raw.decodeField Json.assignInt64 0 "priceBelowMinor"
  let currency ← raw.decodeField Json.assignString "" "currency"
  let requireInStock ← raw.decodeField (fun _ => Json.assignBoolPtr) none "requireInStock"
  let requestedVariant ← raw.decodeField assignStringMap [] "requestedVariant"
  return { priceBelowMinor, currency, requireInStock, requestedVariant }

def supportedCurrencies : List String :=
  ["USD", "CAD", "EUR", "GBP", "AUD"]

def validatePriceCondition (raw : Json) : Except String Unit :=
  match decodePriceCondition raw with
  | none => .error "condition must be a JSON object"
  | some condition => do
      if condition.priceBelowMinor ≤ 0 then
        throw "condition.priceBelowMinor must be a positive integer in minor currency units"
      if condition.currency ∉ supportedCurrencies then
        throw ("condition.currency must be one of USD, CAD, EUR, GBP, or AUD; " ++
          "v1 supports two-decimal currencies only")
      if condition.requireInStock = none then
        throw "condition.requireInStock is required"
      if condition.requestedVariant.any fun entry =>
          decide (trimSpace entry.1 = "") || decide (trimSpace entry.2 = "") then
        throw "condition.requestedVariant keys and values cannot be empty"

/-- A condition that validation accepts. -/
def Accepted (raw : Json) : Prop :=
  validatePriceCondition raw = .ok ()

instance (raw : Json) : Decidable (Accepted raw) :=
  match h : validatePriceCondition raw with
  | .ok () => isTrue h
  | .error _ => isFalse fun haccepted => by simp [Accepted, h] at haccepted

theorem accepted_iff {raw : Json} :
    Accepted raw ↔ ∃ condition, decodePriceCondition raw = some condition ∧
      0 < condition.priceBelowMinor ∧ condition.currency ∈ supportedCurrencies ∧
      condition.requireInStock ≠ none ∧
      ∀ entry ∈ condition.requestedVariant, trimSpace entry.1 ≠ "" ∧ trimSpace entry.2 ≠ "" := by
  unfold Accepted validatePriceCondition
  cases hdecode : decodePriceCondition raw with
  | none => simp
  | some condition =>
      simp only [throw, throwThe, MonadExceptOf.throw, bind, Except.bind, pure, Except.pure,
        ite_error_eq_ok, Option.some.injEq, exists_eq_left']
      simp

/-- No field of a condition is given more than once, in whatever case. -/
def Unambiguous (raw : Json) : Prop :=
  ∀ fields, raw = .obj fields →
    ∀ name ∈ ["priceBelowMinor", "currency", "requireInStock", "requestedVariant"],
      (fields.filter fun field => equalFold field.1 name).length ≤ 1

/-- A field that is given at most once keeps in the stored object what it decodes
to, when the column keeps its value. -/
theorem decodeField_stored {α : Type} {assign : α → Json → Option α} {zero a : α} {name : String}
    {fields : List (String × Json)}
    (honce : (fields.filter fun field => equalFold field.1 name).length ≤ 1)
    (hassign : ∀ value, assign zero value = some a → assign zero (stored value) = some a)
    (h : (Json.obj fields).decodeField assign zero name = some a) :
    (stored (.obj fields)).decodeField assign zero name = some a := by
  simp only [Json.decodeField, fieldValues_stored honce] at h ⊢
  cases hfields : fields.filter fun field => equalFold field.1 name with
  | nil => simpa [Json.fieldValues, hfields] using h
  | cons field rest =>
      have hrest : rest = [] := by
        rw [hfields, List.length_cons] at honce
        exact List.eq_nil_of_length_eq_zero (by omega)
      subst hrest
      simp only [Json.fieldValues, hfields, List.map_cons, List.map_nil, Option.map_some,
        Option.bind_some, List.foldlM_cons, List.foldlM_nil, Option.bind_eq_bind,
        Option.pure_def, Option.bind_fun_some] at h ⊢
      exact hassign _ h

theorem assignInt64_stored {current n : Int} {value : Json}
    (h : Json.assignInt64 current value = some n) :
    Json.assignInt64 current (stored value) = some n := by
  cases value with
  | num unscaled scale exponent =>
      cases exponent with
      | none => exact h
      | some exponent => cases scale <;> simp [Json.assignInt64, Json.int64?] at h
  | null => exact h
  | bool _ | str _ | arr _ | obj _ => simp [Json.assignInt64, Json.int64?] at h

theorem assignBoolPtr_stored {value : Json} {b : Option Bool}
    (h : Json.assignBoolPtr value = some b) : Json.assignBoolPtr (stored value) = some b := by
  cases value with
  | null | bool _ => exact h
  | num _ _ _ | str _ | arr _ | obj _ => simp [Json.assignBoolPtr] at h

theorem assignString_stored {current text : String} {value : Json}
    (h : Json.assignString current value = some text) :
    Json.assignString current (stored value) = some text := by
  rw [stored_of_assignString (show (Json.assignString current value).isSome = true by simp [h])]
  exact h

/-- An accepted condition that gives no field twice is accepted as it is stored. -/
theorem accepted_stored {raw : Json} (hobject : validJSONObject (some raw) = true)
    (honce : Unambiguous raw) (h : Accepted raw) : Accepted (stored raw) := by
  obtain ⟨condition, hdecode, hvalid⟩ := accepted_iff.mp h
  refine accepted_iff.mpr ⟨condition, ?_, hvalid⟩
  cases raw with
  | obj fields =>
      have once := honce fields rfl
      simp only [decodePriceCondition, Option.bind_eq_bind, Option.bind_eq_some_iff] at hdecode ⊢
      obtain ⟨priceBelowMinor, hprice, currency, hcurrency, requireInStock, hstock,
        requestedVariant, hvariant, hcondition⟩ := hdecode
      exact ⟨_, decodeField_stored (once _ (by simp)) (fun _ => assignInt64_stored) hprice,
        _, decodeField_stored (once _ (by simp)) (fun _ => assignString_stored) hcurrency,
        _, decodeField_stored (once _ (by simp)) (fun _ => assignBoolPtr_stored) hstock,
        _, decodeField_stored (once _ (by simp)) (fun _ => assignStringMap_stored) hvariant,
        hcondition⟩
  | null | bool _ | num _ _ _ | str _ | arr _ => simp [validJSONObject] at hobject

/-- What validation reads of a condition that it accepts: of a number or a text
the last value that is not null, of a flag the last value. -/
structure Reading (fields : List (String × Json)) (condition : PriceCondition) : Prop where
  priceFits : Json.Fits Json.int64? (Json.spelled "priceBelowMinor" fields)
  price : ((Json.spelled "priceBelowMinor" fields).filterMap Json.int64?).getLast? =
    some condition.priceBelowMinor
  positive : 0 < condition.priceBelowMinor
  currencyFits : Json.Fits Json.text? (Json.spelled "currency" fields)
  currency :
    ((Json.spelled "currency" fields).filterMap Json.text?).getLast? = some condition.currency
  supported : condition.currency ∈ supportedCurrencies
  stockFits : Json.Fits Json.bool? (Json.spelled "requireInStock" fields)
  stock : ∃ required, (Json.spelled "requireInStock" fields).getLast? = some (.bool required) ∧
    condition.requireInStock = some required
  variant : (Json.obj fields).decodeField assignStringMap [] "requestedVariant" =
    some condition.requestedVariant
  named : ∀ entry ∈ condition.requestedVariant, trimSpace entry.1 ≠ "" ∧ trimSpace entry.2 ≠ ""

theorem getLast?_of_getD_ne {α : Type} {values : List α} {zero a : α}
    (h : a = values.getLast?.getD zero) (hne : a ≠ zero) : values.getLast? = some a := by
  cases hlast : values.getLast? with
  | none =>
      rw [hlast] at h
      exact absurd h hne
  | some b =>
      rw [hlast] at h
      rw [h]
      rfl

theorem exists_reading {fields : List (String × Json)} (h : Accepted (.obj fields)) :
    ∃ condition,
      decodePriceCondition (.obj fields) = some condition ∧ Reading fields condition := by
  obtain ⟨condition, hdecode, hpositive, hsupported, hrequired, hnamed⟩ := accepted_iff.mp h
  refine ⟨condition, hdecode, ?_⟩
  simp only [decodePriceCondition, Option.bind_eq_bind, Option.bind_eq_some_iff, Option.pure_def,
    Option.some.injEq] at hdecode
  obtain ⟨price, hprice, currency, hcurrency, required, hstock, variant, hvariant, rfl⟩ := hdecode
  obtain ⟨hpriceFits, hprice⟩ := Json.keeps_int64.decodeField_eq_some.mp hprice
  obtain ⟨hcurrencyFits, hcurrency⟩ := Json.keeps_string.decodeField_eq_some.mp hcurrency
  obtain ⟨hstockFits, hstock⟩ := Json.clears_boolPtr.decodeField_eq_some.mp hstock
  refine ⟨hpriceFits, getLast?_of_getD_ne hprice (ne_of_gt hpositive), hpositive, hcurrencyFits,
    getLast?_of_getD_ne hcurrency ?_, hsupported, hstockFits, ?_, hvariant, hnamed⟩
  · rintro rfl
    exact absurd hsupported (by simp [supportedCurrencies])
  · cases hlast : (Json.spelled "requireInStock" fields).getLast? with
    | none =>
        rw [hlast] at hstock
        exact absurd hstock hrequired
    | some value =>
        rw [hlast] at hstock
        cases value with
        | bool b => exact ⟨b, rfl, hstock⟩
        | null | num | str | arr | obj => exact absurd hstock hrequired

/-- A condition may be accepted and, once its keys are reordered, be none. -/
theorem exists_accepted_not_stored :
    ∃ raw, validJSONObject (some raw) = true ∧ Accepted raw ∧ ¬ Accepted (stored raw) :=
  ⟨.obj [("priceBelowMinor", .int (-5)), ("PRICEBELOWMINOR", .int 5), ("currency", .str "USD"),
    ("requireInStock", .bool true)], by decide +kernel⟩

/-- The empty condition, which a monitor is created with. -/
theorem not_accepted_empty : ¬ Accepted (.obj []) := by
  decide

example : Accepted (.obj [("priceBelowMinor", .int 10000), ("currency", .str "USD"),
    ("requireInStock", .bool true), ("requestedVariant", .obj [("color", .str "black")])]) := by
  decide

end PriceScout.Httpapi.Conditions
