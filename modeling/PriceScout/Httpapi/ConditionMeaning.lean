import PriceScout.Httpapi.Conditions
import PriceScout.Store.Executions

/-!
What an accepted price condition means when an observation is held against it.
Matching decodes the condition once more, and knows an older key beside it.
-/

namespace PriceScout.Httpapi.ConditionMeaning

open PriceScout.Domain
open PriceScout.Httpapi.Conditions
open PriceScout.Library.GoStrings
open PriceScout.Library.JsonDocuments
open PriceScout.Library.JsonDocuments.Json
open PriceScout.Store.Executions

/-- The observation satisfies the condition as validation has read it. -/
structure Satisfies (condition : PriceCondition) (observation : ResultObservation) : Prop where
  price : observation.priceMinor < condition.priceBelowMinor
  currency : equalFold condition.currency observation.currency = true
  inStock : condition.requireInStock = some true → observation.inStock = true

/-- The observations that match a condition are those that satisfy it. -/
def MeansWhatItSays (raw : Json) : Prop :=
  ∀ condition, decodePriceCondition raw = some condition →
    ∀ observation, matchesCondition raw observation = true ↔ Satisfies condition observation

/-- The keys that matching reads differently do not disturb the condition: the
older key has only integers, and `priceBelowMinor` is not cleared in the end, or
the older key stands for the same limit. -/
structure Undisturbed (fields : List (String × Json)) : Prop where
  legacy : Fits int64? (spelled "maxPriceMinor" fields)
  price : (spelled "priceBelowMinor" fields).getLast? ≠ some .null ∨
    ∃ limit, ((spelled "priceBelowMinor" fields).filterMap int64?).getLast? = some limit ∧
      (spelled "maxPriceMinor" fields).getLast?.bind int64? = some (limit - 1)

section Readings

variable {fields : List (String × Json)} {condition : PriceCondition}
  {observation : ResultObservation}

theorem getLast?_filterMap_of_last {α β : Type} {f : α → Option β} {values : List α} {a : α} {b : β}
    (hlast : values.getLast? = some a) (hvalue : f a = some b) :
    (values.filterMap f).getLast? = some b := by
  obtain ⟨front, rfl⟩ := List.getLast?_eq_some_iff.mp hlast
  rw [List.filterMap_append, List.filterMap_cons_some hvalue, List.filterMap_nil,
    List.getLast?_append]
  rfl

/-- Matching reads the price, the currency and the flag as validation does. -/
theorem decodeMatchCondition_eq (h : Reading fields condition) {required : Bool}
    (hrequired : condition.requireInStock = some required)
    (hlegacy : Fits int64? (spelled "maxPriceMinor" fields)) :
    decodeMatchCondition (.obj fields) = some
      { priceBelowMinor := (spelled "priceBelowMinor" fields).getLast?.bind int64?
        maxPriceMinor := (spelled "maxPriceMinor" fields).getLast?.bind int64?
        currency := condition.currency
        requireInStock := required } := by
  have pointer : ∀ name, Fits int64? (spelled name fields) →
      (obj fields).decodeInt64Ptr name = some ((spelled name fields).getLast?.bind int64?) := by
    intro name hfits
    exact clears_int64Ptr.decodeField_eq_some.mpr ⟨hfits, rfl⟩
  have hcurrency : (obj fields).decodeString "currency" = some condition.currency := by
    refine keeps_string.decodeField_eq_some.mpr ⟨h.currencyFits, ?_⟩
    rw [h.currency]
    rfl
  have hstock : (obj fields).decodeBool "requireInStock" = some required := by
    obtain ⟨b, hlast, hb⟩ := h.stock
    obtain rfl := Option.some.inj (hrequired.symm.trans hb)
    refine keeps_bool.decodeField_eq_some.mpr ⟨h.stockFits, ?_⟩
    rw [getLast?_filterMap_of_last (f := bool?) hlast rfl]
    rfl
  simp only [decodeMatchCondition, pointer _ h.priceFits, pointer _ hlegacy, hcurrency, hstock,
    Option.bind_eq_bind, Option.bind_some, Option.pure_def]

theorem decodeMatchCondition_eq_none (hlegacy : ¬ Fits int64? (spelled "maxPriceMinor" fields)) :
    decodeMatchCondition (.obj fields) = none := by
  have hmax : (obj fields).decodeInt64Ptr "maxPriceMinor" = none := by
    refine Option.eq_none_iff_forall_ne_some.mpr fun value hvalue => hlegacy ?_
    exact (clears_int64Ptr.decodeField_eq_some.mp hvalue).1
  unfold decodeMatchCondition
  cases (obj fields).decodeInt64Ptr "priceBelowMinor" with
  | none => rfl
  | some price => simp [hmax]

/-- The last price is null, or the one that validation has read. -/
theorem last_price (h : Reading fields condition) :
    (spelled "priceBelowMinor" fields).getLast? = some .null ∨
      (spelled "priceBelowMinor" fields).getLast? ≠ some .null ∧
      (spelled "priceBelowMinor" fields).getLast?.bind int64? = some condition.priceBelowMinor := by
  have hprice := h.price
  cases hlast : (spelled "priceBelowMinor" fields).getLast? with
  | none =>
      rw [List.getLast?_eq_none_iff.mp hlast] at hprice
      cases hprice
  | some value =>
      rcases h.priceFits value (List.mem_of_getLast? hlast) with rfl | hvalue
      · exact Or.inl rfl
      · obtain ⟨n, hn⟩ := Option.isSome_iff_exists.mp hvalue
        rw [getLast?_filterMap_of_last hlast hn] at hprice
        right
        constructor
        · rintro ⟨⟩
          cases hn
        · rw [Option.bind_some, hn, hprice]

/-- The price is below the limit, or not above the older one. -/
def WithinLimit (fields : List (String × Json)) (priceMinor : Int) : Prop :=
  match (spelled "priceBelowMinor" fields).getLast?.bind int64?,
    (spelled "maxPriceMinor" fields).getLast?.bind int64? with
  | some limit, _ => priceMinor < limit
  | none, some limit => priceMinor ≤ limit
  | none, none => False

theorem currency_ne_empty (h : Reading fields condition) : condition.currency ≠ "" := by
  intro hempty
  have hsupported := h.supported
  rw [hempty] at hsupported
  exact absurd hsupported (by decide)

/-- Apart from the price, matching asks for what the condition says. -/
theorem matchesCondition_iff (h : Reading fields condition)
    (hlegacy : Fits int64? (spelled "maxPriceMinor" fields)) :
    matchesCondition (.obj fields) observation = true ↔
      WithinLimit fields observation.priceMinor ∧
      equalFold condition.currency observation.currency = true ∧
      (condition.requireInStock = some true → observation.inStock = true) := by
  obtain ⟨required, -, hrequired⟩ := h.stock
  have hcurrency := currency_ne_empty h
  simp only [matchesCondition, decodeMatchCondition_eq h hrequired hlegacy, WithinLimit, hrequired]
  generalize (spelled "priceBelowMinor" fields).getLast?.bind int64? = price
  generalize (spelled "maxPriceMinor" fields).getLast?.bind int64? = legacy
  cases price with
  | some limit => cases required <;> simp [hcurrency] <;> tauto
  | none =>
      cases legacy with
      | some limit => cases required <;> simp [hcurrency] <;> tauto
      | none => simp

theorem matchesCondition_eq_false (hlegacy : ¬ Fits int64? (spelled "maxPriceMinor" fields)) :
    matchesCondition (.obj fields) observation = false := by
  simp only [matchesCondition, decodeMatchCondition_eq_none hlegacy]

/-- An offer in stock at a price. -/
def offer (priceMinor : Int) (currency : String) : ResultObservation where
  priceMinor := priceMinor
  currency := currency
  inStock := true
  title := "Desk Lamp"
  rawText := ""
  identity := none
  verificationState := ""
  conditionMatched := none

theorem satisfies_offer {priceMinor : Int} :
    Satisfies condition (offer priceMinor condition.currency) ↔
      priceMinor < condition.priceBelowMinor := by
  constructor
  · exact fun h => h.price
  · exact fun hprice => ⟨hprice, equalFold_self _, fun _ => rfl⟩

/-- Offers tell whether a condition means what it says. -/
theorem meansWhatItSays_iff (hdecode : decodePriceCondition (.obj fields) = some condition)
    (h : Reading fields condition) (hlegacy : Fits int64? (spelled "maxPriceMinor" fields)) :
    MeansWhatItSays (.obj fields) ↔
      ∀ priceMinor, WithinLimit fields priceMinor ↔ priceMinor < condition.priceBelowMinor := by
  constructor
  · intro hmeans priceMinor
    have hmatch := hmeans condition hdecode (offer priceMinor condition.currency)
    rw [matchesCondition_iff h hlegacy, satisfies_offer] at hmatch
    rw [← hmatch]
    constructor
    · exact fun hlimit => ⟨hlimit, equalFold_self _, fun _ => rfl⟩
    · exact fun hall => hall.1
  · intro hlimit condition' hdecode' observation
    obtain rfl := Option.some.inj (hdecode.symm.trans hdecode')
    rw [matchesCondition_iff h hlegacy, hlimit]
    constructor
    · rintro ⟨hprice, hcurrency, hstock⟩
      exact ⟨hprice, hcurrency, hstock⟩
    · rintro ⟨hprice, hcurrency, hstock⟩
      exact ⟨hprice, hcurrency, hstock⟩

/-- An older limit that is one less says the same of whole prices. -/
theorem le_iff_lt_iff {limit legacy : Int} :
    (∀ priceMinor : Int, priceMinor ≤ legacy ↔ priceMinor < limit) ↔ legacy = limit - 1 := by
  constructor
  · intro h
    have hbelow := (h (limit - 1)).mpr (by omega)
    have habove := mt (h limit).mp (by omega)
    omega
  · rintro rfl priceMinor
    omega

end Readings

/-- An accepted condition means what it says exactly when the keys that matching
reads differently do not disturb it. -/
theorem accepted_means_iff (fields : List (String × Json)) (haccepted : Accepted (.obj fields)) :
    MeansWhatItSays (.obj fields) ↔ Undisturbed fields := by
  obtain ⟨condition, hdecode, hreading⟩ := exists_reading haccepted
  by_cases hlegacy : Fits int64? (spelled "maxPriceMinor" fields)
  · rw [meansWhatItSays_iff hdecode hreading hlegacy]
    rcases last_price hreading with hnull | ⟨hsome, hprice⟩
    · have hcleared : (spelled "priceBelowMinor" fields).getLast?.bind int64? = none := by
        rw [hnull]
        rfl
      cases hmax : (spelled "maxPriceMinor" fields).getLast?.bind int64? with
      | none =>
          simp only [WithinLimit, hcleared, hmax]
          constructor
          · intro h
            exact absurd ((h (condition.priceBelowMinor - 1)).mpr (by omega)) id
          · rintro ⟨-, hlast | ⟨limit, -, hlimit⟩⟩
            · exact absurd hnull hlast
            · rw [hmax] at hlimit
              cases hlimit
      | some legacy =>
          simp only [WithinLimit, hcleared, hmax]
          rw [le_iff_lt_iff]
          constructor
          · rintro rfl
            exact ⟨hlegacy, Or.inr ⟨condition.priceBelowMinor, hreading.price, hmax⟩⟩
          · rintro ⟨-, hlast | ⟨limit, hprice, hlimit⟩⟩
            · exact absurd hnull hlast
            · obtain rfl := Option.some.inj (hprice.symm.trans hreading.price)
              exact Option.some.inj (hmax.symm.trans hlimit)
    · simp only [WithinLimit, hprice]
      constructor
      · intro _
        exact ⟨hlegacy, Or.inl hsome⟩
      · intro _ priceMinor
        trivial
  · constructor
    · intro hmeans
      have hmatch := hmeans condition hdecode
        (offer (condition.priceBelowMinor - 1) condition.currency)
      rw [matchesCondition_eq_false hlegacy, satisfies_offer] at hmatch
      exact absurd (hmatch.mpr (by omega)) Bool.false_ne_true
    · intro hundisturbed
      exact absurd hundisturbed.legacy hlegacy

/-- A condition with the older key beside the new one. -/
def withLegacy (legacy : Json) : List (String × Json) :=
  [("priceBelowMinor", .int 10000), ("currency", .str "USD"), ("requireInStock", .bool true),
   ("maxPriceMinor", legacy)]

theorem legacyText_never_matches : ¬ ∀ fields, Accepted (.obj fields) →
    MeansWhatItSays (.obj fields) := by
  intro h
  have hmeans := h (withLegacy (.str "100.00")) (by decide)
  have hmatch := hmeans ⟨10000, "USD", some true, []⟩ (by rfl) (offer 9999 "USD")
  have hsatisfies : Satisfies ⟨10000, "USD", some true, []⟩ (offer 9999 "USD") :=
    ⟨by decide, by decide, fun _ => rfl⟩
  exact absurd (hmatch.mpr hsatisfies) (by decide)

theorem legacyInteger_disregarded :
    Accepted (.obj (withLegacy (.int 5000))) ∧ MeansWhatItSays (.obj (withLegacy (.int 5000))) := by
  have haccepted : Accepted (.obj (withLegacy (.int 5000))) := by
    decide
  have hlegacy : spelled "maxPriceMinor" (withLegacy (.int 5000)) = [.int 5000] := by
    rfl
  have hprice : spelled "priceBelowMinor" (withLegacy (.int 5000)) = [.int 10000] := by
    rfl
  refine ⟨haccepted, (accepted_means_iff _ haccepted).mpr ⟨?_, Or.inl ?_⟩⟩
  · rw [hlegacy]
    exact fits_cons.mpr ⟨Or.inr (by decide), fits_nil⟩
  · rw [hprice]
    rintro ⟨⟩

end PriceScout.Httpapi.ConditionMeaning
