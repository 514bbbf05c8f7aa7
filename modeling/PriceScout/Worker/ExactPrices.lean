import PriceScout.Worker.PriceMarkers

/-!
`parsePrice` with `Number` and `Math.round` as exact decimal arithmetic.
-/

namespace PriceScout.Worker.ExactPrices

open PriceScout.Library.JsStrings
open PriceScout.Library.Numbers
open PriceScout.Library.Runs
open PriceScout.Worker.Amounts
open PriceScout.Worker.Contracts
open PriceScout.Worker.Environment
open PriceScout.Worker.PriceMarkers
open PriceScout.Worker.Validation

structure ExactPrice where
  priceMinor : Int
  currency : Option SupportedCurrency
deriving DecidableEq

/-- A positive value in minor units, half a unit rounded up. -/
def minorUnitsExactly : Option ℚ → Except JsError Int
  | some value =>
      if value ≤ 0 then
        .error (.validationError "Price must be a positive finite number" .ambiguousValue)
      else .ok ⌊value * 100 + 1 / 2⌋
  | none => .error (.validationError "Price must be a positive finite number" .ambiguousValue)

def parsePriceExactly (raw : String) : Except JsError ExactPrice := do
  let (numeric, currency) ← readAmount raw
  let priceMinor ← minorUnitsExactly (decimalValue numeric.toList)
  return { priceMinor, currency }

theorem minorUnitsExactly_eq_ok_iff {value : Option ℚ} {priceMinor : Int} :
    minorUnitsExactly value = .ok priceMinor ↔
      ∃ v, value = some v ∧ 0 < v ∧ ⌊v * 100 + 1 / 2⌋ = priceMinor := by
  cases value with
  | none => exact iff_of_false (by simp [minorUnitsExactly]) (by simp)
  | some v =>
      rw [minorUnitsExactly]
      split
      · rename_i hle
        exact iff_of_false (by simp) (by simp [hle])
      · rename_i hlt
        simp [not_le.mp hlt]

theorem parsePriceExactly_eq_ok_iff {raw : String} {price : ExactPrice} :
    parsePriceExactly raw = .ok price ↔ ∃ numeric, readAmount raw = .ok (numeric, price.currency) ∧
      ∃ v, decimalValue numeric.toList = some v ∧ 0 < v ∧ ⌊v * 100 + 1 / 2⌋ = price.priceMinor := by
  simp only [parsePriceExactly, bind_eq_ok, pure_eq_ok, Prod.exists, minorUnitsExactly_eq_ok_iff]
  constructor
  · rintro ⟨numeric, currency, hread, priceMinor, hvalue, rfl⟩
    exact ⟨numeric, hread, hvalue⟩
  · rintro ⟨numeric, hread, hvalue⟩
    exact ⟨numeric, price.currency, hread, price.priceMinor, hvalue, rfl⟩

/-- A value without more than two decimals is not rounded. -/
theorem floor_eq {v : ℚ} {n : Int} (h : v * 100 = n) : ⌊v * 100 + 1 / 2⌋ = n := by
  rw [h, Int.floor_intCast_add]
  norm_num

end PriceScout.Worker.ExactPrices
