import PriceScout.Httpapi.Conditions
import PriceScout.Library.Rounding
import PriceScout.Worker.Contracts

/-!
How a worker reads the condition of a monitor, and what it makes of those that
the HTTP API has accepted and the store has kept.
-/

namespace PriceScout.Worker.MonitorConditions

open PriceScout.Httpapi.Conditions
open PriceScout.Library.GoStrings
open PriceScout.Library.JsonDocuments
open PriceScout.Library.JsonDocuments.Json
open PriceScout.Library.Numbers
open PriceScout.Library.Rounding
open PriceScout.Library.StoredDocuments
open PriceScout.Worker.Contracts

/-- `z.number().int().positive()`, whose integers are the safe ones. -/
def positiveInteger : Json → Option Nat
  | .num unscaled scale exponent =>
      if unscaled ≤ 0 then none
      else match Number.ofRat (literalValue unscaled scale exponent) with
        | .finite value =>
            if value.den = 1 ∧ 0 < value ∧ value ≤ 2 ^ 53 - 1 then some value.num.toNat else none
        | _ => none
  | _ => none

def currencySchema : Json → Option SupportedCurrency
  | .str value => supportedCurrencySchema value
  | _ => none

/-- `z.record(z.string(), z.string())`, which leaves the key `__proto__` out. -/
def stringRecord : Json → Option Record
  | .obj fields =>
      (fields.filter fun field => field.1 ≠ "__proto__").mapM fun field =>
        (text? field.2).map (field.1, ·)
  | _ => none

/-- A property that may be left out. -/
def optional {α : Type} (schema : Json → Option α) : Option Json → Option (Option α)
  | none => some none
  | some value => (schema value).map some

/-- A property with a default. -/
def withDefault {α : Type} (schema : Json → Option α) (default : α) : Option Json → Option α
  | none => some default
  | some value => schema value

def monitorConditionSchema : Json → Option MonitorCondition
  | .obj fields => do
      let maxPriceMinor ← optional positiveInteger (lastValue "maxPriceMinor" fields)
      let priceBelowMinor ← optional positiveInteger (lastValue "priceBelowMinor" fields)
      let currency ← optional currencySchema (lastValue "currency" fields)
      let requireInStock ← withDefault bool? true (lastValue "requireInStock" fields)
      let requestedVariant ← withDefault stringRecord [] (lastValue "requestedVariant" fields)
      return { maxPriceMinor, priceBelowMinor, currency, requireInStock, requestedVariant }
  | _ => none

/-- The condition of `ControlPlaneClient.input`, which an execution that is over
does without, or why it fails. -/
def inputCondition (terminal : Bool) (condition : Json) : Option (Option MonitorCondition) :=
  match terminal, condition with
  | false, .obj _ | false, .arr _ => (monitorConditionSchema condition).map some
  | _, _ => some none

/-- The worker reads what validation has read. -/
structure ReadsAlike (condition : PriceCondition) (read : MonitorCondition) : Prop where
  priceBelowMinor : read.priceBelowMinor.map Int.ofNat = some condition.priceBelowMinor
  currency : read.currency.map SupportedCurrency.code = some condition.currency
  requireInStock : condition.requireInStock = some read.requireInStock
  requestedVariant : Record.Same read.requestedVariant condition.requestedVariant

/-- The worker accepts the stored condition, also as a part of its input, and
reads in it what validation has read. -/
def AgreedOn (raw : Json) : Prop :=
  ∀ condition, decodePriceCondition raw = some condition →
    ∃ read, monitorConditionSchema (stored raw) = some read ∧
      inputCondition false (stored raw) = some (some read) ∧ ReadsAlike condition read

/-- The entries that decoding merges into one map. -/
def mergedEntries (values : List Json) : List (String × Json) :=
  values.foldl (fun merged value => match value with
    | .obj fields => merged ++ fields
    | _ => []) []

/-- The entries of an object. -/
def objectEntries : Option Json → List (String × Json)
  | some (.obj fields) => fields
  | _ => []

/-- The last value of each exact key is all there is to read. -/
structure GivenExactly (fields : List (String × Json)) : Prop where
  maxPriceMinor : ∀ value, lastValue "maxPriceMinor" fields = some value →
    (positiveInteger value).isSome = true
  priceBelowMinor : ∃ price, lastValue "priceBelowMinor" fields = some (.int price) ∧
    ((spelled "priceBelowMinor" fields).filterMap int64?).getLast? = some price ∧
    price ≤ 2 ^ 53 - 1
  currency : ∃ code, lastValue "currency" fields = some (.str code) ∧
    ((spelled "currency" fields).filterMap text?).getLast? = some code
  requireInStock : lastValue "requireInStock" fields = (spelled "requireInStock" fields).getLast? ∨
    lastValue "requireInStock" fields = none ∧
      (spelled "requireInStock" fields).getLast? = some (.bool true)
  notNull : lastValue "requestedVariant" fields ≠ some .null
  requestedVariant : ∀ key, lastValue key (mergedEntries (spelled "requestedVariant" fields)) =
    if key = "__proto__" then none
    else lastValue key (objectEntries (lastValue "requestedVariant" fields))

section Numbers

theorem literalValue_numeric (unscaled : Int) (scale : Nat) (exponent : Int) :
    ∃ unscaled' scale', numeric unscaled scale (some exponent) = .num unscaled' scale' none ∧
      literalValue unscaled' scale' none = literalValue unscaled scale (some exponent) ∧
      (unscaled' ≤ 0 ↔ unscaled ≤ 0) := by
  unfold numeric literalValue
  dsimp only
  split
  · rename_i hle
    refine ⟨_, _, rfl, ?_, Iff.rfl⟩
    congr 2
    simp only [Option.getD_none, Option.getD_some]
    omega
  · rename_i hlt
    refine ⟨_, _, rfl, ?_, ?_⟩
    · have hsplit : (exponent - scale : ℤ) = ((exponent - scale).toNat : ℤ) := by omega
      simp only [Option.getD_none, Option.getD_some, Nat.cast_zero, sub_zero, zpow_zero, mul_one]
      rw [hsplit, zpow_natCast]
      push_cast
      rfl
    · have hpos : (0 : Int) < 10 ^ (exponent - scale).toNat := by positivity
      constructor
      · intro h
        by_contra hneg
        exact absurd h (not_le.mpr (mul_pos (by omega) hpos))
      · intro h
        exact mul_nonpos_of_nonpos_of_nonneg h hpos.le

/-- A number is stored by its value. -/
theorem positiveInteger_stored (value : Json) :
    positiveInteger (stored value) = positiveInteger value := by
  cases value with
  | num unscaled scale exponent =>
      cases exponent with
      | none => rfl
      | some exponent =>
          obtain ⟨unscaled', scale', hnumeric, hvalue, hsign⟩ :=
            literalValue_numeric unscaled scale exponent
          simp only [stored, hnumeric, positiveInteger, hvalue, hsign]
  | null | bool | str | arr | obj => rfl

theorem ofRat_natCast {m : Nat} (h : m ≤ 2 ^ 53) : Number.ofRat m = .finite m := by
  unfold Number.ofRat
  rw [nearest_natCast h, if_pos]
  calc (m : ℚ) ≤ 2 ^ 53 := by exact_mod_cast h
    _ < 2 ^ 1024 := pow_lt_pow_right₀ (by norm_num) (by norm_num)

/-- A whole number that is not safe is not read as one that is. -/
theorem lt_of_ofRat {m : Nat} {value : ℚ} (h : 2 ^ 53 ≤ m)
    (hvalue : Number.ofRat m = .finite value) :
    ¬ value ≤ 2 ^ 53 - 1 := by
  unfold Number.ofRat at hvalue
  split at hvalue
  · cases hvalue
    have := le_nearest_natCast h
    linarith
  · cases hvalue

/-- Of the integers exactly the safe positive ones are accepted, and read as they are. -/
theorem positiveInteger_int {price : Int} {n : Nat} :
    positiveInteger (.int price) = some n ↔ price = n ∧ 1 ≤ price ∧ price ≤ 2 ^ 53 - 1 := by
  have hliteral : literalValue price 0 none = price := by
    simp [literalValue]
  rcases le_or_gt price 0 with hneg | hpos
  · simp only [Json.int, positiveInteger, hneg, if_true]
    constructor
    · rintro ⟨⟩
    · rintro ⟨-, hone, -⟩
      omega
  · obtain ⟨m, rfl⟩ := Int.eq_ofNat_of_zero_le hpos.le
    have hnot : ¬ ((m : Int) ≤ 0) := not_le.mpr hpos
    simp only [Json.int, positiveInteger, hliteral, hnot, if_false, Int.cast_natCast]
    rcases le_or_gt (2 ^ 53) m with hlarge | hsmall
    · constructor
      · intro h
        cases hvalue : Number.ofRat (m : ℚ) with
        | nan | infinity => rw [hvalue] at h; cases h
        | finite value =>
            rw [hvalue] at h
            have hbeyond := lt_of_ofRat hlarge hvalue
            simp only [hbeyond, and_false, if_false] at h
            cases h
      · rintro ⟨-, -, hsafe⟩
        omega
    · have hsafe : (m : ℚ) ≤ 2 ^ 53 - 1 := by
        have : (m : ℚ) + 1 ≤ 2 ^ 53 := by exact_mod_cast hsmall
        linarith
      have hcast : (0 : ℚ) < m := by exact_mod_cast hpos
      rw [ofRat_natCast hsmall.le]
      simp only [Rat.den_natCast, hcast, hsafe, and_self, if_true, Rat.num_natCast,
        Int.toNat_natCast, Option.some.injEq]
      omega

end Numbers

section Variants

variable {fields : List (String × Json)} {values : List Json} {map : List (String × String)}

theorem text?_stored (value : Json) : text? (stored value) = text? value := by
  cases value with
  | num unscaled scale exponent =>
      cases exponent with
      | none => rfl
      | some exponent =>
          simp only [stored, numeric]
          split <;> rfl
  | null | bool | str | arr | obj => rfl

theorem bool?_stored (value : Json) : bool? (stored value) = bool? value := by
  cases value with
  | num unscaled scale exponent =>
      cases exponent with
      | none => rfl
      | some exponent =>
          simp only [stored, numeric]
          split <;> rfl
  | null | bool | str | arr | obj => rfl

/-- A map that decoding has filled from these entries. -/
structure Filled (map : List (String × String)) (given : List (String × Json)) : Prop where
  ordered : Ordered map
  texts : ∀ field ∈ given, field.2 = .null ∨ ∃ text, field.2 = .str text
  lastValue : ∀ key, lastValue key map = (lastValue key given).map entryText

theorem Filled.empty : Filled [] [] :=
  ⟨List.Pairwise.nil, fun _ h => absurd h List.not_mem_nil, fun _ => rfl⟩

theorem Filled.merge {given : List (String × Json)} {map' : List (String × String)}
    (h : Filled map given) (hassign : assignStringMap map (.obj fields) = some map') :
    Filled map' (given ++ fields) := by
  simp only [assignStringMap, Option.bind_eq_bind, Option.bind_eq_some_iff, Option.pure_def,
    Option.some.injEq] at hassign
  obtain ⟨texts, htexts, rfl⟩ := hassign
  have hsome := isSome_of_mapM_texts htexts
  rw [mapM_texts hsome] at htexts
  obtain rfl := Option.some.inj htexts
  refine ⟨ordered_entries _, fun field hfield => ?_, fun key => ?_⟩
  · rcases List.mem_append.mp hfield with hold | hnew
    · exact h.texts field hold
    · have := hsome field hnew
      cases hvalue : field.2 with
      | null => exact Or.inl rfl
      | str text => exact Or.inr ⟨text, rfl⟩
      | bool | num | arr | obj => simp [hvalue, Json.assignString] at this
  · rw [lastValue_entries, lastValue_append, lastValue_append, lastValue_map, h.lastValue]
    cases Json.lastValue key fields <;> rfl

/-- Decoding merges the entries since the last null. -/
theorem filled_of_foldlM {given : List (String × Json)} {map' : List (String × String)}
    (h : Filled map given) (hassign : values.foldlM assignStringMap map = some map') :
    Filled map' (values.foldl (fun merged value => match value with
      | .obj fields => merged ++ fields
      | _ => []) given) := by
  induction values generalizing map given with
  | nil =>
      obtain rfl : map = map' := by simpa using hassign
      exact h
  | cons value rest ih =>
      rw [List.foldlM_cons] at hassign
      obtain ⟨next, hnext, hrest⟩ := Option.bind_eq_some_iff.mp hassign
      cases value with
      | null =>
          obtain rfl : [] = next := Option.some.inj hnext
          exact ih .empty hrest
      | obj fields => exact ih (h.merge hnext) hrest
      | bool | num | str | arr => cases hnext

theorem get_of_ordered (h : Ordered map) (key : String) : Record.get map key = lastValue key map :=
  find_of_ordered h

/-- What a record keeps of the entries of an object. -/
theorem get_of_mapM {record : Record}
    (h : (fields.mapM fun field => (text? field.2).map (field.1, ·)) = some record) (key : String) :
    record.get key = ((fields.find? fun field => decide (field.1 = key)).map (·.2)).bind text? := by
  induction fields generalizing record with
  | nil =>
      obtain rfl : record = [] := by simpa [eq_comm] using h
      rfl
  | cons field rest ih =>
      simp only [List.mapM_cons, Option.bind_eq_bind, Option.bind_eq_some_iff, Option.pure_def,
        Option.some.injEq, Option.map_eq_some_iff] at h
      obtain ⟨entry, ⟨text, htext, rfl⟩, others, hothers, rfl⟩ := h
      by_cases hkey : field.1 = key
      · simp [Record.get, hkey, htext]
      · have := ih hothers
        simp only [Record.get] at this ⊢
        simp [hkey, this]

theorem stringRecord_get {record : Record} (h : stringRecord (stored (.obj fields)) = some record)
    (key : String) : record.get key =
      if key = "__proto__" then none else (lastValue key fields).bind text? := by
  have hordered : Ordered ((storedFields fields).filter fun field => field.1 ≠ "__proto__") :=
    List.Pairwise.filter _ (ordered_storedFields fields)
  rw [get_of_mapM h, find_of_ordered hordered, lastValue_filter_ne, lastValue_storedFields]
  split
  · rfl
  · cases lastValue key fields with
    | none => rfl
    | some value => exact text?_stored value

theorem exists_stringRecord
    (h : ∀ key value, key ≠ "__proto__" → lastValue key fields = some value →
    ∃ text, value = .str text) : ∃ record, stringRecord (stored (.obj fields)) = some record := by
  refine exists_mapM fun field hfield => ?_
  obtain ⟨hmem, hname⟩ := List.mem_filter.mp hfield
  have hlast := lastValue_of_mem (ordered_storedFields fields) hmem
  rw [lastValue_storedFields] at hlast
  obtain ⟨value, hvalue, hstored⟩ := Option.map_eq_some_iff.mp hlast
  obtain ⟨text, rfl⟩ := h field.1 value (by simpa using hname) hvalue
  rw [← hstored]
  rfl

theorem text_of_stringRecord {record : Record} {key : String} {value : Json}
    (h : stringRecord (stored (.obj fields)) = some record) (hkey : key ≠ "__proto__")
    (hvalue : lastValue key fields = some value) : ∃ text, value = .str text := by
  have hstored : lastValue key (storedFields fields) = some (stored value) := by
    rw [lastValue_storedFields, hvalue]
    rfl
  have hmem : (key, stored value) ∈ (storedFields fields).filter fun field =>
    field.1 ≠ "__proto__" :=
    List.mem_filter.mpr ⟨mem_of_lastValue hstored, by simpa using hkey⟩
  obtain ⟨entry, -, hentry⟩ := (exists_of_mapM h).1 _ hmem
  obtain ⟨text, htext, -⟩ := Option.map_eq_some_iff.mp hentry
  rw [text?_stored] at htext
  cases value with
  | str text => exact ⟨text, rfl⟩
  | null | bool | num | arr | obj => cases htext

/-- A value that decodes into a map is an object or null. -/
theorem null_or_obj (h : (values.foldlM assignStringMap map).isSome = true) :
    ∀ value ∈ values, value = .null ∨ ∃ fields, value = .obj fields := by
  induction values generalizing map with
  | nil => exact fun _ hvalue => absurd hvalue List.not_mem_nil
  | cons value rest ih =>
      rw [List.foldlM_cons] at h
      obtain ⟨result, hresult⟩ := Option.isSome_iff_exists.mp h
      obtain ⟨next, hnext, hrest⟩ := Option.bind_eq_some_iff.mp hresult
      refine List.forall_mem_cons.mpr ⟨?_, ih (Option.isSome_iff_exists.mpr ⟨result, hrest⟩)⟩
      cases value with
      | null => exact Or.inl rfl
      | obj fields => exact Or.inr ⟨fields, rfl⟩
      | bool | num | str | arr => cases hnext

/-- An accepted map has no empty texts, so its entries are texts. -/
theorem text_of_given {condition : PriceCondition} {given : List (String × Json)} {key : String}
    {value : Json} (hfilled : Filled condition.requestedVariant given)
    (h : Reading fields condition)
    (hvalue : lastValue key given = some value) : ∃ text, value = .str text := by
  rcases hfilled.texts (key, value) (mem_of_lastValue hvalue) with hnull | htext
  · have hentry : lastValue key condition.requestedVariant = some "" := by
      rw [hfilled.lastValue, hvalue, show value = .null from hnull]
      rfl
    exact absurd rfl (h.named (key, "") (mem_of_lastValue hentry)).2
  · exact htext

section Given

variable {condition : PriceCondition} {given es : List (String × Json)}

theorem get_given (hfilled : Filled condition.requestedVariant given) (h : Reading fields condition)
    (key : String) :
    Record.get condition.requestedVariant key = (lastValue key given).bind text? := by
  rw [get_of_ordered hfilled.ordered, hfilled.lastValue]
  cases hvalue : lastValue key given with
  | none => rfl
  | some value =>
      obtain ⟨text, rfl⟩ := text_of_given hfilled h hvalue
      rfl

/-- Texts are told apart by what they read as. -/
theorem eq_of_bind_text? {value value' : Option Json}
    (hvalue : ∀ v, value = some v → ∃ text, v = .str text)
    (hvalue' : ∀ v, value' = some v → ∃ text, v = .str text)
    (h : value.bind text? = value'.bind text?) : value = value' := by
  cases value with
  | none =>
      cases value' with
      | none => rfl
      | some v =>
          obtain ⟨text, rfl⟩ := hvalue' v rfl
          cases h
  | some v =>
      obtain ⟨text, rfl⟩ := hvalue v rfl
      cases value' with
      | none => cases h
      | some v' =>
          obtain ⟨text', rfl⟩ := hvalue' v' rfl
          cases h
          rfl

/-- The worker reads what was given exactly when one object has all of it. -/
theorem object_agreed_iff (hfilled : Filled condition.requestedVariant given)
    (h : Reading fields condition) :
    (∃ record, stringRecord (stored (.obj es)) = some record ∧
      Record.Same record condition.requestedVariant) ↔
    ∀ key, lastValue key given = if key = "__proto__" then none else lastValue key es := by
  constructor
  · rintro ⟨record, hrecord, hsame⟩ key
    have hget := hsame key
    rw [get_given hfilled h, stringRecord_get hrecord] at hget
    refine eq_of_bind_text? (fun v hv => text_of_given hfilled h hv) (fun v hv => ?_) ?_
    · split at hv
      · cases hv
      · rename_i hkey
        exact text_of_stringRecord hrecord hkey hv
    · rw [← hget]
      split <;> rfl
  · intro hkeys
    have htexts : ∀ key value, key ≠ "__proto__" → lastValue key es = some value →
        ∃ text, value = .str text := by
      intro key value hkey hvalue
      have hgiven : lastValue key given = some value := by
        rw [hkeys, if_neg hkey]
        exact hvalue
      exact text_of_given hfilled h hgiven
    obtain ⟨record, hrecord⟩ := exists_stringRecord htexts
    refine ⟨record, hrecord, fun key => ?_⟩
    rw [stringRecord_get hrecord, get_given hfilled h, hkeys]
    split <;> rfl

/-- Without the exact key the worker reads no variant at all. -/
theorem absent_agreed_iff (hfilled : Filled condition.requestedVariant given)
    (h : Reading fields condition) :
    Record.Same [] condition.requestedVariant ↔ ∀ key, lastValue key given = none := by
  constructor
  · intro hsame key
    refine eq_of_bind_text? (fun v hv => text_of_given hfilled h hv) nofun ?_
    rw [← get_given hfilled h, ← hsame key]
    rfl
  · intro hnone key
    rw [get_given hfilled h, hnone]
    rfl

end Given

/-- The worker reads the same variant exactly when the last object has all entries. -/
theorem variant_agreed_iff {condition : PriceCondition} (h : Reading fields condition) :
    (∃ record, withDefault stringRecord [] ((lastValue "requestedVariant" fields).map stored) =
      some record ∧ Record.Same record condition.requestedVariant) ↔
    lastValue "requestedVariant" fields ≠ some .null ∧
      ∀ key, lastValue key (mergedEntries (spelled "requestedVariant" fields)) =
        if key = "__proto__" then none
        else lastValue key (objectEntries (lastValue "requestedVariant" fields)) := by
  have hmerge : (spelled "requestedVariant" fields).foldlM assignStringMap [] =
      some condition.requestedVariant := h.variant
  have hfilled : Filled condition.requestedVariant
      (mergedEntries (spelled "requestedVariant" fields)) := filled_of_foldlM .empty hmerge
  cases hexact : lastValue "requestedVariant" fields with
  | none =>
      have hnone : ∀ key : String,
          (if key = "__proto__" then none else lastValue key (objectEntries none)) = none := by
        intro key
        split <;> rfl
      simp only [hnone, ← absent_agreed_iff hfilled h]
      constructor
      · rintro ⟨record, hrecord, hsame⟩
        obtain rfl : [] = record := Option.some.inj hrecord
        exact ⟨nofun, hsame⟩
      · rintro ⟨-, hsame⟩
        exact ⟨[], rfl, hsame⟩
  | some value =>
      have hmem := mem_spelled_of_lastValue hexact
      rcases null_or_obj (Option.isSome_iff_exists.mpr ⟨_, hmerge⟩) value hmem with rfl | ⟨es, rfl⟩
      · constructor
        · rintro ⟨record, hrecord, -⟩
          cases hrecord
        · rintro ⟨hnull, -⟩
          exact absurd rfl hnull
      · rw [show objectEntries (some (.obj es)) = es from rfl, ← object_agreed_iff hfilled h]
        constructor
        · intro hagreed
          exact ⟨nofun, hagreed⟩
        · intro hagreed
          exact hagreed.2

end Variants

section Agreement

variable {fields : List (String × Json)} {condition : PriceCondition} {read : MonitorCondition}

theorem eq_int_of_int64? {value : Json} {n : Int} (h : value.int64? = some n) : value = .int n := by
  unfold Json.int64? at h
  split at h
  · split at h
    · cases h
      rfl
    · cases h
  · cases h

theorem price_agreed_iff (h : Reading fields condition) :
    (∃ price,
      optional positiveInteger ((lastValue "priceBelowMinor" fields).map stored) = some price ∧
      price.map Int.ofNat = some condition.priceBelowMinor) ↔
    ∃ price, lastValue "priceBelowMinor" fields = some (.int price) ∧
      ((spelled "priceBelowMinor" fields).filterMap int64?).getLast? = some price ∧
      price ≤ 2 ^ 53 - 1 := by
  constructor
  · rintro ⟨read, hread, hprice⟩
    cases hvalue : lastValue "priceBelowMinor" fields with
    | none =>
        rw [hvalue] at hread
        obtain rfl : none = read := Option.some.inj hread
        cases hprice
    | some value =>
        rw [hvalue] at hread
        obtain ⟨n, hn, rfl⟩ := Option.map_eq_some_iff.mp hread
        rw [positiveInteger_stored] at hn
        rcases h.priceFits value (mem_spelled_of_lastValue hvalue) with rfl | hinteger
        · cases hn
        · obtain ⟨q, hq⟩ := Option.isSome_iff_exists.mp hinteger
          obtain rfl := eq_int_of_int64? hq
          obtain ⟨rfl, -, hsafe⟩ := positiveInteger_int.mp hn
          refine ⟨n, rfl, ?_, hsafe⟩
          rw [h.price, ← hprice]
          rfl
  · rintro ⟨price, hvalue, hlast, hsafe⟩
    obtain rfl := Option.some.inj (h.price.symm.trans hlast)
    have hpositive := h.positive
    have hn : positiveInteger (.int condition.priceBelowMinor) =
        some condition.priceBelowMinor.toNat := positiveInteger_int.mpr (by omega)
    refine ⟨some condition.priceBelowMinor.toNat, ?_, ?_⟩
    · rw [hvalue, Option.map_some, optional, positiveInteger_stored, hn]
      rfl
    · rw [Option.map_some]
      exact congrArg some (Int.toNat_of_nonneg hpositive.le)

theorem code_of_schema {value : String} {currency : SupportedCurrency}
    (h : supportedCurrencySchema value = some currency) : currency.code = value := by
  unfold supportedCurrencySchema at h
  split at h <;> cases h <;> rfl

theorem exists_currency {code : String} (h : code ∈ supportedCurrencies) :
    ∃ currency, supportedCurrencySchema code = some currency := by
  simp only [supportedCurrencies, List.mem_cons, List.not_mem_nil, or_false] at h
  rcases h with rfl | rfl | rfl | rfl | rfl <;> exact ⟨_, rfl⟩

theorem currency_agreed_iff (h : Reading fields condition) :
    (∃ currency,
      optional currencySchema ((lastValue "currency" fields).map stored) = some currency ∧
      currency.map SupportedCurrency.code = some condition.currency) ↔
    ∃ code, lastValue "currency" fields = some (.str code) ∧
      ((spelled "currency" fields).filterMap text?).getLast? = some code := by
  constructor
  · rintro ⟨read, hread, hcode⟩
    cases hvalue : lastValue "currency" fields with
    | none =>
        rw [hvalue] at hread
        obtain rfl : none = read := Option.some.inj hread
        cases hcode
    | some value =>
        rw [hvalue] at hread
        obtain ⟨currency, hcurrency, rfl⟩ := Option.map_eq_some_iff.mp hread
        rcases h.currencyFits value (mem_spelled_of_lastValue hvalue) with rfl | htext
        · cases hcurrency
        · cases value with
          | str text =>
              refine ⟨text, rfl, ?_⟩
              rw [h.currency, ← hcode, Option.map_some, code_of_schema hcurrency]
          | null | bool | num | arr | obj => cases htext
  · rintro ⟨code, hvalue, hlast⟩
    obtain rfl := Option.some.inj (h.currency.symm.trans hlast)
    obtain ⟨currency, hcurrency⟩ := exists_currency h.supported
    refine ⟨some currency, ?_, ?_⟩
    · rw [hvalue]
      exact congrArg (Option.map some) hcurrency
    · rw [Option.map_some, code_of_schema hcurrency]

theorem stock_agreed_iff (h : Reading fields condition) :
    (∃ required, withDefault bool? true ((lastValue "requireInStock" fields).map stored) =
      some required ∧ condition.requireInStock = some required) ↔
    (lastValue "requireInStock" fields = (spelled "requireInStock" fields).getLast? ∨
      lastValue "requireInStock" fields = none ∧
        (spelled "requireInStock" fields).getLast? = some (.bool true)) := by
  obtain ⟨b, hlast, hb⟩ := h.stock
  rw [hlast, hb]
  cases hvalue : lastValue "requireInStock" fields with
  | none =>
      constructor
      · rintro ⟨required, hread, hsame⟩
        cases hsame
        cases hread
        exact Or.inr ⟨rfl, rfl⟩
      · rintro (hsame | ⟨-, htrue⟩)
        · cases hsame
        · cases htrue
          exact ⟨true, rfl, rfl⟩
  | some value =>
      rw [Option.map_some, withDefault, bool?_stored]
      constructor
      · rintro ⟨required, hread, hsame⟩
        obtain rfl := Option.some.inj hsame
        cases value with
        | bool c =>
            obtain rfl : c = b := Option.some.inj hread
            exact Or.inl rfl
        | null | str | num | arr | obj => cases hread
      · rintro (hsame | ⟨hnone, -⟩)
        · cases hsame
          exact ⟨b, rfl, rfl⟩
        · cases hnone

theorem legacy_accepted_iff :
    (∃ legacy,
      optional positiveInteger ((lastValue "maxPriceMinor" fields).map stored) = some legacy) ↔
    ∀ value, lastValue "maxPriceMinor" fields = some value →
      (positiveInteger value).isSome = true := by
  cases hvalue : lastValue "maxPriceMinor" fields with
  | none => exact ⟨fun _ => nofun, fun _ => ⟨none, rfl⟩⟩
  | some value =>
      rw [Option.map_some, optional, positiveInteger_stored]
      constructor
      · rintro ⟨legacy, hread⟩ _ ⟨⟩
        obtain ⟨n, hn, -⟩ := Option.map_eq_some_iff.mp hread
        rw [hn]
        rfl
      · intro hsome
        obtain ⟨n, hn⟩ := Option.isSome_iff_exists.mp (hsome value rfl)
        exact ⟨some n, by rw [hn]; rfl⟩

/-- The schema reads the stored object property by property. -/
theorem monitorConditionSchema_stored : monitorConditionSchema (stored (.obj fields)) = some read ↔
    optional positiveInteger ((lastValue "maxPriceMinor" fields).map stored) =
      some read.maxPriceMinor ∧
    optional positiveInteger ((lastValue "priceBelowMinor" fields).map stored) =
      some read.priceBelowMinor ∧
    optional currencySchema ((lastValue "currency" fields).map stored) = some read.currency ∧
    withDefault bool? true ((lastValue "requireInStock" fields).map stored) =
      some read.requireInStock ∧
    withDefault stringRecord [] ((lastValue "requestedVariant" fields).map stored) =
      some read.requestedVariant := by
  simp only [stored, monitorConditionSchema, lastValue_storedFields, Option.bind_eq_bind,
    Option.bind_eq_some_iff, Option.pure_def, Option.some.injEq]
  constructor
  · rintro ⟨_, hmax, _, hprice, _, hcurrency, _, hstock, _, hvariant, rfl⟩
    exact ⟨hmax, hprice, hcurrency, hstock, hvariant⟩
  · rintro ⟨hmax, hprice, hcurrency, hstock, hvariant⟩
    exact ⟨_, hmax, _, hprice, _, hcurrency, _, hstock, _, hvariant, rfl⟩

end Agreement

/-- The worker accepts the stored form of an accepted condition and reads the same
in it exactly when the last value of each exact key is all there is to read. -/
theorem agreed_iff_given_exactly (fields : List (String × Json))
    (haccepted : Accepted (.obj fields)) :
    AgreedOn (.obj fields) ↔ GivenExactly fields := by
  obtain ⟨condition, hdecode, hreading⟩ := exists_reading haccepted
  constructor
  · intro hagreed
    obtain ⟨read, hschema, -, halike⟩ := hagreed condition hdecode
    obtain ⟨hmax, hprice, hcurrency, hstock, hvariant⟩ := monitorConditionSchema_stored.mp hschema
    obtain ⟨hnotNull, hkeys⟩ :=
      (variant_agreed_iff hreading).mp ⟨_, hvariant, halike.requestedVariant⟩
    exact ⟨legacy_accepted_iff.mp ⟨_, hmax⟩,
      (price_agreed_iff hreading).mp ⟨_, hprice, halike.priceBelowMinor⟩,
      (currency_agreed_iff hreading).mp ⟨_, hcurrency, halike.currency⟩,
      (stock_agreed_iff hreading).mp ⟨_, hstock, halike.requireInStock⟩, hnotNull, hkeys⟩
  · intro hexactly condition' hdecode'
    obtain rfl := Option.some.inj (hdecode.symm.trans hdecode')
    obtain ⟨legacy, hmax⟩ := legacy_accepted_iff.mpr hexactly.maxPriceMinor
    obtain ⟨price, hprice, hpriceAlike⟩ := (price_agreed_iff hreading).mpr hexactly.priceBelowMinor
    obtain ⟨currency, hcurrency, hcurrencyAlike⟩ :=
      (currency_agreed_iff hreading).mpr hexactly.currency
    obtain ⟨required, hstock, hstockAlike⟩ :=
      (stock_agreed_iff hreading).mpr hexactly.requireInStock
    obtain ⟨record, hvariant, hsame⟩ :=
      (variant_agreed_iff hreading).mpr ⟨hexactly.notNull, hexactly.requestedVariant⟩
    have hschema : monitorConditionSchema (stored (.obj fields)) =
        some ⟨legacy, price, currency, required, record⟩ :=
      monitorConditionSchema_stored.mpr ⟨hmax, hprice, hcurrency, hstock, hvariant⟩
    exact ⟨_, hschema, congrArg (Option.map some) hschema, hpriceAlike, hcurrencyAlike, hstockAlike,
      hsame⟩

/-- A condition with a further field. -/
def withField (field : String × Json) : List (String × Json) :=
  [("priceBelowMinor", .int 10000), ("currency", .str "USD"), ("requireInStock", .bool true), field]

theorem legacyText_refused_by_worker :
    ¬ ∀ fields, Accepted (.obj fields) → AgreedOn (.obj fields) := by
  intro h
  have hagreed := h (withField ("maxPriceMinor", .str "100.00")) (by decide)
  obtain ⟨read, hschema, -⟩ := hagreed ⟨10000, "USD", some true, []⟩ (by rfl)
  have hrefused : monitorConditionSchema
      (stored (.obj (withField ("maxPriceMinor", .str "100.00")))) = none := by
    rfl
  rw [hrefused] at hschema
  cases hschema

theorem blackVariant_agreed :
    Accepted (.obj (withField ("requestedVariant", .obj [("color", .str "black")]))) ∧
      AgreedOn (.obj (withField ("requestedVariant", .obj [("color", .str "black")]))) := by
  have haccepted :
      Accepted (.obj (withField ("requestedVariant", .obj [("color", .str "black")]))) := by
    decide
  refine ⟨haccepted, (agreed_iff_given_exactly _ haccepted).mpr ⟨nofun, ?_, ?_, ?_, nofun, ?_⟩⟩
  · exact ⟨10000, rfl, rfl, by norm_num⟩
  · exact ⟨"USD", rfl, rfl⟩
  · exact Or.inl rfl
  · intro key
    split
    · rename_i hproto
      subst hproto
      rfl
    · rfl

end PriceScout.Worker.MonitorConditions
