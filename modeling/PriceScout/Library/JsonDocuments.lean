import Mathlib.Algebra.Order.Ring.Int
import PriceScout.Library.GoStrings

/-!
JSON documents, their texts, the containment test of Postgres and the decoding
of Go's `encoding/json` into struct fields.
-/

namespace PriceScout.Library.JsonDocuments

open PriceScout.Library.GoStrings

universe u

/-- A JSON document. A number is the literal `unscaled * 10 ^ (-scale)`, with
the exponent part of the literal when it has one. -/
inductive Json where
  | null
  | bool (value : Bool)
  | num (unscaled : Int) (scale : Nat) (exponent : Option Int)
  | str (value : String)
  | arr (items : List Json)
  | obj (fields : List (String × Json))

namespace Json

def int (n : Int) : Json :=
  .num n 0 none

/-- `document @> '{"name": true}'::jsonb`. -/
def containsTrue (name : String) : Json → Bool
  | .obj fields => fields.any fun field =>
      decide (field.1 = name) && match field.2 with
        | .bool value => value
        | _ => false
  | _ => false

/-- The values that decoding assigns, in order, to a struct field of this name:
keys match without regard to case, and `null` decodes to the zero struct. A
document that is no object does not decode. -/
def fieldValues (name : String) : Json → Option (List Json)
  | .obj fields => some ((fields.filter fun field => equalFold field.1 name).map (·.2))
  | .null => some []
  | _ => none

/-- A number literal that an `int64` accepts. -/
def int64? : Json → Option Int
  | .num unscaled 0 none =>
      if -(2 ^ 63) ≤ unscaled ∧ unscaled < 2 ^ 63 then some unscaled else none
  | _ => none

/-- Assign a value to a `*int64` field: `null` clears it. -/
def assignInt64Ptr (_current : Option Int) : Json → Option (Option Int)
  | .null => some none
  | value => value.int64?.map some

/-- Assign a value to a `bool` field: `null` leaves it as it is. -/
def assignBool (current : Bool) : Json → Option Bool
  | .null => some current
  | .bool value => some value
  | _ => none

/-- Assign a value to a `string` field: `null` leaves it as it is. -/
def assignString (current : String) : Json → Option String
  | .null => some current
  | .str value => some value
  | _ => none

/-- Decode one struct field; every value under its name must fit its type. -/
def decodeField {α : Type} (assign : α → Json → Option α) (zero : α) (name : String)
    (document : Json) : Option α :=
  (document.fieldValues name).bind fun values => values.foldlM assign zero

def decodeInt64Ptr (name : String) (document : Json) : Option (Option Int) :=
  document.decodeField assignInt64Ptr none name

def decodeBool (name : String) (document : Json) : Option Bool :=
  document.decodeField assignBool false name

def decodeString (name : String) (document : Json) : Option String :=
  document.decodeField assignString "" name

/-- A field of a Go struct: its JSON name and how a value is assigned to it. -/
structure Field (α : Type) where
  name : String
  assign : α → Json → Option α

/-- The field that a key names: by its exact name, or else without regard to case. -/
def findField {α : Type} (fields : List (Field α)) (key : String) : Option (Field α) :=
  (fields.find? fun field => decide (field.name = key)).orElse fun _ =>
    fields.find? fun field => equalFold field.name key

/-- Decode the keys of an object in their order; an unknown key is an error. -/
def decodeFields {α : Type} (fields : List (Field α)) : α → List (String × Json) → Option α
  | current, [] => some current
  | current, (key, value) :: rest => do
      let field ← findField fields key
      let next ← field.assign current value
      decodeFields fields next rest

/-- Decode into a struct, with `DisallowUnknownFields`. -/
def decodeStruct {α : Type} (fields : List (Field α)) (current : α) : Json → Option α
  | .obj pairs => decodeFields fields current pairs
  | .null => some current
  | _ => none

/-- Assign a value to an `int64` field: `null` leaves it as it is. -/
def assignInt64 (current : Int) : Json → Option Int
  | .null => some current
  | value => value.int64?

theorem assignInt64_of_ne_null {current : Int} {value : Json} (h : value ≠ .null) :
    assignInt64 current value = value.int64? := by
  cases value with
  | null => exact absurd rfl h
  | bool _ | num _ _ _ | str _ | arr _ | obj _ => rfl

/-- Assign a value to a `*bool` field: `null` clears it. -/
def assignBoolPtr : Json → Option (Option Bool)
  | .null => some none
  | .bool value => some (some value)
  | _ => none

/-- Assign a value to a field of type pointer to struct: `null` clears it. -/
def assignPtr {α : Type} (fields : List (Field α)) (zero : α) (current : Option α) :
    Json → Option (Option α)
  | .null => some none
  | value => (decodeStruct fields (current.getD zero) value).map some

/-- Assign a value to a field of type slice of structs: `null` clears it. -/
def assignSlice {α : Type} (fields : List (Field α)) (zero : α) : Json → Option (List α)
  | .null => some []
  | .arr items => items.mapM fun item => decodeStruct fields zero item
  | _ => none

section Assignments

variable {α : Type} {values : List Json} {zero a : α}

/-- The values that an object gives under a name, without regard to case. -/
def spelled (name : String) (fields : List (String × Json)) : List Json :=
  (fields.filter fun field => equalFold field.1 name).map (·.2)

/-- The value that an object keeps under a key, which is the last one. -/
def lastValue {β : Type u} (key : String) (entries : List (String × β)) : Option β :=
  ((entries.filter fun entry => decide (entry.1 = key)).getLast?).map (·.2)

theorem equalFold_self (s : String) : equalFold s s = true :=
  beq_self_eq_true _

theorem mem_spelled_of_lastValue {name : String} {fields : List (String × Json)} {value : Json}
    (h : lastValue name fields = some value) : value ∈ spelled name fields := by
  obtain ⟨field, hfield, rfl⟩ := Option.map_eq_some_iff.mp h
  obtain ⟨hmem, hname⟩ := List.mem_filter.mp (List.mem_of_getLast? hfield)
  obtain rfl : field.1 = name := by simpa using hname
  exact List.mem_map_of_mem (List.mem_filter.mpr ⟨hmem, equalFold_self _⟩)

theorem decodeField_obj {assign : α → Json → Option α} {name : String}
    {fields : List (String × Json)} :
    (obj fields).decodeField assign zero name = (spelled name fields).foldlM assign zero :=
  rfl

/-- Every value is `null` or fits the type. -/
def Fits (parse : Json → Option α) (values : List Json) : Prop :=
  ∀ value ∈ values, value = .null ∨ (parse value).isSome = true

theorem fits_nil {parse : Json → Option α} : Fits parse [] :=
  fun _ h => absurd h List.not_mem_nil

theorem fits_cons {parse : Json → Option α} {value : Json} :
    Fits parse (value :: values) ↔
      (value = .null ∨ (parse value).isSome = true) ∧ Fits parse values :=
  List.forall_mem_cons

/-- An assignment that `null` leaves undone. -/
structure Keeps (assign : α → Json → Option α) (parse : Json → Option α) : Prop where
  null : ∀ current, assign current .null = some current
  parseNull : parse .null = none
  other : ∀ current value, value ≠ .null → assign current value = parse value

/-- An assignment to a pointer, which `null` clears. -/
structure Clears (assign : Option α → Json → Option (Option α)) (parse : Json → Option α) :
    Prop where
  null : ∀ current, assign current .null = some none
  parseNull : parse .null = none
  other : ∀ current value, value ≠ .null → assign current value = (parse value).map some

def text? : Json → Option String
  | .str value => some value
  | _ => none

def bool? : Json → Option Bool
  | .bool value => some value
  | _ => none

theorem keeps_int64 : Keeps assignInt64 int64? :=
  ⟨fun _ => rfl, rfl, fun _ value h => by cases value <;> first | rfl | exact absurd rfl h⟩

theorem keeps_string : Keeps assignString text? :=
  ⟨fun _ => rfl, rfl, fun _ value h => by cases value <;> first | rfl | exact absurd rfl h⟩

theorem keeps_bool : Keeps assignBool bool? :=
  ⟨fun _ => rfl, rfl, fun _ value h => by cases value <;> first | rfl | exact absurd rfl h⟩

theorem clears_int64Ptr : Clears assignInt64Ptr int64? :=
  ⟨fun _ => rfl, rfl, fun _ value h => by cases value <;> first | rfl | exact absurd rfl h⟩

theorem clears_boolPtr : Clears (fun _ => assignBoolPtr) bool? :=
  ⟨fun _ => rfl, rfl, fun _ value h => by cases value <;> first | rfl | exact absurd rfl h⟩

/-- What is left after all values have been assigned is the last one that is not `null`. -/
theorem Keeps.foldlM_eq_some {assign : α → Json → Option α} {parse : Json → Option α}
    (h : Keeps assign parse) : values.foldlM assign zero = some a ↔
      Fits parse values ∧ a = (values.filterMap parse).getLast?.getD zero := by
  induction values generalizing zero with
  | nil => simp [fits_nil, eq_comm]
  | cons value rest ih =>
      rw [List.foldlM_cons]
      by_cases hnull : value = .null
      · subst hnull
        simp only [h.null, Option.bind_eq_bind, Option.bind_some, ih]
        simp [fits_cons, h.parseNull]
      · rw [h.other zero value hnull]
        cases hparse : parse value with
        | none =>
            refine ⟨fun hsome => absurd hsome (by simp), fun ⟨hfits, _⟩ => ?_⟩
            exact absurd (fits_cons.mp hfits).1 (by simp [hnull, hparse])
        | some b =>
            simp only [Option.bind_eq_bind, Option.bind_some, ih]
            simp [fits_cons, hparse, List.getLast?_cons]

/-- What is left of a pointer is what the last value gives. -/
theorem Clears.foldlM_eq_some {assign : Option α → Json → Option (Option α)}
    {parse : Json → Option α} (h : Clears assign parse) {start result : Option α} :
    values.foldlM assign start = some result ↔
      Fits parse values ∧ result = (values.getLast?.map parse).getD start := by
  induction values generalizing start with
  | nil => simp [fits_nil, eq_comm]
  | cons value rest ih =>
      rw [List.foldlM_cons]
      by_cases hnull : value = .null
      · subst hnull
        simp only [h.null, Option.bind_eq_bind, Option.bind_some, ih]
        cases hlast : rest.getLast? <;> simp [fits_cons, List.getLast?_cons, hlast, h.parseNull]
      · rw [h.other start value hnull]
        cases hparse : parse value with
        | none =>
            refine ⟨fun hsome => absurd hsome (by simp), fun ⟨hfits, _⟩ => ?_⟩
            exact absurd (fits_cons.mp hfits).1 (by simp [hnull, hparse])
        | some b =>
            simp only [Option.map_some, Option.bind_eq_bind, Option.bind_some, ih]
            cases hlast : rest.getLast? <;> simp [fits_cons, List.getLast?_cons, hlast, hparse]

/-- What a field keeps of an object. -/
theorem Keeps.decodeField_eq_some {assign : α → Json → Option α} {parse : Json → Option α}
    (h : Keeps assign parse) {name : String} {fields : List (String × Json)} :
    (obj fields).decodeField assign zero name = some a ↔ Fits parse (spelled name fields) ∧
      a = ((spelled name fields).filterMap parse).getLast?.getD zero := by
  rw [decodeField_obj, h.foldlM_eq_some]

theorem Clears.decodeField_eq_some {assign : Option α → Json → Option (Option α)}
    {parse : Json → Option α} (h : Clears assign parse) {name : String}
    {fields : List (String × Json)} {result : Option α} :
    (obj fields).decodeField assign none name = some result ↔ Fits parse (spelled name fields) ∧
      result = (spelled name fields).getLast?.bind parse := by
  rw [decodeField_obj, h.foldlM_eq_some]
  cases (spelled name fields).getLast? <;> rfl

end Assignments

section Items

variable {α β : Type} {f : α → Option β} {items : List α} {values : List β}

/-- What the items of a list decode to, item by item. -/
theorem exists_of_mapM (h : items.mapM f = some values) :
    (∀ item ∈ items, ∃ value ∈ values, f item = some value) ∧
      ∀ value ∈ values, ∃ item ∈ items, f item = some value := by
  induction items generalizing values with
  | nil =>
      obtain rfl : values = [] := by simpa [eq_comm] using h
      simp
  | cons item rest ih =>
      simp only [List.mapM_cons, Option.bind_eq_bind, Option.bind_eq_some_iff, Option.pure_def,
        Option.some.injEq] at h
      obtain ⟨value, hvalue, others, hothers, rfl⟩ := h
      obtain ⟨hitems, hvalues⟩ := ih hothers
      refine ⟨?_, ?_⟩
      · rintro other (_ | ⟨_, hmem⟩)
        · exact ⟨value, List.mem_cons_self, hvalue⟩
        · obtain ⟨v, hv, hdecoded⟩ := hitems other hmem
          exact ⟨v, List.mem_cons_of_mem _ hv, hdecoded⟩
      · rintro v (_ | ⟨_, hmem⟩)
        · exact ⟨item, List.mem_cons_self, hvalue⟩
        · obtain ⟨other, hother, hdecoded⟩ := hvalues v hmem
          exact ⟨other, List.mem_cons_of_mem _ hother, hdecoded⟩

theorem exists_mapM (h : ∀ item ∈ items, (f item).isSome = true) :
    ∃ values, items.mapM f = some values := by
  induction items with
  | nil => exact ⟨[], rfl⟩
  | cons item rest ih =>
      obtain ⟨value, hvalue⟩ := Option.isSome_iff_exists.mp (h item List.mem_cons_self)
      obtain ⟨values, hvalues⟩ := ih fun other hother => h other (List.mem_cons_of_mem _ hother)
      exact ⟨value :: values, by simp [List.mapM_cons, hvalue, hvalues]⟩

end Items

/-- A number literal that a `float64` takes without overflow. -/
def fitsFloat64 (unscaled : Int) (scale : Nat) (exponent : Option Int) : Bool :=
  let shift := exponent.getD 0 - scale
  let limit := 2 ^ 1024 - 2 ^ 970
  if 0 ≤ shift then unscaled.natAbs * 10 ^ shift.toNat < limit
  else unscaled.natAbs < limit * 10 ^ (-shift).toNat

mutual

/-- Whether a document decodes into an `any`. -/
def decodesToAny : Json → Bool
  | .num unscaled scale exponent => fitsFloat64 unscaled scale exponent
  | .arr items => itemsDecodeToAny items
  | .obj fields => fieldsDecodeToAny fields
  | .null | .bool _ | .str _ => true

def itemsDecodeToAny : List Json → Bool
  | [] => true
  | item :: rest => decodesToAny item && itemsDecodeToAny rest

def fieldsDecodeToAny : List (String × Json) → Bool
  | [] => true
  | (_, value) :: rest => decodesToAny value && fieldsDecodeToAny rest

end

/-- The text of a number literal. -/
def numText (unscaled : Int) (scale : Nat) (exponent : Option Int) : List Char :=
  let digits := Nat.toDigits 10 unscaled.natAbs
  let digits := List.replicate (scale + 1 - digits.length) '0' ++ digits
  let integer := digits.take (digits.length - scale)
  let fraction := digits.drop (digits.length - scale)
  (if unscaled < 0 then ['-'] else []) ++ integer ++
    (if scale = 0 then [] else '.' :: fraction) ++
    match exponent with
    | none => []
    | some e => 'e' :: (if e < 0 then '-' else '+') :: Nat.toDigits 10 e.natAbs

/-- A character inside a string literal, as `JSON.stringify` writes it. -/
def quoteChar (c : Char) : List Char :=
  if c = '"' then ['\\', '"']
  else if c = '\\' then ['\\', '\\']
  else if c = '\n' then ['\\', 'n']
  else if c = '\r' then ['\\', 'r']
  else if c = '\t' then ['\\', 't']
  else if c.toNat = 8 then ['\\', 'b']
  else if c.toNat = 12 then ['\\', 'f']
  else if c.toNat < 32 then
    ['\\', 'u', '0', '0'] ++ (if c.toNat < 16 then ['0'] else []) ++ Nat.toDigits 16 c.toNat
  else [c]

def quote (s : String) : List Char :=
  '"' :: s.toList.flatMap quoteChar ++ ['"']

mutual

/-- The text that `JSON.stringify` gives for a document. -/
def stringify : Json → List Char
  | .null => ['n', 'u', 'l', 'l']
  | .bool true => ['t', 'r', 'u', 'e']
  | .bool false => ['f', 'a', 'l', 's', 'e']
  | .num unscaled scale exponent => numText unscaled scale exponent
  | .str value => quote value
  | .arr items => '[' :: stringifyItems items ++ [']']
  | .obj fields => '{' :: stringifyFields fields ++ ['}']

def stringifyItems : List Json → List Char
  | [] => []
  | [item] => stringify item
  | item :: rest => stringify item ++ ',' :: stringifyItems rest

def stringifyFields : List (String × Json) → List Char
  | [] => []
  | [(name, value)] => quote name ++ ':' :: stringify value
  | (name, value) :: rest => quote name ++ ':' :: stringify value ++ ',' :: stringifyFields rest

end

/-- The length of a document's text, in bytes. -/
def byteSize (document : Json) : Nat :=
  (document.stringify.map Char.utf8Size).sum

example : (obj [("Currency", .str "USD")]).decodeString "currency" = some "USD" := by decide

example : (obj [("limit", .num 15 1 none)]).decodeInt64Ptr "limit" = none := by decide

example : (obj [("a", .arr [.num (-5) 2 none, .num 1 0 (some 21)])]).stringify =
    "\x7b\"a\":[-0.05,1e+21]\x7d".toList := by decide

end Json

end PriceScout.Library.JsonDocuments
