import PriceScout.Library.JsonDocuments

/-!
The texts of JSON documents: what `encoding/json` writes, and what a parser reads back.
-/

namespace PriceScout.Library.JsonTexts

open PriceScout.Library.JsonDocuments

def isSpace (c : Char) : Bool :=
  c = ' ' || c = '\t' || c = '\n' || c = '\r'

def skipSpace (input : List Char) : List Char :=
  input.dropWhile isSpace

def hexDigit? (c : Char) : Option Nat :=
  if '0' ≤ c && c ≤ '9' then some (c.toNat - 48)
  else if 'a' ≤ c && c ≤ 'f' then some (c.toNat - 87)
  else if 'A' ≤ c && c ≤ 'F' then some (c.toNat - 55)
  else none

def hexUnit (a b c d : Char) : Option Nat := do
  let a ← hexDigit? a
  let b ← hexDigit? b
  let c ← hexDigit? c
  let d ← hexDigit? d
  return 4096 * a + 256 * b + 16 * c + d

/-- The character that a single letter stands for after a backslash. -/
def letterEscape (c : Char) : Option Char :=
  if c = '"' ∨ c = '\\' ∨ c = '/' then some c
  else if c = 'b' then some '\x08'
  else if c = 'f' then some '\x0c'
  else if c = 'n' then some '\n'
  else if c = 'r' then some '\r'
  else if c = 't' then some '\t'
  else none

/-- Four hexadecimal digits. -/
def readUnit : List Char → Option (Nat × List Char)
  | a :: b :: c :: d :: rest => (hexUnit a b c d).map fun unit => (unit, rest)
  | _ => none

/-- The second of two surrogates. -/
def readLow (input : List Char) : Option (Nat × List Char) := do
  let rest ← if ['\\', 'u'].isPrefixOf input then some (input.drop 2) else none
  let (unit, rest) ← readUnit rest
  if 0xDC00 ≤ unit ∧ unit < 0xE000 then some (unit, rest) else none

/-- The character of an escape whose backslash has been read. Two surrogates make
one character, and a surrogate without the other makes none. -/
def readEscape : List Char → Option (Char × List Char)
  | [] => none
  | c :: rest =>
      if c = 'u' then do
        let (unit, rest) ← readUnit rest
        if unit < 0xD800 ∨ 0xE000 ≤ unit then some (Char.ofNat unit, rest)
        else if unit < 0xDC00 then do
          let (low, rest) ← readLow rest
          some (Char.ofNat (0x10000 + 0x400 * (unit - 0xD800) + (low - 0xDC00)), rest)
        else none
      else (letterEscape c).map fun c => (c, rest)

/-- The rest of a string whose opening quote has been read. -/
def parseString : Nat → List Char → Option (List Char × List Char)
  | 0, _ => none
  | _ + 1, [] => none
  | fuel + 1, c :: rest =>
      if c = '"' then some ([], rest)
      else if c = '\\' then do
        let (c, rest) ← readEscape rest
        let (value, rest) ← parseString fuel rest
        return (c :: value, rest)
      else if c.toNat < 32 then none
      else do
        let (value, rest) ← parseString fuel rest
        return (c :: value, rest)

def signed (negative : Bool) (value : Nat) : Int :=
  if negative then -value else value

/-- The fraction of a number, if there is one. -/
def parseFraction : List Char → Option (List Char × List Char)
  | [] => some ([], [])
  | c :: input =>
      if c = '.' then
        let (digits, rest) := input.span Char.isDigit
        if digits = [] then none else some (digits, rest)
      else some ([], c :: input)

/-- The exponent of a number, if there is one. -/
def parseExponent : List Char → Option (Option Int × List Char)
  | [] => some (none, [])
  | c :: input =>
      if c = 'e' ∨ c = 'E' then
        let unsigned :=
          if input.head? = some '-' ∨ input.head? = some '+' then input.tail else input
        let (digits, rest) := unsigned.span Char.isDigit
        if digits = [] then none
        else some (some (signed (input.head? = some '-') (Nat.ofDigitChars 10 digits 0)), rest)
      else some (none, c :: input)

def parseUnsigned (negative : Bool) (input : List Char) : Option (Json × List Char) :=
  let (integer, rest) := input.span Char.isDigit
  if integer = [] ∨ integer.head? = some '0' ∧ integer ≠ ['0'] then none
  else do
    let (fraction, rest) ← parseFraction rest
    let (exponent, rest) ← parseExponent rest
    return (.num (signed negative (Nat.ofDigitChars 10 (integer ++ fraction) 0)) fraction.length
      exponent, rest)

def parseNumber (input : List Char) : Option (Json × List Char) :=
  if input.head? = some '-' then parseUnsigned true input.tail else parseUnsigned false input

def parseWord (word : List Char) (document : Json) (input : List Char) :
    Option (Json × List Char) :=
  if word.isPrefixOf input then some (document, input.drop word.length) else none

mutual

/-- A document, and what is left of the text behind it. -/
def parseValue : Nat → List Char → Option (Json × List Char)
  | 0, _ => none
  | fuel + 1, input =>
      match skipSpace input with
      | [] => none
      | c :: rest =>
          if c = 'n' then parseWord "null".toList .null (c :: rest)
          else if c = 't' then parseWord "true".toList (.bool true) (c :: rest)
          else if c = 'f' then parseWord "false".toList (.bool false) (c :: rest)
          else if c = '"' then
            (parseString fuel rest).map fun value => (.str (String.ofList value.1), value.2)
          else if c = '[' then
            if (skipSpace rest).head? = some ']' then some (.arr [], (skipSpace rest).tail)
            else (parseItems fuel rest).map fun items => (.arr items.1, items.2)
          else if c = '{' then
            if (skipSpace rest).head? = some '}' then some (.obj [], (skipSpace rest).tail)
            else (parseFields fuel rest).map fun fields => (.obj fields.1, fields.2)
          else parseNumber (c :: rest)

def parseItems : Nat → List Char → Option (List Json × List Char)
  | 0, _ => none
  | fuel + 1, input => do
      let (item, rest) ← parseValue fuel input
      match skipSpace rest with
      | [] => none
      | c :: rest =>
          if c = ',' then (parseItems fuel rest).map fun items => (item :: items.1, items.2)
          else if c = ']' then some ([item], rest)
          else none

def parseFields : Nat → List Char → Option (List (String × Json) × List Char)
  | 0, _ => none
  | fuel + 1, input => do
      let rest ← if (skipSpace input).head? = some '"' then some (skipSpace input).tail else none
      let (name, rest) ← parseString fuel rest
      let rest ← if (skipSpace rest).head? = some ':' then some (skipSpace rest).tail else none
      let (value, rest) ← parseValue fuel rest
      match skipSpace rest with
      | [] => none
      | c :: rest =>
          if c = ',' then
            (parseFields fuel rest).map fun fields =>
              ((String.ofList name, value) :: fields.1, fields.2)
          else if c = '}' then some ([(String.ofList name, value)], rest)
          else none

end

/-- `JSON.parse`, for texts whose strings are Unicode. -/
def parse (text : List Char) : Option Json := do
  let (document, rest) ← parseValue (text.length + 1) text
  if skipSpace rest = [] then some document else none

section Writing

variable (quoteChar : Char → List Char)

def quote (s : String) : List Char :=
  '"' :: s.toList.flatMap quoteChar ++ ['"']

mutual

/-- The text of a document, without spaces. -/
def render : Json → List Char
  | .null => "null".toList
  | .bool true => "true".toList
  | .bool false => "false".toList
  | .num unscaled scale exponent => Json.numText unscaled scale exponent
  | .str value => quote quoteChar value
  | .arr items => '[' :: renderItems items ++ [']']
  | .obj fields => '{' :: renderFields fields ++ ['}']

def renderItems : List Json → List Char
  | [] => []
  | [item] => render item
  | item :: rest => render item ++ ',' :: renderItems rest

def renderFields : List (String × Json) → List Char
  | [] => []
  | [(name, value)] => quote quoteChar name ++ ':' :: render value
  | (name, value) :: rest =>
      quote quoteChar name ++ ':' :: render value ++ ',' :: renderFields rest

end

end Writing

def unicodeEscape (n : Nat) : List Char :=
  ['\\', 'u', Nat.digitChar (n / 4096 % 16), Nat.digitChar (n / 256 % 16),
    Nat.digitChar (n / 16 % 16), Nat.digitChar (n % 16)]

/-- A character inside a string, as `encoding/json` writes it. -/
def goQuoteChar (c : Char) : List Char :=
  if c = '"' ∨ c = '\\' then ['\\', c]
  else if c = '\x08' then ['\\', 'b']
  else if c = '\x0c' then ['\\', 'f']
  else if c = '\n' then ['\\', 'n']
  else if c = '\r' then ['\\', 'r']
  else if c = '\t' then ['\\', 't']
  else if c.toNat < 32 ∨ c = '<' ∨ c = '>' ∨ c = '&' ∨ c = '\u2028' ∨ c = '\u2029' then
    unicodeEscape c.toNat
  else [c]

/-- `json.Marshal`, for a value that is the document. -/
def marshal (document : Json) : List Char :=
  render goQuoteChar document

/-- How a character may be written inside a string: as itself or as an escape. -/
structure Readable (quoteChar : Char → List Char) (c : Char) : Prop where
  read : (quoteChar c = [c] ∧ c ≠ '"' ∧ c ≠ '\\' ∧ 32 ≤ c.toNat) ∨
    ∃ escape, quoteChar c = '\\' :: escape ∧ ∀ rest, readEscape (escape ++ rest) = some (c, rest)

section Strings

variable {quoteChar : Char → List Char}

theorem hexDigit?_digitChar : ∀ d < 16, hexDigit? (Nat.digitChar d) = some d := by
  decide

theorem readUnit_unicodeEscape {n : Nat} (h : n < 65536) (rest : List Char) :
    readUnit ((unicodeEscape n).drop 2 ++ rest) = some (n, rest) := by
  have hunit : ∀ d, hexDigit? (Nat.digitChar (d % 16)) = some (d % 16) :=
    fun d => hexDigit?_digitChar _ (Nat.mod_lt d (by decide))
  simp only [unicodeEscape, List.drop_succ_cons, List.drop_zero, List.cons_append, List.nil_append,
    readUnit, hexUnit, hunit, Option.bind_eq_bind, Option.bind_some, Option.pure_def,
    Option.map_some, Option.some.injEq, Prod.mk.injEq, and_true]
  omega

theorem readable_unicodeEscape {c : Char} (h : c.toNat < 0xD800)
    (hquote : quoteChar c = unicodeEscape c.toNat) : Readable quoteChar c := by
  refine ⟨Or.inr ⟨_, hquote, fun rest => ?_⟩⟩
  have hunit := readUnit_unicodeEscape (h.trans (by decide)) rest
  change readEscape ('u' :: ((unicodeEscape c.toNat).drop 2 ++ rest)) = some (c, rest)
  rw [readEscape, if_pos rfl, hunit]
  simp [h, Char.ofNat_toNat]

theorem readable_goQuoteChar (c : Char) : Readable goQuoteChar c := by
  have hletters : ∀ letter, letter ≠ 'u' → letterEscape letter = some c →
      goQuoteChar c = ['\\', letter] → Readable goQuoteChar c := by
    intro letter hu hletter hquote
    refine ⟨Or.inr ⟨[letter], hquote, fun rest => ?_⟩⟩
    rw [List.cons_append, List.nil_append, readEscape, if_neg hu, hletter, Option.map_some]
  by_cases hspecial : c = '"' ∨ c = '\\'
  · refine hletters c ?_ ?_ (if_pos hspecial)
    · rcases hspecial with rfl | rfl <;> decide
    · rcases hspecial with rfl | rfl <;> rfl
  by_cases hb : c = '\x08'
  · subst hb
    exact hletters 'b' (by decide) rfl rfl
  by_cases hf : c = '\x0c'
  · subst hf
    exact hletters 'f' (by decide) rfl rfl
  by_cases hn : c = '\n'
  · subst hn
    exact hletters 'n' (by decide) rfl rfl
  by_cases hr : c = '\r'
  · subst hr
    exact hletters 'r' (by decide) rfl rfl
  by_cases ht : c = '\t'
  · subst ht
    exact hletters 't' (by decide) rfl rfl
  by_cases hescaped : c.toNat < 32 ∨ c = '<' ∨ c = '>' ∨ c = '&' ∨ c = '\u2028' ∨ c = '\u2029'
  · refine readable_unicodeEscape ?_ ?_
    · rcases hescaped with hlow | rfl | rfl | rfl | rfl | rfl
      · exact hlow.trans (by decide)
      all_goals decide
    · simp only [goQuoteChar, if_neg hspecial, if_neg hb, if_neg hf, if_neg hn, if_neg hr,
        if_neg ht, if_pos hescaped]
  · refine ⟨Or.inl ⟨?_, fun h => hspecial (Or.inl h), fun h => hspecial (Or.inr h), ?_⟩⟩
    · simp only [goQuoteChar, if_neg hspecial, if_neg hb, if_neg hf, if_neg hn, if_neg hr,
        if_neg ht, if_neg hescaped]
    · exact Nat.le_of_not_lt fun hlow => hescaped (Or.inl hlow)

/-- A string is read as it was written, up to its closing quote. -/
theorem parseString_quote (hquote : ∀ c, Readable quoteChar c) {chars : List Char} {fuel : Nat}
    (hfuel : chars.length < fuel) (rest : List Char) :
    parseString fuel (chars.flatMap quoteChar ++ '"' :: rest) = some (chars, rest) := by
  induction chars generalizing fuel with
  | nil =>
      obtain ⟨fuel, rfl⟩ := Nat.exists_eq_succ_of_ne_zero (Nat.ne_of_gt hfuel)
      rfl
  | cons c chars ih =>
      obtain ⟨fuel, rfl⟩ := Nat.exists_eq_succ_of_ne_zero (Nat.ne_of_gt (Nat.zero_lt_of_lt hfuel))
      have hrest := ih (Nat.lt_of_succ_lt_succ hfuel)
      rw [List.flatMap_cons, List.append_assoc]
      rcases (hquote c).read with ⟨hself, hq, hbackslash, hlow⟩ | ⟨escape, hescape, hread⟩
      · rw [hself, List.cons_append, List.nil_append, parseString, if_neg hq, if_neg hbackslash,
          if_neg (Nat.not_lt.mpr hlow), hrest]
        rfl
      · rw [hescape, List.cons_append, parseString, if_neg (by decide), if_pos rfl, hread]
        simp [hrest]

end Strings

/-- What follows a number does not go on with it. -/
def Stops (rest : List Char) : Prop :=
  ∀ c ∈ rest.head?, c.isDigit = false ∧ c ≠ '.' ∧ c ≠ 'e' ∧ c ≠ 'E'

section Numbers

variable {n : Nat} {rest digits : List Char}

theorem span_append {α : Type} {p : α → Bool} {l rest : List α} (hl : ∀ a ∈ l, p a = true)
    (hrest : ∀ a ∈ rest.head?, p a = false) : (l ++ rest).span p = (l, rest) := by
  rw [List.span_eq_takeWhile_dropWhile, List.takeWhile_append_of_pos hl,
    List.dropWhile_append_of_pos hl]
  cases rest with
  | nil => simp
  | cons a rest => simp [hrest a rfl]

/-- A number is written without zeros in front. -/
theorem toDigits_of_head?_zero (h : (Nat.toDigits 10 n).head? = some '0') :
    Nat.toDigits 10 n = ['0'] := by
  induction n using Nat.strong_induction_on with
  | _ n ih =>
      rw [Nat.toDigits_eq_if (by decide)] at h ⊢
      split at h
      · rw [if_pos ‹_›]
        simpa using h
      · rename_i hlarge
        have hne : Nat.toDigits 10 (n / 10) ≠ [] := Nat.toDigits_ne_nil
        rw [List.head?_append_of_ne_nil _ hne] at h
        have hzero := ih (n / 10) (by omega) h
        have hvalue := Nat.ofDigitChars_ten_toDigits (n := n / 10)
        rw [hzero] at hvalue
        have hnone : Nat.ofDigitChars 10 ['0'] 0 = 0 := rfl
        omega

/-- The digits of a number, enough of them to place the point. -/
def padded (n scale : Nat) : List Char :=
  List.replicate (scale + 1 - (Nat.toDigits 10 n).length) '0' ++ Nat.toDigits 10 n

theorem isDigit_of_mem_padded {scale : Nat} {c : Char} (h : c ∈ padded n scale) :
    c.isDigit = true := by
  rcases List.mem_append.mp h with hzero | hdigit
  · rw [List.eq_of_mem_replicate hzero]
    rfl
  · exact Nat.isDigit_of_mem_toDigits (by decide) (by decide) hdigit

theorem lt_length_padded (n scale : Nat) : scale < (padded n scale).length := by
  rw [padded, List.length_append, List.length_replicate]
  omega

theorem ofDigitChars_padded (n scale : Nat) : Nat.ofDigitChars 10 (padded n scale) 0 = n := by
  rw [padded, Nat.ofDigitChars_append, Nat.ofDigitChars_replicate_zero, Nat.mul_zero,
    Nat.ofDigitChars_ten_toDigits]

theorem integer_of_head?_zero {scale : Nat}
    (h : ((padded n scale).take ((padded n scale).length - scale)).head? = some '0') :
    (padded n scale).take ((padded n scale).length - scale) = ['0'] := by
  by_cases hlong : scale + 1 ≤ (Nat.toDigits 10 n).length
  · have hpadded : padded n scale = Nat.toDigits 10 n := by
      rw [padded, Nat.sub_eq_zero_of_le hlong]
      rfl
    rw [hpadded] at h ⊢
    rw [List.head?_take, if_neg (by omega)] at h
    have hzero := toDigits_of_head?_zero h
    rw [hzero] at hlong ⊢
    obtain rfl : scale = 0 := by simpa using hlong
    rfl
  · have hlength : (padded n scale).length = scale + 1 := by
      rw [padded, List.length_append, List.length_replicate]
      omega
    rw [hlength, Nat.add_sub_cancel_left] at h ⊢
    rw [List.head?_take, if_neg (by decide)] at h
    cases hdigits : padded n scale with
    | nil => simp [hdigits] at h
    | cons c digits =>
        rw [hdigits] at h
        simpa using h

theorem parseFraction_digits (hne : digits ≠ []) (hdigits : ∀ c ∈ digits, c.isDigit = true)
    (hrest : ∀ c ∈ rest.head?, c.isDigit = false) :
    parseFraction ('.' :: (digits ++ rest)) = some (digits, rest) := by
  rw [parseFraction, if_pos rfl, span_append hdigits hrest]
  exact if_neg hne

theorem parseFraction_none (h : ∀ c ∈ rest.head?, c ≠ '.') :
    parseFraction rest = some ([], rest) := by
  cases rest with
  | nil => rfl
  | cons c rest => rw [parseFraction, if_neg (h c rfl)]

theorem parseExponent_none (h : Stops rest) : parseExponent rest = some (none, rest) := by
  cases rest with
  | nil => rfl
  | cons c rest =>
      obtain ⟨-, -, he, hE⟩ := h c rfl
      rw [parseExponent, if_neg (not_or.mpr ⟨he, hE⟩)]

theorem parseExponent_some (e : Int) (h : Stops rest) : parseExponent
    ('e' :: (if e < 0 then '-' else '+') :: Nat.toDigits 10 e.natAbs ++ rest) =
      some (some e, rest) := by
  have hspan : (Nat.toDigits 10 e.natAbs ++ rest).span Char.isDigit =
      (Nat.toDigits 10 e.natAbs, rest) :=
    span_append (fun c hc => Nat.isDigit_of_mem_toDigits (by decide) (by decide) hc)
      fun c hc => (h c hc).1
  have hne : Nat.toDigits 10 e.natAbs ≠ [] := Nat.toDigits_ne_nil
  by_cases hnegative : e < 0
  · have habs : -(e.natAbs : Int) = e := by omega
    simp only [parseExponent, if_pos hnegative, List.cons_append, List.head?_cons, true_or, if_true,
      List.tail_cons, hspan, if_neg hne, Nat.ofDigitChars_ten_toDigits, signed, decide_true, habs]
  · have habs : (e.natAbs : Int) = e := by omega
    simp only [parseExponent, if_neg hnegative, List.cons_append, List.head?_cons, true_or, or_true,
      if_true, List.tail_cons, hspan, if_neg hne, Nat.ofDigitChars_ten_toDigits, signed,
      Option.some.injEq, decide_eq_true_eq, habs]
    rfl

/-- The digits in front of the point and behind it. -/
theorem take_append_drop_padded (n scale : Nat) :
    (padded n scale).take ((padded n scale).length - scale) ++
      (padded n scale).drop ((padded n scale).length - scale) = padded n scale :=
  List.take_append_drop _ _

theorem length_fraction (n scale : Nat) :
    ((padded n scale).drop ((padded n scale).length - scale)).length = scale := by
  have hlength := lt_length_padded n scale
  rw [List.length_drop]
  omega

/-- The part of a number behind its digits. -/
def exponentText : Option Int → List Char
  | none => []
  | some e => 'e' :: (if e < 0 then '-' else '+') :: Nat.toDigits 10 e.natAbs

theorem head?_exponentText (exponent : Option Int) (h : Stops rest) :
    ∀ c ∈ (exponentText exponent ++ rest).head?, c.isDigit = false ∧ c ≠ '.' := by
  cases exponent with
  | none => exact fun c hc => ⟨(h c hc).1, (h c hc).2.1⟩
  | some e =>
      intro c hc
      obtain rfl : 'e' = c := Option.some.inj hc
      decide

theorem parseExponent_exponentText (exponent : Option Int) (h : Stops rest) :
    parseExponent (exponentText exponent ++ rest) = some (exponent, rest) := by
  cases exponent with
  | none => exact parseExponent_none h
  | some e => exact parseExponent_some e h

/-- The part of a number between its integer and its exponent. -/
def fractionText (scale : Nat) (fraction : List Char) : List Char :=
  if scale = 0 then [] else '.' :: fraction

theorem parseFraction_fractionText {scale : Nat} (hlength : digits.length = scale)
    (hdigits : ∀ c ∈ digits, c.isDigit = true)
    (hrest : ∀ c ∈ rest.head?, c.isDigit = false ∧ c ≠ '.') :
    parseFraction (fractionText scale digits ++ rest) = some (digits, rest) := by
  unfold fractionText
  split
  · rename_i hzero
    obtain rfl : digits = [] := List.length_eq_zero_iff.mp (hlength.trans hzero)
    exact parseFraction_none fun c hc => (hrest c hc).2
  · rename_i hpositive
    refine parseFraction_digits ?_ hdigits fun c hc => (hrest c hc).1
    rintro rfl
    exact hpositive hlength.symm

theorem head?_fractionText {scale : Nat}
    (hrest : ∀ c ∈ rest.head?, c.isDigit = false ∧ c ≠ '.') :
    ∀ c ∈ (fractionText scale digits ++ rest).head?, c.isDigit = false := by
  unfold fractionText
  split
  · exact fun c hc => (hrest c hc).1
  · intro c hc
    obtain rfl : '.' = c := Option.some.inj hc
    rfl

theorem numText_eq (unscaled : Int) (scale : Nat) (exponent : Option Int) :
    Json.numText unscaled scale exponent = (if unscaled < 0 then ['-'] else []) ++
      ((padded unscaled.natAbs scale).take ((padded unscaled.natAbs scale).length - scale) ++
        (fractionText scale
            ((padded unscaled.natAbs scale).drop ((padded unscaled.natAbs scale).length - scale)) ++
          exponentText exponent)) := by
  cases exponent <;> simp [Json.numText, padded, fractionText, exponentText]

/-- A number is read as it was written. -/
theorem parseNumber_numText (unscaled : Int) (scale : Nat) (exponent : Option Int)
    (h : Stops rest) : parseNumber (Json.numText unscaled scale exponent ++ rest) =
      some (.num unscaled scale exponent, rest) := by
  have hpadded := take_append_drop_padded unscaled.natAbs scale
  have hlength := length_fraction unscaled.natAbs scale
  have hvalue := ofDigitChars_padded unscaled.natAbs scale
  have hzero := @integer_of_head?_zero unscaled.natAbs scale
  have hdigit : ∀ c ∈ padded unscaled.natAbs scale, c.isDigit = true :=
    fun c hc => isDigit_of_mem_padded hc
  have hnonempty : (padded unscaled.natAbs scale).take
      ((padded unscaled.natAbs scale).length - scale) ≠ [] := by
    have hlt := lt_length_padded unscaled.natAbs scale
    rw [Ne, List.take_eq_nil_iff, ← List.length_eq_zero_iff]
    omega
  rw [numText_eq]
  generalize (padded unscaled.natAbs scale).take _ = integer at hpadded hzero hnonempty ⊢
  generalize (padded unscaled.natAbs scale).drop _ = fraction at hpadded hlength ⊢
  rw [← hpadded] at hvalue hdigit
  have hexponent := head?_exponentText exponent h
  have hspan := span_append (fun c hc => hdigit c (List.mem_append_left _ hc))
    (@head?_fractionText _ fraction scale hexponent)
  have hfraction := parseFraction_fractionText hlength
    (fun c hc => hdigit c (List.mem_append_right _ hc)) hexponent
  have hgood : ¬ (integer = [] ∨ integer.head? = some '0' ∧ integer ≠ ['0']) := by
    rintro (hnil | ⟨hhead, hne⟩)
    · exact hnonempty hnil
    · exact hne (hzero hhead)
  have hunsigned : ∀ negative, parseUnsigned negative (integer ++
      (fractionText scale fraction ++ (exponentText exponent ++ rest))) =
        some (.num (signed negative unscaled.natAbs) scale exponent, rest) := by
    intro negative
    simp only [parseUnsigned, hspan, if_neg hgood, hfraction, Option.bind_eq_bind,
      Option.bind_some, parseExponent_exponentText exponent h, Option.pure_def, hvalue, hlength]
  simp only [List.append_assoc]
  by_cases hnegative : unscaled < 0
  · have habs : -(unscaled.natAbs : Int) = unscaled := by omega
    simp only [if_pos hnegative, List.cons_append, List.nil_append, parseNumber, List.head?_cons,
      if_true, List.tail_cons, hunsigned, signed, habs]
  · have habs : (unscaled.natAbs : Int) = unscaled := by omega
    have hhead : (integer ++ (fractionText scale fraction ++
        (exponentText exponent ++ rest))).head? ≠ some '-' := by
      rw [List.head?_append_of_ne_nil _ hnonempty]
      intro hminus
      cases hdigit '-' (List.mem_append_left _ (List.mem_of_mem_head? hminus))
    simp only [if_neg hnegative, List.nil_append, parseNumber, if_neg hhead, hunsigned, signed,
      Bool.false_eq_true, if_false, habs]

end Numbers

section Documents

variable {quoteChar : Char → List Char} {rest : List Char} {fuel : Nat}

theorem skipSpace_cons {c : Char} (h : isSpace c = false) : skipSpace (c :: rest) = c :: rest :=
  List.dropWhile_cons_of_neg (by simp [h])

theorem stops_cons {c : Char} (h : c.isDigit = false ∧ c ≠ '.' ∧ c ≠ 'e' ∧ c ≠ 'E') :
    Stops (c :: rest) := by
  rintro d ⟨⟩
  exact h

/-- The first character of a number. -/
theorem exists_head_numText (unscaled : Int) (scale : Nat) (exponent : Option Int) :
    ∃ c tail, Json.numText unscaled scale exponent = c :: tail ∧ (c = '-' ∨ c.isDigit = true) := by
  rw [numText_eq]
  by_cases hnegative : unscaled < 0
  · rw [if_pos hnegative]
    exact ⟨'-', _, rfl, Or.inl rfl⟩
  · rw [if_neg hnegative, List.nil_append]
    have hlt := lt_length_padded unscaled.natAbs scale
    have hdigit : ∀ c ∈ padded unscaled.natAbs scale, c.isDigit = true :=
      fun c hc => isDigit_of_mem_padded hc
    generalize padded unscaled.natAbs scale = digits at hlt hdigit ⊢
    cases digits with
    | nil => simp at hlt
    | cons c digits =>
        obtain ⟨k, hk⟩ := Nat.exists_eq_succ_of_ne_zero (Nat.sub_ne_zero_of_lt hlt)
        rw [hk, List.take_succ_cons, List.cons_append]
        exact ⟨c, _, rfl, Or.inr (hdigit c List.mem_cons_self)⟩

/-- No document starts like a space or like the end of a list. -/
theorem exists_head_render (document : Json) : ∃ c tail, render quoteChar document = c :: tail ∧
    isSpace c = false ∧ c ≠ ']' := by
  cases document with
  | null => exact ⟨'n', _, rfl, by decide⟩
  | bool value =>
      cases value with
      | true => exact ⟨'t', _, rfl, by decide⟩
      | false => exact ⟨'f', _, rfl, by decide⟩
  | num unscaled scale exponent =>
      obtain ⟨c, tail, htext, hhead⟩ := exists_head_numText unscaled scale exponent
      refine ⟨c, tail, htext, ?_⟩
      rcases hhead with rfl | hdigit
      · decide
      · constructor
        · by_contra hspace
          simp only [isSpace, Bool.or_eq_true, decide_eq_true_eq, Bool.not_eq_false] at hspace
          rcases hspace with ((rfl | rfl) | rfl) | rfl <;> cases hdigit
        · rintro rfl
          cases hdigit
  | str value => exact ⟨'"', _, rfl, by decide⟩
  | arr items => exact ⟨'[', _, rfl, by decide⟩
  | obj fields => exact ⟨'{', _, rfl, by decide⟩

theorem parseValue_num (unscaled : Int) (scale : Nat) (exponent : Option Int) (h : Stops rest) :
    parseValue (fuel + 1) (Json.numText unscaled scale exponent ++ rest) =
      some (.num unscaled scale exponent, rest) := by
  have hnumber := parseNumber_numText unscaled scale exponent h
  obtain ⟨c, tail, htext, hhead⟩ := exists_head_numText unscaled scale exponent
  rw [htext, List.cons_append] at hnumber ⊢
  have hothers : isSpace c = false ∧ c ≠ 'n' ∧ c ≠ 't' ∧ c ≠ 'f' ∧ c ≠ '"' ∧ c ≠ '[' ∧ c ≠ '{' := by
    rcases hhead with rfl | hdigit
    · decide
    · refine ⟨?_, ?_, ?_, ?_, ?_, ?_, ?_⟩
      · by_contra hspace
        simp only [isSpace, Bool.or_eq_true, decide_eq_true_eq, Bool.not_eq_false] at hspace
        rcases hspace with ((rfl | rfl) | rfl) | rfl <;> cases hdigit
      all_goals
        rintro rfl
        cases hdigit
  obtain ⟨hspace, hn, ht, hf, hquote, hbracket, hbrace⟩ := hothers
  simp only [parseValue, skipSpace_cons hspace, if_neg hn, if_neg ht, if_neg hf, if_neg hquote,
    if_neg hbracket, if_neg hbrace, hnumber]

theorem length_le_length_quote (hquote : ∀ c, Readable quoteChar c) (value : String) :
    value.toList.length + 2 ≤ (quote quoteChar value).length := by
  have hchars : ∀ chars : List Char, chars.length ≤ (chars.flatMap quoteChar).length := by
    intro chars
    induction chars with
    | nil => exact Nat.zero_le _
    | cons c chars ih =>
        have hone : 1 ≤ (quoteChar c).length := by
          rcases (hquote c).read with ⟨hself, -⟩ | ⟨escape, hescape, -⟩
          · rw [hself]
            exact Nat.le_refl 1
          · rw [hescape, List.length_cons]
            exact Nat.le_add_left 1 _
        rw [List.flatMap_cons, List.length_append, List.length_cons]
        omega
  have hvalue := hchars value.toList
  simp only [quote, List.length_append, List.length_cons, List.length_nil]
  omega

theorem parseString_name (hquote : ∀ c, Readable quoteChar c) {value : String}
    (hfuel : (quote quoteChar value).length < fuel + 2) :
    parseString fuel (value.toList.flatMap quoteChar ++ '"' :: rest) =
      some (value.toList, rest) := by
  have hlength := length_le_length_quote hquote value
  exact parseString_quote hquote (by omega) rest

theorem parseValue_quote (hquote : ∀ c, Readable quoteChar c) {value : String}
    (hfuel : (quote quoteChar value).length < fuel + 1) :
    parseValue (fuel + 1) (quote quoteChar value ++ rest) = some (.str value, rest) := by
  have hread : parseString fuel (value.toList.flatMap quoteChar ++ '"' :: rest) =
      some (value.toList, rest) :=
    parseString_name hquote (hfuel.trans (Nat.lt_succ_self _))
  simp [parseValue, quote, skipSpace_cons, isSpace, hread]

theorem renderItems_cons (item : Json) {items : List Json} (h : items ≠ []) :
    renderItems quoteChar (item :: items) =
      render quoteChar item ++ ',' :: renderItems quoteChar items := by
  cases items with
  | nil => exact absurd rfl h
  | cons => rfl

theorem renderFields_cons (name : String) (value : Json) {fields : List (String × Json)}
    (h : fields ≠ []) : renderFields quoteChar ((name, value) :: fields) =
      quote quoteChar name ++ ':' :: render quoteChar value ++
        ',' :: renderFields quoteChar fields := by
  cases fields with
  | nil => exact absurd rfl h
  | cons => rfl

/-- With enough fuel a document is read as it was written. -/
def ReadsValues (quoteChar : Char → List Char) (fuel : Nat) : Prop :=
  ∀ document rest, (render quoteChar document).length < fuel → Stops rest →
    parseValue fuel (render quoteChar document ++ rest) = some (document, rest)

def ReadsItems (quoteChar : Char → List Char) (fuel : Nat) : Prop :=
  ∀ item items rest, (renderItems quoteChar (item :: items)).length + 1 < fuel →
    parseItems fuel (renderItems quoteChar (item :: items) ++ ']' :: rest) =
      some (item :: items, rest)

def ReadsFields (quoteChar : Char → List Char) (fuel : Nat) : Prop :=
  ∀ name value fields rest,
    (renderFields quoteChar ((name, value) :: fields)).length + 1 < fuel →
    parseFields fuel (renderFields quoteChar ((name, value) :: fields) ++ '}' :: rest) =
      some ((name, value) :: fields, rest)

theorem readsValues_succ (hquote : ∀ c, Readable quoteChar c) (hitems : ReadsItems quoteChar fuel)
    (hfields : ReadsFields quoteChar fuel) : ReadsValues quoteChar (fuel + 1) := by
  intro document rest hfuel hstops
  cases document with
  | null => rfl
  | bool value => cases value <;> rfl
  | num unscaled scale exponent => exact parseValue_num unscaled scale exponent hstops
  | str value => exact parseValue_quote hquote hfuel
  | arr items =>
      cases items with
      | nil => rfl
      | cons item items =>
          simp only [render, List.length_append, List.length_cons, List.length_nil] at hfuel
          have hread := hitems item items rest (by omega)
          -- the items do not start with the end of the list
          obtain ⟨c, tail, hhead, hspace, hend⟩ := @exists_head_render quoteChar item
          have hopen : skipSpace (renderItems quoteChar (item :: items) ++ ']' :: rest) =
              renderItems quoteChar (item :: items) ++ ']' :: rest ∧
                (renderItems quoteChar (item :: items) ++ ']' :: rest).head? ≠ some ']' := by
            cases items with
            | nil => simp [renderItems, hhead, skipSpace_cons hspace, hend]
            | cons => simp [renderItems, hhead, skipSpace_cons hspace, hend]
          simp only [render, List.cons_append, List.append_assoc, List.nil_append]
          simp only [parseValue, skipSpace_cons (c := '[') rfl, hopen.1, if_neg hopen.2, hread]
          rfl
  | obj fields =>
      cases fields with
      | nil => rfl
      | cons field fields =>
          obtain ⟨name, value⟩ := field
          simp only [render, List.length_append, List.length_cons, List.length_nil] at hfuel
          have hread := hfields name value fields rest (by omega)
          have hopen : skipSpace (renderFields quoteChar ((name, value) :: fields) ++ '}' :: rest) =
              renderFields quoteChar ((name, value) :: fields) ++ '}' :: rest ∧
                (renderFields quoteChar ((name, value) :: fields) ++ '}' :: rest).head? ≠
                  some '}' := by
            cases fields with
            | nil => simp [renderFields, quote, skipSpace_cons, isSpace]
            | cons => simp [renderFields, quote, skipSpace_cons, isSpace]
          simp only [render, List.cons_append, List.append_assoc, List.nil_append]
          simp only [parseValue, skipSpace_cons (c := '{') rfl, hopen.1, if_neg hopen.2, hread]
          rfl

theorem readsItems_succ (hvalues : ReadsValues quoteChar fuel)
    (hitems : ReadsItems quoteChar fuel) :
    ReadsItems quoteChar (fuel + 1) := by
  intro item items rest hfuel
  by_cases hnone : items = []
  · subst hnone
    rw [renderItems] at hfuel ⊢
    have hread := hvalues item (']' :: rest) (by omega) (stops_cons (by decide))
    simp [parseItems, hread, skipSpace_cons, isSpace]
  · obtain ⟨next, others, rfl⟩ := List.exists_cons_of_ne_nil hnone
    rw [renderItems_cons item hnone] at hfuel ⊢
    simp only [List.length_append, List.length_cons] at hfuel
    rw [List.append_assoc, List.cons_append]
    have hread := hvalues item (',' :: (renderItems quoteChar (next :: others) ++ ']' :: rest))
      (by omega) (stops_cons (by decide))
    have hothers := hitems next others rest (by omega)
    simp [parseItems, hread, hothers, skipSpace_cons, isSpace]

theorem readsFields_succ (hquote : ∀ c, Readable quoteChar c)
    (hvalues : ReadsValues quoteChar fuel) (hfields : ReadsFields quoteChar fuel) :
    ReadsFields quoteChar (fuel + 1) := by
  intro name value fields rest hfuel
  by_cases hnone : fields = []
  · subst hnone
    rw [renderFields] at hfuel ⊢
    simp only [List.length_append, List.length_cons] at hfuel
    have hname : parseString fuel (name.toList.flatMap quoteChar ++
        '"' :: ':' :: (render quoteChar value ++ '}' :: rest)) =
        some (name.toList, ':' :: (render quoteChar value ++ '}' :: rest)) :=
      parseString_name hquote (by omega)
    have hread := hvalues value ('}' :: rest) (by omega) (stops_cons (by decide))
    simp [parseFields, quote, skipSpace_cons, isSpace, hname, hread]
  · obtain ⟨⟨next, nextValue⟩, others, rfl⟩ := List.exists_cons_of_ne_nil hnone
    rw [renderFields_cons name value hnone] at hfuel ⊢
    simp only [List.length_append, List.length_cons] at hfuel
    have hothers := hfields next nextValue others rest (by omega)
    generalize renderFields quoteChar ((next, nextValue) :: others) = text at hfuel hothers ⊢
    have hname : parseString fuel (name.toList.flatMap quoteChar ++
        '"' :: ':' :: (render quoteChar value ++ ',' :: (text ++ '}' :: rest))) =
        some (name.toList, ':' :: (render quoteChar value ++ ',' :: (text ++ '}' :: rest))) :=
      parseString_name hquote (by omega)
    have hread := hvalues value (',' :: (text ++ '}' :: rest)) (by omega) (stops_cons (by decide))
    simp [parseFields, quote, skipSpace_cons, isSpace, hname, hread, hothers]

theorem reads (hquote : ∀ c, Readable quoteChar c) (fuel : Nat) : ReadsValues quoteChar fuel ∧
    ReadsItems quoteChar fuel ∧ ReadsFields quoteChar fuel := by
  induction fuel with
  | zero =>
      refine ⟨fun _ _ hfuel => ?_, fun _ _ _ hfuel => ?_, fun _ _ _ _ hfuel => ?_⟩
      all_goals exact absurd hfuel (Nat.not_lt_zero _)
  | succ fuel ih =>
      obtain ⟨hvalues, hitems, hfields⟩ := ih
      exact ⟨readsValues_succ hquote hitems hfields, readsItems_succ hvalues hitems,
        readsFields_succ hquote hvalues hfields⟩

/-- Every document is read back from its text, however the characters are escaped. -/
theorem parse_render (hquote : ∀ c, Readable quoteChar c) (document : Json) :
    parse (render quoteChar document) = some document := by
  have hread := (reads hquote _).1 document [] (Nat.lt_succ_self _) (by simp [Stops])
  rw [List.append_nil] at hread
  unfold parse
  rw [hread]
  rfl

theorem parse_marshal (document : Json) : parse (marshal document) = some document :=
  parse_render readable_goQuoteChar document

theorem mem_renderItems {c : Char} {items : List Json} (h : c ∈ renderItems quoteChar items) :
    c = ',' ∨ ∃ item ∈ items, c ∈ render quoteChar item := by
  induction items with
  | nil => exact absurd h List.not_mem_nil
  | cons item items ih =>
      by_cases hnone : items = []
      · subst hnone
        exact Or.inr ⟨item, List.mem_singleton_self item, h⟩
      · rw [renderItems_cons item hnone] at h
        rcases List.mem_append.mp h with hitem | h
        · exact Or.inr ⟨item, List.mem_cons_self, hitem⟩
        · rcases List.mem_cons.mp h with rfl | h
          · exact Or.inl rfl
          · exact (ih h).imp_right fun ⟨other, hother, hmem⟩ =>
              ⟨other, List.mem_cons_of_mem item hother, hmem⟩

theorem mem_renderFields {c : Char} {fields : List (String × Json)}
    (h : c ∈ renderFields quoteChar fields) : c = ',' ∨ c = ':' ∨ ∃ field ∈ fields,
      c ∈ quote quoteChar field.1 ∨ c ∈ render quoteChar field.2 := by
  induction fields with
  | nil => exact absurd h List.not_mem_nil
  | cons field fields ih =>
      have hfield : c ∈ quote quoteChar field.1 ++ ':' :: render quoteChar field.2 →
          c = ',' ∨ c = ':' ∨ ∃ other ∈ field :: fields,
            c ∈ quote quoteChar other.1 ∨ c ∈ render quoteChar other.2 := by
        intro h
        rcases List.mem_append.mp h with hname | h
        · exact Or.inr (Or.inr ⟨field, List.mem_cons_self, Or.inl hname⟩)
        · rcases List.mem_cons.mp h with rfl | hvalue
          · exact Or.inr (Or.inl rfl)
          · exact Or.inr (Or.inr ⟨field, List.mem_cons_self, Or.inr hvalue⟩)
      by_cases hnone : fields = []
      · subst hnone
        exact hfield h
      · rw [renderFields_cons field.1 field.2 hnone] at h
        rcases List.mem_append.mp h with h | h
        · exact hfield h
        · rcases List.mem_cons.mp h with rfl | h
          · exact Or.inl rfl
          · exact (ih h).imp_right fun h => h.imp_right fun ⟨other, hother, hmem⟩ =>
              ⟨other, List.mem_cons_of_mem field hother, hmem⟩

theorem mem_quote {c : Char} {s : String} (h : c ∈ quote quoteChar s) :
    c = '"' ∨ ∃ d, c ∈ quoteChar d := by
  rcases List.mem_append.mp h with h | h
  · rcases List.mem_cons.mp h with rfl | h
    · exact Or.inl rfl
    · obtain ⟨d, -, hd⟩ := List.mem_flatMap.mp h
      exact Or.inr ⟨d, hd⟩
  · exact Or.inl (List.mem_singleton.mp h)

theorem mem_numText {c : Char} {unscaled : Int} {scale : Nat} {exponent : Option Int}
    (h : c ∈ Json.numText unscaled scale exponent) :
    c.isDigit = true ∨ c ∈ ['-', '.', 'e', '+'] := by
  rw [numText_eq] at h
  simp only [fractionText, exponentText, List.mem_append] at h
  rcases h with h | h | h | h
  · split at h
    · simp [List.mem_singleton.mp h]
    · exact absurd h List.not_mem_nil
  · exact Or.inl (isDigit_of_mem_padded (List.mem_of_mem_take h))
  · split at h
    · exact absurd h List.not_mem_nil
    · rcases List.mem_cons.mp h with rfl | h
      · simp
      · exact Or.inl (isDigit_of_mem_padded (List.mem_of_mem_drop h))
  · cases exponent with
    | none => exact absurd h List.not_mem_nil
    | some e =>
        rcases List.mem_cons.mp h with rfl | h
        · simp
        · rcases List.mem_cons.mp h with rfl | h
          · split <;> simp
          · exact Or.inl (Nat.isDigit_of_mem_toDigits (by decide) (by decide) h)

/-- What holds of every character that a string may be written with holds of the
whole text, if it holds of the others. -/
theorem forall_render {P : Char → Prop} (hquote : ∀ c, ∀ d ∈ quoteChar c, P d)
    (hdigit : ∀ c : Char, c.isDigit = true → P c)
    (hothers : ∀ c ∈ "nulltruefalse-.e+\"[],\x7b\x7d:".toList, P c) (document : Json) :
    ∀ c ∈ render quoteChar document, P c := by
  have htext : ∀ s, ∀ c ∈ quote quoteChar s, P c := by
    intro s c hc
    rcases mem_quote hc with rfl | ⟨d, hd⟩
    · exact hothers _ (by decide)
    · exact hquote d c hd
  induction hsize : sizeOf document using Nat.strong_induction_on generalizing document with
  | _ size ih =>
      intro c hc
      cases document with
      | null => exact hothers c (by simp [render] at hc; simp; tauto)
      | bool value => cases value <;> exact hothers c (by simp [render] at hc; simp; tauto)
      | num unscaled scale exponent =>
          rcases mem_numText hc with hc | hc
          · exact hdigit c hc
          · exact hothers c (by simp at hc; simp; tauto)
      | str value => exact htext value c hc
      | arr items =>
          simp only [render, List.mem_append, List.mem_cons, List.not_mem_nil, or_false] at hc
          rcases hc with (rfl | hc) | rfl
          · exact hothers _ (by decide)
          · rcases mem_renderItems hc with rfl | ⟨item, hitem, hc⟩
            · exact hothers _ (by decide)
            · have hlt := List.sizeOf_lt_of_mem hitem
              exact ih (sizeOf item) (by simp at hsize; omega) item rfl c hc
          · exact hothers _ (by decide)
      | obj fields =>
          simp only [render, List.mem_append, List.mem_cons, List.not_mem_nil, or_false] at hc
          rcases hc with (rfl | hc) | rfl
          · exact hothers _ (by decide)
          · rcases mem_renderFields hc with rfl | rfl | ⟨⟨name, value⟩, hfield, hc | hc⟩
            · exact hothers _ (by decide)
            · exact hothers _ (by decide)
            · exact htext name c hc
            · have hlt := List.sizeOf_lt_of_mem hfield
              exact ih (sizeOf value) (by simp at hsize hlt; omega) value rfl c hc
          · exact hothers _ (by decide)

theorem toNat_of_mem_goQuoteChar {c d : Char} (h : d ∈ goQuoteChar c) : 32 ≤ d.toNat := by
  have hdigit : ∀ n, 32 ≤ (Nat.digitChar (n % 16)).toNat := by
    intro n
    have hall : ∀ m < 16, 32 ≤ (Nat.digitChar m).toNat := by decide
    exact hall _ (Nat.mod_lt n (by decide))
  unfold goQuoteChar at h
  split_ifs at h with hspecial hb hf hn hr ht hescaped
  · rcases List.mem_pair.mp h with rfl | rfl
    · decide
    · rcases hspecial with rfl | rfl <;> decide
  all_goals try
    rcases List.mem_pair.mp h with rfl | rfl <;> decide
  · simp only [unicodeEscape, List.mem_cons, List.not_mem_nil, or_false] at h
    rcases h with rfl | rfl | rfl | rfl | rfl | rfl
    · decide
    · decide
    all_goals exact hdigit _
  · rw [List.mem_singleton.mp h]
    exact Nat.le_of_not_lt fun hlow => hescaped (Or.inl hlow)

/-- A marshalled document has no line ends, nor any other control character. -/
theorem toNat_of_mem_marshal (document : Json) : ∀ c ∈ marshal document, 32 ≤ c.toNat := by
  refine forall_render (fun c d hd => toNat_of_mem_goQuoteChar hd) (fun c hc => ?_)
    (by simp) document
  have hlow : 48 ≤ c.toNat := by
    simp only [Char.isDigit, Bool.and_eq_true, decide_eq_true_eq] at hc
    exact hc.1
  omega

end Documents

end PriceScout.Library.JsonTexts
