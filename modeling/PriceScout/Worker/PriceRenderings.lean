import PriceScout.Worker.ExactPrices

/-!
The standard renderings of a price, and how `parsePrice` reads them back.
-/

namespace PriceScout.Worker.PriceRenderings

open PriceScout.Library.JsStrings
open PriceScout.Library.Numbers
open PriceScout.Library.Searches
open PriceScout.Worker.Amounts
open PriceScout.Worker.Contracts
open PriceScout.Worker.ExactPrices
open PriceScout.Worker.PriceMarkers
open PriceScout.Worker.Validation

/-! Digits in groups. -/

/-- As many digits as are left before groups of three. -/
def leadLength (digits : List Char) : Nat :=
  (digits.length - 1) % 3 + 1

/-- Digits cut into groups of three. -/
def threes : List Char → List (List Char)
  | a :: b :: c :: rest => [a, b, c] :: threes rest
  | _ => []

theorem length_of_mem_threes {digits g : List Char} (h : g ∈ threes digits) : g.length = 3 := by
  fun_induction threes digits with
  | case1 a b c rest ih =>
      rcases List.mem_cons.mp h with rfl | h
      · rfl
      · exact ih h
  | case2 => cases h

theorem flatten_threes {digits : List Char} (h : 3 ∣ digits.length) :
    (threes digits).flatten = digits := by
  fun_induction threes digits with
  | case1 a b c rest ih =>
      rw [List.flatten_cons, ih (by simpa [Nat.dvd_add_left] using h)]
      rfl
  | case2 digits hshort =>
      match digits, hshort, h with
      | [], _, _ => rfl
      | [_], _, h => exact absurd h (by simp)
      | [_, _], _, h => exact absurd h (by simp)
      | a :: b :: c :: rest, hshort, _ => exact absurd rfl (hshort a b c rest)

theorem three_dvd_length_drop {digits : List Char} :
    3 ∣ (digits.drop (leadLength digits)).length := by
  rw [List.length_drop, leadLength]
  omega

/-- The decimal digits of a number. -/
def digitsOf (n : Nat) : List Char :=
  Nat.toDigits 10 n

theorem isAsciiDigit_of_mem_digitsOf {n : Nat} {c : Char} (h : c ∈ digitsOf n) :
    isAsciiDigit c = true := by
  have hdigit := Nat.isDigit_of_mem_toDigits (by decide) (by decide) h
  rw [Char.isDigit, Bool.and_eq_true, decide_eq_true_eq, decide_eq_true_eq] at hdigit
  simpa [isAsciiDigit, Char.le_def] using hdigit

theorem digitsValue_digitsOf (n : Nat) : digitsValue (digitsOf n) = n :=
  Nat.ofDigitChars_toDigits (by decide) (by decide)

/-- The two digits of hundredths. -/
def hundredths (n : Nat) : List Char :=
  [Nat.digitChar (n / 10 % 10), Nat.digitChar (n % 10)]

theorem isAsciiDigit_digitChar {n : Nat} (h : n < 10) : isAsciiDigit (Nat.digitChar n) = true := by
  revert n
  decide

theorem digitValue_digitChar {n : Nat} (h : n < 10) : digitValue (Nat.digitChar n) = n := by
  revert n
  decide

/-- A number is its hundreds and its hundredths. -/
theorem digitsValue_hundredths (m : Nat) :
    digitsValue (digitsOf (m / 100) ++ hundredths m) = m := by
  have hvalue := digitsValue_digitsOf (m / 100)
  rw [digitsValue] at hvalue ⊢
  rw [List.foldl_append, hvalue, hundredths, List.foldl_cons, List.foldl_cons, List.foldl_nil,
    digitValue_digitChar (Nat.mod_lt _ (by decide)),
      digitValue_digitChar (Nat.mod_lt _ (by decide))]
  omega

/-! Renderings. -/

/-- How a price is written: what stands between its groups of three digits, if
they are grouped, and what stands before its two decimals, if it has any. -/
structure Style where
  grouping : Option Char
  point : Option Char
  grouping_mem : ∀ c ∈ grouping, c ∈ [',', '.', ' ', '\u00a0']
  point_mem : ∀ c ∈ point, c ∈ ['.', ',']
  distinct : ∀ c ∈ grouping, ∀ d ∈ point, c ≠ d

/-- What stands right before a price. -/
inductive Sign where
  | usDollar
  | canadianDollar
  | australianDollar
  | dollar
  | euro
  | pound
deriving DecidableEq

def Sign.text : Sign → String
  | usDollar => "US$"
  | canadianDollar => "C$"
  | australianDollar => "A$"
  | dollar => "$"
  | euro => "€"
  | pound => "£"

def Sign.currency : Sign → SupportedCurrency
  | usDollar => .usd
  | canadianDollar => .cad
  | australianDollar => .aud
  | dollar => .usd
  | euro => .eur
  | pound => .gbp

/-- What marks a price: a sign before it, the code of the currency and a space
before or after it, or a space and the euro sign after it. -/
inductive Mark where
  | sign (sign : Sign)
  | codeBefore (currency : SupportedCurrency)
  | codeAfter (currency : SupportedCurrency)
  | euroAfter
deriving DecidableEq

def Mark.currency : Mark → SupportedCurrency
  | sign s => s.currency
  | codeBefore currency => currency
  | codeAfter currency => currency
  | euroAfter => .eur

def Mark.around : Mark → List Char → List Char
  | sign s, amount => s.text.toList ++ amount
  | codeBefore currency, amount => currency.code.toList ++ ' ' :: amount
  | codeAfter currency, amount => amount ++ ' ' :: currency.code.toList
  | euroAfter, amount => amount ++ [' ', '€']

namespace Style

def integerText (s : Style) (digits : List Char) : List Char :=
  match s.grouping with
  | none => digits
  | some c =>
      digits.take (leadLength digits) ++
        (threes (digits.drop (leadLength digits))).flatMap (c :: ·)

def fractionText (s : Style) (m : Nat) : List Char :=
  match s.point with
  | none => []
  | some c => c :: hundredths m

/-- The rendering of `m / 100`. -/
def render (s : Style) (mark : Mark) (m : Nat) : String :=
  String.ofList (mark.around (s.integerText (digitsOf (m / 100)) ++ s.fractionText m))

/-- Only a whole price is written without decimals. -/
def Renders (s : Style) (m : Nat) : Prop :=
  s.point = none → 100 ∣ m

end Style

/-! The amount that a style writes. -/

section Written

variable {s : Style} {digits : List Char} {m : Nat} {c : Char}

namespace Style

/-- The digits before the groups. -/
def lead (s : Style) (digits : List Char) : List Char :=
  if s.grouping = none then digits else digits.take (leadLength digits)

def groups (s : Style) (digits : List Char) : List (List Char) :=
  if s.grouping = none then [] else threes (digits.drop (leadLength digits))

def fraction (s : Style) (m : Nat) : List Char :=
  if s.point = none then [] else hundredths m

end Style

theorem mem_of_mem_lead (h : c ∈ s.lead digits) : c ∈ digits := by
  unfold Style.lead at h
  split at h
  · exact h
  · exact List.mem_of_mem_take h

theorem lead_ne_nil (h : digits ≠ []) : s.lead digits ≠ [] := by
  unfold Style.lead
  split
  · exact h
  · simp [h, leadLength]

theorem lead_append_groups (s : Style) (digits : List Char) :
    s.lead digits ++ (s.groups digits).flatten = digits := by
  unfold Style.lead Style.groups
  split
  · simp
  · rw [flatten_threes three_dvd_length_drop, List.take_append_drop]

theorem length_lead_le (h : s.groups digits ≠ []) : (s.lead digits).length ≤ 3 := by
  unfold Style.groups at h
  unfold Style.lead
  split at h
  · exact absurd rfl h
  · rename_i hne
    rw [if_neg hne, List.length_take, leadLength]
    omega

theorem length_of_mem_groups {g : List Char} (h : g ∈ s.groups digits) :
    g.length = 3 ∧ ∀ c ∈ g, c ∈ digits := by
  constructor
  · unfold Style.groups at h
    split at h
    · cases h
    · exact length_of_mem_threes h
  · intro c hc
    rw [← lead_append_groups s digits]
    exact List.mem_append_right _ (List.mem_flatten_of_mem h hc)

theorem isAsciiDigit_of_mem_fraction (h : c ∈ s.fraction m) : isAsciiDigit c = true := by
  unfold Style.fraction at h
  split at h
  · cases h
  · simp only [hundredths, List.mem_cons, List.not_mem_nil, or_false] at h
    rcases h with rfl | rfl
    · exact isAsciiDigit_digitChar (Nat.mod_lt _ (by decide))
    · exact isAsciiDigit_digitChar (Nat.mod_lt _ (by decide))

theorem length_fraction_le (s : Style) (m : Nat) : (s.fraction m).length ≤ 2 := by
  unfold Style.fraction
  split
  · exact Nat.zero_le 2
  · exact Nat.le_refl 2

theorem separator_mem (s : Style) : s.grouping.getD ' ' ∈ [' ', '\u00a0', '\u202f', '.', ','] := by
  cases hgrouping : s.grouping with
  | none => simp
  | some c =>
      have hmem := s.grouping_mem c hgrouping
      simp only [Option.getD_some, List.mem_cons, List.not_mem_nil, or_false] at hmem ⊢
      tauto

theorem point_mem (s : Style) : s.point.getD '.' ∈ ['.', ','] := by
  cases hpoint : s.point with
  | none => simp
  | some c => exact s.point_mem c hpoint

end Written

def amountOf (s : Style) (m : Nat) : Amount where
  lead := s.lead (digitsOf (m / 100))
  separator := s.grouping.getD ' '
  groups := s.groups (digitsOf (m / 100))
  point := s.point.getD '.'
  fraction := s.fraction m
  lead_digits := fun _ hc => isAsciiDigit_of_mem_digitsOf (mem_of_mem_lead hc)
  lead_ne := lead_ne_nil Nat.toDigits_ne_nil
  lead_short := length_lead_le
  separator_mem := separator_mem s
  group_digits := fun _ hg => ⟨(length_of_mem_groups hg).1,
    fun c hc => isAsciiDigit_of_mem_digitsOf ((length_of_mem_groups hg).2 c hc)⟩
  point_mem := point_mem s
  fraction_digits := fun _ => isAsciiDigit_of_mem_fraction
  fraction_short := length_fraction_le s m

theorem text_amountOf (s : Style) (m : Nat) :
    (amountOf s m).text = s.integerText (digitsOf (m / 100)) ++ s.fractionText m := by
  have hinteger : s.lead (digitsOf (m / 100)) ++
      (s.groups (digitsOf (m / 100))).flatMap (s.grouping.getD ' ' :: ·) =
        s.integerText (digitsOf (m / 100)) := by
    unfold Style.integerText Style.lead Style.groups
    cases s.grouping with
    | none => simp
    | some c => simp
  have hfraction : (if s.fraction m = [] then [] else s.point.getD '.' :: s.fraction m) =
      s.fractionText m := by
    unfold Style.fractionText Style.fraction
    cases s.point with
    | none => simp
    | some c => simp [hundredths]
  rw [← hinteger, ← hfraction, List.append_assoc]
  rfl

theorem integer_amountOf (s : Style) (m : Nat) : (amountOf s m).integer = digitsOf (m / 100) :=
  lead_append_groups s _

/-- The value of a rendering, in minor units. -/
theorem value_amountOf {s : Style} {m : Nat} (h : s.Renders m) :
    (amountOf s m).value * 100 = (m : Int) := by
  rw [Amount.value, integer_amountOf]
  cases hpoint : s.point with
  | none =>
      have hfraction : (amountOf s m).fraction = [] := if_pos hpoint
      obtain ⟨n, rfl⟩ := h hpoint
      rw [hfraction, List.append_nil, digitsValue_digitsOf, Nat.mul_div_cancel_left n (by decide)]
      push_cast
      simp [mul_comm]
  | some c =>
      have hfraction : (amountOf s m).fraction = hundredths m := if_neg (by simp [hpoint])
      have hlength : (hundredths m).length = 2 := rfl
      rw [hfraction, digitsValue_hundredths, hlength]
      push_cast
      ring

/-! The marks. -/

namespace Mark

def marker : Mark → Marker
  | sign .usDollar => .dollar ['U', 'S'] (List.all_eq_true.mp rfl)
  | sign .canadianDollar => .dollar ['C'] (List.all_eq_true.mp rfl)
  | sign .australianDollar => .dollar ['A'] (List.all_eq_true.mp rfl)
  | sign .dollar => .dollar [] (List.all_eq_true.mp rfl)
  | sign .euro => .sign '€' rfl (by decide)
  | sign .pound => .sign '£' rfl (by decide)
  | codeBefore currency =>
      .word currency.code.toList (by cases currency <;> exact List.all_eq_true.mp rfl)
        (by cases currency <;> decide)
  | codeAfter currency =>
      .word currency.code.toList (by cases currency <;> exact List.all_eq_true.mp rfl)
        (by cases currency <;> decide)
  | euroAfter => .sign '€' rfl (by decide)

def leading : Mark → Bool
  | sign _ | codeBefore _ => true
  | codeAfter _ | euroAfter => false

def gap : Mark → List Char
  | sign _ => []
  | _ => [' ']

end Mark

/-- A price as a style and a mark write it. -/
def markedOf (s : Style) (mark : Mark) (m : Nat) : MarkedPrice where
  marker := mark.marker
  leading := mark.leading
  gap := mark.gap
  amount := amountOf s m
  gap_spaces := by cases mark <;> simp [Mark.gap, isWhiteSpace]

theorem text_markedOf (s : Style) (mark : Mark) (m : Nat) :
    (markedOf s mark m).text = s.render mark m := by
  rw [MarkedPrice.text, Style.render, ← text_amountOf]
  cases mark with
  | sign sign => cases sign <;> rfl
  | codeBefore currency => rfl
  | codeAfter currency => rfl
  | euroAfter => rfl

/-! What a rendering shows. -/

section Shown

variable {s : Style} {mark : Mark} {m : Nat} {phrase : String} {currency : SupportedCurrency}

/-- A phrase has a letter that the mark has not. -/
def lacks (mark : Mark) (phrase : String) : Bool :=
  phrase.toList.any fun l => l.isAlpha && mark.marker.text.all fun d => d.toLower ≠ l.toLower

/-- A phrase with a letter that the mark lacks stands nowhere. -/
theorem not_stands_of_lacks (h : lacks mark phrase = true) :
    ¬ Stands phrase (markedOf s mark m).compact := by
  obtain ⟨l, hl, hletters⟩ := List.any_eq_true.mp h
  rw [Bool.and_eq_true, List.all_eq_true] at hletters
  obtain ⟨halpha, hlacks⟩ := hletters
  rintro ⟨x, v, z, hsplit, hsame, -, -⟩
  have hlower : l.toLower ∈ v.map Char.toLower := by
    rw [hsame]
    exact List.mem_map_of_mem hl
  obtain ⟨d, hd, hletter⟩ := List.mem_map.mp hlower
  have hdalpha : d.isAlpha = true := by
    rw [← Char.isAlpha_toLower_eq_isAlpha, hletter, Char.isAlpha_toLower_eq_isAlpha, halpha]
  obtain ⟨pre, post, hcompact, hpre, hpost⟩ := exists_around (markedOf s mark m)
  have hmem : d ∈ pre ++ (mark.marker.text ++ post) := by
    change d ∈ pre ++ ((markedOf s mark m).marker.text ++ post)
    rw [← hcompact, hsplit]
    simp [hd]
  rcases List.mem_append.mp hmem with hmem | hmem
  · rw [(hpre d hmem).alpha] at hdalpha
    cases hdalpha
  · rcases List.mem_append.mp hmem with hmem | hmem
    · exact of_decide_eq_true (hlacks d hmem) hletter
    · rw [(hpost d hmem).alpha] at hdalpha
      cases hdalpha

theorem lacks_phrase : ∀ (mark : Mark), ∀ phrase ∈ ["from", "starting at", "per month", "monthly",
    "installment", "finance", "JPY"], lacks mark phrase = true := by
  intro mark
  cases mark with
  | sign sign => cases sign <;> decide +kernel
  | codeBefore currency => cases currency <;> decide +kernel
  | codeAfter currency => cases currency <;> decide +kernel
  | euroAfter => decide +kernel

theorem lacks_code : ∀ (mark : Mark) (currency : SupportedCurrency), currency ≠ mark.currency →
    lacks mark currency.code = true := by
  intro mark currency
  cases mark with
  | sign sign => cases sign <;> cases currency <;> decide +kernel
  | codeBefore other => cases other <;> cases currency <;> decide +kernel
  | codeAfter other => cases other <;> cases currency <;> decide +kernel
  | euroAfter => cases currency <;> decide +kernel

theorem not_unsupported (mark : Mark) : ∀ c ∈ unsupportedSigns, mark.marker.text ≠ [c] := by
  have hall : (unsupportedSigns.all fun c => mark.marker.text ≠ [c]) = true := by
    cases mark with
    | sign sign => cases sign <;> decide +kernel
    | codeBefore currency => cases currency <;> decide +kernel
    | codeAfter currency => cases currency <;> decide +kernel
    | euroAfter => decide +kernel
  exact fun c hc => of_decide_eq_true (List.all_eq_true.mp hall c hc)

/-- The code of a currency stands before or after its price. -/
theorem stands_code (h : mark = .codeBefore currency ∨ mark = .codeAfter currency) :
    Stands currency.code (markedOf s mark m).compact := by
  have hspace : ([' '] : List Char).map plainSpace = [' '] := rfl
  have hsame : SameLetters currency.code.toList currency.code.toList := rfl
  rcases h with rfl | rfl
  · refine ⟨[], currency.code.toList, ' ' :: (amountOf s m).plain.text, ?_, hsame, rfl, rfl⟩
    rw [compact_eq]
    simp [MarkedPrice.before, MarkedPrice.after, MarkedPrice.plainGap, markedOf, Mark.leading,
      Mark.gap, Mark.marker, Marker.text, hspace]
  · refine ⟨(amountOf s m).plain.text ++ [' '], currency.code.toList, [], ?_, hsame,
      by rw [List.getLast?_concat]; rfl, rfl⟩
    rw [compact_eq]
    simp [MarkedPrice.before, MarkedPrice.after, MarkedPrice.plainGap, markedOf, Mark.leading,
      Mark.gap, Mark.marker, Marker.text, hspace]

theorem signCurrency_mark (mark : Mark) : mark.marker.signCurrency = some mark.currency ∨
    (∃ currency, mark = .codeBefore currency ∨ mark = .codeAfter currency) ∧
      mark.marker.signCurrency = none := by
  cases mark with
  | sign sign => exact .inl (by cases sign <;> rfl)
  | codeBefore currency => exact .inr ⟨⟨currency, .inl rfl⟩, rfl⟩
  | codeAfter currency => exact .inr ⟨⟨currency, .inr rfl⟩, rfl⟩
  | euroAfter => exact .inl rfl

/-- A rendering shows the currency of its mark and no other. -/
theorem shows_iff : (markedOf s mark m).Shows currency ↔ currency = mark.currency := by
  have hmarker : (markedOf s mark m).marker = mark.marker := rfl
  rw [MarkedPrice.Shows, hmarker]
  constructor
  · intro hshows
    by_contra hne
    rcases hshows with hsign | hstands
    · rcases signCurrency_mark mark with hmark | ⟨-, hmark⟩
      · rw [hmark] at hsign
        exact hne (Option.some.inj hsign).symm
      · rw [hmark] at hsign
        cases hsign
    · exact not_stands_of_lacks (lacks_code mark currency hne) hstands
  · rintro rfl
    rcases signCurrency_mark mark with hmark | ⟨⟨currency, hcode⟩, -⟩
    · exact .inl hmark
    · have hcurrency : mark.currency = currency := by
        rcases hcode with rfl | rfl <;> rfl
      rw [hcurrency]
      exact .inr (stands_code hcode)

theorem supported_code (currency : SupportedCurrency) :
    supportedCurrencySchema (String.ofList currency.code.toList) ≠ none := by
  cases currency <;> decide

theorem length_code (currency : SupportedCurrency) : currency.code.toList.length = 3 := by
  cases currency <;> rfl

/-- No code beside a rendered amount is refused. -/
theorem supported_of_beside {code : List Char} (h : (markedOf s mark m).Beside code) :
    supportedCurrencySchema (String.ofList code) ≠ none := by
  obtain ⟨hcode, hbeside⟩ := h
  cases mark with
  | sign sign =>
      -- A code ends with a capital, and no sign does.
      obtain ⟨front, htext, -⟩ := hbeside
      have hlast : (Mark.sign sign).marker.text.getLast?.any isAsciiUpper = false := by
        cases sign <;> rfl
      change (Mark.sign sign).marker.text = front ++ code at htext
      rw [htext, List.getLast?_append_of_ne_nil _ hcode.ne_nil,
        List.getLast?_eq_some_getLast hcode.ne_nil, Option.any_some,
        hcode.2 _ (List.getLast_mem hcode.ne_nil)] at hlast
      cases hlast
  | codeBefore currency =>
      obtain ⟨front, htext, -⟩ := hbeside
      change currency.code.toList = front ++ code at htext
      rw [← List.nil_append currency.code.toList] at htext
      obtain ⟨-, rfl⟩ := List.append_inj' htext ((length_code currency).trans hcode.1.symm)
      exact supported_code currency
  | codeAfter currency =>
      obtain ⟨back, htext, -⟩ := hbeside
      change currency.code.toList = code ++ back at htext
      rw [← List.append_nil currency.code.toList] at htext
      obtain ⟨rfl, -⟩ := List.append_inj htext ((length_code currency).trans hcode.1.symm)
      exact supported_code currency
  | euroAfter =>
      obtain ⟨back, htext, -⟩ := hbeside
      have hlength := congrArg List.length htext
      rw [List.length_append, hcode.1] at hlength
      change 1 = 3 + back.length at hlength
      omega

end Shown

/-- A price that is written in a standard way is read back. -/
theorem parsePriceExactly_render (s : Style) (mark : Mark) {m : Nat} (hpos : 1 ≤ m)
    (h : s.Renders m) :
    parsePriceExactly (s.render mark m) = .ok ⟨m, some mark.currency⟩ := by
  have hvalue := decimalValue_text (separator_plain (amountOf s m))
  have hminor : (amountOf s m).plain.value * 100 = (m : Int) := value_amountOf h
  have hhead : (detectedCurrencies (markedOf s mark m).compact).head? = some mark.currency := by
    have hmem : mark.currency ∈ detectedCurrencies (markedOf s mark m).compact :=
      mem_detected_iff.mpr (shows_iff.mpr rfl)
    cases hcurrencies : detectedCurrencies (markedOf s mark m).compact with
    | nil =>
        rw [hcurrencies] at hmem
        cases hmem
    | cons currency others =>
        have hfirst : currency ∈ detectedCurrencies (markedOf s mark m).compact := by
          rw [hcurrencies]
          exact List.mem_cons_self
        rw [List.head?_cons, shows_iff.mp (mem_detected_iff.mp hfirst)]
  have hread := (readAmount_text_iff (p := markedOf s mark m)).mpr
    ⟨fun phrase hphrase => not_stands_of_lacks (lacks_phrase mark phrase hphrase),
      not_unsupported mark, fun code => supported_of_beside,
      fun c d hc hd => (shows_iff.mp hc).trans (shows_iff.mp hd).symm, hhead, rfl⟩
  rw [text_markedOf] at hread
  have hone : 1 ≤ (amountOf s m).plain.value * 100 := by
    rw [hminor]
    exact_mod_cast hpos
  refine parsePriceExactly_eq_ok_iff.mpr ⟨_, hread, _, hvalue, ?_, floor_eq hminor⟩
  linarith

/-- The test's "EUR 1.249,99". -/
def dotted : Style where
  grouping := some '.'
  point := some ','
  grouping_mem := by simp
  point_mem := by simp
  distinct := by simp

theorem parsePriceExactly_render_dotted :
    parsePriceExactly (dotted.render (.codeBefore .eur) 124999) = .ok ⟨124999, some .eur⟩ :=
  parsePriceExactly_render dotted (.codeBefore .eur) (by decide)
    fun h => by cases h

example : dotted.render (.codeBefore .eur) 124999 = "EUR 1.249,99" := by decide +kernel

end PriceScout.Worker.PriceRenderings
