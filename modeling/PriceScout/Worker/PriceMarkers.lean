import PriceScout.Library.Runs
import PriceScout.Worker.Amounts

/-!
Prices that are marked with a currency: what a mark denotes, and when `parsePrice`
refuses it or sees what it denotes.
-/

namespace PriceScout.Worker.PriceMarkers

open PriceScout.Library.JsStrings
open PriceScout.Library.Numbers
open PriceScout.Library.RegularExpressions
open PriceScout.Library.Runs
open PriceScout.Library.Searches
open PriceScout.Worker.Amounts
open PriceScout.Worker.Contracts
open PriceScout.Worker.Validation

/-- Unicode's currency signs. -/
def isCurrencySign (c : Char) : Bool :=
  [0x24, 0xa2, 0xa3, 0xa4, 0xa5, 0x58f, 0x60b, 0x7fe, 0x7ff, 0x9f2, 0x9f3, 0x9fb, 0xaf1, 0xbf9,
    0xe3f, 0x17db, 0xa838, 0xfdfc, 0xfe69, 0xff04, 0xffe0, 0xffe1, 0xffe5, 0xffe6, 0x11fdd,
    0x11fde, 0x11fdf, 0x11fe0, 0x1e2ff, 0x1ecb0].contains c.toNat ||
    (0x20a0 ≤ c.toNat && c.toNat ≤ 0x20cf)

/-- The letters of ASCII, and of what lies beyond it whatever is not white space
or a currency sign. -/
def isLetter (c : Char) : Bool :=
  isAsciiLower c || isAsciiUpper c ||
    (0x80 ≤ c.toNat && !isWhiteSpace c && !isCurrencySign c)

/-- A mark of a currency: a dollar sign with or without letters before it, a
code or another word, or another currency sign. -/
inductive Marker where
  | dollar (front : List Char) (letters : ∀ c ∈ front, isLetter c = true)
  | word (text : List Char) (letters : ∀ c ∈ text, isLetter c = true) (ne : text ≠ [])
  | sign (c : Char) (isSign : isCurrencySign c = true) (ne : c ≠ '$')

namespace Marker

def text : Marker → List Char
  | dollar front _ => front ++ ['$']
  | word text .. => text
  | sign c .. => [c]

/-- The currency that a marker denotes, if it is a supported one. -/
def denotes (marker : Marker) : Option SupportedCurrency :=
  match upperText marker.text with
  | "US$" | "$" | "USD" => some .usd
  | "C$" | "CAD" => some .cad
  | "A$" | "AUD" => some .aud
  | "€" | "EUR" => some .eur
  | "£" | "GBP" => some .gbp
  | _ => none

/-- The currency of the sign in a marker, with the letters right before a dollar sign. -/
def signCurrency : Marker → Option SupportedCurrency
  | dollar front _ =>
      match (front.map Char.toUpper).reverse with
      | 'S' :: 'U' :: _ => some .usd
      | 'C' :: _ => some .cad
      | 'A' :: _ => some .aud
      | _ => some .usd
  | word .. => none
  | sign c .. => if c = '€' then some .eur else if c = '£' then some .gbp else none

end Marker

/-- Three capitals. -/
def Capitals (code : List Char) : Prop :=
  code.length = 3 ∧ ∀ c ∈ code, isAsciiUpper c = true

/-- An amount with a marker before or after it, attached or separated by spaces. -/
structure MarkedPrice where
  marker : Marker
  leading : Bool
  gap : List Char
  amount : Amount
  gap_spaces : ∀ c ∈ gap, isWhiteSpace c = true

namespace MarkedPrice

def text (p : MarkedPrice) : String :=
  String.ofList <|
    if p.leading then p.marker.text ++ (p.gap ++ p.amount.text)
    else p.amount.text ++ (p.gap ++ p.marker.text)

/-- `parsePrice` rejects the text, or returns the currency that its marker denotes. -/
def FailsClosed (p : MarkedPrice) : Prop :=
  ∀ price, parsePrice p.text = .ok price →
    ∃ currency, price.currency = some currency ∧ p.marker.denotes = some currency

/-- The text with plain spaces. -/
def compact (p : MarkedPrice) : List Char :=
  p.text.toList.map plainSpace

/-- A currency that the text shows: by a sign, or by a code that is a word of its own. -/
def Shows (p : MarkedPrice) (currency : SupportedCurrency) : Prop :=
  p.marker.signCurrency = some currency ∨ Stands currency.code p.compact

/-- Three capitals of the marker that are a word of their own and next to the amount. -/
def Beside (p : MarkedPrice) (code : List Char) : Prop :=
  Capitals code ∧
    if p.leading then
      ∃ front, p.marker.text = front ++ code ∧ front.getLast?.any isWordChar = false
    else ∃ back, p.marker.text = code ++ back ∧ back.head?.any isWordChar = false

/-- `parsePrice` sees what the marker denotes, or a reason to refuse the text. -/
inductive Recognized (p : MarkedPrice) : Prop
  | denoted {currency : SupportedCurrency} (hdenotes : p.marker.denotes = some currency)
      (hshows : p.Shows currency)
  | phrase {phrase : String} (hphrase : phrase ∈ ["from", "starting at", "per month", "monthly",
      "installment", "finance", "JPY"]) (hstands : Stands phrase p.compact)
  | sign {c : Char} (hsign : c ∈ unsupportedSigns) (hmarker : p.marker.text = [c])
  | code {code : List Char} (hbeside : p.Beside code)
      (hunsupported : supportedCurrencySchema (String.ofList code) = none)
  | conflict {currency other : SupportedCurrency} (hshows : p.Shows currency)
      (hother : p.Shows other) (hne : currency ≠ other)

end MarkedPrice

/-! The characters of a marked price. -/

section Characters

variable {c : Char}

/-- The characters of a marker are none of an amount, of a gap or of a monthly rate. -/
structure Marks (c : Char) : Prop where
  digit : isAsciiDigit c = false
  space : isWhiteSpace c = false
  dot : c ≠ '.'
  comma : c ≠ ','
  slash : c ≠ '/'

theorem marks_of_toNat (hspace : isWhiteSpace c = false)
    (hlow : 0x20 ≤ c.toNat → c.toNat < 0x40 → c.toNat = 0x24) : Marks c where
  digit := by
    rw [← Bool.not_eq_true, isAsciiDigit_iff]
    omega
  space := hspace
  dot := by
    rintro rfl
    exact absurd (hlow (by decide) (by decide)) (by decide)
  comma := by
    rintro rfl
    exact absurd (hlow (by decide) (by decide)) (by decide)
  slash := by
    rintro rfl
    exact absurd (hlow (by decide) (by decide)) (by decide)

theorem marks_of_isLetter (h : isLetter c = true) : Marks c := by
  simp only [isLetter, Bool.or_eq_true, Bool.and_eq_true, Bool.not_eq_true', decide_eq_true_eq,
    isAsciiLower_iff, isAsciiUpper_iff] at h
  refine marks_of_toNat ?_ (by omega)
  rcases h with h | ⟨⟨-, hspace⟩, -⟩
  · simp [isWhiteSpace]
    omega
  · exact hspace

theorem marks_of_isCurrencySign (h : isCurrencySign c = true) : Marks c := by
  simp only [isCurrencySign, Bool.or_eq_true, List.contains_iff_mem, List.mem_cons,
    List.not_mem_nil, or_false, Bool.and_eq_true, decide_eq_true_eq] at h
  refine marks_of_toNat ?_ (by omega)
  simp [isWhiteSpace]
  omega

theorem marks_of_mem {marker : Marker} (h : c ∈ marker.text) : Marks c := by
  cases marker with
  | dollar front letters =>
      rcases List.mem_append.mp h with hc | hc
      · exact marks_of_isLetter (letters c hc)
      · obtain rfl := List.mem_singleton.mp hc
        exact marks_of_isCurrencySign rfl
  | word text letters ne => exact marks_of_isLetter (letters c h)
  | sign c' isSign ne =>
      obtain rfl := List.mem_singleton.mp h
      exact marks_of_isCurrencySign isSign

theorem text_ne_nil (marker : Marker) : marker.text ≠ [] := by
  cases marker with
  | dollar front letters => simp [Marker.text]
  | word text letters ne => exact ne
  | sign c isSign ne => simp [Marker.text]

theorem plainSpace_of_not_space (h : isWhiteSpace c = false) : plainSpace c = c := by
  refine if_neg ?_
  rintro (hc | hc) <;> simp [isWhiteSpace, hc] at h

theorem isWhiteSpace_plainSpace (h : isWhiteSpace c = true) :
    isWhiteSpace (plainSpace c) = true := by
  unfold plainSpace
  split
  · rfl
  · exact h

theorem not_space_of_digit (h : isAsciiDigit c = true) : isWhiteSpace c = false := by
  rw [isAsciiDigit_iff] at h
  simp [isWhiteSpace]
  omega

/-- What `trim` keeps. -/
theorem trim_eq {s : List Char} (hhead : ∀ c ∈ s.head?, isWhiteSpace c = false)
    (hlast : ∀ c ∈ s.getLast?, isWhiteSpace c = false) :
    trim (String.ofList s) = String.ofList s := by
  have hdrop : s.dropWhile isWhiteSpace = s := by
    cases s with
    | nil => rfl
    | cons a s => exact List.dropWhile_cons_of_neg (by simp [hhead a rfl])
  rw [trim, String.toList_ofList, hdrop, List.rdropWhile_eq_self_iff.mpr]
  intro hne
  simp [hlast _ (List.getLast?_eq_some_getLast hne)]

/-- An amount ends with a digit. -/
theorem digit_of_getLast? {a : Amount} (h : c ∈ a.text.getLast?) : isAsciiDigit c = true := by
  obtain ⟨u, v, htext, hne, hdigits⟩ : ∃ u v, a.text = u ++ v ∧ v ≠ [] ∧
      ∀ c ∈ v, isAsciiDigit c = true := by
    by_cases hfraction : a.fraction = []
    · rcases List.eq_nil_or_concat a.groups with hnil | ⟨groups, g, hconcat⟩
      · exact ⟨[], a.lead, by simp [Amount.text, Amount.groupsText, Amount.fractionText, hnil,
          hfraction], a.lead_ne, a.lead_digits⟩
      · obtain ⟨hlength, hdigits⟩ := a.group_digits g (by simp [hconcat])
        exact ⟨a.lead ++ groups.flatMap (a.separator :: ·) ++ [a.separator], g,
          by simp [Amount.text, Amount.groupsText, Amount.fractionText, hconcat, hfraction],
          List.ne_nil_of_length_pos (by omega), hdigits⟩
    · exact ⟨a.lead ++ a.groupsText ++ [a.point], a.fraction,
        by simp [Amount.text, Amount.fractionText, hfraction], hfraction, a.fraction_digits⟩
  rw [htext, List.getLast?_append_of_ne_nil _ hne] at h
  exact hdigits c (List.mem_of_mem_getLast? h)

theorem digit_of_head? {a : Amount} (h : c ∈ a.text.head?) : isAsciiDigit c = true := by
  obtain ⟨d, lead, hlead⟩ := List.exists_cons_of_ne_nil a.lead_ne
  have hdigit := a.lead_digits
  rw [Amount.text, hlead] at h
  obtain rfl : d = c := by simpa using h
  exact hdigit d (by simp [hlead])

end Characters

section Compact

variable {p : MarkedPrice}

namespace MarkedPrice

/-- The gap with plain spaces. -/
def plainGap (p : MarkedPrice) : List Char :=
  p.gap.map plainSpace

/-- What precedes the amount. -/
def before (p : MarkedPrice) : List Char :=
  if p.leading then p.marker.text ++ p.plainGap else []

/-- What follows the amount. -/
def after (p : MarkedPrice) : List Char :=
  if p.leading then [] else p.plainGap ++ p.marker.text

end MarkedPrice

theorem space_of_mem_plainGap {c : Char} (h : c ∈ p.plainGap) : isWhiteSpace c = true := by
  obtain ⟨d, hd, rfl⟩ := List.mem_map.mp h
  exact isWhiteSpace_plainSpace (p.gap_spaces d hd)

theorem map_plainSpace_marker (marker : Marker) : marker.text.map plainSpace = marker.text := by
  rw [List.map_congr_left fun _ hc => plainSpace_of_not_space (marks_of_mem hc).space,
    List.map_id']

theorem compact_eq : p.compact = p.before ++ (p.amount.plain.text ++ p.after) := by
  rw [MarkedPrice.compact, MarkedPrice.text, String.toList_ofList, MarkedPrice.before,
    MarkedPrice.after]
  split <;> simp [map_plainSpace_marker, map_plainSpace_text, MarkedPrice.plainGap]

theorem trim_compact : trim (String.ofList p.compact) = String.ofList p.compact := by
  have hmarker : ∀ c ∈ p.marker.text, isWhiteSpace c = false := fun c hc => (marks_of_mem hc).space
  have hne := text_ne_nil p.marker
  have hamount : p.amount.plain.text ≠ [] := List.append_ne_nil_of_left_ne_nil p.amount.lead_ne _
  rw [compact_eq]
  unfold MarkedPrice.before MarkedPrice.after
  split
  · refine trim_eq (fun c hc => ?_) fun c hc => ?_
    · rw [List.append_assoc, List.head?_append_of_ne_nil _ hne] at hc
      exact hmarker c (List.mem_of_mem_head? hc)
    · rw [List.append_nil, List.getLast?_append_of_ne_nil _ hamount] at hc
      exact not_space_of_digit (digit_of_getLast? hc)
  · refine trim_eq (fun c hc => ?_) fun c hc => ?_
    · rw [List.nil_append, List.head?_append_of_ne_nil _ hamount] at hc
      exact not_space_of_digit (digit_of_head? hc)
    · rw [List.nil_append, ← List.append_assoc, List.getLast?_append_of_ne_nil _ hne] at hc
      exact hmarker c (List.mem_of_mem_getLast? hc)

theorem outside_of_space {c : Char} (h : isWhiteSpace c = true) :
    isAsciiDigit c = false ∧ c ≠ '.' ∧ c ≠ ',' := by
  refine ⟨?_, ?_, ?_⟩
  · by_contra hdigit
    rw [not_space_of_digit (Bool.eq_true_of_not_eq_false hdigit)] at h
    cases h
  · rintro rfl
    cases h
  · rintro rfl
    cases h

theorem outside_marker : Outside p.marker.text := fun _ hc =>
  ⟨(marks_of_mem hc).digit, (marks_of_mem hc).dot, (marks_of_mem hc).comma⟩

theorem outside_gap : Outside p.plainGap := fun _ hc =>
  outside_of_space (space_of_mem_plainGap hc)

theorem outside_append {u v : List Char} (hu : Outside u) (hv : Outside v) : Outside (u ++ v) :=
  List.forall_mem_append.mpr ⟨hu, hv⟩

theorem outside_before : Outside p.before := by
  unfold MarkedPrice.before
  split
  · exact outside_append outside_marker outside_gap
  · exact List.forall_mem_nil _

theorem outside_after : Outside p.after := by
  unfold MarkedPrice.after
  split
  · exact List.forall_mem_nil _
  · exact outside_append outside_gap outside_marker

/-- The amount is the only one that is found. -/
theorem amounts_compact :
    matchAll numericPattern p.compact = [⟨p.before, p.amount.plain.text, p.after⟩] := by
  rw [compact_eq]
  exact matchAll_numericPattern (separator_plain _) outside_before outside_after

theorem mem_marker_or {c : Char} (h : c ∈ p.compact) :
    c ∈ p.marker.text ∨ isWhiteSpace c = true ∨ isAsciiDigit c = true ∨ c = '.' ∨ c = ',' := by
  have hamount (hc : c ∈ p.amount.plain.text) :
      isWhiteSpace c = true ∨ isAsciiDigit c = true ∨ c = '.' ∨ c = ',' := by
    rcases mem_text hc with hdigit | hseparator
    · exact Or.inr (Or.inl hdigit)
    · simp only [List.mem_cons, List.not_mem_nil, or_false] at hseparator
      rcases hseparator with rfl | rfl | rfl | rfl | rfl <;> simp [isWhiteSpace]
  rw [MarkedPrice.compact, MarkedPrice.text, String.toList_ofList] at h
  split at h
  all_goals
    simp only [List.map_append, map_plainSpace_marker, map_plainSpace_text, List.mem_append] at h
  · rcases h with hc | hc | hc
    · exact Or.inl hc
    · exact Or.inr (Or.inl (space_of_mem_plainGap hc))
    · exact Or.inr (hamount hc)
  · rcases h with hc | hc | hc
    · exact Or.inr (hamount hc)
    · exact Or.inr (Or.inl (space_of_mem_plainGap hc))
    · exact Or.inl hc

theorem mem_compact_of_marker {c : Char} (h : c ∈ p.marker.text) : c ∈ p.compact := by
  rw [compact_eq]
  unfold MarkedPrice.before MarkedPrice.after
  split <;> simp [h]

end Compact

/-! What is refused. -/

section Refusals

variable {p : MarkedPrice} {c : Char}

theorem slash_not_mem : '/' ∉ p.compact := by
  intro h
  rcases mem_marker_or h with hc | hc | hc | hc | hc
  · exact (marks_of_mem hc).slash rfl
  all_goals cases hc

theorem test_nonTotalPattern : test nonTotalPattern p.compact = true ↔
    ∃ phrase ∈ ["from", "starting at", "per month", "monthly", "installment", "finance"],
      Stands phrase p.compact := by
  rw [nonTotalPattern, test_alt]
  refine Iff.trans (or_iff_left ?_) (test_wholePhrases (by decide))
  rw [Bool.not_eq_true]
  refine not_test_seq fun c hc => decide_eq_false ?_
  rintro rfl
  exact slash_not_mem hc

theorem test_jpyPattern : test jpyPattern p.compact = true ↔ Stands "JPY" p.compact := by
  rw [show jpyPattern = wholePhrases ["JPY"] from rfl, test_wholePhrases (by decide)]
  simp

theorem isCurrencySign_of_unsupported (h : c ∈ unsupportedSigns) :
    isCurrencySign c = true ∧ c ≠ '$' := by
  simp only [unsupportedSigns, List.mem_cons, List.not_mem_nil, or_false] at h
  rcases h with rfl | rfl | rfl | rfl | rfl | rfl | rfl | rfl | rfl | rfl | rfl <;> decide

theorem not_isCurrencySign_of_isLetter (h : isLetter c = true) : isCurrencySign c = false := by
  simp only [isLetter, Bool.or_eq_true, Bool.and_eq_true, Bool.not_eq_true',
    isAsciiLower_iff, isAsciiUpper_iff] at h
  rcases h with h | ⟨-, hsign⟩
  · simp [isCurrencySign]
    omega
  · exact hsign

/-- A sign in a marker is the whole of it, or the dollar sign at its end. -/
theorem text_eq_of_isCurrencySign {marker : Marker} (hmem : c ∈ marker.text)
    (hsign : isCurrencySign c = true) (hne : c ≠ '$') : marker.text = [c] := by
  cases marker with
  | dollar front letters =>
      rcases List.mem_append.mp hmem with hc | hc
      · rw [not_isCurrencySign_of_isLetter (letters c hc)] at hsign
        cases hsign
      · exact absurd (List.mem_singleton.mp hc) hne
  | word text letters ne =>
      rw [not_isCurrencySign_of_isLetter (letters c hmem)] at hsign
      cases hsign
  | sign c' isSign ne => rw [List.mem_singleton.mp hmem, Marker.text]

theorem any_unsupportedSigns : p.compact.any unsupportedSigns.contains = true ↔
    ∃ c ∈ unsupportedSigns, p.marker.text = [c] := by
  simp only [List.any_eq_true, List.contains_iff_mem]
  constructor
  · rintro ⟨c, hc, hunsupported⟩
    obtain ⟨hsign, hne⟩ := isCurrencySign_of_unsupported hunsupported
    have hmarks := marks_of_isCurrencySign hsign
    refine ⟨c, hunsupported, text_eq_of_isCurrencySign ?_ hsign hne⟩
    rcases mem_marker_or hc with hc | hc | hc | hc | hc
    · exact hc
    · exact absurd (hmarks.space.symm.trans hc) Bool.false_ne_true
    · exact absurd (hmarks.digit.symm.trans hc) Bool.false_ne_true
    · exact absurd hc hmarks.dot
    · exact absurd hc hmarks.comma
  · rintro ⟨c, hunsupported, htext⟩
    exact ⟨c, mem_compact_of_marker (by simp [htext]), hunsupported⟩

end Refusals

/-! The currencies that are detected. -/

section Detection

variable {p : MarkedPrice} {currency : SupportedCurrency} {text v : List Char}

theorem upperText_eq_of_sameLetters {w : String} (h : SameLetters v w.toList)
    (hw : w.toList.map Char.toUpper = w.toList) : upperText v = w := by
  have hupper := congrArg (List.map Char.toUpper) h
  simp only [List.map_map, Function.comp_def, Char.toUpper_toLower_eq_toUpper] at hupper
  rw [upperText, hupper, hw, String.ofList_toList]

theorem sameLetters_of_upperText {w : String} (h : upperText v = w) : SameLetters v w.toList := by
  rw [← h, upperText, String.toList_ofList, SameLetters, List.map_map]
  exact List.map_congr_left fun c _ => (Char.toLower_toUpper_eq_toLower c).symm

theorem eq_code_of_schema {s : String} (h : supportedCurrencySchema s = some currency) :
    s = currency.code := by
  unfold supportedCurrencySchema at h
  split at h <;> simp_all [SupportedCurrency.code]
  all_goals
    obtain rfl := h
    rfl

theorem schema_upperText_iff :
    supportedCurrencySchema (upperText v) = some currency ↔
      SameLetters v currency.code.toList := by
  constructor
  · exact fun h => sameLetters_of_upperText (eq_code_of_schema h)
  · intro h
    rw [upperText_eq_of_sameLetters h (by cases currency <;> decide)]
    cases currency <;> rfl

/-- A code is detected wherever it is a word. -/
theorem mem_codes_iff :
    currency ∈ ((matchAll codePattern text).filterMap fun m =>
      supportedCurrencySchema (upperText m.text)) ↔ Stands currency.code text := by
  have hpattern : codePattern = wholePhrases ["USD", "CAD", "EUR", "GBP", "AUD"] := rfl
  simp only [List.mem_filterMap, schema_upperText_iff, hpattern]
  refine exists_matchAll_iff (n := 3) (by decide) (by decide) ?_
  cases currency <;> decide

/-- A sign of one of the supported currencies. -/
def isMark (c : Char) : Bool :=
  c = '$' || c = '€' || c = '£'

/-- A symbol is a sign, with two letters before it at most. -/
inductive Symbol : List Char → Char → Prop
  | bare {s : Char} (hmark : isMark s = true) : Symbol [] s
  | one {a : Char} (ha : a.toUpper = 'C' ∨ a.toUpper = 'A') : Symbol [a] '$'
  | two {a b : Char} (ha : a.toUpper = 'U') (hb : b.toUpper = 'S') : Symbol [a, b] '$'

theorem eq_of_toUpper {c d : Char} (h : c.toUpper = d) (hd : d.isUpper = false) : c = d := by
  by_cases hlower : c.isLower = true
  · have hupper : c.toUpper.isUpper = true := by simp [Char.isAlpha, hlower]
    rw [h, hd] at hupper
    cases hupper
  · rwa [Char.toUpper_eq_of_not_isLower hlower] at h

theorem mem_symbols {s : String} (h : (currencySymbols s).isSome = true) :
    s ∈ ["US$", "C$", "A$", "$", "€", "£"] := by
  unfold currencySymbols at h
  split at h <;> simp_all

theorem symbol_of_currency (h : (currencySymbols (upperText v)).isSome = true) :
    ∃ w s, v = w ++ [s] ∧ Symbol w s := by
  have hsymbol := mem_symbols h
  have hupper : v.map Char.toUpper = (upperText v).toList := by
    rw [upperText, String.toList_ofList]
  have hbare {s : Char} (hv : v.map Char.toUpper = [s]) (hs : s.isUpper = false)
      (hmark : isMark s = true) : ∃ w s, v = w ++ [s] ∧ Symbol w s := by
    obtain ⟨c, rfl, hc⟩ := List.map_eq_singleton_iff.mp hv
    obtain rfl := eq_of_toUpper hc hs
    exact ⟨[], c, rfl, .bare hmark⟩
  have hone {a : Char} (hv : v.map Char.toUpper = [a, '$']) (ha : a = 'C' ∨ a = 'A') :
      ∃ w s, v = w ++ [s] ∧ Symbol w s := by
    obtain ⟨c, rest, rfl, hc, hrest⟩ := List.map_eq_cons_iff.mp hv
    obtain ⟨s, rfl, hlast⟩ := List.map_eq_singleton_iff.mp hrest
    obtain rfl := eq_of_toUpper hlast rfl
    exact ⟨[c], '$', rfl, .one (by rwa [hc])⟩
  simp only [List.mem_cons, List.not_mem_nil, or_false] at hsymbol
  rcases hsymbol with hs | hs | hs | hs | hs | hs
  all_goals rw [hs] at hupper
  · obtain ⟨a, rest, rfl, ha, hrest⟩ := List.map_eq_cons_iff.mp hupper
    obtain ⟨b, rest, rfl, hb, hrest⟩ := List.map_eq_cons_iff.mp hrest
    obtain ⟨s, rfl, hlast⟩ := List.map_eq_singleton_iff.mp hrest
    obtain rfl := eq_of_toUpper hlast rfl
    exact ⟨[a, b], '$', rfl, .two ha hb⟩
  · exact hone hupper (Or.inl rfl)
  · exact hone hupper (Or.inr rfl)
  · exact hbare hupper rfl rfl
  · exact hbare hupper rfl rfl
  · exact hbare hupper rfl rfl

theorem currency_of_symbol {w : List Char} {s : Char} (h : Symbol w s) :
    (currencySymbols (upperText (w ++ [s]))).isSome = true := by
  cases h with
  | bare hmark =>
      simp only [isMark, Bool.or_eq_true, decide_eq_true_eq] at hmark
      rcases hmark with (rfl | rfl) | rfl <;> decide
  | one ha =>
      rcases ha with ha | ha
      · rw [upperText, List.map_append, List.map_singleton, ha]
        rfl
      · rw [upperText, List.map_append, List.map_singleton, ha]
        rfl
  | two ha hb =>
      rw [upperText, List.map_append, List.map_cons, List.map_singleton, ha, hb]
      rfl

theorem Symbol.isMark {w : List Char} {s : Char} (h : Symbol w s) : isMark s = true := by
  cases h with
  | bare hmark => exact hmark
  | one ha => rfl
  | two ha hb => rfl

/-- What a match of the symbols covers. -/
theorem symbol_of_mem_ends {x y : List Char} {d : Cursor}
    (h : d ∈ symbolPattern.ends (between x y)) :
    ∃ w s z, y = w ++ s :: z ∧ Symbol w s ∧ d = between (x ++ (w ++ [s])) z := by
  obtain ⟨_, hr, hd⟩ := mem_ends_oneOf.mp h
  obtain ⟨symbol, hsymbol, rfl⟩ := List.mem_map.mp hr
  obtain ⟨v, z, rfl, hv, rfl⟩ := (mem_ends_literalIgnoreCase symbol).mp hd
  obtain ⟨w, s, rfl, hw⟩ := symbol_of_currency (v := v) <| by
    simp only [List.mem_cons, List.not_mem_nil, or_false] at hsymbol
    rcases hsymbol with rfl | rfl | rfl | rfl | rfl | rfl
    all_goals
      rw [upperText_eq_of_sameLetters hv (by decide)]
      rfl
  exact ⟨w, s, z, by simp, hw, rfl⟩

theorem ends_symbolPattern_ne_nil {x w z : List Char} {s : Char} (h : Symbol w s) :
    symbolPattern.ends (between x (w ++ s :: z)) ≠ [] := by
  have hsymbol := mem_symbols (currency_of_symbol h)
  have hword := (mem_ends_literalIgnoreCase (x := x) (upperText (w ++ [s]))).mpr
    ⟨w ++ [s], z, List.append_cons w s z, sameLetters_of_upperText rfl, rfl⟩
  exact List.ne_nil_of_mem (mem_ends_oneOf.mpr ⟨_, List.mem_map_of_mem hsymbol, hword⟩)

theorem consumes_symbolPattern : Consumes symbolPattern := by
  intro x y h
  obtain ⟨w, s, z, -, -, hsame⟩ := symbol_of_mem_ends h
  simpa using (between_inj hsame).1

section Only

variable {t post : List Char} {s : Char}

/-- The sign is the only one of its text, so every match ends with it. -/
theorem ends_at_mark (ht : ∀ c ∈ t, isMark c = false) (hpost : ∀ c ∈ post, isMark c = false)
    {x y : List Char} {d : Cursor} (hsplit : x ++ y = t ++ s :: post)
    (h : d ∈ symbolPattern.ends (between x y)) :
    ∃ w, t = x ++ w ∧ Symbol w s ∧ d = between (t ++ [s]) post := by
  obtain ⟨w, s', z, rfl, hw, rfl⟩ := symbol_of_mem_ends h
  have hmark := hw.isMark
  have hsame : t ++ s :: post = (x ++ w) ++ s' :: z := by simpa using hsplit.symm
  obtain ⟨rfl, rfl, rfl⟩ := (List.append_cons_inj_of_notMem
    (fun hmem => absurd ((ht s' hmem).symm.trans hmark) Bool.false_ne_true)
    (fun hmem => absurd ((hpost s' hmem).symm.trans hmark) Bool.false_ne_true)).mp hsame
  exact ⟨w, rfl, hw, by simp⟩

/-- The one match takes the longest symbol that ends with the sign. -/
theorem matchAll_symbolPattern {f w : List Char} (ht : ∀ c ∈ t, isMark c = false)
    (hpost : ∀ c ∈ post, isMark c = false) (hsplit : t = f ++ w) (hsymbol : Symbol w s)
    (hlongest : ∀ f' w', t = f' ++ w' → Symbol w' s → w'.length ≤ w.length) :
    matchAll symbolPattern (t ++ s :: post) = [⟨f, w ++ [s], post⟩] := by
  subst hsplit
  have htext : f ++ w ++ s :: post = f ++ (w ++ [s] ++ post) := by simp
  rw [htext]
  refine matchAll_eq_singleton consumes_symbolPattern ?_ ?_ ?_
  · rintro y₁ y₂ rfl hne
    refine List.eq_nil_iff_forall_not_mem.mpr fun d hd => ?_
    obtain ⟨w', hw', hsymbol', -⟩ := ends_at_mark (s := s) ht hpost (by simp) hd
    have hle := hlongest _ w' hw' hsymbol'
    obtain rfl : w' = y₂ ++ w := by simpa using hw'.symm
    have hpos := List.length_pos_iff.mpr hne
    rw [List.length_append] at hle
    omega
  · refine first_of_forall ?_ fun d hd => ?_
    · simpa using ends_symbolPattern_ne_nil (x := f) (z := post) hsymbol
    · obtain ⟨-, -, -, rfl⟩ := ends_at_mark (s := s) ht hpost (by simp) hd
      rw [List.append_assoc]
  · rintro y₁ y₂ rfl
    refine List.eq_nil_iff_forall_not_mem.mpr fun d hd => ?_
    obtain ⟨w', hw', -, -⟩ := ends_at_mark (s := s) ht hpost (by simp) hd
    have hlength := congrArg List.length hw'
    simp only [List.length_append, List.length_singleton] at hlength
    omega

theorem matchAll_symbolPattern_eq_nil (ht : ∀ c ∈ t, isMark c = false) :
    matchAll symbolPattern t = [] := by
  refine matchAll_eq_nil consumes_symbolPattern ?_
  rintro x y rfl
  refine List.eq_nil_iff_forall_not_mem.mpr fun d hd => ?_
  obtain ⟨w, s, z, rfl, hw, -⟩ := symbol_of_mem_ends hd
  exact absurd ((ht s (by simp)).symm.trans hw.isMark) Bool.false_ne_true

end Only

theorem isCurrencySign_of_isMark {c : Char} (h : isMark c = true) : isCurrencySign c = true := by
  rw [isMark, Bool.or_eq_true, Bool.or_eq_true] at h
  simp only [decide_eq_true_eq] at h
  rcases h with (rfl | rfl) | rfl <;> decide

theorem not_isMark {c : Char} (h : isCurrencySign c = false) : isMark c = false := by
  by_contra hmark
  rw [isCurrencySign_of_isMark (Bool.eq_true_of_not_eq_false hmark)] at h
  cases h

/-- What surrounds a marker: neither signs nor letters. -/
structure Plain (c : Char) : Prop where
  mark : isMark c = false
  alpha : c.isAlpha = false

theorem isAlpha_iff {c : Char} : c.isAlpha = true ↔
    0x41 ≤ c.toNat ∧ c.toNat ≤ 0x5a ∨ 0x61 ≤ c.toNat ∧ c.toNat ≤ 0x7a := by
  rw [Char.isAlpha, Bool.or_eq_true, ← isAsciiUpper_eq, ← isAsciiLower_eq, isAsciiUpper_iff,
    isAsciiLower_iff]

theorem plain_of_space {c : Char} (h : isWhiteSpace c = true) : Plain c where
  mark := by
    by_contra hmark
    have hsign := isCurrencySign_of_isMark (Bool.eq_true_of_not_eq_false hmark)
    rw [(marks_of_isCurrencySign hsign).space] at h
    cases h
  alpha := by
    rw [← Bool.not_eq_true, isAlpha_iff]
    simp [isWhiteSpace] at h
    omega

theorem plain_of_digit {c : Char} (h : isAsciiDigit c = true) : Plain c where
  mark := by
    by_contra hmark
    have hsign := isCurrencySign_of_isMark (Bool.eq_true_of_not_eq_false hmark)
    rw [(marks_of_isCurrencySign hsign).digit] at h
    cases h
  alpha := by
    rw [isAsciiDigit_iff] at h
    rw [← Bool.not_eq_true, isAlpha_iff]
    omega

theorem plain_of_amount {a : Amount} {c : Char} (h : c ∈ a.text) : Plain c := by
  rcases mem_text h with hdigit | hseparator
  · exact plain_of_digit hdigit
  · simp only [List.mem_cons, List.not_mem_nil, or_false] at hseparator
    rcases hseparator with rfl | rfl | rfl | rfl | rfl <;> exact ⟨rfl, rfl⟩

theorem exists_around (p : MarkedPrice) : ∃ pre post, p.compact = pre ++ (p.marker.text ++ post) ∧
    (∀ c ∈ pre, Plain c) ∧ ∀ c ∈ post, Plain c := by
  have hgap : ∀ c ∈ p.plainGap, Plain c := fun c hc => plain_of_space (space_of_mem_plainGap hc)
  have hamount : ∀ c ∈ p.amount.plain.text, Plain c := fun c hc => plain_of_amount hc
  rw [compact_eq]
  unfold MarkedPrice.before MarkedPrice.after
  split
  · exact ⟨[], p.plainGap ++ p.amount.plain.text, by simp, List.forall_mem_nil _,
      List.forall_mem_append.mpr ⟨hgap, hamount⟩⟩
  · exact ⟨p.amount.plain.text ++ p.plainGap, [], by simp,
      List.forall_mem_append.mpr ⟨hamount, hgap⟩, List.forall_mem_nil _⟩

theorem Symbol.alpha {w : List Char} {s : Char} (h : Symbol w s) : ∀ c ∈ w, c.isAlpha = true := by
  have hletter {c d : Char} (hc : c.toUpper = d) (hd : d.isAlpha = true) : c.isAlpha = true := by
    rw [← Char.isAlpha_toUpper_eq_isAlpha, hc, hd]
  cases h with
  | bare hmark => exact List.forall_mem_nil _
  | one ha =>
      refine List.forall_mem_singleton.mpr ?_
      rcases ha with ha | ha <;> exact hletter ha rfl
  | two ha hb => simp [hletter ha rfl, hletter hb rfl]

/-- The letters of a symbol belong to its marker. -/
theorem Symbol.suffix {pre front f w : List Char} {s : Char} (h : Symbol w s)
    (hpre : ∀ c ∈ pre, Plain c) (hsplit : pre ++ front = f ++ w) : ∃ f', front = f' ++ w := by
  rcases List.append_eq_append_iff.mp hsplit with ⟨t, rfl, rfl⟩ | ⟨t, rfl, rfl⟩
  · exact ⟨t, rfl⟩
  · cases t with
    | nil => exact ⟨[], rfl⟩
    | cons c t =>
        have halpha := h.alpha c (by simp)
        rw [(hpre c (by simp)).alpha] at halpha
        cases halpha

/-- The capitals that a dollar marker ends with, from the last one on. -/
theorem split_of_reverse {front rest u : List Char}
    (h : (front.map Char.toUpper).reverse = u.reverse ++ rest) :
    ∃ f w, front = f ++ w ∧ w.map Char.toUpper = u := by
  have hupper : front.map Char.toUpper = rest.reverse ++ u := by
    rw [← List.reverse_reverse (front.map Char.toUpper), h]
    simp
  obtain ⟨f, w, rfl, -, hw⟩ := List.map_eq_append_iff.mp hupper
  exact ⟨f, w, rfl, hw⟩

theorem symbol_of_capitals {w : List Char}
    (h : w.map Char.toUpper ∈ [['U', 'S'], ['C'], ['A'], []]) : Symbol w '$' := by
  simp only [List.mem_cons, List.not_mem_nil, or_false] at h
  rcases h with h | h | h | h
  · obtain ⟨a, rest, rfl, ha, hrest⟩ := List.map_eq_cons_iff.mp h
    obtain ⟨b, rfl, hb⟩ := List.map_eq_singleton_iff.mp hrest
    exact .two ha hb
  · obtain ⟨a, rfl, ha⟩ := List.map_eq_singleton_iff.mp h
    exact .one (Or.inl ha)
  · obtain ⟨a, rfl, ha⟩ := List.map_eq_singleton_iff.mp h
    exact .one (Or.inr ha)
  · obtain rfl := List.map_eq_nil_iff.mp h
    exact .bare rfl

theorem capitals_of_symbol {w : List Char} (h : Symbol w '$') :
    w.map Char.toUpper ∈ [['U', 'S'], ['C'], ['A'], []] := by
  cases h with
  | bare hmark => simp
  | one ha => rcases ha with ha | ha <;> simp [ha]
  | two ha hb => simp [ha, hb]

/-- The longest symbol at the end of a dollar marker. -/
theorem exists_dollarSymbol (front : List Char) (letters : ∀ c ∈ front, isLetter c = true) :
    ∃ f w, front = f ++ w ∧ Symbol w '$' ∧
      currencySymbols (upperText (w ++ ['$'])) = (Marker.dollar front letters).signCurrency ∧
        ∀ f' w', front = f' ++ w' → Symbol w' '$' → w'.length ≤ w.length := by
  have hspelled {f' w' : List Char} (hsplit : front = f' ++ w') :
      (front.map Char.toUpper).reverse = (w'.map Char.toUpper).reverse ++
        (f'.map Char.toUpper).reverse := by
    rw [hsplit, List.map_append, List.reverse_append]
  obtain ⟨u, rest, hrev, hu, hcurrency, hlongest⟩ : ∃ u rest,
      (front.map Char.toUpper).reverse = u.reverse ++ rest ∧
      u ∈ [['U', 'S'], ['C'], ['A'], []] ∧
      currencySymbols (String.ofList (u ++ ['$'])) =
        (Marker.dollar front letters).signCurrency ∧
      ∀ u' rest', (front.map Char.toUpper).reverse = u'.reverse ++ rest' →
        u' ∈ [['U', 'S'], ['C'], ['A'], []] → u'.length ≤ u.length := by
    generalize hreversed : (front.map Char.toUpper).reverse = reversed
    simp only [Marker.signCurrency, hreversed]
    split
    · refine ⟨['U', 'S'], _, rfl, by simp, rfl, ?_⟩
      rintro u' rest' - hu'
      simp only [List.mem_cons, List.not_mem_nil, or_false] at hu'
      rcases hu' with rfl | rfl | rfl | rfl <;> simp
    · refine ⟨['C'], _, rfl, by simp, rfl, ?_⟩
      intro u' rest' hsplit hu'
      simp only [List.mem_cons, List.not_mem_nil, or_false] at hu'
      rcases hu' with rfl | rfl | rfl | rfl <;> simp_all
    · refine ⟨['A'], _, rfl, by simp, rfl, ?_⟩
      intro u' rest' hsplit hu'
      simp only [List.mem_cons, List.not_mem_nil, or_false] at hu'
      rcases hu' with rfl | rfl | rfl | rfl <;> simp_all
    · rename_i hus hc ha
      refine ⟨[], _, rfl, by simp, rfl, ?_⟩
      intro u' rest' hsplit hu'
      simp only [List.mem_cons, List.not_mem_nil, or_false] at hu'
      rcases hu' with rfl | rfl | rfl | rfl
      · exact absurd hsplit (hus rest')
      · exact absurd hsplit (hc rest')
      · exact absurd hsplit (ha rest')
      · exact Nat.le_refl 0
  obtain ⟨f, w, rfl, rfl⟩ := split_of_reverse hrev
  refine ⟨f, w, rfl, symbol_of_capitals hu, ?_, ?_⟩
  · rw [← hcurrency, upperText, List.map_append]
    rfl
  · intro f' w' hsplit hsymbol
    have hle := hlongest (w'.map Char.toUpper) _ (hspelled hsplit) (capitals_of_symbol hsymbol)
    simpa using hle

theorem symbols_of_marker (p : MarkedPrice) :
    ((matchAll symbolPattern p.compact).filterMap fun m => currencySymbols (upperText m.text)) =
      p.marker.signCurrency.toList := by
  obtain ⟨pre, post, hcompact, hpre, hpost⟩ := exists_around p
  have hpreMark : ∀ c ∈ pre, isMark c = false := fun c hc => (hpre c hc).mark
  have hpostMark : ∀ c ∈ post, isMark c = false := fun c hc => (hpost c hc).mark
  have hletters {text : List Char} (h : ∀ c ∈ text, isLetter c = true) :
      ∀ c ∈ text, isMark c = false :=
    fun c hc => not_isMark (not_isCurrencySign_of_isLetter (h c hc))
  rw [hcompact]
  cases hmarker : p.marker with
  | dollar front letters =>
      obtain ⟨f, w, hfront, hsymbol, hcurrency, hlongest⟩ := exists_dollarSymbol front letters
      have htext : pre ++ ((Marker.dollar front letters).text ++ post) =
          (pre ++ front) ++ '$' :: post := by simp [Marker.text]
      rw [htext, matchAll_symbolPattern (f := pre ++ f) (w := w)
        (List.forall_mem_append.mpr ⟨hpreMark, hletters letters⟩) hpostMark (by simp [hfront])
        hsymbol]
      · rw [List.filterMap_cons, hcurrency]
        rfl
      · intro f' w' hsplit hsymbol'
        obtain ⟨f'', hfront'⟩ := hsymbol'.suffix hpre hsplit
        exact hlongest f'' w' hfront' hsymbol'
  | word text letters ne =>
      rw [Marker.text, matchAll_symbolPattern_eq_nil (List.forall_mem_append.mpr
        ⟨hpreMark, List.forall_mem_append.mpr ⟨hletters letters, hpostMark⟩⟩)]
      rfl
  | sign c isSign ne =>
      by_cases hmark : isMark c = true
      · rw [Marker.text, List.singleton_append, matchAll_symbolPattern (f := pre) (w := [])
          hpreMark hpostMark (by simp) (.bare hmark)]
        · rw [isMark, Bool.or_eq_true, Bool.or_eq_true] at hmark
          simp only [decide_eq_true_eq] at hmark
          rcases hmark with (rfl | rfl) | rfl
          · exact absurd rfl ne
          · rfl
          · rfl
        · intro f' w' hsplit hsymbol'
          cases hsymbol' with
          | bare hmark => exact Nat.le_refl 0
          | one ha => exact absurd rfl ne
          | two ha hb => exact absurd rfl ne
      · rw [Marker.text, matchAll_symbolPattern_eq_nil (List.forall_mem_append.mpr
          ⟨hpreMark, List.forall_mem_append.mpr ⟨by simpa using hmark, hpostMark⟩⟩)]
        simp only [isMark, Bool.or_eq_true, decide_eq_true_eq, not_or] at hmark
        simp [Marker.signCurrency, hmark]

end Detection

/-! The codes beside the amount. -/

section Codes

variable {p : MarkedPrice} {x y text code : List Char} {d : Cursor}

theorem Capitals.ne_nil (h : Capitals code) : code ≠ [] :=
  List.ne_nil_of_length_pos (by rw [h.1]; decide)

theorem Capitals.wordChars (h : Capitals code) : ∀ c ∈ code, isWordChar c = true := by
  intro c hc
  simp [isWordChar, h.2 c hc]

theorem Capitals.any_head? (h : Capitals code) : (code ++ y).head?.any isWordChar = true := by
  obtain ⟨c, rest, rfl⟩ := List.exists_cons_of_ne_nil h.ne_nil
  exact h.wordChars c (by simp)

theorem Capitals.any_getLast? (h : Capitals code) : (x ++ code).getLast?.any isWordChar = true := by
  rw [List.getLast?_append_of_ne_nil _ h.ne_nil, List.getLast?_eq_some_getLast h.ne_nil]
  exact h.wordChars _ (List.getLast_mem h.ne_nil)

theorem mem_ends_codeBefore (hspaces : ∀ c ∈ y, isWhiteSpace c = false) :
    d ∈ codeBefore.ends (between x y) ↔
      Capitals y ∧ x.getLast?.any isWordChar = false ∧ d = between (x ++ y) [] := by
  simp only [codeBefore, Regex.all, mem_ends_seq, mem_ends_wordBoundary]
  constructor
  · rintro ⟨_, ⟨rfl, hstart⟩, _, htimes, _, ⟨rfl, -⟩, e, he, hd⟩
    obtain ⟨code, z, rfl, hlength, hupper, rfl⟩ := (mem_ends_times 3).mp htimes
    obtain ⟨v, w, rfl, hv, rfl⟩ := covers_of_mem_star he
    obtain ⟨rfl, rfl⟩ := mem_ends_atEnd.mp hd
    have hcode : Capitals code := ⟨hlength, hupper⟩
    obtain rfl : v = [] := by
      refine List.eq_nil_iff_forall_not_mem.mpr fun c hc => ?_
      have hspace := hv c hc
      rw [hspaces c (by simp [hc])] at hspace
      cases hspace
    rw [atWordBoundary_between, hcode.any_head?] at hstart
    simp only [List.append_nil]
    exact ⟨hcode, by simpa using hstart, trivial⟩
  · rintro ⟨hcode, hx, rfl⟩
    refine ⟨_, ⟨rfl, ?_⟩, _, (mem_ends_times 3).mpr ⟨y, [], by simp, hcode.1, hcode.2, rfl⟩, _,
      ⟨rfl, ?_⟩, _, self_mem_ends_star, mem_ends_atEnd.mpr ⟨rfl, rfl⟩⟩
    · rw [atWordBoundary_between, hx, ← List.append_nil y, hcode.any_head?]
      rfl
    · rw [atWordBoundary_between, hcode.any_getLast?]
      rfl

theorem mem_ends_codeAfter : d ∈ codeAfter.ends (between x y) ↔
    x = [] ∧ ∃ code back, y = code ++ back ∧ Capitals code ∧ back.head?.any isWordChar = false ∧
      d = between code back := by
  simp only [codeAfter, Regex.all, mem_ends_seq, mem_ends_wordBoundary, mem_ends_atStart]
  constructor
  · rintro ⟨_, ⟨rfl, rfl⟩, _, htimes, rfl, hend⟩
    obtain ⟨code, z, rfl, hlength, hupper, rfl⟩ := (mem_ends_times 3).mp htimes
    have hcode : Capitals code := ⟨hlength, hupper⟩
    rw [atWordBoundary_between, hcode.any_getLast?] at hend
    exact ⟨rfl, code, z, rfl, hcode, by simpa using hend, rfl⟩
  · rintro ⟨rfl, code, back, rfl, hcode, hback, rfl⟩
    refine ⟨_, ⟨rfl, rfl⟩, _, (mem_ends_times 3).mpr ⟨code, back, rfl, hcode.1, hcode.2, rfl⟩,
      rfl, ?_⟩
    rw [atWordBoundary_between, hcode.any_getLast? (x := []), hback]
    rfl

/-- The capitals before an amount. -/
theorem exec_codeBefore (hspaces : ∀ c ∈ text, isWhiteSpace c = false) :
    (∃ front code, text = front ++ code ∧ Capitals code ∧
        front.getLast?.any isWordChar = false ∧ exec codeBefore text = some ⟨front, code, []⟩) ∨
      exec codeBefore text = none ∧ ∀ front code, text = front ++ code → Capitals code →
        front.getLast?.any isWordChar = true := by
  rcases exec_spec codeBefore text with ⟨x, v, z, rfl, hfirst, hexec⟩ | ⟨hfails, hexec⟩
  · have hrest : ∀ c ∈ v ++ z, isWhiteSpace c = false := fun c hc =>
      hspaces c (List.append_assoc x v z ▸ List.mem_append_right x hc)
    obtain ⟨hcode, hx, hsame⟩ := (mem_ends_codeBefore hrest).mp hfirst.mem
    obtain ⟨-, rfl⟩ := between_inj hsame
    rw [List.append_nil] at hcode
    exact Or.inl ⟨x, v, by simp, hcode, hx, hexec⟩
  · refine Or.inr ⟨hexec, ?_⟩
    rintro front code rfl hcode
    by_contra hfront
    have hmem := (mem_ends_codeBefore (d := between (front ++ code) [])
      fun c hc => hspaces c (List.mem_append_right front hc)).mpr
        ⟨hcode, Bool.eq_false_of_not_eq_true hfront, rfl⟩
    exact List.ne_nil_of_mem hmem (hfails front code rfl)

/-- The capitals after an amount. -/
theorem exec_codeAfter (text : List Char) :
    (∃ code back, text = code ++ back ∧ Capitals code ∧
        back.head?.any isWordChar = false ∧ exec codeAfter text = some ⟨[], code, back⟩) ∨
      exec codeAfter text = none ∧ ∀ code back, text = code ++ back → Capitals code →
        back.head?.any isWordChar = true := by
  rcases exec_spec codeAfter text with ⟨x, v, z, rfl, hfirst, hexec⟩ | ⟨hfails, hexec⟩
  · obtain ⟨rfl, code, back, hsplit, hcode, hback, hsame⟩ := mem_ends_codeAfter.mp hfirst.mem
    obtain ⟨rfl, rfl⟩ := between_inj hsame
    exact Or.inl ⟨v, z, by simp, hcode, hback, hexec⟩
  · refine Or.inr ⟨hexec, ?_⟩
    rintro code back rfl hcode
    by_contra hback
    have hmem := mem_ends_codeAfter.mpr
      ⟨rfl, code, back, rfl, hcode, Bool.eq_false_of_not_eq_true hback, rfl⟩
    exact List.ne_nil_of_mem hmem (hfails [] _ rfl)

theorem exec_codeBefore_nil : exec codeBefore [] = none := by
  rcases exec_codeBefore (List.forall_mem_nil _) with ⟨front, code, hnil, hcode, -⟩ | ⟨hexec, -⟩
  · exact absurd (List.append_eq_nil_iff.mp hnil.symm).2 hcode.ne_nil
  · exact hexec

theorem exec_codeAfter_nil : exec codeAfter [] = none := by
  rcases exec_codeAfter [] with ⟨code, back, hnil, hcode, -⟩ | ⟨hexec, -⟩
  · exact absurd (List.append_eq_nil_iff.mp hnil.symm).1 hcode.ne_nil
  · exact hexec

theorem dropWhile_gap {u v : List Char} (hv : ∀ c ∈ v, isWhiteSpace c = true)
    (hu : ∀ c ∈ u, isWhiteSpace c = false) : (v ++ u).dropWhile isWhiteSpace = u := by
  rw [List.dropWhile_append_of_pos hv]
  cases u with
  | nil => rfl
  | cons c u => exact List.dropWhile_cons_of_neg (by simp [hu c])

theorem rdropWhile_gap {u v : List Char} (hv : ∀ c ∈ v, isWhiteSpace c = true)
    (hu : ∀ c ∈ u, isWhiteSpace c = false) : (u ++ v).rdropWhile isWhiteSpace = u := by
  rw [List.rdropWhile, List.reverse_append, dropWhile_gap (by simpa using hv) (by simpa using hu),
    List.reverse_reverse]

/-- The code in a match of three capitals is refused if it is not supported. -/
theorem find_code (h : Capitals code) : (((some (⟨x, code, y⟩ : Match)).toList.map fun m =>
    String.ofList (m.text.take 3)).find? fun code => (supportedCurrencySchema code).isNone) = none ↔
      supportedCurrencySchema (String.ofList code) ≠ none := by
  simp [List.take_of_length_le h.1.le, ← Option.isSome_iff_ne_none, Option.isSome_iff_exists]

/-- The amount is refused just when a code beside it is not supported. -/
theorem unsupportedCode_eq_none_iff {amount : List Char} :
    unsupportedCode ⟨p.before, amount, p.after⟩ = none ↔
      ∀ code, p.Beside code → supportedCurrencySchema (String.ofList code) ≠ none := by
  have hspaces : ∀ c ∈ p.marker.text, isWhiteSpace c = false := fun c hc => (marks_of_mem hc).space
  have hgap : ∀ c ∈ p.plainGap, isWhiteSpace c = true := fun c hc => space_of_mem_plainGap hc
  unfold MarkedPrice.before MarkedPrice.after MarkedPrice.Beside
  split
  · simp only [unsupportedCode, rdropWhile_gap hgap hspaces, List.dropWhile_nil,
      exec_codeAfter_nil, Option.toList_none, List.append_nil]
    rcases exec_codeBefore hspaces with ⟨front, code, htext, hcode, hfront, hexec⟩ | ⟨hexec, hnone⟩
    · rw [hexec, find_code hcode]
      constructor
      · rintro hsupported other ⟨hother, front', htext', -⟩
        rw [htext] at htext'
        obtain ⟨-, rfl⟩ := List.append_inj' htext' (hcode.1.trans hother.1.symm)
        exact hsupported
      · exact fun h => h code ⟨hcode, front, htext, hfront⟩
    · rw [hexec]
      refine iff_of_true rfl ?_
      rintro code ⟨hcode, front, htext, hfront⟩
      rw [hnone front code htext hcode] at hfront
      cases hfront
  · simp only [unsupportedCode, dropWhile_gap hgap hspaces, List.rdropWhile_nil,
      exec_codeBefore_nil, Option.toList_none, List.nil_append]
    rcases exec_codeAfter p.marker.text with
      ⟨code, back, htext, hcode, hback, hexec⟩ | ⟨hexec, hnone⟩
    · rw [hexec, find_code hcode]
      constructor
      · rintro hsupported other ⟨hother, back', htext', -⟩
        rw [htext] at htext'
        obtain ⟨rfl, -⟩ := List.append_inj htext' (hcode.1.trans hother.1.symm)
        exact hsupported
      · exact fun h => h code ⟨hcode, back, htext, hback⟩
    · rw [hexec]
      refine iff_of_true rfl ?_
      rintro code ⟨hcode, back, htext, hback⟩
      rw [hnone code back htext hcode] at hback
      cases hback

end Codes

/-! When a marked price is read. -/

section Reading

variable {p : MarkedPrice} {currency : Option SupportedCurrency}

theorem head?_eraseDups (currencies : List SupportedCurrency) :
    currencies.eraseDups.head? = currencies.head? := by
  cases currencies with
  | nil => rfl
  | cons c currencies => rw [List.eraseDups_cons, List.head?_cons, List.head?_cons]

theorem length_eraseDups_le_one_iff {currencies : List SupportedCurrency} :
    currencies.eraseDups.length ≤ 1 ↔ ∀ c ∈ currencies, ∀ d ∈ currencies, c = d := by
  cases currencies with
  | nil => simp
  | cons a currencies =>
      rw [List.eraseDups_cons, List.length_cons]
      constructor
      · intro h
        have hnil : (currencies.filter fun b => !b == a) = [] := by
          rw [List.eq_nil_iff_forall_not_mem]
          intro b hb
          have hempty : (currencies.filter fun b => !b == a).eraseDups = [] :=
            List.eq_nil_of_length_eq_zero (by omega)
          have hmem := List.mem_eraseDups.mpr hb
          rw [hempty] at hmem
          cases hmem
        have hsame : ∀ b ∈ a :: currencies, b = a := by
          intro b hb
          rcases List.mem_cons.mp hb with rfl | hb
          · rfl
          · simpa using List.filter_eq_nil_iff.mp hnil b hb
        exact fun c hc d hd => (hsame c hc).trans (hsame d hd).symm
      · intro h
        have hnil : (currencies.filter fun b => !b == a) = [] := by
          refine List.filter_eq_nil_iff.mpr fun b hb => ?_
          simp [h b (List.mem_cons_of_mem a hb) a (by simp)]
        rw [hnil]
        simp

/-- The currencies that are detected are the ones that the text shows. -/
theorem mem_detected_iff {c : SupportedCurrency} :
    c ∈ detectedCurrencies p.compact ↔ p.Shows c := by
  rw [detectedCurrencies, List.mem_eraseDups, symbols_of_marker, List.mem_append, mem_codes_iff,
    Option.mem_toList]
  exact Iff.rfl

theorem length_detected_le_one_iff : (detectedCurrencies p.compact).length ≤ 1 ↔
    ∀ c d, p.Shows c → p.Shows d → c = d := by
  rw [detectedCurrencies, length_eraseDups_le_one_iff]
  simp only [← List.mem_eraseDups (l := _ ++ _), ← detectedCurrencies.eq_1, mem_detected_iff]
  exact ⟨fun h c d hc hd => h c hc d hd, fun h c hc d hd => h c d hc hd⟩

/-- Where `readAmount` throws and what it returns otherwise. -/
theorem readAmount_eq_ok_iff {raw numeric : String} {chars : List Char}
    (hchars : (trim (String.ofList (raw.toList.map plainSpace))).toList = chars) :
    readAmount raw = .ok (numeric, currency) ↔
      test nonTotalPattern chars = false ∧ chars.any unsupportedSigns.contains = false ∧
      test jpyPattern chars = false ∧ (detectedCurrencies chars).length ≤ 1 ∧
      ∃ m, matchAll numericPattern chars = [m] ∧ unsupportedCode m = none ∧
        resolveSeparators (without ' ' (String.ofList m.text)) = numeric ∧
        (detectedCurrencies chars).head? = currency := by
  have hcompact : (trim (String.ofList (raw.toList.map fun c =>
      if c.toNat = 0xa0 ∨ c.toNat = 0x202f then ' ' else c))).toList = chars := hchars
  simp only [readAmount, hcompact]
  cases test nonTotalPattern chars with
  | true => exact iff_of_false nofun (by simp)
  | false =>
      cases chars.any unsupportedSigns.contains with
      | true => exact iff_of_false nofun (by simp)
      | false =>
          cases test jpyPattern chars with
          | true => exact iff_of_false nofun (by simp)
          | false =>
              simp only [Bool.false_eq_true, if_false, Bool.or_false, true_and, gt_iff_lt]
              by_cases hlength : (detectedCurrencies chars).length ≤ 1
              · rw [if_neg (not_lt.mpr hlength), and_iff_right hlength]
                split
                · rename_i m hm
                  simp only [hm, List.cons.injEq, and_true, exists_eq_left']
                  cases unsupportedCode m with
                  | some code => exact iff_of_false nofun (by simp)
                  | none => simp [pure, Except.pure]
                · rename_i hm
                  exact iff_of_false nofun fun ⟨m, hm', _⟩ => hm m hm'
              · rw [if_pos (not_le.mp hlength)]
                exact iff_of_false nofun fun h => hlength h.1

/-- A marked price is read if nothing in it is refused. -/
theorem readAmount_text_iff {numeric : String} :
    readAmount p.text = .ok (numeric, currency) ↔
      (∀ phrase ∈ ["from", "starting at", "per month", "monthly", "installment", "finance", "JPY"],
        ¬ Stands phrase p.compact) ∧
      (∀ c ∈ unsupportedSigns, p.marker.text ≠ [c]) ∧
      (∀ code, p.Beside code → supportedCurrencySchema (String.ofList code) ≠ none) ∧
      (∀ c d, p.Shows c → p.Shows d → c = d) ∧
      (detectedCurrencies p.compact).head? = currency ∧
      resolveSeparators (without ' ' (String.ofList p.amount.plain.text)) = numeric := by
  have hchars : (trim (String.ofList (p.text.toList.map plainSpace))).toList = p.compact := by
    rw [← MarkedPrice.compact, trim_compact, String.toList_ofList]
  simp only [readAmount_eq_ok_iff hchars, ← Bool.not_eq_true, test_nonTotalPattern,
    test_jpyPattern, any_unsupportedSigns, length_detected_le_one_iff, amounts_compact,
    List.cons.injEq, and_true, exists_eq_left', unsupportedCode_eq_none_iff, not_exists, not_and]
  constructor
  · rintro ⟨hphrases, hsigns, hjpy, hshows, hcodes, hnumeric, hhead⟩
    refine ⟨?_, hsigns, hcodes, hshows, hhead, hnumeric⟩
    intro phrase hphrase
    rw [show ["from", "starting at", "per month", "monthly", "installment", "finance", "JPY"] =
      ["from", "starting at", "per month", "monthly", "installment", "finance"] ++ ["JPY"] from rfl,
      List.mem_append, List.mem_singleton] at hphrase
    rcases hphrase with hphrase | rfl
    · exact hphrases phrase hphrase
    · exact hjpy
  · rintro ⟨hphrases, hsigns, hcodes, hshows, hhead, hnumeric⟩
    refine ⟨?_, hsigns, hphrases "JPY" (by simp), hshows, hcodes, hnumeric, hhead⟩
    intro phrase hphrase
    exact hphrases phrase (List.mem_append_left ["JPY"] hphrase)

/-- A marked price is read if nothing in it is refused and its amount is a price. -/
theorem parsePrice_eq_ok_iff :
    (∃ price, parsePrice p.text = .ok price ∧ price.currency = currency) ↔
      ¬ p.amount.NoPrice ∧
      (∀ phrase ∈ ["from", "starting at", "per month", "monthly", "installment", "finance", "JPY"],
        ¬ Stands phrase p.compact) ∧
      (∀ c ∈ unsupportedSigns, p.marker.text ≠ [c]) ∧
      (∀ code, p.Beside code → supportedCurrencySchema (String.ofList code) ≠ none) ∧
      (∀ c d, p.Shows c → p.Shows d → c = d) ∧
      (detectedCurrencies p.compact).head? = currency := by
  have hprice : (∃ price, parsePrice p.text = .ok price ∧ price.currency = currency) ↔
      ∃ numeric, readAmount p.text = .ok (numeric, currency) ∧
        ∃ priceMinor, minorUnits (numberOfText numeric) = .ok priceMinor := by
    simp only [parsePrice, bind_eq_ok, pure_eq_ok, Prod.exists]
    constructor
    · rintro ⟨_, ⟨numeric, _, hread, priceMinor, hminor, rfl⟩, rfl⟩
      exact ⟨numeric, hread, priceMinor, hminor⟩
    · rintro ⟨numeric, hread, priceMinor, hminor⟩
      exact ⟨_, ⟨numeric, currency, hread, priceMinor, hminor, rfl⟩, rfl⟩
  have hvalue := numberOfText_text (separator_plain p.amount)
  have hminor := minorUnits_value (a := p.amount.plain)
  rw [← hvalue] at hminor
  rw [hprice]
  simp only [readAmount_text_iff]
  constructor
  · rintro ⟨numeric, ⟨hphrases, hsigns, hcodes, hshows, hhead, rfl⟩, hok⟩
    exact ⟨hminor.mp hok, hphrases, hsigns, hcodes, hshows, hhead⟩
  · rintro ⟨hamount, hphrases, hsigns, hcodes, hshows, hhead⟩
    exact ⟨_, ⟨hphrases, hsigns, hcodes, hshows, hhead, rfl⟩, hminor.mpr hamount⟩

end Reading

/-- **The currency of a marked price fails closed just when its amount is no price, or
`parsePrice` recognizes the marker.** -/
theorem failsClosed_iff (p : MarkedPrice) : p.FailsClosed ↔ p.amount.NoPrice ∨ p.Recognized := by
  have hdetected {c : SupportedCurrency}
      (hhead : (detectedCurrencies p.compact).head? = some c) : p.Shows c :=
    mem_detected_iff.mp (List.mem_of_head? hhead)
  constructor
  · intro hcloses
    by_contra hnot
    obtain ⟨hamount, hrecognized⟩ := not_or.mp hnot
    obtain ⟨price, hparse, hcurrency⟩ := parsePrice_eq_ok_iff.mpr ⟨hamount,
      fun _ hphrase hstands => hrecognized (.phrase hphrase hstands),
      fun _ hsign hmarker => hrecognized (.sign hsign hmarker),
      fun _ hbeside hunsupported => hrecognized (.code hbeside hunsupported),
      fun c d hc hd => by_contra fun hne => hrecognized (.conflict hc hd hne), rfl⟩
    obtain ⟨c, hc, hdenotes⟩ := hcloses price hparse
    exact hrecognized (.denoted hdenotes (hdetected (hcurrency.symm.trans hc)))
  · intro h price hparse
    obtain ⟨hamount, hphrases, hsigns, hcodes, hshows, hhead⟩ :=
      parsePrice_eq_ok_iff.mp ⟨price, hparse, rfl⟩
    rcases h with hnoPrice | hrecognized
    · exact absurd hnoPrice hamount
    · cases hrecognized with
      | @denoted c hdenotes hc =>
          refine ⟨c, ?_, hdenotes⟩
          rw [← hhead]
          cases hcurrencies : detectedCurrencies p.compact with
          | nil =>
              have hmem := mem_detected_iff.mpr hc
              rw [hcurrencies] at hmem
              cases hmem
          | cons d others =>
              have hd : p.Shows d := mem_detected_iff.mp (by simp [hcurrencies])
              rw [List.head?_cons, hshows c d hc hd]
      | phrase hphrase hstands => exact absurd hstands (hphrases _ hphrase)
      | sign hsign hmarker => exact absurd hmarker (hsigns _ hsign)
      | code hbeside hunsupported => exact absurd hunsupported (hcodes _ hbeside)
      | conflict hc hd hne => exact absurd (hshows _ _ hc hd) hne

/-! Nineteen units of a currency. -/

def nineteen : Amount where
  lead := ['1', '9']
  separator := ' '
  groups := []
  point := '.'
  fraction := []
  lead_digits := List.all_eq_true.mp rfl
  lead_ne := by decide
  lead_short := by decide
  separator_mem := by decide
  group_digits := by simp
  point_mem := by decide
  fraction_digits := by simp
  fraction_short := by decide

def marked (marker : Marker) (gap : List Char) (h : ∀ c ∈ gap, isWhiteSpace c = true) :
    MarkedPrice where
  marker := marker
  leading := true
  gap := gap
  amount := nineteen
  gap_spaces := h

/-- `HK$19` is read as US dollars, and `USD19` and `chf 19` have no currency. -/
theorem nineteen_not_closed :
    ¬ (marked (.dollar ['H', 'K'] (List.all_eq_true.mp rfl)) [] (by simp)).FailsClosed ∧
      ¬ (marked (.word ['U', 'S', 'D'] (List.all_eq_true.mp rfl) (by simp)) []
        (by simp)).FailsClosed ∧
      ¬ (marked (.word ['c', 'h', 'f'] (List.all_eq_true.mp rfl) (by simp)) [' ']
        (List.all_eq_true.mp rfl)).FailsClosed := by
  refine ⟨fun h => ?_, fun h => ?_, fun h => ?_⟩
  · obtain ⟨c, -, hdenotes⟩ := h ⟨.finite 1900, some .usd⟩ (by decide +kernel)
    cases hdenotes
  · obtain ⟨c, hcurrency, -⟩ := h ⟨.finite 1900, none⟩ (by decide +kernel)
    cases hcurrency
  · obtain ⟨c, hcurrency, -⟩ := h ⟨.finite 1900, none⟩ (by decide +kernel)
    cases hcurrency

end PriceScout.Worker.PriceMarkers
