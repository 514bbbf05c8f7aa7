import PriceScout.Worker.ExactPrices

/-!
The amounts that `parsePrice` accepts, and whether they are what a text says.
-/

namespace PriceScout.Worker.PriceAmounts

open PriceScout.Library.JsStrings
open PriceScout.Library.Numbers
open PriceScout.Library.RegularExpressions
open PriceScout.Worker.AmountShapes
open PriceScout.Worker.Amounts
open PriceScout.Worker.Contracts
open PriceScout.Worker.ExactPrices
open PriceScout.Worker.PriceMarkers
open PriceScout.Worker.Validation

/-- A text with plain spaces, and without white space around it. -/
def compactOf (raw : String) : List Char :=
  (trim (String.ofList (raw.toList.map plainSpace))).toList

/-- Plus and minus signs, with the dash that stands for a minus. -/
def isSign (c : Char) : Bool :=
  ['+', '-', '\u2013', '\u2212', '\ufe63', '\uff0b', '\uff0d'].contains c

/-- The currency that is written at an amount: nothing, a code, or a sign after
three letters at most. -/
inductive CurrencyMark : List Char → Prop
  | none : CurrencyMark []
  | code {mark : List Char} (h : (supportedCurrencySchema (upperText mark)).isSome = true) :
      CurrencyMark mark
  | sign {letters : List Char} {c : Char} (hletters : ∀ l ∈ letters, isLetter l = true)
      (hlength : letters.length ≤ 3) (hsign : isCurrencySign c = true) :
      CurrencyMark (letters ++ [c])

/-- An amount between `x` and `z` has a sign, before it or behind it or at its
currency, or begins with a point. -/
inductive Carries (x z : List Char) : Prop
  | before {front gap mark gap' : List Char} {sign : Char} (hsign : isSign sign = true)
      (hgap : ∀ c ∈ gap, isWhiteSpace c = true) (hmark : CurrencyMark mark)
      (hgap' : ∀ c ∈ gap', isWhiteSpace c = true)
      (hx : x = front ++ sign :: (gap ++ (mark ++ gap')))
  | behind {gap mark : List Char} {sign : Char} (hsign : isSign sign = true)
      (hgap : ∀ c ∈ gap, isWhiteSpace c = true) (hmark : CurrencyMark mark)
      (hz : z = sign :: (gap ++ mark))
  | point {front : List Char} {c : Char} (hpoint : c ∈ ['.', ',']) (hx : x = front ++ [c])

/-- Groups begin without a zero, and the decimals have a point of their own. -/
structure Regular (a : Amount) : Prop where
  lead : a.groups ≠ [] → a.lead.head? ≠ some '0'
  point : a.groups ≠ [] → a.fraction ≠ [] → a.point ≠ a.separator

/-- A price is the one amount of its text, to the minor unit. -/
def WellRead (raw : String) (price : ExactPrice) : Prop :=
  ∃ x a z, compactOf raw = x ++ (Amount.text a ++ z) ∧ DigitFree x ∧ DigitFree z ∧ Regular a ∧
    ¬ Carries x z ∧ (price.priceMinor : ℚ) = 100 * a.value ∧ 0 < price.priceMinor

/-- Groups with one separator, and then three digits after the other one. -/
inductive ThreeDecimals : List Char → Prop
  | mk {a : Amount} {point : Char} {decimals : List Char} (hgroups : a.groups ≠ [])
      (hfraction : a.fraction = []) (hpoints : Points point a.separator)
      (hlength : decimals.length = 3) (hdigits : ∀ c ∈ decimals, isAsciiDigit c = true) :
      ThreeDecimals (a.text ++ point :: decimals)

/-- Nothing around an amount is a reason to refuse it. -/
structure Unrefused (x text z : List Char) : Prop where
  total : test nonTotalPattern (x ++ (text ++ z)) = false
  signs : (x ++ (text ++ z)).any unsupportedSigns.contains = false
  yen : test jpyPattern (x ++ (text ++ z)) = false
  currencies : (detectedCurrencies (x ++ (text ++ z))).length ≤ 1
  code : unsupportedCode ⟨x, text, z⟩ = none

/-- What is read in an amount. -/
def readValue (text : List Char) : Option ℚ :=
  decimalValue (resolveSeparators (without ' ' (String.ofList text))).toList

/-- A digit of a text is not zero. -/
def NonZero (text : List Char) : Prop :=
  ∃ c ∈ text, isAsciiDigit c = true ∧ c ≠ '0'

/-! Positive values. -/

section Digits

variable {u : List Char} {c : Char}

theorem digitValue_pos_iff (h : isAsciiDigit c = true) : 0 < digitValue c ↔ c ≠ '0' := by
  have hzero : c.toNat = 0x30 ↔ c = '0' := Char.toNat_inj (d := '0')
  have hvalue : digitValue c = c.toNat - 0x30 := rfl
  rw [isAsciiDigit_iff] at h
  rw [hvalue, ne_eq, ← hzero]
  omega

theorem digitsValue_pos_iff (h : ∀ c ∈ u, isAsciiDigit c = true) :
    0 < digitsValue u ↔ ∃ c ∈ u, c ≠ '0' := by
  induction u using List.reverseRecOn with
  | nil => simp [digitsValue]
  | append_singleton u c ih =>
      obtain ⟨hu, hc⟩ := List.forall_mem_append.mp h
      have hdigit := digitValue_pos_iff (hc c (List.mem_singleton_self c))
      have hvalue : digitsValue (u ++ [c]) = 10 * digitsValue u + digitValue c := by
        rw [digitsValue, List.foldl_append]
        rfl
      have hexists : (∃ d ∈ u ++ [c], d ≠ '0') ↔ (∃ d ∈ u, d ≠ '0') ∨ c ≠ '0' := by simp
      rw [hexists, hvalue, ← ih hu, ← hdigit]
      omega

end Digits

/-! What is read where both separators stand. -/

section Mixed

variable {u v : List Char} {point other c : Char}

theorem decimalValue_eq_none (hu : ∀ c ∈ u, isAsciiDigit c = true) (hc : c ∈ v)
    (hdigit : isAsciiDigit c = false) : decimalValue (u ++ '.' :: v) = none := by
  have htake : (u ++ '.' :: v).takeWhile isAsciiDigit = u := by
    rw [List.takeWhile_append_of_pos hu, List.takeWhile_cons_of_neg (by decide), List.append_nil]
  have hdrop : (u ++ '.' :: v).dropWhile isAsciiDigit = '.' :: v := by
    rw [List.dropWhile_append_of_pos hu, List.dropWhile_cons_of_neg (by decide)]
  have hall : ¬ v.all isAsciiDigit = true := by
    intro hall
    rw [List.all_eq_true.mp hall c hc] at hdigit
    cases hdigit
  simp only [decimalValue, htake, hdrop]
  rw [if_neg]
  exact fun h => hall h.2.1

/-- The one point of its kind is the decimal point. -/
theorem read_once (hpoints : Points point other) (hmem : other ∈ u) (hne : u.head? ≠ some other)
    (hu : ∀ c ∈ u, isAsciiDigit c = true ∨ c = other) (hv : ∀ c ∈ v, isAsciiDigit c = true) :
    decimalValue (resolveSeparators (String.ofList (u ++ point :: v))).toList =
      some (digitsValue (u.filter (· ≠ other) ++ v) / 10 ^ v.length : ℚ) := by
  have hdigits : ∀ c ∈ u.filter (· ≠ other), isAsciiDigit c = true := by
    intro c hc
    obtain ⟨hc, hother⟩ := List.mem_filter.mp hc
    exact (hu c hc).resolve_right (of_decide_eq_true hother)
  rw [resolve_last hpoints (not_mem_of_digits hv hpoints.point_mem)
    (not_mem_of_digits hv hpoints.mem) hmem,
    replaceFirstChar_append_cons (not_mem_of_digits hdigits hpoints.point_mem)]
  refine decimalValue_point hdigits hv ?_
  obtain ⟨c, rest, rfl⟩ := List.exists_cons_of_ne_nil (List.ne_nil_of_mem hmem)
  have hc : c ≠ other := fun heq => hne (by rw [heq]; rfl)
  simp [hc]

/-- A number with two points of one kind is none. -/
theorem read_twice (hpoints : Points point other) (hmem : other ∈ u) (hpoint : point ∈ u)
    (hu : ∀ c ∈ u, isAsciiDigit c = true ∨ c = point ∨ c = other)
    (hv : ∀ c ∈ v, isAsciiDigit c = true) :
    decimalValue (resolveSeparators (String.ofList (u ++ point :: v))).toList = none := by
  have hkept : point ∈ u.filter (· ≠ other) := by
    rw [List.mem_filter]
    exact ⟨hpoint, decide_eq_true hpoints.ne.symm⟩
  obtain ⟨front, rest, hsplit, hfront⟩ := List.eq_append_cons_of_mem hkept
  have hdigits : ∀ c ∈ front, isAsciiDigit c = true := by
    intro c hc
    have hmem : c ∈ u.filter (· ≠ other) := by
      rw [hsplit]
      exact List.mem_append_left _ hc
    obtain ⟨hc', hother⟩ := List.mem_filter.mp hmem
    rcases hu c hc' with hdigit | rfl | rfl
    · exact hdigit
    · exact absurd hc hfront
    · exact absurd rfl (of_decide_eq_true hother)
  rw [resolve_last hpoints (not_mem_of_digits hv hpoints.point_mem)
    (not_mem_of_digits hv hpoints.mem) hmem, hsplit, List.append_assoc, List.cons_append,
    replaceFirstChar_append_cons hfront]
  exact decimalValue_eq_none hdigits (c := point) (by simp) (separator_not_digit hpoints.point_mem)

end Mixed

/-! What is read in an amount, and where there are three decimals. -/

section Readings

variable {a : Amount} {text w : List Char} {c : Char}

theorem separator_digit (a : Amount) : isAsciiDigit a.separator = false := by
  have hmem := a.separator_mem
  simp only [List.mem_cons, List.not_mem_nil, or_false] at hmem
  rcases hmem with h | h | h | h | h <;> rw [h] <;> rfl

theorem value_pos_iff_nonZero {k : Nat} (hw : ∀ c ∈ w, isAsciiDigit c = true)
    (hmem : ∀ c, isAsciiDigit c = true → (c ∈ w ↔ c ∈ text)) :
    0 < (digitsValue w / 10 ^ k : ℚ) ↔ NonZero text := by
  rw [div_pos_iff_of_pos_right (by positivity), Nat.cast_pos, digitsValue_pos_iff hw]
  constructor
  · rintro ⟨c, hc, hne⟩
    exact ⟨c, (hmem c (hw c hc)).mp hc, hw c hc, hne⟩
  · rintro ⟨c, hc, hdigit, hne⟩
    exact ⟨c, (hmem c hdigit).mpr hc, hne⟩

/-- The digits of an amount are those of its value. -/
theorem mem_digits_iff (hc : isAsciiDigit c = true) :
    c ∈ a.integer ++ a.fraction ↔ c ∈ a.text := by
  have hseparator : c ≠ a.separator := by
    rintro rfl
    rw [separator_digit] at hc
    cases hc
  have hpoint : c ≠ a.point := by
    rintro rfl
    rw [separator_not_digit (List.mem_cons_of_mem _ a.point_mem)] at hc
    cases hc
  have hfraction : c ∈ a.fractionText ↔ c ∈ a.fraction := by
    unfold Amount.fractionText
    split <;> simp [*]
  have hgroups : c ∈ a.groupsText ↔ c ∈ a.groups.flatten := by
    simp [Amount.groupsText, hseparator]
  rw [Amount.text, Amount.integer, List.mem_append, List.mem_append, List.mem_append,
    List.mem_append, hfraction, hgroups, or_assoc]

theorem value_pos_iff : 0 < a.value ↔ NonZero a.text :=
  value_pos_iff_nonZero
    (List.forall_mem_append.mpr ⟨integer_digits a, a.fraction_digits⟩) fun _ => mem_digits_iff

/-- Two decimals at most make a whole number of minor units. -/
theorem exists_value_eq (a : Amount) : ∃ n : Int, a.value * 100 = n := by
  obtain ⟨k, hk⟩ := Nat.exists_eq_add_of_le a.fraction_short
  have hpow : (100 : ℚ) = 10 ^ a.fraction.length * 10 ^ k := by
    rw [← pow_add, ← hk]
    norm_num
  refine ⟨digitsValue (a.integer ++ a.fraction) * 10 ^ k, ?_⟩
  rw [Amount.value, hpow, ← mul_assoc, div_mul_cancel₀ _ (by positivity)]
  push_cast
  rfl

theorem without_space (h : ∀ c ∈ text, c ≠ ' ') :
    without ' ' (String.ofList text) = String.ofList text := by
  rw [without, String.toList_ofList,
    List.filter_eq_self.mpr fun c hc => decide_eq_true (h c hc)]

theorem text_of_fraction_nil (h : a.fraction = []) : a.text = a.lead ++ a.groupsText := by
  rw [Amount.text, Amount.fractionText, if_pos h, List.append_nil]

theorem digit_or_separator (h : a.fraction = []) :
    ∀ c ∈ a.text, isAsciiDigit c = true ∨ c = a.separator := by
  intro c hc
  rw [text_of_fraction_nil h] at hc
  rcases List.mem_append.mp hc with hc | hc
  · exact .inl (a.lead_digits c hc)
  · obtain ⟨g, hg, hc⟩ := List.mem_flatMap.mp hc
    rcases List.mem_cons.mp hc with hc | hc
    · exact .inr hc
    · exact .inl ((a.group_digits g hg).2 c hc)

theorem Points.both {point other : Char} (h : Points point other) :
    point ∈ ['.', ','] ∧ other ∈ ['.', ','] := by
  rcases h with ⟨rfl, rfl⟩ | ⟨rfl, rfl⟩ <;> simp

theorem ThreeDecimals.mem (h : ThreeDecimals text) :
    ∀ c ∈ text, isAsciiDigit c = true ∨ c ∈ ['.', ','] := by
  cases h with
  | mk hgroups hfraction hpoints hlength hdigits =>
      intro c hc
      rcases List.mem_append.mp hc with hc | hc
      · rcases digit_or_separator hfraction c hc with hdigit | rfl
        · exact .inl hdigit
        · exact .inr (Points.both hpoints).2
      · rcases List.mem_cons.mp hc with rfl | hc
        · exact .inr (Points.both hpoints).1
        · exact .inl (hdigits c hc)

theorem ne_space (h : isAsciiDigit c = true ∨ c ∈ ['.', ',']) : c ≠ ' ' := by
  rintro rfl
  rcases h with hdigit | hmem
  · cases hdigit
  · simp at hmem

/-- A text with three decimals is read as it stands. -/
theorem readValue_threeDecimals (h : ThreeDecimals text) :
    ∃ v, readValue text = some v ∧ (0 < v ↔ NonZero text) := by
  have hspaces : ∀ c ∈ text, c ≠ ' ' := fun c hc => ne_space (h.mem c hc)
  cases h with
  | @mk a point decimals hgroups hfraction hpoints hlength hdigits =>
      have hchars := digit_or_separator hfraction
      have hmem : a.separator ∈ a.text := by
        obtain ⟨g, groups, hcons⟩ := List.exists_cons_of_ne_nil hgroups
        simp [text_of_fraction_nil hfraction, Amount.groupsText, hcons]
      have hhead : a.text.head? ≠ some a.separator := by
        intro hhead
        have hdigit := digit_of_head? (Option.mem_def.mpr hhead)
        rw [separator_digit] at hdigit
        cases hdigit
      have hkept : ∀ c ∈ a.text.filter (· ≠ a.separator) ++ decimals,
          isAsciiDigit c = true := by
        refine List.forall_mem_append.mpr ⟨fun c hc => ?_, hdigits⟩
        obtain ⟨hc, hother⟩ := List.mem_filter.mp hc
        exact (hchars c hc).resolve_right (of_decide_eq_true hother)
      refine ⟨_, ?_, value_pos_iff_nonZero (k := decimals.length) hkept fun c hc => ?_⟩
      · rw [readValue, without_space hspaces]
        exact read_once hpoints hmem hhead hchars hdigits
      · have hseparator : c ≠ a.separator := by
          rintro rfl
          rw [separator_digit] at hc
          cases hc
        have hpoint : c ≠ point := by
          rintro rfl
          rw [separator_not_digit hpoints.point_mem] at hc
          cases hc
        simp [hseparator, hpoint]

end Readings

/-! The texts that the pattern covers. -/

section Cases

variable {text lead fraction : List Char} {chunks : List (Char × List Char)} {point : Char}

theorem isPoint_iff {c : Char} : isPoint c = true ↔ c ∈ ['.', ','] := by
  simp [isPoint]

/-- Chunks after one separator are the groups of an amount. -/
theorem exists_amount {separator : Char} (h : Covered text lead chunks point fraction)
    (hmem : separator ∈ [' ', '.', ',']) (hsame : ∀ chunk ∈ chunks, chunk.1 = separator) :
    ∃ a : Amount, a.text = text ∧ a.separator = separator ∧ a.groups = chunks.map Prod.snd ∧
      a.fraction = fraction := by
  have hgroups : ∀ g ∈ chunks.map Prod.snd, g.length = 3 ∧ ∀ c ∈ g, isAsciiDigit c = true := by
    refine List.forall_mem_map.mpr fun chunk hchunk => ?_
    rcases h.chunks with hspaces | hpoints
    · exact (hspaces chunk hchunk).2
    · exact (hpoints chunk hchunk).2
  have hseparator : separator ∈ [' ', '\u00a0', '\u202f', '.', ','] := by
    simp only [List.mem_cons, List.not_mem_nil, or_false] at hmem ⊢
    tauto
  refine ⟨⟨lead, separator, chunks.map Prod.snd, point, fraction, h.lead_digits, h.lead_ne,
    fun hne => h.lead_short (mt (congrArg (List.map Prod.snd)) hne), hseparator, hgroups,
    h.decimals.point_mem, h.decimals.digits, h.decimals.short⟩, ?_, rfl, rfl, rfl⟩
  have hchunks : (chunks.map Prod.snd).flatMap (separator :: ·) = chunksText chunks := by
    rw [List.flatMap_map]
    exact List.flatMap_congr fun chunk hchunk => by rw [hsame chunk hchunk]
  have htext := h.text_eq
  rw [← hchunks] at htext
  exact htext.symm

theorem mem_chunksText {c : Char} (hchunks : Chunks isPoint chunks) (hc : c ∈ chunksText chunks) :
    isAsciiDigit c = true ∨ c ∈ ['.', ','] := by
  obtain ⟨chunk, hchunk, hc⟩ := List.mem_flatMap.mp hc
  obtain ⟨hpoint, -, hdigits⟩ := hchunks chunk hchunk
  rcases List.mem_cons.mp hc with rfl | hc
  · exact .inr (isPoint_iff.mp hpoint)
  · exact .inl (hdigits c hc)

/-- A text with two points of one kind has no value. -/
theorem readValue_eq_none {other : Char} {v : List Char} (hpoints : Points point other)
    (hlead : ∀ c ∈ lead, isAsciiDigit c = true) (hchunks : Chunks isPoint chunks)
    (hpoint : point ∈ chunksText chunks) (hother : other ∈ chunksText chunks)
    (hv : ∀ c ∈ v, isAsciiDigit c = true) :
    readValue (lead ++ chunksText chunks ++ point :: v) = none := by
  have hmem : ∀ c ∈ lead ++ chunksText chunks, isAsciiDigit c = true ∨ c ∈ ['.', ','] := by
    intro c hc
    rcases List.mem_append.mp hc with hc | hc
    · exact .inl (hlead c hc)
    · exact mem_chunksText hchunks hc
  have hchars : ∀ c ∈ lead ++ chunksText chunks,
      isAsciiDigit c = true ∨ c = point ∨ c = other := by
    intro c hc
    rcases hmem c hc with hdigit | hc
    · exact .inl hdigit
    · by_cases hsame : c = point
      · exact .inr (.inl hsame)
      · exact .inr (.inr (hpoints.eq_of_ne hc hsame))
  have hspaces : ∀ c ∈ lead ++ chunksText chunks ++ point :: v, c ≠ ' ' := by
    intro c hc
    refine ne_space ?_
    rcases List.mem_append.mp hc with hc | hc
    · exact hmem c hc
    · rcases List.mem_cons.mp hc with rfl | hc
      · exact .inr (Points.both hpoints).1
      · exact .inl (hv c hc)
  rw [readValue, without_space hspaces]
  exact read_twice hpoints (List.mem_append_right lead hother) (List.mem_append_right lead hpoint)
    hchars hv

/-- Where both separators are between digits, there are three decimals or no value. -/
theorem mixed_cases (h : Covered text lead chunks point fraction) (hchunks : Chunks isPoint chunks)
    (hboth : ∀ c ∈ ['.', ','], ∃ chunk ∈ chunks, chunk.1 = c) :
    ThreeDecimals text ∨ readValue text = none := by
  have hmem : ∀ c ∈ ['.', ','], c ∈ chunksText chunks := by
    intro c hc
    obtain ⟨chunk, hchunk, rfl⟩ := hboth c hc
    exact List.mem_flatMap.mpr ⟨chunk, hchunk, List.mem_cons_self⟩
  by_cases hfraction : fraction = []
  · rcases List.eq_nil_or_concat chunks with rfl | ⟨front, last, rfl⟩
    · obtain ⟨chunk, hchunk, -⟩ := hboth '.' (by simp)
      cases hchunk
    · rw [List.concat_eq_append] at h hchunks hboth
      obtain ⟨hfront, hlast⟩ := List.forall_mem_append.mp hchunks
      obtain ⟨hpoint, hlength, hdigits⟩ := hlast last (List.mem_singleton_self last)
      obtain ⟨other, hpoints⟩ := exists_points (isPoint_iff.mp hpoint)
      have htext : text = lead ++ chunksText front ++ last.1 :: last.2 := by
        rw [h.text_eq, decimalsText, if_pos hfraction]
        simp [chunksText]
      -- The last chunk stands after one of the points, so the other one stands before it.
      obtain ⟨chunk, hchunk, hother⟩ := hboth other <| by
        rcases hpoints with ⟨-, rfl⟩ | ⟨-, rfl⟩ <;> simp
      have hmemFront : chunk ∈ front := by
        rcases List.mem_append.mp hchunk with hchunk | hchunk
        · exact hchunk
        · rw [List.mem_singleton.mp hchunk] at hother
          exact absurd hother.symm hpoints.ne
      by_cases hagain : ∃ chunk ∈ front, chunk.1 = last.1
      · obtain ⟨again, hagain, hsame⟩ := hagain
        rw [htext]
        exact .inr (readValue_eq_none hpoints h.lead_digits hfront
          (List.mem_flatMap.mpr ⟨again, hagain, hsame ▸ List.mem_cons_self⟩)
          (List.mem_flatMap.mpr ⟨chunk, hmemFront, hother ▸ List.mem_cons_self⟩) hdigits)
      · have hsame : ∀ chunk ∈ front, chunk.1 = other := fun chunk hchunk =>
          hpoints.eq_of_ne (isPoint_iff.mp (hfront chunk hchunk).1)
            fun heq => hagain ⟨chunk, hchunk, heq⟩
        have hcovered : Covered (lead ++ chunksText front) lead front '.' [] :=
          ⟨by simp [decimalsText], h.lead_digits, h.lead_ne, fun _ => h.lead_short (by simp),
            .inr hfront, ⟨by simp, by simp, by simp⟩⟩
        obtain ⟨a, ha, hseparator, hgroups, hnil⟩ := exists_amount hcovered hpoints.mem hsame
        rw [htext, ← ha]
        refine .inl (.mk ?_ hnil (hseparator ▸ hpoints) hlength hdigits)
        rw [hgroups]
        exact List.ne_nil_of_mem (List.mem_map_of_mem hmemFront)
  · obtain ⟨other, hpoints⟩ := exists_points h.decimals.point_mem
    have hother : other ∈ chunksText chunks := hmem other <| by
      rcases hpoints with ⟨-, rfl⟩ | ⟨-, rfl⟩ <;> simp
    rw [h.text_eq, decimalsText, if_neg hfraction, ← List.append_assoc]
    exact .inr (readValue_eq_none hpoints h.lead_digits hchunks (hmem point h.decimals.point_mem)
      hother h.decimals.digits)

/-- A covered text is an amount, or has three decimals, or has no value. -/
theorem covered_cases (h : Covered text lead chunks point fraction) :
    (∃ a : Amount, a.text = text ∧ a.separator ∈ [' ', '.', ',']) ∨ ThreeDecimals text ∨
      readValue text = none := by
  have hamount {separator : Char} (hmem : separator ∈ [' ', '.', ','])
      (hsame : ∀ chunk ∈ chunks, chunk.1 = separator) :
      ∃ a : Amount, a.text = text ∧ a.separator ∈ [' ', '.', ','] := by
    obtain ⟨a, ha, hseparator, -, -⟩ := exists_amount h hmem hsame
    exact ⟨a, ha, hseparator ▸ hmem⟩
  rcases h.chunks with hspaces | hchunks
  · exact .inl (hamount (by simp) fun chunk hchunk => of_decide_eq_true (hspaces chunk hchunk).1)
  · by_cases hboth : ∀ c ∈ ['.', ','], ∃ chunk ∈ chunks, chunk.1 = c
    · exact .inr (mixed_cases h hchunks hboth)
    · simp only [not_forall, not_exists, not_and] at hboth
      obtain ⟨c, hc, hnone⟩ := hboth
      obtain ⟨other, hpoints⟩ := exists_points hc
      exact .inl (hamount hpoints.mem fun chunk hchunk =>
        hpoints.eq_of_ne (isPoint_iff.mp (hchunks chunk hchunk).1) (hnone chunk hchunk))

end Cases

/-! What an amount is does not depend on how its text is taken apart. -/

section Same

variable {a b : Amount} {text : List Char}

theorem plainSpace_eq_iff {c point : Char} (h : point ∈ ['.', ',']) :
    plainSpace c = point ↔ c = point := by
  unfold plainSpace
  split
  · rename_i hspace
    refine iff_of_false ?_ ?_
    · rintro rfl
      simp at h
    · rintro rfl
      rcases List.mem_pair.mp h with rfl | rfl <;> simp at hspace
  · rfl

theorem map_plainSpace_eq (h : ∀ c ∈ text, plainSpace c = c) : text.map plainSpace = text := by
  rw [List.map_congr_left h, List.map_id']

theorem same_plain (h : a.text = b.text) : a.plain.text = b.plain.text := by
  rw [← map_plainSpace_text, h, map_plainSpace_text]

theorem Regular.of_text_eq (h : a.text = b.text) (ha : Regular a) : Regular b := by
  have hcovered := covered_text (separator_plain b)
  rw [← same_plain h] at hcovered
  obtain ⟨hlead, hchunks, hfraction, hpoint⟩ := (covered_text (separator_plain a)).unique hcovered
  change a.lead = b.lead at hlead
  change a.fraction = b.fraction at hfraction
  change a.groups.map (plainSpace a.separator, ·) = b.groups.map (plainSpace b.separator, ·)
    at hchunks
  have hgroups : a.groups = b.groups := by
    simpa [Function.comp_def] using congrArg (List.map Prod.snd) hchunks
  rw [hgroups] at hchunks
  have hseparator (hne : b.groups ≠ []) : plainSpace a.separator = plainSpace b.separator := by
    obtain ⟨g, groups, hcons⟩ := List.exists_cons_of_ne_nil hne
    rw [hcons, List.map_cons, List.map_cons] at hchunks
    exact congrArg Prod.fst (List.cons.inj hchunks).1
  constructor
  · rw [← hgroups, ← hlead]
    exact ha.lead
  · intro hne hdecimals hsame
    have hpoint : a.point = b.point := hpoint (hfraction ▸ hdecimals)
    refine ha.point (hgroups ▸ hne) (hfraction ▸ hdecimals) ?_
    have hplain := (plainSpace_eq_iff b.point_mem).mpr hsame.symm
    rw [hpoint]
    exact ((plainSpace_eq_iff b.point_mem).mp ((hseparator hne).trans hplain)).symm

theorem exists_covered (h : ThreeDecimals text) : ∃ lead chunks, ∃ c d : Char × List Char,
    c ∈ chunks ∧ d ∈ chunks ∧ c.1 ≠ d.1 ∧ Covered text lead chunks '.' [] := by
  cases h with
  | @mk a point decimals hgroups hfraction hpoints hlength hdigits =>
      obtain ⟨g, groups, hcons⟩ := List.exists_cons_of_ne_nil hgroups
      refine ⟨a.lead, a.groups.map (a.separator, ·) ++ [(point, decimals)], (a.separator, g),
        (point, decimals), by simp [hcons], by simp, hpoints.ne, ?_⟩
      have hcovered := covered_text (a := a) (List.mem_cons_of_mem _ (Points.both hpoints).2)
      refine ⟨?_, a.lead_digits, a.lead_ne, fun _ => a.lead_short hgroups, .inr ?_,
        by simp, by simp, by simp⟩
      · rw [hcovered.text_eq, decimalsText, if_pos hfraction]
        simp [chunksText, decimalsText]
      · refine List.forall_mem_append.mpr ⟨List.forall_mem_map.mpr fun g hg => ?_, ?_⟩
        · exact ⟨isPoint_iff.mpr (Points.both hpoints).2, a.group_digits g hg⟩
        · exact List.forall_mem_singleton.mpr
            ⟨isPoint_iff.mpr (Points.both hpoints).1, hlength, hdigits⟩

theorem not_threeDecimals (a : Amount) : ¬ ThreeDecimals a.text := by
  intro h
  obtain ⟨lead, chunks, c, d, hc, hd, hne, hcovered⟩ := exists_covered h
  have hplain : a.plain.text = a.text := by
    rw [← map_plainSpace_text]
    refine map_plainSpace_eq fun c hc => ?_
    rcases h.mem c hc with hdigit | hpoint
    · exact plainSpace_of_digit hdigit
    · exact (plainSpace_eq_iff hpoint).mpr rfl
  have hamount := covered_text (separator_plain a)
  rw [hplain] at hamount
  obtain ⟨-, rfl, -, -⟩ := hamount.unique hcovered
  obtain ⟨g, -, rfl⟩ := List.mem_map.mp hc
  obtain ⟨g', -, rfl⟩ := List.mem_map.mp hd
  exact hne rfl

end Same

/-! Accepted texts. -/

section Accepted

variable {raw : String} {price : ExactPrice} {x text z : List Char} {a : Amount}

theorem plainSpace_of_mem_compactOf {c : Char} (h : c ∈ compactOf raw) : plainSpace c = c := by
  rw [compactOf, trim, String.toList_ofList, String.toList_ofList] at h
  obtain ⟨d, -, rfl⟩ := List.mem_map.mp
    ((List.dropWhile_suffix _).subset ((List.rdropWhile_prefix _ _).subset h))
  unfold plainSpace
  split <;> rfl

theorem plain_text_eq (h : compactOf raw = x ++ (a.text ++ z)) : a.plain.text = a.text := by
  rw [← map_plainSpace_text]
  refine map_plainSpace_eq fun c hc => ?_
  have hmem : c ∈ compactOf raw := by
    rw [h]
    exact List.mem_append_right x (List.mem_append_left z hc)
  exact plainSpace_of_mem_compactOf hmem

/-- A text is accepted with the one amount that the pattern covers, if nothing else
in it is refused and its value is positive. -/
theorem accepted_iff : parsePriceExactly raw = .ok price ↔
    ∃ x text z, compactOf raw = x ++ (text ++ z) ∧ DigitFree x ∧ DigitFree z ∧
      (∃ lead chunks point fraction, Covered text lead chunks point fraction) ∧
      Unrefused x text z ∧ (detectedCurrencies (compactOf raw)).head? = price.currency ∧
      ∃ v, readValue text = some v ∧ 0 < v ∧ ⌊v * 100 + 1 / 2⌋ = price.priceMinor := by
  have hchars : (trim (String.ofList (raw.toList.map plainSpace))).toList = compactOf raw := rfl
  simp only [parsePriceExactly_eq_ok_iff, readAmount_eq_ok_iff hchars]
  constructor
  · rintro ⟨_, ⟨htotal, hsigns, hyen, hcurrencies, m, hm, hcode, rfl, hhead⟩, hvalue⟩
    obtain ⟨htext, hx, hz, hcovered⟩ := matchAll_numericPattern_iff.mp hm
    rw [htext] at htotal hsigns hyen hcurrencies
    exact ⟨m.before, m.text, m.after, htext, hx, hz, hcovered,
      ⟨htotal, hsigns, hyen, hcurrencies, hcode⟩, hhead, hvalue⟩
  · rintro ⟨x, text, z, htext, hx, hz, hcovered, ⟨htotal, hsigns, hyen, hcurrencies, hcode⟩,
      hhead, hvalue⟩
    have hm : matchAll numericPattern (compactOf raw) = [⟨x, text, z⟩] :=
      matchAll_numericPattern_iff.mpr ⟨htext, hx, hz, hcovered⟩
    rw [← htext] at htotal hsigns hyen hcurrencies
    exact ⟨_, ⟨htotal, hsigns, hyen, hcurrencies, _, hm, hcode, rfl, hhead⟩, hvalue⟩

/-- An accepted text is well read if the amount in it is. -/
theorem wellRead_of_accepted (h : parsePriceExactly raw = .ok price)
    (hamount : ∀ x text z, compactOf raw = x ++ (text ++ z) → DigitFree x → DigitFree z →
      Unrefused x text z → NonZero text →
        (∀ a : Amount, a.text = text → Regular a ∧ ¬ Carries x z) ∧ ¬ ThreeDecimals text) :
    WellRead raw price := by
  obtain ⟨x, text, z, htext, hx, hz, ⟨_, _, _, _, hcovered⟩, hunrefused, -, v, hv, hpos, hfloor⟩ :=
    accepted_iff.mp h
  have hamount := hamount x text z htext hx hz hunrefused
  rcases covered_cases hcovered with ⟨a, rfl, hseparator⟩ | hthree | hnone
  · obtain rfl : a.value = v := Option.some.inj ((decimalValue_text hseparator).symm.trans hv)
    obtain ⟨hregular, hcarries⟩ := (hamount (value_pos_iff.mp hpos)).1 a rfl
    obtain ⟨n, hn⟩ := exists_value_eq a
    rw [floor_eq hn] at hfloor
    have hprice : (price.priceMinor : ℚ) = 100 * a.value := by
      rw [← hfloor, ← hn, mul_comm]
    refine ⟨x, a, z, htext, hx, hz, hregular, hcarries, hprice, ?_⟩
    rw [← Int.cast_pos (R := ℚ), hprice]
    positivity
  · obtain ⟨w, hw, hiff⟩ := readValue_threeDecimals hthree
    obtain rfl : w = v := Option.some.inj (hw.symm.trans hv)
    exact absurd hthree (hamount (hiff.mp hpos)).2
  · rw [hnone] at hv
    cases hv

/-- A text that has a positive value and is not refused is accepted. -/
theorem exists_amount_of_wellRead {v : ℚ} (h : ∀ price, parsePriceExactly raw = .ok price →
      WellRead raw price)
    (htext : compactOf raw = x ++ (text ++ z)) (hx : DigitFree x) (hz : DigitFree z)
    (hcovered : ∃ lead chunks point fraction, Covered text lead chunks point fraction)
    (hunrefused : Unrefused x text z) (hv : readValue text = some v) (hpos : 0 < v) :
    ∃ a : Amount, a.text = text ∧ Regular a ∧ ¬ Carries x z := by
  obtain ⟨priceMinor, hminor⟩ : ∃ n, ⌊v * 100 + 1 / 2⌋ = n := ⟨_, rfl⟩
  obtain ⟨currency, hcurrency⟩ : ∃ c, (detectedCurrencies (compactOf raw)).head? = c := ⟨_, rfl⟩
  obtain ⟨x', a, z', htext', hx', hz', hregular, hcarries, -, -⟩ := h ⟨priceMinor, currency⟩ <|
    accepted_iff.mpr
      ⟨x, text, z, htext, hx, hz, hcovered, hunrefused, hcurrency, v, hv, hpos, hminor⟩
  -- Between two parts without digits there is one amount only.
  have hm : matchAll numericPattern (compactOf raw) = [⟨x, text, z⟩] :=
    matchAll_numericPattern_iff.mpr ⟨htext, hx, hz, hcovered⟩
  have hcovered' := covered_text (separator_plain a)
  rw [plain_text_eq htext'] at hcovered'
  have hm' : matchAll numericPattern (compactOf raw) = [⟨x', a.text, z'⟩] :=
    matchAll_numericPattern_iff.mpr ⟨htext', hx', hz', _, _, _, _, hcovered'⟩
  obtain ⟨rfl, rfl, rfl⟩ : x' = x ∧ a.text = text ∧ z' = z := by
    simpa using hm'.symm.trans hm
  exact ⟨a, rfl, hregular, hcarries⟩

/-- `parsePrice` reads no wrong amount in a text exactly if the text, unless it is refused
for another reason or is zero, has no sign or point at its amount, no zero before its
groups, no decimals after the separator of its groups, and no three decimals. -/
theorem wellRead_iff (raw : String) :
    (∀ price, parsePriceExactly raw = .ok price → WellRead raw price) ↔
      ∀ x text z, compactOf raw = x ++ (text ++ z) → DigitFree x → DigitFree z →
        Unrefused x text z → NonZero text →
          (∀ a : Amount, a.text = text → Regular a ∧ ¬ Carries x z) ∧ ¬ ThreeDecimals text := by
  refine ⟨fun h x text z htext hx hz hunrefused hnonZero => ⟨?_, fun hthree => ?_⟩,
    fun h price hok => wellRead_of_accepted hok h⟩
  · rintro a rfl
    have hplain := plain_text_eq htext
    have hcovered := covered_text (separator_plain a)
    have hvalue := decimalValue_text (separator_plain a)
    rw [hplain] at hcovered hvalue
    obtain ⟨b, hb, hregular, hcarries⟩ := exists_amount_of_wellRead h htext hx hz
      ⟨_, _, _, _, hcovered⟩ hunrefused hvalue (value_pos_iff.mpr (hplain.symm ▸ hnonZero))
    exact ⟨hregular.of_text_eq hb, hcarries⟩
  · obtain ⟨v, hv, hpos⟩ := readValue_threeDecimals hthree
    obtain ⟨lead, chunks, -, -, -, -, -, hcovered⟩ := exists_covered hthree
    obtain ⟨a, rfl, -, -⟩ := exists_amount_of_wellRead h htext hx hz ⟨_, _, _, _, hcovered⟩
      hunrefused hv (hpos.mpr hnonZero)
    exact not_threeDecimals a hthree

end Accepted

/-- "1,234" -/
def thousand : Amount :=
  { nineteen with
    lead := ['1']
    separator := ','
    groups := [['2', '3', '4']]
    lead_digits := List.all_eq_true.mp rfl
    lead_ne := by decide
    lead_short := fun _ => by decide
    separator_mem := by decide
    group_digits := List.forall_mem_singleton.mpr ⟨rfl, List.all_eq_true.mp rfl⟩ }

/-- A price with three decimals is rounded. -/
theorem three_decimals_accepted :
    parsePriceExactly "1,234.567" = .ok ⟨123457, none⟩ ∧
      ¬ WellRead "1,234.567" ⟨123457, none⟩ := by
  refine ⟨by decide +kernel, ?_⟩
  rintro ⟨x, a, z, htext, hx, hz, -⟩
  have hthree : ThreeDecimals (thousand.text ++ '.' :: ['5', '6', '7']) :=
    .mk (by simp [thousand]) rfl (.inl ⟨rfl, rfl⟩) rfl (by simp [isAsciiDigit])
  have hcovered := covered_text (separator_plain a)
  rw [plain_text_eq htext] at hcovered
  have hm : matchAll numericPattern (compactOf "1,234.567") = [⟨x, a.text, z⟩] :=
    matchAll_numericPattern_iff.mpr ⟨htext, hx, hz, _, _, _, _, hcovered⟩
  have hwhole : matchAll numericPattern (compactOf "1,234.567") =
      [⟨[], thousand.text ++ '.' :: ['5', '6', '7'], []⟩] := by decide +kernel
  rw [hwhole] at hm
  obtain ⟨-, hsame, -⟩ : [] = x ∧ thousand.text ++ '.' :: ['5', '6', '7'] = a.text ∧ [] = z := by
    simpa using hm
  rw [hsame] at hthree
  exact not_threeDecimals a hthree

end PriceScout.Worker.PriceAmounts
