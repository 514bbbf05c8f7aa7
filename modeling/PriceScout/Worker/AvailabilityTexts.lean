import PriceScout.Library.CaseMappings
import PriceScout.Library.Searches
import PriceScout.Worker.Extract

/-!
Availability texts that deny, in plain English, that a product can be had.
-/

namespace PriceScout.Worker.AvailabilityTexts

open PriceScout.Library.CaseMappings
open PriceScout.Library.JsStrings
open PriceScout.Library.RegularExpressions
open PriceScout.Library.Searches
open PriceScout.Worker.Environment
open PriceScout.Worker.Extract

/-- The in-stock wordings that are negated. -/
inductive Denial where
  | notInStock
  | notAvailable
  | noLongerAvailable
  | notCurrentlyAvailable
  | zeroInStock

def Denial.words : Denial → List String
  | .notInStock => ["not", "in", "stock"]
  | .notAvailable => ["not", "available"]
  | .noLongerAvailable => ["no", "longer", "available"]
  | .notCurrentlyAvailable => ["not", "currently", "available"]
  | .zeroInStock => ["0", "in", "stock"]

/-- A text spells words in any letter case, with characters of a class between them. -/
inductive Spells (isGap : Char → Bool) : List String → List Char → Prop
  | last {word : String} {v : List Char} (letters : SameLetters v word.toList) :
      Spells isGap [word] v
  | cons {word : String} {words : List String} {v gap rest : List Char}
      (letters : SameLetters v word.toList) (hgap : ∀ c ∈ gap, isGap c = true)
      (hrest : Spells isGap words rest) : Spells isGap (word :: words) (v ++ (gap ++ rest))

/-- A text denies that the product can be had, somewhere in it. -/
def Denies (isGap : Char → Bool) (raw : String) : Prop :=
  ∃ (denial : Denial) (x phrase z : List Char), raw.toList = x ++ (phrase ++ z) ∧
    Spells isGap denial.words phrase

/-- The texts that stand for an offer that cannot be bought now. -/
def unavailableTexts : List String :=
  ["outofstock", "soldout", "unavailable", "preorder", "backorder"]

variable {runtime : Runtime} {isGap : Char → Bool}

/-- An availability text as it is searched: its letters alone, in lower case. -/
def letters (runtime : Runtime) (raw : String) : List Char :=
  (runtime.toLowerCase raw).toList.filter isAsciiLower

/-- The letters of words that are ASCII. -/
def lettersOf (words : List String) : List Char :=
  words.flatMap fun word => (word.toList.map Char.toLower).filter isAsciiLower

theorem toLower_of_large {c : Char} (h : 128 ≤ c.toNat) : c.toLower = c := by
  refine Char.toLower_eq_of_not_isUpper ?_
  rw [← isAsciiUpper_eq, isAsciiUpper_iff]
  omega

theorem toNat_toLower_lt {c : Char} (h : c.toNat < 128) : c.toLower.toNat < 128 := by
  by_cases hupper : c.isUpper = true
  · have hlower : isAsciiLower c.toLower = true := by
      rw [isAsciiLower_eq, Char.isLower_toLower_eq_isAlpha, Char.isAlpha, hupper, Bool.true_or]
    rw [isAsciiLower_iff] at hlower
    omega
  · rw [Char.toLower_eq_of_not_isUpper hupper]
    exact h

theorem ascii_of_sameLetters {v w : List Char} (h : SameLetters v w)
    (hw : ∀ c ∈ w, c.toNat < 128) : ∀ c ∈ v, c.toNat < 128 := by
  intro c hc
  have hlower : c.toLower ∈ w.map Char.toLower := h ▸ List.mem_map_of_mem hc
  obtain ⟨d, hd, hsame⟩ := List.mem_map.mp hlower
  by_contra hlarge
  have hkept : c.toLower = c := toLower_of_large (Nat.not_lt.mp hlarge)
  have hsmall := toNat_toLower_lt (hw d hd)
  rw [hsame, hkept] at hsmall
  exact hlarge hsmall

/-- The gaps leave no trace in the letters of a phrase. -/
theorem filter_replaceEach {replace : Replacement}
    (hascii : ∀ before c after, c.toNat < 128 → replace before c after = [c.toLower])
    (hkeeps : ∀ before c after, isGap c = true → replace before c after = [c])
    (hgap : ∀ c, isGap c = true → isAsciiLower c = false) {words : List String}
    (hwords : ∀ word ∈ words, ∀ c ∈ word.toList, c.toNat < 128) {phrase : List Char}
    (h : Spells isGap words phrase) (before after : List Char) :
    (replaceEach replace before phrase after).filter isAsciiLower = lettersOf words := by
  induction h generalizing before with
  | @last word v hletters =>
      rw [replaceEach_ascii hascii (ascii_of_sameLetters hletters (hwords word (by simp))),
        show v.map Char.toLower = word.toList.map Char.toLower from hletters]
      simp [lettersOf]
  | @cons word words v gap rest hletters hgaps _ ih =>
      have hfiltered : gap.filter isAsciiLower = [] := by
        simpa [List.filter_eq_nil_iff] using fun c hc => hgap c (hgaps c hc)
      rw [replaceEach_append, replaceEach_append,
        replaceEach_ascii hascii (ascii_of_sameLetters hletters (hwords word (by simp))),
        replaceEach_keeps hkeeps hgaps,
        show v.map Char.toLower = word.toList.map Char.toLower from hletters]
      rw [List.filter_append, List.filter_append, hfiltered,
        ih (fun word hword => hwords word (List.mem_cons_of_mem _ hword))]
      simp [lettersOf]

/-- The letters of a text with a phrase in it contain those of the phrase. -/
theorem lettersOf_infix_letters (hlower : LowersAsciiKeeps isGap runtime.toLowerCase)
    (hgap : ∀ c, isGap c = true → isAsciiLower c = false) {words : List String}
    (hwords : ∀ word ∈ words, ∀ c ∈ word.toList, c.toNat < 128) {raw : String}
    {x phrase z : List Char} (hraw : raw.toList = x ++ (phrase ++ z))
    (h : Spells isGap words phrase) : lettersOf words <:+: letters runtime raw := by
  obtain ⟨replace, hascii, hkeeps, heach⟩ := hlower
  refine ⟨(replaceEach replace [] x (phrase ++ z)).filter isAsciiLower,
    (replaceEach replace (x ++ phrase) z []).filter isAsciiLower, ?_⟩
  have hphrase := filter_replaceEach hascii hkeeps hgap hwords h x z
  rw [letters, heach, hraw, replaceEach_append, replaceEach_append, List.filter_append,
    List.filter_append]
  simp [hphrase]

/-- Every denial has the letters of the wording that it denies. -/
theorem denied_infix_lettersOf (denial : Denial) :
    "instock".toList <:+: lettersOf denial.words ∨
      "available".toList <:+: lettersOf denial.words := by
  cases denial <;> decide

theorem words_ascii (denial : Denial) {word : String} (h : word ∈ denial.words) :
    ∀ c ∈ word.toList, c.toNat < 128 := by
  have hall : (denial.words.all fun word => word.toList.all fun c => c.toNat < 128) = true := by
    cases denial <;> decide
  intro c hc
  exact of_decide_eq_true (List.all_eq_true.mp (List.all_eq_true.mp hall word h) c hc)

theorem test_unavailablePattern {text : List Char} :
    test unavailablePattern text = true ↔ ∃ word ∈ unavailableTexts, word.toList <:+: text :=
  test_literals

/-- **A text that denies availability is not taken for available if and only if
its letters also contain one of the texts for unavailable offers.** -/
theorem not_available_iff_unavailable (hlower : LowersAsciiKeeps isGap runtime.toLowerCase)
    (hgap : ∀ c, isGap c = true → isAsciiLower c = false) {raw : String} (h : Denies isGap raw) :
    parseAvailability runtime raw ≠ .ok true ↔
      ∃ word ∈ unavailableTexts, word.toList <:+: letters runtime raw := by
  obtain ⟨denial, x, phrase, z, hraw, hspells⟩ := h
  have hinfix := lettersOf_infix_letters hlower hgap (fun _ => words_ascii denial) hraw hspells
  have havailable : test availablePattern (letters runtime raw) = true := by
    refine test_literals.mpr ?_
    rcases denied_infix_lettersOf denial with hdenied | hdenied
    · exact ⟨"instock", by simp, hdenied.trans hinfix⟩
    · exact ⟨"available", by simp, hdenied.trans hinfix⟩
  rw [← test_unavailablePattern]
  unfold letters at havailable ⊢
  simp only [parseAvailability]
  split_ifs with hunavailable
  · simp [hunavailable, pure, Except.pure]
  · simp [hunavailable, pure, Except.pure]

/-! Texts in ASCII, with spaces between the words. -/

def isSpace (c : Char) : Bool :=
  c = ' '

theorem isAsciiLower_of_isSpace (c : Char) (h : isSpace c = true) : isAsciiLower c = false := by
  rw [of_decide_eq_true h]
  rfl

theorem lowersAsciiKeeps_asciiRuntime :
    LowersAsciiKeeps isSpace (asciiRuntime [] []).toLowerCase := by
  refine ⟨fun _ c _ => [c.toLower], fun _ _ _ _ => rfl, fun _ c _ hc => ?_, fun s => ?_⟩
  · rw [of_decide_eq_true hc]
    rfl
  · rw [replaceEach_lower fun _ _ _ _ => rfl]
    exact String.toList_ofList

theorem spells_notInStock : Spells isSpace Denial.notInStock.words "Not in stock".toList :=
  show Spells isSpace ["not", "in", "stock"]
      ("Not".toList ++ ([' '] ++ ("in".toList ++ ([' '] ++ "stock".toList)))) from
    .cons rfl (by simp [isSpace]) (.cons rfl (by simp [isSpace]) (.last rfl))

theorem denies_notInStock (x : String) : Denies isSpace (x ++ "Not in stock") :=
  ⟨.notInStock, x.toList, _, [], by simp, spells_notInStock⟩

theorem not_available_iff_unavailable_soldOut :
    parseAvailability (asciiRuntime [] []) ("Sold out! " ++ "Not in stock") ≠ .ok true ↔
      ∃ word ∈ unavailableTexts,
        word.toList <:+: letters (asciiRuntime [] []) ("Sold out! " ++ "Not in stock") :=
  not_available_iff_unavailable lowersAsciiKeeps_asciiRuntime isAsciiLower_of_isSpace
    (denies_notInStock "Sold out! ")

/-- "Not in stock" alone counts as available. -/
theorem notInStock_available :
    ¬ ∀ (runtime : Runtime) (isGap : Char → Bool) (raw : String),
      LowersAsciiKeeps isGap runtime.toLowerCase →
      (∀ c, isGap c = true → isAsciiLower c = false) → Denies isGap raw →
      parseAvailability runtime raw ≠ .ok true := by
  intro h
  have hnot := h (asciiRuntime [] []) isSpace _ lowersAsciiKeeps_asciiRuntime
    isAsciiLower_of_isSpace (denies_notInStock "")
  have havailable : parseAvailability (asciiRuntime [] []) ("" ++ "Not in stock") = .ok true := by
    decide +kernel
  exact hnot havailable

end PriceScout.Worker.AvailabilityTexts
