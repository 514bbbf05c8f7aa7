import PriceScout.Library.GoStrings
import PriceScout.Worker.Validation

/-!
What the check of the requested variant makes sure of, beyond the ASCII letters
and digits that it compares.
-/

namespace PriceScout.Worker.VariantChecks

open PriceScout.Library
open PriceScout.Library.JsStrings
open PriceScout.Worker.Contracts
open PriceScout.Worker.Environment
open PriceScout.Worker.Validation

/-! A text is made of the characters that are kept of it and the others between them. -/

section Places

variable {α : Type} {p q : α → Bool} {s t : List α} {n : Nat}

/-- The elements outside of two classes, with the number of elements of the
first class before them. -/
def places (p q : α → Bool) : Nat → List α → List (Nat × α)
  | _, [] => []
  | n, a :: rest =>
      if p a then places p q (n + 1) rest
      else if q a then places p q n rest
      else (n, a) :: places p q n rest

theorem places_cons_of_kept {a : α} (hp : p a = true) :
    places p q n (a :: s) = places p q (n + 1) s := by
  simp [places, hp]

theorem places_cons_of_other {a : α} (hp : ¬ p a = true) (hq : q a = false) :
    places p q n (a :: s) = (n, a) :: places p q n s := by
  simp [places, hp, hq]

theorem le_of_mem_places {x : Nat × α} (h : x ∈ places p q n s) : n ≤ x.1 := by
  induction s generalizing n with
  | nil => simp [places] at h
  | cons a rest ih =>
      unfold places at h
      split at h
      · exact (Nat.le_succ n).trans (ih h)
      · split at h
        · exact ih h
        · rcases List.mem_cons.mp h with rfl | h
          · exact le_rfl
          · exact ih h

theorem places_filter (hpq : ∀ a, p a = true → q a = false) :
    places p q n (s.filter fun a => !q a) = places p q n s := by
  induction s generalizing n with
  | nil => rfl
  | cons a rest ih =>
      by_cases hp : p a = true
      · simp [places, hp, hpq a hp, ih]
      · by_cases hq : q a = true
        · simp [places, hp, hq, ih]
        · simp [places, hp, hq, ih]

theorem filter_filter_of_disjoint (hpq : ∀ a, p a = true → q a = false) :
    (s.filter fun a => !q a).filter p = s.filter p := by
  rw [List.filter_filter]
  refine List.filter_congr fun a _ => ?_
  cases hp : p a with
  | false => rfl
  | true => simp [hpq a hp]

theorem eq_of_filter_eq_of_places_eq (hs : ∀ a ∈ s, q a = false) (ht : ∀ a ∈ t, q a = false)
    (hkept : s.filter p = t.filter p) (hplaces : places p q n s = places p q n t) : s = t := by
  induction s generalizing n t with
  | nil =>
      cases t with
      | nil => rfl
      | cons b rest =>
          have hb := ht b List.mem_cons_self
          by_cases hp : p b = true
          · simp [hp] at hkept
          · rw [places_cons_of_other hp hb] at hplaces
            cases hplaces
  | cons a s ih =>
      have ha := hs a List.mem_cons_self
      have hs' : ∀ a ∈ s, q a = false := fun a h => hs a (List.mem_cons_of_mem _ h)
      cases t with
      | nil =>
          by_cases hp : p a = true
          · simp [hp] at hkept
          · rw [places_cons_of_other hp ha] at hplaces
            cases hplaces
      | cons b t =>
          have hb := ht b List.mem_cons_self
          have ht' : ∀ a ∈ t, q a = false := fun a h => ht a (List.mem_cons_of_mem _ h)
          by_cases hpa : p a = true <;> by_cases hpb : p b = true
          · rw [List.filter_cons_of_pos hpa, List.filter_cons_of_pos hpb] at hkept
            rw [places_cons_of_kept hpa, places_cons_of_kept hpb] at hplaces
            obtain ⟨rfl, hrest⟩ := List.cons.inj hkept
            rw [ih hs' ht' hrest hplaces]
          -- An element of one side comes before the kept element that the other side has there.
          · rw [places_cons_of_kept hpa, places_cons_of_other hpb hb] at hplaces
            have hmem : (n, b) ∈ places p q (n + 1) s := by
              rw [hplaces]
              exact List.mem_cons_self
            exact absurd (le_of_mem_places hmem) (Nat.not_succ_le_self n)
          · rw [places_cons_of_other hpa ha, places_cons_of_kept hpb] at hplaces
            have hmem : (n, a) ∈ places p q (n + 1) t := by
              rw [← hplaces]
              exact List.mem_cons_self
            exact absurd (le_of_mem_places hmem) (Nat.not_succ_le_self n)
          · rw [List.filter_cons_of_neg hpa, List.filter_cons_of_neg hpb] at hkept
            rw [places_cons_of_other hpa ha, places_cons_of_other hpb hb] at hplaces
            obtain ⟨hsame, hrest⟩ := List.cons.inj hplaces
            obtain ⟨-, rfl⟩ := Prod.mk.inj hsame
            rw [ih hs' ht' hkept hrest]

/-- Two lists are the same up to a class of elements if and only if they have
the same kept elements and the same others at the same places. -/
theorem filter_not_eq_iff (hpq : ∀ a, p a = true → q a = false) :
    (s.filter fun a => !q a) = (t.filter fun a => !q a) ↔
      s.filter p = t.filter p ∧ places p q 0 s = places p q 0 t := by
  constructor
  · intro h
    rw [← filter_filter_of_disjoint (s := s) hpq, ← filter_filter_of_disjoint (s := t) hpq,
      ← places_filter (s := s) hpq, ← places_filter (s := t) hpq, h]
    exact ⟨rfl, rfl⟩
  · rintro ⟨hkept, hplaces⟩
    refine eq_of_filter_eq_of_places_eq (p := p) (q := q) (n := 0) (fun a h => by
      simpa using (List.mem_filter.mp h).2) (fun a h => by simpa using (List.mem_filter.mp h).2) ?_
        ?_
    · rw [filter_filter_of_disjoint hpq, filter_filter_of_disjoint hpq, hkept]
    · rw [places_filter hpq, places_filter hpq, hplaces]

end Places

/-! Requested values. -/

section Values

variable {runtime : Runtime} {observation : Observation} {plan : MonitorPlanV1}
  {isSeparator : Char → Bool}

/-- A value up to letter case and Unicode compatibility. -/
def folded (runtime : Runtime) (value : String) : List Char :=
  (runtime.nfkc (runtime.toLowerCase value)).toList

/-- The characters that a comparison of values keeps. -/
def isKept (c : Char) : Bool :=
  isAsciiLower c || isAsciiDigit c

/-- A value up to letter case, compatibility, spacing and punctuation. -/
def spoken (runtime : Runtime) (isSeparator : Char → Bool) (value : String) : List Char :=
  (folded runtime value).filter fun c => !isSeparator c

/-- The characters of a value that a comparison loses, spacing and punctuation
apart, each with the number of kept characters before it. -/
def lost (runtime : Runtime) (isSeparator : Char → Bool) (value : String) : List (Nat × Char) :=
  places isKept isSeparator 0 (folded runtime value)

/-- A plan asks for a value of an attribute, and not for a blank one. -/
structure Requested (plan : MonitorPlanV1) (attributeName expected : String) : Prop where
  mem : (attributeName, expected) ∈ plan.identity.requestedVariant
  nonblank : GoStrings.trimSpace expected ≠ ""

theorem filter_collapseRuns (p : Char → Bool) (hp : p ' ' = true) (running : Bool)
    (s : List Char) :
    (collapseRuns p running s).filter (fun c => !p c) = s.filter fun c => !p c := by
  induction s generalizing running with
  | nil => rfl
  | cons c rest ih =>
      unfold collapseRuns
      by_cases hc : p c = true
      · cases running with
        | false => simp [hc, hp, ih]
        | true => simp [hc, ih]
      · simp [hc, ih]

theorem filter_dropWhile_of_disjoint {p q : Char → Bool}
    (hpq : ∀ c, q c = true → p c = false) (s : List Char) :
    (s.dropWhile q).filter p = s.filter p := by
  induction s with
  | nil => rfl
  | cons c rest ih =>
      by_cases hc : q c = true
      · simp [hc, hpq c hc, ih]
      · simp [hc]

theorem filter_rdropWhile_of_disjoint {p q : Char → Bool}
    (hpq : ∀ c, q c = true → p c = false) (s : List Char) :
    (s.rdropWhile q).filter p = s.filter p := by
  rw [List.rdropWhile, List.filter_reverse, filter_dropWhile_of_disjoint hpq,
    List.filter_reverse, List.reverse_reverse]

theorem isKept_of_isWhiteSpace (c : Char) (h : isWhiteSpace c = true) : isKept c = false := by
  by_contra hkept
  simp only [isKept, Bool.not_eq_false, Bool.or_eq_true, isAsciiLower_iff, isAsciiDigit_iff]
    at hkept
  simp only [isWhiteSpace, Bool.or_eq_true, Bool.and_eq_true, decide_eq_true_eq,
    List.contains_iff_mem, List.mem_cons, List.not_mem_nil, or_false] at h
  omega

/-- Values that compare as the same have the same kept characters. -/
theorem filter_isKept_normalize (value : String) :
    (normalize runtime value).toList.filter isKept = (folded runtime value).filter isKept := by
  have hcollapsed := filter_collapseRuns (fun c => !isKept c) rfl false (folded runtime value)
  simp only [Bool.not_not] at hcollapsed
  rw [Validation.normalize, trim, String.toList_ofList,
      filter_rdropWhile_of_disjoint isKept_of_isWhiteSpace,
    filter_dropWhile_of_disjoint isKept_of_isWhiteSpace, collapse, String.toList_ofList]
  exact hcollapsed

theorem validateVariants_eq_ok {requested : Record}
    (h : validateVariants runtime observation requested = .ok ()) {attributeName expected : String}
    (hmem : (attributeName, expected) ∈ requested) :
    normalize runtime ((observation.selectedVariant.get attributeName).getD "") =
      normalize runtime expected := by
  induction requested with
  | nil => cases hmem
  | cons entry rest ih =>
      unfold validateVariants at h
      split at h
      · cases h
      · rename_i hsame
        rcases List.mem_cons.mp hmem with rfl | hmem
        · exact not_not.mp hsame
        · exact ih h hmem

theorem normalize_eq_of_valid (h : validateObservation runtime observation plan = .ok ())
    {attributeName expected : String} (hrequested : Requested plan attributeName expected) :
    normalize runtime ((observation.selectedVariant.get attributeName).getD "") =
      normalize runtime expected := by
  unfold validateObservation at h
  by_cases hcurrency : observation.currency = plan.expectedCurrency
  · rw [if_neg (not_not_intro hcurrency)] at h
    cases hproduct : validateProduct runtime plan.identity observation with
    | ok _ =>
        refine validateVariants_eq_ok ?_ hrequested.mem
        simpa [hproduct, bind, Except.bind, pure, Except.pure] using h
    | error e => simp [hproduct, bind, Except.bind] at h
  · simp [hcurrency, bind, Except.bind, throw, throwThe, MonadExceptOf.throw] at h

/-- **Of an accepted observation the selected value is the requested one up to
case, compatibility, spacing and punctuation if and only if there is one and it
has the same characters that the comparison loses.** -/
theorem selected_iff_same_lost (hseparator : ∀ c, isKept c = true → isSeparator c = false)
    (h : validateObservation runtime observation plan = .ok ()) {attributeName expected : String}
    (hrequested : Requested plan attributeName expected) :
    (∃ selected, observation.selectedVariant.get attributeName = some selected ∧
      spoken runtime isSeparator selected = spoken runtime isSeparator expected) ↔
      ∃ selected, observation.selectedVariant.get attributeName = some selected ∧
        lost runtime isSeparator selected = lost runtime isSeparator expected := by
  have hsame := normalize_eq_of_valid h hrequested
  refine exists_congr fun selected => and_congr_right fun hselected => ?_
  rw [hselected, Option.getD_some] at hsame
  have hkept :
    (folded runtime selected).filter isKept = (folded runtime expected).filter isKept := by
    rw [← filter_isKept_normalize, hsame, filter_isKept_normalize]
  unfold spoken lost
  rw [filter_not_eq_iff hseparator]
  exact and_iff_right hkept

end Values

/-! A lamp whose colour is asked for in Chinese. -/

def lampPlan (expected : String) : MonitorPlanV1 where
  canonicalUrl := "https://shop.example/lamp"
  identity :=
    { title := "Desk Lamp", brand := none, sku := none, fingerprint := ""
      requestedVariant := [("color", expected)] }
  preparationSteps := []
  extractors :=
    { title := [], price := [], currency := none, availability := [], selectedVariant := []
      sku := none }
  expectedCurrency := .usd

def lampObservation (selectedVariant : Record) : Observation where
  title := "Desk Lamp"
  sku := none
  priceMinor := .finite 4900
  currency := .usd
  inStock := true
  availabilityRaw := "In stock"
  selectedVariant := selectedVariant
  rawPrice := "$49.00"
  identityFingerprint := ""

/-- The space and the punctuation of ASCII. -/
def asciiSeparators : List Char :=
  " !\"#%&'()*,-./:;?@[\\]_\x7b\x7d".toList

def isAsciiSeparator (c : Char) : Bool :=
  asciiSeparators.contains c

theorem isAsciiSeparator_eq_false (c : Char) (h : isKept c = true) :
    isAsciiSeparator c = false := by
  have hall : (asciiSeparators.all fun d => !isKept d) = true := by decide
  by_contra hseparator
  rw [Bool.not_eq_false, isAsciiSeparator, List.contains_iff_mem] at hseparator
  have hkept := List.all_eq_true.mp hall c hseparator
  rw [h] at hkept
  cases hkept

theorem selected_iff_same_lost_lamp :
    (∃ selected, (lampObservation [("color", "BLACK")]).selectedVariant.get "color" =
        some selected ∧
      spoken (asciiRuntime [] []) isAsciiSeparator selected =
        spoken (asciiRuntime [] []) isAsciiSeparator "black") ↔
      ∃ selected, (lampObservation [("color", "BLACK")]).selectedVariant.get "color" =
          some selected ∧
        lost (asciiRuntime [] []) isAsciiSeparator selected =
          lost (asciiRuntime [] []) isAsciiSeparator "black" := by
  have hvalid : validateObservation (asciiRuntime [] []) (lampObservation [("color", "BLACK")])
      (lampPlan "black") = .ok () := by decide +kernel
  exact selected_iff_same_lost isAsciiSeparator_eq_false hvalid ⟨by simp [lampPlan], by decide⟩

/-- A colour without ASCII letters is accepted although none is selected. -/
theorem red_in_chinese_accepted :
    ¬ ∀ (runtime : Runtime) (isSeparator : Char → Bool) (observation : Observation)
      (plan : MonitorPlanV1) (attributeName expected : String),
      (∀ c, isKept c = true → isSeparator c = false) →
      validateObservation runtime observation plan = .ok () →
      Requested plan attributeName expected →
      ∃ selected, observation.selectedVariant.get attributeName = some selected ∧
        spoken runtime isSeparator selected = spoken runtime isSeparator expected := by
  intro h
  obtain ⟨selected, hselected, -⟩ := h (asciiRuntime [] []) isAsciiSeparator (lampObservation [])
    (lampPlan "赤") "color" "赤" isAsciiSeparator_eq_false (by decide +kernel)
    ⟨by simp [lampPlan], by decide⟩
  cases hselected

end PriceScout.Worker.VariantChecks
