import PriceScout.Library.TwoRuns
import PriceScout.Worker.ExtractorPolicy
import PriceScout.Worker.Observations

/-!
Two pages that differ in their JSON-LD only: of a monitor with a variant, what
is read of one is what is read of the other, the title and the currency apart.
-/

namespace PriceScout.Worker.JsonLdIndependence

open PriceScout.Library.Attempts
open PriceScout.Library.JsonDocuments
open PriceScout.Worker.Contracts
open PriceScout.Worker.Environment
open PriceScout.Worker.Extract
open PriceScout.Worker.ExtractorPolicy
open PriceScout.Worker.Observations
open PriceScout.Worker.Validation

def isDom : ExtractionStrategy → Prop
  | .xpathText _ _ => True
  | .inputValue _ _ => True
  | .jsonLd _ => False

/-- Every evidence that a compiler has picked for a plan is a node of the page. -/
structure DomInputs (input : LiveExtractorInputs) : Prop where
  title : isDom input.title
  sku : ∀ strategy ∈ input.sku, isDom strategy
  price : isDom input.price
  currency : ∀ strategy ∈ input.currency, isDom strategy
  availability : isDom input.availability

variable {W V : Type}

/-- Reading JSON-LD on the first page leaves it like the second one. -/
def StaysLeft (R : W → V → Prop) (w w' : W) : Prop :=
  ∀ v, R w v → R w' v

/-- Reading JSON-LD on the second page leaves it like the first one. -/
def StaysRight (R : W → V → Prop) (v v' : V) : Prop :=
  ∀ w, R w v → R w v'

/-- Two pages that differ in their JSON-LD scripts only: in worlds alike but for
these, every node reads the same, and reading scripts leaves the worlds alike. -/
structure DifferInJsonLd (first : Outside W) (second : Outside V) (session : Session)
    (R : W → V → Prop) : Prop where
  innerText : ∀ selector,
    Agree R (first.innerText session selector) (second.innerText session selector)
  inputValue : ∀ selector,
    Agree R (first.inputValue session selector) (second.inputValue session selector)
  first_count : Moves (StaysLeft R) (first.jsonLdCount session)
  first_text : ∀ index, Moves (StaysLeft R) (first.jsonLdText session index)
  second_count : Moves (StaysRight R) (second.jsonLdCount session)
  second_text : ∀ index, Moves (StaysRight R) (second.jsonLdText session index)

/-- Worlds that are alike, whatever JSON-LD has been read in them. -/
def Alike (R : W → V → Prop) (w : W × Option JsonLdProduct) (v : V × Option JsonLdProduct) :
    Prop :=
  R w.1 v.1

/-- A move of the page, whatever becomes of the JSON-LD that is kept. -/
def OnPage (T : W → W → Prop) (w w' : W × Option JsonLdProduct) : Prop :=
  T w.1 w'.1

variable {T : W → W → Prop} {outside : Outside W} {session : Session} {runtime : Runtime}

section Scripts

variable (hrefl : ∀ w, T w w) (htrans : ∀ ⦃u v w⦄, T u v → T v w → T u w)
  (htext : ∀ index, Moves T (outside.jsonLdText session index))
  (hcount : Moves T (outside.jsonLdCount session))

include hrefl htrans htext

theorem moves_readScripts (n index : Nat) :
    Moves T (readScripts runtime outside session n index) := by
  induction n generalizing index with
  | zero => exact .pure hrefl none
  | succ n ih =>
      rw [readScripts]
      refine .bind htrans (.tryCatch htrans (htext index) fun _ => .pure hrefl "") fun raw => ?_
      split
      · exact ih (index + 1)
      · split
        · exact .pure hrefl _
        · exact ih (index + 1)

include hcount

theorem moves_readProductJsonLd : Moves T (readProductJsonLd runtime outside session) :=
  .bind htrans hcount fun _ => moves_readScripts hrefl htrans htext _ _

theorem moves_loadJsonLd : Moves (OnPage T) (loadJsonLd runtime outside session) := by
  rintro ⟨w, jsonLd⟩
  have hread : Moves T (readProductJsonLd runtime outside session) :=
    moves_readProductJsonLd hrefl htrans htext hcount
  specialize hread w
  simp only [loadJsonLd, outcome_act]
  cases jsonLd with
  | some product => exact hrefl w
  | none =>
      generalize outcome (readProductJsonLd runtime outside session) w = result at hread ⊢
      obtain ⟨_ | product, w'⟩ := result
      · exact hread
      · exact hread

theorem moves_readStrategy {strategy : ExtractionStrategy} (hjsonLd : ¬ isDom strategy) :
    Moves (OnPage T) (readStrategy runtime outside session strategy) := by
  have honPage : ∀ w, OnPage T w w := fun w => hrefl w.1
  have hcomposed : ∀ ⦃u v w⦄, OnPage T u v → OnPage T v w → OnPage T u w :=
    fun _ _ _ h h' => htrans h h'
  cases strategy with
  | xpathText selector name => exact absurd True.intro hjsonLd
  | inputValue selector name => exact absurd True.intro hjsonLd
  | jsonLd field =>
      refine .bind hcomposed (moves_loadJsonLd hrefl htrans htext hcount) fun product => ?_
      cases product with
      | none => exact .throw honPage _
      | some product =>
          simp only [check]
          split
          · exact .pure honPage _
          · exact .throw honPage _

end Scripts

section Pages

variable {R : W → V → Prop} {first : Outside W} {second : Outside V}

theorem DifferInJsonLd.agree_readStrategy (h : DifferInJsonLd first second session R)
    {strategy : ExtractionStrategy} (hdom : isDom strategy) :
    Agree (Alike R) (readStrategy runtime first session strategy)
      (readStrategy runtime second session strategy) := by
  cases strategy with
  | xpathText selector name => exact .onFst (h.innerText selector)
  | inputValue selector name => exact .onFst (h.inputValue selector)
  | jsonLd field => exact hdom.elim

/-- A strategy of the DOM, with its failure as a value. -/
theorem DifferInJsonLd.agree_attempt (h : DifferInJsonLd first second session R)
    {strategy : ExtractionStrategy} (hdom : isDom strategy) :
    Agree (Alike R)
      (tryCatch (Except.ok <$> readStrategy runtime first session strategy)
        fun error => pure (Except.error error.message))
      (tryCatch (Except.ok <$> readStrategy runtime second session strategy)
        fun error => pure (Except.error error.message)) :=
  .tryCatch (.map _ (h.agree_readStrategy hdom)) fun _ => .pure _

theorem DifferInJsonLd.agree_readFirstFrom (h : DifferInJsonLd first second session R)
    {strategies : List ExtractionStrategy} (hdom : ∀ strategy ∈ strategies, isDom strategy)
    (field : String) (errors : List String) :
    Agree (Alike R) (readFirstFrom runtime first session field errors strategies)
      (readFirstFrom runtime second session field errors strategies) := by
  induction strategies generalizing errors with
  | nil => exact .throw _
  | cons strategy rest ih =>
      have hrest := ih fun strategy h => hdom strategy (List.mem_cons_of_mem _ h)
      rw [readFirstFrom, readFirstFrom]
      refine .bind (h.agree_attempt (hdom strategy (by simp))) fun value => ?_
      cases value with
      | error message => exact hrest _
      | ok value =>
          simp only
          split
          · exact hrest _
          · exact .pure _

/-- A text that JSON-LD may stand in for when the DOM has none: the pages stay
alike, whatever the texts are. -/
theorem DifferInJsonLd.both_readFirstFrom (h : DifferInJsonLd first second session R)
    {dom jsonLd : List ExtractionStrategy} (hdom : ∀ strategy ∈ dom, isDom strategy)
    (hjsonLd : ∀ strategy ∈ jsonLd, ¬ isDom strategy) (field : String) (errors : List String) :
    Both (Alike R) (readFirstFrom runtime first session field errors (dom ++ jsonLd))
      (readFirstFrom runtime second session field errors (dom ++ jsonLd)) fun _ _ => True := by
  induction dom generalizing errors with
  | nil =>
      have hleft : Moves (OnPage (StaysLeft R))
          (readFirstFrom runtime first session field errors jsonLd) :=
        moves_readFirstFrom (fun _ _ hv => hv) (fun _ _ _ hu hv v hworlds => hv v (hu v hworlds))
          (fun strategy hmem => moves_readStrategy (fun _ _ hv => hv)
            (fun _ _ _ hu hv v hworlds => hv v (hu v hworlds)) h.first_text h.first_count
            (hjsonLd strategy hmem)) field errors
      have hright : Moves (OnPage (StaysRight R))
          (readFirstFrom runtime second session field errors jsonLd) :=
        moves_readFirstFrom (fun _ _ hw => hw) (fun _ _ _ hu hv w hworlds => hv w (hu w hworlds))
          (fun strategy hmem => moves_readStrategy (fun _ _ hw => hw)
            (fun _ _ _ hu hv w hworlds => hv w (hu w hworlds)) h.second_text h.second_count
            (hjsonLd strategy hmem)) field errors
      exact .of_moves hleft hright (fun hmove hworlds => hmove _ hworlds)
        fun hmove hworlds => hmove _ hworlds
  | cons strategy rest ih =>
      have hrest := ih fun strategy h => hdom strategy (List.mem_cons_of_mem _ h)
      rw [List.cons_append, readFirstFrom, readFirstFrom]
      refine .bind (.of_agree (h.agree_attempt (hdom strategy (by simp)))) ?_
      rintro value _ rfl
      cases value with
      | error message => exact hrest _
      | ok value =>
          simp only
          split
          · exact hrest _
          · exact .pure True.intro

theorem DifferInJsonLd.agree_readFirst (h : DifferInJsonLd first second session R)
    {strategies : Option (List ExtractionStrategy)}
    (hdom : ∀ listed ∈ strategies, ∀ strategy ∈ listed, isDom strategy) (field : String) :
    Agree (Alike R) (readFirst runtime first session strategies field)
      (readFirst runtime second session strategies field) := by
  unfold readFirst
  split
  · exact .pure none
  · exact .pure none
  · rename_i listed _
    exact .map some (h.agree_readFirstFrom (hdom listed rfl) field [])

theorem DifferInJsonLd.both_readFirst (h : DifferInJsonLd first second session R)
    (dom jsonLd : List ExtractionStrategy) (hdom : ∀ strategy ∈ dom, isDom strategy)
    (hjsonLd : ∀ strategy ∈ jsonLd, ¬ isDom strategy) (field : String) :
    Both (Alike R) (readFirst runtime first session (some (dom ++ jsonLd)) field)
      (readFirst runtime second session (some (dom ++ jsonLd)) field) fun _ _ => True := by
  unfold readFirst
  split
  · exact .pure True.intro
  · exact .pure True.intro
  · rename_i hlisted
    cases hlisted
    exact .map (h.both_readFirstFrom hdom hjsonLd field []) fun _ _ _ => True.intro

theorem DifferInJsonLd.agree_readSelectedVariant (h : DifferInJsonLd first second session R)
    (strategies : List ExtractionStrategy) (selected : Record) :
    Agree (Alike R) (readSelectedVariant runtime first session selected strategies)
      (readSelectedVariant runtime second session selected strategies) := by
  induction strategies generalizing selected with
  | nil => exact .pure _
  | cons strategy rest ih =>
      rw [readSelectedVariant, readSelectedVariant]
      split
      · exact ih _
      · rename_i name hname
        have hdom : isDom strategy := by
          cases strategy with
          | xpathText selector name => exact True.intro
          | inputValue selector name => exact True.intro
          | jsonLd field => cases hname
        exact .bind (.tryCatch (h.agree_readStrategy hdom) fun _ => .pure _) fun _ => ih _

end Pages

section Observations

variable {R : W → V → Prop} {first : Outside W} {second : Outside V}
  {input : LiveExtractorInputs} {plan : MonitorPlanV1}

/-- Two observations with the same price, availability, SKU and variant. -/
structure SameOffer (o p : Observation) : Prop where
  priceMinor : o.priceMinor = p.priceMinor
  rawPrice : o.rawPrice = p.rawPrice
  inStock : o.inStock = p.inStock
  availabilityRaw : o.availabilityRaw = p.availabilityRaw
  sku : o.sku = p.sku
  selectedVariant : o.selectedVariant = p.selectedVariant

theorem both_check {α : Type} (x : Except JsError α) :
    Both (Alike R) (check x) (check x) Eq := by
  cases x with
  | ok a => exact .pure rfl
  | error e => exact .throw_left e

theorem both_check_of_any {α : Type} (x y : Except JsError α) :
    Both (Alike R) (check x) (check y) fun _ _ => True := by
  cases x with
  | error e => exact .throw_left e
  | ok a =>
      cases y with
      | error e => exact .throw_right e
      | ok b => exact .pure True.intro

/-- The currency may be read from the JSON-LD, so the two pages may differ in it. -/
theorem DifferInJsonLd.both_readCurrency (h : DifferInJsonLd first second session R)
    (hcurrency : ∀ strategy ∈ input.currency, isDom strategy) :
    Both (Alike R)
      (readFirst runtime first session (buildLiveExtractors input).currency "currency")
      (readFirst runtime second session (buildLiveExtractors input).currency "currency")
      fun _ _ => True := by
  cases hgiven : input.currency with
  | none =>
      simp only [buildLiveExtractors, hgiven]
      exact h.both_readFirst [] [.jsonLd .currency] (by simp) (by simp [isDom]) _
  | some currency =>
      simp only [buildLiveExtractors, hgiven]
      exact h.both_readFirst [currency] [.jsonLd .currency]
        (by simpa using hcurrency currency hgiven) (by simp [isDom]) _

theorem DifferInJsonLd.both_extractFields (h : DifferInJsonLd first second session R)
    (hinput : DomInputs input) (hvariant : input.requestedVariant ≠ [])
    (hplan : plan.extractors = buildLiveExtractors input) :
    Both (Alike R) (extractFields runtime first session plan)
      (extractFields runtime second session plan) SameOffer := by
  have hbound : input.variantBound = true := by
    simpa [LiveExtractorInputs.variantBound, List.isEmpty_iff] using hvariant
  have hprice : ∀ strategy ∈ [input.price], isDom strategy := by simpa using hinput.price
  have havailability : ∀ strategy ∈ [input.availability], isDom strategy := by
    simpa using hinput.availability
  have hsku : ∀ listed ∈ (buildLiveExtractors input).sku, ∀ strategy ∈ listed,
      isDom strategy := by
    have hsku := hinput.sku
    cases hgiven : input.sku with
    | none => simp [buildLiveExtractors, hgiven, hbound]
    | some sku => simpa [buildLiveExtractors, hgiven, hbound] using hsku sku hgiven
  unfold extractFields
  rw [hplan]
  refine (h.both_readFirst [input.title] [.jsonLd .title]
    (by simpa using hinput.title) (by simp [isDom]) "title").bind fun title title' _ => ?_
  refine (Both.of_agree (h.agree_readFirst (by simpa [buildLiveExtractors, hbound] using hprice)
    "price")).bind ?_
  rintro rawPrice _ rfl
  refine (Both.of_agree (h.agree_readFirst
    (by simpa [buildLiveExtractors, hbound] using havailability) "availability")).bind ?_
  rintro availabilityRaw _ rfl
  cases title with
  | none => exact .throw_left _
  | some title =>
  cases title' with
  | none => exact .throw_right _
  | some title' =>
  cases rawPrice with
  | none => exact .throw_left _
  | some rawPrice =>
  cases availabilityRaw with
  | none => exact .throw_left _
  | some availabilityRaw =>
  simp only
  refine (Both.of_agree (h.agree_readFirst hsku "sku")).bind ?_
  rintro sku _ rfl
  refine (h.both_readCurrency hinput.currency).bind fun label label' _ => ?_
  refine (both_check (parsePrice rawPrice)).bind ?_
  rintro parsed _ rfl
  refine (both_check_of_any _ _).bind fun currency currency' _ => ?_
  refine (Both.of_agree (h.agree_readSelectedVariant _ [])).bind ?_
  rintro selected _ rfl
  refine (both_check (parseAvailability runtime availabilityRaw)).bind ?_
  rintro inStock _ rfl
  exact .pure ⟨rfl, rfl, rfl, rfl, rfl, rfl⟩

end Observations

/-! The page of a black lamp, whose JSON-LD gives the price of a white one. -/

def lampInputs : LiveExtractorInputs where
  requestedVariant := [("color", "black")]
  title := .xpathText "xpath=/html/body/h1" none
  sku := none
  price := .xpathText "xpath=/html/body/p[1]" none
  currency := some (.xpathText "xpath=/html/body/p[2]" none)
  availability := .xpathText "xpath=/html/body/p[3]" none
  selectedVariant := [.inputValue "xpath=/html/body/select" (some "color")]

def lampPlan : MonitorPlanV1 where
  canonicalUrl := "https://shop.example/lamp"
  identity :=
    { title := "Desk Lamp", brand := none, sku := none, fingerprint := ""
      requestedVariant := lampInputs.requestedVariant }
  preparationSteps := []
  extractors := buildLiveExtractors lampInputs
  expectedCurrency := .usd

def lampPage (scripts : List String) : ShopPage where
  texts :=
    [("xpath=/html/body/h1", "Desk Lamp"), ("xpath=/html/body/p[1]", "$49.00"),
     ("xpath=/html/body/p[2]", "USD"), ("xpath=/html/body/p[3]", "In stock"),
     ("xpath=/html/body/select", "black")]
  scripts := scripts

def whiteScript : String :=
  "\x7b\"@type\":\"Product\",\"name\":\"Lamp\",\"offers\":\x7b\"price\":\"39.00\"\x7d\x7d"

def lampRuntime : Runtime :=
  shopRuntime [(whiteScript, .obj [("@type", .str "Product"), ("name", .str "Lamp"),
    ("offers", .obj [("price", .str "39.00")])])]

theorem lampPages_differInJsonLd (scripts scripts' : List String) (session : Session) :
    DifferInJsonLd (lampPage scripts).shown (lampPage scripts').shown session
      fun _ _ => True where
  innerText selector := by
    rintro ⟨⟩ ⟨⟩ -
    exact ⟨rfl, True.intro⟩
  inputValue selector := by
    rintro ⟨⟩ ⟨⟩ -
    exact ⟨rfl, True.intro⟩
  first_count := fun _ _ h => h
  first_text := fun _ _ _ h => h
  second_count := fun _ _ h => h
  second_text := fun _ _ _ h => h

theorem lampInputs_dom : DomInputs lampInputs where
  title := True.intro
  sku := by simp [lampInputs]
  price := True.intro
  currency := by simp [lampInputs, isDom]
  availability := True.intro

end PriceScout.Worker.JsonLdIndependence
