import PriceScout.Library.TwoRuns
import PriceScout.Worker.Extract

/-!
What a run of the extraction has read when it returns an observation, in the
order of its reads.
-/

namespace PriceScout.Worker.Observations

open PriceScout.Library.Attempts
open PriceScout.Library.JsonDocuments
open PriceScout.Library.JsStrings
open PriceScout.Worker.Contracts
open PriceScout.Worker.Environment
open PriceScout.Worker.Extract
open PriceScout.Worker.Validation

variable {W : Type} {runtime : Runtime} {outside : Outside W} {session : Session}
  {plan : MonitorPlanV1} {o : Observation}

/-- The text that the currency of an observation is taken from. -/
def currencyText (label : Option String) (parsed : ParsedPrice) (plan : MonitorPlanV1) : String :=
  (label.orElse fun _ => parsed.currency.map (·.code)).getD plan.expectedCurrency.code

/-- The texts of the extractors, in the order in which they are read. -/
structure Texts where
  title : String
  rawPrice : String
  availabilityRaw : String
  sku : Option String
  label : Option String

/-- Read the texts of a plan's extractors. -/
def readTexts (runtime : Runtime) (outside : Outside W) (session : Session)
    (plan : MonitorPlanV1) : Attempt JsError (W × Option JsonLdProduct) (Option Texts) := do
  let title ← readFirst runtime outside session (some plan.extractors.title) "title"
  let rawPrice ← readFirst runtime outside session (some plan.extractors.price) "price"
  let availabilityRaw ←
    readFirst runtime outside session (some plan.extractors.availability) "availability"
  match title, rawPrice, availabilityRaw with
  | some title, some rawPrice, some availabilityRaw =>
      let sku ← readFirst runtime outside session plan.extractors.sku "sku"
      let label ← readFirst runtime outside session plan.extractors.currency "currency"
      return some { title, rawPrice, availabilityRaw, sku, label }
  | _, _, _ => return none

theorem returns_extractObservation {w w' : W} :
    Returns (extractObservation runtime outside session plan) w o w' ↔
      ∃ jsonLd, Returns (extractFields runtime outside session plan) (w, none) o (w', jsonLd) := by
  unfold Returns
  simp only [extractObservation, outcome_act]
  generalize outcome (extractFields runtime outside session plan) (w, none) = done
  obtain ⟨result, w₁, jsonLd⟩ := done
  simp

section Moving

variable {T : W × Option JsonLdProduct → W × Option JsonLdProduct → Prop}
  (hrefl : ∀ w, T w w) (htrans : ∀ ⦃u v w⦄, T u v → T v w → T u w)
  {strategies : List ExtractionStrategy}
  (hread : ∀ strategy ∈ strategies, Moves T (readStrategy runtime outside session strategy))

include hrefl htrans hread

/-- Strategies in a row move the page as each of them does. -/
theorem moves_readFirstFrom (field : String) (errors : List String) :
    Moves T (readFirstFrom runtime outside session field errors strategies) := by
  induction strategies generalizing errors with
  | nil => exact .throw hrefl _
  | cons strategy rest ih =>
      have hrest := ih fun strategy h => hread strategy (List.mem_cons_of_mem _ h)
      rw [readFirstFrom]
      refine .bind htrans (.tryCatch htrans (.map htrans hrefl (hread strategy
        List.mem_cons_self)) fun _ => .pure hrefl _) fun value => ?_
      cases value with
      | error message => exact hrest _
      | ok value =>
          simp only
          split
          · exact hrest _
          · exact .pure hrefl _

end Moving

/-- The reads that give the texts, one after the other. -/
theorem returns_readTexts {texts : Texts} {w w' : W × Option JsonLdProduct} :
    Returns (readTexts runtime outside session plan) w (some texts) w' ↔
      ∃ w₁ w₂ w₃ w₄,
        Returns (readFirst runtime outside session (some plan.extractors.title) "title") w
          (some texts.title) w₁ ∧
        Returns (readFirst runtime outside session (some plan.extractors.price) "price") w₁
          (some texts.rawPrice) w₂ ∧
        Returns (readFirst runtime outside session (some plan.extractors.availability)
          "availability") w₂ (some texts.availabilityRaw) w₃ ∧
        Returns (readFirst runtime outside session plan.extractors.sku "sku") w₃ texts.sku w₄ ∧
        Returns (readFirst runtime outside session plan.extractors.currency "currency") w₄
          texts.label w' := by
  unfold readTexts
  constructor
  · intro h
    obtain ⟨title, w₁, htitle, h⟩ := returns_bind.mp h
    obtain ⟨rawPrice, w₂, hprice, h⟩ := returns_bind.mp h
    obtain ⟨availabilityRaw, w₃, havailability, h⟩ := returns_bind.mp h
    rcases title with _ | title
    · cases (returns_pure.mp h).1
    rcases rawPrice with _ | rawPrice
    · cases (returns_pure.mp h).1
    rcases availabilityRaw with _ | availabilityRaw
    · cases (returns_pure.mp h).1
    obtain ⟨sku, w₄, hsku, h⟩ := returns_bind.mp h
    obtain ⟨label, w₅, hlabel, h⟩ := returns_bind.mp h
    obtain ⟨htexts, rfl⟩ := returns_pure.mp h
    obtain rfl := Option.some.inj htexts
    exact ⟨w₁, w₂, w₃, w₄, htitle, hprice, havailability, hsku, hlabel⟩
  · rintro ⟨w₁, w₂, w₃, w₄, htitle, hprice, havailability, hsku, hlabel⟩
    refine returns_bind.mpr ⟨_, _, htitle, returns_bind.mpr ⟨_, _, hprice,
      returns_bind.mpr ⟨_, _, havailability, ?_⟩⟩⟩
    exact returns_bind.mpr ⟨_, _, hsku, returns_bind.mpr ⟨_, _, hlabel, returns_pure.mpr
      ⟨rfl, rfl⟩⟩⟩

theorem returns_extractFields {w w' : W × Option JsonLdProduct} :
    Returns (extractFields runtime outside session plan) w o w' ↔
      ∃ texts w₁ parsed currency selectedVariant inStock,
        Returns (readTexts runtime outside session plan) w (some texts) w₁ ∧
        parsePrice texts.rawPrice = .ok parsed ∧
        normalizeCurrency runtime (currencyText texts.label parsed plan) = .ok currency ∧
        Returns (readSelectedVariant runtime outside session [] plan.extractors.selectedVariant)
          w₁ selectedVariant w' ∧
        parseAvailability runtime texts.availabilityRaw = .ok inStock ∧
        o = { title := texts.title, sku := texts.sku, priceMinor := parsed.priceMinor, currency,
              inStock, availabilityRaw := texts.availabilityRaw, selectedVariant,
              rawPrice := texts.rawPrice,
              identityFingerprint := fingerprint runtime texts.title texts.sku } := by
  unfold extractFields
  constructor
  · intro h
    obtain ⟨title, w₁, htitle, h⟩ := returns_bind.mp h
    obtain ⟨rawPrice, w₂, hprice, h⟩ := returns_bind.mp h
    obtain ⟨availabilityRaw, w₃, havailability, h⟩ := returns_bind.mp h
    rcases title with _ | title
    · exact absurd h not_returns_throw
    rcases rawPrice with _ | rawPrice
    · exact absurd h not_returns_throw
    rcases availabilityRaw with _ | availabilityRaw
    · exact absurd h not_returns_throw
    obtain ⟨sku, w₄, hsku, h⟩ := returns_bind.mp h
    obtain ⟨label, w₅, hlabel, h⟩ := returns_bind.mp h
    obtain ⟨parsed, _, hcheck, h⟩ := returns_bind.mp h
    obtain ⟨hparsed, rfl⟩ := returns_check.mp hcheck
    obtain ⟨currency, _, hcheck, h⟩ := returns_bind.mp h
    obtain ⟨hcurrency, rfl⟩ := returns_check.mp hcheck
    obtain ⟨selectedVariant, _, hselected, h⟩ := returns_bind.mp h
    obtain ⟨inStock, _, hcheck, h⟩ := returns_bind.mp h
    obtain ⟨hstock, rfl⟩ := returns_check.mp hcheck
    obtain ⟨rfl, rfl⟩ := returns_pure.mp h
    exact ⟨⟨title, rawPrice, availabilityRaw, sku, label⟩, w₅, parsed, currency,
      selectedVariant, inStock, returns_readTexts.mpr ⟨w₁, w₂, w₃, w₄, htitle, hprice,
      havailability, hsku, hlabel⟩, hparsed, hcurrency, hselected, hstock, rfl⟩
  · rintro ⟨texts, w₅, parsed, currency, selectedVariant, inStock, htexts, hparsed, hcurrency,
      hselected, hstock, rfl⟩
    obtain ⟨w₁, w₂, w₃, w₄, htitle, hprice, havailability, hsku, hlabel⟩ :=
      returns_readTexts.mp htexts
    refine returns_bind.mpr ⟨_, _, htitle, returns_bind.mpr ⟨_, _, hprice,
      returns_bind.mpr ⟨_, _, havailability, ?_⟩⟩⟩
    refine returns_bind.mpr ⟨_, _, hsku, returns_bind.mpr ⟨_, _, hlabel, ?_⟩⟩
    refine returns_bind.mpr ⟨_, _, returns_check.mpr ⟨hparsed, rfl⟩, ?_⟩
    refine returns_bind.mpr ⟨_, _, returns_check.mpr ⟨hcurrency, rfl⟩, ?_⟩
    refine returns_bind.mpr ⟨_, _, hselected, ?_⟩
    exact returns_bind.mpr ⟨_, _, returns_check.mpr ⟨hstock, rfl⟩, returns_pure.mpr ⟨rfl, rfl⟩⟩

/-! A page whose nodes and scripts stay as they are. -/

/-- A page by the texts of its nodes and its JSON-LD scripts. -/
structure ShopPage where
  texts : Record
  scripts : List String

def ShopPage.still (page : ShopPage) : StillPage where
  address := "93.184.216.34"
  url := "https://shop.example/lamp"
  texts := page.texts
  snapshot := { formattedTree := "", xpathMap := [] }
  semantic :=
    { title := "", currentPriceText := "", currency := "", availability := "", sku := none }
  intent := { requestedVariant := [], currency := none }
  nodes :=
    { titleNodeId := "", currentPriceNodeId := "", availabilityNodeId := ""
      currencyNodeId := none, skuNodeId := none, variantNodeIds := [] }
  screenshot := { byteLength := 0, sha256 := "" }

def ShopPage.shown (page : ShopPage) : Outside Unit :=
  { page.still.outside with
    jsonLdCount := fun _ => pure page.scripts.length
    jsonLdText := fun _ index => pure (page.scripts.getD index "") }

/-- The runtime for texts of ASCII characters and the scripts that are listed. -/
def shopRuntime (scripts : List (String × Json)) : Runtime :=
  { asciiRuntime [] [] with
    parseJson := fun text => (scripts.find? fun entry => entry.1 = text).map (·.2) }

/-- What the extraction makes of a page, by a property that can be computed. -/
theorem exists_observation (runtime : Runtime) (session : Session) (plan : MonitorPlanV1)
    (page : ShopPage) (p : Observation → Bool)
    (h : (match (outcome (extractObservation runtime page.shown session plan) ()).1 with
      | .ok o => p o
      | .error _ => false) = true) :
    ∃ o, Returns (extractObservation runtime page.shown session plan) () o () ∧ p o = true := by
  split at h
  · rename_i o ho
    exact ⟨o, Prod.ext ho (Subsingleton.elim _ _), h⟩
  · cases h

end PriceScout.Worker.Observations
