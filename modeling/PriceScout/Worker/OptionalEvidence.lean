import PriceScout.Worker.ExtractorPolicy
import PriceScout.Worker.Observations

/-!
Pages on which the nodes of a compiled plan can be read, and what else they
must show for an observation: a SKU and a currency for which no node is given
are asked of the JSON-LD.
-/

namespace PriceScout.Worker.OptionalEvidence

open PriceScout.Library.Attempts
open PriceScout.Library.JsonDocuments
open PriceScout.Library.JsStrings
open PriceScout.Worker.Contracts
open PriceScout.Worker.Environment
open PriceScout.Worker.Extract
open PriceScout.Worker.ExtractorPolicy
open PriceScout.Worker.Observations
open PriceScout.Worker.Validation

variable {W : Type}

/-- What a page shows where a plan looks for it. -/
structure ShownTexts where
  title : String
  price : String
  availability : String
  sku : Option String
  currency : Option String
  jsonLd : Except JsError (Option JsonLdProduct)

section Reading

variable (runtime : Runtime) (outside : Outside W) (session : Session)

/-- A strategy reads this text, whenever it is asked. -/
def Reads (strategy : ExtractionStrategy) (text : String) : Prop :=
  text ≠ "" ∧ ∀ w : W × Option JsonLdProduct, ∃ raw w',
    Returns (readStrategy runtime outside session strategy) w raw w' ∧ trim raw = text

/-- The nodes of the inputs can be read and show these texts, the price is one
with a supported currency, and the availability is recognized. -/
structure Readable (input : LiveExtractorInputs) (page : ShownTexts) : Prop where
  title : Reads runtime outside session input.title page.title
  price : Reads runtime outside session input.price page.price
  availability : Reads runtime outside session input.availability page.availability
  sku : Option.Rel (Reads runtime outside session) input.sku page.sku
  currency : Option.Rel (Reads runtime outside session) input.currency page.currency
  jsonLd : ∀ w, (outcome (readProductJsonLd runtime outside session) w).1 = page.jsonLd
  priced : ∃ parsed c, parsePrice page.price = .ok parsed ∧ parsed.currency = some c
  recognized : ∃ inStock, parseAvailability runtime page.availability = .ok inStock

end Reading

/-- The JSON-LD of a page gives a text for a field. -/
def ShownTexts.Gives (page : ShownTexts) (field : JsonLdField) (text : String) : Prop :=
  text ≠ "" ∧ ∃ product value, page.jsonLd = .ok (some product) ∧
    jsonLdField product field = .ok value ∧ trim value = text

/-- A SKU is not asked for, or there is one. -/
def SkuShown (input : LiveExtractorInputs) (page : ShownTexts) : Prop :=
  input.sku.isSome ∨ input.variantBound = true ∨ ∃ text, page.Gives .sku text

/-- The currency node, or the JSON-LD when none is given, shows a supported currency. -/
def CurrencyShown (runtime : Runtime) (page : ShownTexts) : Prop :=
  ∃ label c, normalizeCurrency runtime label = .ok c ∧
    (page.currency = some label ∨ page.currency = none ∧ page.Gives .currency label)

variable {runtime : Runtime} {outside : Outside W} {session : Session}
  {input : LiveExtractorInputs} {page : ShownTexts} {plan : MonitorPlanV1}

/-- The JSON-LD that is kept is the one of the page. -/
def Cached (page : ShownTexts) (w : W × Option JsonLdProduct) : Prop :=
  ∀ product ∈ w.2, page.jsonLd = .ok (some product)

theorem outcome_loadJsonLd
    (hpage : ∀ w, (outcome (readProductJsonLd runtime outside session) w).1 = page.jsonLd)
    {w : W × Option JsonLdProduct} (h : Cached page w) :
    (outcome (loadJsonLd runtime outside session) w).1 = page.jsonLd ∧
      Cached page (outcome (loadJsonLd runtime outside session) w).2 := by
  obtain ⟨w, jsonLd⟩ := w
  have hread := hpage w
  simp only [loadJsonLd, outcome_act]
  cases jsonLd with
  | some product => exact ⟨(h product rfl).symm, h⟩
  | none =>
      generalize outcome (readProductJsonLd runtime outside session) w = result at hread ⊢
      obtain ⟨e | product, w'⟩ := result
      · exact ⟨hread, by simp [Cached]⟩
      · refine ⟨hread, ?_⟩
        rintro kept hkept
        obtain rfl := Option.mem_def.mp hkept
        exact hread.symm

/-- Reads keep what is kept of the JSON-LD right. -/
def Keeps (page : ShownTexts) (w w' : W × Option JsonLdProduct) : Prop :=
  Cached page w → Cached page w'

theorem moves_readStrategy
    (hpage : ∀ w, (outcome (readProductJsonLd runtime outside session) w).1 = page.jsonLd)
    (strategy : ExtractionStrategy) :
    Moves (Keeps page) (readStrategy runtime outside session strategy) := by
  cases strategy with
  | xpathText selector name => exact fun w h => h
  | inputValue selector name => exact fun w h => h
  | jsonLd field =>
      refine .bind (fun _ _ _ hu hv h => hv (hu h))
        (fun w h => (outcome_loadJsonLd hpage h).2) fun product => ?_
      cases product with
      | none => exact .throw (fun _ h => h) _
      | some product =>
          simp only [check]
          split
          · exact .pure (fun _ h => h) _
          · exact .throw (fun _ h => h) _

/-- What is kept of the JSON-LD stays right while a list is read. -/
theorem cached_of_returns_readFirst
    (hpage : ∀ w, (outcome (readProductJsonLd runtime outside session) w).1 = page.jsonLd)
    {strategies : Option (List ExtractionStrategy)} {field : String} {text : Option String}
    {w w' : W × Option JsonLdProduct} (h : Cached page w)
    (hreturns : Returns (readFirst runtime outside session strategies field) w text w') :
    Cached page w' := by
  unfold readFirst at hreturns
  split at hreturns
  · obtain ⟨-, rfl⟩ := returns_pure.mp hreturns
    exact h
  · obtain ⟨-, rfl⟩ := returns_pure.mp hreturns
    exact h
  · rename_i strategies _
    obtain ⟨_, hreturns, -⟩ := returns_map.mp hreturns
    have hmoves : Moves (Keeps page)
        (readFirstFrom runtime outside session field [] strategies) :=
      moves_readFirstFrom (fun _ h => h) (fun _ _ _ hu hv h => hv (hu h))
        (fun strategy _ => moves_readStrategy hpage strategy) field []
    have hafter := hmoves w h
    rwa [hreturns] at hafter

/-- A text that the first strategy reads is the text of the list. -/
theorem returns_readFirst_of_reads {strategy : ExtractionStrategy} {text : String}
    (h : Reads runtime outside session strategy text) (rest : List ExtractionStrategy)
    (field : String) (w : W × Option JsonLdProduct) :
    ∃ w', Returns (readFirst runtime outside session (some (strategy :: rest)) field) w
      (some text) w' := by
  obtain ⟨hne, hreads⟩ := h
  obtain ⟨raw, w', hraw, rfl⟩ := hreads w
  refine ⟨w', returns_map.mpr ⟨trim raw, ?_, rfl⟩⟩
  rw [readFirstFrom]
  refine returns_bind.mpr ⟨.ok raw, w', returns_tryCatch.mpr (.inl (returns_map.mpr
    ⟨raw, hraw, rfl⟩)), ?_⟩
  simp only [if_neg hne]
  exact returns_pure.mpr ⟨rfl, rfl⟩

/-- A list of one strategy gives what the strategy reads. -/
theorem returns_readFirstFrom_singleton {strategy : ExtractionStrategy} {field text : String}
    {errors : List String} {w w' : W × Option JsonLdProduct} :
    Returns (readFirstFrom runtime outside session field errors [strategy]) w text w' ↔
      ∃ raw, Returns (readStrategy runtime outside session strategy) w raw w' ∧
        trim raw = text ∧ text ≠ "" := by
  rw [readFirstFrom]
  constructor
  · intro h
    obtain ⟨value, w₁, hvalue, h⟩ := returns_bind.mp h
    cases value with
    | error message => exact absurd h not_returns_throw
    | ok value =>
        rcases returns_tryCatch.mp hvalue with hmap | ⟨error, w₂, -, hpure⟩
        · obtain ⟨raw, hread, hraw⟩ := returns_map.mp hmap
          obtain rfl := Except.ok.inj hraw
          by_cases hblank : trim raw = ""
          · simp only [if_pos hblank] at h
            exact absurd h not_returns_throw
          · simp only [if_neg hblank] at h
            obtain ⟨rfl, rfl⟩ := returns_pure.mp h
            exact ⟨raw, hread, rfl, hblank⟩
        · cases (returns_pure.mp hpure).1
  · rintro ⟨raw, hread, rfl, hne⟩
    refine returns_bind.mpr ⟨.ok raw, w', returns_tryCatch.mpr (.inl (returns_map.mpr
      ⟨raw, hread, rfl⟩)), ?_⟩
    simp only [if_neg hne]
    exact returns_pure.mpr ⟨rfl, rfl⟩

section JsonLd

variable
  (hpage : ∀ w, (outcome (readProductJsonLd runtime outside session) w).1 = page.jsonLd)
  {field : JsonLdField} {w : W × Option JsonLdProduct}

include hpage

theorem returns_readStrategy_jsonLd {value : String} (h : Cached page w) :
    (∃ w', Returns (readStrategy runtime outside session (.jsonLd field)) w value w') ↔
      ∃ product, page.jsonLd = .ok (some product) ∧ jsonLdField product field = .ok value := by
  have hload := (outcome_loadJsonLd hpage h).1
  constructor
  · rintro ⟨w', hreturns⟩
    obtain ⟨product, w₁, hproduct, hreturns⟩ := returns_bind.mp hreturns
    rw [hproduct] at hload
    cases product with
    | none => exact absurd hreturns not_returns_throw
    | some product => exact ⟨product, hload.symm, (returns_check.mp hreturns).1⟩
  · rintro ⟨product, hproduct, hfield⟩
    rw [hproduct] at hload
    exact ⟨_, returns_bind.mpr ⟨some product, _, Prod.ext hload rfl,
      returns_check.mpr ⟨hfield, rfl⟩⟩⟩

/-- What is read of the JSON-LD alone is what it gives. -/
theorem returns_readFirst_jsonLd {name : String} {text : Option String} (h : Cached page w) :
    (∃ w', Returns (readFirst runtime outside session (some [.jsonLd field]) name) w text w') ↔
      ∃ given ∈ text, page.Gives field given := by
  constructor
  · rintro ⟨w', hreturns⟩
    obtain ⟨given, hgiven, rfl⟩ := returns_map.mp hreturns
    obtain ⟨raw, hread, htrim, hne⟩ := returns_readFirstFrom_singleton.mp hgiven
    obtain ⟨product, hproduct, hfield⟩ := (returns_readStrategy_jsonLd hpage h).mp ⟨w', hread⟩
    exact ⟨given, rfl, hne, product, raw, hproduct, hfield, htrim⟩
  · rintro ⟨given, rfl, hne, product, raw, hproduct, hfield, htrim⟩
    obtain ⟨w', hread⟩ := (returns_readStrategy_jsonLd hpage h).mpr ⟨product, hproduct, hfield⟩
    exact ⟨w', returns_map.mpr ⟨given, returns_readFirstFrom_singleton.mpr
      ⟨raw, hread, htrim, hne⟩, rfl⟩⟩

end JsonLd

/-- The selected variant is read as far as it can be. -/
theorem exists_returns_readSelectedVariant (strategies : List ExtractionStrategy)
    (selected : Record) (w : W × Option JsonLdProduct) :
    ∃ read w', Returns (readSelectedVariant runtime outside session selected strategies) w
      read w' := by
  induction strategies generalizing selected w with
  | nil => exact ⟨selected, w, rfl⟩
  | cons strategy rest ih =>
      rw [readSelectedVariant]
      split
      · exact ih selected w
      · rcases hread : outcome (readStrategy runtime outside session strategy) w with ⟨e | raw, w₁⟩
        · obtain ⟨read, w', hrest⟩ := ih selected w₁
          refine ⟨read, w', returns_bind.mpr ⟨"", w₁, returns_tryCatch.mpr
            (.inr ⟨e, w₁, hread, rfl⟩), ?_⟩⟩
          simpa [trim] using hrest
        · obtain ⟨read, w', hrest⟩ := ih _ w₁
          exact ⟨read, w', returns_bind.mpr ⟨raw, w₁, returns_tryCatch.mpr (.inl hread), hrest⟩⟩

/-! The lists that the policy makes. -/

/-- The list of a field, which JSON-LD follows when the policy allows it, begins
with the node of the input. -/
theorem exists_title (h : Readable runtime outside session input page)
    (w : W × Option JsonLdProduct) :
    ∃ w', Returns (readFirst runtime outside session (some (buildLiveExtractors input).title)
      "title") w (some page.title) w' :=
  returns_readFirst_of_reads h.title _ _ w

theorem exists_price (h : Readable runtime outside session input page)
    (w : W × Option JsonLdProduct) :
    ∃ w', Returns (readFirst runtime outside session (some (buildLiveExtractors input).price)
      "price") w (some page.price) w' := by
  unfold buildLiveExtractors
  simp only
  split
  · exact returns_readFirst_of_reads h.price _ _ w
  · exact returns_readFirst_of_reads h.price _ _ w

theorem exists_availability (h : Readable runtime outside session input page)
    (w : W × Option JsonLdProduct) :
    ∃ w', Returns (readFirst runtime outside session
      (some (buildLiveExtractors input).availability) "availability") w
      (some page.availability) w' := by
  unfold buildLiveExtractors
  simp only
  split
  · exact returns_readFirst_of_reads h.availability _ _ w
  · exact returns_readFirst_of_reads h.availability _ _ w

/-- The SKU list gives one way or the other unless only JSON-LD could have it. -/
theorem exists_sku_iff (h : Readable runtime outside session input page)
    {w : W × Option JsonLdProduct} (hcached : Cached page w) :
    (∃ sku w', Returns (readFirst runtime outside session (buildLiveExtractors input).sku "sku")
      w sku w') ↔ SkuShown input page := by
  unfold SkuShown
  have hshown := h.sku
  cases hsku : input.sku with
  | some strategy =>
      have hlist : ∃ rest, (buildLiveExtractors input).sku = some (strategy :: rest) := by
        simp only [buildLiveExtractors, hsku]
        split
        · exact ⟨_, rfl⟩
        · exact ⟨_, rfl⟩
      obtain ⟨rest, hlist⟩ := hlist
      rw [hsku] at hshown
      generalize page.sku = shown at hshown
      cases hshown with
      | some hreads =>
          obtain ⟨w', hreturns⟩ := returns_readFirst_of_reads hreads rest "sku" w
          rw [hlist]
          exact ⟨fun _ => .inl rfl, fun _ => ⟨_, w', hreturns⟩⟩
  | none =>
      by_cases hbound : input.variantBound = true
      · simp only [buildLiveExtractors, hsku, hbound, if_true]
        exact ⟨fun _ => .inr (.inl trivial), fun _ => ⟨none, w, rfl⟩⟩
      · simp only [buildLiveExtractors, hsku, hbound]
        constructor
        · rintro ⟨sku, hreturns⟩
          obtain ⟨given, -, hgives⟩ := (returns_readFirst_jsonLd h.jsonLd hcached).mp hreturns
          exact .inr (.inr ⟨given, hgives⟩)
        · rintro (hgiven | hbound | ⟨given, hgives⟩)
          · cases hgiven
          · cases hbound
          · exact ⟨some given, (returns_readFirst_jsonLd h.jsonLd hcached).mpr
              ⟨given, rfl, hgives⟩⟩

/-- The currency list gives the text of its node, or what JSON-LD gives. -/
theorem exists_currency_iff (h : Readable runtime outside session input page)
    {w : W × Option JsonLdProduct} (hcached : Cached page w) {label : Option String} :
    (∃ w', Returns (readFirst runtime outside session (buildLiveExtractors input).currency
      "currency") w label w') ↔
      ∃ text ∈ label, page.currency = some text ∨
        page.currency = none ∧ page.Gives .currency text := by
  have hshown := h.currency
  cases hcurrency : input.currency with
  | some strategy =>
      rw [hcurrency] at hshown
      have hlist : (buildLiveExtractors input).currency = some [strategy, .jsonLd .currency] := by
        simp only [buildLiveExtractors, hcurrency]
      rw [hlist]
      cases hpage : page.currency with
      | none =>
          rw [hpage] at hshown
          cases hshown
      | some shown =>
          rw [hpage] at hshown
          cases hshown with
          | some hreads =>
              obtain ⟨w₁, hread⟩ := returns_readFirst_of_reads hreads [.jsonLd .currency]
                "currency" w
              constructor
              · rintro ⟨w', hreturns⟩
                obtain ⟨rfl, -⟩ := hread.unique hreturns
                exact ⟨shown, rfl, .inl rfl⟩
              · rintro ⟨text, rfl, htext | ⟨hnone, -⟩⟩
                · obtain rfl := Option.some.inj htext
                  exact ⟨w₁, hread⟩
                · cases hnone
  | none =>
      rw [hcurrency] at hshown
      have hlist : (buildLiveExtractors input).currency = some [.jsonLd .currency] := by
        simp only [buildLiveExtractors, hcurrency]
      have hpage : page.currency = none := by
        cases hpage : page.currency with
        | none => rfl
        | some shown =>
            rw [hpage] at hshown
            cases hshown
      rw [hlist, returns_readFirst_jsonLd h.jsonLd hcached, hpage]
      simp

/-- **On a page whose nodes can be read the extraction succeeds if and only if
the JSON-LD has the SKU and the currency for which no node is given.** -/
theorem succeeds_iff_shown (h : Readable runtime outside session input page)
    (hplan : plan.extractors = buildLiveExtractors input) (w : W) :
    (∃ o w', Returns (extractObservation runtime outside session plan) w o w') ↔
      SkuShown input page ∧ CurrencyShown runtime page := by
  have hstart : Cached page (w, none) := by
    rintro product ⟨⟩
  constructor
  · rintro ⟨o, w', hreturns⟩
    obtain ⟨_, hfields⟩ := returns_extractObservation.mp hreturns
    obtain ⟨texts, w₅, parsed, currency, -, -, hread, -, hcurrency, -⟩ :=
      returns_extractFields.mp hfields
    obtain ⟨w₁, w₂, w₃, w₄, htitle, hprice, havailability, hsku, hlabel⟩ :=
      returns_readTexts.mp hread
    rw [hplan] at hsku hlabel
    have hcached₁ := cached_of_returns_readFirst h.jsonLd hstart htitle
    have hcached₂ := cached_of_returns_readFirst h.jsonLd hcached₁ hprice
    have hcached₃ := cached_of_returns_readFirst h.jsonLd hcached₂ havailability
    have hcached₄ := cached_of_returns_readFirst h.jsonLd hcached₃ hsku
    refine ⟨(exists_sku_iff h hcached₃).mp ⟨_, _, hsku⟩, ?_⟩
    obtain ⟨label, hgiven, hshown⟩ := (exists_currency_iff h hcached₄).mp ⟨_, hlabel⟩
    rw [Option.mem_def] at hgiven
    rw [currencyText, hgiven] at hcurrency
    exact ⟨label, currency, hcurrency, hshown⟩
  · rintro ⟨hskuShown, label, currency, hcurrency, hshown⟩
    obtain ⟨parsed, _, hparsed, -⟩ := h.priced
    obtain ⟨inStock, hstock⟩ := h.recognized
    obtain ⟨w₁, htitle⟩ := exists_title h (w, none)
    obtain ⟨w₂, hprice⟩ := exists_price h w₁
    obtain ⟨w₃, havailability⟩ := exists_availability h w₂
    have hcached₁ := cached_of_returns_readFirst h.jsonLd hstart htitle
    have hcached₂ := cached_of_returns_readFirst h.jsonLd hcached₁ hprice
    have hcached₃ := cached_of_returns_readFirst h.jsonLd hcached₂ havailability
    obtain ⟨sku, w₄, hsku⟩ := (exists_sku_iff h hcached₃).mpr hskuShown
    have hcached₄ := cached_of_returns_readFirst h.jsonLd hcached₃ hsku
    obtain ⟨w₅, hlabel⟩ := (exists_currency_iff h hcached₄).mpr ⟨label, rfl, hshown⟩
    obtain ⟨selectedVariant, ⟨w', jsonLd⟩, hselected⟩ :
        ∃ selectedVariant w', Returns (readSelectedVariant runtime outside session []
          plan.extractors.selectedVariant) w₅ selectedVariant w' :=
      exists_returns_readSelectedVariant _ _ _
    refine ⟨_, w', returns_extractObservation.mpr ⟨jsonLd, returns_extractFields.mpr
      ⟨⟨page.title, page.price, page.availability, sku, some label⟩, w₅, parsed, currency,
        selectedVariant, inStock, ?_, hparsed, hcurrency, hselected, hstock, rfl⟩⟩⟩
    rw [← hplan] at htitle hprice havailability hsku hlabel
    exact returns_readTexts.mpr ⟨w₁, w₂, w₃, w₄, htitle, hprice, havailability, hsku, hlabel⟩

/-! The page of a lamp without JSON-LD. -/

def lampInputs (sku : Option ExtractionStrategy) : LiveExtractorInputs where
  requestedVariant := []
  title := .xpathText "xpath=/html/body/h1" none
  sku := sku
  price := .xpathText "xpath=/html/body/p[1]" none
  currency := some (.xpathText "xpath=/html/body/p[2]" none)
  availability := .xpathText "xpath=/html/body/p[3]" none
  selectedVariant := []

def lampPlan (sku : Option ExtractionStrategy) : MonitorPlanV1 where
  canonicalUrl := "https://shop.example/lamp"
  identity :=
    { title := "Desk Lamp", brand := none, sku := none, fingerprint := "", requestedVariant := [] }
  preparationSteps := []
  extractors := buildLiveExtractors (lampInputs sku)
  expectedCurrency := .usd

def lampPage : ShopPage where
  texts :=
    [("xpath=/html/body/h1", "Desk Lamp"), ("xpath=/html/body/p[1]", "$49.00"),
     ("xpath=/html/body/p[2]", "USD"), ("xpath=/html/body/p[3]", "In stock"),
     ("xpath=/html/body/p[4]", "LAMP-7")]
  scripts := []

def skuNode : ExtractionStrategy :=
  .xpathText "xpath=/html/body/p[4]" none

def lampTexts (sku : Option String) : ShownTexts where
  title := "Desk Lamp"
  price := "$49.00"
  availability := "In stock"
  sku := sku
  currency := some "USD"
  jsonLd := .ok none

theorem reads_node {selector text : String}
    (htext : lampPage.texts.get selector = some text) (htrim : trim text = text)
    (hne : text ≠ "") :
    Reads (shopRuntime []) lampPage.shown .main (.xpathText selector none) text := by
  refine ⟨hne, fun w => ⟨text, w, returns_onFst.mpr ⟨?_, rfl⟩, htrim⟩⟩
  show Returns (lampPage.still.read selector) w.1 text w.1
  have hread : lampPage.still.texts.get selector = some text := htext
  simp [StillPage.read, hread]

theorem reads_sku : Reads (shopRuntime []) lampPage.shown .main skuNode "LAMP-7" :=
  reads_node (by decide +kernel) (by decide +kernel) (by decide)

theorem readable_lamp {sku : Option ExtractionStrategy} {text : Option String}
    (hsku : Option.Rel (Reads (shopRuntime []) lampPage.shown .main) sku text) :
    Readable (shopRuntime []) lampPage.shown .main (lampInputs sku) (lampTexts text) := by
  have hparsed : parsePrice "$49.00" = .ok ⟨.finite 4900, some .usd⟩ := by decide +kernel
  have hstock : parseAvailability (shopRuntime []) "In stock" = .ok true := by decide +kernel
  have htitle : Reads (shopRuntime []) lampPage.shown .main
      (.xpathText "xpath=/html/body/h1" none) "Desk Lamp" :=
    reads_node (by decide +kernel) (by decide +kernel) (by decide)
  have hprice : Reads (shopRuntime []) lampPage.shown .main
      (.xpathText "xpath=/html/body/p[1]" none) "$49.00" :=
    reads_node (by decide +kernel) (by decide +kernel) (by decide)
  have hcurrency : Reads (shopRuntime []) lampPage.shown .main
      (.xpathText "xpath=/html/body/p[2]" none) "USD" :=
    reads_node (by decide +kernel) (by decide +kernel) (by decide)
  have havailability : Reads (shopRuntime []) lampPage.shown .main
      (.xpathText "xpath=/html/body/p[3]" none) "In stock" :=
    reads_node (by decide +kernel) (by decide +kernel) (by decide)
  exact
    { title := htitle
      price := hprice
      availability := havailability
      sku := hsku
      currency := .some hcurrency
      jsonLd := fun _ => rfl
      priced := ⟨_, .usd, hparsed, rfl⟩
      recognized := ⟨true, hstock⟩ }

theorem succeeds_iff_shown_lamp :
    (∃ o w', Returns (extractObservation (shopRuntime []) lampPage.shown .main
      (lampPlan (some skuNode))) () o w') ↔
      SkuShown (lampInputs (some skuNode)) (lampTexts (some "LAMP-7")) ∧
        CurrencyShown (shopRuntime []) (lampTexts (some "LAMP-7")) :=
  succeeds_iff_shown (readable_lamp (.some reads_sku)) rfl ()

/-- Without a SKU node the lamp cannot be read, for want of JSON-LD. -/
theorem lamp_without_sku_fails :
    ¬ ∀ (runtime : Runtime) (outside : Outside Unit) (session : Session)
      (input : LiveExtractorInputs) (page : ShownTexts) (plan : MonitorPlanV1),
      Readable runtime outside session input page →
      plan.extractors = buildLiveExtractors input →
      ∃ o w', Returns (extractObservation runtime outside session plan) () o w' := by
  intro h
  obtain ⟨o, w', hreturns⟩ := h _ _ _ _ _ (lampPlan none) (readable_lamp .none) rfl
  have hfails : (outcome (extractObservation (shopRuntime []) lampPage.shown .main
      (lampPlan none)) ()).1.isOk = false := by decide +kernel
  rw [hreturns] at hfails
  cases hfails

end PriceScout.Worker.OptionalEvidence
