import PriceScout.Worker.Observations

/-!
Where the currency of an observation comes from: a label of its own, else the
price text, else the plan.
-/

namespace PriceScout.Worker.CurrencySources

open PriceScout.Library.Attempts
open PriceScout.Library.JsStrings
open PriceScout.Worker.Contracts
open PriceScout.Worker.Environment
open PriceScout.Worker.Extract
open PriceScout.Worker.Observations
open PriceScout.Worker.Validation

variable {W : Type} {runtime : Runtime} {outside : Outside W} {session : Session}
  {plan : MonitorPlanV1} {o : Observation} {w w' : W}

/-- A run of the extraction gives an observation that the plan accepts. -/
structure Verified (runtime : Runtime) (outside : Outside W) (session : Session)
    (plan : MonitorPlanV1) (w : W) (o : Observation) (w' : W) : Prop where
  extracted : Returns (extractObservation runtime outside session plan) w o w'
  valid : validateObservation runtime o plan = .ok ()

/-- The price text on its own denotes a currency. -/
def Denotes (rawPrice : String) (c : SupportedCurrency) : Prop :=
  ∃ parsed, parsePrice rawPrice = .ok parsed ∧ parsed.currency = some c

/-- The currency label that a page gives for a plan, if it gives one, is one of
this currency. -/
def LabelAgrees (runtime : Runtime) (outside : Outside W) (session : Session)
    (plan : MonitorPlanV1) (w : W) (c : SupportedCurrency) : Prop :=
  ∀ texts w₁, Returns (readTexts runtime outside session plan) (w, none) (some texts) w₁ →
    ∀ label ∈ texts.label, normalizeCurrency runtime label = .ok c

/-- The codes of the supported currencies are upper case. -/
def KeepsCodes (runtime : Runtime) : Prop :=
  ∀ c : SupportedCurrency, runtime.toUpperCase c.code = c.code

theorem normalizeCurrency_code (h : KeepsCodes runtime) (c : SupportedCurrency) :
    normalizeCurrency runtime c.code = .ok c := by
  have htrim : trim c.code = c.code := by cases c <;> rfl
  unfold normalizeCurrency
  rw [htrim, h c]
  cases c <;> rfl

/-- What the run of an observation has read. -/
theorem exists_texts (h : Returns (extractObservation runtime outside session plan) w o w') :
    ∃ texts w₁ parsed, Returns (readTexts runtime outside session plan) (w, none) (some texts) w₁ ∧
      texts.rawPrice = o.rawPrice ∧ parsePrice o.rawPrice = .ok parsed ∧
      normalizeCurrency runtime (currencyText texts.label parsed plan) = .ok o.currency := by
  obtain ⟨_, hfields⟩ := returns_extractObservation.mp h
  obtain ⟨texts, w₁, parsed, currency, selectedVariant, inStock, hread, hparsed, hcurrency, -, -,
    rfl⟩ := returns_extractFields.mp hfields
  exact ⟨texts, w₁, parsed, hread, rfl, hparsed, hcurrency⟩

/-- **The currency of a verified observation is the one that its price text
denotes if and only if no currency label of the page contradicts it.** -/
theorem currency_eq_iff_labelAgrees (hcodes : KeepsCodes runtime)
    (h : Verified runtime outside session plan w o w') {c : SupportedCurrency}
    (hdenotes : Denotes o.rawPrice c) :
    o.currency = c ↔ LabelAgrees runtime outside session plan w c := by
  obtain ⟨texts, w₁, parsed, hread, -, hparsed, hcurrency⟩ := exists_texts h.extracted
  obtain ⟨_, hsame, hdenoted⟩ := hdenotes
  obtain rfl := Except.ok.inj (hparsed.symm.trans hsame)
  constructor
  · rintro rfl texts' w₁' hread' label hlabel
    obtain ⟨htexts, -⟩ := hread.unique hread'
    obtain rfl := Option.some.inj htexts
    rw [Option.mem_def] at hlabel
    rwa [currencyText, hlabel] at hcurrency
  · intro hagrees
    cases hlabel : texts.label with
    | none =>
        rw [currencyText, hlabel, hdenoted] at hcurrency
        have hcode := normalizeCurrency_code hcodes c
        exact Except.ok.inj (hcurrency.symm.trans hcode)
    | some label =>
        have hcode := hagrees texts w₁ hread label hlabel
        rw [currencyText, hlabel] at hcurrency
        exact Except.ok.inj (hcurrency.symm.trans hcode)

/-! The lamp of a shop that labels its prices. -/

def lampPlan (expectedCurrency : SupportedCurrency) : MonitorPlanV1 where
  canonicalUrl := "https://shop.example/lamp"
  identity :=
    { title := "Desk Lamp", brand := none, sku := none, fingerprint := "", requestedVariant := [] }
  preparationSteps := []
  extractors :=
    { title := [.xpathText "xpath=/html/body/h1" none]
      price := [.xpathText "xpath=/html/body/p[1]" none]
      currency := some [.xpathText "xpath=/html/body/p[2]" none]
      availability := [.xpathText "xpath=/html/body/p[3]" none]
      selectedVariant := []
      sku := none }
  expectedCurrency

def lampPage (price label : String) : ShopPage where
  texts :=
    [("xpath=/html/body/h1", "Desk Lamp"), ("xpath=/html/body/p[1]", price),
     ("xpath=/html/body/p[2]", label), ("xpath=/html/body/p[3]", "In stock")]
  scripts := []

theorem keepsCodes_shopRuntime : KeepsCodes (shopRuntime []) := by
  intro c
  cases c <;> rfl

theorem verified_lamp (price label : String) (c : SupportedCurrency)
    (h : (match (outcome (extractObservation (shopRuntime []) (lampPage price label).shown .main
        (lampPlan c)) ()).1 with
      | .ok o => decide (o.rawPrice = price ∧ o.currency = c ∧
          validateObservation (shopRuntime []) o (lampPlan c) = .ok ())
      | .error _ => false) = true) :
    ∃ o, Verified (shopRuntime []) (lampPage price label).shown .main (lampPlan c) () o () ∧
      o.rawPrice = price ∧ o.currency = c := by
  obtain ⟨o, ho, hdecided⟩ := exists_observation _ _ _ _ _ h
  obtain ⟨hprice, hcurrency, hvalid⟩ := of_decide_eq_true hdecided
  exact ⟨o, ⟨ho, hvalid⟩, hprice, hcurrency⟩

theorem currency_eq_iff_labelAgrees_lamp :
    ∃ o, Verified (shopRuntime []) (lampPage "$19.00" "USD").shown .main (lampPlan .usd) () o () ∧
      (o.currency = .usd ↔ LabelAgrees (shopRuntime []) (lampPage "$19.00" "USD").shown .main
        (lampPlan .usd) () .usd) := by
  obtain ⟨o, ho, hprice, -⟩ := verified_lamp "$19.00" "USD" .usd (by decide +kernel)
  have hparsed : parsePrice "$19.00" = .ok ⟨.finite 1900, some .usd⟩ := by decide +kernel
  exact ⟨o, ho, currency_eq_iff_labelAgrees keepsCodes_shopRuntime ho
    ⟨_, by rw [hprice, hparsed], rfl⟩⟩

/-- A label of the expected currency makes a price in another currency pass. -/
theorem labelled_dollars_verified :
    ¬ ∀ (runtime : Runtime) (outside : Outside Unit) (session : Session) (plan : MonitorPlanV1)
      (w w' : Unit) (o : Observation) (c : SupportedCurrency), KeepsCodes runtime →
      Verified runtime outside session plan w o w' → Denotes o.rawPrice c → o.currency = c := by
  intro h
  obtain ⟨o, ho, hprice, hcurrency⟩ := verified_lamp "$19.00" "EUR" .eur (by decide +kernel)
  have hparsed : parsePrice "$19.00" = .ok ⟨.finite 1900, some .usd⟩ := by decide +kernel
  have hsame := h _ _ _ _ () () o .usd keepsCodes_shopRuntime ho
    ⟨_, by rw [hprice, hparsed], rfl⟩
  rw [hcurrency] at hsame
  cases hsame

end PriceScout.Worker.CurrencySources
