import PriceScout.Worker.Contracts

/-!
Which evidence a compiled plan may fall back on. The JSON-LD of a page describes
the default offer, so only a monitor without a variant may take its price and
its availability from there.
-/

namespace PriceScout.Worker.ExtractorPolicy

open PriceScout.Worker.Contracts

structure LiveExtractorInputs where
  requestedVariant : Record
  title : ExtractionStrategy
  sku : Option ExtractionStrategy
  price : ExtractionStrategy
  currency : Option ExtractionStrategy
  availability : ExtractionStrategy
  selectedVariant : List ExtractionStrategy

def LiveExtractorInputs.variantBound (input : LiveExtractorInputs) : Bool :=
  !input.requestedVariant.isEmpty

def buildLiveExtractors (input : LiveExtractorInputs) : Extractors where
  title := [input.title, .jsonLd .title]
  sku := match input.sku with
    | none => if input.variantBound then none else some [.jsonLd .sku]
    | some sku => some (if input.variantBound then [sku] else [sku, .jsonLd .sku])
  price := if input.variantBound then [input.price] else [input.price, .jsonLd .price]
  currency := some (match input.currency with
    | some currency => [currency, .jsonLd .currency]
    | none => [.jsonLd .currency])
  availability :=
    if input.variantBound then [input.availability]
    else [input.availability, .jsonLd .availability]
  selectedVariant := input.selectedVariant

end PriceScout.Worker.ExtractorPolicy
