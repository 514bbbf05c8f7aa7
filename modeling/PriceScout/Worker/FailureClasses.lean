import PriceScout.Library.CaseMappings
import PriceScout.Library.Searches
import PriceScout.Worker.Handler
import PriceScout.Worker.Observations

/-!
The class of a failed extraction, whose message quotes what the page and the
browser said.
-/

namespace PriceScout.Worker.FailureClasses

open PriceScout.Library.Attempts
open PriceScout.Library.CaseMappings
open PriceScout.Library.JsStrings
open PriceScout.Library.RegularExpressions
open PriceScout.Library.Searches hiding Fails
open PriceScout.Worker.Contracts
open PriceScout.Worker.Environment
open PriceScout.Worker.Extract
open PriceScout.Worker.Handler
open PriceScout.Worker.Observations

/-- The fields that are read through a list of strategies. -/
def fields : List String :=
  ["title", "price", "availability", "sku", "currency"]

/-- What is said of a field that cannot be read. -/
def unreadable (field : String) (errors : List String) : JsError :=
  .error ("No " ++ field ++ " extractor succeeded: " ++ "; ".intercalate errors)

variable {W : Type} {runtime : Runtime} {outside : Outside W} {session : Session}
  {plan : MonitorPlanV1}

/-- The extraction fails because no strategy of a field succeeded: its reads
themselves fail. -/
structure Unread (runtime : Runtime) (outside : Outside W) (session : Session)
    (plan : MonitorPlanV1) (w : W) (e : JsError) (w' : W) : Prop where
  failed : Fails (extractObservation runtime outside session plan) w e w'
  unread : ∃ jsonLd, Fails (readTexts runtime outside session plan) (w, none) e (w', jsonLd)

/-- A message speaks of a rate limit. -/
def NamesRateLimit (message : List Char) : Prop :=
  (∃ word ∈ ["429", "ratelimit", "retry-after"], word.toList <:+: message) ∨
    ∃ c, c.toNat ∉ [0x0a, 0x0d, 0x2028, 0x2029] ∧
      "rate".toList ++ c :: "limit".toList <:+: message

/-- A message speaks of a block. -/
def NamesBlock (message : List Char) : Prop :=
  ∃ word ∈ ["403", "captcha", "access denied", "blocked"], word.toList <:+: message

/-- The message as it is classified. -/
def classified (runtime : Runtime) (e : JsError) : List Char :=
  (runtime.toLowerCase (safeError e)).toList

theorem test_literal_opt_literal {p : Char → Bool} {first second : String}
    {text : List Char} :
    test (.all [.literal first, .opt (.charClass p), .literal second]) text = true ↔
      first.toList ++ second.toList <:+: text ∨
        ∃ c, p c = true ∧ first.toList ++ c :: second.toList <:+: text := by
  simp only [Regex.all, test_iff]
  constructor
  · rintro ⟨x, y, rfl, hne⟩
    obtain ⟨d, hd⟩ := List.exists_mem_of_ne_nil _ hne
    obtain ⟨_, hfirst, hd⟩ := mem_ends_seq.mp hd
    obtain ⟨z, rfl, rfl⟩ := (mem_ends_literal first).mp hfirst
    obtain ⟨_, hopt, hd⟩ := mem_ends_seq.mp hd
    rcases mem_ends_alt.mp hopt with hclass | hempty
    · obtain ⟨c, z, rfl, hc, rfl⟩ := mem_ends_charClass.mp hclass
      obtain ⟨z, rfl, -⟩ := (mem_ends_literal second).mp hd
      exact .inr ⟨c, hc, x, z, by simp⟩
    · obtain rfl := List.mem_singleton.mp hempty
      obtain ⟨z, rfl, -⟩ := (mem_ends_literal second).mp hd
      exact .inl ⟨x, z, by simp⟩
  · rintro (⟨x, z, rfl⟩ | ⟨c, hc, x, z, rfl⟩)
    · have hfirst := (mem_ends_literal (x := x) first).mpr ⟨second.toList ++ z, rfl, rfl⟩
      have hsecond := (mem_ends_literal (x := x ++ first.toList) second).mpr ⟨z, rfl, rfl⟩
      refine ⟨x, first.toList ++ (second.toList ++ z), by simp, List.ne_nil_of_mem
        (mem_ends_seq.mpr ⟨_, hfirst, mem_ends_seq.mpr ⟨_, ?_, hsecond⟩⟩)⟩
      exact mem_ends_alt.mpr (.inr (List.mem_singleton_self _))
    · have hfirst := (mem_ends_literal (x := x) first).mpr ⟨c :: (second.toList ++ z), rfl, rfl⟩
      have hsecond := (mem_ends_literal (x := x ++ first.toList ++ [c]) second).mpr ⟨z, rfl, rfl⟩
      refine ⟨x, first.toList ++ (c :: (second.toList ++ z)), by simp, List.ne_nil_of_mem
        (mem_ends_seq.mpr ⟨_, hfirst, mem_ends_seq.mpr ⟨_, ?_, hsecond⟩⟩)⟩
      exact mem_ends_alt.mpr (.inl (mem_ends_charClass.mpr ⟨c, _, rfl, hc, rfl⟩))

theorem test_rateLimitedPattern {message : List Char} :
    test rateLimitedPattern message = true ↔ NamesRateLimit message := by
  have hlimit : "rate".toList ++ "limit".toList = "ratelimit".toList := rfl
  unfold rateLimitedPattern NamesRateLimit
  rw [test_oneOf]
  constructor
  · rintro ⟨r, hr, htest⟩
    simp only [List.mem_cons, List.not_mem_nil, or_false] at hr
    rcases hr with rfl | rfl | rfl
    · exact .inl ⟨"429", by simp, test_literal.mp htest⟩
    · rcases test_literal_opt_literal.mp htest with hnone | ⟨c, hc, hone⟩
      · exact .inl ⟨"ratelimit", by simp, hlimit ▸ hnone⟩
      · exact .inr ⟨c, by simpa using hc, hone⟩
    · exact .inl ⟨"retry-after", by simp, test_literal.mp htest⟩
  · rintro (⟨word, hword, hfound⟩ | ⟨c, hc, hfound⟩)
    · simp only [List.mem_cons, List.not_mem_nil, or_false] at hword
      rcases hword with rfl | rfl | rfl
      · exact ⟨_, .head _, test_literal.mpr hfound⟩
      · exact ⟨_, .tail _ (.head _), test_literal_opt_literal.mpr (.inl (hlimit ▸ hfound))⟩
      · exact ⟨_, .tail _ (.tail _ (.head _)), test_literal.mpr hfound⟩
    · exact ⟨_, .tail _ (.head _), test_literal_opt_literal.mpr
        (.inr ⟨c, by simpa using hc, hfound⟩)⟩

theorem test_blockedPattern {message : List Char} :
    test blockedPattern message = true ↔ NamesBlock message :=
  test_literals

/-! What a failed read says. -/

/-- A strategy that fails is noted, so that only an empty list fails. -/
theorem not_fails_attempt {strategy : ExtractionStrategy} {e : JsError}
    {w w' : W × Option JsonLdProduct} :
    ¬ Fails (tryCatch (Except.ok <$> readStrategy runtime outside session strategy)
      fun error => pure (Except.error error.message)) w e w' := by
  unfold Fails
  rw [outcome_tryCatch]
  generalize outcome (Except.ok <$> readStrategy runtime outside session strategy) w = first
  obtain ⟨error | value, w₁⟩ := first
  · simp
  · simp

theorem unreadable_of_fails_readFirstFrom {strategies : List ExtractionStrategy} {field : String}
    {errors : List String} {e : JsError} {w w' : W × Option JsonLdProduct}
    (h : Fails (readFirstFrom runtime outside session field errors strategies) w e w') :
    ∃ errors, e = unreadable field errors := by
  induction strategies generalizing errors w with
  | nil => exact ⟨errors, Except.error.inj (congrArg Prod.fst h).symm⟩
  | cons strategy rest ih =>
      rw [readFirstFrom] at h
      rcases fails_bind.mp h with hattempt | ⟨value, w₁, -, hrest⟩
      · exact absurd hattempt not_fails_attempt
      · cases value with
        | error message => exact ih hrest
        | ok value =>
            simp only at hrest
            split at hrest
            · exact ih hrest
            · cases hrest

theorem unreadable_of_fails_readFirst {strategies : Option (List ExtractionStrategy)}
    {field : String} {e : JsError} {w w' : W × Option JsonLdProduct}
    (h : Fails (readFirst runtime outside session strategies field) w e w') :
    ∃ errors, e = unreadable field errors := by
  unfold readFirst at h
  split at h
  · cases h
  · cases h
  · exact unreadable_of_fails_readFirstFrom (fails_map.mp h)

/-- The reads of a plan fail for a field of which no strategy succeeds. -/
theorem unreadable_of_fails_readTexts {e : JsError} {w w' : W × Option JsonLdProduct}
    (h : Fails (readTexts runtime outside session plan) w e w') :
    ∃ field ∈ fields, ∃ errors, e = unreadable field errors := by
  unfold readTexts at h
  rcases fails_bind.mp h with htitle | ⟨title, w₁, -, h⟩
  · exact ⟨"title", by simp [fields], unreadable_of_fails_readFirst htitle⟩
  rcases fails_bind.mp h with hprice | ⟨rawPrice, w₂, -, h⟩
  · exact ⟨"price", by simp [fields], unreadable_of_fails_readFirst hprice⟩
  rcases fails_bind.mp h with havailability | ⟨availabilityRaw, w₃, -, h⟩
  · exact ⟨"availability", by simp [fields], unreadable_of_fails_readFirst havailability⟩
  split at h
  · rcases fails_bind.mp h with hsku | ⟨sku, w₄, -, h⟩
    · exact ⟨"sku", by simp [fields], unreadable_of_fails_readFirst hsku⟩
    rcases fails_bind.mp h with hlabel | ⟨label, w₅, -, h⟩
    · exact ⟨"currency", by simp [fields], unreadable_of_fails_readFirst hlabel⟩
    cases h
  · cases h

/-! The message that is classified begins as it was made. -/

/-- The beginning of a message about a field. -/
def opening (field : String) : List Char :=
  ("No " ++ field ++ " extractor succeeded: ").toList

theorem collapseRuns_append {p : Char → Bool} {x y : List Char} (hx : ∀ c ∈ x, p c = false) :
    collapseRuns p false (x ++ y) = x ++ collapseRuns p false y := by
  induction x with
  | nil => rfl
  | cons c x ih =>
      have hc := hx c List.mem_cons_self
      rw [List.cons_append, collapseRuns, if_neg (by simp [hc]),
        ih fun d hd => hx d (List.mem_cons_of_mem _ hd), List.cons_append]

theorem takeUnits_append {x y : List Char} {n : Nat} (hx : ∀ c ∈ x, c.toNat < 128)
    (hle : x.length ≤ n) : takeUnits n (x ++ y) = x ++ takeUnits (n - x.length) y := by
  induction x generalizing n with
  | nil => simp
  | cons c x ih =>
      have hunit : utf16Units c = 1 := by
        have hc := hx c List.mem_cons_self
        rw [utf16Units, if_pos (by omega)]
      have hrest := fun n h => ih (n := n) (fun d hd => hx d (List.mem_cons_of_mem _ hd)) h
      match n, hle with
      | 1, hle =>
          have hnil : x = [] := List.eq_nil_of_length_eq_zero (by simpa using hle)
          subst hnil
          cases y <;> simp [takeUnits, hunit]
      | n + 2, hle =>
          have hle' : x.length ≤ n + 1 := by simpa using hle
          have htaken := hrest (n + 1) hle'
          have hsub : n + 2 - (x.length + 1) = n + 1 - x.length := by omega
          rw [List.cons_append, takeUnits, hunit, List.length_cons, hsub,
            List.cons_append, ← htaken]
          rfl

theorem opening_ascii {field : String} (h : field ∈ fields) :
    ((opening field).all fun c => c.toNat < 128 && !(c = '\r' || c = '\n')) = true ∧
      (opening field).length ≤ 1000 ∧
      "extract".toList <:+: (opening field).map Char.toLower := by
  revert field
  decide

/-- A message about a field is one about an extractor, whatever it quotes. -/
theorem extract_infix_classified (hlower : LowersAscii runtime.toLowerCase) {field : String}
    (h : field ∈ fields) (errors : List String) :
    "extract".toList <:+: classified runtime (unreadable field errors) := by
  obtain ⟨hall, hlength, hextract⟩ := opening_ascii h
  have hascii : ∀ c ∈ opening field, c.toNat < 128 := fun c hc => by
    have hc := List.all_eq_true.mp hall c hc
    simp only [Bool.and_eq_true, decide_eq_true_eq] at hc
    exact hc.1
  have hline : ∀ c ∈ opening field, (decide (c = '\r') || decide (c = '\n')) = false :=
    fun c hc => by
      have hc := List.all_eq_true.mp hall c hc
      simp only [Bool.and_eq_true, Bool.not_eq_true'] at hc
      exact hc.2
  have hsafe : ∃ rest, safeError (unreadable field errors) =
      String.ofList (opening field ++ rest) := by
    refine ⟨takeUnits (1000 - (opening field).length) (collapseRuns
      (fun c => c = '\r' || c = '\n') false ("; ".intercalate errors).toList), ?_⟩
    rw [safeError, unreadable, JsError.message, slice, collapse, String.toList_ofList,
      String.toList_append]
    show String.ofList (takeUnits 1000 (collapseRuns _ false (opening field ++ _))) = _
    rw [collapseRuns_append hline, takeUnits_append hascii hlength]
  obtain ⟨rest, hsafe⟩ := hsafe
  obtain ⟨rest', hlowered⟩ := hlower.front (z := rest) hascii
  rw [classified, hsafe, hlowered]
  exact hextract.trans (List.prefix_append _ _).isInfix

/-- **A failed extraction counts as a stale plan if and only if nothing that its
message quotes speaks of a rate limit or a block.** -/
theorem stale_iff_names_no_other_cause (hlower : LowersAscii runtime.toLowerCase) {w w' : W}
    {e : JsError} (h : Unread runtime outside session plan w e w') :
    classifyFailure runtime e = .staleAction ∨ classifyFailure runtime e = .staleExtractor ↔
      ¬ NamesRateLimit (classified runtime e) ∧ ¬ NamesBlock (classified runtime e) := by
  obtain ⟨jsonLd, hunread⟩ := h.unread
  obtain ⟨field, hfield, errors, rfl⟩ := unreadable_of_fails_readTexts hunread
  have hextract :
    test staleExtractorPattern (classified runtime (unreadable field errors)) = true :=
    test_literals.mpr ⟨"extract", by simp, extract_infix_classified hlower hfield errors⟩
  rw [← test_rateLimitedPattern, ← test_blockedPattern]
  unfold classified at hextract ⊢
  simp only [unreadable, classifyFailure] at hextract ⊢
  split_ifs with hrate hblock haction
  · simp [hrate]
  · simp [hblock]
  · simp [hrate, hblock]
  · simp [hrate, hblock]

/-! The page of a lamp whose price is gone. -/

def lampPlan (priceSelector : String) : MonitorPlanV1 where
  canonicalUrl := "https://shop.example/lamp"
  identity :=
    { title := "Desk Lamp", brand := none, sku := none, fingerprint := "", requestedVariant := [] }
  preparationSteps := []
  extractors :=
    { title := [.xpathText "xpath=/html/body/h1" none]
      price := [.xpathText priceSelector none]
      currency := none
      availability := [.xpathText "xpath=/html/body/p[2]" none]
      selectedVariant := []
      sku := none }
  expectedCurrency := .usd

def lampPage : ShopPage where
  texts := [("xpath=/html/body/h1", "Desk Lamp"), ("xpath=/html/body/p[2]", "In stock")]
  scripts := []

theorem unread_lamp {priceSelector message : String}
    (h : (match (outcome (extractObservation (shopRuntime []) lampPage.shown .main
        (lampPlan priceSelector)) ()).1, (outcome (readTexts (shopRuntime []) lampPage.shown .main
        (lampPlan priceSelector)) ((), none)).1 with
      | .error e, .error e' => decide (e = .error message ∧ e' = .error message)
      | _, _ => false) = true) :
    Unread (shopRuntime []) lampPage.shown .main (lampPlan priceSelector) () (.error message)
      () := by
  split at h
  · rename_i e e' he he'
    obtain ⟨rfl, rfl⟩ := of_decide_eq_true h
    exact ⟨Prod.ext he rfl, _, Prod.ext he' rfl⟩
  · cases h

theorem lowersAscii_shopRuntime : LowersAscii (shopRuntime []).toLowerCase :=
  lowersAscii_map

def staleMessage : String :=
  "No price extractor succeeded: stale selector: xpath=/html/body/p[1]"

theorem stale_iff_names_no_other_cause_lamp :
    classifyFailure (shopRuntime []) (.error staleMessage) = .staleAction ∨
      classifyFailure (shopRuntime []) (.error staleMessage) = .staleExtractor ↔
      ¬ NamesRateLimit (classified (shopRuntime []) (.error staleMessage)) ∧
        ¬ NamesBlock (classified (shopRuntime []) (.error staleMessage)) := by
  have hunread : Unread (shopRuntime []) lampPage.shown .main
      (lampPlan "xpath=/html/body/p[1]") () (.error staleMessage) () :=
    unread_lamp (by decide +kernel)
  exact stale_iff_names_no_other_cause lowersAscii_shopRuntime hunread

def numberedMessage : String :=
  "No price extractor succeeded: stale selector: xpath=//*[@id='product-4291']/span"

/-- A selector with the number 429 makes a rate limit of a stale price. -/
theorem numbered_selector_rate_limited :
    ¬ ∀ (runtime : Runtime) (outside : Outside Unit) (session : Session) (plan : MonitorPlanV1)
      (w w' : Unit) (e : JsError), LowersAscii runtime.toLowerCase →
      Unread runtime outside session plan w e w' →
      classifyFailure runtime e = .staleAction ∨ classifyFailure runtime e = .staleExtractor := by
  intro h
  have hunread : Unread (shopRuntime []) lampPage.shown .main
      (lampPlan "xpath=//*[@id='product-4291']/span") () (.error numberedMessage) () :=
    unread_lamp (by decide +kernel)
  have hclass : classifyFailure (shopRuntime []) (.error numberedMessage) = .rateLimited := by
    decide +kernel
  have hstale := h _ _ _ _ () () _ lowersAscii_shopRuntime hunread
  rw [hclass] at hstale
  rcases hstale with hstale | hstale
  · cases hstale
  · cases hstale

end PriceScout.Worker.FailureClasses
