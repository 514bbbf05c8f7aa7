import PriceScout.Worker.Handler

/-!
What a repair makes of the product that a plan is about. A replay that heals
the plan's steps keeps its product. A repair that compiles the page anew takes
whatever product the page shows, and is then checked against itself alone.
-/

namespace PriceScout.Worker.Repair

open PriceScout.Library.Attempts
open PriceScout.Library.Numbers
open PriceScout.Worker.Compiler
open PriceScout.Worker.Contracts
open PriceScout.Worker.Environment
open PriceScout.Worker.Extract
open PriceScout.Worker.Handler
open PriceScout.Worker.Safety
open PriceScout.Worker.Validation

variable (runtime : Runtime)

/-- A title and a SKU are those of a product, by the rule for observations. -/
def SameProduct (identity : Identity) (title : String) (sku : Option String) : Prop :=
  match given identity.sku, given sku with
  | some expected, some observed => normalize runtime expected = normalize runtime observed
  | _, _ => similarityThreshold ≤ titleSimilarity runtime identity.title title

/-- A plan is about the product, the currency and the variant of another one. -/
structure KeepsIdentity (old new : MonitorPlanV1) : Prop where
  currency : new.expectedCurrency = old.expectedCurrency
  variant : Record.Same new.identity.requestedVariant old.identity.requestedVariant
  product : SameProduct runtime old.identity new.identity.title new.identity.sku

/-- A survey asks for the variant of a plan, and it shows the plan's product
for a price in the plan's currency. -/
structure Agrees (old : MonitorPlanV1) (survey : Survey) : Prop where
  currency : survey.observation.currency = old.expectedCurrency
  variant : Record.Same survey.provisional.identity.requestedVariant old.identity.requestedVariant
  product : validateProduct runtime old.identity survey.observation = .ok ()

variable {runtime}

theorem validateProduct_ok_iff {identity : Identity} {observation : Observation} :
    validateProduct runtime identity observation = .ok () ↔
      SameProduct runtime identity observation.title observation.sku := by
  unfold validateProduct SameProduct
  split
  · split
    · simp_all [throw, throwThe, MonadExceptOf.throw]
    · simp_all [pure, Except.pure]
  · split
    · rename_i h
      simp [throw, throwThe, MonadExceptOf.throw, h]
    · rename_i h
      simpa [pure, Except.pure] using h

theorem given_given (text : Option String) : given (given text) = given text := by
  simp [given, Option.filter_filter]

theorem sameProduct_given {identity : Identity} {title : String} {sku : Option String} :
    SameProduct runtime identity title (given sku) ↔ SameProduct runtime identity title sku := by
  unfold SameProduct
  rw [given_given]

theorem similarityThreshold_pos : 0 < similarityThreshold := by
  decide +kernel

theorem similarityThreshold_le_one : similarityThreshold ≤ nearest 1 := by
  decide +kernel

theorem titleSimilarity_self {title other : String}
    (h : similarityThreshold ≤ titleSimilarity runtime title other) :
    similarityThreshold ≤ titleSimilarity runtime title title := by
  have hpos := similarityThreshold_pos.trans_le h
  unfold titleSimilarity at hpos ⊢
  have hcard : (titleTokens runtime title).card ≠ 0 := by
    intro hzero
    simp [hzero] at hpos
  have hone : ((titleTokens runtime title).card / (titleTokens runtime title).card : ℚ) = 1 :=
    div_self (Nat.cast_ne_zero.mpr hcard)
  simp only [hcard, or_self, if_false, Finset.inter_self, Finset.union_self, hone]
  exact similarityThreshold_le_one

/-- A plan that any observation passes is about its own product. -/
theorem sameProduct_self {identity : Identity} {title : String} {sku : Option String}
    (h : SameProduct runtime identity title sku) :
    SameProduct runtime identity identity.title identity.sku := by
  unfold SameProduct at h ⊢
  cases hsku : given identity.sku with
  | some expected => rfl
  | none =>
      simp only [hsku] at h ⊢
      exact titleSimilarity_self h

theorem validateObservation_ok {observation : Observation} {plan : MonitorPlanV1}
    (h : validateObservation runtime observation plan = .ok ()) :
    observation.currency = plan.expectedCurrency ∧
      SameProduct runtime plan.identity observation.title observation.sku := by
  unfold validateObservation at h
  by_cases hcurrency : observation.currency = plan.expectedCurrency
  · refine ⟨hcurrency, ?_⟩
    rw [← validateProduct_ok_iff]
    rw [if_neg (not_not_intro hcurrency)] at h
    cases hproduct : validateProduct runtime plan.identity observation with
    | ok _ => rfl
    | error e => simp [hproduct, bind, Except.bind] at h
  · simp [hcurrency, bind, Except.bind, throw, throwThe, MonadExceptOf.throw] at h

/-- A healed plan is about the product of the plan that was healed. -/
theorem keepsIdentity_healed {observation : Observation} {old : MonitorPlanV1}
    {steps : List PreparationStep}
    (h : validateObservation runtime observation { old with preparationSteps := steps } = .ok ()) :
    KeepsIdentity runtime old { old with preparationSteps := steps } where
  currency := rfl
  variant := fun _ => rfl
  product := sameProduct_self (validateObservation_ok h).2

/-- The plan of a survey keeps an identity just when the survey agrees with it. -/
theorem keepsIdentity_plan_iff {old : MonitorPlanV1} {survey : Survey}
    (h : validateObservation runtime survey.observation survey.plan = .ok ()) :
    KeepsIdentity runtime old survey.plan ↔ Agrees runtime old survey := by
  have hcurrency : survey.observation.currency = survey.plan.expectedCurrency :=
    (validateObservation_ok h).1
  constructor
  · intro hkeeps
    exact ⟨hcurrency.trans hkeeps.currency, hkeeps.variant,
      validateProduct_ok_iff.mpr (sameProduct_given.mp hkeeps.product)⟩
  · intro hagrees
    exact ⟨hcurrency.symm.trans hagrees.currency, hagrees.variant,
      sameProduct_given.mpr (validateProduct_ok_iff.mp hagrees.product)⟩

variable (runtime) {W : Type} (outside : Outside W) (config : WorkerConfig)

/-- The survey of a page that is compiled anew. -/
def surveyAnew (input : ExecutionInput) (target : Url) : Attempt JsError W Survey := do
  let scripted ← check (chooseScripted runtime config input.compilerMode target)
  goto runtime outside .main target.href target
  if scripted then surveyFixture runtime outside input target
  else surveyLive runtime outside config input target

/-- A repair up to the survey of the page, which there is none of when the plan
is healed. -/
def repairSurvey (input : ExecutionInput) (oldPlan : MonitorPlanV1) (target : Url)
    (scripted : Bool) : Attempt JsError W (Option Survey) := do
  if scripted then some <$> surveyAnew runtime outside config input target
  else
    goto runtime outside .main oldPlan.canonicalUrl target
    tryCatch ((fun _ => none) <$> healedReplay runtime outside oldPlan target) fun error =>
      if isFinal error then throw error
      else some <$> surveyAnew runtime outside config input target

/-- A repair job from its beginning up to the survey of the page. -/
def surveyJob (input : ExecutionInput) : Attempt JsError (W × Progress) (Option Survey) := do
  let (target, scripted) ← openJob runtime outside config input
  let revision ← check (requireRevision input)
  timed outside (if scripted then "scriptedRepair" else "stagehandRepair")
    (repairSurvey runtime outside config input revision.plan target scripted)

/-- What a repair job that gives up its plan is asked for and finds on the page. -/
def recompilation (input : ExecutionInput) (w : W) : Option Survey :=
  match outcome (surveyJob runtime outside config input) ((outside.now w).2, Progress.start) with
  | (.ok survey, _) => survey
  | (.error _, _) => none

variable {runtime outside config}

theorem returns_adopt {survey : Survey} {source : PlanSource} {target : Url} {w w' : W}
    {compiled : CompileOutcome}
    (h : Returns (adopt runtime outside survey source target) w compiled w') :
    validateObservation runtime survey.observation survey.plan = .ok () ∧
      compiled.plan = survey.plan := by
  unfold adopt at h
  simp only [returns_bind, returns_check, returns_pure] at h
  obtain ⟨_, _, ⟨hvalid, _⟩, _, _, _, rfl, _⟩ := h
  exact ⟨hvalid, rfl⟩

/-- A compiled plan is the plan of a survey. -/
theorem returns_compileMonitor {input : ExecutionInput} {target : Url} {w w' : W}
    {compiled : CompileOutcome}
    (h : Returns (compileMonitor runtime outside config input target) w compiled w') :
    ∃ survey w₁, Returns (surveyAnew runtime outside config input target) w survey w₁ ∧
      validateObservation runtime survey.observation survey.plan = .ok () ∧
      compiled.plan = survey.plan := by
  unfold compileMonitor at h
  simp only [returns_bind, returns_check] at h
  obtain ⟨scripted, _, ⟨hscripted, rfl⟩, _, w₁, hgoto, hcompiled⟩ := h
  cases scripted with
  | true =>
      simp only [if_true, compileFixture, returns_bind] at hcompiled
      obtain ⟨survey, w₂, hsurvey, hadopt⟩ := hcompiled
      refine ⟨survey, w₂, ?_, returns_adopt hadopt⟩
      simp only [surveyAnew, returns_bind, returns_check]
      exact ⟨true, w, ⟨hscripted, rfl⟩, (), w₁, hgoto, hsurvey⟩
  | false =>
      simp only [Bool.false_eq_true, if_false, compileLive, returns_bind] at hcompiled
      obtain ⟨survey, w₂, hsurvey, hadopt⟩ := hcompiled
      refine ⟨survey, w₂, ?_, returns_adopt hadopt⟩
      simp only [surveyAnew, returns_bind, returns_check]
      exact ⟨false, w, ⟨hscripted, rfl⟩, (), w₁, hgoto, hsurvey⟩

theorem returns_healedReplay {oldPlan : MonitorPlanV1} {target : Url} {w w' : W}
    {repaired : CompileOutcome}
    (h : Returns (healedReplay runtime outside oldPlan target) w repaired w') :
    KeepsIdentity runtime oldPlan repaired.plan := by
  unfold healedReplay at h
  simp only [returns_bind, returns_check, returns_pure] at h
  obtain ⟨steps, _, _, first, _, _, _, _, ⟨hvalid, _⟩, _, _, _, rfl, _⟩ := h
  exact keepsIdentity_healed hvalid

/-- The two ways to the plan that a repair proposes. -/
inductive Proposed (runtime : Runtime) (old plan : MonitorPlanV1) : Option Survey → Prop where
  | healed (keeps : KeepsIdentity runtime old plan) : Proposed runtime old plan none
  | anew (survey : Survey)
      (valid : validateObservation runtime survey.observation survey.plan = .ok ())
      (hplan : plan = survey.plan) : Proposed runtime old plan (some survey)

theorem Proposed.keepsIdentity_iff {old plan : MonitorPlanV1} {survey : Option Survey}
    (h : Proposed runtime old plan survey) :
    KeepsIdentity runtime old plan ↔ ∀ s ∈ survey, Agrees runtime old s := by
  cases h with
  | healed keeps => simpa using keeps
  | anew survey valid hplan =>
      subst hplan
      simpa using keepsIdentity_plan_iff valid

theorem returns_surveyAnew (old : MonitorPlanV1) {input : ExecutionInput} {target : Url}
    {w w' : W} {repaired : CompileOutcome}
    (h : Returns (compileMonitor runtime outside config input target) w repaired w') :
    ∃ survey w₁, Returns (surveyAnew runtime outside config input target) w survey w₁ ∧
      Proposed runtime old repaired.plan (some survey) := by
  obtain ⟨survey, w₁, hsurvey, hvalid, hplan⟩ := returns_compileMonitor h
  exact ⟨survey, w₁, hsurvey, .anew survey hvalid hplan⟩

theorem returns_repairLive {input : ExecutionInput} {old : MonitorPlanV1} {target : Url} {w w' : W}
    {repaired : CompileOutcome}
    (h : Returns (repairLive runtime outside config input old target) w repaired w') :
    ∃ survey w₁,
      Returns (repairSurvey runtime outside config input old target false) w survey w₁ ∧
      Proposed runtime old repaired.plan survey := by
  simp only [repairLive, returns_bind, returns_tryCatch] at h
  obtain ⟨_, w₁, hgoto, hhealed | ⟨error, w₂, hfailed, hanew⟩⟩ := h
  · refine ⟨none, w', ?_, .healed (returns_healedReplay hhealed)⟩
    simp only [repairSurvey, Bool.false_eq_true, if_false, returns_bind, returns_tryCatch,
      returns_map]
    exact ⟨(), w₁, hgoto, .inl ⟨repaired, hhealed, trivial⟩⟩
  · cases hfinal : isFinal error with
    | true =>
        rw [hfinal] at hanew
        simp at hanew
    | false =>
        rw [hfinal] at hanew
        obtain ⟨survey, w₃, hsurvey, hproposed⟩ := returns_surveyAnew old hanew
        refine ⟨some survey, w₃, ?_, hproposed⟩
        simp only [repairSurvey, Bool.false_eq_true, if_false, returns_bind, returns_tryCatch]
        refine ⟨(), w₁, hgoto, .inr ⟨error, w₂, fails_map.mpr hfailed, ?_⟩⟩
        simp only [hfinal, Bool.false_eq_true, if_false, returns_map]
        exact ⟨survey, hsurvey, rfl⟩

theorem returns_proposeRepair {input : ExecutionInput} {old : MonitorPlanV1} {target : Url}
    {scripted : Bool} {s s' : W × Progress} {repaired : CompileOutcome}
    (h : Returns (proposeRepair runtime outside config input old target scripted) s repaired s') :
    ∃ survey w₁, Returns (repairSurvey runtime outside config input old target scripted)
        (outside.now s.1).2 survey w₁ ∧
      Proposed runtime old repaired.plan survey := by
  cases scripted with
  | true =>
      simp only [proposeRepair, if_true] at h
      obtain ⟨w', hcompiled⟩ := returns_timed h
      obtain ⟨survey, w₁, hsurvey, hproposed⟩ := returns_surveyAnew old hcompiled
      refine ⟨some survey, w₁, ?_, hproposed⟩
      simp only [repairSurvey, if_true, returns_map]
      exact ⟨survey, hsurvey, rfl⟩
  | false =>
      simp only [proposeRepair, Bool.false_eq_true, if_false] at h
      obtain ⟨w', hlive⟩ := returns_timed h
      exact returns_repairLive hlive

/-- A repair that succeeds proposes the plan that a repair survey leads to. -/
theorem returns_repairJob {started : Nat} {input : ExecutionInput} {target : Url} {scripted : Bool}
    {s s' : W × Progress} {result : ExecutionResult} {revision : InputRevision}
    (hrevision : input.revision = some revision)
    (h : Returns (repairJob runtime outside config started input target scripted) s result s') :
    ∃ repaired s₁,
      Returns (proposeRepair runtime outside config input revision.plan target scripted) s repaired
        s₁ ∧
      result.candidatePlan = some repaired.plan := by
  simp only [repairJob, requireRevision, hrevision, returns_bind, returns_check, returns_pure] at h
  obtain ⟨_, _, ⟨hsame, rfl⟩, repaired, s₁, hproposed, _, _, _, _, _, _, _, _, _, rfl, _⟩ := h
  obtain rfl : revision = _ := by simpa [pure, Except.pure] using hsame
  exact ⟨repaired, s₁, hproposed, rfl⟩

/-- A repair job that succeeds proposes a plan in one of the two ways. -/
theorem proposed_of_executeJob {input : ExecutionInput} {w w' : W} {result : ExecutionResult}
    {revision : InputRevision} (hkind : input.execution.kind = .repair)
    (hrevision : input.revision = some revision) (hstatus : result.status = .succeeded)
    (h : Returns (executeJob runtime outside config input) w result w') :
    ∃ plan, result.candidatePlan = some plan ∧
      Proposed runtime revision.plan plan
        (recompilation runtime outside config input w) := by
  obtain ⟨_, hrun⟩ | ⟨error, _, _, hfailed⟩ := returns_executeJob h
  · simp only [runJob, hkind, returns_bind] at hrun
    obtain ⟨⟨target, scripted⟩, s₁, hopen, hrepair⟩ := hrun
    obtain ⟨repaired, s₂, hpropose, hplan⟩ := returns_repairJob hrevision hrepair
    obtain ⟨survey, w₁, hsurvey, hproposed⟩ := returns_proposeRepair hpropose
    refine ⟨repaired.plan, hplan, ?_⟩
    obtain ⟨s₃, htimed⟩ := timed_returns hsurvey
      (if scripted then "scriptedRepair" else "stagehandRepair")
    have hjob : Returns (surveyJob runtime outside config input)
        ((outside.now w).2, Progress.start) survey s₃ := by
      simp only [surveyJob, returns_bind, returns_check]
      refine ⟨(target, scripted), s₁, hopen, revision, s₁, ⟨?_, rfl⟩, htimed⟩
      simp [requireRevision, hrevision, pure, Except.pure]
    unfold recompilation
    rw [hjob]
    exact hproposed
  · exact absurd hstatus (failJob_not_succeeded hfailed)

/-- **A repair keeps the product of its plan just when it heals the plan, or
when what it is asked for and finds on the page anew agrees with the plan.** -/
theorem repair_keeps_identity_iff (runtime : Runtime) {W : Type} (outside : Outside W)
    (config : WorkerConfig) (input : ExecutionInput) (w w' : W) (result : ExecutionResult)
    (revision : InputRevision) (hkind : input.execution.kind = .repair)
    (hrevision : input.revision = some revision)
    (hreturns : Returns (executeJob runtime outside config input) w result w')
    (hstatus : result.status = .succeeded) :
    (∃ plan, result.candidatePlan = some plan ∧ KeepsIdentity runtime revision.plan plan) ↔
      ∀ survey ∈ recompilation runtime outside config input w,
        Agrees runtime revision.plan survey := by
  obtain ⟨plan, hplan, hproposed⟩ := proposed_of_executeJob hkind hrevision hstatus hreturns
  rw [← hproposed.keepsIdentity_iff]
  simp [hplan]

/-! The page of a lamp that has come to sell headphones under new selectors. -/

def lampUrl : Url where
  protocol := "https:"
  username := ""
  password := ""
  hostname := "shop.example"
  port := ""
  origin := "https://shop.example"
  href := "https://shop.example/lamp"

def lampRuntime : Runtime :=
  asciiRuntime [(lampUrl.href, lampUrl)]
    [("atlas studio headphones\x00ash 100",
        "291bbe67b9dc269a5605ee05bfb347417d3787b039b1d073b92671be63a46bff"),
      ("pending identity\x00",
        "192204c7bde02d6a37dae4f5221721241a5a0e9c6c31001e672f62b6c76fc0bd")]

def lampPage : StillPage where
  address := "93.184.216.34"
  url := lampUrl.href
  texts :=
    [("xpath=/html/body/div/h1", "Atlas Studio Headphones"),
     ("xpath=/html/body/div/p[1]", "$79.00"),
     ("xpath=/html/body/div/p[2]", "In stock"),
     ("xpath=/html/body/div/p[3]", "USD"),
     ("xpath=/html/body/div/p[4]", "ASH-100")]
  snapshot :=
    { formattedTree := ""
      xpathMap := [("0-1", "/html/body/div/h1"), ("0-2", "/html/body/div/p[1]"),
        ("0-3", "/html/body/div/p[2]"), ("0-4", "/html/body/div/p[3]"),
        ("0-5", "/html/body/div/p[4]")] }
  semantic :=
    { title := "Atlas Studio Headphones"
      currentPriceText := "$79.00"
      currency := "USD"
      availability := "In stock"
      sku := some "ASH-100" }
  intent := { requestedVariant := [], currency := none }
  nodes :=
    { titleNodeId := "0-1"
      currentPriceNodeId := "0-2"
      availabilityNodeId := "0-3"
      currencyNodeId := some "0-4"
      skuNodeId := some "0-5"
      variantNodeIds := [] }
  screenshot := { byteLength := 0, sha256 := "" }

def lampConfig : WorkerConfig where
  fixtureOrigin := "http://fixture:4173"
  artifactDir := "/data/artifacts"
  browserProvider := .localBrowser
  modelName := "openai/gpt-5-mini"
  modelApiKey := some "key"
  allowedPrivateHosts := []

def lampPlan : MonitorPlanV1 where
  canonicalUrl := lampUrl.href
  identity :=
    { title := "Desk Lamp"
      brand := none
      sku := some "LAMP-7"
      fingerprint := "4685bfa6576a4051c2ddcc19fede6dc38288e98f01d5bc489e774186eee70dc4"
      requestedVariant := [] }
  preparationSteps := []
  extractors :=
    { title := [.xpathText "xpath=/html/body/main/h1" none]
      price := [.xpathText "xpath=/html/body/main/p[1]" none]
      currency := none
      availability := [.xpathText "xpath=/html/body/main/p[2]" none]
      selectedVariant := []
      sku := some [.xpathText "xpath=/html/body/main/p[3]" none] }
  expectedCurrency := .usd

def lampRepair : ExecutionInput where
  execution := { id := ⟨5⟩, kind := .repair }
  monitor := { id := ⟨1⟩, url := lampUrl.href, intent := "price of the lamp", condition := none }
  revision := some { generation := 1, plan := lampPlan }
  compilerMode := .live

/-- The repair of the lamp's plan succeeds with a plan for the headphones. -/
theorem returns_lampRepair :
    ∃ result, Returns (executeJob lampRuntime lampPage.outside lampConfig lampRepair) () result () ∧
      result.status = .succeeded ∧
      result.candidatePlan.map (·.identity.sku) = some (some "ASH-100") := by
  have hdone : (match (outcome
        (executeJob lampRuntime lampPage.outside lampConfig lampRepair) ()).1 with
      | .ok result => decide (result.status = .succeeded ∧
          result.candidatePlan.map (·.identity.sku) = some (some "ASH-100"))
      | .error _ => false) = true := by decide +kernel
  split at hdone
  · rename_i result hresult
    obtain ⟨hstatus, hsku⟩ := of_decide_eq_true hdone
    exact ⟨result, Prod.ext hresult (Subsingleton.elim _ _), hstatus, hsku⟩
  · cases hdone

/-- A repair that succeeds need not keep the product of its plan. -/
theorem lampRepair_changes_product :
    ¬ ∀ (runtime : Runtime) (outside : Outside Unit) (config : WorkerConfig)
      (input : ExecutionInput) (w w' : Unit) (result : ExecutionResult) (revision : InputRevision),
      input.execution.kind = .repair → input.revision = some revision →
      Returns (executeJob runtime outside config input) w result w' → result.status = .succeeded →
      ∃ plan, result.candidatePlan = some plan ∧ KeepsIdentity runtime revision.plan plan := by
  intro h
  obtain ⟨result, hreturns, hstatus, hsku⟩ := returns_lampRepair
  obtain ⟨plan, hplan, hkeeps⟩ := h _ _ _ lampRepair () () result _ rfl rfl hreturns hstatus
  rw [hplan, Option.map_some, Option.some.injEq] at hsku
  have hproduct := hkeeps.product
  rw [hsku] at hproduct
  have hdiffer : normalize lampRuntime "LAMP-7" ≠ normalize lampRuntime "ASH-100" := by
    decide +kernel
  exact hdiffer hproduct

/-- What the repair finds on the page does not agree with the lamp's plan. -/
theorem repair_keeps_identity_lamp :
    ∃ result, Returns (executeJob lampRuntime lampPage.outside lampConfig lampRepair) () result () ∧
      ((∃ plan, result.candidatePlan = some plan ∧ KeepsIdentity lampRuntime lampPlan plan) ↔
        ∀ survey ∈ recompilation lampRuntime lampPage.outside lampConfig lampRepair (),
          Agrees lampRuntime lampPlan survey) := by
  obtain ⟨result, hreturns, hstatus, -⟩ := returns_lampRepair
  exact ⟨result, hreturns, repair_keeps_identity_iff lampRuntime lampPage.outside lampConfig
    lampRepair () () result { generation := 1, plan := lampPlan } rfl rfl hreturns hstatus⟩

end PriceScout.Worker.Repair
