import PriceScout.Worker.Outcomes
import PriceScout.Worker.PlanSchema
import PriceScout.Worker.Repair

/-!
The plans that jobs report. What a job has compiled or healed is read back by the
workers that check the page with it, as long as its steps say what they do.
-/

namespace PriceScout.Worker.ReportedPlans

open PriceScout.Library
open PriceScout.Library.Attempts
open PriceScout.Library.JsStrings
open PriceScout.Library.JsonDocuments
open PriceScout.Library.Runs
open PriceScout.Library.StoredDocuments
open PriceScout.Worker.Api (planJson)
open PriceScout.Worker.Compiler
open PriceScout.Worker.Contracts
open PriceScout.Worker.Environment
open PriceScout.Worker.Extract
open PriceScout.Worker.ExtractorPolicy
open PriceScout.Worker.Handler
open PriceScout.Worker.MonitorConditions
open PriceScout.Worker.Outcomes
open PriceScout.Worker.PlanSchema
open PriceScout.Worker.Repair
open PriceScout.Worker.Safety
open PriceScout.Worker.Validation

/-- The text of a parsed URL is a URL without blanks around it, and a digest is long. -/
structure Reliable (runtime : Runtime) : Prop where
  href : ∀ text url, runtime.parseUrl text = some url →
    trim url.href = url.href ∧ (runtime.parseUrl url.href).isSome = true
  digest : ∀ text, 8 ≤ length (runtime.sha256 text)

/-- What the model returns for an intent is an object of the schema it was given. -/
def FitsSchema {W : Type} (outside : Outside W) : Prop :=
  ∀ intent, Ensures (outside.generateIntent intent) fun rule => WellKeyed rule.requestedVariant

/-- Stagehand says of every action what it does. -/
structure Describes {W : Type} (outside : Outside W) : Prop where
  observed : ∀ prompt, Ensures (outside.stagehandObserve prompt) fun actions =>
    ∀ action ∈ actions, 1 ≤ length action.description
  acted : ∀ session action, Ensures (outside.stagehandAct session action) fun result =>
    ∀ action ∈ result.actions, 1 ≤ length action.description

/-- An input as the client of the control plane has parsed it. -/
structure Parsed (runtime : Runtime) (input : ExecutionInput) : Prop where
  condition : ∀ condition ∈ input.monitor.condition,
    ∃ document, monitorConditionSchema (stored document) = some condition
  revision : ∀ revision ∈ input.revision,
    ∃ document, monitorPlanV1Schema runtime (stored document) = some revision.plan

/-- A step that the schema takes if Stagehand describes its actions. -/
structure SoundStep {W : Type} (outside : Outside W) (step : PreparationStep) : Prop where
  selector : 1 ≤ length step.action.selector
  described : Describes outside →
    1 ≤ length step.instruction ∧ 1 ≤ length step.action.description

structure SoundPlan {W : Type} (runtime : Runtime) (outside : Outside W) (plan : MonitorPlanV1) :
    Prop where
  schematic : Schematic runtime plan
  described : Describes outside → Described plan

/-- The title and the fingerprint of an observation fit the identity of a plan. -/
structure Titled (observation : Observation) : Prop where
  title : 1 ≤ length observation.title
  fingerprint : 8 ≤ length observation.identityFingerprint

section Texts

theorem length_pos_of_ne {s : String} (h : s ≠ "") : 1 ≤ length s := by
  obtain ⟨c, hc⟩ := List.exists_mem_of_ne_nil s.toList fun hnil =>
    h (String.toList_eq_nil_iff.mp hnil)
  exact length_pos_of_mem hc

theorem startsWith_append (front back : String) : startsWith (front ++ back) front = true := by
  simp [startsWith, String.toList_append]

theorem ne_empty_of_startsWith {s front : String} (hfront : front ≠ "")
    (h : startsWith s front = true) : s ≠ "" := by
  rintro rfl
  have hprefix := List.isPrefixOf_iff_prefix.mp h
  exact hfront (String.toList_eq_nil_iff.mp (List.prefix_nil.mp hprefix))

theorem length_pos_append {front : String} (h : front ≠ "") (back : String) :
    1 ≤ length (front ++ back) :=
  length_pos_of_ne (ne_empty_of_startsWith h (startsWith_append front back))

end Texts

theorem ok_of_toOption {ε α : Type} {r : Except ε α} {a : α} (h : r.toOption = some a) :
    r = .ok a := by
  cases r with
  | ok b => exact congrArg Except.ok (Option.some.inj h)
  | error e => cases h

theorem exists_of_mapM_ok {ε α β : Type} {f : α → Except ε β} {l : List α} {bs : List β}
    (h : l.mapM f = .ok bs) : ∀ b ∈ bs, ∃ a ∈ l, f a = .ok b := by
  induction l generalizing bs with
  | nil =>
      obtain rfl := Except.ok.inj h
      simp
  | cons a rest ih =>
      simp only [List.mapM_cons, bind_eq_ok, pure_eq_ok] at h
      obtain ⟨first, hfirst, others, hothers, rfl⟩ := h
      intro b hb
      rcases List.mem_cons.mp hb with rfl | hb
      · exact ⟨a, List.mem_cons_self, hfirst⟩
      · obtain ⟨a', ha', hb'⟩ := ih hothers b hb
        exact ⟨a', List.mem_cons_of_mem _ ha', hb'⟩

section Parts

variable {runtime : Runtime} {W : Type} {outside : Outside W} {config : WorkerConfig}

/-- A safe action has a selector. -/
theorem selector_of_safe {action : CachedAction} (h : assertSafeAction runtime action = .ok ()) :
    1 ≤ length action.selector := by
  have hstarts : startsWith action.selector "xpath=" = true ∨
      startsWith action.selector "css=" = true := by
    by_contra hnone
    rw [not_or, Bool.not_eq_true, Bool.not_eq_true] at hnone
    unfold assertSafeAction at h
    rw [hnone.1, hnone.2] at h
    simp only [Bool.not_false, Bool.and_self, if_true] at h
    split_ifs at h <;> cases h
  rcases hstarts with hxpath | hcss
  · exact length_pos_of_ne (ne_empty_of_startsWith (by decide) hxpath)
  · exact length_pos_of_ne (ne_empty_of_startsWith (by decide) hcss)

theorem ensures_readFirstFrom (session : Session) (field : String) (errors : List String)
    (strategies : List ExtractionStrategy) :
    Ensures (readFirstFrom runtime outside session field errors strategies) (· ≠ "") := by
  induction strategies generalizing errors with
  | nil => exact ensures_throw
  | cons strategy rest ih =>
      unfold readFirstFrom
      refine .bind_of_forall fun value => ?_
      cases value with
      | error message => exact ih _
      | ok value =>
          dsimp only
          split
          · exact ih _
          · exact .pure (by assumption)

theorem ensures_readFirst (session : Session) (strategies : Option (List ExtractionStrategy))
    (field : String) :
    Ensures (readFirst runtime outside session strategies field) fun value =>
      ∀ text ∈ value, text ≠ "" := by
  unfold readFirst
  split
  · exact .pure (by simp)
  · exact .pure (by simp)
  · rw [map_eq_pure_bind]
    refine .bind (ensures_readFirstFrom session field [] _) fun text htext => .pure ?_
    rintro _ ⟨⟩
    exact htext

theorem ensures_titled (hruntime : Reliable runtime) (session : Session) (plan : MonitorPlanV1) :
    Ensures (extractObservation runtime outside session plan) Titled := by
  have hfields : Ensures (extractFields runtime outside session plan) Titled := by
    unfold extractFields
    refine .bind (ensures_readFirst session _ "title") fun title htitle =>
      .bind_of_forall fun rawPrice => .bind_of_forall fun availabilityRaw => ?_
    split
    · exact .bind_of_forall fun sku => .bind_of_forall fun currencyRaw =>
        .bind_of_forall fun price => .bind_of_forall fun currency =>
        .bind_of_forall fun variant => .bind_of_forall fun inStock =>
        .pure ⟨length_pos_of_ne (htitle _ rfl), hruntime.digest _⟩
    · exact ensures_throw
  intro w observation w' hreturns
  have hfst : (outcome (extractFields runtime outside session plan) (w, none)).1 =
      .ok observation := congrArg Prod.fst hreturns
  exact hfields (Prod.ext hfst rfl)

theorem wellKeyed_of_condition {document : Json} {condition : MonitorCondition}
    (h : monitorConditionSchema (stored document) = some condition) :
    WellKeyed condition.requestedVariant := by
  unfold monitorConditionSchema at h
  split at h
  · rename_i fields' hobject
    obtain ⟨fields, rfl⟩ := exists_of_stored_eq_obj hobject
    simp only [Option.bind_eq_bind, Option.bind_eq_some_iff, Option.pure_def] at h
    obtain ⟨_, -, _, -, _, -, _, -, variant, hvariant, heq⟩ := h
    obtain rfl := Option.some.inj heq
    rw [lastValue_storedFields] at hvariant
    cases hlast : Json.lastValue "requestedVariant" fields with
    | none =>
        rw [hlast] at hvariant
        obtain rfl := Option.some.inj hvariant
        exact ⟨List.nodup_nil, by simp⟩
    | some value =>
        rw [hlast] at hvariant
        exact wellKeyed_of_read hvariant
  · cases h

theorem wellKeyed_conditionVariant {input : ExecutionInput} (h : Parsed runtime input) :
    WellKeyed (conditionVariant input) := by
  unfold conditionVariant
  cases hcondition : input.monitor.condition with
  | none => exact ⟨List.nodup_nil, by simp⟩
  | some condition =>
      obtain ⟨document, hread⟩ := h.condition condition hcondition
      exact wellKeyed_of_condition hread

theorem wellKeyed_fixtureVariants {input : ExecutionInput} (h : Parsed runtime input) :
    WellKeyed (fixtureVariants runtime input) := by
  unfold fixtureVariants
  split
  · exact wellKeyed_conditionVariant h
  · constructor
    · simp
    · simp

theorem ensures_requestedBy (hmodel : FitsSchema outside) {input : ExecutionInput}
    (h : Parsed runtime input) :
    Ensures (requestedBy outside config input) fun requested => WellKeyed requested.1 := by
  unfold requestedBy parseIntent
  split
  · exact .bind (.bind_of_forall fun _ => hmodel _) fun intentRule hrule => .pure hrule
  · exact .pure (wellKeyed_conditionVariant h)

theorem soundStep_fixture {v1 : Bool} {attributeName value : String} {step : PreparationStep}
    (h : fixtureStep runtime v1 attributeName value = .ok step) : SoundStep outside step := by
  simp only [fixtureStep, bind_eq_ok, pure_eq_ok] at h
  obtain ⟨part, -, _, hsafe, rfl⟩ := h
  have hdescription : 1 ≤ length ("Select " ++ value ++ " for " ++ attributeName) := by
    rw [String.append_assoc, String.append_assoc]
    exact length_pos_append (by decide) _
  exact ⟨selector_of_safe hsafe, fun _ => ⟨hdescription, hdescription⟩⟩

theorem ensures_observeSteps (requested : Record) :
    Ensures (observeSteps runtime outside requested) fun steps =>
      ∀ step ∈ steps, SoundStep outside step := by
  induction requested with
  | nil => exact .pure (by simp)
  | cons entry rest ih =>
      unfold observeSteps
      refine .bind (P := fun candidates => ∀ action ∈ candidates, Describes outside →
        1 ≤ length action.description) ?_ fun candidates hcandidates => ?_
      · intro w candidates w' hreturns action haction hdescribes
        exact hdescribes.observed _ hreturns action haction
      · cases candidates with
        | nil => exact ensures_throw
        | cons action others =>
            refine .bind (ensures_check fun _ => selector_of_safe) fun _ hselector =>
              .bind ih fun steps hsteps => .pure ?_
            intro step hstep
            rcases List.mem_cons.mp hstep with rfl | hstep
            · exact ⟨hselector, fun hdescribes =>
                ⟨hcandidates action List.mem_cons_self hdescribes,
                  hcandidates action List.mem_cons_self hdescribes⟩⟩
            · exact hsteps step hstep

theorem ensures_assertSafeReplacements (session : Session) (actions : List CachedAction) :
    Ensures (assertSafeReplacements runtime outside session actions) fun _ =>
      ∀ action ∈ actions, 1 ≤ length action.selector := by
  induction actions with
  | nil => exact .pure (by simp)
  | cons action rest ih =>
      unfold assertSafeReplacements
      refine .bind (ensures_check fun _ => selector_of_safe) fun _ hselector =>
        .bind_of_forall fun _ => ?_
      intro w u w' hreturns other hother
      rcases List.mem_cons.mp hother with rfl | hother
      · exact hselector
      · exact ih hreturns other hother

theorem ensures_replay (session : Session) (action : CachedAction) :
    Ensures (replay outside session action) fun executed =>
      ∀ action ∈ executed, Describes outside → 1 ≤ length action.description := by
  unfold replay
  refine .bind (P := fun result => ∀ action ∈ result.actions, Describes outside →
    1 ≤ length action.description) ?_ fun result hresult => ?_
  · intro w result w' hreturns action haction hdescribes
    exact hdescribes.acted _ _ hreturns action haction
  · split
    · exact .bind ensures_throw (P := fun _ => False) fun _ => False.elim
    · exact .pure hresult

/-- What Stagehand has done in place of an action is checked like the action. -/
theorem ensures_replaySafeAction (session : Session) (action : CachedAction) (target : Url) :
    Ensures (replaySafeAction runtime outside session action target) fun executed =>
      ∀ action ∈ executed, 1 ≤ length action.selector ∧
        (Describes outside → 1 ≤ length action.description) := by
  unfold replaySafeAction
  refine .bind_of_forall fun _ => .bind_of_forall fun resolved =>
    .bind (.tryCatch (ensures_replay session action) fun e => ?_) fun executed hdescribed =>
    .bind_of_forall fun url => .bind_of_forall fun _ =>
    .bind (ensures_assertSafeReplacements session executed) fun _ hselectors =>
    .pure fun action haction => ⟨hselectors action haction, hdescribed action haction⟩
  split <;> exact ensures_throw

theorem ensures_healSteps (target : Url) (steps : List PreparationStep)
    (h : ∀ step ∈ steps, SoundStep outside step) :
    Ensures (healSteps runtime outside target steps) fun healed =>
      ∀ step ∈ healed, SoundStep outside step := by
  induction steps with
  | nil => exact .pure (by simp)
  | cons step rest ih =>
      have hstep := h step List.mem_cons_self
      unfold healSteps
      refine .bind (ensures_replaySafeAction .main step.action target) fun executed hexecuted =>
        .bind (ih fun step hstep => h step (List.mem_cons_of_mem _ hstep)) fun healed hhealed =>
        .pure ?_
      intro other hother
      rcases List.mem_cons.mp hother with rfl | hother
      · cases hlast : executed.getLast? with
        | none => exact ⟨hstep.selector, hstep.described⟩
        | some action =>
            obtain ⟨hselector, hdescription⟩ := hexecuted action (List.mem_of_getLast? hlast)
            exact ⟨hselector, fun hdescribes =>
              ⟨(hstep.described hdescribes).1, hdescription hdescribes⟩⟩
      · exact hhealed other hother

theorem fromXPath_of_strategyFor {snapshot : Snapshot} {nodeId : String}
    {attributeName : Option String} {strategy : ExtractionStrategy}
    (h : strategyFor snapshot nodeId attributeName = .ok strategy) : FromXPath strategy := by
  unfold strategyFor at h
  split at h
  · cases h
  · obtain rfl := Except.ok.inj h
    exact startsWith_append _ _

theorem fromXPath_of_optionalStrategy {snapshot : Snapshot} {nodeId : Option String}
    {strategy : Option ExtractionStrategy} (h : optionalStrategy snapshot nodeId = .ok strategy) :
    ∀ s ∈ strategy, FromXPath s := by
  unfold optionalStrategy at h
  split at h
  · obtain rfl := Except.ok.inj h
    simp
  · obtain ⟨s, hs, rfl⟩ := map_eq_ok.mp h
    rintro _ ⟨⟩
    exact fromXPath_of_strategyFor hs

theorem fromXPath_of_variantStrategies {snapshot : Snapshot} {selected : NodeSelection}
    {requested : Record} {strategies : List ExtractionStrategy}
    (h : variantStrategies snapshot selected requested = .ok strategies) :
    ∀ s ∈ strategies, FromXPath s := by
  induction requested generalizing strategies with
  | nil =>
      obtain rfl := Except.ok.inj h
      simp
  | cons entry rest ih =>
      unfold variantStrategies at h
      split at h
      · cases h
      · simp only [bind_eq_ok, pure_eq_ok] at h
        obtain ⟨first, hfirst, others, hothers, rfl⟩ := h
        intro s hs
        rcases List.mem_cons.mp hs with rfl | hs
        · exact fromXPath_of_strategyFor hfirst
        · exact ih hothers s hs

/-- A compiled plan lists what reads each of its fields. -/
theorem listedAll_build {inputs : LiveExtractorInputs} (htitle : FromXPath inputs.title)
    (hprice : FromXPath inputs.price) (havailability : FromXPath inputs.availability)
    (hvariant : ∀ s ∈ inputs.selectedVariant, FromXPath s) (hsku : ∀ s ∈ inputs.sku, FromXPath s)
    (hcurrency : ∀ s ∈ inputs.currency, FromXPath s) : ListedAll (buildLiveExtractors inputs) := by
  have hjson : ∀ field, FromXPath (.jsonLd field) := fun _ => True.intro
  have hone : ∀ s, FromXPath s → Listed [s] := fun s hs => ⟨le_rfl, by simpa using hs⟩
  have htwo : ∀ s, FromXPath s → ∀ field, Listed [s, .jsonLd field] := fun s hs field =>
    ⟨by simp, by simpa using ⟨hs, hjson field⟩⟩
  obtain ⟨requested, title, sku, price, currency, availability, selected⟩ := inputs
  constructor
  · exact htwo title htitle .title
  · unfold buildLiveExtractors
    dsimp only
    split
    · exact hone price hprice
    · exact htwo price hprice .price
  · cases currency with
    | none => 
        rintro _ ⟨⟩
        exact hone _ (hjson .currency)
    | some currency =>
        rintro _ ⟨⟩
        exact htwo currency (hcurrency currency rfl) .currency
  · unfold buildLiveExtractors
    dsimp only
    split
    · exact hone availability havailability
    · exact htwo availability havailability .availability
  · exact hvariant
  · cases requested with
    | nil =>
        cases sku with
        | none =>
            rintro _ ⟨⟩
            exact hone _ (hjson .sku)
        | some sku =>
            rintro _ ⟨⟩
            exact htwo sku (hsku sku rfl) .sku
    | cons entry rest =>
        cases sku with
        | none => nofun
        | some sku =>
            rintro _ ⟨⟩
            exact hone sku (hsku sku rfl)

theorem listedAll_fixture (v1 : Bool) (requested : Record) :
    ListedAll (fixtureExtractors v1 requested) := by
  have hpath : ∀ first second name, FromXPath (fixturePath v1 first second name) :=
    fun _ _ _ => startsWith_append _ _
  have hone : ∀ first second name, Listed [fixturePath v1 first second name] :=
    fun first second name => ⟨le_rfl, by simpa using hpath first second name⟩
  constructor
  · exact hone _ _ _
  · exact hone _ _ _
  · rintro _ ⟨⟩
    exact hone _ _ _
  · exact hone _ _ _
  · intro s hs
    obtain ⟨entry, -, rfl⟩ := List.mem_map.mp hs
    exact hpath _ _ _
  · rintro _ ⟨⟩
    exact hone _ _ _

/-- A survey whose plan the schema takes if Stagehand describes its actions. -/
structure SoundSurvey (runtime : Runtime) (outside : Outside W) (survey : Survey) : Prop where
  url : trim survey.provisional.canonicalUrl = survey.provisional.canonicalUrl ∧
    (runtime.parseUrl survey.provisional.canonicalUrl).isSome = true
  variant : WellKeyed survey.provisional.identity.requestedVariant
  steps : ∀ step ∈ survey.provisional.preparationSteps, SoundStep outside step
  extractors : ListedAll survey.provisional.extractors
  titled : Titled survey.observation

theorem SoundSurvey.plan {survey : Survey} (h : SoundSurvey runtime outside survey) :
    SoundPlan runtime outside survey.plan where
  schematic :=
    { url := h.url
      titled := h.titled.title
      fingerprint := h.titled.fingerprint
      variant := h.variant
      selectors := fun step hstep => (h.steps step hstep).selector
      extractors := h.extractors }
  described := fun hdescribes step hstep => (h.steps step hstep).described hdescribes

theorem ensures_executeAndVerify (hruntime : Reliable runtime) (session : Session)
    (plan : MonitorPlanV1) (target : Url) :
    Ensures (executeAndVerify runtime outside session plan target) Titled := by
  unfold executeAndVerify
  exact .bind_of_forall fun _ => .bind (ensures_titled hruntime session plan) fun _ htitled =>
    .bind_of_forall fun _ => .pure htitled

theorem ensures_surveyFixture (hruntime : Reliable runtime) {input : ExecutionInput} {target : Url}
    (hinput : Parsed runtime input) (htarget : trim target.href = target.href ∧
      (runtime.parseUrl target.href).isSome = true) :
    Ensures (surveyFixture runtime outside input target) (SoundSurvey runtime outside) := by
  unfold surveyFixture
  refine .bind_of_forall fun count => .bind (P := fun steps => ∀ step ∈ steps,
    SoundStep outside step) (ensures_check fun steps hsteps step hstep => ?_) fun steps hsteps =>
    .bind (ensures_executeAndVerify hruntime _ _ target) fun observation htitled => .pure
      { url := htarget
        variant := wellKeyed_fixtureVariants hinput
        steps := hsteps
        extractors := listedAll_fixture _ _
        titled := htitled }
  obtain ⟨entry, -, hentry⟩ := exists_of_mapM_ok hsteps step hstep
  exact soundStep_fixture hentry

theorem fromXPath_of_requiredStrategies {snapshot : Snapshot} {selected : NodeSelection}
    {requested : Record} {strategies : Strategies}
    (h : requiredStrategies snapshot selected requested = .ok strategies) :
    FromXPath strategies.title ∧ FromXPath strategies.price ∧ FromXPath strategies.availability ∧
      ∀ s ∈ strategies.selectedVariant, FromXPath s := by
  simp only [requiredStrategies, bind_eq_ok, pure_eq_ok] at h
  obtain ⟨title, htitle, price, hprice, availability, havailability, variant, hvariant, rfl⟩ := h
  exact ⟨fromXPath_of_strategyFor htitle, fromXPath_of_strategyFor hprice,
    fromXPath_of_strategyFor havailability, fromXPath_of_variantStrategies hvariant⟩

theorem ensures_surveyLive (hruntime : Reliable runtime) (hmodel : FitsSchema outside)
    {input : ExecutionInput} {target : Url} (hinput : Parsed runtime input)
    (htarget : trim target.href = target.href ∧ (runtime.parseUrl target.href).isSome = true) :
    Ensures (surveyLive runtime outside config input target) (SoundSurvey runtime outside) := by
  unfold surveyLive
  exact .bind (ensures_requestedBy hmodel hinput) fun requested hrequested =>
    .bind (ensures_observeSteps requested.1) fun steps hsteps => .bind_of_forall fun _ =>
    .bind_of_forall fun snapshot => .bind_of_forall fun selected =>
    .bind (ensures_check fun _ => fromXPath_of_requiredStrategies) fun strategies hstrategies =>
    .bind_of_forall fun semantic => .bind_of_forall fun expected =>
    .bind (ensures_check fun _ => fromXPath_of_optionalStrategy) fun sku hsku =>
    .bind (ensures_check fun _ => fromXPath_of_optionalStrategy) fun currency hcurrency =>
    .bind (ensures_titled hruntime _ _) fun observation htitled => .bind_of_forall fun _ => .pure
      { url := htarget
        variant := hrequested
        steps := hsteps
        extractors := listedAll_build hstrategies.1 hstrategies.2.1 hstrategies.2.2.1
          hstrategies.2.2.2 hsku hcurrency
        titled := htitled }

theorem ensures_adopt {survey : Survey} (h : SoundSurvey runtime outside survey)
    (source : PlanSource) (target : Url) :
    Ensures (adopt runtime outside survey source target) fun compiled =>
      SoundPlan runtime outside compiled.plan := by
  unfold adopt
  exact .bind_of_forall fun _ => .bind_of_forall fun _ => .pure h.plan

theorem ensures_compileMonitor (hruntime : Reliable runtime) (hmodel : FitsSchema outside)
    {input : ExecutionInput} {target : Url} (hinput : Parsed runtime input)
    (htarget : trim target.href = target.href ∧ (runtime.parseUrl target.href).isSome = true) :
    Ensures (compileMonitor runtime outside config input target) fun compiled =>
      SoundPlan runtime outside compiled.plan := by
  unfold compileMonitor
  refine .bind_of_forall fun scripted => .bind_of_forall fun _ => ?_
  split
  · exact .bind (ensures_surveyFixture hruntime hinput htarget) fun _ hsurvey =>
      ensures_adopt hsurvey .scripted target
  · exact .bind (ensures_surveyLive hruntime hmodel hinput htarget) fun _ hsurvey =>
      ensures_adopt hsurvey .stagehand target

/-- A plan whose steps were healed keeps the rest of what it was. -/
theorem ensures_healedReplay {oldPlan : MonitorPlanV1} (hold : SoundPlan runtime outside oldPlan)
    (target : Url) :
    Ensures (healedReplay runtime outside oldPlan target) fun compiled =>
      SoundPlan runtime outside compiled.plan := by
  unfold healedReplay
  have hsteps : ∀ step ∈ oldPlan.preparationSteps, SoundStep outside step := fun step hstep =>
    ⟨hold.schematic.selectors step hstep, fun hdescribes => hold.described hdescribes step hstep⟩
  exact .bind (ensures_healSteps target _ hsteps) fun healed hhealed => .bind_of_forall fun first =>
    .bind_of_forall fun _ => .bind_of_forall fun count => .pure
      ⟨{ hold.schematic with selectors := fun step hstep => (hhealed step hstep).selector },
        fun hdescribes step hstep => (hhealed step hstep).described hdescribes⟩

theorem ensures_repairLive (hruntime : Reliable runtime) (hmodel : FitsSchema outside)
    {input : ExecutionInput} {target : Url} (hinput : Parsed runtime input)
    (htarget : trim target.href = target.href ∧ (runtime.parseUrl target.href).isSome = true)
    {oldPlan : MonitorPlanV1} (hold : SoundPlan runtime outside oldPlan) :
    Ensures (repairLive runtime outside config input oldPlan target) fun compiled =>
      SoundPlan runtime outside compiled.plan := by
  unfold repairLive
  refine .bind_of_forall fun _ => .tryCatch (ensures_healedReplay hold target) fun e => ?_
  split
  · exact ensures_throw
  · exact ensures_compileMonitor hruntime hmodel hinput htarget

theorem ensures_proposeRepair (hruntime : Reliable runtime) (hmodel : FitsSchema outside)
    {input : ExecutionInput} {target : Url} (hinput : Parsed runtime input)
    (htarget : trim target.href = target.href ∧ (runtime.parseUrl target.href).isSome = true)
    {oldPlan : MonitorPlanV1} (hold : SoundPlan runtime outside oldPlan) (scripted : Bool) :
    Ensures (proposeRepair runtime outside config input oldPlan target scripted) fun compiled =>
      SoundPlan runtime outside compiled.plan := by
  unfold proposeRepair
  split
  · exact ensures_timed (ensures_compileMonitor hruntime hmodel hinput htarget)
  · exact ensures_timed (ensures_repairLive hruntime hmodel hinput htarget hold)

theorem ensures_validateTargetUrl (hruntime : Reliable runtime) (text : String)
    (allowed : List String) :
    Ensures (validateTargetUrl runtime outside text allowed) fun target =>
      trim target.href = target.href ∧ (runtime.parseUrl target.href).isSome = true := by
  unfold validateTargetUrl
  split
  · exact ensures_throw
  · rename_i url hparsed
    have hurl : Ensures (pure url : Attempt JsError W Url) fun target =>
        trim target.href = target.href ∧ (runtime.parseUrl target.href).isSome = true :=
      .pure (hruntime.href text url hparsed)
    have hnone : ∀ {α : Type} (e : JsError) (next : α → Attempt JsError W Url),
        Ensures (throw e >>= next) fun target =>
          trim target.href = target.href ∧ (runtime.parseUrl target.href).isSome = true :=
      fun e next => .bind (P := fun _ => False) ensures_throw fun _ => False.elim
    -- every branch rejects the text or goes on to return the URL that was parsed
    dsimp only
    split_ifs
    all_goals first
      | exact hnone _ _
      | exact hurl
      | refine .bind_of_forall fun addresses => ?_
        split_ifs
        all_goals first
          | exact hnone _ _
          | exact hurl

theorem ensures_openJob (hruntime : Reliable runtime) (input : ExecutionInput) :
    Ensures (openJob runtime outside config input) fun opened =>
      trim opened.1.href = opened.1.href ∧ (runtime.parseUrl opened.1.href).isSome = true := by
  unfold openJob
  exact .bind_of_forall fun _ => .bind (ensures_timed (ensures_validateTargetUrl hruntime _ _))
    fun target htarget => .bind_of_forall fun _ => .bind_of_forall fun scripted =>
    .bind_of_forall fun _ => .bind_of_forall fun _ => .bind_of_forall fun _ =>
    .bind_of_forall fun _ => .bind_of_forall fun _ => .bind_of_forall fun _ => .pure htarget

theorem soundPlan_of_revision {input : ExecutionInput} (hinput : Parsed runtime input)
    {revision : InputRevision} (h : requireRevision input = .ok revision) :
    SoundPlan runtime outside revision.plan := by
  unfold requireRevision at h
  split at h
  · cases h
  · rename_i found hrevision
    obtain rfl := Except.ok.inj h
    obtain ⟨document, hread⟩ := hinput.revision _ hrevision
    obtain ⟨hschematic, hdescribed⟩ := schematic_of_read hread
    exact ⟨hschematic, fun _ => hdescribed⟩

theorem ensures_runJob (hruntime : Reliable runtime) (hmodel : FitsSchema outside)
    {input : ExecutionInput} (hinput : Parsed runtime input) (started : Nat) :
    Ensures (runJob runtime outside config started input) fun result =>
      ∀ plan ∈ result.candidatePlan, SoundPlan runtime outside plan := by
  unfold runJob
  refine .bind (ensures_openJob hruntime input) fun (target, scripted) htarget => ?_
  cases hkind : input.execution.kind with
  | compile =>
      refine .bind (ensures_timed (ensures_compileMonitor hruntime hmodel hinput htarget))
        fun compiled hcompiled => .bind_of_forall fun result => .pure ?_
      rintro _ ⟨⟩
      exact hcompiled
  | check =>
      refine .bind_of_forall fun revision => .bind_of_forall fun observation =>
        .bind (ensures_finishJob started input 0) ?_
      rintro _ ⟨artifacts, sessionId, timingsMs, rfl, -⟩
      exact .pure nofun
  | repair =>
      refine .bind (ensures_check fun _ => soundPlan_of_revision hinput) fun revision hold =>
        .bind (ensures_proposeRepair hruntime hmodel hinput htarget hold scripted)
        fun repaired hrepaired => .bind_of_forall fun fresh => .bind_of_forall fun _ =>
        .bind_of_forall fun result => .pure ?_
      rintro _ ⟨⟩
      exact hrepaired

theorem ensures_failJob (started : Nat) (input : ExecutionInput) (error : JsError) :
    Ensures (failJob runtime outside config started input error) fun result =>
      result.candidatePlan = none := by
  unfold failJob
  exact .bind_of_forall fun reason => .bind_of_forall fun aborted => .bind_of_forall fun reached =>
    .bind_of_forall fun artifacts => .bind_of_forall fun ended => .bind_of_forall fun _ =>
    .bind_of_forall fun modelCallCount => .bind_of_forall fun sessionId =>
    .bind_of_forall fun progress => .pure rfl

theorem soundPlan_of_executeJob (hruntime : Reliable runtime) (hmodel : FitsSchema outside)
    {input : ExecutionInput} (hinput : Parsed runtime input) {w w' : W} {result : ExecutionResult}
    (h : Returns (executeJob runtime outside config input) w result w') :
    ∀ plan ∈ result.candidatePlan, SoundPlan runtime outside plan := by
  obtain ⟨s, hrun⟩ | ⟨error, s, s', hfailed⟩ := returns_executeJob h
  · exact ensures_runJob hruntime hmodel hinput _ hrun
  · rw [ensures_failJob _ input error hfailed]
    nofun

end Parts

def hashingRuntime : Runtime :=
  { lampRuntime with
    sha256 := fun text =>
      if 8 ≤ length (lampRuntime.sha256 text) then lampRuntime.sha256 text
      else String.ofList (List.replicate 64 '0') }

theorem reliable_hashingRuntime : Reliable hashingRuntime where
  href := by
    intro text url h
    obtain rfl : url = lampUrl := by
      simp only [hashingRuntime, lampRuntime, asciiRuntime, Option.map_eq_some_iff] at h
      obtain ⟨entry, hentry, rfl⟩ := h
      rw [List.mem_singleton.mp (List.mem_of_find?_eq_some hentry)]
    exact ⟨by decide, by decide⟩
  digest := by
    intro text
    dsimp only [hashingRuntime]
    split_ifs with h
    · exact h
    · decide

theorem fitsSchema_lampPage : FitsSchema lampPage.outside :=
  fun _ => .pure ⟨List.nodup_nil, by simp [lampPage]⟩

theorem schematic_lampPlan : Schematic hashingRuntime lampPlan where
  url := ⟨by decide, by decide⟩
  titled := by decide
  fingerprint := by decide
  variant := ⟨List.nodup_nil, by simp [lampPlan]⟩
  selectors := by simp [lampPlan]
  extractors := by
    have hlisted : ∀ selector, startsWith selector "xpath=" = true →
        Listed [.xpathText selector none] := fun selector h =>
      ⟨le_rfl, fun strategy hstrategy => by rwa [List.mem_singleton.mp hstrategy]⟩
    exact
      { title := hlisted _ (by decide)
        price := hlisted _ (by decide)
        currency := by simp [lampPlan]
        availability := hlisted _ (by decide)
        selectedVariant := by simp [lampPlan]
        sku := by
          rintro _ ⟨⟩
          exact hlisted _ (by decide) }

theorem parsed_lampRepair : Parsed hashingRuntime lampRepair where
  condition := by simp [lampRepair]
  revision := by
    rintro _ ⟨⟩
    exact ⟨planJson lampPlan, read_plan schematic_lampPlan (by simp [Described, lampPlan])⟩

end PriceScout.Worker.ReportedPlans
