import PriceScout.Worker.Handler

/-!
The shapes of the results of a job: what its kind adds when it succeeds, and
its failure when it does not. The prices of its observations are parsed from
texts, and its artifacts are the two files of its evidence.
-/

namespace PriceScout.Worker.Outcomes

open PriceScout.Domain (ExecutionKind)
open PriceScout.Library.Attempts
open PriceScout.Library.JsStrings
open PriceScout.Library.Numbers
open PriceScout.Worker.Compiler
open PriceScout.Worker.Contracts
open PriceScout.Worker.Environment
open PriceScout.Worker.Extract
open PriceScout.Worker.Handler
open PriceScout.Worker.Validation

/-- The price of an observation is the one in its text. -/
def Priced (observation : Observation) : Prop :=
  ∃ price, parsePrice observation.rawPrice = .ok price ∧ observation.priceMinor = price.priceMinor

def fileName : ArtifactKind → String
  | .screenshot => "/page.png"
  | .snapshot => "/snapshot.txt"

/-- An artifact is a file of an execution's evidence. -/
structure Evidence (executionId : String) (artifact : ArtifactRef) : Prop where
  storageKey : artifact.storageKey = safeIdOf executionId ++ fileName artifact.kind
  snapshot : artifact.kind = .snapshot → artifact.sizeBytes ≤ 6000000

/-- A result is one that a job of this input can have. -/
structure Reports (input : ExecutionInput) (result : ExecutionResult) : Prop where
  kind : result.kind = input.execution.kind
  artifacts : ∀ artifact ∈ result.artifacts, Evidence input.execution.id.string artifact
  priced : ∀ observation ∈ result.observation, Priced observation
  failure : result.status ≠ .succeeded → result.failure.isSome = true ∧ result.observation = none
  noFailure : result.status = .succeeded → result.failure = none
  observation : result.status = .succeeded → result.kind = .check → result.observation.isSome = true
  plan : result.status = .succeeded → result.kind ≠ .check → result.candidatePlan.isSome = true

section Ensured

variable {runtime : Runtime} {W : Type} {outside : Outside W} {config : WorkerConfig}

theorem ensures_check {α : Type} {x : Except JsError α} {P : α → Prop}
    (h : ∀ a, x = .ok a → P a) : Ensures (check x : Attempt JsError W α) P :=
  fun _ a _ hreturns => h a (returns_check.mp hreturns).1

theorem ensures_throw {α : Type} {e : JsError} {P : α → Prop} :
    Ensures (throw e : Attempt JsError W α) P :=
  fun _ _ _ hreturns => absurd hreturns not_returns_throw

/-- A snapshot is cut to a bounded length. -/
theorem byteLength_snapshot_le (runtime : Runtime) (tree : String) :
    (textBuffer runtime (slice 2000000 tree)).byteLength ≤ 6000000 := by
  have hcut := length_slice_le 2000000 tree
  have hbytes := utf8ByteSize_le (slice 2000000 tree)
  simp only [textBuffer]
  omega

theorem ensures_captureEvidence (executionId : String) :
    Ensures (captureEvidence runtime outside config executionId) fun artifacts =>
      ∀ artifact ∈ artifacts, Evidence executionId artifact := by
  unfold captureEvidence
  dsimp only
  split
  · exact .bind (P := fun _ => False) ensures_throw fun _ => False.elim
  · refine .bind_of_forall fun _ => .bind_of_forall fun screenshot =>
      .bind_of_forall fun snapshot => .bind_of_forall fun _ => .bind_of_forall fun _ => .pure ?_
    simp only [List.forall_mem_cons, List.not_mem_nil, false_implies, implies_true, and_true]
    exact ⟨⟨rfl, nofun⟩, ⟨rfl, fun _ => byteLength_snapshot_le runtime _⟩⟩

theorem ensures_extractFields (session : Session) (plan : MonitorPlanV1) :
    Ensures (extractFields runtime outside session plan) Priced := by
  unfold extractFields
  refine .bind_of_forall fun title => .bind_of_forall fun rawPrice =>
    .bind_of_forall fun availabilityRaw => ?_
  split
  · refine .bind_of_forall fun sku => .bind_of_forall fun currencyRaw =>
      .bind (ensures_check fun _ => id) fun price hprice => .bind_of_forall fun currency =>
      .bind_of_forall fun variant => .bind_of_forall fun inStock => .pure ⟨price, hprice, rfl⟩
  · exact ensures_throw

theorem ensures_extractObservation (session : Session) (plan : MonitorPlanV1) :
    Ensures (extractObservation runtime outside session plan) Priced := by
  intro w observation w' hreturns
  have hfst : (outcome (extractFields runtime outside session plan) (w, none)).1 =
      .ok observation := congrArg Prod.fst hreturns
  exact ensures_extractFields session plan (Prod.ext hfst rfl)

theorem ensures_executeAndVerify (session : Session) (plan : MonitorPlanV1) (target : Url) :
    Ensures (executeAndVerify runtime outside session plan target) Priced := by
  unfold executeAndVerify
  exact .bind_of_forall fun _ => .bind (ensures_extractObservation session plan)
    fun _ hpriced => .bind_of_forall fun _ => .pure hpriced

theorem ensures_warmCheck (session : Session) (plan : MonitorPlanV1) (target : Url) :
    Ensures (warmCheck runtime outside session plan target) Priced :=
  .bind_of_forall fun _ => ensures_executeAndVerify session plan target

theorem ensures_surveyFixture (input : ExecutionInput) (target : Url) :
    Ensures (surveyFixture runtime outside input target) fun survey =>
      Priced survey.observation := by
  unfold surveyFixture
  exact .bind_of_forall fun _ => .bind_of_forall fun _ =>
    .bind (ensures_executeAndVerify _ _ target) fun _ hpriced => .pure hpriced

theorem ensures_surveyLive (input : ExecutionInput) (target : Url) :
    Ensures (surveyLive runtime outside config input target) fun survey =>
      Priced survey.observation := by
  unfold surveyLive
  exact .bind_of_forall fun _ => .bind_of_forall fun _ => .bind_of_forall fun _ =>
    .bind_of_forall fun _ => .bind_of_forall fun _ => .bind_of_forall fun _ =>
    .bind_of_forall fun _ => .bind_of_forall fun _ => .bind_of_forall fun _ =>
    .bind_of_forall fun _ => .bind (ensures_extractObservation _ _) fun _ hpriced =>
    .bind_of_forall fun _ => .pure hpriced

theorem ensures_adopt {survey : Survey} (h : Priced survey.observation) (source : PlanSource)
    (target : Url) :
    Ensures (adopt runtime outside survey source target) fun compiled =>
      Priced compiled.observation := by
  unfold adopt
  exact .bind_of_forall fun _ => .bind_of_forall fun _ => .pure h

theorem ensures_compileMonitor (input : ExecutionInput) (target : Url) :
    Ensures (compileMonitor runtime outside config input target) fun compiled =>
      Priced compiled.observation := by
  unfold compileMonitor
  refine .bind_of_forall fun scripted => .bind_of_forall fun _ => ?_
  split
  · exact .bind (ensures_surveyFixture input target) fun _ hpriced =>
      ensures_adopt hpriced .scripted target
  · exact .bind (ensures_surveyLive input target) fun _ hpriced =>
      ensures_adopt hpriced .stagehand target

/-- A job that has succeeded begins its result with its evidence. -/
theorem ensures_finishJob (started : Nat) (input : ExecutionInput) (modelCallCount : Nat) :
    Ensures (finishJob runtime outside config started input modelCallCount) fun result =>
      ∃ artifacts sessionId timingsMs,
        result = newResult config input .succeeded artifacts modelCallCount sessionId timingsMs ∧
          ∀ artifact ∈ artifacts, Evidence input.execution.id.string artifact := by
  unfold finishJob
  exact .bind (ensures_timed (ensures_captureEvidence _)) fun artifacts hevidence =>
    .bind_of_forall fun _ => .bind_of_forall fun _ => .bind_of_forall fun sessionId =>
    .bind_of_forall fun progress => .pure ⟨artifacts, sessionId, progress.timingsMs, rfl, hevidence⟩

theorem ensures_compileJob (started : Nat) (input : ExecutionInput) (target : Url) :
    Ensures (compileJob runtime outside config started input target) (Reports input) := by
  unfold compileJob
  refine .bind (ensures_timed (ensures_compileMonitor input target)) fun compiled hpriced =>
    .bind (ensures_finishJob started input _) ?_
  rintro _ ⟨artifacts, sessionId, timingsMs, rfl, hevidence⟩
  refine .pure
    { kind := rfl
      artifacts := hevidence
      priced := ?_
      failure := fun hstatus => absurd rfl hstatus
      noFailure := fun _ => rfl
      observation := fun _ _ => rfl
      plan := fun _ _ => rfl }
  rintro _ ⟨⟩
  exact hpriced

theorem ensures_checkJob (started : Nat) {input : ExecutionInput} (target : Url)
    (hkind : input.execution.kind = .check) :
    Ensures (checkJob runtime outside config started input target) (Reports input) := by
  unfold checkJob
  refine .bind_of_forall fun revision => .bind (ensures_timed (ensures_warmCheck _ _ target))
    fun observation hpriced => .bind (ensures_finishJob started input _) ?_
  rintro _ ⟨artifacts, sessionId, timingsMs, rfl, hevidence⟩
  refine .pure
    { kind := rfl
      artifacts := hevidence
      priced := ?_
      failure := fun hstatus => absurd rfl hstatus
      noFailure := fun _ => rfl
      observation := fun _ _ => rfl
      plan := fun _ hcheck => absurd hkind hcheck }
  rintro _ ⟨⟩
  exact hpriced

theorem ensures_repairJob (started : Nat) {input : ExecutionInput} (target : Url) (scripted : Bool)
    (hkind : input.execution.kind = .repair) :
    Ensures (repairJob runtime outside config started input target scripted) (Reports input) := by
  unfold repairJob
  refine .bind_of_forall fun revision => .bind_of_forall fun repaired =>
    .bind_of_forall fun freshObservation => .bind_of_forall fun _ =>
    .bind (ensures_finishJob started input _) ?_
  rintro _ ⟨artifacts, sessionId, timingsMs, rfl, hevidence⟩
  exact .pure
    { kind := rfl
      artifacts := hevidence
      priced := fun _ hobservation => absurd hobservation (Option.not_mem_none _)
      failure := fun hstatus => absurd rfl hstatus
      noFailure := fun _ => rfl
      observation := fun _ hcheck => ExecutionKind.noConfusion (hkind.symm.trans hcheck)
      plan := fun _ _ => rfl }

theorem ensures_failJob (started : Nat) (input : ExecutionInput) (error : JsError) :
    Ensures (failJob runtime outside config started input error) (Reports input) := by
  unfold failJob
  refine .bind_of_forall fun reason => .bind_of_forall fun aborted => .bind_of_forall fun reached =>
    .bind (P := fun artifacts => ∀ artifact ∈ artifacts,
      Evidence input.execution.id.string artifact) ?_ fun artifacts hevidence =>
    .bind_of_forall fun ended => .bind_of_forall fun _ => .bind_of_forall fun modelCallCount =>
    .bind_of_forall fun sessionId => .bind_of_forall fun progress => .pure ?_
  · unfold failureEvidence
    split
    · exact .tryCatch (ensures_timed (ensures_captureEvidence _)) fun _ => .pure (by simp)
    · exact .pure (by simp)
  · have hstatus : ∀ error, (if isValidationError error = true then ResultStatus.needsReview
        else .failed) ≠ .succeeded := by
      intro error
      split <;> decide
    exact
      { kind := rfl
        artifacts := hevidence
        priced := fun _ hobservation => absurd hobservation (Option.not_mem_none _)
        failure := fun _ => ⟨rfl, rfl⟩
        noFailure := fun hsucceeded => absurd hsucceeded (hstatus _)
        observation := fun hsucceeded => absurd hsucceeded (hstatus _)
        plan := fun hsucceeded => absurd hsucceeded (hstatus _) }

/-- Whatever a job returns is a report of it. -/
theorem reports_of_executeJob {input : ExecutionInput} {w w' : W} {result : ExecutionResult}
    (h : Returns (executeJob runtime outside config input) w result w') : Reports input result := by
  obtain ⟨s, hrun⟩ | ⟨error, s, s', hfailed⟩ := returns_executeJob h
  · have hensures : Ensures (runJob runtime outside config (outside.now w).1 input)
        (Reports input) := by
      unfold runJob
      refine .bind_of_forall fun (target, scripted) => ?_
      cases hkind : input.execution.kind with
      | compile => exact ensures_compileJob _ input target
      | check => exact ensures_checkJob _ target hkind
      | repair => exact ensures_repairJob _ target scripted hkind
    exact hensures hrun
  · exact ensures_failJob _ input error hfailed

end Ensured

end PriceScout.Worker.Outcomes
