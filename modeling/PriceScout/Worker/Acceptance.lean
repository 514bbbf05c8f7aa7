import PriceScout.Library.Rounding
import PriceScout.Store.Rejections
import PriceScout.Worker.Api
import PriceScout.Worker.Artifacts
import PriceScout.Worker.Repair

/-!
Whether the control plane takes the results of its workers. It does so unless a
page makes the body too large, or shows a price or a title that only the worker
takes for one.
-/

namespace PriceScout.Worker.Acceptance

open PriceScout.Domain (Execution ResultArtifact ResultObservation Timestamp)
open PriceScout.Httpapi.Handlers
open PriceScout.Library.Attempts
open PriceScout.Library.GoStrings
open PriceScout.Library.JsonDocuments
open PriceScout.Library.Numbers
open PriceScout.Library.Rounding
open PriceScout.Library.Runs
open PriceScout.Library.Tables
open PriceScout.Store.Alerts
open PriceScout.Store.Effects
open PriceScout.Store.Executions
open PriceScout.Store.Recovery
open PriceScout.Store.Rejections
open PriceScout.Store.Schema
open PriceScout.Worker.Api
open PriceScout.Worker.Artifacts
open PriceScout.Worker.Contracts
open PriceScout.Worker.Environment
open PriceScout.Worker.Handler
open PriceScout.Worker.Outcomes
open PriceScout.Worker.Repair
open PriceScout.Worker.Validation

/-- The control plane takes a result for its execution: it decodes the body, and
`ApplyResult` does not refuse it as invalid as long as the execution has not ended. -/
def Taken (execution : InputExecution) (result : ExecutionResult) : Prop :=
  ∃ taken, decodeJSON resultFields (.bare "" "") (resultBody result) = .ok taken ∧
    ∀ (store : OpenStore) (now : Timestamp) (db : Database), ∀ e ∈ db.executions,
      e.id = execution.id → e.kind = execution.kind → isTerminalExecution e.state = false →
        ∀ message, applyResult store now execution.id taken db ≠ .error (.invalidResult message)

/-- The text of a price gives a positive 64-bit number of minor units, and the
title is not blank to Go. -/
structure FitsObservation (observation : Observation) : Prop where
  price : ∃ price, parsePrice observation.rawPrice = .ok price ∧
    ∃ n : ℕ, price.priceMinor = .finite n ∧ 1 ≤ n ∧ n < 2 ^ 63
  title : trimSpace observation.title ≠ ""

/-- A result stays within the limits of the control plane. -/
structure Fits (result : ExecutionResult) : Prop where
  body : (resultJson result).byteSize ≤ 2 ^ 20
  screenshot : ∀ artifact ∈ result.artifacts, artifact.kind = .screenshot →
    artifact.sizeBytes ≤ 50 * 2 ^ 20
  observation : ∀ observation ∈ result.observation, FitsObservation observation

section Prices

/-- A parsed price is a whole number of minor units, or too large for a number. -/
theorem minorUnits_cases {x y : Number} (h : minorUnits x = .ok y) :
    y = .infinity ∨ ∃ n : ℕ, y = .finite n := by
  unfold minorUnits at h
  split at h
  · rename_i value
    split at h
    · cases h
    · rename_i hpos
      cases h
      rw [Number.scale, Number.ofRat]
      split
      · right
        have hround : 0 ≤ nearest (value * (100 : ℕ)) :=
          nearest_nonneg (mul_nonneg (not_le.mp hpos).le (Nat.cast_nonneg _))
        have hfloor : 0 ≤ ⌊nearest (value * (100 : ℕ)) + 1 / 2⌋ :=
          Int.floor_nonneg.mpr (add_nonneg hround (by norm_num))
        refine ⟨⌊nearest (value * (100 : ℕ)) + 1 / 2⌋.toNat, ?_⟩
        rw [Number.round]
        congr 1
        exact_mod_cast (Int.toNat_of_nonneg hfloor).symm
      · exact Or.inl rfl
  · cases h

theorem json_ne_null (value : ℚ) : (Number.finite value).json ≠ .null := by
  simp only [Number.json]
  split
  · simp [Json.int]
  · unfold Decimal.literal
    dsimp only
    split_ifs <;> simp

/-- A price is read as a positive one just when it is a positive 64-bit integer. -/
theorem read_pos_iff {x : Number} (h : x = .infinity ∨ ∃ n : ℕ, x = .finite n) :
    (∃ k, Json.assignInt64 0 x.json = some k ∧ 0 < k) ↔
      ∃ n : ℕ, x = .finite n ∧ 1 ≤ n ∧ n < 2 ^ 63 := by
  rcases h with rfl | ⟨n, rfl⟩
  · simp [Number.json, Json.assignInt64]
  · simp only [Number.finite.injEq, Nat.cast_inj, exists_eq_left',
      Json.assignInt64_of_ne_null (json_ne_null n)]
    rcases Nat.eq_zero_or_pos n with rfl | hn
    · simp [Number.json, Json.int, Json.int64?]
    · rw [← int64?_json_iff hn, and_iff_right (a := 1 ≤ n) hn]
      exact exists_congr fun k => and_iff_left_of_imp (pos_of_int64?_json hn)

end Prices

section Results

variable {input : ExecutionInput} {result : ExecutionResult} {e : Execution}
  {observation : Option ResultObservation} {artifacts : List ResultArtifact}

theorem validResultStatus_string (status : ResultStatus) :
    (validResultStatus status.string).isSome = true := by
  cases status <;> rfl

theorem string_eq_succeeded_iff {status : ResultStatus} :
    status.string = "succeeded" ↔ status = .succeeded := by
  cases status <;> decide

/-- An observation is read if there is one and its price is. -/
theorem receivedObservation?_cases (h : receivedObservation? result = some observation) :
    result.observation = none ∧ observation = none ∨
      ∃ o r, result.observation = some o ∧ observation = some r ∧
        receivedObservation result.status o = some r := by
  unfold receivedObservation? at h
  split at h
  · rename_i hnone
    cases h
    exact Or.inl ⟨hnone, rfl⟩
  · rename_i o hsome
    obtain ⟨r, hr, rfl⟩ := Option.map_eq_some_iff.mp h
    exact Or.inr ⟨o, r, hsome, rfl, hr⟩

/-- The parts of a result agree with each other as the control plane wants it. -/
theorem validateResult_received (h : Reports input result) (hkind : e.kind = input.execution.kind)
    (hobservation : receivedObservation? result = some observation) :
    validateResult e (received result observation artifacts) = .ok () := by
  have hsame : result.kind = e.kind := h.kind.trans hkind.symm
  have hplan : result.status = .succeeded → e.kind ≠ .check →
      (received result observation artifacts).plan.isNone = false := by
    intro hstatus hcheck
    simpa [received, Option.isSome_iff_ne_none] using h.plan hstatus (hsame ▸ hcheck)
  have hobserved : result.status = .succeeded → e.kind = .check → observation.isNone = false := by
    intro hstatus hcheck
    have hsome := h.observation hstatus (hsame.trans hcheck)
    rcases receivedObservation?_cases hobservation with ⟨hnone, -⟩ | ⟨o, r, -, rfl, -⟩
    · simp [hnone] at hsome
    · rfl
  have hword : (received result observation artifacts).status = "succeeded" ↔
      result.status = .succeeded := string_eq_succeeded_iff
  unfold validateResult
  by_cases hstatus : result.status = .succeeded
  · rw [if_neg (not_not_intro (hword.mpr hstatus))]
    cases hk : e.kind with
    | compile => exact if_neg (by simp [hplan hstatus (by simp [hk])])
    | check => exact if_neg (by simp [received, hobserved hstatus hk])
    | repair => exact if_neg (by simp [hplan hstatus (by simp [hk])])
  · rw [if_pos (mt hword.mp hstatus)]
    obtain ⟨failure, hfailure⟩ := Option.isSome_iff_exists.mp (h.failure hstatus).1
    refine if_neg fun hempty => ?_
    have hclassified := hempty.2
    simp only [received, hfailure, Option.map_some, Option.getD_some] at hclassified
    revert hclassified
    cases failure.classification <;> decide

/-- An artifact that is read is acceptable unless it is a screenshot that is too large. -/
theorem validArtifact_received_iff {artifact : ArtifactRef} {taken : ResultArtifact}
    (h : Evidence input.execution.id.string artifact) (hid : input.execution.id.value < 2 ^ 128)
    (heid : e.id = input.execution.id) (htaken : receivedArtifact artifact = some taken) :
    validArtifact e taken = true ↔
      (artifact.kind = .screenshot → artifact.sizeBytes ≤ 50 * 2 ^ 20) := by
  obtain ⟨size, hsize, rfl⟩ := Option.map_eq_some_iff.mp htaken
  obtain rfl : (artifact.sizeBytes : Int) = size := by
    simp only [Json.int, Json.int64?, Option.ite_none_right_eq_some, Option.some.injEq] at hsize
    exact hsize.2
  have hkey : artifact.storageKey = storageKey e.id artifact.kind := by
    rw [h.storageKey, safeIdOf_uuid hid, storageKey, heid]
  rw [validArtifact_iff rfl hkey rfl (Int.natCast_nonneg _)]
  cases hkind : artifact.kind with
  | screenshot => simp
  | snapshot =>
      have hle := h.snapshot hkind
      simp
      omega

theorem validObservation_received_iff {status : ResultStatus} {o : Observation}
    {r : ResultObservation} (hstatus : status ≠ .needsReview)
    (h : receivedObservation status o = some r) :
    AcceptableObservation r ↔ 0 < r.priceMinor ∧ trimSpace r.title ≠ "" := by
  obtain ⟨priceMinor, hprice, rfl⟩ := Option.map_eq_some_iff.mp h
  constructor
  · exact fun hacceptable => ⟨hacceptable.price, hacceptable.title⟩
  · rintro ⟨hpositive, htitle⟩
    refine ⟨hpositive, ?_, htitle, .verified, ?_⟩
    · show byteLength o.currency.code = 3
      cases o.currency <;> decide
    · simp [observationVerification, verificationState, hstatus]

/-- What is read of a result is acceptable unless its sizes or its observation are not. -/
theorem acceptable_received_iff (h : Reports input result)
    (hid : input.execution.id.value < 2 ^ 128)
    (heid : e.id = input.execution.id) (hkind : e.kind = input.execution.kind)
    (hobservation : receivedObservation? result = some observation)
    (hartifacts : result.artifacts.mapM receivedArtifact = some artifacts) :
    Acceptable e (received result observation artifacts) ↔
      (∀ artifact ∈ result.artifacts, artifact.kind = .screenshot →
        artifact.sizeBytes ≤ 50 * 2 ^ 20) ∧
      ∀ observed ∈ observation, 0 < observed.priceMinor ∧ trimSpace observed.title ≠ "" := by
  obtain ⟨htaken, hgiven⟩ := Json.exists_of_mapM hartifacts
  have hobserved : ∀ observed ∈ observation, result.status = .succeeded ∧
      (AcceptableObservation observed ↔
        0 < observed.priceMinor ∧ trimSpace observed.title ≠ "") := by
    rcases receivedObservation?_cases hobservation with ⟨-, rfl⟩ | ⟨o, r, ho, rfl, hr⟩
    · simp
    · rintro _ ⟨⟩
      have hstatus : result.status = .succeeded := by
        by_contra hfailed
        simp [(h.failure hfailed).2] at ho
      exact ⟨hstatus, validObservation_received_iff (by simp [hstatus]) hr⟩
  constructor
  · intro hacceptable
    refine ⟨fun artifact hartifact => ?_, fun observed hmem => ?_⟩
    · obtain ⟨taken, hmem, hread⟩ := htaken artifact hartifact
      exact (validArtifact_received_iff (h.artifacts artifact hartifact) hid heid hread).mp
        (hacceptable.artifacts taken hmem)
    · obtain ⟨hstatus, hiff⟩ := hobserved observed hmem
      exact hiff.mp (hacceptable.observation (string_eq_succeeded_iff.mpr hstatus) observed hmem)
  · rintro ⟨hsizes, hvalid⟩
    refine ⟨validResultStatus_string _, validateResult_received h hkind hobservation, ?_, ?_⟩
    · intro taken hmem
      obtain ⟨artifact, hartifact, hread⟩ := hgiven taken hmem
      exact (validArtifact_received_iff (h.artifacts artifact hartifact) hid heid hread).mpr
        (hsizes artifact hartifact)
    · intro _ observed hmem
      exact (hobserved observed hmem).2.mpr (hvalid observed hmem)

/-- The body of a result is decoded if it is not too large and its parts fit. -/
theorem decode_resultBody_iff {taken : Domain.ExecutionResult} :
    decodeJSON resultFields (.bare "" "") (resultBody result) = .ok taken ↔
      (resultJson result).byteSize ≤ 2 ^ 20 ∧
        ∃ observation artifacts, receivedObservation? result = some observation ∧
          result.artifacts.mapM receivedArtifact = some artifacts ∧
            received result observation artifacts = taken := by
  simp only [resultBody, decodeJSON, decode_resultJson, maxBytes]
  by_cases hbody : 2 ^ 20 < (resultJson result).byteSize
  · simp only [if_pos hbody, reduceCtorEq, not_le.mpr hbody, false_and]
  · simp only [if_neg hbody, not_lt.mp hbody, true_and]
    cases hobservation : receivedObservation? result with
    | none => simp
    | some observation =>
        cases hartifacts : result.artifacts.mapM receivedArtifact with
        | none => simp
        | some artifacts => simp

/-- The price and the title of an observation are read as good ones just when they fit. -/
theorem fitsObservation_iff {o : Observation} (status : ResultStatus) (h : Priced o) :
    FitsObservation o ↔ ∃ r, receivedObservation status o = some r ∧ 0 < r.priceMinor ∧
      trimSpace r.title ≠ "" := by
  obtain ⟨price, hparse, hprice⟩ := h
  have hwhole : price.priceMinor = .infinity ∨ ∃ n : ℕ, price.priceMinor = .finite n := by
    simp only [parsePrice, bind_eq_ok, pure_eq_ok] at hparse
    obtain ⟨_, _, priceMinor, hminor, rfl⟩ := hparse
    exact minorUnits_cases hminor
  have hread := read_pos_iff hwhole
  constructor
  · rintro ⟨⟨_, hsame, hfits⟩, htitle⟩
    obtain rfl := Except.ok.inj (hparse.symm.trans hsame)
    obtain ⟨k, hk, hpos⟩ := hread.mpr hfits
    exact ⟨_, Option.map_eq_some_iff.mpr ⟨k, hprice ▸ hk, rfl⟩, hpos, htitle⟩
  · rintro ⟨r, hr, hpos, htitle⟩
    obtain ⟨k, hk, rfl⟩ := Option.map_eq_some_iff.mp hr
    exact ⟨⟨price, hparse, hread.mp ⟨k, hprice ▸ hk, hpos⟩⟩, htitle⟩

/-- An artifact that is not too large is read. -/
theorem receivedArtifact_isSome {artifact : ArtifactRef}
    (h : Evidence input.execution.id.string artifact)
    (hsize : artifact.kind = .screenshot → artifact.sizeBytes ≤ 50 * 2 ^ 20) :
    (receivedArtifact artifact).isSome = true := by
  have hle : artifact.sizeBytes ≤ 50 * 2 ^ 20 := by
    cases hkind : artifact.kind with
    | screenshot => exact hsize hkind
    | snapshot => exact (h.snapshot hkind).trans (by decide)
  have hfits : -(2 ^ 63) ≤ (artifact.sizeBytes : Int) ∧ (artifact.sizeBytes : Int) < 2 ^ 63 := by
    norm_num
    omega
  simp only [receivedArtifact, Json.int, Json.int64?, if_pos hfits, Option.map_some,
    Option.isSome_some]

/-- A result that is taken is within the limits. -/
theorem fits_of_taken (h : Reports input result) (hid : input.execution.id.value < 2 ^ 128)
    (htaken : Taken input.execution result) : Fits result := by
  obtain ⟨taken, hdecode, hnever⟩ := htaken
  obtain ⟨hbody, observation, artifacts, hobservation, hartifacts, rfl⟩ :=
    decode_resultBody_iff.mp hdecode
  let e := newExecution input.execution.id ⟨0⟩ input.execution.kind 0
  have hacceptable : Acceptable e (received result observation artifacts) := by
    by_contra hrefused
    obtain ⟨message, hmessage⟩ : ∃ message, applyResult (openStore [] 3) 0 e.id
        (received result observation artifacts) (soleDatabase e) =
          .error (.invalidResult message) := refused_of_not_acceptable rfl hrefused
    exact hnever _ _ _ e (List.mem_singleton_self _) rfl rfl rfl message hmessage
  obtain ⟨hsizes, hvalid⟩ :=
    (acceptable_received_iff h hid rfl rfl hobservation hartifacts).mp hacceptable
  refine ⟨hbody, hsizes, fun o ho => ?_⟩
  rw [fitsObservation_iff result.status (h.priced o ho)]
  rcases receivedObservation?_cases hobservation with ⟨hnone, -⟩ | ⟨o', r, ho', rfl, hr⟩
  · simp [hnone] at ho
  · obtain rfl := Option.some.inj (ho'.symm.trans ho)
    exact ⟨r, hr, hvalid r rfl⟩

/-- A result within the limits is taken. -/
theorem taken_of_fits (h : Reports input result) (hid : input.execution.id.value < 2 ^ 128)
    (hfits : Fits result) : Taken input.execution result := by
  obtain ⟨artifacts, hartifacts⟩ := Json.exists_mapM fun artifact hartifact =>
    receivedArtifact_isSome (h.artifacts artifact hartifact) (hfits.screenshot artifact hartifact)
  obtain ⟨observation, hobservation, hvalid⟩ : ∃ observation,
      receivedObservation? result = some observation ∧
        ∀ observed ∈ observation, 0 < observed.priceMinor ∧ trimSpace observed.title ≠ "" := by
    unfold receivedObservation?
    cases ho : result.observation with
    | none => exact ⟨none, rfl, by simp⟩
    | some o =>
        obtain ⟨r, hr, hgood⟩ := (fitsObservation_iff result.status (h.priced o ho)).mp
          (hfits.observation o ho)
        exact ⟨some r, by simp [hr], by simpa using hgood⟩
  refine ⟨_, decode_resultBody_iff.mpr
    ⟨hfits.body, observation, artifacts, hobservation, hartifacts, rfl⟩, ?_⟩
  intro store now db e he heid hkind hlive message hmessage
  have hacceptable := (acceptable_received_iff h hid heid hkind hobservation hartifacts).mpr
    ⟨hfits.screenshot, hvalid⟩
  refine avoids_applyResult (fun s hs hsid _ => ?_) _ hmessage trivial
  rwa [Table.eq_of_key_eq hs he (hsid.trans heid.symm)]

end Results

/-- **The control plane takes what a job returns just when the body and the
screenshot are not too large and the price and the title that the page shows
fit.** -/
theorem taken_iff_fits (runtime : Runtime) {W : Type} (outside : Outside W) (config : WorkerConfig)
    (input : ExecutionInput) (w w' : W) (result : ExecutionResult)
    (hid : input.execution.id.value < 2 ^ 128)
    (hreturns : Returns (executeJob runtime outside config input) w result w') :
    Taken input.execution result ↔ Fits result := by
  have hreports := reports_of_executeJob hreturns
  exact ⟨fits_of_taken hreports hid, taken_of_fits hreports hid⟩

/-! The page of the lamp, at any price. -/

def pricedRuntime : Runtime :=
  asciiRuntime [(lampUrl.href, lampUrl)]
    [("desk lamp\x00lamp 7", "4685bfa6576a4051c2ddcc19fede6dc38288e98f01d5bc489e774186eee70dc4"),
      ("", "e3b0c44298fc1c149afbf4c8996fb92427ae41e4649b934ca495991b7852b855")]

def pricedPage (price : String) : StillPage :=
  { lampPage with
    texts :=
      [("xpath=/html/body/main/h1", "Desk Lamp"), ("xpath=/html/body/main/p[1]", price),
       ("xpath=/html/body/main/p[2]", "In stock"), ("xpath=/html/body/main/p[3]", "LAMP-7")]
    screenshot :=
      { byteLength := 69
        sha256 := "e878950f8091ec010cf5cc723bdea027a8539cf7147cfea199c2f666232dcd4e" } }

def lampCheck : ExecutionInput :=
  { lampRepair with execution := { id := ⟨5⟩, kind := .check } }

/-- A check of the lamp returns what it costs. -/
theorem returns_lampCheck (price : String)
    (h : (match (outcome (executeJob pricedRuntime (pricedPage price).outside lampConfig lampCheck)
        ()).1 with
      | .ok result => decide (result.observation.map (·.rawPrice) = some price)
      | .error _ => false) = true) :
    ∃ result, Returns (executeJob pricedRuntime (pricedPage price).outside lampConfig lampCheck) ()
      result () ∧ result.observation.map (·.rawPrice) = some price := by
  split at h
  · rename_i result hresult
    exact ⟨result, Prod.ext hresult (Subsingleton.elim _ _), of_decide_eq_true h⟩
  · cases h

theorem taken_iff_fits_lamp :
    ∃ result, Returns (executeJob pricedRuntime (pricedPage "$49.00").outside lampConfig lampCheck)
      () result () ∧ (Taken lampCheck.execution result ↔ Fits result) := by
  obtain ⟨result, hreturns, -⟩ := returns_lampCheck "$49.00" (by decide +kernel)
  exact ⟨result, hreturns, taken_iff_fits pricedRuntime (pricedPage "$49.00").outside lampConfig
    lampCheck () () result (by decide) hreturns⟩

/-- A price of ten to the nineteen minor units is one for the worker only. -/
theorem largePrice_not_taken :
    ¬ ∀ (runtime : Runtime) (outside : Outside Unit) (config : WorkerConfig)
      (input : ExecutionInput) (w w' : Unit) (result : ExecutionResult),
      input.execution.id.value < 2 ^ 128 →
      Returns (executeJob runtime outside config input) w result w' →
      Taken input.execution result := by
  intro h
  obtain ⟨result, hreturns, hprice⟩ :=
    returns_lampCheck "$100000000000000000" (by decide +kernel)
  have htaken := h _ _ _ lampCheck () () result (by decide) hreturns
  have hfits := fits_of_taken (reports_of_executeJob hreturns) (by decide) htaken
  obtain ⟨o, ho, hraw⟩ := Option.map_eq_some_iff.mp hprice
  obtain ⟨price, hparse, n, hminor, -, hlt⟩ := (hfits.observation o ho).price
  have hlarge : parsePrice "$100000000000000000" = .ok ⟨.finite (10 ^ 19), some .usd⟩ := by
    decide +kernel
  rw [hraw, hlarge, Except.ok.injEq] at hparse
  have hcast : (10 ^ 19 : ℚ) = n := by simpa [← hparse] using hminor
  have hn : 10 ^ 19 = n := by exact_mod_cast hcast
  omega

end PriceScout.Worker.Acceptance
