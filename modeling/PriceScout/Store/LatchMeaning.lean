import PriceScout.Store.Transitions

/-!
A latch that is set says that the condition matches the observation it was last
written for, as long as every edit of a latched monitor's condition matches it too.
-/

namespace PriceScout.Store.LatchMeaning

open PriceScout.Domain
open PriceScout.Library.JsonDocuments
open PriceScout.Library.Runs
open PriceScout.Library.Tables
open PriceScout.Store.Alerts
open PriceScout.Store.Effects
open PriceScout.Store.Executions
open PriceScout.Store.Inversions
open PriceScout.Store.Monitors
open PriceScout.Store.Operations
open PriceScout.Store.Persistence
open PriceScout.Store.Schema
open PriceScout.Store.Transitions

/-- The call hands in the observation of a check of the monitor, and its result is
accepted and writes the latch. -/
def WritesLatch (db : Database) (call : Call) (monitorId : UUID)
    (observation : ResultObservation) : Prop :=
  ∃ store result, ∃ e ∈ db.executions, ∃ m ∈ db.monitors,
    call.operation = .applyResult store e.id result ∧ m.id = monitorId ∧ e.monitorId = monitorId ∧
      SetsLatch e result m observation ∧
      saysAccepted (applyResult store call.now e.id result db) = true

/-- Among the first calls of a run, the last that writes the latch of the monitor
writes it for the observation. -/
def LastWrites (calls : List Call) (n : Nat) (monitorId : UUID) (observation : ResultObservation) :
    Prop :=
  ∃ i, ∃ h : i < calls.length, i < n ∧
    WritesLatch (stateAt step Database.empty calls i) calls[i] monitorId observation ∧
    ∀ j (h : j < calls.length), i < j → j < n →
      ∀ o, ¬ WritesLatch (stateAt step Database.empty calls j) calls[j] monitorId o

/-- A set latch says that the condition matches the observation it was last written for. -/
def LatchDescribes (calls : List Call) (n : Nat) : Prop :=
  ∀ m ∈ (stateAt step Database.empty calls n).monitors, m.conditionMatched = true →
    ∃ o, LastWrites calls n m.id o ∧ matchesCondition m.condition o = true

/-- The call replaces the condition of the monitor: a confirmation of one of its
pending revisions, or a patch the table accepts. -/
def SetsCondition (db : Database) (call : Call) (monitorId : UUID) (condition : Json) : Prop :=
  (∃ r ∈ db.revisions, ∃ given, call.operation = .confirmMonitor monitorId ⟨r.id, given⟩ ∧
      decidable monitorId r.id r = true ∧ condition = given.getD (.obj [])) ∨
    ∃ params, call.operation = .patchMonitor monitorId params ∧
      params.condition = some condition ∧ (∀ name, params.action ≠ .unsupported name) ∧
      ∀ minutes ∈ params.intervalMinutes, 1 ≤ minutes

/-- A new condition of a latched monitor matches the observation that its latch was
last written for. -/
def EditsMatching (calls : List Call) (n : Nat) (call : Call) : Prop :=
  ∀ m ∈ (stateAt step Database.empty calls n).monitors, m.conditionMatched = true →
    ∀ condition, SetsCondition (stateAt step Database.empty calls n) call m.id condition →
    ∀ o, LastWrites calls n m.id o → matchesCondition condition o = true

/-- The observation that a call hands in. -/
def observed (call : Call) : Option ResultObservation :=
  match call.operation with
  | .applyResult _ _ result => result.observation
  | _ => none

/-- The call does not say of its observation whether it matches. -/
def LeavesMatching (call : Call) : Prop :=
  ∀ observation ∈ observed call, observation.conditionMatched = none

section Steps

variable {db : Database} {call : Call} {m m' : Monitor} {monitorId : UUID}
  {o o' : ResultObservation} {calls : List Call} {n : Nat}

theorem observed_of_writesLatch (h : WritesLatch db call monitorId o) : observed call = some o := by
  obtain ⟨store, result, e, -, m, -, hcall, -, -, hlatch, -⟩ := h
  simp only [observed, hcall]
  exact hlatch.present

theorem WritesLatch.unique (h : WritesLatch db call monitorId o)
    (h' : WritesLatch db call monitorId o') : o = o' :=
  Option.some.inj ((observed_of_writesLatch h).symm.trans (observed_of_writesLatch h'))

/-- Only one observation is the one that a latch was last written for. -/
theorem LastWrites.unique (h : LastWrites calls n monitorId o)
    (h' : LastWrites calls n monitorId o') : o = o' := by
  obtain ⟨i, hi, hin, hwrites, hlast⟩ := h
  obtain ⟨j, hj, hjn, hwrites', hlast'⟩ := h'
  rcases Nat.lt_trichotomy i j with hij | rfl | hji
  · exact absurd hwrites' (hlast j hj hij hjn o')
  · exact hwrites.unique hwrites'
  · exact absurd hwrites (hlast' i hi hji hin o)

theorem lastWrites_succ_of_not (hn : ∀ (h : n < calls.length) (o : ResultObservation),
      ¬ WritesLatch (stateAt step Database.empty calls n) calls[n] monitorId o) :
    LastWrites calls (n + 1) monitorId o ↔ LastWrites calls n monitorId o := by
  constructor
  · rintro ⟨i, hi, hin, hwrites, hlast⟩
    have hne : i ≠ n := by
      rintro rfl
      exact hn hi o hwrites
    exact ⟨i, hi, by omega, hwrites, fun j hj hij hjn => hlast j hj hij (by omega)⟩
  · rintro ⟨i, hi, hin, hwrites, hlast⟩
    refine ⟨i, hi, by omega, hwrites, fun j hj hij hjn => ?_⟩
    rcases Nat.lt_or_eq_of_le (Nat.lt_succ_iff.mp hjn) with hless | rfl
    · exact hlast j hj hij hless
    · exact hn hj

theorem lastWrites_succ_of_writes (hn : n < calls.length)
    (h : WritesLatch (stateAt step Database.empty calls n) calls[n] monitorId o) :
    LastWrites calls (n + 1) monitorId o :=
  ⟨n, hn, Nat.lt_succ_self n, h, fun j _ hij hjn => by omega⟩

/-- The step that writes a latch sets it to whether the observation matches the
condition, and leaves the condition alone. -/
theorem latched_of_writesLatch (h : WritesLatch db call m.id o) (hm : m ∈ db.monitors)
    (hm' : m' ∈ (step db call).monitors) (hid' : m'.id = m.id) :
    m'.conditionMatched = observationMatched m.condition o ∧ m'.condition = m.condition := by
  obtain ⟨store, result, e, he, s, hs, hcall, hid, hmonitor, hlatch, haccepted⟩ := h
  obtain rfl := Table.eq_of_key_eq hs hm hid
  obtain ⟨u, e', db₁, hsettled⟩ := settled_of_saysAccepted hcall haccepted
  obtain rfl := Table.eq_of_key_eq hsettled.retired.mem he hsettled.id
  obtain ⟨v, hv, ⟨hvid, hturned⟩ | ⟨hvid, rfl⟩⟩ := turnedIn_settled hsettled m' hm'
  · obtain rfl := Table.eq_of_key_eq hv hm (hvid.trans hmonitor)
    cases hturned with
    | kept hsets hnone => exact absurd hlatch (hnone o)
    | latched observation hwritten =>
        obtain rfl := Option.some.inj (hlatch.present.symm.trans hwritten.present)
        exact ⟨rfl, rfl⟩
    | compiled hstatus hkind | promoted id failedRevisionId hstatus hkind | held hstatus hkind =>
        have hcheck := hlatch.check
        simp [hkind] at hcheck
    | refused status nextRunAt hstatus hsets =>
        exact absurd hsets (not_setsStatus_of_observed hlatch.succeeded hlatch.check)
  · exact absurd (hmonitor.trans hid'.symm).symm hvid

/-- A step that writes no latch leaves the latch, and the condition unless it sets that. -/
theorem unlatched_of_not_writesLatch (hnone : ∀ o, ¬ WritesLatch db call m.id o)
    (hm : m ∈ db.monitors) (hwritten : Rewritten db call m m') :
    m'.conditionMatched = m.conditionMatched ∧
      (m'.condition = m.condition ∨ SetsCondition db call m.id m'.condition) := by
  cases hwritten with
  | kept | rescheduled | accepted | rejected | abandoned => exact ⟨rfl, Or.inl rfl⟩
  | confirmed r condition hcall hrevision hdecidable =>
      exact ⟨rfl, Or.inr (Or.inl ⟨r, hrevision, condition, hcall, hdecidable, rfl⟩)⟩
  | patched params hcall haction hinterval =>
      refine ⟨patchAssign_conditionMatched _ _ _, ?_⟩
      rw [patchAssign_condition]
      cases hcondition : params.condition with
      | none => exact Or.inl rfl
      | some condition => exact Or.inr (Or.inr ⟨params, hcall, hcondition, haction, hinterval⟩)
  | settled store executionId result e e' db₁ m' hcall haccepted hsettled hmonitor hturned =>
      cases hturned with
      | kept | compiled | promoted | held | refused => exact ⟨rfl, Or.inl rfl⟩
      | latched observation hlatch =>
          obtain rfl := hsettled.id
          exact absurd ⟨store, result, e, hsettled.retired.mem, m, hm, hcall, rfl, hmonitor, hlatch,
            haccepted⟩ (hnone observation)

/-- A call that sets a condition writes no latch. -/
theorem not_writesLatch_of_setsCondition {condition : Json}
    (h : SetsCondition db call monitorId condition) : ¬ WritesLatch db call monitorId o := by
  rintro ⟨store, result, e, -, m, -, hcall, -⟩
  rcases h with ⟨r, -, given, hother, -⟩ | ⟨params, hother, -⟩
  · simp [hcall] at hother
  · simp [hcall] at hother

/-- Setting the condition of a latched monitor leaves it latched with that condition. -/
theorem exists_of_setsCondition {condition : Json} (hm : m ∈ db.monitors)
    (h : SetsCondition db call m.id condition) :
    ∃ m' ∈ (step db call).monitors, m'.id = m.id ∧ m'.conditionMatched = m.conditionMatched ∧
      m'.condition = condition := by
  rcases h with
    ⟨r, hr, given, hcall, hdecidable, rfl⟩ | ⟨params, hcall, hcondition, haction, hinterval⟩
  · rw [step_confirmMonitor hcall hm hr hdecidable]
    exact ⟨_, Table.mem_update_of_pos hm (by simp), rfl, rfl, rfl⟩
  · refine ⟨_, step_patchMonitor hcall hm rfl haction hinterval, patchAssign_id _ _ _,
      patchAssign_conditionMatched _ _ _, ?_⟩
    simp [patchAssign_condition, hcondition]

theorem observationMatched_of_leavesMatching (h : LeavesMatching call)
    (hwrites : WritesLatch db call monitorId o) (condition : Json) :
    observationMatched condition o = matchesCondition condition o := by
  simp [observationMatched, h o (observed_of_writesLatch hwrites)]

/-- One step keeps what a set latch says when its edits match. -/
theorem LatchDescribes.succ (hn : n < calls.length) (h : LatchDescribes calls n)
    (hleaves : LeavesMatching calls[n]) (hedits : EditsMatching calls n calls[n]) :
    LatchDescribes calls (n + 1) := by
  intro m' hm' hlatch
  rw [stateAt_succ hn] at hm'
  rcases rewritten_of_step hm' with ⟨id, params, -, rfl, -⟩ | ⟨m, hm, hwritten⟩
  · simp [newMonitor] at hlatch
  · rw [hwritten.id]
    by_cases hwrites : ∃ o, WritesLatch (stateAt step Database.empty calls n) calls[n] m.id o
    · obtain ⟨o, hwrites⟩ := hwrites
      obtain ⟨hmatched, hcondition⟩ := latched_of_writesLatch hwrites hm hm' hwritten.id
      refine ⟨o, lastWrites_succ_of_writes hn hwrites, ?_⟩
      rw [hcondition, ← observationMatched_of_leavesMatching hleaves hwrites, ← hmatched, hlatch]
    · have hnone := not_exists.mp hwrites
      obtain ⟨hsame, hcondition⟩ := unlatched_of_not_writesLatch hnone hm hwritten
      obtain ⟨o, hlast, hmatches⟩ := h m hm (hsame.symm.trans hlatch)
      refine ⟨o, (lastWrites_succ_of_not fun _ => hnone).mpr hlast, ?_⟩
      rcases hcondition with hcondition | hsets
      · rwa [hcondition]
      · exact hedits m hm (hsame.symm.trans hlatch) _ hsets o hlast

/-- An edit after which the latch says the truth matches. -/
theorem editsMatching_of_latchDescribes (hn : n < calls.length)
    (h : LatchDescribes calls (n + 1)) : EditsMatching calls n calls[n] := by
  intro m hm hlatch condition hsets o hlast
  obtain ⟨m', hm', hid, hsame, rfl⟩ := exists_of_setsCondition hm hsets
  obtain ⟨o', hlast', hmatches⟩ := h m' (by rwa [stateAt_succ hn]) (hsame.trans hlatch)
  rw [hid, lastWrites_succ_of_not fun _ _ => not_writesLatch_of_setsCondition hsets] at hlast'
  rwa [hlast.unique hlast']

end Steps

/-- In a run whose results say of no observation whether it matches, every set latch
describes the condition throughout exactly when every edit of the condition of a
latched monitor matches the observation its latch was last written for. -/
theorem latch_describes_iff_editsMatching (calls : List Call)
    (hleaves : ∀ call ∈ calls, LeavesMatching call) :
    (∀ n, LatchDescribes calls n) ↔
      ∀ n (h : n < calls.length), EditsMatching calls n calls[n] := by
  constructor
  · exact fun hdescribes n hn => editsMatching_of_latchDescribes hn (hdescribes (n + 1))
  · intro hedits n
    induction n with
    | zero =>
        intro m hm
        rw [stateAt_zero] at hm
        exact absurd hm (Table.not_mem_empty m)
    | succ n ih =>
        by_cases hn : n < calls.length
        · exact ih.succ hn (hleaves _ (List.getElem_mem hn)) (hedits n hn)
        · intro m hm hlatch
          rw [stateAt_succ_of_length_le (Nat.le_of_not_lt hn)] at hm
          obtain ⟨o, hlast, hmatches⟩ := ih m hm hlatch
          refine ⟨o, (lastWrites_succ_of_not fun h => absurd h hn).mpr hlast, hmatches⟩

def belowMinor (priceMinor : Int) : Json :=
  .obj [("priceBelowMinor", .int priceMinor), ("currency", .str "USD"),
    ("requireInStock", .bool true)]

/-- An observation of the item in stock at five dollars. -/
def atFiveDollars : ResultObservation where
  priceMinor := 500
  currency := "USD"
  inStock := true
  title := "Desk Lamp"
  rawText := ""
  identity := none
  verificationState := ""
  conditionMatched := none

/-- A price below ten dollars is observed and confirmed, and then the operator asks
for less than another price. -/
def lowered (priceMinor : Int) : List Call :=
  let observed : ExecutionResult :=
    { ExecutionResult.bare "succeeded" "" with observation := some atFiveDollars }
  [⟨0, .createMonitor ⟨"https://shop.example/item", "price of the item", 60, ""⟩⟩,
   ⟨1, .applyResult (openStore [] 3) ⟨2⟩
     { ExecutionResult.bare "succeeded" "" with plan := some (.obj []) }⟩,
   ⟨2, .confirmMonitor ⟨1⟩ ⟨⟨3⟩, some (belowMinor 1000)⟩⟩,
   ⟨3, .enqueueCheck ⟨1⟩ "" ""⟩,
   ⟨4, .applyResult (openStore [] 3) ⟨4⟩ observed⟩,
   ⟨5, .applyResult (openStore [] 3) ⟨6⟩ observed⟩,
   ⟨6, .patchMonitor ⟨1⟩ ⟨none, some (belowMinor priceMinor), .none⟩⟩]

theorem observed_lowered (priceMinor : Int) :
    ∀ call ∈ lowered priceMinor, ∀ o ∈ observed call, o = atFiveDollars := by
  simp [lowered, observed, ExecutionResult.bare]

theorem leavesMatching_lowered (priceMinor : Int) :
    ∀ call ∈ lowered priceMinor, LeavesMatching call := by
  intro call hcall o ho
  rw [observed_lowered priceMinor call hcall o ho]
  rfl

theorem latch_describes_iff_editsMatching_raised :
    (∀ n, LatchDescribes (lowered 2000) n) ↔
      ∀ n (h : n < (lowered 2000).length), EditsMatching (lowered 2000) n (lowered 2000)[n] :=
  latch_describes_iff_editsMatching (lowered 2000) (leavesMatching_lowered 2000)

/-- After the edit the latch is set, and the price does not match the condition. -/
theorem lowered_swallows_match :
    ¬ ∀ calls : List Call, (∀ call ∈ calls, LeavesMatching call) → ∀ n, LatchDescribes calls n := by
  intro h
  have hdescribes := h (lowered 400) (leavesMatching_lowered 400) 7
  have latched : ∃ m ∈ (stateAt step Database.empty (lowered 400) 7).monitors,
      m.conditionMatched = true ∧ matchesCondition m.condition atFiveDollars = false := by
    decide +kernel
  obtain ⟨m, hm, hlatch, hnot⟩ := latched
  obtain ⟨o, ⟨i, hi, -, hwrites, -⟩, hmatches⟩ := hdescribes m hm hlatch
  obtain rfl := observed_lowered 400 _ (List.getElem_mem hi) o (observed_of_writesLatch hwrites)
  simp [hnot] at hmatches

end PriceScout.Store.LatchMeaning
