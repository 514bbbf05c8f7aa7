import PriceScout.Store.Generations

/-!
The current plan of a monitor only moves forward along the line of its
generations, so a repair that may promote its plan always finds the plan it
repaired still current.
-/

namespace PriceScout.Store.Promotion

open PriceScout.Domain
open PriceScout.Library.JsonDocuments
open PriceScout.Library.Runs
open PriceScout.Library.Tables
open PriceScout.Store.Alerts
open PriceScout.Store.Effects
open PriceScout.Store.Executions
open PriceScout.Store.Generations
open PriceScout.Store.Inversions
open PriceScout.Store.Monitors
open PriceScout.Store.Operations
open PriceScout.Store.Outbox
open PriceScout.Store.Persistence
open PriceScout.Store.Provenance
open PriceScout.Store.Recovery
open PriceScout.Store.Schema
open PriceScout.Store.Serialization

/-- The generations of a monitor's revisions. -/
def generations (db : Database) (monitorId : UUID) : List Nat :=
  (db.revisions.rows.filter fun r => r.monitorId = monitorId).map (·.generation)

/-- The revisions of each monitor are one line of generations, each repaired
from the one before, and nothing is compiled or repaired beside a pending one. -/
structure OneLine (db : Database) : Prop where
  numbered : ∀ monitorId, ∃ n, (generations db monitorId).Perm (List.range' 1 n)
  compiled : ∀ r ∈ db.revisions, r.generation = 1 → r.source = .compile
  repaired : ∀ r ∈ db.revisions, ∀ k, 1 ≤ k → r.generation = k + 1 →
    r.source = .repair ∧ ∃ a ∈ db.repairAttempts, a.candidateRevisionId = some r.id ∧
      ∀ b ∈ db.repairAttempts, b.monitorId = r.monitorId ∧ b.failedGeneration = k ↔ b = a
  produced : ∀ a ∈ db.repairAttempts, ∀ id ∈ a.candidateRevisionId, ∃ r ∈ db.revisions,
    r.id = id ∧ r.monitorId = a.monitorId ∧ r.generation = a.failedGeneration + 1
  pending : ∀ r ∈ db.revisions, ∀ s ∈ db.revisions, r.pending = true → s.pending = true →
    r.monitorId = s.monitorId → r = s
  checked : ∀ r ∈ db.revisions, r.pending = true → ∀ e ∈ db.executions,
    e.monitorId = r.monitorId → e.inFlight = true → e.kind = .check

/-- Every monitor keeps its current plan or has moved to one of a later generation. -/
def Advances (db db' : Database) : Prop :=
  ∀ m ∈ db.monitors, ∀ m' ∈ db'.monitors, m'.id = m.id →
    m'.currentRevisionId = m.currentRevisionId ∨
    ∃ r' ∈ db'.revisions, m'.currentRevisionId = some r'.id ∧ r'.monitorId = m.id ∧
      ∀ r ∈ db.revisions, m.currentRevisionId = some r.id → r.generation < r'.generation

/-- The plan of a repair became the current one of its monitor. -/
def Promoted (db : Database) (e : Execution) (db' : Database) : Prop :=
  ∃ m ∈ db'.monitors, m.id = e.monitorId ∧ ∃ r ∈ db'.revisions, r ∉ db.revisions ∧
    m.currentRevisionId = some r.id ∧ r.monitorId = e.monitorId ∧ r.validationState = .active ∧
    ∃ generation, e.requestedGeneration = some generation ∧ r.generation = generation + 1

theorem foldr_max_mem (generations : List Nat) :
    generations.foldr max 0 = 0 ∨ generations.foldr max 0 ∈ generations := by
  induction generations with
  | nil => exact Or.inl rfl
  | cons j generations ih =>
      right
      rw [List.foldr_cons]
      rcases max_choice j (generations.foldr max 0) with h | h
      · rw [h]
        exact List.mem_cons_self
      · rcases ih with hzero | hmem
        · rw [hzero, Nat.max_zero]
          exact List.mem_cons_self
        · rw [h]
          exact List.mem_cons_of_mem j hmem

section Line

variable {db : Database}

theorem mem_generations {monitorId : UUID} {k : Nat} :
    k ∈ generations db monitorId ↔
      ∃ r ∈ db.revisions, r.monitorId = monitorId ∧ r.generation = k := by
  simp [generations, Table.mem_def, and_assoc]

theorem nodup_generations (h : Line db.revisions) (monitorId : UUID) :
    (generations db monitorId).Nodup := by
  refine List.Nodup.map_on ?_ (db.revisions.nodup_rows.filter _)
  intro r hr s hs hgeneration
  obtain ⟨hr, hrm⟩ := List.mem_filter.mp hr
  obtain ⟨hs, hsm⟩ := List.mem_filter.mp hs
  simp only [decide_eq_true_eq] at hrm hsm
  exact h.unique r hr s hs (hrm.trans hsm.symm) hgeneration

theorem numbered (h : Line db.revisions) (monitorId : UUID) :
    (generations db monitorId).Perm
      (List.range' 1 ((generations db monitorId).foldr max 0)) := by
  refine (List.perm_ext_iff_of_nodup (nodup_generations h monitorId) List.nodup_range').mpr ?_
  intro k
  rw [List.mem_range'_1]
  constructor
  · intro hk
    have hle := le_foldr_max k hk
    obtain ⟨r, hr, -, rfl⟩ := mem_generations.mp hk
    have := h.positive r hr
    omega
  · rintro ⟨hpos, hle⟩
    rcases foldr_max_mem (generations db monitorId) with hzero | hmem
    · omega
    · by_cases hlast : k = (generations db monitorId).foldr max 0
      · exact hlast ▸ hmem
      · obtain ⟨r, hr, rfl, hgeneration⟩ := mem_generations.mp hmem
        obtain ⟨s, hs, hsm, hsg⟩ := h.contiguous r hr k hpos (by omega)
        exact mem_generations.mpr ⟨s, hs, hsm, hsg⟩

/-- A pending revision is the last of its monitor. -/
theorem pending_unique (h : Line db.revisions) {r s : Revision} (hr : r ∈ db.revisions)
    (hs : s ∈ db.revisions) (hrp : r.pending = true) (hsp : s.pending = true)
    (hmonitor : r.monitorId = s.monitorId) : r = s := by
  have hsr := h.pendingLatest r hr hrp s hs hmonitor.symm
  have hrs := h.pendingLatest s hs hsp r hr hmonitor
  exact h.unique r hr s hs hmonitor (by omega)

theorem check_beside_pending (h : Lineage db) {r : Revision} (hr : r ∈ db.revisions)
    (hpending : r.pending = true) {e : Execution} (he : e ∈ db.executions)
    (hmonitor : e.monitorId = r.monitorId) (hflight : e.inFlight = true) : e.kind = .check := by
  obtain ⟨hcompile, hrepair⟩ := h.wellFounded e he hflight
  cases hkind : e.kind with
  | check => rfl
  | compile => exact absurd hmonitor.symm (hcompile hkind r hr)
  | repair =>
      obtain ⟨generation, -, hlast, -⟩ := hrepair hkind
      simp [(hlast r hr hmonitor.symm).2] at hpending

theorem oneLine (h : Lineage db) : OneLine db where
  numbered := fun monitorId => ⟨_, numbered h.line monitorId⟩
  compiled := h.line.compiled
  repaired := by
    intro r hr k hk hgeneration
    obtain ⟨hsource, a, ha, hmonitor, hfailed, hcandidate⟩ := h.repaired r hr (by omega)
    refine ⟨hsource, a, ha, hcandidate, fun b hb => ⟨?_, ?_⟩⟩
    · rintro ⟨hbm, hbf⟩
      exact h.attempts.generation b hb a ha (hbm.trans hmonitor.symm) (by omega)
    · rintro rfl
      exact ⟨hmonitor, by omega⟩
  produced := by
    intro a ha id hid
    obtain ⟨r, hr, hrid, hmonitor, hfailed, -⟩ := h.candidates a ha id hid
    exact ⟨r, hr, hrid, hmonitor.symm, hfailed.symm⟩
  pending := fun _ hr _ hs hrp hsp hmonitor => pending_unique h.line hr hs hrp hsp hmonitor
  checked := fun _ hr hpending _ he hmonitor hflight =>
    check_beside_pending h hr hpending he hmonitor hflight

end Line

section Advancing

variable {now : Timestamp} {db db' db'' db₁ : Database} {e e' : Execution} {m : Monitor}

theorem advances_of_samePlan (h : db.monitors.Extends SamePlan db'.monitors) : Advances db db' := by
  intro m hm m' hm' hid
  obtain ⟨s, hs, hsid, hsame⟩ := h m hm
  obtain rfl := Table.eq_of_key_eq hs hm' (hsid.trans hid.symm)
  exact Or.inl hsame

theorem advances_of_touched (h : db.monitors.Evolves Touched db'.monitors) : Advances db db' :=
  advances_of_samePlan (extends_of_touched h)

theorem Advances.trans (h : Advances db db') (h' : Advances db' db'') (hpersists : Persists db db')
    (hpersists' : Persists db' db'') : Advances db db'' := by
  intro m hm m'' hm'' hid
  obtain ⟨m', hm', hid', -⟩ := hpersists.monitors m hm
  rcases h' m' hm' m'' hm'' (hid.trans hid'.symm) with
    hsame' | ⟨r'', hr'', hcurrent', hmonitor', hless'⟩
  · rw [hsame']
    refine (h m hm m' hm' hid').imp_right ?_
    rintro ⟨r', hr', hcurrent, hmonitor, hless⟩
    obtain ⟨s, hs, hsid, hrev⟩ := hpersists'.revisions r' hr'
    refine ⟨s, hs, by rw [hcurrent, hsid], hrev.monitorId.trans hmonitor, fun r hr hr₀ => ?_⟩
    exact hrev.generation ▸ hless r hr hr₀
  · refine Or.inr ⟨r'', hr'', hcurrent', hmonitor'.trans hid', fun r hr hr₀ => ?_⟩
    rcases h m hm m' hm' hid' with hsame | ⟨r', hr', hcurrent, -, hless⟩
    · obtain ⟨s, hs, hsid, hrev⟩ := hpersists.revisions r hr
      exact hrev.generation ▸ hless' s hs (by rw [hsame, hr₀, hsid])
    · exact (hless r hr hr₀).trans (hless' r' hr' hcurrent)

/-- A monitor that takes up a revision later than all it can have run before advances. -/
theorem advances_of_update {r' : Revision} {f : Monitor → Monitor} {hf : ∀ m, (f m).id = m.id}
    {monitorId : UUID} (hr' : r' ∈ db'.revisions) (hown : r'.monitorId = monitorId)
    (hmonitors : db'.monitors = db.monitors.update (fun m => decide (m.id = monitorId)) f hf)
    (hf' : ∀ m, (f m).currentRevisionId = some r'.id)
    (hlater : ∀ m ∈ db.monitors, m.id = monitorId → ∀ r ∈ db.revisions,
      m.currentRevisionId = some r.id → r.generation < r'.generation) : Advances db db' := by
  intro m hm m' hm' hid
  rw [hmonitors] at hm'
  rcases Table.mem_update_cases hm' with ⟨s, hs, hp, rfl⟩ | ⟨hm', -⟩
  · obtain rfl := Table.eq_of_key_eq hs hm ((hf s).symm.trans hid)
    have hsid : s.id = monitorId := by simpa using hp
    exact Or.inr ⟨r', hr', hf' s, hown.trans hsid.symm, hlater s hm hsid⟩
  · obtain rfl := Table.eq_of_key_eq hm' hm hid
    exact Or.inl rfl

/-- What a monitor runs is one of its revisions and not pending. -/
theorem current_of_plansActive (h : PlansActive db) (hm : m ∈ db.monitors) {r : Revision}
    (hr : r ∈ db.revisions) (hcurrent : m.currentRevisionId = some r.id) :
    r.monitorId = m.id ∧ r.validationState = .active := by
  obtain ⟨s, hs, hsid, hmonitor, hactive, -⟩ := h.monitors m hm r.id hcurrent
  obtain rfl := Table.eq_of_key_eq hs hr hsid
  exact ⟨hmonitor, hactive⟩

/-- A pending revision is later than the current one. -/
theorem lt_of_pending (h : Coherent db) (hm : m ∈ db.monitors) {r p : Revision}
    (hr : r ∈ db.revisions) (hcurrent : m.currentRevisionId = some r.id) (hp : p ∈ db.revisions)
    (hown : p.monitorId = m.id) (hpending : p.pending = true) : r.generation < p.generation := by
  obtain ⟨hmonitor, hactive⟩ := current_of_plansActive h.plans hm hr hcurrent
  have hsame := hmonitor.trans hown.symm
  refine lt_of_le_of_ne (h.lineage.line.pendingLatest p hp hpending r hr hsame) fun heq => ?_
  obtain rfl := h.lineage.line.unique r hr p hp hsame heq
  simp [Revision.pending, hactive, ValidationState.pending] at hpending

theorem advances_planEffect {plan : Json} {autoPromote : Bool} (h : Coherent db)
    (heffect : PlanEffect now e plan autoPromote db db') : Advances db db' := by
  cases heffect with
  | compiled id revisions' uuids' hkind hrevision =>
      exact advances_of_samePlan (Table.extends_update samePlan_refl fun _ _ _ => rfl)
  | held id revisions' uuids' hkind hheld hrevision =>
      exact advances_of_samePlan (Table.extends_update samePlan_refl fun _ _ _ => rfl)
  | promoted id failedRevisionId m revisions' uuids' hkind hauto hfailed hmem hid hcurrent
      hrevision =>
      refine advances_of_update hrevision.mem rfl rfl (fun _ => rfl) ?_
      intro m hm hmid r hr hcurrent'
      have hown := (current_of_plansActive h.plans hm hr hcurrent').1.trans hmid
      have hlater := lt_nextGeneration hr
      rwa [hown] at hlater

theorem advances_outcome {store : OpenStore} {result : ExecutionResult} (h : Coherent db)
    (houtcome : Outcome store now e result db db') : Advances db db' := by
  cases houtcome with
  | planned plan db' hstatus hkind hplan heffect hobservation => exact advances_planEffect h heffect
  | plannedAndRecorded plan observation m o db₁ db' hstatus hkind hplan heffect hobservation
      hrecorded =>
      exact (advances_planEffect h heffect).trans
        (advances_of_touched (touched_of_eq hrecorded.unchanged.1)) (.planEffect heffect)
        (.recorded hrecorded)
  | observed observation m o db₁ db' hstatus hkind hobservation hrecorded hreaction =>
      exact (advances_of_touched (touched_of_eq hrecorded.unchanged.1)).trans
        (advances_of_samePlan (plan_reaction hreaction).forward) (.recorded hrecorded)
        (.reaction hreaction)
  | failed db' hstatus heffect => exact advances_of_touched (touched_failureEffect heffect)

theorem advances_settled {store : OpenStore} {executionId : UUID} {result : ExecutionResult}
    (h : Coherent db) (hsettled : Settled store now executionId result db e e' db₁ db') :
    Advances db db' :=
  (advances_of_touched (touched_of_eq hsettled.retired.monitors)).trans
    (advances_outcome (h.retired hsettled.retired).coherent hsettled.outcome)
    (.retired hsettled.retired) (.outcome hsettled.outcome)

theorem advances_effect {call : Call} (h : Coherent db) (heffect : Effect call db db') :
    Advances db db' := by
  cases heffect with
  | created monitorId executionId params monitors' db' hcall hinterval hmonitor henqueued =>
      refine advances_of_samePlan ?_
      rw [henqueued.monitors]
      exact .of_appended samePlan_refl hmonitor
  | claimed | renewed | published => exact advances_of_touched (touched_of_eq rfl)
  | checkQueued id m r idempotencyKey traceparent db' hcall hnew hadmitting henqueued =>
      exact advances_of_touched (touched_of_eq henqueued.monitors)
  | dueQueued id m r limit locked db' hcall hadmitting henqueued =>
      refine advances_of_touched ((touched_of_eq henqueued.monitors).trans Touched.trans ?_)
      exact touched_updateMonitor fun _ => ⟨rfl, rfl⟩
  | confirmed m r condition hcall hmonitor hrevision hdecidable =>
      obtain ⟨hown, hpending⟩ := decidable_iff.mp hdecidable
      refine advances_of_update
        (Table.mem_update_of_neg (Table.mem_update_of_pos hrevision hdecidable)
        (by simp [otherPending])) hown rfl (fun _ => rfl) ?_
      intro s hs hid p hp hcurrent
      have hlater : p.generation < r.generation :=
        lt_of_pending h hs hp hcurrent hrevision (hown.trans hid.symm) hpending
      exact hlater
  | patched m params hcall hmonitor =>
      exact advances_of_touched (touched_updateMonitor fun m => touched_patchAssign params m)
  | accepted m r hcall hmonitor hrevision hdecidable =>
      obtain ⟨hown, hpending⟩ := decidable_iff.mp hdecidable
      refine advances_of_update (Table.mem_update_of_pos hrevision hdecidable) hown rfl
        (fun _ => rfl) ?_
      intro s hs hid p hp hcurrent
      have hlater : p.generation < r.generation :=
        lt_of_pending h hs hp hcurrent hrevision (hown.trans hid.symm) hpending
      exact hlater
  | rejected m r hcall hmonitor hrevision hdecidable =>
      exact advances_of_samePlan (Table.extends_update samePlan_refl fun _ _ _ => rfl)
  | terminalized e e' db₁ runningStaleAfter maxAttempts limit locked hcall hattempts hretired
      hrunning hfailed =>
      exact advances_of_touched ((touched_of_eq hretired.monitors).trans Touched.trans
        touched_terminalizeStaleExecution)
  | replaced e e' db₁ db' runningStaleAfter maxAttempts limit locked hcall hattempts hretired
      hrunning hfailed hreplaced =>
      exact advances_of_touched (touched_of_eq (hreplaced.monitors.trans hretired.monitors))

theorem advances_step (h : Coherent db) (call : Call) : Advances db (step db call) := by
  rcases step_effects db call with heffects | ⟨store, id, result, e, e', db₁, -, hsettled⟩
  · generalize Operations.step db call = s' at heffects
    suffices hall : Coherent s' ∧ Persists db s' ∧ Advances db s' from hall.2.2
    induction heffects with
    | refl => exact ⟨h, .refl db, advances_of_touched (touched_of_eq rfl)⟩
    | tail _ hlast ih =>
        obtain ⟨hcoherent, hpersists, hadvances⟩ := ih
        exact ⟨hcoherent.effect hlast, hpersists.trans (.effect hlast),
          hadvances.trans (advances_effect hcoherent hlast) hpersists (.effect hlast)⟩
  · exact advances_settled h hsettled

theorem advances_stateAt (calls : List Call) {i j : Nat} (hij : i ≤ j) :
    Advances (stateAt step Database.empty calls i) (stateAt step Database.empty calls j) := by
  induction j, hij using Nat.le_induction with
  | base => exact advances_of_touched (touched_of_eq rfl)
  | succ j hij ih =>
      by_cases hlt : j < calls.length
      · rw [stateAt_succ hlt]
        have hcoherent := coherent_of_reachable (reachable_stateAt calls j)
        exact ih.trans (advances_step hcoherent calls[j]) (.stateAt _ _ hij) (.step _ _)
      · rwa [stateAt_succ_of_length_le (Nat.le_of_not_lt hlt)]

/-- The plan that a repair in flight repairs is the current one of its monitor. -/
theorem current_of_repair (h : Coherent db) (hwell : WellFounded db e) (hkind : e.kind = .repair)
    (hplanned : ExecutesActivePlan db e) :
    ∃ m ∈ db.monitors, m.id = e.monitorId ∧ m.currentRevisionId = e.revisionId := by
  obtain ⟨p, hp, hrevision, hown, hactive, hgeneration⟩ := hplanned
  obtain ⟨generation, hgeneration', hlast, -⟩ := hwell.2 hkind
  obtain ⟨m, hm, hid, c, hc, hcurrent, hle⟩ := h.lineage.currentLatest p hp hactive
  have hcm := (current_of_plansActive h.plans hm hc hcurrent).1.trans hid
  have hcle := (hlast c hc (hcm.trans hown)).1
  rw [hgeneration', Option.some.injEq] at hgeneration
  obtain rfl := h.lineage.line.unique p hp c hc hcm.symm (by omega)
  exact ⟨m, hm, hid.trans hown, hcurrent.trans hrevision.symm⟩

/-- A repair that may promote its plan does. -/
theorem promoted_planEffect {plan : Json} (h : Coherent db) (hwell : WellFounded db e)
    (hkind : e.kind = .repair) (hplanned : ExecutesActivePlan db e)
    (heffect : PlanEffect now e plan true db db') : Promoted db e db' := by
  obtain ⟨m, hm, hid, hcurrent⟩ := current_of_repair h hwell hkind hplanned
  obtain ⟨p, hp, hrevision, hown, -, hgeneration⟩ := hplanned
  cases heffect with
  | compiled id revisions' uuids' hcompile hrevision' => simp [hkind] at hcompile
  | held id revisions' uuids' hrepair hheld hrevision' =>
      exact absurd (hcurrent.trans hrevision) (hheld rfl p.id hrevision m hm hid)
  | promoted id failedRevisionId m' revisions' uuids' hrepair hauto hfailed hmem hid' hcurrent'
      hrevision' =>
      refine ⟨_, Table.mem_update_of_pos hm (by simpa using hid), hid, _, hrevision'.mem,
        hrevision'.not_mem, rfl, rfl, rfl, p.generation, hgeneration, ?_⟩
      obtain ⟨generation, hgeneration', hlast, -⟩ := hwell.2 hkind
      obtain rfl : p.generation = generation := by
        rw [hgeneration] at hgeneration'
        exact Option.some.inj hgeneration'
      exact nextGeneration_eq (fun r hr hsame => (hlast r hr hsame).1) (Or.inr ⟨p, hp, hown, rfl⟩)

theorem promoted_of_applyResult {store : OpenStore} {result : ExecutionResult} {answer : Execution}
    (h : Coherent db) (he : e ∈ db.executions) (hkind : e.kind = .repair)
    (hstatus : result.status = "succeeded") (hauto : result.autoPromote = true)
    (hok : applyResult store now e.id result db = .ok ((answer, true), db')) :
    Promoted db e db' := by
  rcases applyResult_ok hok with ⟨hfalse, -⟩ | ⟨-, s, s', db₁, hsettled⟩
  · cases hfalse
  obtain rfl := Table.eq_of_key_eq hsettled.retired.mem he hsettled.id
  obtain ⟨hcoherent, hidle, hmonitor, hwell, hplanned⟩ := h.retired hsettled.retired
  have hplan := hplanned (by simp [hkind])
  have hpromoted : ∀ {plan : Json} {db₂ : Database},
      PlanEffect now s plan result.autoPromote db₁ db₂ → Promoted db s db₂ := by
    intro plan db₂ heffect
    rw [hauto] at heffect
    have := promoted_planEffect hcoherent hwell hkind hplan heffect
    unfold Promoted at this ⊢
    rwa [hsettled.retired.revisions] at this
  cases hsettled.outcome with
  | planned plan db' _ _ _ heffect hobservation => exact hpromoted heffect
  | plannedAndRecorded plan observation m o db₂ db' _ _ _ heffect hobservation hrecorded =>
      have := hpromoted heffect
      unfold Promoted at this ⊢
      rwa [hrecorded.unchanged.1, hrecorded.unchanged.2.1]
  | observed observation m o db₂ db' _ hcheck => simp [hkind] at hcheck
  | failed db' hfailed => exact absurd hstatus hfailed

end Advancing

/-- In every state of every run the revisions of each monitor form one line,
along which its current plan only advances, and no repair that may promote its
plan fails to. -/
theorem plans_form_one_line (calls : List Call) :
    (∀ n, OneLine (stateAt step Database.empty calls n)) ∧
      (∀ i j, i ≤ j →
        Advances (stateAt step Database.empty calls i) (stateAt step Database.empty calls j)) ∧
      ∀ n store now result answer db', ∀ e ∈ (stateAt step Database.empty calls n).executions,
        e.kind = .repair → result.status = "succeeded" → result.autoPromote = true →
        applyResult store now e.id result (stateAt step Database.empty calls n) =
          .ok ((answer, true), db') →
        Promoted (stateAt step Database.empty calls n) e db' := by
  have hcoherent : ∀ n, Coherent (stateAt step Database.empty calls n) := fun n =>
    coherent_of_reachable (reachable_stateAt calls n)
  refine ⟨fun n => oneLine (hcoherent n).lineage, fun i j hij => advances_stateAt calls hij, ?_⟩
  intro n store now result answer db' e he hkind hstatus hauto hok
  exact promoted_of_applyResult (hcoherent n) he hkind hstatus hauto hok

end PriceScout.Store.Promotion
