import PriceScout.Store.Alerting

/-!
The latch of a monitor follows its verified check results, and alerts are
raised only when it turns on: between two of them it has been turned off.
-/

namespace PriceScout.Store.Latch

open PriceScout.Domain
open PriceScout.Library.JsonDocuments
open PriceScout.Library.Runs
open PriceScout.Library.Tables
open PriceScout.Store.Alerting
open PriceScout.Store.Alerts
open PriceScout.Store.Effects
open PriceScout.Store.Executions
open PriceScout.Store.Inversions
open PriceScout.Store.Monitors
open PriceScout.Store.Operations
open PriceScout.Store.Persistence
open PriceScout.Store.Recovery
open PriceScout.Store.Schema

/-- The call records a verified observation of a check of the monitor, which
leaves the latch at what the observation was recorded as. -/
def Relatches (call : Call) (db : Database) (monitorId : UUID) (matched : Bool) (db' : Database) :
    Prop :=
  ∃ e o, Observes call db e o db' ∧ e.monitorId = monitorId ∧ o.conditionMatched = matched

section Steps

variable {now : Timestamp} {db db' db₁ : Database} {e e' : Execution} {m m' : Monitor}

theorem SameLatch.trans (a b c : Monitor) (h : SameLatch a b) (h' : SameLatch b c) :
    SameLatch a c :=
  Eq.trans h' h

theorem sameLatch_of_touched (h : db.monitors.Evolves Touched db'.monitors) :
    db.monitors.Extends SameLatch db'.monitors := by
  intro m hm
  obtain ⟨m', hm', hid, htouched⟩ := h.forward m hm
  exact ⟨m', hm', hid, htouched.conditionMatched⟩

theorem latch_effect {call : Call} (h : Effect call db db') :
    db.monitors.Extends SameLatch db'.monitors := by
  cases h with
  | created monitorId executionId params monitors' db' hcall hinterval hmonitor henqueued =>
      rw [henqueued.monitors]
      exact .of_appended sameLatch_refl hmonitor
  | claimed | renewed | published => exact .refl sameLatch_refl _
  | checkQueued id m r idempotencyKey traceparent db' hcall hnew hadmitting henqueued =>
      exact sameLatch_of_touched (touched_of_eq henqueued.monitors)
  | dueQueued id m r limit locked db' hcall hadmitting henqueued =>
      refine sameLatch_of_touched ((touched_of_eq henqueued.monitors).trans Touched.trans ?_)
      exact touched_updateMonitor fun _ => ⟨rfl, rfl⟩
  | confirmed | accepted | rejected => exact Table.extends_update sameLatch_refl fun _ _ _ => rfl
  | patched m params hcall hmonitor =>
      exact sameLatch_of_touched (touched_updateMonitor fun m => touched_patchAssign params m)
  | terminalized e e' db₁ runningStaleAfter maxAttempts limit locked hcall hattempts hretired
      hrunning hfailed =>
      exact sameLatch_of_touched ((touched_of_eq hretired.monitors).trans Touched.trans
        touched_terminalizeStaleExecution)
  | replaced e e' db₁ db' runningStaleAfter maxAttempts limit locked hcall hattempts hretired
      hrunning hfailed hreplaced =>
      exact sameLatch_of_touched (touched_of_eq (hreplaced.monitors.trans hretired.monitors))

/-- A reaction sets the latch of the monitor to what was observed, or leaves it. -/
theorem latch_reaction {store : OpenStore} {s : Monitor} {o : Observation}
    (h : Reaction store now e s o db db') (hm : m ∈ db.monitors) (hm' : m' ∈ db'.monitors)
    (hid : m'.id = m.id) (hchanged : m'.conditionMatched ≠ m.conditionMatched) :
    e.kind = .check ∧ o.verificationState = .verified ∧ m.id = e.monitorId ∧
      m'.conditionMatched = o.conditionMatched := by
  have same : m' ∈ db.monitors → m'.conditionMatched = m.conditionMatched := fun hsame => by
    rw [Table.eq_of_key_eq hsame hm hid]
  have set : ∀ matched, m' ∈ (setConditionMatched now e.monitorId matched db).monitors →
      m.id = e.monitorId ∧ m'.conditionMatched = matched := by
    intro matched hset
    rcases Table.mem_update_cases hset with ⟨u, hu, hp, rfl⟩ | ⟨hsame, -⟩
    · exact ⟨hid.symm.trans (by simpa using hp), rfl⟩
    · exact absurd (same hsame) hchanged
  cases h with
  | diagnostic h => exact absurd (same hm') hchanged
  | unchanged hkind hverified hordinary hmatched h => exact absurd (same hm') hchanged
  | confirmationQueued id db' hkind hverified hordinary hmatched hprevious henqueued =>
      rw [henqueued.monitors] at hm'
      exact absurd (same hm') hchanged
  | latched hkind hverified h => exact ⟨hkind, hverified, set _ hm'⟩
  | alerted id alerts' alertDeliveries' uuids' hkind hverified hconfirmation hmatched hprevious
      halert => exact ⟨hkind, hverified, hmatched ▸ set _ hm'⟩

/-- The latch changes only when the first result of a check that succeeded with
a verified observation is accepted. -/
theorem relatches_of_step {call : Call} (hm : m ∈ db.monitors) (hm' : m' ∈ (step db call).monitors)
    (hid : m'.id = m.id) (hchanged : m'.conditionMatched ≠ m.conditionMatched) :
    Relatches call db m.id m'.conditionMatched (step db call) := by
  have kept : ∀ {s : Database}, db.monitors.Extends SameLatch s.monitors → m' ∉ s.monitors := by
    intro s hsame hmem
    obtain ⟨u, hu, hkey, hlatch⟩ := hsame m hm
    obtain rfl := Table.eq_of_key_eq hu hmem (hkey.trans hid.symm)
    exact hchanged hlatch
  rcases step_effects db call with heffects | ⟨store, id, result, e, e', db₁, hcall, hsettled⟩
  · refine absurd hm' (kept ?_)
    generalize step db call = s' at heffects
    induction heffects with
    | refl => exact .refl sameLatch_refl _
    | tail _ hlast ih => exact ih.trans SameLatch.trans (latch_effect hlast)
  · have hretired := hsettled.retired
    have haccepts := accepts_of_settled hcall hsettled
    generalize step db call = s' at hm' kept hsettled haccepts
    cases hsettled.outcome with
    | planned plan db' hstatus hkind hplan heffect hobservation =>
        refine absurd hm' (kept ?_)
        rw [← hretired.monitors]
        exact (latch_planEffect heffect).forward
    | plannedAndRecorded plan observation s o db₂ db' hstatus hkind hplan heffect hobservation
        hrecorded =>
        refine absurd hm' (kept ?_)
        rw [hrecorded.unchanged.1, ← hretired.monitors]
        exact (latch_planEffect heffect).forward
    | failed db' hstatus heffect =>
        refine absurd hm' (kept ?_)
        rw [← hretired.monitors]
        exact sameLatch_of_touched (touched_failureEffect heffect)
    | observed observation s o db₂ db' hstatus hkind hobservation hrecorded hreaction =>
        rw [← hretired.monitors, ← hrecorded.unchanged.1] at hm
        obtain ⟨-, hverified, hown, hset⟩ := latch_reaction hreaction hm hm' hid hchanged
        refine ⟨e, o, observes_of_recorded haccepts hstatus hkind hretired.observations hrecorded ?_
          hverified, hown.symm, hset.symm⟩
        cases hreaction with
        | diagnostic | unchanged | latched | alerted => rfl
        | confirmationQueued id db' _ _ hordinary hmatched hprevious henqueued =>
            exact henqueued.observations

theorem latched_unique {monitorId : UUID} {latch latch' : Bool} (h : Latched db monitorId latch)
    (h' : Latched db monitorId latch') : latch = latch' := by
  obtain ⟨m, hm, hid, rfl⟩ := h
  obtain ⟨m', hm', hid', rfl⟩ := h'
  rw [Table.eq_of_key_eq hm hm' (hid.trans hid'.symm)]

/-- A latch that is no longer on was turned off by a verified non-match. -/
theorem relatches_of_latched {call : Call} {monitorId : UUID} (h : Latched db monitorId true)
    (h' : ¬ Latched (step db call) monitorId true) :
    Relatches call db monitorId false (step db call) := by
  obtain ⟨m, hm, rfl, hlatch⟩ := h
  obtain ⟨m', hm', hid, -⟩ := (Persists.step db call).monitors m hm
  have hoff : m'.conditionMatched = false := by
    by_contra hon
    exact h' ⟨m', hm', hid, by simpa using hon⟩
  rw [← hoff]
  exact relatches_of_step hm hm' hid (by simp [hlatch, hoff])

end Steps

/-- Between two alerts of a monitor a verified non-match was recorded. -/
theorem exists_between {calls : List Call} {i j : Nat} {a b : Alert} {e f : Execution}
    {o p : Observation} (ha : RaisedAt calls i a e o) (hb : RaisedAt calls j b f p) (hij : i < j)
    (hmonitor : a.monitorId = b.monitorId) :
    ∃ k, i < k ∧ k < j ∧ ∃ call ∈ calls[k]?,
      Relatches call (stateAt step Database.empty calls k) a.monitorId false
        (stateAt step Database.empty calls (k + 1)) := by
  obtain ⟨_, -, hraised⟩ := ha
  obtain ⟨call, hcall, hraised'⟩ := hb
  have hlt : j < calls.length := (List.getElem?_eq_some_iff.mp hcall).1
  have hoff : ¬ Latched (stateAt step Database.empty calls j) a.monitorId true := fun hon => by
    have := latched_unique hon (hmonitor ▸ hraised'.before)
    simp at this
  obtain ⟨k, hik, hkj, hon, hlost⟩ := exists_step_between
    (P := fun db => Latched db a.monitorId true) (Nat.succ_le_of_lt hij) hraised.after hoff
  have hk : k < calls.length := by omega
  refine ⟨k, hik, hkj, calls[k], by simp [hk], ?_⟩
  rw [stateAt_succ hk] at hlost ⊢
  exact relatches_of_latched hon hlost

/-- Alerts are edge-triggered: every alert of a run is raised at a step of its
own, between two of one monitor a verified non-match is recorded, and the latch
changes in no step but one that accepts a verified check result. -/
theorem alerts_edge_triggered (calls : List Call) :
    (∀ a ∈ (run step Database.empty calls).alerts, ∃ i e o, RaisedAt calls i a e o) ∧
      (∀ i a b e f o p, RaisedAt calls i a e o → RaisedAt calls i b f p → a = b) ∧
      (∀ i j a b e f o p, RaisedAt calls i a e o → RaisedAt calls j b f p → i < j →
        a.monitorId = b.monitorId →
        ∃ k, i < k ∧ k < j ∧ ∃ call ∈ calls[k]?,
          Relatches call (stateAt step Database.empty calls k) a.monitorId false
            (stateAt step Database.empty calls (k + 1))) ∧
      ∀ n call, calls[n]? = some call → ∀ m ∈ (stateAt step Database.empty calls n).monitors,
        ∀ m' ∈ (stateAt step Database.empty calls (n + 1)).monitors, m'.id = m.id →
          m'.conditionMatched ≠ m.conditionMatched →
          Relatches call (stateAt step Database.empty calls n) m.id m'.conditionMatched
            (stateAt step Database.empty calls (n + 1)) := by
  refine ⟨fun a ha => ?_, fun i a b e f o p ha hb => ?_,
    fun i j a b e f o p ha hb hij hmonitor => exists_between ha hb hij hmonitor,
    fun n call hcall m hm m' hm' hid hchanged => ?_⟩
  · rw [← stateAt_length] at ha
    obtain ⟨i, e, o, -, hraised⟩ := exists_raisedAt calls (le_refl _) ha
    exact ⟨i, e, o, hraised⟩
  · obtain ⟨_, -, hraised⟩ := ha
    obtain ⟨_, -, hraised'⟩ := hb
    rcases hraised.appended.mem_iff.mp hraised'.appended.mem with hold | heq
    · exact absurd hold hraised'.appended.not_mem
    · exact heq.symm
  · obtain ⟨hn, rfl⟩ := List.getElem?_eq_some_iff.mp hcall
    rw [stateAt_succ hn] at hm' ⊢
    exact relatches_of_step hm hm' hid hchanged

end PriceScout.Store.Latch
