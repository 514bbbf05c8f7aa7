import PriceScout.Library.Selections
import PriceScout.Store.Constraints

/-!
A pass of the scheduler: it claims the monitors that have been due the longest
and starts one check of each.
-/

namespace PriceScout.Store.ClaimPasses

open PriceScout.Domain
open PriceScout.Library.Runs
open PriceScout.Library.Selections
open PriceScout.Library.Tables
open PriceScout.Store.Constraints
open PriceScout.Store.Effects
open PriceScout.Store.Executions
open PriceScout.Store.Inversions
open PriceScout.Store.Monitors
open PriceScout.Store.Operations
open PriceScout.Store.Outbox
open PriceScout.Store.OutboxCorrespondence
open PriceScout.Store.Recovery
open PriceScout.Store.Schema

/-- The monitors that a pass may claim. -/
def claimable (now : Timestamp) (locked : UUID → Bool) (db : Database) (m : Monitor) : Bool :=
  due now db m && !locked m.id

/-- The monitors that a pass claims. -/
def claimed (now : Timestamp) (limit : Nat) (locked : UUID → Bool) (db : Database) : List Monitor :=
  earliest (fun m => m.nextRunAt.getD 0) limit (db.monitors.rows.filter (claimable now locked db))

def rescheduled (now : Timestamp) (m : Monitor) : Monitor :=
  { m with nextRunAt := some (now + 60 * m.intervalMinutes), updatedAt := now }

/-- The execution is a new check of the plan that the monitor runs. -/
def Checks (now : Timestamp) (db : Database) (m : Monitor) (e : Execution) : Prop :=
  ∃ id, ∃ r ∈ db.revisions, m.currentRevisionId = some r.id ∧
    e = checkExecution now id m.id r.id r.generation ""

/-- What a pass that claims the monitors does: each gets a check, a message that
announces it and its next run, and nothing else changes. -/
structure Passed (now : Timestamp) (monitors : List Monitor) (db db' : Database) : Prop where
  schedule : db'.monitors.rows = db.monitors.rows.map fun m =>
    if m.id ∈ monitors.map Monitor.id then rescheduled now m else m
  started : ∃ checks messages, db'.executions.rows = db.executions.rows ++ checks ∧
    db'.outbox.rows = db.outbox.rows ++ messages ∧ List.Forall₂ (Checks now db) monitors checks ∧
    List.Forall₂ Announces messages checks
  others : db'.revisions = db.revisions ∧ db'.observations = db.observations ∧
    db'.repairAttempts = db.repairAttempts ∧ db'.alerts = db.alerts ∧
    db'.alertDeliveries = db.alertDeliveries ∧ db'.artifacts = db.artifacts

section Selection

variable {now : Timestamp} {limit : Nat} {locked : UUID → Bool} {db : Database} {m : Monitor}

theorem mem_claimable_iff : m ∈ db.monitors.rows.filter (claimable now locked db) ↔
    m ∈ db.monitors ∧ due now db m = true ∧ locked m.id = false := by
  simp [claimable, Table.mem_def]

theorem claimable_of_mem_claimed (h : m ∈ claimed now limit locked db) :
    m ∈ db.monitors ∧ due now db m = true ∧ locked m.id = false :=
  mem_claimable_iff.mp (mem_of_mem_earliest h)

theorem due_iff : due now db m = true ↔ m.status = .active ∧ m.currentRevisionId.isSome = true ∧
    (∃ t, m.nextRunAt = some t ∧ t ≤ now) ∧ ∀ e ∈ db.executions, inFlightOf m.id e = false := by
  simp only [due, Bool.and_eq_true, decide_eq_true_eq, Bool.not_eq_true', Table.any_eq_false_iff,
    Option.any_eq_true, and_assoc]

theorem nodup_claimed : (claimed now limit locked db).Nodup :=
  nodup_earliest (db.monitors.nodup_rows.filter _)

theorem nodup_ids_claimed : ((claimed now limit locked db).map Monitor.id).Nodup :=
  nodup_claimed.map_on fun _ ha _ hb h =>
    Table.eq_of_key_eq (claimable_of_mem_claimed ha).1 (claimable_of_mem_claimed hb).1 h

theorem dueMonitors_eq : dueMonitors now limit locked db = (claimed now limit locked db).filterMap
    fun m => m.currentRevisionId.map fun revisionId => (m.id, revisionId) :=
  rfl

end Selection

section Passes

variable {now : Timestamp} {db db' s s' : Database} {done rest : List Monitor} {m : Monitor}

/-- The items of monitors that all run a plan. -/
theorem items_cons (hcurrent : m.currentRevisionId.isSome = true) :
    ((m :: rest).filterMap fun m =>
        m.currentRevisionId.map fun revisionId => (m.id, revisionId)) =
      (m.id, m.currentRevisionId.get hcurrent) :: rest.filterMap fun m =>
        m.currentRevisionId.map fun revisionId => (m.id, revisionId) := by
  obtain ⟨revisionId, hsome⟩ := Option.isSome_iff_exists.mp hcurrent
  simp [hsome]

theorem Passed.refl (db : Database) : Passed now [] db db where
  schedule := by simp
  started := ⟨[], [], by simp, by simp, .nil, .nil⟩
  others := ⟨rfl, rfl, rfl, rfl, rfl, rfl⟩

/-- Claiming one more monitor. -/
theorem Passed.claim (h : Passed now done db s) (hcurrent : m.currentRevisionId.isSome = true)
    (hnew : m.id ∉ done.map Monitor.id)
    (hclaim : claimDueMonitor now s (m.id, m.currentRevisionId.get hcurrent) = .ok s') :
    Passed now (done ++ [m]) db s' := by
  simp only [claimDueMonitor, Database.newUUID, bind_eq_ok, orNoRows_eq_ok,
    Table.lookup_eq_some_iff, pure_eq_ok] at hclaim
  obtain ⟨r, ⟨hr, hrid⟩, s₁, hinsert, s₂, hmessage, rfl⟩ := hclaim
  obtain ⟨executions', hexecution, rfl, -⟩ := Database.insertExecution_ok hinsert
  obtain ⟨outbox', houtbox, rfl⟩ := insertOutbox_ok hmessage
  obtain ⟨checks, messages, hexecutions, hmessages, hchecks, hannounces⟩ := h.started
  have hchecks' : Checks now db m (checkExecution now ⟨s.uuids⟩ m.id
      (m.currentRevisionId.get hcurrent) r.generation "") := by
    rw [h.others.1] at hr
    exact ⟨⟨s.uuids⟩, r, hr, by simp [hrid], by rw [hrid]⟩
  refine ⟨?_, ⟨checks ++ [_], messages ++ [_],
    hexecution.trans ((congrArg (· ++ [_]) hexecutions).trans (List.append_assoc _ _ _)),
    houtbox.trans ((congrArg (· ++ [_]) hmessages).trans (List.append_assoc _ _ _)),
    List.rel_append hchecks (.cons hchecks' .nil),
    List.rel_append hannounces (.cons ⟨rfl, rfl, rfl, rfl⟩ .nil)⟩, h.others⟩
  simp only [Database.updateMonitor, Table.rows_update, h.schedule, List.map_map]
  apply List.map_congr_left
  intro u _
  simp only [Function.comp_apply, List.map_append, List.map_singleton, List.mem_append,
    List.mem_singleton, decide_eq_true_eq]
  by_cases hdone : u.id ∈ done.map Monitor.id
  · have hne : (rescheduled now u).id ≠ m.id := fun hsame => hnew (hsame ▸ hdone)
    rw [if_pos hdone, if_neg hne, if_pos (Or.inl hdone)]
  · rw [if_neg hdone]
    by_cases hsame : u.id = m.id
    · rw [if_pos hsame, if_pos (Or.inr hsame), rescheduled]
    · rw [if_neg hsame, if_neg (not_or.mpr ⟨hdone, hsame⟩)]

/-- A pass claims its monitors one after the other. -/
theorem passed_of_foldlM (hcurrent : ∀ m ∈ rest, m.currentRevisionId.isSome = true)
    (hnodup : ((done ++ rest).map Monitor.id).Nodup) (h : Passed now done db s)
    (hfold : (rest.filterMap fun m => m.currentRevisionId.map fun revisionId =>
      (m.id, revisionId)).foldlM (claimDueMonitor now) s = .ok s') :
    Passed now (done ++ rest) db s' := by
  induction rest generalizing done s with
  | nil =>
      obtain rfl := pure_eq_ok.mp hfold
      rwa [List.append_nil]
  | cons m rest ih =>
      have hm := hcurrent m (List.mem_cons_self ..)
      rw [items_cons hm, List.foldlM_cons, bind_eq_ok] at hfold
      obtain ⟨s₁, hclaim, hrest⟩ := hfold
      have hnew : m.id ∉ done.map Monitor.id := by
        rw [List.map_append, List.nodup_append] at hnodup
        exact fun hmem => hnodup.2.2 m.id hmem m.id (by simp) rfl
      rw [List.append_cons] at hnodup ⊢
      exact ih (fun u hu => hcurrent u (List.mem_cons_of_mem _ hu)) hnodup
        (h.claim hm hnew hclaim) hrest

theorem passed_of_claimDueMonitors {limit count : Nat} {locked : UUID → Bool}
    (h : claimDueMonitors now limit locked db = .ok (count, db')) :
    count = (claimed now limit locked db).length ∧
      Passed now (claimed now limit locked db) db db' := by
  have hcurrent : ∀ m ∈ claimed now limit locked db, m.currentRevisionId.isSome = true :=
    fun m hm => (due_iff.mp (claimable_of_mem_claimed hm).2.1).2.1
  simp only [claimDueMonitors, bind_eq_ok, pure_eq_ok, Prod.mk.injEq] at h
  obtain ⟨s, hfold, rfl, rfl⟩ := h
  refine ⟨?_, ?_⟩
  · rw [dueMonitors_eq]
    generalize claimed now limit locked db = monitors at hcurrent
    induction monitors with
    | nil => rfl
    | cons m rest ih =>
        rw [items_cons (hcurrent m (List.mem_cons_self ..)), List.length_cons, List.length_cons,
          ih fun u hu => hcurrent u (List.mem_cons_of_mem _ hu)]
  · exact passed_of_foldlM hcurrent nodup_ids_claimed (Passed.refl db) hfold

end Passes

/-- At any point of a run a pass succeeds. It claims as many due monitors as it
may, those that have been due the longest, starts exactly one check of each with
the message that announces it, puts off their next runs and changes nothing else. -/
theorem pass_claims_the_longest_due (calls : List Call) (n : Nat) (now : Timestamp) (limit : Nat)
    (locked : UUID → Bool) :
    let db := stateAt step Database.empty calls n
    let monitors := claimed now limit locked db
    ∃ db', claimDueMonitors now limit locked db = .ok (monitors.length, db') ∧
      Passed now monitors db db' ∧
      monitors.length = min limit (db.monitors.count (claimable now locked db)) ∧
      (∀ m ∈ monitors, m ∈ db.monitors ∧ claimable now locked db m = true) ∧
      ∀ m ∈ db.monitors, claimable now locked db m = true → m ∉ monitors →
        ∀ c ∈ monitors, ∃ s t, c.nextRunAt = some s ∧ m.nextRunAt = some t ∧ s ≤ t := by
  intro db monitors
  have hsound : Sound db := sound_of_reachable (reachable_stateAt calls n)
  have hsucceeds : ∃ answer, claimDueMonitors now limit locked db = .ok answer :=
    exists_ok_of_avoids (avoids_scheduling hsound)
  obtain ⟨⟨count, db'⟩, hpass⟩ := hsucceeds
  obtain ⟨rfl, hpassed⟩ := passed_of_claimDueMonitors hpass
  refine ⟨db', hpass, hpassed, ?_, fun m hm => ?_, fun m hm hclaimable hout c hc => ?_⟩
  · rw [Table.count, List.countP_eq_length_filter]
    exact length_earliest
  · exact ⟨(claimable_of_mem_claimed hm).1, List.of_mem_filter (mem_of_mem_earliest hm)⟩
  · obtain ⟨-, -, ⟨s, hs, -⟩, -⟩ := due_iff.mp (claimable_of_mem_claimed hc).2.1
    have hdue : due now db m = true := (Bool.and_eq_true_iff.mp hclaimable).1
    obtain ⟨-, -, ⟨t, ht, -⟩, -⟩ := due_iff.mp hdue
    have hle := le_of_not_mem (List.mem_filter.mpr ⟨hm, hclaimable⟩) hout hc
    refine ⟨s, t, hs, ht, ?_⟩
    simpa [hs, ht] using hle

end PriceScout.Store.ClaimPasses
