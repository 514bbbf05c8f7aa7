import PriceScout.Store.Provenance
import PriceScout.Store.Serialization

/-!
The generations of a monitor's plans form one line. The compile starts it; each
later generation comes from the one repair of the generation before. Nothing in
the code checks this: it rests on one execution in flight per monitor, on one
repair attempt per generation, and on pending revisions being decided once.
-/

namespace PriceScout.Store.Generations

open PriceScout.Domain
open PriceScout.Library.JsonDocuments
open PriceScout.Library.Runs
open PriceScout.Library.Tables
open PriceScout.Store.Alerts
open PriceScout.Store.Effects
open PriceScout.Store.Executions
open PriceScout.Store.Inversions
open PriceScout.Store.Monitors
open PriceScout.Store.Operations
open PriceScout.Store.Outbox
open PriceScout.Store.Persistence
open PriceScout.Store.Provenance
open PriceScout.Store.Recovery
open PriceScout.Store.Schema
open PriceScout.Store.Serialization

/-- The attempt that repaired a generation produced the next one. -/
def Produced (a : RepairAttempt) (r : Revision) : Prop :=
  a.monitorId = r.monitorId ∧ a.failedGeneration + 1 = r.generation ∧
    a.candidateRevisionId = some r.id

/-- The attempt that an in-flight repair of a generation works on. -/
def WorksOn (e : Execution) (generation : Nat) (a : RepairAttempt) : Prop :=
  a.monitorId = e.monitorId ∧ a.failedGeneration = generation ∧ a.executionId = e.id ∧
    a.candidateRevisionId = none

/-- What compile and repair work presupposes: a compile that there is no
revision yet, a repair that its generation is the last one and decided on. -/
def WellFounded (db : Database) (e : Execution) : Prop :=
  (e.kind = .compile → ∀ r ∈ db.revisions, r.monitorId ≠ e.monitorId) ∧
    (e.kind = .repair → ∃ generation, e.requestedGeneration = some generation ∧
      (∀ r ∈ db.revisions, r.monitorId = e.monitorId →
        r.generation ≤ generation ∧ r.pending = false) ∧
      ∃ a ∈ db.repairAttempts, WorksOn e generation a)

/-- The revisions of each monitor are numbered without gaps or repetition, start
with a compile, and only the last may be pending. -/
structure Line (revisions : Table Revision.id) : Prop where
  positive : ∀ r ∈ revisions, 1 ≤ r.generation
  unique : ∀ r ∈ revisions, ∀ s ∈ revisions, r.monitorId = s.monitorId →
    r.generation = s.generation → r = s
  contiguous : ∀ r ∈ revisions, ∀ k, 1 ≤ k → k < r.generation →
    ∃ s ∈ revisions, s.monitorId = r.monitorId ∧ s.generation = k
  compiled : ∀ r ∈ revisions, r.generation = 1 → r.source = .compile
  pendingLatest : ∀ r ∈ revisions, r.pending = true → ∀ s ∈ revisions,
    s.monitorId = r.monitorId → s.generation ≤ r.generation

/-- One repair attempt per generation, and one execution per attempt. -/
structure OnePerGeneration (attempts : Table RepairAttempt.id) : Prop where
  generation : ∀ a ∈ attempts, ∀ b ∈ attempts, a.monitorId = b.monitorId →
    a.failedGeneration = b.failedGeneration → a = b
  execution : ∀ a ∈ attempts, ∀ b ∈ attempts, a.executionId = b.executionId → a = b

structure Lineage (db : Database) : Prop where
  revisionHoused : ∀ r ∈ db.revisions, db.hasMonitor r.monitorId
  attemptHoused : ∀ a ∈ db.repairAttempts, db.hasExecution a.executionId
  line : Line db.revisions
  attempts : OnePerGeneration db.repairAttempts
  repaired : ∀ r ∈ db.revisions, 1 < r.generation →
    r.source = .repair ∧ ∃ a ∈ db.repairAttempts, Produced a r
  candidates : ∀ a ∈ db.repairAttempts, ∀ id ∈ a.candidateRevisionId,
    ∃ r ∈ db.revisions, r.id = id ∧ Produced a r
  currentLatest : ∀ r ∈ db.revisions, r.validationState = .active →
    ∃ m ∈ db.monitors, m.id = r.monitorId ∧
      ∃ c ∈ db.revisions, m.currentRevisionId = some c.id ∧ r.generation ≤ c.generation
  wellFounded : ∀ e ∈ db.executions, e.inFlight = true → WellFounded db e

/-- What a change of state leaves alone in a repair attempt. -/
structure SameRepair (a a' : RepairAttempt) : Prop where
  monitorId : a'.monitorId = a.monitorId
  failedGeneration : a'.failedGeneration = a.failedGeneration
  executionId : a'.executionId = a.executionId
  candidateRevisionId : a'.candidateRevisionId = a.candidateRevisionId

theorem SameRepair.refl (a : RepairAttempt) : SameRepair a a :=
  ⟨rfl, rfl, rfl, rfl⟩

theorem SameRepair.produced {a a' : RepairAttempt} (h : SameRepair a a') {r : Revision}
    (hproduced : Produced a r) : Produced a' r := by
  unfold Produced
  rwa [h.monitorId, h.failedGeneration, h.candidateRevisionId]

theorem SameRepair.worksOn {a a' : RepairAttempt} (h : SameRepair a a') {e : Execution}
    {generation : Nat} (hworks : WorksOn e generation a) : WorksOn e generation a' := by
  unfold WorksOn
  rwa [h.monitorId, h.failedGeneration, h.executionId, h.candidateRevisionId]

theorem OnePerGeneration.of_backward {t t' : Table RepairAttempt.id} (h : OnePerGeneration t)
    (hback : ∀ a' ∈ t', ∃ a ∈ t, a'.id = a.id ∧ a'.monitorId = a.monitorId ∧
      a'.failedGeneration = a.failedGeneration ∧ a'.executionId = a.executionId) :
    OnePerGeneration t' := by
  constructor
  · intro a' ha' b' hb' hmonitor hgeneration
    obtain ⟨a, ha, haid, ham, hag, -⟩ := hback a' ha'
    obtain ⟨b, hb, hbid, hbm, hbg, -⟩ := hback b' hb'
    have hab := h.generation a ha b hb (by rw [← ham, ← hbm, hmonitor])
      (by rw [← hag, ← hbg, hgeneration])
    exact Table.eq_of_key_eq ha' hb' (by rw [haid, hbid, hab])
  · intro a' ha' b' hb' hexecution
    obtain ⟨a, ha, haid, -, -, hae⟩ := hback a' ha'
    obtain ⟨b, hb, hbid, -, -, hbe⟩ := hback b' hb'
    have hab := h.execution a ha b hb (by rw [← hae, ← hbe, hexecution])
    exact Table.eq_of_key_eq ha' hb' (by rw [haid, hbid, hab])

theorem OnePerGeneration.evolves {t t' : Table RepairAttempt.id} (h : OnePerGeneration t)
    (hevolves : t.Evolves SameRepair t') : OnePerGeneration t' := by
  refine h.of_backward fun a' ha' => ?_
  obtain ⟨a, ha, hid, hsame⟩ := hevolves.backward a' ha'
  exact ⟨a, ha, hid, hsame.monitorId, hsame.failedGeneration, hsame.executionId⟩

/-- A line grows at its end, when nothing of the monitor is pending. -/
theorem Line.appended {t t' : Table Revision.id} {r : Revision} {generation : Nat} (h : Line t)
    (happended : t.Appended r t')
    (hlast : ∀ s ∈ t, s.monitorId = r.monitorId → s.generation ≤ generation ∧ s.pending = false)
    (hreached : generation = 0 ∨ ∃ s ∈ t, s.monitorId = r.monitorId ∧ s.generation = generation)
    (hnext : r.generation = generation + 1) (hcompiled : generation = 0 → r.source = .compile) :
    Line t' := by
  constructor
  · exact Table.forall_appended happended h.positive (by omega)
  · intro s hs u hu hmonitor hgeneration
    rcases happended.mem_iff.mp hs with hs | rfl <;> rcases happended.mem_iff.mp hu with hu | rfl
    · exact h.unique s hs u hu hmonitor hgeneration
    · have := (hlast s hs hmonitor).1
      omega
    · have := (hlast u hu hmonitor.symm).1
      omega
    · rfl
  · intro s hs k hk hless
    rcases happended.mem_iff.mp hs with hs | rfl
    · obtain ⟨u, hu, hrest⟩ := h.contiguous s hs k hk hless
      exact ⟨u, happended.mem_of_mem hu, hrest⟩
    · rcases hreached with hzero | ⟨u, hu, hmonitor, hgeneration⟩
      · omega
      · by_cases hlatest : k = generation
        · exact ⟨u, happended.mem_of_mem hu, hmonitor, hgeneration.trans hlatest.symm⟩
        · obtain ⟨v, hv, hvm, hvg⟩ := h.contiguous u hu k hk (by omega)
          exact ⟨v, happended.mem_of_mem hv, hvm.trans hmonitor, hvg⟩
  · exact Table.forall_appended happended h.compiled fun hfirst => hcompiled (by omega)
  · intro s hs hpending u hu hmonitor
    rcases happended.mem_iff.mp hs with hs | rfl <;> rcases happended.mem_iff.mp hu with hu | rfl
    · exact h.pendingLatest s hs hpending u hu hmonitor
    · simp [(hlast s hs hmonitor.symm).2] at hpending
    · have := (hlast u hu hmonitor).1
      omega
    · exact le_refl _

/-- What a decision on the revisions of a monitor does to a revision. -/
structure Decided (decidedId : UUID) (r r' : Revision) : Prop where
  monitorId : r'.monitorId = r.monitorId
  generation : r'.generation = r.generation
  source : r'.source = r.source
  pending : r'.pending = true → r.pending = true
  others : r.monitorId ≠ decidedId → r' = r

theorem Decided.refl (monitorId : UUID) (r : Revision) : Decided monitorId r r :=
  ⟨rfl, rfl, rfl, id, fun _ => rfl⟩

theorem Decided.trans (monitorId : UUID) (a b c : Revision) (h : Decided monitorId a b)
    (h' : Decided monitorId b c) : Decided monitorId a c := by
  refine ⟨h'.monitorId.trans h.monitorId, h'.generation.trans h.generation,
    h'.source.trans h.source, fun hp => h.pending (h'.pending hp), fun hne => ?_⟩
  obtain rfl := h.others hne
  exact h'.others hne

theorem Decided.produced {monitorId : UUID} {r r' : Revision} (h : Decided monitorId r r')
    (hid : r'.id = r.id) {a : RepairAttempt} (hproduced : Produced a r) : Produced a r' := by
  unfold Produced
  rwa [h.monitorId, h.generation, hid]

theorem Line.decided {t t' : Table Revision.id} {monitorId : UUID} (h : Line t)
    (hevolves : t.Evolves (Decided monitorId) t') : Line t' := by
  have back : ∀ r' ∈ t', ∃ r ∈ t, r'.id = r.id ∧ Decided monitorId r r' := hevolves.backward
  constructor
  · intro r' hr'
    obtain ⟨r, hr, -, hd⟩ := back r' hr'
    exact hd.generation ▸ h.positive r hr
  · intro r' hr' s' hs' hmonitor hgeneration
    obtain ⟨r, hr, hrid, hd⟩ := back r' hr'
    obtain ⟨s, hs, hsid, hd'⟩ := back s' hs'
    have hrs := h.unique r hr s hs (by rw [← hd.monitorId, ← hd'.monitorId, hmonitor])
      (by rw [← hd.generation, ← hd'.generation, hgeneration])
    exact Table.eq_of_key_eq hr' hs' (by rw [hrid, hsid, hrs])
  · intro r' hr' k hk hless
    obtain ⟨r, hr, -, hd⟩ := back r' hr'
    obtain ⟨s, hs, hsm, hsg⟩ := h.contiguous r hr k hk (by rwa [← hd.generation])
    obtain ⟨s', hs', -, hd'⟩ := hevolves.forward s hs
    exact ⟨s', hs', by rw [hd'.monitorId, hd.monitorId, hsm], hd'.generation.trans hsg⟩
  · intro r' hr' hfirst
    obtain ⟨r, hr, -, hd⟩ := back r' hr'
    exact hd.source.trans (h.compiled r hr (hd.generation ▸ hfirst))
  · intro r' hr' hpending s' hs' hmonitor
    obtain ⟨r, hr, -, hd⟩ := back r' hr'
    obtain ⟨s, hs, -, hd'⟩ := back s' hs'
    rw [hd.generation, hd'.generation]
    exact h.pendingLatest r hr (hd.pending hpending) s hs
      (by rw [← hd.monitorId, ← hd'.monitorId, hmonitor])

theorem le_foldr_max {generations : List Nat} : ∀ k ∈ generations, k ≤ generations.foldr max 0 := by
  induction generations with
  | nil => exact fun k hk => absurd hk List.not_mem_nil
  | cons j generations ih =>
      intro k hk
      rcases List.mem_cons.mp hk with rfl | hk
      · exact le_max_left _ _
      · exact (ih k hk).trans (le_max_right _ _)

theorem foldr_max_le {generations : List Nat} {generation : Nat}
    (h : ∀ k ∈ generations, k ≤ generation) : generations.foldr max 0 ≤ generation := by
  induction generations with
  | nil => exact Nat.zero_le _
  | cons j generations ih =>
      rw [List.forall_mem_cons] at h
      exact max_le h.1 (ih h.2)

theorem lt_nextGeneration {db : Database} {r : Revision} (hr : r ∈ db.revisions) :
    r.generation < nextGeneration r.monitorId db := by
  refine Nat.lt_succ_of_le (le_foldr_max r.generation ?_)
  exact List.mem_map_of_mem (List.mem_filter.mpr ⟨hr, by simp⟩)

theorem nextGeneration_eq {db : Database} {monitorId : UUID} {generation : Nat}
    (hlast : ∀ r ∈ db.revisions, r.monitorId = monitorId → r.generation ≤ generation)
    (hreached : generation = 0 ∨
      ∃ r ∈ db.revisions, r.monitorId = monitorId ∧ r.generation = generation) :
    nextGeneration monitorId db = generation + 1 := by
  apply le_antisymm
  · refine Nat.succ_le_succ (foldr_max_le fun k hk => ?_)
    obtain ⟨r, hr, rfl⟩ := List.mem_map.mp hk
    obtain ⟨hr, hmonitor⟩ := List.mem_filter.mp hr
    exact hlast r hr (by simpa using hmonitor)
  · rcases hreached with rfl | ⟨r, hr, rfl, rfl⟩
    · exact Nat.succ_le_succ (Nat.zero_le _)
    · exact lt_nextGeneration hr

/-- The compiles and repairs in flight afterwards were in flight before. -/
def NoNewWork (db db' : Database) : Prop :=
  ∀ e' ∈ db'.executions, e'.inFlight = true → e'.kind ≠ .check →
    ∃ e ∈ db.executions, e.inFlight = true ∧ SameJob e e'

section Preservation

variable {now : Timestamp} {db db' db₁ : Database} {e e' n : Execution} {m : Monitor}

theorem hasExecution_of_persists (h : Persists db db') {id : UUID} (he : db.hasExecution id) :
    db'.hasExecution id := by
  obtain ⟨e, he, hid⟩ := Database.hasExecution_iff.mp he
  obtain ⟨e', he', hkey, -⟩ := h.executions e he
  exact Database.hasExecution_iff.mpr ⟨e', he', hkey.trans hid⟩

theorem WellFounded.congr (h : WellFounded db e) (hjob : SameJob e e')
    (hrevisions : db'.revisions = db.revisions)
    (hattempts : db.repairAttempts.Extends SameRepair db'.repairAttempts) :
    WellFounded db' e' := by
  unfold WellFounded
  rw [hrevisions, hjob.kind, hjob.monitorId, hjob.requestedGeneration]
  refine ⟨h.1, fun hkind => ?_⟩
  obtain ⟨generation, hgeneration, hlast, a, ha, hworks⟩ := h.2 hkind
  obtain ⟨a', ha', -, hsame⟩ := hattempts a ha
  refine ⟨generation, hgeneration, hlast, a', ha', ?_⟩
  have hworks' := hsame.worksOn hworks
  unfold WorksOn at hworks' ⊢
  rwa [hjob.monitorId, hjob.id]

theorem wellFounded_of_check (h : e.kind = .check) : WellFounded db e :=
  ⟨fun hkind => by simp [h] at hkind, fun hkind => by simp [h] at hkind⟩

namespace Lineage

theorem empty : Lineage Database.empty := by
  refine ⟨?_, ?_, ⟨?_, ?_, ?_, ?_, ?_⟩, ⟨?_, ?_⟩, ?_, ?_, ?_, ?_⟩ <;>
    exact fun _ h => absurd h (Table.not_mem_empty _)

/-- Changes that touch no revision, no link of a repair attempt and no current plan. -/
theorem of_work (h : Lineage db) (hpersists : Persists db db')
    (hrevisions : db'.revisions = db.revisions)
    (hattempts : db.repairAttempts.Evolves SameRepair db'.repairAttempts)
    (hmonitors : db.monitors.Extends SamePlan db'.monitors)
    (hwork : ∀ e ∈ db'.executions, e.inFlight = true → WellFounded db' e) : Lineage db' := by
  refine ⟨?_, ?_, hrevisions ▸ h.line, h.attempts.evolves hattempts, ?_, ?_, ?_, hwork⟩
  · rw [hrevisions]
    exact fun r hr => hpersists.hasMonitor (h.revisionHoused r hr)
  · intro a' ha'
    obtain ⟨a, ha, -, hsame⟩ := hattempts.backward a' ha'
    exact hsame.executionId ▸ hasExecution_of_persists hpersists (h.attemptHoused a ha)
  · rw [hrevisions]
    intro r hr hlater
    obtain ⟨hsource, a, ha, hproduced⟩ := h.repaired r hr hlater
    obtain ⟨a', ha', -, hsame⟩ := hattempts.forward a ha
    exact ⟨hsource, a', ha', hsame.produced hproduced⟩
  · rw [hrevisions]
    intro a' ha' id hid
    obtain ⟨a, ha, -, hsame⟩ := hattempts.backward a' ha'
    obtain ⟨r, hr, hrid, hproduced⟩ := h.candidates a ha id (hsame.candidateRevisionId ▸ hid)
    exact ⟨r, hr, hrid, hsame.produced hproduced⟩
  · rw [hrevisions]
    intro r hr hactive
    obtain ⟨m, hm, hid, c, hc, hcurrent, hle⟩ := h.currentLatest r hr hactive
    obtain ⟨m', hm', hid', hsame⟩ := hmonitors m hm
    exact ⟨m', hm', hid'.trans hid, c, hc, hsame.trans hcurrent, hle⟩

/-- The same when no compile or repair is started. -/
theorem congr (h : Lineage db) (hpersists : Persists db db')
    (hrevisions : db'.revisions = db.revisions)
    (hattempts : db.repairAttempts.Evolves SameRepair db'.repairAttempts)
    (hmonitors : db.monitors.Extends SamePlan db'.monitors) (hwork : NoNewWork db db') :
    Lineage db' := by
  refine h.of_work hpersists hrevisions hattempts hmonitors fun e' he' hflight => ?_
  by_cases hcheck : e'.kind = .check
  · exact wellFounded_of_check hcheck
  · obtain ⟨e, he, hflight', hjob⟩ := hwork e' he' hflight hcheck
    exact (h.wellFounded e he hflight').congr hjob hrevisions hattempts.forward

/-- An execution that a check in flight may be told its plan is stale for runs
the last generation, and nothing of its monitor is pending. -/
theorem last_of_no_attempt (h : Lineage db) {generation : Nat} (hplanned : ExecutesActivePlan db e)
    (hgeneration : e.requestedGeneration = some generation)
    (hnone : ∀ a ∈ db.repairAttempts, a.monitorId = e.monitorId → a.failedGeneration ≠ generation) :
    ∀ r ∈ db.revisions, r.monitorId = e.monitorId →
      r.generation ≤ generation ∧ r.pending = false := by
  obtain ⟨p, hp, -, hpm, hactive, hpg⟩ := hplanned
  obtain rfl : p.generation = generation := by
    rw [hgeneration] at hpg; exact (Option.some.inj hpg).symm
  have hlast : ∀ r ∈ db.revisions, r.monitorId = e.monitorId → r.generation ≤ p.generation := by
    intro r hr hmonitor
    by_contra hlater
    have hnext : ∃ s ∈ db.revisions,
      s.monitorId = e.monitorId ∧ s.generation = p.generation + 1 := by
      by_cases hsucc : r.generation = p.generation + 1
      · exact ⟨r, hr, hmonitor, hsucc⟩
      · obtain ⟨s, hs, hsm, hsg⟩ := h.line.contiguous r hr (p.generation + 1) (by omega) (by omega)
        exact ⟨s, hs, hsm.trans hmonitor, hsg⟩
    obtain ⟨s, hs, hsm, hsg⟩ := hnext
    have hpositive := h.line.positive p hp
    obtain ⟨-, a, ha, ham, hag, -⟩ := h.repaired s hs (by omega)
    exact hnone a ha (ham.trans hsm) (by omega)
  intro r hr hmonitor
  refine ⟨hlast r hr hmonitor, ?_⟩
  by_contra hpending
  have hle := h.line.pendingLatest r hr (by simpa using hpending) p hp (hpm.trans hmonitor.symm)
  have hge := hlast r hr hmonitor
  obtain rfl := h.line.unique r hr p hp (hmonitor.trans hpm.symm) (by omega)
  simp [Revision.pending, hactive, ValidationState.pending] at hpending

/-- Nothing of another monitor's work depends on an idle monitor's repair attempt. -/
theorem executionId_ne (h : Lineage db) (hidle : Idle db e.monitorId) {generation : Nat}
    {a b : RepairAttempt} (ha : a ∈ db.repairAttempts) (hworks : WorksOn e generation a)
    {s : Execution} (hs : s ∈ db.executions) (hflight : s.inFlight = true)
    (hb : b ∈ db.repairAttempts) (hmonitor : b.monitorId = s.monitorId) :
    b.executionId ≠ e.id := by
  intro hexecution
  obtain rfl := h.attempts.execution b hb a ha (hexecution.trans hworks.2.2.1.symm)
  have := hidle s hs (hmonitor.symm.trans hworks.1)
  simp [this] at hflight

/-- The attempt of a repair in flight has no candidate yet. -/
theorem undecided (h : Lineage db) (hwell : WellFounded db e) (hkind : e.kind = .repair)
    {a : RepairAttempt} (ha : a ∈ db.repairAttempts) (hexecution : a.executionId = e.id) :
    a.candidateRevisionId = none := by
  obtain ⟨generation, -, -, b, hb, -, -, hworks, hnone⟩ := hwell.2 hkind
  obtain rfl := h.attempts.execution a ha b hb (hexecution.trans hworks.symm)
  exact hnone

/-- The attempt of a repair that has produced nothing is not the one that produced a revision. -/
theorem produced_ne (h : Lineage db) {generation : Nat} {a b : RepairAttempt} {r : Revision}
    (ha : a ∈ db.repairAttempts) (hworks : WorksOn e generation a) (hb : b ∈ db.repairAttempts)
    (hproduced : Produced b r) : b.executionId ≠ e.id := by
  intro hexecution
  obtain rfl := h.attempts.execution b hb a ha (hexecution.trans hworks.2.2.1.symm)
  have hnone := hworks.2.2.2.symm.trans hproduced.2.2
  simp at hnone

/-- An attempt handed over to a fresh execution. -/
theorem attempts_repointed (h : Lineage db) {id : UUID}
    (hfresh : ∀ b ∈ db.repairAttempts, b.executionId ≠ id) :
    OnePerGeneration (repointedAttempts db e id) := by
  constructor
  · intro b' hb' c' hc' hmonitor hfailed
    obtain ⟨b, hb, hbid, hbkeep⟩ := Table.exists_mem_of_mem_update hb'
    obtain ⟨c, hc, hcid, hckeep⟩ := Table.exists_mem_of_mem_update hc'
    have hbc := h.attempts.generation b hb c hc
      (by rcases hbkeep with rfl | rfl <;> rcases hckeep with rfl | rfl <;> exact hmonitor)
      (by rcases hbkeep with rfl | rfl <;> rcases hckeep with rfl | rfl <;> exact hfailed)
    exact Table.eq_of_key_eq hb' hc' (by rw [← hbid, ← hcid, hbc])
  · intro b' hb' c' hc' hexecution
    rcases Table.mem_update_cases hb' with ⟨b, hb, hbe, rfl⟩ | ⟨hb, -⟩ <;>
      rcases Table.mem_update_cases hc' with ⟨c, hc, hce, rfl⟩ | ⟨hc, -⟩
    · rw [h.attempts.execution b hb c hc (by simp at hbe hce; rw [hbe, hce])]
    · exact absurd hexecution.symm (hfresh c' hc)
    · exact absurd hexecution (hfresh b' hb)
    · exact h.attempts.execution b' hb c' hc hexecution

/-- No attempt refers to an execution that has just been inserted. -/
theorem executionId_fresh (h : Lineage db) {t : Table Execution.id}
    (happended : db.executions.Appended n t) : ∀ a ∈ db.repairAttempts, a.executionId ≠ n.id := by
  intro a ha hexecution
  obtain ⟨s, hs, hid⟩ := Database.hasExecution_iff.mp (h.attemptHoused a ha)
  exact happended.key_ne hs (hid.trans hexecution)

/-- A repair whose monitor is idle goes on in a replacement, which takes over its attempt. -/
theorem repointed {id : UUID} (h : Lineage db) (hidle : Idle db e.monitorId)
    (hwell : WellFounded db e) (hkind : e.kind = .repair)
    (henqueued : Enqueued now db (replacementExecution now id e) "" db') :
    Lineage { db' with repairAttempts := repointedAttempts db e id } := by
  obtain ⟨generation, hgeneration, hlast, a, ha, hworks⟩ := hwell.2 hkind
  have hpersists := Persists.replaced (.repointed id db' a hkind ha hworks.2.2.1 henqueued)
  have hkept : ∀ b ∈ db.repairAttempts, b.executionId ≠ e.id → b ∈ repointedAttempts db e id :=
    fun b hb hne => Table.mem_update_of_neg hb (by simpa using hne)
  have hrevisions :
    ({ db' with repairAttempts := repointedAttempts db e id } : Database).revisions =
      db.revisions := henqueued.revisions
  refine ⟨?_, ?_, hrevisions ▸ h.line,
      h.attempts_repointed (h.executionId_fresh henqueued.appended), ?_, ?_,
    ?_, ?_⟩
  · rw [hrevisions]
    exact fun r hr => hpersists.hasMonitor (h.revisionHoused r hr)
  · intro b' hb'
    rcases Table.mem_update_cases hb' with ⟨b, hb, -, rfl⟩ | ⟨hb, -⟩
    · exact Database.hasExecution_iff.mpr ⟨_, henqueued.appended.mem, rfl⟩
    · exact hasExecution_of_persists hpersists (h.attemptHoused b' hb)
  · rw [hrevisions]
    intro r hr hlater
    obtain ⟨hsource, b, hb, hproduced⟩ := h.repaired r hr hlater
    exact ⟨hsource, b, hkept b hb (h.produced_ne ha hworks hb hproduced), hproduced⟩
  · rw [hrevisions]
    intro b' hb' candidateId hcandidate
    rcases Table.mem_update_cases hb' with ⟨b, -, -, rfl⟩ | ⟨hb, -⟩
    · nomatch hcandidate
    · exact h.candidates b' hb candidateId hcandidate
  · rw [hrevisions]
    show ∀ r ∈ db.revisions, _ → ∃ m ∈ db'.monitors, _
    rw [henqueued.monitors]
    exact h.currentLatest
  · refine Table.forall_appended henqueued.appended ?_ ?_
    · intro s hs hflight
      unfold WellFounded
      rw [hrevisions]
      refine ⟨(h.wellFounded s hs hflight).1, fun hrepair => ?_⟩
      obtain ⟨g, hg, hlast', b, hb, hworks'⟩ := (h.wellFounded s hs hflight).2 hrepair
      refine ⟨g, hg, hlast', b, hkept b hb ?_, hworks'⟩
      exact h.executionId_ne hidle ha hworks hs hflight hb hworks'.1
    · intro _
      unfold WellFounded
      rw [hrevisions]
      refine ⟨fun hcompile => ?_, fun _ => ?_⟩
      · simp [replacementExecution, newExecution, hkind] at hcompile
      · exact ⟨generation, hgeneration, hlast, _,
          Table.mem_update_of_pos ha (by simpa using hworks.2.2.1), hworks.1, hworks.2.1, rfl, rfl⟩

/-- A stale plan of the last generation gets its one repair attempt. -/
theorem repairQueued {id attemptId : UUID} {generation uuids' : Nat}
    {repairAttempts' : Table RepairAttempt.id} (h : Lineage db) (hplanned : ExecutesActivePlan db e)
    (hgeneration : e.requestedGeneration = some generation)
    (hnone : ∀ a ∈ db.repairAttempts, a.monitorId = e.monitorId → a.failedGeneration ≠ generation)
    (hattempt : db.repairAttempts.Appended
      (newRepairAttempt now attemptId e.monitorId generation id) repairAttempts')
    (henqueued : Enqueued now db (repairExecution now id e generation) "" db') :
    Lineage (holdForReview now e.monitorId
      { db' with repairAttempts := repairAttempts', uuids := uuids' }) := by
  have hlast := h.last_of_no_attempt hplanned hgeneration hnone
  have hfresh := h.executionId_fresh henqueued.appended
  have hrevisions : (holdForReview now e.monitorId
      { db' with repairAttempts := repairAttempts', uuids := uuids' }).revisions = db.revisions :=
    henqueued.revisions
  have hpersists : Persists db (holdForReview now e.monitorId
      { db' with repairAttempts := repairAttempts', uuids := uuids' }) := by
    have hinserted : Persists db { db' with repairAttempts := repairAttempts', uuids := uuids' } :=
      { Persists.enqueued henqueued with
        repairAttempts := .of_appended SameAttempt.refl hattempt }
    exact hinserted.trans .updateMonitor
  refine ⟨?_, ?_, hrevisions ▸ h.line, ⟨?_, ?_⟩, ?_, ?_, ?_, ?_⟩
  · rw [hrevisions]
    exact fun r hr => hpersists.hasMonitor (h.revisionHoused r hr)
  · refine Table.forall_appended hattempt ?_ ?_
    · exact fun a ha => hasExecution_of_persists hpersists (h.attemptHoused a ha)
    · exact Database.hasExecution_iff.mpr ⟨_, henqueued.appended.mem, rfl⟩
  · intro a ha b hb hmonitor hfailed
    rcases hattempt.mem_iff.mp ha with ha | rfl <;> rcases hattempt.mem_iff.mp hb with hb | rfl
    · exact h.attempts.generation a ha b hb hmonitor hfailed
    · exact absurd hfailed (hnone a ha hmonitor)
    · exact absurd hfailed.symm (hnone b hb hmonitor.symm)
    · rfl
  · intro a ha b hb hexecution
    rcases hattempt.mem_iff.mp ha with ha | rfl <;> rcases hattempt.mem_iff.mp hb with hb | rfl
    · exact h.attempts.execution a ha b hb hexecution
    · exact absurd hexecution (hfresh a ha)
    · exact absurd hexecution.symm (hfresh b hb)
    · rfl
  · rw [hrevisions]
    intro r hr hlater
    obtain ⟨hsource, a, ha, hproduced⟩ := h.repaired r hr hlater
    exact ⟨hsource, a, hattempt.mem_of_mem ha, hproduced⟩
  · rw [hrevisions]
    exact Table.forall_appended hattempt h.candidates fun id hid => nomatch hid
  · rw [hrevisions]
    intro r hr hactive
    obtain ⟨m, hm, hid, c, hc, hcurrent, hle⟩ := h.currentLatest r hr hactive
    rw [← henqueued.monitors] at hm
    have hheld : db'.monitors.Evolves Touched (holdForReview now e.monitorId
        { db' with repairAttempts := repairAttempts', uuids := uuids' }).monitors :=
      touched_updateMonitor fun _ => ⟨rfl, rfl⟩
    obtain ⟨m', hm', hid', hsame⟩ := hheld.forward m hm
    exact ⟨m', hm', hid'.trans hid, c, hc, hsame.currentRevisionId.trans hcurrent, hle⟩
  · refine Table.forall_appended henqueued.appended ?_ ?_
    · intro s hs hflight
      unfold WellFounded
      rw [hrevisions]
      refine ⟨(h.wellFounded s hs hflight).1, fun hrepair => ?_⟩
      obtain ⟨g, hg, hlast', b, hb, hworks⟩ := (h.wellFounded s hs hflight).2 hrepair
      exact ⟨g, hg, hlast', b, hattempt.mem_of_mem hb, hworks⟩
    · intro _
      unfold WellFounded
      rw [hrevisions]
      refine ⟨fun hcompile => (nomatch hcompile), fun _ => ?_⟩
      exact ⟨generation, rfl, hlast, _, hattempt.mem, rfl, rfl, rfl, rfl⟩

/-- A revision of an idle monitor does not unsettle the work of the others. -/
theorem wellFounded_of_appended {r : Revision} (h : Lineage db) (hidle : Idle db r.monitorId)
    (hrevision : db.revisions.Appended r db'.revisions)
    (hexecutions : db'.executions = db.executions)
    (hkept : ∀ s ∈ db.executions, s.inFlight = true → ∀ generation, ∀ a ∈ db.repairAttempts,
      WorksOn s generation a → a ∈ db'.repairAttempts) :
    ∀ s ∈ db'.executions, s.inFlight = true → WellFounded db' s := by
  rw [hexecutions]
  intro s hs hflight
  have hne : r.monitorId ≠ s.monitorId := fun hsame => by
    simp [hidle s hs hsame.symm] at hflight
  obtain ⟨hcompile, hrepair⟩ := h.wellFounded s hs hflight
  refine ⟨fun hkind => Table.forall_appended hrevision (hcompile hkind) hne, fun hkind => ?_⟩
  obtain ⟨generation, hgeneration, hlast, a, ha, hworks⟩ := hrepair hkind
  exact ⟨generation, hgeneration,
    Table.forall_appended hrevision hlast fun hsame => absurd hsame hne,
    a, hkept s hs hflight generation a ha hworks, hworks⟩

/-- The first plan of a monitor. -/
theorem planCompiled {r : Revision} (h : Lineage db) (hidle : Idle db r.monitorId)
    (hpersists : Persists db db') (hnone : ∀ s ∈ db.revisions, s.monitorId ≠ r.monitorId)
    (hmonitor : db.hasMonitor r.monitorId) (hfirst : r.generation = 1)
    (hsource : r.source = .compile)
    (hpending : r.pending = true) (hrevision : db.revisions.Appended r db'.revisions)
    (hattempts : db'.repairAttempts = db.repairAttempts)
    (hmonitors : db.monitors.Extends SamePlan db'.monitors)
    (hexecutions : db'.executions = db.executions) : Lineage db' := by
  refine ⟨?_, ?_, ?_, hattempts ▸ h.attempts, ?_, ?_, ?_, ?_⟩
  · exact Table.forall_appended hrevision
      (fun s hs => hpersists.hasMonitor (h.revisionHoused s hs)) (hpersists.hasMonitor hmonitor)
  · rw [hattempts]
    exact fun a ha => hasExecution_of_persists hpersists (h.attemptHoused a ha)
  · exact h.line.appended hrevision (fun s hs hsame => absurd hsame (hnone s hs)) (Or.inl rfl)
      hfirst
      fun _ => hsource
  · rw [hattempts]
    exact Table.forall_appended hrevision h.repaired fun hlater => by omega
  · rw [hattempts]
    intro a ha id hid
    obtain ⟨s, hs, hproduced⟩ := h.candidates a ha id hid
    exact ⟨s, hrevision.mem_of_mem hs, hproduced⟩
  · refine Table.forall_appended hrevision ?_ fun hactive => ?_
    · intro s hs hactive
      obtain ⟨m, hm, hid, c, hc, hcurrent, hle⟩ := h.currentLatest s hs hactive
      obtain ⟨m', hm', hid', hsame⟩ := hmonitors m hm
      exact ⟨m', hm', hid'.trans hid, c, hrevision.mem_of_mem hc, hsame.trans hcurrent, hle⟩
    · simp [Revision.pending, hactive, ValidationState.pending] at hpending
  · refine h.wellFounded_of_appended hidle hrevision hexecutions fun s hs hflight _ a ha _ => ?_
    rwa [hattempts]

/-- The generation that a repair works on is the last one of its monitor. -/
theorem planRepaired {r : Revision} {f : RepairAttempt → RepairAttempt}
    {hf : ∀ a, (f a).id = a.id} (h : Lineage db) (hidle : Idle db e.monitorId)
    (hwell : WellFounded db e) (hplanned : ExecutesActivePlan db e) (hkind : e.kind = .repair)
    (hpersists : Persists db db') (hmonitor : r.monitorId = e.monitorId)
    (hnext : r.generation = nextGeneration e.monitorId db) (hsource : r.source = .repair)
    (hrevision : db.revisions.Appended r db'.revisions)
    (hassign : ∀ a, (f a).monitorId = a.monitorId ∧ (f a).failedGeneration = a.failedGeneration ∧
      (f a).executionId = a.executionId ∧ (f a).candidateRevisionId = some r.id)
    (hattempts : db'.repairAttempts =
      db.repairAttempts.update (fun a => decide (a.executionId = e.id)) f hf)
    (hcurrent : ∀ s ∈ db'.revisions, s.validationState = .active → ∃ m ∈ db'.monitors,
      m.id = s.monitorId ∧ ∃ c ∈ db'.revisions,
        m.currentRevisionId = some c.id ∧ s.generation ≤ c.generation)
    (hexecutions : db'.executions = db.executions) : Lineage db' := by
  obtain ⟨generation, hgeneration, hlast, a, ha, hworks⟩ := hwell.2 hkind
  obtain ⟨p, hp, -, hpm, -, hpg⟩ := hplanned
  obtain rfl : p.generation = generation := by
    rw [hgeneration] at hpg
    exact (Option.some.inj hpg).symm
  have hsucc : r.generation = p.generation + 1 :=
    hnext.trans (nextGeneration_eq (fun s hs hsame => (hlast s hs hsame).1)
      (Or.inr ⟨p, hp, hpm, rfl⟩))
  have hpositive := h.line.positive p hp
  have hproduces : Produced (f a) r := by
    obtain ⟨hfm, hfg, -, hfc⟩ := hassign a
    exact ⟨hfm.trans (hworks.1.trans hmonitor.symm), by rw [hfg, hworks.2.1, hsucc], hfc⟩
  have hmem : ∀ b ∈ db.repairAttempts, b.executionId ≠ e.id → b ∈ db'.repairAttempts := by
    rw [hattempts]
    exact fun b hb hne => Table.mem_update_of_neg hb (by simpa using hne)
  have hback : ∀ b' ∈ db'.repairAttempts, ∃ b ∈ db.repairAttempts, b'.id = b.id ∧
      b'.monitorId = b.monitorId ∧ b'.failedGeneration = b.failedGeneration ∧
      b'.executionId = b.executionId := by
    rw [hattempts]
    intro b' hb'
    rcases Table.mem_update_cases hb' with ⟨b, hb, -, rfl⟩ | ⟨hb, -⟩
    · exact ⟨b, hb, hf b, (hassign b).1, (hassign b).2.1, (hassign b).2.2.1⟩
    · exact ⟨b', hb, rfl, rfl, rfl, rfl⟩
  refine ⟨?_, ?_, ?_, h.attempts.of_backward hback, ?_, ?_, hcurrent, ?_⟩
  · refine Table.forall_appended hrevision
      (fun s hs => hpersists.hasMonitor (h.revisionHoused s hs)) (hpersists.hasMonitor ?_)
    rw [hmonitor, ← hpm]
    exact h.revisionHoused p hp
  · intro b' hb'
    obtain ⟨b, hb, -, -, -, hexecution⟩ := hback b' hb'
    exact hexecution ▸ hasExecution_of_persists hpersists (h.attemptHoused b hb)
  · exact h.line.appended hrevision (by rw [hmonitor]; exact hlast)
      (Or.inr ⟨p, hp, hpm.trans hmonitor.symm, rfl⟩) hsucc fun hzero => by omega
  · refine Table.forall_appended hrevision ?_ fun _ => ⟨hsource, f a, ?_, ?_⟩
    · intro s hs hlater
      obtain ⟨hrepair, b, hb, hproduced⟩ := h.repaired s hs hlater
      exact ⟨hrepair, b, hmem b hb (h.produced_ne ha hworks hb hproduced), hproduced⟩
    · rw [hattempts]
      exact Table.mem_update_of_pos ha (by simpa using hworks.2.2.1)
    · exact hproduces
  · intro b' hb' id hid
    rw [hattempts] at hb'
    rcases Table.mem_update_cases hb' with ⟨b, hb, hbe, rfl⟩ | ⟨hb, -⟩
    · obtain rfl := h.attempts.execution b hb a ha
        ((of_decide_eq_true hbe).trans hworks.2.2.1.symm)
      rw [(hassign b).2.2.2, Option.mem_some_iff] at hid
      exact ⟨r, hrevision.mem, hid, hproduces⟩
    · obtain ⟨s, hs, hproduced⟩ := h.candidates b' hb id hid
      exact ⟨s, hrevision.mem_of_mem hs, hproduced⟩
  · refine h.wellFounded_of_appended (hmonitor ▸ hidle) hrevision hexecutions ?_
    intro s hs hflight g b hb hworks'
    exact hmem b hb (h.executionId_ne hidle ha hworks hs hflight hb hworks'.1)

/-- A decision on the revisions of a monitor. -/
theorem decided {monitorId : UUID} (h : Lineage db) (hpersists : Persists db db')
    (hrevisions : db.revisions.Evolves (Decided monitorId) db'.revisions)
    (hattempts : db.repairAttempts.Evolves SameRepair db'.repairAttempts)
    (hcurrent : ∀ s ∈ db'.revisions, s.validationState = .active → ∃ m ∈ db'.monitors,
      m.id = s.monitorId ∧ ∃ c ∈ db'.revisions,
        m.currentRevisionId = some c.id ∧ s.generation ≤ c.generation)
    (hexecutions : db'.executions = db.executions) : Lineage db' := by
  refine ⟨?_, ?_, h.line.decided hrevisions, h.attempts.evolves hattempts, ?_, ?_, hcurrent, ?_⟩
  · intro r' hr'
    obtain ⟨r, hr, -, hd⟩ := hrevisions.backward r' hr'
    exact hd.monitorId ▸ hpersists.hasMonitor (h.revisionHoused r hr)
  · intro a' ha'
    obtain ⟨a, ha, -, hsame⟩ := hattempts.backward a' ha'
    exact hsame.executionId ▸ hasExecution_of_persists hpersists (h.attemptHoused a ha)
  · intro r' hr' hlater
    obtain ⟨r, hr, hid, hd⟩ := hrevisions.backward r' hr'
    obtain ⟨hsource, a, ha, hproduced⟩ := h.repaired r hr (hd.generation ▸ hlater)
    obtain ⟨a', ha', -, hsame⟩ := hattempts.forward a ha
    refine ⟨hd.source.trans hsource, a', ha', ?_⟩
    exact hd.produced hid (hsame.produced hproduced)
  · intro a' ha' id hid
    obtain ⟨a, ha, -, hsame⟩ := hattempts.backward a' ha'
    obtain ⟨r, hr, hrid, hproduced⟩ := h.candidates a ha id (hsame.candidateRevisionId ▸ hid)
    obtain ⟨r', hr', hkey, hd⟩ := hrevisions.forward r hr
    exact ⟨r', hr', hkey.trans hrid, hd.produced hkey (hsame.produced hproduced)⟩
  · rw [hexecutions]
    intro e he hflight
    obtain ⟨hcompile, hrepair⟩ := h.wellFounded e he hflight
    refine ⟨fun hkind r' hr' => ?_, fun hkind => ?_⟩
    · obtain ⟨r, hr, -, hd⟩ := hrevisions.backward r' hr'
      exact hd.monitorId ▸ hcompile hkind r hr
    · obtain ⟨generation, hgeneration, hlast, a, ha, hworks⟩ := hrepair hkind
      obtain ⟨a', ha', -, hsame⟩ := hattempts.forward a ha
      refine ⟨generation, hgeneration, fun r' hr' hmonitor => ?_, a', ha', hsame.worksOn hworks⟩
      obtain ⟨r, hr, -, hd⟩ := hrevisions.backward r' hr'
      obtain ⟨hle, hsettled⟩ := hlast r hr (hd.monitorId.symm.trans hmonitor)
      refine ⟨hd.generation ▸ hle, ?_⟩
      by_contra hpending
      simp [hd.pending (by simpa using hpending)] at hsettled

/-- Making a pending revision the current one keeps the current one the latest active. -/
theorem currentLatest_activated {r r' : Revision} {f : Monitor → Monitor}
    {hf : ∀ m, (f m).id = m.id} (h : Lineage db) (hm : m ∈ db.monitors) (hr : r ∈ db.revisions)
    (hmonitor : r.monitorId = m.id) (hpending : r.pending = true)
    (hpersists : Persists db db')
    (hrevisions : db.revisions.Evolves (Decided m.id) db'.revisions) (hr' : r' ∈ db'.revisions)
    (hid : r'.id = r.id) (hgeneration : r'.generation = r.generation)
    (hmonitors : db'.monitors = db.monitors.update (fun s => decide (s.id = m.id)) f hf)
    (hf' : (f m).currentRevisionId = some r.id) :
    ∀ s ∈ db'.revisions, s.validationState = .active → ∃ m ∈ db'.monitors,
      m.id = s.monitorId ∧ ∃ c ∈ db'.revisions,
        m.currentRevisionId = some c.id ∧ s.generation ≤ c.generation := by
  intro s' hs' hactive
  obtain ⟨s, hs, -, hd⟩ := hrevisions.backward s' hs'
  rw [hmonitors]
  by_cases hown : s.monitorId = m.id
  · refine ⟨f m, Table.mem_update_of_pos hm (by simp), ?_, r', hr', by rw [hf', hid], ?_⟩
    · rw [hf, hd.monitorId, hown]
    · rw [hgeneration, hd.generation]
      exact h.line.pendingLatest r hr hpending s hs (hown.trans hmonitor.symm)
  · obtain rfl := hd.others hown
    obtain ⟨m₂, hm₂, hid₂, c, hc, hcurrent, hle⟩ := h.currentLatest s' hs hactive
    obtain ⟨c', hc', hcid, hsame⟩ := hpersists.revisions c hc
    refine ⟨m₂, Table.mem_update_of_neg hm₂ (by simpa [hid₂] using hown), hid₂, c', hc', ?_, ?_⟩
    · rw [hcurrent, hcid]
    · rw [hsame.generation]
      exact hle

end Lineage

theorem noNewWork_of_eq (h : db'.executions = db.executions) : NoNewWork db db' := by
  unfold NoNewWork
  rw [h]
  exact fun s hs hflight _ => ⟨s, hs, hflight, SameJob.refl s⟩

theorem noNewWork_of_substituted (h : db.executions.Substituted e e' db'.executions)
    (hjob : SameJob e e') (hflight : e'.inFlight = true → e.inFlight = true) :
    NoNewWork db db' := by
  intro s hs hsf _
  rcases h.mem_cases hs with ⟨hs, -⟩ | rfl
  · exact ⟨s, hs, hsf, SameJob.refl s⟩
  · exact ⟨e, h.mem, hflight hsf, hjob⟩

theorem noNewWork_of_appended (h : db.executions.Appended n db'.executions)
    (hkind : n.kind = .check) :
    NoNewWork db db' := by
  intro s hs hflight hcheck
  rcases h.mem_iff.mp hs with hs | rfl
  · exact ⟨s, hs, hflight, SameJob.refl s⟩
  · exact absurd hkind hcheck

theorem evolves_of_eq {t t' : Table RepairAttempt.id} (h : t' = t) : t.Evolves SameRepair t' := by
  rw [h]
  exact .refl SameRepair.refl t

theorem extends_of_touched (h : db.monitors.Evolves Touched db'.monitors) :
    db.monitors.Extends SamePlan db'.monitors := by
  intro m hm
  obtain ⟨m', hm', hid, htouched⟩ := h.forward m hm
  exact ⟨m', hm', hid, htouched.currentRevisionId⟩

/-- The invariants that hold only together. -/
structure Coherent (db : Database) : Prop where
  serialized : Serialized db
  plans : PlansActive db
  lineage : Lineage db

theorem Coherent.empty : Coherent Database.empty :=
  ⟨Serialized.empty, PlansActive.empty, Lineage.empty⟩

namespace Lineage

theorem checkEnqueued {traceparent : String} (h : Lineage db)
    (henqueued : Enqueued now db n traceparent db') (hkind : n.kind = .check) : Lineage db' :=
  h.congr (.enqueued henqueued) henqueued.revisions (evolves_of_eq henqueued.repairAttempts)
    (extends_of_touched (touched_of_eq henqueued.monitors))
    (noNewWork_of_appended henqueued.appended hkind)

theorem retired (h : Lineage db) (hretired : Retired db e e' db') : Lineage db' :=
  h.congr (.retired hretired) hretired.revisions (evolves_of_eq hretired.repairAttempts)
    (extends_of_touched (touched_of_eq hretired.monitors))
    (noNewWork_of_substituted hretired.substituted hretired.sameJob fun _ => hretired.inFlight)

/-- The monitors change, and nothing else that the lineage depends on. -/
theorem touched (h : Lineage db) (hpersists : Persists db db')
    (hrevisions : db'.revisions = db.revisions)
    (hattempts : db.repairAttempts.Evolves SameRepair db'.repairAttempts)
    (hmonitors : db.monitors.Evolves Touched db'.monitors)
    (hexecutions : db'.executions = db.executions) : Lineage db' :=
  h.congr hpersists hrevisions hattempts (extends_of_touched hmonitors)
    (noNewWork_of_eq hexecutions)

theorem replaced (h : Lineage db) (hidle : Idle db e.monitorId) (hwell : WellFounded db e)
    (hreplaced : Replaced now db e db') : Lineage db' := by
  cases hreplaced with
  | repointed id db' a hkind hmem hexecution henqueued =>
      exact h.repointed hidle hwell hkind henqueued
  | enqueued id db' hkind henqueued =>
      cases hk : e.kind with
      | repair => exact absurd hk hkind
      | check => exact h.checkEnqueued henqueued hk
      | compile =>
          refine h.of_work (.enqueued henqueued) henqueued.revisions
            (evolves_of_eq henqueued.repairAttempts)
            (extends_of_touched (touched_of_eq henqueued.monitors)) ?_
          refine Table.forall_appended henqueued.appended ?_ ?_
          · intro s hs hflight
            exact (h.wellFounded s hs hflight).congr (SameJob.refl s) henqueued.revisions
              (evolves_of_eq henqueued.repairAttempts).forward
          · intro _
            refine ⟨fun _ => ?_, fun hrepair => ?_⟩
            · rw [henqueued.revisions]
              exact hwell.1 hk
            · simp [replacementExecution, newExecution, hk] at hrepair

theorem terminalized {reason : String} (h : Lineage db) :
    Lineage (terminalizeStaleExecution now e reason db) := by
  have hrevisions : (terminalizeStaleExecution now e reason db).revisions = db.revisions := by
    unfold terminalizeStaleExecution
    cases e.kind <;> rfl
  have hattempts : db.repairAttempts.Evolves SameRepair
      (terminalizeStaleExecution now e reason db).repairAttempts := by
    unfold terminalizeStaleExecution
    cases e.kind with
    | compile | check => exact .refl SameRepair.refl _
    | repair => exact Table.evolves_update SameRepair.refl fun _ _ _ => ⟨rfl, rfl, rfl, rfl⟩
  exact h.touched .terminalizeStaleExecution hrevisions hattempts touched_terminalizeStaleExecution
    (terminalizeStaleExecution_executions _ _ _ _)

theorem recorded {observation : ResultObservation} {o : Observation} (h : Lineage db)
    (hrecorded : Recorded now e observation db m o db') : Lineage db' :=
  h.touched (.recorded hrecorded) hrecorded.unchanged.2.1
    (evolves_of_eq hrecorded.unchanged.2.2.1) (touched_of_eq hrecorded.unchanged.1)
    hrecorded.executions

theorem reaction {store : OpenStore} {o : Observation} (h : Lineage db)
    (hreaction : Reaction store now e m o db db') : Lineage db' := by
  have hmonitors : db.monitors.Extends SamePlan db'.monitors := (plan_reaction hreaction).forward
  have hpersists := Persists.reaction hreaction
  cases hreaction with
  | diagnostic hnot => exact h
  | unchanged hkind hverified hordinary hmatched hor => exact h
  | latched hkind hverified hor =>
      exact h.congr hpersists rfl (.refl SameRepair.refl _) hmonitors (noNewWork_of_eq rfl)
  | alerted id alerts' alertDeliveries' uuids' hkind hverified hconfirmation hmatched hprevious
      halert =>
      exact h.congr hpersists rfl (.refl SameRepair.refl _) hmonitors (noNewWork_of_eq rfl)
  | confirmationQueued id db' hkind hverified hordinary hmatched hprevious henqueued =>
      exact h.checkEnqueued henqueued rfl

theorem applyCheckFailure {result : ExecutionResult} (h : Lineage db) :
    Lineage (applyCheckFailure now e result db) := by
  have hsame : (Executions.applyCheckFailure now e result db).revisions = db.revisions ∧
      (Executions.applyCheckFailure now e result db).repairAttempts = db.repairAttempts := by
    unfold Executions.applyCheckFailure
    split
    · exact ⟨rfl, rfl⟩
    · split <;> exact ⟨rfl, rfl⟩
  exact h.touched .applyCheckFailure hsame.1 (evolves_of_eq hsame.2) touched_applyCheckFailure
    (applyCheckFailure_executions _ _ _ _)

theorem failureEffect {store : OpenStore} {result : ExecutionResult} (h : Lineage db)
    (hidle : Idle db e.monitorId) (hwell : WellFounded db e)
    (hplanned : e.kind ≠ .compile → ExecutesActivePlan db e)
    (heffect : FailureEffect store now e result db db') : Lineage db' := by
  have hpersists := Persists.failureEffect heffect
  have hmonitors := touched_failureEffect heffect
  cases heffect with
  | retried db' hretry hreplaced => exact h.replaced hidle hwell hreplaced
  | compileFailed hkind => exact h.touched hpersists rfl (.refl SameRepair.refl _) hmonitors rfl
  | repairFailed hkind =>
      refine h.touched hpersists rfl ?_ hmonitors rfl
      exact Table.evolves_update SameRepair.refl fun _ _ _ => ⟨rfl, rfl, rfl, rfl⟩
  | checkFailed hkind hfresh => exact h.applyCheckFailure
  | repairExists a hkind hstale hmem hmonitor hgeneration => exact h
  | repairQueued id attemptId generation repairAttempts' uuids' db' hkind hstale hgeneration hnone
      hattempt henqueued =>
      exact h.repairQueued (hplanned (by simp [hkind])) hgeneration hnone hattempt henqueued

theorem planEffect {plan : Json} {autoPromote : Bool} (h : Lineage db)
    (hidle : Idle db e.monitorId) (hmonitor : db.hasMonitor e.monitorId) (hwell : WellFounded db e)
    (hplanned : e.kind ≠ .compile → ExecutesActivePlan db e)
    (heffect : PlanEffect now e plan autoPromote db db') : Lineage db' := by
  have hpersists := Persists.planEffect heffect
  cases heffect with
  | compiled id revisions' uuids' hkind hrevision =>
      have hfirst : nextGeneration e.monitorId db = 1 :=
        nextGeneration_eq (fun r hr hsame => absurd hsame (hwell.1 hkind r hr)) (Or.inl rfl)
      exact h.planCompiled hidle hpersists (hwell.1 hkind) hmonitor hfirst rfl
        (by simp [planRevision, hkind, Revision.pending, ValidationState.pending]) hrevision rfl
        (Table.extends_update samePlan_refl fun _ _ _ => rfl) rfl
  | promoted id failedRevisionId m revisions' uuids' hkind hauto hfailed hmem hid hcurrent
      hrevision =>
      refine h.planRepaired hidle hwell (hplanned (by simp [hkind])) hkind hpersists rfl rfl rfl
        hrevision ?_ rfl ?_ rfl
      · exact fun _ => ⟨rfl, rfl, rfl, rfl⟩
      intro s hs hactive
      by_cases hown : s.monitorId = e.monitorId
      · refine ⟨_, Table.mem_update_of_pos hmem (by simpa using hid), hid.trans hown.symm, _,
          hrevision.mem, rfl, ?_⟩
        rcases hrevision.mem_iff.mp hs with hs | rfl
        · exact (hown ▸ lt_nextGeneration hs).le
        · exact le_refl _
      · rcases hrevision.mem_iff.mp hs with hs | rfl
        · obtain ⟨m₂, hm₂, hid₂, c, hc, hcurrent₂, hle⟩ := h.currentLatest s hs hactive
          exact ⟨m₂, Table.mem_update_of_neg hm₂ (by simpa [hid₂] using hown), hid₂, c,
            hrevision.mem_of_mem hc, hcurrent₂, hle⟩
        · exact absurd rfl hown
  | held id revisions' uuids' hkind hheld hrevision =>
      refine h.planRepaired hidle hwell (hplanned (by simp [hkind])) hkind hpersists rfl rfl rfl
        hrevision ?_ rfl ?_ rfl
      · exact fun _ => ⟨rfl, rfl, rfl, rfl⟩
      intro s hs hactive
      rcases hrevision.mem_iff.mp hs with hs | rfl
      · obtain ⟨m, hm, hid, c, hc, hcurrent, hle⟩ := h.currentLatest s hs hactive
        have hsame : db.monitors.Extends SamePlan (db.monitors.update
            (fun m => decide (m.id = e.monitorId)) fun m =>
              { m with status := .needsReview, updatedAt := now }) :=
          Table.extends_update samePlan_refl fun _ _ _ => rfl
        obtain ⟨m', hm', hid', hplan⟩ := hsame m hm
        exact ⟨m', hm', hid'.trans hid, c, hrevision.mem_of_mem hc, hplan.trans hcurrent, hle⟩
      · simp [planRevision, hkind] at hactive

end Lineage

/-- Deciding on a pending revision of a monitor. -/
theorem decided_of_pending {monitorId : UUID} {r : Revision} {state : ValidationState}
    {activatedAt : Option Timestamp} (hmonitor : r.monitorId = monitorId)
    (hpending : r.pending = true) :
    Decided monitorId r { r with validationState := state, activatedAt := activatedAt } :=
  ⟨rfl, rfl, rfl, fun _ => hpending, fun hne => absurd hmonitor hne⟩

theorem decided_update {monitorId revisionId : UUID} {t : Table Revision.id}
    {f : Revision → Revision}
    {hf : ∀ r, (f r).id = r.id}
    (hassign : ∀ r, r.monitorId = monitorId → r.pending = true → Decided monitorId r (f r)) :
    t.Evolves (Decided monitorId) (t.update (decidable monitorId revisionId) f hf) := by
  refine Table.evolves_update (Decided.refl monitorId) fun r _ hp => ?_
  simp only [decidable, Bool.and_eq_true, decide_eq_true_eq] at hp
  exact hassign r hp.1.2 hp.2

/-- Confirming one pending revision of a monitor rejects the others. -/
theorem decided_confirmed (now : Timestamp) (monitorId revisionId : UUID) (t : Table Revision.id) :
    t.Evolves (Decided monitorId)
      ((t.update (decidable monitorId revisionId) fun r =>
          { r with validationState := .active, activatedAt := some now }).update
        (otherPending monitorId revisionId) fun r => { r with validationState := .rejected }) := by
  refine Table.Evolves.trans (Decided.trans monitorId)
    (decided_update fun r hmonitor hpending => decided_of_pending hmonitor hpending)
    (Table.evolves_update (Decided.refl monitorId) fun r _ hp => ?_)
  simp only [otherPending, Bool.and_eq_true, decide_eq_true_eq] at hp
  exact decided_of_pending hp.1.1 hp.2

/-- Recording a decision on the attempt of a candidate keeps its links. -/
theorem sameRepair_update {monitorId revisionId : UUID} {t : Table RepairAttempt.id}
    {state : RepairState} {completedAt : Option Timestamp} :
    t.Evolves SameRepair (t.update
      (fun a =>
        decide (a.monitorId = monitorId) && decide (a.candidateRevisionId = some revisionId))
      fun a => { a with state := state, candidateRevisionId := some revisionId,
                        completedAt := completedAt }) := by
  refine Table.evolves_update SameRepair.refl fun a _ hp => ?_
  simp only [Bool.and_eq_true, decide_eq_true_eq] at hp
  exact ⟨rfl, rfl, rfl, hp.2.symm⟩

namespace Coherent

/-- What is known of an execution once it has been made terminal. -/
structure Retiring (db : Database) (e : Execution) : Prop where
  coherent : Coherent db
  idle : Idle db e.monitorId
  monitor : db.hasMonitor e.monitorId
  wellFounded : WellFounded db e
  planned : e.kind ≠ .compile → ExecutesActivePlan db e

theorem retired (h : Coherent db) (hretired : Retired db e e' db') : Retiring db' e where
  coherent := ⟨h.serialized.retired hretired, h.plans.retired hretired, h.lineage.retired hretired⟩
  idle := h.serialized.idle hretired
  monitor := (Persists.retired hretired).hasMonitor (h.serialized.housed e hretired.mem)
  wellFounded := (h.lineage.wellFounded e hretired.mem hretired.inFlight).congr (SameJob.refl e)
    hretired.revisions (evolves_of_eq hretired.repairAttempts).forward
  planned := fun hkind => (h.plans.executions e hretired.mem hkind).persists (.retired hretired)

theorem settled {store : OpenStore} {executionId : UUID} {result : ExecutionResult}
    (h : Coherent db) (hsettled : Settled store now executionId result db e e' db₁ db') :
    Coherent db' := by
  refine ⟨h.serialized.settled hsettled, h.plans.settled hsettled, ?_⟩
  obtain ⟨hcoherent, hidle, hmonitor, hwell, hplanned⟩ := h.retired hsettled.retired
  cases hsettled.outcome with
  | planned plan db' hstatus hkind hplan heffect hobservation =>
      exact hcoherent.lineage.planEffect hidle hmonitor hwell hplanned heffect
  | plannedAndRecorded plan observation m o db₂ db' hstatus hkind hplan heffect hobservation
      hrecorded =>
      exact (hcoherent.lineage.planEffect hidle hmonitor hwell hplanned heffect).recorded hrecorded
  | observed observation m o db₂ db' hstatus hkind hobservation hrecorded hreaction =>
      exact (hcoherent.lineage.recorded hrecorded).reaction hreaction
  | failed db' hstatus heffect =>
      exact hcoherent.lineage.failureEffect hidle hwell hplanned heffect

theorem effect {call : Call} (h : Coherent db) (heffect : Effect call db db') : Coherent db' := by
  refine ⟨h.serialized.effect heffect, h.plans.effect heffect, ?_⟩
  have hlineage := h.lineage
  have hpersists := Persists.effect heffect
  cases heffect with
  | created monitorId executionId params monitors' db' hcall hinterval hmonitor henqueued =>
      have hinserted : Persists db { db with monitors := monitors' } :=
        { Persists.refl db with monitors := .of_appended (fun _ => trivial) hmonitor }
      have hcreated : Lineage { db with monitors := monitors' } :=
        hlineage.congr hinserted rfl (.refl SameRepair.refl _) (.of_appended samePlan_refl hmonitor)
          (noNewWork_of_eq rfl)
      refine hcreated.of_work (.enqueued henqueued) henqueued.revisions
        (evolves_of_eq henqueued.repairAttempts)
        (extends_of_touched (touched_of_eq henqueued.monitors)) ?_
      refine Table.forall_appended henqueued.appended ?_ fun _ =>
        ⟨fun _ r hr => ?_, fun hrepair => ?_⟩
      · intro s hs hflight
        exact (hcreated.wellFounded s hs hflight).congr (SameJob.refl s) henqueued.revisions
          (evolves_of_eq henqueued.repairAttempts).forward
      · rw [henqueued.revisions] at hr
        obtain ⟨m, hm, hid⟩ := Database.hasMonitor_iff.mp (hlineage.revisionHoused r hr)
        exact fun hsame => hmonitor.key_ne hm (hid.trans hsame)
      · nomatch hrepair
  | claimed e e' executions' repairAttempts' hqueued hcall he' hexecution hattempts =>
      have hsame : db.repairAttempts.Evolves SameRepair repairAttempts' := by
        rcases hattempts with ⟨-, rfl⟩ | ⟨-, rfl⟩
        · exact .refl SameRepair.refl _
        · exact Table.evolves_update SameRepair.refl fun _ _ _ => ⟨rfl, rfl, rfl, rfl⟩
      refine hlineage.congr hpersists rfl hsame (.refl samePlan_refl _)
        (noNewWork_of_substituted hexecution ?_ fun _ => ?_)
      · rw [he']
        exact ⟨rfl, rfl, rfl, rfl, rfl, rfl, rfl, rfl, rfl⟩
      · simp [Execution.inFlight, hqueued, ExecutionState.inFlight]
  | renewed e e' executions' hrunning hcall he' hexecution =>
      refine hlineage.congr hpersists rfl (.refl SameRepair.refl _) (.refl samePlan_refl _)
        (noNewWork_of_substituted hexecution ?_ fun _ => ?_)
      · rw [he']
        exact ⟨rfl, rfl, rfl, rfl, rfl, rfl, rfl, rfl, rfl⟩
      · simp [Execution.inFlight, hrunning, ExecutionState.inFlight]
  | checkQueued id m r idempotencyKey traceparent db' hcall hnew hadmitting henqueued =>
      exact hlineage.checkEnqueued henqueued rfl
  | dueQueued id m r limit locked db' hcall hadmitting henqueued =>
      refine (hlineage.checkEnqueued henqueued rfl).touched .updateMonitor rfl
        (.refl SameRepair.refl _) ?_ rfl
      exact touched_updateMonitor fun _ => ⟨rfl, rfl⟩
  | confirmed m r condition hcall hmonitor hrevision hdecidable =>
      obtain ⟨hown, hpending⟩ := decidable_iff.mp hdecidable
      have hrevisions := decided_confirmed call.now m.id r.id db.revisions
      refine hlineage.decided hpersists hrevisions (.refl SameRepair.refl _) ?_ rfl
      exact hlineage.currentLatest_activated hmonitor hrevision hown hpending hpersists hrevisions
        (Table.mem_update_of_neg (Table.mem_update_of_pos hrevision hdecidable)
          (by simp [otherPending])) rfl rfl rfl rfl
  | patched m params hcall hmonitor =>
      refine hlineage.touched hpersists rfl (.refl SameRepair.refl _) ?_ rfl
      exact touched_updateMonitor fun m => touched_patchAssign params m
  | accepted m r hcall hmonitor hrevision hdecidable =>
      obtain ⟨hown, hpending⟩ := decidable_iff.mp hdecidable
      have hrevisions : db.revisions.Evolves (Decided m.id) (db.revisions.update
          (decidable m.id r.id) fun r =>
            { r with validationState := .active, activatedAt := some call.now }) :=
        decided_update fun r hmonitor hpending => decided_of_pending hmonitor hpending
      refine hlineage.decided hpersists hrevisions sameRepair_update ?_ rfl
      exact hlineage.currentLatest_activated hmonitor hrevision hown hpending hpersists
        hrevisions (Table.mem_update_of_pos hrevision hdecidable) rfl rfl rfl rfl
  | rejected m r hcall hmonitor hrevision hdecidable =>
      have hrevisions : db.revisions.Evolves (Decided m.id) (db.revisions.update
          (decidable m.id r.id) fun r => { r with validationState := .rejected }) :=
        decided_update fun r hmonitor hpending => decided_of_pending hmonitor hpending
      refine hlineage.decided hpersists hrevisions sameRepair_update ?_ rfl
      intro s hs hactive
      rcases Table.mem_update_cases hs with ⟨s, -, -, rfl⟩ | ⟨hs, -⟩
      · cases hactive
      · obtain ⟨m₂, hm₂, hid, c, hc, hcurrent, hle⟩ := hlineage.currentLatest s hs hactive
        have hsame : db.monitors.Extends SamePlan (db.monitors.update
            (fun s => decide (s.id = m.id)) fun m =>
              { m with status := if m.currentRevisionId.isNone then .blocked else .active,
                       updatedAt := call.now }) :=
          Table.extends_update samePlan_refl fun _ _ _ => rfl
        obtain ⟨m', hm', hid', hplan⟩ := hsame m₂ hm₂
        obtain ⟨c', hc', hcid, hrev⟩ := hpersists.revisions c hc
        exact ⟨m', hm', hid'.trans hid, c', hc', by rw [hplan, hcurrent, hcid],
          hrev.generation ▸ hle⟩
  | terminalized e e' db₁ runningStaleAfter maxAttempts limit locked hcall hattempts hretired
      hrunning hfailed =>
      exact (hlineage.retired hretired).terminalized
  | replaced e e' db₁ db' runningStaleAfter maxAttempts limit locked hcall hattempts hretired
      hrunning hfailed hreplaced =>
      have hretiring := h.retired hretired
      exact hretiring.coherent.lineage.replaced hretiring.idle hretiring.wellFounded hreplaced
  | published outbox' locked limit publish commits hcall hevolves =>
      exact hlineage.touched hpersists rfl (.refl SameRepair.refl _) (touched_of_eq rfl) rfl

end Coherent

end Preservation

theorem coherent_of_reachable {db : Database} (h : StoreReachable db) : Coherent db :=
  StoreReachable.invariant Coherent.empty (fun _ _ _ => Coherent.effect)
    (fun _ _ _ _ _ _ _ _ _ => Coherent.settled) h

end PriceScout.Store.Generations
