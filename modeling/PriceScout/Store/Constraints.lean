import PriceScout.Store.Aborts
import PriceScout.Store.Alerting
import PriceScout.Store.Identifiers
import PriceScout.Store.OutboxCorrespondence
import PriceScout.Store.Results

/-!
No operation of the store runs into a constraint of the schema, or misses a row
that it takes for granted: what it inserts is fit for the state it finds.
-/

namespace PriceScout.Store.Constraints

open PriceScout.Domain
open PriceScout.Library.GoStrings
open PriceScout.Library.JsonDocuments
open PriceScout.Library.Runs
open PriceScout.Library.Tables
open PriceScout.Store.Aborts
open PriceScout.Store.Alerting
open PriceScout.Store.Alerts
open PriceScout.Store.Effects
open PriceScout.Store.Executions
open PriceScout.Store.Generations
open PriceScout.Store.Identifiers
open PriceScout.Store.Inversions
open PriceScout.Store.Lifecycles
open PriceScout.Store.Monitors
open PriceScout.Store.Operations
open PriceScout.Store.Outbox
open PriceScout.Store.OutboxCorrespondence
open PriceScout.Store.Persistence
open PriceScout.Store.Provenance
open PriceScout.Store.Recovery
open PriceScout.Store.Results
open PriceScout.Store.Schema
open PriceScout.Store.Serialization

section Texts

/-- The value of a hexadecimal digit. -/
def hexDigit (c : Char) : Nat :=
  if c.toNat < 58 then c.toNat - 48 else c.toNat - 87

def hexValue (digits : List Char) : Nat :=
  digits.foldl (fun value c => 16 * value + hexDigit c) 0

theorem hexDigit_digitChar : ∀ d < 16, hexDigit (Nat.digitChar d) = d := by
  decide

theorem hexValue_append (first second : List Char) :
    hexValue (first ++ second) =
      second.foldl (fun value c => 16 * value + hexDigit c) (hexValue first) := by
  rw [hexValue, List.foldl_append]
  rfl

theorem hexValue_toDigits (n : Nat) : hexValue (Nat.toDigits 16 n) = n := by
  induction n using Nat.strong_induction_on with
  | _ n ih =>
      rw [Nat.toDigits_eq_if (by decide)]
      split
      · rename_i hlt
        simp [hexValue, hexDigit_digitChar n hlt]
      · rw [hexValue_append, ih (n / 16) (by omega)]
        simp only [List.foldl_cons, List.foldl_nil, hexDigit_digitChar _ (Nat.mod_lt n (by decide))]
        omega

theorem hexValue_padLeft (width n : Nat) : hexValue (padLeft width (Nat.toDigits 16 n)) = n := by
  have hzeros : ∀ k, hexValue (List.replicate k '0') = 0 := by
    intro k
    induction k with
    | zero => rfl
    | succ k ih => simpa [hexValue, List.replicate_succ, hexDigit] using ih
  rw [padLeft, hexValue_append, hzeros]
  exact hexValue_toDigits n

/-- The last group of a text can be told from what comes before it. -/
theorem group_inj {width m n : Nat} {before before' : List Char} (hwidth : 0 < width)
    (hm : m < 16 ^ width) (hn : n < 16 ^ width)
    (h : before ++ '-' :: padLeft width (Nat.toDigits 16 m) =
      before' ++ '-' :: padLeft width (Nat.toDigits 16 n)) : before = before' ∧ m = n := by
  obtain ⟨hbefore, hgroup⟩ := List.append_inj' h (by
    simp only [List.length_cons, length_padLeft hwidth hm, length_padLeft hwidth hn])
  refine ⟨hbefore, ?_⟩
  rw [← hexValue_padLeft width m, (List.cons.inj hgroup).2, hexValue_padLeft]

/-- Different identifiers have different texts. -/
theorem string_injective : Function.Injective UUID.string := by
  rintro ⟨a⟩ ⟨b⟩ h
  have hfour : ∀ n, n % 16 ^ 4 < 16 ^ 4 := fun n => Nat.mod_lt n (by decide)
  have htwelve : ∀ n, n % 16 ^ 12 < 16 ^ 12 := fun n => Nat.mod_lt n (by decide)
  simp only [UUID.string, String.ofList_inj] at h
  obtain ⟨h, h₄⟩ := group_inj (by decide) (htwelve a) (htwelve b) h
  obtain ⟨h, h₃⟩ := group_inj (by decide) (hfour _) (hfour _) h
  obtain ⟨h, h₂⟩ := group_inj (by decide) (hfour _) (hfour _) h
  obtain ⟨h, h₁⟩ := group_inj (by decide) (hfour _) (hfour _) h
  have h₀ : a / 16 ^ 24 = b / 16 ^ 24 := by
    rw [← hexValue_padLeft 8 (a / 16 ^ 24), h, hexValue_padLeft]
  simp only [UUID.mk.injEq]
  omega

/-- The key of the alert on an observation. -/
def alertKey (monitorId observationId : UUID) : String :=
  "condition:" ++ monitorId.string ++ ":" ++ observationId.string

/-- The keys of alerts on different observations are different. -/
theorem observationId_of_alertKey {monitorId observationId monitorId' observationId' : UUID}
    (h : alertKey monitorId observationId = alertKey monitorId' observationId') :
    observationId = observationId' := by
  have hcolon : ∀ id : UUID, ':' ∉ id.string.toList := by
    intro id hmem
    exact UUID.forall_mem_string (p := (· ≠ ':')) (by decide) (by decide) id ':' hmem rfl
  have hlists := congrArg String.toList h
  simp only [alertKey, String.toList_append, List.append_assoc,
      List.append_cancel_left_eq] at hlists
  have htexts :=
    (List.append_cons_inj_of_notMem (hcolon monitorId) (hcolon observationId)).mp hlists
  exact string_injective (String.toList_injective htexts.2.2)

end Texts

/-- Every alert has the key of an observation that was made. -/
def KeyedByObservation (db : Database) : Prop :=
  ∀ a ∈ db.alerts, a.idempotencyKey = alertKey a.monitorId a.observationId ∧
    ∃ o ∈ db.observations, o.id = a.observationId

section Alerts

variable {now : Timestamp} {db db' db₁ : Database} {e e' : Execution} {store : OpenStore}
  {executionId : UUID} {result : ExecutionResult}

theorem KeyedByObservation.congr (h : KeyedByObservation db) (halerts : db'.alerts = db.alerts)
    (hpersists : Persists db db') : KeyedByObservation db' := by
  unfold KeyedByObservation
  rw [halerts]
  intro a ha
  obtain ⟨hkey, o, ho, hid⟩ := h a ha
  exact ⟨hkey, o, hpersists.mem_observations ho, hid⟩

/-- An accepted result raises no alert, or one on its monitor with the key of the
observation it makes. -/
theorem alerts_keyed (h : Settled store now executionId result db e e' db₁ db') :
    db'.alerts = db.alerts ∨ ∃ a, db.alerts.Appended a db'.alerts ∧
      a.idempotencyKey = alertKey a.monitorId a.observationId ∧
      (∃ m ∈ db'.monitors, m.id = a.monitorId) ∧
      ∃ o ∈ db'.observations, o.id = a.observationId := by
  have halerts := h.retired.alerts
  have hpersists : Persists db db' := .settled h
  cases h.outcome with
  | planned plan db' hstatus hkind hplan heffect hobservation =>
      left
      cases heffect <;> exact halerts
  | plannedAndRecorded plan observation m o db₂ db' hstatus hkind hplan heffect hobservation
      hrecorded =>
      left
      refine hrecorded.unchanged.2.2.2.trans ?_
      cases heffect <;> exact halerts
  | failed db' hstatus heffect => exact Or.inl ((alerts_failureEffect heffect).trans halerts)
  | observed observation m o db₂ db' hstatus hkind hobservation hrecorded hreaction =>
      have hsame := hrecorded.unchanged.2.2.2.trans halerts
      cases hreaction with
      | diagnostic | unchanged | latched => exact Or.inl hsame
      | confirmationQueued id db' _ hverified hordinary hmatched hprevious henqueued =>
          exact Or.inl (henqueued.alerts.trans hsame)
      | alerted id alerts' alertDeliveries' uuids' _ hverified hconfirmation hmatched hprevious
          halert =>
          have hmonitor : m ∈ db.monitors := h.retired.monitors ▸ hrecorded.mem
          obtain ⟨m', hm', hid, -⟩ := hpersists.monitors m hmonitor
          refine Or.inr ⟨_, hsame ▸ halert, rfl, ⟨m', hm', hid.trans hrecorded.monitorId⟩, o, ?_,
            rfl⟩
          obtain ⟨observations', uuids', happended, rfl⟩ := hrecorded.inserted
          exact happended.mem

theorem keyed_of_reachable {db : Database} (h : StoreReachable db) : KeyedByObservation db := by
  refine StoreReachable.invariant (fun a ha => absurd ha (Table.not_mem_empty a)) ?_ ?_ h
  · exact fun call db db' hkeyed heffect =>
      hkeyed.congr (alerts_effect heffect) (.effect heffect)
  · intro store now executionId result db e e' db₁ db' hkeyed hsettled
    have hpersists : Persists db db' := .settled hsettled
    rcases alerts_keyed hsettled with hsame | ⟨a, happended, hkey, -, o, ho, hid⟩
    · exact hkeyed.congr hsame hpersists
    · refine Table.forall_appended happended (fun b hb => ?_) ⟨hkey, o, ho, hid⟩
      obtain ⟨hb, p, hp, hpid⟩ := hkeyed b hb
      exact ⟨hb, p, hpersists.mem_observations hp, hpid⟩

end Alerts

/-- An error by which the store contradicts itself: a violated constraint, other
than on what a caller asked for, or a row that was taken for granted. -/
def contradicts : StoreError → Prop
  | .constraint name => name ≠ "monitors_interval_minutes_check"
  | .failed message => ∀ name, message ≠ "unsupported action " ++ name
  | _ => False

section Inserts

variable {bad : StoreError → Prop} {now : Timestamp} {db : Database}

/-- A row with a new key is inserted. -/
theorem avoids_insertRow_of_fresh {α κ : Type} [DecidableEq κ] {key : α → κ} {table : Table key}
    {row : α} {name : String} (h : ∀ r ∈ table, key r ≠ key row) :
    Avoids bad (insertRow table name row) := by
  obtain ⟨table', hinsert, -⟩ := insertRow_of_fresh name h
  rw [hinsert]
  exact avoids_ok

theorem avoids_require_of {name : String} {c : Prop} [Decidable c] (h : c) :
    Avoids bad (require name c) :=
  avoids_require.mpr fun hnot => absurd h hnot

theorem avoids_insertOutbox_of_numbered {subject : String} {message : WorkMessage}
    (h : Numbered db) : Avoids bad (insertOutbox db now subject message) := by
  simp only [insertOutbox, avoids_bind, avoids_pure, implies_true, and_true]
  exact avoids_insertRow_of_fresh fun row hrow => (h row hrow).ne

/-- What a row of `executions` needs. -/
structure Insertable (db : Database) (row : Execution) : Prop where
  monitor : db.hasMonitor row.monitorId
  revision : ∀ id ∈ row.revisionId, db.hasRevision id
  recovers : ∀ id ∈ row.recoveryOf, db.hasExecution id ∧
    ∀ s ∈ db.executions, s.recoveryOf ≠ some id
  unkeyed : ∀ key ∈ row.idempotencyKey, ∀ s ∈ db.executions, s.monitorId = row.monitorId →
    s.idempotencyKey ≠ some key
  fresh : ∀ s ∈ db.executions, s.id ≠ row.id

theorem Insertable.avoids {row : Execution} (h : Insertable db row) :
    Avoids bad (db.insertExecution row) := by
  have hkeys : db.executions.any (fun e => e.monitorId = row.monitorId ∧
      e.idempotencyKey = row.idempotencyKey ∧ e.idempotencyKey.isSome) = false := by
    rw [Table.any_eq_false_iff]
    intro s hs
    rw [decide_eq_false_iff_not]
    rintro ⟨hmonitor, hsame, hsome⟩
    obtain ⟨key, hkey⟩ := Option.isSome_iff_exists.mp hsome
    exact h.unkeyed key (hsame.symm.trans hkey) s hs hmonitor hkey
  have hrecoveries : db.executions.any (fun e =>
      e.recoveryOf = row.recoveryOf ∧ e.recoveryOf.isSome) = false := by
    rw [Table.any_eq_false_iff]
    intro s hs
    rw [decide_eq_false_iff_not]
    rintro ⟨hsame, hsome⟩
    obtain ⟨id, hid⟩ := Option.isSome_iff_exists.mp hsome
    exact (h.recovers id (hsame.symm.trans hid)).2 s hs hid
  simp only [Database.insertExecution, avoids_bind, avoids_pure, implies_true, and_true]
  exact ⟨avoids_require_of h.monitor, fun _ _ => ⟨avoids_require_of h.revision, fun _ _ =>
    ⟨avoids_require_of fun id hid => (h.recovers id hid).1, fun _ _ =>
      ⟨avoids_require_of hkeys, fun _ _ => ⟨avoids_require_of hrecoveries, fun _ _ =>
        avoids_insertRow_of_fresh h.fresh⟩⟩⟩⟩⟩

/-- What is known of a reachable state. -/
structure Sound (db : Database) : Prop where
  coherent : Coherent db
  linear : Linear db.executions
  fresh : Fresh db
  numbered : Numbered db

theorem sound_of_reachable {db : Database} (h : StoreReachable db) : Sound db :=
  ⟨coherent_of_reachable h, linear_of_reachable h, fresh_of_reachable h, numbered_of_reachable h⟩

theorem numbered_of_written {db' : Database} (h : Numbered db)
    (hwritten : Relation.ReflTransGen Written db db') : Numbered db' := by
  induction hwritten with
  | refl => exact h
  | tail _ hlast ih => exact ih.written hlast

/-- A root execution of a monitor and a revision that are there. -/
theorem insertable_of_root {row : Execution} (hfresh : Fresh db) (hid : row.id = ⟨db.uuids⟩)
    (hmonitor : db.hasMonitor row.monitorId) (hrevision : ∀ id ∈ row.revisionId, db.hasRevision id)
    (hroot : row.recoveryOf = none) (hkey : row.idempotencyKey = none) :
    Insertable { db with uuids := db.uuids + 1 } row where
  monitor := hmonitor
  revision := hrevision
  recovers := by simp [hroot]
  unkeyed := by simp [hkey]
  fresh := fun s hs => hfresh.executions.key_ne (congrArg UUID.value hid) hs

end Inserts

section Operations

variable {now : Timestamp} {db db₁ : Database} {e : Execution} {store : OpenStore}

@[simp] theorem not_contradicts_notFound : ¬ contradicts .notFound :=
  id

@[simp] theorem not_contradicts_conflict : ¬ contradicts .conflict :=
  id

@[simp] theorem not_contradicts_invalidResult (message : String) :
    ¬ contradicts (.invalidResult message) :=
  id

@[simp] theorem not_contradicts_interval :
    ¬ contradicts (.constraint "monitors_interval_minutes_check") :=
  fun h => h rfl

@[simp] theorem not_contradicts_unsupported (name : String) :
    ¬ contradicts (.failed ("unsupported action " ++ name)) :=
  fun h => h name rfl

@[simp] theorem avoids_contradiction_orNotFound {α : Type} {x : Option α} :
    Avoids contradicts (orNotFound x) := by
  cases x <;> simp [orNotFound]

theorem avoids_orNoRows_of_isSome {bad : StoreError → Prop} {α : Type} {x : Option α}
    (h : x.isSome = true) : Avoids bad (orNoRows x) := by
  obtain ⟨a, rfl⟩ := Option.isSome_iff_exists.mp h
  exact avoids_ok

theorem isSome_lookup {α κ : Type} [DecidableEq κ] {key : α → κ} {t : Table key} {r : α}
    (hr : r ∈ t) : (t.lookup (key r)).isSome = true :=
  Option.isSome_iff_exists.mpr ⟨r, Table.lookup_eq_some_iff.mpr ⟨hr, rfl⟩⟩

theorem hasRevision_of_mem {r : Revision} (hr : r ∈ db.revisions) : db.hasRevision r.id :=
  isSome_lookup hr

/-- The revision of an execution is there. -/
theorem hasRevision_of_execution (h : Coherent db) (he : e ∈ db.executions) :
    ∀ id ∈ e.revisionId, db.hasRevision id := by
  intro id hid
  by_cases hkind : e.kind = .compile
  · simp [h.plans.compiles e he hkind] at hid
  · obtain ⟨r, hr, hrevision, -⟩ := h.plans.executions e he hkind
    obtain rfl : r.id = id := by simpa [hrevision] using hid
    exact hasRevision_of_mem hr

theorem hasRevision_of_current (h : Coherent db) {m : Monitor} (hm : m ∈ db.monitors) :
    ∀ id ∈ m.currentRevisionId, db.hasRevision id := by
  intro id hid
  obtain ⟨r, hr, rfl, -⟩ := h.plans.monitors m hm id hid
  exact hasRevision_of_mem hr

/-- An execution and its message are inserted. -/
theorem avoids_enqueue {bad : StoreError → Prop} {row : Execution} {subject : String}
    {message : WorkMessage} (hnumbered : Numbered db)
    (h : Insertable { db with uuids := db.uuids + 1 } row) :
    Avoids bad ({ db with uuids := db.uuids + 1 }.insertExecution row) ∧
      ∀ db₁, { db with uuids := db.uuids + 1 }.insertExecution row = .ok db₁ →
        Avoids bad (insertOutbox db₁ now subject message) := by
  refine ⟨h.avoids, fun db₁ hinsert => avoids_insertOutbox_of_numbered ?_⟩
  obtain ⟨executions', happended, rfl, -⟩ := Database.insertExecution_ok hinsert
  exact hnumbered

theorem consistent_createMonitor {params : CreateMonitorParams} (h : Sound db) :
    Avoids contradicts (createMonitor now params db) := by
  simp only [createMonitor, Database.newUUID, avoids_bind, avoids_contradiction_orNotFound,
    avoids_pure, implies_true, and_true]
  have hdrawn : Fresh { db with uuids := db.uuids + 1 } := h.fresh.newUUID.fresh
  refine ⟨?_, fun db₁ hmonitor => ?_⟩
  · simp only [Database.insertMonitor, avoids_bind, avoids_require, not_contradicts_interval,
      not_false_eq_true, implies_true, avoids_pure, and_true, true_and]
    exact fun _ _ => avoids_insertRow_of_fresh fun m hm => h.fresh.monitors.key_ne rfl hm
  · obtain ⟨-, monitors', happended, rfl⟩ := Database.insertMonitor_ok hmonitor
    refine ⟨Insertable.avoids ⟨?_, by simp [compileExecution, newExecution],
      by simp [compileExecution, newExecution], by simp [compileExecution, newExecution],
      fun s hs => hdrawn.executions.key_ne rfl hs⟩, fun db₂ hinsert => ?_⟩
    · exact Database.hasMonitor_iff.mpr ⟨_, happended.mem, rfl⟩
    · obtain ⟨executions', -, rfl, -⟩ := Database.insertExecution_ok hinsert
      exact avoids_insertOutbox_of_numbered h.numbered

theorem claimExecution_monitors (now : Timestamp) (e : Execution) (db : Database) :
    (claimExecution now e db).2.monitors = db.monitors := by
  obtain ⟨id, monitorId, revisionId, kind, requestedGeneration, attempt, recoveryOf, state, _⟩ := e
  cases state <;> cases kind <;> rfl

theorem consistent_getExecutionInput {id : UUID} (h : Sound db) :
    Avoids contradicts (getExecutionInput now id db) := by
  simp only [getExecutionInput, avoids_bind, avoids_contradiction_orNotFound, orNotFound_eq_ok,
    true_and]
  intro e hlookup
  obtain ⟨he, rfl⟩ := Table.lookup_eq_some_iff.mp hlookup
  obtain ⟨hjob, hrevisions⟩ := claimExecution_kept now e db
  have hmonitors := claimExecution_monitors now e db
  refine ⟨avoids_orNoRows_of_isSome ?_, fun m _ => ?_⟩
  · rw [hmonitors, hjob.monitorId]
    exact h.coherent.serialized.housed e he
  · split
    · exact avoids_pure
    · rename_i revisionId hsome
      simp only [avoids_bind, avoids_pure, implies_true, and_true]
      refine avoids_orNoRows_of_isSome ?_
      rw [hrevisions]
      exact hasRevision_of_execution h.coherent he revisionId (hjob.revisionId.symm.trans hsome)

/-- A check of a monitor and a revision that are there, under a key that is new. -/
theorem insertable_check {m : Monitor} {r : Revision} {idempotencyKey : String} (h : Sound db)
    (hm : m ∈ db.monitors) (hr : r ∈ db.revisions)
    (hnew : existingExecution m.id idempotencyKey db = none) (generation : Nat) :
    Insertable { db with uuids := db.uuids + 1 }
      (checkExecution now ⟨db.uuids⟩ m.id r.id generation idempotencyKey) where
  monitor := Database.hasMonitor_iff.mpr ⟨m, hm, rfl⟩
  revision := by
    rintro id ⟨⟩
    exact hasRevision_of_mem hr
  recovers := by simp [checkExecution, newExecution]
  unkeyed := by
    intro key hkey s hs hmonitor hsame
    simp only [checkExecution, nullIfEmpty, Option.mem_def, Option.ite_none_left_eq_some,
      Option.some.injEq] at hkey
    obtain ⟨hne, rfl⟩ := hkey
    simp only [existingExecution, if_neg hne, Table.find_eq_none_iff] at hnew
    simpa [hsame, show s.monitorId = m.id from hmonitor] using hnew s hs
  fresh := fun s hs => h.fresh.executions.key_ne rfl hs

theorem consistent_enqueueCheck {monitorId : UUID} {idempotencyKey traceparent : String}
    (h : Sound db) :
    Avoids contradicts (enqueueCheck now monitorId idempotencyKey traceparent db) := by
  unfold enqueueCheck
  split
  · exact avoids_ok
  · rename_i hnew
    simp only [avoids_bind, avoids_contradiction_orNotFound, orNotFound_eq_ok, true_and]
    intro m hlookup
    obtain ⟨hm, rfl⟩ := Table.lookup_eq_some_iff.mp hlookup
    split
    · rename_i currentRevisionId _ hcurrent
      split
      · simp
      · simp only [Database.newUUID, avoids_bind, orNoRows_eq_ok, avoids_pure, implies_true,
          and_true]
        refine ⟨avoids_orNoRows_of_isSome (hasRevision_of_current h.coherent hm _ hcurrent),
          fun r hfound => ?_⟩
        obtain ⟨hr, rfl⟩ := Table.lookup_eq_some_iff.mp hfound
        exact avoids_enqueue h.numbered (insertable_check h hm hr hnew r.generation)
    · simp

/-- One pass of the scheduler's loop succeeds. -/
theorem avoids_claimDueMonitor {bad : StoreError → Prop} {item : UUID × UUID}
    {rest : List (UUID × UUID)} (h : Sound db) (hdue : DueItems (item :: rest) db) :
    Avoids bad (claimDueMonitor now db item) := by
  obtain ⟨m, hm, hid, -, hcurrent, -⟩ := hdue.due item (List.mem_cons_self ..)
  simp only [claimDueMonitor, Database.newUUID, avoids_bind, orNoRows_eq_ok, avoids_pure,
    implies_true, and_true]
  refine ⟨avoids_orNoRows_of_isSome (hasRevision_of_current h.coherent hm _ hcurrent),
    fun r hfound => ?_⟩
  obtain ⟨hr, hrid⟩ := Table.lookup_eq_some_iff.mp hfound
  rw [← hid, ← hrid]
  exact avoids_enqueue h.numbered (insertable_check h hm hr rfl r.generation)

theorem Sound.claimDueMonitor {item : UUID × UUID} {rest : List (UUID × UUID)} (h : Sound db)
    (hdue : DueItems (item :: rest) db) (hclaim : claimDueMonitor now db item = .ok db₁) :
    Sound db₁ ∧ DueItems rest db₁ := by
  obtain ⟨heffect, hrest⟩ := claimDueMonitor_ok 0 (fun _ => false) hdue hclaim
  exact ⟨⟨h.coherent.effect heffect, h.linear.allWorked (worked_of_effect heffect),
    (ends_claimDueMonitor h.fresh db₁ hclaim).fresh,
    numbered_of_written h.numbered (written_of_effect heffect)⟩, hrest⟩

/-- A scheduler pass always succeeds. -/
theorem avoids_scheduling {bad : StoreError → Prop} {limit : Nat} {locked : UUID → Bool}
    (h : Sound db) : Avoids bad (claimDueMonitors now limit locked db) := by
  simp only [claimDueMonitors, avoids_bind, avoids_pure, implies_true, and_true]
  refine avoids_foldlM (fun items s => Sound s ∧ DueItems items s) ?_ _ db
    ⟨h, dueItems_dueMonitors now limit locked db⟩
  rintro item rest s ⟨hsound, hdue⟩
  exact ⟨avoids_claimDueMonitor hsound hdue, fun s' => hsound.claimDueMonitor hdue⟩

theorem consistent_confirmMonitor {monitorId : UUID} {params : ConfirmMonitorParams} :
    Avoids contradicts (confirmMonitor now monitorId params db) := by
  simp [confirmMonitor]

theorem consistent_patchMonitor {id : UUID} {params : PatchMonitorParams} :
    Avoids contradicts (patchMonitor now id params db) := by
  unfold patchMonitor
  split <;> simp

theorem consistent_reviewRevision {monitorId revisionId : UUID} {accept : Bool} :
    Avoids contradicts (reviewRevision now monitorId revisionId accept db) := by
  simp [reviewRevision]

/-- What an execution that follows another relies on. -/
structure Followable (db : Database) (e : Execution) : Prop where
  monitor : db.hasMonitor e.monitorId
  revision : ∀ id ∈ e.revisionId, db.hasRevision id
  fresh : Fresh db
  numbered : Numbered db

/-- What the replacement of an execution that has been made terminal relies on. -/
structure Settling (db : Database) (e : Execution) : Prop extends Followable db e where
  retiring : Coherent.Retiring db e
  execution : db.hasExecution e.id
  childless : ∀ s ∈ db.executions, s.recoveryOf ≠ some e.id

/-- What an alert on an observation relies on. -/
structure Alertable (db : Database) (e : Execution) (observationId : UUID) : Prop
    extends Followable db e where
  observation : (db.observations.lookup observationId).isSome = true
  unalerted : ∀ a ∈ db.alerts, a.idempotencyKey ≠ alertKey e.monitorId observationId

section Settling

variable {bad : StoreError → Prop} {e' : Execution}

theorem Followable.avoids_enqueue {row : Execution} {subject : String} {message : WorkMessage}
    (h : Followable db e) (hid : row.id = ⟨db.uuids⟩) (hmonitor : row.monitorId = e.monitorId)
    (hrevision : row.revisionId = e.revisionId) (hroot : row.recoveryOf = none)
    (hkey : row.idempotencyKey = none) :
    Avoids bad ({ db with uuids := db.uuids + 1 }.insertExecution row) ∧
      ∀ db₁, { db with uuids := db.uuids + 1 }.insertExecution row = .ok db₁ →
        Avoids bad (insertOutbox db₁ now subject message) :=
  Constraints.avoids_enqueue h.numbered (insertable_of_root h.fresh hid
    (hmonitor ▸ h.monitor) (hrevision ▸ h.revision) hroot hkey)

theorem Followable.avoids_enqueueAlertConfirmation {observationId : UUID} (h : Followable db e) :
    Avoids bad (enqueueAlertConfirmation now e observationId db) := by
  simp only [enqueueAlertConfirmation, Database.newUUID, avoids_ite, avoids_ok, avoids_bind,
    implies_true, true_and]
  exact fun _ => h.avoids_enqueue rfl rfl rfl rfl rfl

theorem settling_of_retired (h : Sound db) (hretired : Retired db e e' db₁) (hfresh : Fresh db₁) :
    Settling db₁ e where
  monitor := (Persists.retired hretired).hasMonitor
    (h.coherent.serialized.housed e hretired.mem)
  revision := by
    intro id hid
    have hrevision := hasRevision_of_execution h.coherent hretired.mem id hid
    unfold Database.hasRevision at hrevision ⊢
    rwa [hretired.revisions]
  fresh := hfresh
  numbered := numbered_of_written h.numbered (written_of_retired hretired)
  retiring := h.coherent.retired hretired
  execution := Database.hasExecution_iff.mpr
    ⟨e', hretired.substituted.mem_new, hretired.sameJob.id⟩
  childless := childless_retired h.linear hretired

/-- A repair goes on in its attempt. -/
theorem Settling.avoids_repoint {executions' : Table Execution.id} (h : Settling db e)
    (hkind : e.kind = .repair) {row : Execution} {uuids' : Nat}
    (happended : db.executions.Appended row executions') :
    Avoids bad (repointRepairAttempt
      { db with executions := executions', uuids := uuids' } e row.id) := by
  have hlineage := h.retiring.coherent.lineage
  have hcount := count_attempt hlineage h.retiring.wellFounded hkind
  have hnodup := nodup_repointed (e := e) hlineage (hlineage.executionId_fresh happended)
  simp only [repointRepairAttempt, avoids_bind, avoids_require, hcount, ne_eq, not_true_eq_false,
    if_false, avoids_ok, implies_true, and_true]
  exact fun hnot => absurd hnodup hnot

theorem Settling.insertable_replacement (h : Settling db e) :
    Insertable { db with uuids := db.uuids + 1 } (replacementExecution now ⟨db.uuids⟩ e) where
  monitor := h.monitor
  revision := h.revision
  recovers := by
    rintro id ⟨⟩
    exact ⟨h.execution, h.childless⟩
  unkeyed := by simp [replacementExecution, newExecution]
  fresh := fun s hs => h.fresh.executions.key_ne rfl hs

theorem Settling.avoids_enqueueExecutionReplacement (h : Settling db e) :
    Avoids bad (enqueueExecutionReplacement now e db) := by
  simp only [enqueueExecutionReplacement, Database.newUUID, avoids_bind]
  refine ⟨h.insertable_replacement.avoids, fun db₁ hinsert => ?_⟩
  obtain ⟨executions', happended, rfl, -⟩ := Database.insertExecution_ok hinsert
  simp only [avoids_ite, avoids_bind, avoids_pure, implies_true, and_true]
  refine ⟨fun hkind => ⟨h.avoids_repoint hkind happended, fun db₂ hrepointed => ?_⟩, fun _ =>
    ⟨trivial, fun db₂ hsame => ?_⟩⟩
  · refine avoids_insertOutbox_of_numbered ?_
    simp only [repointRepairAttempt, bind_eq_ok] at hrepointed
    obtain ⟨_, -, hrepointed⟩ := hrepointed
    split at hrepointed
    · cases hrepointed
    · cases hrepointed
      exact h.numbered
  · obtain rfl := pure_eq_ok.mp hsame
    exact avoids_insertOutbox_of_numbered h.numbered

theorem Settling.avoids_enqueueRepair {generation : Nat} (h : Settling db e) :
    Avoids bad (enqueueRepair now e generation db) := by
  unfold enqueueRepair
  split
  · exact avoids_ok
  · rename_i hnone
    have hinsertable : Insertable { db with uuids := db.uuids + 1 }
        (repairExecution now ⟨db.uuids⟩ e generation) :=
      insertable_of_root h.fresh rfl h.monitor h.revision rfl rfl
    simp only [Database.newUUID, avoids_bind, avoids_pure, implies_true, and_true]
    refine ⟨hinsertable.avoids, fun db₁ hinsert => ?_⟩
    obtain ⟨executions', happended, rfl, -⟩ := Database.insertExecution_ok hinsert
    have hfresh := h.fresh.newUUID.fresh.repairAttempts
    have hexecution := h.retiring.coherent.lineage.executionId_fresh happended
    refine ⟨?_, fun db₂ hattempt => ?_⟩
    · simp only [Database.insertRepairAttempt, avoids_bind, avoids_pure, implies_true, and_true]
      refine ⟨avoids_require_of h.monitor, fun _ _ => ⟨avoids_require_of ?_, fun _ _ =>
        ⟨avoids_require_of ?_, fun _ _ => ⟨avoids_require_of ?_, fun _ _ =>
          avoids_insertRow_of_fresh fun a ha => hfresh.key_ne rfl ha⟩⟩⟩⟩
      · exact Database.hasExecution_iff.mpr ⟨_, happended.mem, rfl⟩
      · exact Table.any_eq_false_iff.mpr fun a ha => decide_eq_false (hexecution a ha)
      · refine Table.any_eq_false_iff.mpr fun a ha => decide_eq_false ?_
        rintro ⟨hmonitor, hgeneration⟩
        exact hnone (Table.any_eq_true_iff.mpr ⟨a, ha, by simpa using ⟨hmonitor, hgeneration⟩⟩)
    · obtain ⟨repairAttempts', -, rfl, -⟩ := Database.insertRepairAttempt_ok hattempt
      exact avoids_insertOutbox_of_numbered h.numbered

theorem Settling.avoids_applyFailure {result : ExecutionResult} (h : Settling db e) :
    Avoids bad (applyFailure store now e result db) := by
  simp only [applyFailure, avoids_ite, avoids_map]
  refine ⟨fun _ => h.avoids_enqueueExecutionReplacement, fun _ => ?_⟩
  split
  · exact avoids_ok
  · exact avoids_ok
  · split
    · simp only [avoids_ite, avoids_ok, implies_true, and_true]
      exact fun _ => h.avoids_enqueueRepair
    · exact avoids_ok

/-- The next revision of a monitor is inserted. -/
theorem Settling.avoids_applyPlanResult {plan : Json} {autoPromote : Bool} (h : Settling db e)
    (hkind : e.kind ≠ .check) : Avoids bad (applyPlanResult now e plan autoPromote db) := by
  have hgeneration : 0 < nextGeneration e.monitorId db := Nat.succ_pos _
  have hunique : db.revisions.any (fun r => r.monitorId = e.monitorId ∧
      r.generation = nextGeneration e.monitorId db) = false := by
    refine Table.any_eq_false_iff.mpr fun r hr => decide_eq_false ?_
    rintro ⟨hmonitor, hsame⟩
    have hlt := lt_nextGeneration hr
    rw [hmonitor, ← hsame] at hlt
    exact lt_irrefl _ hlt
  simp only [applyPlanResult, Database.newUUID, avoids_bind]
  refine ⟨?_, fun source _ => ⟨?_, fun db₁ _ => ?_⟩⟩
  · cases hcase : e.kind with
    | check => exact absurd hcase hkind
    | compile | repair => exact avoids_ok
  · simp only [Database.insertRevision, avoids_bind, avoids_pure, implies_true, and_true]
    exact ⟨avoids_require_of h.monitor, fun _ _ => ⟨avoids_require_of hgeneration, fun _ _ =>
      ⟨avoids_require_of hunique, fun _ _ =>
        avoids_insertRow_of_fresh fun r hr => h.fresh.revisions.key_ne rfl hr⟩⟩⟩
  · split
    · exact avoids_pure
    · split <;> exact avoids_pure

theorem avoids_deliveries {alertId : UUID} {channels : List String} (hfresh : Fresh db)
    (halert : (db.alerts.lookup alertId).isSome = true) :
    Avoids bad (insertDeliveries now alertId channels db) := by
  refine avoids_foldlM (fun _ s => Fresh s ∧ (s.alerts.lookup alertId).isSome = true) ?_ _ db
    ⟨hfresh, halert⟩
  rintro channel rest s ⟨hfresh, halert⟩
  have hnew := hfresh.newUUID.fresh
  simp only [Database.newUUID]
  constructor
  · simp only [Database.insertAlertDelivery, avoids_ite, avoids_ok, avoids_bind, avoids_pure,
      implies_true, true_and, and_true]
    exact fun _ => ⟨avoids_require_of halert, fun _ _ =>
      avoids_insertRow_of_fresh fun d hd => hfresh.alertDeliveries.key_ne rfl hd⟩
  · intro s' hinsert
    refine ⟨(ends_insertAlertDelivery hnew (Nat.lt_succ_self _) s' hinsert).fresh, ?_⟩
    obtain ⟨alertDeliveries', rfl⟩ := Database.insertAlertDelivery_ok hinsert
    exact halert

theorem Alertable.avoids_createAlert {observationId : UUID} (h : Alertable db e observationId) :
    Avoids bad (createAlert store now e.monitorId observationId
      (alertKey e.monitorId observationId) db) := by
  simp only [createAlert, Database.newUUID, avoids_bind]
  refine ⟨?_, fun db₁ hinsert => ?_⟩
  · simp only [Database.insertAlert, avoids_bind, avoids_pure, implies_true, and_true]
    exact ⟨avoids_require_of h.monitor, fun _ _ => ⟨avoids_require_of h.observation, fun _ _ =>
      ⟨avoids_require_of (Table.any_eq_false_iff.mpr fun a ha =>
        decide_eq_false (h.unalerted a ha)), fun _ _ =>
          avoids_insertRow_of_fresh fun a ha => h.fresh.alerts.key_ne rfl ha⟩⟩⟩
  · have hdrawn := ends_insertAlert h.fresh.newUUID.fresh (Nat.lt_succ_self _) db₁ hinsert
    obtain ⟨alerts', happended, rfl⟩ := Database.insertAlert_ok hinsert
    exact avoids_deliveries hdrawn.fresh (isSome_lookup happended.mem)

theorem Alertable.setConditionMatched {observationId : UUID} (h : Alertable db e observationId)
    (matched : Bool) :
    Alertable (setConditionMatched now e.monitorId matched db) e observationId :=
  { h with
    monitor := Persists.updateMonitor.hasMonitor h.monitor
    fresh := (drawn_updateMonitors h.fresh).fresh }

theorem Alertable.avoids_reactToCheck {observationId : UUID} {matched previousMatched : Bool}
    (h : Alertable db e observationId) :
    Avoids bad (reactToCheck store now e observationId matched previousMatched db) := by
  unfold reactToCheck
  extract_lets confirmation latched
  have hlatched : Alertable latched e observationId := by
    unfold latched
    split
    · exact h.setConditionMatched matched
    · split
      · exact h.setConditionMatched false
      · exact h
  simp only [avoids_ite, avoids_ok, implies_true, and_true]
  exact ⟨fun _ => hlatched.avoids_createAlert, fun _ _ =>
    hlatched.avoids_enqueueAlertConfirmation⟩

/-- A plan leaves what an observation relies on. -/
theorem applyPlan_kept {result : ExecutionResult} (h : Followable db e)
    (hplan : applyPlan now e result db = .ok db₁) :
    Followable db₁ e ∧ Persists db db₁ ∧ db₁.observations = db.observations ∧
      db₁.alerts = db.alerts := by
  have hfresh := (ends_applyPlan h.fresh db₁ hplan).fresh
  unfold applyPlan at hplan
  split at hplan
  · split at hplan
    · rename_i hkind
      have hcheck : e.kind ≠ .check := by
        rcases hkind with hkind | hkind <;> simp [hkind]
      have heffect := applyPlanResult_ok hcheck hplan
      have hpersists : Persists db db₁ := .planEffect heffect
      refine ⟨⟨hpersists.hasMonitor h.monitor, fun id hid => ?_, hfresh,
        numbered_of_written h.numbered (written_of_planEffect heffect)⟩, hpersists,
        (PlanEffect.creates heffect).1, ?_⟩
      · obtain ⟨r, hlookup⟩ := Option.isSome_iff_exists.mp (h.revision id hid)
        obtain ⟨hr, rfl⟩ := Table.lookup_eq_some_iff.mp hlookup
        obtain ⟨r', hr', hkey, -⟩ := hpersists.revisions r hr
        exact hkey ▸ hasRevision_of_mem hr'
      · cases heffect <;> rfl
    · cases hplan
      exact ⟨h, .refl db, rfl, rfl⟩
  · cases hplan
    exact ⟨h, .refl db, rfl, rfl⟩

/-- The first observation of an execution is recorded. -/
theorem consistent_applyObservation {observation : ResultObservation} (h : Followable db e)
    (hexecution : db.hasExecution e.id) (hunobserved : ∀ o ∈ db.observations, o.executionId ≠ e.id)
    (hkeyed : KeyedByObservation db) :
    Avoids contradicts (applyObservation store now e observation db) := by
  simp only [applyObservation, Database.newUUID, avoids_bind, avoids_ite, avoids_throw,
    not_contradicts_invalidResult, not_false_eq_true, implies_true, true_and, avoids_pure, and_true]
  refine ⟨fun _ _ hthrow => absurd hthrow throw_ne_ok, fun hguard => ?_⟩
  refine ⟨avoids_orNoRows_of_isSome h.monitor, fun m _ => ⟨?_, fun verification _ => ⟨?_, ?_⟩⟩⟩
  · unfold observationVerification
    split <;> simp
  · simp only [Database.insertObservation, avoids_bind, avoids_pure, implies_true, and_true]
    refine ⟨avoids_require_of h.monitor, fun _ _ => ⟨avoids_require_of hexecution, fun _ _ =>
      ⟨avoids_require_of ?_, fun _ _ => ⟨avoids_require_of ?_, fun _ _ =>
        avoids_insertRow_of_fresh fun o ho => h.fresh.observations.key_ne rfl ho⟩⟩⟩⟩
    · simp only [not_or, not_le] at hguard
      exact hguard.1
    · exact Table.any_eq_false_iff.mpr fun o ho => decide_eq_false (hunobserved o ho)
  · intro db₁ hinsert _
    have hdrawn := ends_insertObservation h.fresh.newUUID.fresh (Nat.lt_succ_self _) db₁ hinsert
    obtain ⟨observations', happended, rfl, -⟩ := Database.insertObservation_ok hinsert
    refine Alertable.avoids_reactToCheck ⟨⟨h.monitor, h.revision, hdrawn.fresh, h.numbered⟩,
      isSome_lookup happended.mem, fun a ha hsame => ?_⟩
    obtain ⟨hkey, o, ho, hid⟩ := hkeyed a ha
    have hsameId := observationId_of_alertKey (hkey.symm.trans hsame)
    exact h.fresh.observations.key_ne rfl ho (hid.trans hsameId)

/-- What a succeeded result brings is inserted: first the plan, then the observation. -/
theorem Settling.consistent_applyOutcome {result : ExecutionResult} (h : Settling db e)
    (hunobserved : ∀ o ∈ db.observations, o.executionId ≠ e.id) (hkeyed : KeyedByObservation db) :
    Avoids contradicts (applyOutcome store now e result db) := by
  simp only [applyOutcome, avoids_ite, avoids_bind]
  refine ⟨fun _ => ⟨?_, fun db₁ hplan => ?_⟩, fun _ => h.avoids_applyFailure⟩
  · unfold applyPlan
    split
    · simp only [avoids_ite, avoids_ok, implies_true, and_true]
      rintro (hkind | hkind)
      · exact h.avoids_applyPlanResult (by simp [hkind])
      · exact h.avoids_applyPlanResult (by simp [hkind])
    · exact avoids_ok
  · split
    · obtain ⟨hfollowable, hpersists, hobservations, halerts⟩ := applyPlan_kept h.toFollowable hplan
      refine consistent_applyObservation hfollowable ?_ ?_ (hkeyed.congr halerts hpersists)
      · exact hasExecution_of_persists hpersists h.execution
      · rw [hobservations]
        exact hunobserved
    · exact avoids_pure

/-- The artifacts of an execution that is there are inserted. -/
theorem consistent_insertArtifacts {artifacts : List ResultArtifact} (hfresh : Fresh db)
    (hexecution : db.hasExecution e.id) :
    Avoids contradicts (insertArtifacts now e artifacts db) := by
  refine avoids_foldlM (fun _ s => Fresh s ∧ s.hasExecution e.id) ?_ _ db ⟨hfresh, hexecution⟩
  rintro artifact rest s ⟨hfresh, hexecution⟩
  split
  · simp only [Database.newUUID]
    constructor
    · simp only [Database.insertArtifact, avoids_ite, avoids_ok, avoids_bind, avoids_pure,
        implies_true, true_and, and_true]
      exact fun _ => ⟨avoids_require_of hexecution, fun _ _ =>
        avoids_insertRow_of_fresh fun a ha => hfresh.artifacts.key_ne rfl ha⟩
    · intro s' hinsert
      refine ⟨(ends_insertArtifact hfresh.newUUID.fresh (Nat.lt_succ_self _) s' hinsert).fresh, ?_⟩
      obtain ⟨artifacts', rfl⟩ := Database.insertArtifact_ok hinsert
      exact hexecution
  · exact ⟨by simp, fun s' hthrow => absurd hthrow throw_ne_ok⟩

theorem consistent_applyResult {executionId : UUID} {result : ExecutionResult} (h : Sound db)
    (hobserved : ObservedOnce db) (hkeyed : KeyedByObservation db) :
    Avoids contradicts (applyResult store now executionId result db) := by
  simp only [applyResult, avoids_bind, avoids_contradiction_orNotFound, orNotFound_eq_ok, true_and]
  intro e hlookup
  obtain ⟨he, rfl⟩ := Table.lookup_eq_some_iff.mp hlookup
  rw [avoids_ite]
  refine ⟨fun _ => avoids_pure, fun hterminal => ?_⟩
  split
  · simp
  · rename_i state hstate
    have hrecorded : Drawn db (recordResult now state result e.id db) :=
      drawn_updateExecutions h.fresh
    have hflight := inFlight_of_not_terminal hterminal
    simp only [avoids_bind, avoids_contradiction_orNotFound, avoids_pure, implies_true, and_true]
    refine ⟨?_, fun _ _ => ⟨?_, fun db₁ hartifacts => ?_⟩⟩
    · unfold validateResult
      split
      · split <;> simp
      · split <;> split <;> simp
    · refine consistent_insertArtifacts hrecorded.fresh (Database.hasExecution_iff.mpr ?_)
      exact ⟨_, Table.mem_update_of_pos he (by simp), rfl⟩
    · have hfresh := (ends_insertArtifacts hrecorded.fresh db₁ hartifacts).fresh
      obtain ⟨artifacts', uuids', rfl⟩ := insertArtifacts_ok hartifacts
      have hretired := retired_recordResult result now artifacts' uuids' he hflight
        (not_inFlight_of_validResultStatus hstate)
      refine (settling_of_retired h hretired hfresh).consistent_applyOutcome ?_
        (hkeyed.congr hretired.alerts (.retired hretired))
      rw [hretired.observations]
      refine hobserved.unobserved he fun hsucceeded => ?_
      simp [Execution.inFlight, hsucceeded, ExecutionState.inFlight] at hflight

/-- A sweep always succeeds. -/
theorem avoids_sweeping {runningStaleAfter : Timestamp} {maxAttempts limit : Nat}
    {locked : UUID → Bool} (h : Sound db) :
    Avoids bad (sweepStaleExecutions now runningStaleAfter maxAttempts limit locked db) := by
  refine avoids_foldlM
    (fun items s => StaleItems items s.2 ∧ Sound s.2) ?_ _ _
    ⟨staleItems_staleExecutions db now runningStaleAfter locked limit, h⟩
  rintro e rest ⟨recoveries, s⟩ ⟨hstale, hsound⟩
  constructor
  · obtain ⟨he, hrunning⟩ := hstale.running e (List.mem_cons_self ..)
    obtain ⟨e', -, hretired⟩ := retired_failStale now he hrunning
    simp only [sweepExecution, avoids_ite]
    refine ⟨fun _ => avoids_ok, fun _ => ?_⟩
    split
    · exact avoids_ok
    · simp only [avoids_bind, avoids_pure, implies_true, and_true]
      exact (settling_of_retired hsound hretired
        (drawn_updateExecutions hsound.fresh).fresh).avoids_enqueueExecutionReplacement
  · rintro ⟨recoveries', s'⟩ hpass
    obtain ⟨rfl | heffect, hrest⟩ := sweepExecution_ok runningStaleAfter limit locked hstale hpass
    · exact ⟨hrest, hsound⟩
    · exact ⟨hrest, hsound.coherent.effect heffect,
        hsound.linear.allWorked (worked_of_effect heffect),
        (ends_sweepExecution hsound.fresh _ hpass).fresh,
        numbered_of_written hsound.numbered (written_of_effect heffect)⟩

end Settling

end Operations

theorem avoids_contradiction {db : Database} (h : StoreReachable db) (call : Call) :
    Avoids contradicts (outcome db call) := by
  have hsound := sound_of_reachable h
  obtain ⟨now, operation⟩ := call
  cases operation with
  | createMonitor params => simpa [outcome] using consistent_createMonitor hsound
  | getExecutionInput id => simpa [outcome] using consistent_getExecutionInput hsound
  | enqueueCheck monitorId idempotencyKey traceparent =>
      simpa [outcome] using consistent_enqueueCheck hsound
  | applyResult store executionId result =>
      simpa [outcome] using
        consistent_applyResult hsound (observedOnce_of_reachable h) (keyed_of_reachable h)
  | confirmMonitor monitorId params => simpa [outcome] using consistent_confirmMonitor
  | patchMonitor id params => simpa [outcome] using consistent_patchMonitor
  | reviewRevision monitorId revisionId accept =>
      simpa [outcome] using consistent_reviewRevision
  | claimDueMonitors limit locked => simpa [outcome] using avoids_scheduling hsound
  | sweepStaleExecutions runningStaleAfter maxAttempts limit locked =>
      simpa [outcome] using avoids_sweeping hsound
  | processOutbox locked limit publish commits => exact avoids_ok

end PriceScout.Store.Constraints
