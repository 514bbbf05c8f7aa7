import PriceScout.Store.Announcements

/-!
What the relay does to the outbox, over every sequence of publications that
succeed or fail and of commits that take effect or do not.
-/

namespace PriceScout.Store.OutboxRelay

open PriceScout.Domain
open PriceScout.Library.Runs
open PriceScout.Library.Tables
open PriceScout.Store.Announcements
open PriceScout.Store.Effects
open PriceScout.Store.Inversions
open PriceScout.Store.Operations
open PriceScout.Store.Outbox
open PriceScout.Store.Schema

/-- How far a pass gets in its batch: the rows that are published, and the row
at which it ends with the error of that publication. -/
inductive Pass (publish : OutboxRow → Except String Unit) (batch : List OutboxRow) :
    List OutboxRow → Option (OutboxRow × String) → Prop
  | complete (hpublished : ∀ row ∈ batch, publish row = .ok ()) : Pass publish batch batch none
  | failed (published rest : List OutboxRow) (failing : OutboxRow) (message : String)
      (hbatch : batch = published ++ failing :: rest)
      (hpublished : ∀ row ∈ published, publish row = .ok ())
      (hfailing : publish failing = .error message) :
      Pass publish batch published (some (failing, message))

/-- What a pass makes of a row of the outbox. -/
def relayedRow (now : Timestamp) (published : List OutboxRow)
    (failure : Option (OutboxRow × String)) (row : OutboxRow) : OutboxRow :=
  if row.id ∈ published.map OutboxRow.id then
    { row with publishedAt := some now, attempts := row.attempts + 1, lastError := none }
  else match failure with
    | some (failing, message) =>
        if row.id = failing.id then
          { row with attempts := row.attempts + 1, lastError := some message }
        else row
    | none => row

/-- What a call reports: how many rows it has published, or why it has failed. -/
def reported (published : List OutboxRow) (failure : Option (OutboxRow × String)) :
    Except String Nat :=
  match failure with
  | some (_, message) => .error message
  | none => .ok published.length

/-- The rows stand in the order of their ids, at most `limit` of them, and no
unpublished row that is free comes before one of them without being one. -/
structure FirstInOrder (db : Database) (locked : Nat → Bool) (limit : Nat)
    (rows : List OutboxRow) : Prop where
  sorted : rows.Pairwise fun a b => a.id < b.id
  bounded : rows.length ≤ limit
  eligible : ∀ row ∈ rows, row ∈ db.outbox ∧ row.publishedAt = none ∧ locked row.id = false
  first : ∀ row ∈ rows, ∀ earlier ∈ db.outbox, earlier.publishedAt = none →
    locked earlier.id = false → earlier.id < row.id → earlier ∈ rows

section Batches

variable {db : Database} {locked : Nat → Bool} {limit : Nat} {batch rows : List OutboxRow}

theorem nodup_ids (h : FirstInOrder db locked limit rows) : (rows.map OutboxRow.id).Nodup := by
  rw [List.Nodup, List.pairwise_map]
  exact h.sorted.imp fun hlt => Nat.ne_of_lt hlt

/-- What comes first of the first rows comes first. -/
theorem firstInOrder_front (h : FirstInOrder db locked limit batch) (hrows : rows <+: batch) :
    FirstInOrder db locked limit rows := by
  obtain ⟨rest, rfl⟩ := hrows
  refine ⟨?_, ?_, ?_, ?_⟩
  · exact (List.pairwise_append.mp h.sorted).1
  · have hbounded := h.bounded
    rw [List.length_append] at hbounded
    omega
  · exact fun row hrow => h.eligible row (List.mem_append_left rest hrow)
  · intro row hrow earlier hearlier hnone hfree hlt
    have hread := h.first row (List.mem_append_left rest hrow) earlier hearlier hnone hfree hlt
    rcases List.mem_append.mp hread with hmem | hmem
    · exact hmem
    · have hafter := (List.pairwise_append.mp h.sorted).2.2 row hrow earlier hmem
      omega

theorem firstInOrder_unpublished (db : Database) (locked : Nat → Bool) (limit : Nat) :
    FirstInOrder db locked limit (unpublished db locked limit) := by
  unfold unpublished
  generalize hfree : (db.outbox.rows.filter fun row =>
    row.publishedAt.isNone && !locked row.id) = free
  have hmem : ∀ row, row ∈ free ↔
      row ∈ db.outbox ∧ row.publishedAt = none ∧ locked row.id = false := by
    intro row
    simp [← hfree, Table.mem_def]
  have hnodup : (free.map OutboxRow.id).Nodup := by
    rw [← hfree]
    exact List.Nodup.sublist (List.Sublist.map _ List.filter_sublist) db.outbox.nodup
  have hall : FirstInOrder db locked free.length (free.insertionSort fun a b => a.id ≤ b.id) := by
    refine ⟨?_, ?_, ?_, ?_⟩
    · have hsorted := List.pairwise_insertionSort (fun a b : OutboxRow => a.id ≤ b.id) free
      have hdistinct : (free.insertionSort fun a b => a.id ≤ b.id).Pairwise
          fun a b => a.id ≠ b.id :=
        List.pairwise_map.mp ((List.perm_insertionSort _ free).map _ |>.nodup_iff.mpr hnodup)
      exact (hsorted.and hdistinct).imp fun h => Nat.lt_of_le_of_ne h.1 h.2
    · exact (List.perm_insertionSort _ free).length_eq.le
    · exact fun row hrow => (hmem row).mp ((List.mem_insertionSort _).mp hrow)
    · exact fun row _ earlier hearlier hnone hlocked _ =>
        (List.mem_insertionSort _).mpr ((hmem earlier).mpr ⟨hearlier, hnone, hlocked⟩)
  exact { firstInOrder_front hall (List.take_prefix limit _) with
    bounded := List.length_take_le limit _ }

end Batches

section Passes

variable {now : Timestamp} {publish : OutboxRow → Except String Unit} {db : Database}
  {batch published : List OutboxRow} {failure : Option (OutboxRow × String)}
  {row : OutboxRow}

@[simp] theorem id_relayedRow : (relayedRow now published failure row).id = row.id := by
  unfold relayedRow
  split
  · rfl
  · split
    · split <;> rfl
    · rfl

theorem mem_batch_of_pass (h : Pass publish batch published failure) :
    (∀ row ∈ published, row ∈ batch) ∧ ∀ failing message, failure = some (failing, message) →
      failing ∈ batch := by
  cases h with
  | complete hpublished => exact ⟨fun _ h => h, nofun⟩
  | failed published rest failing message hbatch =>
      rw [hbatch]
      refine ⟨fun row hrow => List.mem_append_left _ hrow, ?_⟩
      rintro failing message ⟨⟩
      exact List.mem_append_right _ List.mem_cons_self

theorem pass_cons (hpublish : publish row = .ok ()) (h : Pass publish batch published failure) :
    Pass publish (row :: batch) (row :: published) failure := by
  cases h with
  | complete hpublished => exact .complete (List.forall_mem_cons.mpr ⟨hpublish, hpublished⟩)
  | failed published rest failing message hbatch hpublished hfailing =>
      refine .failed (row :: published) rest failing message ?_
        (List.forall_mem_cons.mpr ⟨hpublish, hpublished⟩) hfailing
      rw [hbatch, List.cons_append]

/-- Marking the first row and relaying the others relays them all. -/
theorem relayedRow_cons (hids : ((row :: batch).map OutboxRow.id).Nodup)
    (h : Pass publish batch published failure) (r : OutboxRow) :
    relayedRow now published failure
        (if decide (r.id = row.id) then
          { r with publishedAt := some now, attempts := r.attempts + 1, lastError := none }
        else r) =
      relayedRow now (row :: published) failure r := by
  obtain ⟨hmem, hfailing⟩ := mem_batch_of_pass h
  rw [List.map_cons, List.nodup_cons] at hids
  by_cases hr : r.id = row.id
  · have hnot : row.id ∉ published.map OutboxRow.id := by
      intro hpublished
      obtain ⟨row', hrow', hid⟩ := List.mem_map.mp hpublished
      exact hids.1 (hid ▸ List.mem_map_of_mem (hmem row' hrow'))
    simp only [relayedRow, hr, decide_true, if_true, hnot, if_false, List.map_cons,
      List.mem_cons_self]
    cases failure with
    | none => rfl
    | some failed =>
        obtain ⟨failing, message⟩ := failed
        have hne : row.id ≠ failing.id := by
          intro hid
          exact hids.1 (hid ▸ List.mem_map_of_mem (hfailing failing message rfl))
        simp only [hne, if_false]
  · simp [relayedRow, hr]

/-- What a batch comes to: every row is marked by how far the pass gets. -/
theorem publishBatch_eq (now : Timestamp) (publish : OutboxRow → Except String Unit)
    (db : Database) (hids : (batch.map OutboxRow.id).Nodup) :
    ∃ published failure, Pass publish batch published failure ∧
      (publishBatch now publish db batch).2 = (reported published failure, published) ∧
      (publishBatch now publish db batch).1.outbox.rows =
        db.outbox.rows.map (relayedRow now published failure) := by
  induction batch generalizing db with
  | nil =>
      refine ⟨[], none, .complete nofun, rfl, ?_⟩
      have hsame : relayedRow now [] none = id := by
        funext row
        rfl
      rw [hsame, List.map_id]
      rfl
  | cons row rest ih =>
      cases hpublish : publish row with
      | error message =>
          refine ⟨[], some (row, message), .failed [] rest row message rfl nofun hpublish, ?_, ?_⟩
          · simp only [publishBatch, hpublish, reported]
          · simp only [publishBatch, hpublish, markFailed, Table.update]
            apply List.map_congr_left
            intro r _
            simp [relayedRow]
      | ok _ =>
          obtain ⟨published, failure, hpass, hreported, hrows⟩ :=
            ih (markPublished db now row.id) (List.nodup_cons.mp hids).2
          refine ⟨row :: published, failure, pass_cons hpublish hpass, ?_, ?_⟩
          · simp only [publishBatch, hpublish, hreported]
            cases failure with
            | none => rfl
            | some failed => rfl
          · simp only [publishBatch, hpublish]
            rw [hrows]
            simp only [markPublished, Table.update, List.map_map]
            apply List.map_congr_left
            intro r _
            exact relayedRow_cons hids hpass r

end Passes

/-- What a call of `ProcessOutbox` has to do: the rows that it publishes come
first among the free unpublished ones, in the order of their ids. If it commits,
they are marked and the row whose publication fails carries the error; else
nothing is changed. -/
structure RelaysInOrder (db : Database) (now : Timestamp) (locked : Nat → Bool) (limit : Nat)
    (publish : OutboxRow → Except String Unit) (commits : Bool)
    (result : Database × Except String Nat × List OutboxRow) : Prop where
  published_first : FirstInOrder db locked limit result.2.2
  pass : ∃ failure, Pass publish (unpublished db locked limit) result.2.2 failure ∧
    result.2.1 = (if commits then reported result.2.2 failure else .error "commit failed") ∧
    result.1.outbox.rows =
      if commits then db.outbox.rows.map (relayedRow now result.2.2 failure) else db.outbox.rows
  frame : result.1 = { db with outbox := result.1.outbox }

theorem published_prefix_of_pass {publish : OutboxRow → Except String Unit}
    {batch published : List OutboxRow} {failure : Option (OutboxRow × String)}
    (h : Pass publish batch published failure) : published <+: batch := by
  cases h with
  | complete hpublished => exact List.prefix_rfl
  | failed published rest failing message hbatch =>
      rw [hbatch]
      exact List.prefix_append _ _

theorem relaysInOrder_processOutbox (db : Database) (now : Timestamp) (locked : Nat → Bool)
    (limit : Nat) (publish : OutboxRow → Except String Unit) (commits : Bool) :
    RelaysInOrder db now locked limit publish commits
      (processOutbox db now locked limit publish commits) := by
  have hfirst := firstInOrder_unpublished db locked limit
  obtain ⟨published, failure, hpass, hreported, hrows⟩ :=
    publishBatch_eq now publish db (nodup_ids hfirst)
  obtain ⟨outbox', hframe, -⟩ := publishBatch_ok now publish (unpublished db locked limit) db
  unfold processOutbox
  rw [← Prod.eta (publishBatch now publish db (unpublished db locked limit)), hreported]
  dsimp only
  cases commits with
  | true =>
      refine ⟨firstInOrder_front hfirst (published_prefix_of_pass hpass),
        ⟨failure, hpass, rfl, hrows⟩, ?_⟩
      rw [if_pos rfl, hframe]
  | false =>
      exact ⟨firstInOrder_front hfirst (published_prefix_of_pass hpass), ⟨failure, hpass, rfl, rfl⟩,
        rfl⟩

/-- The outbox has a row of this id that is marked as published. -/
def Marked (db : Database) (id : Nat) : Prop :=
  ∃ row ∈ db.outbox, row.id = id ∧ row.publishedAt.isSome = true

/-- The call is one of the relay's that commits, and in it the publication of
the row of this id succeeds. -/
def Confirms (db : Database) (call : Call) (id : Nat) : Prop :=
  ∃ locked limit publish, call.operation = .processOutbox locked limit publish true ∧
    ∃ row ∈ (processOutbox db call.now locked limit publish true).2.2,
      row ∈ db.outbox ∧ row.id = id ∧ publish row = .ok ()

section Steps

variable {db : Database} {call : Call} {id : Nat}

theorem notRelay_or (operation : Operation) : NotRelay operation ∨
    ∃ locked limit publish commits, operation = .processOutbox locked limit publish commits := by
  by_cases h : ∃ locked limit publish commits,
      operation = .processOutbox locked limit publish commits
  · exact .inr h
  · exact .inl fun locked limit publish commits heq => h ⟨locked, limit, publish, commits, heq⟩

theorem marked_relayedRow {now : Timestamp} {published : List OutboxRow}
    {failure : Option (OutboxRow × String)} {row : OutboxRow}
    (h : row.publishedAt.isSome = true) :
    (relayedRow now published failure row).publishedAt.isSome = true := by
  unfold relayedRow
  split
  · rfl
  · split
    · split <;> exact h
    · exact h

theorem marked_of_relayedRow {now : Timestamp} {published : List OutboxRow}
    {failure : Option (OutboxRow × String)} {row : OutboxRow}
    (h : (relayedRow now published failure row).publishedAt.isSome = true) :
    row.publishedAt.isSome = true ∨ row.id ∈ published.map OutboxRow.id := by
  unfold relayedRow at h
  split at h
  · exact .inr ‹_›
  · split at h
    · split at h <;> exact .inl h
    · exact .inl h

theorem ok_of_pass {publish : OutboxRow → Except String Unit} {batch published : List OutboxRow}
    {failure : Option (OutboxRow × String)} (h : Pass publish batch published failure) :
    ∀ row ∈ published, publish row = .ok () := by
  cases h with
  | complete hpublished => exact hpublished
  | failed published rest failing message hbatch hpublished => exact hpublished

/-- No operation takes a mark away. -/
theorem marked_step (db : Database) (call : Call) (h : Marked db id) :
    Marked (step db call) id := by
  obtain ⟨row, hrow, hid, hmark⟩ := h
  obtain ⟨now, operation⟩ := call
  rcases notRelay_or operation with hother | ⟨locked, limit, publish, commits, rfl⟩
  · exact ⟨row, (Announces.step hother db).kept row hrow, hid, hmark⟩
  · obtain ⟨-, ⟨failure, -, -, hrows⟩, -⟩ :=
      relaysInOrder_processOutbox db now locked limit publish commits
    cases commits with
    | true =>
        rw [if_pos rfl] at hrows
        have hrelayed := List.mem_map_of_mem (f := relayedRow now
          (processOutbox db now locked limit publish true).2.2 failure) hrow
        rw [← hrows] at hrelayed
        exact ⟨_, hrelayed, id_relayedRow.trans hid, marked_relayedRow hmark⟩
    | false =>
        rw [if_neg Bool.false_ne_true] at hrows
        rw [Table.mem_def, ← hrows] at hrow
        exact ⟨row, hrow, hid, hmark⟩

/-- A mark that is new comes from a publication that succeeded. -/
theorem marked_of_step (h : Marked (step db call) id) : Marked db id ∨ Confirms db call id := by
  obtain ⟨row, hrow, hid, hmark⟩ := h
  obtain ⟨now, operation⟩ := call
  rcases notRelay_or operation with hother | ⟨locked, limit, publish, commits, rfl⟩
  · rcases (Announces.step hother db).rows row hrow with hold | ⟨hnone, -⟩
    · exact .inl ⟨row, hold, hid, hmark⟩
    · rw [hnone] at hmark
      cases hmark
  · obtain ⟨hfirst, ⟨failure, hpass, -, hrows⟩, -⟩ :=
      relaysInOrder_processOutbox db now locked limit publish commits
    have hrow : row ∈ (processOutbox db now locked limit publish commits).1.outbox.rows := hrow
    rw [hrows] at hrow
    cases commits with
    | false => exact .inl ⟨row, hrow, hid, hmark⟩
    | true =>
        obtain ⟨old, hold, rfl⟩ := List.mem_map.mp hrow
        rw [id_relayedRow] at hid
        rcases marked_of_relayedRow hmark with hmarked | hpublished
        · exact .inl ⟨old, hold, hid, hmarked⟩
        · right
          obtain ⟨row, hrow, hsame⟩ := List.mem_map.mp hpublished
          exact ⟨locked, limit, publish, rfl, row, hrow, (hfirst.eligible row hrow).1,
            hsame.trans hid, ok_of_pass hpass row hrow⟩

/-- What is marked is in no batch. -/
theorem not_marked_of_unpublished {locked : Nat → Bool} {limit : Nat} {row : OutboxRow}
    (h : row ∈ unpublished db locked limit) : ¬ Marked db row.id := by
  rintro ⟨marked, hmarked, hid, hmark⟩
  obtain ⟨hrow, hnone, -⟩ := (firstInOrder_unpublished db locked limit).eligible row h
  rw [Table.eq_of_key_eq hmarked hrow hid, hnone] at hmark
  cases hmark

end Steps

/-- In every run of the store from any outbox: a row that is marked was marked
at first, or its publication succeeded in an earlier call that committed; every
call of the relay goes through its batch in order; and no later batch has a row
that is marked. -/
theorem outbox_relay_is_at_least_once (init : Database) (calls : List Call) :
    (∀ n id, Marked (stateAt step init calls n) id → Marked init id ∨
      ∃ k, ∃ hk : k < calls.length, k < n ∧
        Confirms (stateAt step init calls k) calls[k] id) ∧
    (∀ n (hn : n < calls.length) locked limit publish commits,
      calls[n].operation = .processOutbox locked limit publish commits →
        RelaysInOrder (stateAt step init calls n) calls[n].now locked limit publish commits
          (processOutbox (stateAt step init calls n) calls[n].now locked limit publish commits) ∧
        stateAt step init calls (n + 1) =
          (processOutbox (stateAt step init calls n) calls[n].now locked limit publish commits).1) ∧
    (∀ m n id, m ≤ n → Marked (stateAt step init calls m) id →
      ∀ locked limit, ∀ row ∈ unpublished (stateAt step init calls n) locked limit,
        row.id ≠ id) := by
  refine ⟨?_, ?_, ?_⟩
  · intro n
    induction n with
    | zero =>
        intro id h
        rw [stateAt_zero] at h
        exact .inl h
    | succ n ih =>
        intro id h
        have hearlier (hmarked : Marked (stateAt step init calls n) id) : Marked init id ∨
            ∃ k, ∃ hk : k < calls.length, k < n + 1 ∧
              Confirms (stateAt step init calls k) calls[k] id := by
          refine (ih id hmarked).imp_right ?_
          rintro ⟨k, hk, hkn, hconfirms⟩
          exact ⟨k, hk, Nat.lt_succ_of_lt hkn, hconfirms⟩
        by_cases hn : n < calls.length
        · rw [stateAt_succ hn] at h
          rcases marked_of_step h with hmarked | hconfirms
          · exact hearlier hmarked
          · exact .inr ⟨n, hn, Nat.lt_succ_self n, hconfirms⟩
        · rw [stateAt_succ_of_length_le (Nat.le_of_not_lt hn)] at h
          exact hearlier h
  · intro n hn locked limit publish commits hoperation
    refine ⟨relaysInOrder_processOutbox _ _ locked limit publish commits, ?_⟩
    rw [stateAt_succ hn, step, hoperation]
  · rintro m n id hmn hmarked locked limit row hrow rfl
    exact not_marked_of_unpublished hrow (stateAt_mono marked_step hmn hmarked)

end PriceScout.Store.OutboxRelay
