import Mathlib.Data.List.Nodup

/-!
Tables of rows with a primary key. A table keeps its rows in insertion order
and carries the proof that no two of them share a key, so that inserting a
duplicate fails and no update can change a key.
-/

namespace PriceScout.Library.Tables

universe u v

variable {α : Type u} {κ : Type v} {key : α → κ}

/-- Rows in insertion order, no two with the same primary key. -/
structure Table (key : α → κ) where
  rows : List α
  nodup : (rows.map key).Nodup

namespace Table

def empty (key : α → κ) : Table key :=
  ⟨[], List.nodup_nil⟩

instance : Membership α (Table key) :=
  ⟨fun t r => r ∈ t.rows⟩

theorem mem_def {t : Table key} {r : α} : r ∈ t ↔ r ∈ t.rows :=
  Iff.rfl

@[simp] theorem not_mem_empty (r : α) : r ∉ empty key := by
  simp [mem_def, empty]

instance {P : α → Prop} [DecidablePred P] (t : Table key) : Decidable (∀ r ∈ t, P r) :=
  inferInstanceAs (Decidable (∀ r ∈ t.rows, P r))

instance {P : α → Prop} [DecidablePred P] (t : Table key) : Decidable (∃ r ∈ t, P r) :=
  inferInstanceAs (Decidable (∃ r ∈ t.rows, P r))

theorem eq_of_key_eq {t : Table key} {r s : α} (hr : r ∈ t) (hs : s ∈ t)
    (h : key r = key s) : r = s :=
  List.inj_on_of_nodup_map t.nodup hr hs h

/-- `EXISTS (SELECT 1 FROM t WHERE p)`. -/
def any (t : Table key) (p : α → Bool) : Bool :=
  t.rows.any p

@[simp] theorem any_eq_true_iff {t : Table key} {p : α → Bool} :
    t.any p = true ↔ ∃ r ∈ t, p r = true := by
  simp [any, mem_def]

@[simp] theorem any_eq_false_iff {t : Table key} {p : α → Bool} :
    t.any p = false ↔ ∀ r ∈ t, p r = false := by
  simp [any, mem_def]

/-- The number of rows that an `UPDATE ... WHERE p` affects. -/
def count (t : Table key) (p : α → Bool) : Nat :=
  t.rows.countP p

theorem count_eq_zero_iff {t : Table key} {p : α → Bool} :
    t.count p = 0 ↔ ∀ r ∈ t, p r = false := by
  simp [count, List.countP_eq_zero, mem_def]

theorem exists_of_count_ne_zero {t : Table key} {p : α → Bool} (h : t.count p ≠ 0) :
    ∃ r ∈ t, p r = true := by
  by_contra hnone
  push Not at hnone
  exact h (count_eq_zero_iff.mpr fun r hr => by simpa using hnone r hr)

theorem nodup_rows (t : Table key) : t.rows.Nodup :=
  List.Nodup.of_map _ t.nodup

theorem count_eq_one {t : Table key} {p : α → Bool} {r : α} (hr : r ∈ t) (hp : p r = true)
    (hothers : ∀ s ∈ t, p s = true → s = r) : t.count p = 1 := by
  have hperm : (t.rows.filter p).Perm [r] := by
    refine (List.perm_ext_iff_of_nodup (t.nodup_rows.filter p) (List.nodup_singleton r)).mpr ?_
    intro s
    rw [List.mem_filter, List.mem_singleton]
    constructor
    · rintro ⟨hs, hps⟩
      exact hothers s hs hps
    · rintro rfl
      exact ⟨hr, hp⟩
  rw [count, List.countP_eq_length_filter, hperm.length_eq, List.length_singleton]

/-- `SELECT ... WHERE p`, the first row found. -/
def find (t : Table key) (p : α → Bool) : Option α :=
  t.rows.find? p

theorem mem_of_find {t : Table key} {p : α → Bool} {r : α} (h : t.find p = some r) :
    r ∈ t ∧ p r = true :=
  ⟨List.mem_of_find?_eq_some h, List.find?_some h⟩

theorem find_eq_none_iff {t : Table key} {p : α → Bool} :
    t.find p = none ↔ ∀ r ∈ t, p r = false := by
  simp [find, mem_def]

section Lookup

variable [DecidableEq κ]

/-- `SELECT ... WHERE id = k`. -/
def lookup (t : Table key) (k : κ) : Option α :=
  t.find fun r => decide (key r = k)

theorem lookup_eq_some_iff {t : Table key} {k : κ} {r : α} :
    t.lookup k = some r ↔ r ∈ t ∧ key r = k := by
  constructor
  · intro h
    exact ⟨(mem_of_find h).1, by simpa using (mem_of_find h).2⟩
  · rintro ⟨hr, rfl⟩
    cases hfound : t.lookup (key r) with
    | none =>
        have := find_eq_none_iff.mp hfound r hr
        simp at this
    | some s =>
        have hs := mem_of_find hfound
        rw [eq_of_key_eq hs.1 hr (by simpa using hs.2)]

/-- `INSERT`, which fails on a duplicate primary key. -/
def insert (t : Table key) (r : α) : Option (Table key) :=
  if h : key r ∈ t.rows.map key then none
  else some ⟨t.rows ++ [r], by
    rw [List.map_append, List.map_singleton]
    exact List.nodup_append.mpr ⟨t.nodup, List.nodup_singleton _, by
      intro a ha b hb
      rw [List.mem_singleton.mp hb]
      exact fun hab => h (hab ▸ ha)⟩⟩

end Lookup

/-- `t'` is `t` with the row `r` inserted last. -/
def Appended (t : Table key) (r : α) (t' : Table key) : Prop :=
  t'.rows = t.rows ++ [r]

theorem appended_of_insert [DecidableEq κ] {t t' : Table key} {r : α}
    (h : t.insert r = some t') : t.Appended r t' := by
  unfold insert at h
  split at h
  · cases h
  · cases h
    rfl

theorem insert_isSome [DecidableEq κ] {t : Table key} {r : α}
    (h : ∀ s ∈ t, key s ≠ key r) : (t.insert r).isSome := by
  unfold insert
  split
  · rename_i hmem
    obtain ⟨s, hs, hkey⟩ := List.mem_map.mp hmem
    exact absurd hkey (h s hs)
  · rfl

namespace Appended

variable {t t' : Table key} {r s : α}

theorem mem_iff (h : t.Appended r t') : s ∈ t' ↔ s ∈ t ∨ s = r := by
  rw [mem_def, mem_def, h, List.mem_append, List.mem_singleton]

theorem mem (h : t.Appended r t') : r ∈ t' :=
  h.mem_iff.mpr (Or.inr rfl)

theorem mem_of_mem (h : t.Appended r t') (hs : s ∈ t) : s ∈ t' :=
  h.mem_iff.mpr (Or.inl hs)

/-- An inserted row has a key that the table did not have. -/
theorem key_ne (h : t.Appended r t') (hs : s ∈ t) : key s ≠ key r := by
  have hnodup := t'.nodup
  rw [h, List.map_append, List.nodup_append] at hnodup
  exact hnodup.2.2 _ (List.mem_map_of_mem hs) _ (by simp)

theorem not_mem (h : t.Appended r t') : r ∉ t := fun hr =>
  h.key_ne hr rfl

end Appended

/-- `UPDATE t SET f WHERE p`; the assignments leave the primary key alone. -/
@[irreducible] def update (t : Table key) (p : α → Bool) (f : α → α)
    (hf : ∀ r, key (f r) = key r := by intro _; rfl) : Table key :=
  ⟨t.rows.map fun r => if p r then f r else r, by
    have hmap : (t.rows.map fun r => if p r then f r else r).map key = t.rows.map key := by
      rw [List.map_map]
      apply List.map_congr_left
      intro r _
      simp only [Function.comp_apply]
      split
      · exact hf r
      · rfl
    rw [hmap]
    exact t.nodup⟩

variable {t : Table key} {p : α → Bool} {f : α → α} {hf : ∀ r, key (f r) = key r} {s : α}

theorem rows_update : (t.update p f hf).rows = t.rows.map fun r => if p r then f r else r := by
  simp only [update]

theorem mem_update_iff :
    s ∈ t.update p f hf ↔ ∃ r ∈ t, (if p r then f r else r) = s := by
  simp [mem_def, update]

/-- A row of an updated table is an assigned row or an untouched one. -/
theorem mem_update_cases (h : s ∈ t.update p f hf) :
    (∃ r ∈ t, p r = true ∧ s = f r) ∨ (s ∈ t ∧ p s = false) := by
  obtain ⟨r, hr, rfl⟩ := mem_update_iff.mp h
  by_cases hp : p r = true
  · exact Or.inl ⟨r, hr, hp, by simp [hp]⟩
  · right
    simp only [hp]
    exact ⟨hr, by simpa using hp⟩

theorem mem_update_of_pos (hs : s ∈ t) (hp : p s = true) : f s ∈ t.update p f hf :=
  mem_update_iff.mpr ⟨s, hs, by simp [hp]⟩

theorem mem_update_of_neg (hs : s ∈ t) (hp : p s = false) : s ∈ t.update p f hf :=
  mem_update_iff.mpr ⟨s, hs, by simp [hp]⟩

theorem exists_mem_update {r : α} (hr : r ∈ t) : ∃ s ∈ t.update p f hf, key s = key r := by
  by_cases hp : p r = true
  · exact ⟨f r, mem_update_of_pos hr hp, hf r⟩
  · exact ⟨r, mem_update_of_neg hr (by simpa using hp), rfl⟩

/-- Every row after an assignment has a predecessor with its key. -/
theorem exists_mem_of_mem_update (hs : s ∈ t.update p f hf) :
    ∃ r ∈ t, key r = key s ∧ (s = r ∨ s = f r) := by
  rcases mem_update_cases hs with ⟨r, hr, _, rfl⟩ | ⟨hs, _⟩
  · exact ⟨r, hr, (hf r).symm, Or.inr rfl⟩
  · exact ⟨s, hs, rfl, Or.inl rfl⟩

/-- An assignment keeps what both it and every row satisfy. -/
theorem forall_update {P : α → Prop} (h : ∀ r ∈ t, P r) (hassign : ∀ r ∈ t, P r → P (f r)) :
    ∀ r ∈ t.update p f hf, P r := by
  intro r hr
  rcases mem_update_cases hr with ⟨s, hs, _, rfl⟩ | ⟨hr, _⟩
  · exact hassign s hs (h s hs)
  · exact h r hr

theorem forall_appended {t' : Table key} {r : α} {P : α → Prop} (happ : t.Appended r t')
    (h : ∀ s ∈ t, P s) (hr : P r) : ∀ s ∈ t', P s := by
  intro s hs
  rcases happ.mem_iff.mp hs with hs | rfl
  · exact h s hs
  · exact hr

theorem update_congr {q : α → Bool} (h : ∀ r ∈ t, p r = q r) :
    t.update p f hf = t.update q f hf := by
  simp only [update, Table.mk.injEq]
  exact List.map_congr_left fun r hr => by rw [h r hr]

/-- Two updates of the same rows in a row are one. -/
theorem update_update {p : α → Bool} {f g : α → α} {hf : ∀ r, key (f r) = key r}
    {hg : ∀ r, key (g r) = key r} (hp : ∀ r, p r = true → p (f r) = true) :
    (t.update p f hf).update p g hg =
      t.update p (fun r => g (f r)) (fun r => (hg (f r)).trans (hf r)) := by
  simp only [update, Table.mk.injEq, List.map_map]
  apply List.map_congr_left
  intro r _
  by_cases h : p r = true
  · simp [h, hp r h]
  · simp [h]

/-- An update that only concerns the row just inserted amounts to inserting the
assigned row. -/
theorem Appended.update {t' : Table key} {r : α} (happ : t.Appended r t')
    (hp : p r = true) (hothers : ∀ s ∈ t, p s = false) :
    t.Appended (f r) (t'.update p f hf) := by
  unfold Appended Table.update
  simp only
  rw [happ, List.map_append, List.map_singleton, hp]
  congr 1
  calc
    t.rows.map (fun s => if p s then f s else s) = t.rows.map id :=
      List.map_congr_left fun s hs => by simp [hothers s hs]
    _ = t.rows := List.map_id _

/-- `t'` is `t` with `r'` in the place of its row `r`. -/
structure Substituted (t : Table key) (r r' : α) (t' : Table key) : Prop where
  mem : r ∈ t
  key_eq : key r' = key r
  mem_iff : ∀ s, s ∈ t' ↔ (s ∈ t ∧ key s ≠ key r) ∨ s = r'

theorem substituted_update {r r' : α} (hr : r ∈ t) (hassign : f r = r') (hp : p r = true)
    (hothers : ∀ s ∈ t, p s = true → s = r) : t.Substituted r r' (t.update p f hf) := by
  subst hassign
  refine ⟨hr, hf r, fun s => ⟨fun hs => ?_, ?_⟩⟩
  · rcases mem_update_cases hs with ⟨u, hu, hpu, rfl⟩ | ⟨hs, hps⟩
    · exact Or.inr (by rw [hothers u hu hpu])
    · refine Or.inl ⟨hs, fun hkey => ?_⟩
      rw [eq_of_key_eq hs hr hkey] at hps
      simp [hp] at hps
  · rintro (⟨hs, hkey⟩ | rfl)
    · apply mem_update_of_neg hs
      by_contra hps
      exact hkey (by rw [hothers s hs (by simpa using hps)])
    · exact mem_update_of_pos hr hp

/-- `UPDATE ... WHERE id = k` for the key of a row of the table. -/
theorem substituted_update_key [DecidableEq κ] {r r' : α} {k : κ} (hr : r ∈ t)
    (hassign : f r = r') (hk : key r = k) :
    t.Substituted r r' (t.update (fun s => decide (key s = k)) f hf) := by
  apply substituted_update hr hassign
  · simpa using hk
  · intro s hs hks
    exact eq_of_key_eq hs hr (by rw [hk]; simpa using hks)

namespace Substituted

variable {t t' : Table key} {r r' s : α}

theorem mem_new (h : t.Substituted r r' t') : r' ∈ t' :=
  (h.mem_iff r').mpr (Or.inr rfl)

theorem mem_of_ne (h : t.Substituted r r' t') (hs : s ∈ t) (hkey : key s ≠ key r) : s ∈ t' :=
  (h.mem_iff s).mpr (Or.inl ⟨hs, hkey⟩)

theorem mem_cases (h : t.Substituted r r' t') (hs : s ∈ t') :
    (s ∈ t ∧ key s ≠ key r) ∨ s = r' :=
  (h.mem_iff s).mp hs

end Substituted

/-- Every row of `t` has a successor in `t'`, related to it by `R`. -/
def Extends (R : α → α → Prop) (t t' : Table key) : Prop :=
  ∀ r ∈ t, ∃ r' ∈ t', key r' = key r ∧ R r r'

namespace Extends

variable {R : α → α → Prop} {t t' t'' : Table key}

theorem refl (hR : ∀ r, R r r) (t : Table key) : t.Extends R t :=
  fun r hr => ⟨r, hr, rfl, hR r⟩

theorem trans (hR : ∀ r s u, R r s → R s u → R r u) (h : t.Extends R t')
    (h' : t'.Extends R t'') : t.Extends R t'' := by
  intro r hr
  obtain ⟨s, hs, hkey, hrel⟩ := h r hr
  obtain ⟨u, hu, hkey', hrel'⟩ := h' s hs
  exact ⟨u, hu, hkey'.trans hkey, hR r s u hrel hrel'⟩

theorem of_appended (hR : ∀ r, R r r) {r : α} (h : t.Appended r t') : t.Extends R t' :=
  fun s hs => ⟨s, h.mem_of_mem hs, rfl, hR s⟩

theorem of_substituted (hR : ∀ r, R r r) {r r' : α} (h : t.Substituted r r' t') (hr : R r r') :
    t.Extends R t' := by
  classical
  intro s hs
  by_cases hkey : key s = key r
  · obtain rfl := eq_of_key_eq hs h.mem hkey
    exact ⟨r', h.mem_new, h.key_eq, hr⟩
  · exact ⟨s, h.mem_of_ne hs hkey, rfl, hR s⟩

end Extends

theorem extends_update {R : α → α → Prop} (hrefl : ∀ r, R r r)
    (hassign : ∀ r ∈ t, p r = true → R r (f r)) : t.Extends R (t.update p f hf) := by
  intro r hr
  by_cases hp : p r = true
  · exact ⟨f r, mem_update_of_pos hr hp, hf r, hassign r hr hp⟩
  · exact ⟨r, mem_update_of_neg hr (by simpa using hp), rfl, hrefl r⟩

/-- Rows are neither inserted nor deleted, and `R` relates each to its successor. -/
structure Evolves (R : α → α → Prop) (t t' : Table key) : Prop where
  forward : t.Extends R t'
  backward : ∀ r' ∈ t', ∃ r ∈ t, key r' = key r ∧ R r r'

namespace Evolves

variable {R : α → α → Prop} {t t' t'' : Table key}

theorem refl (hR : ∀ r, R r r) (t : Table key) : t.Evolves R t :=
  ⟨.refl hR t, fun r hr => ⟨r, hr, rfl, hR r⟩⟩

theorem trans (hR : ∀ r s u, R r s → R s u → R r u) (h : t.Evolves R t')
    (h' : t'.Evolves R t'') : t.Evolves R t'' := by
  refine ⟨h.forward.trans hR h'.forward, fun u hu => ?_⟩
  obtain ⟨s, hs, hkey, hrel⟩ := h'.backward u hu
  obtain ⟨r, hr, hkey', hrel'⟩ := h.backward s hs
  exact ⟨r, hr, hkey.trans hkey', hR r s u hrel' hrel⟩

theorem of_substituted (hR : ∀ r, R r r) {r r' : α} (h : t.Substituted r r' t') (hr : R r r') :
    t.Evolves R t' := by
  refine ⟨.of_substituted hR h hr, fun s hs => ?_⟩
  rcases h.mem_cases hs with ⟨hs, -⟩ | rfl
  · exact ⟨s, hs, rfl, hR s⟩
  · exact ⟨r, h.mem, h.key_eq, hr⟩

end Evolves

theorem evolves_update {R : α → α → Prop} (hrefl : ∀ r, R r r)
    (hassign : ∀ r ∈ t, p r = true → R r (f r)) : t.Evolves R (t.update p f hf) := by
  refine ⟨extends_update hrefl hassign, fun s hs => ?_⟩
  rcases mem_update_cases hs with ⟨r, hr, hp, rfl⟩ | ⟨hs, -⟩
  · exact ⟨r, hr, hf r, hassign r hr hp⟩
  · exact ⟨s, hs, rfl, hrefl s⟩

/-- Rows are inserted but not deleted: `R` relates each to its successor, and
`N` holds of the inserted ones. -/
structure Grows (R : α → α → Prop) (N : α → Prop) (t t' : Table key) : Prop where
  forward : t.Extends R t'
  backward : ∀ r' ∈ t', (∃ r ∈ t, key r' = key r ∧ R r r') ∨ N r'

namespace Grows

variable {R : α → α → Prop} {N : α → Prop} {t t' : Table key}

theorem of_evolves (h : t.Evolves R t') : t.Grows R N t' :=
  ⟨h.forward, fun r hr => Or.inl (h.backward r hr)⟩

theorem of_rows (hR : ∀ r, R r r) {added : List α} (h : t'.rows = t.rows ++ added)
    (hadded : ∀ r ∈ added, N r) : t.Grows R N t' := by
  refine ⟨fun r hr => ⟨r, ?_, rfl, hR r⟩, fun r hr => ?_⟩
  · rw [mem_def, h]
    exact List.mem_append_left _ hr
  · rw [mem_def, h] at hr
    rcases List.mem_append.mp hr with hr | hr
    · exact Or.inl ⟨r, hr, rfl, hR r⟩
    · exact Or.inr (hadded r hr)

theorem trans {t'' : Table key} {N' : α → Prop} (hR : ∀ r s u, R r s → R s u → R r u)
    (hN : ∀ r s, N r → R r s → N' s) (h : t.Grows R N t') (h' : t'.Grows R N' t'') :
    t.Grows R N' t'' := by
  refine ⟨h.forward.trans hR h'.forward, fun u hu => ?_⟩
  rcases h'.backward u hu with ⟨s, hs, hkey, hrel⟩ | hnew
  · rcases h.backward s hs with ⟨r, hr, hkey', hrel'⟩ | hnew
    · exact Or.inl ⟨r, hr, hkey.trans hkey', hR r s u hrel' hrel⟩
    · exact Or.inr (hN s u hnew hrel)
  · exact Or.inr hnew

/-- What every row satisfies is kept by successors that keep it and rows that bring it. -/
theorem forall_mem {P : α → Prop} (h : t.Grows R N t') (hold : ∀ r ∈ t, P r)
    (hR : ∀ r r', r ∈ t → P r → R r r' → P r') (hN : ∀ r, N r → P r) : ∀ r ∈ t', P r := by
  intro r' hr'
  rcases h.backward r' hr' with ⟨r, hr, -, hrel⟩ | hnew
  · exact hR r r' hr (hold r hr) hrel
  · exact hN r' hnew

end Grows

end Table

end PriceScout.Library.Tables
