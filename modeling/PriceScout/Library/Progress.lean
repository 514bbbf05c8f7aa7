import Mathlib.Data.List.Perm.Subperm
import PriceScout.Library.Runs
import PriceScout.Library.Tables

/-!
Progress by exhaustion: a measure that no step raises, and that some steps
lower by a fixed amount, bounds how many of those a run can take.
-/

namespace PriceScout.Library.Progress

open PriceScout.Library.Runs
open PriceScout.Library.Tables

universe u v

section Runs

variable {σ : Type u} {ι : Type v} {step : σ → ι → σ} {init : σ} {actions : List ι} {i j : Nat}

/-- How many of the steps from number `i` to number `j` of a run count. -/
def passes (counts : ι → Bool) (actions : List ι) (i j : Nat) : Nat :=
  ((actions.take j).drop i).countP counts

theorem passes_self (counts : ι → Bool) : passes counts actions i i = 0 := by
  simp [passes]

theorem passes_succ {counts : ι → Bool} (hij : i ≤ j) (hj : j < actions.length) :
    passes counts actions i (j + 1) =
      passes counts actions i j + if counts actions[j] then 1 else 0 := by
  have hlength : i ≤ (actions.take j).length := by
    rw [List.length_take]
    omega
  rw [passes, passes, List.take_succ_eq_append_getElem hj, List.drop_append_of_le_length hlength,
    List.countP_append, List.countP_singleton]

/-- The steps that count are bounded by what the measure has to give. -/
theorem measure_add_passes_le {measure : σ → Nat} {counts : ι → Bool} {amount : Nat}
    (hij : i ≤ j) (hj : j ≤ actions.length)
    (hstep : ∀ k (hk : k < actions.length), i ≤ k → k < j →
      measure (stateAt step init actions (k + 1)) + (if counts actions[k] then amount else 0) ≤
        measure (stateAt step init actions k)) :
    measure (stateAt step init actions j) + amount * passes counts actions i j ≤
      measure (stateAt step init actions i) := by
  induction j, hij using Nat.le_induction with
  | base => simp [passes_self]
  | succ j hij ih =>
      have hbefore := ih (by omega) fun k hk hik hkj => hstep k hk hik (by omega)
      have hlast := hstep j (by omega) hij (by omega)
      rw [passes_succ hij (by omega), Nat.mul_add]
      split at hlast <;> simp_all <;> omega

end Runs

section Counting

variable {α : Type u} {κ : Type v} {key : α → κ} {t t' : Table key}

/-- When rows with `p` are taken and the rows with `q` afterwards are others that
had `p`, the count falls by as many as were taken. -/
theorem count_add_length_le {p q : α → Bool} {taken : List α} (htaken : taken.Nodup)
    (hp : ∀ r ∈ taken, r ∈ t ∧ p r = true)
    (hq : ∀ r' ∈ t', q r' = true → ∃ r ∈ t, key r = key r' ∧ p r = true ∧ r ∉ taken) :
    t'.count q + taken.length ≤ t.count p := by
  classical
  have hkeys : (taken.map key).Nodup :=
    htaken.map_on fun a ha b hb h => Table.eq_of_key_eq (hp a ha).1 (hp b hb).1 h
  have hothers : ((t'.rows.filter q).map key).Nodup :=
    t'.nodup.sublist (List.filter_sublist.map key)
  have hdisjoint : ∀ k ∈ (t'.rows.filter q).map key, ∀ l ∈ taken.map key, k ≠ l := by
    rintro k hk l hl rfl
    obtain ⟨r', hr', rfl⟩ := List.mem_map.mp hk
    obtain ⟨s, hs, hkey⟩ := List.mem_map.mp hl
    obtain ⟨r, hr, hrkey, -, hout⟩ := hq r' (List.mem_of_mem_filter hr') (List.of_mem_filter hr')
    exact hout (Table.eq_of_key_eq hr (hp s hs).1 (hrkey.trans hkey.symm) ▸ hs)
  have hsubset : (t'.rows.filter q).map key ++ taken.map key ⊆ (t.rows.filter p).map key := by
    intro k hk
    rcases List.mem_append.mp hk with hk | hk
    · obtain ⟨r', hr', rfl⟩ := List.mem_map.mp hk
      obtain ⟨r, hr, hrkey, hpr, -⟩ := hq r' (List.mem_of_mem_filter hr') (List.of_mem_filter hr')
      exact hrkey ▸ List.mem_map_of_mem (List.mem_filter.mpr ⟨hr, hpr⟩)
    · obtain ⟨s, hs, rfl⟩ := List.mem_map.mp hk
      exact List.mem_map_of_mem (List.mem_filter.mpr (hp s hs))
  have hlength := (List.subperm_of_subset
    (List.nodup_append.mpr ⟨hothers, hkeys, hdisjoint⟩) hsubset).length_le
  simpa [Table.count, List.countP_eq_length_filter] using hlength

end Counting

end PriceScout.Library.Progress
