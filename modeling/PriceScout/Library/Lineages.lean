import Mathlib.Data.Set.Card
import Mathlib.Logic.Relation
import Mathlib.Order.Interval.Finset.Nat

/-!
Lineages: a relation under which every element has at most one successor, of
the next rank. A lineage whose ranks are bounded is finite.
-/

namespace PriceScout.Library.Lineages

universe u

variable {α : Type u} {r : α → α → Prop} {rank : α → Nat} {a b c : α}

/-- The elements that a lineage reaches from its origin. -/
def descendants (r : α → α → Prop) (origin : α) : Set α :=
  {a | Relation.ReflTransGen r origin a}

theorem eq_or_rank_lt (hrank : ∀ a b, r a b → rank b = rank a + 1)
    (h : Relation.ReflTransGen r a b) : b = a ∨ rank a < rank b := by
  induction h with
  | refl => exact Or.inl rfl
  | tail _ hlast ih =>
      right
      rw [hrank _ _ hlast]
      rcases ih with rfl | hless
      · exact Nat.lt_succ_self _
      · exact Nat.lt_succ_of_lt hless

/-- Elements of a lineage with the same rank are the same. -/
theorem eq_of_rank_eq (hunique : Relator.RightUnique r)
    (hrank : ∀ a b, r a b → rank b = rank a + 1) (hb : b ∈ descendants r a)
    (hc : c ∈ descendants r a) (heq : rank b = rank c) : b = c := by
  rcases Relation.ReflTransGen.total_of_right_unique hunique hb hc with hbc | hcb
  · rcases eq_or_rank_lt hrank hbc with rfl | hless
    · rfl
    · omega
  · rcases eq_or_rank_lt hrank hcb with rfl | hless
    · rfl
    · omega

/-- A lineage whose elements have ranks from 1 to a bound has at most that many. -/
theorem encard_descendants_le (hunique : Relator.RightUnique r)
    (hrank : ∀ a b, r a b → rank b = rank a + 1) {bound : Nat}
    (hbound : ∀ b ∈ descendants r a, 1 ≤ rank b ∧ rank b ≤ bound) :
    (descendants r a).encard ≤ bound := by
  have hmaps : Set.MapsTo rank (descendants r a) (Finset.Icc 1 bound : Set Nat) := by
    intro b hb
    rw [Finset.mem_coe, Finset.mem_Icc]
    exact hbound b hb
  calc
    (descendants r a).encard ≤ (Finset.Icc 1 bound : Set Nat).encard :=
      Set.encard_le_encard_of_injOn hmaps fun b hb c hc => eq_of_rank_eq hunique hrank hb hc
    _ = bound := by
      rw [Set.encard_coe_eq_coe_finsetCard, Nat.card_Icc, Nat.add_sub_cancel]

end PriceScout.Library.Lineages
