import Mathlib.Data.List.Sort
import Mathlib.Data.List.Nodup

/-!
The first few of a list in the order of a key: what is left out comes no
earlier than what is taken, and only because enough is taken.
-/

namespace PriceScout.Library.Selections

universe u v

variable {α : Type u} {κ : Type v} [LinearOrder κ] {key : α → κ} {limit : Nat} {items : List α}
  {a b : α}

/-- At most `limit` of the items, the smallest keys first. -/
def earliest (key : α → κ) (limit : Nat) (items : List α) : List α :=
  (items.insertionSort fun a b => key a ≤ key b).take limit

theorem mem_of_mem_earliest (h : a ∈ earliest key limit items) : a ∈ items :=
  (List.mem_insertionSort _).mp (List.mem_of_mem_take h)

theorem length_earliest : (earliest key limit items).length = min limit items.length := by
  rw [earliest, List.length_take, List.length_insertionSort]

theorem nodup_earliest (h : items.Nodup) : (earliest key limit items).Nodup :=
  ((List.perm_insertionSort _ items).nodup_iff.mpr h).sublist (List.take_sublist _ _)

/-- What the limit leaves out comes after everything that is taken. -/
theorem mem_drop_of_not_mem (ha : a ∈ items) (hout : a ∉ earliest key limit items) :
    a ∈ (items.insertionSort fun a b => key a ≤ key b).drop limit := by
  have hsorted := (List.mem_insertionSort fun a b => key a ≤ key b).mpr ha
  rw [← List.take_append_drop limit (items.insertionSort fun a b => key a ≤ key b)] at hsorted
  exact (List.mem_append.mp hsorted).resolve_left hout

/-- An item is left out only when the limit is reached. -/
theorem length_of_not_mem (ha : a ∈ items) (hout : a ∉ earliest key limit items) :
    (earliest key limit items).length = limit := by
  have hdropped := List.length_pos_of_mem (mem_drop_of_not_mem ha hout)
  rw [List.length_drop, List.length_insertionSort] at hdropped
  rw [length_earliest]
  omega

/-- An item that is left out has no smaller key than one that is taken. -/
theorem le_of_not_mem (ha : a ∈ items) (hout : a ∉ earliest key limit items)
    (hb : b ∈ earliest key limit items) : key b ≤ key a := by
  have hsorted := List.pairwise_insertionSort (fun a b : α => key a ≤ key b) items
  rw [← List.take_append_drop limit (items.insertionSort fun a b => key a ≤ key b),
    List.pairwise_append] at hsorted
  exact hsorted.2.2 b hb a (mem_drop_of_not_mem ha hout)

section Pairings

variable {β : Type v} {R : α → β → Prop} {others : List β} {c : β}

theorem exists_right_of_mem (h : List.Forall₂ R items others) (ha : a ∈ items) :
    ∃ b ∈ others, R a b := by
  induction h with
  | nil => exact absurd ha List.not_mem_nil
  | cons hrel _ ih =>
      rcases List.mem_cons.mp ha with rfl | ha
      · exact ⟨_, List.mem_cons_self .., hrel⟩
      · obtain ⟨b, hb, hab⟩ := ih ha
        exact ⟨b, List.mem_cons_of_mem _ hb, hab⟩

theorem exists_left_of_mem (h : List.Forall₂ R items others) (hc : c ∈ others) :
    ∃ a ∈ items, R a c := by
  induction h with
  | nil => exact absurd hc List.not_mem_nil
  | cons hrel _ ih =>
      rcases List.mem_cons.mp hc with rfl | hc
      · exact ⟨_, List.mem_cons_self .., hrel⟩
      · obtain ⟨b, hb, hab⟩ := ih hc
        exact ⟨b, List.mem_cons_of_mem _ hb, hab⟩

end Pairings

end PriceScout.Library.Selections
