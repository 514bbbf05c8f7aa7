import PriceScout.Library.Runs

/-!
What a computation that may fail ends with, as a predicate transformer.
-/

namespace PriceScout.Library.Postconditions

open PriceScout.Library.Runs

universe u v

variable {ε : Type u} {α β σ : Type v} {Q R : α → Prop}

/-- Every value that the computation ends with has the property. -/
def Ends (Q : α → Prop) (x : Except ε α) : Prop :=
  ∀ a, x = .ok a → Q a

theorem Ends.imp {x : Except ε α} (h : Ends Q x) (himp : ∀ a, Q a → R a) : Ends R x :=
  fun a ha => himp a (h a ha)

@[simp] theorem ends_ok {a : α} : Ends (ε := ε) Q (.ok a) ↔ Q a := by
  simp [Ends]

@[simp] theorem ends_pure {a : α} : Ends (ε := ε) Q (pure a) ↔ Q a :=
  ends_ok

@[simp] theorem ends_error {e : ε} : Ends Q (.error e) :=
  fun _ h => nomatch h

@[simp] theorem ends_throw {e : ε} : Ends Q (throw e : Except ε α) :=
  ends_error

@[simp] theorem ends_bind {Q : β → Prop} {x : Except ε α} {f : α → Except ε β} :
    Ends Q (x >>= f) ↔ Ends (fun a => Ends Q (f a)) x := by
  cases x with
  | error e => simp [Ends, bind, Except.bind]
  | ok a => simp [Ends, bind, Except.bind]

@[simp] theorem ends_map {Q : β → Prop} {x : Except ε α} {f : α → β} :
    Ends Q (x.map f) ↔ Ends (fun a => Q (f a)) x := by
  cases x <;> simp [Except.map]

@[simp] theorem ends_ite {c : Prop} [Decidable c] {x y : Except ε α} :
    Ends Q (if c then x else y) ↔ (c → Ends Q x) ∧ (¬ c → Ends Q y) := by
  by_cases h : c <;> simp [h]

/-- A property that holds of nothing in particular. -/
@[simp] theorem ends_true {x : Except ε α} : Ends (fun _ => True) x :=
  fun _ _ => trivial

/-- The rule for a loop: each pass keeps the property. -/
theorem ends_foldlM {P : σ → Prop} {f : σ → α → Except ε σ}
    (hpass : ∀ s a, P s → Ends P (f s a)) (items : List α) (s : σ) (h : P s) :
    Ends P (items.foldlM f s) :=
  fun s' hs' =>
    foldlM_induction (fun _ => P) (fun a _ s s' hs hok => hpass s a hs s' hok) items s s' h hs'

end PriceScout.Library.Postconditions
