import PriceScout.Library.Attempts

/-!
Two programs side by side, on two worlds that a relation ties together: what
their runs have in common.
-/

namespace PriceScout.Library.Attempts

variable {ε W V α β γ δ : Type}

/-- Every run of the program moves the world along `T`, also a run that fails. -/
def Moves (T : W → W → Prop) (x : Attempt ε W α) : Prop :=
  ∀ w, T w (outcome x w).2

namespace Moves

variable {T : W → W → Prop} {x : Attempt ε W α}

theorem pure (hrefl : ∀ w, T w w) (a : α) : Moves T (Pure.pure a : Attempt ε W α) := by
  intro w
  exact hrefl w

theorem throw (hrefl : ∀ w, T w w) (e : ε) :
    Moves T (MonadExcept.throw e : Attempt ε W α) := by
  intro w
  exact hrefl w

theorem bind (htrans : ∀ ⦃u v w⦄, T u v → T v w → T u w) {f : α → Attempt ε W β}
    (hx : Moves T x) (hf : ∀ a, Moves T (f a)) : Moves T (x >>= f) := by
  intro w
  have hfirst := hx w
  rw [outcome_bind]
  generalize outcome x w = first at hfirst ⊢
  obtain ⟨e | a, w₁⟩ := first
  · exact hfirst
  · exact htrans hfirst (hf a w₁)

theorem map (htrans : ∀ ⦃u v w⦄, T u v → T v w → T u w) (hrefl : ∀ w, T w w) {f : α → β}
    (hx : Moves T x) : Moves T (f <$> x) := by
  rw [map_eq_pure_bind]
  exact hx.bind htrans fun a => pure hrefl (f a)

theorem tryCatch (htrans : ∀ ⦃u v w⦄, T u v → T v w → T u w) {handler : ε → Attempt ε W α}
    (hx : Moves T x) (hhandler : ∀ e, Moves T (handler e)) :
    Moves T (tryCatch x handler) := by
  intro w
  have hfirst := hx w
  rw [outcome_tryCatch]
  generalize outcome x w = first at hfirst ⊢
  obtain ⟨e | a, w₁⟩ := first
  · exact htrans hfirst (hhandler e w₁)
  · exact hfirst

/-- A program goes on from where its first part ends. -/
theorem of_bind {f : α → Attempt ε W β} (hrefl : ∀ w, T w w) (hf : ∀ a, Moves T (f a))
    (x : Attempt ε W α) (w : W) : T (outcome x w).2 (outcome (x >>= f) w).2 := by
  rw [outcome_bind]
  generalize outcome x w = first
  obtain ⟨e | a, w₁⟩ := first
  · exact hrefl w₁
  · exact hf a w₁

theorem of_tryCatch {handler : ε → Attempt ε W α} (hrefl : ∀ w, T w w)
    (hhandler : ∀ e, Moves T (handler e)) (x : Attempt ε W α) (w : W) :
    T (outcome x w).2 (outcome (MonadExcept.tryCatch x handler) w).2 := by
  rw [outcome_tryCatch]
  generalize outcome x w = first
  obtain ⟨e | a, w₁⟩ := first
  · exact hhandler e w₁
  · exact hrefl w₁

end Moves

/-- From related worlds two programs give the same, be it a value or a failure,
and leave related worlds. -/
def Agree (R : W → V → Prop) (x : Attempt ε W α) (y : Attempt ε V α) : Prop :=
  ∀ ⦃w v⦄, R w v → (outcome x w).1 = (outcome y v).1 ∧ R (outcome x w).2 (outcome y v).2

namespace Agree

variable {R : W → V → Prop} {x : Attempt ε W α} {y : Attempt ε V α}

theorem pure (a : α) : Agree R (Pure.pure a : Attempt ε W α) (Pure.pure a) := by
  intro w v h
  exact ⟨rfl, h⟩

theorem throw (e : ε) :
    Agree R (MonadExcept.throw e : Attempt ε W α) (MonadExcept.throw e) := by
  intro w v h
  exact ⟨rfl, h⟩

theorem bind {f : α → Attempt ε W β} {g : α → Attempt ε V β} (hx : Agree R x y)
    (hf : ∀ a, Agree R (f a) (g a)) : Agree R (x >>= f) (y >>= g) := by
  intro w v h
  have hfirst := hx h
  rw [outcome_bind, outcome_bind]
  generalize outcome x w = left at hfirst ⊢
  generalize outcome y v = right at hfirst ⊢
  obtain ⟨result, w₁⟩ := left
  obtain ⟨_, v₁⟩ := right
  obtain ⟨rfl, hworlds⟩ := hfirst
  rcases result with e | a
  · exact ⟨rfl, hworlds⟩
  · exact hf a hworlds

theorem tryCatch {f : ε → Attempt ε W α} {g : ε → Attempt ε V α} (hx : Agree R x y)
    (hf : ∀ e, Agree R (f e) (g e)) : Agree R (tryCatch x f) (tryCatch y g) := by
  intro w v h
  have hfirst := hx h
  rw [outcome_tryCatch, outcome_tryCatch]
  generalize outcome x w = left at hfirst ⊢
  generalize outcome y v = right at hfirst ⊢
  obtain ⟨result, w₁⟩ := left
  obtain ⟨_, v₁⟩ := right
  obtain ⟨rfl, hworlds⟩ := hfirst
  rcases result with e | a
  · exact hf e hworlds
  · exact ⟨rfl, hworlds⟩

theorem map (f : α → β) (h : Agree R x y) : Agree R (f <$> x) (f <$> y) := by
  rw [map_eq_pure_bind, map_eq_pure_bind]
  exact h.bind fun a => pure (f a)

/-- Two programs that agree on parts of larger worlds agree on these. -/
theorem onFst {C D : Type} (h : Agree R x y) :
    Agree (fun (w : W × C) (v : V × D) => R w.1 v.1) (onFst x) (onFst y) := by
  intro w v hworlds
  exact h hworlds

end Agree

/-- From related worlds two programs, if both return, return related values and
leave related worlds. -/
def Both (R : W → V → Prop) (x : Attempt ε W α) (y : Attempt ε V β) (P : α → β → Prop) : Prop :=
  ∀ ⦃w v a b w' v'⦄, R w v → Returns x w a w' → Returns y v b v' → P a b ∧ R w' v'

namespace Both

variable {R : W → V → Prop} {x : Attempt ε W α} {y : Attempt ε V β} {P : α → β → Prop}

theorem pure {a : α} {b : β} (h : P a b) :
    Both R (Pure.pure a : Attempt ε W α) (Pure.pure b) P := by
  intro w v a' b' w' v' hworlds ha hb
  obtain ⟨rfl, rfl⟩ := returns_pure.mp ha
  obtain ⟨rfl, rfl⟩ := returns_pure.mp hb
  exact ⟨h, hworlds⟩

theorem throw_left (e : ε) : Both R (MonadExcept.throw e : Attempt ε W α) y P := by
  intro w v a b w' v' _ ha
  exact absurd ha not_returns_throw

theorem throw_right (e : ε) : Both R x (MonadExcept.throw e : Attempt ε V β) P := by
  intro w v a b w' v' _ _ hb
  exact absurd hb not_returns_throw

theorem bind {Q : γ → δ → Prop} {f : α → Attempt ε W γ} {g : β → Attempt ε V δ}
    (hx : Both R x y P) (hf : ∀ a b, P a b → Both R (f a) (g b) Q) :
    Both R (x >>= f) (y >>= g) Q := by
  intro w v c d w' v' hworlds hc hd
  obtain ⟨a, w₁, ha, hc⟩ := returns_bind.mp hc
  obtain ⟨b, v₁, hb, hd⟩ := returns_bind.mp hd
  obtain ⟨hab, hworlds⟩ := hx hworlds ha hb
  exact hf a b hab hworlds hc hd

theorem map {Q : γ → δ → Prop} {f : α → γ} {g : β → δ} (h : Both R x y P)
    (hPQ : ∀ a b, P a b → Q (f a) (g b)) : Both R (f <$> x) (g <$> y) Q := by
  rw [map_eq_pure_bind, map_eq_pure_bind]
  exact h.bind fun a b hab => pure (hPQ a b hab)

theorem of_agree {z : Attempt ε V α} (h : Agree R x z) : Both R x z Eq := by
  intro w v a b w' v' hworlds ha hb
  obtain ⟨hsame, hafter⟩ := h hworlds
  rw [ha, hb] at hsame hafter
  exact ⟨Except.ok.inj hsame, hafter⟩

/-- Programs that never part related worlds, whatever they give. -/
theorem of_moves {T : W → W → Prop} {S : V → V → Prop} (hx : Moves T x) (hy : Moves S y)
    (hT : ∀ {w w' v}, T w w' → R w v → R w' v) (hS : ∀ {v v' w}, S v v' → R w v → R w v') :
    Both R x y fun _ _ => True := by
  intro w v a b w' v' hworlds ha hb
  have hleft := hx w
  have hright := hy v
  rw [ha] at hleft
  rw [hb] at hright
  exact ⟨True.intro, hS hright (hT hleft hworlds)⟩

end Both

end PriceScout.Library.Attempts
