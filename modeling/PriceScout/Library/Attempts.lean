import Mathlib.Data.Prod.Basic

/-!
Programs that act on an outside world and may fail. A failure keeps what the
program has done to the world, and a handler goes on from there.
-/

namespace PriceScout.Library.Attempts

/-- A program over a world `W` that gives an `α` or fails with an `ε`. -/
abbrev Attempt (ε W α : Type) :=
  ExceptT ε (StateM W) α

variable {ε W V α β : Type}

/-- Run a program. -/
def outcome (x : Attempt ε W α) (w : W) : Except ε α × W :=
  x.run.run w

/-- A program given by what it does. -/
def act (f : W → Except ε α × W) : Attempt ε W α :=
  f

/-- Read or change the world without a failure. -/
def ask (f : W → α × W) : Attempt ε W α :=
  act fun w => (.ok (f w).1, (f w).2)

/-- Act on a part of a larger world. -/
def onFst (x : Attempt ε W α) : Attempt ε (W × V) α :=
  act fun w => ((outcome x w.1).1, ((outcome x w.1).2, w.2))

/-- `finally`: also change the world when the program has failed. -/
def doFinally (x : Attempt ε W α) (after : W → W) : Attempt ε W α :=
  act fun w => ((outcome x w).1, after (outcome x w).2)

/-- The program ends in `w'` with the value `a`. -/
def Returns (x : Attempt ε W α) (w : W) (a : α) (w' : W) : Prop :=
  outcome x w = (.ok a, w')

/-- The program ends in `w'` with the failure `e`. -/
def Fails (x : Attempt ε W α) (w : W) (e : ε) (w' : W) : Prop :=
  outcome x w = (.error e, w')

theorem Returns.unique {x : Attempt ε W α} {w : W} {a b : α} {w₁ w₂ : W}
    (h₁ : Returns x w a w₁) (h₂ : Returns x w b w₂) : a = b ∧ w₁ = w₂ := by
  unfold Returns at h₁ h₂
  rw [h₁] at h₂
  simpa using h₂

@[simp] theorem outcome_act (f : W → Except ε α × W) (w : W) : outcome (act f) w = f w :=
  rfl

@[simp] theorem outcome_pure (a : α) (w : W) :
    outcome (pure a : Attempt ε W α) w = (.ok a, w) :=
  rfl

@[simp] theorem outcome_throw (e : ε) (w : W) :
    outcome (throw e : Attempt ε W α) w = (.error e, w) :=
  rfl

@[simp] theorem outcome_doFinally (x : Attempt ε W α) (after : W → W) (w : W) :
    outcome (doFinally x after) w = ((outcome x w).1, after (outcome x w).2) :=
  rfl

theorem outcome_bind (x : Attempt ε W α) (f : α → Attempt ε W β) (w : W) :
    outcome (x >>= f) w = match outcome x w with
      | (.ok a, w') => outcome (f a) w'
      | (.error e, w') => (.error e, w') := by
  simp only [outcome, ExceptT.run_bind, StateT.run_bind]
  rcases StateT.run (ExceptT.run x) w with ⟨_ | _, w'⟩ <;> rfl

theorem outcome_tryCatch (x : Attempt ε W α) (handler : ε → Attempt ε W α) (w : W) :
    outcome (tryCatch x handler) w = match outcome x w with
      | (.ok a, w') => (.ok a, w')
      | (.error e, w') => outcome (handler e) w' := by
  simp only [outcome, tryCatch, tryCatchThe, MonadExceptOf.tryCatch, ExceptT.tryCatch, ExceptT.run,
    ExceptT.mk, StateT.run_bind]
  rcases StateT.run (m := Id) x w with ⟨_ | _, w'⟩ <;> rfl

@[simp] theorem returns_pure {a b : α} {w w' : W} :
    Returns (pure a : Attempt ε W α) w b w' ↔ a = b ∧ w = w' := by
  simp [Returns]

@[simp] theorem not_returns_throw {e : ε} {a : α} {w w' : W} :
    ¬ Returns (throw e : Attempt ε W α) w a w' := by
  simp [Returns]

theorem returns_bind {x : Attempt ε W α} {f : α → Attempt ε W β} {b : β} {w w' : W} :
    Returns (x >>= f) w b w' ↔ ∃ a w₁, Returns x w a w₁ ∧ Returns (f a) w₁ b w' := by
  unfold Returns
  rw [outcome_bind]
  rcases outcome x w with ⟨_ | _, w₁⟩ <;> simp [and_assoc]

theorem fails_bind {x : Attempt ε W α} {f : α → Attempt ε W β} {e : ε} {w w' : W} :
    Fails (x >>= f) w e w' ↔
      Fails x w e w' ∨ ∃ a w₁, Returns x w a w₁ ∧ Fails (f a) w₁ e w' := by
  unfold Returns Fails
  rw [outcome_bind]
  rcases outcome x w with ⟨_ | _, w₁⟩ <;> simp [and_assoc]

theorem returns_map {x : Attempt ε W α} {f : α → β} {b : β} {w w' : W} :
    Returns (f <$> x) w b w' ↔ ∃ a, Returns x w a w' ∧ f a = b := by
  rw [map_eq_pure_bind, returns_bind]
  constructor
  · rintro ⟨a, w₁, hx, hb⟩
    obtain ⟨rfl, rfl⟩ := returns_pure.mp hb
    exact ⟨a, hx, rfl⟩
  · rintro ⟨a, hx, rfl⟩
    exact ⟨a, w', hx, returns_pure.mpr ⟨rfl, rfl⟩⟩

theorem fails_map {x : Attempt ε W α} {f : α → β} {e : ε} {w w' : W} :
    Fails (f <$> x) w e w' ↔ Fails x w e w' := by
  rw [map_eq_pure_bind, fails_bind]
  constructor
  · rintro (hx | ⟨a, w₁, _, hb⟩)
    · exact hx
    · simp [Fails] at hb
  · exact .inl

theorem returns_tryCatch {x : Attempt ε W α} {handler : ε → Attempt ε W α} {a : α} {w w' : W} :
    Returns (tryCatch x handler) w a w' ↔
      Returns x w a w' ∨ ∃ e w₁, Fails x w e w₁ ∧ Returns (handler e) w₁ a w' := by
  unfold Returns Fails
  rw [outcome_tryCatch]
  rcases outcome x w with ⟨_ | _, w₁⟩ <;> simp [and_assoc]

theorem returns_onFst {x : Attempt ε W α} {a : α} {w w' : W × V} :
    Returns (onFst x) w a w' ↔ Returns x w.1 a w'.1 ∧ w.2 = w'.2 := by
  obtain ⟨w', v'⟩ := w'
  unfold Returns onFst
  rw [outcome_act]
  rcases outcome x w.1 with ⟨_ | _, w₁⟩ <;> simp [and_assoc]

/-- Whatever a program returns has a property. -/
def Ensures (x : Attempt ε W α) (P : α → Prop) : Prop :=
  ∀ ⦃w : W⦄ ⦃a : α⦄ ⦃w' : W⦄, Returns x w a w' → P a

namespace Ensures

variable {x : Attempt ε W α} {P : α → Prop} {Q : β → Prop}

theorem trivial : Ensures x fun _ => True :=
  fun _ _ _ _ => True.intro

theorem pure {a : α} (h : P a) : Ensures (Pure.pure a : Attempt ε W α) P := by
  intro w b w' hreturns
  obtain ⟨rfl, -⟩ := returns_pure.mp hreturns
  exact h

theorem bind {f : α → Attempt ε W β} (hx : Ensures x P) (hf : ∀ a, P a → Ensures (f a) Q) :
    Ensures (x >>= f) Q := by
  intro w b w' hreturns
  obtain ⟨a, w₁, ha, hb⟩ := returns_bind.mp hreturns
  exact hf a (hx ha) hb

/-- The continuation alone has the property, whatever comes before it. -/
theorem bind_of_forall {f : α → Attempt ε W β} (hf : ∀ a, Ensures (f a) Q) :
    Ensures (x >>= f) Q :=
  bind trivial fun a _ => hf a

theorem tryCatch {handler : ε → Attempt ε W α} (hx : Ensures x P)
    (hhandler : ∀ e, Ensures (handler e) P) : Ensures (tryCatch x handler) P := by
  intro w a w' hreturns
  obtain ha | ⟨e, w₁, -, ha⟩ := returns_tryCatch.mp hreturns
  · exact hx ha
  · exact hhandler e ha

theorem onFst (h : Ensures x P) : Ensures (onFst x : Attempt ε (W × V) α) P :=
  fun _ _ _ hreturns => h (returns_onFst.mp hreturns).1

end Ensures

end PriceScout.Library.Attempts
