import Mathlib.Data.List.Induction
import Mathlib.Algebra.Order.Group.Nat

/-!
Runs of a system whose steps are given by a function, and the transactions
that make up one step: a transaction commits its final state or changes nothing.
-/

namespace PriceScout.Library.Runs

universe u v w

section Transactions

variable {ε : Type u} {α β σ : Type v}

theorem bind_eq_ok {x : Except ε α} {f : α → Except ε β} {b : β} :
    (x >>= f) = .ok b ↔ ∃ a, x = .ok a ∧ f a = .ok b := by
  cases x with
  | error e => simp [bind, Except.bind]
  | ok a => simp [bind, Except.bind]

theorem ok_bind {a : α} {f : α → Except ε β} : (Except.ok a >>= f) = f a :=
  rfl

theorem error_bind {e : ε} {f : α → Except ε β} : (Except.error e >>= f) = .error e :=
  rfl

theorem ite_error_eq_ok {c : Prop} [Decidable c] {e : ε} {x : Except ε α} {a : α} :
    (if c then Except.error e else x) = .ok a ↔ ¬ c ∧ x = .ok a := by
  by_cases h : c <;> simp [h]

theorem throw_ne_ok {e : ε} {a : α} : (throw e : Except ε α) ≠ .ok a := by
  simp [throw, throwThe, MonadExceptOf.throw]

theorem throw_bind_ne_ok {e : ε} {f : α → Except ε β} {b : β} :
    ((throw e : Except ε α) >>= f) ≠ .ok b := by
  simp [throw, throwThe, MonadExceptOf.throw, bind, Except.bind]

theorem pure_eq_ok {a b : α} : (pure a : Except ε α) = .ok b ↔ a = b := by
  simp [pure, Except.pure]

theorem map_eq_ok {x : Except ε α} {f : α → β} {b : β} :
    x.map f = .ok b ↔ ∃ a, x = .ok a ∧ f a = b := by
  cases x <;> simp [Except.map]

/-- The computation does not fail with an error of the kind. -/
def Avoids (bad : ε → Prop) (x : Except ε α) : Prop :=
  ∀ e, x = .error e → ¬ bad e

section Avoids

variable {bad : ε → Prop}

@[simp] theorem avoids_ok {a : α} : Avoids bad (.ok a) :=
  fun _ h => nomatch h

@[simp] theorem avoids_pure {a : α} : Avoids bad (pure a) :=
  avoids_ok

@[simp] theorem avoids_error {e : ε} : Avoids bad (Except.error e : Except ε α) ↔ ¬ bad e := by
  constructor
  · exact fun h => h e rfl
  · rintro h _ ⟨⟩
    exact h

@[simp] theorem avoids_throw {e : ε} : Avoids bad (throw e : Except ε α) ↔ ¬ bad e :=
  avoids_error

@[simp] theorem avoids_bind {x : Except ε α} {f : α → Except ε β} :
    Avoids bad (x >>= f) ↔ Avoids bad x ∧ ∀ a, x = .ok a → Avoids bad (f a) := by
  cases x with
  | error e => simp [Avoids, bind, Except.bind]
  | ok a => simp [Avoids, bind, Except.bind]

@[simp] theorem avoids_map {x : Except ε α} {f : α → β} :
    Avoids bad (x.map f) ↔ Avoids bad x := by
  cases x <;> simp [Except.map]

@[simp] theorem avoids_fmap {x : Except ε α} {f : α → β} :
    Avoids bad (f <$> x) ↔ Avoids bad x := by
  cases x <;> simp [Functor.map, Except.map]

@[simp] theorem avoids_ite {c : Prop} [Decidable c] {x y : Except ε α} :
    Avoids bad (if c then x else y) ↔ (c → Avoids bad x) ∧ (¬ c → Avoids bad y) := by
  by_cases h : c <;> simp [h]

/-- A computation that fails with no error at all succeeds. -/
theorem exists_ok_of_avoids {x : Except ε α} (h : Avoids (fun _ => True) x) : ∃ a, x = .ok a := by
  cases x with
  | error e => exact absurd trivial (h e rfl)
  | ok a => exact ⟨a, rfl⟩

/-- A loop fails with no such error if none of its passes does. -/
theorem avoids_foldlM {f : σ → α → Except ε σ} (Inv : List α → σ → Prop)
    (hstep : ∀ a rest s, Inv (a :: rest) s →
      Avoids bad (f s a) ∧ ∀ s', f s a = .ok s' → Inv rest s')
    (items : List α) (s : σ) (hinv : Inv items s) : Avoids bad (items.foldlM f s) := by
  induction items generalizing s with
  | nil => exact avoids_ok
  | cons a rest ih =>
      obtain ⟨hpass, hrest⟩ := hstep a rest s hinv
      rw [List.foldlM_cons, avoids_bind]
      exact ⟨hpass, fun s' h => ih s' (hrest s' h)⟩

end Avoids

/-- The state a transaction leaves: its own when it commits, the old one when
it fails and is rolled back. -/
def commit (transaction : σ → Except ε (α × σ)) (s : σ) : σ :=
  match transaction s with
  | .ok result => result.2
  | .error _ => s

theorem commit_of_ok {transaction : σ → Except ε (α × σ)} {s s' : σ} {a : α}
    (h : transaction s = .ok (a, s')) : commit transaction s = s' := by
  simp [commit, h]

theorem commit_of_error {transaction : σ → Except ε (α × σ)} {s : σ} {e : ε}
    (h : transaction s = .error e) : commit transaction s = s := by
  simp [commit, h]

/-- Either a transaction changed nothing or it succeeded. -/
theorem commit_cases (transaction : σ → Except ε (α × σ)) (s : σ) :
    commit transaction s = s ∨ ∃ a, transaction s = .ok (a, commit transaction s) := by
  cases h : transaction s with
  | error e => exact Or.inl (commit_of_error h)
  | ok result =>
      right
      exact ⟨result.1, by simp [commit, h]⟩

/-- A loop over a list that stops at the first failure keeps an invariant that
may mention the items still to come. -/
theorem foldlM_induction {f : σ → α → Except ε σ} (Inv : List α → σ → Prop)
    (hstep : ∀ a rest s s', Inv (a :: rest) s → f s a = .ok s' → Inv rest s')
    (items : List α) (s s' : σ) (hinv : Inv items s) (h : items.foldlM f s = .ok s') :
    Inv [] s' := by
  induction items generalizing s with
  | nil =>
      rw [List.foldlM_nil, pure_eq_ok] at h
      exact h ▸ hinv
  | cons a rest ih =>
      rw [List.foldlM_cons, bind_eq_ok] at h
      obtain ⟨next, hnext, hrest⟩ := h
      exact ih next (hstep a rest s next hinv hnext) hrest

end Transactions

section Systems

variable {σ : Type u} {ι : Type v} (step : σ → ι → σ) (init : σ)

def run (actions : List ι) : σ :=
  actions.foldl step init

/-- The state before the action number `n` of a run. -/
def stateAt (actions : List ι) (n : Nat) : σ :=
  run step init (actions.take n)

def Reachable (s : σ) : Prop :=
  ∃ actions, run step init actions = s

variable {step init}

@[simp] theorem run_nil : run step init [] = init :=
  rfl

theorem run_append (first second : List ι) :
    run step init (first ++ second) = run step (run step init first) second :=
  List.foldl_append

@[simp] theorem stateAt_zero (actions : List ι) : stateAt step init actions 0 = init := by
  simp [stateAt]

@[simp] theorem stateAt_length (actions : List ι) :
    stateAt step init actions actions.length = run step init actions := by
  simp [stateAt]

theorem stateAt_succ {actions : List ι} {n : Nat} (h : n < actions.length) :
    stateAt step init actions (n + 1) = step (stateAt step init actions n) actions[n] := by
  unfold stateAt run
  rw [List.take_add_one, List.getElem?_eq_getElem h, Option.toList_some, List.foldl_append]
  rfl

theorem stateAt_of_length_le {actions : List ι} {n : Nat} (h : actions.length ≤ n) :
    stateAt step init actions n = run step init actions := by
  simp [stateAt, List.take_of_length_le h]

theorem stateAt_succ_of_length_le {actions : List ι} {n : Nat} (h : actions.length ≤ n) :
    stateAt step init actions (n + 1) = stateAt step init actions n := by
  rw [stateAt_of_length_le h, stateAt_of_length_le (h.trans (Nat.le_succ n))]

theorem reachable_stateAt (actions : List ι) (n : Nat) :
    Reachable step init (stateAt step init actions n) :=
  ⟨actions.take n, rfl⟩

theorem reachable_init : Reachable step init init :=
  ⟨[], rfl⟩

theorem Reachable.next {s : σ} (h : Reachable step init s) (action : ι) :
    Reachable step init (step s action) := by
  obtain ⟨actions, rfl⟩ := h
  exact ⟨actions ++ [action], by rw [run_append]; rfl⟩

/-- What holds initially and is kept by every step from a reachable state
holds in every reachable state. -/
theorem Reachable.invariant {P : σ → Prop} (hinit : P init)
    (hstep : ∀ s action, Reachable step init s → P s → P (step s action))
    {s : σ} (h : Reachable step init s) : P s := by
  obtain ⟨actions, rfl⟩ := h
  induction actions using List.reverseRecOn with
  | nil => exact hinit
  | append_singleton actions action ih =>
      rw [run_append]
      exact hstep _ action ⟨actions, rfl⟩ ih

/-- What becomes true during a run becomes true at one of its steps. -/
theorem exists_step_of_stateAt {P : σ → Prop} {actions : List ι} (hinit : ¬ P init) :
    ∀ {n : Nat}, n ≤ actions.length → P (stateAt step init actions n) →
      ∃ k, k < n ∧ ¬ P (stateAt step init actions k) ∧ P (stateAt step init actions (k + 1)) := by
  intro n
  induction n with
  | zero =>
      intro _ h
      exact absurd (by simpa using h) hinit
  | succ n ih =>
      intro hn h
      by_cases hlast : P (stateAt step init actions n)
      · obtain ⟨k, hk, hnot, hthen⟩ := ih (by omega) hlast
        exact ⟨k, by omega, hnot, hthen⟩
      · exact ⟨n, by omega, hlast, h⟩

/-- Between a state with `P` and a later one without it some step loses `P`. -/
theorem exists_step_between {P : σ → Prop} {actions : List ι} {i j : Nat} (hij : i ≤ j)
    (hi : P (stateAt step init actions i)) (hj : ¬ P (stateAt step init actions j)) :
    ∃ k, i ≤ k ∧ k < j ∧ P (stateAt step init actions k) ∧
      ¬ P (stateAt step init actions (k + 1)) := by
  induction j, hij using Nat.le_induction with
  | base => exact absurd hi hj
  | succ j hij ih =>
      by_cases hlast : P (stateAt step init actions j)
      · exact ⟨j, hij, by omega, hlast, hj⟩
      · obtain ⟨k, hik, hkj, hk, hk'⟩ := ih hlast
        exact ⟨k, hik, by omega, hk, hk'⟩

/-- What holds after some steps, though not at first, has held since one of them. -/
theorem exists_last_step {P : σ → Prop} {actions : List ι} (hinit : ¬ P init) {n : Nat}
    (hn : P (stateAt step init actions n)) :
    ∃ i < n, ¬ P (stateAt step init actions i) ∧
      ∀ k, i < k → k ≤ n → P (stateAt step init actions k) := by
  induction n with
  | zero => exact absurd (by simpa using hn) hinit
  | succ n ih =>
      by_cases hlast : P (stateAt step init actions n)
      · obtain ⟨i, hi, hnot, hsince⟩ := ih hlast
        refine ⟨i, hi.trans (Nat.lt_succ_self n), hnot, fun k hik hkn => ?_⟩
        rcases Nat.lt_or_eq_of_le hkn with hlt | rfl
        · exact hsince k hik (Nat.le_of_lt_succ hlt)
        · exact hn
      · refine ⟨n, Nat.lt_succ_self n, hlast, fun k hik hkn => ?_⟩
        obtain rfl : k = n + 1 := by omega
        exact hn

/-- What every step keeps is kept from any point of a run to any later one. -/
theorem stateAt_mono {P : σ → Prop} (hstep : ∀ s action, P s → P (step s action))
    {actions : List ι} {i j : Nat} (hij : i ≤ j) (hi : P (stateAt step init actions i)) :
    P (stateAt step init actions j) := by
  induction j, hij using Nat.le_induction with
  | base => exact hi
  | succ j _ ih =>
      by_cases hlt : j < actions.length
      · rw [stateAt_succ hlt]
        exact hstep _ _ ih
      · rwa [stateAt_succ_of_length_le (Nat.le_of_not_lt hlt)]

/-- What holds initially and is kept by every step that meets a condition holds
throughout a run whose steps all meet it. -/
theorem stateAt_invariant {P : σ → Prop} {C : σ → ι → Prop} (hinit : P init)
    (hstep : ∀ s action, Reachable step init s → P s → C s action → P (step s action))
    {actions : List ι}
    (hcondition : ∀ n (h : n < actions.length),
      C (stateAt step init actions n) actions[n]) (n : Nat) :
    P (stateAt step init actions n) := by
  induction n with
  | zero =>
      rw [stateAt_zero]
      exact hinit
  | succ n ih =>
      by_cases hn : n < actions.length
      · rw [stateAt_succ hn]
        exact hstep _ _ (reachable_stateAt actions n) ih (hcondition n hn)
      · rwa [stateAt_succ_of_length_le (Nat.le_of_not_lt hn)]

end Systems

end PriceScout.Library.Runs
