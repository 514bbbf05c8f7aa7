import PriceScout.Library.TwoRuns

/-!
Programs that keep a record of what they do, beside the world they act on. The
record only grows, also when a program fails.
-/

namespace PriceScout.Library.Attempts

variable {ε W V α β : Type}

/-- Write down what happens. -/
def note (entry : V) : Attempt ε (W × List V) Unit :=
  ask fun s => ((), (s.1, s.2 ++ [entry]))

/-- Act on the world, and write down what came of it. -/
def recorded (entry : Except ε α → V) (x : Attempt ε W α) : Attempt ε (W × List V) α :=
  act fun s => ((outcome x s.1).1, ((outcome x s.1).2, s.2 ++ [entry (outcome x s.1).1]))

@[simp] theorem outcome_note (entry : V) (s : W × List V) :
    outcome (note entry : Attempt ε (W × List V) Unit) s = (.ok (), (s.1, s.2 ++ [entry])) :=
  rfl

@[simp] theorem outcome_recorded (entry : Except ε α → V) (x : Attempt ε W α) (s : W × List V) :
    outcome (recorded entry x) s =
      ((outcome x s.1).1, ((outcome x s.1).2, s.2 ++ [entry (outcome x s.1).1])) :=
  rfl

@[simp] theorem outcome_onFst (x : Attempt ε W α) (s : W × V) :
    outcome (onFst x) s = ((outcome x s.1).1, ((outcome x s.1).2, s.2)) :=
  rfl

/-- The later record adds entries of a kind to the earlier one. -/
def Adds (P : V → Prop) (s s' : W × List V) : Prop :=
  ∃ entries, s'.2 = s.2 ++ entries ∧ ∀ entry ∈ entries, P entry

namespace Adds

variable {P : V → Prop} {s s' s'' : W × List V}

theorem of_eq (h : s'.2 = s.2) : Adds P s s' :=
  ⟨[], by rw [h, List.append_nil], nofun⟩

theorem refl (s : W × List V) : Adds P s s :=
  of_eq rfl

theorem trans ⦃s s' s'' : W × List V⦄ (h : Adds P s s') (h' : Adds P s' s'') : Adds P s s'' := by
  obtain ⟨entries, hentries, hP⟩ := h
  obtain ⟨entries', hentries', hP'⟩ := h'
  refine ⟨entries ++ entries', ?_, ?_⟩
  · rw [hentries', hentries, List.append_assoc]
  · intro entry hentry
    rcases List.mem_append.mp hentry with hentry | hentry
    · exact hP entry hentry
    · exact hP' entry hentry

end Adds

theorem adds_recorded {P : V → Prop} {entry : Except ε α → V} (h : ∀ answer, P (entry answer))
    (x : Attempt ε W α) : Moves (Adds P) (recorded entry x) := by
  intro s
  refine ⟨[entry (outcome x s.1).1], rfl, ?_⟩
  intro e he
  rw [List.mem_singleton.mp he]
  exact h _

theorem adds_onFst {P : V → Prop} (x : Attempt ε W α) :
    Moves (Adds P) (onFst x : Attempt ε (W × List V) α) :=
  fun _ => .of_eq rfl

/-- The only entry of a kind is found where it was written. -/
theorem eq_of_getElem?_only {p : V → Bool} {before after : List V} {entry found : V} {n : Nat}
    (hbefore : ∀ e ∈ before, p e = false) (hafter : ∀ e ∈ after, p e = false)
    (hfound : p found = true) (h : (before ++ entry :: after)[n]? = some found) :
    n = before.length ∧ entry = found := by
  rcases Nat.lt_trichotomy n before.length with hn | rfl | hn
  · rw [List.getElem?_append_left hn] at h
    rw [hbefore found (List.mem_of_getElem? h)] at hfound
    cases hfound
  · simpa using h
  · obtain ⟨k, rfl⟩ := Nat.exists_eq_add_of_lt hn
    rw [List.getElem?_append_right (by omega),
      show before.length + k + 1 - before.length = k + 1 by omega, List.getElem?_cons_succ] at h
    rw [hafter found (List.mem_of_getElem? h)] at hfound
    cases hfound

end PriceScout.Library.Attempts
