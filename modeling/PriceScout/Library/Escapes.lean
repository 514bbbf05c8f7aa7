import Mathlib.Data.List.Basic

/-!
Texts in which one symbol takes the meaning from the symbol after it.
-/

namespace PriceScout.Library.Escapes

variable {α : Type*}

/-- Every special symbol gets `e` before it. -/
def escape (e : α) (special : α → Bool) (symbols : List α) : List α :=
  symbols.flatMap fun a => if special a then [e, a] else [a]

section Escaping

variable {e a : α} {symbols : List α} {special : α → Bool}

theorem escape_cons_of_special (ha : special a = true) :
    escape e special (a :: symbols) = e :: a :: escape e special symbols := by
  simp [escape, ha]

theorem escape_cons_of_not_special (ha : special a = false) :
    escape e special (a :: symbols) = a :: escape e special symbols := by
  simp [escape, ha]

/-- A symbol that is not special differs from the one that escapes. -/
theorem ne_of_not_special (he : special e = true) (ha : special a = false) : a ≠ e := by
  rintro rfl
  rw [he] at ha
  cases ha

end Escaping

variable [DecidableEq α]

/-- The symbols that keep their meaning, when `e` takes it from the symbol after it. -/
def bare (e : α) : List α → List α
  | [] => []
  | [a] => [a]
  | a :: b :: rest => if a = e then bare e rest else a :: bare e (b :: rest)

/-- The symbols that a text stands for. -/
def unescape (e : α) : List α → List α
  | [] => []
  | [a] => [a]
  | a :: b :: rest => if a = e then b :: unescape e rest else a :: unescape e (b :: rest)

section Reading

variable {e a : α} {symbols : List α} {special : α → Bool}

@[simp] theorem bare_escaped (e b : α) (rest : List α) : bare e (e :: b :: rest) = bare e rest := by
  simp [bare]

theorem bare_cons (hne : a ≠ e) (rest : List α) : bare e (a :: rest) = a :: bare e rest := by
  cases rest with
  | nil => rfl
  | cons b rest => simp [bare, hne]

@[simp] theorem unescape_escaped (e b : α) (rest : List α) :
    unescape e (e :: b :: rest) = b :: unescape e rest := by
  simp [unescape]

theorem unescape_cons (hne : a ≠ e) (rest : List α) :
    unescape e (a :: rest) = a :: unescape e rest := by
  cases rest with
  | nil => rfl
  | cons b rest => simp [unescape, hne]

theorem unescape_escape (he : special e = true) (symbols : List α) :
    unescape e (escape e special symbols) = symbols := by
  induction symbols with
  | nil => rfl
  | cons a symbols ih =>
      cases ha : special a with
      | true => rw [escape_cons_of_special ha, unescape_escaped, ih]
      | false =>
          rw [escape_cons_of_not_special ha, unescape_cons (ne_of_not_special he ha), ih]

/-- Wherever an escaped text is cut, and whatever stands there instead of the
rest, no special symbol has its meaning before that. -/
theorem bare_take_escape (he : special e = true) {mark : α} (hmark : special mark = false)
    (n : Nat) (symbols : List α) :
    ∀ a ∈ bare e ((escape e special symbols).take n ++ [mark]), special a = false := by
  have hlast : ∀ a ∈ bare e [mark], special a = false := by
    intro a ha
    rw [bare_cons (ne_of_not_special he hmark)] at ha
    rcases List.mem_cons.mp ha with rfl | ha
    · exact hmark
    · cases ha
  induction symbols generalizing n with
  | nil => simpa [escape] using hlast
  | cons b symbols ih =>
      cases hb : special b with
      | true =>
          rw [escape_cons_of_special hb]
          rcases n with _ | _ | n
          · exact hlast
          · -- the cut leaves the escape alone, and it takes the meaning of the mark
            simp [bare]
          · simpa using ih n
      | false =>
          rw [escape_cons_of_not_special hb]
          rcases n with _ | n
          · exact hlast
          · rw [List.take_succ_cons, List.cons_append, bare_cons (ne_of_not_special he hb)]
            intro a ha
            rcases List.mem_cons.mp ha with rfl | ha
            · exact hb
            · exact ih n a ha

theorem bare_escape (he : special e = true) (symbols : List α) :
    ∀ a ∈ bare e (escape e special symbols), special a = false := by
  induction symbols with
  | nil => simp [escape, bare]
  | cons b symbols ih =>
      cases hb : special b with
      | true =>
          rw [escape_cons_of_special hb, bare_escaped]
          exact ih
      | false =>
          rw [escape_cons_of_not_special hb, bare_cons (ne_of_not_special he hb)]
          intro a ha
          rcases List.mem_cons.mp ha with rfl | ha
          · exact hb
          · exact ih a ha

end Reading

end PriceScout.Library.Escapes
