import Mathlib
import PriceScout.Library.RegularExpressions

/-!
What a search of a text by a regular expression finds: the places where a match
can begin, one after the other, and the end that is tried first at each of them.
-/

namespace PriceScout.Library.Searches

open PriceScout.Library.JsStrings
open PriceScout.Library.RegularExpressions

/-- The place between two parts of a text. -/
def between (x y : List Char) : Cursor where
  before := x.reverse
  after := y

@[simp] theorem after_between (x y : List Char) : (between x y).after = y := rfl

theorem start_eq (text : List Char) : Cursor.start text = between [] text := rfl

theorem advance_between (x y : List Char) (c : Char) :
    (between x (c :: y)).advance = between (x ++ [c]) y := by
  simp [between, Cursor.advance]

theorem before_between (x y : List Char) : (between x y).before.reverse = x := by
  simp [between]

theorem between_inj {x y x' y' : List Char} (h : between x y = between x' y') :
    x = x' ∧ y = y' := by
  obtain ⟨hbefore, hafter⟩ := Cursor.mk.inj h
  exact ⟨List.reverse_injective hbefore, hafter⟩

theorem upTo_between (x v z : List Char) :
    (between x (v ++ z)).upTo (between (x ++ v) z) = v := by
  simp [Cursor.upTo, between]

theorem atWordBoundary_between (x y : List Char) :
    (between x y).atWordBoundary =
      (x.getLast?.any isWordChar != y.head?.any isWordChar) := by
  simp [Cursor.atWordBoundary, between]

section Ends

variable {r s : Regex} {c d e : Cursor} {p : Char → Bool} {x y v z : List Char}

@[simp] theorem ends_empty : Regex.empty.ends c = [c] := rfl

theorem ends_alt : (Regex.alt r s).ends c = r.ends c ++ s.ends c := rfl

@[simp] theorem mem_ends_alt : d ∈ (Regex.alt r s).ends c ↔ d ∈ r.ends c ∨ d ∈ s.ends c :=
  List.mem_append

@[simp] theorem mem_ends_seq :
    d ∈ (Regex.seq r s).ends c ↔ ∃ e ∈ r.ends c, d ∈ s.ends e :=
  List.mem_flatMap

@[simp] theorem mem_ends_wordBoundary :
    d ∈ Regex.wordBoundary.ends c ↔ d = c ∧ c.atWordBoundary = true := by
  rw [Regex.ends]
  split <;> simp [*]

@[simp] theorem mem_ends_atStart :
    d ∈ Regex.atStart.ends (between x y) ↔ d = between x y ∧ x = [] := by
  rw [Regex.ends]
  split <;> simp_all [between]

@[simp] theorem mem_ends_atEnd :
    d ∈ Regex.atEnd.ends (between x y) ↔ d = between x y ∧ y = [] := by
  rw [Regex.ends]
  split <;> simp_all [between]

@[simp] theorem ends_charClass_nil : (Regex.charClass p).ends (between x []) = [] := rfl

theorem ends_charClass_cons (a : Char) :
    (Regex.charClass p).ends (between x (a :: y)) =
      if p a then [between (x ++ [a]) y] else [] := by
  simp only [Regex.ends, after_between, advance_between]

@[simp] theorem mem_ends_charClass :
    d ∈ (Regex.charClass p).ends (between x y) ↔
      ∃ a z, y = a :: z ∧ p a = true ∧ d = between (x ++ [a]) z := by
  cases y with
  | nil => simp
  | cons a z =>
      rw [ends_charClass_cons]
      split <;> simp_all

theorem mem_ends_oneOf {rs : List Regex} :
    d ∈ (Regex.oneOf rs).ends (between x y) ↔ ∃ r ∈ rs, d ∈ r.ends (between x y) := by
  induction rs with
  | nil => simp [Regex.oneOf]
  | cons r rs ih =>
      cases rs with
      | nil => simp [Regex.oneOf]
      | cons s rs => simp only [Regex.oneOf, mem_ends_alt, ih, List.exists_mem_cons_iff]

/-- A word is matched in any case. -/
theorem mem_ends_literalIgnoreCase (word : String) :
    d ∈ (Regex.literalIgnoreCase word).ends (between x y) ↔
      ∃ v z, y = v ++ z ∧ v.map Char.toLower = word.toList.map Char.toLower ∧
        d = between (x ++ v) z := by
  unfold Regex.literalIgnoreCase
  induction word.toList generalizing x y with
  | nil => simp
  | cons c word ih =>
      simp only [List.foldr_cons, mem_ends_seq, Regex.charIgnoreCase, mem_ends_charClass,
        decide_eq_true_eq]
      constructor
      · rintro ⟨_, ⟨a, y, rfl, ha, rfl⟩, hd⟩
        obtain ⟨v, z, rfl, hv, rfl⟩ := ih.mp hd
        exact ⟨a :: v, z, rfl, by simp [ha, hv], by simp⟩
      · rintro ⟨v, z, rfl, hv, rfl⟩
        cases v with
        | nil => cases hv
        | cons a v =>
            obtain ⟨ha, hv⟩ := List.cons.inj hv
            exact ⟨_, ⟨a, v ++ z, rfl, ha, rfl⟩, ih.mpr ⟨v, z, rfl, hv, by simp⟩⟩

theorem mem_ends_char (c : Char) :
    d ∈ (Regex.char c).ends (between x y) ↔ ∃ z, y = c :: z ∧ d = between (x ++ [c]) z := by
  simp only [Regex.char, mem_ends_charClass, decide_eq_true_eq]
  constructor
  · rintro ⟨a, z, rfl, rfl, hd⟩
    exact ⟨z, rfl, hd⟩
  · rintro ⟨z, rfl, hd⟩
    exact ⟨c, z, rfl, rfl, hd⟩

theorem mem_ends_literal (word : String) :
    d ∈ (Regex.literal word).ends (between x y) ↔
      ∃ z, y = word.toList ++ z ∧ d = between (x ++ word.toList) z := by
  unfold Regex.literal
  induction word.toList generalizing x y with
  | nil => simp
  | cons c word ih =>
      simp only [List.foldr_cons, mem_ends_seq, mem_ends_char]
      constructor
      · rintro ⟨_, ⟨y, rfl, rfl⟩, hd⟩
        obtain ⟨z, rfl, rfl⟩ := ih.mp hd
        exact ⟨z, rfl, by simp⟩
      · rintro ⟨z, rfl, rfl⟩
        exact ⟨_, ⟨word ++ z, rfl, rfl⟩, ih.mpr ⟨z, rfl, by simp⟩⟩

/-- The texts that a class covers which is repeated a number of times. -/
theorem mem_ends_times (n : Nat) :
    d ∈ (Regex.times n (.charClass p)).ends (between x y) ↔
      ∃ v z, y = v ++ z ∧ v.length = n ∧ (∀ a ∈ v, p a = true) ∧ d = between (x ++ v) z := by
  induction n generalizing x y with
  | zero => simp [Regex.times]
  | succ n ih =>
      simp only [Regex.times, mem_ends_seq, mem_ends_charClass]
      constructor
      · rintro ⟨_, ⟨a, y, rfl, ha, rfl⟩, hd⟩
        obtain ⟨v, z, rfl, hlength, hv, rfl⟩ := ih.mp hd
        exact ⟨a :: v, z, rfl, by simp [hlength], by simpa using ⟨ha, hv⟩, by simp⟩
      · rintro ⟨v, z, rfl, hlength, hv, rfl⟩
        cases v with
        | nil => cases hlength
        | cons a v =>
            obtain ⟨ha, hv⟩ := List.forall_mem_cons.mp hv
            exact ⟨_, ⟨a, v ++ z, rfl, ha, rfl⟩,
              ih.mpr ⟨v, z, rfl, Nat.succ.inj hlength, hv, by simp⟩⟩

/-- A match covers a part of the text. -/
theorem covers_of_mem_ends (r : Regex) (h : d ∈ r.ends (between x y)) :
    ∃ v z, y = v ++ z ∧ d = between (x ++ v) z := by
  induction r generalizing x y d with
  | empty => exact ⟨[], y, rfl, by simpa using h⟩
  | charClass p =>
      obtain ⟨a, z, rfl, -, rfl⟩ := mem_ends_charClass.mp h
      exact ⟨[a], z, rfl, rfl⟩
  | seq r s ihr ihs =>
      obtain ⟨e, he, hd⟩ := mem_ends_seq.mp h
      obtain ⟨v, y, rfl, rfl⟩ := ihr he
      obtain ⟨w, z, rfl, rfl⟩ := ihs hd
      exact ⟨v ++ w, z, by simp, by simp⟩
  | alt r s ihr ihs =>
      rcases mem_ends_alt.mp h with hr | hs
      · exact ihr hr
      · exact ihs hs
  | star r ih =>
      rw [Regex.ends] at h
      generalize (between x y).after.length = n at h
      induction n generalizing x y with
      | zero => exact ⟨[], y, rfl, by simpa [iterate] using h⟩
      | succ n ihn =>
          rw [iterate, List.mem_append, List.mem_flatMap, List.mem_singleton] at h
          rcases h with ⟨e, he, hd⟩ | rfl
          · obtain ⟨v, y, rfl, rfl⟩ := ih (List.mem_filter.mp he).1
            obtain ⟨w, z, rfl, rfl⟩ := ihn hd
            exact ⟨v ++ w, z, by simp, by simp⟩
          · exact ⟨[], y, rfl, by simp⟩
  | wordBoundary =>
      obtain ⟨rfl, -⟩ := mem_ends_wordBoundary.mp h
      exact ⟨[], y, rfl, by simp⟩
  | atStart =>
      obtain ⟨rfl, -⟩ := mem_ends_atStart.mp h
      exact ⟨[], y, rfl, by simp⟩
  | atEnd =>
      obtain ⟨rfl, -⟩ := mem_ends_atEnd.mp h
      exact ⟨[], y, rfl, by simp⟩

/-- The turns of a repetition are bounded by the characters that are left only. -/
theorem iterate_of_le (step : Cursor → List Cursor) {n : Nat} (h : c.after.length ≤ n) :
    iterate step n c = iterate step c.after.length c := by
  induction n using Nat.strong_induction_on generalizing c with
  | _ n ih =>
      cases hlength : c.after.length with
      | zero => cases n <;> simp [iterate, hlength]
      | succ m =>
          obtain ⟨k, rfl⟩ := Nat.exists_eq_add_one_of_ne_zero (n := n) (by omega)
          rw [iterate, iterate]
          congr 1
          refine List.flatMap_congr fun d hd => ?_
          have hlt : d.after.length < m + 1 := by simpa [hlength] using (List.mem_filter.mp hd).2
          rw [ih k (Nat.lt_succ_self k) (by omega), ih m (by omega) (by omega)]

/-- A repetition takes a turn of the body, if there is one, and goes on. -/
theorem ends_star : (Regex.star r).ends c =
    ((r.ends c).filter fun d => d.after.length < c.after.length).flatMap (Regex.star r).ends ++
      [c] := by
  rw [Regex.ends]
  cases hlength : c.after.length with
  | zero => simp [iterate]
  | succ n =>
      rw [iterate, hlength]
      congr 1
      refine List.flatMap_congr fun d hd => ?_
      have hlt : d.after.length < n + 1 := of_decide_eq_true (List.mem_filter.mp hd).2
      rw [Regex.ends, iterate_of_le _ (by omega)]

theorem self_mem_ends_star : c ∈ (Regex.star r).ends c := by
  rw [ends_star]
  exact List.mem_append_right _ (List.mem_singleton_self c)

/-- What a repetition takes one after the other. -/
theorem star_induction {P : Cursor → Cursor → Prop} (refl : ∀ c, P c c)
    (step : ∀ c e d, e ∈ r.ends c → P e d → P c d) (h : d ∈ (Regex.star r).ends c) : P c d := by
  rw [Regex.ends] at h
  generalize c.after.length = n at h
  induction n generalizing c with
  | zero =>
      rw [iterate, List.mem_singleton] at h
      rw [h]
      exact refl c
  | succ n ih =>
      rw [iterate, List.mem_append, List.mem_flatMap, List.mem_singleton] at h
      rcases h with ⟨e, he, hd⟩ | rfl
      · exact step c e d (List.mem_filter.mp he).1 (ih hd)
      · exact refl d

/-- What a repeated class covers is in the class. -/
theorem covers_of_mem_star (h : d ∈ (Regex.star (.charClass p)).ends (between x y)) :
    ∃ v z, y = v ++ z ∧ (∀ a ∈ v, p a = true) ∧ d = between (x ++ v) z := by
  induction y generalizing x with
  | nil => exact ⟨[], [], rfl, by simp, by simpa [ends_star] using h⟩
  | cons a y ih =>
      rw [ends_star, List.mem_append, List.mem_flatMap, List.mem_singleton] at h
      rcases h with ⟨e, he, hd⟩ | rfl
      · obtain ⟨b, w, hcons, hb, rfl⟩ := mem_ends_charClass.mp (List.mem_filter.mp he).1
        obtain ⟨rfl, rfl⟩ := List.cons.inj hcons
        obtain ⟨v, z, rfl, hv, rfl⟩ := ih hd
        exact ⟨a :: v, z, rfl, by simpa using ⟨hb, hv⟩, by simp⟩
      · exact ⟨[], a :: y, rfl, by simp, by simp⟩

theorem covers_of_mem_atMost {n : Nat}
    (h : d ∈ (Regex.atMost n (.charClass p)).ends (between x y)) :
    ∃ v z, y = v ++ z ∧ v.length ≤ n ∧ (∀ a ∈ v, p a = true) ∧ d = between (x ++ v) z := by
  induction n generalizing x y with
  | zero => exact ⟨[], y, rfl, Nat.le_refl 0, by simp, by simpa [Regex.atMost] using h⟩
  | succ n ih =>
      simp only [Regex.atMost, Regex.opt, mem_ends_alt, mem_ends_seq, mem_ends_charClass,
        ends_empty, List.mem_singleton] at h
      rcases h with ⟨_, ⟨a, y, rfl, ha, rfl⟩, hd⟩ | rfl
      · obtain ⟨v, z, rfl, hlength, hv, rfl⟩ := ih hd
        exact ⟨a :: v, z, rfl, Nat.succ_le_succ hlength, by simpa using ⟨ha, hv⟩, by simp⟩
      · exact ⟨[], y, rfl, Nat.zero_le _, by simp, by simp⟩

end Ends

/-! The end that is tried first. -/

section First

variable {r s : Regex} {c d e : Cursor} {p : Char → Bool} {x y v z : List Char}

/-- A match from a place that the others come after. -/
def First (r : Regex) (c d : Cursor) : Prop :=
  (r.ends c).head? = some d

theorem First.mem (h : First r c d) : d ∈ r.ends c :=
  List.mem_of_head? h

theorem First.ne_nil (h : First r c d) : r.ends c ≠ [] :=
  List.ne_nil_of_mem h.mem

theorem First.unique (h : First r c d) (h' : First r c e) : d = e :=
  Option.some.inj (h.symm.trans h')

theorem first_of_ends (h : r.ends c = [d]) : First r c d := by
  rw [First, h, List.head?_cons]

theorem first_of_forall (hne : r.ends c ≠ []) (h : ∀ e ∈ r.ends c, e = d) : First r c d := by
  obtain ⟨e, others, hcons⟩ := List.exists_cons_of_ne_nil hne
  rw [First, hcons, List.head?_cons, h e (by simp [hcons])]

theorem first_alt_left (h : First r c d) : First (.alt r s) c d := by
  simp [First, ends_alt, List.head?_append, show (r.ends c).head? = some d from h]

theorem first_alt_right (hr : r.ends c = []) (hs : First s c d) : First (.alt r s) c d := by
  rwa [First, ends_alt, hr, List.nil_append]

theorem first_seq (hr : First r c e) (hs : First s e d) : First (.seq r s) c d := by
  obtain ⟨others, hothers⟩ := List.head?_eq_some_iff.mp hr
  rw [First, Regex.ends, hothers, List.flatMap_cons, List.head?_append]
  rw [First] at hs
  rw [hs, Option.some_or]

theorem first_opt (h : First r c d) : First (.opt r) c d :=
  first_alt_left h

theorem first_opt_of_nil (h : r.ends c = []) : First (.opt r) c c :=
  first_alt_right h rfl

/-- A turn of the body that consumes something is taken. -/
theorem first_star (hr : First r c e) (hlt : e.after.length < c.after.length)
    (hstar : First (.star r) e d) : First (.star r) c d := by
  obtain ⟨others, hothers⟩ := List.head?_eq_some_iff.mp hr
  rw [First] at hstar ⊢
  rw [ends_star, hothers, List.filter_cons_of_pos (by simpa using hlt), List.flatMap_cons,
    List.append_assoc, List.head?_append, hstar, Option.some_or]

theorem first_star_of_nil (h : r.ends c = []) : First (.star r) c c := by
  rw [First, ends_star, h]
  rfl

theorem ends_seq_eq_nil_iff : (Regex.seq r s).ends c = [] ↔ ∀ e ∈ r.ends c, s.ends e = [] :=
  List.flatMap_eq_nil_iff

theorem ends_seq_of_nil (h : r.ends c = []) : (Regex.seq r s).ends c = [] := by
  rw [Regex.ends, h, List.flatMap_nil]

theorem ends_charClass_of_not (h : ∀ a ∈ y.head?, p a = false) :
    (Regex.charClass p).ends (between x y) = [] := by
  cases y with
  | nil => rfl
  | cons a y => rw [ends_charClass_cons, h a rfl, if_neg Bool.false_ne_true]

theorem first_charClass {a : Char} (h : p a = true) :
    First (.charClass p) (between x (a :: z)) (between (x ++ [a]) z) :=
  first_of_ends (by rw [ends_charClass_cons, if_pos h])

/-- A class takes as many characters as there are. -/
theorem first_star_charClass (hv : ∀ a ∈ v, p a = true) (hz : ∀ a ∈ z.head?, p a = false) :
    First (.star (.charClass p)) (between x (v ++ z)) (between (x ++ v) z) := by
  induction v generalizing x with
  | nil => simpa using first_star_of_nil (ends_charClass_of_not hz)
  | cons a v ih =>
      obtain ⟨ha, hv⟩ := List.forall_mem_cons.mp hv
      refine first_star (first_charClass ha) (by simp) ?_
      simpa using ih (x := x ++ [a]) hv

theorem first_times (hv : ∀ a ∈ v, p a = true) :
    First (.times v.length (.charClass p)) (between x (v ++ z)) (between (x ++ v) z) := by
  induction v generalizing x with
  | nil => simp [First, Regex.times]
  | cons a v ih =>
      obtain ⟨ha, hv⟩ := List.forall_mem_cons.mp hv
      exact first_seq (first_charClass ha) (by simpa using ih (x := x ++ [a]) hv)

theorem first_atMost {n : Nat} (hv : ∀ a ∈ v, p a = true) (hlength : v.length ≤ n)
    (hz : ∀ a ∈ z.head?, p a = false) :
    First (.atMost n (.charClass p)) (between x (v ++ z)) (between (x ++ v) z) := by
  induction v generalizing x n with
  | nil =>
      cases n with
      | zero => simp [First, Regex.atMost]
      | succ n =>
          refine (List.append_nil x).symm ▸ first_opt_of_nil (ends_seq_of_nil ?_)
          exact ends_charClass_of_not hz
  | cons a v ih =>
      cases n with
      | zero => cases hlength
      | succ n =>
          obtain ⟨ha, hv⟩ := List.forall_mem_cons.mp hv
          refine first_opt (first_seq (first_charClass ha) ?_)
          simpa using ih (x := x ++ [a]) hv (Nat.le_of_succ_le_succ hlength)

end First

/-! The search from one place to the next. -/

section Search

variable {r : Regex} {c d : Cursor} {x y z : List Char}

/-- No match begins at a place within `y`, which stands between two other parts. -/
def Skips (r : Regex) (x y z : List Char) : Prop :=
  ∀ y₁ y₂, y = y₁ ++ y₂ → y₂ ≠ [] → r.ends (between (x ++ y₁) (y₂ ++ z)) = []

/-- No match begins from here on. -/
def Fails (r : Regex) (x y : List Char) : Prop :=
  ∀ y₁ y₂, y = y₁ ++ y₂ → r.ends (between (x ++ y₁) y₂) = []

theorem skips_nil : Skips r x [] z := by
  intro y₁ y₂ hsplit hne
  exact absurd (List.append_eq_nil_iff.mp hsplit.symm).2 hne

theorem skips_cons {a : Char} (ha : r.ends (between x (a :: y ++ z)) = [])
    (h : Skips r (x ++ [a]) y z) : Skips r x (a :: y) z := by
  intro y₁ y₂ hsplit hne
  cases y₁ with
  | nil => simpa [← show a :: y = y₂ from hsplit] using ha
  | cons b y₁ =>
      obtain ⟨rfl, rfl⟩ := List.cons.inj hsplit
      simpa using h y₁ y₂ rfl hne

theorem fails_cons {a : Char} (ha : r.ends (between x (a :: y)) = [])
    (h : Fails r (x ++ [a]) y) : Fails r x (a :: y) := by
  intro y₁ y₂ hsplit
  cases y₁ with
  | nil => simpa [← show a :: y = y₂ from hsplit] using ha
  | cons b y₁ =>
      obtain ⟨rfl, rfl⟩ := List.cons.inj hsplit
      simpa using h y₁ y₂ rfl

/-- A search comes to the first place where a match begins. -/
theorem searchFrom_spec {n : Nat} (h : y.length < n) :
    (∃ skipped rest d, y = skipped ++ rest ∧ Skips r x skipped rest ∧
        First r (between (x ++ skipped) rest) d ∧
        searchFrom r n (between x y) = some (between (x ++ skipped) rest, d)) ∨
      (Fails r x y ∧ searchFrom r n (between x y) = none) := by
  induction n generalizing x y with
  | zero => cases h
  | succ n ih =>
      cases hends : r.ends (between x y) with
      | cons d others =>
          refine Or.inl ⟨[], y, d, rfl, skips_nil, ?_, ?_⟩
          · simp [First, hends]
          · simp [searchFrom, hends]
      | nil =>
          cases y with
          | nil =>
              refine Or.inr ⟨?_, by simp [searchFrom, hends]⟩
              intro y₁ y₂ hsplit
              obtain ⟨rfl, rfl⟩ := List.append_eq_nil_iff.mp hsplit.symm
              simpa using hends
          | cons a y =>
              have hnext : searchFrom r (n + 1) (between x (a :: y)) =
                  searchFrom r n (between (x ++ [a]) y) := by
                rw [searchFrom, hends, advance_between]
                rfl
              rw [hnext]
              rcases ih (x := x ++ [a]) (Nat.lt_of_succ_lt_succ h) with
                ⟨skipped, rest, d, rfl, hskips, hfirst, hsearch⟩ | ⟨hfails, hsearch⟩
              · refine Or.inl ⟨a :: skipped, rest, d, rfl, skips_cons hends hskips, ?_, ?_⟩
                · simpa using hfirst
                · simpa using hsearch
              · exact Or.inr ⟨fails_cons hends hfails, hsearch⟩

/-- What `exec` finds. -/
theorem exec_spec (r : Regex) (text : List Char) :
    (∃ x v z, text = x ++ v ++ z ∧ First r (between x (v ++ z)) (between (x ++ v) z) ∧
        exec r text = some ⟨x, v, z⟩) ∨
      (Fails r [] text ∧ exec r text = none) := by
  rcases searchFrom_spec (r := r) (x := []) (Nat.lt_succ_self text.length) with
    ⟨x, rest, d, rfl, -, hfirst, hsearch⟩ | ⟨hfails, hsearch⟩
  · obtain ⟨v, z, rfl, rfl⟩ := covers_of_mem_ends r hfirst.mem
    refine Or.inl ⟨x, v, z, (List.append_assoc x v z).symm, hfirst, ?_⟩
    rw [exec, start_eq, hsearch]
    simp [before_between, upTo_between]
  · exact Or.inr ⟨hfails, by rw [exec, start_eq, hsearch, Option.map_none]⟩

theorem test_iff {text : List Char} :
    test r text = true ↔ ∃ x y, text = x ++ y ∧ r.ends (between x y) ≠ [] := by
  rw [test]
  rcases exec_spec r text with ⟨x, v, z, rfl, hfirst, hexec⟩ | ⟨hfails, hexec⟩
  · simp only [hexec, Option.isSome_some, true_iff]
    exact ⟨x, v ++ z, List.append_assoc x v z, hfirst.ne_nil⟩
  · simp only [hexec, Option.isSome_none, Bool.false_eq_true, false_iff]
    rintro ⟨x, y, hsplit, hne⟩
    exact hne (hfails x y hsplit)

theorem test_alt {s : Regex} {text : List Char} :
    test (.alt r s) text = true ↔ test r text = true ∨ test s text = true := by
  simp only [test_iff, ends_alt, ne_eq, List.append_eq_nil_iff, not_and_or]
  constructor
  · rintro ⟨x, y, hsplit, hr | hs⟩
    · exact Or.inl ⟨x, y, hsplit, hr⟩
    · exact Or.inr ⟨x, y, hsplit, hs⟩
  · rintro (⟨x, y, hsplit, hr⟩ | ⟨x, y, hsplit, hs⟩)
    · exact ⟨x, y, hsplit, Or.inl hr⟩
    · exact ⟨x, y, hsplit, Or.inr hs⟩

theorem test_oneOf {rs : List Regex} {text : List Char} :
    test (.oneOf rs) text = true ↔ ∃ r ∈ rs, test r text = true := by
  simp only [test_iff]
  constructor
  · rintro ⟨x, y, hsplit, hne⟩
    obtain ⟨d, hd⟩ := List.exists_mem_of_ne_nil _ hne
    obtain ⟨r, hr, hd⟩ := mem_ends_oneOf.mp hd
    exact ⟨r, hr, x, y, hsplit, List.ne_nil_of_mem hd⟩
  · rintro ⟨r, hr, x, y, hsplit, hne⟩
    obtain ⟨d, hd⟩ := List.exists_mem_of_ne_nil _ hne
    exact ⟨x, y, hsplit, List.ne_nil_of_mem (mem_ends_oneOf.mpr ⟨r, hr, hd⟩)⟩

/-- A word is found where the text contains it. -/
theorem test_literal {word : String} {text : List Char} :
    test (.literal word) text = true ↔ word.toList <:+: text := by
  rw [test_iff]
  constructor
  · rintro ⟨x, y, rfl, hne⟩
    obtain ⟨d, hd⟩ := List.exists_mem_of_ne_nil _ hne
    obtain ⟨z, rfl, -⟩ := (mem_ends_literal word).mp hd
    exact ⟨x, z, by simp⟩
  · rintro ⟨x, z, rfl⟩
    exact ⟨x, word.toList ++ z, by simp,
      List.ne_nil_of_mem ((mem_ends_literal word).mpr ⟨z, rfl, rfl⟩)⟩

theorem test_literals {words : List String} {text : List Char} :
    test (.oneOf (words.map .literal)) text = true ↔
      ∃ word ∈ words, word.toList <:+: text := by
  simp [test_oneOf, test_literal]

/-- A text without the first character of a pattern does not contain it. -/
theorem not_test_seq {p : Char → Bool} {text : List Char} (h : ∀ c ∈ text, p c = false) :
    test (.seq (.charClass p) r) text = false := by
  rw [← Bool.not_eq_true, test_iff]
  rintro ⟨x, y, rfl, hne⟩
  refine hne (ends_seq_of_nil (ends_charClass_of_not fun c hc => h c ?_))
  exact List.mem_append_right x (List.mem_of_mem_head? hc)

end Search

/-! All the matches of a text. -/

section Matching

variable {r : Regex} {text x y : List Char} {found found' : List Match}

/-- Every match consumes something. -/
def Consumes (r : Regex) : Prop :=
  ∀ x y, between x y ∉ r.ends (between x y)

theorem consumes_charClass {p : Char → Bool} : Consumes (.charClass p) := by
  intro x y h
  obtain ⟨a, z, rfl, -, hsame⟩ := mem_ends_charClass.mp h
  simpa using (between_inj hsame).1

theorem Consumes.seq {s : Regex} (h : Consumes r) : Consumes (.seq r s) := by
  intro x y hmem
  obtain ⟨e, he, hmem⟩ := mem_ends_seq.mp hmem
  obtain ⟨v, z, rfl, rfl⟩ := covers_of_mem_ends r he
  obtain ⟨w, z, rfl, hsame⟩ := covers_of_mem_ends s hmem
  obtain ⟨rfl, rfl⟩ : v = [] ∧ w = [] := by simpa using (between_inj hsame).1
  exact h x z (by simpa using he)

theorem Consumes.alt {s : Regex} (hr : Consumes r) (hs : Consumes s) : Consumes (.alt r s) := by
  intro x y hmem
  rcases mem_ends_alt.mp hmem with hmem | hmem
  · exact hr x y hmem
  · exact hs x y hmem

/-- The matches that a search finds from a place on, which continues behind each of them. -/
inductive Finds (r : Regex) : List Char → List Char → List Match → Prop
  | none {x y : List Char} (hfails : Fails r x y) : Finds r x y []
  | next {x skipped v z : List Char} {found : List Match} (hskips : Skips r x skipped (v ++ z))
      (hfirst : First r (between (x ++ skipped) (v ++ z)) (between (x ++ skipped ++ v) z))
      (hfound : Finds r (x ++ skipped ++ v) z found) :
      Finds r x (skipped ++ (v ++ z)) (⟨x ++ skipped, v, z⟩ :: found)

theorem Consumes.ne_nil (h : Consumes r) {v z : List Char}
    (hfirst : First r (between x (v ++ z)) (between (x ++ v) z)) : v ≠ [] := by
  rintro rfl
  exact h x z (by simpa using hfirst.mem)

theorem matchesFrom_spec (h : Consumes r) {n : Nat} (hlength : y.length < n) :
    Finds r x y (matchesFrom r n (between x y)) := by
  induction n generalizing x y with
  | zero => cases hlength
  | succ n ih =>
      rcases searchFrom_spec (r := r) (x := x) (Nat.lt_succ_self y.length) with
        ⟨skipped, rest, d, rfl, hskips, hfirst, hsearch⟩ | ⟨hfails, hsearch⟩
      · obtain ⟨v, z, rfl, rfl⟩ := covers_of_mem_ends r hfirst.mem
        have hne := h.ne_nil hfirst
        have hpos := List.length_pos_iff.mpr hne
        simp only [List.length_append] at hlength
        have hresume : resume (between (x ++ skipped) (v ++ z)) (between (x ++ skipped ++ v) z) =
            between (x ++ skipped ++ v) z := by
          rw [resume, if_pos]
          simp only [after_between, List.length_append]
          omega
        have hmore : (z.isEmpty && (v ++ z).isEmpty) = false := by simp [hne]
        simp only [matchesFrom, after_between, hsearch, before_between, upTo_between, hmore,
          Bool.false_eq_true, if_false, hresume]
        exact .next hskips hfirst (ih (by omega))
      · simp only [matchesFrom, after_between, hsearch]
        exact .none hfails

theorem matchAll_spec (h : Consumes r) (text : List Char) : Finds r [] text (matchAll r text) :=
  matchesFrom_spec h (Nat.lt_succ_self text.length)

/-- The first place of a match is not skipped by another search. -/
theorem Skips.length_le {skipped rest skipped' rest' : List Char} (hskips : Skips r x skipped rest)
    (hsame : skipped ++ rest = skipped' ++ rest')
    (hne : r.ends (between (x ++ skipped') rest') ≠ []) :
    skipped.length ≤ skipped'.length := by
  by_contra hlt
  obtain ⟨more, rfl, rfl⟩ : ∃ more, skipped = skipped' ++ more ∧ rest' = more ++ rest := by
    rcases List.append_eq_append_iff.mp hsame with ⟨a, rfl, rfl⟩ | ⟨a, rfl, rfl⟩
    · simp at hlt
    · exact ⟨a, rfl, rfl⟩
  have hmore : more ≠ [] := by
    rintro rfl
    simp at hlt
  exact hne (hskips skipped' more rfl hmore)

theorem Finds.unique (h : Finds r x y found) (h' : Finds r x y found') : found = found' := by
  induction h generalizing found' with
  | none hfails =>
      cases h' with
      | none => rfl
      | next hskips hfirst hfound => exact absurd (hfails _ _ rfl) hfirst.ne_nil
  | @next x skipped v z found hskips hfirst hfound ih =>
      generalize hy : skipped ++ (v ++ z) = y at h'
      cases h' with
      | none hfails => exact absurd (hfails _ _ hy.symm) hfirst.ne_nil
      | next hskips' hfirst' hfound' =>
          have hle := hskips.length_le hy hfirst'.ne_nil
          have hge := hskips'.length_le hy.symm hfirst.ne_nil
          obtain ⟨rfl, hrest⟩ := List.append_inj hy (by omega)
          rw [← hrest] at hfirst'
          obtain ⟨hv, rfl⟩ := between_inj (hfirst.unique hfirst')
          obtain rfl := List.append_cancel_left hv
          rw [ih hfound']

/-- There is one match only, which is not preceded or followed by another. -/
theorem matchAll_eq_singleton {v z : List Char} (h : Consumes r) (hskips : Skips r [] x (v ++ z))
    (hfirst : First r (between x (v ++ z)) (between (x ++ v) z)) (hfails : Fails r (x ++ v) z) :
    matchAll r (x ++ (v ++ z)) = [⟨x, v, z⟩] :=
  (matchAll_spec h _).unique (.next hskips hfirst (.none hfails))

theorem matchAll_eq_nil (h : Consumes r) (hfails : Fails r [] text) : matchAll r text = [] :=
  (matchAll_spec h text).unique (.none hfails)

/-- What surrounds the only match of a text. -/
theorem of_matchAll_eq_singleton {m : Match} (h : Consumes r) (hm : matchAll r text = [m]) :
    text = m.before ++ (m.text ++ m.after) ∧ Skips r [] m.before (m.text ++ m.after) ∧
      First r (between m.before (m.text ++ m.after)) (between (m.before ++ m.text) m.after) ∧
      Fails r (m.before ++ m.text) m.after := by
  have hfinds := matchAll_spec h text
  rw [hm] at hfinds
  cases hfinds with
  | next hskips hfirst hfound =>
      cases hfound with
      | none hfails => exact ⟨rfl, hskips, hfirst, hfails⟩

/-- A match that is found is a match at its place. -/
theorem Finds.first {m : Match} (h : Finds r x y found) (hm : m ∈ found) :
    x ++ y = m.before ++ (m.text ++ m.after) ∧
      First r (between m.before (m.text ++ m.after)) (between (m.before ++ m.text) m.after) := by
  induction h with
  | none => cases hm
  | next hskips hfirst hfound ih =>
      rcases List.mem_cons.mp hm with rfl | hm
      · exact ⟨by simp, hfirst⟩
      · obtain ⟨hsplit, hfirst⟩ := ih hm
        exact ⟨by simpa using hsplit, hfirst⟩

/-- A match that could begin at a place does so, or is covered by another one in part. -/
theorem Finds.covers {p q : List Char} (h : Finds r x y found) (hsplit : y = p ++ q)
    (hne : r.ends (between (x ++ p) q) ≠ []) :
    ∃ m ∈ found, ∃ u v, m.text = u ++ v ∧ v ≠ [] ∧ m.before ++ u = x ++ p := by
  induction h generalizing p with
  | none hfails => exact absurd (hfails _ _ hsplit) hne
  | @next x skipped v z found hskips hfirst hfound ih =>
      have hle := hskips.length_le hsplit hne
      obtain ⟨w, rfl, hw⟩ : ∃ w, p = skipped ++ w ∧ v ++ z = w ++ q := by
        rcases List.append_eq_append_iff.mp hsplit with ⟨w, hw, hrest⟩ | ⟨w, rfl, hrest⟩
        · exact ⟨w, hw, hrest⟩
        · obtain rfl : w = [] := List.eq_nil_of_length_eq_zero (by simpa using hle)
          exact ⟨[], by simp, by simpa using hrest.symm⟩
      rcases List.append_eq_append_iff.mp hw with ⟨w, rfl, rfl⟩ | ⟨w', rfl, rfl⟩
      · obtain ⟨m, hm, u, v', htext, hv', hplace⟩ := ih rfl (by simpa using hne)
        exact ⟨m, List.mem_cons_of_mem _ hm, u, v', htext, hv', by simpa using hplace⟩
      · rcases eq_or_ne w' [] with rfl | hw'
        · obtain ⟨m, hm, u, v', htext, hv', hplace⟩ := ih (p := []) rfl (by simpa using hne)
          exact ⟨m, List.mem_cons_of_mem _ hm, u, v', htext, hv', by simpa using hplace⟩
        · exact ⟨_, List.mem_cons_self, w, w', rfl, hw', by simp⟩

end Matching

/-! Phrases between word boundaries. -/

section Phrases

variable {x y text : List Char} {d : Cursor}

/-- Texts that differ in the case of ASCII letters only. -/
def SameLetters (v w : List Char) : Prop :=
  v.map Char.toLower = w.map Char.toLower

/-- A phrase stands in a text as whole words, in any case. -/
def Stands (phrase : String) (text : List Char) : Prop :=
  ∃ x v z, text = x ++ (v ++ z) ∧ SameLetters v phrase.toList ∧
    x.getLast?.any isWordChar = false ∧ z.head?.any isWordChar = false

/-- `\b(?:...)\b` -/
def wholePhrases (phrases : List String) : Regex :=
  .all [.wordBoundary, .oneOf (phrases.map .literalIgnoreCase), .wordBoundary]

/-- The phrase begins and ends with characters of words. -/
def Bounded (phrase : String) : Prop :=
  phrase.toList.head?.any isWordChar = true ∧ phrase.toList.getLast?.any isWordChar = true

instance (phrase : String) : Decidable (Bounded phrase) :=
  inferInstanceAs (Decidable (_ ∧ _))

theorem isAsciiUpper_eq (c : Char) : isAsciiUpper c = c.isUpper := by
  simp [isAsciiUpper, Char.isUpper, Char.le_def]

theorem isAsciiLower_eq (c : Char) : isAsciiLower c = c.isLower := by
  simp [isAsciiLower, Char.isLower, Char.le_def]

theorem isWordChar_toLower (c : Char) : isWordChar c.toLower = isWordChar c := by
  by_cases hupper : c.isUpper = true
  · simp [isWordChar, isAsciiLower_eq, isAsciiUpper_eq, Char.isAlpha, hupper]
  · rw [Char.toLower_eq_of_not_isUpper hupper]

theorem SameLetters.any_head? {v w : List Char} (h : SameLetters v w) :
    v.head?.any isWordChar = w.head?.any isWordChar := by
  have hhead := congrArg (fun u => u.head?.any isWordChar) h
  simpa [List.head?_map, Option.any_map, Function.comp_def, isWordChar_toLower] using hhead

theorem SameLetters.any_getLast? {v w : List Char} (h : SameLetters v w) :
    v.getLast?.any isWordChar = w.getLast?.any isWordChar := by
  have hlast := congrArg (fun u => u.getLast?.any isWordChar) h
  simpa [List.getLast?_map, Option.any_map, Function.comp_def, isWordChar_toLower] using hlast

theorem SameLetters.wordChars {v w : List Char} (h : SameLetters v w)
    (hw : ∀ c ∈ w, isWordChar c = true) : ∀ c ∈ v, isWordChar c = true := by
  intro c hc
  have hmem : c.toLower ∈ w.map Char.toLower := h ▸ List.mem_map_of_mem hc
  obtain ⟨d, hd, hlower⟩ := List.mem_map.mp hmem
  rw [← isWordChar_toLower, ← hlower, isWordChar_toLower, hw d hd]

theorem mem_ends_wholePhrases {phrases : List String} (h : ∀ phrase ∈ phrases, Bounded phrase) :
    d ∈ (wholePhrases phrases).ends (between x y) ↔ ∃ phrase ∈ phrases, ∃ v z, y = v ++ z ∧
      SameLetters v phrase.toList ∧ x.getLast?.any isWordChar = false ∧
        z.head?.any isWordChar = false ∧ d = between (x ++ v) z := by
  have hbounds {phrase v z} (hphrase : phrase ∈ phrases) (hv : SameLetters v phrase.toList) :
      (between x (v ++ z)).atWordBoundary = !x.getLast?.any isWordChar ∧
        (between (x ++ v) z).atWordBoundary = !z.head?.any isWordChar := by
    obtain ⟨hhead, hlast⟩ := h phrase hphrase
    rw [← hv.any_head?] at hhead
    rw [← hv.any_getLast?] at hlast
    have hne : v ≠ [] := by
      rintro rfl
      cases hhead
    rw [atWordBoundary_between, atWordBoundary_between, List.head?_append_of_ne_nil _ hne,
      List.getLast?_append_of_ne_nil _ hne, hhead, hlast]
    simp
  simp only [wholePhrases, Regex.all, mem_ends_seq, mem_ends_wordBoundary]
  constructor
  · rintro ⟨_, ⟨rfl, hstart⟩, _, he, rfl, hend⟩
    obtain ⟨_, hword, he⟩ := mem_ends_oneOf.mp he
    obtain ⟨phrase, hphrase, rfl⟩ := List.mem_map.mp hword
    obtain ⟨v, z, rfl, hv, rfl⟩ := (mem_ends_literalIgnoreCase phrase).mp he
    rw [(hbounds hphrase hv).1] at hstart
    rw [(hbounds hphrase hv).2] at hend
    exact ⟨phrase, hphrase, v, z, rfl, hv, by simpa using hstart, by simpa using hend, rfl⟩
  · rintro ⟨phrase, hphrase, v, z, rfl, hv, hx, hz, rfl⟩
    refine ⟨_, ⟨rfl, ?_⟩, _, mem_ends_oneOf.mpr ⟨_, List.mem_map_of_mem hphrase,
      (mem_ends_literalIgnoreCase phrase).mpr ⟨v, z, rfl, hv, rfl⟩⟩, rfl, ?_⟩
    · rw [(hbounds hphrase hv).1, hx, Bool.not_false]
    · rw [(hbounds hphrase hv).2, hz, Bool.not_false]

/-- A text is tested for phrases that stand in it. -/
theorem test_wholePhrases {phrases : List String} (h : ∀ phrase ∈ phrases, Bounded phrase) :
    test (wholePhrases phrases) text = true ↔ ∃ phrase ∈ phrases, Stands phrase text := by
  simp only [test_iff, ne_eq, List.eq_nil_iff_forall_not_mem, not_forall, not_not,
    mem_ends_wholePhrases h]
  constructor
  · rintro ⟨x, _, rfl, _, phrase, hphrase, v, z, rfl, hv, hx, hz, -⟩
    exact ⟨phrase, hphrase, x, v, z, rfl, hv, hx, hz⟩
  · rintro ⟨phrase, hphrase, x, v, z, rfl, hv, hx, hz⟩
    exact ⟨x, v ++ z, rfl, _, phrase, hphrase, v, z, rfl, hv, hx, hz, rfl⟩

theorem consumes_wholePhrases {phrases : List String}
    (h : ∀ phrase ∈ phrases, Bounded phrase) : Consumes (wholePhrases phrases) := by
  intro x y hmem
  obtain ⟨phrase, hphrase, v, z, rfl, hv, -, -, hsame⟩ := (mem_ends_wholePhrases h).mp hmem
  obtain ⟨hhead, -⟩ := h phrase hphrase
  obtain rfl : v = [] := by simpa using (between_inj hsame).1
  rw [← hv.any_head?] at hhead
  cases hhead

/-- Words of one length are found wherever they stand in a text. -/
theorem exists_matchAll_iff {words : List String} {word : String} {n : Nat}
    (hbounded : ∀ word ∈ words, Bounded word)
    (hwords : ∀ word ∈ words, word.toList.length = n ∧ word.toList.all isWordChar = true)
    (hword : word ∈ words) :
    (∃ m ∈ matchAll (wholePhrases words) text, SameLetters m.text word.toList) ↔
      Stands word text := by
  have hfinds := matchAll_spec (consumes_wholePhrases hbounded) text
  constructor
  · rintro ⟨m, hm, hsame⟩
    obtain ⟨rfl, hfirst⟩ := hfinds.first hm
    obtain ⟨_, _, v, z, hsplit, -, hx, hz, hd⟩ := (mem_ends_wholePhrases hbounded).mp hfirst.mem
    obtain ⟨-, rfl⟩ := between_inj hd
    exact ⟨m.before, m.text, m.after, rfl, hsame, hx, hz⟩
  · rintro ⟨x, v, z, rfl, hv, hx, hz⟩
    have hplace : between (x ++ v) z ∈ (wholePhrases words).ends (between x (v ++ z)) :=
      (mem_ends_wholePhrases hbounded).mpr ⟨word, hword, v, z, rfl, hv, hx, hz, rfl⟩
    obtain ⟨m, hm, u, v', htext, -, hbefore⟩ :=
      hfinds.covers (p := x) rfl (List.ne_nil_of_mem hplace)
    obtain ⟨hwhole, hfirst⟩ := hfinds.first hm
    obtain ⟨word', hword', w, z', hsplit, hw, -, -, hd⟩ :=
      (mem_ends_wholePhrases hbounded).mp hfirst.mem
    obtain ⟨hsame, rfl⟩ := between_inj hd
    obtain rfl := List.append_cancel_left hsame
    have hlength {v : List Char} {word : String} (h : SameLetters v word.toList)
        (hword : word ∈ words) : v.length = n := by
      rw [← (hwords word hword).1, ← List.length_map Char.toLower, h, List.length_map]
    -- a match that covers the place in part would put a character of a word before it
    have hu : u = [] := by
      by_contra hne
      have hlast : u.getLast hne ∈ m.text := htext ▸ List.mem_append_left v' (List.getLast_mem hne)
      rw [← List.nil_append x, ← hbefore, List.getLast?_append_of_ne_nil _ hne,
        List.getLast?_eq_some_getLast hne, Option.any_some,
        hw.wordChars (List.all_eq_true.mp (hwords word' hword').2) _ hlast] at hx
      cases hx
    subst hu
    obtain rfl : m.before = x := by simpa using hbefore
    have hrest : v ++ z = m.text ++ m.after := List.append_cancel_left hwhole
    obtain ⟨rfl, -⟩ := List.append_inj hrest ((hlength hv hword).trans (hlength hw hword').symm)
    exact ⟨m, hm, hv⟩

end Phrases

end PriceScout.Library.Searches
