import Mathlib.Tactic.FieldSimp
import Mathlib.Tactic.NormNum
import Mathlib.Tactic.Ring
import PriceScout.Library.Numbers

/-!
Rounding to binary numbers keeps the order and keeps what it has rounded. The
literal that is printed of an integer reads back as it, and is one of an
integer as long as the integer has fewer than twenty digits.
-/

namespace PriceScout.Library.Rounding

open PriceScout.Library.JsonDocuments
open PriceScout.Library.Numbers

theorem roundHalfEven_intCast (m : ℤ) : roundHalfEven m = m := by
  simp [roundHalfEven]

theorem floor_le_roundHalfEven (q : ℚ) : ⌊q⌋ ≤ roundHalfEven q := by
  unfold roundHalfEven
  split_ifs <;> omega

theorem roundHalfEven_le_floor_add_one (q : ℚ) : roundHalfEven q ≤ ⌊q⌋ + 1 := by
  unfold roundHalfEven
  split_ifs <;> omega

theorem roundHalfEven_mono {p q : ℚ} (h : p ≤ q) : roundHalfEven p ≤ roundHalfEven q := by
  rcases (Int.floor_le_floor h).lt_or_eq with hlt | heq
  · calc roundHalfEven p ≤ ⌊p⌋ + 1 := roundHalfEven_le_floor_add_one p
      _ ≤ ⌊q⌋ := hlt
      _ ≤ roundHalfEven q := floor_le_roundHalfEven q
  · have hfract : p - ⌊p⌋ ≤ q - ⌊q⌋ := by
      rw [heq]
      linarith
    unfold roundHalfEven
    rw [heq] at hfract ⊢
    split_ifs <;> first | omega | linarith

theorem two_zpow_pos (e : ℤ) : (0 : ℚ) < 2 ^ e :=
  zpow_pos (by norm_num) e

/-- A power of two as a multiple of a smaller one. -/
theorem two_zpow_split {e u : ℤ} (h : u ≤ e) :
    (2 : ℚ) ^ e = ((2 ^ (e - u).toNat : ℤ) : ℚ) * 2 ^ u := by
  have hsum : e = ((e - u).toNat : ℤ) + u := by omega
  conv_lhs => rw [hsum, zpow_add₀ (by norm_num)]
  push_cast
  rw [zpow_natCast]

theorem unitExponent_le {q : ℚ} : -1074 ≤ unitExponent q :=
  le_max_right _ _

theorem unitExponent_mono {p q : ℚ} (hp : 0 < p) (h : p ≤ q) : unitExponent p ≤ unitExponent q :=
  max_le_max_right _ (Int.sub_le_sub_right (Int.log_mono_right hp h) 52)

section Units

variable {q : ℚ} {u : ℤ}

/-- Rounding to multiples of a unit does not cross one of them. -/
theorem round_mul_le {m : ℤ} (h : q ≤ m * 2 ^ u) :
    roundHalfEven (q / 2 ^ u) * 2 ^ u ≤ (m : ℚ) * 2 ^ u := by
  have hdiv : q / 2 ^ u ≤ m := (div_le_iff₀ (two_zpow_pos u)).mpr h
  have hround := roundHalfEven_mono hdiv
  rw [roundHalfEven_intCast] at hround
  exact mul_le_mul_of_nonneg_right (by exact_mod_cast hround) (two_zpow_pos u).le

theorem le_round_mul {m : ℤ} (h : (m : ℚ) * 2 ^ u ≤ q) :
    (m : ℚ) * 2 ^ u ≤ roundHalfEven (q / 2 ^ u) * 2 ^ u := by
  have hdiv : (m : ℚ) ≤ q / 2 ^ u := (le_div_iff₀ (two_zpow_pos u)).mpr h
  have hround := roundHalfEven_mono hdiv
  rw [roundHalfEven_intCast] at hround
  exact mul_le_mul_of_nonneg_right (by exact_mod_cast hround) (two_zpow_pos u).le

/-- A multiple of its own unit is rounded to itself. -/
theorem nearest_of_multiple {m : ℤ} (h : q = m * 2 ^ unitExponent q) : nearest q = q := by
  have hdiv : q / 2 ^ unitExponent q = m := by
    rw [div_eq_iff (two_zpow_pos _).ne']
    exact h
  unfold nearest
  rw [hdiv, roundHalfEven_intCast]
  exact h.symm

end Units

theorem nearest_zero : nearest 0 = 0 := by
  simp [nearest, roundHalfEven]

theorem zpow_log_le {q : ℚ} (h : 0 < q) : (2 : ℚ) ^ Int.log 2 q ≤ q := by
  exact_mod_cast Int.zpow_log_le_self (R := ℚ) (b := 2) (by norm_num) h

theorem lt_zpow_log (q : ℚ) : q < (2 : ℚ) ^ (Int.log 2 q + 1) := by
  exact_mod_cast Int.lt_zpow_succ_log_self (R := ℚ) (b := 2) (by norm_num) q

theorem zpow_le_nearest {q : ℚ} (hq : 0 < q) (hunit : unitExponent q ≤ Int.log 2 q) :
    2 ^ Int.log 2 q ≤ nearest q := by
  rw [two_zpow_split hunit]
  refine le_round_mul ?_
  rw [← two_zpow_split hunit]
  exact zpow_log_le hq

theorem nearest_mono {p q : ℚ} (hp : 0 < p) (h : p ≤ q) : nearest p ≤ nearest q := by
  have hq : 0 < q := hp.trans_le h
  rcases (unitExponent_mono hp h).eq_or_lt with hsame | hless
  · -- both are multiples of one unit
    unfold nearest
    rw [hsame]
    refine mul_le_mul_of_nonneg_right ?_ (two_zpow_pos _).le
    exact_mod_cast roundHalfEven_mono (div_le_div_of_nonneg_right h (two_zpow_pos _).le)
  · -- the power of two below `q` lies between them
    have hunit : unitExponent q = Int.log 2 q - 52 := by
      have := unitExponent_le (q := p)
      unfold unitExponent at this hless ⊢
      omega
    have hbound : p ≤ 2 ^ Int.log 2 q := by
      have hlog : Int.log 2 p + 1 ≤ Int.log 2 q := by
        unfold unitExponent at hless
        omega
      exact (lt_zpow_log p).le.trans (zpow_le_zpow_right₀ (by norm_num) hlog)
    have hsplit : unitExponent p ≤ Int.log 2 q := by omega
    calc nearest p ≤ 2 ^ Int.log 2 q := by
          rw [two_zpow_split hsplit] at hbound ⊢
          exact round_mul_le hbound
      _ ≤ nearest q := zpow_le_nearest hq (by omega)

/-- A number of 53 bits at most is not rounded beyond the next power of two. -/
theorem nearest_le_unit (q : ℚ) : nearest q ≤ 2 ^ (unitExponent q + 53) := by
  rw [two_zpow_split (by omega : unitExponent q ≤ unitExponent q + 53)]
  refine round_mul_le ?_
  rw [← two_zpow_split (by omega)]
  refine (lt_zpow_log q).le.trans (zpow_le_zpow_right₀ (by norm_num) ?_)
  unfold unitExponent
  omega

theorem nearest_nonneg {q : ℚ} (h : 0 ≤ q) : 0 ≤ nearest q := by
  have hzero : ((0 : ℤ) : ℚ) * 2 ^ unitExponent q ≤ q := by simpa using h
  have hround := le_round_mul hzero
  rwa [Int.cast_zero, zero_mul] at hround

/-- A rounded number is not rounded again. -/
theorem nearest_nearest {q : ℚ} (h : 0 ≤ q) : nearest (nearest q) = nearest q := by
  rcases (nearest_nonneg h).eq_or_lt with hzero | hpos
  · rw [← hzero, nearest_zero]
  · rcases le_or_gt (unitExponent (nearest q)) (unitExponent q) with hle | hlt
    · -- the unit of the rounded number divides the one it is a multiple of
      refine nearest_of_multiple
        (m := roundHalfEven (q / 2 ^ unitExponent q) *
          2 ^ (unitExponent q - unitExponent (nearest q)).toNat) ?_
      have hsplit := two_zpow_split hle
      push_cast at hsplit ⊢
      rw [mul_assoc, ← hsplit]
      rfl
    · -- rounding has reached the next power of two
      have hunit : unitExponent (nearest q) = Int.log 2 (nearest q) - 52 := by
        have := unitExponent_le (q := q)
        unfold unitExponent at this hlt ⊢
        omega
      have hpower : nearest q = 2 ^ Int.log 2 (nearest q) := by
        refine le_antisymm ?_ (zpow_log_le hpos)
        refine (nearest_le_unit q).trans (zpow_le_zpow_right₀ (by norm_num) ?_)
        omega
      refine nearest_of_multiple (m := 2 ^ 52) ?_
      have hsplit := two_zpow_split (by omega : unitExponent (nearest q) ≤ Int.log 2 (nearest q))
      rw [show (Int.log 2 (nearest q) - unitExponent (nearest q)).toNat = 52 by omega] at hsplit
      exact hpower.trans hsplit

/-- Small integers are numbers. -/
theorem nearest_natCast {n : ℕ} (h : n ≤ 2 ^ 53) : nearest n = n := by
  rcases Nat.eq_zero_or_pos n with rfl | hpos
  · exact_mod_cast nearest_zero
  · rcases h.eq_or_lt with rfl | hlt
    · decide +kernel
    · have hlog : Int.log 2 (n : ℚ) < 53 :=
        (Int.lt_zpow_iff_log_lt (by norm_num) (by exact_mod_cast hpos)).mp (by exact_mod_cast hlt)
      have hunit : unitExponent (n : ℚ) ≤ 0 := by
        unfold unitExponent
        omega
      refine nearest_of_multiple (m := n * 2 ^ (0 - unitExponent (n : ℚ)).toNat) ?_
      have hsplit := two_zpow_split hunit
      rw [zpow_zero] at hsplit
      push_cast at hsplit ⊢
      rw [mul_assoc, ← hsplit, mul_one]

/-- Whole numbers beyond the small ones stay beyond them. -/
theorem le_nearest_natCast {n : ℕ} (h : 2 ^ 53 ≤ n) : (2 : ℚ) ^ 53 ≤ nearest n := by
  calc (2 : ℚ) ^ 53 = nearest ((2 ^ 53 : ℕ) : ℚ) := by
        rw [nearest_natCast le_rfl]
        norm_num
    _ ≤ nearest n := nearest_mono (by norm_num) (by exact_mod_cast h)

section Printing

variable {v : ℚ} {d : Decimal}

theorem spell_some {e : ℤ} (h : spell v e = some d) : nearest d.value = v ∧ d.exponent = e := by
  unfold spell at h
  dsimp only at h
  split at h
  · rename_i hbelow habove
    obtain rfl := Option.some.inj h
    split
    · exact ⟨of_decide_eq_true habove, rfl⟩
    · exact ⟨of_decide_eq_true hbelow, rfl⟩
  · rename_i hbelow _
    obtain rfl := Option.some.inj h
    exact ⟨of_decide_eq_true hbelow, rfl⟩
  · rename_i _ habove
    obtain rfl := Option.some.inj h
    exact ⟨of_decide_eq_true habove, rfl⟩
  · cases h

theorem spell_zero_ne_none {n : ℕ} (h : nearest n = n) : spell (n : ℚ) 0 ≠ none := by
  have hvalue : Decimal.value ⟨⌊(n : ℚ) / 10 ^ (0 : ℤ)⌋.toNat, 0⟩ = n := by
    simp [Decimal.value]
  unfold spell
  simp only [hvalue, h, decide_true]
  split <;> simp_all

theorem shortest_eq (v : ℚ) :
    shortest v = ((List.range 22).findSome? fun k : ℕ =>
      spell v (pointPosition v - ((k : ℤ) + 1))).getD { digits := ⌊v⌋.toNat, exponent := 0 } := by
  unfold shortest
  rw [show (do let k ← List.range 22; pure (k : ℤ)) = (List.range 22).map fun k => (k : ℤ) by rfl,
    List.findSome?_map]
  rfl

/-- Printing looks for a decimal that reads back as the number, the shorter first. -/
theorem shortest_cases (v : ℚ) :
    (∃ k : ℕ, spell v (pointPosition v - ((k : ℤ) + 1)) = some (shortest v) ∧
      ∀ j < k, spell v (pointPosition v - ((j : ℤ) + 1)) = none) ∨
    shortest v = { digits := ⌊v⌋.toNat, exponent := 0 } := by
  rw [shortest_eq]
  cases hfind : (List.range 22).findSome? fun k : ℕ =>
      spell v (pointPosition v - ((k : ℤ) + 1)) with
  | none => exact Or.inr rfl
  | some d =>
      obtain ⟨before, k, after, hrange, hspell, hnone⟩ := List.findSome?_eq_some_iff.mp hfind
      refine Or.inl ⟨k, hspell, fun j hj => hnone j ?_⟩
      rw [List.range_eq_range'] at hrange
      obtain ⟨n, -, rfl, hafter⟩ := List.range'_eq_append_iff.mp hrange
      have hk := (List.range'_eq_cons_iff.mp hafter.symm).1
      rw [List.mem_range'_1]
      omega

/-- A printed decimal of an integer reads back as it, or is it. -/
theorem shortest_reads_back (n : ℕ) :
    nearest (shortest n).value = n ∨ (shortest n).value = n := by
  rcases shortest_cases (n : ℚ) with ⟨k, hspell, -⟩ | hfallback
  · exact Or.inl (spell_some hspell).1
  · refine Or.inr ?_
    rw [hfallback]
    simp [Decimal.value]

theorem value_nonneg (d : Decimal) : 0 ≤ d.value := by
  unfold Decimal.value
  positivity

theorem value_shortest_pos {n : ℕ} (hn : 1 ≤ n) : 0 < (shortest n).value := by
  refine (value_nonneg _).lt_of_ne fun hzero => ?_
  have hn' : (n : ℚ) ≠ 0 := by exact_mod_cast (by omega : n ≠ 0)
  rcases shortest_reads_back n with h | h
  · rw [← hzero, nearest_zero] at h
    exact hn' h.symm
  · exact hn' (h ▸ hzero.symm)

theorem nearest_limit : nearest (2 ^ 63) = 2 ^ 63 := by
  decide +kernel

theorem limit_le_shortest : (2 : ℚ) ^ 63 ≤ (shortest (2 ^ 63)).value := by
  decide +kernel

/-- Printing does not move an integer across the limit of 64-bit integers. -/
theorem value_shortest_lt_iff {n : ℕ} (hn : 1 ≤ n) :
    (shortest n).value < 2 ^ 63 ↔ (n : ℚ) < 2 ^ 63 := by
  rcases shortest_reads_back n with h | h
  · constructor
    · intro hlt
      have hle : (n : ℚ) ≤ 2 ^ 63 := by
        calc (n : ℚ) = nearest (shortest n).value := h.symm
          _ ≤ nearest (2 ^ 63) := nearest_mono (value_shortest_pos hn) hlt.le
          _ = 2 ^ 63 := nearest_limit
      refine hle.lt_of_ne fun hsame => ?_
      rw [hsame] at hlt
      exact absurd limit_le_shortest (not_le.mpr hlt)
    · intro hlt
      by_contra hge
      have hle : (2 : ℚ) ^ 63 ≤ n := by
        calc (2 : ℚ) ^ 63 = nearest (2 ^ 63) := nearest_limit.symm
          _ ≤ nearest (shortest n).value := nearest_mono (by norm_num) (not_lt.mp hge)
          _ = n := h
      exact absurd hlt (not_lt.mpr hle)
  · rw [h]

/-- An integer is printed without digits after the decimal point. -/
theorem exponent_shortest_nonneg {n : ℕ} (hn : 1 ≤ n) : 0 ≤ (shortest n).exponent := by
  rcases shortest_cases (n : ℚ) with ⟨k, hspell, hbefore⟩ | hfallback
  · obtain ⟨hreads, hexponent⟩ := spell_some hspell
    rw [hexponent]
    by_contra hneg
    have hn' : (1 : ℚ) ≤ n := by exact_mod_cast hn
    have hlog : 0 ≤ Int.log 10 (n : ℚ) := by
      rw [Int.log_natCast]
      exact Int.natCast_nonneg _
    have hexact : nearest (n : ℚ) = n := by
      rw [← hreads]
      exact nearest_nearest (value_nonneg _)
    refine spell_zero_ne_none hexact ?_
    have hzero := hbefore (Int.log 10 (n : ℚ)).toNat (by
      unfold pointPosition at hneg
      omega)
    rwa [show pointPosition (n : ℚ) - (((Int.log 10 (n : ℚ)).toNat : ℤ) + 1) = 0 by
      unfold pointPosition
      omega] at hzero
  · rw [hfallback]

end Printing

section Literals

theorem stripZeros_spec (k : ℕ) (d : Decimal) :
    (Decimal.stripZeros k d).value = d.value ∧ d.exponent ≤ (Decimal.stripZeros k d).exponent := by
  induction k generalizing d with
  | zero => exact ⟨rfl, le_rfl⟩
  | succ k ih =>
      unfold Decimal.stripZeros
      split
      · rename_i hlast
        obtain ⟨hvalue, hexponent⟩ := ih ⟨d.digits / 10, d.exponent + 1⟩
        refine ⟨hvalue.trans ?_, by
          simp only at hexponent
          omega⟩
        have hdigits : (d.digits : ℚ) = 10 * ((d.digits / 10 : ℕ) : ℚ) := by
          exact_mod_cast (by omega : d.digits = 10 * (d.digits / 10))
        simp only [Decimal.value, zpow_add₀ (by norm_num : (10 : ℚ) ≠ 0), zpow_one]
        rw [hdigits]
        ring
      · exact ⟨rfl, le_rfl⟩

theorem value_of_exponent_nonneg {d : Decimal} (h : 0 ≤ d.exponent) :
    d.value = ((d.digits * 10 ^ d.exponent.toNat : ℕ) : ℚ) := by
  unfold Decimal.value
  conv_lhs => rw [← Int.toNat_of_nonneg h]
  push_cast
  rw [zpow_natCast]

/-- A literal is a 64-bit integer only if its value is one. -/
theorem value_of_int64?_literal {d : Decimal} {k : ℤ} (h : d.literal.int64? = some k) :
    d.value = k ∧ k < 2 ^ 63 := by
  unfold Decimal.literal at h
  dsimp only at h
  split at h
  · rename_i hinteger
    simp only [Json.int64?, Option.ite_none_right_eq_some, Option.some.injEq] at h
    obtain ⟨⟨-, hlt⟩, rfl⟩ := h
    refine ⟨?_, hlt⟩
    rw [value_of_exponent_nonneg hinteger.1]
    push_cast
    rfl
  · split at h
    · rename_i hfraction
      obtain ⟨scale, hscale⟩ : ∃ scale, (-d.exponent).toNat = scale + 1 :=
        ⟨(-d.exponent).toNat - 1, by omega⟩
      simp [hscale, Json.int64?] at h
    · simp [Json.int64?] at h

theorem int64?_literal {d : Decimal} (hexponent : 0 ≤ d.exponent) (hpos : 0 < d.value)
    (hlt : d.value < 2 ^ 63) :
    d.literal.int64? = some ((d.digits * 10 ^ d.exponent.toNat : ℕ) : ℤ) := by
  rw [value_of_exponent_nonneg hexponent] at hpos hlt
  have hlt' : d.digits * 10 ^ d.exponent.toNat < 2 ^ 63 := by exact_mod_cast hlt
  have hdigits : d.digits ≠ 0 := by
    rintro hzero
    simp [hzero] at hpos
  have hpow : 10 ^ d.exponent.toNat < 10 ^ 19 :=
    calc 10 ^ d.exponent.toNat ≤ d.digits * 10 ^ d.exponent.toNat :=
          Nat.le_mul_of_pos_left _ (Nat.pos_of_ne_zero hdigits)
      _ < 10 ^ 19 := hlt'.trans (by norm_num)
  have he : d.exponent.toNat < 19 := (Nat.pow_lt_pow_iff_right (by norm_num)).mp hpow
  have hcount : (Nat.toDigits 10 d.digits).length ≤ 19 - d.exponent.toNat := by
    rw [Nat.length_toDigits_le_iff (by norm_num) (by omega)]
    have hprod : d.digits * 10 ^ d.exponent.toNat < 10 ^ (19 - d.exponent.toNat) *
        10 ^ d.exponent.toNat := by
      rw [← Nat.pow_add, Nat.sub_add_cancel he.le]
      exact hlt'.trans (by norm_num)
    exact Nat.lt_of_mul_lt_mul_right hprod
  unfold Decimal.literal
  rw [if_pos ⟨hexponent, by omega⟩]
  simp only [Json.int64?]
  rw [if_pos ⟨(by norm_num : -(2 ^ 63 : ℤ) ≤ 0).trans (by positivity), by exact_mod_cast hlt'⟩]
  push_cast
  rfl

end Literals

/-- **A positive integer is printed as a 64-bit integer just when it is one.** -/
theorem int64?_json_iff {n : ℕ} (hn : 1 ≤ n) :
    (∃ k, (Number.finite n).json.int64? = some k) ↔ n < 2 ^ 63 := by
  have hne : (n : ℚ) ≠ 0 := by exact_mod_cast (by omega : n ≠ 0)
  obtain ⟨hvalue, hexponent⟩ := stripZeros_spec 22 (shortest n)
  have hlimit : (shortest n).value < 2 ^ 63 ↔ n < 2 ^ 63 := by
    rw [value_shortest_lt_iff hn]
    exact_mod_cast Iff.rfl
  simp only [Number.json, hne, if_false]
  constructor
  · rintro ⟨k, hk⟩
    obtain ⟨hsame, hlt⟩ := value_of_int64?_literal hk
    rw [← hlimit, ← hvalue, hsame]
    exact_mod_cast hlt
  · intro hlt
    exact ⟨_, int64?_literal ((exponent_shortest_nonneg hn).trans hexponent)
      (hvalue ▸ value_shortest_pos hn) (hvalue ▸ hlimit.mpr hlt)⟩

/-- What is printed of a positive integer is positive. -/
theorem pos_of_int64?_json {n : ℕ} (hn : 1 ≤ n) {k : ℤ}
    (h : (Number.finite n).json.int64? = some k) : 0 < k := by
  have hne : (n : ℚ) ≠ 0 := by exact_mod_cast (by omega : n ≠ 0)
  simp only [Number.json, hne, if_false] at h
  have hpos := value_shortest_pos hn
  rw [← (stripZeros_spec 22 (shortest n)).1, (value_of_int64?_literal h).1] at hpos
  exact_mod_cast hpos

end PriceScout.Library.Rounding
