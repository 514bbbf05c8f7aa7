import PriceScout.Library.Searches
import PriceScout.Worker.Validation

/-!
What the pattern of the amounts covers in a text.
-/

namespace PriceScout.Worker.AmountShapes

open PriceScout.Library.JsStrings
open PriceScout.Library.RegularExpressions
open PriceScout.Library.Searches
open PriceScout.Worker.Validation

/-- What follows the digits of an amount: no digit. -/
def NoDigit (y : List Char) : Prop :=
  ∀ c ∈ y.head?, isAsciiDigit c = false

def DigitFree (z : List Char) : Prop :=
  ∀ c ∈ z, isAsciiDigit c = false

/-- A text goes on with a separator and three digits. -/
def Grouped (p : Char → Bool) (y : List Char) : Prop :=
  ∃ c group z, y = c :: (group ++ z) ∧ p c = true ∧ group.length = 3 ∧
    ∀ d ∈ group, isAsciiDigit d = true

def isPoint (c : Char) : Bool :=
  c = '.' || c = ','

/-- A class of separators. -/
def Separates (p : Char → Bool) : Prop :=
  ∀ c, p c = true → c ∈ [' ', '.', ',']

/-- `(?:[...]\d{3})` -/
def group (p : Char → Bool) : Regex :=
  .seq (.charClass p) (.times 3 .digit)

/-- The text of chunks after their separators. -/
def chunksText (chunks : List (Char × List Char)) : List Char :=
  chunks.flatMap fun chunk => chunk.1 :: chunk.2

/-- Separators of one class with three digits each. -/
def Chunks (p : Char → Bool) (chunks : List (Char × List Char)) : Prop :=
  ∀ chunk ∈ chunks, p chunk.1 = true ∧ chunk.2.length = 3 ∧
    ∀ c ∈ chunk.2, isAsciiDigit c = true

/-- Two decimals at most after a point, or nothing. -/
structure Decimals (point : Char) (fraction : List Char) : Prop where
  point_mem : point ∈ ['.', ',']
  digits : ∀ c ∈ fraction, isAsciiDigit c = true
  short : fraction.length ≤ 2

/-- The text of decimals after their point. -/
def decimalsText (point : Char) (fraction : List Char) : List Char :=
  if fraction = [] then [] else point :: fraction

/-- The parts of a text that the pattern covers. -/
structure Covered (text : List Char) (lead : List Char) (chunks : List (Char × List Char))
    (point : Char) (fraction : List Char) : Prop where
  text_eq : text = lead ++ (chunksText chunks ++ decimalsText point fraction)
  lead_digits : ∀ c ∈ lead, isAsciiDigit c = true
  lead_ne : lead ≠ []
  lead_short : chunks ≠ [] → lead.length ≤ 3
  chunks : Chunks (fun c => decide (c = ' ')) chunks ∨ Chunks isPoint chunks
  decimals : Decimals point fraction

section Pattern

variable {x y z : List Char} {p : Char → Bool}

theorem separator_not_digit {c : Char} (h : c ∈ [' ', '.', ',']) : isAsciiDigit c = false := by
  simp only [List.mem_cons, List.not_mem_nil, or_false] at h
  rcases h with rfl | rfl | rfl <;> rfl

theorem Separates.not_of_digit (h : Separates p) {c : Char} (hc : isAsciiDigit c = true) :
    p c = false := by
  by_contra hp
  rw [separator_not_digit (h c (Bool.eq_true_of_not_eq_false hp))] at hc
  cases hc

theorem separates_space : Separates fun c => decide (c = ' ') := by
  intro c hc
  simpa using Or.inl (of_decide_eq_true hc)

theorem separates_point : Separates isPoint := by
  intro c hc
  simpa [isPoint] using Or.inr hc

theorem ends_group (h : ¬ Grouped p y) : (group p).ends (between x y) = [] := by
  rw [List.eq_nil_iff_forall_not_mem]
  intro d hd
  obtain ⟨_, he, hd⟩ := mem_ends_seq.mp hd
  obtain ⟨c, y, rfl, hc, rfl⟩ := mem_ends_charClass.mp he
  obtain ⟨v, z, rfl, hlength, hv, -⟩ := (mem_ends_times 3).mp hd
  exact h ⟨c, v, z, rfl, hc, hlength, hv⟩

theorem first_digits {v : List Char} {n extra : Nat} (hv : ∀ c ∈ v, isAsciiDigit c = true)
    (hle : n ≤ v.length) (hlength : v.length ≤ n + extra) (hz : NoDigit z) :
    First (.between n extra .digit) (between x (v ++ z)) (between (x ++ v) z) := by
  have htake : (v.take n).length = n := by simpa using hle
  have hfirst := first_times (x := x) (v := v.take n) (z := v.drop n ++ z)
    fun c hc => hv c (List.mem_of_mem_take hc)
  rw [htake, ← List.append_assoc, List.take_append_drop] at hfirst
  refine first_seq hfirst ?_
  have hrest := first_atMost (x := x ++ v.take n) (v := v.drop n) (n := extra)
    (fun c hc => hv c (List.mem_of_mem_drop hc)) (by simp; omega) hz
  rwa [List.append_assoc, List.take_append_drop] at hrest

/-- Wherever the digits before it are cut, no group follows. -/
theorem not_grouped {v u w : List Char} (hv : ∀ c ∈ v, isAsciiDigit c = true)
    (hu : ∀ c ∈ u, isAsciiDigit c = true) (hp : Separates p)
    (hz : NoDigit z) (hgroup : ¬ Grouped p z) (hsplit : v ++ z = u ++ w) : ¬ Grouped p w := by
  rintro ⟨c, group, rest, rfl, hc, hlength, hdigits⟩
  rcases List.append_eq_append_iff.mp hsplit with ⟨t, rfl, rfl⟩ | ⟨t, rfl, hw⟩
  · cases t with
    | nil => exact hgroup ⟨c, group, rest, rfl, hc, hlength, hdigits⟩
    | cons d t =>
        have hdigit := hu d (by simp)
        rw [hz d (by simp)] at hdigit
        cases hdigit
  · cases t with
    | nil => exact hgroup ⟨c, group, rest, hw.symm, hc, hlength, hdigits⟩
    | cons d t =>
        obtain ⟨rfl, -⟩ := List.cons.inj hw
        rw [hp.not_of_digit (hv c (by simp))] at hc
        cases hc

/-- Digits that no group follows do not begin a grouped amount. -/
theorem ends_lead_eq_nil {v : List Char} {r : Regex} (hv : ∀ c ∈ v, isAsciiDigit c = true)
    (hp : Separates p) (hz : NoDigit z) (hgroup : ¬ Grouped p z)
    (hr : ∀ x y, ¬ Grouped p y → r.ends (between x y) = []) {n extra : Nat} :
    (Regex.seq (.between n extra .digit) r).ends (between x (v ++ z)) = [] := by
  refine ends_seq_eq_nil_iff.mpr fun d hd => ?_
  obtain ⟨e, he, hd⟩ := mem_ends_seq.mp hd
  obtain ⟨v₁, y, hsplit, -, hv₁, rfl⟩ := (mem_ends_times n).mp he
  obtain ⟨v₂, w, rfl, -, hv₂, rfl⟩ := covers_of_mem_atMost hd
  refine hr _ _ (not_grouped (u := v₁ ++ v₂) hv ?_ hp hz hgroup (by simpa using hsplit))
  intro c hc
  rcases List.mem_append.mp hc with hc | hc
  · exact hv₁ c hc
  · exact hv₂ c hc

theorem ends_groups_eq_nil (h : ¬ Grouped p y) : (Regex.plus (group p)).ends (between x y) = [] :=
  ends_seq_of_nil (ends_group h)

theorem first_group {separator : Char} {g : List Char} (hp : p separator = true)
    (hlength : g.length = 3) (hdigits : ∀ c ∈ g, isAsciiDigit c = true) :
    First (group p) (between x (separator :: (g ++ z))) (between (x ++ separator :: g) z) := by
  have hgroup := first_seq (first_charClass (x := x) (z := g ++ z) hp)
    (first_times (x := x ++ [separator]) (z := z) hdigits)
  simp only [hlength, List.append_assoc, List.singleton_append] at hgroup
  exact hgroup

/-- Every group is taken. -/
theorem first_chunks {chunks : List (Char × List Char)} (h : Chunks p chunks)
    (hz : ¬ Grouped p z) :
    First (.star (group p)) (between x (chunksText chunks ++ z))
      (between (x ++ chunksText chunks) z) := by
  induction chunks generalizing x with
  | nil => simpa [chunksText] using first_star_of_nil (ends_group hz)
  | cons chunk chunks ih =>
      obtain ⟨⟨hp, hlength, hdigits⟩, hchunks⟩ := List.forall_mem_cons.mp h
      have hgroup := first_group (x := x) (z := chunksText chunks ++ z) hp hlength hdigits
      have hrest := ih (x := x ++ chunk.1 :: chunk.2) hchunks
      simp only [chunksText, List.flatMap_cons, List.cons_append, List.append_assoc]
        at hgroup hrest ⊢
      exact first_star hgroup (by simp) hrest

theorem first_plus_chunks {chunks : List (Char × List Char)} (h : Chunks p chunks)
    (hne : chunks ≠ []) (hz : ¬ Grouped p z) :
    First (.plus (group p)) (between x (chunksText chunks ++ z))
      (between (x ++ chunksText chunks) z) := by
  obtain ⟨chunk, chunks, rfl⟩ := List.exists_cons_of_ne_nil hne
  obtain ⟨⟨hp, hlength, hdigits⟩, hchunks⟩ := List.forall_mem_cons.mp h
  have hgroup := first_group (x := x) (z := chunksText chunks ++ z) hp hlength hdigits
  have hrest := first_chunks (x := x ++ chunk.1 :: chunk.2) hchunks hz
  simp only [chunksText, List.flatMap_cons, List.cons_append, List.append_assoc] at hgroup hrest ⊢
  exact first_seq hgroup hrest

theorem DigitFree.noDigit (h : DigitFree z) : NoDigit z :=
  fun c hc => h c (List.mem_of_mem_head? hc)

theorem DigitFree.tail {c : Char} (h : DigitFree (c :: z)) : DigitFree z :=
  fun d hd => h d (List.mem_cons_of_mem c hd)

theorem ends_numericPattern_eq_nil (h : NoDigit z) : numericPattern.ends (between x z) = [] := by
  have hdigit : Regex.digit.ends (between x z) = [] := ends_charClass_of_not h
  have hdigits : (Regex.between 1 2 .digit).ends (between x z) = [] :=
    ends_seq_of_nil (ends_seq_of_nil hdigit)
  refine List.append_eq_nil_iff.mpr ⟨ends_seq_of_nil hdigits, ends_seq_of_nil ?_⟩
  exact List.append_eq_nil_iff.mpr ⟨ends_seq_of_nil hdigits, ends_seq_of_nil hdigit⟩

theorem consumes_numericPattern : Consumes numericPattern := by
  have hdigit : Consumes .digit := consumes_charClass
  have hdigits : Consumes (.between 1 2 .digit) := hdigit.seq.seq
  exact hdigits.seq.alt (hdigits.seq.alt hdigit.seq).seq

end Pattern

section Covering

variable {p : Char → Bool} {x y z : List Char} {d : Cursor}

theorem chunk_of_mem_group (h : d ∈ (group p).ends (between x y)) :
    ∃ c v z, y = c :: (v ++ z) ∧ p c = true ∧ v.length = 3 ∧ (∀ a ∈ v, isAsciiDigit a = true) ∧
      d = between (x ++ c :: v) z := by
  obtain ⟨_, he, hd⟩ := mem_ends_seq.mp h
  obtain ⟨c, rest, rfl, hc, rfl⟩ := mem_ends_charClass.mp he
  obtain ⟨v, z, rfl, hlength, hv, rfl⟩ := (mem_ends_times 3).mp hd
  exact ⟨c, v, z, rfl, hc, hlength, hv, by simp⟩

theorem chunks_of_mem_star (h : d ∈ (Regex.star (group p)).ends (between x y)) :
    ∃ chunks z, y = chunksText chunks ++ z ∧ Chunks p chunks ∧
      d = between (x ++ chunksText chunks) z := by
  have hall := star_induction (P := fun c d => ∀ x y, c = between x y →
    ∃ chunks z, y = chunksText chunks ++ z ∧ Chunks p chunks ∧
      d = between (x ++ chunksText chunks) z) ?_ ?_ h
  · exact hall x y rfl
  · rintro _ x y rfl
    exact ⟨[], y, rfl, List.forall_mem_nil _, by simp [chunksText]⟩
  · rintro _ e d he hrest x y rfl
    obtain ⟨c, v, y, rfl, hc, hlength, hv, rfl⟩ := chunk_of_mem_group he
    obtain ⟨chunks, z, rfl, hchunks, rfl⟩ := hrest _ _ rfl
    refine ⟨(c, v) :: chunks, z, by simp [chunksText], ?_, by simp [chunksText]⟩
    exact List.forall_mem_cons.mpr ⟨⟨hc, hlength, hv⟩, hchunks⟩

theorem chunks_of_mem_plus (h : d ∈ (Regex.plus (group p)).ends (between x y)) :
    ∃ chunks z, chunks ≠ [] ∧ y = chunksText chunks ++ z ∧ Chunks p chunks ∧
      d = between (x ++ chunksText chunks) z := by
  obtain ⟨_, he, hd⟩ := mem_ends_seq.mp h
  obtain ⟨c, v, y, rfl, hc, hlength, hv, rfl⟩ := chunk_of_mem_group he
  obtain ⟨chunks, z, rfl, hchunks, rfl⟩ := chunks_of_mem_star hd
  refine ⟨(c, v) :: chunks, z, List.cons_ne_nil _ _, by simp [chunksText], ?_,
    by simp [chunksText]⟩
  exact List.forall_mem_cons.mpr ⟨⟨hc, hlength, hv⟩, hchunks⟩

/-- One to three digits. -/
theorem lead_of_mem_between (h : d ∈ (Regex.between 1 2 .digit).ends (between x y)) :
    ∃ lead z, y = lead ++ z ∧ lead ≠ [] ∧ lead.length ≤ 3 ∧
      (∀ c ∈ lead, isAsciiDigit c = true) ∧ d = between (x ++ lead) z := by
  obtain ⟨_, he, hd⟩ := mem_ends_seq.mp h
  obtain ⟨v, y, rfl, hlength, hv, rfl⟩ := (mem_ends_times 1).mp he
  obtain ⟨w, z, rfl, hle, hw, rfl⟩ := covers_of_mem_atMost hd
  refine ⟨v ++ w, z, by simp, ?_, ?_, List.forall_mem_append.mpr ⟨hv, hw⟩, by simp⟩
  · exact List.append_ne_nil_of_left_ne_nil (List.ne_nil_of_length_pos (by omega)) _
  · rw [List.length_append]
    omega

theorem digits_of_mem_plus (h : d ∈ (Regex.plus .digit).ends (between x y)) :
    ∃ lead z, y = lead ++ z ∧ lead ≠ [] ∧ (∀ c ∈ lead, isAsciiDigit c = true) ∧
      d = between (x ++ lead) z := by
  obtain ⟨_, he, hd⟩ := mem_ends_seq.mp h
  obtain ⟨c, y, rfl, hc, rfl⟩ := mem_ends_charClass.mp he
  obtain ⟨v, z, rfl, hv, rfl⟩ := covers_of_mem_star hd
  exact ⟨c :: v, z, rfl, List.cons_ne_nil _ _, List.forall_mem_cons.mpr ⟨hc, hv⟩, by simp⟩

theorem decimals_of_mem_fraction (h : d ∈ fractionPattern.ends (between x y)) :
    ∃ point fraction z, y = decimalsText point fraction ++ z ∧ Decimals point fraction ∧
      d = between (x ++ decimalsText point fraction) z := by
  rcases mem_ends_alt.mp h with hsome | hnone
  · obtain ⟨_, he, hd⟩ := mem_ends_seq.mp hsome
    obtain ⟨point, y, rfl, hpoint, rfl⟩ := mem_ends_charClass.mp he
    obtain ⟨_, he, hd⟩ := mem_ends_seq.mp hd
    obtain ⟨v, y, rfl, hlength, hv, rfl⟩ := (mem_ends_times 1).mp he
    obtain ⟨w, z, rfl, hle, hw, rfl⟩ := covers_of_mem_atMost hd
    have hne : v ++ w ≠ [] :=
      List.append_ne_nil_of_left_ne_nil (List.ne_nil_of_length_pos (by omega)) _
    refine ⟨point, v ++ w, z, ?_, ⟨?_, List.forall_mem_append.mpr ⟨hv, hw⟩, ?_⟩, ?_⟩
    · simp [decimalsText, hne]
    · simpa using hpoint
    · rw [List.length_append]
      omega
    · simp [decimalsText, hne]
  · rw [ends_empty, List.mem_singleton] at hnone
    exact ⟨'.', [], y, rfl, ⟨by simp, by simp, by simp⟩, by simpa [decimalsText] using hnone⟩

/-- What a match of the pattern covers. -/
theorem covered_of_mem_ends (h : d ∈ numericPattern.ends (between x y)) :
    ∃ text z lead chunks point fraction, y = text ++ z ∧ d = between (x ++ text) z ∧
      Covered text lead chunks point fraction := by
  rcases mem_ends_alt.mp h with hspaces | hpoints
  · obtain ⟨_, he, hd⟩ := mem_ends_seq.mp hspaces
    obtain ⟨lead, y, rfl, hne, hshort, hlead, rfl⟩ := lead_of_mem_between he
    obtain ⟨_, he, hd⟩ := mem_ends_seq.mp hd
    obtain ⟨chunks, y, -, rfl, hchunks, rfl⟩ := chunks_of_mem_plus he
    obtain ⟨point, fraction, z, rfl, hdecimals, rfl⟩ := decimals_of_mem_fraction hd
    exact ⟨_, z, lead, chunks, point, fraction, by simp, by simp,
      ⟨rfl, hlead, hne, fun _ => hshort, .inl hchunks, hdecimals⟩⟩
  · obtain ⟨_, he, hd⟩ := mem_ends_seq.mp hpoints
    rcases mem_ends_alt.mp he with hgroups | hdigits
    · obtain ⟨_, he, hplus⟩ := mem_ends_seq.mp hgroups
      obtain ⟨lead, y, rfl, hne, hshort, hlead, rfl⟩ := lead_of_mem_between he
      obtain ⟨chunks, y, -, rfl, hchunks, rfl⟩ := chunks_of_mem_plus hplus
      obtain ⟨point, fraction, z, rfl, hdecimals, rfl⟩ := decimals_of_mem_fraction hd
      exact ⟨_, z, lead, chunks, point, fraction, by simp, by simp,
        ⟨rfl, hlead, hne, fun _ => hshort, .inr hchunks, hdecimals⟩⟩
    · obtain ⟨lead, y, rfl, hne, hlead, rfl⟩ := digits_of_mem_plus hdigits
      obtain ⟨point, fraction, z, rfl, hdecimals, rfl⟩ := decimals_of_mem_fraction hd
      exact ⟨_, z, lead, [], point, fraction, by simp [chunksText], by simp [chunksText],
        ⟨rfl, hlead, hne, fun hnil => absurd rfl hnil, .inr (List.forall_mem_nil _), hdecimals⟩⟩

/-- A match begins wherever a digit is. -/
theorem ends_numericPattern_ne_nil {c : Char} (h : isAsciiDigit c = true) :
    numericPattern.ends (between x (c :: y)) ≠ [] := by
  have hdigits : between (x ++ [c]) y ∈ (Regex.plus .digit).ends (between x (c :: y)) :=
    mem_ends_seq.mpr ⟨_, mem_ends_charClass.mpr ⟨c, y, rfl, h, rfl⟩, self_mem_ends_star⟩
  have hrest : between (x ++ [c]) y ∈ fractionPattern.ends (between (x ++ [c]) y) :=
    mem_ends_alt.mpr (.inr (List.mem_singleton_self _))
  exact List.ne_nil_of_mem (mem_ends_alt.mpr
    (.inr (mem_ends_seq.mpr ⟨_, mem_ends_alt.mpr (.inr hdigits), hrest⟩)))

end Covering

/-! The whole of a text that is made of such parts is covered. -/

section Whole

variable {text lead fraction x z : List Char} {chunks : List (Char × List Char)} {point : Char}
  {p : Char → Bool}

theorem noDigit_decimalsText (h : Decimals point fraction) (hz : DigitFree z) :
    NoDigit (decimalsText point fraction ++ z) := by
  unfold decimalsText
  split
  · exact hz.noDigit
  · intro c hc
    obtain rfl := Option.some.inj hc
    exact separator_not_digit (List.mem_cons_of_mem _ h.point_mem)

/-- No group of digits follows the groups of an amount. -/
theorem not_grouped_decimalsText (h : Decimals point fraction) (hz : DigitFree z) :
    ¬ Grouped p (decimalsText point fraction ++ z) := by
  rintro ⟨c, group, rest, htail, -, hlength, hdigits⟩
  have hnone {t : List Char} (ht : t ≠ []) (ht' : ∀ d ∈ t, d ∈ group) (hz' : ∀ d ∈ t, d ∈ z) :
      False := by
    obtain ⟨d, t, rfl⟩ := List.exists_cons_of_ne_nil ht
    have hdigit := hdigits d (ht' d List.mem_cons_self)
    rw [hz d (hz' d List.mem_cons_self)] at hdigit
    cases hdigit
  unfold decimalsText at htail
  split at htail
  · rw [List.nil_append] at htail
    refine hnone (List.ne_nil_of_length_pos (by omega)) (fun _ => id) fun d hd => ?_
    rw [htail]
    exact List.mem_cons_of_mem c (List.mem_append_left rest hd)
  · obtain ⟨-, hrest⟩ := List.cons.inj htail
    have hshort := h.short
    rcases List.append_eq_append_iff.mp hrest with ⟨t, rfl, rfl⟩ | ⟨t, rfl, -⟩
    · refine hnone (t := t) ?_ (fun d => List.mem_append_right _) fun d => List.mem_append_left _
      rintro rfl
      rw [List.append_nil] at hlength
      omega
    · rw [List.length_append] at hshort
      omega

theorem first_decimalsText (h : Decimals point fraction) (hz : DigitFree z) :
    First fractionPattern (between x (decimalsText point fraction ++ z))
      (between (x ++ decimalsText point fraction) z) := by
  unfold decimalsText
  split
  · rw [List.append_nil, List.nil_append]
    refine first_opt_of_nil (ends_seq_eq_nil_iff.mpr fun e he => ?_)
    obtain ⟨c, z, rfl, -, rfl⟩ := mem_ends_charClass.mp he
    exact ends_seq_of_nil (ends_seq_of_nil (ends_charClass_of_not hz.tail.noDigit))
  · rename_i hne
    have hpoint : isPoint point = true := by simpa [isPoint] using h.point_mem
    have hdigits : First (.between 1 1 .digit) (between (x ++ [point]) (fraction ++ z))
        (between (x ++ [point] ++ fraction) z) :=
      first_digits h.digits (List.length_pos_iff.mpr hne) h.short hz.noDigit
    have hfirst := first_opt (first_seq (first_charClass (x := x) (z := fraction ++ z) hpoint)
      hdigits)
    simp only [List.append_assoc, List.singleton_append] at hfirst
    exact hfirst

/-- An amount without groups is a run of digits. -/
theorem first_plain (h : Covered text lead [] point fraction) (hz : DigitFree z) :
    First numericPattern (between x (text ++ z)) (between (x ++ text) z) := by
  have htext : text = lead ++ decimalsText point fraction := h.text_eq
  have htail := noDigit_decimalsText h.decimals hz
  obtain ⟨d, rest, hlead⟩ := List.exists_cons_of_ne_nil h.lead_ne
  have hdigits := h.lead_digits
  have hrun : First (.plus .digit) (between x (lead ++ (decimalsText point fraction ++ z)))
      (between (x ++ lead) (decimalsText point fraction ++ z)) := by
    rw [hlead] at hdigits ⊢
    obtain ⟨hd, hlead⟩ := List.forall_mem_cons.mp hdigits
    have hrest := first_star_charClass (x := x ++ [d]) hlead htail
    rw [List.append_assoc] at hrest
    exact first_seq (first_charClass hd) hrest
  rw [htext, List.append_assoc, ← List.append_assoc x]
  refine first_alt_right ?_ (first_seq (first_alt_right ?_ hrun)
    (first_decimalsText h.decimals hz))
  · exact ends_lead_eq_nil hdigits separates_space htail (not_grouped_decimalsText h.decimals hz)
      fun x y h => ends_seq_of_nil (ends_groups_eq_nil h)
  · exact ends_lead_eq_nil hdigits separates_point htail (not_grouped_decimalsText h.decimals hz)
      fun x y h => ends_groups_eq_nil h

theorem noDigit_chunksText (h : Chunks (fun c => decide (c = ' ')) chunks ∨ Chunks isPoint chunks)
    (hz : NoDigit z) : NoDigit (chunksText chunks ++ z) := by
  cases chunks with
  | nil => exact hz
  | cons chunk chunks =>
      intro c hc
      obtain rfl : chunk.1 = c := by simpa [chunksText] using hc
      refine separator_not_digit ?_
      rcases h with hspaces | hpoints
      · exact separates_space _ (hspaces chunk List.mem_cons_self).1
      · exact separates_point _ (hpoints chunk List.mem_cons_self).1

/-- The pattern of the amounts covers the whole of one. -/
theorem first_covered (h : Covered text lead chunks point fraction) (hz : DigitFree z) :
    First numericPattern (between x (text ++ z)) (between (x ++ text) z) := by
  by_cases hne : chunks = []
  · subst hne
    exact first_plain h hz
  · have htail := noDigit_chunksText h.chunks (noDigit_decimalsText h.decimals hz)
    have hlead : First (.between 1 2 .digit) (between x (lead ++ _)) (between (x ++ lead) _) :=
      first_digits h.lead_digits (List.length_pos_iff.mpr h.lead_ne) (h.lead_short hne) htail
    have hdecimals := first_decimalsText (x := x ++ lead ++ chunksText chunks) h.decimals hz
    rw [h.text_eq, show x ++ (lead ++ (chunksText chunks ++ decimalsText point fraction)) =
        x ++ lead ++ chunksText chunks ++ decimalsText point fraction by simp,
      show lead ++ (chunksText chunks ++ decimalsText point fraction) ++ z =
        lead ++ (chunksText chunks ++ (decimalsText point fraction ++ z)) by simp]
    rcases h.chunks with hspaces | hpoints
    · have hplus := first_plus_chunks (x := x ++ lead) hspaces hne
        (not_grouped_decimalsText h.decimals hz)
      exact first_alt_left (first_seq hlead (first_seq hplus hdecimals))
    · have hplus := first_plus_chunks (x := x ++ lead) hpoints hne
        (not_grouped_decimalsText h.decimals hz)
      refine first_alt_right ?_ (first_seq (first_alt_left (first_seq hlead hplus)) hdecimals)
      obtain ⟨chunk, chunks, rfl⟩ := List.exists_cons_of_ne_nil hne
      have hpoint := (hpoints chunk List.mem_cons_self).1
      refine ends_lead_eq_nil h.lead_digits separates_space htail ?_
        fun x y h => ends_seq_of_nil (ends_groups_eq_nil h)
      rintro ⟨c, group, rest, hsplit, hc, -, -⟩
      obtain rfl : chunk.1 = c := by simpa [chunksText] using congrArg List.head? hsplit
      simp [of_decide_eq_true hc, isPoint] at hpoint

end Whole

/-! No text is made of such parts in two ways. -/

section Unique

variable {text lead lead' fraction fraction' y y' : List Char} {point point' : Char}
  {chunks chunks' : List (Char × List Char)}

theorem chunksText_inj (hchunks : ∀ chunk ∈ chunks, chunk.2.length = 3)
    (hchunks' : ∀ chunk ∈ chunks', chunk.2.length = 3) (hy : y.length ≤ 3) (hy' : y'.length ≤ 3)
    (h : chunksText chunks ++ y = chunksText chunks' ++ y') : chunks = chunks' ∧ y = y' := by
  induction chunks generalizing chunks' with
  | nil =>
      cases chunks' with
      | nil => exact ⟨rfl, h⟩
      | cons chunk' chunks' =>
          have hlength := congrArg List.length h
          have hthree := hchunks' chunk' List.mem_cons_self
          simp only [chunksText, List.flatMap_nil, List.nil_append, List.flatMap_cons,
            List.cons_append, List.length_cons, List.length_append] at hlength
          omega
  | cons chunk chunks ih =>
      have hthree := hchunks chunk List.mem_cons_self
      cases chunks' with
      | nil =>
          have hlength := congrArg List.length h
          simp only [chunksText, List.flatMap_nil, List.nil_append, List.flatMap_cons,
            List.cons_append, List.length_cons, List.length_append] at hlength
          omega
      | cons chunk' chunks' =>
          simp only [chunksText, List.flatMap_cons, List.cons_append, List.append_assoc] at h
          obtain ⟨hseparator, hrest⟩ := List.cons.inj h
          obtain ⟨hdigits, hrest⟩ := List.append_inj hrest
            (hthree.trans (hchunks' chunk' List.mem_cons_self).symm)
          obtain ⟨rfl, hy⟩ := ih (fun c hc => hchunks c (List.mem_cons_of_mem _ hc))
            (fun c hc => hchunks' c (List.mem_cons_of_mem _ hc)) hrest
          exact ⟨by rw [Prod.ext hseparator hdigits], hy⟩

theorem decimalsText_inj (h : decimalsText point fraction = decimalsText point' fraction') :
    fraction = fraction' ∧ (fraction ≠ [] → point = point') := by
  unfold decimalsText at h
  split at h
  · split at h
    · simp [*]
    · cases h
  · split at h
    · cases h
    · obtain ⟨hpoint, hfraction⟩ := List.cons.inj h
      exact ⟨hfraction, fun _ => hpoint⟩

theorem Decimals.length_le (h : Decimals point fraction) :
    (decimalsText point fraction).length ≤ 3 := by
  have hshort := h.short
  unfold decimalsText
  split
  · exact Nat.zero_le 3
  · rw [List.length_cons]
    omega

theorem Covered.chunk_length (h : Covered text lead chunks point fraction) :
    ∀ chunk ∈ chunks, chunk.2.length = 3 := by
  intro chunk hchunk
  rcases h.chunks with hspaces | hpoints
  · exact (hspaces chunk hchunk).2.1
  · exact (hpoints chunk hchunk).2.1

/-- The digits before everything else are the first ones. -/
theorem Covered.takeWhile_eq (h : Covered text lead chunks point fraction) :
    text.takeWhile isAsciiDigit = lead := by
  have hdecimals : NoDigit (decimalsText point fraction) := by
    simpa using noDigit_decimalsText h.decimals (List.forall_mem_nil _)
  have hnone : (chunksText chunks ++ decimalsText point fraction).takeWhile isAsciiDigit = [] := by
    have htail := noDigit_chunksText h.chunks hdecimals
    cases hrest : chunksText chunks ++ decimalsText point fraction with
    | nil => rfl
    | cons c rest =>
        rw [hrest] at htail
        exact List.takeWhile_cons_of_neg (Bool.eq_false_iff.mp (htail c rfl))
  rw [h.text_eq, List.takeWhile_append_of_pos h.lead_digits, hnone, List.append_nil]

theorem Covered.unique (h : Covered text lead chunks point fraction)
    (h' : Covered text lead' chunks' point' fraction') :
    lead = lead' ∧ chunks = chunks' ∧ fraction = fraction' ∧ (fraction ≠ [] → point = point') := by
  obtain rfl : lead = lead' := h.takeWhile_eq.symm.trans h'.takeWhile_eq
  obtain ⟨hchunks, hdecimals⟩ := chunksText_inj h.chunk_length h'.chunk_length
    h.decimals.length_le h'.decimals.length_le
    (List.append_cancel_left (h.text_eq.symm.trans h'.text_eq))
  exact ⟨rfl, hchunks, decimalsText_inj hdecimals⟩

end Unique

/-- One amount is found where the pattern covers all the digits of a text at once. -/
theorem matchAll_numericPattern_iff {chars : List Char} {m : Match} :
    matchAll numericPattern chars = [m] ↔ chars = m.before ++ (m.text ++ m.after) ∧
      DigitFree m.before ∧ DigitFree m.after ∧
      ∃ lead chunks point fraction, Covered m.text lead chunks point fraction := by
  constructor
  · intro hm
    obtain ⟨htext, hskips, hfirst, hfails⟩ := of_matchAll_eq_singleton consumes_numericPattern hm
    refine ⟨htext, fun c hc => ?_, fun c hc => ?_, ?_⟩
    · obtain ⟨y₁, y₂, hsplit⟩ := List.append_of_mem hc
      by_contra hdigit
      have hends := hskips y₁ (c :: y₂) hsplit (List.cons_ne_nil c y₂)
      exact ends_numericPattern_ne_nil (Bool.eq_true_of_not_eq_false hdigit) hends
    · obtain ⟨y₁, y₂, hsplit⟩ := List.append_of_mem hc
      by_contra hdigit
      exact ends_numericPattern_ne_nil (Bool.eq_true_of_not_eq_false hdigit)
        (hfails y₁ (c :: y₂) hsplit)
    · obtain ⟨text, z, lead, chunks, point, fraction, hsplit, hd, hcovered⟩ :=
        covered_of_mem_ends hfirst.mem
      obtain ⟨hbefore, rfl⟩ := between_inj hd
      rw [List.append_cancel_left hbefore]
      exact ⟨lead, chunks, point, fraction, hcovered⟩
  · rintro ⟨rfl, hx, hz, lead, chunks, point, fraction, hcovered⟩
    refine matchAll_eq_singleton consumes_numericPattern ?_ (first_covered hcovered hz) ?_
    · rintro y₁ y₂ hsplit hne
      obtain ⟨c, y₂, rfl⟩ := List.exists_cons_of_ne_nil hne
      refine ends_numericPattern_eq_nil fun d hd => ?_
      obtain rfl : c = d := by simpa using hd
      exact hx c (hsplit ▸ List.mem_append_right y₁ List.mem_cons_self)
    · rintro y₁ y₂ hsplit
      exact ends_numericPattern_eq_nil fun d hd =>
        hz d (hsplit ▸ List.mem_append_right y₁ (List.mem_of_mem_head? hd))

end PriceScout.Worker.AmountShapes
