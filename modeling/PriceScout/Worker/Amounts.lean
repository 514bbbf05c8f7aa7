import PriceScout.Library.Rounding
import PriceScout.Worker.AmountShapes

/-!
The amounts in price texts: what is well formed, and what `parsePrice` reads in it.
-/

namespace PriceScout.Worker.Amounts

open PriceScout.Library.JsStrings
open PriceScout.Library.Numbers
open PriceScout.Library.RegularExpressions
open PriceScout.Library.Rounding
open PriceScout.Worker.AmountShapes
open PriceScout.Worker.Validation

/-- An amount is written with or without groups of three digits, all of them
separated alike, and with at most two decimals. -/
structure Amount where
  lead : List Char
  separator : Char
  groups : List (List Char)
  point : Char
  fraction : List Char
  lead_digits : ∀ c ∈ lead, isAsciiDigit c = true
  lead_ne : lead ≠ []
  lead_short : groups ≠ [] → lead.length ≤ 3
  separator_mem : separator ∈ [' ', '\u00a0', '\u202f', '.', ',']
  group_digits : ∀ group ∈ groups, group.length = 3 ∧ ∀ c ∈ group, isAsciiDigit c = true
  point_mem : point ∈ ['.', ',']
  fraction_digits : ∀ c ∈ fraction, isAsciiDigit c = true
  fraction_short : fraction.length ≤ 2

/-- The space that `parsePrice` puts in the place of a no-break space. -/
def plainSpace (c : Char) : Char :=
  if c.toNat = 0xa0 ∨ c.toNat = 0x202f then ' ' else c

theorem plainSpace_mem {c : Char} (h : c ∈ [' ', '\u00a0', '\u202f', '.', ',']) :
    plainSpace c ∈ [' ', '\u00a0', '\u202f', '.', ','] := by
  unfold plainSpace
  split
  · exact List.mem_cons_self
  · exact h

namespace Amount

def groupsText (a : Amount) : List Char :=
  a.groups.flatMap (a.separator :: ·)

def fractionText (a : Amount) : List Char :=
  if a.fraction = [] then [] else a.point :: a.fraction

def text (a : Amount) : List Char :=
  a.lead ++ (a.groupsText ++ a.fractionText)

/-- The digits before the decimal point. -/
def integer (a : Amount) : List Char :=
  a.lead ++ a.groups.flatten

def value (a : Amount) : ℚ :=
  digitsValue (a.integer ++ a.fraction) / 10 ^ a.fraction.length

/-- The amount with a plain space for a no-break one. -/
def plain (a : Amount) : Amount where
  lead := a.lead
  separator := plainSpace a.separator
  groups := a.groups
  point := a.point
  fraction := a.fraction
  lead_digits := a.lead_digits
  lead_ne := a.lead_ne
  lead_short := a.lead_short
  separator_mem := plainSpace_mem a.separator_mem
  group_digits := a.group_digits
  point_mem := a.point_mem
  fraction_digits := a.fraction_digits
  fraction_short := a.fraction_short

/-- The value is zero or rounds to more than every number. -/
def NoPrice (a : Amount) : Prop :=
  a.value = 0 ∨ 2 ^ 1024 ≤ nearest a.value

end Amount

section Pattern

variable {a : Amount} {x z : List Char}

/-- The characters of an amount are digits and separators. -/
theorem mem_text {a : Amount} {c : Char} (h : c ∈ a.text) :
    isAsciiDigit c = true ∨ c ∈ [' ', '\u00a0', '\u202f', '.', ','] := by
  simp only [Amount.text, Amount.groupsText, List.mem_append, List.mem_flatMap, List.mem_cons] at h
  rcases h with hlead | ⟨group, hgroup, rfl | hc⟩ | hfraction
  · exact Or.inl (a.lead_digits c hlead)
  · exact Or.inr a.separator_mem
  · exact Or.inl ((a.group_digits group hgroup).2 c hc)
  · unfold Amount.fractionText at hfraction
    split at hfraction
    · cases hfraction
    · rcases List.mem_cons.mp hfraction with rfl | hc
      · exact Or.inr (List.mem_append_right [' ', '\u00a0', '\u202f'] a.point_mem)
      · exact Or.inl (a.fraction_digits c hc)

/-- An amount is made of the parts that the pattern covers. -/
theorem covered_text (hseparator : a.separator ∈ [' ', '.', ',']) :
    Covered a.text a.lead (a.groups.map (a.separator, ·)) a.point a.fraction where
  text_eq := by
    rw [Amount.text, Amount.groupsText, chunksText, List.flatMap_map]
    rfl
  lead_digits := a.lead_digits
  lead_ne := a.lead_ne
  lead_short := fun hne => a.lead_short (mt (congrArg (List.map (a.separator, ·))) hne)
  chunks := by
    have hgroups {p : Char → Bool} (hp : p a.separator = true) :
        Chunks p (a.groups.map (a.separator, ·)) :=
      List.forall_mem_map.mpr fun g hg => ⟨hp, a.group_digits g hg⟩
    rcases List.mem_cons.mp hseparator with hspace | hpoint
    · exact .inl (hgroups (decide_eq_true hspace))
    · exact .inr (hgroups (by simpa [isPoint] using hpoint))
  decimals := ⟨a.point_mem, a.fraction_digits, a.fraction_short⟩

/-- Apart from an amount, there are no digits and none of its separators but spaces. -/
def Outside (z : List Char) : Prop :=
  ∀ c ∈ z, isAsciiDigit c = false ∧ c ≠ '.' ∧ c ≠ ','

theorem Outside.digitFree (h : Outside z) : DigitFree z :=
  fun c hc => (h c hc).1

/-- The amount is the only one of its text. -/
theorem matchAll_numericPattern (hseparator : a.separator ∈ [' ', '.', ',']) (hx : Outside x)
    (hz : Outside z) : matchAll numericPattern (x ++ (a.text ++ z)) = [⟨x, a.text, z⟩] :=
  matchAll_numericPattern_iff.mpr
    ⟨rfl, hx.digitFree, hz.digitFree, _, _, _, _, covered_text hseparator⟩

end Pattern

/-! What is left of the separators. -/

section Separators

variable {a : Amount} {u v numeric : List Char} {c point other : Char}

theorem lastIndexOf_of_not_mem (h : c ∉ numeric) : lastIndexOf c numeric = none :=
  if_neg h

theorem lastIndexOf_append_cons (h : c ∉ v) : lastIndexOf c (u ++ c :: v) = some u.length := by
  have hindex : (u ++ c :: v).reverse.idxOf c = v.length := by
    rw [List.reverse_append, List.reverse_cons, List.append_assoc,
      List.idxOf_append_of_notMem (by simpa using h)]
    simp
  rw [lastIndexOf, if_pos (by simp), hindex]
  simp

/-- The decimal point and the separator of groups that goes with it. -/
def Points (point other : Char) : Prop :=
  point = '.' ∧ other = ',' ∨ point = ',' ∧ other = '.'

theorem resolveSeparators_none (hdot : '.' ∉ numeric) (hcomma : ',' ∉ numeric) :
    (resolveSeparators (String.ofList numeric)).toList = numeric := by
  simp [resolveSeparators, lastIndexOf_of_not_mem hdot, lastIndexOf_of_not_mem hcomma]

theorem resolveSeparators_one {last : Nat} (hpoints : Points point other) (hother : other ∉ numeric)
    (hlast : lastIndexOf point numeric = some last) :
    resolveSeparators (String.ofList numeric) =
      resolveSeparators.resolve (String.ofList numeric) point last := by
  rcases hpoints with ⟨rfl, rfl⟩ | ⟨rfl, rfl⟩
  · simp only [resolveSeparators, String.toList_ofList, hlast, lastIndexOf_of_not_mem hother]
  · simp only [resolveSeparators, String.toList_ofList, hlast, lastIndexOf_of_not_mem hother]

/-- One kind of separator with three digits behind the last is one of groups. -/
theorem resolve_groups (hpoints : Points point other) (hother : other ∉ u ++ point :: v)
    (hpoint : point ∉ v) (hlength : v.length = 3) :
    (resolveSeparators (String.ofList (u ++ point :: v))).toList =
      (u ++ point :: v).filter (· ≠ point) := by
  rw [resolveSeparators_one hpoints hother (lastIndexOf_append_cons hpoint),
    resolveSeparators.resolve, if_pos]
  · simp [without]
  · simp [hlength]

/-- Behind the last separator there are decimals, if they are not three. -/
theorem resolve_fraction (hpoints : Points point other) (hother : other ∉ u ++ point :: v)
    (hpoint : point ∉ v) (hlength : v.length ≠ 3) :
    (resolveSeparators (String.ofList (u ++ point :: v))).toList =
      u.filter (· ≠ point) ++ '.' :: v := by
  rw [resolveSeparators_one hpoints hother (lastIndexOf_append_cons hpoint),
    resolveSeparators.resolve, if_neg]
  · simp [without]
  · simpa using hlength

theorem replaceFirstChar_append_cons (h : c ∉ u) {d : Char} :
    replaceFirstChar c d (u ++ c :: v) = u ++ d :: v := by
  induction u with
  | nil => simp [replaceFirstChar]
  | cons b u ih =>
      obtain ⟨hb, hu⟩ := not_or.mp (mt List.mem_cons.mpr h)
      rw [List.cons_append, replaceFirstChar, if_neg (Ne.symm hb), ih hu, List.cons_append]

theorem replaceFirstChar_self (numeric : List Char) : replaceFirstChar c c numeric = numeric := by
  induction numeric with
  | nil => rfl
  | cons d numeric ih =>
      rw [replaceFirstChar]
      split
      · rename_i hd
        rw [hd]
      · rw [ih]

theorem exists_last_of_mem (h : c ∈ u) : ∃ front rest, u = front ++ c :: rest ∧ c ∉ rest := by
  obtain ⟨rest, front, hsplit, hrest⟩ := List.eq_append_cons_of_mem (List.mem_reverse.mpr h)
  refine ⟨front.reverse, rest.reverse, ?_, by simpa using hrest⟩
  rw [← List.reverse_reverse u, hsplit]
  simp

/-- Of two kinds of separators the first of the last kind becomes the decimal
point, and the others of the other kind are left out. -/
theorem resolve_last (hpoints : Points point other) (hpoint : point ∉ v) (hother : other ∉ v)
    (hmem : other ∈ u) :
    (resolveSeparators (String.ofList (u ++ point :: v))).toList =
      replaceFirstChar point '.' (u.filter (· ≠ other) ++ point :: v) := by
  have hne : point ≠ other := by
    rcases hpoints with ⟨rfl, rfl⟩ | ⟨rfl, rfl⟩ <;> decide
  have hkept : ∀ c ∈ v, c ≠ other := fun c hc => ne_of_mem_of_not_mem hc hother
  have hfilter : (u ++ point :: v).filter (· ≠ other) =
      u.filter (· ≠ other) ++ point :: v := by
    simpa [List.filter_append, hne] using hkept
  obtain ⟨front, rest, rfl, hrest⟩ := exists_last_of_mem hmem
  have hlast := lastIndexOf_append_cons (u := front ++ other :: rest) hpoint
  have hlastOther : lastIndexOf other (front ++ other :: rest ++ point :: v) =
      some front.length := by
    rw [List.append_assoc, List.cons_append]
    refine lastIndexOf_append_cons ?_
    simp [hrest, hne.symm, hother]
  rcases hpoints with ⟨rfl, rfl⟩ | ⟨rfl, rfl⟩
  · simp only [resolveSeparators, String.toList_ofList, hlast, hlastOther]
    rw [if_neg (by simp), without, String.toList_ofList, String.toList_ofList, hfilter,
      replaceFirstChar_self]
  · simp only [resolveSeparators, String.toList_ofList, hlast, hlastOther]
    rw [if_pos (by simp), replaceFirst, without, String.toList_ofList, String.toList_ofList,
      String.toList_ofList, hfilter]

/-- Of two kinds of separators the last one is the decimal point. -/
theorem resolve_both {w : List Char} (hpoints : Points point other) (hpoint : point ∉ u ++ w)
    (hdecimals : point ∉ v) (hother : other ∉ w ++ v) :
    (resolveSeparators (String.ofList (u ++ other :: w ++ point :: v))).toList =
      (u ++ w).filter (· ≠ other) ++ '.' :: v := by
  have hfilter : (u ++ other :: w).filter (· ≠ other) = (u ++ w).filter (· ≠ other) := by
    simp [List.filter_append]
  rw [resolve_last hpoints hdecimals (fun hmem => hother (List.mem_append_right w hmem))
    (by simp), hfilter, replaceFirstChar_append_cons]
  exact fun hmem => hpoint (List.mem_of_mem_filter hmem)

end Separators

section Values

variable {a : Amount} {c : Char}

theorem integer_digits (a : Amount) : ∀ c ∈ a.integer, isAsciiDigit c = true := by
  intro c hc
  rcases List.mem_append.mp hc with hlead | hgroups
  · exact a.lead_digits c hlead
  · obtain ⟨group, hgroup, hc⟩ := List.mem_flatten.mp hgroups
    exact (a.group_digits group hgroup).2 c hc

theorem not_mem_of_digits {u : List Char} (hu : ∀ c ∈ u, isAsciiDigit c = true)
    (hc : c ∈ [' ', '.', ',']) : c ∉ u := by
  intro hmem
  have hdigit := hu c hmem
  rw [separator_not_digit hc] at hdigit
  cases hdigit

theorem filter_digits {u : List Char} (hu : ∀ c ∈ u, isAsciiDigit c = true)
    (hc : c ∈ [' ', '.', ',']) : u.filter (· ≠ c) = u := by
  refine List.filter_eq_self.mpr fun d hd => decide_eq_true ?_
  rintro rfl
  exact not_mem_of_digits hu hc hd

/-- Without their separator, groups are digits. -/
theorem filter_groups {groups : List (List Char)} {separator : Char}
    (hgroups : ∀ g ∈ groups, g.length = 3 ∧ ∀ c ∈ g, isAsciiDigit c = true)
    (hseparator : separator ∈ [' ', '.', ',']) :
    (groups.flatMap (separator :: ·)).filter (· ≠ separator) = groups.flatten := by
  induction groups with
  | nil => rfl
  | cons g groups ih =>
      obtain ⟨⟨-, hdigits⟩, hgroups⟩ := List.forall_mem_cons.mp hgroups
      rw [List.flatMap_cons, List.cons_append, List.filter_cons_of_neg (by simp),
        List.filter_append, filter_digits hdigits hseparator, ih hgroups, List.flatten_cons]

theorem mem_fractionText (hc : c ∈ a.fractionText) : isAsciiDigit c = true ∨ c = a.point := by
  unfold Amount.fractionText at hc
  split at hc
  · cases hc
  · rcases List.mem_cons.mp hc with rfl | hc
    · exact Or.inr rfl
    · exact Or.inl (a.fraction_digits c hc)

theorem filter_fractionText : a.fractionText.filter (· ≠ ' ') = a.fractionText := by
  refine List.filter_eq_self.mpr fun c hc => decide_eq_true ?_
  rintro rfl
  rcases mem_fractionText hc with hdigit | hpoint
  · cases hdigit
  · simpa [← hpoint] using a.point_mem

/-- What is before the decimals without its spaces: digits, or groups between points. -/
inductive Body (a : Amount) : List Char → Prop
  | digits : Body a a.integer
  | points {u last : List Char} (hseparator : a.separator ∈ ['.', ',']) (hlength : last.length = 3)
      (hlast : ∀ c ∈ last, isAsciiDigit c = true)
      (hu : ∀ c ∈ u, isAsciiDigit c = true ∨ c = a.separator)
      (hinteger : (u ++ last).filter (· ≠ a.separator) = a.integer) :
      Body a (u ++ a.separator :: last)

theorem filter_spaces (hseparator : a.separator ∈ [' ', '.', ',']) :
    ∃ body, a.text.filter (· ≠ ' ') = body ++ a.fractionText ∧ Body a body := by
  have hlead := filter_digits a.lead_digits (c := ' ') (by simp)
  rcases List.mem_cons.mp hseparator with hspace | hpoint
  · refine ⟨a.integer, ?_, .digits⟩
    have hgroups := filter_groups a.group_digits hseparator
    rw [hspace] at hgroups
    rw [Amount.text, List.filter_append, List.filter_append, filter_fractionText, hlead,
      Amount.groupsText, hspace, hgroups, Amount.integer, List.append_assoc]
  · refine ⟨a.lead ++ a.groupsText, ?_, ?_⟩
    · have hgroups : a.groupsText.filter (· ≠ ' ') = a.groupsText := by
        refine List.filter_eq_self.mpr fun c hc => decide_eq_true ?_
        rintro rfl
        obtain ⟨g, hg, hc⟩ := List.mem_flatMap.mp hc
        rcases List.mem_cons.mp hc with hc | hc
        · simp [← hc] at hpoint
        · cases (a.group_digits g hg).2 _ hc
      rw [Amount.text, List.filter_append, List.filter_append, filter_fractionText, hlead, hgroups,
        List.append_assoc]
    · rcases List.eq_nil_or_concat a.groups with hnil | ⟨groups, last, hconcat⟩
      · have hinteger : a.lead ++ a.groupsText = a.integer := by
          simp [Amount.groupsText, Amount.integer, hnil]
        exact hinteger ▸ .digits
      · have hdigits := a.group_digits
        rw [hconcat, List.concat_eq_append] at hdigits
        obtain ⟨hgroups, hlast⟩ := List.forall_mem_append.mp hdigits
        obtain ⟨hlength, hlast⟩ := hlast last (by simp)
        have hbody : a.lead ++ a.groupsText =
            a.lead ++ groups.flatMap (a.separator :: ·) ++ a.separator :: last := by
          simp [Amount.groupsText, hconcat]
        rw [hbody]
        refine .points hpoint hlength hlast ?_ ?_
        · intro c hc
          rcases List.mem_append.mp hc with hc | hc
          · exact Or.inl (a.lead_digits c hc)
          · obtain ⟨g, hg, hc⟩ := List.mem_flatMap.mp hc
            rcases List.mem_cons.mp hc with hc | hc
            · exact Or.inr hc
            · exact Or.inl ((hgroups g hg).2 c hc)
        · rw [List.filter_append, List.filter_append, filter_digits a.lead_digits hseparator,
            filter_groups hgroups hseparator, filter_digits hlast hseparator, Amount.integer,
            hconcat]
          simp

theorem exists_points (h : c ∈ ['.', ',']) : ∃ other, Points c other := by
  rcases List.mem_pair.mp h with rfl | rfl
  · exact ⟨',', Or.inl ⟨rfl, rfl⟩⟩
  · exact ⟨'.', Or.inr ⟨rfl, rfl⟩⟩

theorem Points.ne {point other : Char} (h : Points point other) : other ≠ point := by
  rcases h with ⟨rfl, rfl⟩ | ⟨rfl, rfl⟩ <;> decide

theorem Points.mem {point other : Char} (h : Points point other) : other ∈ [' ', '.', ','] := by
  rcases h with ⟨rfl, rfl⟩ | ⟨rfl, rfl⟩ <;> simp

theorem Points.point_mem {point other : Char} (h : Points point other) :
    point ∈ [' ', '.', ','] := by
  rcases h with ⟨rfl, rfl⟩ | ⟨rfl, rfl⟩ <;> simp

theorem Points.eq_of_ne {point other : Char} (h : Points point other) (hc : c ∈ ['.', ','])
    (hne : c ≠ point) : c = other := by
  rcases h with ⟨rfl, rfl⟩ | ⟨rfl, rfl⟩ <;> simp_all

/-- One separator between digits leaves no room for the other. -/
theorem not_mem_points {point other : Char} {u v : List Char} (hpoints : Points point other)
    (hu : ∀ c ∈ u, isAsciiDigit c = true ∨ c = point) (hv : ∀ c ∈ v, isAsciiDigit c = true) :
    other ∉ u ++ point :: v := by
  have hdigits : isAsciiDigit other = false := separator_not_digit hpoints.mem
  intro hmem
  rcases List.mem_append.mp hmem with hmem | hmem
  · rcases hu other hmem with hdigit | hsame
    · rw [hdigits] at hdigit
      cases hdigit
    · exact hpoints.ne hsame
  · rcases List.mem_cons.mp hmem with hsame | hmem
    · exact hpoints.ne hsame
    · exact not_mem_of_digits hv hpoints.mem hmem

/-- Without decimals, the last separator is one of groups. -/
theorem resolve_whole {body : List Char} (hbody : Body a body) :
    (resolveSeparators (String.ofList body)).toList = a.integer := by
  cases hbody with
  | digits =>
      exact resolveSeparators_none (not_mem_of_digits (integer_digits a) (by simp))
        (not_mem_of_digits (integer_digits a) (by simp))
  | @points u last hseparator hlength hlast hu hinteger =>
      obtain ⟨other, hpoints⟩ := exists_points hseparator
      rw [resolve_groups hpoints (not_mem_points hpoints hu hlast)
        (not_mem_of_digits hlast (List.mem_cons_of_mem _ hseparator)) hlength, ← hinteger]
      simp

theorem resolve_decimals {body : List Char} (hbody : Body a body) :
    (resolveSeparators (String.ofList (body ++ a.point :: a.fraction))).toList =
      a.integer ++ '.' :: a.fraction := by
  obtain ⟨other, hpoints⟩ := exists_points a.point_mem
  have hshort : a.fraction.length ≠ 3 := by
    have hle := a.fraction_short
    omega
  have hpoint := not_mem_of_digits a.fraction_digits (List.mem_cons_of_mem _ a.point_mem)
  have hdecimals := not_mem_of_digits a.fraction_digits hpoints.mem
  have hmember := List.mem_cons_of_mem ' ' a.point_mem
  cases hbody with
  | digits =>
      have hdigits := integer_digits a
      rw [resolve_fraction hpoints (not_mem_points hpoints (fun c hc => Or.inl (hdigits c hc))
        a.fraction_digits) hpoint hshort, filter_digits hdigits hmember]
  | @points u last hseparator hlength hlast hu hinteger =>
      by_cases hsame : a.separator = a.point
      · have hbefore : ∀ c ∈ u ++ a.separator :: last, isAsciiDigit c = true ∨ c = a.point := by
          intro c hc
          rcases List.mem_append.mp hc with hc | hc
          · exact hsame ▸ hu c hc
          · rcases List.mem_cons.mp hc with hc | hc
            · exact Or.inr (hc.trans hsame)
            · exact Or.inl (hlast c hc)
        rw [resolve_fraction hpoints (not_mem_points hpoints hbefore a.fraction_digits) hpoint
          hshort, ← hinteger, ← hsame]
        simp
      · obtain hother := hpoints.eq_of_ne hseparator hsame
        rw [hother] at hu hinteger ⊢
        rw [resolve_both hpoints ?_ hpoint ?_, hinteger]
        · intro hmem
          rcases List.mem_append.mp hmem with hmem | hmem
          · rcases hu _ hmem with hdigit | heq
            · rw [separator_not_digit hmember] at hdigit
              cases hdigit
            · exact hpoints.ne heq.symm
          · exact not_mem_of_digits hlast hmember hmem
        · rw [List.mem_append, not_or]
          exact ⟨not_mem_of_digits hlast hpoints.mem, hdecimals⟩

/-- Without its separators, an amount is its digits with a decimal point between them. -/
theorem resolve_text (hseparator : a.separator ∈ [' ', '.', ',']) :
    (resolveSeparators (without ' ' (String.ofList a.text))).toList =
      a.integer ++ if a.fraction = [] then [] else '.' :: a.fraction := by
  obtain ⟨body, htext, hbody⟩ := filter_spaces hseparator
  rw [without, String.toList_ofList, htext]
  unfold Amount.fractionText
  split
  · rw [List.append_nil, List.append_nil, resolve_whole hbody]
  · exact resolve_decimals hbody

theorem decimalValue_digits {u : List Char} (hu : ∀ c ∈ u, isAsciiDigit c = true) (hne : u ≠ []) :
    decimalValue u = some (digitsValue u : ℚ) := by
  have htake : u.takeWhile isAsciiDigit = u := List.takeWhile_eq_self_iff.mpr hu
  have hdrop : u.dropWhile isAsciiDigit = [] := List.dropWhile_eq_nil_iff.mpr hu
  simp [decimalValue, htake, hdrop, hne]

theorem decimalValue_point {u v : List Char} (hu : ∀ c ∈ u, isAsciiDigit c = true)
    (hv : ∀ c ∈ v, isAsciiDigit c = true) (hne : u ≠ []) :
    decimalValue (u ++ '.' :: v) = some (digitsValue (u ++ v) / 10 ^ v.length : ℚ) := by
  have htake : (u ++ '.' :: v).takeWhile isAsciiDigit = u := by
    rw [List.takeWhile_append_of_pos hu, List.takeWhile_cons_of_neg (by decide), List.append_nil]
  have hdrop : (u ++ '.' :: v).dropWhile isAsciiDigit = '.' :: v := by
    rw [List.dropWhile_append_of_pos hu, List.dropWhile_cons_of_neg (by decide)]
  simp only [decimalValue, htake, hdrop]
  rw [if_pos]
  exact ⟨trivial, List.all_eq_true.mpr hv, List.append_ne_nil_of_left_ne_nil hne v⟩

/-- The value that is read in an amount. -/
theorem decimalValue_text (hseparator : a.separator ∈ [' ', '.', ',']) :
    decimalValue (resolveSeparators (without ' ' (String.ofList a.text))).toList =
      some a.value := by
  have hne : a.integer ≠ [] := List.append_ne_nil_of_left_ne_nil a.lead_ne _
  rw [resolve_text hseparator]
  split
  · rename_i hfraction
    rw [List.append_nil, decimalValue_digits (integer_digits a) hne]
    simp [Amount.value, hfraction]
  · exact decimalValue_point (integer_digits a) a.fraction_digits hne

/-- The number that is read in an amount is the one next to its value. -/
theorem numberOfText_text (hseparator : a.separator ∈ [' ', '.', ',']) :
    numberOfText (resolveSeparators (without ' ' (String.ofList a.text))) = .ofRat a.value := by
  rw [numberOfText, decimalValue_text hseparator]

theorem value_nonneg (a : Amount) : 0 ≤ a.value :=
  div_nonneg (Nat.cast_nonneg _) (by positivity)

/-- A value that is not zero is a cent at least. -/
theorem cent_le_value (h : a.value ≠ 0) : 1 / 100 ≤ a.value := by
  have hdigits : 1 ≤ digitsValue (a.integer ++ a.fraction) := by
    refine Nat.one_le_iff_ne_zero.mpr fun hzero => h ?_
    rw [Amount.value, hzero, Nat.cast_zero, zero_div]
  have hpow : (10 : ℚ) ^ a.fraction.length ≤ 100 :=
    calc (10 : ℚ) ^ a.fraction.length ≤ 10 ^ 2 :=
          pow_le_pow_right₀ (by norm_num) a.fraction_short
      _ = 100 := by norm_num
  exact div_le_div₀ (Nat.cast_nonneg _) (by exact_mod_cast hdigits) (by positivity) hpow

theorem nearest_value_pos (h : a.value ≠ 0) : 0 < nearest a.value := by
  have hcent := cent_le_value h
  have hpos : 0 < a.value := lt_of_lt_of_le (by norm_num) hcent
  have hlog : -7 ≤ Int.log 2 a.value := by
    refine (Int.zpow_le_iff_le_log (by norm_num) hpos).mp ?_
    exact le_trans (by norm_num) hcent
  have hunit : unitExponent a.value ≤ Int.log 2 a.value := by
    unfold unitExponent
    omega
  exact lt_of_lt_of_le (two_zpow_pos _) (zpow_le_nearest hpos hunit)

/-- An amount is a price unless its value is zero or too large. -/
theorem minorUnits_value :
    (∃ priceMinor, minorUnits (.ofRat a.value) = .ok priceMinor) ↔ ¬ a.NoPrice := by
  rw [Amount.NoPrice, not_or, not_le, Number.ofRat]
  split
  · rename_i hlt
    by_cases hzero : a.value = 0
    · simp [minorUnits, hzero, nearest_zero]
    · exact ⟨fun _ => ⟨hzero, hlt⟩,
        fun _ => ⟨_, if_neg (not_le.mpr (nearest_value_pos hzero))⟩⟩
  · rename_i hle
    simp [minorUnits, hle]

theorem separator_plain (a : Amount) : a.plain.separator ∈ [' ', '.', ','] := by
  have hmem := a.separator_mem
  simp only [List.mem_cons, List.not_mem_nil, or_false] at hmem
  rcases hmem with h | h | h | h | h <;> simp [Amount.plain, h, plainSpace]

theorem plainSpace_of_digit (h : isAsciiDigit c = true) : plainSpace c = c := by
  refine if_neg fun hspace => ?_
  simp only [isAsciiDigit, Char.le_def, UInt32.le_iff_toNat_le, Bool.and_eq_true,
    decide_eq_true_eq] at h
  have hle : c.toNat ≤ 57 := h.2
  omega

theorem map_plainSpace_digits {u : List Char} (hu : ∀ c ∈ u, isAsciiDigit c = true) :
    u.map plainSpace = u := by
  rw [List.map_congr_left fun c hc => plainSpace_of_digit (hu c hc), List.map_id']

/-- `parsePrice` reads the amount with plain spaces. -/
theorem map_plainSpace_text (a : Amount) : a.text.map plainSpace = a.plain.text := by
  have hgroups : a.groupsText.map plainSpace = a.plain.groupsText := by
    rw [Amount.groupsText, Amount.groupsText, List.map_flatMap]
    refine List.flatMap_congr fun g hg => ?_
    rw [List.map_cons, map_plainSpace_digits (a.group_digits g hg).2]
    rfl
  have hpoint : plainSpace a.point = a.point := by
    rcases List.mem_pair.mp a.point_mem with h | h <;> rw [h] <;> rfl
  have hfraction : a.fractionText.map plainSpace = a.plain.fractionText := by
    rw [Amount.fractionText, Amount.fractionText, show a.plain.fraction = a.fraction from rfl]
    split
    · rfl
    · rw [List.map_cons, map_plainSpace_digits a.fraction_digits, hpoint]
      rfl
  rw [Amount.text, List.map_append, List.map_append, map_plainSpace_digits a.lead_digits, hgroups,
    hfraction]
  rfl

end Values

end PriceScout.Worker.Amounts
