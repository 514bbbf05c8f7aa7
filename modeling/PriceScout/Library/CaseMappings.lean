import Mathlib.Data.String.Basic

/-!
Mappings of texts that replace each character by some text, in view of what
stands before and after it, as the full case mappings of Unicode do.
-/

namespace PriceScout.Library.CaseMappings

/-- A replacement of a character between two texts. -/
abbrev Replacement :=
  List Char → Char → List Char → List Char

/-- Replace every character of a text that stands between two others. -/
def replaceEach (replace : Replacement) (before : List Char) : List Char → List Char → List Char
  | [], _ => []
  | c :: rest, after =>
      replace before c (rest ++ after) ++ replaceEach replace (before ++ [c]) rest after

theorem replaceEach_append (replace : Replacement) (before x y after : List Char) :
    replaceEach replace before (x ++ y) after =
      replaceEach replace before x (y ++ after) ++ replaceEach replace (before ++ x) y after := by
  induction x generalizing before with
  | nil => simp [replaceEach]
  | cons c x ih => simp [replaceEach, ih]

/-- A mapping that replaces characters of ASCII by their lower case, and the
others by whatever it likes. -/
def LowersAscii (lower : String → String) : Prop :=
  ∃ replace : Replacement,
    (∀ before c after, c.toNat < 128 → replace before c after = [c.toLower]) ∧
    ∀ s, (lower s).toList = replaceEach replace [] s.toList []

/-- Such a mapping that keeps the characters of a class, which have no case. -/
def LowersAsciiKeeps (keeps : Char → Bool) (lower : String → String) : Prop :=
  ∃ replace : Replacement,
    (∀ before c after, c.toNat < 128 → replace before c after = [c.toLower]) ∧
    (∀ before c after, keeps c = true → replace before c after = [c]) ∧
    ∀ s, (lower s).toList = replaceEach replace [] s.toList []

variable {replace : Replacement} {lower : String → String}

theorem replaceEach_lower {x : List Char}
    (hx : ∀ c ∈ x, ∀ before after, replace before c after = [c.toLower])
    (before after : List Char) : replaceEach replace before x after = x.map Char.toLower := by
  induction x generalizing before with
  | nil => rfl
  | cons c x ih =>
      rw [replaceEach, hx c List.mem_cons_self, ih fun d hd => hx d (List.mem_cons_of_mem _ hd)]
      rfl

theorem replaceEach_ascii
    (h : ∀ before c after, c.toNat < 128 → replace before c after = [c.toLower])
    {x : List Char} (hx : ∀ c ∈ x, c.toNat < 128) (before after : List Char) :
    replaceEach replace before x after = x.map Char.toLower :=
  replaceEach_lower (fun c hc before after => h before c after (hx c hc)) before after

theorem LowersAscii.front (h : LowersAscii lower) {v z : List Char}
    (hv : ∀ c ∈ v, c.toNat < 128) :
    ∃ z', (lower (String.ofList (v ++ z))).toList = v.map Char.toLower ++ z' := by
  obtain ⟨replace, hascii, heach⟩ := h
  refine ⟨replaceEach replace v z [], ?_⟩
  rw [heach, String.toList_ofList, replaceEach_append, replaceEach_ascii hascii hv]
  simp

theorem LowersAscii.whole (h : LowersAscii lower) {v : List Char}
    (hv : ∀ c ∈ v, c.toNat < 128) :
    (lower (String.ofList v)).toList = v.map Char.toLower := by
  obtain ⟨replace, hascii, heach⟩ := h
  rw [heach, String.toList_ofList, replaceEach_ascii hascii hv]

/-- What a mapping makes of the characters of a class is kept as it is. -/
theorem replaceEach_keeps {keeps : Char → Bool}
    (h : ∀ before c after, keeps c = true → replace before c after = [c])
    {x : List Char} (hx : ∀ c ∈ x, keeps c = true) (before after : List Char) :
    replaceEach replace before x after = x := by
  induction x generalizing before with
  | nil => rfl
  | cons c x ih =>
      rw [replaceEach, h _ _ _ (hx c List.mem_cons_self),
        ih fun d hd => hx d (List.mem_cons_of_mem _ hd)]
      rfl

theorem lowersAscii_map : LowersAscii fun s => String.ofList (s.toList.map Char.toLower) := by
  refine ⟨fun _ c _ => [c.toLower], fun _ _ _ _ => rfl, fun s => ?_⟩
  rw [String.toList_ofList, replaceEach_lower fun _ _ _ _ => rfl]

end PriceScout.Library.CaseMappings
