import Mathlib.Algebra.Group.Int.Defs
import Mathlib.Data.List.DropRight
import Mathlib.Data.List.Infix

/-!
The operations of Go's `strings` and `unicode` packages, on the code points of
a string.
-/

namespace PriceScout.Library.GoStrings

/-- `unicode.IsSpace`. -/
def isSpace (c : Char) : Bool :=
  [0x09, 0x0a, 0x0b, 0x0c, 0x0d, 0x20, 0x85, 0xa0, 0x1680, 0x2028, 0x2029, 0x202f, 0x205f,
    0x3000].contains c.toNat || (0x2000 ≤ c.toNat && c.toNat ≤ 0x200a)

/-- `strings.TrimSpace`. -/
def trimSpace (s : String) : String :=
  String.ofList ((s.toList.dropWhile isSpace).rdropWhile isSpace)

/-- `len(s)`, in bytes. -/
def byteLength (s : String) : Nat :=
  s.utf8ByteSize

/-- As many of the characters as the bytes hold. -/
def clipChars : Nat → List Char → List Char
  | _, [] => []
  | limit, c :: rest =>
      if c.utf8Size ≤ limit then c :: clipChars (limit - c.utf8Size) rest else []

/-- `s[:limit]` of a longer text, without the first bytes of a character that it cuts. -/
def clip (limit : Nat) (s : String) : String :=
  String.ofList (clipChars limit s.toList)

/-- `strconv.Atoi`. -/
def atoi (s : String) : Option Int :=
  let (negative, digits) := match s.toList with
    | '-' :: rest => (true, rest)
    | '+' :: rest => (false, rest)
    | rest => (false, rest)
  if digits.isEmpty || !digits.all Char.isDigit then none
  else
    let magnitude : Int := digits.foldl (fun n c => 10 * n + (c.toNat - '0'.toNat)) 0
    let value := if negative then -magnitude else magnitude
    if -2 ^ 63 ≤ value ∧ value < 2 ^ 63 then some value else none

/-- `strings.ReplaceAll(s, old, new)` for single characters. -/
def replaceChar (old new : Char) (s : String) : String :=
  String.ofList (s.toList.map fun c => if c = old then new else c)

/-- `strings.NewReplacer(old, new, ...).Replace(s)` where every `old` is a single character. -/
def replaceAll (replacements : List (Char × String)) (s : String) : String :=
  String.ofList (s.toList.flatMap fun c =>
    match replacements.lookup c with
    | some new => new.toList
    | none => [c])

/-- `strings.HasPrefix`. -/
def hasPrefix (s front : String) : Bool :=
  front.toList.isPrefixOf s.toList

/-- `strings.TrimPrefix`. -/
def trimPrefix (s front : String) : String :=
  if hasPrefix s front then String.ofList (s.toList.drop front.toList.length) else s

/-- `strings.Contains`. -/
def contains (s middle : String) : Bool :=
  s.toList.tails.any middle.toList.isPrefixOf

/-- Simple case folding, as far as it relates a character to an ASCII letter:
besides the letters themselves only the long s and the Kelvin sign fold to one. -/
def foldChar (c : Char) : Char :=
  if c.toNat = 0x17f then 's'
  else if c.toNat = 0x212a then 'k'
  else c.toLower

/-- `strings.EqualFold` when one side is ASCII. -/
def equalFold (s t : String) : Bool :=
  s.toList.map foldChar == t.toList.map foldChar

/-- A SQL `NULLIF(s, '')`. -/
def nullIfEmpty (s : String) : Option String :=
  if s = "" then none else some s

theorem replaceChar_of_not_mem {old new : Char} {s : String} (h : old ∉ s.toList) :
    replaceChar old new s = s := by
  have hmap : (s.toList.map fun c => if c = old then new else c) = s.toList.map id :=
    List.map_congr_left fun c hc => if_neg (ne_of_mem_of_not_mem hc h)
  rw [replaceChar, hmap, List.map_id, String.ofList_toList]

theorem trimSpace_of_forall {s : String} (h : ∀ c ∈ s.toList, isSpace c = false) :
    trimSpace s = s := by
  have hfront : s.toList.dropWhile isSpace = s.toList :=
    List.dropWhile_eq_self_iff.mpr fun hl => by simp [h _ (List.getElem_mem hl)]
  have hback : s.toList.rdropWhile isSpace = s.toList :=
    List.rdropWhile_eq_self_iff.mpr fun hl => by simp [h _ (List.getLast_mem hl)]
  rw [trimSpace, hfront, hback, String.ofList_toList]

/-- A text is not found where its first character does not occur. -/
theorem contains_append_of_not_mem {front rest middle : String} {c : Char} {tail : List Char}
    (hmiddle : middle.toList = c :: tail) (h : c ∉ front.toList) :
    contains (front ++ rest) middle = contains rest middle := by
  simp only [contains, String.toList_append, hmiddle]
  generalize front.toList = chars at h
  induction chars with
  | nil => rfl
  | cons d chars ih =>
      simp only [List.mem_cons, not_or] at h
      simp only [List.cons_append, List.tails_cons, List.any_cons, ih h.2]
      simp [List.isPrefixOf, h.1]

theorem hasPrefix_iff {s front : String} : hasPrefix s front = true ↔ front.toList <+: s.toList :=
  List.isPrefixOf_iff_prefix

theorem contains_iff {s middle : String} :
    contains s middle = true ↔ middle.toList <:+: s.toList := by
  simp only [contains, List.any_eq_true, List.mem_tails, List.isPrefixOf_iff_prefix]
  constructor
  · rintro ⟨rest, hsuffix, hprefix⟩
    exact hprefix.isInfix.trans hsuffix.isInfix
  · intro h
    obtain ⟨rest, hprefix, hsuffix⟩ := List.infix_iff_prefix_suffix.mp h
    exact ⟨rest, hsuffix, hprefix⟩

/-- A text without certain characters stays where they are dropped. -/
theorem infix_dropWhile {p : Char → Bool} {middle chars : List Char}
    (hmiddle : ∀ c ∈ middle, p c = false) (hne : middle ≠ []) (h : middle <:+: chars) :
    middle <:+: chars.dropWhile p := by
  induction chars with
  | nil => exact h
  | cons c chars ih =>
      cases hc : p c with
      | false =>
          rw [List.dropWhile_cons_of_neg (by simp [hc])]
          exact h
      | true =>
          rw [List.dropWhile_cons_of_pos hc]
          rcases List.infix_cons_iff.mp h with hprefix | htail
          · obtain ⟨d, middle, rfl⟩ := List.exists_cons_of_ne_nil hne
            obtain ⟨rfl, -⟩ := List.cons_prefix_cons.mp hprefix
            rw [hmiddle d List.mem_cons_self] at hc
            cases hc
          · exact ih htail

/-- A text without spaces stays where spaces are trimmed. -/
theorem infix_trimSpace {middle : List Char} {s : String}
    (hmiddle : ∀ c ∈ middle, isSpace c = false) (hne : middle ≠ []) (h : middle <:+: s.toList) :
    middle <:+: (trimSpace s).toList := by
  rw [trimSpace, String.toList_ofList, List.rdropWhile, ← List.reverse_infix, List.reverse_reverse]
  apply infix_dropWhile
  · exact fun c hc => hmiddle c (List.mem_reverse.mp hc)
  · simpa using hne
  · rw [List.reverse_infix]
    exact infix_dropWhile hmiddle hne h

example : trimSpace " a b\u00a0" = "a b" := by decide

example : contains "x/../y" "../" = true := by decide

end PriceScout.Library.GoStrings
