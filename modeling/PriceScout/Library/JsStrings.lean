import Mathlib.Algebra.Order.BigOperators.Group.List
import Mathlib.Algebra.Order.Ring.Nat
import Mathlib.Data.List.DropRight
import Mathlib.Data.String.Basic

/-!
The operations of JavaScript's strings, on the code points of a string. A
surrogate that a cut leaves alone is the replacement character, as it is
wherever such a string is encoded.
-/

namespace PriceScout.Library.JsStrings

/-- The UTF-16 code units of a character. -/
def utf16Units (c : Char) : Nat :=
  if c.toNat < 0x10000 then 1 else 2

/-- `s.length`. -/
def length (s : String) : Nat :=
  (s.toList.map utf16Units).sum

/-- The characters that `trim` and `\s` take for white space. -/
def isWhiteSpace (c : Char) : Bool :=
  [0x09, 0x0a, 0x0b, 0x0c, 0x0d, 0x20, 0xa0, 0x1680, 0x2028, 0x2029, 0x202f, 0x205f, 0x3000,
    0xfeff].contains c.toNat || (0x2000 ≤ c.toNat && c.toNat ≤ 0x200a)

/-- `s.trimStart()`. -/
def trimStart (s : String) : String :=
  String.ofList (s.toList.dropWhile isWhiteSpace)

/-- `s.trimEnd()`. -/
def trimEnd (s : String) : String :=
  String.ofList (s.toList.rdropWhile isWhiteSpace)

/-- `s.trim()`. -/
def trim (s : String) : String :=
  String.ofList ((s.toList.dropWhile isWhiteSpace).rdropWhile isWhiteSpace)

theorem trim_trim (s : String) : trim (trim s) = trim s := by
  have hstart : ((s.toList.dropWhile isWhiteSpace).rdropWhile isWhiteSpace).dropWhile isWhiteSpace =
      (s.toList.dropWhile isWhiteSpace).rdropWhile isWhiteSpace := by
    refine List.dropWhile_eq_self_iff.mpr fun hlength => ?_
    have hfront := List.rdropWhile_prefix isWhiteSpace (s.toList.dropWhile isWhiteSpace)
    rw [hfront.getElem hlength]
    exact List.dropWhile_get_zero_not isWhiteSpace _ _
  rw [trim, trim, String.toList_ofList, hstart, List.rdropWhile_idempotent]

/-- The first code units of a text. -/
def takeUnits : Nat → List Char → List Char
  | _, [] => []
  | 0, _ :: _ => []
  | 1, c :: _ => if utf16Units c = 1 then [c] else ['\ufffd']
  | n + 2, c :: rest => c :: takeUnits (n + 2 - utf16Units c) rest

/-- `s.slice(0, limit)`. -/
def slice (limit : Nat) (s : String) : String :=
  String.ofList (takeUnits limit s.toList)

/-- `s.startsWith(front)`. -/
def startsWith (s front : String) : Bool :=
  front.toList.isPrefixOf s.toList

/-- `s.replaceAll(c, "")` for a single character. -/
def without (c : Char) (s : String) : String :=
  String.ofList (s.toList.filter (· ≠ c))

def replaceFirstChar (old new : Char) : List Char → List Char
  | [] => []
  | c :: rest => if c = old then new :: rest else c :: replaceFirstChar old new rest

/-- `s.replace(old, new)` for single characters. -/
def replaceFirst (old new : Char) (s : String) : String :=
  String.ofList (replaceFirstChar old new s.toList)

/-- Each run of characters of a class becomes one space; the flag tells whether
a run is going on. -/
def collapseRuns (p : Char → Bool) : Bool → List Char → List Char
  | _, [] => []
  | running, c :: rest =>
      if p c then if running then collapseRuns p true rest else ' ' :: collapseRuns p true rest
      else c :: collapseRuns p false rest

/-- `s.replace(/[...]+/g, " ")`. -/
def collapse (p : Char → Bool) (s : String) : String :=
  String.ofList (collapseRuns p false s.toList)

/-- `s.lastIndexOf(c)` for a single character. -/
def lastIndexOf (c : Char) (s : List Char) : Option Nat :=
  if c ∈ s then some (s.length - 1 - s.reverse.idxOf c) else none

/-- `s.split(separator)` for a single character. -/
def splitChars (separator : Char) : List Char → List (List Char)
  | [] => [[]]
  | c :: rest =>
      if c = separator then [] :: splitChars separator rest
      else match splitChars separator rest with
        | [] => [[c]]
        | part :: parts => (c :: part) :: parts

def split (separator : Char) (s : String) : List String :=
  (splitChars separator s.toList).map String.ofList

def isAsciiLower (c : Char) : Bool :=
  'a' ≤ c && c ≤ 'z'

def isAsciiUpper (c : Char) : Bool :=
  'A' ≤ c && c ≤ 'Z'

def isAsciiDigit (c : Char) : Bool :=
  '0' ≤ c && c ≤ '9'

/-- The characters of `\w`. -/
def isWordChar (c : Char) : Bool :=
  isAsciiLower c || isAsciiUpper c || isAsciiDigit c || c = '_'

theorem isAsciiDigit_iff {c : Char} : isAsciiDigit c = true ↔ 0x30 ≤ c.toNat ∧ c.toNat ≤ 0x39 := by
  simp [isAsciiDigit, Char.le_def, UInt32.le_iff_toNat_le]

theorem isAsciiUpper_iff {c : Char} : isAsciiUpper c = true ↔ 0x41 ≤ c.toNat ∧ c.toNat ≤ 0x5a := by
  simp [isAsciiUpper, Char.le_def, UInt32.le_iff_toNat_le]

theorem isAsciiLower_iff {c : Char} : isAsciiLower c = true ↔ 0x61 ≤ c.toNat ∧ c.toNat ≤ 0x7a := by
  simp [isAsciiLower, Char.le_def, UInt32.le_iff_toNat_le]

@[simp] theorem length_ofList (chars : List Char) :
    length (String.ofList chars) = (chars.map utf16Units).sum := by
  simp [length]

theorem utf16Units_pos (c : Char) : 1 ≤ utf16Units c := by
  unfold utf16Units
  split <;> omega

theorem utf16Units_le (c : Char) : utf16Units c ≤ 2 := by
  unfold utf16Units
  split <;> omega

theorem length_pos_of_mem {s : String} {c : Char} (h : c ∈ s.toList) : 1 ≤ length s :=
  (utf16Units_pos c).trans (List.single_le_sum (fun _ _ => Nat.zero_le _) _ (List.mem_map_of_mem h))

/-- A text that is not too long is kept whole. -/
theorem takeUnits_of_le {n : Nat} {chars : List Char} (h : (chars.map utf16Units).sum ≤ n) :
    takeUnits n chars = chars := by
  induction chars generalizing n with
  | nil => simp [takeUnits]
  | cons c rest ih =>
      have hpos := utf16Units_pos c
      simp only [List.map_cons, List.sum_cons] at h
      match n, h with
      | 0, h => omega
      | 1, h =>
          have hrest : rest = [] := by
            cases rest with
            | nil => rfl
            | cons d rest =>
                have hnext := utf16Units_pos d
                simp only [List.map_cons, List.sum_cons] at h
                omega
          have hone : utf16Units c = 1 := by omega
          simp [takeUnits, hone, hrest]
      | n + 2, h => rw [takeUnits, ih (by omega)]

theorem slice_of_le {n : Nat} {s : String} (h : length s ≤ n) : slice n s = s := by
  rw [slice, takeUnits_of_le h, String.ofList_toList]

/-- The first code units of a text are no more than asked for. -/
theorem length_slice_le (n : Nat) (s : String) : length (slice n s) ≤ n := by
  rw [slice, length_ofList]
  generalize s.toList = chars
  induction chars generalizing n with
  | nil => simp [takeUnits]
  | cons c rest ih =>
      match n with
      | 0 => simp [takeUnits]
      | 1 =>
          unfold takeUnits
          split
          · rename_i hone
            simp [hone]
          · decide
      | n + 2 =>
          have hle := utf16Units_le c
          have hrest := ih (n + 2 - utf16Units c)
          simp only [takeUnits, List.map_cons, List.sum_cons]
          omega

/-- A code unit of UTF-16 takes at most three bytes in UTF-8. -/
theorem utf8ByteSize_le (s : String) : s.utf8ByteSize ≤ 3 * length s := by
  rw [← String.utf8Len_toList, length]
  induction s.toList with
  | nil => simp
  | cons c rest ih =>
      have hunit : c.utf8Size ≤ 3 * utf16Units c := by
        unfold Char.utf8Size utf16Units
        simp only [UInt32.le_iff_toNat_le, UInt32.toNat_ofNatLT, Char.toNat]
        split_ifs <;> omega
      simp only [String.utf8Len_cons, List.map_cons, List.sum_cons]
      omega

example : slice 3 "a😀b" = "a😀" := by decide

example : split '/' "openai/gpt" = ["openai", "gpt"] := by decide

end PriceScout.Library.JsStrings
