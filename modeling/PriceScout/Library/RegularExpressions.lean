import Mathlib.Data.List.DropRight
import PriceScout.Library.JsStrings

/-!
JavaScript's regular expressions: greedy, backtracking and tried from left to
right. A matcher lists the places where a match can end, in the order in which
backtracking would come to them, so the match is the first of the list.
-/

namespace PriceScout.Library.RegularExpressions

open PriceScout.Library.JsStrings

/-- A place in a text: what lies before it, nearest character first, and after. -/
structure Cursor where
  before : List Char
  after : List Char
deriving DecidableEq

namespace Cursor

def start (text : List Char) : Cursor where
  before := []
  after := text

def advance (c : Cursor) : Cursor :=
  match c.after with
  | [] => c
  | char :: rest => { before := char :: c.before, after := rest }

/-- `\b`. -/
def atWordBoundary (c : Cursor) : Bool :=
  c.before.head?.any isWordChar != c.after.head?.any isWordChar

/-- The text between a place and a later one. -/
def upTo (c d : Cursor) : List Char :=
  c.after.take (c.after.length - d.after.length)

end Cursor

inductive Regex where
  | empty
  | charClass (p : Char → Bool)
  | seq (first second : Regex)
  | alt (first second : Regex)
  | star (body : Regex)
  | wordBoundary
  | atStart
  | atEnd

/-- The ends of a repetition, longest first. A turn of the body that consumes
nothing is not taken. -/
def iterate (step : Cursor → List Cursor) : Nat → Cursor → List Cursor
  | 0, c => [c]
  | n + 1, c =>
      ((step c).filter fun d => d.after.length < c.after.length).flatMap (iterate step n) ++ [c]

namespace Regex

/-- Where a match that begins at a place can end. -/
def ends : Regex → Cursor → List Cursor
  | empty, c => [c]
  | charClass p, c =>
      match c.after with
      | [] => []
      | char :: _ => if p char then [c.advance] else []
  | seq first second, c => (first.ends c).flatMap second.ends
  | alt first second, c => first.ends c ++ second.ends c
  | star body, c => iterate body.ends c.after.length c
  | wordBoundary, c => if c.atWordBoundary then [c] else []
  | atStart, c => if c.before.isEmpty then [c] else []
  | atEnd, c => if c.after.isEmpty then [c] else []

def char (c : Char) : Regex :=
  charClass (· = c)

/-- A letter with the flag `i`, which only relates ASCII letters to each other. -/
def charIgnoreCase (c : Char) : Regex :=
  charClass fun d => d.toLower = c.toLower

def literal (text : String) : Regex :=
  text.toList.foldr (fun c rest => seq (char c) rest) empty

def literalIgnoreCase (text : String) : Regex :=
  text.toList.foldr (fun c rest => seq (charIgnoreCase c) rest) empty

/-- The first alternative that matches, of several. -/
def oneOf : List Regex → Regex
  | [] => charClass fun _ => false
  | [r] => r
  | r :: rest => alt r (oneOf rest)

def all : List Regex → Regex
  | [] => empty
  | [r] => r
  | r :: rest => seq r (all rest)

def opt (r : Regex) : Regex :=
  alt r empty

def plus (r : Regex) : Regex :=
  seq r (star r)

/-- `r{n}`. -/
def times : Nat → Regex → Regex
  | 0, _ => empty
  | n + 1, r => seq r (times n r)

/-- `r{0,n}`. -/
def atMost : Nat → Regex → Regex
  | 0, _ => empty
  | n + 1, r => opt (seq r (atMost n r))

/-- `r{n,n + extra}`. -/
def between (n extra : Nat) (r : Regex) : Regex :=
  seq (times n r) (atMost extra r)

def digit : Regex :=
  charClass isAsciiDigit

def whiteSpace : Regex :=
  charClass isWhiteSpace

end Regex

/-- A match of a text: what precedes it, what it covers and what follows it. -/
structure Match where
  before : List Char
  text : List Char
  after : List Char
deriving DecidableEq

/-- Try one place after the other, `n` of them at most. -/
def searchFrom (r : Regex) : Nat → Cursor → Option (Cursor × Cursor)
  | 0, _ => none
  | n + 1, c =>
      match r.ends c with
      | d :: _ => some (c, d)
      | [] => if c.after.isEmpty then none else searchFrom r n c.advance

/-- `lastIndex` after a match: an empty match moves on by one character. -/
def resume (c d : Cursor) : Cursor :=
  if d.after.length < c.after.length then d else d.advance

def matchesFrom (r : Regex) : Nat → Cursor → List Match
  | 0, _ => []
  | n + 1, c =>
      match searchFrom r (c.after.length + 1) c with
      | none => []
      | some (c', d) =>
          { before := c'.before.reverse, text := c'.upTo d, after := d.after } ::
            if d.after.isEmpty && c'.after.isEmpty then [] else matchesFrom r n (resume c' d)

/-- `text.matchAll(r)`. -/
def matchAll (r : Regex) (text : List Char) : List Match :=
  matchesFrom r (text.length + 1) (Cursor.start text)

/-- `r.exec(text)`, without the captures. -/
def exec (r : Regex) (text : List Char) : Option Match :=
  (searchFrom r (text.length + 1) (Cursor.start text)).map fun (c, d) =>
    { before := c.before.reverse, text := c.upTo d, after := d.after }

/-- `r.test(text)`. -/
def test (r : Regex) (text : List Char) : Bool :=
  (exec r text).isSome

example : matchAll (.plus .digit) "a12b3".toList =
    [⟨['a'], ['1', '2'], ['b', '3']⟩, ⟨['a', '1', '2', 'b'], ['3'], []⟩] := by decide

end PriceScout.Library.RegularExpressions
