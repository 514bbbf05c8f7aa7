import Mathlib.Data.List.TakeDrop

/-!
Event streams as a browser reads them: lines that name a field, comments, and a
blank line that dispatches what has been collected.
-/

namespace PriceScout.Library.EventStreams

/-- An event that has been dispatched. -/
structure MessageEvent where
  type : List Char
  data : List Char
  lastEventId : List Char
deriving DecidableEq, Repr

/-- What has been read of a stream. A carriage return ends a line, and a line feed
right after it belongs to the same line end. -/
structure Reader where
  line : List Char
  returned : Bool
  type : List Char
  data : List Char
  lastEventId : List Char
  dispatched : List MessageEvent
deriving DecidableEq, Repr

def Reader.start : Reader :=
  ⟨[], false, [], [], [], []⟩

/-- One leading space of a value is dropped. -/
def dropSpace : List Char → List Char
  | ' ' :: rest => rest
  | value => value

/-- The name and the value of a field. -/
def splitField (line : List Char) : List Char × List Char :=
  match line.span (· ≠ ':') with
  | (name, _ :: value) => (name, dropSpace value)
  | (name, []) => (name, [])

namespace Reader

def readField (r : Reader) (name value : List Char) : Reader :=
  if name = "event".toList then { r with type := value }
  else if name = "data".toList then { r with data := r.data ++ value ++ ['\n'] }
  else if name = "id".toList then
    if value.contains '\x00' then r else { r with lastEventId := value }
  else r

/-- Without data nothing is dispatched. -/
def dispatch (r : Reader) : Reader :=
  if r.data = [] then { r with type := [] }
  else
    { r with
      type := []
      data := []
      dispatched := r.dispatched ++ [{
        type := if r.type = [] then "message".toList else r.type
        data := r.data.dropLast
        lastEventId := r.lastEventId }] }

/-- The end of a line. A line that starts with a colon is a comment. -/
def endLine (r : Reader) : Reader :=
  let r' := { r with line := [] }
  match r.line with
  | [] => r'.dispatch
  | ':' :: _ => r'
  | line => r'.readField (splitField line).1 (splitField line).2

def feed (r : Reader) (c : Char) : Reader :=
  if c = '\n' then
    if r.returned then { r with returned := false } else r.endLine
  else if c = '\r' then { r.endLine with returned := true }
  else { r with line := r.line ++ [c], returned := false }

def feedAll (r : Reader) (text : List Char) : Reader :=
  text.foldl feed r

end Reader

/-- The events that a browser has dispatched after it read the text. A byte order
mark in front is not part of the stream. -/
def events (text : List Char) : List MessageEvent :=
  (Reader.start.feedAll (if text.head? = some '\uFEFF' then text.tail else text)).dispatched

section Feeding

variable {r : Reader} {first second line : List Char}

@[simp] theorem feedAll_nil : r.feedAll [] = r :=
  rfl

theorem feedAll_append : r.feedAll (first ++ second) = (r.feedAll first).feedAll second :=
  List.foldl_append

theorem feedAll_cons {c : Char} : r.feedAll (c :: second) = (r.feed c).feedAll second :=
  rfl

/-- What is within a line is collected. -/
theorem feedAll_line (hreturned : r.returned = false) (h : ∀ c ∈ line, c ≠ '\n' ∧ c ≠ '\r') :
    r.feedAll line = { r with line := r.line ++ line } := by
  induction line generalizing r with
  | nil => simp
  | cons c line ih =>
      obtain ⟨hfeed, hreturn⟩ := h c List.mem_cons_self
      rw [feedAll_cons, Reader.feed, if_neg hfeed, if_neg hreturn,
        ih rfl fun d hd => h d (List.mem_cons_of_mem _ hd)]
      simp [hreturned]

/-- A whole line. -/
theorem feedAll_line_end (hline : r.line = []) (hreturned : r.returned = false)
    (h : ∀ c ∈ line, c ≠ '\n' ∧ c ≠ '\r') :
    r.feedAll (line ++ ['\n']) = { r with line := line }.endLine := by
  rw [feedAll_append, feedAll_line hreturned h, hline, List.nil_append, feedAll_cons, Reader.feed,
    if_pos rfl, feedAll_nil]
  simp [hreturned]

theorem splitField_append {name value : List Char} (h : ':' ∉ name) :
    splitField (name ++ ':' :: value) = (name, dropSpace value) := by
  have hname : ∀ c ∈ name, decide (c ≠ ':') = true := by
    intro c hc
    rw [decide_eq_true_eq]
    rintro rfl
    exact h hc
  have hspan : (name ++ ':' :: value).span (· ≠ ':') = (name, ':' :: value) := by
    rw [List.span_eq_takeWhile_dropWhile, List.takeWhile_append_of_pos hname,
      List.dropWhile_append_of_pos hname]
    simp
  rw [splitField, hspan]

/-- A line that names a field. -/
theorem endLine_field {c : Char} {name value : List Char} (h : ':' ∉ c :: name)
    (hline : r.line = c :: name ++ ':' :: value) :
    r.endLine = { r with line := [] }.readField (c :: name) (dropSpace value) := by
  have hc : c ≠ ':' := fun hsame => h (hsame ▸ List.mem_cons_self)
  have hsplit := @splitField_append (c :: name) value h
  rw [← hline] at hsplit
  unfold Reader.endLine
  dsimp only
  split
  · rename_i hnone
    simp [hnone] at hline
  · rename_i hcomment
    rw [hcomment] at hline
    exact absurd (List.cons.inj hline).1.symm hc
  · rw [hsplit]

theorem dispatched_readField {name value : List Char} :
    (r.readField name value).dispatched = r.dispatched := by
  unfold Reader.readField
  repeat' split
  all_goals rfl

theorem dispatched_endLine (r : Reader) : r.dispatched <+: r.endLine.dispatched := by
  unfold Reader.endLine
  dsimp only
  split
  · unfold Reader.dispatch
    split
    · exact List.prefix_refl _
    · exact List.prefix_append _ _
  · exact List.prefix_refl _
  · simp [dispatched_readField]

theorem dispatched_feed (r : Reader) (c : Char) : r.dispatched <+: (r.feed c).dispatched := by
  unfold Reader.feed
  split
  · split
    · exact List.prefix_refl _
    · exact dispatched_endLine r
  · split
    · exact dispatched_endLine r
    · exact List.prefix_refl _

theorem dispatched_feedAll (r : Reader) (text : List Char) :
    r.dispatched <+: (r.feedAll text).dispatched := by
  induction text generalizing r with
  | nil => exact List.prefix_refl _
  | cons c text ih => exact (dispatched_feed r c).trans (ih (r.feed c))

/-- What has been dispatched before a stream breaks is the front of what it would
have given. -/
theorem events_prefix {c : Char} (h : first <+: c :: second) :
    events first <+: events (c :: second) := by
  obtain ⟨rest, hrest⟩ := h
  cases first with
  | nil =>
      have hnone : events [] = [] := rfl
      rw [hnone]
      exact List.nil_prefix
  | cons d first =>
      obtain ⟨rfl, rfl⟩ := List.cons.inj hrest
      by_cases hmark : d = '\uFEFF'
      · simp only [events, hmark, List.head?_cons, if_true, List.tail_cons, List.append_eq]
        rw [feedAll_append]
        exact dispatched_feedAll _ _
      · simp only [events, List.head?_cons, Option.some.injEq, if_neg hmark, List.append_eq]
        rw [← List.cons_append, feedAll_append]
        exact dispatched_feedAll _ _

end Feeding

end PriceScout.Library.EventStreams
