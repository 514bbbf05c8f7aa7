import PriceScout.Library.GoStrings

/-!
Texts as bytes, in UTF-8: where a text may be cut, and what decoding its first
or its last character gives when it has been cut within one.
-/

namespace PriceScout.Library.Utf8

open PriceScout.Library.GoStrings

/-- The bytes of a text. -/
def utf8 (chars : List Char) : List UInt8 :=
  chars.flatMap String.utf8EncodeChar

def byteCount (chars : List Char) : Nat :=
  (utf8 chars).length

/-- `utf8.Valid`. -/
def Valid (bytes : List UInt8) : Prop :=
  ∃ chars, utf8 chars = bytes

/-- No character of the text spreads over this place. -/
def Boundary (chars : List Char) (n : Nat) : Prop :=
  ∃ front, front <+: chars ∧ byteCount front = n

/-- Some bytes of a character, from the first on, but not all of them. -/
def Torn (bytes : List UInt8) : Prop :=
  bytes ≠ [] ∧ ∃ c, bytes <+: String.utf8EncodeChar c ∧ bytes ≠ String.utf8EncodeChar c

/-- The character that the bytes begin with. -/
def decodeFirst (bytes : List UInt8) : Option Char :=
  bytes.toByteArray.utf8DecodeChar? 0

/-- A byte that a character can begin with. -/
def startsChar (b : UInt8) : Bool :=
  decide b.IsUTF8FirstByte

/-- The character that the bytes end with: the last byte that can begin one
does, and it reaches to the end. -/
def decodeLast (bytes : List UInt8) : Option Char :=
  let rest := bytes.rtakeWhile fun b => !startsChar b
  (bytes.rdropWhile fun b => !startsChar b).getLast?.bind fun start =>
    (decodeFirst (start :: rest)).filter fun c => c.utf8Size = rest.length + 1

/-- `if len(s) > limit { s = s[:limit] }`. -/
def clipBytes (limit : Nat) (bytes : List UInt8) : List UInt8 :=
  if limit < bytes.length then bytes.take limit else bytes

/-- `strings.TrimLeftFunc(s, unicode.IsSpace)`, in `n` turns at most. -/
def trimLeft : Nat → List UInt8 → List UInt8
  | 0, bytes => bytes
  | n + 1, bytes =>
      match decodeFirst bytes with
      | some c => if isSpace c then trimLeft n (bytes.drop c.utf8Size) else bytes
      | none => bytes

/-- `strings.TrimRightFunc(s, unicode.IsSpace)`, in `n` turns at most. -/
def trimRight : Nat → List UInt8 → List UInt8
  | 0, bytes => bytes
  | n + 1, bytes =>
      match decodeLast bytes with
      | some c => if isSpace c then trimRight n (bytes.take (bytes.length - c.utf8Size)) else bytes
      | none => bytes

/-- `strings.TrimSpace`. What is no character is no space. -/
def trimSpace (bytes : List UInt8) : List UInt8 :=
  let front := trimLeft bytes.length bytes
  trimRight front.length front

@[simp] theorem utf8_nil : utf8 [] = [] :=
  rfl

@[simp] theorem utf8_cons (c : Char) (chars : List Char) :
    utf8 (c :: chars) = String.utf8EncodeChar c ++ utf8 chars :=
  List.flatMap_cons

@[simp] theorem utf8_append (front rest : List Char) :
    utf8 (front ++ rest) = utf8 front ++ utf8 rest :=
  List.flatMap_append

@[simp] theorem byteCount_nil : byteCount [] = 0 :=
  rfl

@[simp] theorem byteCount_cons (c : Char) (chars : List Char) :
    byteCount (c :: chars) = c.utf8Size + byteCount chars := by
  simp [byteCount]

@[simp] theorem byteCount_append (front rest : List Char) :
    byteCount (front ++ rest) = byteCount front + byteCount rest := by
  simp [byteCount]

@[simp] theorem length_utf8 (chars : List Char) : (utf8 chars).length = byteCount chars :=
  rfl

theorem byteCount_replicate (n : Nat) (c : Char) :
    byteCount (List.replicate n c) = n * c.utf8Size := by
  induction n with
  | zero => simp
  | succ n ih => rw [List.replicate_succ, byteCount_cons, ih, Nat.succ_mul, Nat.add_comm]

theorem valid_utf8 (chars : List Char) : Valid (utf8 chars) :=
  ⟨chars, rfl⟩

section Decoding

variable {c d : Char} {bytes rest : List UInt8} {chars chars' : List Char}

theorem decodeFirst_eq_some_iff :
    decodeFirst bytes = some c ↔ String.utf8EncodeChar c <+: bytes := by
  constructor
  · intro h
    obtain ⟨rest, hrest⟩ := ByteArray.exists_of_utf8DecodeChar?_eq_some h
    have hlists := congrArg (fun b => b.data.toList) hrest
    simp only [List.toList_data_toByteArray, ByteArray.toList_data_append] at hlists
    exact ⟨rest.data.toList, hlists.symm⟩
  · rintro ⟨rest, rfl⟩
    rw [decodeFirst, List.toByteArray_append]
    exact ByteArray.utf8DecodeChar?_utf8EncodeChar_append

/-- No character begins like another. -/
theorem eq_of_prefix (h : String.utf8EncodeChar c <+: bytes)
    (h' : String.utf8EncodeChar d <+: bytes) : c = d := by
  rw [← decodeFirst_eq_some_iff] at h h'
  rw [h] at h'
  exact Option.some.inj h'

theorem not_prefix_of_torn (h : Torn bytes) : ¬ String.utf8EncodeChar c <+: bytes := by
  obtain ⟨-, d, hfront, hne⟩ := h
  intro hc
  obtain rfl := eq_of_prefix (hc.trans hfront) (List.prefix_refl _)
  exact hne (hfront.eq_of_length_le hc.length_le)

theorem decodeFirst_of_torn (h : Torn bytes) : decodeFirst bytes = none :=
  Option.eq_none_iff_forall_ne_some.mpr fun _ hc =>
    not_prefix_of_torn h (decodeFirst_eq_some_iff.mp hc)

/-- A text is read in one way only. -/
theorem prefix_of_utf8 (h : utf8 chars <+: utf8 chars') : chars <+: chars' := by
  induction chars generalizing chars' with
  | nil => exact List.nil_prefix
  | cons c chars ih =>
      cases chars' with
      | nil =>
          have hnil := List.prefix_nil.mp h
          simp [String.utf8EncodeChar_ne_nil] at hnil
      | cons d chars' =>
          rw [utf8_cons, utf8_cons] at h
          obtain rfl : c = d := eq_of_prefix ((List.prefix_append _ _).trans h)
            (List.prefix_append _ _)
          exact List.cons_prefix_cons.mpr ⟨rfl, ih ((List.prefix_append_right_inj _).mp h)⟩

/-- A text that ends within a character is no text. -/
theorem not_valid_of_torn (h : Torn bytes) (chars : List Char) : ¬ Valid (utf8 chars ++ bytes) := by
  rintro ⟨whole, hwhole⟩
  obtain ⟨rest, rfl⟩ := prefix_of_utf8 ⟨bytes, hwhole.symm⟩
  rw [utf8_append, List.append_cancel_left_eq] at hwhole
  cases rest with
  | nil => exact h.1 hwhole.symm
  | cons c rest => exact not_prefix_of_torn h ⟨utf8 rest, hwhole⟩

theorem valid_take_iff {n : Nat} :
    Valid ((utf8 chars).take n) ↔ Boundary chars (min n (byteCount chars)) := by
  constructor
  · rintro ⟨front, hfront⟩
    refine ⟨front, prefix_of_utf8 (hfront ▸ List.take_prefix n _), ?_⟩
    rw [byteCount, hfront, List.length_take, length_utf8]
  · rintro ⟨front, ⟨rest, rfl⟩, hcount⟩
    refine ⟨front, ?_⟩
    rw [List.take_eq_take_min, length_utf8, ← hcount, utf8_append]
    exact (List.take_left' (length_utf8 front)).symm

end Decoding

section Ends

variable {c : Char} {bytes rest : List UInt8} {chars : List Char}

theorem utf8EncodeChar_eq_cons (c : Char) : ∃ start rest, String.utf8EncodeChar c = start :: rest ∧
    startsChar start = true ∧ ∀ b ∈ rest, startsChar b = false := by
  cases hbytes : String.utf8EncodeChar c with
  | nil => exact absurd hbytes String.utf8EncodeChar_ne_nil
  | cons start rest =>
      have hstarts : ∀ i (hi : i < (start :: rest).length),
          startsChar (start :: rest)[i] = decide (i = 0) := by
        intro i hi
        simp only [startsChar, ← hbytes] at hi ⊢
        simp
      refine ⟨start, rest, rfl, hstarts 0 (by simp), ?_⟩
      intro b hb
      obtain ⟨i, hi, rfl⟩ := List.mem_iff_getElem.mp hb
      exact hstarts (i + 1) (by simpa using hi)

theorem decodeLast_append {start : UInt8} (hstart : startsChar start = true)
    (hrest : ∀ b ∈ rest, startsChar b = false) (bytes : List UInt8) :
    decodeLast (bytes ++ start :: rest) =
      (decodeFirst (start :: rest)).filter fun c => c.utf8Size = rest.length + 1 := by
  have hall : ∀ b ∈ rest.reverse, (!startsChar b) = true := by
    simpa using hrest
  have htake : (bytes ++ start :: rest).rtakeWhile (fun b => !startsChar b) = rest := by
    simp [List.rtakeWhile, List.takeWhile_append_of_pos hall, hstart]
  have hdrop : (bytes ++ start :: rest).rdropWhile (fun b => !startsChar b) =
      bytes ++ [start] := by
    simp [List.rdropWhile, List.dropWhile_append_of_pos hall, hstart]
  simp [decodeLast, htake, hdrop]

theorem decodeLast_utf8EncodeChar (bytes : List UInt8) (c : Char) :
    decodeLast (bytes ++ String.utf8EncodeChar c) = some c := by
  obtain ⟨start, rest, hbytes, hstart, hrest⟩ := utf8EncodeChar_eq_cons c
  have hlength := congrArg List.length hbytes
  rw [String.length_utf8EncodeChar, List.length_cons] at hlength
  rw [hbytes, decodeLast_append hstart hrest, ← hbytes,
    decodeFirst_eq_some_iff.mpr (List.prefix_refl _)]
  simp [hlength]

theorem decodeLast_of_torn (h : Torn rest) (bytes : List UInt8) :
    decodeLast (bytes ++ rest) = none := by
  obtain ⟨hne, c, hfront, -⟩ := id h
  obtain ⟨start, tail, hbytes, hstart, htail⟩ := utf8EncodeChar_eq_cons c
  obtain ⟨first, rest, rfl⟩ := List.exists_cons_of_ne_nil hne
  rw [hbytes] at hfront
  obtain ⟨rfl, hrest⟩ := List.cons_prefix_cons.mp hfront
  rw [decodeLast_append hstart fun b hb => htail b (hrest.subset hb), decodeFirst_of_torn h]
  rfl

end Ends

section Cuts

variable {bytes rest : List UInt8} {chars : List Char}

/-- What a text is cut to: some characters, and possibly a torn one. -/
theorem take_utf8 (n : Nat) (chars : List Char) :
    ∃ rest, (utf8 chars).take n = utf8 (clipChars n chars) ++ rest ∧ (rest = [] ∨ Torn rest) := by
  induction chars generalizing n with
  | nil => exact ⟨[], by simp [clipChars], .inl rfl⟩
  | cons c chars ih =>
      rw [utf8_cons, List.take_append, String.length_utf8EncodeChar, clipChars]
      split
      · rename_i hfits
        obtain ⟨rest, htake, hrest⟩ := ih (n - c.utf8Size)
        refine ⟨rest, ?_, hrest⟩
        rw [htake, List.take_of_length_le (by simpa using hfits), utf8_cons, List.append_assoc]
      · rename_i hfits
        refine ⟨(String.utf8EncodeChar c).take n, ?_, ?_⟩
        · rw [Nat.sub_eq_zero_of_le (by omega)]
          simp
        · rcases Nat.eq_zero_or_pos n with rfl | hn
          · exact .inl List.take_zero
          · have hlength : ((String.utf8EncodeChar c).take n).length = n := by
              rw [List.length_take, String.length_utf8EncodeChar]
              omega
            refine .inr ⟨?_, c, List.take_prefix n _, ?_⟩
            · intro hnil
              rw [hnil, List.length_nil] at hlength
              omega
            · intro hwhole
              rw [hwhole, String.length_utf8EncodeChar] at hlength
              omega

theorem length_le_byteCount (chars : List Char) : chars.length ≤ byteCount chars := by
  induction chars with
  | nil => exact Nat.le_refl 0
  | cons c chars ih =>
      have hpos := c.utf8Size_pos
      rw [byteCount_cons, List.length_cons]
      omega

theorem decodeFirst_of_ending (h : rest = [] ∨ Torn rest) : decodeFirst rest = none := by
  rcases h with rfl | htorn
  · rfl
  · exact decodeFirst_of_torn htorn

theorem trimLeft_utf8 {n : Nat} (hrest : rest = [] ∨ Torn rest) (hn : chars.length ≤ n) :
    trimLeft n (utf8 chars ++ rest) = utf8 (chars.dropWhile isSpace) ++ rest := by
  induction chars generalizing n with
  | nil =>
      cases n with
      | zero => rfl
      | succ n =>
          rw [utf8_nil, List.nil_append, trimLeft, decodeFirst_of_ending hrest]
          rfl
  | cons c chars ih =>
      rw [List.length_cons] at hn
      obtain ⟨n, rfl⟩ : ∃ m, n = m + 1 := ⟨n - 1, by omega⟩
      have hfirst : decodeFirst (utf8 (c :: chars) ++ rest) = some c := by
        rw [decodeFirst_eq_some_iff, utf8_cons, List.append_assoc]
        exact List.prefix_append _ _
      have hdrop : (utf8 (c :: chars) ++ rest).drop c.utf8Size = utf8 chars ++ rest := by
        rw [utf8_cons, List.append_assoc]
        exact List.drop_left' (String.length_utf8EncodeChar c)
      rw [trimLeft, hfirst]
      dsimp only
      rw [hdrop]
      by_cases hspace : isSpace c = true
      · rw [if_pos hspace, List.dropWhile_cons_of_pos hspace]
        exact ih (Nat.le_of_succ_le_succ hn)
      · rw [if_neg hspace, List.dropWhile_cons_of_neg hspace]

theorem trimRight_utf8 {n : Nat} (hn : chars.length ≤ n) :
    trimRight n (utf8 chars) = utf8 (chars.rdropWhile isSpace) := by
  induction chars using List.reverseRecOn generalizing n with
  | nil =>
      cases n with
      | zero => rfl
      | succ n => rfl
  | append_singleton chars c ih =>
      rw [List.length_append, List.length_singleton] at hn
      obtain ⟨n, rfl⟩ : ∃ m, n = m + 1 := ⟨n - 1, by omega⟩
      have hsplit : utf8 (chars ++ [c]) = utf8 chars ++ String.utf8EncodeChar c := by
        simp
      have htake : (utf8 (chars ++ [c])).take ((utf8 (chars ++ [c])).length - c.utf8Size) =
          utf8 chars := by
        rw [hsplit, List.length_append, String.length_utf8EncodeChar, Nat.add_sub_cancel]
        exact List.take_left
      have hlast : decodeLast (utf8 (chars ++ [c])) = some c := by
        rw [hsplit]
        exact decodeLast_utf8EncodeChar _ c
      rw [trimRight, hlast]
      dsimp only
      rw [htake]
      by_cases hspace : isSpace c = true
      · rw [if_pos hspace, List.rdropWhile_concat_pos _ _ _ hspace]
        exact ih (Nat.le_of_succ_le_succ hn)
      · rw [if_neg hspace, List.rdropWhile_concat_neg _ _ _ hspace]

theorem trimSpace_utf8 (chars : List Char) :
    trimSpace (utf8 chars) = utf8 ((chars.dropWhile isSpace).rdropWhile isSpace) := by
  have hfront : trimLeft (utf8 chars).length (utf8 chars) = utf8 (chars.dropWhile isSpace) := by
    have h : trimLeft (byteCount chars) (utf8 chars ++ []) = utf8 (chars.dropWhile isSpace) ++ [] :=
      trimLeft_utf8 (.inl rfl) (length_le_byteCount chars)
    simpa using h
  rw [trimSpace, hfront]
  exact trimRight_utf8 (length_le_byteCount _)

/-- A torn character at the end keeps the spaces before it. -/
theorem trimSpace_of_torn (h : Torn rest) (chars : List Char) :
    trimSpace (utf8 chars ++ rest) = utf8 (chars.dropWhile isSpace) ++ rest := by
  have hlength : chars.length ≤ (utf8 chars ++ rest).length := by
    have hle := length_le_byteCount chars
    rw [List.length_append, length_utf8]
    omega
  rw [trimSpace, trimLeft_utf8 (.inr h) hlength]
  generalize (utf8 (chars.dropWhile isSpace) ++ rest).length = n
  cases n with
  | zero => rfl
  | succ n =>
      rw [trimRight, decodeLast_of_torn h]

theorem clipBytes_eq_take (limit : Nat) (bytes : List UInt8) :
    clipBytes limit bytes = bytes.take limit := by
  unfold clipBytes
  split
  · rfl
  · rename_i hle
    exact (List.take_of_length_le (Nat.le_of_not_lt hle)).symm

theorem boundary_byteCount (chars : List Char) : Boundary chars (byteCount chars) :=
  ⟨chars, List.prefix_refl _, rfl⟩

theorem Boundary.le {n : Nat} (h : Boundary chars n) : n ≤ byteCount chars := by
  obtain ⟨front, ⟨rest, rfl⟩, rfl⟩ := h
  rw [byteCount_append]
  exact Nat.le_add_right _ _

theorem clipChars_of_le {n : Nat} (h : byteCount chars ≤ n) : clipChars n chars = chars := by
  induction chars generalizing n with
  | nil => rfl
  | cons c chars ih =>
      rw [byteCount_cons] at h
      rw [clipChars, if_pos (by omega), ih (by omega)]

/-- There is no boundary within a character. -/
theorem not_boundary_within {front rest : List Char} {c : Char} {n : Nat}
    (hfront : byteCount front < n) (hn : n < byteCount front + c.utf8Size) :
    ¬ Boundary (front ++ c :: rest) n := by
  rintro ⟨start, hstart, rfl⟩
  rcases List.prefix_or_prefix_of_prefix hstart (List.prefix_append front (c :: rest)) with h | h
  · obtain ⟨tail, rfl⟩ := h
    rw [byteCount_append] at hfront
    omega
  · obtain ⟨tail, rfl⟩ := h
    rw [List.prefix_append_right_inj] at hstart
    cases tail with
    | nil => simp at hfront
    | cons d tail =>
        obtain ⟨rfl, -⟩ := List.cons_prefix_cons.mp hstart
        rw [byteCount_append, byteCount_cons] at hn
        omega

theorem torn_take {n : Nat} (h : Torn rest) (hn : 0 < n) : Torn (rest.take n) := by
  obtain ⟨hne, c, hfront, hpart⟩ := h
  refine ⟨by simp [hne, Nat.ne_of_gt hn], c, (List.take_prefix n rest).trans hfront, ?_⟩
  intro hwhole
  have hle : (String.utf8EncodeChar c).length ≤ rest.length :=
    hwhole ▸ List.length_take_le' n rest
  exact hpart (hfront.eq_of_length_le hle)

theorem valid_take_of_torn_iff {n : Nat} (h : Torn rest) :
    Valid ((utf8 chars ++ rest).take n) ↔ Boundary chars n := by
  rcases Nat.lt_or_ge (byteCount chars) n with hn | hn
  · rw [List.take_append, List.take_of_length_le (Nat.le_of_lt hn), length_utf8]
    constructor
    · intro hvalid
      exact absurd hvalid (not_valid_of_torn (torn_take h (Nat.sub_pos_of_lt hn)) chars)
    · intro hboundary
      exact absurd hboundary.le (Nat.not_le_of_lt hn)
  · rw [List.take_append_of_le_length hn, valid_take_iff, Nat.min_eq_left hn]

end Cuts

end PriceScout.Library.Utf8
