import PriceScout.Httpapi.TargetAddresses
import PriceScout.Library.CaseMappings
import PriceScout.Library.Searches
import PriceScout.Worker.Safety

/-!
The addresses that the control plane denies to a target, and which of them the
worker denies as well when it resolves the target again.
-/

namespace PriceScout.Worker.AddressPolicy

open PriceScout.Httpapi.TargetAddresses
open PriceScout.Library.CaseMappings
open PriceScout.Library.IPAddresses
open PriceScout.Library.JsStrings
open PriceScout.Library.Numbers
open PriceScout.Library.RegularExpressions
open PriceScout.Library.Searches
open PriceScout.Worker.Environment
open PriceScout.Worker.Safety

variable {runtime : Runtime}

/-! Octets. -/

theorem decimal_spec {n : Nat} (h : n < 256) :
    (Addr.decimal n).all isAsciiDigit = true ∧ digitsValue (Addr.decimal n) = n ∧
      Addr.decimal n ≠ [] := by
  revert n
  decide +kernel

theorem isAsciiDigit_of_mem_decimal {n : Nat} (h : n < 256) {c : Char} (hc : c ∈ Addr.decimal n) :
    isAsciiDigit c = true :=
  List.all_eq_true.mp (decimal_spec h).1 c hc

theorem dot_not_mem_decimal {n : Nat} (h : n < 256) : '.' ∉ Addr.decimal n := by
  intro hdot
  have hdigit := isAsciiDigit_of_mem_decimal h hdot
  cases hdigit

theorem octet_decimal {n : Nat} (h : n < 256) :
    octet (String.ofList (Addr.decimal n)) = some n := by
  obtain ⟨hall, hvalue, -⟩ := decimal_spec h
  rw [octet, String.toList_ofList, if_pos hall, hvalue]

theorem splitChars_of_not_mem {separator : Char} {v : List Char} (hv : separator ∉ v) :
    splitChars separator v = [v] := by
  induction v with
  | nil => rfl
  | cons c v ih =>
      rw [splitChars, if_neg (List.ne_of_not_mem_cons hv).symm,
        ih fun hmem => hv (List.mem_cons_of_mem _ hmem)]

theorem splitChars_append {separator : Char} {v rest : List Char} (hv : separator ∉ v) :
    splitChars separator (v ++ separator :: rest) = v :: splitChars separator rest := by
  induction v with
  | nil => simp [splitChars]
  | cons c v ih =>
      rw [List.cons_append, splitChars, if_neg (List.ne_of_not_mem_cons hv).symm,
        ih fun hmem => hv (List.mem_cons_of_mem _ hmem)]

/-- What the worker says of an address of IPv4 is said of its octets. -/
theorem isPrivateIPv4_dotted_iff (a b c d : Fin 256) :
    isPrivateIPv4 (String.ofList (Addr.dotted a b c d)) = true ↔ DeniedNetwork a b c := by
  have hsplit : split '.' (String.ofList (Addr.dotted a b c d)) =
      [String.ofList (Addr.decimal a), String.ofList (Addr.decimal b),
       String.ofList (Addr.decimal c), String.ofList (Addr.decimal d)] := by
    rw [split, String.toList_ofList, Addr.dotted, splitChars_append (dot_not_mem_decimal a.isLt),
      splitChars_append (dot_not_mem_decimal b.isLt),
        splitChars_append (dot_not_mem_decimal c.isLt),
      splitChars_of_not_mem (dot_not_mem_decimal d.isLt)]
    rfl
  rw [isPrivateIPv4, hsplit]
  simp only [List.map_cons, List.map_nil, octet_decimal a.isLt, octet_decimal b.isLt,
    octet_decimal c.isLt, octet_decimal d.isLt, Bool.or_eq_true, Bool.and_eq_true,
    decide_eq_true_eq, DeniedNetwork, ge_iff_le, or_assoc, and_assoc]

/-! The characters of a text. -/

/-- The characters that an address may be written with. -/
def isAddressChar (x : Char) : Bool :=
  isAsciiDigit x || isAsciiLower x || x = ':' || x = '.'

theorem mem_dotted {a b c d : Fin 256} {x : Char} (h : x ∈ Addr.dotted a b c d) :
    isAsciiDigit x = true ∨ x = '.' := by
  simp only [Addr.dotted, List.mem_append, List.mem_cons] at h
  rcases h with h | h | h | h | h | h | h
  · exact .inl (isAsciiDigit_of_mem_decimal a.isLt h)
  · exact .inr h
  · exact .inl (isAsciiDigit_of_mem_decimal b.isLt h)
  · exact .inr h
  · exact .inl (isAsciiDigit_of_mem_decimal c.isLt h)
  · exact .inr h
  · exact .inl (isAsciiDigit_of_mem_decimal d.isLt h)

theorem not_mem_dotted {a b c d : Fin 256} {x : Char} (hdigit : isAsciiDigit x = false)
    (hdot : x ≠ '.') : x ∉ Addr.dotted a b c d := by
  intro h
  rcases mem_dotted h with h | h
  · rw [hdigit] at h
    cases h
  · exact hdot h

theorem isAddressChar_of_mem_compressed {groups : List Nat} (h : ∀ g ∈ groups, g < 65536) {x : Char}
    (hx : x ∈ Addr.compressed groups) : isAddressChar x = true := by
  have hall : (Addr.hexDigits.all isAddressChar) = true := rfl
  rcases Addr.mem_compressed h hx with rfl | hx
  · rfl
  · exact List.all_eq_true.mp hall x hx

theorem isAddressChar_of_mem_dotted {a b c d : Fin 256} {x : Char} (h : x ∈ Addr.dotted a b c d) :
    isAddressChar x = true := by
  rcases mem_dotted h with h | rfl
  · simp [isAddressChar, h]
  · rfl

theorem isAddressChar_of_mem_chars {address : Addr} {x : Char} (h : x ∈ address.chars) :
    isAddressChar x = true := by
  have hall : ("::ffff:".toList.all isAddressChar) = true := rfl
  cases address with
  | v4 a b c d => exact isAddressChar_of_mem_dotted h
  | v6 h₀ h₁ h₂ h₃ h₄ h₅ h₆ h₇ =>
      unfold Addr.chars at h
      simp only at h
      split at h
      · rcases List.mem_append.mp h with h | h
        · exact List.all_eq_true.mp hall x h
        · exact isAddressChar_of_mem_dotted h
      · refine isAddressChar_of_mem_compressed (fun g hg => ?_) h
        simp only [List.mem_cons, List.not_mem_nil, or_false] at hg
        rcases hg with rfl | rfl | rfl | rfl | rfl | rfl | rfl | rfl <;> exact Fin.isLt _

/-- The text of an address has no upper case. -/
theorem toLowerCase_text (hlower : LowersAscii runtime.toLowerCase) (address : Addr) :
    runtime.toLowerCase address.text = address.text := by
  have hchar : ∀ x ∈ address.chars, x.toNat < 128 ∧ x.toLower = x := fun x hx => by
    have hx := isAddressChar_of_mem_chars hx
    simp only [isAddressChar, Bool.or_eq_true, decide_eq_true_eq, isAsciiDigit_iff,
      isAsciiLower_iff] at hx
    have hcolon : ':'.toNat = 58 := rfl
    have hdot : '.'.toNat = 46 := rfl
    have hrange : x.toNat < 128 ∧ ¬ (0x41 ≤ x.toNat ∧ x.toNat ≤ 0x5a) := by
      rcases hx with ((hx | hx) | rfl) | rfl
      · omega
      · omega
      · omega
      · omega
    refine ⟨hrange.1, Char.toLower_eq_of_not_isUpper ?_⟩
    rw [← isAsciiUpper_eq, isAsciiUpper_iff]
    exact hrange.2
  rw [← String.toList_inj, Addr.text, hlower.whole fun x hx => (hchar x hx).1,
    String.toList_ofList]
  exact (List.map_congr_left fun x hx => (hchar x hx).2).trans (List.map_id _)

/-! What the worker compares a text with. -/

/-- The beginnings and the texts of IPv6 that the worker denies. -/
def DeniedText (value : String) : Prop :=
  value = "::1" ∨ value = "::" ∨ startsWith value "fe80:" = true ∨ startsWith value "fc" = true ∨
    startsWith value "fd" = true ∨ startsWith value "ff" = true ∨ value = "2001:db8::" ∨
    startsWith value "2001:db8:" = true

theorem isPrivateAddress_of_deniedText (hlower : LowersAscii runtime.toLowerCase)
    {address : Addr} (h : DeniedText address.text) :
    isPrivateAddress runtime address.text = true := by
  unfold isPrivateAddress
  simp only [toLowerCase_text hlower]
  exact if_pos h

theorem isPrivateAddress_of_not_deniedText (hlower : LowersAscii runtime.toLowerCase)
    {address : Addr} (h : ¬ DeniedText address.text) :
    isPrivateAddress runtime address.text =
      if test mappedAddress address.chars then isPrivateIPv4 (String.ofList (address.chars.drop 7))
      else isPrivateIPv4 address.text := by
  have hchars : address.text.toList = address.chars := String.toList_ofList
  unfold isPrivateAddress
  simp only [toLowerCase_text hlower, hchars]
  exact if_neg h

theorem ofList_eq_iff {v : List Char} {s : String} : String.ofList v = s ↔ v = s.toList := by
  constructor
  · rintro rfl
    rw [String.toList_ofList]
  · rintro rfl
    rw [String.ofList_toList]

theorem startsWith_ofList_iff {v : List Char} {front : String} :
    startsWith (String.ofList v) front = true ↔ front.toList <+: v := by
  rw [startsWith, String.toList_ofList, List.isPrefixOf_iff_prefix]

theorem deniedText_ofList_iff {v : List Char} :
    DeniedText (String.ofList v) ↔
      v = [':', ':', '1'] ∨ v = [':', ':'] ∨ ['f', 'e', '8', '0', ':'] <+: v ∨
        ['f', 'c'] <+: v ∨ ['f', 'd'] <+: v ∨ ['f', 'f'] <+: v ∨
        v = ['2', '0', '0', '1', ':', 'd', 'b', '8', ':', ':'] ∨
        ['2', '0', '0', '1', ':', 'd', 'b', '8', ':'] <+: v := by
  simp only [DeniedText, ofList_eq_iff, startsWith_ofList_iff]
  rfl

theorem mem_of_startsWith {value front : String} (h : startsWith value front = true) {x : Char}
    (hx : x ∈ front.toList) : x ∈ value.toList :=
  (List.isPrefixOf_iff_prefix.mp h).subset hx

/-- A text that the worker denies has a colon, or begins with an f. -/
theorem colon_or_f_of_deniedText {value : String} (h : DeniedText value) :
    ':' ∈ value.toList ∨ 'f' ∈ value.toList := by
  rcases h with rfl | rfl | h | h | h | h | rfl | h
  · exact .inl (by decide)
  · exact .inl (by decide)
  · exact .inl (mem_of_startsWith h (by decide))
  · exact .inr (mem_of_startsWith h (by decide))
  · exact .inr (mem_of_startsWith h (by decide))
  · exact .inr (mem_of_startsWith h (by decide))
  · exact .inl (by decide)
  · exact .inl (mem_of_startsWith h (by decide))

theorem colon_mem_of_mapped {text : List Char} (h : test mappedAddress text = true) :
    ':' ∈ text := by
  obtain ⟨x, y, rfl, hne⟩ := test_iff.mp h
  obtain ⟨d, hd⟩ := List.exists_mem_of_ne_nil _ hne
  obtain ⟨_, hstart, hd⟩ := mem_ends_seq.mp hd
  obtain ⟨rfl, rfl⟩ := mem_ends_atStart.mp hstart
  obtain ⟨_, hliteral, -⟩ := mem_ends_seq.mp hd
  obtain ⟨z, rfl, -⟩ := (mem_ends_literal "::ffff:").mp hliteral
  exact List.mem_append_left z (by decide)

/-- Digits that something else follows are taken together. -/
theorem mem_ends_plus_digit {x v z : List Char} (hv : v.all isAsciiDigit = true) (hne : v ≠ [])
    (hz : ∀ c ∈ z.head?, isAsciiDigit c = false) :
    between (x ++ v) z ∈ (Regex.plus .digit).ends (between x (v ++ z)) := by
  obtain ⟨c, v, rfl⟩ := List.exists_cons_of_ne_nil hne
  have hdigit := List.all_eq_true.mp hv
  have hrest := first_star_charClass (x := x ++ [c]) (v := v) (z := z) (p := isAsciiDigit)
    (fun d hd => hdigit d (List.mem_cons_of_mem _ hd)) hz
  refine mem_ends_seq.mpr ⟨between (x ++ [c]) (v ++ z), ?_, ?_⟩
  · exact mem_ends_charClass.mpr ⟨c, v ++ z, rfl, hdigit c List.mem_cons_self, rfl⟩
  · simpa [Regex.digit] using hrest.mem

theorem mem_ends_octet {n : Nat} (hn : n < 256) {x z : List Char} {d : Cursor} {r : Regex}
    (h : d ∈ r.ends (between (x ++ Addr.decimal n ++ ['.']) z)) :
    d ∈ (Regex.seq (.plus .digit) (.seq (.char '.') r)).ends
      (between x (Addr.decimal n ++ '.' :: z)) := by
  obtain ⟨hall, -, hne⟩ := decimal_spec hn
  have hdigits := mem_ends_plus_digit (x := x) (z := '.' :: z) hall hne (by
    rintro c ⟨⟩
    rfl)
  have hdot := (mem_ends_char (x := x ++ Addr.decimal n) '.').mpr ⟨z, rfl, rfl⟩
  exact mem_ends_seq.mpr ⟨_, hdigits, mem_ends_seq.mpr ⟨_, hdot, h⟩⟩

theorem test_mappedAddress (a b c d : Fin 256) :
    test mappedAddress ("::ffff:".toList ++ Addr.dotted a b c d) = true := by
  obtain ⟨hall, -, hne⟩ := decimal_spec d.isLt
  have hlast : ∀ x, between (x ++ Addr.decimal d) [] ∈
      (Regex.seq (.plus .digit) .atEnd).ends (between x (Addr.decimal d)) := by
    intro x
    have hdigits := mem_ends_plus_digit (x := x) (z := []) hall hne (by simp)
    rw [List.append_nil] at hdigits
    exact mem_ends_seq.mpr ⟨_, hdigits, mem_ends_atEnd.mpr ⟨rfl, rfl⟩⟩
  have hoctets := mem_ends_octet (x := "::ffff:".toList) a.isLt
    (mem_ends_octet b.isLt (mem_ends_octet c.isLt (hlast _)))
  have hliteral := (mem_ends_literal (x := []) "::ffff:").mpr ⟨Addr.dotted a b c d, rfl, rfl⟩
  rw [List.nil_append] at hliteral
  have hrest := mem_ends_seq.mpr ⟨_, hliteral, hoctets⟩
  have hstart : ∀ y, between [] y ∈ Regex.atStart.ends (between [] y) :=
    fun y => mem_ends_atStart.mpr ⟨rfl, rfl⟩
  have hall := mem_ends_seq.mpr ⟨_, hstart _, hrest⟩
  exact test_iff.mpr ⟨[], _, rfl, List.ne_nil_of_mem hall⟩

/-! Addresses of IPv4, as such and mapped. -/

theorem isPrivateAddress_v4_iff (hlower : LowersAscii runtime.toLowerCase) (a b c d : Fin 256) :
    isPrivateAddress runtime (Addr.v4 a b c d).text = true ↔ DeniedNetwork a b c := by
  have hcolon : ':' ∉ Addr.dotted a b c d := not_mem_dotted rfl (by decide)
  have hf : 'f' ∉ Addr.dotted a b c d := not_mem_dotted rfl (by decide)
  have hnot : ¬ DeniedText (Addr.v4 a b c d).text := by
    intro h
    have hmem := colon_or_f_of_deniedText h
    rw [Addr.text, String.toList_ofList] at hmem
    exact hmem.elim hcolon hf
  have hmapped : test mappedAddress (Addr.v4 a b c d).chars = false := by
    rw [← Bool.not_eq_true]
    exact fun h => hcolon (colon_mem_of_mapped h)
  rw [isPrivateAddress_of_not_deniedText hlower hnot, hmapped, if_neg Bool.false_ne_true]
  exact isPrivateIPv4_dotted_iff a b c d

theorem not_deniedText_mapped (rest : List Char) :
    ¬ DeniedText (String.ofList ("::ffff:".toList ++ rest)) := by
  rw [deniedText_ofList_iff]
  show ¬ ((':' :: ':' :: 'f' :: _) = [':', ':', '1'] ∨ _)
  simp [List.cons_prefix_cons]

theorem isPrivateAddress_mapped_iff (hlower : LowersAscii runtime.toLowerCase) {address : Addr}
    {a b c d : Fin 256} (h : address.chars = "::ffff:".toList ++ Addr.dotted a b c d) :
    isPrivateAddress runtime address.text = true ↔ DeniedNetwork a b c := by
  have hnot : ¬ DeniedText address.text := by
    rw [Addr.text, h]
    exact not_deniedText_mapped _
  have hrest : ("::ffff:".toList ++ Addr.dotted a b c d).drop 7 = Addr.dotted a b c d :=
    List.drop_left' (by decide)
  rw [isPrivateAddress_of_not_deniedText hlower hnot, h, test_mappedAddress, if_pos rfl, hrest]
  exact isPrivateIPv4_dotted_iff a b c d

/-! Addresses of IPv6. -/

theorem isPrivateIPv4_of_no_dot {text : List Char} (h : '.' ∉ text) :
    isPrivateIPv4 (String.ofList text) = false := by
  rw [isPrivateIPv4, split, String.toList_ofList, splitChars_of_not_mem h, List.map_cons,
    List.map_nil, List.map_cons, List.map_nil]
  generalize octet (String.ofList text) = value
  cases value <;> rfl

theorem isPrivateAddress_v6_iff (hlower : LowersAscii runtime.toLowerCase) {address : Addr}
    (h : '.' ∉ address.chars) :
    isPrivateAddress runtime address.text = true ↔ DeniedText address.text := by
  refine ⟨fun hprivate => ?_, isPrivateAddress_of_deniedText hlower⟩
  by_contra hnot
  have hdrop : '.' ∉ address.chars.drop 7 := fun hmem => h (List.mem_of_mem_drop hmem)
  have htext : isPrivateIPv4 address.text = false := isPrivateIPv4_of_no_dot h
  rw [isPrivateAddress_of_not_deniedText hlower hnot, isPrivateIPv4_of_no_dot hdrop, htext,
    ite_self] at hprivate
  cases hprivate

theorem dot_not_mem_compressed {groups : List Nat} (h : ∀ g ∈ groups, g < 65536) :
    '.' ∉ Addr.compressed groups := by
  intro hdot
  rcases Addr.mem_compressed h hdot with hcolon | hdigit
  · cases hcolon
  · exact absurd hdigit (by decide)

/-- A text begins with its first group, when it has four digits. -/
theorem compressed_of_le {g : Nat} (h : 0x1000 ≤ g) {rest : List Nat} (hrest : rest ≠ []) :
    ∃ tail, Addr.compressed (g :: rest) =
      Addr.hexDigit (g / 0x1000) :: Addr.hexDigit (g / 0x100 % 0x10) ::
        Addr.hexDigit (g / 0x10 % 0x10) :: Addr.hexDigit (g % 0x10) :: ':' :: tail := by
  obtain ⟨tail, htail⟩ := Addr.compressed_append (show [g] ≠ [] by simp)
    (by simp; omega) hrest
  rw [Addr.joined_singleton, Addr.hex_of_le h] at htail
  exact ⟨tail, htail⟩

section Groups

variable {g : Nat} {rest : List Nat}

theorem deniedText_local (h : 0xfc00 ≤ g ∧ g ≤ 0xfdff) (hrest : rest ≠ []) :
    DeniedText (String.ofList (Addr.compressed (g :: rest))) := by
  obtain ⟨tail, htail⟩ := compressed_of_le (g := g) (by omega) hrest
  have hfirst : g / 0x1000 = 15 := by omega
  rw [deniedText_ofList_iff, htail, hfirst]
  rcases (by omega : g / 0x100 % 0x10 = 12 ∨ g / 0x100 % 0x10 = 13) with hsecond | hsecond
  · rw [hsecond]
    exact .inr (.inr (.inr (.inl ⟨_, rfl⟩)))
  · rw [hsecond]
    exact .inr (.inr (.inr (.inr (.inl ⟨_, rfl⟩))))

theorem deniedText_multicast (h : 0xff00 ≤ g) (hlt : g < 65536) (hrest : rest ≠ []) :
    DeniedText (String.ofList (Addr.compressed (g :: rest))) := by
  obtain ⟨tail, htail⟩ := compressed_of_le (g := g) (by omega) hrest
  have hfirst : g / 0x1000 = 15 := by omega
  have hsecond : g / 0x100 % 0x10 = 15 := by omega
  rw [deniedText_ofList_iff, htail, hfirst, hsecond]
  exact .inr (.inr (.inr (.inr (.inr (.inl ⟨_, rfl⟩)))))

/-- Of the addresses of a link only those are denied that begin with `fe80`. -/
theorem deniedText_link_iff (h : 0xfe80 ≤ g ∧ g ≤ 0xfebf) (hrest : rest ≠ []) :
    DeniedText (String.ofList (Addr.compressed (g :: rest))) ↔ g = 0xfe80 := by
  obtain ⟨tail, htail⟩ := compressed_of_le (g := g) (by omega) hrest
  have hfirst : g / 0x1000 = 15 := by omega
  have hsecond : g / 0x100 % 0x10 = 14 := by omega
  have height : ∀ n < 16, '8' = Addr.hexDigit n ↔ n = 8 := by decide
  have hzero : ∀ n < 16, '0' = Addr.hexDigit n ↔ n = 0 := by decide
  have hf : Addr.hexDigit 15 = 'f' := rfl
  have he : Addr.hexDigit 14 = 'e' := rfl
  rw [deniedText_ofList_iff, htail, hfirst, hsecond, hf, he]
  simp only [List.cons_prefix_cons, height _ (Nat.mod_lt _ (by decide : 0 < 0x10)),
    hzero _ (Nat.mod_lt _ (by decide : 0 < 0x10)), List.cons.injEq]
  simp
  omega

theorem deniedText_documentation (hrest : rest ≠ []) :
    DeniedText (String.ofList (Addr.compressed (0x2001 :: 0xdb8 :: rest))) := by
  obtain ⟨tail, htail⟩ := Addr.compressed_append (show [0x2001, 0xdb8] ≠ [] by simp)
    (by simp) hrest
  have hjoined : Addr.joined [0x2001, 0xdb8] = ['2', '0', '0', '1', ':', 'd', 'b', '8'] := rfl
  rw [hjoined] at htail
  rw [deniedText_ofList_iff]
  show _ ∨ _ ∨ _ ∨ _ ∨ _ ∨ _ ∨ _ ∨ _ <+: Addr.compressed ([0x2001, 0xdb8] ++ rest)
  rw [htail]
  exact .inr (.inr (.inr (.inr (.inr (.inr (.inr ⟨tail, rfl⟩))))))

theorem not_deniedText_discard (hrest : rest ≠ []) :
    ¬ DeniedText (String.ofList (Addr.compressed (0x100 :: rest))) := by
  obtain ⟨tail, htail⟩ := Addr.compressed_append (show [0x100] ≠ [] by simp) (by simp) hrest
  have hjoined : Addr.joined [0x100] = ['1', '0', '0'] := rfl
  have hcompressed : Addr.compressed (0x100 :: rest) = '1' :: '0' :: '0' :: ':' :: tail := by
    rw [← List.singleton_append, htail, hjoined]
    rfl
  rw [deniedText_ofList_iff, hcompressed]
  simp

end Groups

/-- The addresses that the control plane denies and the worker lets through:
the relays of IPv6, the discarded addresses, and the addresses of a link that
do not begin with `fe80`. -/
def Uncovered : Addr → Prop
  | .v4 a b c _ => RelayNetwork a b c
  | .v6 h₀ h₁ h₂ h₃ .. =>
      ((h₀ : Nat) = 0x100 ∧ (h₁ : Nat) = 0 ∧ (h₂ : Nat) = 0 ∧ (h₃ : Nat) = 0) ∨
        (0xfe81 ≤ (h₀ : Nat) ∧ (h₀ : Nat) ≤ 0xfebf)

/-- What the control plane denies of IPv4, the worker denies, the relays apart. -/
theorem covered_v4_iff (a b c d : Fin 256) :
    (denied (.v4 a b c d) = true → DeniedNetwork a b c) ↔ ¬ RelayNetwork a b c := by
  constructor
  · intro hcovered hrelay
    have hnetwork := hcovered (denied_relay hrelay)
    simp only [RelayNetwork] at hrelay
    simp only [DeniedNetwork] at hnetwork
    omega
  · intro hrelay hdenied
    exact (denied_v4 hdenied).resolve_right hrelay

theorem compressed_of_value_le {h₀ h₁ h₂ h₃ h₄ h₅ h₆ h₇ : Fin 65536}
    (h : Addr.value (.v6 h₀ h₁ h₂ h₃ h₄ h₅ h₆ h₇) ≤ 1) :
    DeniedText (String.ofList (Addr.compressed [h₀, h₁, h₂, h₃, h₄, h₅, h₆, h₇])) := by
  have hzero : (h₀ : Nat) = 0 ∧ (h₁ : Nat) = 0 ∧ (h₂ : Nat) = 0 ∧ (h₃ : Nat) = 0 ∧ (h₄ : Nat) = 0 ∧
      (h₅ : Nat) = 0 ∧ (h₆ : Nat) = 0 ∧ (h₇ : Nat) ≤ 1 := by
    rw [Addr.value] at h
    omega
  obtain ⟨e₀, e₁, e₂, e₃, e₄, e₅, e₆, hlast⟩ := hzero
  rw [e₀, e₁, e₂, e₃, e₄, e₅, e₆]
  rcases (by omega : (h₇ : Nat) = 0 ∨ (h₇ : Nat) = 1) with e₇ | e₇
  · rw [e₇]
    exact .inr (.inl rfl)
  · rw [e₇]
    exact .inl rfl

theorem covered_v6_iff (h₀ h₁ h₂ h₃ h₄ h₅ h₆ h₇ : Fin 65536) :
    (denied (.v6 h₀ h₁ h₂ h₃ h₄ h₅ h₆ h₇) = true →
      DeniedText (String.ofList (Addr.compressed [h₀, h₁, h₂, h₃, h₄, h₅, h₆, h₇]))) ↔
      ¬ Uncovered (.v6 h₀ h₁ h₂ h₃ h₄ h₅ h₆ h₇) := by
  rw [denied_v6_iff]
  have hrest : [(h₁ : Nat), h₂, h₃, h₄, h₅, h₆, h₇] ≠ [] := by simp
  constructor
  · rintro hcovered (⟨hdiscard, hzero⟩ | ⟨hlow, hhigh⟩)
    · have htext := hcovered (.inr (.inr (.inr (.inr (.inl ⟨hdiscard, hzero⟩)))))
      rw [hdiscard] at htext
      exact not_deniedText_discard hrest htext
    · have htext := hcovered (.inr (.inr (.inl ⟨by omega, hhigh⟩)))
      have hlink := (deniedText_link_iff ⟨by omega, hhigh⟩ hrest).mp htext
      omega
  · rintro hnot (hvalue | hlocal | hlink | hmulticast | hdiscard | ⟨hfirst, hsecond⟩)
    · exact compressed_of_value_le hvalue
    · exact deniedText_local hlocal hrest
    · have hfirst : (h₀ : Nat) = 0xfe80 := by
        by_contra hne
        exact hnot (.inr ⟨by omega, hlink.2⟩)
      exact (deniedText_link_iff hlink hrest).mpr hfirst
    · exact deniedText_multicast hmulticast h₀.isLt hrest
    · exact absurd (.inl hdiscard) hnot
    · rw [hfirst, hsecond]
      exact deniedText_documentation (by simp)

/-- The worker denies an address that the control plane denies, exactly unless
the address is one of the uncovered ones. -/
theorem covered_iff (hlower : LowersAscii runtime.toLowerCase) {ip : List UInt8} {address : Addr}
    (h : Addr.fromSlice ip = some address) :
    (unsafeIP ip = true → isPrivateAddress runtime address.text = true) ↔
      ¬ Uncovered address.unmap := by
  have hblocked : unsafeIP ip = denied address.unmap := by rw [unsafeIP, h]
  rw [hblocked]
  rcases address with ⟨a, b, c, d⟩ | ⟨h₀, h₁, h₂, h₃, h₄, h₅, h₆, h₇⟩
  · rw [isPrivateAddress_v4_iff hlower]
    exact covered_v4_iff a b c d
  · rcases hunmap : Addr.unmap (.v6 h₀ h₁ h₂ h₃ h₄ h₅ h₆ h₇) with
      ⟨a, b, c, d⟩ | ⟨g₀, g₁, g₂, g₃, g₄, g₅, g₆, g₇⟩
    · have hchars : Addr.chars (.v6 h₀ h₁ h₂ h₃ h₄ h₅ h₆ h₇) =
          "::ffff:".toList ++ Addr.dotted a b c d := by
        simp only [Addr.chars, hunmap]
      rw [isPrivateAddress_mapped_iff hlower hchars]
      exact covered_v4_iff a b c d
    · have hsame : Addr.unmap (.v6 h₀ h₁ h₂ h₃ h₄ h₅ h₆ h₇) = .v6 h₀ h₁ h₂ h₃ h₄ h₅ h₆ h₇ := by
        rw [Addr.unmap] at hunmap ⊢
        split at hunmap
        · cases hunmap
        · rename_i hmapped
          rw [if_neg hmapped]
      have hchars : Addr.chars (.v6 h₀ h₁ h₂ h₃ h₄ h₅ h₆ h₇) =
          Addr.compressed [h₀, h₁, h₂, h₃, h₄, h₅, h₆, h₇] := by
        simp only [Addr.chars, hunmap]
      have hdot : '.' ∉ Addr.chars (.v6 h₀ h₁ h₂ h₃ h₄ h₅ h₆ h₇) := by
        rw [hchars]
        refine dot_not_mem_compressed fun g hg => ?_
        simp only [List.mem_cons, List.not_mem_nil, or_false] at hg
        rcases hg with rfl | rfl | rfl | rfl | rfl | rfl | rfl | rfl <;> exact Fin.isLt _
      rw [isPrivateAddress_v6_iff hlower hdot, Addr.text, hchars, ← hunmap, hsame]
      exact covered_v6_iff h₀ h₁ h₂ h₃ h₄ h₅ h₆ h₇

/-- The device of the household, `::ffff:192.168.1.1`. -/
def gateway : Addr :=
  .v6 (Addr.group 0 0) (Addr.group 0 0) (Addr.group 0 0) (Addr.group 0 0) (Addr.group 0 0)
    (Addr.group 255 255) (Addr.group 192 168) (Addr.group 1 1)

theorem fromSlice_gateway :
    Addr.fromSlice [0, 0, 0, 0, 0, 0, 0, 0, 0, 0, 255, 255, 192, 168, 1, 1] = some gateway := by
  decide +kernel

theorem lowersAscii_asciiRuntime : LowersAscii (asciiRuntime [] []).toLowerCase :=
  lowersAscii_map

theorem covered_iff_gateway :
    (unsafeIP [0, 0, 0, 0, 0, 0, 0, 0, 0, 0, 255, 255, 192, 168, 1, 1] = true →
      isPrivateAddress (asciiRuntime [] []) gateway.text = true) ↔ ¬ Uncovered gateway.unmap :=
  covered_iff lowersAscii_asciiRuntime fromSlice_gateway

/-- The relay `192.88.99.1` is let through. -/
theorem relay_let_through :
    ¬ ∀ (runtime : Runtime) (ip : List UInt8) (address : Addr),
      LowersAscii runtime.toLowerCase → Addr.fromSlice ip = some address → unsafeIP ip = true →
        isPrivateAddress runtime address.text = true := by
  intro h
  have hslice : Addr.fromSlice [192, 88, 99, 1] = some (.v4 192 88 99 1) := by decide +kernel
  have hblocked : unsafeIP [192, 88, 99, 1] = true := by decide +kernel
  have hprivate := h (asciiRuntime [] []) _ _ lowersAscii_asciiRuntime hslice hblocked
  rw [isPrivateAddress_v4_iff lowersAscii_asciiRuntime] at hprivate
  revert hprivate
  simp [DeniedNetwork]

end PriceScout.Worker.AddressPolicy
