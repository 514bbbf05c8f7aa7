import Mathlib.Data.List.TakeWhile
import PriceScout.Library.JsStrings

/-!
Addresses of the two versions of IP, their classes as Go's `net/netip` tells
them, and the text that a resolver returns for them.
-/

namespace PriceScout.Library.IPAddresses

open PriceScout.Library.JsStrings

/-- An address, by its octets or by its groups of sixteen bits. -/
inductive Addr where
  | v4 (a b c d : Fin 256)
  | v6 (h₀ h₁ h₂ h₃ h₄ h₅ h₆ h₇ : Fin 65536)
deriving DecidableEq

namespace Addr

/-- Two octets as one group. -/
def group (high low : UInt8) : Fin 65536 :=
  ⟨256 * high.toNat + low.toNat, by
    have hhigh := high.toNat_lt
    have hlow := low.toNat_lt
    omega⟩

def octet (x : UInt8) : Fin 256 :=
  ⟨x.toNat, x.toNat_lt⟩

/-- `netip.AddrFromSlice`. -/
def fromSlice : List UInt8 → Option Addr
  | [a, b, c, d] => some (.v4 (octet a) (octet b) (octet c) (octet d))
  | [x₀, x₁, x₂, x₃, x₄, x₅, x₆, x₇, x₈, x₉, x₁₀, x₁₁, x₁₂, x₁₃, x₁₄, x₁₅] =>
      some (.v6 (group x₀ x₁) (group x₂ x₃) (group x₄ x₅) (group x₆ x₇) (group x₈ x₉)
        (group x₁₀ x₁₁) (group x₁₂ x₁₃) (group x₁₄ x₁₅))
  | _ => none

/-- The two octets of a group. -/
def highOctet (h : Fin 65536) : Fin 256 :=
  ⟨h / 256, by omega⟩

def lowOctet (h : Fin 65536) : Fin 256 :=
  ⟨h % 256, by omega⟩

/-- An IPv4-mapped address as the one of IPv4 that it stands for. -/
def unmap : Addr → Addr
  | .v6 h₀ h₁ h₂ h₃ h₄ h₅ h₆ h₇ =>
      if (h₀ : Nat) = 0 ∧ (h₁ : Nat) = 0 ∧ (h₂ : Nat) = 0 ∧ (h₃ : Nat) = 0 ∧ (h₄ : Nat) = 0 ∧
          (h₅ : Nat) = 0xffff then
        .v4 (highOctet h₆) (lowOctet h₆) (highOctet h₇) (lowOctet h₇)
      else .v6 h₀ h₁ h₂ h₃ h₄ h₅ h₆ h₇
  | address => address

/-- The bits of an address, as one number. -/
def value : Addr → Nat
  | .v4 a b c d => ((a * 256 + b) * 256 + c) * 256 + d
  | .v6 h₀ h₁ h₂ h₃ h₄ h₅ h₆ h₇ =>
      ((((((h₀ * 65536 + h₁) * 65536 + h₂) * 65536 + h₃) * 65536 + h₄) * 65536 + h₅) * 65536 +
        h₆) * 65536 + h₇

/-- The number of bits of an address. -/
def width : Addr → Nat
  | .v4 .. => 32
  | .v6 .. => 128

/-- The addresses that begin with the first bits of one of them. -/
structure Prefix where
  address : Addr
  bits : Nat

/-- `prefix.Contains(address)`. -/
def Prefix.contains (p : Prefix) (address : Addr) : Bool :=
  p.address.width = address.width &&
    p.address.value / 2 ^ (address.width - p.bits) = address.value / 2 ^ (address.width - p.bits)

theorem contains_v4_iff (p q r s a b c d : Fin 256) (n : Nat) :
    Prefix.contains ⟨.v4 p q r s, n⟩ (.v4 a b c d) = true ↔
      value (.v4 p q r s) / 2 ^ (32 - n) = value (.v4 a b c d) / 2 ^ (32 - n) := by
  simp only [Prefix.contains, width, decide_true, Bool.true_and]
  exact decide_eq_true_iff

theorem contains_v6_iff (g₀ g₁ g₂ g₃ g₄ g₅ g₆ g₇ h₀ h₁ h₂ h₃ h₄ h₅ h₆ h₇ : Fin 65536) (n : Nat) :
    Prefix.contains ⟨.v6 g₀ g₁ g₂ g₃ g₄ g₅ g₆ g₇, n⟩ (.v6 h₀ h₁ h₂ h₃ h₄ h₅ h₆ h₇) = true ↔
      value (.v6 g₀ g₁ g₂ g₃ g₄ g₅ g₆ g₇) / 2 ^ (128 - n) =
        value (.v6 h₀ h₁ h₂ h₃ h₄ h₅ h₆ h₇) / 2 ^ (128 - n) := by
  simp only [Prefix.contains, width, decide_true, Bool.true_and]
  exact decide_eq_true_iff

theorem not_contains_of_width {p : Prefix} {address : Addr}
    (h : p.address.width ≠ address.width) : p.contains address = false := by
  simp [Prefix.contains, h]

def isLoopback : Addr → Bool
  | .v4 a _ _ _ => (a : Nat) = 127
  | address => address.value = 1

def isPrivate : Addr → Bool
  | .v4 a b _ _ =>
      (a : Nat) = 10 || ((a : Nat) = 172 && (b : Nat) / 16 = 1) ||
        ((a : Nat) = 192 && (b : Nat) = 168)
  | .v6 h₀ .. => (h₀ : Nat) / 0x200 = 0xfc00 / 0x200

def isLinkLocalUnicast : Addr → Bool
  | .v4 a b _ _ => (a : Nat) = 169 && (b : Nat) = 254
  | .v6 h₀ .. => (h₀ : Nat) / 0x40 = 0xfe80 / 0x40

def isUnspecified (address : Addr) : Bool :=
  address.value = 0

def isMulticast : Addr → Bool
  | .v4 a _ _ _ => (a : Nat) / 16 = 0xe0 / 16
  | .v6 h₀ .. => (h₀ : Nat) / 0x100 = 0xff

/-! The canonical text of an address. -/

/-- An octet in decimal. -/
def decimal (n : Nat) : List Char :=
  Nat.toDigits 10 n

def hexDigit (n : Nat) : Char :=
  "0123456789abcdef".toList.getD n '0'

/-- A group in hexadecimal, without the zeros before it. -/
def hex (n : Nat) : List Char :=
  (if 0x1000 ≤ n then [hexDigit (n / 0x1000)] else []) ++
    (if 0x100 ≤ n then [hexDigit (n / 0x100 % 0x10)] else []) ++
    (if 0x10 ≤ n then [hexDigit (n / 0x10 % 0x10)] else []) ++ [hexDigit (n % 0x10)]

def dotted (a b c d : Nat) : List Char :=
  decimal a ++ '.' :: (decimal b ++ '.' :: (decimal c ++ '.' :: decimal d))

/-- Groups with colons between them. -/
def joined (groups : List Nat) : List Char :=
  [':'].intercalate (groups.map hex)

/-- The number of zeros that a list begins with. -/
def zeros (groups : List Nat) : Nat :=
  (groups.takeWhile (· = 0)).length

/-- The place and the length of the first longest run of zeros, unless a run
before is as long. -/
def longestZeros : Nat → List Nat → Nat × Nat → Nat × Nat
  | _, [], best => best
  | n, h :: rest, best =>
      longestZeros (n + 1) rest
        (if best.2 < zeros (h :: rest) then (n, zeros (h :: rest)) else best)

/-- The longest run of two zeros or more gives way to a double colon. -/
def compressed (groups : List Nat) : List Char :=
  let run := longestZeros 0 groups (0, 0)
  if run.2 < 2 then joined groups
  else joined (groups.take run.1) ++ "::".toList ++ joined (groups.drop (run.1 + run.2))

/-- The text of an address; a mapped one ends with the address of IPv4. -/
def chars : Addr → List Char
  | .v4 a b c d => dotted a b c d
  | .v6 h₀ h₁ h₂ h₃ h₄ h₅ h₆ h₇ =>
      match unmap (.v6 h₀ h₁ h₂ h₃ h₄ h₅ h₆ h₇) with
      | .v4 a b c d => "::ffff:".toList ++ dotted a b c d
      | .v6 .. => compressed [h₀, h₁, h₂, h₃, h₄, h₅, h₆, h₇]

def text (address : Addr) : String :=
  String.ofList address.chars

example : (v6 0x2001 0xdb8 0 0 1 0 0 1).text = "2001:db8::1:0:0:1" := by decide

example : (v6 0 0 0 0 0 0xffff 0xc058 0x6301).text = "::ffff:192.88.99.1" := by decide

/-! The characters of a text. -/

def hexDigits : List Char :=
  "0123456789abcdef".toList

def decimalDigits : List Char :=
  "0123456789".toList

theorem hexDigit_mem {n : Nat} (h : n < 16) : hexDigit n ∈ hexDigits := by
  revert n
  decide

theorem mem_hex {n : Nat} (h : n < 65536) {c : Char} (hc : c ∈ hex n) : c ∈ hexDigits := by
  have hfirst : hexDigit (n / 0x1000) ∈ hexDigits := hexDigit_mem (by omega)
  have hsecond : hexDigit (n / 0x100 % 0x10) ∈ hexDigits := hexDigit_mem (by omega)
  have hthird : hexDigit (n / 0x10 % 0x10) ∈ hexDigits := hexDigit_mem (by omega)
  have hlast : hexDigit (n % 0x10) ∈ hexDigits := hexDigit_mem (by omega)
  unfold hex at hc
  rcases List.mem_append.mp hc with hc | hc
  · rcases List.mem_append.mp hc with hc | hc
    · rcases List.mem_append.mp hc with hc | hc
      · split at hc
        · exact List.mem_singleton.mp hc ▸ hfirst
        · cases hc
      · split at hc
        · exact List.mem_singleton.mp hc ▸ hsecond
        · cases hc
    · split at hc
      · exact List.mem_singleton.mp hc ▸ hthird
      · cases hc
  · exact List.mem_singleton.mp hc ▸ hlast

/-- A group of four digits. -/
theorem hex_of_le {n : Nat} (h : 0x1000 ≤ n) :
    hex n = [hexDigit (n / 0x1000), hexDigit (n / 0x100 % 0x10), hexDigit (n / 0x10 % 0x10),
      hexDigit (n % 0x10)] := by
  unfold hex
  rw [if_pos h, if_pos (by omega), if_pos (by omega)]
  rfl

theorem joined_cons_cons (g h : Nat) (rest : List Nat) :
    joined (g :: h :: rest) = hex g ++ ':' :: joined (h :: rest) := by
  simp [joined, List.intercalate]

theorem joined_singleton (g : Nat) : joined [g] = hex g := by
  simp [joined]

theorem joined_append {front rest : List Nat} (hfront : front ≠ []) (hrest : rest ≠ []) :
    joined (front ++ rest) = joined front ++ ':' :: joined rest := by
  induction front with
  | nil => exact absurd rfl hfront
  | cons g front ih =>
      cases front with
      | nil =>
          obtain ⟨h, rest, rfl⟩ := List.exists_cons_of_ne_nil hrest
          rw [joined_singleton]
          exact joined_cons_cons g h rest
      | cons h front =>
          have hjoined := ih (by simp)
          rw [List.cons_append, List.cons_append, joined_cons_cons, ← List.cons_append, hjoined,
            joined_cons_cons, List.append_assoc, List.cons_append]

theorem mem_joined {groups : List Nat} (h : ∀ g ∈ groups, g < 65536) {c : Char}
    (hc : c ∈ joined groups) : c = ':' ∨ c ∈ hexDigits := by
  induction groups with
  | nil => cases hc
  | cons g groups ih =>
      have hrest : ∀ g ∈ groups, g < 65536 := fun g hg => h g (List.mem_cons_of_mem _ hg)
      cases groups with
      | nil =>
          rw [joined_singleton] at hc
          exact .inr (mem_hex (h g List.mem_cons_self) hc)
      | cons g' groups =>
          rw [joined_cons_cons] at hc
          rcases List.mem_append.mp hc with hc | hc
          · exact .inr (mem_hex (h g List.mem_cons_self) hc)
          · rcases List.mem_cons.mp hc with rfl | hc
            · exact .inl rfl
            · exact ih hrest hc

theorem mem_compressed {groups : List Nat} (h : ∀ g ∈ groups, g < 65536) {c : Char}
    (hc : c ∈ compressed groups) : c = ':' ∨ c ∈ hexDigits := by
  unfold compressed at hc
  simp only at hc
  split at hc
  · exact mem_joined h hc
  · rcases List.mem_append.mp hc with hc | hc
    · rcases List.mem_append.mp hc with hc | hc
      · exact mem_joined (fun g hg => h g (List.mem_of_mem_take hg)) hc
      · have hcolons : c ∈ [':', ':'] := hc
        exact .inl (by simpa using hcolons)
    · exact mem_joined (fun g hg => h g (List.mem_of_mem_drop hg)) hc

/-! The beginning of a text. -/

theorem zeros_cons_of_ne {h : Nat} (hne : h ≠ 0) (rest : List Nat) : zeros (h :: rest) = 0 := by
  simp [zeros, hne]

/-- A run of zeros begins with one. -/
theorem longestZeros_spec (n : Nat) (groups : List Nat) (best : Nat × Nat) :
    longestZeros n groups best = best ∨
      ∃ k, (longestZeros n groups best).1 = n + k ∧ groups[k]? = some 0 := by
  induction groups generalizing n best with
  | nil => exact .inl rfl
  | cons h rest ih =>
      rw [longestZeros]
      rcases ih (n + 1) (if best.2 < zeros (h :: rest) then (n, zeros (h :: rest)) else best) with
        heq | ⟨k, hk, hzero⟩
      · rw [heq]
        split
        · rename_i hlt
          have hh : h = 0 := by
            by_contra hne
            rw [zeros_cons_of_ne hne] at hlt
            omega
          exact .inr ⟨0, rfl, by simp [hh]⟩
        · exact .inl rfl
      · exact .inr ⟨k + 1, by omega, by simpa using hzero⟩

/-- A text keeps the groups before the first zero. -/
theorem compressed_append {front rest : List Nat} (hfront : front ≠ [])
    (hne : ∀ g ∈ front, g ≠ 0) (hrest : rest ≠ []) :
    ∃ tail, compressed (front ++ rest) = joined front ++ ':' :: tail := by
  unfold compressed
  simp only
  split
  · exact ⟨_, joined_append hfront hrest⟩
  · rename_i hrun
    rcases longestZeros_spec 0 (front ++ rest) (0, 0) with heq | ⟨k, hk, hzero⟩
    · rw [heq] at hrun
      exact absurd (by decide) hrun
    · have hle : front.length ≤ k := by
        by_contra hlt
        rw [List.getElem?_append_left (Nat.not_le.mp hlt)] at hzero
        exact hne 0 (List.mem_of_getElem? hzero) rfl
      rw [hk, Nat.zero_add, List.take_append, List.take_of_length_le hle]
      rcases eq_or_ne (rest.take (k - front.length)) [] with hnil | hcons
      · rw [hnil, List.append_nil, List.append_assoc]
        exact ⟨_, rfl⟩
      · rw [joined_append hfront hcons, List.append_assoc, List.append_assoc]
        exact ⟨_, rfl⟩

end Addr

end PriceScout.Library.IPAddresses
