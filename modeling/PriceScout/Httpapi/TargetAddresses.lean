import PriceScout.Library.IPAddresses

/-!
The addresses that the control plane denies to a target.
-/

namespace PriceScout.Httpapi.TargetAddresses

open PriceScout.Library.IPAddresses

def deniedTargetPrefixes : List Addr.Prefix :=
  [⟨.v4 0 0 0 0, 8⟩, ⟨.v4 100 64 0 0, 10⟩, ⟨.v4 192 0 0 0, 24⟩, ⟨.v4 192 0 2 0, 24⟩,
   ⟨.v4 192 88 99 0, 24⟩, ⟨.v4 198 18 0 0, 15⟩, ⟨.v4 198 51 100 0, 24⟩, ⟨.v4 203 0 113 0, 24⟩,
   ⟨.v4 240 0 0 0, 4⟩, ⟨.v6 0x100 0 0 0 0 0 0 0, 64⟩, ⟨.v6 0x2001 0xdb8 0 0 0 0 0 0, 32⟩]

/-- What `unsafeIP` says of an address that it has unmapped. -/
def denied (address : Addr) : Bool :=
  address.isLoopback || address.isPrivate || address.isLinkLocalUnicast ||
    address.isUnspecified || address.isMulticast ||
    deniedTargetPrefixes.any fun p => p.contains address

def unsafeIP (ip : List UInt8) : Bool :=
  match Addr.fromSlice ip with
  | none => true
  | some address => denied address.unmap

/-- The prefixes of IPv4 that are denied. -/
theorem any_contains_v4_iff (a b c d : Fin 256) :
    (deniedTargetPrefixes.any fun p => p.contains (.v4 a b c d)) = true ↔
      (a : Nat) = 0 ∨ ((a : Nat) = 100 ∧ 64 ≤ (b : Nat) ∧ (b : Nat) ≤ 127) ∨
        ((a : Nat) = 192 ∧ (b : Nat) = 0 ∧ (c : Nat) = 0) ∨
        ((a : Nat) = 192 ∧ (b : Nat) = 0 ∧ (c : Nat) = 2) ∨
        ((a : Nat) = 192 ∧ (b : Nat) = 88 ∧ (c : Nat) = 99) ∨
        ((a : Nat) = 198 ∧ 18 ≤ (b : Nat) ∧ (b : Nat) ≤ 19) ∨
        ((a : Nat) = 198 ∧ (b : Nat) = 51 ∧ (c : Nat) = 100) ∨
        ((a : Nat) = 203 ∧ (b : Nat) = 0 ∧ (c : Nat) = 113) ∨ 240 ≤ (a : Nat) := by
  have hwide : ∀ (h₀ h₁ h₂ h₃ h₄ h₅ h₆ h₇ : Fin 65536) (n : Nat),
      Addr.Prefix.contains ⟨.v6 h₀ h₁ h₂ h₃ h₄ h₅ h₆ h₇, n⟩ (.v4 a b c d) = false :=
    fun _ _ _ _ _ _ _ _ _ => Addr.not_contains_of_width (by simp [Addr.width])
  have height : ∀ p : Fin 256, Addr.Prefix.contains ⟨.v4 p 0 0 0, 8⟩ (.v4 a b c d) = true ↔
      (a : Nat) = p := by
    intro p
    rw [Addr.contains_v4_iff, Addr.value, Addr.value]
    omega
  have htwentyFour : ∀ p q r : Fin 256,
      Addr.Prefix.contains ⟨.v4 p q r 0, 24⟩ (.v4 a b c d) = true ↔
        (a : Nat) = p ∧ (b : Nat) = q ∧ (c : Nat) = r := by
    intro p q r
    rw [Addr.contains_v4_iff, Addr.value, Addr.value]
    omega
  have hshared : Addr.Prefix.contains ⟨.v4 100 64 0 0, 10⟩ (.v4 a b c d) = true ↔
      (a : Nat) = 100 ∧ 64 ≤ (b : Nat) ∧ (b : Nat) ≤ 127 := by
    rw [Addr.contains_v4_iff, Addr.value, Addr.value]
    omega
  have hbenchmark : Addr.Prefix.contains ⟨.v4 198 18 0 0, 15⟩ (.v4 a b c d) = true ↔
      (a : Nat) = 198 ∧ 18 ≤ (b : Nat) ∧ (b : Nat) ≤ 19 := by
    rw [Addr.contains_v4_iff, Addr.value, Addr.value]
    omega
  have hreserved : Addr.Prefix.contains ⟨.v4 240 0 0 0, 4⟩ (.v4 a b c d) = true ↔
      240 ≤ (a : Nat) := by
    rw [Addr.contains_v4_iff, Addr.value, Addr.value]
    omega
  simp only [deniedTargetPrefixes, List.any_cons, List.any_nil, Bool.or_eq_true, height,
    htwentyFour, hshared, hbenchmark, hreserved, hwide, Bool.false_eq_true, or_false]
  rfl

/-- The prefixes of IPv6 that are denied. -/
theorem any_contains_v6_iff (h₀ h₁ h₂ h₃ h₄ h₅ h₆ h₇ : Fin 65536) :
    (deniedTargetPrefixes.any fun p => p.contains (.v6 h₀ h₁ h₂ h₃ h₄ h₅ h₆ h₇)) = true ↔
      ((h₀ : Nat) = 0x100 ∧ (h₁ : Nat) = 0 ∧ (h₂ : Nat) = 0 ∧ (h₃ : Nat) = 0) ∨
        ((h₀ : Nat) = 0x2001 ∧ (h₁ : Nat) = 0xdb8) := by
  have hnarrow : ∀ (a b c d : Fin 256) (n : Nat),
      Addr.Prefix.contains ⟨.v4 a b c d, n⟩ (.v6 h₀ h₁ h₂ h₃ h₄ h₅ h₆ h₇) = false :=
    fun _ _ _ _ _ => Addr.not_contains_of_width (by simp [Addr.width])
  simp only [deniedTargetPrefixes, List.any_cons, List.any_nil, Bool.or_eq_true,
    Addr.contains_v6_iff, hnarrow, Bool.false_eq_true, or_false, false_or, Addr.value]
  omega

/-- The networks of IPv4 that are denied, the ones for relays of IPv6 apart. -/
def DeniedNetwork (a b c : Nat) : Prop :=
  a = 0 ∨ a = 10 ∨ a = 127 ∨ (a = 169 ∧ b = 254) ∨ (a = 172 ∧ 16 ≤ b ∧ b ≤ 31) ∨
    (a = 192 ∧ b = 168) ∨ (a = 192 ∧ b = 0 ∧ (c = 0 ∨ c = 2)) ∨
    (a = 198 ∧ (b = 18 ∨ b = 19)) ∨ (a = 198 ∧ b = 51 ∧ c = 100) ∨
    (a = 203 ∧ b = 0 ∧ c = 113) ∨ (a = 100 ∧ 64 ≤ b ∧ b ≤ 127) ∨ 224 ≤ a

/-- The relays of IPv6, `192.88.99.0/24`. -/
def RelayNetwork (a b c : Nat) : Prop :=
  a = 192 ∧ b = 88 ∧ c = 99

theorem denied_v4 {a b c d : Fin 256} (h : denied (.v4 a b c d) = true) :
    DeniedNetwork a b c ∨ RelayNetwork a b c := by
  simp only [denied, Bool.or_eq_true, any_contains_v4_iff, Addr.isLoopback, Addr.isPrivate,
    Addr.isLinkLocalUnicast, Addr.isUnspecified, Addr.isMulticast, Bool.and_eq_true,
    decide_eq_true_eq] at h
  have hlast : 224 ≤ (a : Nat) → DeniedNetwork a b c := fun h => by simp [DeniedNetwork, h]
  rcases h with ((((h | (h | h) | h) | h) | h) | h) | h | h | h | h | h | h | h | h | h
  · simp [DeniedNetwork, h]
  · simp [DeniedNetwork, h]
  · have hrange : 16 ≤ (b : Nat) ∧ (b : Nat) ≤ 31 := by omega
    simp [DeniedNetwork, h.1, hrange]
  · simp [DeniedNetwork, h]
  · simp [DeniedNetwork, h]
  · have hzero : (a : Nat) = 0 := by
      rw [Addr.value] at h
      omega
    simp [DeniedNetwork, hzero]
  · exact .inl (hlast (by omega))
  · simp [DeniedNetwork, h]
  · simp [DeniedNetwork, h]
  · simp [DeniedNetwork, h]
  · simp [DeniedNetwork, h]
  · exact .inr h
  · have hrange : (b : Nat) = 18 ∨ (b : Nat) = 19 := by omega
    simp [DeniedNetwork, h.1, hrange]
  · simp [DeniedNetwork, h]
  · simp [DeniedNetwork, h]
  · exact .inl (hlast (by omega))

theorem denied_relay {a b c d : Fin 256} (h : RelayNetwork a b c) :
    denied (.v4 a b c d) = true := by
  have hcontains : (deniedTargetPrefixes.any fun p => p.contains (.v4 a b c d)) = true :=
    (any_contains_v4_iff a b c d).mpr (.inr (.inr (.inr (.inr (.inl h)))))
  rw [denied, hcontains, Bool.or_true]

theorem denied_v6_iff (h₀ h₁ h₂ h₃ h₄ h₅ h₆ h₇ : Fin 65536) :
    denied (.v6 h₀ h₁ h₂ h₃ h₄ h₅ h₆ h₇) = true ↔
      Addr.value (.v6 h₀ h₁ h₂ h₃ h₄ h₅ h₆ h₇) ≤ 1 ∨
        (0xfc00 ≤ (h₀ : Nat) ∧ (h₀ : Nat) ≤ 0xfdff) ∨
        (0xfe80 ≤ (h₀ : Nat) ∧ (h₀ : Nat) ≤ 0xfebf) ∨ 0xff00 ≤ (h₀ : Nat) ∨
        ((h₀ : Nat) = 0x100 ∧ (h₁ : Nat) = 0 ∧ (h₂ : Nat) = 0 ∧ (h₃ : Nat) = 0) ∨
        ((h₀ : Nat) = 0x2001 ∧ (h₁ : Nat) = 0xdb8) := by
  simp only [denied, Bool.or_eq_true, any_contains_v6_iff, Addr.isLoopback, Addr.isPrivate,
    Addr.isLinkLocalUnicast, Addr.isUnspecified, Addr.isMulticast, decide_eq_true_eq]
  omega

end PriceScout.Httpapi.TargetAddresses
