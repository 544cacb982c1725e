import Extractor.UrlRouting

/-!
# IPv4 addresses inside IPv6 addresses

`validate_address` of `crates/url-routing/src/lib.rs` against the ways in which an IPv6 address can
carry an IPv4 address. The policy tests segments, one range after the other; here an address is a
number of 128 bits, and an embedding says which of its bits are fixed and where the 32 bits stand.

## Main definitions

* `Ipv6Addr.bitsAt`: some bits of an address, counted from the highest.
* `Embedding.Holds`: an IPv6 address carries an IPv4 address.

## Main results

* `toIpv4Mapped_eq_some_iff`: the mapped addresses are read as their embedding says.
* `no_embedding_smuggles`: an accepted address is mapped from an accepted one or lies in `2000::/3`,
  and no embedding of a refused address is accepted.
-/

namespace Extractor

/-! ### Addresses as numbers -/

/-- The number of an IPv4 address. -/
def Ipv4Addr.toNat (a : Ipv4Addr) : ℕ :=
  2 ^ 24 * a.first.toNat + 2 ^ 16 * a.second.toNat + 2 ^ 8 * a.third.toNat + a.fourth.toNat

/-- The number of an IPv6 address. -/
def Ipv6Addr.toNat (address : Ipv6Addr) : ℕ :=
  2 ^ 112 * address.first.toNat + 2 ^ 96 * address.second.toNat + 2 ^ 80 * address.third.toNat +
    2 ^ 64 * address.fourth.toNat + 2 ^ 48 * address.fifth.toNat + 2 ^ 32 * address.sixth.toNat +
    2 ^ 16 * address.seventh.toNat + address.eighth.toNat

/-- `len` bits of an address behind its first `start` ones. -/
def Ipv6Addr.bitsAt (address : Ipv6Addr) (start len : ℕ) : ℕ :=
  address.toNat / 2 ^ (128 - start - len) % 2 ^ len

/-- The ways in which an IPv6 address can carry an IPv4 address. -/
inductive Embedding
  /-- `::ffff:0:0/96`. -/
  | mapped
  /-- `::/96`. -/
  | compatible
  /-- `64:ff9b::/96`. -/
  | nat64WellKnown
  /-- `64:ff9b:1::/48`, around the unused bits 64 to 71. -/
  | nat64Local
  /-- `64:ff9b:1::/48`, in the last bits. -/
  | nat64LocalLast
  /-- `2002::/16`. -/
  | sixToFour
  /-- The server of `2001::/32`. -/
  | teredoServer
  /-- The client of `2001::/32`, with its bits flipped. -/
  | teredoClient

/-- An IPv6 address carries an IPv4 address in one of the ways. -/
def Embedding.Holds (e : Embedding) (a : Ipv4Addr) (address : Ipv6Addr) : Prop :=
  match e with
  | mapped => address.bitsAt 0 96 = 0xffff ∧ address.bitsAt 96 32 = a.toNat
  | compatible => address.bitsAt 0 96 = 0 ∧ address.bitsAt 96 32 = a.toNat
  | nat64WellKnown =>
      address.bitsAt 0 96 = 0x0064ff9b0000000000000000 ∧ address.bitsAt 96 32 = a.toNat
  | nat64Local => address.bitsAt 0 48 = 0x0064ff9b0001 ∧
      address.bitsAt 48 16 = a.toNat / 2 ^ 16 ∧ address.bitsAt 72 16 = a.toNat % 2 ^ 16
  | nat64LocalLast => address.bitsAt 0 48 = 0x0064ff9b0001 ∧ address.bitsAt 96 32 = a.toNat
  | sixToFour => address.bitsAt 0 16 = 0x2002 ∧ address.bitsAt 16 32 = a.toNat
  | teredoServer => address.bitsAt 0 32 = 0x20010000 ∧ address.bitsAt 32 32 = a.toNat
  | teredoClient =>
      address.bitsAt 0 32 = 0x20010000 ∧ address.bitsAt 96 32 = 2 ^ 32 - 1 - a.toNat

instance (e : Embedding) (a : Ipv4Addr) (address : Ipv6Addr) : Decidable (e.Holds a address) :=
  match e with
  | .mapped | .compatible | .nat64WellKnown | .nat64LocalLast | .sixToFour | .teredoServer
  | .teredoClient => inferInstanceAs (Decidable (_ ∧ _))
  | .nat64Local => inferInstanceAs (Decidable (_ ∧ _ ∧ _))

variable {a : Ipv4Addr} {address : Ipv6Addr}

/-! ### Segments -/

/-- The bits that the embeddings fix, by segments. -/
theorem bitsAt_eq (address : Ipv6Addr) :
    address.bitsAt 0 3 = address.first.toNat / 2 ^ 13 ∧
    address.bitsAt 0 16 = address.first.toNat ∧
    address.bitsAt 0 32 = 2 ^ 16 * address.first.toNat + address.second.toNat ∧
    address.bitsAt 0 48 =
      2 ^ 32 * address.first.toNat + 2 ^ 16 * address.second.toNat + address.third.toNat ∧
    address.bitsAt 0 96 =
      2 ^ 80 * address.first.toNat + 2 ^ 64 * address.second.toNat +
        2 ^ 48 * address.third.toNat + 2 ^ 32 * address.fourth.toNat +
        2 ^ 16 * address.fifth.toNat + address.sixth.toNat ∧
    address.bitsAt 96 32 = 2 ^ 16 * address.seventh.toNat + address.eighth.toNat := by
  have h1 := address.first.toNat_lt
  have h2 := address.second.toNat_lt
  have h3 := address.third.toNat_lt
  have h4 := address.fourth.toNat_lt
  have h5 := address.fifth.toNat_lt
  have h6 := address.sixth.toNat_lt
  have h7 := address.seventh.toNat_lt
  have h8 := address.eighth.toNat_lt
  simp only [Ipv6Addr.bitsAt, Ipv6Addr.toNat]
  refine ⟨?_, ?_, ?_, ?_, ?_, ?_⟩ <;> omega

/-- The mapped addresses have one prefix. -/
theorem mapped_prefix_iff :
    address.bitsAt 0 96 = 0xffff ↔
      address.first = 0 ∧ address.second = 0 ∧ address.third = 0 ∧ address.fourth = 0 ∧
        address.fifth = 0 ∧ address.sixth = 0xffff := by
  obtain ⟨-, -, -, -, h96, -⟩ := bitsAt_eq address
  have h6 := address.sixth.toNat_lt
  simp only [h96, ← UInt16.toNat_inj, UInt16.reduceToNat]
  omega

/-- The octets of two segments. -/
theorem toNat_octets (x y : UInt16) :
    Ipv4Addr.toNat ⟨(x >>> 8).toUInt8, x.toUInt8, (y >>> 8).toUInt8, y.toUInt8⟩ =
      2 ^ 16 * x.toNat + y.toNat := by
  have hx := x.toNat_lt
  have hy := y.toNat_lt
  simp only [Ipv4Addr.toNat, UInt16.toNat_toUInt8, UInt16.toNat_shiftRight,
    UInt16.reduceToNat, Nat.shiftRight_eq_div_pow, Nat.reduceMod]
  omega

/-- The number determines the address. -/
theorem Ipv4Addr.toNat_inj {a b : Ipv4Addr} (h : a.toNat = b.toNat) : a = b := by
  obtain ⟨a1, a2, a3, a4⟩ := a
  obtain ⟨b1, b2, b3, b4⟩ := b
  have := a1.toNat_lt
  have := a2.toNat_lt
  have := a3.toNat_lt
  have := a4.toNat_lt
  have := b1.toNat_lt
  have := b2.toNat_lt
  have := b3.toNat_lt
  have := b4.toNat_lt
  simp only [Ipv4Addr.toNat] at h
  simp only [Ipv4Addr.mk.injEq, ← UInt8.toNat_inj]
  omega

/-- **A mapped address is read as its embedding says.** -/
theorem toIpv4Mapped_eq_some_iff :
    address.toIpv4Mapped = some a ↔ Embedding.mapped.Holds a address := by
  obtain ⟨-, -, -, -, -, hlast⟩ := bitsAt_eq address
  have hprefix : (address.first == 0 && address.second == 0 && address.third == 0 &&
      address.fourth == 0 && address.fifth == 0 && address.sixth == 0xffff) = true ↔
      address.bitsAt 0 96 = 0xffff := by
    rw [mapped_prefix_iff]
    simp only [Bool.and_eq_true, beq_iff_eq, and_assoc]
  rw [Ipv6Addr.toIpv4Mapped, Option.ite_none_right_eq_some, hprefix, Option.some_inj]
  refine and_congr_right fun _ => ?_
  rw [hlast, ← toNat_octets]
  exact ⟨fun h => congrArg Ipv4Addr.toNat h, Ipv4Addr.toNat_inj⟩

theorem toIpv4Mapped_eq_none (h : address.bitsAt 0 96 ≠ 0xffff) : address.toIpv4Mapped = none :=
  Option.eq_none_iff_forall_ne_some.mpr fun _ hmapped =>
    h (toIpv4Mapped_eq_some_iff.mp hmapped).1

/-! ### The policy -/

/-- The mask that selects three bits. -/
theorem and_eq_iff (x : UInt16) : x &&& 0xe000 = 0x2000 ↔ x.toNat / 2 ^ 13 = 1 := by
  have hx := x.toNat_lt
  have hhigh : (x.toNat &&& 0xe000) / 2 ^ 13 = x.toNat / 2 ^ 13 := by
    have hmask : (0xe000 : ℕ) >>> 13 = 2 ^ 3 - 1 := by decide
    rw [← Nat.shiftRight_eq_div_pow, Nat.shiftRight_and_distrib, hmask,
      Nat.and_two_pow_sub_one_eq_mod, Nat.shiftRight_eq_div_pow]
    omega
  have hlow : (x.toNat &&& 0xe000) % 2 ^ 13 = 0 := by
    rw [Nat.and_mod_two_pow]
    exact Nat.and_zero _
  rw [← UInt16.toNat_inj, UInt16.toNat_and]
  change x.toNat &&& 0xe000 = 0x2000 ↔ _
  omega

/-- Addresses outside of `2000::/3` are reserved. -/
theorem isReservedIpv6_of_ne (h : address.bitsAt 0 3 ≠ 1) : isReservedIpv6 address = true := by
  obtain ⟨h3, -⟩ := bitsAt_eq address
  have hmask : (address.first &&& 0xe000 != 0x2000) = true := by
    rw [bne_iff_ne, ne_eq, and_eq_iff, ← h3]
    exact h
  simp [isReservedIpv6, hmask]

/-- So are the two transition networks that hold IPv4 addresses. -/
theorem isReservedIpv6_of_transition
    (h : address.bitsAt 0 32 = 0x20010000 ∨ address.bitsAt 0 16 = 0x2002) :
    isReservedIpv6 address = true := by
  obtain ⟨-, h16, h32, -⟩ := bitsAt_eq address
  have hsecond := address.second.toNat_lt
  rw [h16, h32] at h
  rcases h with h | h
  · have hfirst : address.first = 0x2001 := UInt16.toNat_inj.mp (by simp; omega)
    have hzero : address.second = 0 := UInt16.toNat_inj.mp (by simp; omega)
    simp [isReservedIpv6, hfirst, hzero]
  · have hfirst : address.first = 0x2002 := UInt16.toNat_inj.mp (by simp; omega)
    simp [isReservedIpv6, hfirst]

/-- An accepted address that is not mapped is not reserved. -/
theorem isReservedIpv6_of_blockedIpv6 (hmapped : address.toIpv4Mapped = none)
    (h : blockedIpv6 address = none) : isReservedIpv6 address = false := by
  rw [blockedIpv6, hmapped] at h
  simp only at h
  split_ifs at h with _ _ _ _ _ _ _ _ hreserved
  exact Bool.eq_false_iff.mpr hreserved

theorem validateAddress_v4_eq_ok_iff :
    validateAddress (.v4 a) = .ok () ↔ blockedIpv4 a = none := by
  cases h : blockedIpv4 a <;> simp [validateAddress, h]

theorem validateAddress_v6_eq_ok_iff :
    validateAddress (.v6 address) = .ok () ↔ blockedIpv6 address = none := by
  cases h : blockedIpv6 address <;> simp [validateAddress, h]

/-- A reserved address that is not mapped is refused. -/
theorem blockedIpv6_ne_none_of_reserved (hmapped : address.bitsAt 0 96 ≠ 0xffff)
    (h : isReservedIpv6 address = true) : blockedIpv6 address ≠ none := fun hnone => by
  rw [isReservedIpv6_of_blockedIpv6 (toIpv4Mapped_eq_none hmapped) hnone] at h
  cases h

/-- Every address that carries another one, but the mapped ones, is reserved. -/
theorem Embedding.Holds.blockedIpv6_ne_none {e : Embedding} (h : e.Holds a address)
    (he : e ≠ .mapped) : blockedIpv6 address ≠ none := by
  obtain ⟨h3, h16, h32, h48, h96, -⟩ := bitsAt_eq address
  have := address.first.toNat_lt
  have := address.second.toNat_lt
  have := address.third.toNat_lt
  cases e with
  | mapped => exact absurd rfl he
  | compatible | nat64WellKnown | nat64Local | nat64LocalLast =>
      have hprefix := h.1
      exact blockedIpv6_ne_none_of_reserved (by omega) (isReservedIpv6_of_ne (by omega))
  | sixToFour =>
      have hprefix := h.1
      exact blockedIpv6_ne_none_of_reserved (by omega)
        (isReservedIpv6_of_transition (Or.inr hprefix))
  | teredoServer | teredoClient =>
      have hprefix := h.1
      exact blockedIpv6_ne_none_of_reserved (by omega)
        (isReservedIpv6_of_transition (Or.inl hprefix))

/-- **No embedding smuggles a blocked address**: an accepted IPv6 address is mapped from an accepted
IPv4 address or lies in `2000::/3`, and a refused IPv4 address is refused in every embedding. -/
theorem no_embedding_smuggles :
    (∀ address, validateAddress (.v6 address) = .ok () →
      (∃ a, Embedding.mapped.Holds a address ∧ validateAddress (.v4 a) = .ok ()) ∨
        address.bitsAt 0 3 = 1) ∧
    ∀ a, validateAddress (.v4 a) ≠ .ok () → ∀ (e : Embedding) (address : Ipv6Addr),
      e.Holds a address → validateAddress (.v6 address) ≠ .ok () := by
  constructor
  · intro address h
    rw [validateAddress_v6_eq_ok_iff] at h
    cases hmapped : address.toIpv4Mapped with
    | none =>
        refine Or.inr (by_contra fun hout => ?_)
        have hreserved := isReservedIpv6_of_blockedIpv6 hmapped h
        rw [isReservedIpv6_of_ne hout] at hreserved
        cases hreserved
    | some a =>
        rw [blockedIpv6, hmapped] at h
        exact Or.inl ⟨a, toIpv4Mapped_eq_some_iff.mp hmapped, validateAddress_v4_eq_ok_iff.mpr h⟩
  · intro a hrefused e address h
    rw [ne_eq, validateAddress_v4_eq_ok_iff] at hrefused
    rw [ne_eq, validateAddress_v6_eq_ok_iff]
    by_cases he : e = .mapped
    · subst he
      rw [blockedIpv6, toIpv4Mapped_eq_some_iff.mpr h]
      exact hrefused
    · exact h.blockedIpv6_ne_none he

/-- The loopback address behind 6to4 and as the client of a Teredo address. -/
example : Embedding.sixToFour.Holds ⟨127, 0, 0, 1⟩ ⟨0x2002, 0x7f00, 1, 0, 0, 0, 0, 0⟩ ∧
    Embedding.teredoClient.Holds ⟨127, 0, 0, 1⟩ ⟨0x2001, 0, 0, 0, 0, 0, 0x80ff, 0xfffe⟩ := by
  decide

end Extractor
