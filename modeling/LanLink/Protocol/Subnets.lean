import LanLink.Lib.Prefixes
import LanLink.Protocol.NetworkPolicy
/-!
# Subnets as sets of addresses

`subnet_contains` and `subnets_overlap` compare masked addresses. In terms of
the addresses a subnet contains, subnets that do not overlap are disjoint, and
a private subnet lies inside one of the private blocks.
-/
open LanLink.Lib

namespace LanLink

section
variable {a b x : UInt32} {p q : UInt8}

theorem toNat_subnetMask (hp : 0 < p.toNat) (hp' : p.toNat ≤ 32) :
    (subnetMask p).toNat = 2 ^ 32 - 2 ^ (32 - p.toNat) := by
  obtain ⟨i, hi⟩ : ∃ i, i = p.toNat := ⟨_, rfl⟩
  have hpi : p = UInt8.ofNat i := by rw [hi, UInt8.ofNat_toNat]
  subst hpi
  rw [← hi] at hp hp' ⊢
  interval_cases i <;> rfl

theorem toNat_and_subnetMask (hp : 0 < p.toNat) (hp' : p.toNat ≤ 32) (x : UInt32) :
    (x &&& subnetMask p).toNat = trunc (32 - p.toNat) x.toNat := by
  rw [UInt32.toNat_and, toNat_subnetMask hp hp', and_mask (by omega) x.toNat_lt]

theorem subnetContains_iff :
    subnetContains a p x ↔ 0 < p.toNat ∧ p.toNat ≤ 32 ∧ trunc (32 - p.toNat) x.toNat = a.toNat := by
  simp only [subnetContains, Bool.and_eq_true, decide_eq_true_eq, UInt8.lt_iff_toNat_lt, UInt8.le_iff_toNat_le, and_assoc]
  refine and_congr_right fun hp => and_congr_right fun hp' => ?_
  rw [← toNat_and_subnetMask hp hp', UInt32.toNat_inj]

/-- An address of a subnet that lies in a larger one is in the larger one. -/
theorem subnetContains_trans (hpq : p ≤ q) (hb : subnetContains b p a) (hx : subnetContains a q x) :
    subnetContains b p x := by
  rw [subnetContains_iff] at hb hx ⊢
  rw [UInt8.le_iff_toNat_le] at hpq
  refine ⟨hb.1, hb.2.1, ?_⟩
  rw [← hb.2.2, ← hx.2.2, trunc_trunc (by omega)]

theorem min_prefix (p q : UInt8) : (p ≤ q ∧ min p q = p ∧ min q p = p) ∨ (q ≤ p ∧ min p q = q ∧ min q p = q) := by
  have hdef (p q : UInt8) : min p q = if p ≤ q then p else q := rfl
  rw [hdef, hdef]
  by_cases hpq : p ≤ q
  · by_cases hqp : q ≤ p
    · have heq := UInt8.le_antisymm hpq hqp
      subst heq
      simp
    · simp [hpq, hqp]
  · have hqp : q ≤ p := (UInt8.le_total p q).resolve_left hpq
    simp [hpq, hqp]

theorem subnetsOverlap_comm (a b : UInt32) (p q : UInt8) : subnetsOverlap a p b q = subnetsOverlap b q a p := by
  have hcond : (p = 0 ∨ 32 < p ∨ q = 0 ∨ 32 < q) ↔ (q = 0 ∨ 32 < q ∨ p = 0 ∨ 32 < p) := by tauto
  have hmin : min p q = min q p := by
    obtain ⟨-, h, h'⟩ | ⟨-, h, h'⟩ := min_prefix p q <;> rw [h, h']
  unfold subnetsOverlap
  simp only [hcond, hmin, eq_comm]

/-- Subnets with a common address overlap. -/
theorem subnetsOverlap_of_contains (ha : subnetContains a p x) (hb : subnetContains b q x) :
    subnetsOverlap a p b q := by
  have common {a b : UInt32} {p q : UInt8} (hpq : p ≤ q) (hmin : min p q = p) (ha : subnetContains a p x)
      (hb : subnetContains b q x) : subnetsOverlap a p b q := by
    rw [subnetContains_iff] at ha hb
    have hpq' := UInt8.le_iff_toNat_le.1 hpq
    have hand : a &&& subnetMask p = b &&& subnetMask p := by
      rw [← UInt32.toNat_inj, toNat_and_subnetMask ha.1 ha.2.1, toNat_and_subnetMask ha.1 ha.2.1, ← ha.2.2, ← hb.2.2,
        trunc_trunc le_rfl, trunc_trunc (by omega)]
    unfold subnetsOverlap
    split
    · rfl
    · rw [hmin]
      exact decide_eq_true hand
  obtain ⟨hpq, hmin, -⟩ | ⟨hqp, -, hmin⟩ := min_prefix p q
  · exact common hpq hmin ha hb
  · rw [subnetsOverlap_comm]
    exact common hqp hmin hb ha

/-- A routed subnet is canonical. -/
theorem privateRoutedSubnet_canonical (h : privateRoutedSubnet a p) : subnetContains a p a := by
  unfold privateRoutedSubnet at h
  split at h
  · cases h
  · rename_i hc
    simp only [not_or, not_not] at hc
    exact hc.2.2

/-- All addresses of a routed subnet are in one private block. -/
theorem privateRoutedSubnet_block (h : privateRoutedSubnet a p) :
    (∀ x, subnetContains a p x → subnetContains 0x0a000000 8 x) ∨
    (∀ x, subnetContains a p x → subnetContains 0xac100000 12 x) ∨
    (∀ x, subnetContains a p x → subnetContains 0xc0a80000 16 x) := by
  unfold privateRoutedSubnet at h
  split at h
  · cases h
  · simp only [Bool.or_eq_true, Bool.and_eq_true, decide_eq_true_eq] at h
    obtain (⟨hp, hb⟩ | ⟨hp, hb⟩) | ⟨hp, hb⟩ := h
    · exact .inl fun x hx => subnetContains_trans hp hb hx
    · exact .inr (.inl fun x hx => subnetContains_trans hp hb hx)
    · exact .inr (.inr fun x hx => subnetContains_trans hp hb hx)

end

/-! ## Subnets as intervals -/

/-- A canonical subnet: a block of addresses that starts at a multiple of its size. -/
structure Cidr where
  address : UInt32
  prefixLength : UInt8
  nonempty : 1 ≤ prefixLength.toNat
  bounded : prefixLength.toNat ≤ 32
  aligned : address.toNat % 2 ^ (32 - prefixLength.toNat) = 0

namespace Cidr
variable (S T : Cidr)

/-- How many addresses it has. -/
def size : ℕ := 2 ^ (32 - S.prefixLength.toNat)

def addresses : Set UInt32 := {x | S.address.toNat ≤ x.toNat ∧ x.toNat < S.address.toNat + S.size}

variable {S T}

/-- `subnet_contains` decides the interval. -/
theorem mem_addresses {x : UInt32} : x ∈ S.addresses ↔ subnetContains S.address S.prefixLength x := by
  rw [subnetContains_iff, trunc_eq_iff S.aligned]
  have h1 := S.nonempty
  have h2 := S.bounded
  simp only [addresses, size, Set.mem_ofPred_eq]
  tauto

theorem size_pos : 0 < S.size := Nat.two_pow_pos _

theorem address_mem : S.address ∈ S.addresses := by
  have := S.size_pos
  exact ⟨le_rfl, by omega⟩

/-- The block ends inside the address space. -/
theorem end_le : S.address.toNat + S.size ≤ 2 ^ 32 := by
  have hlt := S.address.toNat_lt
  obtain ⟨k, hk⟩ := Nat.dvd_of_mod_eq_zero S.aligned
  have hsplit : (2 : ℕ) ^ 32 = 2 ^ (32 - S.prefixLength.toNat) * 2 ^ S.prefixLength.toNat := by
    rw [← pow_add, Nat.sub_add_cancel S.bounded]
  rw [size, hk, hsplit, ← Nat.mul_succ]
  rw [hk, hsplit] at hlt
  exact Nat.mul_le_mul_left _ (Nat.lt_of_mul_lt_mul_left hlt)

/-- The last address of the block. -/
def last (S : Cidr) : UInt32 := UInt32.ofNat (S.address.toNat + S.size - 1)

theorem toNat_last : S.last.toNat = S.address.toNat + S.size - 1 := by
  have := S.end_le
  have := S.size_pos
  rw [last, UInt32.toNat_ofNat']
  omega

theorem last_mem : S.last ∈ S.addresses := by
  have hpos := S.size_pos
  have hlast := S.toNat_last
  simp only [addresses, Set.mem_ofPred_eq]
  omega

/-- A canonical address with its prefix length. -/
def ofCanonical {a : UInt32} {p : UInt8} (h : subnetContains a p a) : Cidr where
  address := a
  prefixLength := p
  nonempty := (subnetContains_iff.1 h).1
  bounded := (subnetContains_iff.1 h).2.1
  aligned := by
    have htrunc := (subnetContains_iff.1 h).2.2
    rw [← htrunc]
    exact trunc_mod _ _

theorem contains_self (S : Cidr) : subnetContains S.address S.prefixLength S.address := mem_addresses.1 S.address_mem

/-- Of two overlapping subnets the one with the longer prefix lies in the other. -/
theorem subset_of_overlap (hle : S.prefixLength ≤ T.prefixLength)
    (h : subnetsOverlap S.address S.prefixLength T.address T.prefixLength) : T.addresses ⊆ S.addresses := by
  have hmin : min S.prefixLength T.prefixLength = S.prefixLength := if_pos hle
  have h1 := S.nonempty
  have h2 := S.bounded
  have h3 := T.nonempty
  have h4 := T.bounded
  have hvalid : ¬ (S.prefixLength = 0 ∨ 32 < S.prefixLength ∨ T.prefixLength = 0 ∨ 32 < T.prefixLength) := by
    simp only [← UInt8.toNat_inj, UInt8.lt_iff_toNat_lt]
    change ¬ (_ = 0 ∨ 32 < _ ∨ _ = 0 ∨ 32 < _)
    omega
  rw [subnetsOverlap, if_neg hvalid, hmin, decide_eq_true_eq, ← UInt32.toNat_inj, toNat_and_subnetMask h1 h2,
    toNat_and_subnetMask h1 h2] at h
  intro x hx
  rw [mem_addresses] at hx ⊢
  refine subnetContains_trans hle ?_ hx
  exact subnetContains_iff.2 ⟨h1, h2, h.symm.trans (subnetContains_iff.1 S.contains_self).2.2⟩

/-- Overlapping subnets are nested. -/
theorem nested_of_overlap (h : subnetsOverlap S.address S.prefixLength T.address T.prefixLength) :
    S.addresses ⊆ T.addresses ∨ T.addresses ⊆ S.addresses := by
  rcases UInt8.le_total S.prefixLength T.prefixLength with hle | hle
  · exact .inr (subset_of_overlap hle h)
  · rw [subnetsOverlap_comm] at h
    exact .inl (subset_of_overlap hle h)

/-- `subnets_overlap` decides whether two subnets have a common address. -/
theorem overlap_iff : subnetsOverlap S.address S.prefixLength T.address T.prefixLength ↔
    ∃ x, subnetContains S.address S.prefixLength x ∧ subnetContains T.address T.prefixLength x := by
  constructor
  · intro h
    rcases nested_of_overlap h with hsub | hsub
    · exact ⟨S.address, S.contains_self, mem_addresses.1 (hsub S.address_mem)⟩
    · exact ⟨T.address, mem_addresses.1 (hsub T.address_mem), T.contains_self⟩
  · rintro ⟨x, hS, hT⟩
    exact subnetsOverlap_of_contains hS hT

/-! ### Private blocks -/

/-- The addresses of RFC 1918: 10/8, 172.16/12 and 192.168/16. -/
def privateBlocks : List Cidr :=
  [⟨0x0a000000, 8, by decide, by decide, by decide⟩, ⟨0xac100000, 12, by decide, by decide, by decide⟩,
    ⟨0xc0a80000, 16, by decide, by decide, by decide⟩]

/-- A subnet of at most 2^24 private addresses lies in one of the blocks, since
the blocks are further apart than that. -/
theorem block_of_private (hsize : 8 ≤ S.prefixLength.toNat) (h : ∀ x ∈ S.addresses, ∃ B ∈ privateBlocks, x ∈ B.addresses) :
    ∃ B ∈ privateBlocks, S.address ∈ B.addresses ∧ B.prefixLength.toNat ≤ S.prefixLength.toNat := by
  obtain ⟨B, hB, hfirst⟩ := h _ S.address_mem
  obtain ⟨C, hC, hlast⟩ := h _ S.last_mem
  have hle : S.size ≤ 2 ^ 24 := Nat.pow_le_pow_right (by norm_num) (by omega)
  have hpos := S.size_pos
  have hsame : S.size ≤ B.size := by
    obtain ⟨n, hn⟩ : ∃ n, n = S.size := ⟨_, rfl⟩
    simp only [addresses, Set.mem_ofPred_eq, toNat_last] at hfirst hlast
    rw [← hn] at hle hpos hlast ⊢
    simp only [privateBlocks, List.mem_cons, List.not_mem_nil, or_false] at hB hC
    rcases hB with rfl | rfl | rfl <;> rcases hC with rfl | rfl | rfl <;> simp [size] at hfirst hlast ⊢ <;> omega
  refine ⟨B, hB, hfirst, ?_⟩
  have hexp := (Nat.pow_le_pow_iff_right (by norm_num)).1 hsame
  have h1 := S.bounded
  have h2 := B.bounded
  omega

/-- What the code checks: the size, and that a block contains the address. -/
theorem privateRoutedSubnet_eq : privateRoutedSubnet S.address S.prefixLength ↔
    8 ≤ S.prefixLength.toNat ∧ S.prefixLength.toNat ≤ 30 ∧
      ∃ B ∈ privateBlocks, S.address ∈ B.addresses ∧ B.prefixLength.toNat ≤ S.prefixLength.toNat := by
  have hmem (B : Cidr) : S.address ∈ B.addresses ↔ subnetContains B.address B.prefixLength S.address := mem_addresses
  have hself := S.contains_self
  simp only [hmem]
  simp [privateBlocks, privateRoutedSubnet, hself, UInt8.le_iff_toNat_le, UInt8.lt_iff_toNat_lt]
  tauto

/-- `private_routed_subnet` decides whether a subnet of the accepted sizes is private. -/
theorem private_iff : privateRoutedSubnet S.address S.prefixLength ↔
    8 ≤ S.prefixLength.toNat ∧ S.prefixLength.toNat ≤ 30 ∧ ∀ x ∈ S.addresses, ∃ B ∈ privateBlocks, x ∈ B.addresses := by
  rw [privateRoutedSubnet_eq]
  constructor
  · rintro ⟨hmin, hmax, B, hB, hmem, hle⟩
    refine ⟨hmin, hmax, fun x hx => ⟨B, hB, ?_⟩⟩
    rw [mem_addresses] at hx hmem ⊢
    exact subnetContains_trans (UInt8.le_iff_toNat_le.2 hle) hmem hx
  · rintro ⟨hmin, hmax, hall⟩
    exact ⟨hmin, hmax, block_of_private hmin hall⟩

end Cidr

end LanLink
