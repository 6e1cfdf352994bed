import Mathlib.Tactic
/-!
# Binary prefixes

A number with its low bits cleared, and the masks that do it. Blocks of numbers
with a common prefix are either nested or disjoint.
-/
namespace LanLink.Lib

/-- `x` with its low `s` bits cleared. -/
def trunc (s x : ℕ) : ℕ := x / 2 ^ s * 2 ^ s

variable {s t x a w : ℕ}

/-- Clearing more bits forgets that fewer were cleared. -/
theorem trunc_trunc (h : s ≤ t) : trunc t (trunc s x) = trunc t x := by
  obtain ⟨k, rfl⟩ := Nat.exists_eq_add_of_le h
  simp only [trunc, pow_add, ← Nat.div_div_eq_div_mul]
  rw [Nat.mul_div_cancel _ (Nat.two_pow_pos s)]

/-- The numbers with a given prefix are an interval. -/
theorem trunc_eq_iff (ha : a % 2 ^ s = 0) : trunc s x = a ↔ a ≤ x ∧ x < a + 2 ^ s := by
  obtain ⟨k, rfl⟩ := Nat.dvd_of_mod_eq_zero ha
  have hpos := Nat.two_pow_pos s
  rw [trunc, Nat.mul_comm (2 ^ s) k, Nat.mul_left_inj hpos.ne', Nat.div_eq_iff hpos]
  constructor <;> intro h <;> omega

theorem trunc_mod (s x : ℕ) : trunc s x % 2 ^ s = 0 := Nat.mul_mod_left _ _

/-- A mask of ones above the low `s` of `w` bits clears the low `s` bits. -/
theorem and_mask (hs : s ≤ w) (hx : x < 2 ^ w) : x &&& (2 ^ w - 2 ^ s) = trunc s x := by
  have hmask : 2 ^ w - 2 ^ s = (2 ^ (w - s) - 1) * 2 ^ s := by
    rw [Nat.sub_mul, ← pow_add, Nat.sub_add_cancel hs, one_mul]
  refine Nat.eq_of_testBit_eq fun i => ?_
  rw [Nat.testBit_and, hmask, trunc, Nat.testBit_mul_two_pow, Nat.testBit_mul_two_pow, Nat.testBit_two_pow_sub_one,
    Nat.testBit_div_two_pow]
  by_cases hi : s ≤ i
  · have hsub : i - s + s = i := Nat.sub_add_cancel hi
    by_cases hw : i < w
    · simp [hi, show i - s < w - s by omega, hsub]
    · have hbit : x.testBit i = false := Nat.testBit_lt_two_pow (hx.trans_le (Nat.pow_le_pow_right (by omega) (by omega)))
      simp [hbit, hsub]
  · simp [hi]

end LanLink.Lib
