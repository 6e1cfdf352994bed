import Mathlib.Algebra.BigOperators.Intervals
import Mathlib.Algebra.Order.Field.Basic
import Mathlib.Algebra.Order.BigOperators.Group.Finset
import Mathlib.Order.Interval.Finset.Nat
import Mathlib.Tactic
/-!
# Token buckets

A bucket is refilled at a rate up to a capacity, and pays for what passes.
`Metered` is what a history of such a bucket satisfies: its level before each
step, what the step took, and what it was given beside the refill. In any window
of time at most the capacity, what was refilled and what was given in the window
is taken.
-/
namespace LanLink.Lib

variable {K : Type} [Field K] [LinearOrder K] [IsStrictOrderedRing K]

/-- At step `k` the clock shows `time k`, the bucket holds `level k`, `spent k` of
it is taken and `given k` is put in. -/
structure Metered (capacity rate : K) (time level spent given : ℕ → K) : Prop where
  clock : ∀ k, time k ≤ time (k + 1)
  full : ∀ k, level k ≤ capacity
  free : ∀ k, 0 ≤ spent k
  paid : ∀ k, spent k ≤ level k
  gift : ∀ k, 0 ≤ given k
  refilled : ∀ k, level (k + 1) ≤ level k - spent k + given k + rate * (time (k + 1) - time k)

namespace Metered
variable {capacity rate : K} {time level spent given : ℕ → K}

/-- What is taken in a row of steps, and what is left after it. -/
theorem taken (h : Metered capacity rate time level spent given) {a b : ℕ} (hab : a ≤ b) :
    ∑ k ∈ Finset.Ico a b, spent k + level b ≤
      level a + ∑ k ∈ Finset.Ico a b, given k + rate * (time b - time a) := by
  induction b, hab using Nat.le_induction with
  | base => simp
  | succ b hab ih =>
    rw [Finset.sum_Ico_succ_top hab, Finset.sum_Ico_succ_top hab]
    have hstep := h.refilled b
    linarith

omit [IsStrictOrderedRing K] in
theorem time_le (h : Metered capacity rate time level spent given) {a b : ℕ} (hab : a ≤ b) : time a ≤ time b :=
  monotone_nat_of_le_succ h.clock hab

/-- The steps of a window of time take no more than a full bucket, the refill and the gifts. -/
theorem window (h : Metered capacity rate time level spent given) (hrate : 0 ≤ rate) (hcapacity : 0 ≤ capacity)
    (n : ℕ) {s t : K} (hst : s ≤ t) :
    ∑ k ∈ (Finset.range n).filter (fun k => s ≤ time k ∧ time k ≤ t), spent k ≤
      capacity + ∑ k ∈ (Finset.range n).filter (fun k => s ≤ time k ∧ time k ≤ t), given k + rate * (t - s) := by
  set steps := (Finset.range n).filter fun k => s ≤ time k ∧ time k ≤ t with hsteps
  by_cases hempty : steps.Nonempty
  swap
  · rw [Finset.not_nonempty_iff_eq_empty.1 hempty, Finset.sum_empty, Finset.sum_empty]
    have := mul_nonneg hrate (sub_nonneg.2 hst)
    linarith
  -- from the first step in the window to the last one
  obtain ⟨a, ha⟩ : ∃ a, a = steps.min' hempty := ⟨_, rfl⟩
  obtain ⟨b, hb⟩ : ∃ b, b = steps.max' hempty := ⟨_, rfl⟩
  have hain : a ∈ steps := ha ▸ steps.min'_mem hempty
  have hbin : b ∈ steps := hb ▸ steps.max'_mem hempty
  have hab : a ≤ b := ha ▸ steps.min'_le b hbin
  simp only [hsteps, Finset.mem_filter, Finset.mem_range] at hain hbin
  have hrow : steps = Finset.Ico a (b + 1) := by
    ext k
    rw [Finset.mem_Ico]
    constructor
    · intro hk
      have hak : a ≤ k := ha ▸ steps.min'_le k hk
      have hkb : k ≤ b := hb ▸ steps.le_max' k hk
      omega
    · rintro ⟨hak, hkb⟩
      -- the clock does not go back, so what is between two steps of the window is in it
      simp only [hsteps, Finset.mem_filter, Finset.mem_range]
      exact ⟨by omega, hain.2.1.trans (h.time_le hak), (h.time_le (by omega)).trans hbin.2.2⟩
  rw [hrow, Finset.sum_Ico_succ_top hab, Finset.sum_Ico_succ_top hab]
  have htaken := h.taken hab
  have hpaid := h.paid b
  have hfull := h.full a
  have hgift := h.gift b
  have hlength : rate * (time b - time a) ≤ rate * (t - s) :=
    mul_le_mul_of_nonneg_left (by linarith [hain.2.1, hbin.2.2]) hrate
  linarith

end Metered

end LanLink.Lib
