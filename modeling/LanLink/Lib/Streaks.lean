import Mathlib.Tactic
/-!
# Streaks

The last steps of a run that all have a property. A counter that goes up while
the property holds, saturates, and falls to zero when it fails never shows more
than the streak it counts.
-/
namespace LanLink.Lib

/-- The last `n` of the first `k` steps satisfy `P`. -/
def Streak (P : ℕ → Prop) (k n : ℕ) : Prop := n ≤ k ∧ ∀ j, k < j + n + 1 → j < k → P j

variable {P : ℕ → Prop} {k n : ℕ}

theorem streak_zero (P : ℕ → Prop) (k : ℕ) : Streak P k 0 := by
  refine ⟨Nat.zero_le k, fun j hlow hhigh => ?_⟩
  omega

theorem Streak.succ (h : Streak P k n) (hk : P k) : Streak P (k + 1) (n + 1) := by
  obtain ⟨hle, hall⟩ := h
  refine ⟨by omega, fun j hlow hhigh => ?_⟩
  rcases Nat.lt_or_ge j k with hj | hj
  · exact hall j (by omega) hj
  · obtain rfl : j = k := by omega
    exact hk

theorem Streak.mono {m : ℕ} (h : Streak P k n) (hm : m ≤ n) : Streak P k m :=
  ⟨hm.trans h.1, fun j hlow hhigh => h.2 j (by omega) hhigh⟩

/-- A saturating counter. -/
theorem Streak.count (h : Streak P k n) (hk : P k) (cap : ℕ) : Streak P (k + 1) (min (n + 1) cap) :=
  (h.succ hk).mono (min_le_left _ _)

end LanLink.Lib
