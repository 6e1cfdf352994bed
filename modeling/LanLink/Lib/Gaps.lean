import Mathlib.Tactic
/-!
# The first gap in a sorted list

One pass over sorted numbers that looks for the first number of an arithmetic
progression that is missing: smaller numbers are passed over, the candidate moves
on when it is met, and the first larger number ends the search.
-/
namespace LanLink.Lib

/-- The pass from `candidate` upwards in steps of `stride`. -/
def firstGap (stride candidate : ℕ) : List ℕ → ℕ
  | [] => candidate
  | a :: occupied =>
    if candidate < a then candidate
    else if a = candidate then firstGap stride (candidate + stride) occupied
    else firstGap stride candidate occupied

variable {stride candidate : ℕ} {occupied : List ℕ}

/-- Every candidate before the result was met, and the result was not. -/
theorem firstGap_spec (hstride : 0 < stride) (hsorted : occupied.Pairwise (· ≤ ·)) :
    ∃ k, firstGap stride candidate occupied = candidate + stride * k ∧ candidate + stride * k ∉ occupied ∧
      ∀ i < k, candidate + stride * i ∈ occupied := by
  induction occupied generalizing candidate with
  | nil => exact ⟨0, by simp [firstGap], List.not_mem_nil, by simp⟩
  | cons a occupied ih =>
    obtain ⟨hfirst, hsorted⟩ := List.pairwise_cons.1 hsorted
    rw [firstGap]
    split
    · -- everything that follows is above the candidate
      rename_i hlt
      refine ⟨0, rfl, ?_, by simp⟩
      intro hmem
      rcases List.mem_cons.1 hmem with heq | hmem
      · omega
      · have := hfirst _ hmem
        omega
    · split
      · rename_i heq
        obtain ⟨k, hgap, hnot, hall⟩ := @ih (candidate + stride) hsorted
        have hnext : candidate + stride + stride * k = candidate + stride * (k + 1) := by ring
        rw [hnext] at hgap hnot
        refine ⟨k + 1, hgap, ?_, ?_⟩
        · intro hmem
          rcases List.mem_cons.1 hmem with hself | hmem
          · have := Nat.mul_pos hstride (Nat.succ_pos k)
            omega
          · exact hnot hmem
        · intro i hi
          cases i with
          | zero =>
            rw [Nat.mul_zero, Nat.add_zero, ← heq]
            exact List.mem_cons_self
          | succ i =>
            have hmem := hall i (by omega)
            rw [show candidate + stride + stride * i = candidate + stride * (i + 1) by ring] at hmem
            exact List.mem_cons_of_mem _ hmem
      · -- the number is below all candidates
        rename_i hlt hne
        obtain ⟨k, hgap, hnot, hall⟩ := @ih candidate hsorted
        refine ⟨k, hgap, ?_, fun i hi => List.mem_cons_of_mem _ (hall i hi)⟩
        intro hmem
        rcases List.mem_cons.1 hmem with hself | hmem
        · omega
        · exact hnot hmem

/-- If all the first `m` numbers are there, the list is at least that long. -/
theorem le_length_of_progression {m : ℕ} (hstride : 0 < stride) (h : ∀ i < m, candidate + stride * i ∈ occupied) :
    m ≤ occupied.length := by
  have hnodup : ((List.range m).map fun i => candidate + stride * i).Nodup := by
    refine List.nodup_range.map fun i j hij => ?_
    exact Nat.eq_of_mul_eq_mul_left hstride (Nat.add_left_cancel hij)
  have hsub : ((List.range m).map fun i => candidate + stride * i) ⊆ occupied := by
    intro x hx
    obtain ⟨i, hi, rfl⟩ := List.mem_map.1 hx
    exact h i (List.mem_range.1 hi)
  simpa using (hnodup.subperm hsub).length_le

/-- Different numbers among the first `m`. -/
theorem length_le_of_progression {m : ℕ} (hnodup : occupied.Nodup) (h : ∀ x ∈ occupied, ∃ i < m, x = candidate + stride * i) :
    occupied.length ≤ m := by
  have hsub : occupied ⊆ (List.range m).map fun i => candidate + stride * i := by
    intro x hx
    obtain ⟨i, hi, rfl⟩ := h x hx
    exact List.mem_map.2 ⟨i, List.mem_range.2 hi, rfl⟩
  simpa using (hnodup.subperm hsub).length_le

end LanLink.Lib
