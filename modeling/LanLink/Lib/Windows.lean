import Mathlib.Tactic
/-!
# Replay windows

A replay window remembers the highest number seen and, in a bit map, which of
the numbers just below it were seen: bit `i` stands for the number `i` below the
highest. `Tracks` says which set of numbers a window stands for. A window of
`w` bits takes the numbers not seen yet that are less than `w` below the
highest.
-/
namespace LanLink.Lib

/-- A window with the bits `bit` below `highest` stands for the numbers in `seen`. -/
structure Tracks (w highest : ℕ) (bit : ℕ → Bool) (seen : Finset ℕ) : Prop where
  le : ∀ s ∈ seen, s ≤ highest
  bit_iff : ∀ i < w, bit i = true ↔ ∃ s ∈ seen, s + i = highest

/-- A number a window of `w` takes: not seen yet, and not too far below any number seen. -/
def Fits (w : ℕ) (seen : Finset ℕ) (s : ℕ) : Prop := s ∉ seen ∧ ∀ t ∈ seen, t < s + w

section
variable {w highest s : ℕ} {bit bit' : ℕ → Bool} {seen : Finset ℕ}

/-- The window of one number. -/
theorem tracks_singleton (h : ∀ i < w, bit i = true ↔ i = 0) : Tracks w s bit {s} where
  le := by simp
  bit_iff := by
    intro i hi
    rw [h i hi]
    simp

theorem Tracks.fits_of_lt (h : Tracks w highest bit seen) (hlt : highest < s) : Fits w seen s := by
  constructor
  · intro hs
    have hle := h.le s hs
    omega
  · intro t ht
    have hle := h.le t ht
    omega

/-- Below the highest number, the bit decides. -/
theorem Tracks.fits_iff (h : Tracks w highest bit seen) (hmem : highest ∈ seen) (hle : s ≤ highest) :
    Fits w seen s ↔ highest - s < w ∧ bit (highest - s) = false := by
  constructor
  · rintro ⟨hnew, hnear⟩
    have hlt := hnear highest hmem
    have hw : highest - s < w := by omega
    refine ⟨hw, ?_⟩
    rw [Bool.eq_false_iff]
    intro hbit
    obtain ⟨t, ht, heq⟩ := (h.bit_iff _ hw).1 hbit
    obtain rfl : t = s := by omega
    exact hnew ht
  · rintro ⟨hw, hbit⟩
    refine ⟨?_, ?_⟩
    · intro hs
      have hset := (h.bit_iff _ hw).2 ⟨s, hs, by omega⟩
      rw [hbit] at hset
      cases hset
    · intro t ht
      have ht' := h.le t ht
      omega

/-- A number above the highest moves the window up. -/
theorem Tracks.raise (h : Tracks w highest bit seen) (hlt : highest < s)
    (hbit : ∀ i < w, bit' i = true ↔ i = 0 ∨ (s - highest ≤ i ∧ bit (i - (s - highest)) = true)) :
    Tracks w s bit' (insert s seen) where
  le := by
    intro t ht
    rcases Finset.mem_insert.1 ht with rfl | ht
    · exact le_rfl
    · exact (h.le t ht).trans hlt.le
  bit_iff := by
    intro i hi
    rw [hbit i hi]
    constructor
    · rintro (rfl | ⟨hle, hold⟩)
      · exact ⟨s, by simp, rfl⟩
      · obtain ⟨t, ht, heq⟩ := (h.bit_iff _ (by omega)).1 hold
        exact ⟨t, by simp [ht], by omega⟩
    · rintro ⟨t, ht, heq⟩
      rcases Finset.mem_insert.1 ht with rfl | ht
      · exact .inl (by omega)
      · have hle := h.le t ht
        exact .inr ⟨by omega, (h.bit_iff _ (by omega)).2 ⟨t, ht, by omega⟩⟩

/-- A number inside the window sets its bit. -/
theorem Tracks.mark (h : Tracks w highest bit seen) (hle : s ≤ highest)
    (hbit : ∀ i < w, bit' i = true ↔ i = highest - s ∨ bit i = true) : Tracks w highest bit' (insert s seen) where
  le := by
    intro t ht
    rcases Finset.mem_insert.1 ht with rfl | ht
    · exact hle
    · exact h.le t ht
  bit_iff := by
    intro i hi
    rw [hbit i hi, h.bit_iff i hi]
    constructor
    · rintro (rfl | ⟨t, ht, heq⟩)
      · exact ⟨s, by simp, by omega⟩
      · exact ⟨t, by simp [ht], heq⟩
    · rintro ⟨t, ht, heq⟩
      rcases Finset.mem_insert.1 ht with rfl | ht
      · exact .inl (by omega)
      · exact .inr ⟨t, ht, heq⟩

/-- A number seen does not stand in the way of a higher one. -/
theorem fits_insert_of_lt {t : ℕ} (hlt : s < t) : Fits w (insert s seen) t ↔ Fits w seen t := by
  constructor
  · rintro ⟨hnew, hnear⟩
    exact ⟨fun ht => hnew (Finset.mem_insert_of_mem ht), fun u hu => hnear u (Finset.mem_insert_of_mem hu)⟩
  · rintro ⟨hnew, hnear⟩
    refine ⟨?_, fun u hu => ?_⟩
    · rw [Finset.mem_insert]
      rintro (heq | ht)
      · omega
      · exact hnew ht
    · rcases Finset.mem_insert.1 hu with rfl | hu
      · omega
      · exact hnear u hu

end

/-! ## Words as bit maps -/

/-- Bit `i` of a word. -/
def wordBit (x : UInt64) (i : ℕ) : Bool := x.toBitVec.getLsbD i

theorem wordBit_one {i : ℕ} : wordBit 1 i = true ↔ i = 0 := by
  simp [wordBit, BitVec.getLsbD_one]

section
variable {d : UInt32} {i : ℕ}

theorem toBitVec_shift (x : UInt64) (hd : d < 64) : (x <<< d.toUInt64).toBitVec = x.toBitVec <<< d.toNat := by
  have h : d.toNat < 64 := by simpa [UInt32.lt_iff_toNat_lt] using hd
  have hmod : (d.toUInt64.toBitVec % 64).toNat = d.toNat := by
    simpa using Nat.mod_eq_of_lt h
  rw [UInt64.toBitVec_shiftLeft, BitVec.shiftLeft_eq', hmod]

theorem toBitVec_bit (hd : d < 64) : (1 <<< d.toUInt64 : UInt64).toBitVec = BitVec.twoPow 64 d.toNat := by
  rw [toBitVec_shift 1 hd, BitVec.twoPow_eq]
  rfl

/-- The map moved up by `d`, with the new highest number in it. -/
theorem wordBit_shift (x : UInt64) (hd : d < 64) (hi : i < 64) :
    wordBit ((x <<< d.toUInt64) ||| 1) i = true ↔ i = 0 ∨ (d.toNat ≤ i ∧ wordBit x (i - d.toNat) = true) := by
  unfold wordBit
  rw [UInt64.toBitVec_or, toBitVec_shift x hd, BitVec.getLsbD_or, BitVec.getLsbD_shiftLeft]
  simp [hi, or_comm]

/-- The map with bit `d` set. -/
theorem wordBit_mark (x : UInt64) (hd : d < 64) :
    wordBit (x ||| (1 <<< d.toUInt64)) i = true ↔ i = d.toNat ∨ wordBit x i = true := by
  have h : d.toNat < 64 := by simpa [UInt32.lt_iff_toNat_lt] using hd
  unfold wordBit
  rw [UInt64.toBitVec_or, toBitVec_bit hd, BitVec.getLsbD_or, BitVec.getLsbD_twoPow, or_comm]
  simp [h, eq_comm (b := i)]

/-- The test of bit `d`. -/
theorem and_bit_eq_zero (x : UInt64) (hd : d < 64) : x &&& (1 <<< d.toUInt64) = 0 ↔ wordBit x d.toNat = false := by
  have h : d.toNat < 64 := by simpa [UInt32.lt_iff_toNat_lt] using hd
  have hne : BitVec.twoPow 64 d.toNat ≠ 0#64 := by
    intro h0
    have hbit := congrArg (BitVec.getLsbD · d.toNat) h0
    simp [h] at hbit
  unfold wordBit
  rw [← UInt64.toBitVec_inj, UInt64.toBitVec_and, toBitVec_bit hd, BitVec.and_twoPow]
  split
  · rename_i hbit
    simp only [hbit, Bool.true_eq_false, iff_false]
    exact hne
  · rename_i hbit
    simpa using hbit

end

end LanLink.Lib
