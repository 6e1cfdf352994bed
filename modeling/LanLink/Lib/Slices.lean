import LanLink.Lib.Bytes
/-!
# Slices

The bytes between two offsets. A byte string with a fixed layout is the
concatenation of its slices, and a slice of a concatenation is found by skipping
the pieces before it.
-/
namespace LanLink.Lib

/-- The `n` elements from `offset` on. -/
def slice {α : Type*} (l : List α) (offset n : ℕ) : List α := (l.drop offset).take n

variable {α : Type*} {xs ys l : List α} {offset n m : ℕ}

theorem length_slice (h : offset + n ≤ l.length) : (slice l offset n).length = n := by
  rw [slice, List.length_take, List.length_drop]
  omega

/-- Adjacent slices. -/
theorem slice_append_slice (l : List α) (offset n m : ℕ) : slice l offset n ++ slice l (offset + n) m = slice l offset (n + m) := by
  rw [slice, slice, slice, ← List.drop_drop, List.take_add]

theorem slice_all (h : l.length = n) : slice l 0 n = l := by
  rw [slice, List.drop_zero, ← h, List.take_length]

/-- The slice that is the first piece. -/
theorem slice_head (h : xs.length = n) : slice (xs ++ ys) 0 n = xs := by
  rw [slice, List.drop_zero, List.take_left' h]

/-- Skip the first piece. -/
theorem slice_skip (h : xs.length ≤ offset) : slice (xs ++ ys) offset n = slice ys (offset - xs.length) n := by
  rw [slice, slice, List.drop_append, List.drop_eq_nil_of_le h, List.nil_append]

/-- The number in a slice is written as the slice. -/
theorem beBytes_slice {bs : Bytes} (h : offset + n ≤ bs.length) : beBytes n (beNat (slice bs offset n)) = slice bs offset n := by
  have hback := beBytes_beNat (slice bs offset n)
  rwa [length_slice h] at hback

theorem beNat_slice_lt {bs : Bytes} (h : offset + n ≤ bs.length) : beNat (slice bs offset n) < 256 ^ n := by
  have hlt := beNat_lt (slice bs offset n)
  rwa [length_slice h] at hlt

theorem leBytes_slice {bs : Bytes} (h : offset + n ≤ bs.length) : leBytes n (leNat (slice bs offset n)) = slice bs offset n := by
  have hback := leBytes_leNat (slice bs offset n)
  rwa [length_slice h] at hback

theorem leNat_slice_lt {bs : Bytes} (h : offset + n ≤ bs.length) : leNat (slice bs offset n) < 256 ^ n := by
  have hlt := leNat_lt (slice bs offset n)
  rwa [length_slice h] at hlt

end LanLink.Lib
