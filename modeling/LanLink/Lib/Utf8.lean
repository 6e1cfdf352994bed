import Mathlib.Tactic
/-!
# UTF-8

The encoding of a character, read from its bytes. A character is a scalar value,
so surrogates and what is past the last code point have no encoding; and it has
one encoding only, the shortest.
-/
namespace LanLink.Lib

variable {c : Char} {b₀ b₁ b₂ b₃ : UInt8}

/-- A byte after the first of a character. -/
def IsContinuation (b : UInt8) : Prop := 0x80 ≤ b.toNat ∧ b.toNat ≤ 0xbf

theorem toNat_eq_ofNat {b : UInt8} {n : ℕ} (hn : n < 256) : UInt8.ofNat n = b ↔ n = b.toNat := by
  rw [← UInt8.toNat_inj, UInt8.toNat_ofNat_of_lt' hn]

theorem char_le (c : Char) : c.toNat ≤ 0x10ffff := by
  have hvalid := c.valid
  change c.toNat.isValidChar at hvalid
  unfold Nat.isValidChar at hvalid
  omega

theorem toNat_ofNat_of_valid {n : ℕ} (h : n.isValidChar) : (Char.ofNat n).toNat = n := by
  rw [Char.ofNat, dif_pos h]
  exact UInt32.toNat_ofNatLT

theorem utf8EncodeChar_one : String.utf8EncodeChar c = [b₀] ↔ b₀.toNat ≤ 0x7f ∧ c.toNat = b₀.toNat := by
  have hval : c.toNat = c.val.toNat := rfl
  unfold String.utf8EncodeChar
  dsimp only
  split_ifs with hone htwo hthree
  · simp only [List.cons.injEq, and_true]
    rw [toNat_eq_ofNat (by omega)]
    omega
  · simp
    omega
  · simp
    omega
  · simp
    omega

theorem utf8EncodeChar_two : String.utf8EncodeChar c = [b₀, b₁] ↔
    0xc2 ≤ b₀.toNat ∧ b₀.toNat ≤ 0xdf ∧ IsContinuation b₁ ∧ c.toNat = b₀.toNat % 32 * 64 + b₁.toNat % 64 := by
  have hval : c.toNat = c.val.toNat := rfl
  unfold String.utf8EncodeChar
  dsimp only
  unfold IsContinuation
  split_ifs with hone htwo hthree
  · simp
    omega
  · simp only [List.cons.injEq, and_true]
    rw [toNat_eq_ofNat (by omega), toNat_eq_ofNat (by omega)]
    omega
  · simp
    omega
  · simp
    omega

theorem utf8EncodeChar_three : String.utf8EncodeChar c = [b₀, b₁, b₂] ↔
    0xe0 ≤ b₀.toNat ∧ b₀.toNat ≤ 0xef ∧ IsContinuation b₁ ∧ IsContinuation b₂ ∧ 0x800 ≤ c.toNat ∧
      c.toNat = (b₀.toNat % 16 * 64 + b₁.toNat % 64) * 64 + b₂.toNat % 64 := by
  have hval : c.toNat = c.val.toNat := rfl
  unfold String.utf8EncodeChar
  dsimp only
  unfold IsContinuation
  split_ifs with hone htwo hthree
  · simp
    omega
  · simp
    omega
  · simp only [List.cons.injEq, and_true]
    rw [toNat_eq_ofNat (by omega), toNat_eq_ofNat (by omega), toNat_eq_ofNat (by omega)]
    omega
  · simp
    omega

theorem utf8EncodeChar_four : String.utf8EncodeChar c = [b₀, b₁, b₂, b₃] ↔
    0xf0 ≤ b₀.toNat ∧ b₀.toNat ≤ 0xf4 ∧ IsContinuation b₁ ∧ IsContinuation b₂ ∧ IsContinuation b₃ ∧ 0x10000 ≤ c.toNat ∧
      c.toNat = ((b₀.toNat % 8 * 64 + b₁.toNat % 64) * 64 + b₂.toNat % 64) * 64 + b₃.toNat % 64 := by
  have hmax := char_le c
  have hval : c.toNat = c.val.toNat := rfl
  unfold String.utf8EncodeChar
  dsimp only
  unfold IsContinuation
  split_ifs with hone htwo hthree
  · simp
    omega
  · simp
    omega
  · simp
    omega
  · simp only [List.cons.injEq, and_true]
    rw [toNat_eq_ofNat (by omega), toNat_eq_ofNat (by omega), toNat_eq_ofNat (by omega), toNat_eq_ofNat (by omega)]
    omega

/-- Every encoding has one of the four forms. -/
theorem utf8EncodeChar_cases (c : Char) : (∃ a, String.utf8EncodeChar c = [a]) ∨ (∃ a b, String.utf8EncodeChar c = [a, b]) ∨
    (∃ a b d, String.utf8EncodeChar c = [a, b, d]) ∨ ∃ a b d e, String.utf8EncodeChar c = [a, b, d, e] := by
  unfold String.utf8EncodeChar
  dsimp only
  split_ifs
  · exact .inl ⟨_, rfl⟩
  · exact .inr (.inl ⟨_, _, rfl⟩)
  · exact .inr (.inr (.inl ⟨_, _, _, rfl⟩))
  · exact .inr (.inr (.inr ⟨_, _, _, _, rfl⟩))

end LanLink.Lib
