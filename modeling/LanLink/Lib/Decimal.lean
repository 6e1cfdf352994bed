import LanLink.Lib.Bytes
/-!
# Numbers in decimal

Writing a number in base ten and reading one with a bounded type. Reading stops at
the first byte that is not a digit, and fails without a digit or out of range.
-/
namespace LanLink.Lib

/-- `0` to `9` in ASCII. -/
def isDigit (c : UInt8) : Bool := 48 ≤ c && c ≤ 57

def digitByte (d : ℕ) : UInt8 := UInt8.ofNat (48 + d)

/-- The shortest numeral, as `std::to_string` writes it. -/
def decimal (n : ℕ) : Bytes := if n = 0 then [digitByte 0] else ((Nat.digits 10 n).map digitByte).reverse

/-- The number a row of digits stands for. -/
def decimalValue (t : Bytes) : ℕ := Nat.ofDigits 10 (t.reverse.map fun c => c.toNat - 48)

/-- `std::from_chars` for an unsigned integer of `w` bits: the number and what
follows its digits, or nothing on an error. -/
def fromChars (w : ℕ) (t : Bytes) : Option (ℕ × Bytes) :=
  if t.takeWhile isDigit = [] then none
  else if decimalValue (t.takeWhile isDigit) < 2 ^ w then some (decimalValue (t.takeWhile isDigit), t.dropWhile isDigit)
  else none

variable {d n w : ℕ} {t : Bytes}

theorem toNat_digitByte (h : d < 10) : (digitByte d).toNat = 48 + d := by
  rw [digitByte, UInt8.toNat_ofNat']
  omega

theorem isDigit_digitByte (h : d < 10) : isDigit (digitByte d) := by
  simp only [isDigit, Bool.and_eq_true, decide_eq_true_eq, UInt8.le_iff_toNat_le, toNat_digitByte h]
  change 48 ≤ 48 + d ∧ 48 + d ≤ 57
  omega

theorem decimal_ne_nil (n : ℕ) : decimal n ≠ [] := by
  rw [decimal]
  split
  · simp
  · rename_i hn
    simpa [Nat.digits_eq_nil_iff_eq_zero] using hn

theorem isDigit_of_mem_decimal {c : UInt8} (h : c ∈ decimal n) : isDigit c := by
  rw [decimal] at h
  split at h
  · simp only [List.mem_singleton] at h
    subst h
    exact isDigit_digitByte (by norm_num)
  · simp only [List.mem_reverse, List.mem_map] at h
    obtain ⟨d, hd, rfl⟩ := h
    exact isDigit_digitByte (Nat.digits_lt_base (by norm_num) hd)

/-- A numeral stands for the number it was written for. -/
theorem decimalValue_decimal (n : ℕ) : decimalValue (decimal n) = n := by
  rw [decimalValue, decimal]
  split
  · simp_all [toNat_digitByte]
  · rw [List.reverse_reverse, List.map_map]
    have hdigits : (Nat.digits 10 n).map ((fun c : UInt8 => c.toNat - 48) ∘ digitByte) = Nat.digits 10 n := by
      refine (List.map_congr_left fun d hd => ?_).trans (List.map_id _)
      rw [Function.comp_apply, toNat_digitByte (Nat.digits_lt_base (by norm_num) hd)]
      simp
    rw [hdigits, Nat.ofDigits_digits]

/-- A numeral that fits, followed by something that does not start with a digit. -/
theorem fromChars_decimal (hn : n < 2 ^ w) (ht : ∀ c ∈ t.head?, isDigit c = false) :
    fromChars w (decimal n ++ t) = some (n, t) := by
  have hdigits : ∀ c ∈ decimal n, isDigit c = true := fun c hc => isDigit_of_mem_decimal hc
  have hstop : t.takeWhile isDigit = [] ∧ t.dropWhile isDigit = t := by
    cases t with
    | nil => simp
    | cons c t =>
      have hc := ht c rfl
      simp [hc]
  have htake : (decimal n ++ t).takeWhile isDigit = decimal n := by
    rw [List.takeWhile_append_of_pos hdigits, hstop.1, List.append_nil]
  have hdrop : (decimal n ++ t).dropWhile isDigit = t := by
    rw [List.dropWhile_append_of_pos hdigits, hstop.2]
  rw [fromChars, htake, hdrop, decimalValue_decimal, if_neg (decimal_ne_nil n), if_pos hn]

end LanLink.Lib
