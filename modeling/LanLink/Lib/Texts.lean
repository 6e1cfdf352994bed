import LanLink.Lib.Bytes
import Mathlib.Data.List.DropRight
import Mathlib.Data.Nat.Digits.Defs
/-!
# Trimming and hexadecimal digits

What is left of a text without certain characters at its ends, and texts of
hexadecimal digits in either case. The digits' values determine the number and
the bytes that a text spells.
-/
namespace LanLink.Lib

/-! ## Trimming -/

section
variable {α : Type} {p : α → Bool} {xs ys zs : List α}

/-- The list without the elements at both ends that meet `p`. -/
def trim (p : α → Bool) (xs : List α) : List α := (xs.dropWhile p).rdropWhile p

theorem exists_trim (p : α → Bool) (xs : List α) :
    ∃ before after, xs = before ++ trim p xs ++ after ∧ (∀ a ∈ before, p a = true) ∧ ∀ a ∈ after, p a = true := by
  refine ⟨xs.takeWhile p, (xs.dropWhile p).rtakeWhile p, ?_, fun a ha => List.mem_takeWhile_imp ha,
    fun a ha => List.mem_rtakeWhile_imp ha⟩
  rw [trim, List.append_assoc, List.rdropWhile_append_rtakeWhile, List.takeWhile_append_dropWhile]

theorem dropWhile_eq_self (h : ∀ a ∈ xs, p a = false) : xs.dropWhile p = xs := by
  cases xs with
  | nil => rfl
  | cons a xs => rw [List.dropWhile_cons_of_neg (by rw [h a List.mem_cons_self]; exact Bool.false_ne_true)]

/-- Nothing else is taken off. -/
theorem trim_append (hxs : ∀ a ∈ xs, p a = true) (hys : ∀ a ∈ ys, p a = false) (hzs : ∀ a ∈ zs, p a = true) :
    trim p (xs ++ ys ++ zs) = ys := by
  rw [trim, List.append_assoc, List.dropWhile_append_of_pos hxs]
  cases ys with
  | nil =>
    rw [List.nil_append, List.dropWhile_eq_nil_iff.2 hzs, List.rdropWhile_nil]
  | cons a ys =>
    have ha : p a = false := hys a List.mem_cons_self
    have hreverse : ∀ b ∈ (a :: ys).reverse, p b = false := fun b hb => hys b (List.mem_reverse.1 hb)
    rw [List.cons_append, List.dropWhile_cons_of_neg (by simp [ha]), ← List.cons_append, List.rdropWhile, List.reverse_append,
      List.dropWhile_append_of_pos (fun b hb => hzs b (List.mem_reverse.1 hb)), dropWhile_eq_self hreverse, List.reverse_reverse]

end

/-! ## Digits -/

/-- "0123456789abcdef". -/
def lowerDigits : Bytes := [48, 49, 50, 51, 52, 53, 54, 55, 56, 57, 97, 98, 99, 100, 101, 102]

/-- "0123456789ABCDEF". -/
def upperDigits : Bytes := [48, 49, 50, 51, 52, 53, 54, 55, 56, 57, 65, 66, 67, 68, 69, 70]

/-- A digit of this value, in either case. -/
def IsDigit (c : UInt8) (v : ℕ) : Prop := lowerDigits[v]? = some c ∨ upperDigits[v]? = some c

instance (c : UInt8) (v : ℕ) : Decidable (IsDigit c v) := inferInstanceAs (Decidable (_ ∨ _))

/-- Digits with these values. -/
abbrev Spells (digits : Bytes) (values : List ℕ) : Prop := List.Forall₂ IsDigit digits values

/-- The number with these digits, most significant first. -/
def hexNumber (values : List ℕ) : ℕ := Nat.ofDigits 16 values.reverse

/-- The bytes of which each has two of these digits. -/
def packed : List ℕ → Bytes
  | high :: low :: values => UInt8.ofNat (high * 16 + low) :: packed values
  | _ => []

/-- The two digits of each byte. -/
def unpacked (bytes : Bytes) : List ℕ := bytes.flatMap fun b => [b.toNat / 16, b.toNat % 16]

theorem IsDigit.lt {c : UInt8} {v : ℕ} (h : IsDigit c v) : v < 16 := by
  rcases h with h | h
  · exact (List.getElem?_eq_some_iff.1 h).1
  · exact (List.getElem?_eq_some_iff.1 h).1

theorem Spells.lt {digits : Bytes} {values : List ℕ} (h : Spells digits values) : ∀ v ∈ values, v < 16 := by
  induction h with
  | nil => simp
  | cons hd _ ih => exact List.forall_mem_cons.2 ⟨hd.lt, ih⟩

theorem IsDigit.mem {c : UInt8} {v : ℕ} (h : IsDigit c v) : c ∈ lowerDigits ++ upperDigits := by
  rcases h with h | h
  · exact List.mem_append_left _ (List.mem_of_getElem? h)
  · exact List.mem_append_right _ (List.mem_of_getElem? h)

/-- What holds of every digit holds of all characters that spell something. -/
theorem Spells.forall_mem {P : UInt8 → Prop} {digits : Bytes} {values : List ℕ} (h : Spells digits values)
    (hP : ∀ c ∈ lowerDigits ++ upperDigits, P c) : ∀ c ∈ digits, P c := by
  induction h with
  | nil => simp
  | cons hd _ ih => exact List.forall_mem_cons.2 ⟨hP _ (IsDigit.mem hd), ih⟩

theorem packed_unpacked (bytes : Bytes) : packed (unpacked bytes) = bytes := by
  induction bytes with
  | nil => rfl
  | cons b bytes ih =>
    have hb : b.toNat / 16 * 16 + b.toNat % 16 = b.toNat := Nat.div_add_mod' _ _
    rw [unpacked, List.flatMap_cons, List.cons_append, List.cons_append, List.nil_append, packed, hb, UInt8.ofNat_toNat, ← unpacked, ih]

theorem length_packed (values : List ℕ) : (packed values).length = values.length / 2 := by
  induction values using packed.induct with
  | case1 high low values ih =>
    rw [packed, List.length_cons, ih, List.length_cons, List.length_cons]
    omega
  | case2 values hshort =>
    rcases values with _ | ⟨high, _ | ⟨low, values⟩⟩
    · rfl
    · simp [packed]
    · exact (hshort high low values rfl).elim

/-- Bytes and digits spell one number. -/
theorem beNat_packed {values : List ℕ} (heven : values.length % 2 = 0) (hlt : ∀ v ∈ values, v < 16) :
    beNat (packed values) = hexNumber values := by
  induction values using packed.induct with
  | case1 high low values ih =>
    obtain ⟨hhigh, hlt⟩ := List.forall_mem_cons.1 hlt
    obtain ⟨hlow, hlt⟩ := List.forall_mem_cons.1 hlt
    rw [List.length_cons, List.length_cons] at heven
    have hbyte : (UInt8.ofNat (high * 16 + low)).toNat = high * 16 + low :=
      UInt8.toNat_ofNat_of_lt' (show high * 16 + low < 256 by omega)
    have hpow : 256 ^ (values.length / 2) = 16 ^ values.length := by
      rw [show (256 : ℕ) = 16 ^ 2 from rfl, ← pow_mul]
      congr 1
      omega
    rw [packed, beNat, List.foldl_cons, foldl_be, Nat.zero_mul, Nat.zero_add, hbyte, length_packed, hpow, ih (by omega) hlt,
      hexNumber, hexNumber, List.reverse_cons, List.reverse_cons, List.append_assoc, Nat.ofDigits_append, List.length_reverse]
    simp only [List.singleton_append, Nat.ofDigits_cons, Nat.ofDigits_nil]
    ring
  | case2 values hshort =>
    rcases values with _ | ⟨high, _ | ⟨low, values⟩⟩
    · rfl
    · simp at heven
    · exact (hshort high low values rfl).elim

theorem beNat_eq_zero {bytes : Bytes} : beNat bytes = 0 ↔ ∀ b ∈ bytes, b = 0 := by
  induction bytes with
  | nil => simp [beNat]
  | cons b bytes ih =>
    have hpos : 0 < 256 ^ bytes.length := by positivity
    rw [List.forall_mem_cons, ← ih, beNat, List.foldl_cons, foldl_be, Nat.zero_mul, Nat.zero_add, Nat.add_eq_zero_iff,
      Nat.mul_eq_zero, or_iff_left hpos.ne', ← UInt8.toNat_inj]
    rfl

end LanLink.Lib
