import LanLink.Protocol.Ipv4Reads
/-!
# Checksums in 32-bit registers

`internet_checksum` of `protocol/ipv4.cpp` and `checksum` of
`network/multicast.cpp`, with their sum in a `std::uint32_t` and the loop that
folds it. On packets nothing overflows, the fold takes at most two rounds, and
the two functions agree.
-/
open LanLink.Lib

namespace LanLink

namespace Registers

/-- The loop over the words, with the sum so far. -/
def sumFrom (bytes : Bytes) (index : ℕ) (sum : UInt32) : Except (Fault Exn) UInt32 :=
  if index < bytes.length then do
    let high ← readAt bytes index
    let sum := sum + high.toUInt32 <<< 8
    if index + 1 < bytes.length then do
      let low ← readAt bytes (index + 1)
      sumFrom bytes (index + 2) (sum + low.toUInt32)
    else sumFrom bytes (index + 2) sum
  else .ok sum
termination_by bytes.length - index
decreasing_by all_goals omega

/-- One round of `while (sum >> 16U)`. -/
def foldRound (sum : UInt32) : UInt32 := (sum &&& (0xffff : UInt32)) + (sum >>> 16)

theorem toNat_shiftRight (sum : UInt32) : (sum >>> 16).toNat = sum.toNat / 65536 := by
  rw [UInt32.toNat_shiftRight]
  exact Nat.shiftRight_eq_div_pow _ _

/-- The sum of two 16-bit words fits. -/
theorem toNat_foldRound (sum : UInt32) : (foldRound sum).toNat = sum.toNat % 65536 + sum.toNat / 65536 := by
  have hlow : (sum &&& (0xffff : UInt32)).toNat = sum.toNat % 65536 := by
    rw [UInt32.toNat_and]
    exact Nat.and_two_pow_sub_one_eq_mod _ 16
  have hlt := sum.toNat_lt
  rw [foldRound, UInt32.toNat_add, hlow, toNat_shiftRight]
  omega

theorem shiftRight_eq_zero {sum : UInt32} : sum >>> 16 = 0 ↔ sum.toNat < 65536 := by
  rw [← UInt32.toNat_inj, toNat_shiftRight]
  change _ = 0 ↔ _
  omega

def fold (sum : UInt32) : UInt32 := if sum >>> 16 = 0 then sum else fold (foldRound sum)
termination_by sum.toNat
decreasing_by
  rename_i h
  rw [shiftRight_eq_zero] at h
  rw [toNat_foldRound]
  omega

def internetChecksum (bytes : Bytes) : Except (Fault Exn) UInt16 := do
  let sum ← sumFrom bytes 0 0
  .ok (~~~(fold sum)).toUInt16

def updateIpv4Checksum (packet : Bytes) : Except (Fault Exn) Bytes := do
  check (20 ≤ packet.length) (.thrown (.invalidArgument "short IPv4 header"))
  let first ← readAt packet 0
  let header := first.toNat % 16 * 4
  check (20 ≤ header ∧ header ≤ packet.length) (.thrown (.invalidArgument "invalid IPv4 header length"))
  let cleared := putInt packet 10 0 2
  let fixed ← subspan cleared 0 header
  let sum ← internetChecksum fixed
  .ok (putInt cleared 10 sum.toNat 2)

/-- `checksum` of `multicast.cpp`: the same loops, another end. -/
def checksum (bytes : Bytes) : Except (Fault Exn) Bool := do
  let sum ← sumFrom bytes 0 0
  .ok (fold sum = 0xffff)

/-! ## The sum -/

theorem toUInt32_eq (b : UInt8) : b.toUInt32 = UInt32.ofNat b.toNat := by
  rw [← UInt32.toNat_inj]
  simp

theorem toUInt32_shiftLeft (b : UInt8) : b.toUInt32 <<< 8 = UInt32.ofNat (b.toNat * 256) := by
  rw [← UInt32.toNat_inj, UInt32.toNat_shiftLeft, UInt32.toNat_ofNat']
  exact congrArg (· % 2 ^ 32) (Nat.shiftLeft_eq _ _)

/-- In the register the sum is taken modulo `2 ^ 32`. -/
theorem sumFrom_eq (bytes : Bytes) (index : ℕ) (sum : UInt32) :
    sumFrom bytes index sum = .ok (sum + UInt32.ofNat (sumWords (bytes.drop index))) := by
  induction index, sum using sumFrom.induct bytes with
  | case1 index sum hlt ihTwo ihOne =>
    rw [sumFrom, if_pos hlt, readAt_of_lt hlt, ok_bind, List.drop_eq_getElem_cons hlt]
    dsimp only
    by_cases hnext : index + 1 < bytes.length
    · rw [if_pos hnext, readAt_of_lt hnext, ok_bind, ihTwo _ hnext, List.drop_eq_getElem_cons hnext, sumWords,
        UInt32.ofNat_add, UInt32.ofNat_add, ← toUInt32_shiftLeft, ← toUInt32_eq]
      rw [List.getD_eq_getElem?_getD, List.getD_eq_getElem?_getD, List.getElem?_eq_getElem hlt, List.getElem?_eq_getElem hnext,
        Option.getD_some, Option.getD_some, UInt32.add_assoc, UInt32.add_assoc]
      exact congrArg (fun x => Except.ok (sum + x)) (UInt32.add_assoc _ _ _).symm
    · rw [if_neg hnext, ihOne _ hnext, List.drop_eq_nil_of_le (show bytes.length ≤ index + 2 by omega),
        List.drop_eq_nil_of_le (show bytes.length ≤ index + 1 by omega), sumWords, sumWords, ← toUInt32_shiftLeft]
      rw [List.getD_eq_getElem?_getD, List.getElem?_eq_getElem hlt, Option.getD_some]
      exact congrArg Except.ok (UInt32.add_zero _)
  | case2 index sum hend =>
    rw [sumFrom, if_neg hend, List.drop_eq_nil_of_le (by omega)]
    simp [sumWords]

theorem sumFrom_zero (bytes : Bytes) : sumFrom bytes 0 0 = .ok (UInt32.ofNat (sumWords bytes)) := by
  rw [sumFrom_eq, List.drop_zero, UInt32.zero_add]

/-- The bytes of a packet do not add up to `2 ^ 32`. -/
theorem toNat_sum {bytes : Bytes} (h : bytes.length ≤ 65535) : (UInt32.ofNat (sumWords bytes)).toNat = sumWords bytes := by
  have hle := sumWords_le bytes
  refine UInt32.toNat_ofNat_of_lt' ?_
  change _ < 2 ^ 32
  omega

/-- After an even number of bytes the loop goes on with their sum. -/
theorem sumFrom_resume {bytes : Bytes} {n : ℕ} (heven : n % 2 = 0) (hn : n ≤ bytes.length) :
    sumFrom bytes 0 0 = sumFrom (bytes.take n) 0 0 >>= fun sum => sumFrom bytes n sum := by
  have hprefix : (bytes.take n).length % 2 = 0 := by rwa [List.length_take, min_eq_left hn]
  rw [sumFrom_zero, sumFrom_zero, ok_bind, sumFrom_eq, ← UInt32.ofNat_add, ← sumWords_append _ hprefix, List.take_append_drop]

/-! ## The fold -/

theorem fold_two_rounds (sum : UInt32) : foldRound (foldRound sum) >>> 16 = 0 := by
  have hlt := sum.toNat_lt
  rw [shiftRight_eq_zero, toNat_foldRound, toNat_foldRound]
  omega

theorem toNat_fold (sum : UInt32) : (fold sum).toNat = foldCarries sum.toNat := by
  induction sum using fold.induct with
  | case1 sum h =>
    rw [fold, if_pos h, foldCarries, if_pos (shiftRight_eq_zero.1 h)]
  | case2 sum h ih =>
    rw [fold, if_neg h, ih, toNat_foldRound, foldCarries.eq_def sum.toNat, if_neg fun hlt => h (shiftRight_eq_zero.2 hlt)]

/-- The loop ends with the carries folded in. -/
theorem fold_ends (sum : UInt32) : ∃ k ≤ 2, fold sum = foldRound^[k] sum ∧ fold sum >>> 16 = 0 := by
  by_cases hnone : sum >>> 16 = 0
  · refine ⟨0, by omega, ?_⟩
    rw [fold, if_pos hnone]
    exact ⟨rfl, hnone⟩
  by_cases hone : foldRound sum >>> 16 = 0
  · refine ⟨1, by omega, ?_⟩
    rw [fold, if_neg hnone, fold, if_pos hone]
    exact ⟨rfl, hone⟩
  · refine ⟨2, le_rfl, ?_⟩
    rw [fold, if_neg hnone, fold, if_neg hone, fold, if_pos (fold_two_rounds sum)]
    exact ⟨rfl, fold_two_rounds sum⟩

theorem fold_lt (sum : UInt32) : (fold sum).toNat < 65536 := by
  rw [toNat_fold]
  exact (foldCarries_spec _).1

/-! ## The functions -/

theorem internetChecksum_eq (bytes : Bytes) : internetChecksum bytes = .ok (LanLink.internetChecksum bytes) := by
  have hfold : (fold (UInt32.ofNat (sumWords bytes))).toUInt16 = UInt16.ofNat (foldCarries (sumWords bytes % 2 ^ 32)) := by
    rw [← UInt32.toNat_ofNat', ← toNat_fold]
    rfl
  rw [internetChecksum, sumFrom_zero, ok_bind, LanLink.internetChecksum, UInt32.toUInt16_not, hfold]

theorem updateIpv4Checksum_eq (packet : Bytes) : updateIpv4Checksum packet = Indexed.updateIpv4Checksum packet := by
  simp only [updateIpv4Checksum, Indexed.updateIpv4Checksum, internetChecksum_eq, Indexed.internetChecksum_eq]

theorem checksum_eq (bytes : Bytes) : checksum bytes = .ok (decide (LanLink.internetChecksum bytes = 0)) := by
  have hlt := fold_lt (UInt32.ofNat (sumWords bytes))
  rw [toNat_fold, UInt32.toNat_ofNat'] at hlt
  rw [checksum, sumFrom_zero, ok_bind, Except.ok.injEq, decide_eq_decide, ← UInt32.toNat_inj, toNat_fold, UInt32.toNat_ofNat',
    ← UInt16.toNat_inj, toNat_internetChecksum]
  change _ = 65535 ↔ _ = 0
  omega

/-- What is accepted is a packet that holds its header; two of its bytes change. -/
theorem updateIpv4Checksum_eq_ok {packet packet' : Bytes} (h : updateIpv4Checksum packet = .ok packet') :
    20 ≤ headerLength packet ∧ headerLength packet ≤ packet.length ∧
      ∃ sum, packet' = putInt packet 10 sum 2 ∧ LanLink.internetChecksum (packet'.take (headerLength packet)) = 0 := by
  rw [updateIpv4Checksum_eq, Indexed.updateIpv4Checksum_eq, lift_eq_ok] at h
  have hbounds : 20 ≤ headerLength packet ∧ headerLength packet ≤ packet.length := by
    simp only [LanLink.updateIpv4Checksum, bind_eq_ok, check_eq_ok, exists_const] at h
    exact h.2.1
  obtain ⟨sum, -, hok, hzero⟩ := updateIpv4Checksum_ok hbounds.1 hbounds.2
  rw [hok, Except.ok.injEq] at h
  exact ⟨hbounds.1, hbounds.2, sum, h.symm, h ▸ hzero⟩

end Registers

open Registers

structure InternetChecksums : Prop where
  /-- In a packet, the register holds the sum of the bytes so far: no addition overflows. -/
  exact_sum (bytes : Bytes) (n : ℕ) : bytes.length ≤ 65535 →
    ∃ sum, sumFrom (bytes.take n) 0 0 = .ok sum ∧ sum.toNat = sumWords (bytes.take n)
  /-- Whole words in front are taken first, and the loop goes on with their sum. -/
  resumed (bytes : Bytes) (n : ℕ) : n % 2 = 0 → n ≤ bytes.length →
    sumFrom bytes 0 0 = sumFrom (bytes.take n) 0 0 >>= fun sum => sumFrom bytes n sum
  /-- The fold ends, after at most two rounds. -/
  folded (sum : UInt32) : ∃ k ≤ 2, fold sum = foldRound^[k] sum ∧ fold sum >>> 16 = 0
  /-- The two functions agree, and read nothing past the end. -/
  agree (bytes : Bytes) : ∃ sum, Registers.internetChecksum bytes = .ok sum ∧ checksum bytes = .ok (decide (sum = 0))
  accepts (packet : Bytes) : (∃ packet', Registers.updateIpv4Checksum packet = .ok packet') ↔
    20 ≤ headerLength packet ∧ headerLength packet ≤ packet.length
  /-- What comes out passes, and differs in the checksum field at most. -/
  updated (packet packet' : Bytes) : Registers.updateIpv4Checksum packet = .ok packet' →
    Registers.internetChecksum (packet'.take (headerLength packet)) = .ok 0 ∧ packet'.length = packet.length ∧
      ∀ i, i ≠ 10 → i ≠ 11 → packet'[i]? = packet[i]?

theorem internet_checksums : InternetChecksums where
  exact_sum bytes n h := by
    refine ⟨_, sumFrom_zero _, toNat_sum ?_⟩
    rw [List.length_take]
    omega
  resumed _ _ heven hn := sumFrom_resume heven hn
  folded := fold_ends
  agree bytes := ⟨_, Registers.internetChecksum_eq bytes, checksum_eq bytes⟩
  accepts packet := by
    constructor
    · rintro ⟨packet', h⟩
      obtain ⟨hheader, hlength, -⟩ := updateIpv4Checksum_eq_ok h
      exact ⟨hheader, hlength⟩
    · rintro ⟨hheader, hlength⟩
      obtain ⟨sum, -, hok, -⟩ := updateIpv4Checksum_ok hheader hlength
      exact ⟨_, by rw [Registers.updateIpv4Checksum_eq, Indexed.updateIpv4Checksum_eq, hok, lift_ok]⟩
  updated packet packet' h := by
    obtain ⟨hheader, hlength, sum, rfl, hzero⟩ := updateIpv4Checksum_eq_ok h
    have hfield : 10 + 2 ≤ packet.length := by omega
    refine ⟨by rw [Registers.internetChecksum_eq, hzero], length_putInt hfield, fun i hten heleven => ?_⟩
    rw [getElem?_putInt hfield, if_neg (by omega)]

end LanLink
