import LanLink.Lib.Spans
import LanLink.Protocol.Ipv4Headers
/-!
# The reads of the IPv4 header code

`internet_checksum`, `copied_options`, `inspect_ipv4` and
`update_ipv4_checksum` with every index they read. No read is past the end, so
each is the function it is in `Protocol/Ipv4`.
-/
open LanLink.Lib

namespace LanLink

theorem readInt_eq_getInt {ε : Type} {bytes : Bytes} {offset count : ℕ} (h : offset + count ≤ bytes.length) :
    (readInt bytes offset count : Except (Fault ε) ℕ) = .ok (getInt bytes offset count) := readInt_of_le h

theorem readAt_eq_byteAt {ε : Type} {bytes : Bytes} {i : ℕ} (h : i < bytes.length) :
    (readAt bytes i : Except (Fault ε) UInt8) = .ok (byteAt bytes i) := readAt_of_lt h

namespace Indexed

/-- `get(bytes, offset, 4)`. -/
def readAddress (bytes : Bytes) (offset : ℕ) : Except (Fault Exn) UInt32 := do
  let value ← readInt bytes offset 4
  .ok (UInt32.ofNat value)

/-- The loop of `internet_checksum`, from `index` on. -/
def sumWords (bytes : Bytes) (index : ℕ) : Except (Fault Exn) ℕ :=
  if index < bytes.length then do
    let high ← readAt bytes index
    let low ← if index + 1 < bytes.length then readAt bytes (index + 1) else .ok 0
    let rest ← sumWords bytes (index + 2)
    .ok (high.toNat * 256 + low.toNat + rest)
  else .ok 0
termination_by bytes.length - index
decreasing_by omega

def internetChecksum (bytes : Bytes) : Except (Fault Exn) UInt16 := do
  let sum ← sumWords bytes 0
  .ok (~~~(UInt16.ofNat (foldCarries (sum % 2 ^ 32))))

def updateIpv4Checksum (packet : Bytes) : Except (Fault Exn) Bytes := do
  check (20 ≤ packet.length) (.thrown (.invalidArgument "short IPv4 header"))
  let first ← readAt packet 0
  let header := first.toNat % 16 * 4
  check (20 ≤ header ∧ header ≤ packet.length) (.thrown (.invalidArgument "invalid IPv4 header length"))
  let cleared := putInt packet 10 0 2
  let fixed ← subspan cleared 0 header
  let sum ← internetChecksum fixed
  .ok (putInt cleared 10 sum.toNat 2)

/-- The loop of `copied_options`; `fuel` bounds the bytes left before `header`. -/
def optionsFrom (packet : Bytes) (header : ℕ) : ℕ → ℕ → Except (Fault Exn) Bytes
  | 0, _ => .ok []
  | fuel + 1, offset =>
    if header ≤ offset then .ok []
    else do
      let type ← readAt packet offset
      if type.toNat = 0 then .ok []
      else if type.toNat = 1 then optionsFrom packet header fuel (offset + 1)
      else do
        check (offset + 2 ≤ header) (.thrown (.invalidArgument "truncated IPv4 option"))
        let size ← readAt packet (offset + 1)
        check (2 ≤ size.toNat ∧ size.toNat ≤ header - offset) (.thrown (.invalidArgument "invalid IPv4 option length"))
        let option ← if 128 ≤ type.toNat then subspan packet offset size.toNat else .ok []
        let rest ← optionsFrom packet header fuel (offset + size.toNat)
        .ok (option ++ rest)

def copiedOptions (packet : Bytes) (header : ℕ) : Except (Fault Exn) Bytes := do
  let options ← optionsFrom packet header (header - 20) 20
  .ok (options ++ List.replicate ((4 - options.length % 4) % 4) 0)

def inspectIpv4 (packet : Bytes) : Except (Fault Exn) Ipv4Header := do
  -- each disjunct of a test is evaluated only if those before it are false
  check (20 ≤ packet.length ∧ packet.length ≤ 65535) (.thrown (.invalidArgument "invalid IPv4 packet size or version"))
  let first ← readAt packet 0
  check (first.toNat / 16 = 4) (.thrown (.invalidArgument "invalid IPv4 packet size or version"))
  let header := first.toNat % 16 * 4
  check (20 ≤ header ∧ header ≤ packet.length) (.thrown (.invalidArgument "invalid IPv4 header or checksum"))
  let total ← readInt packet 2 2
  check (total = packet.length) (.thrown (.invalidArgument "invalid IPv4 header or checksum"))
  let ttl ← readAt packet 8
  check (ttl ≠ 0) (.thrown (.invalidArgument "invalid IPv4 header or checksum"))
  let fixed ← subspan packet 0 header
  let sum ← internetChecksum fixed
  check (sum = 0) (.thrown (.invalidArgument "invalid IPv4 header or checksum"))
  let _ ← copiedOptions packet header
  let flags ← readInt packet 6 2
  let offset := flags % 0x2000 * 8
  let more : Bool := flags / 0x2000 % 2 = 1
  let df : Bool := flags / 0x4000 % 2 = 1
  let payload := packet.length - header
  check (¬ (0x8000 ≤ flags ∨ (df ∧ (more ∨ offset ≠ 0)) ∨ ((more ∨ offset ≠ 0) ∧ payload = 0) ∨
      (more ∧ payload % 8 ≠ 0) ∨ 65535 - header < offset + payload))
    (.thrown (.invalidArgument "invalid IPv4 fragment bounds"))
  let source ← readAddress packet 12
  let destination ← readAddress packet 16
  .ok { headerSize := header, source, destination, fragmentOffset := offset, moreFragments := more, dontFragment := df }

/-! ## Every read is inside -/

theorem readAddress_of_le {bytes : Bytes} {offset : ℕ} (h : offset + 4 ≤ bytes.length) :
    readAddress bytes offset = .ok (readIpv4 bytes offset) := by
  rw [readAddress, readInt_of_le h]
  rfl

theorem sumWords_eq (bytes : Bytes) (index : ℕ) : sumWords bytes index = .ok (LanLink.sumWords (bytes.drop index)) := by
  induction index using sumWords.induct bytes with
  | case1 index hlt ih =>
    rw [sumWords, if_pos hlt, readAt_of_lt hlt, ok_bind, List.drop_eq_getElem_cons hlt]
    rw [List.getD_eq_getElem?_getD, List.getElem?_eq_getElem hlt, Option.getD_some]
    by_cases hnext : index + 1 < bytes.length
    · rw [if_pos hnext, readAt_of_lt hnext, ih, List.drop_eq_getElem_cons hnext, LanLink.sumWords]
      rw [List.getD_eq_getElem?_getD, List.getElem?_eq_getElem hnext, Option.getD_some]
      rfl
    · rw [if_neg hnext, ih, List.drop_eq_nil_of_le (show bytes.length ≤ index + 2 by omega),
        List.drop_eq_nil_of_le (show bytes.length ≤ index + 1 by omega), LanLink.sumWords, LanLink.sumWords]
      simp
  | case2 index hend =>
    rw [sumWords, if_neg hend, List.drop_eq_nil_of_le (by omega)]
    rfl

theorem internetChecksum_eq (bytes : Bytes) : internetChecksum bytes = .ok (LanLink.internetChecksum bytes) := by
  rw [internetChecksum, sumWords_eq, ok_bind]
  rfl

theorem updateIpv4Checksum_eq (packet : Bytes) : updateIpv4Checksum packet = lift (LanLink.updateIpv4Checksum packet) := by
  rw [updateIpv4Checksum, LanLink.updateIpv4Checksum]
  by_cases hlength : 20 ≤ packet.length
  · rw [check_of hlength, check_of hlength, ok_bind, ok_bind, readAt_eq_byteAt (by omega), ok_bind]
    obtain ⟨header, hheader⟩ : ∃ header, header = headerLength packet := ⟨_, rfl⟩
    rw [show (byteAt packet 0).toNat % 16 * 4 = header from hheader.symm, ← hheader]
    dsimp only
    by_cases hfits : 20 ≤ header ∧ header ≤ packet.length
    · have hinside : 0 + header ≤ (putInt packet 10 0 2).length := by
        rw [length_putInt (by omega)]
        omega
      rw [check_of hfits, check_of hfits, ok_bind, ok_bind, subspan_of_le hinside, ok_bind, internetChecksum_eq]
      rfl
    · rw [check_of_not hfits, check_of_not hfits]
      rfl
  · rw [check_of_not hlength, check_of_not hlength]
    rfl

theorem optionsFrom_eq {packet : Bytes} {header : ℕ} (hheader : header ≤ packet.length) (fuel offset : ℕ) :
    optionsFrom packet header fuel offset = lift (LanLink.optionsFrom packet header fuel offset) := by
  induction fuel generalizing offset with
  | zero => rfl
  | succ fuel ih =>
    rw [optionsFrom, LanLink.optionsFrom]
    by_cases hend : header ≤ offset
    · rw [if_pos hend, if_pos hend]
      rfl
    rw [if_neg hend, if_neg hend, readAt_eq_byteAt (by omega), ok_bind]
    dsimp only
    by_cases hzero : (byteAt packet offset).toNat = 0
    · rw [if_pos hzero, if_pos hzero]
      rfl
    by_cases hone : (byteAt packet offset).toNat = 1
    · rw [if_neg hzero, if_pos hone, if_neg hzero, if_pos hone, ih]
    rw [if_neg hzero, if_neg hone, if_neg hzero, if_neg hone]
    by_cases htwo : offset + 2 ≤ header
    · rw [check_of htwo, check_of htwo, ok_bind, ok_bind, readAt_eq_byteAt (by omega), ok_bind]
      by_cases hsize : 2 ≤ (byteAt packet (offset + 1)).toNat ∧ (byteAt packet (offset + 1)).toNat ≤ header - offset
      · rw [check_of hsize, check_of hsize, ok_bind, ok_bind, ih, ok_bind, lift_bind, subspan_of_le (by omega)]
        split <;> rfl
      · rw [check_of_not hsize, check_of_not hsize]
        rfl
    · rw [check_of_not htwo, check_of_not htwo]
      rfl

theorem copiedOptions_eq {packet : Bytes} {header : ℕ} (hheader : header ≤ packet.length) :
    copiedOptions packet header = lift (LanLink.copiedOptions packet header) := by
  rw [copiedOptions, LanLink.copiedOptions, optionsFrom_eq hheader, lift_bind]
  rfl

/-- What is thrown and what is returned is as before. -/
theorem inspectIpv4_eq (packet : Bytes) : inspectIpv4 packet = lift (LanLink.inspectIpv4 packet) := by
  rw [inspectIpv4, LanLink.inspectIpv4]
  by_cases hsize : 20 ≤ packet.length ∧ packet.length ≤ 65535
  swap
  · rw [check_of_not hsize, check_of_not (by omega)]
    rfl
  rw [check_of hsize, ok_bind, readAt_eq_byteAt (by omega), ok_bind]
  by_cases hversion : (byteAt packet 0).toNat / 16 = 4
  swap
  · rw [check_of_not hversion, check_of_not (by omega)]
    rfl
  rw [check_of hversion, ok_bind, check_of (by omega), ok_bind]
  obtain ⟨header, hheader⟩ : ∃ header, header = headerLength packet := ⟨_, rfl⟩
  rw [show (byteAt packet 0).toNat % 16 * 4 = header from hheader.symm, ← hheader]
  dsimp only
  by_cases hlength : 20 ≤ header ∧ header ≤ packet.length
  swap
  · rw [check_of_not hlength, check_of_not (by omega)]
    rfl
  rw [check_of hlength, ok_bind, readInt_eq_getInt (by omega), ok_bind]
  by_cases htotal : getInt packet 2 2 = packet.length
  swap
  · rw [check_of_not htotal, check_of_not (by tauto)]
    rfl
  rw [check_of htotal, ok_bind, readAt_eq_byteAt (by omega), ok_bind]
  by_cases httl : byteAt packet 8 ≠ 0
  swap
  · rw [check_of_not httl, check_of_not (by tauto)]
    rfl
  rw [check_of httl, ok_bind, subspan_of_le (by omega), ok_bind, internetChecksum_eq, ok_bind]
  by_cases hsum : LanLink.internetChecksum (packet.take header) = 0
  swap
  · rw [check_of_not (by exact hsum), check_of_not (by tauto)]
    rfl
  rw [check_of (by exact hsum), ok_bind, check_of (by rintro (h | h | h | h | h) <;> first | omega | contradiction), ok_bind,
    copiedOptions_eq hlength.2, lift_bind, readInt_eq_getInt (by omega), readAddress_of_le (by omega), readAddress_of_le (by omega)]
  simp only [lift_bind, lift_check, ok_bind, lift_ok]

end Indexed

end LanLink
