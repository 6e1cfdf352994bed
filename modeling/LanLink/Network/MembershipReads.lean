import LanLink.Network.Filters
import LanLink.Protocol.Ipv4Reads
/-!
# The reads of multicast reports

`MulticastMembership::observe` with every index it reads and every difference of
sizes it takes. The records of a report have lengths of their own, the loop never
leaves the payload.
-/
open LanLink.Lib

namespace LanLink.MulticastMembership

namespace Indexed

/-- A read that throws nothing, in a program that refuses reports. -/
def reading {α : Type} (x : Except (Fault Exn) α) : Except (Fault MulticastReport) α :=
  x.mapError fun
    | .outOfBounds => .outOfBounds
    | .thrown _ => .thrown .rejected

/-- `payload.size() - offset`, in an unsigned type: a difference below zero counts as a read past the end. -/
def remaining (payload : Bytes) (offset : ℕ) : Except (Fault MulticastReport) ℕ :=
  if offset ≤ payload.length then .ok (payload.length - offset) else .error .outOfBounds

/-- The source addresses of a group record. -/
def recordSources (payload : Bytes) (offset : ℕ) : ℕ → Except (Fault MulticastReport) (Finset UInt32)
  | 0 => .ok ∅
  | count + 1 => do
    let addresses ← recordSources payload offset count
    let address ← reading (LanLink.Indexed.readAddress payload (offset + 8 + count * 4))
    check (¬ (address = 0 ∨ 0xe0000000 ≤ address)) (.thrown .rejected)
    .ok (insert address addresses)

/-- The loop over the group records. -/
def applyRecords (payload : Bytes) (now : Time) (groups : Map UInt32 MulticastGroup) (offset : ℕ) :
    ℕ → Except (Fault MulticastReport) (Map UInt32 MulticastGroup × ℕ)
  | 0 => .ok (groups, offset)
  | count + 1 => do
    let left ← remaining payload offset
    check (¬ left < 8) (.thrown .rejected)
    let record ← readInt payload offset 1
    let auxiliary ← readInt payload (offset + 1) 1
    let sources ← readInt payload (offset + 2) 2
    let group ← reading (LanLink.Indexed.readAddress payload (offset + 4))
    check (¬ (record < 1 ∨ 6 < record ∨ 64 < sources ∨ ¬ isIpv4ScopedMulticast group ∨ left < 8 + sources * 4 + auxiliary * 4))
      (.thrown .rejected)
    let addresses ← recordSources payload offset sources
    let entry := applyRecord record addresses (groups.getD group {})
    check (¬ 64 < entry.sources.card) (.thrown .rejected)
    applyRecords payload now (groups.insert group { entry with updated := now }) (offset + (8 + sources * 4 + auxiliary * 4)) count

/-- The groups after a report of version 3. -/
def recordReport (payload : Bytes) (destination : UInt32) (now : Time) (updated : Map UInt32 MulticastGroup) :
    Except (Fault MulticastReport) (Map UInt32 MulticastGroup) := do
  let count ← readInt payload 6 2
  check (¬ (destination ≠ 0xe0000016 ∨ 64 < count)) (.thrown .rejected)
  let (groups, offset) ← applyRecords payload now updated 8 count
  check (offset = payload.length) (.thrown .rejected)
  .ok groups

/-- The groups after a report of version 1 or 2, or a leave message. -/
def plainReport (payload : Bytes) (type : ℕ) (destination : UInt32) (now : Time) (updated : Map UInt32 MulticastGroup) :
    Except (Fault MulticastReport) (Map UInt32 MulticastGroup) := do
  let group ← reading (LanLink.Indexed.readAddress payload 4)
  check (¬ (payload.length ≠ 8 ∨ ¬ isIpv4ScopedMulticast group ∨ destination ≠ (if type = 0x17 then 0xe0000002 else group)))
    (.thrown .rejected)
  .ok (updated.insert group { exclude := type ≠ 0x17, sources := ∅, updated := now })

def reportedGroups (m : MulticastMembership) (ipv4 payload : Bytes) (now : Time) :
    Except (Fault MulticastReport) (Map UInt32 MulticastGroup) := do
  let updated := m.groups.eraseIf fun _ g => groupLifetime < now - g.updated
  let type ← readAt payload 0
  let destination ← reading (LanLink.Indexed.readAddress ipv4 16)
  if type.toNat = 0x12 ∨ type.toNat = 0x16 ∨ type.toNat = 0x17 then plainReport payload type.toNat destination now updated
  else if type.toNat = 0x22 then recordReport payload destination now updated
  else .error (.thrown .rejected)

/-- The body of `observe`: the groups to swap in, or the report that is returned without that. -/
def report (m : MulticastMembership) (ipv4 : Bytes) (now : Time) : Except (Fault MulticastReport) (Map UInt32 MulticastGroup) := do
  check (¬ ipv4.length < 20) (.thrown .notIgmp)
  let protocol ← readAt ipv4 9
  check (protocol = 2) (.thrown .notIgmp)
  let first ← readAt ipv4 0
  let header := first.toNat % 16 * 4
  -- each disjunct of the test is evaluated only if those before it are false
  check (¬ (first.toNat / 16 ≠ 4 ∨ header < 20 ∨ ipv4.length < header)) (.thrown .rejected)
  let total ← readInt ipv4 2 2
  check (total = ipv4.length) (.thrown .rejected)
  let fragment ← readInt ipv4 6 2
  check (fragment % 0x4000 = 0) (.thrown .rejected)
  let ttl ← readAt ipv4 8
  check (ttl = 1) (.thrown .rejected)
  let payload ← subspan ipv4 header (ipv4.length - header)
  check (¬ payload.length < 8) (.thrown .rejected)
  let sum ← reading (LanLink.Indexed.sumWords payload 0)
  check (foldCarries (sum % 2 ^ 32) = 0xffff) (.thrown .rejected)
  let groups ← reportedGroups m ipv4 payload now
  check (¬ 64 < groups.size) (.thrown .rejected)
  .ok groups

def observe (m : MulticastMembership) (ipv4 : Bytes) (now : Time) : Except (Fault Exn) (MulticastReport × MulticastMembership) :=
  match report m ipv4 now with
  | .ok groups => .ok (.accepted, { m with groups })
  | .error (.thrown r) => .ok (r, m)
  | .error .outOfBounds => .error .outOfBounds

/-! ## Every read is inside -/

/-- The value, or a refusal. -/
def orReject {α : Type} : Option α → Except (Fault MulticastReport) α
  | some a => .ok a
  | none => .error (.thrown .rejected)

@[simp] theorem orReject_some {α : Type} (a : α) : orReject (some a) = .ok a := rfl

@[simp] theorem reading_ok {α : Type} (a : α) : reading (.ok a : Except (Fault Exn) α) = .ok a := rfl

/-- A test that refuses a report. -/
theorem orReject_unless {α : Type} {c : Prop} [Decidable c] {f : Unit → Except (Fault MulticastReport) α} {y : Option α}
    (h : ¬ c → f () = orReject y) : (check (¬ c) (Fault.thrown MulticastReport.rejected) >>= f) = orReject (if c then none else y) := by
  by_cases hc : c
  · rw [if_pos hc, check_of_not (not_not.2 hc)]
    rfl
  · rw [if_neg hc, check_of hc, ok_bind, h hc]

theorem recordSources_eq {payload : Bytes} {offset count : ℕ} (h : offset + 8 + count * 4 ≤ payload.length) :
    recordSources payload offset count = orReject (MulticastMembership.recordSources payload offset count) := by
  induction count with
  | zero => rfl
  | succ count ih =>
    rw [recordSources, MulticastMembership.recordSources, ih (by omega), LanLink.Indexed.readAddress_of_le (by omega)]
    cases MulticastMembership.recordSources payload offset count with
    | none => rfl
    | some addresses =>
      rw [orReject_some, ok_bind, reading_ok, ok_bind, Option.bind_eq_bind, Option.bind_some]
      exact orReject_unless fun _ => rfl

theorem applyRecords_eq {payload : Bytes} {now : Time} {groups : Map UInt32 MulticastGroup} {offset count : ℕ}
    (h : offset ≤ payload.length) :
    applyRecords payload now groups offset count = orReject (MulticastMembership.applyRecords payload now groups offset count) := by
  induction count generalizing groups offset with
  | zero => rfl
  | succ count ih =>
    rw [applyRecords, MulticastMembership.applyRecords, remaining, if_pos h, ok_bind]
    refine orReject_unless fun hheader => ?_
    rw [readInt_eq_getInt (by omega), ok_bind, readInt_eq_getInt (by omega), ok_bind, readInt_eq_getInt (by omega), ok_bind,
      LanLink.Indexed.readAddress_of_le (by omega), reading_ok, ok_bind]
    refine orReject_unless fun hrecord => ?_
    have hfits : ¬ payload.length - offset < 8 + getInt payload (offset + 2) 2 * 4 + getInt payload (offset + 1) 1 * 4 := by tauto
    rw [recordSources_eq (by omega)]
    cases MulticastMembership.recordSources payload offset (getInt payload (offset + 2) 2) with
    | none => rfl
    | some addresses =>
      rw [orReject_some, ok_bind]
      refine orReject_unless fun _ => ?_
      exact ih (by omega)

theorem plainReport_eq {payload : Bytes} {type : ℕ} {destination : UInt32} {now : Time} {updated : Map UInt32 MulticastGroup}
    (hpayload : 8 ≤ payload.length) : plainReport payload type destination now updated =
      orReject (if payload.length ≠ 8 ∨ ¬ isIpv4ScopedMulticast (readIpv4 payload 4) ∨
          destination ≠ (if type = 0x17 then 0xe0000002 else readIpv4 payload 4) then none
        else some (updated.insert (readIpv4 payload 4) { exclude := type ≠ 0x17, sources := ∅, updated := now })) := by
  rw [plainReport, LanLink.Indexed.readAddress_of_le (by omega), reading_ok, ok_bind]
  exact orReject_unless fun _ => rfl

theorem recordReport_eq {payload : Bytes} {destination : UInt32} {now : Time} {updated : Map UInt32 MulticastGroup}
    (hpayload : 8 ≤ payload.length) : recordReport payload destination now updated =
      orReject (if destination ≠ 0xe0000016 ∨ 64 < getInt payload 6 2 then none
        else match MulticastMembership.applyRecords payload now updated 8 (getInt payload 6 2) with
          | none => none
          | some (groups, offset) => if offset ≠ payload.length then none else some groups) := by
  rw [recordReport, readInt_eq_getInt (by omega), ok_bind]
  refine orReject_unless fun _ => ?_
  rw [applyRecords_eq hpayload]
  cases MulticastMembership.applyRecords payload now updated 8 (getInt payload 6 2) with
  | none => rfl
  | some result =>
    obtain ⟨groups, offset⟩ := result
    rw [orReject_some, ok_bind]
    dsimp only
    by_cases hend : offset = payload.length
    · rw [check_of hend, if_neg (not_not.2 hend)]
      rfl
    · rw [check_of_not hend, if_pos hend]
      rfl

theorem reportedGroups_eq {m : MulticastMembership} {ipv4 payload : Bytes} {now : Time} (hpacket : 20 ≤ ipv4.length)
    (hpayload : 8 ≤ payload.length) : reportedGroups m ipv4 payload now = orReject (m.reportedGroups ipv4 payload now) := by
  rw [reportedGroups, MulticastMembership.reportedGroups, readAt_eq_byteAt (by omega), ok_bind,
    LanLink.Indexed.readAddress_of_le (by omega), reading_ok, ok_bind, plainReport_eq hpayload, recordReport_eq hpayload]
  dsimp only
  by_cases hplain : (byteAt payload 0).toNat = 0x12 ∨ (byteAt payload 0).toNat = 0x16 ∨ (byteAt payload 0).toNat = 0x17
  · rw [if_pos hplain, if_pos hplain]
  · rw [if_neg hplain, if_neg hplain]
    split <;> rfl

/-- No report makes `observe` read outside of it. -/
theorem observe_eq (m : MulticastMembership) (ipv4 : Bytes) (now : Time) : observe m ipv4 now = .ok (m.observe ipv4 now) := by
  rw [observe, report, MulticastMembership.observe]
  by_cases hlength : ipv4.length < 20
  · rw [check_of_not (not_not.2 hlength), if_pos (.inl hlength)]
    rfl
  rw [check_of hlength, ok_bind, readAt_eq_byteAt (by omega), ok_bind]
  by_cases hprotocol : byteAt ipv4 9 = 2
  swap
  · rw [check_of_not hprotocol, if_pos (.inr hprotocol)]
    rfl
  rw [check_of hprotocol, ok_bind, readAt_eq_byteAt (by omega), ok_bind, if_neg (by tauto)]
  obtain ⟨header, hheader⟩ : ∃ header, header = headerLength ipv4 := ⟨_, rfl⟩
  rw [show (byteAt ipv4 0).toNat % 16 * 4 = header from hheader.symm, ← hheader]
  dsimp only
  by_cases hshape : (byteAt ipv4 0).toNat / 16 ≠ 4 ∨ header < 20 ∨ ipv4.length < header
  · rw [check_of_not (not_not.2 hshape), if_pos (by tauto)]
    rfl
  have hfits : header ≤ ipv4.length := by omega
  rw [check_of hshape, ok_bind, readInt_eq_getInt (by omega), ok_bind]
  by_cases htotal : getInt ipv4 2 2 = ipv4.length
  swap
  · rw [check_of_not htotal, if_pos (by tauto)]
    rfl
  rw [check_of htotal, ok_bind, readInt_eq_getInt (by omega), ok_bind]
  by_cases hfragment : getInt ipv4 6 2 % 0x4000 = 0
  swap
  · rw [check_of_not hfragment, if_pos (by tauto)]
    rfl
  rw [check_of hfragment, ok_bind, readAt_eq_byteAt (by omega), ok_bind]
  by_cases httl : byteAt ipv4 8 = 1
  swap
  · rw [check_of_not httl, if_pos (by tauto)]
    rfl
  have hpayload : slice ipv4 header (ipv4.length - header) = ipv4.drop header := by
    rw [slice, ← List.length_drop, List.take_length]
  rw [check_of httl, ok_bind, if_neg (by tauto), subspan_of_le (by omega), ok_bind, hpayload, LanLink.Indexed.sumWords_eq, List.drop_zero]
  by_cases hshort : (ipv4.drop header).length < 8
  · rw [check_of_not (not_not.2 hshort), if_pos (.inl hshort)]
    rfl
  rw [check_of hshort, ok_bind, reading_ok, ok_bind]
  by_cases hsum : foldCarries (sumWords (ipv4.drop header) % 2 ^ 32) = 0xffff
  swap
  · rw [check_of_not hsum, if_pos (.inr hsum)]
    rfl
  rw [check_of hsum, ok_bind, if_neg (by tauto), reportedGroups_eq (by omega) (by omega)]
  cases m.reportedGroups ipv4 (ipv4.drop header) now with
  | none => rfl
  | some groups =>
    rw [orReject_some, ok_bind]
    dsimp only
    by_cases hsize : 64 < groups.size
    · rw [check_of_not (not_not.2 hsize), if_pos hsize]
      rfl
    · rw [check_of hsize, if_neg hsize]
      rfl

end Indexed

end LanLink.MulticastMembership
