import LanLink.Protocol.Ipv4
import LanLink.Relay.ForwardingQuota
/-!
# The filters of the packet bridge

What a bridge keeps for each network besides its cipher: the multicast groups
its host listens to (`network/multicast.cpp`), the limiter of discovery traffic
(`lan_discovery.cpp`), and the packets it injected lately (`packet_history.cpp`).
Token counts are rationals where the code has doubles.
-/
open LanLink.Lib

namespace LanLink

/-! ## Multicast groups -/

inductive MulticastReport
  | notIgmp | accepted | rejected
  deriving DecidableEq, Repr

structure MulticastGroup where
  exclude : Bool := false
  sources : Finset UInt32 := ∅
  updated : Time := 0
  deriving DecidableEq

structure MulticastMembership where
  groups : Map UInt32 MulticastGroup := ∅
  hostGroups : Option (Finset UInt32) := none

namespace MulticastMembership

/-- `seconds{260}`. -/
def groupLifetime : Time := 260000000000

/-- The source addresses of a group record. -/
def recordSources (payload : Bytes) (offset : ℕ) : ℕ → Option (Finset UInt32)
  | 0 => some ∅
  | count + 1 => do
    let addresses ← recordSources payload offset count
    let address := readIpv4 payload (offset + 8 + count * 4)
    if address = 0 ∨ 0xe0000000 ≤ address then none else some (insert address addresses)

/-- A group after a record of the kind `record` with these sources. -/
def applyRecord (record : ℕ) (addresses : Finset UInt32) (entry : MulticastGroup) : MulticastGroup :=
  if record ≤ 4 then { entry with exclude := record = 2 || record = 4, sources := addresses }
  else if (decide (record = 5)) != entry.exclude then { entry with sources := entry.sources ∪ addresses }
  else { entry with sources := entry.sources \ addresses }

/-- The loop over the group records of a version 3 report: the groups and the offset after it. -/
def applyRecords (payload : Bytes) (now : Time) (groups : Map UInt32 MulticastGroup) (offset : ℕ) :
    ℕ → Option (Map UInt32 MulticastGroup × ℕ)
  | 0 => some (groups, offset)
  | count + 1 =>
    if payload.length - offset < 8 then none
    else
      let record := getInt payload offset 1
      let auxiliary := getInt payload (offset + 1) 1 * 4
      let sources := getInt payload (offset + 2) 2
      let group := readIpv4 payload (offset + 4)
      if record < 1 ∨ 6 < record ∨ 64 < sources ∨ ¬ isIpv4ScopedMulticast group ∨
          payload.length - offset < 8 + sources * 4 + auxiliary then none
      else match recordSources payload offset sources with
        | none => none
        | some addresses =>
          let entry := applyRecord record addresses (groups.getD group {})
          if 64 < entry.sources.card then none
          else applyRecords payload now (groups.insert group { entry with updated := now })
            (offset + (8 + sources * 4 + auxiliary)) count

/-- The groups after a report; `none` if it is refused. -/
def reportedGroups (m : MulticastMembership) (ipv4 payload : Bytes) (now : Time) : Option (Map UInt32 MulticastGroup) :=
  let updated := m.groups.eraseIf fun _ g => groupLifetime < now - g.updated
  let type := (byteAt payload 0).toNat
  let destination := readIpv4 ipv4 16
  if type = 0x12 ∨ type = 0x16 ∨ type = 0x17 then
    let group := readIpv4 payload 4
    if payload.length ≠ 8 ∨ ¬ isIpv4ScopedMulticast group ∨
        destination ≠ (if type = 0x17 then 0xe0000002 else group) then none
    else some (updated.insert group { exclude := type ≠ 0x17, sources := ∅, updated := now })
  else if type = 0x22 then
    let count := getInt payload 6 2
    if destination ≠ 0xe0000016 ∨ 64 < count then none
    else match applyRecords payload now updated 8 count with
      | none => none
      | some (groups, offset) => if offset ≠ payload.length then none else some groups
  else none

def observe (m : MulticastMembership) (ipv4 : Bytes) (now : Time) : MulticastReport × MulticastMembership :=
  if ipv4.length < 20 ∨ byteAt ipv4 9 ≠ 2 then (.notIgmp, m)
  else
    let header := headerLength ipv4
    if (byteAt ipv4 0).toNat / 16 ≠ 4 ∨ header < 20 ∨ ipv4.length < header ∨ getInt ipv4 2 2 ≠ ipv4.length ∨
        getInt ipv4 6 2 % 0x4000 ≠ 0 ∨ byteAt ipv4 8 ≠ 1 then (.rejected, m)
    else
      let payload := ipv4.drop header
      if payload.length < 8 ∨ foldCarries (sumWords payload % 2 ^ 32) ≠ 0xffff then (.rejected, m)
      else match m.reportedGroups ipv4 payload now with
        | none => (.rejected, m)
        | some groups => if 64 < groups.size then (.rejected, m) else (.accepted, { m with groups })

def receives (m : MulticastMembership) (group source : UInt32) (now : Time) : Bool :=
  if ¬ isIpv4ScopedMulticast group then false
  else match m.hostGroups with
    | some groups => group ∈ groups
    | none => match m.groups.lookup group with
      | some g => if now - g.updated ≤ groupLifetime then g.exclude != decide (source ∈ g.sources)
        else group = 0xe00000fb || group = 0xeffffffa
      | none => group = 0xe00000fb || group = 0xeffffffa

def synchronize (m : MulticastMembership) (hostGroups : Option (List UInt32)) : MulticastMembership :=
  { m with hostGroups := hostGroups.map fun groups =>
      groups.foldl (fun kept g => if isIpv4ScopedMulticast g ∧ kept.card < 256 then insert g kept else kept) ∅ }

end MulticastMembership

/-! ## Discovery traffic -/

/-- The digest with the oldest time of a map, the first of them if there are several. -/
def oldest (recent : Map (BitVec 256) Time) : Option (BitVec 256) :=
  (recent.rows.mergeSort fun a b => a.1 ≤ b.1).foldl
    (fun best r => match best with
      | none => some r
      | some b => if r.2 < b.2 then some r else some b) none |>.map (·.1)

/-- Make room in a full map. -/
def eraseOldest (recent : Map (BitVec 256) Time) : Map (BitVec 256) Time :=
  match oldest recent with
  | none => recent
  | some digest => recent.erase digest

structure DiscoveryCounters where
  forwarded : ℕ := 0
  rateLimited : ℕ := 0
  duplicate : ℕ := 0
  invalid : ℕ := 0
  deriving DecidableEq, Repr

structure LanDiscoveryGuard where
  initialized : Bool := false
  packets : ℚ := 32
  bytes : ℚ := 65536
  updated : Time := 0
  recent : Map (BitVec 256) Time := ∅
  counters : DiscoveryCounters := {}

namespace LanDiscoveryGuard
variable (crypto : Crypto)

/-- mDNS, LLMNR and SSDP. -/
def isDiscovery (destination : UInt32) : Bool :=
  destination = 0xe00000fb || destination = 0xe00000fc || destination = 0xeffffffa

def discoveryPort (destination : UInt32) : ℕ :=
  if destination = 0xe00000fb then 5353 else if destination = 0xe00000fc then 5355 else 1900

/-- The checks of `permit` on the packet. -/
def validDiscovery (packet : Bytes) : Bool :=
  let header := headerLength packet
  let destination := readIpv4 packet 16
  !(packet.length < 20 || (byteAt packet 0).toNat / 16 ≠ 4 || header < 20 || packet.length < header ||
    getInt packet 2 2 ≠ packet.length || byteAt packet 8 = 0) &&
  (!isDiscovery destination ||
    !(byteAt packet 9 ≠ 17 || getInt packet 6 2 % 0x4000 ≠ 0 || packet.length - header < 8 ||
      getInt packet (header + 2) 2 ≠ discoveryPort destination || getInt packet (header + 4) 2 ≠ packet.length - header ||
      (destination = 0xe00000fb && byteAt packet 8 ≠ 255)))

/-- The tokens at `now`. -/
def refill (g : LanDiscoveryGuard) (now : Time) : LanDiscoveryGuard :=
  let g := if g.initialized then g else { g with updated := now, initialized := true }
  if g.updated < now then
    let seconds := toSeconds (now - g.updated)
    { g with
      packets := min 32 (g.packets + seconds * 16)
      bytes := min 65536 (g.bytes + seconds * 32768)
      updated := now }
  else g

def permit (g : LanDiscoveryGuard) (packet : Bytes) (now : Time) : Bool × LanDiscoveryGuard :=
  if ¬ validDiscovery packet then (false, { g with counters.invalid := g.counters.invalid + 1 })
  else
    let g := g.refill now
    let g := { g with recent := g.recent.eraseIf fun _ seen => 100000000 ≤ now - seen }
    let discovery := isDiscovery (readIpv4 packet 16)
    let digest := crypto.sha256 packet
    if discovery ∧ digest ∈ g.recent then (false, { g with counters.duplicate := g.counters.duplicate + 1 })
    else if g.packets < 1 ∨ g.bytes < (packet.length : ℚ) then
      (false, { g with counters.rateLimited := g.counters.rateLimited + 1 })
    else
      let recent := if g.recent.size = 128 then eraseOldest g.recent else g.recent
      (true, { g with
        packets := g.packets - 1
        bytes := g.bytes - packet.length
        recent := if discovery then recent.insert digest now else g.recent
        counters.forwarded := g.counters.forwarded + 1 })

end LanDiscoveryGuard

/-! ## Injected packets -/

structure PacketHistory where
  recent : Map (BitVec 256) Time := ∅

namespace PacketHistory
variable (crypto : Crypto)

/-- The digest of a packet without its TTL and checksum. -/
def fingerprint (packet : Bytes) : BitVec 256 :=
  crypto.sha256 (if 20 ≤ packet.length then putInt (putInt packet 8 0 1) 10 0 2 else packet)

def expire (h : PacketHistory) (now : Time) : PacketHistory :=
  { recent := h.recent.eraseIf fun _ seen => 2000000000 ≤ now - seen }

def contains (h : PacketHistory) (packet : Bytes) (now : Time) : Bool × PacketHistory :=
  let h := h.expire now
  (decide (fingerprint crypto packet ∈ h.recent), h)

def remember (h : PacketHistory) (packet : Bytes) (now : Time) : PacketHistory :=
  let h := h.expire now
  let recent := if 256 ≤ h.recent.size then eraseOldest h.recent else h.recent
  { recent := recent.insert (fingerprint crypto packet) now }

end PacketHistory

end LanLink
