import LanLink.Auth.PacketCrypto
/-!
# IPv4 packets

`protocol/ipv4.cpp`: the checksum, the checks on a header, fragmentation, and
the ICMP error for a packet that may not be fragmented. And the tunnel packets
of `network/routed_network.cpp`.
-/
open LanLink.Lib

namespace LanLink

/-- The `count` bytes at `offset`, as a number. -/
def getInt (bytes : Bytes) (offset count : ℕ) : ℕ := beNat ((bytes.drop offset).take count)

/-- The bytes with `value` written over the `count` bytes at `offset`. -/
def putInt (bytes : Bytes) (offset value count : ℕ) : Bytes :=
  bytes.take offset ++ beBytes count value ++ bytes.drop (offset + count)

/-! ## Checksums -/

/-- The sum of the 16-bit words; a last odd byte is the high byte of a word. -/
def sumWords : Bytes → ℕ
  | [] => 0
  | [a] => a.toNat * 256
  | a :: b :: rest => a.toNat * 256 + b.toNat + sumWords rest

/-- Add the carries back in until there are none. -/
def foldCarries (sum : ℕ) : ℕ :=
  if sum < 65536 then sum else foldCarries (sum % 65536 + sum / 65536)
termination_by sum
decreasing_by omega

/-- The sum is taken in 32 bits. -/
def internetChecksum (bytes : Bytes) : UInt16 := ~~~(UInt16.ofNat (foldCarries (sumWords bytes % 2 ^ 32)))

/-- The length of the header, from its first byte. -/
def headerLength (packet : Bytes) : ℕ := (byteAt packet 0).toNat % 16 * 4

def updateIpv4Checksum (packet : Bytes) : Except Exn Bytes := do
  check (20 ≤ packet.length) (.invalidArgument "short IPv4 header")
  let header := headerLength packet
  check (20 ≤ header ∧ header ≤ packet.length) (.invalidArgument "invalid IPv4 header length")
  let cleared := putInt packet 10 0 2
  .ok (putInt cleared 10 (internetChecksum (cleared.take header)).toNat 2)

/-! ## Headers -/

/-- The loop of `copied_options`; `fuel` bounds the bytes left before `header`. -/
def optionsFrom (packet : Bytes) (header : ℕ) : ℕ → ℕ → Except Exn Bytes
  | 0, _ => .ok []
  | fuel + 1, offset =>
    if header ≤ offset then .ok []
    else
      let type := (byteAt packet offset).toNat
      if type = 0 then .ok []
      else if type = 1 then optionsFrom packet header fuel (offset + 1)
      else do
        check (offset + 2 ≤ header) (.invalidArgument "truncated IPv4 option")
        let size := (byteAt packet (offset + 1)).toNat
        check (2 ≤ size ∧ size ≤ header - offset) (.invalidArgument "invalid IPv4 option length")
        let rest ← optionsFrom packet header fuel (offset + size)
        .ok (if 128 ≤ type then (packet.drop offset).take size ++ rest else rest)

/-- Every option takes at least a byte, so `header - 20` rounds reach the end of the header. -/
def copiedOptions (packet : Bytes) (header : ℕ) : Except Exn Bytes := do
  let options ← optionsFrom packet header (header - 20) 20
  .ok (options ++ List.replicate ((4 - options.length % 4) % 4) 0)

structure Ipv4Header where
  headerSize : ℕ := 0
  source : UInt32 := 0
  destination : UInt32 := 0
  fragmentOffset : ℕ := 0
  moreFragments : Bool := false
  dontFragment : Bool := false
  deriving DecidableEq, Repr

def inspectIpv4 (packet : Bytes) : Except Exn Ipv4Header := do
  check (¬ (packet.length < 20 ∨ 65535 < packet.length ∨ (byteAt packet 0).toNat / 16 ≠ 4))
    (.invalidArgument "invalid IPv4 packet size or version")
  let header := headerLength packet
  check (¬ (header < 20 ∨ packet.length < header ∨ getInt packet 2 2 ≠ packet.length ∨ byteAt packet 8 = 0 ∨
      internetChecksum (packet.take header) ≠ 0))
    (.invalidArgument "invalid IPv4 header or checksum")
  let _ ← copiedOptions packet header
  let flags := getInt packet 6 2
  let offset := flags % 0x2000 * 8
  let more : Bool := flags / 0x2000 % 2 = 1
  let df : Bool := flags / 0x4000 % 2 = 1
  let payload := packet.length - header
  check (¬ (0x8000 ≤ flags ∨ (df ∧ (more ∨ offset ≠ 0)) ∨ ((more ∨ offset ≠ 0) ∧ payload = 0) ∨
      (more ∧ payload % 8 ≠ 0) ∨ 65535 - header < offset + payload))
    (.invalidArgument "invalid IPv4 fragment bounds")
  .ok { headerSize := header, source := readIpv4 packet 12, destination := readIpv4 packet 16, fragmentOffset := offset
        moreFragments := more, dontFragment := df }

/-! ## Fragments -/

/-- The fragment with the `count` payload bytes at `offset`. -/
def fragmentAt (packet : Bytes) (info : Ipv4Header) (options : Bytes) (offset count : ℕ) (more : Bool) :
    Except Exn Bytes :=
  let header := if offset = 0 then info.headerSize else 20 + options.length
  let fragment := packet.take 20 ++ (if offset = 0 then (packet.drop 20).take (info.headerSize - 20) else options) ++
    (packet.drop (info.headerSize + offset)).take count
  let fragment := putInt fragment 0 (0x40 + header / 4) 1
  let fragment := putInt fragment 2 fragment.length 2
  updateIpv4Checksum (putInt fragment 6 ((info.fragmentOffset + offset) / 8 + if more then 0x2000 else 0) 2)

/-- How many payload bytes the fragment at `offset` takes. -/
def fragmentCount (packet : Bytes) (info : Ipv4Header) (options : Bytes) (mtu offset : ℕ) : ℕ :=
  let header := if offset = 0 then info.headerSize else 20 + options.length
  let remaining := packet.length - info.headerSize - offset
  if remaining ≤ mtu - header then remaining else (mtu - header) / 8 * 8

/-- The loop of `fragment_ipv4`, from the payload byte `offset` on. -/
def fragmentsFrom (packet : Bytes) (info : Ipv4Header) (options : Bytes) (mtu offset : ℕ) : Except Exn (List Bytes) :=
  if packet.length - info.headerSize ≤ offset then .ok []
  else if fragmentCount packet info options mtu offset = 0 then
    .error (.invalidArgument "MTU cannot hold an IPv4 fragment")
  else do
    let count := fragmentCount packet info options mtu offset
    let more := count < packet.length - info.headerSize - offset || info.moreFragments
    let fragment ← fragmentAt packet info options offset count more
    let rest ← fragmentsFrom packet info options mtu (offset + fragmentCount packet info options mtu offset)
    .ok (fragment :: rest)
termination_by packet.length - info.headerSize - offset
decreasing_by omega

def fragmentIpv4 (packet : Bytes) (mtu : ℕ) : Except Exn (List Bytes) := do
  check (68 ≤ mtu) (.invalidArgument "IPv4 MTU is below 68")
  let info ← inspectIpv4 packet
  if packet.length ≤ mtu then .ok [packet]
  else do
    check (¬ info.dontFragment) (.lengthError "IPv4 fragmentation needed")
    let options ← copiedOptions packet info.headerSize
    fragmentsFrom packet info options mtu 0

/-- ICMP types that no error answers. -/
def icmpError (type : ℕ) : Bool := type = 3 || type = 4 || type = 5 || type = 11 || type = 12

def ipv4FragmentationNeeded (original : Bytes) (router : UInt32) (mtu : ℕ) : Except Exn (Option Bytes) := do
  let info ← inspectIpv4 original
  if ¬ info.dontFragment ∨ info.fragmentOffset ≠ 0 ∨ info.source = 0 ∨ 0xe0000000 ≤ info.source ∨
      0xe0000000 ≤ info.destination ∨ router = 0 ∨ 0xe0000000 ≤ router then .ok none
  else if byteAt original 9 = 1 ∧ info.headerSize < original.length ∧
      icmpError (byteAt original info.headerSize).toNat then .ok none
  else do
    let quote := min original.length (info.headerSize + 8)
    let packet := List.replicate 28 0
    let packet := putInt (putInt (putInt packet 0 0x45 1) 8 64 1) 9 1 1
    let packet := putInt (putInt packet 12 router.toNat 4) 16 info.source.toNat 4
    let packet := putInt (putInt (putInt packet 20 3 1) 21 4 1) 26 mtu 2
    let packet := packet ++ original.take quote
    let packet := putInt packet 2 packet.length 2
    let packet := putInt packet 22 (internetChecksum (packet.drop 20)).toNat 2
    let packet ← updateIpv4Checksum packet
    .ok (some packet)

/-! ## Tunnel packets -/

def safeRoutedIpv4 (packet : Bytes) : Except Exn Bool := do
  let h ← inspectIpv4 packet
  if h.headerSize ≠ 20 ∨ byteAt packet 8 ≤ 1 then .ok false
  else if byteAt packet 9 = 6 ∨ byteAt packet 9 = 17 then .ok true
  else if byteAt packet 9 ≠ 1 ∨ h.fragmentOffset ≠ 0 ∨ h.moreFragments ∨ packet.length < 28 then .ok false
  else
    let type := (byteAt packet 20).toNat
    .ok (type = 0 || type = 3 || type = 8 || type = 11 || type = 12)

def encapsulateRoutedIpv4 (inner : Bytes) (source destination : UInt32) : Except Exn Bytes := do
  let _ ← inspectIpv4 inner
  check (inner.length ≤ 65515) (.lengthError "routed IPv4 packet is too large")
  let outer := List.replicate 20 0
  let outer := putInt (putInt outer 0 0x45 1) 2 (inner.length + 20) 2
  let outer := putInt (putInt outer 8 64 1) 9 4 1
  let outer := putInt (putInt outer 12 source.toNat 4) 16 destination.toNat 4
  let outer ← updateIpv4Checksum outer
  .ok (outer ++ inner)

def decapsulateRoutedIpv4 (outer : Bytes) : Except Exn Bytes := do
  let h ← inspectIpv4 outer
  check (¬ (byteAt outer 9 ≠ 4 ∨ h.headerSize ≠ 20 ∨ h.fragmentOffset ≠ 0 ∨ h.moreFragments))
    (.invalidArgument "invalid gateway tunnel")
  let inner := outer.drop 20
  let _ ← inspectIpv4 inner
  .ok inner

end LanLink
