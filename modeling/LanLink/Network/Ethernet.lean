import LanLink.Protocol.Ipv4Reads
/-!
# Ethernet frames in the tunnel

`network/ethernet.cpp`: a TAP frame is checked against the address of its
sender and carried in a UDP packet between virtual addresses. Every read is one
that may be past the end.
-/
open LanLink.Lib

namespace LanLink

def ethernetMtu : ℕ := 1280

def ethernetTunnelHeader : ℕ := 32

def tunnelPort : ℕ := 48042

abbrev MacAddress := Vector UInt8 6

structure VirtualNetworkAddress where
  networkId : NetworkId := 0
  address : UInt32 := 0
  subnet : UInt32 := 0
  prefixLength : UInt8 := 24
  deriving DecidableEq

def virtualMac (address : UInt32) : MacAddress :=
  #v[2, 0x4c, (address >>> 24).toUInt8, (address >>> 16).toUInt8, (address >>> 8).toUInt8, address.toUInt8]

/-- The group's MAC: its low 23 bits. -/
def multicastMac (group : UInt32) : MacAddress :=
  #v[1, 0, 0x5e, ((group >>> 16) &&& 0x7f).toUInt8, (group >>> 8).toUInt8, group.toUInt8]

def sameMac (frame : Bytes) (offset : ℕ) (mac : MacAddress) : Except (Fault Exn) Bool := do
  let field ← readSlice frame offset 6
  .ok (mac.toList = field)

namespace VirtualNetworkAddress

def isHost (network : VirtualNetworkAddress) (address : UInt32) : Bool :=
  isIpv4Host address network.subnet network.prefixLength

def isFanout (network : VirtualNetworkAddress) (address : UInt32) : Bool :=
  isIpv4FanoutDestination address network.subnet network.prefixLength

end VirtualNetworkAddress

def validateNetwork (network : VirtualNetworkAddress) : Except (Fault Exn) Unit :=
  check (network.isHost network.address) (.thrown (.invalidArgument "invalid TAP network address"))

/-! ## Frames -/

/-- The ARP branch of `validate_frame`: the address asked for. -/
def arpTarget (frame : Bytes) (network : VirtualNetworkAddress) (sender : UInt32) : Except (Fault Exn) UInt32 := do
  check (42 ≤ frame.length) (.thrown (.invalidArgument "invalid ARP identity"))
  let hardware ← readInt frame 14 2
  check (hardware = 1) (.thrown (.invalidArgument "invalid ARP identity"))
  let protocol ← readInt frame 16 2
  check (protocol = 0x0800) (.thrown (.invalidArgument "invalid ARP identity"))
  let hardwareSize ← readAt frame 18
  check (hardwareSize = 6) (.thrown (.invalidArgument "invalid ARP identity"))
  let protocolSize ← readAt frame 19
  check (protocolSize = 4) (.thrown (.invalidArgument "invalid ARP identity"))
  let operation ← readInt frame 20 2
  check (operation = 1 ∨ operation = 2) (.thrown (.invalidArgument "invalid ARP identity"))
  let genuine ← sameMac frame 22 (virtualMac sender)
  check genuine (.thrown (.invalidArgument "invalid ARP identity"))
  let claimed ← Indexed.readAddress frame 28
  check (claimed = sender) (.thrown (.invalidArgument "invalid ARP identity"))
  let target ← Indexed.readAddress frame 38
  check (network.isHost target) (.thrown (.invalidArgument "ARP target is outside the virtual subnet"))
  .ok target

/-- The IPv4 branch of `validate_frame`: the destination. -/
def ipv4Target (frame : Bytes) (network : VirtualNetworkAddress) (sender : UInt32) : Except (Fault Exn) UInt32 := do
  check (34 ≤ frame.length) (.thrown (.invalidArgument "truncated Ethernet IPv4 packet"))
  let length ← readInt frame 16 2
  check (20 ≤ length ∧ length ≤ frame.length - 14) (.thrown (.invalidArgument "invalid Ethernet IPv4 length"))
  let ip ← subspan frame 14 length
  let _ ← Indexed.inspectIpv4 ip
  let claimed ← Indexed.readAddress ip 12
  check (claimed = sender) (.thrown (.invalidArgument "Ethernet IPv4 source does not match membership"))
  let target ← Indexed.readAddress ip 16
  check (network.isHost target ∨ network.isFanout target)
    (.thrown (.invalidArgument "Ethernet IPv4 destination is outside the virtual subnet"))
  .ok target

/-- The branches of `validate_frame` on the type of the frame. -/
def innerTarget (frame : Bytes) (network : VirtualNetworkAddress) (sender : UInt32) (type : ℕ) : Except (Fault Exn) UInt32 :=
  if type = 0x0806 then arpTarget frame network sender
  else if type = 0x0800 then ipv4Target frame network sender
  else .error (.thrown (.invalidArgument "TAP supports ARP and scoped IPv4 Ethernet only"))

/-- Whether the frame goes to the MAC of its multicast group. -/
def groupFrame (frame : Bytes) (type : ℕ) (target : UInt32) : Except (Fault Exn) Bool :=
  if type = 0x0800 ∧ isIpv4ScopedMulticast target then sameMac frame 0 (multicastMac target) else .ok false

def validateFrame (frame : Bytes) (network : VirtualNetworkAddress) (sender : UInt32) : Except (Fault Exn) UInt32 := do
  check (14 ≤ frame.length ∧ frame.length ≤ ethernetMtu + 14 ∧ network.isHost sender)
    (.thrown (.invalidArgument "invalid Ethernet size or source"))
  let genuine ← sameMac frame 6 (virtualMac sender)
  check genuine (.thrown (.invalidArgument "invalid Ethernet size or source"))
  let first ← readSlice frame 0 6
  let broadcast := first.all (· = 255)
  let destination ← Indexed.readAddress frame 2
  let type ← readInt frame 12 2
  let target ← innerTarget frame network sender type
  if broadcast then .ok 0xffffffff
  else do
    let multicast ← groupFrame frame type target
    if multicast then .ok 0xffffffff
    else do
      check (network.isHost destination)
        (.thrown (.invalidArgument "Ethernet destination does not match the virtual address"))
      let named ← sameMac frame 0 (virtualMac destination)
      check (named ∧ destination = target)
        (.thrown (.invalidArgument "Ethernet destination does not match the virtual address"))
      .ok destination

/-! ## The tunnel -/

/-- The packet for a frame of `length` bytes, up to the frame. -/
def tunnelHeader (source target : UInt32) (length : ℕ) : Bytes :=
  let size := ethernetTunnelHeader + length
  let packet := List.replicate ethernetTunnelHeader 0
  let packet := putInt (putInt packet 0 0x45 1) 2 size 2
  let packet := putInt (putInt (putInt packet 6 0x40 1) 8 64 1) 9 17 1
  let packet := putInt (putInt packet 12 source.toNat 4) 16 target.toNat 4
  let packet := putInt (putInt packet 20 tunnelPort 2) 22 tunnelPort 2
  let packet := putInt packet 24 (size - 20) 2
  putInt (putInt (putInt (putInt packet 28 76 1) 29 76 1) 30 50 1) 31 1 1

def encapsulateEthernet (frame : Bytes) (network : VirtualNetworkAddress) : Except (Fault Exn) Bytes := do
  validateNetwork network
  let target ← validateFrame frame network network.address
  Indexed.updateIpv4Checksum (tunnelHeader network.address target frame.length ++ frame)

def decapsulateEthernet (packet : Bytes) (network : VirtualNetworkAddress) : Except (Fault Exn) Bytes := do
  validateNetwork network
  let invalid : Fault Exn := .thrown (.invalidArgument "invalid Ethernet tunnel packet")
  check (ethernetTunnelHeader + 14 ≤ packet.length ∧ packet.length ≤ ethernetTunnelHeader + ethernetMtu + 14) invalid
  let first ← readAt packet 0
  check (first = 0x45) invalid
  let protocol ← readAt packet 9
  check (protocol = 17) invalid
  let flags ← readInt packet 6 2
  check (flags % 0x4000 = 0) invalid
  let source ← readInt packet 20 2
  check (source = tunnelPort) invalid
  let destination ← readInt packet 22 2
  check (destination = tunnelPort) invalid
  let length ← readInt packet 24 2
  check (length = packet.length - 20) invalid
  let sum ← readInt packet 26 2
  check (sum = 0) invalid
  let magic ← readSlice packet 28 4
  check (magic = [76, 76, 50, 1]) invalid
  let _ ← Indexed.inspectIpv4 packet
  let frame ← subspan packet ethernetTunnelHeader (packet.length - ethernetTunnelHeader)
  let sender ← Indexed.readAddress packet 12
  let target ← validateFrame frame network sender
  let outer ← Indexed.readAddress packet 16
  check (outer = target ∧ (target = 0xffffffff ∨ target = network.address))
    (.thrown (.invalidArgument "Ethernet tunnel destination mismatch"))
  .ok frame

/-! ## No read is past the end -/

section
variable {frame packet : Bytes} {network : VirtualNetworkAddress} {sender : UInt32}

theorem sameMac_of_le {offset : ℕ} {mac : MacAddress} (h : offset + 6 ≤ frame.length) :
    sameMac frame offset mac = .ok (mac.toList = slice frame offset 6) := by
  rw [sameMac, readSlice_of_le h]
  rfl

theorem inBounds_sameMac {offset : ℕ} {mac : MacAddress} (h : offset + 6 ≤ frame.length) : InBounds (sameMac frame offset mac) := by
  rw [sameMac_of_le h]
  exact inBounds_ok _

theorem inBounds_readAddress {offset : ℕ} (h : offset + 4 ≤ frame.length) : InBounds (Indexed.readAddress frame offset) := by
  rw [Indexed.readAddress_of_le h]
  exact inBounds_ok _

theorem inBounds_inspectIpv4 (packet : Bytes) : InBounds (Indexed.inspectIpv4 packet) := by
  rw [Indexed.inspectIpv4_eq]
  exact inBounds_lift _

theorem inBounds_arpTarget : InBounds (arpTarget frame network sender) := by
  unfold arpTarget
  refine .guard fun hlength => ?_
  refine (inBounds_readInt (by omega)).bind fun _ _ => .guard fun _ => ?_
  refine (inBounds_readInt (by omega)).bind fun _ _ => .guard fun _ => ?_
  refine (inBounds_readAt (by omega)).bind fun _ _ => .guard fun _ => ?_
  refine (inBounds_readAt (by omega)).bind fun _ _ => .guard fun _ => ?_
  refine (inBounds_readInt (by omega)).bind fun _ _ => .guard fun _ => ?_
  refine (inBounds_sameMac (by omega)).bind fun _ _ => .guard fun _ => ?_
  refine (inBounds_readAddress (by omega)).bind fun _ _ => .guard fun _ => ?_
  exact (inBounds_readAddress (by omega)).bind fun _ _ => .guard fun _ => inBounds_ok _

theorem inBounds_ipv4Target : InBounds (ipv4Target frame network sender) := by
  unfold ipv4Target
  refine .guard fun hlength => ?_
  refine (inBounds_readInt (by omega)).bind fun length _ => .guard fun hfits => ?_
  have hinside : 14 + length ≤ frame.length := by omega
  refine (inBounds_subspan hinside).bind fun ip hip => ?_
  have hip' : ip.length = length := by
    rw [subspan_of_le hinside] at hip
    cases hip
    exact length_slice hinside
  refine (inBounds_inspectIpv4 ip).bind fun _ _ => ?_
  refine (inBounds_readAddress (by omega)).bind fun _ _ => .guard fun _ => ?_
  exact (inBounds_readAddress (by omega)).bind fun _ _ => .guard fun _ => inBounds_ok _

theorem inBounds_innerTarget {type : ℕ} : InBounds (innerTarget frame network sender type) := by
  unfold innerTarget
  split
  · exact inBounds_arpTarget
  · split
    · exact inBounds_ipv4Target
    · exact inBounds_lift (.error _)

theorem inBounds_groupFrame {type : ℕ} {target : UInt32} (h : 6 ≤ frame.length) : InBounds (groupFrame frame type target) := by
  unfold groupFrame
  split
  · exact inBounds_sameMac (by omega)
  · exact inBounds_ok _

theorem inBounds_validateFrame : InBounds (validateFrame frame network sender) := by
  unfold validateFrame
  refine .guard fun ⟨hlength, _⟩ => ?_
  refine (inBounds_sameMac (by omega)).bind fun _ _ => .guard fun _ => ?_
  refine (inBounds_readSlice (by omega)).bind fun _ _ => ?_
  refine (inBounds_readAddress (by omega)).bind fun _ _ => ?_
  refine (inBounds_readInt (by omega)).bind fun type _ => inBounds_innerTarget.bind fun target _ => ?_
  split
  · exact inBounds_ok _
  refine (inBounds_groupFrame (by omega)).bind fun multicast _ => ?_
  split
  · exact inBounds_ok _
  · exact .guard fun _ => (inBounds_sameMac (by omega)).bind fun _ _ => .guard fun _ => inBounds_ok _

theorem inBounds_encapsulateEthernet : InBounds (encapsulateEthernet frame network) := by
  refine inBounds_check.bind fun _ _ => inBounds_validateFrame.bind fun target _ => ?_
  rw [Indexed.updateIpv4Checksum_eq]
  exact inBounds_lift _

theorem inBounds_decapsulateEthernet : InBounds (decapsulateEthernet packet network) := by
  refine inBounds_check.bind fun _ _ => .guard fun ⟨hlength, _⟩ => ?_
  have hlength' : 46 ≤ packet.length := hlength
  refine (inBounds_readAt (by omega)).bind fun _ _ => .guard fun _ => ?_
  refine (inBounds_readAt (by omega)).bind fun _ _ => .guard fun _ => ?_
  refine (inBounds_readInt (by omega)).bind fun _ _ => .guard fun _ => ?_
  refine (inBounds_readInt (by omega)).bind fun _ _ => .guard fun _ => ?_
  refine (inBounds_readInt (by omega)).bind fun _ _ => .guard fun _ => ?_
  refine (inBounds_readInt (by omega)).bind fun _ _ => .guard fun _ => ?_
  refine (inBounds_readInt (by omega)).bind fun _ _ => .guard fun _ => ?_
  refine (inBounds_readSlice (by omega)).bind fun _ _ => .guard fun _ => ?_
  refine (inBounds_inspectIpv4 packet).bind fun _ _ => ?_
  refine (inBounds_subspan (by rw [ethernetTunnelHeader]; omega)).bind fun frame _ => ?_
  refine (inBounds_readAddress (by omega)).bind fun _ _ => inBounds_validateFrame.bind fun _ _ => ?_
  exact (inBounds_readAddress (by omega)).bind fun _ _ => .guard fun _ => inBounds_ok _

end

/-! ## What a valid frame says -/

def destinationMac (frame : Bytes) : Bytes := slice frame 0 6

def sourceMac (frame : Bytes) : Bytes := slice frame 6 6

def etherType (frame : Bytes) : ℕ := getInt frame 12 2

/-- The IPv4 packet in a frame. -/
def framedIpv4 (frame : Bytes) : Bytes := slice frame 14 (getInt frame 16 2)

/-- The frame gives `sender` as its origin, and is about the address `inner`. -/
inductive Names (network : VirtualNetworkAddress) (frame : Bytes) (sender inner : UInt32) : Prop
  | arp (type : etherType frame = 0x0806) (hardware : slice frame 22 6 = (virtualMac sender).toList)
      (protocol : readIpv4 frame 28 = sender) (target : readIpv4 frame 38 = inner) (host : network.isHost inner)
  | ipv4 (type : etherType frame = 0x0800) (accepted : Accepted (framedIpv4 frame))
      (source : readIpv4 (framedIpv4 frame) 12 = sender) (target : readIpv4 (framedIpv4 frame) 16 = inner)
      (scope : network.isHost inner ∨ network.isFanout inner)

/-- The outer destination of a frame that is about `inner`. -/
inductive Resolves (network : VirtualNetworkAddress) (frame : Bytes) (inner : UInt32) : UInt32 → Prop
  | broadcast (mac : destinationMac frame = List.replicate 6 255) : Resolves network frame inner 0xffffffff
  | multicast (type : etherType frame = 0x0800) (group : isIpv4ScopedMulticast inner)
      (mac : destinationMac frame = (multicastMac inner).toList) : Resolves network frame inner 0xffffffff
  | unicast (host : network.isHost inner) (mac : destinationMac frame = (virtualMac inner).toList) :
      Resolves network frame inner inner

section
variable {frame packet : Bytes} {network : VirtualNetworkAddress} {sender target : UInt32}

theorem arpTarget_ok (htype : etherType frame = 0x0806) (h : arpTarget frame network sender = .ok target) :
    Names network frame sender target := by
  rw [arpTarget] at h
  obtain ⟨_, hlength, h⟩ := bind_eq_ok.1 h
  rw [check_eq_ok] at hlength
  simp (disch := omega) only [readInt_of_le, readAt_of_lt, Indexed.readAddress_of_le, sameMac_of_le, ok_bind, bind_eq_ok,
    check_eq_ok, decide_eq_true_eq] at h
  obtain ⟨-, -, -, -, -, -, -, -, -, -, -, hmac, -, hclaimed, -, hhost, heq⟩ := h
  cases heq
  exact .arp htype hmac.symm hclaimed rfl hhost

theorem ipv4Target_ok (htype : etherType frame = 0x0800) (h : ipv4Target frame network sender = .ok target) :
    Names network frame sender target := by
  rw [ipv4Target] at h
  obtain ⟨_, hlength, h⟩ := bind_eq_ok.1 h
  rw [check_eq_ok] at hlength
  rw [readInt_of_le (by omega), ok_bind] at h
  obtain ⟨_, hfits, h⟩ := bind_eq_ok.1 h
  rw [check_eq_ok] at hfits
  have hip : (slice frame 14 (beNat (slice frame 16 2))).length = beNat (slice frame 16 2) := length_slice (by omega)
  rw [subspan_of_le (by omega), ok_bind, Indexed.inspectIpv4_eq] at h
  simp (disch := omega) only [Indexed.readAddress_of_le, ok_bind, bind_eq_ok, check_eq_ok, lift_eq_ok] at h
  obtain ⟨info, hinfo, -, hclaimed, -, hscope, heq⟩ := h
  cases heq
  exact .ipv4 htype (inspectIpv4_eq_ok.1 hinfo).1 hclaimed rfl hscope

theorem innerTarget_ok (h : innerTarget frame network sender (etherType frame) = .ok target) :
    Names network frame sender target := by
  unfold innerTarget at h
  split at h
  · rename_i htype
    exact arpTarget_ok htype h
  · split at h
    · rename_i htype
      exact ipv4Target_ok htype h
    · cases h

/-- A valid frame comes from `sender`. -/
theorem validateFrame_ok (h : validateFrame frame network sender = .ok target) :
    14 ≤ frame.length ∧ frame.length ≤ ethernetMtu + 14 ∧ network.isHost sender ∧ sourceMac frame = (virtualMac sender).toList ∧
      ∃ inner, Names network frame sender inner ∧ Resolves network frame inner target := by
  rw [validateFrame] at h
  obtain ⟨_, hfirst, h⟩ := bind_eq_ok.1 h
  obtain ⟨hlength, hmax, hhost⟩ := check_eq_ok.1 hfirst
  simp (disch := omega) only [sameMac_of_le, readSlice_of_le, readInt_of_le, Indexed.readAddress_of_le, ok_bind] at h
  obtain ⟨_, hmac, h⟩ := bind_eq_ok.1 h
  rw [check_eq_ok, decide_eq_true_eq] at hmac
  refine ⟨hlength, hmax, hhost, hmac.symm, ?_⟩
  obtain ⟨inner, hinner, h⟩ := bind_eq_ok.1 h
  refine ⟨inner, innerTarget_ok hinner, ?_⟩
  split at h
  · rename_i hbroadcast
    cases h
    refine .broadcast (List.eq_replicate_iff.2 ⟨length_slice (by omega), fun b hb => ?_⟩)
    exact of_decide_eq_true (List.all_eq_true.1 hbroadcast b hb)
  obtain ⟨multicast, hmulticast, h⟩ := bind_eq_ok.1 h
  split at h
  · rename_i htrue
    cases h
    unfold groupFrame at hmulticast
    split at hmulticast
    · rename_i hgroup
      rw [sameMac_of_le (by omega)] at hmulticast
      cases hmulticast
      exact .multicast hgroup.1 hgroup.2 (of_decide_eq_true htrue).symm
    · cases hmulticast
      cases htrue
  · simp only [bind_eq_ok, check_eq_ok, decide_eq_true_eq] at h
    obtain ⟨-, hto, -, ⟨hnamed, rfl⟩, heq⟩ := h
    cases heq
    exact .unicast hto hnamed.symm

end

/-! ## The packet for a frame -/

section
variable {source target : UInt32} {frame : Bytes}

theorem tunnelHeader_eq (source target : UInt32) (length : ℕ) : tunnelHeader source target length =
    [0x45, 0] ++ (beBytes 2 (32 + length) ++ ([0, 0, 0x40, 0, 64, 17, 0, 0] ++ (beBytes 4 source.toNat ++
      (beBytes 4 target.toNat ++ (beBytes 2 tunnelPort ++ (beBytes 2 tunnelPort ++
        (beBytes 2 (32 + length - 20) ++ [0, 0, 76, 76, 50, 1]))))))) := by
  simp only [tunnelHeader, ethernetTunnelHeader]
  generalize source.toNat = source
  generalize target.toNat = target
  generalize 32 + length = size
  generalize tunnelPort = port
  simp [putInt, beBytes, List.replicate]

theorem length_tunnelHeader (source target : UInt32) (length : ℕ) : (tunnelHeader source target length).length = 32 := by
  rw [tunnelHeader_eq]
  simp

/-- The packet that carries `frame` from `source` to `target`. -/
structure Carries (source target : UInt32) (frame packet : Bytes) : Prop where
  length : packet.length = 32 + frame.length
  accepted : Accepted packet
  first : byteAt packet 0 = 0x45
  protocol : byteAt packet 9 = 17
  flags : getInt packet 6 2 = 0x4000
  ports : getInt packet 20 2 = tunnelPort ∧ getInt packet 22 2 = tunnelPort
  datagram : getInt packet 24 2 = packet.length - 20
  sum : getInt packet 26 2 = 0
  magic : slice packet 28 4 = [76, 76, 50, 1]
  source : readIpv4 packet 12 = source
  target : readIpv4 packet 16 = target
  frame : packet.drop 32 = frame

theorem carries (hlength : frame.length ≤ ethernetMtu + 14) :
    ∃ packet, Indexed.updateIpv4Checksum (tunnelHeader source target frame.length ++ frame) = .ok packet ∧
      Carries source target frame packet := by
  have hframe : frame.length ≤ 1294 := hlength
  obtain ⟨whole, hwhole⟩ : ∃ whole, whole = tunnelHeader source target frame.length ++ frame := ⟨_, rfl⟩
  rw [← hwhole]
  have hsize : whole.length = 32 + frame.length := by
    rw [hwhole, List.length_append, length_tunnelHeader]
  have field (offset count value : ℕ) (hvalue : value < 256 ^ count)
      (h : slice (tunnelHeader source target frame.length) offset count = beBytes count value) (hin : offset + count ≤ 32) :
      getInt whole offset count = value := by
    have hlong := length_tunnelHeader source target frame.length
    rw [getInt, hwhole, List.drop_append_of_le_length (by omega), List.take_append_of_le_length (by rw [List.length_drop]; omega)]
    rw [slice] at h
    rw [h, beNat_beBytes _ _ hvalue]
  have hheader : Unsummed whole := by
    constructor
    · omega
    · omega
    · rw [hwhole, tunnelHeader_eq]
      rfl
    · rw [hsize]
      exact field 2 2 _ (by omega) (by rw [tunnelHeader_eq]; rfl) (by omega)
    · rw [hwhole, tunnelHeader_eq]
      simp [byteAt, beBytes]
    · exact .inr (field 6 2 _ (by omega) (by rw [tunnelHeader_eq]; rfl) (by omega))
  obtain ⟨sum, hsum, hok, haccepted⟩ := hheader.updated
  refine ⟨putInt whole 10 sum 2, ?_, ?_⟩
  · rw [Indexed.updateIpv4Checksum_eq, hok]
    rfl
  have kept (offset count : ℕ) (h : offset + count ≤ 10 ∨ 12 ≤ offset) :
      getInt (putInt whole 10 sum 2) offset count = getInt whole offset count := getInt_putInt_of_apart (by omega) (by omega)
  constructor
  · rw [length_putInt (by omega), hsize]
  · exact haccepted
  · rw [byteAt_putInt (by omega) (by omega), hheader.first]
  · rw [byteAt_putInt (by omega) (by omega), hwhole, tunnelHeader_eq]
    simp [byteAt, beBytes]
  · rw [kept 6 2 (by omega)]
    exact field 6 2 _ (by omega) (by rw [tunnelHeader_eq]; rfl) (by omega)
  · constructor
    · rw [kept 20 2 (by omega)]
      exact field 20 2 _ (by rw [tunnelPort]; omega) (by rw [tunnelHeader_eq]; rfl) (by omega)
    · rw [kept 22 2 (by omega)]
      exact field 22 2 _ (by rw [tunnelPort]; omega) (by rw [tunnelHeader_eq]; rfl) (by omega)
  · rw [kept 24 2 (by omega), length_putInt (by omega), hsize]
    exact field 24 2 _ (by omega) (by rw [tunnelHeader_eq]; rfl) (by omega)
  · rw [kept 26 2 (by omega)]
    exact field 26 2 _ (by omega) (by rw [tunnelHeader_eq]; rfl) (by omega)
  · rw [slice, slice_putInt (by omega) (by omega), hwhole, tunnelHeader_eq]
    rfl
  · refine readIpv4_of_getInt ?_
    rw [kept 12 4 (by omega)]
    exact field 12 4 _ source.toNat_lt (by rw [tunnelHeader_eq]; rfl) (by omega)
  · refine readIpv4_of_getInt ?_
    rw [kept 16 4 (by omega)]
    exact field 16 4 _ target.toNat_lt (by rw [tunnelHeader_eq]; rfl) (by omega)
  · rw [drop_putInt (by omega) (by omega), hwhole, ← length_tunnelHeader source target frame.length, List.drop_left]

end
/-! ## Round trip and origin -/

section
variable {S R : VirtualNetworkAddress} {frame packet : Bytes} {sender target : UInt32}

/-- Two addresses of one subnet judge frames alike. -/
theorem validateFrame_congr (hsubnet : S.subnet = R.subnet) (hlength : S.prefixLength = R.prefixLength) :
    validateFrame frame S sender = validateFrame frame R sender := by
  have hhost : S.isHost = R.isHost := by
    funext address
    rw [VirtualNetworkAddress.isHost, VirtualNetworkAddress.isHost, hsubnet, hlength]
  have hfanout : S.isFanout = R.isFanout := by
    funext address
    rw [VirtualNetworkAddress.isFanout, VirtualNetworkAddress.isFanout, hsubnet, hlength]
  simp only [validateFrame, innerTarget, arpTarget, ipv4Target, hhost, hfanout]

theorem encapsulateEthernet_ok (h : encapsulateEthernet frame S = .ok packet) :
    ∃ target, validateFrame frame S S.address = .ok target ∧ 14 ≤ frame.length ∧ frame.length ≤ ethernetMtu + 14 ∧
      Carries S.address target frame packet := by
  simp only [encapsulateEthernet, bind_eq_ok] at h
  obtain ⟨-, -, target, htarget, hpacket⟩ := h
  obtain ⟨hmin, hmax, -⟩ := validateFrame_ok htarget
  obtain ⟨packet', hpacket', hcarries⟩ := @carries S.address target frame hmax
  rw [hpacket] at hpacket'
  cases hpacket'
  exact ⟨target, htarget, hmin, hmax, hcarries⟩

/-- The receiver comes as far as the frame and its destination. -/
theorem decapsulateEthernet_carries (h : Carries sender target frame packet) (hmin : 14 ≤ frame.length)
    (hmax : frame.length ≤ ethernetMtu + 14) (hhost : R.isHost R.address) : decapsulateEthernet packet R =
      validateFrame frame R sender >>= fun resolved =>
        check (target = resolved ∧ (resolved = 0xffffffff ∨ resolved = R.address))
          (.thrown (.invalidArgument "Ethernet tunnel destination mismatch")) >>= fun _ => .ok frame := by
  have hmax' : frame.length ≤ 1294 := hmax
  have hlength := h.length
  have hinfo : Indexed.inspectIpv4 packet = .ok (headerOf packet) := by
    rw [Indexed.inspectIpv4_eq, lift_eq_ok]
    exact inspectIpv4_eq_ok.2 ⟨h.accepted, rfl⟩
  have hinner : slice packet 32 (packet.length - 32) = frame := by
    rw [slice, h.frame, hlength, Nat.add_sub_cancel_left, List.take_length]
  rw [decapsulateEthernet, validateNetwork, check_of hhost, ok_bind]
  dsimp only
  rw [check_of (by rw [ethernetTunnelHeader, ethernetMtu]; omega), ok_bind, readAt_eq_byteAt (by omega), ok_bind, check_of h.first,
    ok_bind, readAt_eq_byteAt (by omega), ok_bind, check_of h.protocol, ok_bind, readInt_eq_getInt (by omega), ok_bind,
    check_of (by rw [h.flags]), ok_bind, readInt_eq_getInt (by omega), ok_bind, check_of h.ports.1, ok_bind,
    readInt_eq_getInt (by omega), ok_bind, check_of h.ports.2, ok_bind, readInt_eq_getInt (by omega), ok_bind,
    check_of h.datagram, ok_bind, readInt_eq_getInt (by omega), ok_bind, check_of h.sum, ok_bind,
    readSlice_of_le (by omega), ok_bind, check_of h.magic, ok_bind, hinfo, ok_bind, ethernetTunnelHeader,
    subspan_of_le (by omega), ok_bind, hinner, Indexed.readAddress_of_le (by omega), Indexed.readAddress_of_le (by omega), h.source,
    h.target]
  rfl

/-- What an accepted packet was checked for. -/
theorem decapsulateEthernet_ok (h : decapsulateEthernet packet R = .ok frame) :
    frame = packet.drop ethernetTunnelHeader ∧ ∃ target, validateFrame frame R (readIpv4 packet 12) = .ok target ∧
      (target = 0xffffffff ∨ target = R.address) := by
  rw [decapsulateEthernet] at h
  obtain ⟨-, -, h⟩ := bind_eq_ok.1 h
  dsimp only at h
  obtain ⟨_, hsize, h⟩ := bind_eq_ok.1 h
  obtain ⟨hmin, -⟩ := check_eq_ok.1 hsize
  have hmin' : 46 ≤ packet.length := hmin
  rw [ethernetTunnelHeader] at h ⊢
  simp (disch := omega) only [readAt_of_lt, readInt_of_le, readSlice_of_le, subspan_of_le, Indexed.readAddress_of_le, ok_bind,
    bind_eq_ok, check_eq_ok] at h
  obtain ⟨-, -, -, -, -, -, -, -, -, -, -, -, -, -, -, -, -, -, target, htarget, -, ⟨-, hto⟩, heq⟩ := h
  have hframe : slice packet 32 (packet.length - 32) = packet.drop 32 := by
    rw [slice, ← List.length_drop, List.take_length]
  cases heq
  exact ⟨hframe, target, htarget, hto⟩

/-- No host address is a broadcast address. -/
theorem isHost_lt {network : VirtualNetworkAddress} {address : UInt32} (h : network.isHost address) : address < 0xe0000000 := by
  simp only [VirtualNetworkAddress.isHost, isIpv4Host, Bool.and_eq_true, decide_eq_true_eq] at h
  exact h.1.2

/-- The receiver gets the frame if it is for it, and nothing otherwise; what it
accepts comes from the host the packet names, is for the receiver or for
everyone, and stays in the subnet; no read is past an end. -/
theorem ethernet_tunnel :
    (∀ (S R : VirtualNetworkAddress) (frame packet : Bytes), S.subnet = R.subnet → S.prefixLength = R.prefixLength →
      R.isHost R.address → encapsulateEthernet frame S = .ok packet → ∃ target, validateFrame frame S S.address = .ok target ∧
        (target = 0xffffffff ∨ target = R.address → decapsulateEthernet packet R = .ok frame) ∧
        (¬ (target = 0xffffffff ∨ target = R.address) →
          decapsulateEthernet packet R = .error (.thrown (.invalidArgument "Ethernet tunnel destination mismatch")))) ∧
    (∀ (R : VirtualNetworkAddress) (packet frame : Bytes), decapsulateEthernet packet R = .ok frame →
      frame = packet.drop ethernetTunnelHeader ∧ R.isHost (readIpv4 packet 12) ∧
      sourceMac frame = (virtualMac (readIpv4 packet 12)).toList ∧ ∃ inner, Names R frame (readIpv4 packet 12) inner ∧
        ((destinationMac frame = (virtualMac R.address).toList ∧ inner = R.address) ∨
          destinationMac frame = List.replicate 6 255 ∨
          (etherType frame = 0x0800 ∧ isIpv4ScopedMulticast inner ∧ destinationMac frame = (multicastMac inner).toList))) ∧
    ∀ (network : VirtualNetworkAddress) (bytes : Bytes),
      encapsulateEthernet bytes network ≠ .error .outOfBounds ∧ decapsulateEthernet bytes network ≠ .error .outOfBounds := by
  refine ⟨?_, ?_, fun network bytes => ⟨inBounds_encapsulateEthernet.ne, inBounds_decapsulateEthernet.ne⟩⟩
  · intro S R frame packet hsubnet hlength hhost h
    obtain ⟨target, htarget, hmin, hmax, hcarries⟩ := encapsulateEthernet_ok h
    have hreceived := decapsulateEthernet_carries hcarries hmin hmax hhost
    rw [← validateFrame_congr hsubnet hlength, htarget, ok_bind] at hreceived
    refine ⟨target, htarget, ?_, ?_⟩
    · intro hto
      rw [hreceived, check_of ⟨rfl, hto⟩, ok_bind]
    · intro hto
      rw [hreceived, check_of_not (by tauto), error_bind]
  · intro R packet frame h
    obtain ⟨hframe, target, htarget, hto⟩ := decapsulateEthernet_ok h
    obtain ⟨-, -, hhost, hmac, inner, hnames, hresolves⟩ := validateFrame_ok htarget
    refine ⟨hframe, hhost, hmac, inner, hnames, ?_⟩
    cases hresolves with
    | broadcast hbroadcast => exact .inr (.inl hbroadcast)
    | multicast htype hgroup hmulticast => exact .inr (.inr ⟨htype, hgroup, hmulticast⟩)
    | unicast hinner hunicast =>
      have hlt := isHost_lt hinner
      rcases hto with rfl | rfl
      · exact absurd hlt (by decide)
      · exact .inl ⟨hunicast, rfl⟩

end

end LanLink
