import LanLink.Protocol.Ipv4Headers
/-!
# Gateway tunnels

`encapsulate_routed_ipv4` puts a packet behind a header of its own, and
`decapsulate_routed_ipv4` takes it out again. The header is plain: no options,
no fragment, and a checksum over its own twenty bytes.
-/
open LanLink.Lib

namespace LanLink

/-! ## Plain packets -/

/-- A header without options, its checksum zero. -/
def plainHeader (protocol : UInt8) (length : ℕ) (source destination : UInt32) : Bytes :=
  [0x45, 0] ++ (beBytes 2 length ++ ([0, 0, 0, 0, 64, protocol, 0, 0] ++
    (beBytes 4 source.toNat ++ beBytes 4 destination.toNat)))

/-- `packet` carries `payload` behind a plain header. -/
structure PlainPacket (protocol : UInt8) (source destination : UInt32) (payload packet : Bytes) : Prop where
  accepted : Accepted packet
  header : headerLength packet = 20
  ttl : byteAt packet 8 = 64
  protocol : byteAt packet 9 = protocol
  source : readIpv4 packet 12 = source
  destination : readIpv4 packet 16 = destination
  whole : fragmentOffset packet = 0 ∧ moreFragments packet = false
  length : packet.length = payload.length + 20
  payload : packet.drop 20 = payload

section
variable {protocol : UInt8} {source destination : UInt32} {payload packet : Bytes} {length : ℕ}

@[simp] theorem length_plainHeader : (plainHeader protocol length source destination).length = 20 := by
  simp [plainHeader]

theorem byteAt_plainHeader : byteAt (plainHeader protocol length source destination) 0 = 0x45 ∧
    byteAt (plainHeader protocol length source destination) 8 = 64 ∧
    byteAt (plainHeader protocol length source destination) 9 = protocol := by
  simp [plainHeader, byteAt, beBytes]

/-- A field of the header, also in the packet. -/
theorem getInt_plainHeader {offset count value : ℕ} (hvalue : value < 256 ^ count) (hin : offset + count ≤ 20)
    (h : ((plainHeader protocol length source destination).drop offset).take count = beBytes count value) :
    getInt (plainHeader protocol length source destination ++ payload) offset count = value := by
  rw [getInt, List.drop_append_of_le_length (by rw [length_plainHeader]; omega),
    List.take_append_of_le_length (by rw [List.length_drop, length_plainHeader]; omega), h, beNat_beBytes _ _ hvalue]

theorem unsummed_plainHeader (protocol : UInt8) (source destination : UInt32) (hsize : payload.length + 20 ≤ 65535) :
    Unsummed (plainHeader protocol (payload.length + 20) source destination ++ payload) := by
  obtain ⟨hfirst, httl, -⟩ := @byteAt_plainHeader protocol source destination (payload.length + 20)
  constructor
  · rw [List.length_append, length_plainHeader]
    omega
  · rw [List.length_append, length_plainHeader]
    omega
  · rw [byteAt_append (by simp), hfirst]
  · rw [List.length_append, length_plainHeader, getInt_plainHeader (by omega) (by omega) rfl]
    omega
  · rw [byteAt_append (by simp), httl]
    decide
  · exact .inl (getInt_plainHeader (by omega) (by omega) rfl)

/-- With its checksum, the packet is accepted. -/
theorem plainPacket_updated (protocol : UInt8) (source destination : UInt32) (hsize : payload.length + 20 ≤ 65535) : ∃ packet,
    updateIpv4Checksum (plainHeader protocol (payload.length + 20) source destination ++ payload) = .ok packet ∧
      PlainPacket protocol source destination payload packet := by
  obtain ⟨hfirst, httl, hprotocol⟩ := @byteAt_plainHeader protocol source destination (payload.length + 20)
  obtain ⟨sum, -, hok, haccepted⟩ := (unsummed_plainHeader protocol source destination hsize).updated
  refine ⟨_, hok, ?_⟩
  have hfield : 10 + 2 ≤ (plainHeader protocol (payload.length + 20) source destination ++ payload).length := by
    rw [List.length_append, length_plainHeader]
    omega
  have hbyte {i : ℕ} (hi : i < 10) : byteAt (putInt (plainHeader protocol (payload.length + 20) source destination ++ payload)
      10 sum 2) i = byteAt (plainHeader protocol (payload.length + 20) source destination) i := by
    rw [byteAt_putInt hfield (by omega), byteAt_append (by rw [length_plainHeader]; omega)]
  have hflags : getInt (putInt (plainHeader protocol (payload.length + 20) source destination ++ payload) 10 sum 2) 6 2 = 0 := by
    rw [getInt_putInt_of_apart hfield (by omega)]
    exact getInt_plainHeader (by omega) (by omega) rfl
  constructor
  · exact haccepted
  · rw [headerLength, hbyte (by omega), hfirst]
    rfl
  · rw [hbyte (by omega), httl]
  · rw [hbyte (by omega), hprotocol]
  · refine readIpv4_of_getInt ?_
    rw [getInt_putInt_of_apart hfield (by omega), getInt_plainHeader source.toNat_lt (by omega) rfl]
  · refine readIpv4_of_getInt ?_
    rw [getInt_putInt_of_apart hfield (by omega), getInt_plainHeader destination.toNat_lt (by omega) rfl]
  · rw [fragmentOffset, moreFragments, hflags]
    exact ⟨rfl, rfl⟩
  · rw [length_putInt hfield, List.length_append, length_plainHeader, Nat.add_comm]
  · rw [drop_putInt hfield (by omega), List.drop_left' length_plainHeader]

theorem PlainPacket.inspect (h : PlainPacket protocol source destination payload packet) :
    inspectIpv4 packet = .ok (headerOf packet) := inspectIpv4_eq_ok.2 ⟨h.accepted, rfl⟩

/-! ## Encapsulation -/

/-- The checksum of a header is the same in front of a payload. -/
theorem updateIpv4Checksum_append {front : Bytes} (hheader : headerLength front = 20) (hlength : front.length = 20)
    (rest : Bytes) : updateIpv4Checksum (front ++ rest) = updateIpv4Checksum front >>= fun f => .ok (f ++ rest) := by
  have hheader' : headerLength (front ++ rest) = 20 := by
    rw [← hheader, headerLength, headerLength, byteAt_append (by omega)]
  have htake : (putInt front 10 0 2 ++ rest).take 20 = putInt front 10 0 2 :=
    List.take_left' (by rw [length_putInt (by omega), hlength])
  have hself : (putInt front 10 0 2).take 20 = putInt front 10 0 2 :=
    List.take_of_length_le (by rw [length_putInt (by omega), hlength])
  simp only [updateIpv4Checksum, hheader, hheader', List.length_append, hlength]
  rw [check_of (by omega), check_of (by omega), check_of (by omega), check_of (by omega), putInt_append _ _ (by omega), htake, hself]
  simp only [ok_bind, Except.ok.injEq]
  exact putInt_append _ _ (by rw [length_putInt (by omega)]; omega)

theorem encapsulateRoutedIpv4_ok {inner : Bytes} (h : Accepted inner) (hsize : inner.length ≤ 65515)
    (source destination : UInt32) :
    ∃ outer, encapsulateRoutedIpv4 inner source destination = .ok outer ∧ PlainPacket 4 source destination inner outer := by
  have hwrites : putInt (putInt (putInt (putInt (putInt (putInt (List.replicate 20 0) 0 0x45 1) 2 (inner.length + 20) 2) 8 64 1)
      9 4 1) 12 source.toNat 4) 16 destination.toNat 4 = plainHeader 4 (inner.length + 20) source destination := by
    simp [plainHeader, putInt, beBytes, List.replicate]
  have hheader : headerLength (plainHeader 4 (inner.length + 20) source destination) = 20 := by
    rw [headerLength, byteAt_plainHeader.1]
    rfl
  obtain ⟨outer, hok, hplain⟩ := plainPacket_updated 4 source destination (show inner.length + 20 ≤ 65535 by omega)
  refine ⟨outer, ?_, hplain⟩
  rw [encapsulateRoutedIpv4, inspectIpv4_eq_ok.2 ⟨h, rfl⟩, ok_bind, check_of hsize, ok_bind]
  dsimp only
  rw [hwrites, ← hok, updateIpv4Checksum_append hheader length_plainHeader]

/-- The packet comes out of the tunnel as it went in. -/
theorem PlainPacket.decapsulate {inner outer : Bytes} (h : PlainPacket 4 source destination inner outer) (hinner : Accepted inner) :
    decapsulateRoutedIpv4 outer = .ok inner := by
  have hplain : ¬ (byteAt outer 9 ≠ 4 ∨ (headerOf outer).headerSize ≠ 20 ∨ (headerOf outer).fragmentOffset ≠ 0 ∨
      (headerOf outer).moreFragments) := by
    simp [headerOf, h.protocol, h.header, h.whole.1, h.whole.2]
  rw [decapsulateRoutedIpv4, h.inspect, ok_bind, check_of hplain, ok_bind]
  dsimp only
  rw [h.payload, inspectIpv4_eq_ok.2 ⟨hinner, rfl⟩, ok_bind]

/-- The cipher reads the same addresses. -/
theorem ipv4Addresses_of_accepted (h : Accepted packet) : ipv4Addresses packet = .ok (readIpv4 packet 12, readIpv4 packet 16) := by
  have hmin := h.header.trans h.header_le
  have htotal : (byteAt packet 2).toNat * 256 + (byteAt packet 3).toNat = packet.length := by
    rw [← h.total, getInt, byteAt, byteAt]
    obtain ⟨a, b, hab⟩ : ∃ a b, (packet.drop 2).take 2 = [a, b] := by
      apply List.length_eq_two.1
      rw [List.length_take, List.length_drop]
      omega
    have ha : packet.getD 2 0 = a := by
      have h0 : ([a, b] : Bytes).getD 0 0 = a := rfl
      rw [← h0, ← hab]
      simp [List.getD_eq_getElem?_getD]
    have hb : packet.getD 3 0 = b := by
      have h1 : ([a, b] : Bytes).getD 1 0 = b := rfl
      rw [← h1, ← hab]
      simp [List.getD_eq_getElem?_getD]
    rw [hab, ha, hb]
    simp [beNat]
  have hheader : (byteAt packet 0).toNat % 16 * 4 = headerLength packet := rfl
  rw [ipv4Addresses, check_of, ok_bind]
  · dsimp only
    rw [hheader, htotal, check_of, ok_bind]
    have h1 := h.header
    have h2 := h.header_le
    simp only [minVirtualIpv4PacketSize]
    omega
  · have h1 := h.size_le
    have h2 := h.version
    simp only [minVirtualIpv4PacketSize, maxVirtualIpv4PacketSize]
    omega

end

end LanLink
