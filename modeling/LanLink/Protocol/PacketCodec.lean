import LanLink.Auth.PacketCrypto
import LanLink.Lib.Slices
/-!
# Encrypted packets on the wire

The codec of `packet_messages.cpp`. The encoder appends the fields one after the
other, the decoder reads them at fixed offsets with the length in the middle.
-/
open LanLink.Lib

namespace LanLink

/-! ## Encoding -/

def encodeEncryptedNetworkPacketHeader (p : EncryptedNetworkPacket) : Except Exn Bytes := do
  requirePacket p
  .ok (encryptedPacketHeader p)

def encodeEncryptedNetworkPacket (p : EncryptedNetworkPacket) : Except Exn Bytes := do
  let header ← encodeEncryptedNetworkPacketHeader p
  .ok (header ++ p.ciphertext ++ arrayBytes p.tag)

def encodeForwardedNetworkPacket (f : ForwardedNetworkPacket) : Except Exn Bytes := do
  check (f.senderDeviceId ≠ 0) (.invalidArgument "forwarded packet sender is empty")
  let encrypted ← encodeEncryptedNetworkPacket f.packet
  .ok (arrayBytes f.senderDeviceId ++ encrypted)

/-! ## Decoding -/

/-- `read_integer` of `n` bytes. -/
def readPacketInteger (n : ℕ) (payload : Bytes) (offset : ℕ) : Except Exn ℕ := do
  check (¬ (payload.length < offset ∨ payload.length - offset < n)) (.runtimeError "encrypted packet is truncated")
  .ok (beNat (slice payload offset n))

/-- `std::copy_n` into a fixed array of `w / 8` bytes. -/
def copyArray (w : ℕ) (payload : Bytes) (offset : ℕ) : BitVec w := BitVec.ofNat w (beNat (slice payload offset (w / 8)))

/-- Header and tag: `fixed_size`. -/
def packetFixedSize : ℕ := encryptedPacketHeaderSize + 16

def decodeEncryptedNetworkPacket (payload : Bytes) : Except Exn EncryptedNetworkPacket := do
  check (¬ (payload.length < packetFixedSize + minVirtualIpv4PacketSize ∨
      packetFixedSize + maxVirtualIpv4PacketSize < payload.length))
    (.runtimeError "encrypted packet size is invalid")
  let size ← readPacketInteger 2 payload (encryptedPacketHeaderSize - 2)
  check (payload.length = packetFixedSize + size) (.runtimeError "encrypted packet length does not match payload")
  let destination ← readPacketInteger 4 payload 16
  let keyEpoch ← readPacketInteger 8 payload (16 + 4)
  let sequence ← readPacketInteger 4 payload (16 + 12)
  let packet : EncryptedNetworkPacket :=
    { networkId := copyArray 128 payload 0
      destinationIpv4 := UInt32.ofNat destination
      keyEpoch := UInt64.ofNat keyEpoch
      sequence := UInt32.ofNat sequence
      nonce := copyArray 96 payload (16 + 16)
      ciphertext := slice payload encryptedPacketHeaderSize size
      tag := copyArray 128 payload (encryptedPacketHeaderSize + size) }
  check (validPacket packet) (.runtimeError "encrypted packet header or length is invalid")
  .ok packet

def decodeForwardedNetworkPacket (payload : Bytes) : Except Exn ForwardedNetworkPacket := do
  check (¬ payload.length < 32 + packetFixedSize + minVirtualIpv4PacketSize) (.runtimeError "forwarded packet is truncated")
  let sender := copyArray 256 payload 0
  check (sender ≠ 0) (.runtimeError "forwarded packet sender is empty")
  let packet ← decodeEncryptedNetworkPacket (payload.drop 32)
  .ok { senderDeviceId := sender, packet }

/-! ## Fixed arrays -/

section
variable {w : ℕ}

theorem toNat_lt_of_bytes (hw : w = 8 * (w / 8)) (x : BitVec w) : x.toNat < 256 ^ (w / 8) := calc
  x.toNat < 2 ^ w := x.isLt
  _ = 2 ^ (8 * (w / 8)) := congrArg _ hw
  _ = 256 ^ (w / 8) := pow_mul 2 8 (w / 8)

theorem arrayBytes_injective (hw : w = 8 * (w / 8)) {x y : BitVec w} (h : arrayBytes x = arrayBytes y) : x = y := by
  have hnat := congrArg beNat h
  rwa [arrayBytes, arrayBytes, beNat_beBytes _ _ (toNat_lt_of_bytes hw x), beNat_beBytes _ _ (toNat_lt_of_bytes hw y),
    ← BitVec.toNat_eq] at hnat

/-- An array that was copied is written back as the bytes it was copied from. -/
theorem arrayBytes_copyArray {payload : Bytes} {offset : ℕ} (hw : w = 8 * (w / 8)) (h : offset + w / 8 ≤ payload.length) :
    arrayBytes (copyArray w payload offset) = slice payload offset (w / 8) := by
  have hlt : beNat (slice payload offset (w / 8)) < 2 ^ w := calc
    beNat (slice payload offset (w / 8)) < 256 ^ (w / 8) := beNat_slice_lt h
    _ = 2 ^ (8 * (w / 8)) := (pow_mul 2 8 (w / 8)).symm
    _ = 2 ^ w := congrArg _ hw.symm
  rw [arrayBytes, copyArray, BitVec.toNat_ofNat, Nat.mod_eq_of_lt hlt, beBytes_slice h]

/-- An array is copied from where its bytes are. -/
theorem copyArray_of_slice {payload : Bytes} {offset : ℕ} (hw : w = 8 * (w / 8)) {x : BitVec w}
    (h : slice payload offset (w / 8) = arrayBytes x) : copyArray w payload offset = x := by
  rw [copyArray, h, arrayBytes, beNat_beBytes _ _ (toNat_lt_of_bytes hw x), BitVec.ofNat_toNat, BitVec.setWidth_eq]

end

theorem readPacketInteger_ok {n offset x : ℕ} {payload : Bytes} :
    readPacketInteger n payload offset = .ok x ↔ offset + n ≤ payload.length ∧ x = beNat (slice payload offset n) := by
  simp only [readPacketInteger, bind_eq_ok, check_eq_ok, exists_const, Except.ok.injEq, eq_comm (a := x)]
  refine and_congr_left fun _ => ?_
  omega

/-! ## What is accepted -/

/-- What the encoder writes for a valid packet. -/
def packetBytes (p : EncryptedNetworkPacket) : Bytes := encryptedPacketHeader p ++ p.ciphertext ++ arrayBytes p.tag

theorem length_encryptedPacketHeader (p : EncryptedNetworkPacket) : (encryptedPacketHeader p).length = 46 := by
  simp [encryptedPacketHeader, length_arrayBytes]

theorem length_packetBytes (p : EncryptedNetworkPacket) : (packetBytes p).length = packetFixedSize + p.ciphertext.length := by
  rw [packetBytes, List.length_append, List.length_append, length_encryptedPacketHeader, length_arrayBytes, packetFixedSize,
    encryptedPacketHeaderSize]
  omega

/-- Each field is at its offset. -/
theorem slices_packetBytes (p : EncryptedNetworkPacket) :
    slice (packetBytes p) 0 16 = arrayBytes p.networkId ∧
    slice (packetBytes p) 16 4 = beBytes 4 p.destinationIpv4.toNat ∧
    slice (packetBytes p) 20 8 = beBytes 8 p.keyEpoch.toNat ∧
    slice (packetBytes p) 28 4 = beBytes 4 p.sequence.toNat ∧
    slice (packetBytes p) 32 12 = arrayBytes p.nonce ∧
    slice (packetBytes p) 44 2 = beBytes 2 p.ciphertext.length ∧
    slice (packetBytes p) 46 p.ciphertext.length = p.ciphertext ∧
    slice (packetBytes p) (46 + p.ciphertext.length) 16 = arrayBytes p.tag := by
  have hheader := length_encryptedPacketHeader p
  refine ⟨?_, ?_, ?_, ?_, ?_, ?_, ?_, ?_⟩
  case refine_7 => rw [packetBytes, List.append_assoc, slice_skip hheader.le, hheader, Nat.sub_self, slice_head rfl]
  case refine_8 =>
    have hfront : (encryptedPacketHeader p ++ p.ciphertext).length = 46 + p.ciphertext.length := by
      rw [List.length_append, hheader]
    rw [packetBytes, slice_skip hfront.le, hfront, Nat.sub_self, slice_all (length_arrayBytes _)]
  all_goals
    simp only [packetBytes, encryptedPacketHeader, List.append_assoc]
    simp [slice_skip, slice_head, length_arrayBytes]

theorem encodeEncryptedNetworkPacket_ok {p : EncryptedNetworkPacket} {bs : Bytes} :
    encodeEncryptedNetworkPacket p = .ok bs ↔ validPacket p ∧ bs = packetBytes p := by
  simp only [encodeEncryptedNetworkPacket, encodeEncryptedNetworkPacketHeader, requirePacket, bind_eq_ok, check_eq_ok,
    exists_const, Except.ok.injEq, packetBytes, eq_comm (a := bs)]
  constructor
  · rintro ⟨header, ⟨hvalid, rfl⟩, h⟩
    exact ⟨hvalid, h⟩
  · rintro ⟨hvalid, h⟩
    exact ⟨_, ⟨hvalid, rfl⟩, h⟩

theorem length_ciphertext {p : EncryptedNetworkPacket} (h : validPacket p) :
    20 ≤ p.ciphertext.length ∧ p.ciphertext.length ≤ 65535 := by
  simp only [validPacket, Bool.and_eq_true, decide_eq_true_eq] at h
  exact ⟨h.1.1.2, h.1.2⟩

/-- The decoder takes the bytes of the valid packets and nothing else. -/
theorem decodeEncryptedNetworkPacket_ok {p : EncryptedNetworkPacket} {bs : Bytes} :
    decodeEncryptedNetworkPacket bs = .ok p ↔ validPacket p ∧ bs = packetBytes p := by
  simp only [decodeEncryptedNetworkPacket, bind_eq_ok, check_eq_ok, exists_const, readPacketInteger_ok, Except.ok.injEq]
  constructor
  · rintro ⟨-, size, ⟨-, hsize⟩, hlength, destination, ⟨hdestination, rfl⟩, epoch, ⟨hepoch, rfl⟩, sequence, ⟨hsequence, rfl⟩,
      hvalid, rfl⟩
    refine ⟨hvalid, ?_⟩
    simp only [packetFixedSize, encryptedPacketHeaderSize] at hlength hsize ⊢
    have hcipher : (slice bs 46 size).length = size := length_slice (by omega)
    have h4 : beNat (slice bs 16 4) < 2 ^ 32 := beNat_slice_lt hdestination
    have h8 : beNat (slice bs 20 8) < 2 ^ 64 := beNat_slice_lt hepoch
    have h4' : beNat (slice bs 28 4) < 2 ^ 32 := beNat_slice_lt hsequence
    rw [packetBytes, encryptedPacketHeader]
    dsimp only
    rw [arrayBytes_copyArray rfl (by omega), arrayBytes_copyArray rfl (by omega), arrayBytes_copyArray rfl (by omega),
      UInt32.toNat_ofNat_of_lt' h4, UInt64.toNat_ofNat_of_lt' h8, UInt32.toNat_ofNat_of_lt' h4', beBytes_slice hdestination,
      beBytes_slice hepoch, beBytes_slice hsequence, hcipher, hsize, beBytes_slice (by omega), ← hsize]
    -- the slices are adjacent
    have htotal : bs.length = 16 + 4 + 8 + 4 + 12 + 2 + size + 16 := by omega
    have hall := slice_all htotal
    rw [← slice_append_slice, ← slice_append_slice, ← slice_append_slice, ← slice_append_slice, ← slice_append_slice,
      ← slice_append_slice, ← slice_append_slice] at hall
    norm_num at hall ⊢
    exact hall.symm
  · rintro ⟨hvalid, rfl⟩
    have hlength := length_packetBytes p
    have hsizes := length_ciphertext hvalid
    obtain ⟨hnetwork, hdestination, hepoch, hsequence, hnonce, hsize, hcipher, htag⟩ := slices_packetBytes p
    simp only [packetFixedSize, encryptedPacketHeaderSize, minVirtualIpv4PacketSize, maxVirtualIpv4PacketSize] at hlength ⊢
    have hcount : p.ciphertext.length < 256 ^ 2 := by omega
    have hsender : p.destinationIpv4.toNat < 256 ^ 4 := p.destinationIpv4.toNat_lt
    have hkey : p.keyEpoch.toNat < 256 ^ 8 := p.keyEpoch.toNat_lt
    have hnumber : p.sequence.toNat < 256 ^ 4 := p.sequence.toNat_lt
    refine ⟨by omega, p.ciphertext.length, ⟨by omega, by rw [hsize, beNat_beBytes _ _ hcount]⟩, hlength,
      p.destinationIpv4.toNat, ⟨by omega, by rw [hdestination, beNat_beBytes _ _ hsender]⟩,
      p.keyEpoch.toNat, ⟨by omega, by rw [hepoch, beNat_beBytes _ _ hkey]⟩,
      p.sequence.toNat, ⟨by omega, by rw [hsequence, beNat_beBytes _ _ hnumber]⟩, ?_⟩
    rw [hcipher, copyArray_of_slice rfl hnetwork, copyArray_of_slice rfl hnonce, copyArray_of_slice rfl htag, UInt32.ofNat_toNat,
      UInt32.ofNat_toNat, UInt64.ofNat_toNat]
    exact ⟨hvalid, rfl⟩

theorem encodeForwardedNetworkPacket_ok {f : ForwardedNetworkPacket} {bs : Bytes} :
    encodeForwardedNetworkPacket f = .ok bs ↔
      f.senderDeviceId ≠ 0 ∧ validPacket f.packet ∧ bs = arrayBytes f.senderDeviceId ++ packetBytes f.packet := by
  simp only [encodeForwardedNetworkPacket, bind_eq_ok, check_eq_ok, exists_const, encodeEncryptedNetworkPacket_ok, Except.ok.injEq,
    eq_comm (a := bs)]
  refine and_congr_right fun _ => ?_
  constructor
  · rintro ⟨encrypted, ⟨hvalid, rfl⟩, h⟩
    exact ⟨hvalid, h⟩
  · rintro ⟨hvalid, h⟩
    exact ⟨_, ⟨hvalid, rfl⟩, h⟩

theorem decodeForwardedNetworkPacket_ok {f : ForwardedNetworkPacket} {bs : Bytes} :
    decodeForwardedNetworkPacket bs = .ok f ↔
      f.senderDeviceId ≠ 0 ∧ validPacket f.packet ∧ bs = arrayBytes f.senderDeviceId ++ packetBytes f.packet := by
  simp only [decodeForwardedNetworkPacket, bind_eq_ok, check_eq_ok, exists_const, decodeEncryptedNetworkPacket_ok, Except.ok.injEq]
  constructor
  · rintro ⟨hlength, hsender, packet, ⟨hvalid, hrest⟩, rfl⟩
    refine ⟨hsender, hvalid, ?_⟩
    dsimp only
    rw [arrayBytes_copyArray rfl (by omega), ← hrest]
    exact (List.take_append_drop 32 bs).symm
  · rintro ⟨hsender, hvalid, rfl⟩
    have hsizes := length_ciphertext hvalid
    have hcopy : copyArray 256 (arrayBytes f.senderDeviceId ++ packetBytes f.packet) 0 = f.senderDeviceId :=
      copyArray_of_slice rfl (slice_head (length_arrayBytes _))
    have hdrop : (arrayBytes f.senderDeviceId ++ packetBytes f.packet).drop 32 = packetBytes f.packet :=
      List.drop_left' (length_arrayBytes _)
    refine ⟨?_, by rwa [hcopy], f.packet, ⟨hvalid, hdrop⟩, by rw [hcopy]⟩
    rw [List.length_append, length_arrayBytes, length_packetBytes, minVirtualIpv4PacketSize]
    omega

/-! ## Sequence and nonce -/

/-- The number in the last four bytes of the nonce is the sequence. -/
theorem sequence_of_valid {p : EncryptedNetworkPacket} (h : validPacket p) :
    p.sequence ≠ 0 ∧ beNat ((arrayBytes p.nonce).drop 8) = p.sequence.toNat := by
  simp only [validPacket, Bool.and_eq_true, decide_eq_true_eq] at h
  obtain ⟨⟨⟨⟨-, hzero⟩, -⟩, -⟩, hnonce⟩ := h
  refine ⟨hzero, ?_⟩
  have hsplit := foldl_be ((arrayBytes p.nonce).drop 8) (beNat ((arrayBytes p.nonce).take 8))
  have hall : beNat (arrayBytes p.nonce) = p.nonce.toNat := beNat_beBytes 12 _ p.nonce.isLt
  have hlength : ((arrayBytes p.nonce).drop 8).length = 4 := by rw [List.length_drop, length_arrayBytes]
  have hlt := beNat_lt ((arrayBytes p.nonce).drop 8)
  rw [beNat, ← List.foldl_append, List.take_append_drop, ← beNat, hall, hlength] at hsplit
  rw [hlength] at hlt
  norm_num at hsplit hlt
  omega

/-! ## Associated data -/

theorem beBytes_injective {n x y : ℕ} (hx : x < 256 ^ n) (hy : y < 256 ^ n) (h : beBytes n x = beBytes n y) : x = y := by
  have hnat := congrArg beNat h
  rwa [beNat_beBytes _ _ hx, beNat_beBytes _ _ hy] at hnat

/-- The fields of the header. -/
structure SameHeader (p q : EncryptedNetworkPacket) : Prop where
  networkId : p.networkId = q.networkId
  destinationIpv4 : p.destinationIpv4 = q.destinationIpv4
  keyEpoch : p.keyEpoch = q.keyEpoch
  sequence : p.sequence = q.sequence
  nonce : p.nonce = q.nonce
  length : p.ciphertext.length = q.ciphertext.length

theorem encryptedPacketHeader_injective {p q : EncryptedNetworkPacket} (hp : validPacket p) (hq : validPacket q)
    (h : encryptedPacketHeader p = encryptedPacketHeader q) : SameHeader p q := by
  have hpsize := length_ciphertext hp
  have hqsize := length_ciphertext hq
  simp only [encryptedPacketHeader] at h
  obtain ⟨h, hlength⟩ := List.append_inj' h (by simp)
  obtain ⟨h, hnonce⟩ := List.append_inj' h (by simp [length_arrayBytes])
  obtain ⟨h, hsequence⟩ := List.append_inj' h (by simp)
  obtain ⟨h, hepoch⟩ := List.append_inj' h (by simp)
  obtain ⟨hnetwork, hdestination⟩ := List.append_inj' h (by simp)
  exact {
    networkId := arrayBytes_injective rfl hnetwork
    destinationIpv4 := UInt32.toNat_inj.1 (beBytes_injective p.destinationIpv4.toNat_lt q.destinationIpv4.toNat_lt hdestination)
    keyEpoch := UInt64.toNat_inj.1 (beBytes_injective p.keyEpoch.toNat_lt q.keyEpoch.toNat_lt hepoch)
    sequence := UInt32.toNat_inj.1 (beBytes_injective p.sequence.toNat_lt q.sequence.toNat_lt hsequence)
    nonce := arrayBytes_injective rfl hnonce
    length := beBytes_injective (by omega) (by omega) hlength }

/-- Equal associated data were built from equal fields. -/
theorem authenticatedData_injective {p q : EncryptedNetworkPacket} {sender sender' : DeviceId}
    {session session' : EncryptionPublicKey} {source source' : UInt32} {aad : Bytes}
    (hp : authenticatedData p sender session source = .ok aad) (hq : authenticatedData q sender' session' source' = .ok aad) :
    SameHeader p q ∧ sender = sender' ∧ session = session' ∧ source = source' := by
  simp only [authenticatedData, requirePacket, bind_eq_ok, check_eq_ok, exists_const, Except.ok.injEq] at hp hq
  obtain ⟨hpvalid, hp⟩ := hp
  obtain ⟨hqvalid, hq⟩ := hq
  have h := hp.trans hq.symm
  obtain ⟨h, hsource⟩ := List.append_inj' h (by simp)
  obtain ⟨h, hsession⟩ := List.append_inj' h (by simp [length_arrayBytes])
  obtain ⟨h, hsender⟩ := List.append_inj' h (by simp [length_arrayBytes])
  obtain ⟨-, hheader⟩ := List.append_inj h rfl
  exact ⟨encryptedPacketHeader_injective hpvalid hqvalid hheader, arrayBytes_injective rfl hsender, arrayBytes_injective rfl hsession,
    UInt32.toNat_inj.1 (beBytes_injective source.toNat_lt source'.toNat_lt hsource)⟩

/-- Both codecs are bijections between valid packets and accepted bytes; a nonce
determines its sequence; the associated data determine what they were built from. -/
theorem packet_codec :
    (∀ p, validPacket p → ∃ bs, encodeEncryptedNetworkPacket p = .ok bs ∧ decodeEncryptedNetworkPacket bs = .ok p) ∧
    (∀ bs p, decodeEncryptedNetworkPacket bs = .ok p → encodeEncryptedNetworkPacket p = .ok bs) ∧
    (∀ f : ForwardedNetworkPacket, f.senderDeviceId ≠ 0 → validPacket f.packet →
      ∃ bs, encodeForwardedNetworkPacket f = .ok bs ∧ decodeForwardedNetworkPacket bs = .ok f) ∧
    (∀ bs f, decodeForwardedNetworkPacket bs = .ok f → f.senderDeviceId ≠ 0 ∧ encodeForwardedNetworkPacket f = .ok bs) ∧
    (∀ bs p, decodeEncryptedNetworkPacket bs = .ok p →
      p.sequence ≠ 0 ∧ beNat ((arrayBytes p.nonce).drop 8) = p.sequence.toNat) ∧
    (∀ bs bs' f g, decodeForwardedNetworkPacket bs = .ok f → decodeForwardedNetworkPacket bs' = .ok g →
      f.senderDeviceId = g.senderDeviceId → f.packet.nonce = g.packet.nonce → f.packet.sequence = g.packet.sequence) ∧
    ∀ p q sender sender' session session' source source' aad, authenticatedData p sender session source = .ok aad →
      authenticatedData q sender' session' source' = .ok aad →
      SameHeader p q ∧ sender = sender' ∧ session = session' ∧ source = source' := by
  refine ⟨fun p hp => ⟨packetBytes p, encodeEncryptedNetworkPacket_ok.2 ⟨hp, rfl⟩, decodeEncryptedNetworkPacket_ok.2 ⟨hp, rfl⟩⟩,
    fun bs p h => encodeEncryptedNetworkPacket_ok.2 (decodeEncryptedNetworkPacket_ok.1 h),
    fun f hsender hp => ⟨_, encodeForwardedNetworkPacket_ok.2 ⟨hsender, hp, rfl⟩,
      decodeForwardedNetworkPacket_ok.2 ⟨hsender, hp, rfl⟩⟩,
    fun bs f h => ⟨(decodeForwardedNetworkPacket_ok.1 h).1, encodeForwardedNetworkPacket_ok.2 (decodeForwardedNetworkPacket_ok.1 h)⟩,
    fun bs p h => sequence_of_valid (decodeEncryptedNetworkPacket_ok.1 h).1, ?_, ?_⟩
  · intro bs bs' f g hf hg _ hnonce
    obtain ⟨-, hf', -⟩ := decodeForwardedNetworkPacket_ok.1 hf
    obtain ⟨-, hg', -⟩ := decodeForwardedNetworkPacket_ok.1 hg
    rw [← UInt32.toNat_inj, ← (sequence_of_valid hf').2, ← (sequence_of_valid hg').2, hnonce]
  · intro p q sender sender' session session' source source' aad hp hq
    exact authenticatedData_injective hp hq

end LanLink
