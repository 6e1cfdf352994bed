import LanLink.Protocol.Capabilities
import LanLink.Lib.Streams
/-!
# Frames

The frames of the control stream, `protocol/message.hpp` and `codec.cpp`: a
header of sixteen bytes (magic, version, type, request id, payload size) and
the payload. `decodeFrame` is a `Scanner`: what it says about the front of a
stream does not change with what follows.
-/
open LanLink.Lib

namespace LanLink

/-- The message types with a name. -/
inductive MessageType
  | clientHello | serverHello | heartbeat | heartbeatAck | disconnect | clientAuth | authResult
  | networkCreateRequest | networkListRequest | networkJoinRequest | networkLeaveRequest | networkInviteRequest
  | networkApproveRequest | networkKickRequest | networkPeerStateRequest | networkKeyPublishRequest
  | peerCandidatesSend | userAccessRequest | networkManagementRequest | relayHealthRequest | relayHealthResult
  | networkManagementResult | userAccessResult | peerCandidatesForward | peerCandidatesAck | networkPacketSend
  | networkOperationResult | networkListResult | networkEvent | networkPeerStateResult | networkPeerStateUpdate
  | networkPeerStateRevoked | networkKeyEnvelope | networkPacketForward | error
  deriving DecidableEq, Repr

/-- The values of `enum class MessageType : std::uint16_t`; the enumeration also has values without a name. -/
abbrev MessageCode := BitVec 16

namespace MessageType

def code : MessageType → MessageCode
  | clientHello => 0x0001 | serverHello => 0x0002 | heartbeat => 0x0003 | heartbeatAck => 0x0004
  | disconnect => 0x0005 | clientAuth => 0x0006 | authResult => 0x0007
  | networkCreateRequest => 0x0100 | networkListRequest => 0x0101 | networkJoinRequest => 0x0102
  | networkLeaveRequest => 0x0103 | networkInviteRequest => 0x0104 | networkApproveRequest => 0x0105
  | networkKickRequest => 0x0106 | networkPeerStateRequest => 0x0107 | networkKeyPublishRequest => 0x0108
  | peerCandidatesSend => 0x010a | userAccessRequest => 0x010b | networkManagementRequest => 0x010c
  | relayHealthRequest => 0x010d | relayHealthResult => 0x018c | networkManagementResult => 0x018b
  | userAccessResult => 0x018a | peerCandidatesForward => 0x0188 | peerCandidatesAck => 0x0189
  | networkPacketSend => 0x0109 | networkOperationResult => 0x0180 | networkListResult => 0x0181
  | networkEvent => 0x0182 | networkPeerStateResult => 0x0183 | networkPeerStateUpdate => 0x0184
  | networkPeerStateRevoked => 0x0185 | networkKeyEnvelope => 0x0186 | networkPacketForward => 0x0187
  | error => 0x00ff

/-- The types `is_known_message_type` lists, in its order. -/
def known : List MessageType :=
  [relayHealthRequest, relayHealthResult, networkManagementRequest, networkManagementResult, userAccessRequest,
    userAccessResult, peerCandidatesSend, peerCandidatesForward, peerCandidatesAck, clientHello, serverHello,
    heartbeat, heartbeatAck, disconnect, clientAuth, authResult, networkCreateRequest, networkListRequest,
    networkJoinRequest, networkLeaveRequest, networkInviteRequest, networkApproveRequest, networkKickRequest,
    networkPeerStateRequest, networkKeyPublishRequest, networkPacketSend, networkOperationResult, networkListResult,
    networkEvent, networkPeerStateResult, networkPeerStateUpdate, networkPeerStateRevoked, networkKeyEnvelope,
    networkPacketForward, error]

end MessageType

def isKnownMessageType (type : MessageCode) : Bool := MessageType.known.any fun t => t.code = type

def frameMagic : Bytes := [0x4c, 0x4e, 0x4c, 0x4b]
def frameHeaderSize : ℕ := 16
def maxPayloadSize : ℕ := 1024 * 1024

structure Frame where
  type : MessageCode := MessageType.clientHello.code
  requestId : BitVec 32 := 0
  payload : Bytes := []
  deriving DecidableEq, Repr

/-- The header `encode_frame` writes in front of the payload. -/
def frameHeader (frame : Frame) : Bytes :=
  frameMagic ++ beBytes 2 protocolVersion.toNat ++ beBytes 2 frame.type.toNat ++ beBytes 4 frame.requestId.toNat ++
    beBytes 4 frame.payload.length

def encodeFrame (frame : Frame) : Except Exn Bytes := do
  check (isKnownMessageType frame.type) (.invalidArgument "unknown message type")
  check (¬ (maxPayloadSize < frame.payload.length ∨ 2 ^ 32 - 1 < frame.payload.length))
    (.lengthError "protocol payload is too large")
  .ok (frameHeader frame ++ frame.payload)

inductive DecodeStatus
  | complete | needMoreData | invalidMagic | unsupportedVersion | unknownMessageType | payloadTooLarge
  deriving DecidableEq, Repr

structure DecodeResult where
  status : DecodeStatus := .needMoreData
  frame : Option Frame := none
  consumed : ℕ := 0
  required : ℕ := frameHeaderSize
  deriving DecidableEq, Repr

/-- The `size` bytes at `offset`, as an unsigned integer. -/
def FrameCodec.readInteger (size : ℕ) (bytes : Bytes) (offset : ℕ) : ℕ := beNat ((bytes.drop offset).take size)

open FrameCodec

def decodeFrame (bytes : Bytes) : DecodeResult :=
  if bytes.length < frameHeaderSize then
    { status := .needMoreData, frame := none, consumed := 0, required := frameHeaderSize }
  else if bytes.take 4 ≠ frameMagic then { status := .invalidMagic, frame := none, consumed := 0, required := 0 }
  else if readInteger 2 bytes 4 ≠ protocolVersion.toNat then
    { status := .unsupportedVersion, frame := none, consumed := 0, required := 0 }
  else
    let type := BitVec.ofNat 16 (readInteger 2 bytes 6)
    if ¬ isKnownMessageType type then
      { status := .unknownMessageType, frame := none, consumed := 0, required := 0 }
    else
      let requestId := BitVec.ofNat 32 (readInteger 4 bytes 8)
      let payloadSize := readInteger 4 bytes 12
      if maxPayloadSize < payloadSize then
        { status := .payloadTooLarge, frame := none, consumed := 0, required := 0 }
      else
        let totalSize := frameHeaderSize + payloadSize
        if bytes.length < totalSize then
          { status := .needMoreData, frame := none, consumed := 0, required := totalSize }
        else
          { status := .complete
            frame := some { type, requestId, payload := (bytes.drop frameHeaderSize).take payloadSize }
            consumed := totalSize
            required := totalSize }

def decodeStatusName : DecodeStatus → String
  | .complete => "complete"
  | .needMoreData => "need_more_data"
  | .invalidMagic => "invalid_magic"
  | .unsupportedVersion => "unsupported_version"
  | .unknownMessageType => "unknown_message_type"
  | .payloadTooLarge => "payload_too_large"

/-! ## What follows does not matter -/

theorem readInteger_append {size offset : ℕ} {bytes : Bytes} (rest : Bytes) (h : offset + size ≤ bytes.length) :
    readInteger size (bytes ++ rest) offset = readInteger size bytes offset := by
  unfold readInteger
  rw [List.drop_append_of_le_length (by omega), List.take_append_of_le_length (by rw [List.length_drop]; omega)]

/-- Bytes that `decodeFrame` can judge are judged the same whatever follows them. -/
theorem decodeFrame_append {bytes : Bytes} (rest : Bytes) (h : (decodeFrame bytes).status ≠ .needMoreData) :
    decodeFrame (bytes ++ rest) = decodeFrame bytes := by
  have hheader : ¬ bytes.length < frameHeaderSize := by
    intro hlt
    exact h (by rw [decodeFrame, if_pos hlt])
  have hlen : 16 ≤ bytes.length := by simpa [frameHeaderSize] using hheader
  have hlong : ¬ (bytes ++ rest).length < frameHeaderSize := by
    rw [List.length_append]
    omega
  unfold decodeFrame at h ⊢
  simp only [if_neg hheader, if_neg hlong, readInteger_append rest (show 4 + 2 ≤ bytes.length by omega),
    readInteger_append rest (show 6 + 2 ≤ bytes.length by omega),
    readInteger_append rest (show 8 + 4 ≤ bytes.length by omega),
    readInteger_append rest (show 12 + 4 ≤ bytes.length by omega),
    List.take_append_of_le_length (show 4 ≤ bytes.length by omega)] at h ⊢
  split
  · rfl
  split
  · rfl
  split
  · rfl
  split
  · rfl
  · rename_i hmagic hversion htype hsize
    simp only [if_neg hmagic, if_neg hversion, if_neg htype, if_neg hsize] at h
    have htotal : ¬ bytes.length < frameHeaderSize + readInteger 4 bytes 12 := by
      intro hlt
      exact h (by rw [if_pos hlt])
    have hwhole : ¬ (bytes ++ rest).length < frameHeaderSize + readInteger 4 bytes 12 := by
      rw [List.length_append]
      omega
    rw [if_neg htotal, if_neg hwhole, List.drop_append_of_le_length (by omega),
      List.take_append_of_le_length (by rw [List.length_drop]; omega)]

/-- A complete frame is there, and no longer than the input. -/
theorem decodeFrame_complete {bytes : Bytes} (h : (decodeFrame bytes).status = .complete) :
    (decodeFrame bytes).frame.isSome ∧ frameHeaderSize ≤ (decodeFrame bytes).consumed ∧
      (decodeFrame bytes).consumed ≤ bytes.length := by
  unfold decodeFrame at h ⊢
  split at h
  · cases h
  split at h
  · cases h
  split at h
  · cases h
  dsimp only at h ⊢
  split at h
  · cases h
  split at h
  · cases h
  split at h
  · cases h
  · rename_i hheader hmagic hversion htype hsize htotal
    simp only [if_neg hheader, if_neg hmagic, if_neg hversion, if_neg htype, if_neg hsize, if_neg htotal]
    refine ⟨rfl, ?_, ?_⟩
    · omega
    · omega

/-- Only less than a frame of maximal size asks for more. -/
theorem decodeFrame_needMoreData {bytes : Bytes} (h : (decodeFrame bytes).status = .needMoreData) :
    bytes.length < frameHeaderSize + maxPayloadSize := by
  unfold decodeFrame at h
  split at h
  · omega
  split at h
  · cases h
  split at h
  · cases h
  dsimp only at h
  split at h
  · cases h
  split at h
  · cases h
  split at h
  · omega
  · cases h

/-- What a stream decoder throws at a status other than `complete` and `need_more_data`. -/
def invalidStream (status : DecodeStatus) : Exn :=
  .runtimeError ("invalid protocol stream: " ++ decodeStatusName status)

/-- A result as a stream decoder acts on it. -/
def DecodeResult.toScan (r : DecodeResult) : Scan Exn Frame :=
  match r.status, r.frame with
  | .complete, some frame => .item frame r.consumed
  | .needMoreData, _ => .more
  | status, _ => .fail (invalidStream status)

theorem toScan_more {bytes : Bytes} : (decodeFrame bytes).toScan = .more ↔ (decodeFrame bytes).status = .needMoreData := by
  unfold DecodeResult.toScan
  split <;> simp_all

theorem toScan_item {bytes : Bytes} {frame : Frame} {n : ℕ} : (decodeFrame bytes).toScan = .item frame n ↔
    (decodeFrame bytes).status = .complete ∧ (decodeFrame bytes).frame = some frame ∧
      (decodeFrame bytes).consumed = n := by
  unfold DecodeResult.toScan
  split <;> simp_all

theorem toScan_fail {r : DecodeResult} {e : Exn} (h : r.toScan = .fail e) : ∃ status, e = invalidStream status := by
  unfold DecodeResult.toScan at h
  split at h
  · cases h
  · cases h
  · cases h
    exact ⟨_, rfl⟩

theorem toScan_append {bytes : Bytes} (rest : Bytes) (h : (decodeFrame bytes).toScan ≠ .more) :
    (decodeFrame (bytes ++ rest)).toScan = (decodeFrame bytes).toScan := by
  rw [decodeFrame_append rest (mt toScan_more.2 h)]

/-- `decodeFrame` as a look at the front of a stream. -/
def frameScanner : Scanner UInt8 Exn Frame where
  scan bytes := (decodeFrame bytes).toScan
  scan_nil := rfl
  size_pos := by
    intro bytes frame n h
    obtain ⟨hstatus, -, rfl⟩ := toScan_item.1 h
    exact Nat.lt_of_lt_of_le (by decide) (decodeFrame_complete hstatus).2.1
  size_le := by
    intro bytes frame n h
    obtain ⟨hstatus, -, rfl⟩ := toScan_item.1 h
    exact (decodeFrame_complete hstatus).2.2
  item_append := by
    intro bytes frame n rest h
    rw [toScan_append rest (by simp [h]), h]
  fail_append := by
    intro bytes e rest h
    rw [toScan_append rest (by simp [h]), h]

/-- `decodeFrame` applied again and again: the frames of a byte string, and the bytes left over. -/
def decodeFrames (bytes : Bytes) : Except Exn (List Frame × Bytes) := frameScanner.drain bytes

/-! ## Round trip -/

theorem readInteger_at {size offset : ℕ} {pre field post : Bytes} (hpre : pre.length = offset)
    (hfield : field.length = size) : readInteger size (pre ++ field ++ post) offset = beNat field := by
  unfold readInteger
  rw [List.append_assoc, ← hpre, List.drop_left, ← hfield, List.take_left]

/-- A frame that encodes is decoded from its encoding. -/
theorem decodeFrame_encodeFrame {frame : Frame} {bytes : Bytes} (h : encodeFrame frame = .ok bytes) :
    decodeFrame bytes =
      { status := .complete, frame := some frame, consumed := bytes.length, required := bytes.length } := by
  simp only [encodeFrame, bind_eq_ok, check_eq_ok, Except.ok.injEq, exists_const] at h
  obtain ⟨hknown, hsize, rfl⟩ := h
  have hpayload : ¬ maxPayloadSize < frame.payload.length := fun hlt => hsize (.inl hlt)
  have hlength : (frameHeader frame).length = frameHeaderSize := by simp [frameHeader, frameMagic, frameHeaderSize]
  have hversion : readInteger 2 (frameHeader frame ++ frame.payload) 4 = protocolVersion.toNat := by
    rw [frameHeader, List.append_assoc, List.append_assoc, List.append_assoc,
      readInteger_at (by simp [frameMagic]) (beBytes_length _ _), beNat_beBytes _ _ (by decide)]
  have htype : readInteger 2 (frameHeader frame ++ frame.payload) 6 = frame.type.toNat := by
    rw [frameHeader, List.append_assoc, List.append_assoc,
      readInteger_at (by simp [frameMagic]) (beBytes_length _ _), beNat_beBytes _ _ frame.type.isLt]
  have hrequest : readInteger 4 (frameHeader frame ++ frame.payload) 8 = frame.requestId.toNat := by
    rw [frameHeader, List.append_assoc,
      readInteger_at (by simp [frameMagic]) (beBytes_length _ _), beNat_beBytes _ _ frame.requestId.isLt]
  have hcount : readInteger 4 (frameHeader frame ++ frame.payload) 12 = frame.payload.length := by
    rw [frameHeader, readInteger_at (by simp [frameMagic]) (beBytes_length _ _), beNat_beBytes _ _ ?_]
    rw [maxPayloadSize] at hpayload
    omega
  have htotal : (frameHeader frame ++ frame.payload).length = frameHeaderSize + frame.payload.length := by
    rw [List.length_append, hlength]
  unfold decodeFrame
  rw [if_neg (by omega), if_neg (by simp [frameHeader, frameMagic]), if_neg (by simp [hversion])]
  simp only [htype, hrequest, hcount, BitVec.ofNat_toNat, BitVec.setWidth_eq, hknown, htotal, not_true_eq_false,
    if_false, if_neg hpayload, lt_self_iff_false]
  rw [← hlength, List.drop_left, List.take_length]

theorem scan_encodeFrame {frame : Frame} {bytes : Bytes} (h : encodeFrame frame = .ok bytes) :
    frameScanner.scan bytes = .item frame bytes.length := by
  refine toScan_item.2 ?_
  rw [decodeFrame_encodeFrame h]
  exact ⟨rfl, rfl, rfl⟩

end LanLink
