import LanLink.Lib.Actions
import LanLink.Lib.Maps
import LanLink.Lib.Windows
import LanLink.Protocol.Messages
/-!
# The packet cipher

`NetworkPacketCipher` (`auth/packet_crypto.cpp`) encrypts the IPv4 packets a
device sends into one network under one network key, and decrypts those of the
other members. It keeps a replay window for each of them.
-/
open LanLink.Lib

namespace LanLink

abbrev NetworkKey := BitVec 256
abbrev Secret32 := BitVec 256

/-- The OpenSSL functions the packet cipher calls. They fail only for want of memory, which is not modelled. -/
structure PacketCrypto extends Crypto where
  /-- `EVP_PKEY_derive` with HKDF-SHA-256. -/
  hkdf : (key salt info : Bytes) → Secret32
  /-- AES-256-GCM under a key, a nonce and associated data: the ciphertext and the tag. -/
  aesGcmEncrypt : Secret32 → BitVec 96 → (aad plaintext : Bytes) → Bytes × BitVec 128
  /-- The plaintext, if the tag is right. -/
  aesGcmDecrypt : Secret32 → BitVec 96 → (aad ciphertext : Bytes) → BitVec 128 → Option Bytes

/-- What is encrypted decrypts to itself, and is as long. -/
structure PacketCrypto.Lawful (crypto : PacketCrypto) : Prop where
  decrypt_encrypt : ∀ key nonce aad plaintext,
    crypto.aesGcmDecrypt key nonce aad (crypto.aesGcmEncrypt key nonce aad plaintext).1
      (crypto.aesGcmEncrypt key nonce aad plaintext).2 = some plaintext
  length_encrypt : ∀ key nonce aad plaintext,
    (crypto.aesGcmEncrypt key nonce aad plaintext).1.length = plaintext.length

/-! ## IPv4 headers -/

/-- The byte at `i`. -/
def byteAt (packet : Bytes) (i : ℕ) : UInt8 := packet.getD i 0

def readIpv4 (packet : Bytes) (offset : ℕ) : UInt32 := UInt32.ofNat (beNat ((packet.drop offset).take 4))

def minVirtualIpv4PacketSize : ℕ := 20
def maxVirtualIpv4PacketSize : ℕ := 65535

/-- The source and the destination. -/
def ipv4Addresses (packet : Bytes) : Except Exn (UInt32 × UInt32) := do
  check (¬ (packet.length < minVirtualIpv4PacketSize ∨ maxVirtualIpv4PacketSize < packet.length ∨
      (byteAt packet 0).toNat / 16 ≠ 4))
    (.invalidArgument "virtual packet has invalid IPv4 length or version")
  let headerLength := (byteAt packet 0).toNat % 16 * 4
  let totalLength := (byteAt packet 2).toNat * 256 + (byteAt packet 3).toNat
  check (¬ (headerLength < minVirtualIpv4PacketSize ∨ packet.length < headerLength ∨ totalLength ≠ packet.length))
    (.invalidArgument "virtual packet has an invalid IPv4 header")
  .ok (readIpv4 packet 12, readIpv4 packet 16)

/-! ## Keys and associated data -/

section
variable (crypto : PacketCrypto)

def deriveSenderKey (networkKey : NetworkKey) (network : NetworkId) (epoch : UInt64) (sender : DeviceId)
    (session : EncryptionPublicKey) : Secret32 :=
  crypto.hkdf (arrayBytes networkKey) (arrayBytes network ++ beBytes 8 epoch.toNat)
    (text "lanlink-virtual-packet-key-v1" ++ arrayBytes sender ++ arrayBytes session)

/-- What `encode_encrypted_network_packet_header` writes for a valid packet. -/
def encryptedPacketHeader (p : EncryptedNetworkPacket) : Bytes :=
  arrayBytes p.networkId ++ beBytes 4 p.destinationIpv4.toNat ++ beBytes 8 p.keyEpoch.toNat ++
    beBytes 4 p.sequence.toNat ++ arrayBytes p.nonce ++ beBytes 2 p.ciphertext.length

def authenticatedData (p : EncryptedNetworkPacket) (sender : DeviceId) (session : EncryptionPublicKey)
    (source : UInt32) : Except Exn Bytes := do
  requirePacket p
  .ok (text "lanlink-virtual-packet-aad-v1" ++ encryptedPacketHeader p ++ arrayBytes sender ++ arrayBytes session ++
    beBytes 4 source.toNat)

end

/-- The first eight bytes of the nonce. -/
def EncryptedNetworkPacket.prefixOfNonce (p : EncryptedNetworkPacket) : BitVec 64 := p.nonce.extractLsb' 32 64

/-! ## Receivers -/

structure PeerReceiver where
  sessionPublicKey : EncryptionPublicKey := 0
  ipv4Address : UInt32 := 0
  encryptionKey : Secret32
  noncePrefix : BitVec 64 := 0
  highestSequence : UInt32 := 0
  seenSequences : UInt64 := 0
  initialized : Bool := false
  fanoutAllowed : Bool := true
  deriving DecidableEq, Repr

def acceptSequence (sequence highest : UInt32) (bitmap : UInt64) : Bool :=
  if highest < sequence then true
  else highest - sequence < 64 && (bitmap &&& (1 <<< (highest - sequence).toUInt64)) = 0

namespace PeerReceiver

/-- The window refuses the packet before it is decrypted. -/
def refuses (r : PeerReceiver) (p : EncryptedNetworkPacket) : Bool :=
  r.initialized && (r.noncePrefix ≠ p.prefixOfNonce || !acceptSequence p.sequence r.highestSequence r.seenSequences)

/-- The window after the packet was accepted. -/
def record (r : PeerReceiver) (p : EncryptedNetworkPacket) : PeerReceiver :=
  if ¬ r.initialized then
    { r with noncePrefix := p.prefixOfNonce, highestSequence := p.sequence, seenSequences := 1, initialized := true }
  else if r.highestSequence < p.sequence then
    let distance := p.sequence - r.highestSequence
    { r with
      seenSequences := if 64 ≤ distance then 1 else (r.seenSequences <<< distance.toUInt64) ||| 1
      highestSequence := p.sequence }
  else { r with seenSequences := r.seenSequences ||| (1 <<< (r.highestSequence - p.sequence).toUInt64) }

end PeerReceiver

/-! ## The cipher -/

structure NetworkPacketCipher where
  networkId : NetworkId
  keyEpoch : UInt64
  networkKey : NetworkKey
  ownDeviceId : DeviceId
  ownSessionPublicKey : EncryptionPublicKey
  ownIpv4Address : UInt32
  subnetAddress : UInt32 := 0
  prefixLength : UInt8 := 0
  managed : Bool := false
  outgoingKey : Secret32
  outgoingNoncePrefix : BitVec 64
  nextSequence : UInt32 := 0
  peers : Map DeviceId PeerReceiver := ∅

namespace NetworkPacketCipher
variable (crypto : PacketCrypto)

/-- The constructor; `noncePrefix` is the one it draws. -/
def make (noncePrefix : BitVec 64) (networkId : NetworkId) (keyEpoch : UInt64) (networkKey : NetworkKey)
    (ownDeviceId : DeviceId) (ownSignedKey : SignedDeviceKey) (ownIpv4Address : UInt32) :
    Except Exn NetworkPacketCipher := do
  check (¬ (networkId = 0 ∨ keyEpoch = 0 ∨ ¬ verifySignedDeviceKey crypto.toCrypto ownSignedKey ownDeviceId ∨
      ownIpv4Address = 0 ∨ 0xe0000000 ≤ ownIpv4Address))
    (.invalidArgument "virtual packet sender is invalid")
  .ok { networkId, keyEpoch, networkKey, ownDeviceId
        ownSessionPublicKey := ownSignedKey.encryptionPublicKey
        ownIpv4Address
        outgoingKey := deriveSenderKey crypto networkKey networkId keyEpoch ownDeviceId ownSignedKey.encryptionPublicKey
        outgoingNoncePrefix := noncePrefix }

/-- The receiver of a listed peer: the one there is, if its session and address are unchanged. -/
def receiverFor (c : NetworkPacketCipher) (policy : Option NetworkPolicy) (peer : NetworkPeer) (key : SignedDeviceKey) :
    PeerReceiver :=
  let fresh : PeerReceiver :=
    { sessionPublicKey := key.encryptionPublicKey
      ipv4Address := peer.ipv4Address
      encryptionKey := deriveSenderKey crypto c.networkKey c.networkId c.keyEpoch peer.deviceId key.encryptionPublicKey }
  let receiver := match c.peers.lookup peer.deviceId with
    | none => fresh
    | some previous =>
      if previous.sessionPublicKey = key.encryptionPublicKey ∧ previous.ipv4Address = peer.ipv4Address then previous
      else fresh
  { receiver with fanoutAllowed := policy.all fun p => policyFanoutAllows p c.ownDeviceId peer.deviceId }

/-- The loop of `update_peers` over the listed peers; peers without a key or denied by the policy are passed over. -/
def receivers (c : NetworkPacketCipher) (policy : Option NetworkPolicy) (updated : Map DeviceId PeerReceiver) :
    List NetworkPeer → Except Exn (Map DeviceId PeerReceiver)
  | [] => .ok updated
  | peer :: peers =>
    match peer.signedKey with
    | none => receivers c policy updated peers
    | some key =>
      if policy.any fun p => !policyAllows p c.ownDeviceId peer.deviceId then receivers c policy updated peers
      else do
        check (¬ (peer.deviceId = c.ownDeviceId ∨ ¬ verifySignedDeviceKey crypto.toCrypto key peer.deviceId))
          (.invalidArgument "virtual packet peer has an invalid signed key")
        receivers c policy
          (if peer.deviceId ∈ updated then updated
           else updated.insert peer.deviceId (c.receiverFor crypto policy peer key)) peers

/-- A throw leaves the cipher as it was. -/
def updatePeers (c : NetworkPacketCipher) (state : NetworkPeerState) : Except Exn NetworkPacketCipher := do
  check (¬ (state.networkId ≠ c.networkId ∨ state.keyEpoch ≠ c.keyEpoch ∨ state.ownAddress ≠ c.ownIpv4Address))
    (.invalidArgument "virtual packet peer state does not match network key")
  requirePeerState state
  let peers ← c.receivers crypto state.policy ∅ state.peers
  .ok { c with
        peers
        managed := state.policy.any (·.managed)
        subnetAddress := state.subnetAddress
        prefixLength := state.prefixLength }

/-- No receiver has the property. -/
def noPeer (c : NetworkPacketCipher) (f : PeerReceiver → Bool) : Bool := c.peers.rows.all fun r => !f r.2

/-- What `encrypt` checks before it takes a sequence number: the destination. -/
def checkOutgoing (c : NetworkPacketCipher) (packet : Bytes) : Except Exn UInt32 := do
  let (source, destination) ← ipv4Addresses packet
  check (¬ (source ≠ c.ownIpv4Address ∨ destination = 0 ∨ destination = c.ownIpv4Address))
    (.invalidArgument "virtual packet has an invalid source or destination")
  let fanout := isIpv4FanoutDestination destination c.subnetAddress c.prefixLength
  check (¬ (c.managed ∧ ((¬ fanout ∧ c.noPeer fun r => r.ipv4Address = destination) ∨
      (fanout ∧ c.noPeer fun r => r.fanoutAllowed))))
    (.invalidArgument "network policy denies this destination")
  check (¬ ((¬ fanout ∧ ¬ isIpv4Host destination c.subnetAddress c.prefixLength) ∨ (fanout ∧ byteAt packet 8 = 0)))
    (.invalidArgument "virtual packet destination is not in the network")
  check (c.nextSequence ≠ 0xffffffff) (.overflowError "virtual packet sequence exhausted")
  .ok destination

/-- The packet `encrypt` fills in, with a ciphertext of the right length. -/
def blankPacket (c : NetworkPacketCipher) (destination sequence : UInt32) (size : ℕ) : EncryptedNetworkPacket :=
  { networkId := c.networkId
    destinationIpv4 := destination
    keyEpoch := c.keyEpoch
    sequence
    nonce := c.outgoingNoncePrefix ++ sequence.toBitVec
    ciphertext := List.replicate size 0
    tag := 0 }

def encrypt (packet : Bytes) : Action Exn NetworkPacketCipher EncryptedNetworkPacket := do
  let destination ← Action.query fun c => c.checkOutgoing packet
  let c ← Action.update fun c =>
    let c := { c with nextSequence := c.nextSequence + 1 }
    (c, c)
  let blank := c.blankPacket destination c.nextSequence packet.length
  let aad ← Action.lift (authenticatedData blank c.ownDeviceId c.ownSessionPublicKey c.ownIpv4Address)
  let (ciphertext, tag) := crypto.aesGcmEncrypt c.outgoingKey blank.nonce aad packet
  pure { blank with ciphertext, tag }

/-- The decrypted packet goes from the peer's address to the one of the outer header. -/
def addressesMatch (c : NetworkPacketCipher) (receiver : PeerReceiver) (p : EncryptedNetworkPacket)
    (plaintext : Bytes) : Bool :=
  match ipv4Addresses plaintext with
  | .ok (source, destination) => source = receiver.ipv4Address && destination = p.destinationIpv4 &&
      (!isIpv4FanoutDestination destination c.subnetAddress c.prefixLength || byteAt plaintext 8 ≠ 0)
  | .error _ => false

/-- What `decrypt` checks before it touches the window: the receiver and the plaintext. -/
def opened (c : NetworkPacketCipher) (p : EncryptedNetworkPacket) (sender : DeviceId) :
    Except Exn (PeerReceiver × Bytes) := do
  requirePacket p
  check (¬ (p.networkId ≠ c.networkId ∨ p.keyEpoch ≠ c.keyEpoch))
    (.runtimeError "virtual packet does not match current network key")
  let fanout := isIpv4FanoutDestination p.destinationIpv4 c.subnetAddress c.prefixLength
  check (¬ (p.destinationIpv4 ≠ c.ownIpv4Address ∧ ¬ fanout))
    (.runtimeError "virtual packet destination is outside this network")
  match c.peers.lookup sender with
  | none => .error (.runtimeError "virtual packet sender is not an active peer")
  | some receiver => do
    check (¬ (fanout ∧ ¬ receiver.fanoutAllowed)) (.runtimeError "network policy denies fanout for this member")
    check (¬ receiver.refuses p) (.runtimeError "virtual packet replay or sender nonce change")
    let aad ← authenticatedData p sender receiver.sessionPublicKey receiver.ipv4Address
    match crypto.aesGcmDecrypt receiver.encryptionKey p.nonce aad p.ciphertext p.tag with
    | none => .error (.runtimeError "virtual packet authentication failed")
    | some plaintext => do
      check (c.addressesMatch receiver p plaintext)
        (.runtimeError "decrypted virtual packet addresses are invalid")
      .ok (receiver, plaintext)

def decrypt (p : EncryptedNetworkPacket) (sender : DeviceId) : Action Exn NetworkPacketCipher Bytes := fun c =>
  match c.opened crypto p sender with
  | .error e => (.error e, c)
  | .ok (receiver, plaintext) => (.ok plaintext, { c with peers := c.peers.insert sender (receiver.record p) })

end NetworkPacketCipher

end LanLink
