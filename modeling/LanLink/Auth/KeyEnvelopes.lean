import LanLink.Auth.PacketCrypto
/-!
# Network key envelopes

The owner of a network draws its key and seals it for each member in an
envelope (`auth/network_keys.cpp`): encrypted under what X25519 derives from the
two session keys, and signed with the owner's identity.
-/
open LanLink.Lib

namespace LanLink

/-- An X25519 private key. -/
abbrev DeviceEncryptionKey := BitVec 256

/-- An Ed25519 private key. -/
abbrev DeviceIdentity := BitVec 256

/-- The OpenSSL functions a client calls besides those of the packet cipher. -/
structure KeyCrypto extends PacketCrypto where
  /-- The public half of a session key. -/
  encryptionPublicKey : DeviceEncryptionKey → EncryptionPublicKey
  /-- `EVP_PKEY_derive` with X25519; `none` if it fails. -/
  x25519 : DeviceEncryptionKey → EncryptionPublicKey → Option Secret32
  /-- The public half of an identity. -/
  identityPublicKey : DeviceIdentity → PublicKey
  /-- `EVP_DigestSign` with Ed25519. -/
  sign : DeviceIdentity → Bytes → Signature

section
variable (crypto : KeyCrypto)

def DeviceIdentity.deviceId (identity : DeviceIdentity) : DeviceId :=
  makeDeviceId crypto.toCrypto (crypto.identityPublicKey identity)

def deriveSharedSecret (key : DeviceEncryptionKey) (peer : EncryptionPublicKey) : Except Exn Secret32 :=
  match crypto.x25519 key peer with
  | none => .error (.runtimeError "X25519 shared secret derivation failed")
  | some shared => do
    check (shared ≠ 0) (.runtimeError "X25519 shared secret derivation failed")
    .ok shared

/-- The envelope up to its nonce. -/
def authenticatedHeader (e : NetworkKeyEnvelope) : Except Exn Bytes := do
  requireKeyEnvelope e
  .ok (arrayBytes e.networkId ++ beBytes 8 e.epoch.toNat ++ arrayBytes e.ownerDeviceId ++
    arrayBytes e.recipientDeviceId ++ arrayBytes e.ownerEncryptionPublicKey ++
    arrayBytes e.recipientEncryptionPublicKey ++ arrayBytes e.nonce)

def deriveWrappingKey (shared : Secret32) (header : Bytes) : Secret32 :=
  crypto.hkdf (arrayBytes shared) header (text "lanlink-network-key-wrap-v1")

/-- The array its bytes spell. -/
def ofBytes (w : ℕ) (bytes : Bytes) : BitVec w := BitVec.ofNat w (beNat bytes)

def encryptKey (key : NetworkKey) (wrappingKey : Secret32) (header : Bytes) (e : NetworkKeyEnvelope) :
    Except Exn NetworkKeyEnvelope := do
  let sealed := crypto.aesGcmEncrypt wrappingKey e.nonce header (arrayBytes key)
  check (sealed.1.length = 32) (.runtimeError "network key encryption failed")
  .ok { e with ciphertext := ofBytes 256 sealed.1, tag := sealed.2 }

def decryptKey (e : NetworkKeyEnvelope) (wrappingKey : Secret32) (header : Bytes) : Except Exn NetworkKey :=
  match crypto.aesGcmDecrypt wrappingKey e.nonce header (arrayBytes e.ciphertext) e.tag with
  | none => .error (.runtimeError "network key authentication failed")
  | some plaintext => do
    check (plaintext.length = 32) (.runtimeError "network key authentication failed")
    .ok (ofBytes 256 plaintext)

/-- `nonce` is the one the code draws. -/
def sealNetworkKey (nonce : BitVec 96) (identity : DeviceIdentity) (ownerKey : DeviceEncryptionKey)
    (recipientKey : SignedDeviceKey) (recipient : DeviceId) (network : NetworkId) (epoch : UInt64) (key : NetworkKey) :
    Except Exn NetworkKeyEnvelope := do
  check (¬ (¬ verifySignedDeviceKey crypto.toCrypto recipientKey recipient ∨ epoch = 0 ∨
      identity.deviceId crypto = recipient))
    (.invalidArgument "network key recipient is invalid")
  let blank : NetworkKeyEnvelope :=
    { networkId := network, epoch, ownerDeviceId := identity.deviceId crypto, recipientDeviceId := recipient,
      ownerEncryptionPublicKey := crypto.encryptionPublicKey ownerKey,
      recipientEncryptionPublicKey := recipientKey.encryptionPublicKey, nonce, ciphertext := 0, tag := 0,
      signature := 0 }
  let header ← authenticatedHeader blank
  let shared ← deriveSharedSecret crypto ownerKey recipientKey.encryptionPublicKey
  let e ← encryptKey crypto key (deriveWrappingKey crypto shared header) header blank
  .ok { e with signature := crypto.sign identity (signedTranscript e) }

def openNetworkKey (recipientKey : DeviceEncryptionKey) (e : NetworkKeyEnvelope) (ownerKey : SignedDeviceKey)
    (recipient : DeviceId) : Except Exn NetworkKey := do
  check (¬ (e.recipientDeviceId ≠ recipient ∨
      e.recipientEncryptionPublicKey ≠ crypto.encryptionPublicKey recipientKey ∨
      ¬ verifySignedDeviceKey crypto.toCrypto ownerKey e.ownerDeviceId ∨
      ownerKey.encryptionPublicKey ≠ e.ownerEncryptionPublicKey ∨
      ¬ verifyNetworkKeyEnvelope crypto.toCrypto e ownerKey.identityPublicKey))
    (.runtimeError "network key sender or recipient is invalid")
  let header ← authenticatedHeader e
  let shared ← deriveSharedSecret crypto recipientKey e.ownerEncryptionPublicKey
  decryptKey crypto e (deriveWrappingKey crypto shared header) header

end
/-! ## Arrays -/

theorem ofBytes_arrayBytes {n : ℕ} (x : BitVec (8 * n)) : ofBytes (8 * n) (arrayBytes x) = x := by
  have hlt : x.toNat < 256 ^ n := by
    have h := x.isLt
    rwa [pow_mul] at h
  rw [ofBytes, arrayBytes, Nat.mul_div_cancel_left n (by norm_num), beNat_beBytes n _ hlt, BitVec.ofNat_toNat, BitVec.setWidth_eq]

theorem arrayBytes_ofBytes {n : ℕ} {bytes : Bytes} (h : bytes.length = n) : arrayBytes (ofBytes (8 * n) bytes) = bytes := by
  have hlt : beNat bytes < 2 ^ (8 * n) := by
    rw [pow_mul, ← h]
    exact beNat_lt bytes
  rw [ofBytes, arrayBytes, Nat.mul_div_cancel_left n (by norm_num), BitVec.toNat_ofNat, Nat.mod_eq_of_lt hlt, ← h, beBytes_beNat]

end LanLink
