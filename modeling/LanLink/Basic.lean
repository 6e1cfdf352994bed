import LanLink.Lib.Bytes
/-!
# Identifiers, keys, errors and the cryptographic library

A fixed array of `n` bytes is the number its bytes spell, most significant
first, as a `BitVec (8 * n)`: the zero array is `0` and the order of the
numbers is the `memcmp` order of the arrays. Strings are byte strings. What
OpenSSL computes is a parameter, `Crypto`.
-/
open LanLink.Lib

namespace LanLink

/-- The exceptions the code throws, with their text. -/
inductive Exn
  | invalidArgument (what : String)
  | lengthError (what : String)
  | runtimeError (what : String)
  | overflowError (what : String)
  | logicError (what : String)
  deriving DecidableEq, Repr

/-- `std::numeric_limits<std::uint64_t>::max()`. -/
def uint64Max : UInt64 := 0xffffffffffffffff

/-- A `std::string`. -/
abbrev Text := Bytes

/-- The bytes of an ASCII literal. -/
def text (s : String) : Text := s.toUTF8.data.toList

abbrev DeviceId := BitVec 256
abbrev NetworkId := BitVec 128
abbrev SessionId := BitVec 256
abbrev PublicKey := BitVec 256
abbrev EncryptionPublicKey := BitVec 256
abbrev Nonce := BitVec 256
abbrev Signature := BitVec 512

/-- The bytes of a fixed array. -/
def arrayBytes {w : ℕ} (x : BitVec w) : Bytes := beBytes (w / 8) x.toNat

theorem length_arrayBytes {w : ℕ} (x : BitVec w) : (arrayBytes x).length = w / 8 := beBytes_length _ _

/-- A device's session key, signed in the handshake. -/
structure SignedDeviceKey where
  identityPublicKey : PublicKey
  encryptionPublicKey : EncryptionPublicKey
  clientNonce : Nonce
  serverNonce : Nonce
  signature : Signature
  deriving DecidableEq, Repr

/-- What a network's password is checked against. -/
structure PasswordVerifier where
  salt : Nonce := 0
  digest : BitVec 256 := 0
  requireApproval : Bool := false
  deriving DecidableEq, Repr

/-- The OpenSSL functions the relay calls. -/
structure Crypto where
  /-- `EVP_Digest` with SHA-256. -/
  sha256 : Bytes → BitVec 256
  /-- `EVP_PBE_scrypt` with the parameters of `derive`; `none` if it fails. -/
  scrypt : Bytes → Nonce → Option (BitVec 256)
  /-- `EVP_DigestVerify` of an Ed25519 signature. -/
  verifySignature : PublicKey → Bytes → Signature → Bool

section
variable (crypto : Crypto)

def makeDeviceId (key : PublicKey) : DeviceId := crypto.sha256 (arrayBytes key)

def makeAuthTranscript (key : PublicKey) (encryption : EncryptionPublicKey) (client server : Nonce) : Bytes :=
  text "lanlink-auth-v2" ++ arrayBytes key ++ arrayBytes encryption ++ arrayBytes client ++ arrayBytes server

def verifySignedDeviceKey (key : SignedDeviceKey) (expected : DeviceId) : Bool :=
  expected ≠ 0 && key.encryptionPublicKey ≠ 0 && makeDeviceId crypto key.identityPublicKey = expected &&
    crypto.verifySignature key.identityPublicKey
      (makeAuthTranscript key.identityPublicKey key.encryptionPublicKey key.clientNonce key.serverNonce)
      key.signature

/-! ## Access secrets -/

def derive (password : Text) (salt : Nonce) : Except Exn (BitVec 256) := do
  check (8 ≤ password.length ∧ password.length ≤ 128)
    (.invalidArgument "password must contain 8 to 128 bytes")
  match crypto.scrypt password salt with
  | some key => .ok key
  | none => .error (.runtimeError "password derivation failed")

/-- `salt` is the nonce the code draws. -/
def protectPassword (salt : Nonce) (password : Text) (requireApproval : Bool) : Except Exn PasswordVerifier := do
  let digest ← derive crypto password salt
  .ok { salt, digest, requireApproval }

def passwordMatches (password : Text) (verifier : PasswordVerifier) : Except Exn Bool := do
  let derived ← derive crypto password verifier.salt
  .ok (derived = verifier.digest)

def accessDigest (secret : Text) : BitVec 256 := crypto.sha256 secret

end

def hexDigit (v : ℕ) : UInt8 := if v < 10 then UInt8.ofNat (48 + v) else UInt8.ofNat (87 + v)

def hexEncode (bytes : Bytes) : Text := bytes.flatMap fun b => [hexDigit (b.toNat / 16), hexDigit (b.toNat % 16)]

/-- `nonce` is the one the code draws. -/
def randomAccessCode (nonce : Nonce) : Text := hexEncode ((arrayBytes nonce).take 20)

end LanLink
