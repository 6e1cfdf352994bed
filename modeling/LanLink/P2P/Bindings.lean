import LanLink.Auth.RelayHealth
import LanLink.Protocol.PacketCodec
import LanLink.Session.PeerPath
/-!
# Peer bindings and what is signed

The codec of a binding (`p2p/punch.cpp`) and the proof of one over a direct
connection (`p2p/peer_authorization.cpp`). A device signs session keys, key
envelopes, punches and proofs with one identity; each of these starts with a
domain of its own, so that no signature stands for two of them.
-/
open LanLink.Lib LanLink.Lib.Reader

namespace LanLink.Session.PeerBinding

/-- The binding as the peer has it. -/
def reversed (b : PeerBinding) : PeerBinding :=
  { b with
    localDevice := b.peerDevice, peerDevice := b.localDevice
    localSession := b.peerSession, peerSession := b.localSession
    localGeneration := b.peerGeneration, peerGeneration := b.localGeneration }

@[simp] theorem reversed_reversed (b : PeerBinding) : b.reversed.reversed = b := rfl

end LanLink.Session.PeerBinding

namespace LanLink.P2P
open LanLink.Session (PeerBinding)
open BinaryReader (get8_format get64_format array_format array128_format array256_format)

/-! ## The codec of bindings -/

def encodeBinding (b : PeerBinding) : Bytes :=
  arrayBytes b.networkId ++ (beBytes 8 b.keyEpoch.toNat ++ (beBytes 8 b.localGeneration.toNat ++
    (beBytes 8 b.peerGeneration.toNat ++ (arrayBytes b.localDevice ++ (arrayBytes b.peerDevice ++
    (arrayBytes b.localSession ++ arrayBytes b.peerSession))))))

section
open PolicyReader BinaryReader

def readBinding : PolicyReader PeerBinding := do
  let networkId ← array 128
  let keyEpoch ← get64
  let localGeneration ← get64
  let peerGeneration ← get64
  let localDevice ← array 256
  let peerDevice ← array 256
  let localSession ← array 256
  let peerSession ← array 256
  finish
  pure { networkId, keyEpoch, localGeneration, peerGeneration, localDevice, peerDevice, localSession, peerSession }

def decodeBinding (bytes : Bytes) : Except Exn PeerBinding := readBinding.parse bytes

theorem readBinding_record : Record Closed (fun _ => True) readBinding encodeBinding fun _ => True := by
  refine .congr (.field PeerBinding.networkId array128_format fun networkId _ => .field PeerBinding.keyEpoch get64_format fun epoch _ =>
    .field PeerBinding.localGeneration get64_format fun own _ => .field PeerBinding.peerGeneration get64_format fun peer _ =>
    .field PeerBinding.localDevice array256_format fun device _ => .field PeerBinding.peerDevice array256_format fun device' _ =>
    .field PeerBinding.localSession array256_format fun session _ =>
    .field PeerBinding.peerSession array256_format fun session' _ => .finish _ (.pure ?_)) ?_ ?_
  · rintro ⟨⟩
    simp only [true_and, PeerBinding.mk.injEq, and_assoc, eq_comm]
  · intro b _
    simp
  · intro b _ _
    simp [encodeBinding]

end

theorem length_encodeBinding (b : PeerBinding) : (encodeBinding b).length = 168 := by
  simp [encodeBinding, length_arrayBytes]

theorem decodeBinding_ok {bytes : Bytes} {b : PeerBinding} : decodeBinding bytes = .ok b ↔ bytes = encodeBinding b :=
  readBinding_record.parse_eq_ok.trans (and_iff_left trivial)

theorem encodeBinding_injective {b b' : PeerBinding} (h : encodeBinding b = encodeBinding b') : b = b' := by
  have hread := decodeBinding_ok.2 h
  rw [decodeBinding_ok.2 rfl] at hread
  exact Except.ok.inj hread

/-! ## Proofs of a binding -/

/-- `transcript`. -/
def bindingTranscript (b : PeerBinding) (sender receiver : Nonce) : Bytes :=
  beBytes 4 0x4c4c4431 ++ (encodeBinding b ++ (arrayBytes sender ++ arrayBytes receiver))

def fresh (a b : Nonce) : Bool := a ≠ 0 && b ≠ 0 && a ≠ b

def signPeerBinding (crypto : KeyCrypto) (identity : DeviceIdentity) (b : PeerBinding) (sender receiver : Nonce) :
    Except Exn Signature := do
  check (¬ (identity.deviceId crypto ≠ b.localDevice ∨ ¬ fresh sender receiver)) (.invalidArgument "invalid peer proof context")
  .ok (crypto.sign identity (bindingTranscript b sender receiver))

def verifyPeerBinding (crypto : Crypto) (key : SignedDeviceKey) (b : PeerBinding) (sender receiver : Nonce) (signature : Signature) :
    Bool :=
  fresh sender receiver && b.localSession = key.encryptionPublicKey && verifySignedDeviceKey crypto key b.localDevice &&
    crypto.verifySignature key.identityPublicKey (bindingTranscript b sender receiver) signature

/-! ## What is signed -/

/-- What `PunchSession::message` signs. -/
def punchBytes (kind : UInt8) (b : PeerBinding) (nonce echo : Nonce) : Bytes :=
  beBytes 4 0x4c4c5031 ++ (beBytes 1 kind.toNat ++ (encodeBinding b ++ (arrayBytes nonce ++ arrayBytes echo)))

/-- What identities sign: those of devices the first four, those of relays the
fifth, those of directories the last. -/
inductive Statement
  | sessionKey (key : PublicKey) (encryption : EncryptionPublicKey) (client server : Nonce)
  | envelope (e : NetworkKeyEnvelope) (unsigned : e.signature = 0)
  | punch (kind : UInt8) (b : PeerBinding) (nonce echo : Nonce)
  | direct (b : PeerBinding) (sender receiver : Nonce)
  | health (v : RelayHealth) (valid : v.Valid)
  | directory (c : DirectoryCatalog) (valid : Directory.ValidCatalog c)

namespace Statement

def bytes : Statement → Bytes
  | sessionKey key encryption client server => makeAuthTranscript key encryption client server
  | envelope e _ => signedTranscript e
  | punch kind b nonce echo => punchBytes kind b nonce echo
  | direct b sender receiver => bindingTranscript b sender receiver
  | health v _ => v.bytes
  | directory c _ => Directory.catalogBytes c

/-- A directory in the first version of the format, which starts like the proof of a binding. -/
def Legacy : Statement → Prop
  | directory c _ => Directory.regional c = false
  | _ => False

def Direct : Statement → Prop
  | direct _ _ _ => True
  | _ => False

/-! ## Domains -/

/-- The first four bytes. -/
def domain : Statement → Bytes
  | sessionKey _ _ _ _ => text "lanl"
  | envelope _ _ => text "lanl"
  | punch _ _ _ _ => beBytes 4 0x4c4c5031
  | direct _ _ _ => beBytes 4 0x4c4c4431
  | health v _ => beBytes 4 (RelayHealth.magic v.accountingAvailable).toNat
  | directory c _ => beBytes 4 (Directory.magic (Directory.regional c)).toNat

theorem take_append {front rest : Bytes} (h : front.length = 4) : (front ++ rest).take 4 = front := List.take_left' h

theorem take_text {s : String} {bs rest : Bytes} (h : 4 ≤ (text s).length) (hs : (text s).take 4 = bs) : (text s ++ rest).take 4 = bs := by
  rw [List.take_append_of_le_length h, hs]

theorem take_bytes (s : Statement) : s.bytes.take 4 = s.domain := by
  cases s with
  | sessionKey key encryption client server =>
    simp only [bytes, makeAuthTranscript, List.append_assoc]
    rw [@take_text _ (text "lanl") _ (by decide) (by decide), domain]
  | envelope e unsigned =>
    simp only [bytes, signedTranscript, List.append_assoc]
    rw [@take_text _ (text "lanl") _ (by decide) (by decide), domain]
  | punch kind b nonce echo => exact take_append (beBytes_length _ _)
  | direct b sender receiver => exact take_append (beBytes_length _ _)
  | health v valid => exact take_append (beBytes_length _ _)
  | directory c valid =>
    simp only [bytes, Directory.catalogBytes, Directory.headerBytes, List.append_assoc]
    exact take_append (beBytes_length _ _)

theorem length_sessionKey (key : PublicKey) (encryption : EncryptionPublicKey) (client server : Nonce) :
    (makeAuthTranscript key encryption client server).length = 143 := by
  have htext : (text "lanlink-auth-v2").length = 15 := by decide
  simp [makeAuthTranscript, length_arrayBytes, htext]

theorem length_envelope (e : NetworkKeyEnvelope) : (signedTranscript e).length = 243 := by
  have htext : (text "lanlink-network-key-envelope-v1").length = 31 := by decide
  simp [signedTranscript, length_arrayBytes, htext]

theorem sessionKey_injective {key key' : PublicKey} {encryption encryption' : EncryptionPublicKey} {client client' server server' : Nonce}
    (h : makeAuthTranscript key encryption client server = makeAuthTranscript key' encryption' client' server') :
    sessionKey key encryption client server = sessionKey key' encryption' client' server' := by
  simp only [makeAuthTranscript, List.append_assoc] at h
  obtain ⟨rfl, h₁⟩ := array256_format.cancel trivial trivial (List.append_cancel_left h)
  obtain ⟨rfl, h₂⟩ := array256_format.cancel trivial trivial h₁
  obtain ⟨rfl, h₃⟩ := array256_format.cancel trivial trivial h₂
  rw [arrayBytes_injective rfl h₃]

theorem envelope_injective {e e' : NetworkKeyEnvelope} {hunsigned : e.signature = 0} {hunsigned' : e'.signature = 0}
    (h : signedTranscript e = signedTranscript e') : envelope e hunsigned = envelope e' hunsigned' := by
  obtain ⟨network, epoch, owner, recipient, key, key', nonce, ciphertext, tag, signature⟩ := e
  obtain ⟨network', epoch', owner', recipient', ownerKey, recipientKey, nonce', ciphertext', tag', signature'⟩ := e'
  simp only at hunsigned hunsigned'
  subst hunsigned hunsigned'
  simp only [signedTranscript, List.append_assoc] at h
  obtain ⟨rfl, h₁⟩ := array128_format.cancel trivial trivial (List.append_cancel_left h)
  obtain ⟨rfl, h₂⟩ := get64_format.cancel trivial trivial h₁
  obtain ⟨rfl, h₃⟩ := array256_format.cancel trivial trivial h₂
  obtain ⟨rfl, h₄⟩ := array256_format.cancel trivial trivial h₃
  obtain ⟨rfl, h₅⟩ := array256_format.cancel trivial trivial h₄
  obtain ⟨rfl, h₆⟩ := array256_format.cancel trivial trivial h₅
  obtain ⟨rfl, h₇⟩ := (array_format rfl).cancel trivial trivial h₆
  obtain ⟨rfl, h₈⟩ := array256_format.cancel trivial trivial h₇
  obtain rfl := arrayBytes_injective rfl h₈
  rfl

/-- The binding in front of what else is signed. -/
theorem binding_cancel {b b' : PeerBinding} {rest rest' : Bytes} (h : encodeBinding b ++ rest = encodeBinding b' ++ rest') :
    b = b' ∧ rest = rest' := by
  obtain ⟨hbinding, hrest⟩ := List.append_inj h (by rw [length_encodeBinding, length_encodeBinding])
  exact ⟨encodeBinding_injective hbinding, hrest⟩

theorem punch_injective {kind kind' : UInt8} {b b' : PeerBinding} {nonce nonce' echo echo' : Nonce}
    (h : punchBytes kind b nonce echo = punchBytes kind' b' nonce' echo') : punch kind b nonce echo = punch kind' b' nonce' echo' := by
  obtain ⟨rfl, h₁⟩ := get8_format.cancel trivial trivial (List.append_cancel_left h)
  obtain ⟨rfl, h₂⟩ := binding_cancel h₁
  obtain ⟨rfl, h₃⟩ := array256_format.cancel trivial trivial h₂
  rw [arrayBytes_injective rfl h₃]

theorem direct_injective {b b' : PeerBinding} {sender sender' receiver receiver' : Nonce}
    (h : bindingTranscript b sender receiver = bindingTranscript b' sender' receiver') : direct b sender receiver = direct b' sender' receiver' := by
  obtain ⟨rfl, h₁⟩ := binding_cancel (List.append_cancel_left h)
  obtain ⟨rfl, h₂⟩ := array256_format.cancel trivial trivial h₁
  rw [arrayBytes_injective rfl h₂]

theorem health_injective {v v' : RelayHealth} {valid : v.Valid} {valid' : v'.Valid} (h : v.bytes = v'.bytes) : health v valid = health v' valid' := by
  have hread := RelayHealth.read_record.parse_eq_ok.2 ⟨h, valid'.readable⟩
  rw [RelayHealth.read_record.parse_eq_ok.2 ⟨rfl, valid.readable⟩] at hread
  obtain rfl := Except.ok.inj hread
  rfl

theorem directory_injective {c c' : DirectoryCatalog} {valid : Directory.ValidCatalog c} {valid' : Directory.ValidCatalog c'}
    (h : Directory.catalogBytes c = Directory.catalogBytes c') : directory c valid = directory c' valid' := by
  have hread := Directory.readCatalog_record.parse_eq_ok.2 ⟨h, valid'.readable⟩
  rw [Directory.readCatalog_record.parse_eq_ok.2 ⟨rfl, valid.readable⟩] at hread
  obtain rfl := Except.ok.inj hread
  rfl

/-- Bytes are those of one statement; only a legacy directory can be taken for a proof of a binding. -/
theorem bytes_inj {s t : Statement} (h : s.bytes = t.bytes) : s = t ∨ (s.Direct ∧ t.Legacy) ∨ (s.Legacy ∧ t.Direct) := by
  have hdomain : s.domain = t.domain := by rw [← take_bytes, ← take_bytes, h]
  have hlength := congrArg List.length h
  cases s <;> cases t <;> simp only [domain, RelayHealth.magic, Directory.magic] at hdomain
  case sessionKey.sessionKey => exact .inl (sessionKey_injective h)
  case envelope.envelope => exact .inl (envelope_injective h)
  case punch.punch => exact .inl (punch_injective h)
  case direct.direct => exact .inl (direct_injective h)
  case health.health => exact .inl (health_injective h)
  case directory.directory => exact .inl (directory_injective h)
  -- these two start alike
  case sessionKey.envelope => simp [bytes, length_sessionKey, length_envelope] at hlength
  case envelope.sessionKey => simp [bytes, length_sessionKey, length_envelope] at hlength
  case direct.directory =>
    split at hdomain
    · exact absurd hdomain (by decide)
    · rename_i hlegacy
      exact .inr (.inl ⟨trivial, Bool.eq_false_of_not_eq_true hlegacy⟩)
  case directory.direct =>
    split at hdomain
    · exact absurd hdomain (by decide)
    · rename_i hlegacy
      exact .inr (.inr ⟨Bool.eq_false_of_not_eq_true hlegacy, trivial⟩)
  -- the others differ in the first four bytes
  all_goals
    repeat' split at hdomain
    all_goals exact absurd hdomain (by decide)

end Statement

/-- What is signed for one purpose is not signed for another. -/
structure SignedApart : Prop where
  /-- Of all that devices, relays and regional directories sign, the bytes say what was signed. -/
  separate : ∀ s t : Statement, ¬ s.Legacy → ¬ t.Legacy → (s.bytes = t.bytes ↔ s = t)
  /-- A directory of the first version is apart from all but the proof of a binding. -/
  legacy : ∀ s t : Statement, s.Legacy → ¬ t.Direct → (s.bytes = t.bytes ↔ s = t)

theorem signed_apart : SignedApart where
  separate s t hs ht := by
    refine ⟨fun h => ?_, fun h => by rw [h]⟩
    rcases Statement.bytes_inj h with heq | ⟨-, hlegacy⟩ | ⟨hlegacy, -⟩
    · exact heq
    · exact absurd hlegacy ht
    · exact absurd hlegacy hs
  legacy s t hs ht := by
    refine ⟨fun h => ?_, fun h => by rw [h]⟩
    rcases Statement.bytes_inj h with heq | ⟨hdirect, -⟩ | ⟨-, hdirect⟩
    · exact heq
    · cases s <;> simp only [Statement.Legacy, Statement.Direct] at hs hdirect
    · exact absurd hdirect ht

-- The two share a magic number, and a binding has room for the relay of a directory.
example :
    Directory.body { issuedMs := 1, expiresMs := 2, relays := [
      { id := List.replicate 64 0x61, host := List.replicate 115 0x61 ++ 0x62 :: List.replicate 29 0x61, port := 0x6161 }] } =
    .ok (bindingTranscript
      { networkId := 0x10000000000000002, keyEpoch := 0x0100406161616161
        localGeneration := 0x6161616161616161, peerGeneration := 0x6161616161616161
        localDevice := 0x6161616161616161616161616161616161616161616161616161616161616161
        peerDevice := 0x6161616161616161616161009161616161616161616161616161616161616161
        localSession := 0x6161616161616161616161616161616161616161616161616161616161616161
        peerSession := 0x6161616161616161616161616161616161616161616161616161616161616161 }
      0x6161616161616161616161616161616161616161616161616161616161616161
      0x6261616161616161616161616161616161616161616161616161616161616161) := by decide +kernel

end LanLink.P2P
