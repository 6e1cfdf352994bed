import LanLink.Auth.CipherState
import LanLink.Relay.Sessions
/-!
# Replay windows of the packet cipher

A sender numbers its packets from one and never repeats a nonce. A receiver
takes each of them at most once, and refuses exactly those that come 64 or more
behind the newest. The fan-out filter of the relay decides as the receivers do.
-/
open LanLink.Lib

namespace LanLink

/-- A call of a member function of the cipher. -/
inductive CipherOp
  | updatePeers (state : NetworkPeerState)
  | encrypt (packet : Bytes)
  | decrypt (packet : EncryptedNetworkPacket) (sender : DeviceId)

/-- A packet a cipher sent: what it was made from, and the subnet the cipher held. -/
structure Sent where
  packet : EncryptedNetworkPacket
  plaintext : Bytes
  subnetAddress : UInt32
  prefixLength : UInt8
  deriving DecidableEq

namespace NetworkPacketCipher
variable (crypto : PacketCrypto)

/-- The cipher after a call, also if it threw. -/
def step (c : NetworkPacketCipher) : CipherOp → NetworkPacketCipher
  | .updatePeers state => match c.updatePeers crypto state with
    | .ok c' => c'
    | .error _ => c
  | .encrypt packet => (encrypt crypto packet c).2
  | .decrypt packet sender => (decrypt crypto packet sender c).2

def run (c : NetworkPacketCipher) (ops : List CipherOp) : NetworkPacketCipher := ops.foldl (step crypto) c

/-- The packet a call returned. -/
def sends (c : NetworkPacketCipher) : CipherOp → Option Sent
  | .encrypt plaintext => match (encrypt crypto plaintext c).1 with
    | .ok packet => some { packet, plaintext, subnetAddress := c.subnetAddress, prefixLength := c.prefixLength }
    | .error _ => none
  | _ => none

/-- The packets the calls of a run returned. -/
def sent (c : NetworkPacketCipher) : List CipherOp → List Sent
  | [] => []
  | op :: ops => (c.sends crypto op).toList ++ sent (c.step crypto op) ops

variable {crypto} {c c' : NetworkPacketCipher}

/-! ## One call -/

theorem step_updatePeers (crypto : PacketCrypto) (c : NetworkPacketCipher) (state : NetworkPeerState) :
    c.step crypto (.updatePeers state) = c ∨ Updated crypto c state (c.step crypto (.updatePeers state)) := by
  simp only [step]
  split
  · rename_i c' h
    exact .inr (updatePeers_ok h)
  · exact .inl rfl

theorem sameIdentity_step (hl : crypto.Lawful) (hw : c.Wf crypto) (op : CipherOp) :
    SameIdentity c (c.step crypto op) := by
  cases op with
  | updatePeers state =>
    rcases step_updatePeers crypto c state with h | h
    · rw [h]
      exact .refl c
    · exact h.same
  | encrypt packet =>
    rcases encrypt_cases hl hw packet with ⟨e, h⟩ | ⟨p, h, -⟩
    · simp only [step, h]
      exact .refl c
    · simp only [step, h]
      exact ⟨rfl, rfl, rfl, rfl, rfl, rfl, rfl, rfl⟩
  | decrypt p sender =>
    rcases decrypt_cases crypto c p sender with ⟨e, -, h⟩ | ⟨r, plaintext, -, h⟩
    · simp only [step, h]
      exact .refl c
    · simp only [step, h]
      exact ⟨rfl, rfl, rfl, rfl, rfl, rfl, rfl, rfl⟩

theorem encryptionKey_record (r : PeerReceiver) (p : EncryptedNetworkPacket) :
    (r.record p).encryptionKey = r.encryptionKey ∧ (r.record p).sessionPublicKey = r.sessionPublicKey ∧
      (r.record p).ipv4Address = r.ipv4Address := by
  unfold PeerReceiver.record
  split
  · exact ⟨rfl, rfl, rfl⟩
  · split
    · exact ⟨rfl, rfl, rfl⟩
    · exact ⟨rfl, rfl, rfl⟩

theorem wf_step (hl : crypto.Lawful) (hw : c.Wf crypto) (op : CipherOp) : (c.step crypto op).Wf crypto := by
  cases op with
  | updatePeers state =>
    rcases step_updatePeers crypto c state with h | h
    · rw [h]
      exact hw
    · exact h.wf hw
  | encrypt packet =>
    rcases encrypt_cases hl hw packet with ⟨e, h⟩ | ⟨p, h, -⟩
    · simp only [step, h]
      exact hw
    · simp only [step, h]
      exact ⟨hw.network, hw.epoch, hw.placed, hw.peers, hw.outgoing⟩
  | decrypt p sender =>
    rcases decrypt_cases crypto c p sender with ⟨e, -, h⟩ | ⟨r, plaintext, hopened, h⟩
    · simp only [step, h]
      exact hw
    · simp only [step, h]
      refine ⟨hw.network, hw.epoch, hw.placed, ?_, hw.outgoing⟩
      intro d r' hr
      rw [Map.lookup_insert] at hr
      split at hr
      · rename_i heq
        cases hr
        obtain ⟨hleading, hkey⟩ := hw.peers (opened_ok hopened).2.1
        obtain ⟨hrecord, hsession, -⟩ := encryptionKey_record r p
        rw [heq, hrecord, hsession]
        exact ⟨hleading, hkey⟩
      · exact hw.peers hr

theorem wf_run (hl : crypto.Lawful) (hw : c.Wf crypto) (ops : List CipherOp) :
    (c.run crypto ops).Wf crypto ∧ SameIdentity c (c.run crypto ops) := by
  induction ops generalizing c with
  | nil => exact ⟨hw, .refl c⟩
  | cons op ops ih =>
    obtain ⟨hwf, hsame⟩ := ih (wf_step hl hw op)
    exact ⟨hwf, (sameIdentity_step hl hw op).trans hsame⟩

/-! ## Sending -/

theorem sealed_congr {subnet : UInt32} {prefixLength : UInt8} {plaintext : Bytes} {p : EncryptedNetworkPacket}
    (hs : SameIdentity c c') (h : Sealed crypto c' subnet prefixLength plaintext p) :
    Sealed crypto c subnet prefixLength plaintext p where
  networkId := hs.networkId ▸ h.networkId
  keyEpoch := hs.keyEpoch ▸ h.keyEpoch
  valid := h.valid
  nonce := hs.outgoingNoncePrefix ▸ h.nonce
  addresses := hs.ownIpv4Address ▸ h.addresses
  ttl := h.ttl
  opens := by
    have hopens := h.opens
    rw [hs.ownDeviceId, hs.ownSessionPublicKey, hs.ownIpv4Address, hs.outgoingKey] at hopens
    exact hopens

/-- A call sends nothing and keeps the counter, or sends a packet with the next number. -/
theorem sends_cases (hl : crypto.Lawful) (hw : c.Wf crypto) (op : CipherOp) :
    (c.sends crypto op = none ∧ (c.step crypto op).nextSequence = c.nextSequence) ∨
    ∃ x, c.sends crypto op = some x ∧ Sealed crypto c x.subnetAddress x.prefixLength x.plaintext x.packet ∧
      x.packet.sequence.toNat = c.nextSequence.toNat + 1 ∧
      (c.step crypto op).nextSequence.toNat = c.nextSequence.toNat + 1 := by
  cases op with
  | updatePeers state =>
    refine .inl ⟨rfl, ?_⟩
    rcases step_updatePeers crypto c state with h | h
    · rw [h]
    · exact h.sequence
  | encrypt packet =>
    rcases encrypt_cases hl hw packet with ⟨e, h⟩ | ⟨p, h, hsequence, hmax, hsealed⟩
    · exact .inl ⟨by simp [sends, h], by simp [step, h]⟩
    · have hnext : (c.nextSequence + 1).toNat = c.nextSequence.toNat + 1 := by
        have hlt := c.nextSequence.toNat_lt
        have hne : c.nextSequence.toNat ≠ 2 ^ 32 - 1 := fun heq => hmax (UInt32.toNat_inj.1 heq)
        rw [UInt32.toNat_add]
        change (_ + 1) % 2 ^ 32 = _
        omega
      refine .inr ⟨⟨p, packet, c.subnetAddress, c.prefixLength⟩, by simp [sends, h], hsealed, ?_, ?_⟩
      · rw [hsequence, hnext]
      · simp [step, h, hnext]
  | decrypt p sender =>
    refine .inl ⟨rfl, ?_⟩
    rcases decrypt_cases crypto c p sender with ⟨e, -, h⟩ | ⟨r, plaintext, -, h⟩
    · simp [step, h]
    · simp [step, h]

/-- The packets of a run are numbered on from the counter. -/
theorem sequence_sent (hl : crypto.Lawful) (hw : c.Wf crypto) (ops : List CipherOp) :
    (c.sent crypto ops).map (·.packet.sequence.toNat) =
      List.range' (c.nextSequence.toNat + 1) (c.sent crypto ops).length := by
  induction ops generalizing c with
  | nil => rfl
  | cons op ops ih =>
    have htail := ih (wf_step hl hw op)
    rcases sends_cases hl hw op with ⟨hnone, hnext⟩ | ⟨x, hsome, -, hsequence, hnext⟩
    · rw [hnext] at htail
      simpa [sent, hnone] using htail
    · rw [hnext] at htail
      simp [sent, hsome, hsequence, htail, List.range'_succ]

theorem sealed_sent (hl : crypto.Lawful) (hw : c.Wf crypto) {ops : List CipherOp} {x : Sent}
    (h : x ∈ c.sent crypto ops) : Sealed crypto c x.subnetAddress x.prefixLength x.plaintext x.packet := by
  induction ops generalizing c with
  | nil => cases h
  | cons op ops ih =>
    rw [sent, List.mem_append] at h
    rcases h with hop | htail
    · rcases sends_cases hl hw op with ⟨hnone, -⟩ | ⟨y, hsome, hsealed, -⟩
      · simp [hnone] at hop
      · rw [hsome, Option.toList_some, List.mem_singleton] at hop
        rw [hop]
        exact hsealed
    · exact sealed_congr (sameIdentity_step hl hw op) (ih (wf_step hl hw op) htail)

/-- No nonce is used twice. -/
theorem nodup_nonces (hl : crypto.Lawful) (hw : c.Wf crypto) (ops : List CipherOp) :
    ((c.sent crypto ops).map (·.packet.nonce)).Nodup := by
  have hsequences : ((c.sent crypto ops).map (·.packet.sequence.toNat)).Nodup := by
    rw [sequence_sent hl hw ops]
    exact List.nodup_range'
  refine (List.Nodup.of_map _ hsequences).map_on fun x hx y hy hnonce => ?_
  refine List.inj_on_of_nodup_map hsequences hx hy ?_
  have hxv := (validPacket_iff.1 (sealed_sent hl hw hx).valid).2.2.2.2.2.2.2
  have hyv := (validPacket_iff.1 (sealed_sent hl hw hy).valid).2.2.2.2.2.2.2
  rw [← hxv, ← hyv, hnonce]

end NetworkPacketCipher

/-! ## The window of a receiver -/

namespace PeerReceiver
variable {r : PeerReceiver} {p : EncryptedNetworkPacket} {seen : Finset ℕ}

/-- The window stands for the packets in `seen`, all sent with the nonce prefix `start`. -/
def Stands (r : PeerReceiver) (start : BitVec 64) (seen : Finset ℕ) : Prop :=
  if r.initialized then r.noncePrefix = start ∧ r.highestSequence.toNat ∈ seen ∧
    Tracks 64 r.highestSequence.toNat (wordBit r.seenSequences) seen
  else seen = ∅

/-- The word of a window knows which numbers it takes. -/
theorem Stands.accepts_iff {start : BitVec 64} (h : r.Stands start seen) (hinit : r.initialized) (q : UInt32) :
    acceptSequence q r.highestSequence r.seenSequences ↔ Fits 64 seen q.toNat := by
  unfold Stands at h
  rw [if_pos hinit] at h
  obtain ⟨-, hmem, htracks⟩ := h
  unfold acceptSequence
  split
  · rename_i hlt
    simp only [true_iff]
    exact htracks.fits_of_lt (UInt32.lt_iff_toNat_lt.1 hlt)
  · rename_i hle
    have hle' : q ≤ r.highestSequence := UInt32.not_lt.1 hle
    have hdist : (r.highestSequence - q).toNat = r.highestSequence.toNat - q.toNat := UInt32.toNat_sub_of_le _ _ hle'
    rw [htracks.fits_iff hmem (UInt32.le_iff_toNat_le.1 hle'), ← hdist]
    simp only [Bool.and_eq_true, decide_eq_true_eq, UInt32.lt_iff_toNat_lt]
    refine and_congr_right fun hlt => ?_
    exact and_bit_eq_zero _ (UInt32.lt_iff_toNat_lt.2 hlt)

/-- The window refuses what was seen and what is too old. -/
theorem Stands.refuses_iff (h : r.Stands p.prefixOfNonce seen) : r.refuses p = false ↔ Fits 64 seen p.sequence.toNat := by
  by_cases hinit : r.initialized
  · have hleading : r.noncePrefix = p.prefixOfNonce := by
      unfold Stands at h
      rw [if_pos hinit] at h
      exact h.1
    rw [← h.accepts_iff hinit]
    simp [refuses, hinit, hleading]
  · unfold Stands at h
    rw [if_neg hinit] at h
    subst h
    simp [refuses, hinit, Fits]

/-- Accepting a packet puts it in the window. -/
theorem Stands.record (h : r.Stands p.prefixOfNonce seen) (hfits : Fits 64 seen p.sequence.toNat) :
    (r.record p).Stands p.prefixOfNonce (insert p.sequence.toNat seen) := by
  unfold Stands at h
  unfold PeerReceiver.record
  split at h
  · rename_i hinit
    obtain ⟨hleading, hmem, htracks⟩ := h
    simp only [hinit, not_true_eq_false, if_false]
    split
    · -- a newer packet moves the window up
      rename_i hlt
      have hlt' : r.highestSequence.toNat < p.sequence.toNat := UInt32.lt_iff_toNat_lt.1 hlt
      have hdist : (p.sequence - r.highestSequence).toNat = p.sequence.toNat - r.highestSequence.toNat :=
        UInt32.toNat_sub_of_le _ _ (UInt32.le_iff_toNat_le.2 hlt'.le)
      simp only [Stands, if_true]
      refine ⟨hleading, by simp, htracks.raise hlt' fun i hi => ?_⟩
      rw [← hdist]
      split
      · rename_i hfar
        have hfar' : 64 ≤ (p.sequence - r.highestSequence).toNat := UInt32.le_iff_toNat_le.1 hfar
        rw [wordBit_one]
        constructor
        · exact .inl
        · rintro (h0 | ⟨hle, -⟩)
          · exact h0
          · omega
      · rename_i hnear
        exact wordBit_shift _ (UInt32.not_le.1 hnear) hi
    · -- an older packet inside the window sets its bit
      rename_i hle
      have hle' : p.sequence ≤ r.highestSequence := UInt32.not_lt.1 hle
      have hdist : (r.highestSequence - p.sequence).toNat = r.highestSequence.toNat - p.sequence.toNat :=
        UInt32.toNat_sub_of_le _ _ hle'
      have hnear := ((htracks.fits_iff hmem (UInt32.le_iff_toNat_le.1 hle')).1 hfits).1
      simp only [Stands, if_true]
      refine ⟨hleading, by simp [hmem], htracks.mark (UInt32.le_iff_toNat_le.1 hle') fun i _ => ?_⟩
      rw [← hdist] at hnear ⊢
      exact wordBit_mark _ (UInt32.lt_iff_toNat_lt.2 hnear)
  · rename_i hinit
    subst h
    simp only [hinit, Stands, if_true, Bool.false_eq_true, not_false_eq_true, insert_empty_eq]
    exact ⟨trivial, by simp, tracks_singleton fun i _ => wordBit_one⟩

theorem not_fits_mono {seen' : Finset ℕ} {s : ℕ} (hsub : seen ⊆ seen') (h : ¬ Fits 64 seen s) : ¬ Fits 64 seen' s :=
  fun ⟨hnew, hnear⟩ => h ⟨fun hs => hnew (hsub hs), fun t ht => hnear t (hsub ht)⟩

theorem not_fits_insert {s : ℕ} : ¬ Fits 64 (insert s seen) s := fun h => h.1 (Finset.mem_insert_self _ _)

/-- Only the window counts. -/
theorem stands_congr {r' : PeerReceiver} {start : BitVec 64} (hinit : r'.initialized = r.initialized)
    (hleading : r'.noncePrefix = r.noncePrefix) (hhighest : r'.highestSequence = r.highestSequence)
    (hseen : r'.seenSequences = r.seenSequences) : r'.Stands start seen ↔ r.Stands start seen := by
  unfold Stands
  rw [hinit, hleading, hhighest, hseen]

end PeerReceiver

/-! ## Receiving -/

namespace NetworkPacketCipher
variable (crypto : PacketCrypto)

/-- A packet of device `a` for this cipher: to its own address, or to a fan-out address if its policy allows fan-out
from `a`; on the subnet it was sent on. -/
def Addressed (c : NetworkPacketCipher) (a : DeviceId) (x : Sent) : Prop :=
  x.subnetAddress = c.subnetAddress ∧ x.prefixLength = c.prefixLength ∧
    (x.packet.destinationIpv4 = c.ownIpv4Address ∨
      isIpv4FanoutDestination x.packet.destinationIpv4 c.subnetAddress c.prefixLength ∧
        (c.peers.lookup a).any (·.fanoutAllowed))

instance (c : NetworkPacketCipher) (a : DeviceId) (x : Sent) : Decidable (c.Addressed a x) :=
  inferInstanceAs (Decidable (_ ∧ _ ∧ _))

/-- The packet does not open under the key of `a`. -/
def Forged (c : NetworkPacketCipher) (p : EncryptedNetworkPacket) (a : DeviceId) : Prop :=
  ∀ r aad, c.peers.lookup a = some r → authenticatedData p a r.sessionPublicKey r.ipv4Address = .ok aad →
    crypto.aesGcmDecrypt r.encryptionKey p.nonce aad p.ciphertext p.tag = none

/-- The state lists the cipher `a` with its session and its address. -/
def KeepsPeer (c a : NetworkPacketCipher) (state : NetworkPeerState) : Prop :=
  ∃ peer key, c.Lists state.policy state.peers peer key ∧ peer.deviceId = a.ownDeviceId ∧
    key.encryptionPublicKey = a.ownSessionPublicKey ∧ peer.ipv4Address = a.ownIpv4Address

/-- A call of a receiver of the packets `packets` of `a`: what comes from `a` is one of them or does not open, and the
entry for `a` is not replaced. -/
def Receives (a : NetworkPacketCipher) (packets : List Sent) (c : NetworkPacketCipher) : CipherOp → Prop
  | .updatePeers state => c.KeepsPeer a state
  | .encrypt _ => True
  | .decrypt p d => d = a.ownDeviceId →
      (∃ x ∈ packets, x.packet = p ∧ c.Addressed a.ownDeviceId x) ∨ c.Forged crypto p d

/-- Every call of the run is one. -/
def ReceivesAll (a : NetworkPacketCipher) (packets : List Sent) (c : NetworkPacketCipher) : List CipherOp → Prop
  | [] => True
  | op :: ops => Receives crypto a packets c op ∧ ReceivesAll a packets (c.step crypto op) ops

/-- The sequence number of a packet of `a` delivered by a call. -/
def deliveredBy (a : DeviceId) (packets : List Sent) (c : NetworkPacketCipher) : CipherOp → Finset ℕ
  | .decrypt p d => if d = a ∧ ∃ x ∈ packets, x.packet = p ∧ c.Addressed a x then {p.sequence.toNat} else ∅
  | _ => ∅

/-- The sequence number of a packet of `a` accepted by a call. -/
def acceptedBy (a : DeviceId) (c : NetworkPacketCipher) : CipherOp → Finset ℕ
  | .decrypt p d => if d = a ∧ (decrypt crypto p d c).1.isOk then {p.sequence.toNat} else ∅
  | _ => ∅

def delivered (a : DeviceId) (packets : List Sent) (c : NetworkPacketCipher) : List CipherOp → Finset ℕ
  | [] => ∅
  | op :: ops => c.deliveredBy a packets op ∪ delivered a packets (c.step crypto op) ops

def accepted (a : DeviceId) (c : NetworkPacketCipher) : List CipherOp → Finset ℕ
  | [] => ∅
  | op :: ops => c.acceptedBy crypto a op ∪ accepted a (c.step crypto op) ops

variable {crypto} {a c : NetworkPacketCipher} {packets : List Sent} {seen settled : Finset ℕ}

/-- `c` holds the network and key of `a`, and `r` is its receiver for it. -/
structure Matched (a c : NetworkPacketCipher) (r : PeerReceiver) : Prop where
  networkId : c.networkId = a.networkId
  keyEpoch : c.keyEpoch = a.keyEpoch
  networkKey : c.networkKey = a.networkKey
  lookup : c.peers.lookup a.ownDeviceId = some r
  session : r.sessionPublicKey = a.ownSessionPublicKey
  address : r.ipv4Address = a.ownIpv4Address

/-- A packet of `a` for this cipher is refused by the window or opens to what was sent. -/
theorem Matched.opened {r : PeerReceiver} (h : Matched a c r) (ha : a.Wf crypto) (hc : c.Wf crypto) {x : Sent}
    (hx : Sealed crypto a x.subnetAddress x.prefixLength x.plaintext x.packet) (haddressed : c.Addressed a.ownDeviceId x) :
    c.opened crypto x.packet a.ownDeviceId =
      if r.refuses x.packet then .error (.runtimeError "virtual packet replay or sender nonce change")
      else .ok (r, x.plaintext) := by
  obtain ⟨hsubnet, hleading, hdest⟩ := haddressed
  obtain ⟨h24, hkey⟩ := hc.peers h.lookup
  have hkey' : r.encryptionKey = a.outgoingKey := by
    rw [hkey, ha.outgoing, h.networkKey, h.networkId, h.keyEpoch, h.session]
  have hplaced := (hc.placed (by rw [h24]; decide)).2
  have hfanout : isIpv4FanoutDestination x.packet.destinationIpv4 c.subnetAddress c.prefixLength → r.fanoutAllowed := by
    intro hf
    rcases hdest with hown | ⟨-, hallowed⟩
    · rw [hown, h24, hplaced.not_fanout] at hf
      cases hf
    · simpa [h.lookup] using hallowed
  have hmatch : c.addressesMatch r x.packet x.plaintext := by
    have httl := hx.ttl
    rw [hsubnet, hleading] at httl
    simp only [addressesMatch, hx.addresses, h.address, decide_true, Bool.true_and, Bool.or_eq_true, Bool.not_eq_true',
      decide_eq_true_eq]
    cases hf : isIpv4FanoutDestination x.packet.destinationIpv4 c.subnetAddress c.prefixLength with
    | false => exact .inl rfl
    | true => exact .inr (httl hf)
  have hnetwork : ¬ (x.packet.networkId ≠ c.networkId ∨ x.packet.keyEpoch ≠ c.keyEpoch) := by
    rw [hx.networkId, hx.keyEpoch, h.networkId, h.keyEpoch]
    simp
  have hdest' : ¬ (x.packet.destinationIpv4 ≠ c.ownIpv4Address ∧
      ¬ isIpv4FanoutDestination x.packet.destinationIpv4 c.subnetAddress c.prefixLength) := by
    rintro ⟨hne, hnot⟩
    exact hdest.elim hne fun hf => hnot hf.1
  have hallowed : ¬ (isIpv4FanoutDestination x.packet.destinationIpv4 c.subnetAddress c.prefixLength = true ∧
      ¬ r.fanoutAllowed = true) := fun hboth => hboth.2 (hfanout hboth.1)
  obtain ⟨aad, haad⟩ : ∃ aad, authenticatedData x.packet a.ownDeviceId r.sessionPublicKey r.ipv4Address = .ok aad := by
    rw [authenticatedData, requirePacket, check_of hx.valid]
    exact ⟨_, rfl⟩
  have hopens : crypto.aesGcmDecrypt r.encryptionKey x.packet.nonce aad x.packet.ciphertext x.packet.tag =
      some x.plaintext := by
    rw [h.session, h.address] at haad
    rw [hkey']
    exact hx.opens aad haad
  simp only [NetworkPacketCipher.opened, requirePacket, check_of hx.valid, check_of hnetwork, check_of hdest', h.lookup,
    check_of hallowed, ok_bind, haad, hopens, check_of hmatch]
  split
  · rename_i hrefuses
    rw [check_of_not (not_not.2 hrefuses)]
    rfl
  · rename_i hrefuses
    rw [check_of hrefuses]
    rfl

/-- The receiver of `a` in `c` stands for the packets in `seen`; those in `settled` will not be taken again. -/
structure Linked (a c : NetworkPacketCipher) (r : PeerReceiver) (seen settled : Finset ℕ) : Prop where
  networkId : c.networkId = a.networkId
  keyEpoch : c.keyEpoch = a.keyEpoch
  networkKey : c.networkKey = a.networkKey
  lookup : c.peers.lookup a.ownDeviceId = some r
  session : r.sessionPublicKey = a.ownSessionPublicKey
  address : r.ipv4Address = a.ownIpv4Address
  stands : r.Stands a.outgoingNoncePrefix seen
  subset : seen ⊆ settled
  final : ∀ s ∈ settled, ¬ Fits 64 seen s

theorem Linked.matched {r : PeerReceiver} (h : Linked a c r seen settled) : Matched a c r :=
  ⟨h.networkId, h.keyEpoch, h.networkKey, h.lookup, h.session, h.address⟩

/-- A packet that does not open is rejected. -/
theorem opened_forged {p : EncryptedNetworkPacket} {d : DeviceId} (h : c.Forged crypto p d) :
    ∃ e, c.opened crypto p d = .error e := by
  cases hopened : c.opened crypto p d with
  | error e => exact ⟨e, rfl⟩
  | ok res =>
    exfalso
    simp only [NetworkPacketCipher.opened, bind_eq_ok] at hopened
    obtain ⟨-, -, -, -, -, -, hopened⟩ := hopened
    split at hopened
    · cases hopened
    · rename_i r hlookup
      simp only [bind_eq_ok] at hopened
      obtain ⟨-, -, -, -, aad, haad, hopened⟩ := hopened
      rw [h r aad hlookup haad] at hopened
      cases hopened

/-- A listed peer with an unchanged session and address keeps its receiver. -/
theorem receiverFor_kept (crypto : PacketCrypto) {r : PeerReceiver} (policy : Option NetworkPolicy) {peer : NetworkPeer} {key : SignedDeviceKey}
    (hlookup : c.peers.lookup peer.deviceId = some r) (hsession : r.sessionPublicKey = key.encryptionPublicKey)
    (haddress : r.ipv4Address = peer.ipv4Address) : c.receiverFor crypto policy peer key =
      { r with fanoutAllowed := policy.all fun p => policyFanoutAllows p c.ownDeviceId peer.deviceId } := by
  simp [receiverFor, hlookup, hsession, haddress]

variable {r : PeerReceiver}

theorem Linked.updatePeers (h : Linked a c r seen settled) {state : NetworkPeerState} (hkeeps : c.KeepsPeer a state) :
    ∃ r', Linked a (c.step crypto (.updatePeers state)) r' seen settled := by
  rcases step_updatePeers crypto c state with hstep | hstep
  · rw [hstep]
    exact ⟨r, h⟩
  · obtain ⟨peer, key, hlists, hdevice, hsession, haddress⟩ := hkeeps
    have hlookup : c.peers.lookup peer.deviceId = some r := by
      rw [hdevice]
      exact h.lookup
    have hkept := receiverFor_kept crypto state.policy hlookup (h.session.trans hsession.symm)
      (h.address.trans haddress.symm)
    refine ⟨_, ?_, ?_, ?_, (hstep.lookup _ _).2 ⟨peer, key, hlists, hdevice, rfl⟩, ?_, ?_, ?_, h.subset, h.final⟩
    · rw [hstep.same.networkId, h.networkId]
    · rw [hstep.same.keyEpoch, h.keyEpoch]
    · rw [hstep.same.networkKey, h.networkKey]
    · rw [hkept]
      exact h.session
    · rw [hkept]
      exact h.address
    · rw [hkept]
      exact (PeerReceiver.stands_congr rfl rfl rfl rfl).2 h.stands

/-- A packet of `a` for this cipher: accepted once, or never any more. -/
theorem Linked.deliver (h : Linked a c r seen settled) (ha : a.Wf crypto) (hc : c.Wf crypto) {x : Sent}
    (hx : Sealed crypto a x.subnetAddress x.prefixLength x.plaintext x.packet) (haddressed : c.Addressed a.ownDeviceId x) :
    (Fits 64 seen x.packet.sequence.toNat ∧
      ∃ c', decrypt crypto x.packet a.ownDeviceId c = (.ok x.plaintext, c') ∧
        ∃ r', Linked a c' r' (insert x.packet.sequence.toNat seen) (insert x.packet.sequence.toNat settled)) ∨
    (¬ Fits 64 seen x.packet.sequence.toNat ∧ ∃ e, decrypt crypto x.packet a.ownDeviceId c = (.error e, c)) := by
  have hopened := h.matched.opened ha hc hx haddressed
  have hstands : r.Stands x.packet.prefixOfNonce seen := hx.prefixOfNonce ▸ h.stands
  by_cases hfits : Fits 64 seen x.packet.sequence.toNat
  · left
    rw [if_neg (by simp [hstands.refuses_iff.2 hfits])] at hopened
    refine ⟨hfits, { c with peers := c.peers.insert a.ownDeviceId (r.record x.packet) }, ?_, r.record x.packet, ?_⟩
    · simp only [decrypt, hopened]
    · obtain ⟨-, hsession, haddress⟩ := encryptionKey_record r x.packet
      refine ⟨h.networkId, h.keyEpoch, h.networkKey, ?_, ?_, ?_, ?_, Finset.insert_subset_insert _ h.subset, ?_⟩
      · rw [Map.lookup_insert, if_pos rfl]
      · rw [hsession, h.session]
      · rw [haddress, h.address]
      · exact hx.prefixOfNonce ▸ hstands.record hfits
      · intro s hs
        rcases Finset.mem_insert.1 hs with rfl | hs
        · exact PeerReceiver.not_fits_insert
        · exact PeerReceiver.not_fits_mono (Finset.subset_insert _ _) (h.final s hs)
  · right
    have hrefuses : r.refuses x.packet = true := by
      rw [← Bool.not_eq_false]
      exact mt hstands.refuses_iff.1 hfits
    rw [if_pos hrefuses] at hopened
    refine ⟨hfits, .runtimeError "virtual packet replay or sender nonce change", ?_⟩
    simp only [decrypt, hopened]

/-- One call of the receiver. -/
theorem Linked.step (h : Linked a c r seen settled) (hl : crypto.Lawful) (ha : a.Wf crypto) (hc : c.Wf crypto)
    (hpackets : ∀ x ∈ packets, Sealed crypto a x.subnetAddress x.prefixLength x.plaintext x.packet) {op : CipherOp}
    (hop : Receives crypto a packets c op) :
    ∃ r', Linked a (c.step crypto op) r' (seen ∪ c.acceptedBy crypto a.ownDeviceId op)
      (settled ∪ c.deliveredBy a.ownDeviceId packets op) := by
  cases op with
  | updatePeers state =>
    simp only [acceptedBy, deliveredBy, Finset.union_empty]
    exact h.updatePeers hop
  | encrypt packet =>
    simp only [acceptedBy, deliveredBy, Finset.union_empty]
    rcases encrypt_cases hl hc packet with ⟨e, heq⟩ | ⟨p, heq, -⟩
    · simp only [NetworkPacketCipher.step, heq]
      exact ⟨r, h⟩
    · simp only [NetworkPacketCipher.step, heq]
      exact ⟨r, h.networkId, h.keyEpoch, h.networkKey, h.lookup, h.session, h.address, h.stands, h.subset, h.final⟩
  | decrypt p d =>
    by_cases hd : d = a.ownDeviceId
    · subst hd
      by_cases hgenuine : ∃ x ∈ packets, x.packet = p ∧ c.Addressed a.ownDeviceId x
      · obtain ⟨x, hx, rfl, haddressed⟩ := id hgenuine
        simp only [acceptedBy, deliveredBy, NetworkPacketCipher.step, true_and, if_pos hgenuine]
        rcases h.deliver ha hc (hpackets x hx) haddressed with ⟨-, c', heq, r', hlinked⟩ | ⟨hfits, e, heq⟩
        · simp only [heq, Except.isOk, Except.toBool, if_true, Finset.union_singleton]
          exact ⟨r', hlinked⟩
        · simp only [heq, Except.isOk, Except.toBool, Bool.false_eq_true, if_false, Finset.union_empty,
            Finset.union_singleton]
          refine ⟨r, h.networkId, h.keyEpoch, h.networkKey, h.lookup, h.session, h.address, h.stands,
            h.subset.trans (Finset.subset_insert _ _), ?_⟩
          intro s hs
          rcases Finset.mem_insert.1 hs with rfl | hs
          · exact hfits
          · exact h.final s hs
      · have hforged := (hop rfl).resolve_left hgenuine
        obtain ⟨e, he⟩ := opened_forged hforged
        have heq : decrypt crypto p a.ownDeviceId c = (.error e, c) := by simp only [decrypt, he]
        simp only [acceptedBy, deliveredBy, NetworkPacketCipher.step, true_and, if_neg hgenuine, heq, Except.isOk,
          Except.toBool, Bool.false_eq_true, if_false, Finset.union_empty]
        exact ⟨r, h⟩
    · simp only [acceptedBy, deliveredBy, NetworkPacketCipher.step, hd, false_and, if_false, Finset.union_empty]
      rcases decrypt_cases crypto c p d with ⟨e, -, heq⟩ | ⟨r₀, plaintext, -, heq⟩
      · rw [heq]
        exact ⟨r, h⟩
      · rw [heq]
        refine ⟨r, h.networkId, h.keyEpoch, h.networkKey, ?_, h.session, h.address, h.stands, h.subset, h.final⟩
        rw [Map.lookup_insert, if_neg (Ne.symm hd)]
        exact h.lookup

/-- Every run of the receiver. -/
theorem Linked.run (h : Linked a c r seen settled) (hl : crypto.Lawful) (ha : a.Wf crypto) (hc : c.Wf crypto)
    (hpackets : ∀ x ∈ packets, Sealed crypto a x.subnetAddress x.prefixLength x.plaintext x.packet) {ops : List CipherOp}
    (hops : ReceivesAll crypto a packets c ops) :
    ∃ r', Linked a (c.run crypto ops) r' (seen ∪ accepted crypto a.ownDeviceId c ops)
      (settled ∪ delivered crypto a.ownDeviceId packets c ops) := by
  induction ops generalizing c r seen settled with
  | nil =>
    simp only [accepted, delivered, Finset.union_empty]
    exact ⟨r, h⟩
  | cons op ops ih =>
    obtain ⟨r', hstep⟩ := h.step hl ha hc hpackets hops.1
    obtain ⟨r'', hrun⟩ := ih hstep (wf_step hl hc op) hops.2
    simp only [accepted, delivered, ← Finset.union_assoc]
    exact ⟨r'', hrun⟩

end NetworkPacketCipher

/-! ## The filter of the relay -/

/-- The decisions of a filter on packets that come one after the other: what it lets through, it records. -/
def decisions {σ : Type} (refuses : σ → EncryptedNetworkPacket → Bool) (record : σ → EncryptedNetworkPacket → σ) :
    σ → List EncryptedNetworkPacket → List Bool
  | _, [] => []
  | s, p :: ps =>
    if refuses s p then false :: decisions refuses record s ps else true :: decisions refuses record (record s p) ps

/-- The two windows hold the same packets. The relay takes a highest number of zero for an empty window. -/
def SameWindow (replay : FanoutReplay) (r : PeerReceiver) : Prop :=
  if r.initialized then replay.highest ≠ 0 ∧ replay.highest = r.highestSequence ∧ replay.seen = r.seenSequences ∧
    replay.noncePrefix = r.noncePrefix
  else replay.highest = 0 ∧ replay.seen = 0

theorem SameWindow.refuses {replay : FanoutReplay} {r : PeerReceiver} (h : SameWindow replay r)
    (p : EncryptedNetworkPacket) : Service.replayed replay p = r.refuses p := by
  unfold SameWindow at h
  unfold Service.replayed PeerReceiver.refuses
  split at h
  · rename_i hinit
    obtain ⟨hhighest, heq, hseen, hleading⟩ := h
    have hstart : Service.noncePrefix p = p.prefixOfNonce := rfl
    rw [heq] at hhighest
    simp only [heq, hseen, hleading, hstart, hinit, hhighest, ne_eq, not_false_eq_true, decide_true, Bool.true_and,
      acceptSequence]
    congr 1
    split
    · rename_i hlt
      simp [UInt32.not_le.2 hlt]
    · rename_i hle
      have hfar : decide (64 ≤ r.highestSequence - p.sequence) = !decide (r.highestSequence - p.sequence < 64) := by
        rw [← decide_not]
        exact decide_eq_decide.2 UInt32.not_lt.symm
      simp only [UInt32.not_lt.1 hle, decide_true, Bool.true_and, Bool.not_and, hfar, decide_not]
  · rename_i hinit
    simp [h.1, hinit]

theorem SameWindow.record {replay : FanoutReplay} {r : PeerReceiver} (h : SameWindow replay r)
    {p : EncryptedNetworkPacket} (hp : p.sequence ≠ 0) : SameWindow (Service.markSeen replay p) (r.record p) := by
  unfold SameWindow at h
  unfold Service.markSeen PeerReceiver.record
  split at h
  · rename_i hinit
    obtain ⟨hhighest, heq, hseen, hleading⟩ := h
    simp only [hhighest, if_false, hinit, not_true_eq_false]
    rw [heq]
    split
    · simp only [SameWindow, if_true]
      exact ⟨hp, trivial, by rw [hseen], hleading⟩
    · simp only [SameWindow, if_true]
      exact ⟨heq ▸ hhighest, trivial, by rw [hseen], hleading⟩
  · rename_i hinit
    obtain ⟨hhighest, hseen⟩ := h
    have hpos : (0 : UInt32) < p.sequence := UInt32.pos_iff_ne_zero.2 hp
    have hfirst : (if 64 ≤ p.sequence - 0 then 1 else (0 : UInt64) <<< (p.sequence - 0).toUInt64 ||| 1) = 1 := by
      simp
    simp only [hhighest, hseen, if_true, hpos, hinit, Bool.false_eq_true, not_false_eq_true, SameWindow, hfirst]
    exact ⟨hp, trivial, trivial, rfl⟩

theorem SameWindow.decisions {replay : FanoutReplay} {r : PeerReceiver} (h : SameWindow replay r)
    {packets : List EncryptedNetworkPacket} (hp : ∀ p ∈ packets, p.sequence ≠ 0) :
    decisions Service.replayed Service.markSeen replay packets =
      LanLink.decisions PeerReceiver.refuses PeerReceiver.record r packets := by
  induction packets generalizing replay r with
  | nil => rfl
  | cons p packets ih =>
    have hrest : ∀ q ∈ packets, q.sequence ≠ 0 := fun q hq => hp q (by simp [hq])
    simp only [LanLink.decisions, h.refuses p]
    split
    · rw [ih h hrest]
    · rw [ih (h.record (hp p (by simp))) hrest]

/-! ## Exactness -/

namespace NetworkPacketCipher

/-- A cipher just constructed. -/
def Made (crypto : PacketCrypto) (c : NetworkPacketCipher) : Prop :=
  ∃ noncePrefix n e k d key address, make crypto noncePrefix n e k d key address = .ok c

theorem Made.wf {crypto : PacketCrypto} {c : NetworkPacketCipher} (h : Made crypto c) :
    c.Wf crypto ∧ c.nextSequence = 0 := by
  obtain ⟨_, _, _, _, _, _, _, hmake⟩ := h
  exact ⟨(make_ok hmake).1, (make_ok hmake).2.1⟩

/-- `b` holds the network and key of `a`, and has a new entry for it. -/
structure Meets (a b : NetworkPacketCipher) (r : PeerReceiver) : Prop where
  networkId : b.networkId = a.networkId
  keyEpoch : b.keyEpoch = a.keyEpoch
  networkKey : b.networkKey = a.networkKey
  lookup : b.peers.lookup a.ownDeviceId = some r
  session : r.sessionPublicKey = a.ownSessionPublicKey
  address : r.ipv4Address = a.ownIpv4Address
  empty : r.initialized = false

theorem Meets.linked {a b : NetworkPacketCipher} {r : PeerReceiver} (h : Meets a b r) : Linked a b r ∅ ∅ where
  networkId := h.networkId
  keyEpoch := h.keyEpoch
  networkKey := h.networkKey
  lookup := h.lookup
  session := h.session
  address := h.address
  stands := by simp [PeerReceiver.Stands, h.empty]
  subset := by simp
  final := by simp

theorem fits_iff_sup {seen : Finset ℕ} {s : ℕ} (hs : s ∉ seen) :
    Fits 64 seen s ↔ seen = ∅ ∨ seen.sup id < s + 64 := by
  rw [Finset.sup_lt_iff (show (⊥ : ℕ) < s + 64 from Nat.succ_pos _)]
  constructor
  · intro h
    exact .inr h.2
  · rintro (rfl | h)
    · exact ⟨hs, by simp⟩
    · exact ⟨hs, h⟩

/-- A packet of `a` at a receiver: its first delivery is taken if it is less than 64 behind, and opens to what was
sent; no later one is taken. -/
theorem Linked.exact {crypto : PacketCrypto} {a c : NetworkPacketCipher} {r : PeerReceiver} {seen settled : Finset ℕ}
    (h : Linked a c r seen settled) (ha : a.Wf crypto) (hc : c.Wf crypto) {x : Sent}
    (hx : Sealed crypto a x.subnetAddress x.prefixLength x.plaintext x.packet) (haddressed : c.Addressed a.ownDeviceId x) :
    (x.packet.sequence.toNat ∉ settled →
      ((seen = ∅ ∨ seen.sup id < x.packet.sequence.toNat + 64) →
        (decrypt crypto x.packet a.ownDeviceId c).1 = .ok x.plaintext) ∧
      (¬ (seen = ∅ ∨ seen.sup id < x.packet.sequence.toNat + 64) →
        ∃ e, (decrypt crypto x.packet a.ownDeviceId c).1 = .error e)) ∧
    (x.packet.sequence.toNat ∈ settled → ∃ e, (decrypt crypto x.packet a.ownDeviceId c).1 = .error e) := by
  have hdeliver := h.deliver ha hc hx haddressed
  constructor
  · intro hfirst
    have hnew : x.packet.sequence.toNat ∉ seen := fun hs => hfirst (h.subset hs)
    rw [← fits_iff_sup hnew]
    rcases hdeliver with ⟨hfits, c', heq, -⟩ | ⟨hfits, e, heq⟩
    · rw [heq]
      exact ⟨fun _ => rfl, fun hnot => absurd hfits hnot⟩
    · rw [heq]
      exact ⟨fun hyes => absurd hyes hfits, fun _ => ⟨e, rfl⟩⟩
  · intro hlater
    rcases hdeliver with ⟨hfits, -⟩ | ⟨-, e, heq⟩
    · exact absurd hfits (h.final _ hlater)
    · rw [heq]
      exact ⟨e, rfl⟩

/-- A sender numbers its packets from one and uses no nonce twice. A receiver that met it takes the first delivery of
each packet, opened, unless it comes 64 or more behind the newest it took, and no later one. What is rejected changes
nothing. The fan-out filter of the relay decides as an empty window of the cipher does. -/
theorem replay_window_exact (crypto : PacketCrypto) (hl : crypto.Lawful) :
    (∀ a ops, Made crypto a →
      (a.sent crypto ops).map (·.packet.sequence.toNat) = List.range' 1 (a.sent crypto ops).length ∧
      ((a.sent crypto ops).map (·.packet.nonce)).Nodup) ∧
    (∀ a b r sending setup receiving, Made crypto a → Made crypto b → Meets a (b.run crypto setup) r →
      ReceivesAll crypto a (a.sent crypto sending) (b.run crypto setup) receiving →
      ∀ x ∈ a.sent crypto sending, ((b.run crypto setup).run crypto receiving).Addressed a.ownDeviceId x →
        let c := (b.run crypto setup).run crypto receiving
        let seen := accepted crypto a.ownDeviceId (b.run crypto setup) receiving
        let before := delivered crypto a.ownDeviceId (a.sent crypto sending) (b.run crypto setup) receiving
        (x.packet.sequence.toNat ∉ before →
          ((seen = ∅ ∨ seen.sup id < x.packet.sequence.toNat + 64) →
            (decrypt crypto x.packet a.ownDeviceId c).1 = .ok x.plaintext) ∧
          (¬ (seen = ∅ ∨ seen.sup id < x.packet.sequence.toNat + 64) →
            ∃ e, (decrypt crypto x.packet a.ownDeviceId c).1 = .error e)) ∧
        (x.packet.sequence.toNat ∈ before → ∃ e, (decrypt crypto x.packet a.ownDeviceId c).1 = .error e)) ∧
    (∀ (c : NetworkPacketCipher) p d e, (decrypt crypto p d c).1 = .error e → (decrypt crypto p d c).2 = c) ∧
    ∀ (replay : FanoutReplay) (r : PeerReceiver) packets, replay.highest = 0 → replay.seen = 0 → r.initialized = false →
      (∀ p ∈ packets, validPacket p) →
      decisions Service.replayed Service.markSeen replay packets =
        decisions PeerReceiver.refuses PeerReceiver.record r packets := by
  refine ⟨?_, ?_, ?_, ?_⟩
  · intro a ops ha
    obtain ⟨hw, hzero⟩ := ha.wf
    have hsequences := sequence_sent hl hw ops
    rw [hzero] at hsequences
    exact ⟨hsequences, nodup_nonces hl hw ops⟩
  · intro a b r sending setup receiving ha hb hmeets hreceives x hx haddressed
    have hpackets : ∀ y ∈ a.sent crypto sending, Sealed crypto a y.subnetAddress y.prefixLength y.plaintext y.packet :=
      fun y hy => sealed_sent hl ha.wf.1 hy
    obtain ⟨hwf, -⟩ := wf_run hl hb.wf.1 setup
    obtain ⟨r', hlinked⟩ := hmeets.linked.run hl ha.wf.1 hwf hpackets hreceives
    simp only [Finset.empty_union] at hlinked
    exact hlinked.exact ha.wf.1 (wf_run hl hwf receiving).1 (hpackets x hx) haddressed
  · intro c p d e herr
    rcases decrypt_cases crypto c p d with ⟨e', -, heq⟩ | ⟨r, plaintext, -, heq⟩
    · rw [heq]
    · rw [heq] at herr
      cases herr
  · intro replay r packets hhighest hseen hinit hvalid
    refine SameWindow.decisions ?_ fun p hp => (validPacket_iff.1 (hvalid p hp)).2.2.2.2.1
    simp [SameWindow, hinit, hhighest, hseen]

/-- A tag that is a sum over what it authenticates. -/
def sumTag (key : Secret32) (nonce : BitVec 96) (aad ciphertext : Bytes) : BitVec 128 :=
  BitVec.ofNat 128 (key.toNat + nonce.toNat + beNat aad + beNat ciphertext)

/-- Encryption that hides nothing. -/
def plainPacketCrypto : PacketCrypto where
  sha256 bytes := BitVec.ofNat 256 (beNat bytes)
  scrypt _ _ := none
  verifySignature _ _ _ := true
  hkdf key _ info := BitVec.ofNat 256 (beNat key + beNat info)
  aesGcmEncrypt key nonce aad plaintext := (plaintext, sumTag key nonce aad plaintext)
  aesGcmDecrypt key nonce aad ciphertext tag := if tag = sumTag key nonce aad ciphertext then some ciphertext else none

theorem plainPacketCrypto_lawful : plainPacketCrypto.Lawful where
  decrypt_encrypt := by simp [plainPacketCrypto]
  length_encrypt := by simp [plainPacketCrypto]

def sampleKey (d : DeviceId) : SignedDeviceKey :=
  { identityPublicKey := d, encryptionPublicKey := d + 10, clientNonce := 0, serverNonce := 0, signature := 0 }

/-- The device with a number, in network 8 with key 5, at the host address of that number. -/
def sampleCipher (d : DeviceId) (address : UInt32) : NetworkPacketCipher :=
  { networkId := 8, keyEpoch := 1, networkKey := 5, ownDeviceId := d, ownSessionPublicKey := d + 10,
    ownIpv4Address := address, outgoingKey := deriveSenderKey plainPacketCrypto 5 8 1 d (d + 10), outgoingNoncePrefix := 7 }

def sampleState (own : UInt32) (peer : DeviceId) (address : UInt32) : NetworkPeerState :=
  { networkId := 8, revision := 1, subnetAddress := 0x0a400000, prefixLength := 24, ownAddress := own
    peers := [{ deviceId := peer, ipv4Address := address, signedKey := some (sampleKey peer) }]
    ownerDeviceId := 2, keyEpoch := 1 }

def samplePlaintext : Bytes := [0x45, 0, 0, 20, 0, 0, 0, 0, 64, 17, 0, 0, 10, 64, 0, 1, 10, 64, 0, 2]

def sampleSender : NetworkPacketCipher := sampleCipher 2 0x0a400001
def sampleReceiver : NetworkPacketCipher := sampleCipher 3 0x0a400002

def sampleSending : List CipherOp :=
  [.updatePeers (sampleState 0x0a400001 3 0x0a400002), .encrypt samplePlaintext, .encrypt samplePlaintext]

def sampleSetup : List CipherOp := [.updatePeers (sampleState 0x0a400002 2 0x0a400001)]

def samplePacket (sequence : UInt32) : EncryptedNetworkPacket :=
  { networkId := 8, destinationIpv4 := 0x0a400002, keyEpoch := 1, sequence, nonce := (7 : BitVec 64) ++ sequence.toBitVec
    ciphertext := samplePlaintext, tag := BitVec.ofNat 128 (0x401100000a40001414800014 + sequence.toNat) }

/-- The second packet came first; the first is still taken. -/
theorem replay_window_exact_late :
    (decrypt plainPacketCrypto (samplePacket 1) 2 ((sampleReceiver.run plainPacketCrypto sampleSetup).run plainPacketCrypto
      [.decrypt (samplePacket 2) 2])).1 = .ok samplePlaintext := by
  refine (((replay_window_exact plainPacketCrypto plainPacketCrypto_lawful).2.1 sampleSender sampleReceiver
    { sessionPublicKey := 12, ipv4Address := 0x0a400001
      encryptionKey := deriveSenderKey plainPacketCrypto 5 8 1 2 12 } sampleSending sampleSetup
    [.decrypt (samplePacket 2) 2] ⟨7, 8, 1, 5, 2, sampleKey 2, 0x0a400001, rfl⟩
    ⟨7, 8, 1, 5, 3, sampleKey 3, 0x0a400002, rfl⟩ ⟨rfl, rfl, rfl, by decide +kernel, rfl, rfl, rfl⟩
    ⟨fun _ => .inl ⟨⟨samplePacket 2, samplePlaintext, 0x0a400000, 24⟩, by decide +kernel, rfl, by decide +kernel⟩, trivial⟩
    ⟨samplePacket 1, samplePlaintext, 0x0a400000, 24⟩ (by decide +kernel) (by decide +kernel)).1 (by decide +kernel)).1 ?_
  exact .inr (by decide +kernel)

end NetworkPacketCipher

end LanLink
