import LanLink.Relay.Gateways
import LanLink.Relay.Revocation
/-!
# Packet delivery

Whom `route_encrypted_packet` sends a packet to. It looks at the sender's
revocation and not at the recipient's: that a recipient is not revoked follows
from its session key.
-/
open LanLink.Lib LanLink.Lib.Action

namespace LanLink.Service

variable {s : Service} {actor : DeviceId} {p : EncryptedNetworkPacket}

/-- The destination is a broadcast or multicast address of the network. -/
def FansOut (s : Service) (p : EncryptedNetworkPacket) : Prop :=
  ∃ subnet, s.tables.subnets.lookup p.networkId = some subnet ∧
    isIpv4FanoutDestination p.destinationIpv4 subnet.val virtualIpv4PrefixLength

/-- A delivery of `p` that `actor` may cause. -/
structure Delivers (s : Service) (actor : DeviceId) (p : EncryptedNetworkPacket) (r : RoutedEncryptedPacket) : Prop where
  sender : r.delivery.senderDeviceId = actor
  packet : r.delivery.packet = p
  distinct : r.recipientDeviceId ≠ actor
  members : (p.networkId, actor) ∈ s.tables.memberships ∧ (p.networkId, r.recipientDeviceId) ∈ s.tables.memberships
  keys : actor ∈ s.activeKeys ∧ r.recipientDeviceId ∈ s.activeKeys
  allowed : ¬ s.core.revoked actor ∧ ¬ s.core.revoked r.recipientDeviceId
  epoch : p.keyEpoch = s.keyEpochFor p.networkId
  capable : (s.tables.policy p.networkId).managed → actor ∈ s.managementCapable ∧ r.recipientDeviceId ∈ s.managementCapable
  policy : policyAllows (s.tables.policy p.networkId) actor r.recipientDeviceId
  fanoutPolicy : s.FansOut p → policyFanoutAllows (s.tables.policy p.networkId) actor r.recipientDeviceId

/-- The deliveries of one packet. -/
structure Deliveries (s : Service) (actor : DeviceId) (p : EncryptedNetworkPacket) (rs : List RoutedEncryptedPacket) :
    Prop where
  each : ∀ r ∈ rs, Delivers s actor p r
  fanout : s.FansOut p → (rs.map (·.recipientDeviceId)).Nodup
  unicast : ¬ s.FansOut p → rs.length ≤ 1 ∧
    ∀ r ∈ rs, ∃ a, s.tables.leases.lookup (p.networkId, r.recipientDeviceId) = some a ∧ a.val = p.destinationIpv4

theorem deliveries_nil : Deliveries s actor p [] where
  each := by simp
  fanout := by simp
  unicast := by simp

/-! ## The parts of the function -/

/-- What the function knows of the sender once it goes on. -/
structure Sends (s : Service) (actor : DeviceId) (p : EncryptedNetworkPacket) (subnet : SubnetAddress) : Prop where
  allowed : ¬ s.core.revoked actor
  key : actor ∈ s.activeKeys
  epoch : p.keyEpoch = s.keyEpochFor p.networkId
  lease : ∃ a, s.tables.leases.lookup (p.networkId, actor) = some a ∧ a.val ≠ p.destinationIpv4
  subnet : s.tables.subnets.lookup p.networkId = some subnet

theorem sends_of_admittedSender {key : ActiveKey} {subnet : SubnetAddress} (hallowed : ¬ s.core.revoked actor)
    (h : s.admittedSender actor p = some (key, subnet)) : Sends s actor p subnet := by
  unfold admittedSender at h
  split at h
  · rename_i network key' a subnet' hn hk ha hs
    split at h
    · cases h
    · rename_i hc
      rw [Option.some.injEq, Prod.mk.injEq] at h
      obtain ⟨rfl, rfl⟩ := h
      rw [not_or, not_not] at hc
      exact ⟨hallowed, Map.mem_of_lookup hk, hc.1, ⟨a, ha, hc.2⟩, hs⟩
  · cases h

theorem Sends.fansOut_iff {subnet : SubnetAddress} (h : Sends s actor p subnet) :
    s.FansOut p ↔ isIpv4FanoutDestination p.destinationIpv4 subnet.val virtualIpv4PrefixLength := by
  constructor
  · rintro ⟨subnet', hs, hf⟩
    rw [h.subnet, Option.some.injEq] at hs
    rwa [hs]
  · intro hf
    exact ⟨subnet, h.subnet, hf⟩

/-- The checks made of a recipient, in both branches. -/
theorem Sends.delivers {subnet : SubnetAddress} (h : Sends s actor p subnet) (hw : s.tables.Wf)
    (hk : s.core.KeysAllowed) {d : DeviceId} {fanout : Bool} (hfanout : s.FansOut p → fanout = true)
    (hne : d ≠ actor) (hlease : (p.networkId, d) ∈ s.tables.leases) (hkey : d ∈ s.activeKeys)
    (htraffic : s.trafficAllowed p.networkId actor d fanout) : Delivers s actor p (deliver actor p d) := by
  obtain ⟨a, ha, -⟩ := h.lease
  have hmember : ∀ e, (p.networkId, e) ∈ s.tables.leases → (p.networkId, e) ∈ s.tables.memberships := fun e =>
    (hw.addressed.lease_member _).1
  simp only [trafficAllowed, Bool.and_eq_true, Bool.or_eq_true, Bool.not_eq_true', decide_eq_true_eq] at htraffic
  obtain ⟨hcapable, hpolicy⟩ := htraffic
  refine ⟨rfl, rfl, hne, ⟨hmember _ (Map.mem_of_lookup ha), hmember _ hlease⟩, ⟨h.key, hkey⟩, ⟨h.allowed, hk d hkey⟩,
    h.epoch, fun hm => ?_, ?_, fun hf => ?_⟩
  · obtain hunmanaged | hcapable := hcapable
    · exact absurd hm (by rw [show (s.tables.policy p.networkId).managed = false from hunmanaged]; simp)
    · exact hcapable
  · cases fanout with
    | true =>
      simp only [if_true, policyFanoutAllows, Bool.and_eq_true] at hpolicy
      exact hpolicy.1
    | false => exact hpolicy
  · rw [hfanout hf, if_pos rfl] at hpolicy
    exact hpolicy

/-- A packet to one address goes to the device that leases it, or nowhere. -/
theorem routeUnicast_cases (s : Service) (actor : DeviceId) (p : EncryptedNetworkPacket) (inputs : Inputs)
    (leases : List LeaseRecord) :
    (s.routeUnicast inputs actor p leases).1 = [] ∨
    ∃ l ∈ leases, l.address = p.destinationIpv4 ∧ l.deviceId ∈ s.activeKeys ∧
      s.trafficAllowed p.networkId actor l.deviceId false ∧
      (s.routeUnicast inputs actor p leases).1 = [deliver actor p l.deviceId] := by
  unfold routeUnicast
  split
  · exact .inl rfl
  · rename_i l hl
    split
    · exact .inl rfl
    · rename_i hc
      rw [not_or, not_not, not_not] at hc
      split
      · exact .inl rfl
      · refine .inr ⟨l, List.mem_of_find?_eq_some hl, ?_, hc.1, hc.2, rfl⟩
        simpa using List.find?_some hl

/-- A packet to a fan-out address goes to all recipients, or nowhere. -/
theorem routeFanout_cases (s : Service) (actor : DeviceId) (p : EncryptedNetworkPacket) (inputs : Inputs)
    (key : ActiveKey) (leases : List LeaseRecord) :
    (s.routeFanout inputs actor key p leases).1 = [] ∨
    (s.routeFanout inputs actor key p leases).1 = (s.fanoutRecipients actor p leases).map (deliver actor p) := by
  unfold routeFanout
  split
  · exact .inl rfl
  · dsimp only
    split
    · exact .inl rfl
    · split
      · exact .inl rfl
      · split
        · exact .inl rfl
        · exact .inr rfl

theorem Sends.unicast {subnet : SubnetAddress} (h : Sends s actor p subnet) (hw : s.tables.Wf) (hk : s.core.KeysAllowed)
    (inputs : Inputs) {leases : List LeaseRecord} (hl : s.store.listVirtualIpv4Leases p.networkId = .ok leases)
    (hf : ¬ s.FansOut p) : Deliveries s actor p (s.routeUnicast inputs actor p leases).1 := by
  obtain hnil | ⟨l, hmem, haddress, hkey, htraffic, heq⟩ := routeUnicast_cases s actor p inputs leases
  · rw [hnil]
    exact deliveries_nil
  · rw [heq]
    obtain ⟨a, ha, hval⟩ := (Db.mem_listVirtualIpv4Leases hl).1 hmem
    have hne : l.deviceId ≠ actor := by
      intro hactor
      obtain ⟨own, hown, hdest⟩ := h.lease
      rw [hactor] at ha
      rw [Option.some.inj (hown.symm.trans ha)] at hdest
      exact hdest (hval.trans haddress)
    refine ⟨?_, fun hf' => absurd hf' hf, fun _ => ⟨by simp, ?_⟩⟩
    · rintro _ (_ | ⟨_, ⟨⟩⟩)
      exact h.delivers hw hk (fun hf' => absurd hf' hf) hne (Map.mem_of_lookup ha) hkey htraffic
    · rintro _ (_ | ⟨_, ⟨⟩⟩)
      exact ⟨a, ha, hval.trans haddress⟩

theorem Sends.fanout {subnet : SubnetAddress} (h : Sends s actor p subnet) (hw : s.tables.Wf) (hk : s.core.KeysAllowed)
    (inputs : Inputs) (key : ActiveKey) {leases : List LeaseRecord}
    (hl : s.store.listVirtualIpv4Leases p.networkId = .ok leases) (hf : s.FansOut p) :
    Deliveries s actor p (s.routeFanout inputs actor key p leases).1 := by
  obtain hnil | heq := routeFanout_cases s actor p inputs key leases
  · rw [hnil]
    exact deliveries_nil
  · rw [heq]
    refine ⟨fun r hr => ?_, fun _ => ?_, fun hf' => absurd hf hf'⟩
    · obtain ⟨d, hd, rfl⟩ := List.mem_map.1 hr
      obtain ⟨l, hl', rfl⟩ := List.mem_map.1 hd
      simp only [List.mem_filter, Bool.and_eq_true, decide_eq_true_eq, ne_eq] at hl'
      obtain ⟨hmem, ⟨hne, hkey⟩, htraffic⟩ := hl'
      obtain ⟨a, ha, -⟩ := (Db.mem_listVirtualIpv4Leases hl).1 hmem
      exact h.delivers hw hk (fun _ => rfl) hne (Map.mem_of_lookup ha) hkey htraffic
    · rw [List.map_map, fanoutRecipients, List.map_map]
      exact (nodup_leases hl).sublist (List.filter_sublist.map _)

/-- Every delivery is one the sender may cause, if no revoked device has a key. -/
theorem routeEncryptedPacket_deliveries (inputs : Inputs) (hw : s.tables.Wf) (hk : s.core.KeysAllowed) :
    Post (routeEncryptedPacket inputs actor p) s (fun r _ => ∀ rs, r = .ok rs → Deliveries s actor p rs) := by
  unfold routeEncryptedPacket
  rw [post_gets_bind, post_ite]
  refine ⟨?_, fun hc => post_lift_bind (fun _ _ => ?_) (by simp)⟩
  · rintro - _ ⟨⟩
    exact deliveries_nil
  · have hallowed : ¬ s.core.revoked actor := by
      rw [not_or, not_not, deviceAllowed_eq, Bool.not_eq_true'] at hc
      simp [hc.2]
    rw [post_gets_bind]
    cases hsender : s.admittedSender actor p with
    | none =>
      rintro _ ⟨⟩
      exact deliveries_nil
    | some sender =>
      obtain ⟨key, subnet⟩ := sender
      have hsends := sends_of_admittedSender hallowed hsender
      refine post_read (fun leases hl => ?_) (by simp)
      rw [post_ite, ← hsends.fansOut_iff]
      refine ⟨?_, ?_⟩
      · rintro hf _ ⟨⟩
        exact hsends.fanout hw hk inputs key hl hf
      · rintro hf _ ⟨⟩
        exact hsends.unicast hw hk inputs hl hf

/-! ## Runs -/

section
variable (crypto : Crypto)

/-- What `route_encrypted_packet` returns is sound. -/
def DeliverySound (s : Service) (inputs : Inputs) (actor : DeviceId) (p : EncryptedNetworkPacket) : Prop :=
  ∀ rs, (routeEncryptedPacket inputs actor p s).1 = .ok rs → Deliveries s actor p rs

/-- In every run whose revocations find room in the counters, every packet is
delivered soundly. -/
theorem delivery_sound (events : ℕ → Event) (hroom : ∀ k, (run crypto events k).RevokesInRoom (events k)) (k : ℕ)
    (inputs : Inputs) (actor : DeviceId) (p : EncryptedNetworkPacket) :
    DeliverySound (run crypto events k) inputs actor p :=
  routeEncryptedPacket_deliveries inputs (wf_run crypto events k) (keysAllowed_run crypto hroom k)

end

/-! ## A laptop in two networks

The operator's account has a laptop, which is a member of two networks. Once
the peer-state revision of the first one is used up, the revocation of the
laptop stops there: the laptop is revoked, keeps its key and its membership in
the second network, and still gets packets. Device ids and keys are their own
hashes here and every signature is good. -/

def plainCrypto : Crypto where
  sha256 bytes := BitVec.ofNat 256 (beNat bytes)
  scrypt _ _ := none
  verifySignature _ _ _ := true

def operator : DeviceId := 2

def laptop : DeviceId := 3

def office : NetworkId := 8

def officeInputs : Inputs := { networkIds := fun _ => .ok office, nonce := .ok 1 }

def keyOf (d : DeviceId) : SignedDeviceKey := ⟨d, d, 0, 0, 0⟩

def enrolling : ℕ → Event
  | 0 => .call (.createNetwork soleOwner ⟨text "lan"⟩ 0) soleInputs
  | 1 => .call (.createNetwork operator ⟨text "office"⟩ 0) officeInputs
  | 2 => .call (.accessRequest operator { action := .accountCreate, text := text "office" } 0) officeInputs
  | 3 => .call (.accessRequest operator { action := .enrollmentIssue } 0) officeInputs
  | 4 => .call (.accessRequest laptop
      { action := .deviceEnroll, secret := randomAccessCode 1, text := text "laptop" } 0) officeInputs
  | 5 => .call (.joinNetwork laptop ⟨soleNetwork⟩ 0) soleInputs
  | 6 => .call (.approveMember soleOwner ⟨soleNetwork, laptop⟩ 0) soleInputs
  | 7 => .call (.joinNetwork laptop ⟨office⟩ 0) soleInputs
  | 8 => .call (.approveMember operator ⟨office, laptop⟩ 0) soleInputs
  | 9 => .call (.publishDeviceKey operator 1 (keyOf operator) 0) soleInputs
  | 10 => .call (.publishDeviceKey laptop 1 (keyOf laptop) 0) soleInputs
  | 11 => announcing
  | 12 => .call (.manageNetwork soleOwner
      { action := .replacePolicy, networkId := soleNetwork, policy := { managed := true } } 0) soleInputs
  | _ => .restart

def revoking : Event := .call (.accessRequest operator { action := .deviceRevoke, deviceId := laptop } 0) soleInputs

/-- To the laptop's address in the office. -/
def toLaptop : EncryptedNetworkPacket where
  networkId := office
  destinationIpv4 := 0x0a400102
  keyEpoch := 3
  sequence := 1
  nonce := 1
  ciphertext := List.replicate 20 0
  tag := 0

theorem enrolling_inRoom (k : ℕ) : (run plainCrypto enrolling k).RevokesInRoom (enrolling k) := by
  intro op inputs d he hrevokes
  obtain ⟨q, ⟨haction, t, hop⟩, -⟩ := hrevokes.call
  generalize op.actor = actor at hop
  rw [hop] at he
  -- no event of this run revokes a device
  match k with
  | 2 | 3 | 4 =>
    cases he
    cases haction
  | 0 | 1 | 5 | 6 | 7 | 8 | 9 | 10 | 11 | 12 => cases he
  | k + 13 => cases he

theorem delivery_sound_enrolling :
    (routeEncryptedPacket soleInputs operator toLaptop (run plainCrypto enrolling 13)).1 =
      .ok [deliver operator toLaptop laptop] ∧
    DeliverySound (run plainCrypto enrolling 13) soleInputs operator toLaptop :=
  ⟨by decide +kernel, delivery_sound plainCrypto enrolling enrolling_inRoom 13 soleInputs operator toLaptop⟩

def stopping : ℕ → Event := repeating enrolling 13 announcing (2 ^ 64 - 5) fun _ => revoking

theorem enrolling_networks : (run plainCrypto enrolling 13).store.listNetworksForDevice soleOwner =
    .ok [{ id := soleNetwork, name := text "lan", ownerDeviceId := soleOwner, createdAtMs := 0 }] := by
  decide +kernel

theorem run_stopping : run plainCrypto stopping (2 ^ 64 + 9) =
    ((run plainCrypto enrolling 13).withRevision soleNetwork uint64Max).step plainCrypto revoking := by
  have hfull := @run_repeating plainCrypto soleInputs enrolling (fun _ => revoking) 13 (2 ^ 64 - 6) soleOwner _
    enrolling_networks (by decide +kernel) (by decide +kernel) (by norm_num) (by decide +kernel)
  have hevent : stopping (13 + (2 ^ 64 - 6 + 1)) = revoking := by
    rw [stopping, repeating, if_neg (by norm_num), if_neg (by norm_num)]
  rw [show 2 ^ 64 + 9 = 13 + (2 ^ 64 - 6 + 1) + 1 by norm_num, run_succ, hevent]
  exact congrArg (fun s => step plainCrypto s revoking) hfull

/-- The revoked laptop gets the packet. -/
theorem delivery_to_revoked : ¬ DeliverySound (run plainCrypto stopping (2 ^ 64 + 9)) soleInputs operator toLaptop := by
  rw [run_stopping]
  intro h
  have hdelivered := (h [deliver operator toLaptop laptop] (by decide +kernel)).each _ List.mem_cons_self
  exact hdelivered.allowed.2 (by decide +kernel)

end LanLink.Service
