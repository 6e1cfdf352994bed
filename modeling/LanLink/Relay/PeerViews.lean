import LanLink.Relay.Runs
/-!
# What a peer state depends on

A peer state of a network is put together from rows of the store, the active
keys of its members, their capability when the network is managed, and its key
epoch. `SameView` says that none of this changed. Then the peer states are the
same ones, in every field.
-/
open LanLink.Lib LanLink.Lib.Action

namespace LanLink

/-- Nothing that a peer state of `n` depends on is different. -/
structure SameView (n : NetworkId) (c c' : Core) : Prop where
  network : c'.tables.networks.lookup n = c.tables.networks.lookup n
  subnet : c'.tables.subnets.lookup n = c.tables.subnets.lookup n
  memberships : ∀ d, c'.tables.memberships.lookup (n, d) = c.tables.memberships.lookup (n, d)
  leases : ∀ d, c'.tables.leases.lookup (n, d) = c.tables.leases.lookup (n, d)
  policy : c'.tables.policy n = c.tables.policy n
  epoch : c'.keyEpochFor n = c.keyEpochFor n
  keys : ∀ d, (n, d) ∈ c.tables.leases → c'.activeKeys.lookup d = c.activeKeys.lookup d
  capable : (c.tables.policy n).managed → ∀ d, (n, d) ∈ c.tables.leases →
    (d ∈ c'.managementCapable ↔ d ∈ c.managementCapable)

namespace SameView
variable {n : NetworkId} {c c' c'' : Core}

theorem refl (n : NetworkId) (c : Core) : SameView n c c :=
  ⟨rfl, rfl, fun _ => rfl, fun _ => rfl, rfl, rfl, fun _ _ => rfl, fun _ _ _ => Iff.rfl⟩

theorem mem_leases (h : SameView n c c') (d : DeviceId) : (n, d) ∈ c'.tables.leases ↔ (n, d) ∈ c.tables.leases := by
  rw [Map.mem_iff_lookup, Map.mem_iff_lookup, h.leases d]

theorem trans (h : SameView n c c') (h' : SameView n c' c'') : SameView n c c'' where
  network := h'.network.trans h.network
  subnet := h'.subnet.trans h.subnet
  memberships d := (h'.memberships d).trans (h.memberships d)
  leases d := (h'.leases d).trans (h.leases d)
  policy := h'.policy.trans h.policy
  epoch := h'.epoch.trans h.epoch
  keys d hd := (h'.keys d ((h.mem_leases d).2 hd)).trans (h.keys d hd)
  capable hm d hd := by
    have hm' : (c'.tables.policy n).managed := by rwa [h.policy]
    exact (h'.capable hm' d ((h.mem_leases d).2 hd)).trans (h.capable hm d hd)

/-- The tables may change elsewhere. -/
theorem of_tables {t : Tables} (network : t.networks.lookup n = c.tables.networks.lookup n)
    (subnet : t.subnets.lookup n = c.tables.subnets.lookup n)
    (memberships : ∀ d, t.memberships.lookup (n, d) = c.tables.memberships.lookup (n, d))
    (leases : ∀ d, t.leases.lookup (n, d) = c.tables.leases.lookup (n, d)) (policy : t.policy n = c.tables.policy n) :
    SameView n c (c.withTables t) :=
  ⟨network, subnet, memberships, leases, policy, rfl, fun _ _ => rfl, fun _ _ _ => Iff.rfl⟩

end SameView

/-! ## Lists of leases -/

/-- Leases are listed by address, whatever the order of the rows is. -/
theorem Db.listVirtualIpv4Leases_congr {db db' : Db} {n : NetworkId} (hw : db.Wf)
    (h : ∀ d, db'.leases.lookup (n, d) = db.leases.lookup (n, d)) :
    db'.listVirtualIpv4Leases n = db.listVirtualIpv4Leases n := by
  by_cases hn : n = 0
  · subst hn
    rfl
  obtain ⟨leases, hl⟩ : ∃ leases, db.listVirtualIpv4Leases n = .ok leases :=
    ⟨_, by rw [Db.listVirtualIpv4Leases, requireNetworkId, check_of hn, ok_bind]⟩
  obtain ⟨leases', hl'⟩ : ∃ leases, db'.listVirtualIpv4Leases n = .ok leases :=
    ⟨_, by rw [Db.listVirtualIpv4Leases, requireNetworkId, check_of hn, ok_bind]⟩
  have hsame (l : LeaseRecord) : l ∈ leases' ↔ l ∈ leases := by
    rw [Db.mem_listVirtualIpv4Leases hl, Db.mem_listVirtualIpv4Leases hl', h]
  have hperm : leases'.Perm leases :=
    (List.perm_ext_iff_of_nodup (List.Nodup.of_map _ (Service.nodup_leases hl'))
      (List.Nodup.of_map _ (Service.nodup_leases hl))).2 hsame
  -- no two leases have one address, so the order by address is the only one
  have hdistinct : ∀ a b : LeaseRecord, a ∈ leases' → b ∈ leases → a.address ≤ b.address → b.address ≤ a.address → a = b := by
    intro a b ha hb hab hba
    obtain ⟨x, hx, hxa⟩ := (Db.mem_listVirtualIpv4Leases hl).1 ((hsame a).1 ha)
    obtain ⟨y, hy, hyb⟩ := (Db.mem_listVirtualIpv4Leases hl).1 hb
    have haddress : a.address = b.address := UInt32.le_antisymm hab hba
    have hkey := hw.addressed.lease_distinct _ _ x y hx hy (hxa.trans (haddress.trans hyb.symm))
    cases a
    cases b
    cases hkey
    cases haddress
    rfl
  have hsorted {db : Db} {leases : List LeaseRecord} (h : db.listVirtualIpv4Leases n = .ok leases) :
      leases.Pairwise fun a b => a.address ≤ b.address := by
    simp only [Db.listVirtualIpv4Leases, requireNetworkId, bind_eq_ok, check_eq_ok, Except.ok.injEq, exists_const] at h
    rw [← h.2]
    have : Std.Total fun a b : LeaseRecord => a.address ≤ b.address := ⟨fun a b => UInt32.le_total _ _⟩
    have : IsTrans LeaseRecord fun a b => a.address ≤ b.address := ⟨fun a b c => UInt32.le_trans⟩
    exact List.pairwise_insertionSort _ _
  rw [hl, hl', List.Perm.eq_of_pairwise hdistinct (hsorted hl') (hsorted hl) hperm]

namespace Service
variable {s s' : Service} {n : NetworkId} {d : DeviceId}

/-! ## Peer states -/

/-- What `make_peer_state` finds in the tables. -/
theorem assemblePeerState_ok {subnet : UInt32} {leases : List LeaseRecord} {revision epoch : UInt64} {owner : DeviceId}
    {keys : Map DeviceId ActiveKey} {state : NetworkPeerState}
    (h : assemblePeerState n subnet leases d revision owner epoch keys = .ok state) :
    leases.length ≤ maxNetworkPeerEntries + 1 ∧ ∃ own, leases.find? (·.deviceId = d) = some own ∧
      state = { networkId := n, revision, subnetAddress := subnet, prefixLength := virtualIpv4PrefixLength,
                ownAddress := own.address, ownerDeviceId := owner, keyEpoch := epoch,
                peers := (leases.filter fun l => l.deviceId ≠ d).map fun l =>
                  { deviceId := l.deviceId, ipv4Address := l.address,
                    signedKey := (keys.lookup l.deviceId).map (·.signedKey) } } := by
  unfold assemblePeerState at h
  split at h
  · cases h
  · rename_i own hown
    simp only [bind_eq_ok, check_eq_ok, Except.ok.injEq, exists_const] at h
    exact ⟨h.1, own, hown, h.2.symm⟩

/-- A peer state is a function of the view. -/
theorem makePeerState_congr (hw : s.tables.Wf) (h : SameView n s.core s'.core) (revision : UInt64) :
    s'.makePeerState n d revision = s.makePeerState n d revision := by
  have hsubnet : s'.store.findSubnet n = s.store.findSubnet n := by
    simp only [Db.findSubnet]
    rw [show s'.store.subnets.lookup n = s.store.subnets.lookup n from h.subnet]
  have hnetwork : s'.store.findNetwork n = s.store.findNetwork n := by
    simp only [Db.findNetwork]
    rw [show s'.store.networks.lookup n = s.store.networks.lookup n from h.network]
  have hleases : s'.store.listVirtualIpv4Leases n = s.store.listVirtualIpv4Leases n :=
    Db.listVirtualIpv4Leases_congr hw h.leases
  have hpolicy : s'.store.networkPolicy n = s.store.networkPolicy n := h.policy
  have hepoch : s'.keyEpochFor n = s.keyEpochFor n := h.epoch
  unfold makePeerState
  rw [hsubnet, hnetwork, hleases, hpolicy, hepoch]
  refine bind_congr fun subnet => bind_congr fun network => ?_
  cases hl : s.store.listVirtualIpv4Leases n with
  | error e => cases subnet <;> cases network <;> rfl
  | ok leases =>
    have hmem {l : LeaseRecord} (hmem : l ∈ leases) : (n, l.deviceId) ∈ s.core.tables.leases := by
      obtain ⟨a, ha, -⟩ := (Db.mem_listVirtualIpv4Leases hl).1 hmem
      exact Map.mem_of_lookup ha
    have hassemble (subnet : UInt32) (owner : DeviceId) (epoch : UInt64) :
        assemblePeerState n subnet leases d revision owner epoch s'.activeKeys =
          assemblePeerState n subnet leases d revision owner epoch s.activeKeys := by
      unfold assemblePeerState
      split
      · rfl
      · refine bind_congr fun _ => ?_
        congr 2
        refine List.map_congr_left fun l hl => ?_
        rw [show s'.activeKeys.lookup l.deviceId = s.activeKeys.lookup l.deviceId from
          h.keys _ (hmem (List.mem_of_mem_filter hl))]
    cases subnet with
    | none => rfl
    | some subnet =>
    cases network with
    | none => rfl
    | some network =>
      dsimp only
      rw [ok_bind, ok_bind, hassemble]
      cases hstate : assemblePeerState n subnet leases d revision network.ownerDeviceId (s.keyEpochFor n) s.activeKeys with
      | error e => rfl
      | ok state =>
        obtain ⟨-, own, -, rfl⟩ := assemblePeerState_ok hstate
        rw [ok_bind, ok_bind]
        by_cases hmanaged : (s.store.networkPolicy n).managed
        · rw [if_pos hmanaged, if_pos hmanaged]
          congr 2
          refine List.map_congr_left fun peer hpeer => ?_
          obtain ⟨l, hl, rfl⟩ := List.mem_map.1 hpeer
          have hcapable := h.capable hmanaged l.deviceId (hmem (List.mem_of_mem_filter hl))
          simp only [show l.deviceId ∈ s'.managementCapable ↔ l.deviceId ∈ s.managementCapable from hcapable]
        · rw [if_neg hmanaged, if_neg hmanaged]

theorem makePeerState_ok {revision : UInt64} {state : NetworkPeerState} (h : s.makePeerState n d revision = .ok state) :
    state.networkId = n ∧ state.revision = revision := by
  simp only [makePeerState, bind_eq_ok] at h
  obtain ⟨subnet, -, network, -, h⟩ := h
  cases subnet with
  | none => cases h
  | some subnet =>
  cases network with
  | none => cases h
  | some network =>
    simp only [bind_eq_ok] at h
    obtain ⟨leases, -, assembled, hassembled, h⟩ := h
    obtain ⟨-, own, -, rfl⟩ := assemblePeerState_ok hassembled
    split at h <;> cases h <;> exact ⟨rfl, rfl⟩

/-- The device gets this state when it asks for it now. -/
def Current (s : Service) (d : DeviceId) (state : NetworkPeerState) : Prop :=
  s.makePeerState state.networkId d (s.revisionFor state.networkId) = .ok state

theorem Current.congr {state : NetworkPeerState} (h : s.Current d state) (hw : s.tables.Wf)
    (hview : SameView state.networkId s.core s'.core)
    (hrevision : s'.revisionFor state.networkId = s.revisionFor state.networkId) : s'.Current d state := by
  unfold Current
  rw [makePeerState_congr hw hview, hrevision]
  exact h

theorem Current.revision {state : NetworkPeerState} (h : s.Current d state) :
    state.revision = s.revisionFor state.networkId := (makePeerState_ok h).2

end Service

end LanLink
