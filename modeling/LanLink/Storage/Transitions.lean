import LanLink.Storage.RelayStore
/-!
# What store operations do to the tables

Each operation that succeeds is one of a few changes of the tables, written
here as functions on `Tables`. The lemma of an operation gives the guard that
held and the change it made, so nothing above this module unfolds a statement.
-/
open LanLink.Lib

namespace LanLink

/-! ## Pruning a policy -/

/-- `remove_member` never writes an invalid policy: what it drops is not needed
by what it keeps. -/
theorem Encodable.prune {p : NetworkPolicy} (h : Encodable p) (d : DeviceId) (revision : UInt64) :
    Encodable { Db.pruneMember d p with revision } where
  sizes := by
    have hs := h.sizes
    have hle {α : Type} (q : α → Bool) (l : List α) : (l.filter q).length ≤ l.length := List.length_filter_le q l
    exact ⟨(hle _ _).trans hs.1, (hle _ _).trans hs.2.1, hs.2.2.1, (hle _ _).trans hs.2.2.2.1,
      (hle _ _).trans hs.2.2.2.2.1, (hle _ _).trans hs.2.2.2.2.2⟩
  unmanaged := by
    rcases h.unmanaged with hm | ⟨ht, hh, hr, hg, hm, hw, hs⟩
    · exact .inl hm
    · right
      simp [Db.pruneMember, ht, hh, hr, hg, hm, hw, hs]
  hubs := ⟨fun h0 => h.hubs.1 (List.mem_of_mem_filter h0), h.hubs.2.filter _⟩
  rules r hr := h.rules r (List.mem_of_mem_filter hr)
  groups := h.groups
  members := ⟨fun m hm => h.members.1 m (List.mem_of_mem_filter hm),
    (List.filter_sublist.map _).nodup h.members.2⟩
  gateways := ⟨fun g hg => h.gateways.1 g (List.mem_of_mem_filter hg),
    (List.filter_sublist.map _).nodup h.gateways.2⟩
  routes r hr := by
    obtain ⟨hr, hne⟩ := List.mem_filter.1 hr
    obtain ⟨hsub, hgrp, ⟨g, hg, hgd, hga⟩, htxt⟩ := h.routes r hr
    refine ⟨hsub, hgrp, ⟨g, List.mem_filter.2 ⟨hg, ?_⟩, hgd, hga⟩, htxt⟩
    rw [hgd]; exact hne
  disjoint := h.disjoint.sublist List.filter_sublist

/-- A policy after `d` left: untouched if it did not mention `d`, else pruned
and one revision later. -/
def prunedPolicy (d : DeviceId) (p : NetworkPolicy) : NetworkPolicy :=
  if Db.pruneMember d p = p then p else { Db.pruneMember d p with revision := p.revision + 1 }

theorem prunedPolicy_eq (d : DeviceId) (p : NetworkPolicy) : prunedPolicy d p =
    { Db.pruneMember d p with
      revision := if Db.pruneMember d p = p then p.revision else p.revision + 1 } := by
  unfold prunedPolicy
  split
  · rename_i hsame
    exact hsame.symm
  · rfl

section
variable (d : DeviceId) (p : NetworkPolicy)

@[simp] theorem managed_prunedPolicy : (prunedPolicy d p).managed = p.managed := by
  rw [prunedPolicy_eq]; rfl

@[simp] theorem hubs_prunedPolicy : (prunedPolicy d p).hubs = p.hubs.filter fun hub => hub ≠ d := by
  rw [prunedPolicy_eq]; rfl

@[simp] theorem members_prunedPolicy :
    (prunedPolicy d p).members = p.members.filter fun m => !(m.device = d && m.role ≠ .restricted) := by
  rw [prunedPolicy_eq]; rfl

@[simp] theorem gateways_prunedPolicy : (prunedPolicy d p).gateways = p.gateways.filter fun g => g.device ≠ d := by
  rw [prunedPolicy_eq]; rfl

@[simp] theorem routes_prunedPolicy : (prunedPolicy d p).routes = p.routes.filter fun r => r.gateway ≠ d := by
  rw [prunedPolicy_eq]; rfl

@[simp] theorem rules_prunedPolicy :
    (prunedPolicy d p).rules = p.rules.filter fun r => !(r.first.device = d || r.second.device = d) := by
  rw [prunedPolicy_eq]; rfl

end

theorem Encodable.pruned {p : NetworkPolicy} (h : Encodable p) (d : DeviceId) : Encodable (prunedPolicy d p) := by
  unfold prunedPolicy
  split
  · exact h
  · exact h.prune d _

theorem pruneMember_default (d : DeviceId) : Db.pruneMember d {} = {} := rfl

theorem prunedPolicy_default (d : DeviceId) : prunedPolicy d {} = {} := by
  simp [prunedPolicy, pruneMember_default]

/-! ## Changes of the tables -/

namespace Tables

/-- A new network with its subnet. -/
@[simps] def found (t : Tables) (n : NetworkId) (network : Network) (base : SubnetAddress) : Tables :=
  { t with networks := t.networks.insert n network, subnets := t.subnets.insert n base }

/-- A new member with its address; what was pending for it is gone. -/
@[simps] def join (t : Tables) (n : NetworkId) (d : DeviceId) (row : Membership) (a : LeaseAddress) : Tables :=
  { t with
    memberships := t.memberships.insert (n, d) row
    leases := t.leases.insert (n, d) a
    invitations := t.invitations.erase (n, d)
    joinRequests := t.joinRequests.erase (n, d) }

@[simps] def setAccess (t : Tables) (n : NetworkId) (verifier : Option PasswordVerifier) : Tables :=
  { t with access := match verifier with
    | some v => t.access.insert n v
    | none => t.access.erase n }

/-- A new network: its row, its subnet, its owner's membership and perhaps a
password. -/
def create (t : Tables) (n : NetworkId) (network : Network) (base : SubnetAddress) (a : LeaseAddress) :
    Option PasswordVerifier → Tables
  | none => (t.found n network base).join n network.ownerDeviceId { role := .owner, joinedAtMs := network.createdAtMs } a
  | some verifier => ((t.found n network base).join n network.ownerDeviceId
      { role := .owner, joinedAtMs := network.createdAtMs } a).setAccess n (some verifier)

/-- The policies after `d` left `n`. -/
def prunedPolicies (t : Tables) (n : NetworkId) (d : DeviceId) : Map NetworkId PolicyDocument :=
  match t.policies.lookup n with
  | some document =>
    if Db.pruneMember d document.policy = document.policy then t.policies
    else t.policies.insert n ⟨prunedPolicy d document.policy, document.encodable.pruned d⟩
  | none => t.policies

/-- A member gone, with its address and its mentions in the policy. -/
@[simps] def leave (t : Tables) (n : NetworkId) (d : DeviceId) : Tables :=
  { t with
    memberships := t.memberships.erase (n, d)
    leases := t.leases.erase (n, d)
    policies := t.prunedPolicies n d }

@[simps] def invite (t : Tables) (n : NetworkId) (d : DeviceId) (atMs : ℤ) : Tables :=
  { t with invitations := t.invitations.insert (n, d) atMs }

@[simps] def request (t : Tables) (n : NetworkId) (d : DeviceId) (atMs : ℤ) : Tables :=
  { t with joinRequests := t.joinRequests.insert (n, d) atMs }

/-- A use of a link: the device holds an invitation instead of a request. -/
@[simps] def redeem (t : Tables) (n : NetworkId) (digest : Digest) (link : InvitationLink) (d : DeviceId) (atMs : ℤ) :
    Tables :=
  { t with
    joinRequests := t.joinRequests.erase (n, d)
    invitations := if (n, d) ∈ t.invitations ∨ atMs < 0 then t.invitations else t.invitations.insert (n, d) atMs
    links := t.links.insert digest { link with remaining := link.remaining - 1 } }

@[simps] def issueLink (t : Tables) (digest : Digest) (link : InvitationLink) (nowMs : ℤ) : Tables :=
  { t with links := (t.links.eraseIf fun _ l => l.expiresMs ≤ nowMs || l.remaining = 0).insert digest link }

@[simps] def dropLinks (t : Tables) (n : NetworkId) : Tables :=
  { t with links := t.links.eraseIf fun _ link => link.networkId = n }

@[simps] def savePolicy (t : Tables) (n : NetworkId) (document : PolicyDocument) : Tables :=
  { t with policies := t.policies.insert n document }

@[simps] def openAccount (t : Tables) (id : AccountId) (account : Account) : Tables :=
  { t with
    accounts := t.accounts.insert id account
    accountDevices := t.accountDevices.insert account.owner { accountId := id, label := account.name, revoked := false } }

@[simps] def offerEnrollment (t : Tables) (id : AccountId) (enrollment : Enrollment) : Tables :=
  { t with enrollments := t.enrollments.insert id enrollment }

@[simps] def enroll (t : Tables) (id : AccountId) (digest : Digest) (d : DeviceId) (label : Text) : Tables :=
  { t with
    accountDevices := t.accountDevices.insert d { accountId := id, label, revoked := false }
    enrollments := t.enrollments.eraseIf fun _ row => row.digest = digest }

@[simps] def revoke (t : Tables) (d : DeviceId) (row : AccountDeviceRow) : Tables :=
  { t with accountDevices := t.accountDevices.insert d { row with revoked := true } }

/-- The rows that refer to a network go with it. -/
@[simps] def drop (t : Tables) (n : NetworkId) : Tables :=
  { t with
    networks := t.networks.erase n
    memberships := t.memberships.eraseIf fun key _ => key.1 = n
    invitations := t.invitations.eraseIf fun key _ => key.1 = n
    joinRequests := t.joinRequests.eraseIf fun key _ => key.1 = n
    subnets := t.subnets.erase n
    leases := t.leases.eraseIf fun key _ => key.1 = n
    access := t.access.erase n
    links := t.links.eraseIf fun _ link => link.networkId = n
    policies := t.policies.erase n }

theorem policy_savePolicy (t : Tables) (n m : NetworkId) (document : PolicyDocument) :
    (t.savePolicy n document).policy m = if m = n then document.policy else t.policy m := by
  simp only [policy, savePolicy_policies, Map.lookup_insert]
  by_cases hm : m = n <;> simp [hm]

theorem policy_leave (t : Tables) (n m : NetworkId) (d : DeviceId) :
    (t.leave n d).policy m = if m = n then prunedPolicy d (t.policy n) else t.policy m := by
  simp only [policy, leave_policies, prunedPolicies]
  cases hl : t.policies.lookup n with
  | none =>
    by_cases hm : m = n
    · subst m; simp [hl, prunedPolicy_default]
    · simp [hm]
  | some document =>
    by_cases hp : Db.pruneMember d document.policy = document.policy <;> by_cases hm : m = n
    · subst m; simp [hl, prunedPolicy, hp]
    · simp [hp, hm]
    · subst m; simp [hp]
    · simp [hp, hm]

theorem mem_prunedPolicies (t : Tables) (n m : NetworkId) (d : DeviceId) :
    m ∈ t.prunedPolicies n d ↔ m ∈ t.policies := by
  unfold prunedPolicies
  split
  · rename_i document hl
    split
    · rfl
    · rw [AList.mem_insert]
      exact ⟨by rintro (rfl | h); exacts [Map.mem_of_lookup hl, h], .inr⟩
  · rfl

end Tables

/-! ## Queries -/

namespace Db
variable {db db' : Db} {n : NetworkId} {d : DeviceId}

theorem requireNetworkId_ok {u : Unit} : requireNetworkId n = .ok u ↔ n ≠ 0 := check_eq_ok

theorem requireDeviceId_ok {u : Unit} : requireDeviceId d = .ok u ↔ d ≠ 0 := check_eq_ok

theorem findNetwork_ok {r : Option NetworkRecord} :
    db.findNetwork n = .ok r ↔ n ≠ 0 ∧ (db.networks.lookup n).map (fun network => .ofRow (n, network)) = r := by
  simp only [findNetwork, bind_eq_ok, requireNetworkId_ok, Except.ok.injEq, exists_const]

theorem findNetwork_some {network : NetworkRecord} (h : db.findNetwork n = .ok (some network)) :
    db.owner n = some network.ownerDeviceId ∧ n ∈ db.networks := by
  obtain ⟨-, h⟩ := findNetwork_ok.1 h
  obtain ⟨row, hrow, rfl⟩ := Option.map_eq_some_iff.1 h
  refine ⟨?_, Map.mem_of_lookup hrow⟩
  simp [Tables.owner, hrow, NetworkRecord.ofRow]

theorem findSubnet_ok {r : Option UInt32} :
    db.findSubnet n = .ok r ↔ n ≠ 0 ∧ (db.subnets.lookup n).map (·.val) = r := by
  simp only [findSubnet, bind_eq_ok, requireNetworkId_ok, Except.ok.injEq, exists_const]

theorem findVirtualIpv4Lease_ok {r : Option UInt32} :
    db.findVirtualIpv4Lease n d = .ok r ↔ n ≠ 0 ∧ d ≠ 0 ∧ (db.leases.lookup (n, d)).map (·.val) = r := by
  simp only [findVirtualIpv4Lease, bind_eq_ok, requireNetworkId_ok, requireDeviceId_ok, Except.ok.injEq, exists_const]

theorem findVirtualIpv4Lease_isSome {r : Option UInt32} (h : db.findVirtualIpv4Lease n d = .ok r) :
    r.isSome ↔ (n, d) ∈ db.leases := by
  obtain ⟨-, -, rfl⟩ := findVirtualIpv4Lease_ok.1 h
  rw [Option.isSome_map, AList.lookup_isSome]

theorem findInvitation_ok {r : Option ℤ} :
    db.findInvitation n d = .ok r ↔ n ≠ 0 ∧ d ≠ 0 ∧ db.invitations.lookup (n, d) = r := by
  simp only [findInvitation, bind_eq_ok, requireNetworkId_ok, requireDeviceId_ok, Except.ok.injEq, exists_const]

theorem findInvitation_isSome {r : Option ℤ} (h : db.findInvitation n d = .ok r) :
    r.isSome ↔ (n, d) ∈ db.invitations := by
  obtain ⟨-, -, rfl⟩ := findInvitation_ok.1 h
  exact AList.lookup_isSome

theorem findJoinRequest_ok {r : Option ℤ} :
    db.findJoinRequest n d = .ok r ↔ n ≠ 0 ∧ d ≠ 0 ∧ db.joinRequests.lookup (n, d) = r := by
  simp only [findJoinRequest, bind_eq_ok, requireNetworkId_ok, requireDeviceId_ok, Except.ok.injEq, exists_const]

theorem findJoinRequest_isSome {r : Option ℤ} (h : db.findJoinRequest n d = .ok r) :
    r.isSome ↔ (n, d) ∈ db.joinRequests := by
  obtain ⟨-, -, rfl⟩ := findJoinRequest_ok.1 h
  exact AList.lookup_isSome

theorem mem_listVirtualIpv4Leases {leases : List LeaseRecord} (h : db.listVirtualIpv4Leases n = .ok leases)
    {l : LeaseRecord} : l ∈ leases ↔ ∃ a, db.leases.lookup (n, l.deviceId) = some a ∧ a.val = l.address := by
  simp only [listVirtualIpv4Leases, bind_eq_ok, requireNetworkId_ok, Except.ok.injEq, exists_const] at h
  obtain ⟨-, rfl⟩ := h
  simp only [List.mem_insertionSort, List.mem_map, List.mem_filter, Map.mem_rows, decide_eq_true_eq]
  constructor
  · rintro ⟨⟨⟨m, d⟩, a⟩, ⟨ha, rfl⟩, rfl⟩
    exact ⟨a, ha, rfl⟩
  · rintro ⟨a, ha, hla⟩
    refine ⟨((n, l.deviceId), a), ⟨ha, rfl⟩, ?_⟩
    cases l
    simp_all

theorem mem_listNetworksForDevice {networks : List NetworkRecord} (h : db.listNetworksForDevice d = .ok networks)
    {r : NetworkRecord} :
    r ∈ networks ↔ ∃ row, db.networks.lookup r.id = some row ∧ r = .ofRow (r.id, row) ∧ (r.id, d) ∈ db.memberships := by
  simp only [listNetworksForDevice, bind_eq_ok, requireDeviceId_ok, Except.ok.injEq, exists_const] at h
  obtain ⟨-, rfl⟩ := h
  simp only [List.mem_insertionSort, List.mem_map, List.mem_filter, Map.mem_rows, decide_eq_true_eq]
  constructor
  · rintro ⟨⟨m, row⟩, ⟨hrow, hm⟩, rfl⟩
    exact ⟨row, hrow, rfl, hm⟩
  · rintro ⟨row, hrow, hr, hm⟩
    exact ⟨(r.id, row), ⟨hrow, hm⟩, hr.symm⟩

theorem nodup_listNetworksForDevice {networks : List NetworkRecord} (h : db.listNetworksForDevice d = .ok networks) :
    (networks.map (·.id)).Nodup := by
  simp only [listNetworksForDevice, bind_eq_ok, requireDeviceId_ok, Except.ok.injEq, exists_const] at h
  obtain ⟨-, rfl⟩ := h
  refine (((List.perm_insertionSort _ _).map _).nodup_iff).2 ?_
  rw [List.map_map]
  exact (List.filter_sublist.map _).nodup (Map.nodup_rows db.networks)

/-! ## Statements and operations -/

theorem recordDevice_ok {t : ℤ} {u : Unit} (h : db.recordDevice d t = .ok (u, db')) :
    d ≠ 0 ∧ 0 ≤ t ∧ db'.toTables = db.toTables ∧ ∀ e, e ∈ db'.devices ↔ e = d ∨ e ∈ db.devices := by
  simp only [recordDevice, requireDeviceId, requireTimestamp, bind_eq_ok, check_eq_ok, Except.ok.injEq,
    Prod.mk.injEq, exists_const, true_and] at h
  obtain ⟨hd, ht, rfl⟩ := h
  exact ⟨hd, ht, rfl, fun e => AList.mem_insert _⟩

theorem insertNetwork_ok {network : Network} (h : db.insertNetwork n network = .ok db') :
    n ∉ db.networks ∧ network.ownerDeviceId ∈ db.devices ∧
      db' = { db with networks := db.networks.insert n network } := by
  simp only [insertNetwork, bind_eq_ok, check_eq_ok, Except.ok.injEq, exists_const] at h
  obtain ⟨-, -, hn, ho, rfl⟩ := h
  exact ⟨hn, ho, rfl⟩

/-- The address is not leased. -/
def Unleased (t : Tables) (a : LeaseAddress) : Prop := ∀ key b, t.leases.lookup key = some b → b.val ≠ a.val

/-- The subnet is not assigned. -/
def Unassigned (t : Tables) (base : SubnetAddress) : Prop := ∀ m b, t.subnets.lookup m = some b → b.val ≠ base.val

/-- The address belongs to the network's `/24`. -/
def InSubnet (t : Tables) (n : NetworkId) (a : LeaseAddress) : Prop :=
  ∃ base, t.subnets.lookup n = some base ∧ base.val = a.val - a.val % 256

theorem insertSubnet_ok (h : db.insertSubnet n = .ok db') :
    ∃ base, n ∉ db.subnets ∧ Unassigned db.toTables base ∧ n ∈ db.networks ∧
      db' = { db with subnets := db.subnets.insert n base } := by
  simp only [insertSubnet, bind_eq_ok, check_eq_ok, exists_const] at h
  obtain ⟨-, h⟩ := h
  split at h
  · rename_i hc
    simp only [bind_eq_ok, check_eq_ok, Except.ok.injEq, exists_const, List.all_eq_true, decide_eq_true_eq] at h
    obtain ⟨hs, hu, hn, rfl⟩ := h
    exact ⟨⟨_, hc⟩, hs, fun m b hb => hu (m, b) (Map.mem_rows.2 hb), hn, rfl⟩
  · cases h

theorem insertLease_ok (h : db.insertLease n d = .ok db') :
    ∃ a, InSubnet db.toTables n a ∧ Unleased db.toTables a ∧ (n, d) ∉ db.leases ∧ (n, d) ∈ db.memberships ∧
      db' = { db with leases := db.leases.insert (n, d) a } := by
  simp only [insertLease] at h
  split at h
  · cases h
  · rename_i base hbase
    simp only [bind_eq_ok, check_eq_ok, exists_const] at h
    obtain ⟨-, hsub, h⟩ := h
    split at h
    · rename_i hc
      simp only [bind_eq_ok, check_eq_ok, Except.ok.injEq, exists_const, List.all_eq_true, decide_eq_true_eq] at h
      obtain ⟨hl, hu, hm, rfl⟩ := h
      exact ⟨⟨_, hc⟩, ⟨base, hbase, hsub⟩, fun key b hb => hu (key, b) (Map.mem_rows.2 hb), hl, hm, rfl⟩
    · cases h

theorem insertMembership_ok {orIgnore inserted : Bool} {row : Membership}
    (h : db.insertMembership orIgnore n d row = .ok (inserted, db')) :
    (inserted = false ∧ orIgnore ∧ db' = db) ∨
      (inserted = true ∧ (row.role = .owner → db.owner n = some d) ∧ (n, d) ∉ db.memberships ∧ n ∈ db.networks ∧
        d ∈ db.devices ∧ db' = { db with
          memberships := db.memberships.insert (n, d) row
          invitations := db.invitations.erase (n, d)
          joinRequests := db.joinRequests.erase (n, d) }) := by
  simp only [insertMembership, bind_eq_ok, check_eq_ok, exists_const] at h
  obtain ⟨ho, h⟩ := h
  split at h
  · split at h
    · simp only [Except.ok.injEq, Prod.mk.injEq] at h
      exact .inl ⟨h.1.symm, ‹_›, h.2.symm⟩
    · cases h
  · rename_i hc
    simp only [bind_eq_ok, check_eq_ok, Except.ok.injEq, Prod.mk.injEq, exists_const] at h
    obtain ⟨⟨hn, hd⟩, rfl, rfl⟩ := h
    exact .inr ⟨rfl, ho, fun hm => hc (.inr (.inl hm)), hn, hd, rfl⟩

theorem insertInvitation_ok {orIgnore inserted : Bool} {t : ℤ}
    (h : db.insertInvitation orIgnore n d t = .ok (inserted, db')) :
    (n, d) ∉ db.memberships ∧ (n, d) ∉ db.joinRequests ∧
      ((inserted = false ∧ ((n, d) ∈ db.invitations ∨ t < 0) ∧ db' = db) ∨
        (inserted = true ∧ (n, d) ∉ db.invitations ∧ 0 ≤ t ∧ n ∈ db.networks ∧ d ∈ db.devices ∧
          db' = { db with invitations := db.invitations.insert (n, d) t })) := by
  simp only [insertInvitation, bind_eq_ok, check_eq_ok, exists_const] at h
  obtain ⟨hm, hj, h⟩ := h
  refine ⟨hm, hj, ?_⟩
  split at h
  · rename_i hc
    simp only [Except.ok.injEq, Prod.mk.injEq] at h
    exact .inl ⟨h.1.symm, hc.imp_right And.right, h.2.symm⟩
  · rename_i hc
    simp only [bind_eq_ok, check_eq_ok, Except.ok.injEq, Prod.mk.injEq, exists_const] at h
    obtain ⟨ht, ⟨hn, hd⟩, rfl, rfl⟩ := h
    exact .inr ⟨rfl, fun hi => hc (.inl hi), ht, hn, hd, rfl⟩

theorem insertJoinRequest_ok {inserted : Bool} {t : ℤ} (h : db.insertJoinRequest n d t = .ok (inserted, db')) :
    (n, d) ∉ db.memberships ∧ (n, d) ∉ db.invitations ∧
      ((inserted = false ∧ db' = db) ∨
        (inserted = true ∧ n ∈ db.networks ∧ d ∈ db.devices ∧
          db' = { db with joinRequests := db.joinRequests.insert (n, d) t })) := by
  simp only [insertJoinRequest, bind_eq_ok, check_eq_ok, exists_const] at h
  obtain ⟨hm, hi, h⟩ := h
  refine ⟨hm, hi, ?_⟩
  split at h
  · simp only [Except.ok.injEq, Prod.mk.injEq] at h
    exact .inl ⟨h.1.symm, h.2.symm⟩
  · simp only [bind_eq_ok, check_eq_ok, Except.ok.injEq, Prod.mk.injEq, exists_const] at h
    obtain ⟨-, ⟨hn, hd⟩, rfl, rfl⟩ := h
    exact .inr ⟨rfl, hn, hd, rfl⟩

theorem createNetwork_ok {network : Network} {password : Option PasswordVerifier} {u : Unit}
    (h : db.createNetwork n network password = .ok (u, db')) :
    ∃ base a, n ≠ 0 ∧ n ∉ db.networks ∧ n ∉ db.subnets ∧ Unassigned db.toTables base ∧
      base.val = a.val - a.val % 256 ∧ Unleased db.toTables a ∧ (n, network.ownerDeviceId) ∉ db.memberships ∧
      (n, network.ownerDeviceId) ∉ db.leases ∧ network.ownerDeviceId ∈ db.devices ∧
      db' = { db with toTables := db.create n network base a password } := by
  simp only [createNetwork, requireNetworkId, requireDeviceId, bind_eq_ok, check_eq_ok, exists_const] at h
  obtain ⟨hn0, -, -, -, -, -, db₁, h₁, db₂, h₂, ⟨inserted, db₃⟩, h₃, db₄, h₄, h⟩ := h
  obtain ⟨hn, hd, rfl⟩ := insertNetwork_ok h₁
  obtain ⟨base, hs, hu, -, rfl⟩ := insertSubnet_ok h₂
  obtain ⟨-, ho, -⟩ | ⟨-, -, hm, -, -, rfl⟩ := insertMembership_ok h₃
  · cases ho
  obtain ⟨a, ⟨base', hbase', hin⟩, hul, hl, -, rfl⟩ := insertLease_ok h₄
  simp only [AList.lookup_insert, Option.some.injEq] at hbase'
  subst hbase'
  refine ⟨base, a, hn0, hn, hs, hu, hin, hul, hm, hl, hd, ?_⟩
  cases password with
  | none =>
    simp only [Except.ok.injEq, Prod.mk.injEq] at h
    exact h.2.symm
  | some verifier =>
    simp only [bind_eq_ok, check_eq_ok, exists_const, upsertAccess, Except.ok.injEq, Prod.mk.injEq] at h
    obtain ⟨-, db₅, ⟨-, rfl⟩, -, rfl⟩ := h
    rfl

theorem deleteNetwork_ok {deleted : Bool} (h : db.deleteNetwork n = .ok (deleted, db')) :
    db' = { db with toTables := db.drop n } := by
  simp only [deleteNetwork, requireNetworkId, bind_eq_ok, check_eq_ok, Except.ok.injEq, Prod.mk.injEq,
    exists_const] at h
  exact h.2.2.symm

/-- What an insertion of a member requires of the tables. -/
structure Joinable (t : Tables) (n : NetworkId) (d : DeviceId) (a : LeaseAddress) : Prop where
  network : n ∈ t.networks
  fresh : (n, d) ∉ t.memberships
  unleased : (n, d) ∉ t.leases
  address : Unleased t a
  subnet : InSubnet t n a

theorem addMember_ok {added : Bool} {t : ℤ} (h : db.addMember n d t = .ok (added, db')) :
    (added = false ∧ db' = db) ∨
      (added = true ∧ ∃ a, Joinable db.toTables n d a ∧
        db' = { db with toTables := db.join n d { role := .member, joinedAtMs := t } a }) := by
  simp only [addMember, bind_eq_ok] at h
  obtain ⟨-, -, -, -, -, -, ⟨inserted, db₁⟩, h₁, h⟩ := h
  obtain ⟨rfl, -, rfl⟩ | ⟨rfl, -, hm, hn, -, rfl⟩ := insertMembership_ok h₁
  · simp only [Bool.false_eq_true, if_false, Except.ok.injEq, Prod.mk.injEq] at h
    exact .inl ⟨h.1.symm, h.2.symm⟩
  · simp only [if_true, bind_eq_ok, Except.ok.injEq, Prod.mk.injEq] at h
    obtain ⟨db₂, h₂, rfl, rfl⟩ := h
    obtain ⟨a, hin, hul, hl, -, rfl⟩ := insertLease_ok h₂
    exact .inr ⟨rfl, a, ⟨hn, hm, hl, hul, hin⟩, rfl⟩

theorem prunedPolicy_eq_self {p : NetworkPolicy} : prunedPolicy d p = p ↔ pruneMember d p = p := by
  unfold prunedPolicy
  split
  · simp [*]
  · -- a pruned policy carries another revision
    refine iff_of_false (fun h => ?_) ‹_›
    have := congrArg NetworkPolicy.revision h
    simp at this

/-- `remove_member` fails on the policy only when its revision is used up. -/
theorem prunePolicy_eq (db : Db) (n : NetworkId) (d : DeviceId) :
    db.prunePolicy n d =
      if prunedPolicy d (db.policy n) = db.policy n ∨ (db.policy n).revision ≠ uint64Max then
        .ok { db with policies := db.prunedPolicies n d }
      else .error (.overflowError "policy revision exhausted") := by
  cases hl : db.policies.lookup n with
  | none =>
    have hp : db.policy n = {} := by simp [Tables.policy, hl]
    simp [prunePolicy, networkPolicy, hp, pruneMember_default, prunedPolicy_default, Tables.prunedPolicies, hl]
  | some document =>
    have hp : db.policy n = document.policy := by simp [Tables.policy, hl]
    have hp' : db.networkPolicy n = document.policy := hp
    simp only [prunePolicy, hp', hp, Tables.prunedPolicies, hl, prunedPolicy_eq_self]
    by_cases hsame : pruneMember d document.policy = document.policy
    · simp [hsame]
    · by_cases hrev : document.policy.revision = uint64Max
      · rw [if_neg hsame, check_of_not (fun h => h hrev), if_neg (by simp [hsame, hrev]), error_bind]
      · rw [if_neg hsame, if_pos (.inr hrev), if_neg hsame, dif_pos (document.encodable.prune d _),
          if_pos (Map.mem_of_lookup hl), check_of (c := (pruneMember d document.policy).revision ≠ uint64Max) hrev,
          ok_bind]
        simp only [prunedPolicy, if_neg hsame]
        rfl

/-- The row `remove_member` deletes. -/
def MemberRow (t : Tables) (n : NetworkId) (d : DeviceId) : Prop :=
  ∃ row, t.memberships.lookup (n, d) = some row ∧ row.role = .member

theorem removeMember_ok {removed : Bool} (h : db.removeMember n d = .ok (removed, db')) :
    (removed = false ∧ ¬ MemberRow db.toTables n d ∧ db' = db) ∨
      (removed = true ∧ MemberRow db.toTables n d ∧ db' = { db with toTables := db.leave n d }) := by
  simp only [removeMember, bind_eq_ok] at h
  obtain ⟨-, -, -, -, h⟩ := h
  have hrow : (db.memberships.lookup (n, d)).any (·.role = .member) ↔ MemberRow db.toTables n d := by
    simp [MemberRow, Option.any_eq_true]
  rw [prunePolicy_eq] at h
  split at h
  · rename_i hr
    simp only [bind_eq_ok, Except.ok.injEq, Prod.mk.injEq] at h
    obtain ⟨db₁, h₁, rfl, rfl⟩ := h
    split at h₁
    · cases h₁
      exact .inr ⟨rfl, hrow.1 hr, rfl⟩
    · cases h₁
  · rename_i hr
    simp only [Except.ok.injEq, Prod.mk.injEq] at h
    exact .inl ⟨h.1.symm, fun hm => hr (hrow.2 hm), h.2.symm⟩

theorem removeMember_succeeds (hn : n ≠ 0) (hd : d ≠ 0) (h : MemberRow db.toTables n d)
    (hr : prunedPolicy d (db.policy n) = db.policy n ∨ (db.policy n).revision ≠ uint64Max) :
    db.removeMember n d = .ok (true, { db with toTables := db.leave n d }) := by
  obtain ⟨row, hrow, hrole⟩ := h
  have hpolicy : (db.deleteMembership n d).policy n = db.policy n := rfl
  simp only [removeMember, requireNetworkId, requireDeviceId, check, hn, hd, ne_eq, not_false_iff, if_true, ok_bind]
  rw [if_pos (by simp [hrow, hrole]), prunePolicy_eq, hpolicy, if_pos hr]
  rfl

theorem addInvitation_ok {added : Bool} {t : ℤ} (h : db.addInvitation n d t = .ok (added, db')) :
    (added = false ∧ db' = db) ∨
      (added = true ∧ (n, d) ∉ db.memberships ∧ (n, d) ∉ db.joinRequests ∧ n ∈ db.networks ∧
        db' = { db with toTables := db.invite n d t }) := by
  simp only [addInvitation, bind_eq_ok] at h
  obtain ⟨-, -, -, -, -, -, h⟩ := h
  split at h
  · simp only [Except.ok.injEq, Prod.mk.injEq] at h
    exact .inl ⟨h.1.symm, h.2.symm⟩
  · obtain ⟨hm, hj, ⟨rfl, -, rfl⟩ | ⟨rfl, -, -, hn, -, rfl⟩⟩ := insertInvitation_ok h
    · exact .inl ⟨rfl, rfl⟩
    · exact .inr ⟨rfl, hm, hj, hn, rfl⟩

theorem removeInvitation_ok {removed : Bool} (h : db.removeInvitation n d = .ok (removed, db')) :
    db' = { db with invitations := db.invitations.erase (n, d) } := by
  simp only [removeInvitation, bind_eq_ok, Except.ok.injEq, Prod.mk.injEq] at h
  obtain ⟨-, -, -, -, -, rfl⟩ := h
  rfl

theorem addJoinRequest_ok {added : Bool} {t : ℤ} (h : db.addJoinRequest n d t = .ok (added, db')) :
    (added = false ∧ db' = db) ∨
      (added = true ∧ (n, d) ∉ db.memberships ∧ (n, d) ∉ db.invitations ∧ n ∈ db.networks ∧
        db' = { db with toTables := db.request n d t }) := by
  simp only [addJoinRequest, bind_eq_ok] at h
  obtain ⟨-, -, -, -, -, -, h⟩ := h
  split at h
  · simp only [Except.ok.injEq, Prod.mk.injEq] at h
    exact .inl ⟨h.1.symm, h.2.symm⟩
  · obtain ⟨hm, hi, ⟨rfl, rfl⟩ | ⟨rfl, hn, -, rfl⟩⟩ := insertJoinRequest_ok h
    · exact .inl ⟨rfl, rfl⟩
    · exact .inr ⟨rfl, hm, hi, hn, rfl⟩

theorem removeJoinRequest_ok {removed : Bool} (h : db.removeJoinRequest n d = .ok (removed, db')) :
    db' = { db with joinRequests := db.joinRequests.erase (n, d) } := by
  simp only [removeJoinRequest, bind_eq_ok, Except.ok.injEq, Prod.mk.injEq] at h
  obtain ⟨-, -, -, -, -, rfl⟩ := h
  rfl

theorem issueInviteLink_ok {digest : Digest} {now expires : ℤ} {uses : UInt16} {u : Unit}
    (h : db.issueInviteLink n digest now expires uses = .ok (u, db')) :
    n ∈ db.networks ∧ now < expires ∧ 0 < uses.toNat ∧
      db' = { db with
        toTables := db.issueLink digest { networkId := n, expiresMs := expires, remaining := uses.toNat } now } := by
  simp only [issueInviteLink, bind_eq_ok, check_eq_ok, Except.ok.injEq, Prod.mk.injEq, exists_const] at h
  obtain ⟨⟨hlt, -, hne, -⟩, -, -, hn, -, rfl⟩ := h
  refine ⟨hn, hlt, Nat.pos_of_ne_zero fun h0 => hne ?_, rfl⟩
  exact UInt16.toNat_inj.1 h0

theorem liveLink_eq_some {digest : Digest} {now : ℤ} {link : InvitationLink} :
    db.liveLink n digest now = some link ↔
      db.links.lookup digest = some link ∧ link.networkId = n ∧ now < link.expiresMs ∧ 0 < link.remaining := by
  simp [liveLink, Option.filter_eq_some_iff, and_assoc]

theorem redeemInviteLink_ok {digest : Digest} {now : ℤ} {redeemed : Bool}
    (h : db.redeemInviteLink n digest d now = .ok (redeemed, db')) :
    (redeemed = false ∧ db.liveLink n digest now = none ∧ db' = db) ∨
      (redeemed = true ∧ ∃ link, db.liveLink n digest now = some link ∧ (n, d) ∉ db.memberships ∧
        ((n, d) ∈ db.invitations ∨ now < 0 ∨ n ∈ db.networks) ∧
        db' = { db with toTables := db.redeem n digest link d now }) := by
  simp only [redeemInviteLink] at h
  split at h
  · simp only [Except.ok.injEq, Prod.mk.injEq] at h
    exact .inl ⟨h.1.symm, ‹_›, h.2.symm⟩
  · rename_i link hlink
    simp only [bind_eq_ok, Except.ok.injEq, Prod.mk.injEq, Prod.exists] at h
    obtain ⟨inserted, db₁, h₁, rfl, rfl⟩ := h
    refine .inr ⟨rfl, link, hlink, ?_⟩
    obtain ⟨hm, -, ⟨-, hi, rfl⟩ | ⟨-, hi, ht, hn, -, rfl⟩⟩ := insertInvitation_ok h₁
    · refine ⟨hm, hi.imp_right .inl, ?_⟩
      simp only [Tables.redeem]
      rw [if_pos hi]
    · refine ⟨hm, .inr (.inr hn), ?_⟩
      simp only [Tables.redeem]
      rw [if_neg (by rintro (h | h); exacts [hi h, by omega])]

theorem revokeInviteLinks_ok {u : Unit} (h : db.revokeInviteLinks n = .ok (u, db')) :
    db' = { db with toTables := db.dropLinks n } := by
  simp only [revokeInviteLinks, Except.ok.injEq, Prod.mk.injEq] at h
  exact h.2.symm

theorem setNetworkPassword_ok {verifier : Option PasswordVerifier} {u : Unit}
    (h : db.setNetworkPassword n verifier = .ok (u, db')) :
    (verifier ≠ none → n ∈ db.networks) ∧ db' = { db with toTables := db.setAccess n verifier } := by
  cases verifier with
  | none =>
    simp only [setNetworkPassword, Except.ok.injEq, Prod.mk.injEq] at h
    exact ⟨fun h => absurd rfl h, h.2.symm⟩
  | some v =>
    simp only [setNetworkPassword, upsertAccess, bind_eq_ok, check_eq_ok, Except.ok.injEq, Prod.mk.injEq,
      exists_const] at h
    obtain ⟨_, ⟨hn, rfl⟩, -, rfl⟩ := h
    exact ⟨fun _ => hn, rfl⟩

theorem createAccount_ok {account : AccountRecord} {now : ℤ} {u : Unit}
    (h : db.createAccount account now = .ok (u, db')) :
    account.id ∉ db.accounts ∧ (∀ id a, db.accounts.lookup id = some a → a.owner ≠ account.owner) ∧
      account.owner ∉ db.accountDevices ∧
      db' = { db with toTables := db.openAccount account.id { owner := account.owner, name := account.name } } := by
  simp only [createAccount, requireDeviceId, requireTimestamp, bind_eq_ok, check_eq_ok, Except.ok.injEq,
    Prod.mk.injEq, exists_const, List.all_eq_true, decide_eq_true_eq] at h
  obtain ⟨-, -, -, -, -, hid, ho, -, hd, -, rfl⟩ := h
  exact ⟨hid, fun id a ha => ho (id, a) (Map.mem_rows.2 ha), hd, rfl⟩

theorem issueEnrollment_ok {account : AccountId} {digest : Digest} {expires : ℤ} {u : Unit}
    (h : db.issueEnrollment account digest expires = .ok (u, db')) :
    account ∈ db.accounts ∧
      db' = { db with toTables := db.offerEnrollment account { digest, expiresMs := expires } } := by
  simp only [issueEnrollment, bind_eq_ok, check_eq_ok, Except.ok.injEq, Prod.mk.injEq, exists_const] at h
  obtain ⟨-, ha, -, rfl⟩ := h
  exact ⟨ha, rfl⟩

theorem enrollDevice_ok {digest : Digest} {label : Text} {now : ℤ} {enrolled : Bool}
    (h : db.enrollDevice digest d label now = .ok (enrolled, db')) :
    (enrolled = false ∧ db' = db) ∨
      (enrolled = true ∧ ∃ account, db.liveEnrollment digest now = some account ∧ account ∈ db.accounts ∧
        (∀ row, db.accountDevices.lookup d = some row → row.accountId = account ∧ row.revoked) ∧
        db' = { db with toTables := db.enroll account digest d label }) := by
  simp only [enrollDevice, bind_eq_ok] at h
  obtain ⟨-, -, -, -, -, -, h⟩ := h
  split at h
  · simp only [Except.ok.injEq, Prod.mk.injEq] at h
    exact .inl ⟨h.1.symm, h.2.symm⟩
  · rename_i account ha
    split at h
    · simp only [Except.ok.injEq, Prod.mk.injEq] at h
      exact .inl ⟨h.1.symm, h.2.symm⟩
    · rename_i hrow
      split at h
      · simp only [Except.ok.injEq, Prod.mk.injEq] at h
        exact .inl ⟨h.1.symm, h.2.symm⟩
      · simp only [bind_eq_ok, check_eq_ok, Except.ok.injEq, Prod.mk.injEq, exists_const] at h
        obtain ⟨⟨-, hacc⟩, rfl, rfl⟩ := h
        refine .inr ⟨rfl, account, ha, hacc, fun row hl => ?_, rfl⟩
        simpa [hl] using hrow

theorem revokeAccountDevice_ok {account : AccountId} {u : Unit}
    (h : db.revokeAccountDevice account d = .ok (u, db')) :
    db' = db ∨ ∃ row, db.accountDevices.lookup d = some row ∧ row.accountId = account ∧
      (∀ id a, db.accounts.lookup id = some a → a.owner ≠ d) ∧ db' = { db with toTables := db.revoke d row } := by
  simp only [revokeAccountDevice] at h
  split at h
  · rename_i row hrow
    split at h
    · rename_i hc
      simp only [Bool.and_eq_true, decide_eq_true_eq, List.all_eq_true] at hc
      simp only [Except.ok.injEq, Prod.mk.injEq] at h
      exact .inr ⟨row, hrow, hc.1, fun id a ha => hc.2 (id, a) (Map.mem_rows.2 ha), h.2.symm⟩
    · simp only [Except.ok.injEq, Prod.mk.injEq] at h
      exact .inl h.2.symm
  · simp only [Except.ok.injEq, Prod.mk.injEq] at h
    exact .inl h.2.symm

theorem appendAuditLocked_ok {e : AuditEvent} (h : db.appendAuditLocked e = .ok db') :
    e.policyRevision.toNat < 2 ^ 63 ∧ db'.toTables = db.toTables ∧ db'.devices = db.devices := by
  simp only [appendAuditLocked, requireAuditEvent, bind_eq_ok, check_eq_ok, Except.ok.injEq, exists_const] at h
  obtain ⟨⟨-, -, hr⟩, -, rfl⟩ := h
  exact ⟨hr, rfl, rfl⟩

theorem appendAudit_ok {e : AuditEvent} {u : Unit} (h : db.appendAudit e = .ok (u, db')) :
    db'.toTables = db.toTables ∧ db'.devices = db.devices := by
  simp only [appendAudit, bind_eq_ok, Except.ok.injEq, Prod.mk.injEq] at h
  obtain ⟨_, h, -, rfl⟩ := h
  exact (appendAuditLocked_ok h).2

theorem saveNetworkPolicy_ok {policy : NetworkPolicy} {expected : UInt64} {audit : Option AuditEvent} {saved : Bool}
    (h : db.saveNetworkPolicy n policy expected audit = .ok (saved, db')) :
    (saved = false ∧ db' = db) ∨
      (saved = true ∧ n ∈ db.networks ∧ (db.policy n).revision = expected ∧ expected ≠ uint64Max ∧
        policy.revision = expected + 1 ∧ (∀ e ∈ audit, e.policyRevision.toNat < 2 ^ 63) ∧
        ∃ he : Encodable policy, db'.toTables = db.savePolicy n ⟨policy, he⟩ ∧ db'.devices = db.devices) := by
  unfold saveNetworkPolicy at h
  split at h
  · rename_i he
    simp only [bind_eq_ok, check_eq_ok, exists_const] at h
    obtain ⟨⟨hmax, hrev⟩, h⟩ := h
    by_cases heq : (db.networkPolicy n).revision = expected
    · rw [if_neg (not_not.2 heq)] at h
      simp only [bind_eq_ok, check_eq_ok, exists_const] at h
      obtain ⟨hn, h⟩ := h
      right
      cases audit with
      | none =>
        simp only [Except.ok.injEq, Prod.mk.injEq] at h
        obtain ⟨rfl, rfl⟩ := h
        exact ⟨rfl, hn, heq, hmax, hrev, by simp, he, rfl, rfl⟩
      | some e =>
        simp only [bind_eq_ok, Except.ok.injEq, Prod.mk.injEq] at h
        obtain ⟨_, h, rfl, rfl⟩ := h
        obtain ⟨hlt, ht, hd⟩ := appendAuditLocked_ok h
        exact ⟨rfl, hn, heq, hmax, hrev, by simpa using hlt, he, ht, hd⟩
    · rw [if_pos heq, Except.ok.injEq, Prod.mk.injEq] at h
      exact .inl ⟨h.1.symm, h.2.symm⟩
  · cases h

end Db

end LanLink
