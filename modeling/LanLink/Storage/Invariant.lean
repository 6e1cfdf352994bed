import LanLink.Lib.Runs
import LanLink.Storage.Transitions
/-!
# The store invariant

`Change` lists what the operations do to the tables, with the guards their
lemmas provide. `Tables.Wf` is the representation invariant, in five parts that
each concern a few tables; every change keeps it, so it holds after every
sequence of operations on an empty database.
-/
open LanLink.Lib

namespace LanLink

open Db (Joinable MemberRow Unleased Unassigned InSubnet)

/-! ## Changes -/

/-- What one store operation can do to the tables. -/
inductive Change (t : Tables) : Tables → Prop
  | none : Change t t
  | create {n : NetworkId} {network : Network} {base : SubnetAddress} {a : LeaseAddress}
      (password : Option PasswordVerifier) (nonzero : n ≠ 0) (fresh : n ∉ t.networks)
      (unassigned : Unassigned t base) (inside : base.val = a.val - a.val % 256) (unleased : Unleased t a) :
      Change t (t.create n network base a password)
  | drop (n : NetworkId) : Change t (t.drop n)
  | join {n : NetworkId} {d : DeviceId} {a : LeaseAddress} (joinedAtMs : ℤ) (h : Joinable t n d a) :
      Change t (t.join n d { role := .member, joinedAtMs } a)
  | leave {n : NetworkId} {d : DeviceId} (h : MemberRow t n d) : Change t (t.leave n d)
  | invite {n : NetworkId} {d : DeviceId} (atMs : ℤ) (network : n ∈ t.networks) (member : (n, d) ∉ t.memberships)
      (request : (n, d) ∉ t.joinRequests) : Change t (t.invite n d atMs)
  | uninvite (key : NetworkId × DeviceId) : Change t { t with invitations := t.invitations.erase key }
  | request {n : NetworkId} {d : DeviceId} (atMs : ℤ) (network : n ∈ t.networks) (member : (n, d) ∉ t.memberships)
      (invitation : (n, d) ∉ t.invitations) : Change t (t.request n d atMs)
  | unrequest (key : NetworkId × DeviceId) : Change t { t with joinRequests := t.joinRequests.erase key }
  | issueLink (digest : Digest) (link : InvitationLink) (nowMs : ℤ) (network : link.networkId ∈ t.networks) :
      Change t (t.issueLink digest link nowMs)
  | redeem {n : NetworkId} {d : DeviceId} {digest : Digest} {link : InvitationLink} (atMs : ℤ)
      (live : t.links.lookup digest = some link) (ofNetwork : link.networkId = n) (member : (n, d) ∉ t.memberships) :
      Change t (t.redeem n digest link d atMs)
  | dropLinks (n : NetworkId) : Change t (t.dropLinks n)
  | setAccess (n : NetworkId) (verifier : Option PasswordVerifier) (network : verifier ≠ Option.none → n ∈ t.networks) :
      Change t (t.setAccess n verifier)
  | savePolicy (n : NetworkId) (document : PolicyDocument) (network : n ∈ t.networks) :
      Change t (t.savePolicy n document)
  | openAccount {id : AccountId} {account : Account} (fresh : id ∉ t.accounts)
      (single : ∀ i a, t.accounts.lookup i = some a → a.owner ≠ account.owner)
      (unknown : account.owner ∉ t.accountDevices) : Change t (t.openAccount id account)
  | offerEnrollment (id : AccountId) (enrollment : Enrollment) (account : id ∈ t.accounts) :
      Change t (t.offerEnrollment id enrollment)
  | enroll {id : AccountId} {d : DeviceId} (digest : Digest) (label : Text) (account : id ∈ t.accounts)
      (revoked : ∀ row, t.accountDevices.lookup d = some row → row.accountId = id ∧ row.revoked) :
      Change t (t.enroll id digest d label)
  | revoke {d : DeviceId} {row : AccountDeviceRow} (h : t.accountDevices.lookup d = some row)
      (notOwner : ∀ i a, t.accounts.lookup i = some a → a.owner ≠ d) : Change t (t.revoke d row)

namespace Tables

/-! ## The invariant -/

/-- Every network has a subnet of its own, every member a lease of its own
inside its network's subnet. -/
structure Addressed (t : Tables) : Prop where
  subnet_network : ∀ n, n ∈ t.subnets ↔ n ∈ t.networks
  subnet_distinct : Map.Distinct (·.val) t.subnets
  lease_member : ∀ key, key ∈ t.leases ↔ key ∈ t.memberships
  lease_inside : ∀ n d a, t.leases.lookup (n, d) = some a → InSubnet t n a
  lease_distinct : Map.Distinct (·.val) t.leases

/-- The owner of a network is its one member with the owner role. -/
structure Owned (t : Tables) : Prop where
  nonzero : 0 ∉ t.networks
  member_network : ∀ n d, (n, d) ∈ t.memberships → n ∈ t.networks
  owner_row : ∀ n d, t.owner n = some d → ∃ row, t.memberships.lookup (n, d) = some row ∧ row.role = .owner
  owner_only : ∀ n d row, t.memberships.lookup (n, d) = some row → row.role = .owner → t.owner n = some d

/-- A device is a member, invited or asking, never two of these. -/
structure Settled (t : Tables) : Prop where
  invited_nonmember : ∀ key, key ∈ t.invitations → key ∉ t.memberships
  requested_nonmember : ∀ key, key ∈ t.joinRequests → key ∉ t.memberships
  requested_uninvited : ∀ key, key ∈ t.joinRequests → key ∉ t.invitations

/-- An account's owner is one of its devices and not revoked. -/
structure Accounted (t : Tables) : Prop where
  owner_device : ∀ id a, t.accounts.lookup id = some a →
    ∃ row, t.accountDevices.lookup a.owner = some row ∧ row.accountId = id ∧ row.revoked = false
  device_account : ∀ d row, t.accountDevices.lookup d = some row → row.accountId ∈ t.accounts

/-- What belongs to a network refers to one that exists. -/
structure Rooted (t : Tables) : Prop where
  access : ∀ n, n ∈ t.access → n ∈ t.networks
  links : ∀ digest link, t.links.lookup digest = some link → link.networkId ∈ t.networks
  policies : ∀ n, n ∈ t.policies → n ∈ t.networks

structure Wf (t : Tables) : Prop where
  addressed : Addressed t
  owned : Owned t
  settled : Settled t
  accounted : Accounted t
  rooted : Rooted t

theorem wf_empty : Wf {} where
  addressed := ⟨by simp, by simp [Map.Distinct], by simp, by simp, by simp [Map.Distinct]⟩
  owned := ⟨by simp, by simp, by simp [owner], by simp⟩
  settled := ⟨by simp, by simp, by simp⟩
  accounted := ⟨by simp, by simp⟩
  rooted := ⟨by simp, by simp, by simp⟩

/-! ## Every change keeps it -/

section create
variable (t : Tables) (n : NetworkId) (network : Network) (base : SubnetAddress) (a : LeaseAddress)
  (password : Option PasswordVerifier)

@[simp] theorem create_networks : (t.create n network base a password).networks = t.networks.insert n network := by
  cases password <;> rfl

@[simp] theorem create_subnets : (t.create n network base a password).subnets = t.subnets.insert n base := by
  cases password <;> rfl

@[simp] theorem create_memberships : (t.create n network base a password).memberships =
    t.memberships.insert (n, network.ownerDeviceId) { role := .owner, joinedAtMs := network.createdAtMs } := by
  cases password <;> rfl

@[simp] theorem create_leases :
    (t.create n network base a password).leases = t.leases.insert (n, network.ownerDeviceId) a := by
  cases password <;> rfl

@[simp] theorem create_invitations :
    (t.create n network base a password).invitations = t.invitations.erase (n, network.ownerDeviceId) := by
  cases password <;> rfl

@[simp] theorem create_joinRequests :
    (t.create n network base a password).joinRequests = t.joinRequests.erase (n, network.ownerDeviceId) := by
  cases password <;> rfl

@[simp] theorem create_accounts : (t.create n network base a password).accounts = t.accounts := by
  cases password <;> rfl

@[simp] theorem create_accountDevices : (t.create n network base a password).accountDevices = t.accountDevices := by
  cases password <;> rfl

@[simp] theorem create_links : (t.create n network base a password).links = t.links := by cases password <;> rfl

@[simp] theorem create_policies : (t.create n network base a password).policies = t.policies := by
  cases password <;> rfl

theorem create_access {m : NetworkId} (h : m ∈ (t.create n network base a password).access) :
    m = n ∨ m ∈ t.access := by
  cases password with
  | none => exact .inr h
  | some verifier => simpa [create] using h

end create

variable {t t' : Tables} {n : NetworkId} {d : DeviceId}

/-! Each part is about its own tables only. -/

theorem Addressed.of_eq (h : Addressed t) (hn : t'.networks = t.networks := by rfl)
    (hs : t'.subnets = t.subnets := by rfl) (hm : t'.memberships = t.memberships := by rfl)
    (hl : t'.leases = t.leases := by rfl) : Addressed t' := by
  obtain ⟨h₁, h₂, h₃, h₄, h₅⟩ := h
  refine ⟨?_, ?_, ?_, ?_, ?_⟩ <;> simp only [InSubnet, hn, hs, hm, hl] <;> assumption

theorem Owned.of_eq (h : Owned t) (hn : t'.networks = t.networks := by rfl)
    (hm : t'.memberships = t.memberships := by rfl) : Owned t' := by
  obtain ⟨h₁, h₂, h₃, h₄⟩ := h
  refine ⟨?_, ?_, ?_, ?_⟩ <;> simp only [owner, hn, hm] <;> assumption

theorem Settled.of_eq (h : Settled t) (hm : t'.memberships = t.memberships := by rfl)
    (hi : t'.invitations = t.invitations := by rfl) (hj : t'.joinRequests = t.joinRequests := by rfl) :
    Settled t' := by
  obtain ⟨h₁, h₂, h₃⟩ := h
  refine ⟨?_, ?_, ?_⟩ <;> simp only [hm, hi, hj] <;> assumption

theorem Accounted.of_eq (h : Accounted t) (ha : t'.accounts = t.accounts := by rfl)
    (hd : t'.accountDevices = t.accountDevices := by rfl) : Accounted t' := by
  obtain ⟨h₁, h₂⟩ := h
  refine ⟨?_, ?_⟩ <;> simp only [ha, hd] <;> assumption

theorem Rooted.of_eq (h : Rooted t) (hn : t'.networks = t.networks := by rfl)
    (ha : t'.access = t.access := by rfl) (hl : t'.links = t.links := by rfl)
    (hp : t'.policies = t.policies := by rfl) : Rooted t' := by
  obtain ⟨h₁, h₂, h₃⟩ := h
  refine ⟨?_, ?_, ?_⟩ <;> simp only [hn, ha, hl, hp] <;> assumption

theorem lookup_owner {network : Network} (h : t.networks.lookup n = some network) :
    t.owner n = some network.ownerDeviceId := by
  simp [owner, h]

theorem mem_networks_of_owner (h : t.owner n = some d) : n ∈ t.networks := by
  obtain ⟨network, hn, -⟩ := Option.map_eq_some_iff.1 h
  exact Map.mem_of_lookup hn

theorem owner_create (t : Tables) (n m : NetworkId) (network : Network) (base : SubnetAddress) (a : LeaseAddress)
    (password : Option PasswordVerifier) :
    (t.create n network base a password).owner m = if m = n then some network.ownerDeviceId else t.owner m := by
  simp only [owner, create_networks, Map.lookup_insert]
  split <;> rfl

theorem Addressed.create (h : Addressed t) {network : Network} {base : SubnetAddress} {a : LeaseAddress}
    (password : Option PasswordVerifier) (fresh : n ∉ t.networks) (unassigned : Unassigned t base)
    (inside : base.val = a.val - a.val % 256) (unleased : Unleased t a) :
    Addressed (t.create n network base a password) where
  subnet_network m := by simp [h.subnet_network]
  subnet_distinct := by rw [create_subnets]; exact h.subnet_distinct.insert n unassigned
  lease_member key := by simp [h.lease_member]
  lease_inside m d b hb := by
    simp only [create_leases, create_subnets, Map.lookup_insert, InSubnet] at hb ⊢
    split at hb
    · rename_i hkey
      cases hkey; cases hb
      exact ⟨base, by simp, inside⟩
    · obtain ⟨c, hc, hcb⟩ := h.lease_inside m d b hb
      -- the new network had no subnet, so no lease either
      have hne : m ≠ n := by
        rintro rfl
        exact fresh ((h.subnet_network m).1 (Map.mem_of_lookup hc))
      exact ⟨c, by simp [hne, hc], hcb⟩
  lease_distinct := by rw [create_leases]; exact h.lease_distinct.insert _ unleased

theorem Addressed.drop (h : Addressed t) (n : NetworkId) : Addressed (t.drop n) where
  subnet_network m := by simp [h.subnet_network]
  subnet_distinct := h.subnet_distinct.mono fun _ _ => Map.lookup_of_lookup_erase
  lease_member key := by simp [Map.mem_eraseIf_key, h.lease_member]
  lease_inside m d b hb := by
    obtain ⟨hb, hm⟩ := Map.lookup_eraseIf_eq_some.1 hb
    obtain ⟨c, hc, hcb⟩ := h.lease_inside m d b hb
    simp only [decide_eq_false_iff_not] at hm
    exact ⟨c, by simp [hm, hc], hcb⟩
  lease_distinct := h.lease_distinct.mono fun _ _ hk => (Map.lookup_eraseIf_eq_some.1 hk).1

theorem Addressed.join (h : Addressed t) {row : Membership} {a : LeaseAddress} (hj : Joinable t n d a) :
    Addressed (t.join n d row a) where
  subnet_network := h.subnet_network
  subnet_distinct := h.subnet_distinct
  lease_member key := by simp [h.lease_member]
  lease_inside m e b hb := by
    simp only [join_leases, Map.lookup_insert] at hb
    split at hb
    · rename_i hkey
      cases hkey; cases hb
      exact hj.subnet
    · exact h.lease_inside m e b hb
  lease_distinct := h.lease_distinct.insert _ hj.address

theorem Addressed.leave (h : Addressed t) (n : NetworkId) (d : DeviceId) : Addressed (t.leave n d) where
  subnet_network := h.subnet_network
  subnet_distinct := h.subnet_distinct
  lease_member key := by simp [h.lease_member]
  lease_inside m e b hb := h.lease_inside m e b (Map.lookup_of_lookup_erase hb)
  lease_distinct := h.lease_distinct.mono fun _ _ => Map.lookup_of_lookup_erase

theorem Owned.create (h : Owned t) {network : Network} {base : SubnetAddress} {a : LeaseAddress}
    (password : Option PasswordVerifier) (nonzero : n ≠ 0) (fresh : n ∉ t.networks) :
    Owned (t.create n network base a password) where
  nonzero := by
    rw [create_networks, AList.mem_insert]
    exact not_or.2 ⟨nonzero.symm, h.nonzero⟩
  member_network m d hm := by
    simp only [create_memberships, create_networks, AList.mem_insert, Prod.mk.injEq] at hm ⊢
    exact hm.imp And.left (h.member_network m d)
  owner_row m d hd := by
    rw [owner_create] at hd
    simp only [create_memberships, Map.lookup_insert]
    split at hd
    · cases hd
      simp_all
    · obtain ⟨row, hrow, hr⟩ := h.owner_row m d hd
      exact ⟨row, by simp_all, hr⟩
  owner_only m d row hrow hr := by
    rw [owner_create]
    simp only [create_memberships, Map.lookup_insert] at hrow
    split at hrow
    · rename_i hkey
      cases hkey
      simp
    · have hm := h.member_network m d (Map.mem_of_lookup hrow)
      rw [if_neg (by rintro rfl; exact fresh hm)]
      exact h.owner_only m d row hrow hr

theorem Owned.drop (h : Owned t) (n : NetworkId) : Owned (t.drop n) where
  nonzero h0 := h.nonzero (AList.mem_erase.1 h0).2
  member_network m d hm := by
    simp only [drop_memberships, Map.mem_eraseIf_key, decide_eq_false_iff_not] at hm
    simp only [drop_networks, AList.mem_erase]
    exact ⟨hm.2, h.member_network m d hm.1⟩
  owner_row m d hd := by
    simp only [owner, drop_networks, Map.lookup_erase] at hd
    split at hd
    · cases hd
    · obtain ⟨row, hrow, hr⟩ := h.owner_row m d hd
      exact ⟨row, Map.lookup_eraseIf_eq_some.2 ⟨hrow, by simpa⟩, hr⟩
  owner_only m d row hrow hr := by
    obtain ⟨hrow, hm⟩ := Map.lookup_eraseIf_eq_some.1 hrow
    simp only [decide_eq_false_iff_not] at hm
    simp only [owner, drop_networks, Map.lookup_erase, hm, if_false]
    exact h.owner_only m d row hrow hr

theorem Owned.join (h : Owned t) {a : LeaseAddress} (joinedAtMs : ℤ) (hj : Joinable t n d a) :
    Owned (t.join n d { role := .member, joinedAtMs } a) where
  nonzero := h.nonzero
  member_network m e hm := by
    simp only [join_memberships, AList.mem_insert, Prod.mk.injEq] at hm
    rcases hm with ⟨rfl, -⟩ | hm
    · exact hj.network
    · exact h.member_network m e hm
  owner_row m e he := by
    obtain ⟨row, hrow, hr⟩ := h.owner_row m e he
    refine ⟨row, ?_, hr⟩
    simp only [join_memberships, Map.lookup_insert]
    rw [if_neg, hrow]
    rintro hkey
    exact hj.fresh (hkey ▸ Map.mem_of_lookup hrow)
  owner_only m e row hrow hr := by
    simp only [join_memberships, Map.lookup_insert] at hrow
    split at hrow
    · cases hrow; cases hr
    · exact h.owner_only m e row hrow hr

theorem Owned.leave (h : Owned t) (hm : MemberRow t n d) : Owned (t.leave n d) where
  nonzero := h.nonzero
  member_network m e hme := h.member_network m e (AList.mem_erase.1 hme).2
  owner_row m e he := by
    obtain ⟨row, hrow, hr⟩ := h.owner_row m e he
    obtain ⟨row', hrow', hr'⟩ := hm
    refine ⟨row, ?_, hr⟩
    simp only [leave_memberships, Map.lookup_erase]
    rw [if_neg, hrow]
    -- the deleted row is not the owner's
    intro hkey
    rw [hkey, hrow'] at hrow
    cases hrow
    rw [hr] at hr'; cases hr'
  owner_only m e row hrow hr := h.owner_only m e row (Map.lookup_of_lookup_erase hrow) hr

/-- Adding a member and clearing what was pending for it. -/
theorem Settled.join (h : Settled t) (n : NetworkId) (d : DeviceId) (row : Membership) (a : LeaseAddress) :
    Settled (t.join n d row a) where
  invited_nonmember key hk := by
    simp only [join_invitations, join_memberships, AList.mem_erase, AList.mem_insert] at hk ⊢
    exact not_or.2 ⟨hk.1, h.invited_nonmember key hk.2⟩
  requested_nonmember key hk := by
    simp only [join_joinRequests, join_memberships, AList.mem_erase, AList.mem_insert] at hk ⊢
    exact not_or.2 ⟨hk.1, h.requested_nonmember key hk.2⟩
  requested_uninvited key hk hi :=
    h.requested_uninvited key (AList.mem_erase.1 hk).2 (AList.mem_erase.1 hi).2

theorem Settled.create (h : Settled t) (network : Network) (base : SubnetAddress) (a : LeaseAddress)
    (password : Option PasswordVerifier) : Settled (t.create n network base a password) := by
  have hf : Settled (t.found n network base) := h.of_eq
  have hj := hf.join n network.ownerDeviceId { role := .owner, joinedAtMs := network.createdAtMs } a
  cases password with
  | none => exact hj
  | some verifier => exact hj.of_eq

theorem Settled.drop (h : Settled t) (n : NetworkId) : Settled (t.drop n) where
  invited_nonmember key hk hm :=
    h.invited_nonmember key (Map.mem_of_mem_eraseIf hk) (Map.mem_of_mem_eraseIf hm)
  requested_nonmember key hk hm :=
    h.requested_nonmember key (Map.mem_of_mem_eraseIf hk) (Map.mem_of_mem_eraseIf hm)
  requested_uninvited key hk hi :=
    h.requested_uninvited key (Map.mem_of_mem_eraseIf hk) (Map.mem_of_mem_eraseIf hi)

theorem Settled.leave (h : Settled t) (n : NetworkId) (d : DeviceId) : Settled (t.leave n d) where
  invited_nonmember key hk hm := h.invited_nonmember key hk (AList.mem_erase.1 hm).2
  requested_nonmember key hk hm := h.requested_nonmember key hk (AList.mem_erase.1 hm).2
  requested_uninvited := h.requested_uninvited

theorem Settled.invite (h : Settled t) (atMs : ℤ) (hm : (n, d) ∉ t.memberships) (hr : (n, d) ∉ t.joinRequests) :
    Settled (t.invite n d atMs) where
  invited_nonmember key hk := by
    simp only [invite_invitations, AList.mem_insert] at hk
    rcases hk with rfl | hk
    · exact hm
    · exact h.invited_nonmember key hk
  requested_nonmember := h.requested_nonmember
  requested_uninvited key hk := by
    simp only [invite_invitations, AList.mem_insert]
    refine not_or.2 ⟨?_, h.requested_uninvited key hk⟩
    rintro rfl
    exact hr hk

theorem Settled.request (h : Settled t) (atMs : ℤ) (hm : (n, d) ∉ t.memberships) (hi : (n, d) ∉ t.invitations) :
    Settled (t.request n d atMs) where
  invited_nonmember := h.invited_nonmember
  requested_nonmember key hk := by
    simp only [request_joinRequests, AList.mem_insert] at hk
    rcases hk with rfl | hk
    · exact hm
    · exact h.requested_nonmember key hk
  requested_uninvited key hk := by
    simp only [request_joinRequests, AList.mem_insert] at hk
    rcases hk with rfl | hk
    · exact hi
    · exact h.requested_uninvited key hk

theorem Settled.uninvite (h : Settled t) (key : NetworkId × DeviceId) :
    Settled { t with invitations := t.invitations.erase key } where
  invited_nonmember k hk := h.invited_nonmember k (AList.mem_erase.1 hk).2
  requested_nonmember := h.requested_nonmember
  requested_uninvited k hk hi := h.requested_uninvited k hk (AList.mem_erase.1 hi).2

theorem Settled.unrequest (h : Settled t) (key : NetworkId × DeviceId) :
    Settled { t with joinRequests := t.joinRequests.erase key } where
  invited_nonmember := h.invited_nonmember
  requested_nonmember k hk := h.requested_nonmember k (AList.mem_erase.1 hk).2
  requested_uninvited k hk := h.requested_uninvited k (AList.mem_erase.1 hk).2

theorem Settled.redeem (h : Settled t) (digest : Digest) (link : InvitationLink) (atMs : ℤ)
    (hm : (n, d) ∉ t.memberships) : Settled (t.redeem n digest link d atMs) := by
  have hu := h.unrequest (n, d)
  by_cases hi : (n, d) ∈ t.invitations ∨ atMs < 0
  · refine ⟨?_, hu.requested_nonmember, ?_⟩ <;> simp only [redeem_invitations, if_pos hi]
    · exact hu.invited_nonmember
    · exact hu.requested_uninvited
  · -- without a request of its own the device can be invited
    have hv := hu.invite atMs hm (by simp : (n, d) ∉ t.joinRequests.erase (n, d))
    refine ⟨?_, hv.requested_nonmember, ?_⟩ <;> simp only [redeem_invitations, if_neg hi]
    · exact hv.invited_nonmember
    · exact hv.requested_uninvited

theorem Accounted.openAccount (h : Accounted t) {id : AccountId} {account : Account}
    (unknown : account.owner ∉ t.accountDevices) : Accounted (t.openAccount id account) where
  owner_device i a ha := by
    simp only [openAccount_accounts, openAccount_accountDevices, Map.lookup_insert] at ha ⊢
    split at ha
    · cases ha
      simp_all
    · obtain ⟨row, hrow, hi, hr⟩ := h.owner_device i a ha
      refine ⟨row, ?_, hi, hr⟩
      rw [if_neg, hrow]
      exact fun he => unknown (he ▸ Map.mem_of_lookup hrow)
  device_account d row hd := by
    simp only [openAccount_accounts, openAccount_accountDevices, Map.lookup_insert, AList.mem_insert] at hd ⊢
    split at hd
    · cases hd
      exact .inl rfl
    · exact .inr (h.device_account d row hd)

theorem Accounted.enroll (h : Accounted t) {id : AccountId} (digest : Digest) (label : Text) (account : id ∈ t.accounts)
    (revoked : ∀ row, t.accountDevices.lookup d = some row → row.accountId = id ∧ row.revoked) :
    Accounted (t.enroll id digest d label) where
  owner_device i a ha := by
    obtain ⟨row, hrow, hi, hr⟩ := h.owner_device i a ha
    simp only [enroll_accountDevices, Map.lookup_insert]
    -- an owner's row is not revoked, so it is not the one enrolled again
    have hne : a.owner ≠ d := by
      rintro rfl
      have := (revoked row hrow).2
      simp [hr] at this
    exact ⟨row, by rw [if_neg hne, hrow], hi, hr⟩
  device_account e row he := by
    simp only [enroll_accountDevices, Map.lookup_insert] at he
    split at he
    · cases he
      exact account
    · exact h.device_account e row he

theorem Accounted.revoke (h : Accounted t) {row : AccountDeviceRow} (hd : t.accountDevices.lookup d = some row)
    (notOwner : ∀ i a, t.accounts.lookup i = some a → a.owner ≠ d) : Accounted (t.revoke d row) where
  owner_device i a ha := by
    obtain ⟨r, hrow, hi, hr⟩ := h.owner_device i a ha
    simp only [revoke_accountDevices, Map.lookup_insert]
    exact ⟨r, by rw [if_neg (notOwner i a ha), hrow], hi, hr⟩
  device_account e r he := by
    simp only [revoke_accountDevices, Map.lookup_insert] at he
    split at he
    · cases he
      exact h.device_account d row hd
    · exact h.device_account e r he

theorem Rooted.create (h : Rooted t) (network : Network) (base : SubnetAddress) (a : LeaseAddress)
    (password : Option PasswordVerifier) : Rooted (t.create n network base a password) where
  access m hm := by
    simp only [create_networks, AList.mem_insert]
    exact (create_access _ _ _ _ _ _ hm).imp_right (h.access m)
  links digest link hl := by
    simp only [create_links, create_networks, AList.mem_insert] at hl ⊢
    exact .inr (h.links digest link hl)
  policies m hm := by
    simp only [create_policies, create_networks, AList.mem_insert] at hm ⊢
    exact .inr (h.policies m hm)

theorem Rooted.drop (h : Rooted t) (n : NetworkId) : Rooted (t.drop n) where
  access m hm := by
    simp only [drop_access, drop_networks, AList.mem_erase] at hm ⊢
    exact ⟨hm.1, h.access m hm.2⟩
  links digest link hl := by
    obtain ⟨hl, hn⟩ := Map.lookup_eraseIf_eq_some.1 hl
    simp only [decide_eq_false_iff_not] at hn
    exact AList.mem_erase.2 ⟨hn, h.links digest link hl⟩
  policies m hm := by
    simp only [drop_policies, drop_networks, AList.mem_erase] at hm ⊢
    exact ⟨hm.1, h.policies m hm.2⟩

theorem Rooted.insertLink (h : Rooted t) {digest : Digest} {link : InvitationLink} (hn : link.networkId ∈ t.networks)
    {links : Map Digest InvitationLink} (hsub : ∀ k l, links.lookup k = some l → t.links.lookup k = some l)
    (k : Digest) (l : InvitationLink) (hl : (links.insert digest link).lookup k = some l) :
    l.networkId ∈ t.networks := by
  rw [Map.lookup_insert] at hl
  split at hl
  · cases hl
    exact hn
  · exact h.links k l (hsub k l hl)

theorem Rooted.setAccess (h : Rooted t) {verifier : Option PasswordVerifier} (hn : verifier ≠ none → n ∈ t.networks) :
    Rooted (t.setAccess n verifier) where
  access m hm := by
    cases verifier with
    | none => exact h.access m (AList.mem_erase.1 hm).2
    | some v =>
      simp only [setAccess_access, AList.mem_insert] at hm
      rcases hm with rfl | hm
      · exact hn (by simp)
      · exact h.access m hm
  links := h.links
  policies := h.policies

theorem Rooted.savePolicy (h : Rooted t) (document : PolicyDocument) (hn : n ∈ t.networks) :
    Rooted (t.savePolicy n document) where
  access := h.access
  links := h.links
  policies m hm := by
    simp only [savePolicy_policies, AList.mem_insert] at hm
    rcases hm with rfl | hm
    · exact hn
    · exact h.policies m hm

/-- Every store operation keeps the invariant. -/
theorem Wf.change (h : Wf t) (hc : Change t t') : Wf t' := by
  obtain ⟨ha, ho, hs, hac, hr⟩ := h
  cases hc with
  | none => exact ⟨ha, ho, hs, hac, hr⟩
  | create password nonzero fresh unassigned inside unleased =>
    exact ⟨ha.create password fresh unassigned inside unleased, ho.create password nonzero fresh, hs.create _ _ _ _,
      hac.of_eq (create_accounts ..) (create_accountDevices ..), hr.create _ _ _ _⟩
  | drop n => exact ⟨ha.drop n, ho.drop n, hs.drop n, hac.of_eq, hr.drop n⟩
  | join joinedAtMs hj =>
    exact ⟨ha.join hj, ho.join joinedAtMs hj, hs.join _ _ _ _, hac.of_eq,
      hr.of_eq⟩
  | leave hm =>
    refine ⟨ha.leave _ _, ho.leave hm, hs.leave _ _, hac.of_eq,
      ⟨hr.access, hr.links, fun m hp => hr.policies m ?_⟩⟩
    exact (mem_prunedPolicies t _ m _).1 hp
  | invite atMs _ member request =>
    exact ⟨ha.of_eq, ho.of_eq, hs.invite atMs member request, hac.of_eq,
      hr.of_eq⟩
  | uninvite key =>
    exact ⟨ha.of_eq, ho.of_eq, hs.uninvite key, hac.of_eq,
      hr.of_eq⟩
  | request atMs _ member invitation =>
    exact ⟨ha.of_eq, ho.of_eq, hs.request atMs member invitation, hac.of_eq,
      hr.of_eq⟩
  | unrequest key =>
    exact ⟨ha.of_eq, ho.of_eq, hs.unrequest key, hac.of_eq,
      hr.of_eq⟩
  | issueLink digest link nowMs network =>
    refine ⟨ha.of_eq, ho.of_eq, hs.of_eq, hac.of_eq,
      ⟨hr.1, hr.insertLink network ?_, hr.3⟩⟩
    exact fun k l hl => (Map.lookup_eraseIf_eq_some.1 hl).1
  | redeem atMs live ofNetwork member =>
    have hn := hr.links _ _ live
    refine ⟨ha.of_eq, ho.of_eq, hs.redeem _ _ atMs member, hac.of_eq, ⟨hr.1, hr.insertLink ?_ fun _ _ => id, hr.3⟩⟩
    exact hn
  | dropLinks n =>
    refine ⟨ha.of_eq, ho.of_eq, hs.of_eq, hac.of_eq,
      ⟨hr.1, fun k l hl => hr.2 k l ?_, hr.3⟩⟩
    exact (Map.lookup_eraseIf_eq_some.1 hl).1
  | setAccess n verifier network =>
    exact ⟨ha.of_eq, ho.of_eq, hs.of_eq, hac.of_eq,
      hr.setAccess network⟩
  | savePolicy n document network =>
    exact ⟨ha.of_eq, ho.of_eq, hs.of_eq, hac.of_eq,
      hr.savePolicy document network⟩
  | openAccount _ _ unknown =>
    exact ⟨ha.of_eq, ho.of_eq, hs.of_eq, hac.openAccount unknown,
      hr.of_eq⟩
  | offerEnrollment id enrollment _ =>
    exact ⟨ha.of_eq, ho.of_eq, hs.of_eq, hac.of_eq,
      hr.of_eq⟩
  | enroll digest label account revoked =>
    exact ⟨ha.of_eq, ho.of_eq, hs.of_eq,
      hac.enroll digest label account revoked, hr.of_eq⟩
  | revoke hd notOwner =>
    exact ⟨ha.of_eq, ho.of_eq, hs.of_eq, hac.revoke hd notOwner,
      hr.of_eq⟩

end Tables

/-! ## Sequences of operations -/

/-- A call of an operation that writes. -/
inductive StoreOp
  | recordDevice (d : DeviceId) (seenAtMs : ℤ)
  | createNetwork (n : NetworkId) (network : Network) (password : Option PasswordVerifier)
  | deleteNetwork (n : NetworkId)
  | addMember (n : NetworkId) (d : DeviceId) (joinedAtMs : ℤ)
  | removeMember (n : NetworkId) (d : DeviceId)
  | addInvitation (n : NetworkId) (d : DeviceId) (invitedAtMs : ℤ)
  | removeInvitation (n : NetworkId) (d : DeviceId)
  | addJoinRequest (n : NetworkId) (d : DeviceId) (requestedAtMs : ℤ)
  | removeJoinRequest (n : NetworkId) (d : DeviceId)
  | issueInviteLink (n : NetworkId) (digest : Digest) (nowMs expiresMs : ℤ) (maxUses : UInt16)
  | redeemInviteLink (n : NetworkId) (digest : Digest) (actor : DeviceId) (nowMs : ℤ)
  | revokeInviteLinks (n : NetworkId)
  | setNetworkPassword (n : NetworkId) (password : Option PasswordVerifier)
  | createAccount (account : AccountRecord) (nowMs : ℤ)
  | issueEnrollment (account : AccountId) (digest : Digest) (expiresMs : ℤ)
  | enrollDevice (digest : Digest) (device : DeviceId) (label : Text) (nowMs : ℤ)
  | revokeAccountDevice (account : AccountId) (device : DeviceId)
  | saveNetworkPolicy (n : NetworkId) (policy : NetworkPolicy) (expected : UInt64) (audit : Option AuditEvent)
  | appendAudit (event : AuditEvent)

/-- The database after a call; a call that throws was rolled back. -/
def Db.after {α : Type} (db : Db) : Except Exn (α × Db) → Db
  | .ok (_, db') => db'
  | .error _ => db

def Db.step (db : Db) : StoreOp → Db
  | .recordDevice d t => db.after (db.recordDevice d t)
  | .createNetwork n network password => db.after (db.createNetwork n network password)
  | .deleteNetwork n => db.after (db.deleteNetwork n)
  | .addMember n d t => db.after (db.addMember n d t)
  | .removeMember n d => db.after (db.removeMember n d)
  | .addInvitation n d t => db.after (db.addInvitation n d t)
  | .removeInvitation n d => db.after (db.removeInvitation n d)
  | .addJoinRequest n d t => db.after (db.addJoinRequest n d t)
  | .removeJoinRequest n d => db.after (db.removeJoinRequest n d)
  | .issueInviteLink n digest now expires uses => db.after (db.issueInviteLink n digest now expires uses)
  | .redeemInviteLink n digest actor now => db.after (db.redeemInviteLink n digest actor now)
  | .revokeInviteLinks n => db.after (db.revokeInviteLinks n)
  | .setNetworkPassword n password => db.after (db.setNetworkPassword n password)
  | .createAccount account now => db.after (db.createAccount account now)
  | .issueEnrollment account digest expires => db.after (db.issueEnrollment account digest expires)
  | .enrollDevice digest device label now => db.after (db.enrollDevice digest device label now)
  | .revokeAccountDevice account device => db.after (db.revokeAccountDevice account device)
  | .saveNetworkPolicy n policy expected audit => db.after (db.saveNetworkPolicy n policy expected audit)
  | .appendAudit event => db.after (db.appendAudit event)

theorem Change.after {α : Type} {db : Db} {x : Except Exn (α × Db)}
    (h : ∀ a db', x = .ok (a, db') → Change db.toTables db'.toTables) : Change db.toTables (db.after x).toTables := by
  rcases x with e | ⟨a, db'⟩
  · exact .none
  · exact h a db' rfl

/-- Each operation makes one of the changes. -/
theorem Db.change_step (db : Db) (op : StoreOp) : Change db.toTables (db.step op).toTables := by
  cases op <;> refine .after fun r db' h => ?_
  case recordDevice =>
    rw [(recordDevice_ok h).2.2.1]
    exact .none
  case createNetwork =>
    obtain ⟨base, a, nonzero, fresh, -, unassigned, inside, unleased, -, -, -, rfl⟩ := createNetwork_ok h
    exact .create _ nonzero fresh unassigned inside unleased
  case deleteNetwork =>
    rw [deleteNetwork_ok h]
    exact .drop _
  case addMember =>
    obtain ⟨-, rfl⟩ | ⟨-, a, hj, rfl⟩ := addMember_ok h
    · exact .none
    · exact .join _ hj
  case removeMember =>
    obtain ⟨-, -, rfl⟩ | ⟨-, hm, rfl⟩ := removeMember_ok h
    · exact .none
    · exact .leave hm
  case addInvitation =>
    obtain ⟨-, rfl⟩ | ⟨-, hm, hj, hn, rfl⟩ := addInvitation_ok h
    · exact .none
    · exact .invite _ hn hm hj
  case removeInvitation =>
    rw [removeInvitation_ok h]
    exact .uninvite _
  case addJoinRequest =>
    obtain ⟨-, rfl⟩ | ⟨-, hm, hi, hn, rfl⟩ := addJoinRequest_ok h
    · exact .none
    · exact .request _ hn hm hi
  case removeJoinRequest =>
    rw [removeJoinRequest_ok h]
    exact .unrequest _
  case issueInviteLink =>
    obtain ⟨hn, -, -, rfl⟩ := issueInviteLink_ok h
    exact .issueLink _ _ _ hn
  case redeemInviteLink =>
    obtain ⟨-, -, rfl⟩ | ⟨-, link, hl, hm, -, rfl⟩ := redeemInviteLink_ok h
    · exact .none
    · obtain ⟨hlook, hnet, -, -⟩ := liveLink_eq_some.1 hl
      exact .redeem _ hlook hnet hm
  case revokeInviteLinks =>
    rw [revokeInviteLinks_ok h]
    exact .dropLinks _
  case setNetworkPassword =>
    obtain ⟨hn, rfl⟩ := setNetworkPassword_ok h
    exact .setAccess _ _ hn
  case createAccount =>
    obtain ⟨hid, ho, hd, rfl⟩ := createAccount_ok h
    exact .openAccount hid ho hd
  case issueEnrollment =>
    obtain ⟨ha, rfl⟩ := issueEnrollment_ok h
    exact .offerEnrollment _ _ ha
  case enrollDevice =>
    obtain ⟨-, rfl⟩ | ⟨-, account, -, ha, hrow, rfl⟩ := enrollDevice_ok h
    · exact .none
    · exact .enroll _ _ ha hrow
  case revokeAccountDevice =>
    obtain rfl | ⟨row, hrow, -, ho, rfl⟩ := revokeAccountDevice_ok h
    · exact .none
    · exact .revoke hrow ho
  case saveNetworkPolicy =>
    obtain ⟨-, rfl⟩ | ⟨-, hn, -, -, -, -, he, ht, -⟩ := saveNetworkPolicy_ok h
    · exact .none
    · rw [ht]
      exact .savePolicy _ _ hn
  case appendAudit =>
    rw [(appendAudit_ok h).1]
    exact .none

/-- The tables of every database that operations can build from an empty one
are well formed. -/
theorem Db.wf_reachable {db : Db} (h : Reachable Db.step {} db) : db.Wf :=
  h.inv (fun db => db.Wf) Tables.wf_empty fun db op hw => hw.change (db.change_step op)

/-- The rows of the tables, read as the relay means them. -/
structure Consistent (t : Tables) : Prop where
  /-- Every network has exactly one subnet record, and every record belongs to a network. -/
  subnet_unique : ∀ n ∈ t.networks, ∃! row, row ∈ t.subnets.rows ∧ row.1 = n
  subnet_network : ∀ row ∈ t.subnets.rows, row.1 ∈ t.networks
  subnets_distinct : ∀ r ∈ t.subnets.rows, ∀ s ∈ t.subnets.rows, r.2.val = s.2.val → r = s
  subnet_range : ∀ row ∈ t.subnets.rows, row.2.val.toNat % 256 = 0 ∧
    0x0a400000 ≤ row.2.val.toNat ∧ row.2.val.toNat < 0x0a800000
  /-- Memberships and leases are in bijection. -/
  lease_of_member : ∀ m ∈ t.memberships.rows, ∃! lease, lease ∈ t.leases.rows ∧ lease.1 = m.1
  member_of_lease : ∀ lease ∈ t.leases.rows, ∃! m, m ∈ t.memberships.rows ∧ m.1 = lease.1
  /-- A lease is a host address of its own network's subnet. -/
  lease_host : ∀ lease ∈ t.leases.rows, ∃ base, t.subnets.lookup lease.1.1 = some base ∧
    base.val.toNat + 1 ≤ lease.2.val.toNat ∧ lease.2.val.toNat ≤ base.val.toNat + 254
  leases_distinct : ∀ r ∈ t.leases.rows, ∀ s ∈ t.leases.rows, r.2.val = s.2.val → r = s
  /-- The one owner row of a network is that of `owner_device_id`. -/
  owner_unique : ∀ n network, t.networks.lookup n = some network →
    ∃! m, m ∈ t.memberships.rows ∧ m.1.1 = n ∧ m.2.role = .owner
  owner_device : ∀ m ∈ t.memberships.rows, m.2.role = .owner → t.owner m.1.1 = some m.1.2
  /-- A pair is in at most one of the three tables that say how it stands. -/
  invited_only : ∀ key ∈ t.invitations, key ∉ t.memberships ∧ key ∉ t.joinRequests
  requested_only : ∀ key ∈ t.joinRequests, key ∉ t.memberships ∧ key ∉ t.invitations

theorem existsUnique_row {K V : Type} [DecidableEq K] {m : Map K V} {k : K} (h : k ∈ m) :
    ∃! row, row ∈ m.rows ∧ row.1 = k := by
  obtain ⟨v, hv⟩ := Map.mem_iff_lookup.1 h
  refine ⟨(k, v), ⟨Map.mem_rows.2 hv, rfl⟩, ?_⟩
  rintro ⟨k', v'⟩ ⟨hr, rfl⟩
  rw [Map.mem_rows, hv] at hr
  cases hr
  rfl

theorem rows_distinct {K V W : Type} [DecidableEq K] {f : V → W} {m : Map K V} (h : Map.Distinct f m) :
    ∀ r ∈ m.rows, ∀ s ∈ m.rows, f r.2 = f s.2 → r = s := by
  rintro ⟨j, a⟩ hr ⟨k, b⟩ hs hab
  rw [Map.mem_rows] at hr hs
  obtain rfl := h j k a b hr hs hab
  rw [hr] at hs
  cases hs
  rfl

theorem host_of_subnet {base a : UInt32} (h : base = a - a % 256) (h₁ : 1 ≤ a % 256) (h₂ : a % 256 ≤ 254) :
    base.toNat + 1 ≤ a.toNat ∧ a.toNat ≤ base.toNat + 254 := by
  have hmod : (a % 256).toNat = a.toNat % 256 := UInt32.toNat_mod a 256
  have hle : a % 256 ≤ a := by
    rw [UInt32.le_iff_toNat_le, hmod]
    exact Nat.mod_le _ _
  rw [h, UInt32.toNat_sub_of_le _ _ hle, hmod]
  rw [UInt32.le_iff_toNat_le, hmod] at h₁ h₂
  simp only [UInt32.reduceToNat] at h₁ h₂
  have := Nat.mod_le a.toNat 256
  omega

theorem Tables.Wf.consistent {t : Tables} (h : t.Wf) : Consistent t where
  subnet_unique n hn := existsUnique_row ((h.addressed.subnet_network n).2 hn)
  subnet_network row hr := (h.addressed.subnet_network row.1).1 (Map.mem_of_lookup (Map.mem_rows.1 hr))
  subnets_distinct := rows_distinct h.addressed.subnet_distinct
  subnet_range row _ := by
    obtain ⟨a, h₁, h₂, h₃⟩ := row.2
    rw [UInt32.le_iff_toNat_le] at h₁
    rw [UInt32.lt_iff_toNat_lt] at h₂
    have hmod : (a % 256).toNat = a.toNat % 256 := UInt32.toNat_mod a 256
    refine ⟨?_, h₁, h₂⟩
    rw [← hmod]
    exact congrArg UInt32.toNat h₃
  lease_of_member m hm :=
    existsUnique_row ((h.addressed.lease_member m.1).2 (Map.mem_of_lookup (Map.mem_rows.1 hm)))
  member_of_lease lease hl :=
    existsUnique_row ((h.addressed.lease_member lease.1).1 (Map.mem_of_lookup (Map.mem_rows.1 hl)))
  lease_host lease hl := by
    obtain ⟨base, hbase, hin⟩ := h.addressed.lease_inside lease.1.1 lease.1.2 lease.2 (Map.mem_rows.1 hl)
    exact ⟨base, hbase, host_of_subnet hin lease.2.property.2.2.1 lease.2.property.2.2.2⟩
  leases_distinct := rows_distinct h.addressed.lease_distinct
  owner_unique n network hn := by
    obtain ⟨row, hrow, hr⟩ := h.owned.owner_row n _ (lookup_owner hn)
    refine ⟨((n, network.ownerDeviceId), row), ⟨Map.mem_rows.2 hrow, rfl, hr⟩, ?_⟩
    rintro ⟨⟨m, d⟩, row'⟩ ⟨hm, rfl, hr'⟩
    rw [Map.mem_rows] at hm
    have ho := h.owned.owner_only _ d row' hm hr'
    rw [lookup_owner hn, Option.some.injEq] at ho
    subst ho
    rw [hrow, Option.some.injEq] at hm
    rw [hm]
  owner_device m hm hr := h.owned.owner_only m.1.1 m.1.2 m.2 (Map.mem_rows.1 hm) hr
  invited_only key hk := ⟨h.settled.invited_nonmember key hk, fun hj => h.settled.requested_uninvited key hj hk⟩
  requested_only key hk := ⟨h.settled.requested_nonmember key hk, h.settled.requested_uninvited key hk⟩

/-- Whatever operations ran on an empty database, whether each returned or
threw, its rows are consistent. -/
theorem store_consistent (ops : List StoreOp) : Consistent (ops.foldl Db.step {}).toTables :=
  (Db.wf_reachable (Reachable.init.foldl ops)).consistent

end LanLink
