import LanLink.Relay.Effects
/-!
# The relay as a machine on cores

`Effect c op ok c'` says what a call can do: from the core `c` the operation
`op` may end in `c'`, reporting a success or not. It is the relay without its
code: every constructor is one thing an operation is for, with the checks it
makes. `perform_effect` connects it to the functions.
-/
open LanLink.Lib LanLink.Lib.Action

namespace LanLink

open Db (Joinable MemberRow Unleased Unassigned)

/-! ## Counters alone -/

/-- The counter of `n` has risen. -/
def Rises (m m' : Map NetworkId UInt64) (n : NetworkId) : Prop := ∃ v, m'.lookup n = some v ∧ m.getD n 0 < v

/-- Counters of `C` may have risen, the others are the same. -/
def Counted (C : NetworkId → Prop) (m m' : Map NetworkId UInt64) : Prop :=
  ∀ n, m'.lookup n = m.lookup n ∨ (C n ∧ Rises m m' n)

/-- Nothing but counters moved: key epochs of `E` and revisions of `R`. -/
structure Ticked (E R : NetworkId → Prop) (c c' : Core) : Prop where
  tables : c'.tables = c.tables
  activeKeys : c'.activeKeys = c.activeKeys
  managementCapable : c'.managementCapable = c.managementCapable
  epochs : Counted E c.keyEpochs c'.keyEpochs
  revisions : Counted R c.revisions c'.revisions

theorem lt_succ_of_ne_max {x : UInt64} (h : x ≠ uint64Max) : x < x + 1 := by
  have hx : x.toNat ≠ 2 ^ 64 - 1 := fun hx => h (UInt64.toNat_inj.1 hx)
  have hlt := x.toNat_lt
  rw [UInt64.lt_iff_toNat_lt, UInt64.toNat_add, UInt64.toNat_one, Nat.mod_eq_of_lt] <;> omega

section
variable {C C' : NetworkId → Prop} {m m' m'' : Map NetworkId UInt64} {n : NetworkId}

theorem Counted.refl (m : Map NetworkId UInt64) : Counted C m m := fun _ => .inl rfl

theorem Counted.trans (h : Counted C m m') (h' : Counted C m' m'') : Counted C m m'' := by
  intro n
  obtain hsame | ⟨hc, v, hv, hlt⟩ := h n
  · obtain hsame' | ⟨hc', w, hw, hlt'⟩ := h' n
    · exact .inl (hsame'.trans hsame)
    · exact .inr ⟨hc', w, hw, by rwa [Map.getD, hsame] at hlt'⟩
  · obtain hsame' | ⟨-, w, hw, hlt'⟩ := h' n
    · exact .inr ⟨hc, v, hsame'.trans hv, hlt⟩
    · refine .inr ⟨hc, w, hw, UInt64.lt_trans hlt ?_⟩
      rwa [Map.getD, hv] at hlt'

theorem Counted.mono (h : Counted C m m') (hC : ∀ n, C n → C' n) : Counted C' m m' :=
  fun n => (h n).imp_right (And.imp_left (hC n))

/-- Advancing one counter. -/
theorem Counted.bump (hC : C n) (h : m.getD n 0 ≠ uint64Max) : Counted C m (m.insert n (m.getD n 0 + 1)) := by
  intro k
  rw [Rises, Map.lookup_insert]
  by_cases hk : k = n
  · subst hk
    exact .inr ⟨hC, _, if_pos rfl, lt_succ_of_ne_max h⟩
  · exact .inl (if_neg hk)

end

namespace Ticked
variable {E R : NetworkId → Prop} {c c' c'' : Core} {n : NetworkId}

theorem refl (c : Core) : Ticked E R c c := ⟨rfl, rfl, rfl, .refl _, .refl _⟩

theorem trans (h : Ticked E R c c') (h' : Ticked E R c' c'') : Ticked E R c c'' where
  tables := h'.tables.trans h.tables
  activeKeys := h'.activeKeys.trans h.activeKeys
  managementCapable := h'.managementCapable.trans h.managementCapable
  epochs := h.epochs.trans h'.epochs
  revisions := h.revisions.trans h'.revisions

theorem mono {E' R' : NetworkId → Prop} (h : Ticked E R c c') (hE : ∀ n, E n → E' n) (hR : ∀ n, R n → R' n) :
    Ticked E' R' c c' :=
  { h with epochs := h.epochs.mono hE, revisions := h.revisions.mono hR }

theorem bumpEpoch (hE : E n) (h : ¬ c.EpochFull n) : Ticked E R c (c.bumpEpoch n) :=
  ⟨rfl, rfl, rfl, .bump hE h, .refl _⟩

theorem bumpRevision (hR : R n) (h : ¬ c.RevisionFull n) : Ticked E R c (c.bumpRevision n) :=
  ⟨rfl, rfl, rfl, .refl _, .bump hR h⟩

end Ticked

theorem Advanced.tables {n : NetworkId} {ok : Bool} {c c' : Core} (h : Advanced n ok c c') : c'.tables = c.tables := by
  cases h <;> rfl

theorem Advanced.ticked {n : NetworkId} {ok : Bool} {c c' : Core} (h : Advanced n ok c c') :
    Ticked (· = n) (· = n) c c' := by
  cases h with
  | epochFull _ => exact .refl c
  | revisionFull he _ => exact .bumpEpoch rfl he
  | done he hr => exact .trans (.bumpEpoch rfl he) (.bumpRevision rfl hr)

/-! ## Revoking a device -/

/-- A member that does not own the network can be removed. -/
theorem memberRow_of_mem {t : Tables} {n : NetworkId} {d : DeviceId} (hw : t.Wf) (hm : (n, d) ∈ t.memberships) (ho : t.owner n ≠ some d) :
    MemberRow t n d := by
  obtain ⟨row, hrow⟩ := Map.mem_iff_lookup.1 hm
  refine ⟨row, hrow, ?_⟩
  cases hr : row.role with
  | owner => exact absurd (hw.owned.owner_only n d row hrow hr) ho
  | member => rfl

theorem memberRow_leave {t : Tables} {n m : NetworkId} {d : DeviceId} (h : MemberRow t m d) (hne : m ≠ n) :
    MemberRow (t.leave n d) m d := by
  obtain ⟨row, hrow, hr⟩ := h
  refine ⟨row, ?_, hr⟩
  rw [Tables.leave_memberships, Map.lookup_erase, if_neg, hrow]
  simp [hne]

@[simps] def Core.dropKey (d : DeviceId) (c : Core) : Core := { c with activeKeys := c.activeKeys.erase d }

/-- `d` leaves the networks one after the other. -/
inductive Purged (d : DeviceId) : List NetworkId → Core → Core → Prop
  | nil {c : Core} : Purged d [] c c
  | cons {n : NetworkId} {networks : List NetworkId} {c c₁ c' : Core} (member : MemberRow c.tables n d)
      (advanced : Advanced n true (c.withTables (c.tables.leave n d)) c₁) (rest : Purged d networks c₁ c') :
      Purged d (n :: networks) c c'

/-- The removal of `d` from `n` did not finish: the policy's revision or a
counter is used up. -/
inductive Stopped (n : NetworkId) (d : DeviceId) (c : Core) : Core → Prop
  | policy (changed : prunedPolicy d (c.tables.policy n) ≠ c.tables.policy n)
      (full : (c.tables.policy n).revision = uint64Max) : Stopped n d c c
  | counter {c' : Core} (member : MemberRow c.tables n d)
      (h : Advanced n false (c.withTables (c.tables.leave n d)) c') : Stopped n d c c'

/-- The actor owns the account that `d` is in, and `d` is another device of it
that is not revoked. -/
structure OwnsDevice (t : Tables) (actor d : DeviceId) (row : AccountDeviceRow) : Prop where
  actor_row : ∃ own, t.accountDevices.lookup actor = some own ∧ own.accountId = row.accountId ∧ own.revoked = false
  owner : ∃ a, t.accounts.lookup row.accountId = some a ∧ a.owner = actor
  device : t.accountDevices.lookup d = some row
  allowed : row.revoked = false
  other : d ≠ actor

/-- The networks `d` is a member of, once each. -/
structure NetworksOf (t : Tables) (d : DeviceId) (networks : List NetworkId) : Prop where
  mem : ∀ n, n ∈ networks ↔ (n, d) ∈ t.memberships
  nodup : networks.Nodup

/-! ## Policy edits -/

/-- The zero device or a member. -/
def Tables.Member (t : Tables) (n : NetworkId) (d : DeviceId) : Prop := d = 0 ∨ (n, d) ∈ t.leases

/-- Every check `manage_network` makes of an edit of the policy `current` of
`q.networkId` to `next`, except that restricted devices are known. -/
structure Edit (c : Core) (owner actor : DeviceId) (q : ManagementRequest) (current next : NetworkPolicy) : Prop where
  capable : actor ∈ c.managementCapable
  requested : (q.action = .requestGateway ∧ current.managed ∧ policyRole current actor ≠ .restricted ∧
      q.policy.revision = current.revision ∧ (∀ g ∈ current.gateways, g.device ≠ actor) ∧
      current.gateways.length < 16 ∧
      next = { current with gateways := current.gateways ++ [{ device := actor, approved := false }] }) ∨
    (q.action = .replacePolicy ∧ c.CanManage q.networkId actor ∧ next = q.policy)
  hubs : ∀ hub ∈ q.policy.hubs, c.tables.Member q.networkId hub
  rules : ∀ r ∈ q.policy.rules, c.tables.Member q.networkId r.first.device ∧ c.tables.Member q.networkId r.second.device
  gateways : ∀ g ∈ next.gateways, c.tables.Member q.networkId g.device ∧ policyRole next g.device ≠ .restricted ∧
    ((∃ old ∈ current.gateways, old.device = g.device) ∨
      (q.action = .requestGateway ∧ g.device = actor ∧ g.approved = false))
  members : ∀ m ∈ next.members, (c.tables.Member q.networkId m.device ∨ m.role = .restricted) ∧
    (m.device = owner → m.role = .member)
  roles : actor ≠ owner → q.action = .replacePolicy → next.managed ∧
    (∀ m ∈ next.members, m.role = policyRole current m.device) ∧
    (∀ m ∈ current.members, m.role = policyRole next m.device)
  routes : ∀ r ∈ next.routes, ¬ subnetsOverlap r.address r.prefixLength virtualIpv4PoolFirst 10 ∧
    c.tables.Member q.networkId r.gateway ∧
    ∀ other ∈ c.tables.networks, other ≠ q.networkId → ∀ existing ∈ (c.tables.policy other).routes,
      ¬ subnetsOverlap r.address r.prefixLength existing.address existing.prefixLength
  revision : next.revision = current.revision ∧ next.revision ≠ uint64Max

/-! ## Effects -/

/-- Operations that are there to change tables. -/
def Op.Commits : Op → Prop
  | .manageNetwork _ q _ => q.action ≠ .inspect
  | .accessRequest _ q _ => q.action ≠ .accountStatus
  | .createNetwork _ _ _ | .joinNetwork _ _ _ | .leaveNetwork _ _ _ | .inviteMember _ _ _ | .approveMember _ _ _
  | .kickMember _ _ _ => True
  | _ => False

/-- Calls about sessions: a key or a capability of the actor. -/
def Op.Session : Op → Prop
  | .publishDeviceKey _ _ _ _ | .removeDeviceKey _ _ | .setManagementCapable _ _ => True
  | _ => False

/-- Calls that create a network for their actor. -/
def Op.Creates : Op → Prop
  | .createNetwork _ _ _ => True
  | .accessRequest _ q _ => q.action = .networkCreateProtected
  | _ => False

/-- Calls by which their actor asks to join `n`; a password has to be right. -/
def Op.Joins (crypto : Crypto) (c : Core) (n : NetworkId) : Op → Prop
  | .joinNetwork _ q _ => q.networkId = n
  | .accessRequest _ q _ => q.action = .passwordJoin ∧ q.networkId = n ∧
      ∃ v, c.tables.access.lookup n = some v ∧ passwordMatches crypto q.secret v = .ok true
  | _ => False

/-- The call is the access request `q` of its actor with the given action. -/
def Op.Requests (action : AccessAction) (q : AccessRequest) (op : Op) : Prop :=
  q.action = action ∧ ∃ t, op = .accessRequest op.actor q t

/-- Why `d` may become a member of `n`. -/
inductive Admission (crypto : Crypto) (c : Core) (op : Op) (n : NetworkId) (d : DeviceId) : Prop
  | invited (hop : op.Joins crypto c n) (self : d = op.actor) (invitation : (n, d) ∈ c.tables.invitations)
  | password {q : AccessRequest} {v : PasswordVerifier} (hop : op.Requests .passwordJoin q) (network : q.networkId = n)
      (self : d = op.actor) (verifier : c.tables.access.lookup n = some v)
      (secret : passwordMatches crypto q.secret v = .ok true) (open' : v.requireApproval = false)
  | approved {t : ℤ} (hop : op = .approveMember op.actor ⟨n, d⟩ t) (manager : c.CanManage n op.actor)
      (request : (n, d) ∈ c.tables.joinRequests)

/-- Why `d` may be removed from `n`. -/
inductive Removal (c : Core) (op : Op) (n : NetworkId) (d : DeviceId) : Prop
  | leave {t : ℤ} (hop : op = .leaveNetwork op.actor ⟨n⟩ t) (self : d = op.actor)
  | kick {t : ℤ} (hop : op = .kickMember op.actor ⟨n, d⟩ t) (manager : c.CanManage n op.actor)
      (admin : c.tables.owner n ≠ some op.actor → policyRole (c.tables.policy n) d ≠ .administrator)

/-- A use of the link of `digest` by the actor. -/
structure Redemption (crypto : Crypto) (c : Core) (op : Op) (n : NetworkId) (digest : Digest) (link : InvitationLink)
    (atMs : ℤ) : Prop where
  call : ∃ q, op = .accessRequest op.actor q atMs ∧ q.action = .inviteRedeem ∧ q.networkId = n ∧
    digest = accessDigest crypto q.secret
  live : c.tables.links.lookup digest = some link
  network : link.networkId = n
  fresh : atMs < link.expiresMs
  uses : 0 < link.remaining
  nonmember : (n, op.actor) ∉ c.tables.memberships
  time : 0 ≤ atMs

inductive Effect (crypto : Crypto) (c : Core) (op : Op) : Bool → Core → Prop
  | quiet {ok : Bool} (h : ok = true → ¬ op.Commits) : Effect crypto c op ok c
  | created {ok : Bool} {c' : Core} {n : NetworkId} {network : Network} {base : SubnetAddress} {a : LeaseAddress}
      (password : Option PasswordVerifier) (hop : op.Creates) (owner : network.ownerDeviceId = op.actor)
      (nonzero : n ≠ 0) (fresh : n ∉ c.tables.networks) (unassigned : Unassigned c.tables base)
      (inside : base.val = a.val - a.val % 256) (unleased : Unleased c.tables a)
      (advanced : Advanced n ok (c.withTables (c.tables.create n network base a password)) c') :
      Effect crypto c op ok c'
  | joined {ok : Bool} {c' : Core} {n : NetworkId} {d : DeviceId} {a : LeaseAddress} (atMs : ℤ)
      (admission : Admission crypto c op n d) (joinable : Joinable c.tables n d a)
      (advanced : Advanced n ok (c.withTables (c.tables.join n d { role := .member, joinedAtMs := atMs } a)) c') :
      Effect crypto c op ok c'
  | requested {n : NetworkId} (atMs : ℤ) (hop : op.Joins crypto c n) (network : n ∈ c.tables.networks)
      (member : (n, op.actor) ∉ c.tables.memberships) (invitation : (n, op.actor) ∉ c.tables.invitations) :
      Effect crypto c op false (c.withTables (c.tables.request n op.actor atMs))
  | redeemed {n : NetworkId} {digest : Digest} {link : InvitationLink} {atMs : ℤ}
      (redemption : Redemption crypto c op n digest link atMs) :
      Effect crypto c op false (c.withTables (c.tables.redeem n digest link op.actor atMs))
  | redeemJoined {ok : Bool} {c' : Core} {n : NetworkId} {digest : Digest} {link : InvitationLink} {atMs : ℤ}
      {a : LeaseAddress} (joinedAtMs : ℤ) (redemption : Redemption crypto c op n digest link atMs)
      (joinable : Joinable (c.tables.redeem n digest link op.actor atMs) n op.actor a)
      (advanced : Advanced n ok (c.withTables ((c.tables.redeem n digest link op.actor atMs).join n op.actor
        { role := .member, joinedAtMs } a)) c') : Effect crypto c op ok c'
  | left {ok : Bool} {c' : Core} {n : NetworkId} {d : DeviceId} (removal : Removal c op n d)
      (member : MemberRow c.tables n d) (advanced : Advanced n ok (c.withTables (c.tables.leave n d)) c') :
      Effect crypto c op ok c'
  | invited {n : NetworkId} {d : DeviceId} {t : ℤ} (hop : op = .inviteMember op.actor ⟨n, d⟩ t)
      (manager : c.CanManage n op.actor) (member : (n, d) ∉ c.tables.memberships)
      (request : (n, d) ∉ c.tables.joinRequests) :
      Effect crypto c op true (c.withTables (c.tables.invite n d t))
  | edited {ok : Bool} {c' : Core} {owner : DeviceId} {q : ManagementRequest} {t : ℤ} {next : NetworkPolicy}
      (hop : op = .manageNetwork op.actor q t) (howner : c.tables.owner q.networkId = some owner)
      (lease : (q.networkId, op.actor) ∈ c.tables.leases)
      (valid : Encodable q.policy)
      (edit : Edit c owner op.actor q (c.tables.policy q.networkId) next)
      (encodable : Encodable { next with revision := next.revision + 1 })
      (bounded : (next.revision + 1).toNat < 2 ^ 63)
      (advanced : Advanced q.networkId ok (c.withTables (c.tables.savePolicy q.networkId ⟨_, encodable⟩)) c') :
      Effect crypto c op ok c'
  | linkIssued {q : AccessRequest} {t : ℤ} (digest : Digest) (hop : op = .accessRequest op.actor q t)
      (action : q.action = .inviteIssue) (manager : c.CanManage q.networkId op.actor) :
      Effect crypto c op true (c.withTables (c.tables.issueLink digest
        ⟨q.networkId, t + q.lifetimeSeconds.toNat * 1000, q.maxUses.toNat⟩ t))
  | linksDropped {q : AccessRequest} (hop : op.Requests .inviteRevoke q) (manager : c.CanManage q.networkId op.actor) :
      Effect crypto c op true (c.withTables (c.tables.dropLinks q.networkId))
  | passwordSet {q : AccessRequest} (verifier : Option PasswordVerifier) (hop : op.Requests .passwordSet q)
      (manager : c.CanManage q.networkId op.actor) :
      Effect crypto c op true (c.withTables (c.tables.setAccess q.networkId verifier))
  | accountOpened {ok : Bool} {q : AccessRequest} {id : AccountId} {account : Account}
      (hop : op.Requests .accountCreate q) (owner : account.owner = op.actor) (fresh : id ∉ c.tables.accounts)
      (single : ∀ i a, c.tables.accounts.lookup i = some a → a.owner ≠ account.owner)
      (unknown : account.owner ∉ c.tables.accountDevices) :
      Effect crypto c op ok (c.withTables (c.tables.openAccount id account))
  | enrollmentOffered {q : AccessRequest} {id : AccountId} (enrollment : Enrollment)
      (hop : op.Requests .enrollmentIssue q) (account : id ∈ c.tables.accounts) :
      Effect crypto c op true (c.withTables (c.tables.offerEnrollment id enrollment))
  | enrolled {ok : Bool} {q : AccessRequest} {id : AccountId} (digest : Digest) (label : Text)
      (hop : op.Requests .deviceEnroll q) (account : id ∈ c.tables.accounts)
      (unknown : op.actor ∉ c.tables.accountDevices) :
      Effect crypto c op ok (c.withTables (c.tables.enroll id digest op.actor label))
  | revoked {c' : Core} {q : AccessRequest} {row : AccountDeviceRow} {networks : List NetworkId}
      (hop : op.Requests .deviceRevoke q) (owns : OwnsDevice c.tables op.actor q.deviceId row)
      (networksOf : NetworksOf c.tables q.deviceId networks)
      (notOwner : ∀ n, c.tables.owner n ≠ some q.deviceId)
      (purged : Purged q.deviceId networks (c.withTables (c.tables.revoke q.deviceId row)) c') :
      Effect crypto c op true (c'.dropKey q.deviceId)
  | revokeStopped {c₁ c' : Core} {q : AccessRequest} {row : AccountDeviceRow} {before after : List NetworkId}
      {n : NetworkId} (hop : op.Requests .deviceRevoke q) (owns : OwnsDevice c.tables op.actor q.deviceId row)
      (networksOf : NetworksOf c.tables q.deviceId (before ++ n :: after))
      (notOwner : ∀ n, c.tables.owner n ≠ some q.deviceId)
      (purged : Purged q.deviceId before (c.withTables (c.tables.revoke q.deviceId row)) c₁)
      (stopped : Stopped n q.deviceId c₁ c') : Effect crypto c op false c'
  | keyPublished {ok : Bool} {c' : Core} {session : SessionId} {key : SignedDeviceKey} {t : ℤ}
      (hop : op = .publishDeviceKey op.actor session key t) (allowed : ¬ c.revoked op.actor)
      (ticked : Ticked (fun n => c.tables.owner n = some op.actor) (fun n => (n, op.actor) ∈ c.tables.memberships)
        { c with activeKeys := c.activeKeys.insert op.actor ⟨session, key⟩ } c') : Effect crypto c op ok c'
  | keyRemoved {ok : Bool} {c' : Core} {session : SessionId} (hop : op = .removeDeviceKey op.actor session)
      (ticked : Ticked (fun n => c.tables.owner n = some op.actor) (fun n => (n, op.actor) ∈ c.tables.memberships)
        { c with
          activeKeys := c.activeKeys.erase op.actor
          managementCapable := c.managementCapable.erase op.actor } c') : Effect crypto c op ok c'
  | capableSet {ok capable : Bool} {c' : Core} (hop : op = .setManagementCapable op.actor capable)
      (ticked : Ticked (fun _ => False)
        (fun n => (n, op.actor) ∈ c.tables.memberships ∧ (c.tables.policy n).managed)
        { c with managementCapable :=
            if capable then insert op.actor c.managementCapable else c.managementCapable.erase op.actor } c') :
      Effect crypto c op ok c'

theorem CreateEffect.effect (crypto : Crypto) (op : Op) {c c' : Core} {ok : Bool} (hop : op.Creates) (h : CreateEffect op.actor c ok c') :
    Effect crypto c op ok c' := by
  cases h with
  | none => exact .quiet (by simp)
  | created password owner nonzero fresh unassigned inside unleased advanced =>
    exact .created password hop owner nonzero fresh unassigned inside unleased advanced

theorem JoinEffect.effect {crypto : Crypto} {n : NetworkId} (op : Op) {c c' : Core} {ok credentialVerified : Bool} (hop : op.Joins crypto c n)
    (hpassword : ∀ v, credentialVerified = true → c.tables.access.lookup n = some v → v.requireApproval = false →
      ∃ q, op.Requests .passwordJoin q ∧ q.networkId = n ∧ passwordMatches crypto q.secret v = .ok true)
    (h : JoinEffect n op.actor credentialVerified c ok c') : Effect crypto c op ok c' := by
  cases h with
  | none => exact .quiet (by simp)
  | requested atMs network member invitation => exact .requested atMs hop network member invitation
  | joined atMs joinable admitted advanced =>
    refine .joined atMs ?_ joinable advanced
    obtain hinv | ⟨hc, v, hv, ha⟩ := admitted
    · exact .invited hop rfl hinv
    · obtain ⟨q, hq, hn, hsecret⟩ := hpassword v hc hv ha
      exact .password hq hn rfl hv hsecret ha

end LanLink
