import LanLink.Relay.Emission
import LanLink.Relay.Grounded
import LanLink.Relay.Gateways
/-!
# Peer-state revisions

A call that changes something a peer state of a network depends on advances the
revision of the network, and it does so after the change. So two states with one
revision are the same state. The exception is a revision or a key epoch that is
used up: the call throws, and what it has changed by then stays.
-/
open LanLink.Lib LanLink.Lib.Action

namespace LanLink

open Db (Joinable MemberRow Unleased Unassigned)

/-! ## Networks that a call advances -/

/-- A network whose counters a call has to advance, by what it finds when it starts. -/
inductive Op.Advancing (crypto : Crypto) (c : Core) (op : Op) (n : NetworkId) : Prop
  | joins {d : DeviceId} {a : LeaseAddress} (admission : Admission crypto c op n d) (joinable : Joinable c.tables n d a)
  | redeems {digest : Digest} {link : InvitationLink} {atMs : ℤ} {a : LeaseAddress}
      (redemption : Redemption crypto c op n digest link atMs)
      (joinable : Joinable (c.tables.redeem n digest link op.actor atMs) n op.actor a)
  | leaves {d : DeviceId} (removal : Removal c op n d) (member : MemberRow c.tables n d)
  | edits {owner : DeviceId} {q : ManagementRequest} {t : ℤ} {next : NetworkPolicy}
      (hop : op = .manageNetwork op.actor q t) (network : q.networkId = n) (howner : c.tables.owner q.networkId = some owner)
      (lease : (q.networkId, op.actor) ∈ c.tables.leases)
      (edit : Edit c owner op.actor q (c.tables.policy q.networkId) next)
  | revokes {q : AccessRequest} {row : AccountDeviceRow} (hop : op.Requests .deviceRevoke q)
      (owns : OwnsDevice c.tables op.actor q.deviceId row) (notOwner : ∀ m, c.tables.owner m ≠ some q.deviceId)
      (member : (n, q.deviceId) ∈ c.tables.memberships)
  | publishes {session : SessionId} {key : SignedDeviceKey} {t : ℤ}
      (hop : op = .publishDeviceKey op.actor session key t)
      (valid : session ≠ 0 ∧ verifySignedDeviceKey crypto key op.actor) (allowed : ¬ c.revoked op.actor)
      (member : (n, op.actor) ∈ c.tables.memberships)
  | removes {session : SessionId} (hop : op = .removeDeviceKey op.actor session)
      (current : (c.activeKeys.lookup op.actor).any fun k => k.sessionId = session)
      (member : (n, op.actor) ∈ c.tables.memberships)
  | declares {capable : Bool} (hop : op = .setManagementCapable op.actor capable)
      (member : (n, op.actor) ∈ c.tables.memberships) (managed : (c.tables.policy n).managed)

/-- Calls that advance the key epoch of `n` with its revision. -/
def Op.Rekeys (c : Core) (n : NetworkId) : Op → Prop
  | .publishDeviceKey actor _ _ _ | .removeDeviceKey actor _ => c.tables.owner n = some actor
  | .setManagementCapable _ _ => False
  | _ => True

/-- The counters that the call has to advance are not used up. -/
def Op.HasRoom (crypto : Crypto) (c : Core) (op : Op) : Prop :=
  ∀ n, op.Advancing crypto c n → ¬ c.RevisionFull n ∧ (op.Rekeys c n → ¬ c.EpochFull n)

/-- The revision of `n` is a later one. -/
def Raised (n : NetworkId) (c c' : Core) : Prop := c.revisions.getD n 0 < c'.revisions.getD n 0

/-! ## Counters that move -/

section
variable {n m : NetworkId} {d : DeviceId} {c c' c'' : Core} {ok : Bool}

theorem Core.epochFull_iff : c.EpochFull n ↔ c.keyEpochFor n = uint64Max := by
  rw [Core.EpochFull, Core.keyEpochFor, Map.getD, Map.getD]
  cases c.keyEpochs.lookup n with
  | none =>
    rw [Option.getD_none, Option.getD_none]
    exact ⟨fun h => absurd h (by decide), fun h => absurd h (by decide)⟩
  | some v => exact Iff.rfl

theorem Undisturbed.full_iff (h : Undisturbed n c c') :
    (c'.RevisionFull n ↔ c.RevisionFull n) ∧ (c'.EpochFull n ↔ c.EpochFull n) := by
  rw [Core.RevisionFull, Core.RevisionFull, h.revision, Core.epochFull_iff, Core.epochFull_iff, h.epoch]
  exact ⟨Iff.rfl, Iff.rfl⟩

theorem Raised.of_undisturbed (h : Raised n c c') (h' : Undisturbed n c' c'') : Raised n c c'' := by
  unfold Raised
  rw [h'.revision]
  exact h

theorem Undisturbed.mem_networks (h : Undisturbed n c c') : n ∈ c'.tables.networks ↔ n ∈ c.tables.networks := by
  rw [Map.mem_iff_lookup, Map.mem_iff_lookup, h.network]

/-- Counters alone: the epoch is part of the view, the revision is not. -/
theorem Ticked.sameView {E R : NetworkId → Prop} (h : Ticked E R c c') (hn : ¬ E n) : SameView n c c' := by
  refine ⟨?_, ?_, fun _ => ?_, fun _ => ?_, ?_, ?_, fun _ _ => ?_, fun _ _ _ => ?_⟩
  · rw [h.tables]
  · rw [h.tables]
  · rw [h.tables]
  · rw [h.tables]
  · rw [h.tables]
  · obtain hsame | ⟨he, -⟩ := h.epochs n
    · rw [Core.keyEpochFor, Core.keyEpochFor, Map.getD, Map.getD, hsame]
    · exact absurd he hn
  · rw [h.activeKeys]
  · rw [h.managementCapable]

theorem raised_bumpRevision (h : ¬ c.RevisionFull n) : Raised n c (c.bumpRevision n) := by
  rw [Raised, show (c.bumpRevision n).revisions = c.revisions.insert n (c.revisions.getD n 0 + 1) from rfl,
    Map.getD_insert_self]
  exact lt_succ_of_ne_max h

theorem Advanced.elsewhere (h : Advanced n ok c c') (hne : m ≠ n) : Undisturbed m c c' := by
  cases h with
  | epochFull _ => exact .refl m c
  | revisionFull _ _ => exact .bumpEpoch hne c
  | done _ _ => exact (Undisturbed.bumpEpoch hne c).trans (.bumpRevision hne _)

theorem Advanced.raised (h : Advanced n ok c c') (hepoch : ¬ c.EpochFull n) (hrevision : ¬ c.RevisionFull n) :
    Raised n c c' := by
  cases h with
  | epochFull hf => exact absurd hf hepoch
  | revisionFull _ hf => exact absurd hf hrevision
  | done _ _ => exact raised_bumpRevision (c := c.bumpEpoch n) hrevision

/-- The networks left have later revisions, the others are as before. -/
theorem Purged.viewed {networks : List NetworkId} (h : Purged d networks c c') (hnodup : networks.Nodup) :
    (∀ m, m ∉ networks → Undisturbed m c c') ∧ ∀ m ∈ networks, Raised m c c' := by
  induction h with
  | nil => exact ⟨fun m _ => .refl m _, fun m hm => absurd hm List.not_mem_nil⟩
  | @cons n networks c c₁ c' member advanced rest ih =>
    rw [List.nodup_cons] at hnodup
    obtain ⟨helse, hraised⟩ := ih hnodup.2
    have hfirst (m) (hm : m ≠ n) : Undisturbed m c c₁ := (Undisturbed.leave hm c).trans (advanced.elsewhere hm)
    refine ⟨fun m hm => ?_, fun m hm => ?_⟩
    · rw [List.mem_cons, not_or] at hm
      exact (hfirst m hm.1).trans (helse m hm.2)
    · rcases List.mem_cons.1 hm with rfl | htail
      · cases advanced with
        | done hepoch hrevision =>
          have hraise : Raised m c _ := raised_bumpRevision (c := (c.withTables (c.tables.leave m d)).bumpEpoch m) hrevision
          exact hraise.of_undisturbed (helse m hnodup.1)
      · have hne : m ≠ n := by
          rintro rfl
          exact hnodup.1 htail
        unfold Raised
        rw [← (hfirst m hne).revision]
        exact hraised m htail

end

/-! ## Effects on the views -/

section
variable {crypto : Crypto} {c c' : Core} {op : Op} {ok : Bool}

/-- Tables that are new for one network, then its counters. -/
theorem Advanced.viewed {t : Tables} {n : NetworkId} (advanced : Advanced n ok (c.withTables t) c')
    (hroom : ¬ c.RevisionFull n ∧ ¬ c.EpochFull n) (helse : ∀ m, m ≠ n → SameView m c (c.withTables t)) (m : NetworkId) :
    SameView m c c' ∨ Raised m c c' := by
  by_cases hm : m = n
  · subst hm
    exact .inr (advanced.raised (c := c.withTables t) hroom.2 hroom.1)
  · exact .inl ((helse m hm).trans (advanced.elsewhere hm).toSameView)

theorem sameView_join (t : Tables) (hsame : ∀ m, SameView m c (c.withTables t)) (n : NetworkId) (d : DeviceId)
    (row : Membership) (a : LeaseAddress) (m : NetworkId) (hm : m ≠ n) : SameView m c (c.withTables (t.join n d row a)) := by
  have hkey (e : DeviceId) : (m, e) ≠ (n, d) := fun h => hm (congrArg Prod.fst h)
  refine (hsame m).trans (.of_tables rfl rfl (fun e => ?_) (fun e => ?_) rfl)
  · rw [Core.withTables_tables, Tables.join_memberships, Map.lookup_insert, if_neg (hkey e)]
  · rw [Core.withTables_tables, Tables.join_leases, Map.lookup_insert, if_neg (hkey e)]

theorem sameView_create (n : NetworkId) (network : Network) (base : SubnetAddress) (a : LeaseAddress)
    (password : Option PasswordVerifier) (m : NetworkId) (hm : m ≠ n) :
    SameView m c (c.withTables (c.tables.create n network base a password)) := by
  have hkey (e : DeviceId) : (m, e) ≠ (n, network.ownerDeviceId) := fun h => hm (congrArg Prod.fst h)
  refine .of_tables ?_ ?_ (fun e => ?_) (fun e => ?_) ?_
  · rw [Tables.create_networks, Map.lookup_insert, if_neg hm]
  · rw [Tables.create_subnets, Map.lookup_insert, if_neg hm]
  · rw [Tables.create_memberships, Map.lookup_insert, if_neg (hkey e)]
  · rw [Tables.create_leases, Map.lookup_insert, if_neg (hkey e)]
  · rw [Tables.policy, Tables.policy, Tables.create_policies]

theorem sameView_revoke (d : DeviceId) (row : AccountDeviceRow) (m : NetworkId) :
    Undisturbed m c (c.withTables (c.tables.revoke d row)) :=
  ⟨.of_tables rfl rfl (fun _ => rfl) (fun _ => rfl) rfl, rfl⟩

/-- The key of a device that is not a member plays no part. -/
theorem sameView_dropKey {d : DeviceId} {m : NetworkId} (hd : (m, d) ∉ c.tables.leases) :
    SameView m c (c.dropKey d) := by
  refine ⟨rfl, rfl, fun _ => rfl, fun _ => rfl, rfl, rfl, fun e he => ?_, fun _ _ _ => Iff.rfl⟩
  have hne : e ≠ d := by
    rintro rfl
    exact hd he
  exact (Map.lookup_erase _ _ _).trans (if_neg hne)

/-- The removal that did not finish: with room, it was the policy's revision that was used up. -/
theorem Stopped.viewed {n : NetworkId} {d : DeviceId} (h : Stopped n d c c') (hroom : ¬ c.RevisionFull n ∧ ¬ c.EpochFull n) :
    (∀ m, m ≠ n → Undisturbed m c c') ∧ (SameView n c c' ∨ Raised n c c') := by
  cases h with
  | policy _ _ => exact ⟨fun m _ => .refl m c, .inl (.refl n c)⟩
  | counter member advanced =>
    refine ⟨fun m hm => (Undisturbed.leave hm c).trans (advanced.elsewhere hm), .inr ?_⟩
    exact advanced.raised (c := c.withTables (c.tables.leave n d)) hroom.2 hroom.1

theorem Op.rekeys_of_not_session {n : NetworkId} (h : ¬ op.Session) : op.Rekeys c n := by
  cases op <;> first | trivial | exact absurd trivial h

/-- With room, what a call changes in a network comes with a later revision. -/
theorem Effect.viewed (h : Effect crypto c op ok c') (hw : c.tables.Wf) (hg : c.Grounded) (hroom : op.HasRoom crypto c)
    (hsession : ¬ op.Session) (m : NetworkId) : SameView m c c' ∨ Raised m c c' := by
  have hroom' {n : NetworkId} (hn : op.Advancing crypto c n) : ¬ c.RevisionFull n ∧ ¬ c.EpochFull n :=
    ⟨(hroom n hn).1, (hroom n hn).2 (Op.rekeys_of_not_session hsession)⟩
  cases h with
  | quiet _ => exact .inl (.refl m c)
  | created password _ _ _ fresh _ _ _ advanced =>
    exact advanced.viewed (hg.fresh fresh).symm (fun m hm => sameView_create _ _ _ _ password m hm) m
  | joined atMs admission joinable advanced =>
    exact advanced.viewed (hroom' (.joins admission joinable))
      (fun m hm => sameView_join c.tables (fun m => .refl m c) _ _ _ _ m hm) m
  | redeemJoined joinedAtMs redemption joinable advanced =>
    refine advanced.viewed (hroom' (.redeems redemption joinable)) (fun m hm => sameView_join _ (fun m => ?_) _ _ _ _ m hm) m
    exact .of_tables rfl rfl (fun _ => rfl) (fun _ => rfl) rfl
  | left removal member advanced =>
    exact advanced.viewed (hroom' (.leaves removal member)) (fun m hm => (Undisturbed.leave hm c).toSameView) m
  | edited hop howner lease _ edit _ _ advanced =>
    refine advanced.viewed (hroom' (.edits hop rfl howner lease edit)) (fun m hm => ?_) m
    refine .of_tables rfl rfl (fun _ => rfl) (fun _ => rfl) ?_
    rw [Tables.policy_savePolicy, if_neg hm]
  | @revoked c₁ q row networks hop owns networksOf notOwner purged =>
    obtain ⟨helse, hraised⟩ := purged.viewed networksOf.nodup
    by_cases hm : m ∈ networks
    · exact .inr (hraised m hm)
    · left
      have hview := (sameView_revoke q.deviceId row m).trans (helse m hm)
      refine hview.toSameView.trans (sameView_dropKey fun hlease => hm ?_)
      rw [networksOf.mem, ← hw.addressed.lease_member]
      exact (hview.mem_leases _).1 hlease
  | @revokeStopped c₁ _ q row before after n hop owns networksOf notOwner purged stopped =>
    have hnodup := List.nodup_append.1 networksOf.nodup
    obtain ⟨helse, hraised⟩ := purged.viewed hnodup.1
    have hbefore (m) (hm : m ∉ before) := (sameView_revoke q.deviceId row m).trans (helse m hm)
    have hn : n ∉ before := fun hmem => hnodup.2.2 n hmem n List.mem_cons_self rfl
    have hadvancing : op.Advancing crypto c n := by
      refine .revokes hop owns notOwner ((networksOf.mem n).1 ?_)
      exact List.mem_append_right _ List.mem_cons_self
    have hfull := (hbefore n hn).full_iff
    obtain ⟨helse', hn'⟩ := stopped.viewed (by
      rw [hfull.1, hfull.2]
      exact hroom' hadvancing)
    by_cases hm : m ∈ before
    · have hne : m ≠ n := by
        rintro rfl
        exact hn hm
      have hraise : Raised m c c₁ := hraised m hm
      exact .inr (hraise.of_undisturbed (helse' m hne))
    · by_cases hmn : m = n
      · subst hmn
        refine hn'.imp (fun h => (hbefore m hm).toSameView.trans h) fun h => ?_
        unfold Raised
        rw [← (hbefore m hm).revision]
        exact h
      · exact .inl ((hbefore m hm).trans (helse' m hmn)).toSameView
  | keyPublished hop _ _ =>
    rw [hop] at hsession
    exact absurd trivial hsession
  | keyRemoved hop _ =>
    rw [hop] at hsession
    exact absurd trivial hsession
  | capableSet hop _ =>
    rw [hop] at hsession
    exact absurd trivial hsession
  | _ => exact .inl (.of_tables rfl rfl (fun _ => rfl) (fun _ => rfl) rfl)

end

/-! ## Sessions -/

namespace Service
variable {s s' : Service}

/-- A loop over networks goes through all of them where each round finds what it needs, and raises the revisions of
those it is about. -/
theorem raises_collect {f : NetworkRecord → Call (List RoutedPeerStateChange)} {networks : List NetworkRecord}
    {M : NetworkRecord → Prop} {R : NetworkRecord → Service → Prop} (hnodup : (networks.map (·.id)).Nodup)
    (hround : ∀ network ∈ networks, ∀ s : Service, s.tables.Wf → Post (f network) s (Round network.id s))
    (hready : ∀ network (s s' : Service), Undisturbed network.id s.core s'.core → R network s → R network s')
    (hraise : ∀ network ∈ networks, ∀ s : Service, s.tables.Wf → R network s → Post (f network) s fun r s' =>
      (∃ xs, r = .ok xs) ∧ (M network → Raised network.id s.core s'.core))
    (hw : s.tables.Wf) (hstart : ∀ network ∈ networks, R network s) :
    Post (collect f networks) s fun r s' =>
      (∃ xs, r = .ok xs) ∧ ∀ network ∈ networks, M network → Raised network.id s.core s'.core := by
  induction networks generalizing s with
  | nil => exact ⟨⟨[], rfl⟩, fun network hnet => absurd hnet List.not_mem_nil⟩
  | cons network networks ih =>
    rw [List.map_cons, List.nodup_cons] at hnodup
    have htail (other) (ho : other ∈ networks) := hround other (List.mem_cons_of_mem _ ho)
    simp only [collect, post_bind, post_pure]
    refine ((hround network List.mem_cons_self s hw).and
      (hraise network List.mem_cons_self s hw (hstart network List.mem_cons_self))).mono fun r s₁ h₁ => ?_
    obtain ⟨hfirst, ⟨xs, rfl⟩, hraised⟩ := h₁
    have hne (other) (ho : other ∈ networks) : other.id ≠ network.id := by
      intro heq
      exact hnodup.1 (heq ▸ List.mem_map_of_mem ho)
    have hrest := ih hnodup.2 htail (fun other ho => hraise other (List.mem_cons_of_mem _ ho)) hfirst.wf
      fun other ho => hready other s s₁ (hfirst.elsewhere _ (hne other ho)) (hstart other (List.mem_cons_of_mem _ ho))
    refine (hrest.and (rounds_collect hnodup.2 htail hfirst.wf)).mono fun r s₂ h₂ => ?_
    have hall : ∀ other ∈ network :: networks, M other → Raised other.id s.core s₂.core := by
      intro other ho hmarked
      rcases List.mem_cons.1 ho with rfl | ho
      · exact (hraised hmarked).of_undisturbed (h₂.2.elsewhere _ hnodup.1)
      · unfold Raised
        rw [← (hfirst.elsewhere _ (hne other ho)).revision]
        exact h₂.1.2 other ho hmarked
    obtain ⟨ys, rfl⟩ := h₂.1.1
    exact ⟨⟨xs ++ ys, rfl⟩, hall⟩

theorem raises_advancedChanges {n : NetworkId} (hw : s.tables.Wf) (hn : n ∈ s.tables.networks)
    (hroom : ¬ s.core.RevisionFull n) :
    Post (advancedChanges n) s fun r s' => (∃ xs, r = .ok xs) ∧ Raised n s.core s'.core := by
  unfold advancedChanges
  refine post_advanceRevision (fun hf => absurd hf hroom) fun _ => ?_
  obtain ⟨changes, hchanges⟩ := exists_changesForMembers (s := { s with
    revisions := s.revisions.insert n (s.revisions.getD n 0 + 1) }) hw hn (s.revisions.getD n 0 + 1)
  rw [post_query, hchanges]
  exact ⟨⟨changes, rfl⟩, raised_bumpRevision hroom⟩

/-- A network whose members are told of a new key of `actor`. -/
structure KeyReady (actor : DeviceId) (network : NetworkRecord) (s : Service) : Prop where
  known : network.id ∈ s.tables.networks
  revision : ¬ s.core.RevisionFull network.id
  epoch : network.ownerDeviceId = actor → ¬ s.core.EpochFull network.id

theorem raises_announceKey {actor : DeviceId} {network : NetworkRecord} (hw : s.tables.Wf) (h : KeyReady actor network s) :
    Post (announceKey actor network) s fun r s' => (∃ xs, r = .ok xs) ∧ Raised network.id s.core s'.core := by
  unfold announceKey
  split
  · rename_i howner
    refine post_advanceKeyEpoch (fun hf => absurd hf (h.epoch howner)) fun _ => ?_
    refine Post.mono (raises_advancedChanges ?_ ?_ ?_) fun _ _ h => h
    · exact hw
    · exact h.known
    · exact h.revision
  · exact raises_advancedChanges hw h.known h.revision

theorem viewed_collect_announceKey {actor : DeviceId} {networks : List NetworkRecord} (hw : s.tables.Wf)
    (hnets : s.store.listNetworksForDevice actor = .ok networks) (hready : ∀ network ∈ networks, KeyReady actor network s) :
    Post (collect (announceKey actor) networks) s fun _ s' =>
      (∀ m, (m, actor) ∉ s.tables.memberships → Undisturbed m s.core s'.core) ∧
        ∀ m, (m, actor) ∈ s.tables.memberships → Raised m s.core s'.core := by
  have hnodup := Db.nodup_listNetworksForDevice hnets
  have hround : ∀ network ∈ networks, ∀ s : Service, s.tables.Wf → Post (announceKey actor network) s (Round network.id s) :=
    fun network _ s hw => round_announceKey hw
  have hraises := raises_collect (M := fun _ => True) (R := KeyReady actor) hnodup hround
    (fun network s s' hsame h => by
      obtain ⟨hr, he⟩ := hsame.full_iff
      refine ⟨?_, by rw [hr]; exact h.revision, fun ho => by rw [he]; exact h.epoch ho⟩
      exact hsame.mem_networks.2 h.known)
    (fun network _ s hw h => (raises_announceKey hw h).mono fun _ _ h => ⟨h.1, fun _ => h.2⟩) hw hready
  refine ((rounds_collect hnodup hround hw).and hraises).mono fun _ s' h => ⟨fun m hm => h.1.elsewhere m ?_, fun m hm => ?_⟩
  · intro hmem
    obtain ⟨network, hnet, rfl⟩ := List.mem_map.1 hmem
    obtain ⟨-, -, -, hmember⟩ := (Db.mem_listNetworksForDevice hnets).1 hnet
    exact hm hmember
  · obtain ⟨row, hrow⟩ := Map.mem_iff_lookup.1 (hw.owned.member_network m actor hm)
    exact h.2.2 (.ofRow (m, row)) ((Db.mem_listNetworksForDevice hnets).2 ⟨row, hrow, rfl, hm⟩) trivial

theorem keyReady_of_room {actor : DeviceId} {networks : List NetworkRecord}
    (hnets : s.store.listNetworksForDevice actor = .ok networks)
    (hroom : ∀ n, (n, actor) ∈ s.tables.memberships →
      ¬ s.core.RevisionFull n ∧ (s.tables.owner n = some actor → ¬ s.core.EpochFull n)) :
    ∀ network ∈ networks, KeyReady actor network s := by
  intro network hnet
  obtain ⟨row, hrow, hr, hm⟩ := (Db.mem_listNetworksForDevice hnets).1 hnet
  refine ⟨Map.mem_of_lookup hrow, (hroom _ hm).1, fun howner => (hroom _ hm).2 ?_⟩
  have hlookup : s.tables.owner network.id = some row.ownerDeviceId := Tables.lookup_owner hrow
  rw [hlookup, ← howner, hr]
  rfl

theorem listNetworksForDevice_error {db : Db} {d : DeviceId} {e : Exn} (h : db.listNetworksForDevice d = .error e) :
    d = 0 := by
  by_contra hd
  rw [Db.listNetworksForDevice, requireDeviceId, check_of hd, ok_bind] at h
  cases h

/-- A key that a device has or drops matters to the networks it is in. -/
theorem sameView_activeKeys (s₀ : Service) {actor : DeviceId} {m : NetworkId} (hw : s.tables.Wf)
    (htables : s₀.core.tables = s.core.tables) (hepochs : s₀.core.keyEpochs = s.core.keyEpochs)
    (hkeys : ∀ d, d ≠ actor → s₀.core.activeKeys.lookup d = s.core.activeKeys.lookup d)
    (hcapable : ∀ d, d ≠ actor → (d ∈ s₀.core.managementCapable ↔ d ∈ s.core.managementCapable))
    (hm : (m, actor) ∉ s.tables.memberships) : SameView m s.core s₀.core := by
  have hne {d : DeviceId} (hd : (m, d) ∈ s.core.tables.leases) : d ≠ actor := by
    rintro rfl
    exact hm ((hw.addressed.lease_member _).1 hd)
  refine ⟨?_, ?_, fun _ => ?_, fun _ => ?_, ?_, ?_, fun d hd => hkeys d (hne hd), fun _ d hd => hcapable d (hne hd)⟩
  · rw [htables]
  · rw [htables]
  · rw [htables]
  · rw [htables]
  · rw [htables]
  · rw [Core.keyEpochFor, Core.keyEpochFor, hepochs]

theorem viewed_publishDeviceKey {crypto : Crypto} {actor : DeviceId} {session : SessionId} {key : SignedDeviceKey} {nowMs : ℤ}
    (hw : s.tables.Wf) (hroom : (Op.publishDeviceKey actor session key nowMs).HasRoom crypto s.core) :
    Post (publishDeviceKey crypto actor session key nowMs) s fun _ s' =>
      ∀ m, SameView m s.core s'.core ∨ Raised m s.core s'.core := by
  have hrefl (m : NetworkId) : SameView m s.core s.core ∨ Raised m s.core s.core := .inl (.refl m _)
  unfold publishDeviceKey
  refine post_lift_bind (fun _ hactor => post_lift_bind (fun _ hvalid => ?_) fun _ => hrefl) fun _ => hrefl
  simp only [requireActorAndTime, bind_eq_ok, check_eq_ok, exists_const] at hactor
  refine post_recordDevice (fun s₁ hs₁ => ?_) fun _ => hrefl
  rw [← hs₁] at hrefl hroom ⊢
  rw [← tables_of_core hs₁] at hw
  rw [post_gets_bind]
  split
  · exact hrefl
  rename_i hallowed
  rw [not_not, deviceAllowed_eq, Bool.not_eq_true'] at hallowed
  rw [post_bind, post_modify]
  refine post_read (fun networks hnets => ?_) fun e he => ?_
  swap
  · exact absurd (listNetworksForDevice_error he) hactor.1
  have hready := keyReady_of_room (s := { s₁ with activeKeys := s₁.activeKeys.insert actor ⟨session, key⟩ }) hnets
    fun n hn => hroom n (.publishes rfl (check_eq_ok.1 hvalid) (by simpa [Op.actor] using hallowed) hn)
  refine Post.mono (viewed_collect_announceKey ?_ hnets hready) fun _ s' h m => ?_
  · exact hw
  by_cases hm : (m, actor) ∈ s₁.tables.memberships
  · exact .inr (h.2 m hm)
  · left
    refine SameView.trans (sameView_activeKeys { s₁ with activeKeys := s₁.activeKeys.insert actor ⟨session, key⟩ } hw rfl rfl
      (fun d hd => ?_) (fun _ _ => Iff.rfl) hm) (h.1 m hm).toSameView
    exact (Map.lookup_insert _ _ _ _).trans (if_neg hd)

theorem viewed_removeDeviceKey {crypto : Crypto} {actor : DeviceId} {session : SessionId} (hw : s.tables.Wf)
    (hg : s.core.Grounded) (hroom : (Op.removeDeviceKey actor session).HasRoom crypto s.core) :
    Post (removeDeviceKey actor session) s fun _ s' => ∀ m, SameView m s.core s'.core ∨ Raised m s.core s'.core := by
  unfold removeDeviceKey
  rw [post_gets_bind]
  split
  swap
  · exact fun m => .inl (.refl m _)
  rename_i hcurrent
  rw [post_bind, post_modify]
  have hactor : actor ≠ 0 := by
    rintro rfl
    rw [AList.lookup_eq_none.2 (show 0 ∉ s.activeKeys from hg.keys)] at hcurrent
    cases hcurrent
  refine post_read (fun networks hnets => ?_) fun e he => absurd (listNetworksForDevice_error he) hactor
  have hready := keyReady_of_room (s := dropSession actor s) hnets fun n hn => hroom n (.removes rfl hcurrent hn)
  refine Post.mono (viewed_collect_announceKey ?_ hnets hready) fun _ s' h m => ?_
  · exact hw
  by_cases hm : (m, actor) ∈ s.tables.memberships
  · exact .inr (h.2 m hm)
  · left
    refine SameView.trans (sameView_activeKeys (dropSession actor s) hw rfl rfl (fun d hd => ?_) (fun d hd => ?_) hm)
      (h.1 m hm).toSameView
    · exact (Map.lookup_erase _ _ _).trans (if_neg hd)
    · exact Finset.mem_erase.trans (and_iff_right hd)

/-- A network whose members are told of a capability, if it is managed. -/
structure CapableReady (managed : Bool) (network : NetworkRecord) (s : Service) : Prop where
  known : network.id ∈ s.tables.networks
  managed_eq : (s.tables.policy network.id).managed = managed
  revision : managed → ¬ s.core.RevisionFull network.id

/-- The state after `set_management_capable` has filed the capability. -/
def withCapability (s : Service) (actor : DeviceId) (capable : Bool) : Service :=
  { s with managementCapable := if capable then insert actor s.managementCapable else s.managementCapable.erase actor }

theorem sameView_withCapability {actor : DeviceId} {capable : Bool} {m : NetworkId} (hw : s.tables.Wf)
    (hm : (m, actor) ∉ s.tables.memberships ∨ (s.tables.policy m).managed = false) :
    SameView m s.core (s.withCapability actor capable).core := by
  have hcapable (d : DeviceId) (hd : d ≠ actor) :
      d ∈ (s.withCapability actor capable).core.managementCapable ↔ d ∈ s.core.managementCapable := by
    change d ∈ (if capable then insert actor s.managementCapable else s.managementCapable.erase actor) ↔ _
    split
    · exact Finset.mem_insert.trans (or_iff_right hd)
    · exact Finset.mem_erase.trans (and_iff_right hd)
  rcases hm with hm | hm
  · exact sameView_activeKeys _ hw rfl rfl (fun _ _ => rfl) hcapable hm
  · refine ⟨rfl, rfl, fun _ => rfl, fun _ => rfl, rfl, rfl, fun _ _ => rfl, fun hmanaged => ?_⟩
    rw [show (s.core.tables.policy m).managed = false from hm] at hmanaged
    cases hmanaged

/-- One round of the loop of `set_management_capable`. -/
def announceCapability (network : NetworkRecord) : Call (List RoutedPeerStateChange) := do
  let policy ← gets fun s => s.store.networkPolicy network.id
  if policy.managed then advancedChanges network.id else pure []

theorem setManagementCapable_eq (actor : DeviceId) (capable : Bool) :
    setManagementCapable actor capable = (do
      modify fun s => s.withCapability actor capable
      let networks ← read fun db => db.listNetworksForDevice actor
      collect announceCapability networks) := rfl

/-- Revisions are all that the loop changes. -/
theorem collect_announceCapability (networks : List NetworkRecord) :
    Post (collect announceCapability networks) s fun _ s' => Ticked (fun _ => False) (fun _ => True) s.core s'.core := by
  refine post_collect (R := fun s₁ s₂ : Service => Ticked (fun _ => False) (fun _ => True) s₁.core s₂.core)
    (fun _ => .refl _) (fun {_ _ _} h h' => h.trans h') (fun network _ s₁ => ?_) s
  unfold announceCapability
  rw [post_gets_bind]
  split
  · exact advancedChanges_ticked trivial
  · exact .refl _

/-- Where its managed networks have a revision left, a device's capability is announced to all of them. -/
theorem raises_announceCapability {actor : DeviceId} {networks : List NetworkRecord} (hw : s.tables.Wf)
    (hnets : s.store.listNetworksForDevice actor = .ok networks)
    (hroom : ∀ n, (n, actor) ∈ s.tables.memberships → (s.tables.policy n).managed → ¬ s.core.RevisionFull n) :
    Post (collect announceCapability networks) s fun r s' => (∃ xs, r = .ok xs) ∧
      ∀ network ∈ networks, (s.tables.policy network.id).managed → Raised network.id s.core s'.core := by
  refine raises_collect (R := fun network s₁ => CapableReady (s.tables.policy network.id).managed network s₁)
    (Db.nodup_listNetworksForDevice hnets) (fun network _ s hw => round_announceCapability hw)
    (fun network s₁ s₂ hsame h => ?_) (fun network _ s₁ hw h => ?_) hw fun network hnet => ?_
  · obtain ⟨hr, -⟩ := hsame.full_iff
    refine ⟨?_, ?_, fun hm => by rw [hr]; exact h.revision hm⟩
    · exact hsame.mem_networks.2 h.known
    · exact (congrArg _ hsame.policy).trans h.managed_eq
  · unfold announceCapability
    rw [post_gets_bind]
    change Post (if (s₁.tables.policy network.id).managed then advancedChanges network.id else pure []) s₁ _
    by_cases hmanaged : (s.tables.policy network.id).managed
    · rw [if_pos (h.managed_eq.trans hmanaged)]
      exact (raises_advancedChanges hw h.known (h.revision hmanaged)).mono fun _ _ h => ⟨h.1, fun _ => h.2⟩
    · rw [if_neg (by rw [h.managed_eq]; exact hmanaged)]
      exact ⟨⟨[], rfl⟩, fun hm => absurd hm hmanaged⟩
  · obtain ⟨row, hrow, -, hmember⟩ := (Db.mem_listNetworksForDevice hnets).1 hnet
    exact ⟨Map.mem_of_lookup hrow, rfl, fun hm => hroom _ hmember hm⟩

theorem viewed_setManagementCapable {crypto : Crypto} {actor : DeviceId} {capable : Bool} (hw : s.tables.Wf)
    (hg : s.core.Grounded) (hroom : (Op.setManagementCapable actor capable).HasRoom crypto s.core) :
    Post (setManagementCapable actor capable) s fun _ s' => ∀ m, SameView m s.core s'.core ∨ Raised m s.core s'.core := by
  rw [setManagementCapable_eq, post_bind, post_modify]
  refine post_read (fun networks hnets => ?_) fun e he m => ?_
  swap
  · -- the zero device is not a member of any network
    cases listNetworksForDevice_error he
    exact .inl (sameView_withCapability hw (.inl (hg.members m)))
  set s₀ := s.withCapability actor capable
  have hraises := raises_announceCapability (s := s₀) hw hnets fun n hmember hm => (hroom n (.declares rfl hmember hm)).1
  refine ((collect_announceCapability networks).and hraises).mono fun _ s' h m => ?_
  by_cases hm : (m, actor) ∈ s.tables.memberships ∧ (s.tables.policy m).managed
  · obtain ⟨row, hrow⟩ := Map.mem_iff_lookup.1 (hw.owned.member_network m actor hm.1)
    exact .inr (h.2.2 (.ofRow (m, row)) ((Db.mem_listNetworksForDevice hnets).2 ⟨row, hrow, rfl, hm.1⟩) hm.2)
  · rw [not_and_or, Bool.not_eq_true] at hm
    exact .inl ((sameView_withCapability hw hm).trans (h.1.sameView id))

/-! ## Steps -/

theorem viewed_reply {α : Type} {f : α → Reply} {x : Call α} {P : Service → Prop} (hx : Post x s fun _ s' => P s') :
    Post (reply f x) s fun _ s' => P s' := by
  rw [reply, post_bind]
  exact hx.mono fun r s' h => by cases r <;> exact h

theorem viewed_perform (crypto : Crypto) (inputs : Inputs) (op : Op) (hw : s.tables.Wf) (hg : s.core.Grounded)
    (hroom : op.HasRoom crypto s.core) :
    Post (perform crypto inputs op) s fun _ s' => ∀ m, SameView m s.core s'.core ∨ Raised m s.core s'.core := by
  by_cases hsession : op.Session
  · cases op with
    | publishDeviceKey actor session key nowMs => exact viewed_reply (viewed_publishDeviceKey hw hroom)
    | removeDeviceKey actor session => exact viewed_reply (viewed_removeDeviceKey hw hg hroom)
    | setManagementCapable actor capable => exact viewed_reply (viewed_setManagementCapable hw hg hroom)
    | _ => cases hsession
  · exact (perform_effect crypto inputs op hw).mono fun _ _ h => h.viewed hw hg hroom hsession

end Service

/-- No call lowers a revision. -/
theorem Effect.revisions_le {crypto : Crypto} {c c' : Core} {op : Op} {ok : Bool} (h : Effect crypto c op ok c')
    (n : NetworkId) : c.revisions.getD n 0 ≤ c'.revisions.getD n 0 := by
  cases h with
  | created _ _ _ _ _ _ _ _ advanced => exact advanced.ticked.revisions.getD_le n
  | joined _ _ _ advanced => exact advanced.ticked.revisions.getD_le n
  | redeemJoined _ _ _ advanced => exact advanced.ticked.revisions.getD_le n
  | left _ _ advanced => exact advanced.ticked.revisions.getD_le n
  | edited _ _ _ _ _ _ _ advanced => exact advanced.ticked.revisions.getD_le n
  | revoked _ _ _ _ purged => exact purged.counted.2.getD_le n
  | revokeStopped _ _ _ _ purged stopped =>
    refine UInt64.le_trans (purged.counted.2.getD_le n) ?_
    cases stopped with
    | policy _ _ => exact UInt64.le_refl _
    | counter _ advanced => exact advanced.ticked.revisions.getD_le n
  | keyPublished _ _ ticked => exact ticked.revisions.getD_le n
  | keyRemoved _ ticked => exact ticked.revisions.getD_le n
  | capableSet _ ticked => exact ticked.revisions.getD_le n
  | _ => exact UInt64.le_refl _

namespace Service

/-! ## Runs -/

section
variable (crypto : Crypto) (events : ℕ → Event)

/-- The peer states that the step at `k` sends, each with the device it is for. -/
def emittedAt (k : ℕ) : List (DeviceId × NetworkPeerState) :=
  match events k with
  | .restart => []
  | .call op inputs =>
    match (perform crypto inputs op (run crypto events k)).1 with
    | .ok reply => reply.emitted op
    | .error _ => []

/-- The states sent by one process for one network and device, and what the revision says about them. -/
structure PeerStatesSound : Prop where
  /-- Revisions never decrease. -/
  ordered : ∀ j k, j ≤ k → (∀ i, j < i → i < k → events i ≠ .restart) → ∀ p ∈ emittedAt crypto events j,
    ∀ p' ∈ emittedAt crypto events k, p'.1 = p.1 → p'.2.networkId = p.2.networkId → p.2.revision ≤ p'.2.revision
  /-- States with one revision are one state. -/
  identical : ∀ j k, j ≤ k → (∀ i, j < i → i < k → events i ≠ .restart) → ∀ p ∈ emittedAt crypto events j,
    ∀ p' ∈ emittedAt crypto events k, p'.1 = p.1 → p'.2.networkId = p.2.networkId → p'.2.revision = p.2.revision →
      p'.2 = p.2
  /-- What a state depends on changes with the revision. -/
  raised : ∀ k n, events k ≠ .restart → ¬ SameView n (run crypto events k).core (run crypto events (k + 1)).core →
    (run crypto events k).revisionFor n < (run crypto events (k + 1)).revisionFor n

variable {crypto events}

theorem current_emittedAt {k : ℕ} {p : DeviceId × NetworkPeerState} (hp : p ∈ emittedAt crypto events k) :
    events k ≠ .restart ∧ (run crypto events (k + 1)).Current p.1 p.2 := by
  unfold emittedAt at hp
  cases he : events k with
  | restart =>
    rw [he] at hp
    exact absurd hp List.not_mem_nil
  | call op inputs =>
    rw [he] at hp
    refine ⟨nofun, ?_⟩
    have hspeaks := speaks_perform crypto inputs op (wf_run crypto events k)
    rw [run_succ, he]
    dsimp only at hp
    cases hr : (perform crypto inputs op (run crypto events k)).1 with
    | error e =>
      rw [hr] at hp
      exact absurd hp List.not_mem_nil
    | ok reply =>
      rw [hr] at hp
      exact hspeaks reply hr p hp

theorem revisionFor_le_step (k : ℕ) (hk : events k ≠ .restart) (n : NetworkId) :
    (run crypto events k).revisionFor n ≤ (run crypto events (k + 1)).revisionFor n := by
  cases he : events k with
  | restart => exact absurd he hk
  | call op inputs =>
    rw [run_succ, he]
    exact Effect.revisions_le (perform_effect crypto inputs op (wf_run crypto events k)) n

/-- In one process revisions do not decrease, and while one stays the same so does the view. -/
theorem view_run (hroom : ∀ k op inputs, events k = .call op inputs → op.HasRoom crypto (run crypto events k).core)
    (n : NetworkId) {j k : ℕ} (hjk : j ≤ k) (hprocess : ∀ i, j ≤ i → i < k → events i ≠ .restart) :
    (run crypto events j).revisionFor n ≤ (run crypto events k).revisionFor n ∧
      ((run crypto events k).revisionFor n = (run crypto events j).revisionFor n →
        SameView n (run crypto events j).core (run crypto events k).core) := by
  induction k, hjk using Nat.le_induction with
  | base => exact ⟨UInt64.le_refl _, fun _ => .refl n _⟩
  | succ k hjk ih =>
    obtain ⟨hle, hsame⟩ := ih fun i hj hk => hprocess i hj (by omega)
    have hk : events k ≠ .restart := hprocess k hjk (by omega)
    have hstep := @revisionFor_le_step crypto events k hk n
    refine ⟨UInt64.le_trans hle hstep, fun heq => ?_⟩
    have hkeep : (run crypto events k).revisionFor n = (run crypto events j).revisionFor n :=
      UInt64.le_antisymm (by rw [← heq]; exact hstep) hle
    refine (hsame hkeep).trans ?_
    cases he : events k with
    | restart => exact absurd he hk
    | call op inputs =>
      have hviewed := viewed_perform crypto inputs op (wf_run crypto events k) (grounded_run crypto events k)
        (hroom k op inputs he) n
      rw [run_succ, he] at heq ⊢
      refine hviewed.resolve_right fun hraised => ?_
      have hlt : (run crypto events k).revisionFor n <
          ((run crypto events k).step crypto (.call op inputs)).revisionFor n := hraised
      rw [heq, hkeep] at hlt
      exact UInt64.lt_irrefl _ hlt

/-- What two states of one network and device have to do with each other. -/
theorem emitted_pair (hroom : ∀ k op inputs, events k = .call op inputs → op.HasRoom crypto (run crypto events k).core)
    {j k : ℕ} (hjk : j ≤ k) (hprocess : ∀ i, j < i → i < k → events i ≠ .restart) {p p' : DeviceId × NetworkPeerState}
    (hp : p ∈ emittedAt crypto events j) (hp' : p' ∈ emittedAt crypto events k) (hd : p'.1 = p.1)
    (hn : p'.2.networkId = p.2.networkId) :
    p.2.revision ≤ p'.2.revision ∧ (p'.2.revision = p.2.revision → p'.2 = p.2) := by
  obtain ⟨-, hcurrent⟩ := current_emittedAt hp
  obtain ⟨hk, hcurrent'⟩ := current_emittedAt hp'
  have hprocess' (i : ℕ) (hj : j + 1 ≤ i) (hik : i < k + 1) : events i ≠ .restart := by
    obtain rfl | hlt := Nat.eq_or_lt_of_le (Nat.le_of_lt_succ hik)
    · exact hk
    · exact hprocess i hj hlt
  obtain ⟨hle, hsame⟩ := view_run hroom p.2.networkId (Nat.succ_le_succ hjk) hprocess'
  have hrev := hcurrent.revision
  have hrev' := hcurrent'.revision
  rw [hn] at hrev'
  rw [hrev, hrev']
  refine ⟨hle, fun heq => ?_⟩
  have hmade : (run crypto events (k + 1)).makePeerState p.2.networkId p.1 ((run crypto events (j + 1)).revisionFor p.2.networkId) =
      .ok p'.2 := by
    rw [← heq, ← hd, ← hn]
    exact hcurrent'
  rw [makePeerState_congr (wf_run crypto events (j + 1)) (hsame heq)] at hmade
  exact Except.ok.inj (hmade.symm.trans hcurrent)

variable (crypto events)

/-- Peer-state revisions are sound, in every run whose calls find room in the counters they advance. -/
theorem peer_states_sound
    (hroom : ∀ k op inputs, events k = .call op inputs → op.HasRoom crypto (run crypto events k).core) :
    PeerStatesSound crypto events where
  ordered _ _ hjk hprocess _ hp _ hp' hd hn := (emitted_pair hroom hjk hprocess hp hp' hd hn).1
  identical _ _ hjk hprocess _ hp _ hp' hd hn := (emitted_pair hroom hjk hprocess hp hp' hd hn).2
  raised k n hk hview := by
    cases he : events k with
    | restart => exact absurd he hk
    | call op inputs =>
      have hviewed := viewed_perform crypto inputs op (wf_run crypto events k) (grounded_run crypto events k)
        (hroom k op inputs he) n
      rw [run_succ, he] at hview ⊢
      exact hviewed.resolve_left hview

end

/-- A counter that no row has used up is not used up. -/
theorem getD_ne_max {m : Map NetworkId UInt64} (h : m.rows.all fun row => row.2 ≠ uint64Max) (n : NetworkId) :
    m.getD n 0 ≠ uint64Max := by
  rw [Map.getD]
  cases hl : m.lookup n with
  | none => decide
  | some v => simpa using List.all_eq_true.1 h (n, v) (Map.mem_rows.2 hl)

theorem peer_states_sound_sole : (emittedAt noCrypto consenting 3).length = 1 ∧ PeerStatesSound noCrypto consenting := by
  refine ⟨by decide +kernel, peer_states_sound noCrypto consenting fun k op inputs he n _ => ?_⟩
  match k with
  | 0 | 1 | 2 | 3 => exact ⟨getD_ne_max (by decide +kernel) n, fun _ => getD_ne_max (by decide +kernel) n⟩
  | k + 4 => cases he

/-- With the revision used up, the request for a gateway is stored and the revision stays. -/
theorem policy_changed_under_one_revision : ¬ PeerStatesSound noCrypto exhausting := by
  intro h
  have hraised := h.raised (2 ^ 64) soleNetwork
  rw [run_succ, run_exhausting, show exhausting (2 ^ 64) = requesting from rfl] at hraised
  refine absurd (hraised nofun fun hview => ?_) (by decide +kernel)
  exact absurd hview.policy (by decide +kernel)

end Service

end LanLink
