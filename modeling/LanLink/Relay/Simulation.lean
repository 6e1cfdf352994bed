import LanLink.Relay.Machine
/-!
# The calls do what the machine does

One lemma for each public function of `NetworkService`: whatever it returns or
throws, the core it leaves is one that `Effect` allows.
-/
open LanLink.Lib LanLink.Lib.Action

namespace LanLink

open Db (Joinable MemberRow Unleased Unassigned)

namespace Service
variable {s : Service} {n : NetworkId} {d : DeviceId} (crypto : Crypto) (inputs : Inputs)

/-! ## Sessions -/

theorem advancedChanges_ticked {E R : NetworkId → Prop} (hR : R n) :
    Post (advancedChanges n) s (fun _ s' => Ticked E R s.core s'.core) := by
  unfold advancedChanges
  refine post_advanceRevision (fun _ => .refl _) fun h => ?_
  rw [post_query]
  exact .bumpRevision hR h

theorem announceKey_ticked {E R : NetworkId → Prop} {actor : DeviceId} {network : NetworkRecord}
    (hE : network.ownerDeviceId = actor → E network.id) (hR : R network.id) :
    Post (announceKey actor network) s (fun _ s' => Ticked E R s.core s'.core) := by
  unfold announceKey
  split
  · rename_i ho
    refine post_advanceKeyEpoch (fun _ => .refl _) fun h => ?_
    exact (advancedChanges_ticked hR).mono fun _ _ h₂ => .trans (.bumpEpoch (hE ho) h) h₂
  · exact advancedChanges_ticked hR

/-- Announcing the key of `actor` to its networks. -/
theorem collect_announceKey {actor : DeviceId} {networks : List NetworkRecord}
    (hnets : s.store.listNetworksForDevice actor = .ok networks) :
    Post (collect (announceKey actor) networks) s (fun _ s' => Ticked (fun n => s.core.tables.owner n = some actor)
      (fun n => (n, actor) ∈ s.core.tables.memberships) s.core s'.core) := by
  refine post_collect (R := fun s₁ s₂ : Service => Ticked (fun n => s.core.tables.owner n = some actor)
    (fun n => (n, actor) ∈ s.core.tables.memberships) s₁.core s₂.core) (fun _ => .refl _)
    (fun {_ _ _} h h' => h.trans h') ?_ s
  intro network hnet s₁
  obtain ⟨row, hrow, hr, hm⟩ := (Db.mem_listNetworksForDevice hnets).1 hnet
  refine announceKey_ticked (fun ho => ?_) hm
  have : s.core.tables.owner network.id = some row.ownerDeviceId := Tables.lookup_owner hrow
  rw [this, ← ho, hr]
  rfl

theorem publishDeviceKey_effect {actor : DeviceId} {session : SessionId} {key : SignedDeviceKey} {nowMs : ℤ} :
    Post (publishDeviceKey crypto actor session key nowMs) s (fun _ s' => ∀ ok,
      Effect crypto s.core (.publishDeviceKey actor session key nowMs) ok s'.core) := by
  have hquiet : ∀ ok, Effect crypto s.core (.publishDeviceKey actor session key nowMs) ok s.core :=
    fun ok => .quiet fun _ h => h
  unfold publishDeviceKey
  rw [post_bind, post_lift]
  split
  swap
  · exact hquiet
  rw [post_bind, post_lift]
  split
  swap
  · exact hquiet
  refine post_recordDevice (fun s₁ hs₁ => ?_) fun _ => hquiet
  rw [← hs₁] at hquiet ⊢
  rw [post_bind, post_gets]
  dsimp only
  split
  · exact hquiet
  rename_i hallowed
  rw [not_not, deviceAllowed_eq, Bool.not_eq_true'] at hallowed
  rw [post_bind, post_modify]
  refine post_read (fun networks hnets => ?_) fun _ _ ok => ?_
  · refine (collect_announceKey hnets).mono fun _ s' h ok => ?_
    exact .keyPublished rfl (by simpa [Op.actor] using hallowed) h
  · exact .keyPublished rfl (by simpa [Op.actor] using hallowed) (.refl _)

theorem removeDeviceKey_effect {actor : DeviceId} {session : SessionId} :
    Post (removeDeviceKey actor session) s (fun _ s' => ∀ ok,
      Effect crypto s.core (.removeDeviceKey actor session) ok s'.core) := by
  unfold removeDeviceKey
  rw [post_bind, post_gets]
  dsimp only
  split
  · rw [post_bind, post_modify]
    refine post_read (fun networks hnets => ?_) fun _ _ ok => ?_
    · exact (collect_announceKey hnets).mono fun _ s' h ok => .keyRemoved rfl h
    · exact .keyRemoved rfl (.refl _)
  · exact fun ok => .quiet fun _ h => h

theorem setManagementCapable_effect {actor : DeviceId} {capable : Bool} :
    Post (setManagementCapable actor capable) s (fun _ s' => ∀ ok,
      Effect crypto s.core (.setManagementCapable actor capable) ok s'.core) := by
  unfold setManagementCapable
  rw [post_bind, post_modify]
  refine post_read (fun networks hnets => ?_) fun _ _ ok => ?_
  swap
  · exact .capableSet rfl (.refl _)
  set s₀ : Service := { s with
    managementCapable := if capable then insert actor s.managementCapable else s.managementCapable.erase actor }
  -- the tables do not change on the way, so the managed networks are those of the start
  have hpost : ∀ s₁ : Service, Post (collect (fun network : NetworkRecord => do
      let policy ← gets fun s => s.store.networkPolicy network.id
      if policy.managed then advancedChanges network.id else pure []) networks) s₁ (fun _ s₂ =>
        s₁.core.tables = s.core.tables →
          Ticked (fun _ => False) (fun n => (n, actor) ∈ s.core.tables.memberships ∧ (s.core.tables.policy n).managed)
            s₁.core s₂.core) := by
    refine post_collect (R := fun s₁ s₂ : Service => s₁.core.tables = s.core.tables → Ticked _ _ s₁.core s₂.core)
      (fun _ _ => .refl _) (fun {_ _ _} h h' ht => (h ht).trans (h' ((h ht).tables.trans ht))) ?_
    intro network hnet s₁
    obtain ⟨row, hrow, hr, hm⟩ := (Db.mem_listNetworksForDevice hnets).1 hnet
    rw [post_bind, post_gets]
    dsimp only
    split
    · rename_i hman
      refine Post.mono (advancedChanges_ticked (R := (· = network.id)) rfl) fun _ s₂ h ht => h.mono (fun _ => id) ?_
      rintro _ rfl
      refine ⟨hm, ?_⟩
      rw [← ht]
      exact hman
    · exact fun _ => .refl _
  exact (hpost s₀).mono fun _ s' h ok => .capableSet rfl (h rfl)

/-! ## Policy edits -/

theorem isMember_iff {q : ManagementRequest} {d : DeviceId} :
    s.isMember q d = true ↔ s.core.tables.Member q.networkId d := by
  simp only [isMember, Bool.or_eq_true, decide_eq_true_eq]
  exact Iff.rfl

theorem checkRoute_ok {q : ManagementRequest} {r : RoutedSubnet} (h : checkRoute s q r = .ok ()) :
    ¬ subnetsOverlap r.address r.prefixLength virtualIpv4PoolFirst 10 ∧ s.core.tables.Member q.networkId r.gateway ∧
      ∀ other ∈ s.core.tables.networks, other ≠ q.networkId → ∀ existing ∈ (s.core.tables.policy other).routes,
        ¬ subnetsOverlap r.address r.prefixLength existing.address existing.prefixLength := by
  simp only [checkRoute, bind_eq_ok, check_eq_ok, exists_const] at h
  obtain ⟨hpool, hgateway, -, hothers⟩ := h
  refine ⟨hpool, isMember_iff.1 hgateway, fun other ho hne existing he hover => ?_⟩
  obtain ⟨row, hrow⟩ := Map.mem_iff_lookup.1 ho
  have hrow := List.all_eq_true.1 hothers (other, row) (Map.mem_rows.2 hrow)
  rw [Bool.or_eq_true, decide_eq_true_eq, or_iff_right hne] at hrow
  have hrow := List.all_eq_true.1 hrow existing he
  rw [hover] at hrow
  cases hrow

theorem requestedPolicy_ok {actor : DeviceId} {q : ManagementRequest} {current next : NetworkPolicy}
    (hinspect : q.action ≠ .inspect) (h : requestedPolicy s actor q current = .ok next) :
    (q.action = .requestGateway ∧ current.managed ∧ policyRole current actor ≠ .restricted ∧
      q.policy.revision = current.revision ∧ (∀ g ∈ current.gateways, g.device ≠ actor) ∧
      current.gateways.length < 16 ∧
      next = { current with gateways := current.gateways ++ [{ device := actor, approved := false }] }) ∨
    (q.action = .replacePolicy ∧ s.core.CanManage q.networkId actor ∧ next = q.policy) := by
  unfold requestedPolicy at h
  split at h
  · rename_i haction
    simp only [bind_eq_ok, check_eq_ok, Except.ok.injEq, exists_const] at h
    obtain ⟨⟨hm, hr⟩, hrev, hnew, hlen, rfl⟩ := h
    exact .inl ⟨haction, hm, hr, hrev, fun g hg => of_decide_eq_true (List.all_eq_true.1 hnew g hg), hlen, rfl⟩
  · rename_i haction
    simp only [bind_eq_ok, check_eq_ok, Except.ok.injEq, exists_const] at h
    obtain ⟨hman, rfl⟩ := h
    refine .inr ⟨?_, (canManageNetwork_iff s _ _).1 hman, rfl⟩
    cases ha : q.action with
    | inspect => exact absurd ha hinspect
    | requestGateway => exact absurd ha haction
    | replacePolicy => rfl

theorem editPolicy_ok {owner actor : DeviceId} {q : ManagementRequest} {current next : NetworkPolicy}
    (hinspect : q.action ≠ .inspect) (h : editPolicy s owner actor q current = .ok next) :
    Edit s.core owner actor q current next := by
  simp only [editPolicy, bind_eq_ok, check_eq_ok, Except.ok.injEq, exists_const] at h
  obtain ⟨hcapable, _, hrequested, -, hhubs, hrules, _, hgateways, _, hmembers, _, hroles, _, hroutes, hrev, rfl⟩ := h
  have hgateways := forM_eq_ok.1 hgateways
  have hmembers := forM_eq_ok.1 hmembers
  have hroutes := forM_eq_ok.1 hroutes
  refine ⟨hcapable, requestedPolicy_ok hinspect hrequested, fun hub hh => ?_, fun r hr => ?_, fun g hg => ?_,
    fun m hm => ?_, fun hne haction => ?_, fun r hr => checkRoute_ok (hroutes r hr), hrev⟩
  · exact isMember_iff.1 (List.all_eq_true.1 hhubs hub hh)
  · have h := List.all_eq_true.1 hrules r hr
    rw [Bool.and_eq_true] at h
    exact ⟨isMember_iff.1 h.1, isMember_iff.1 h.2⟩
  · have h := hgateways g hg
    simp only [checkGateway, bind_eq_ok, check_eq_ok, exists_const, List.any_eq_true, decide_eq_true_eq,
      Bool.not_eq_true] at h
    exact ⟨isMember_iff.1 h.1.1, h.1.2, h.2⟩
  · have h := hmembers m hm
    simp only [checkAssignment, check_eq_ok] at h
    exact ⟨h.1.imp isMember_iff.1 And.left, h.2⟩
  · rw [checkRoles, if_neg (by simp [hne, haction])] at hroles
    simp only [bind_eq_ok, check_eq_ok, exists_const, List.all_eq_true, decide_eq_true_eq] at hroles
    exact hroles

/-- A check that fails does not report success. -/
theorem editPolicy_throws (s : Service) (owner actor : DeviceId) (q : ManagementRequest) (current : NetworkPolicy) :
    Throws (· ≠ NetworkResultCode.success) (s.editPolicy owner actor q current) := by
  have hrequested : Throws (· ≠ NetworkResultCode.success) (requestedPolicy s actor q current) := by
    unfold requestedPolicy
    split
    · exact (throws_check (by decide)).bind fun _ => (throws_check (by decide)).bind fun _ =>
        (throws_check (by decide)).bind fun _ => (throws_check (by decide)).bind fun _ => throws_ok
    · exact (throws_check (by decide)).bind fun _ => throws_ok
  have hroles (next : NetworkPolicy) :
      Throws (· ≠ NetworkResultCode.success) (checkRoles owner actor q current next) := by
    unfold checkRoles
    split
    · exact throws_ok
    · exact (throws_check (by decide)).bind fun _ => (throws_check (by decide)).bind fun _ => throws_check (by decide)
  refine (throws_check (by decide)).bind fun _ => hrequested.bind fun next => ?_
  refine (throws_check (by decide)).bind fun _ => (throws_check (by decide)).bind fun _ => ?_
  refine (throws_check (by decide)).bind fun _ => (throws_forM (fun g => ?_) _).bind fun _ => ?_
  · exact (throws_check (by decide)).bind fun _ => throws_check (by decide)
  refine (throws_forM (fun m => throws_check (by decide)) _).bind fun _ => (hroles next).bind fun _ => ?_
  refine (throws_forM (fun r => ?_) _).bind fun _ => (throws_check (by decide)).bind fun _ => throws_ok
  exact (throws_check (by decide)).bind fun _ => (throws_check (by decide)).bind fun _ =>
    (throws_check (by decide)).bind fun _ => throws_check (by decide)

/-- The edit `q` of `actor` passes every check, and `next` is to be stored under
the next revision. -/
structure Accepts (s : Service) (actor : DeviceId) (q : ManagementRequest) (owner : DeviceId) (next : NetworkPolicy) :
    Prop where
  valid : Encodable q.policy
  owned : s.tables.owner q.networkId = some owner
  allowed : s.deviceAllowed actor = true
  lease : (q.networkId, actor) ∈ s.tables.leases
  action : q.action ≠ .inspect
  edited : s.editPolicy owner actor q (s.tables.policy q.networkId) = .ok next
  encodable : Encodable { next with revision := next.revision + 1 }
  bounded : (next.revision + 1).toNat < 2 ^ 63

/-- `manage_network`: nothing, or an accepted edit is stored and announced. -/
inductive ManageEffect (s : Service) (actor : DeviceId) (q : ManagementRequest) : Bool → Core → Prop
  | none {ok : Bool} (h : ok = true → q.action = .inspect) : ManageEffect s actor q ok s.core
  | edited {ok : Bool} {c' : Core} {owner : DeviceId} {next : NetworkPolicy} (accepts : Accepts s actor q owner next)
      (advanced : Advanced q.networkId ok
        (s.core.withTables (s.tables.savePolicy q.networkId ⟨_, accepts.encodable⟩)) c') : ManageEffect s actor q ok c'

theorem storePolicy_effect {actor owner : DeviceId} {q : ManagementRequest} {nowMs : ℤ} {next : NetworkPolicy}
    (hw : s.tables.Wf) (hq : Encodable q.policy) (howner : s.tables.owner q.networkId = some owner)
    (hallowed : s.deviceAllowed actor = true) (hlease : (q.networkId, actor) ∈ s.tables.leases)
    (haction : q.action ≠ .inspect)
    (hedit : s.editPolicy owner actor q (s.tables.policy q.networkId) = .ok next) :
    Post (storePolicy actor q nowMs (s.tables.policy q.networkId) next) s
      (fun r s' => ManageEffect s actor q (succeeded ManagementOutcome.code r) s'.core) := by
  have hnone : ManageEffect s actor q false s.core := .none (by simp)
  unfold storePolicy
  refine post_write (fun saved db h => ?_) fun _ _ => hnone
  obtain ⟨rfl, rfl⟩ | ⟨rfl, hn, -, -, -, hbounded, he, ht, -⟩ := Db.saveNetworkPolicy_ok h
  · exact hnone
  have haccepts : Accepts s actor q owner next :=
    ⟨hq, howner, hallowed, hlease, haction, hedit, he, hbounded _ rfl⟩
  have hcore : ({ s with store := db } : Service).core =
      s.core.withTables (s.tables.savePolicy q.networkId ⟨_, haccepts.encodable⟩) := by
    simp only [core, tables, ht]
    rfl
  have hw' : ({ s with store := db } : Service).tables.Wf := by
    rw [show ({ s with store := db } : Service).tables = _ from congrArg Core.tables hcore]
    exact hw.change (.savePolicy _ _ hn)
  have hn' : q.networkId ∈ ({ s with store := db } : Service).tables.networks := by
    rw [show ({ s with store := db } : Service).tables = _ from congrArg Core.tables hcore]
    exact hn
  rw [if_neg (by simp)]
  refine post_advanceKeyEpoch (fun hf => ?_) fun hepoch => ?_
  · exact .edited haccepts (hcore ▸ .epochFull hf)
  refine post_advancedChanges hw' hn' (fun hf => ?_) fun hr changes => ?_
  · exact .edited haccepts (hcore ▸ .revisionFull hepoch hf)
  · exact .edited haccepts (hcore ▸ .done hepoch hr)

theorem manageNetwork_effect {actor : DeviceId} {q : ManagementRequest} {nowMs : ℤ} (hw : s.tables.Wf) :
    Post (manageNetwork inputs actor q nowMs) s
      (fun r s' => ManageEffect s actor q (succeeded ManagementOutcome.code r) s'.core) := by
  have hnone : ManageEffect s actor q false s.core := .none (by simp)
  unfold manageNetwork
  rw [post_bind, post_lift]
  split
  swap
  · exact hnone
  rw [post_bind, post_lift]
  split
  swap
  · exact hnone
  rename_i hq
  simp only [requireManagementRequest, bind_eq_ok, check_eq_ok, exists_const] at hq
  have hbody : Post (manageAction actor q nowMs) s
      (fun r s' => ManageEffect s actor q (succeeded ManagementOutcome.code r) s'.core) := by
    unfold manageAction
    refine post_read (fun network hnet => ?_) fun _ _ => hnone
    cases network with
    | none => exact hnone
    | some network =>
      dsimp only
      rw [post_bind, post_gets]
      refine post_read (fun lease hlease => ?_) fun _ _ => hnone
      split
      · exact hnone
      rename_i hmember
      rw [not_or, not_not, Bool.not_eq_true, ← Option.not_isSome, Bool.not_eq_false'] at hmember
      rw [post_bind, post_gets]
      dsimp only
      split
      · rename_i hinspect
        have hread : ∀ ok, ManageEffect s actor q ok s.core := fun _ => .none fun _ => hinspect
        unfold inspectNetwork
        rw [post_bind, post_gets]
        dsimp only
        split
        · exact hread _
        · exact post_read (fun _ _ => post_read (fun _ _ => hread _) fun _ _ => hread _) fun _ _ => hread _
      rename_i haction
      rw [post_bind, post_gets]
      dsimp only
      split
      · rename_i code hcode
        exact .none fun hok => absurd (of_decide_eq_true hok) (editPolicy_throws s _ _ _ _ code hcode)
      · rename_i next hedit
        exact storePolicy_effect hw hq.2 (Db.findNetwork_some hnet).1 hmember.1
          ((Db.findVirtualIpv4Lease_isSome hlease).1 hmember.2) haction hedit
  rw [post_bind]
  refine hbody.mono fun r s₁ h₁ => ?_
  cases r with
  | error e => exact h₁
  | ok out =>
    dsimp only
    split
    · exact h₁
    · rw [post_bind, post_modify, post_pure, core_auditLocked]
      exact h₁

/-! ## Revoking a device -/

/-- One round of the loop: `d` is out of the network, or the call ends there. -/
theorem revokeFrom_effect {q : AccessRequest} {network : NetworkRecord} (hw : s.tables.Wf) (hd : q.deviceId ≠ 0)
    (hm : MemberRow s.tables network.id q.deviceId) :
    Post (revokeFrom q network) s (fun r s' =>
      ((∃ xs, r = .ok xs) ∧ Advanced network.id true
        (s.core.withTables (s.tables.leave network.id q.deviceId)) s'.core) ∨
        ((∃ e, r = .error e) ∧ Stopped network.id q.deviceId s.core s'.core)) := by
  have hn : network.id ∈ s.tables.networks := by
    obtain ⟨row, hrow, -⟩ := hm
    exact hw.owned.member_network _ _ (Map.mem_of_lookup hrow)
  have hn0 : network.id ≠ 0 := fun h0 => hw.owned.nonzero (h0 ▸ hn)
  unfold revokeFrom
  refine post_write (fun removed db h => ?_) fun e he => ?_
  · obtain ⟨-, hnot, -⟩ | ⟨-, -, rfl⟩ := Db.removeMember_ok h
    · exact absurd hm hnot
    refine post_advanceKeyEpoch (fun hf => .inr ⟨⟨_, rfl⟩, .counter hm (.epochFull hf)⟩) fun hepoch => ?_
    refine post_advanceRevision (fun hf => .inr ⟨⟨_, rfl⟩, .counter hm (.revisionFull hepoch hf)⟩) fun hr => ?_
    refine post_changesForMembers ?_ ?_ fun changes => .inl ⟨⟨_, rfl⟩, .done hepoch hr⟩
    · exact hw.change (.leave hm)
    · exact hn
  · -- the store threw, so the policy could not be pruned
    refine .inr ⟨⟨e, rfl⟩, ?_⟩
    by_cases hr : prunedPolicy q.deviceId (s.tables.policy network.id) = s.tables.policy network.id ∨
        (s.tables.policy network.id).revision ≠ uint64Max
    · rw [Db.removeMember_succeeds hn0 hd hm hr] at he
      cases he
    · rw [not_or, not_not] at hr
      exact .policy hr.1 hr.2

/-- The loop of `device_revoke`. -/
theorem collect_revokeFrom {q : AccessRequest} {networks : List NetworkRecord} (hw : s.tables.Wf)
    (hd : q.deviceId ≠ 0) (hnodup : (networks.map (·.id)).Nodup)
    (hm : ∀ network ∈ networks, MemberRow s.tables network.id q.deviceId) :
    Post (collect (revokeFrom q) networks) s (fun r s' =>
      ((∃ xs, r = .ok xs) ∧ Purged q.deviceId (networks.map (·.id)) s.core s'.core) ∨
        ((∃ e, r = .error e) ∧ ∃ before n after c₁, networks.map (·.id) = before ++ n :: after ∧
          Purged q.deviceId before s.core c₁ ∧ Stopped n q.deviceId c₁ s'.core)) := by
  induction networks generalizing s with
  | nil => exact .inl ⟨⟨_, rfl⟩, .nil⟩
  | cons network networks ih =>
    rw [List.map_cons, List.nodup_cons] at hnodup
    have hfirst := hm network (by simp)
    simp only [collect, post_bind, post_pure]
    refine (revokeFrom_effect hw hd hfirst).mono fun r s₁ h₁ => ?_
    obtain ⟨⟨xs, rfl⟩, hadv⟩ | ⟨⟨e, rfl⟩, hstop⟩ := h₁
    · have htables : s₁.tables = s.tables.leave network.id q.deviceId := hadv.tables
      have hw₁ : s₁.tables.Wf := by
        rw [htables]
        exact hw.change (.leave hfirst)
      have hm₁ : ∀ other ∈ networks, MemberRow s₁.tables other.id q.deviceId := by
        intro other ho
        rw [htables]
        refine memberRow_leave (hm other (by simp [ho])) fun heq => hnodup.1 ?_
        exact heq ▸ List.mem_map_of_mem ho
      refine (ih hw₁ hnodup.2 hm₁).mono fun r s₂ h₂ => ?_
      obtain ⟨⟨ys, rfl⟩, h⟩ | ⟨⟨e, rfl⟩, before, n, after, c₁, hsplit, hpurged, h⟩ := h₂
      · exact .inl ⟨⟨_, rfl⟩, .cons hfirst hadv h⟩
      · exact .inr ⟨⟨e, rfl⟩, network.id :: before, n, after, c₁, by simp [hsplit], .cons hfirst hadv hpurged, h⟩
    · exact .inr ⟨⟨e, rfl⟩, [], network.id, networks.map (·.id), _, rfl, .nil, hstop⟩

theorem accountForDevice_some {db : Db} {account : AccountRecord} (h : db.accountForDevice d = some account) :
    ∃ row a, db.accountDevices.lookup d = some row ∧ row.revoked = false ∧ db.accounts.lookup row.accountId = some a ∧
      account = { id := row.accountId, owner := a.owner, name := a.name } := by
  unfold Db.accountForDevice at h
  split at h
  · rename_i row hrow
    split at h
    · cases h
    · rename_i hr
      obtain ⟨a, ha, rfl⟩ := Option.map_eq_some_iff.1 h
      exact ⟨row, a, hrow, by simpa using hr, ha, rfl⟩
  · cases h

/-- A device whose account belongs to another device owns no account. -/
theorem not_account_owner {t : Tables} (hw : t.Wf) {row : AccountDeviceRow} {account : Account}
    (hrow : t.accountDevices.lookup d = some row) (ha : t.accounts.lookup row.accountId = some account)
    (hne : account.owner ≠ d) (id : AccountId) (a : Account) (hid : t.accounts.lookup id = some a) : a.owner ≠ d := by
  rintro rfl
  obtain ⟨row', hrow', rfl, -⟩ := hw.accounted.owner_device id a hid
  rw [hrow, Option.some.injEq] at hrow'
  subst hrow'
  rw [ha, Option.some.injEq] at hid
  exact hne (congrArg _ hid)

theorem revokeAccountDevice_eq {db : Db} {row : AccountDeviceRow} (hrow : db.accountDevices.lookup d = some row)
    (hnot : ∀ id a, db.accounts.lookup id = some a → a.owner ≠ d) :
    db.revokeAccountDevice row.accountId d = .ok ((), { db with toTables := db.revoke d row }) := by
  have hall : (db.accounts.rows.all fun a => a.2.owner ≠ d) = true := by
    rw [List.all_eq_true]
    exact fun a ha => decide_eq_true (hnot a.1 a.2 (Map.mem_rows.1 ha))
  simp only [Db.revokeAccountDevice, hrow]
  rw [hall, decide_true, Bool.and_true, if_pos rfl]
  rfl

/-- What `device_revoke` has checked when it starts to remove the device from `networks`. -/
structure Revocable (t : Tables) (actor d : DeviceId) (row : AccountDeviceRow) (networks : List NetworkRecord) : Prop where
  owns : OwnsDevice t actor d row
  nonzero : d ≠ 0
  networksOf : NetworksOf t d (networks.map (·.id))
  notOwner : ∀ n, t.owner n ≠ some d
  wf : (t.revoke d row).Wf
  member : ∀ network ∈ networks, MemberRow (t.revoke d row) network.id d

/-- `device_revoke` is turned away, or it revokes the device and goes through its networks. -/
theorem post_deviceRevoke {actor : DeviceId} {q : AccessRequest} {Q : Except Exn AccessOutcome → Service → Prop}
    (hw : s.tables.Wf) (hfail : ∀ code, code ≠ .success → Q (.ok (.fail q code)) s) (hthrow : ∀ e, Q (.error e) s)
    (hrevoke : ∀ row networks account, Revocable s.tables actor q.deviceId row networks → Post (do
        let changes ← collect (revokeFrom q) networks
        modify fun s => { s with activeKeys := s.activeKeys.erase q.deviceId }
        pure { result := { action := q.action, accountId := account }, changes })
      { s with store := { s.store with toTables := s.tables.revoke q.deviceId row } } Q) :
    Post (deviceRevoke actor q) s Q := by
  unfold deviceRevoke
  rw [post_gets_bind, post_gets_bind]
  split
  swap
  · exact hfail _ (by simp)
  rename_i account target haccount htarget
  split
  · exact hfail _ (by simp)
  rename_i hcond
  simp only [not_or, not_not] at hcond
  obtain ⟨howner, hid, hne⟩ := hcond
  obtain ⟨own, oa, hown, hallowed, hoa, rfl⟩ := accountForDevice_some haccount
  obtain ⟨row, ra, hrow, hrevoked, hra, rfl⟩ := accountForDevice_some htarget
  dsimp only at howner hid
  rw [hid, hoa, Option.some.injEq] at hra
  subst hra
  have howns : OwnsDevice s.core.tables actor q.deviceId row :=
    ⟨⟨own, hown, hid.symm, hallowed⟩, ⟨oa, hid ▸ hoa, howner⟩, hrow, hrevoked, hne⟩
  have hnot := not_account_owner (t := s.tables) hw hrow (hid ▸ hoa) (by rw [howner]; exact Ne.symm hne)
  refine post_read (fun networks hnets => ?_) fun e _ => hthrow e
  have hd : q.deviceId ≠ 0 := by
    simp only [Db.listNetworksForDevice, bind_eq_ok] at hnets
    obtain ⟨_, h, -⟩ := hnets
    exact Db.requireDeviceId_ok.1 h
  split
  · exact hfail _ (by simp)
  rename_i hown'
  have hnetworksOf : NetworksOf s.core.tables q.deviceId (networks.map (·.id)) := by
    refine ⟨fun n => ?_, Db.nodup_listNetworksForDevice hnets⟩
    rw [List.mem_map]
    constructor
    · rintro ⟨network, hmem, rfl⟩
      obtain ⟨-, -, -, hm⟩ := (Db.mem_listNetworksForDevice hnets).1 hmem
      exact hm
    · intro hm
      obtain ⟨network, hnet⟩ := Map.mem_iff_lookup.1 (hw.owned.member_network _ _ hm)
      exact ⟨.ofRow (n, network), (Db.mem_listNetworksForDevice hnets).2 ⟨network, hnet, rfl, hm⟩, rfl⟩
  have hnotOwner : ∀ n, s.core.tables.owner n ≠ some q.deviceId := by
    intro n ho
    obtain ⟨m, hm, -⟩ := hw.owned.owner_row n _ ho
    obtain ⟨network, hnet, hno⟩ := Option.map_eq_some_iff.1 ho
    refine hown' (List.any_eq_true.2 ⟨.ofRow (n, network), ?_, decide_eq_true hno⟩)
    exact (Db.mem_listNetworksForDevice hnets).2 ⟨network, hnet, rfl, Map.mem_of_lookup hm⟩
  refine post_write (fun _ db hrev => ?_) fun e _ => hthrow e
  rw [← hid, revokeAccountDevice_eq hrow hnot, Except.ok.injEq, Prod.mk.injEq] at hrev
  obtain ⟨-, rfl⟩ := hrev
  have hw' := hw.change (.revoke (t := s.tables) hrow hnot)
  have hmember : ∀ network ∈ networks, MemberRow (s.tables.revoke q.deviceId row) network.id q.deviceId :=
    fun network hmem => memberRow_of_mem hw' ((hnetworksOf.mem _).1 (List.mem_map_of_mem hmem)) (hnotOwner network.id)
  exact hrevoke row networks _ ⟨howns, hd, hnetworksOf, hnotOwner, hw', hmember⟩

theorem deviceRevoke_effect {actor : DeviceId} {q : AccessRequest} {nowMs : ℤ} (hw : s.tables.Wf)
    (haction : q.action = .deviceRevoke) :
    Post (deviceRevoke actor q) s (fun r s' =>
      Effect crypto s.core (.accessRequest actor q nowMs) (succeeded AccessOutcome.code r) s'.core) := by
  have hquiet : Effect crypto s.core (.accessRequest actor q nowMs) false s.core := .quiet (by simp)
  refine post_deviceRevoke hw (fun code hcode => ?_) (fun _ => hquiet) fun row networks account h => ?_
  · rw [show succeeded AccessOutcome.code (.ok (.fail q code)) = false from decide_eq_false hcode]
    exact hquiet
  rw [post_bind]
  refine Post.mono (collect_revokeFrom ?_ h.nonzero h.networksOf.nodup ?_) fun r s' hr => ?_
  · exact h.wf
  · exact h.member
  have howns : OwnsDevice s.core.tables actor q.deviceId row := h.owns
  have hnetworksOf : NetworksOf s.core.tables q.deviceId (networks.map (·.id)) := h.networksOf
  obtain ⟨⟨changes, rfl⟩, hpurged⟩ | ⟨⟨e, rfl⟩, before, n, after, c₁, hsplit, hpurged, hstopped⟩ := hr
  · exact .revoked ⟨haction, nowMs, rfl⟩ howns hnetworksOf h.notOwner hpurged
  · exact .revokeStopped ⟨haction, nowMs, rfl⟩ howns (hsplit ▸ hnetworksOf) h.notOwner hpurged hstopped

/-! ## Access requests -/

section access
variable {actor : DeviceId} {q : AccessRequest} {nowMs : ℤ}

theorem networkCreateProtected_effect (hw : s.tables.Wf) (haction : q.action = .networkCreateProtected) :
    Post (networkCreateProtected crypto inputs actor q nowMs) s (fun r s' =>
      Effect crypto s.core (.accessRequest actor q nowMs) (succeeded AccessOutcome.code r) s'.core) := by
  have hquiet : Effect crypto s.core (.accessRequest actor q nowMs) false s.core := .quiet (by simp)
  unfold networkCreateProtected
  refine post_lift_bind (fun _ _ => ?_) fun _ => hquiet
  rw [post_update_bind]
  have hcore := core_allowAccessAttempt actor 0 inputs.now s
  generalize allowAccessAttempt actor 0 inputs.now s = attempt at hcore ⊢
  obtain ⟨allowed, s₁⟩ := attempt
  dsimp only at hcore ⊢
  rw [← hcore] at hquiet ⊢
  rw [← tables_of_core hcore] at hw
  split
  · exact hquiet
  refine post_lift_bind (fun salt _ => ?_) fun _ => hquiet
  refine post_lift_bind (fun verifier _ => ?_) fun _ => hquiet
  rw [post_bind]
  refine (createNetworkLocked_effect inputs hw).mono fun r s₂ h => ?_
  have heffect := CreateEffect.effect crypto (.accessRequest actor q nowMs) haction h
  cases r <;> exact heffect

theorem passwordJoin_effect {network : Option NetworkRecord} (hw : s.tables.Wf) (haction : q.action = .passwordJoin) :
    Post (passwordJoin crypto inputs actor q nowMs network) s (fun r s' =>
      Effect crypto s.core (.accessRequest actor q nowMs) (succeeded AccessOutcome.code r) s'.core) := by
  have hquiet : Effect crypto s.core (.accessRequest actor q nowMs) false s.core := .quiet (by simp)
  unfold passwordJoin
  rw [post_gets_bind]
  refine post_lift_bind (fun isMatch hmatch => ?_) fun _ => hquiet
  split
  · exact hquiet
  rename_i hcond
  simp only [not_or, Option.isNone_iff_eq_none, ← ne_eq, Option.ne_none_iff_exists', not_not] at hcond
  obtain ⟨-, ⟨v, hv⟩, rfl⟩ := hcond
  rw [hv, Option.getD_some] at hmatch
  rw [post_bind]
  refine (joinNetworkLocked_effect inputs hw).mono fun r s₁ h => ?_
  have heffect := JoinEffect.effect (c := s.core) (.accessRequest actor q nowMs) ⟨haction, rfl, v, hv, hmatch⟩
    (fun v' _ hv' _ => by
      rw [show s.core.tables.access.lookup q.networkId = some v from hv, Option.some.injEq] at hv'
      exact ⟨q, ⟨haction, nowMs, rfl⟩, rfl, hv' ▸ hmatch⟩) h
  cases r <;> exact heffect

theorem passwordSet_effect {network : Option NetworkRecord} (haction : q.action = .passwordSet) :
    Post (passwordSet crypto inputs actor q network) s (fun r s' =>
      Effect crypto s.core (.accessRequest actor q nowMs) (succeeded AccessOutcome.code r) s'.core) := by
  have hquiet : Effect crypto s.core (.accessRequest actor q nowMs) false s.core := .quiet (by simp)
  unfold passwordSet
  rw [post_gets_bind]
  split
  · exact hquiet
  rename_i hcond
  rw [not_or, not_not, canManageNetwork_iff] at hcond
  have hset (verifier : Option PasswordVerifier) : Post (do
      write fun db => db.setNetworkPassword q.networkId verifier
      pure (AccessOutcome.failAt q .success)) s (fun r s' =>
        Effect crypto s.core (.accessRequest actor q nowMs) (succeeded AccessOutcome.code r) s'.core) := by
    refine post_write (fun _ db h => ?_) fun _ _ => hquiet
    obtain ⟨-, rfl⟩ := Db.setNetworkPassword_ok h
    exact .passwordSet verifier ⟨haction, nowMs, rfl⟩ hcond.2
  split
  · exact hset none
  refine post_lift_bind (fun salt _ => ?_) fun _ => hquiet
  exact post_lift_bind (fun verifier _ => hset (some verifier)) fun _ => hquiet

theorem inviteIssue_effect (haction : q.action = .inviteIssue) (hman : s.core.CanManage q.networkId actor) :
    Post (inviteIssue crypto inputs q nowMs) s (fun r s' =>
      Effect crypto s.core (.accessRequest actor q nowMs) (succeeded AccessOutcome.code r) s'.core) := by
  have hquiet : Effect crypto s.core (.accessRequest actor q nowMs) false s.core := .quiet (by simp)
  unfold inviteIssue
  split
  · exact hquiet
  refine post_lift_bind (fun nonce _ => ?_) fun _ => hquiet
  refine post_write (fun _ db h => ?_) fun _ _ => hquiet
  obtain ⟨-, -, -, rfl⟩ := Db.issueInviteLink_ok h
  exact .linkIssued _ rfl haction hman

theorem inviteRedeem_effect {network : Option NetworkRecord} (hw : s.tables.Wf) (haction : q.action = .inviteRedeem)
    (htime : 0 ≤ nowMs) :
    Post (inviteRedeem crypto inputs actor q nowMs network) s (fun r s' =>
      Effect crypto s.core (.accessRequest actor q nowMs) (succeeded AccessOutcome.code r) s'.core) := by
  have hquiet : Effect crypto s.core (.accessRequest actor q nowMs) false s.core := .quiet (by simp)
  unfold inviteRedeem
  split
  · exact hquiet
  refine post_read (fun lease _ => ?_) fun _ _ => hquiet
  split
  · exact hquiet
  refine post_read (fun full _ => ?_) fun _ _ => hquiet
  refine post_read (fun members _ => ?_) fun _ _ => hquiet
  split
  · exact hquiet
  refine post_write (fun redeemed db h => ?_) fun _ _ => hquiet
  obtain ⟨rfl, -, rfl⟩ | ⟨rfl, link, hlive, hmember, -, rfl⟩ := Db.redeemInviteLink_ok h
  · exact hquiet
  obtain ⟨hlink, hnet, hfresh, huses⟩ := Db.liveLink_eq_some.1 hlive
  have hred : Redemption crypto s.core (.accessRequest actor q nowMs) q.networkId (accessDigest crypto q.secret) link
      nowMs := ⟨⟨q, rfl, haction, rfl, rfl⟩, hlink, hnet, hfresh, huses, hmember, htime⟩
  have hw' := hw.change (.redeem (t := s.tables) nowMs hlink hnet hmember)
  rw [if_neg (by simp), post_bind]
  refine Post.mono (joinNetworkLocked_effect inputs ?_) fun r s₁ h => ?_
  · exact hw'
  have heffect : Effect crypto s.core (.accessRequest actor q nowMs) (succeeded NetworkOperationOutcome.code r)
      s₁.core := by
    generalize succeeded NetworkOperationOutcome.code r = ok at h ⊢
    generalize s₁.core = c' at h ⊢
    cases h with
    | none => exact .redeemed hred
    | requested atMs _ _ hinv =>
      -- the invitation has just been inserted
      refine absurd ?_ hinv
      change (q.networkId, actor) ∈ (s.tables.redeem _ _ _ _ _).invitations
      rw [Tables.redeem_invitations]
      split
      · rename_i hor
        exact hor.resolve_right (not_lt.2 htime)
      · simp
    | joined atMs joinable _ advanced => exact .redeemJoined atMs hred joinable advanced
  cases r <;> exact heffect

theorem inviteAction_effect (hw : s.tables.Wf) (htime : 0 ≤ nowMs)
    (haction : q.action = .inviteIssue ∨ q.action = .inviteRedeem ∨ q.action = .inviteRevoke) :
    Post (inviteAction crypto inputs actor q nowMs) s (fun r s' =>
      Effect crypto s.core (.accessRequest actor q nowMs) (succeeded AccessOutcome.code r) s'.core) := by
  have hquiet : Effect crypto s.core (.accessRequest actor q nowMs) false s.core := .quiet (by simp)
  unfold inviteAction
  rw [post_update_bind]
  have hcore := core_allowAccessAttempt actor q.networkId inputs.now s
  generalize allowAccessAttempt actor q.networkId inputs.now s = attempt at hcore ⊢
  obtain ⟨allowed, s₁⟩ := attempt
  dsimp only at hcore ⊢
  rw [← hcore] at hquiet ⊢
  rw [← tables_of_core hcore] at hw
  split
  · exact hquiet
  refine post_read (fun network _ => ?_) fun _ _ => hquiet
  split
  · exact inviteRedeem_effect crypto inputs hw ‹_› htime
  rename_i hredeem
  rw [post_gets_bind]
  split
  · exact hquiet
  rename_i hcond
  rw [not_or, not_not, canManageNetwork_iff] at hcond
  split
  · rename_i hrevoke
    refine post_write (fun _ db h => ?_) fun _ _ => hquiet
    rw [Db.revokeInviteLinks_ok h]
    exact .linksDropped ⟨hrevoke, nowMs, rfl⟩ hcond.2
  · rename_i hrevoke
    exact inviteIssue_effect crypto inputs (by tauto) hcond.2

theorem passwordAction_effect (hw : s.tables.Wf) (haction : q.action = .passwordSet ∨ q.action = .passwordJoin) :
    Post (passwordAction crypto inputs actor q nowMs) s (fun r s' =>
      Effect crypto s.core (.accessRequest actor q nowMs) (succeeded AccessOutcome.code r) s'.core) := by
  have hquiet : Effect crypto s.core (.accessRequest actor q nowMs) false s.core := .quiet (by simp)
  unfold passwordAction
  rw [post_update_bind]
  have hcore := core_allowAccessAttempt actor q.networkId inputs.now s
  generalize allowAccessAttempt actor q.networkId inputs.now s = attempt at hcore ⊢
  obtain ⟨allowed, s₁⟩ := attempt
  dsimp only at hcore ⊢
  rw [← hcore] at hquiet ⊢
  rw [← tables_of_core hcore] at hw
  split
  · exact hquiet
  refine post_read (fun network _ => ?_) fun _ _ => hquiet
  split
  · exact passwordSet_effect crypto inputs ‹_›
  · exact passwordJoin_effect crypto inputs hw (by tauto)

/-- Reporting an account changes nothing. -/
theorem post_accountReport {account : Option AccountRecord} {secret : Text} {P : Bool → Core → Prop}
    (h : ∀ ok, (account.isSome → ok = true) → P ok s.core) :
    Post (accountReport q account secret) s (fun r s' => P (succeeded AccessOutcome.code r) s'.core) := by
  cases account with
  | none => exact h _ (by simp)
  | some account => exact h _ fun _ => rfl

theorem accountCreate_effect {account : Option AccountRecord} (haction : q.action = .accountCreate) :
    Post (accountCreate inputs actor q nowMs account) s (fun r s' =>
      Effect crypto s.core (.accessRequest actor q nowMs) (succeeded AccessOutcome.code r) s'.core) := by
  have hquiet : Effect crypto s.core (.accessRequest actor q nowMs) false s.core := .quiet (by simp)
  unfold accountCreate
  split
  · exact hquiet
  split
  · exact hquiet
  refine post_lift_bind (fun id _ => ?_) fun _ => hquiet
  refine post_write (fun _ db h => ?_) fun _ _ => hquiet
  obtain ⟨fresh, single, unknown, rfl⟩ := Db.createAccount_ok h
  rw [post_gets_bind]
  refine post_accountReport (P := fun ok c' => Effect crypto s.core (.accessRequest actor q nowMs) ok c') fun ok _ => ?_
  exact .accountOpened ⟨haction, nowMs, rfl⟩ rfl fresh single unknown

theorem enrollmentIssue_effect {account : Option AccountRecord} (haction : q.action = .enrollmentIssue) :
    Post (enrollmentIssue crypto inputs actor q nowMs account) s (fun r s' =>
      Effect crypto s.core (.accessRequest actor q nowMs) (succeeded AccessOutcome.code r) s'.core) := by
  have hquiet : Effect crypto s.core (.accessRequest actor q nowMs) false s.core := .quiet (by simp)
  unfold enrollmentIssue
  cases account with
  | none => exact hquiet
  | some account =>
    dsimp only
    split
    · exact hquiet
    refine post_lift_bind (fun nonce _ => ?_) fun _ => hquiet
    refine post_write (fun _ db h => ?_) fun _ _ => hquiet
    obtain ⟨haccount, rfl⟩ := Db.issueEnrollment_ok h
    exact .enrollmentOffered _ ⟨haction, nowMs, rfl⟩ haccount

theorem deviceEnroll_effect (haction : q.action = .deviceEnroll) (hallowed : ¬ s.core.revoked actor) :
    Post (deviceEnroll crypto actor q nowMs) s (fun r s' =>
      Effect crypto s.core (.accessRequest actor q nowMs) (succeeded AccessOutcome.code r) s'.core) := by
  have hquiet : Effect crypto s.core (.accessRequest actor q nowMs) false s.core := .quiet (by simp)
  unfold deviceEnroll
  split
  · exact hquiet
  refine post_write (fun enrolled db h => ?_) fun _ _ => hquiet
  obtain ⟨rfl, rfl⟩ | ⟨rfl, id, -, haccount, hrow, rfl⟩ := Db.enrollDevice_ok h
  · exact hquiet
  -- a device that is known could only enrol again if it was revoked
  have hunknown : actor ∉ s.core.tables.accountDevices := by
    intro hmem
    obtain ⟨row, hlookup⟩ := Map.mem_iff_lookup.1 hmem
    refine hallowed ?_
    rw [Core.revoked, hlookup]
    exact (hrow row hlookup).2
  rw [if_neg (by simp), post_gets_bind]
  refine post_accountReport (P := fun ok c' => Effect crypto s.core (.accessRequest actor q nowMs) ok c') fun ok _ => ?_
  exact .enrolled _ _ ⟨haction, nowMs, rfl⟩ haccount hunknown

theorem core_accessAudit (code : NetworkResultCode) : (accessAudit inputs actor q nowMs code s).core = s.core := by
  unfold accessAudit
  split
  · rfl
  · exact core_auditLocked ..

theorem accessAction_effect (hw : s.tables.Wf) (htime : 0 ≤ nowMs) :
    Post (accessAction crypto inputs actor q nowMs) s (fun r s' =>
      Effect crypto s.core (.accessRequest actor q nowMs) (succeeded AccessOutcome.code r) s'.core) := by
  have hquiet : Effect crypto s.core (.accessRequest actor q nowMs) false s.core := .quiet (by simp)
  unfold accessAction
  rw [post_gets_bind]
  split
  · exact hquiet
  rename_i hallowed
  rw [not_not, deviceAllowed_eq, Bool.not_eq_true'] at hallowed
  refine post_recordDevice (fun s₁ hs₁ => ?_) fun _ => hquiet
  rw [← tables_of_core hs₁] at hw
  rw [← hs₁] at hquiet hallowed ⊢
  rw [post_gets_bind]
  split
  · exact deviceRevoke_effect crypto hw ‹_›
  · exact networkCreateProtected_effect crypto inputs hw ‹_›
  · exact inviteAction_effect crypto inputs hw htime (.inl ‹_›)
  · exact inviteAction_effect crypto inputs hw htime (.inr (.inl ‹_›))
  · exact inviteAction_effect crypto inputs hw htime (.inr (.inr ‹_›))
  · exact passwordAction_effect crypto inputs hw (.inl ‹_›)
  · exact passwordAction_effect crypto inputs hw (.inr ‹_›)
  · exact accountCreate_effect crypto inputs ‹_›
  · rename_i haction
    refine post_accountReport (P := fun ok c' => Effect crypto s₁.core (.accessRequest actor q nowMs) ok c') fun ok _ => ?_
    exact .quiet fun _ hcommits => hcommits haction
  · exact enrollmentIssue_effect crypto inputs ‹_›
  · exact deviceEnroll_effect crypto ‹_› (by simp [hallowed])

theorem accessRequest_effect (hw : s.tables.Wf) :
    Post (accessRequest crypto inputs actor q nowMs) s (fun r s' =>
      Effect crypto s.core (.accessRequest actor q nowMs) (succeeded AccessOutcome.code r) s'.core) := by
  have hquiet : Effect crypto s.core (.accessRequest actor q nowMs) false s.core := .quiet (by simp)
  unfold accessRequest
  refine post_lift_bind (fun _ htime => ?_) fun _ => hquiet
  simp only [requireActorAndTime, bind_eq_ok, check_eq_ok, exists_const] at htime
  refine post_lift_bind (fun _ _ => ?_) fun _ => hquiet
  rw [post_bind, post_tryCatch]
  refine (accessAction_effect crypto inputs hw htime.2).mono fun r s₁ h => ?_
  cases r with
  | error e =>
    dsimp only
    rw [post_bind, post_modify, post_throw, core_accessAudit]
    exact h
  | ok out =>
    dsimp only
    rw [post_bind, post_modify, post_pure, core_accessAudit]
    exact h

end access

/-! ## Membership operations -/

section members
variable {actor : DeviceId} {nowMs : ℤ}

theorem createNetwork_effect {request : NetworkCreateRequest} (hw : s.tables.Wf) :
    Post (createNetwork inputs actor request nowMs) s (fun r s' =>
      Effect crypto s.core (.createNetwork actor request nowMs) (succeeded NetworkOperationOutcome.code r) s'.core) := by
  have hquiet : Effect crypto s.core (.createNetwork actor request nowMs) false s.core := .quiet (by simp)
  unfold createNetwork
  refine post_lift_bind (fun _ _ => ?_) fun _ => hquiet
  split
  · exact hquiet
  · exact (createNetworkLocked_effect inputs hw).mono fun _ _ h => h.effect crypto (.createNetwork _ _ _) trivial

theorem joinNetwork_effect {request : NetworkSelectionRequest} (hw : s.tables.Wf) :
    Post (joinNetwork inputs actor request nowMs) s (fun r s' =>
      Effect crypto s.core (.joinNetwork actor request nowMs) (succeeded NetworkOperationOutcome.code r) s'.core) := by
  have hquiet : Effect crypto s.core (.joinNetwork actor request nowMs) false s.core := .quiet (by simp)
  unfold joinNetwork
  refine post_lift_bind (fun _ _ => ?_) fun _ => hquiet
  refine post_lift_bind (fun _ _ => ?_) fun _ => hquiet
  refine (joinNetworkLocked_effect inputs hw).mono fun _ _ h => ?_
  exact JoinEffect.effect (.joinNetwork actor request nowMs) rfl (by simp) h

/-- A removal is an effect of a call that may make it. -/
theorem LeaveEffect.effect {op : Op} {c c' : Core} {ok : Bool} (removal : Removal c op n d)
    (h : LeaveEffect n d c ok c') : Effect crypto c op ok c' := by
  cases h with
  | none => exact .quiet (by simp)
  | left member advanced => exact .left removal member advanced

theorem inviteMember_effect {request : NetworkMemberRequest} :
    Post (inviteMember inputs actor request nowMs) s (fun r s' =>
      Effect crypto s.core (.inviteMember actor request nowMs) (succeeded NetworkOperationOutcome.code r) s'.core) := by
  have hquiet : Effect crypto s.core (.inviteMember actor request nowMs) false s.core := .quiet (by simp)
  unfold inviteMember
  refine managing_effect (P := fun ok c' => Effect crypto s.core (.inviteMember actor request nowMs) ok c') hquiet
    fun s₁ network hs₁ hman _ => ?_
  rw [← hs₁] at hquiet hman ⊢
  refine post_read (fun members _ => ?_) fun _ _ => hquiet
  refine post_read (fun invitation _ => ?_) fun _ _ => hquiet
  split
  · exact hquiet
  refine post_read (fun pending _ => ?_) fun _ _ => hquiet
  split
  · exact hquiet
  refine post_read (fun full _ => ?_) fun _ _ => hquiet
  split
  · exact hquiet
  refine post_write (fun added db h => ?_) fun _ _ => hquiet
  obtain ⟨rfl, rfl⟩ | ⟨rfl, hm, hj, -, rfl⟩ := Db.addInvitation_ok h
  · exact hquiet
  rw [if_neg (by simp)]
  exact post_audited (P := fun ok c' => Effect crypto s₁.core (.inviteMember actor request nowMs) ok c')
    (.invited rfl hman hm hj)

theorem approveMember_effect {request : NetworkMemberRequest} (hw : s.tables.Wf) :
    Post (approveMember inputs actor request nowMs) s (fun r s' =>
      Effect crypto s.core (.approveMember actor request nowMs) (succeeded NetworkOperationOutcome.code r) s'.core) := by
  have hquiet : Effect crypto s.core (.approveMember actor request nowMs) false s.core := .quiet (by simp)
  unfold approveMember
  refine managing_effect (P := fun ok c' => Effect crypto s.core (.approveMember actor request nowMs) ok c') hquiet
    fun s₁ network hs₁ hman _ => ?_
  rw [← hs₁] at hquiet hman ⊢
  rw [← tables_of_core hs₁] at hw
  refine post_read (fun members _ => ?_) fun _ _ => hquiet
  split
  · exact hquiet
  refine post_read (fun pending hpending => ?_) fun _ _ => hquiet
  split
  · exact hquiet
  rename_i hsome
  have hrequest : (request.networkId, request.deviceId) ∈ s₁.core.tables.joinRequests :=
    (Db.findJoinRequest_isSome hpending).1 (Option.isSome_iff_ne_none.2 (by simpa using hsome))
  refine post_read (fun full _ => ?_) fun _ _ => hquiet
  split
  · exact hquiet
  refine (addMember_effect inputs hw).mono fun r s' h => ?_
  obtain ⟨hr, hc⟩ | ⟨a, hj, hadv⟩ := h
  · rw [hr, hc]
    exact hquiet
  · exact .joined nowMs (.approved rfl hman hrequest) hj hadv

theorem kickMember_effect {request : NetworkMemberRequest} (hw : s.tables.Wf) :
    Post (kickMember inputs actor request nowMs) s (fun r s' =>
      Effect crypto s.core (.kickMember actor request nowMs) (succeeded NetworkOperationOutcome.code r) s'.core) := by
  have hquiet : Effect crypto s.core (.kickMember actor request nowMs) false s.core := .quiet (by simp)
  unfold kickMember
  refine managing_effect (P := fun ok c' => Effect crypto s.core (.kickMember actor request nowMs) ok c') hquiet
    fun s₁ network hs₁ hman howner => ?_
  rw [← hs₁] at hquiet hman howner ⊢
  rw [← tables_of_core hs₁] at hw
  rw [post_gets_bind]
  split
  · exact hquiet
  rename_i hcond
  refine post_read (fun members _ => ?_) fun _ _ => hquiet
  split
  · exact hquiet
  refine (removeMember_effect inputs hw).mono fun r s' h => LeaveEffect.effect crypto (.kick rfl hman ?_) h
  intro hne hadmin
  refine hcond (.inr ⟨fun heq => hne ?_, hadmin⟩)
  rw [howner, ← heq]
  rfl

end members

/-! ## Calls that leave the core alone -/

/-- The call does not change the core, whatever it returns or throws. -/
def Keeps {α : Type} (x : Call α) : Prop := ∀ s, Post x s (fun _ s' => s'.core = s.core)

section keeps
variable {α β : Type}

theorem keeps_pure (a : α) : Keeps (pure a) := fun _ => rfl

theorem keeps_query (f : Service → Except Exn α) : Keeps (query f) := fun _ => rfl

theorem keeps_gets (f : Service → α) : Keeps (gets f) := fun _ => rfl

theorem keeps_lift (x : Except Exn α) : Keeps (lift x) := fun _ => rfl

theorem keeps_throw (e : Exn) : Keeps (throw e : Call α) := fun _ => rfl

theorem keeps_update {f : Service → α × Service} (h : ∀ s, (f s).2.core = s.core) : Keeps (update f) := h

theorem keeps_recordDevice (d : DeviceId) (t : ℤ) : Keeps (write fun db => db.recordDevice d t) := by
  intro s
  have h := post_recordDevice (s := s) (d := d) (t := t) (k := fun _ => pure ())
    (Q := fun _ s' => s'.core = s.core) (fun s₁ hs₁ => hs₁) fun _ => rfl
  rw [post_bind] at h
  exact h.mono fun r s' hr => by cases r <;> exact hr

theorem Keeps.bind {x : Call α} {f : α → Call β} (hx : Keeps x) (hf : ∀ a, Keeps (f a)) : Keeps (x >>= f) := by
  intro s
  rw [post_bind]
  refine (hx s).mono fun r s₁ h₁ => ?_
  cases r with
  | error e => exact h₁
  | ok a => exact (hf a s₁).mono fun _ _ h₂ => h₂.trans h₁

theorem Keeps.tryCatch {x : Call α} {h : Exn → Call α} (hx : Keeps x) (hh : ∀ e, Keeps (h e)) :
    Keeps (Action.tryCatch x h) := by
  intro s
  rw [post_tryCatch]
  refine (hx s).mono fun r s₁ h₁ => ?_
  cases r with
  | ok a => exact h₁
  | error e => exact (hh e s₁).mono fun _ _ h₂ => h₂.trans h₁

theorem Keeps.ite {c : Prop} [Decidable c] {x y : Call α} (hx : Keeps x) (hy : Keeps y) :
    Keeps (if c then x else y) := by
  split
  · exact hx
  · exact hy

end keeps

theorem listNetworks_keeps (actor : DeviceId) (nowMs : ℤ) : Keeps (listNetworks actor nowMs) :=
  (keeps_lift _).bind fun _ => .tryCatch
    ((keeps_recordDevice _ _).bind fun _ => (keeps_query _).bind fun _ =>
      .ite (keeps_pure _) ((keeps_query _).bind fun _ => keeps_pure _))
    fun _ => keeps_pure _

theorem peerState_keeps (actor : DeviceId) (request : NetworkSelectionRequest) (nowMs : ℤ) :
    Keeps (peerState actor request nowMs) :=
  (keeps_lift _).bind fun _ => (keeps_lift _).bind fun _ => .tryCatch
    ((keeps_recordDevice _ _).bind fun _ => (keeps_query _).bind fun _ =>
      .ite (keeps_pure _) ((keeps_query _).bind fun _ =>
        .ite (keeps_pure _) ((keeps_query _).bind fun _ => keeps_pure _)))
    fun _ => keeps_pure _

theorem publishNetworkKeys_keeps (actor : DeviceId) (envelopes : List NetworkKeyEnvelope) :
    Keeps (publishNetworkKeys crypto actor envelopes) := by
  unfold publishNetworkKeys
  split
  · exact keeps_pure _
  · refine .ite (keeps_pure _) ((keeps_query _).bind fun network => ?_)
    cases network with
    | none => exact keeps_pure _
    | some network => exact keeps_query _

theorem core_routeUnicast (s : Service) (actor : DeviceId) (p : EncryptedNetworkPacket) (leases : List LeaseRecord) :
    (routeUnicast inputs s actor p leases).2.core = s.core := by
  unfold routeUnicast
  split
  · rfl
  · split
    · rfl
    · split <;> rfl

theorem core_chargeFanout (s : Service) (actor : DeviceId) (p : EncryptedNetworkPacket) (count : ℕ) :
    (chargeFanout inputs s actor p count).2.core = s.core := by
  unfold chargeFanout
  dsimp only
  split
  · rfl
  · split <;> rfl

theorem core_routeFanout (s : Service) (actor : DeviceId) (key : ActiveKey) (p : EncryptedNetworkPacket)
    (leases : List LeaseRecord) : (routeFanout inputs s actor key p leases).2.core = s.core := by
  unfold routeFanout
  split
  · rfl
  dsimp only
  split
  · rfl
  split
  · rfl
  split
  · rename_i h
    exact (congrArg (fun r => r.2.core) h).symm.trans (core_chargeFanout inputs _ _ _ _)
  · rename_i h
    exact (congrArg (fun r => r.2.core) h).symm.trans (core_chargeFanout inputs _ _ _ _)

theorem routeEncryptedPacket_keeps (actor : DeviceId) (p : EncryptedNetworkPacket) :
    Keeps (routeEncryptedPacket inputs actor p) := by
  refine (keeps_gets _).bind fun allowed => .ite (keeps_pure _) ?_
  refine (keeps_lift _).bind fun _ => (keeps_gets _).bind fun sender => ?_
  split
  · exact keeps_pure _
  · refine (keeps_query _).bind fun leases => .ite (keeps_update fun s => ?_) (keeps_update fun s => ?_)
    · exact core_routeFanout inputs s _ _ _ _
    · exact core_routeUnicast inputs s _ _ _

/-! ## All calls -/

/-- A reply that was wrapped reports what the call reported. -/
theorem post_reply {α : Type} {f : α → Reply} (code : α → NetworkResultCode) {x : Call α} {P : Bool → Core → Prop}
    (hcode : ∀ a, (f a).code = code a) (h : Post x s (fun r s' => P (succeeded code r) s'.core)) :
    Post (reply f x) s (fun r s' => P (succeeded Reply.code r) s'.core) := by
  rw [reply, post_bind]
  refine h.mono fun r s' hr => ?_
  cases r with
  | error e => exact hr
  | ok a =>
    rw [show succeeded code (.ok a) = succeeded Reply.code (.ok (f a)) by rw [succeeded, succeeded, hcode]] at hr
    exact hr

theorem reply_keeps {α : Type} {f : α → Reply} {x : Call α} (h : Keeps x) : Keeps (reply f x) :=
  h.bind fun _ => keeps_pure _

/-- Every call does what the machine does. -/
theorem perform_effect (op : Op) (hw : s.tables.Wf) : Post (perform crypto inputs op) s
    (fun r s' => Effect crypto s.core op (succeeded Reply.code r) s'.core) := by
  have hkeeps {op : Op} {x : Call Reply} (hop : ¬ op.Commits) (hx : Keeps x) :
      Post x s (fun r s' => Effect crypto s.core op (succeeded Reply.code r) s'.core) :=
    (hx s).mono fun r s' h => h ▸ .quiet fun _ => hop
  have hany {α : Type} {f : α → Reply} {x : Call α} {op : Op}
      (hx : Post x s (fun _ s' => ∀ ok, Effect crypto s.core op ok s'.core)) :
      Post (reply f x) s (fun r s' => Effect crypto s.core op (succeeded Reply.code r) s'.core) := by
    rw [reply, post_bind]
    refine hx.mono fun r s' h => ?_
    cases r <;> exact h _
  cases op with
  | setForwardingLimits limits =>
    refine hkeeps id (reply_keeps fun s => ?_)
    unfold Post setForwardingLimits
    cases s.quota.configure limits <;> rfl
  | admitControl actor => exact hkeeps id (reply_keeps (keeps_update fun _ => rfl))
  | manageNetwork actor request nowMs =>
    refine post_reply ManagementOutcome.code (P := fun ok c' => Effect crypto s.core _ ok c') (fun _ => rfl) ?_
    refine (manageNetwork_effect inputs hw).mono fun r s' h => ?_
    generalize succeeded ManagementOutcome.code r = ok at h ⊢
    generalize s'.core = c' at h ⊢
    cases h with
    | none h => exact .quiet fun hok hcommits => hcommits (h hok)
    | edited accepts advanced =>
      exact .edited rfl accepts.owned accepts.lease accepts.valid (editPolicy_ok accepts.action accepts.edited)
        accepts.encodable accepts.bounded advanced
  | setManagementCapable actor capable => exact hany (setManagementCapable_effect crypto)
  | accessRequest actor request nowMs =>
    exact post_reply _ (P := fun ok c' => Effect crypto s.core _ ok c') (fun _ => rfl) (accessRequest_effect crypto inputs hw)
  | recordAuthenticatedDevice actor nowMs =>
    exact hkeeps id (reply_keeps ((keeps_lift _).bind fun _ => (keeps_gets _).bind fun _ =>
      .ite (keeps_throw _) (keeps_recordDevice _ _)))
  | publishDeviceKey actor session key nowMs => exact hany (publishDeviceKey_effect crypto)
  | removeDeviceKey actor session => exact hany (removeDeviceKey_effect crypto)
  | createNetwork actor request nowMs =>
    exact post_reply _ (P := fun ok c' => Effect crypto s.core _ ok c') (fun _ => rfl) (createNetwork_effect crypto inputs hw)
  | listNetworks actor nowMs => exact hkeeps id (reply_keeps (listNetworks_keeps actor nowMs))
  | joinNetwork actor request nowMs =>
    exact post_reply _ (P := fun ok c' => Effect crypto s.core _ ok c') (fun _ => rfl) (joinNetwork_effect crypto inputs hw)
  | leaveNetwork actor request nowMs =>
    refine post_reply NetworkOperationOutcome.code (P := fun ok c' => Effect crypto s.core _ ok c')
      (fun _ => rfl) ?_
    exact (leaveNetwork_effect inputs hw).mono fun _ _ h => LeaveEffect.effect crypto (.leave rfl rfl) h
  | inviteMember actor request nowMs =>
    exact post_reply _ (P := fun ok c' => Effect crypto s.core _ ok c') (fun _ => rfl) (inviteMember_effect crypto inputs)
  | approveMember actor request nowMs =>
    exact post_reply _ (P := fun ok c' => Effect crypto s.core _ ok c') (fun _ => rfl) (approveMember_effect crypto inputs hw)
  | kickMember actor request nowMs =>
    exact post_reply _ (P := fun ok c' => Effect crypto s.core _ ok c') (fun _ => rfl) (kickMember_effect crypto inputs hw)
  | peerState actor request nowMs => exact hkeeps id (reply_keeps (peerState_keeps actor request nowMs))
  | publishNetworkKeys actor envelopes => exact hkeeps id (reply_keeps (publishNetworkKeys_keeps crypto actor envelopes))
  | peerStatesForDevice actor =>
    exact hkeeps id (reply_keeps ((keeps_lift _).bind fun _ => (keeps_query _).bind fun _ => keeps_query _))
  | routeEncryptedPacket actor packet => exact hkeeps id (reply_keeps (routeEncryptedPacket_keeps inputs actor packet))
  | authorizePeerExchange actor exchange => exact hkeeps id (reply_keeps (keeps_query _))

end Service

end LanLink
