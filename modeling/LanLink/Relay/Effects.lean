import LanLink.Relay.Core
/-!
# What calls do to the core

Each function of the service gets one lemma: what it can do to the core, with
the checks that led there, and which of these outcomes it reports as a success.
These are the functions that several operations share.
-/
open LanLink.Lib LanLink.Lib.Action

namespace LanLink

open Db (Joinable MemberRow Unleased Unassigned)

def NetworkOperationOutcome.code (o : NetworkOperationOutcome) : NetworkResultCode := o.result.code
def AccessOutcome.code (o : AccessOutcome) : NetworkResultCode := o.result.code
def ManagementOutcome.code (o : ManagementOutcome) : NetworkResultCode := o.result.code

/-! ## Advancing the counters -/

/-- The key epoch and the revision of `n` are advanced and peer states sent, or
the first exhausted counter ends the call. -/
inductive Advanced (n : NetworkId) : Bool → Core → Core → Prop
  | epochFull {c : Core} (h : c.EpochFull n) : Advanced n false c c
  | revisionFull {c : Core} (epoch : ¬ c.EpochFull n) (h : c.RevisionFull n) : Advanced n false c (c.bumpEpoch n)
  | done {c : Core} (epoch : ¬ c.EpochFull n) (revision : ¬ c.RevisionFull n) :
      Advanced n true c ((c.bumpEpoch n).bumpRevision n)

/-! ## Joining and leaving -/

/-- The tables replaced, the live part kept. -/
def Core.withTables (c : Core) (t : Tables) : Core := { c with tables := t }

@[simp] theorem Core.withTables_tables (c : Core) (t : Tables) : (c.withTables t).tables = t := rfl

/-- `join_network_locked` for `d`: nothing, a request, or a membership by an
invitation or a verified password that needs no approval. -/
inductive JoinEffect (n : NetworkId) (d : DeviceId) (credentialVerified : Bool) (c : Core) : Bool → Core → Prop
  | none : JoinEffect n d credentialVerified c false c
  | requested (atMs : ℤ) (network : n ∈ c.tables.networks) (member : (n, d) ∉ c.tables.memberships)
      (invitation : (n, d) ∉ c.tables.invitations) :
      JoinEffect n d credentialVerified c false (c.withTables (c.tables.request n d atMs))
  | joined {ok : Bool} {c' : Core} {a : LeaseAddress} (atMs : ℤ) (joinable : Joinable c.tables n d a)
      (admitted : (n, d) ∈ c.tables.invitations ∨
        (credentialVerified ∧ ∃ v, c.tables.access.lookup n = some v ∧ v.requireApproval = false))
      (advanced : Advanced n ok (c.withTables (c.tables.join n d { role := .member, joinedAtMs := atMs } a)) c') :
      JoinEffect n d credentialVerified c ok c'

/-- `create_network_locked`: nothing, or a new network owned by the actor. -/
inductive CreateEffect (actor : DeviceId) (c : Core) : Bool → Core → Prop
  | none : CreateEffect actor c false c
  | created {ok : Bool} {c' : Core} {n : NetworkId} {network : Network} {base : SubnetAddress} {a : LeaseAddress}
      (password : Option PasswordVerifier) (owner : network.ownerDeviceId = actor) (nonzero : n ≠ 0)
      (fresh : n ∉ c.tables.networks) (unassigned : Unassigned c.tables base)
      (inside : base.val = a.val - a.val % 256) (unleased : Unleased c.tables a)
      (advanced : Advanced n ok (c.withTables (c.tables.create n network base a password)) c') :
      CreateEffect actor c ok c'

/-- A removal of `d` from `n`: nothing, or the member is gone. -/
inductive LeaveEffect (n : NetworkId) (d : DeviceId) (c : Core) : Bool → Core → Prop
  | none : LeaveEffect n d c false c
  | left {ok : Bool} {c' : Core} (member : MemberRow c.tables n d)
      (advanced : Advanced n ok (c.withTables (c.tables.leave n d)) c') : LeaveEffect n d c ok c'

namespace Service
variable {s : Service} {n : NetworkId} {d : DeviceId}

section
variable {β : Type} {Q : Except Exn β → Service → Prop}

theorem core_store {db : Db} (h : db.toTables = s.store.toTables) : ({ s with store := db } : Service).core = s.core := by
  simp only [core, tables, h]

theorem findMember_isSome {db : Db} {members : List MembershipRecord} (h : db.listMembers n = .ok members) :
    (findMember members d).isSome ↔ (n, d) ∈ db.memberships := by
  simp only [Db.listMembers, bind_eq_ok, Db.requireNetworkId_ok, Except.ok.injEq, exists_const] at h
  obtain ⟨-, rfl⟩ := h
  simp only [findMember, List.find?_isSome, List.mem_insertionSort, List.mem_map, List.mem_filter, Map.mem_rows,
    decide_eq_true_eq, Map.mem_iff_lookup]
  constructor
  · rintro ⟨_, ⟨⟨⟨m, e⟩, row⟩, ⟨hrow, rfl⟩, rfl⟩, rfl⟩
    exact ⟨row, hrow⟩
  · rintro ⟨row, hrow⟩
    exact ⟨_, ⟨((n, d), row), ⟨hrow, rfl⟩, rfl⟩, rfl⟩

theorem post_listMembers {k : List MembershipRecord → Call β} (hn : n ≠ 0) (h : ∀ members, Post (k members) s Q) :
    Post (read (fun db => db.listMembers n) >>= k) s Q := by
  refine post_read (fun members _ => h members) fun e he => ?_
  rw [Db.listMembers, requireNetworkId, check_of hn, ok_bind] at he
  cases he

/-- In a well-formed store peer states can always be sent. -/
theorem post_changesForMembers {k : List RoutedPeerStateChange → Call β} {revision : UInt64} (hw : s.tables.Wf)
    (hn : n ∈ s.tables.networks) (h : ∀ changes, Post (k changes) s Q) :
    Post (query (fun s => s.changesForMembers n revision) >>= k) s Q := by
  obtain ⟨changes, hc⟩ := exists_changesForMembers hw hn revision
  rw [post_bind, post_query, hc]
  exact h changes

theorem post_advancedChanges {k : List RoutedPeerStateChange → Call β} (hw : s.tables.Wf) (hn : n ∈ s.tables.networks)
    (hfull : s.core.RevisionFull n → Q (.error (.overflowError "network peer state revision exhausted")) s)
    (hok : ¬ s.core.RevisionFull n → ∀ changes,
      Post (k changes) { s with revisions := s.revisions.insert n (s.revisions.getD n 0 + 1) } Q) :
    Post (advancedChanges n >>= k) s Q := by
  obtain ⟨changes, hc⟩ := exists_changesForMembers (s := { s with
    revisions := s.revisions.insert n (s.revisions.getD n 0 + 1) }) hw hn (s.revisions.getD n 0 + 1)
  unfold advancedChanges
  rw [post_bind]
  refine post_advanceRevision hfull fun h => ?_
  rw [post_query, hc]
  exact hok h changes

theorem post_audited {actor : DeviceId} {nowMs : ℤ} {now : Time} {out : NetworkOperationOutcome}
    {P : Bool → Core → Prop} (h : P (out.code = .success) s.core) :
    Post (audited actor nowMs now out) s (fun r s' => P (succeeded NetworkOperationOutcome.code r) s'.core) := by
  simp only [audited, post_bind, post_modify, post_pure, core_auditNetworkOutcome]
  exact h

/-- A caught exception is not a success. -/
theorem post_catching {operation : NetworkOperation} {full : Bool} {body : Call NetworkOperationOutcome}
    {P : Bool → Core → Prop}
    (h : Post body s (fun r s' => P (succeeded NetworkOperationOutcome.code r) s'.core)) :
    Post (catching operation n full body) s (fun r s' => P (succeeded NetworkOperationOutcome.code r) s'.core) := by
  rw [catching, post_tryCatch]
  refine h.mono fun r s' hp => ?_
  cases r with
  | ok out => exact hp
  | error e => cases e <;> cases full <;> exact hp

end

variable (inputs : Inputs)

theorem memberJoined_effect {operation : NetworkOperation} {actor : DeviceId} {nowMs : ℤ} (hw : s.tables.Wf)
    (hn : n ∈ s.tables.networks) :
    Post (memberJoined inputs operation actor n d nowMs) s
      (fun r s' => Advanced n (succeeded NetworkOperationOutcome.code r) s.core s'.core) := by
  have hn0 : n ≠ 0 := fun h0 => hw.owned.nonzero (h0 ▸ hn)
  unfold memberJoined
  refine post_advanceKeyEpoch (fun hf => .epochFull hf) fun he => ?_
  refine post_listMembers hn0 fun members => ?_
  refine post_advancedChanges hw hn (fun hf => .revisionFull he hf) fun hr changes => ?_
  exact post_audited (P := fun ok c' => Advanced n ok s.core c') (.done he hr)

theorem memberRemoved_effect {operation : NetworkOperation} {actor : DeviceId} {nowMs : ℤ}
    {first : List RoutedNetworkEvent} {excluded : Option DeviceId} {kind : NetworkEventKind} (hw : s.tables.Wf)
    (hn : n ∈ s.tables.networks) :
    Post (memberRemoved inputs operation actor n d nowMs first excluded kind) s
      (fun r s' => Advanced n (succeeded NetworkOperationOutcome.code r) s.core s'.core) := by
  have hn0 : n ≠ 0 := fun h0 => hw.owned.nonzero (h0 ▸ hn)
  unfold memberRemoved
  refine post_advanceKeyEpoch (fun hf => .epochFull hf) fun he => ?_
  refine post_listMembers hn0 fun members => ?_
  refine post_advanceRevision (fun hf => .revisionFull he hf) fun hr => ?_
  refine post_changesForMembers hw hn fun changes => ?_
  exact post_audited (P := fun ok c' => Advanced n ok s.core c') (.done he hr)

/-- Recording the device first leaves the core as it is. -/
theorem post_recordDevice {β : Type} {Q : Except Exn β → Service → Prop} {k : Unit → Call β} {d : DeviceId} {t : ℤ}
    (hok : ∀ s₁ : Service, s₁.core = s.core → Post (k ()) s₁ Q) (herr : ∀ e, Q (.error e) s) :
    Post (write (fun db => db.recordDevice d t) >>= k) s Q :=
  post_write (fun _ _ h => hok _ (core_store (Db.recordDevice_ok h).2.2.1)) fun e _ => herr e

theorem tables_of_core {s₁ : Service} (h : s₁.core = s.core) : s₁.tables = s.tables := congrArg Core.tables h

/-- Adding a member and announcing it, as `join_network` and `approve_member`
do. -/
theorem addMember_effect {operation : NetworkOperation} {actor : DeviceId} {nowMs : ℤ} (hw : s.tables.Wf) :
    Post (do
      let added ← write fun db => db.addMember n d nowMs
      if ¬ added then pure (operationOutcome operation .conflict n)
      else memberJoined inputs operation actor n d nowMs) s
      (fun r s' => (succeeded NetworkOperationOutcome.code r = false ∧ s'.core = s.core) ∨
        ∃ a, Joinable s.tables n d a ∧ Advanced n (succeeded NetworkOperationOutcome.code r)
          (s.core.withTables (s.tables.join n d { role := .member, joinedAtMs := nowMs } a)) s'.core) := by
  refine post_write (fun added db h => ?_) fun _ _ => .inl ⟨rfl, rfl⟩
  obtain ⟨rfl, rfl⟩ | ⟨rfl, a, hj, rfl⟩ := Db.addMember_ok h
  · exact .inl ⟨rfl, rfl⟩
  · have hw' := hw.change (.join nowMs hj)
    rw [if_neg (by simp)]
    refine Post.mono (memberJoined_effect inputs ?_ ?_) fun r s' hadv => .inr ⟨a, hj, hadv⟩
    · exact hw'
    · exact hj.network

/-- Removing a member and announcing it, as `leave_network` and `kick_member`
do. -/
theorem removeMember_effect {operation : NetworkOperation} {actor : DeviceId} {nowMs : ℤ}
    {first : List RoutedNetworkEvent} {excluded : Option DeviceId} {kind : NetworkEventKind} (hw : s.tables.Wf) :
    Post (do
      let removed ← write fun db => db.removeMember n d
      if ¬ removed then pure (operationOutcome operation .conflict n)
      else memberRemoved inputs operation actor n d nowMs first excluded kind) s
      (fun r s' => LeaveEffect n d s.core (succeeded NetworkOperationOutcome.code r) s'.core) := by
  refine post_write (fun removed db h => ?_) fun _ _ => .none
  obtain ⟨rfl, -, rfl⟩ | ⟨rfl, hm, rfl⟩ := Db.removeMember_ok h
  · exact .none
  · have hw' := hw.change (.leave hm)
    have hn : n ∈ s.tables.networks := by
      obtain ⟨row, hrow, -⟩ := hm
      exact hw.owned.member_network n d (Map.mem_of_lookup hrow)
    rw [if_neg (by simp)]
    refine Post.mono (memberRemoved_effect inputs ?_ ?_) fun r s' hadv => .left hm hadv
    · exact hw'
    · exact hn

theorem requestToJoin_effect {actor owner : DeviceId} {nowMs : ℤ} {credentialVerified : Bool} :
    Post (requestToJoin inputs actor n owner nowMs) s
      (fun r s' => JoinEffect n actor credentialVerified s.core (succeeded NetworkOperationOutcome.code r) s'.core) := by
  unfold requestToJoin
  refine post_read (fun pending _ => ?_) fun _ _ => .none
  split
  · exact .none
  · refine post_write (fun added db h => ?_) fun _ _ => .none
    obtain ⟨rfl, rfl⟩ | ⟨rfl, hm, hi, hn, rfl⟩ := Db.addJoinRequest_ok h
    · exact .none
    · rw [if_neg (by simp)]
      exact post_audited (P := fun ok c' => JoinEffect n actor credentialVerified s.core ok c')
        (.requested nowMs hn hm hi)

theorem joinNetworkLocked_effect {actor : DeviceId} {nowMs : ℤ} {credentialVerified : Bool} (hw : s.tables.Wf) :
    Post (joinNetworkLocked inputs actor n nowMs credentialVerified) s
      (fun r s' => JoinEffect n actor credentialVerified s.core (succeeded NetworkOperationOutcome.code r) s'.core) := by
  refine post_catching (P := fun ok c' => JoinEffect n actor credentialVerified s.core ok c') ?_
  refine post_recordDevice (fun s₁ hs₁ => ?_) fun _ => .none
  rw [← tables_of_core hs₁] at hw
  rw [← hs₁]
  refine post_read (fun network hnet => ?_) fun _ _ => .none
  cases network with
  | none => exact .none
  | some network =>
    refine post_read (fun members _ => ?_) fun _ _ => .none
    split
    · exact .none
    refine post_read (fun full _ => ?_) fun _ _ => .none
    split
    · exact .none
    rw [post_bind, post_gets]
    refine post_read (fun invitation hinv => ?_) fun _ _ => .none
    split
    · exact .none
    split
    · rename_i hdirect
      have hadmitted : (n, actor) ∈ s₁.tables.invitations ∨
          (credentialVerified ∧ ∃ v, s₁.tables.access.lookup n = some v ∧ v.requireApproval = false) := by
        refine hdirect.imp (Db.findInvitation_isSome hinv).1 fun ⟨hc, hp⟩ => ⟨hc, ?_⟩
        obtain ⟨v, hv, ha⟩ := (Option.any_eq_true _ _).1 hp
        exact ⟨v, hv, by simpa using ha⟩
      refine (addMember_effect inputs hw).mono fun r s' h => ?_
      obtain ⟨hr, hc⟩ | ⟨a, hj, hadv⟩ := h
      · rw [hr, hc]
        exact .none
      · exact .joined nowMs hj hadmitted hadv
    · exact requestToJoin_effect inputs

theorem leaveNetwork_effect {actor : DeviceId} {request : NetworkSelectionRequest} {nowMs : ℤ} (hw : s.tables.Wf) :
    Post (leaveNetwork inputs actor request nowMs) s (fun r s' =>
      LeaveEffect request.networkId actor s.core (succeeded NetworkOperationOutcome.code r) s'.core) := by
  unfold leaveNetwork
  rw [post_bind, post_lift]
  split
  swap
  · exact .none
  rw [post_bind, post_lift]
  split
  swap
  · exact .none
  refine post_catching (P := fun ok c' => LeaveEffect request.networkId actor s.core ok c') ?_
  refine post_recordDevice (fun s₁ hs₁ => ?_) fun _ => .none
  rw [← tables_of_core hs₁] at hw
  rw [← hs₁]
  refine post_read (fun network hnet => ?_) fun _ _ => .none
  cases network with
  | none => exact .none
  | some network =>
    dsimp only
    split
    · exact .none
    refine post_read (fun members _ => ?_) fun _ _ => .none
    split
    · exact .none
    exact removeMember_effect inputs hw

/-- What `invite_member`, `approve_member` and `kick_member` share: the body
runs only for a manager of an existing network. -/
theorem managing_effect {operation : NetworkOperation} {full : Bool} {actor : DeviceId} {request : NetworkMemberRequest}
    {nowMs : ℤ} {body : NetworkRecord → Call NetworkOperationOutcome} {P : Bool → Core → Prop} (hnone : P false s.core)
    (hbody : ∀ s₁ network, s₁.core = s.core → s.core.CanManage request.networkId actor →
      s.core.tables.owner request.networkId = some network.ownerDeviceId →
      Post (body network) s₁ (fun r s' => P (succeeded NetworkOperationOutcome.code r) s'.core)) :
    Post (managing operation full actor request nowMs body) s
      (fun r s' => P (succeeded NetworkOperationOutcome.code r) s'.core) := by
  unfold managing
  rw [post_bind, post_lift]
  split
  swap
  · exact hnone
  rw [post_bind, post_lift]
  split
  swap
  · exact hnone
  dsimp only
  split
  · exact hnone
  refine post_catching (P := P) ?_
  refine post_recordDevice (fun s₁ hs₁ => ?_) fun _ => hnone
  rw [← hs₁] at hnone
  refine post_read (fun network hnet => ?_) fun _ _ => hnone
  cases network with
  | none => exact hnone
  | some network =>
    rw [post_bind, post_gets]
    dsimp only
    split
    · exact hnone
    rename_i hman
    rw [not_not, canManageNetwork_iff] at hman
    refine post_read (fun device _ => ?_) fun _ _ => hnone
    split
    · exact hnone
    refine hbody s₁ network hs₁ (hs₁ ▸ hman) ?_
    rw [← hs₁]
    exact (Db.findNetwork_some hnet).1

theorem createAttempts_effect {actor : DeviceId} {name : Text} {nowMs : ℤ} {password : Option PasswordVerifier}
    (hw : s.tables.Wf) (left attempt : ℕ) :
    Post (createAttempts inputs actor name nowMs password left attempt) s
      (fun r s' => CreateEffect actor s.core (succeeded NetworkOperationOutcome.code r) s'.core) := by
  induction left generalizing attempt with
  | zero => exact .none
  | succ left ih =>
    unfold createAttempts
    rw [post_bind, post_lift]
    split
    swap
    · exact .none
    rename_i n _
    split
    · exact ih _
    refine post_read (fun existing hex => ?_) fun _ _ => .none
    split
    · exact ih _
    rename_i hnone
    rw [post_bind, post_tryCatch]
    refine post_write (fun _ db h => ?_) fun e _ => ?_
    swap
    · -- the store threw: the network still does not exist, so the exception goes on
      refine post_read (fun existing' hex' => ?_) fun _ _ => .none
      rw [hex] at hex'
      cases hex'
      rw [if_neg hnone, post_throw]
      exact .none
    obtain ⟨base, a, hn0, fresh, -, unassigned, inside, unleased, -, -, -, rfl⟩ := Db.createNetwork_ok h
    have hw' : (s.tables.create n { name, ownerDeviceId := actor, createdAtMs := nowMs } base a password).Wf :=
      hw.change (.create password hn0 fresh unassigned inside unleased)
    have hn' : n ∈ (s.tables.create n { name, ownerDeviceId := actor, createdAtMs := nowMs } base a password).networks := by
      simp
    rw [post_pure]
    dsimp only
    rw [if_pos rfl]
    refine post_advanceKeyEpoch (fun hf => ?_) fun he => ?_
    · exact .created password rfl hn0 fresh unassigned inside unleased (.epochFull hf)
    refine post_advancedChanges ?_ ?_ (fun hf => ?_) fun hr changes => ?_
    · exact hw'
    · exact hn'
    · exact .created password rfl hn0 fresh unassigned inside unleased (.revisionFull he hf)
    · exact post_audited (P := fun ok c' => CreateEffect actor s.core ok c')
        (.created password rfl hn0 fresh unassigned inside unleased (.done he hr))

theorem createNetworkLocked_effect {actor : DeviceId} {name : Text} {nowMs : ℤ} {password : Option PasswordVerifier}
    (hw : s.tables.Wf) :
    Post (createNetworkLocked inputs actor name nowMs password) s
      (fun r s' => CreateEffect actor s.core (succeeded NetworkOperationOutcome.code r) s'.core) := by
  refine post_catching (P := fun ok c' => CreateEffect actor s.core ok c') ?_
  refine post_recordDevice (fun s₁ hs₁ => ?_) fun _ => .none
  rw [← tables_of_core hs₁] at hw
  rw [← hs₁]
  refine post_read (fun full _ => ?_) fun _ _ => .none
  split
  · exact .none
  · exact createAttempts_effect inputs hw 32 0

end Service

end LanLink
