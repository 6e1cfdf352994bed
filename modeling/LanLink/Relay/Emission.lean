import LanLink.Relay.PeerViews
/-!
# Peer states that calls send

Whatever call sends a peer state, pushed to members or returned to the device
that asked: it is the one that the device would get from the state the call
leaves behind. A call advances the revision before it collects the states, and
what it does afterwards, to other networks or to the audit trail, makes no
difference to them.
-/
open LanLink.Lib LanLink.Lib.Action

namespace LanLink

/-- The peer states among the changes, each with the device it is for. -/
def pushed (changes : List RoutedPeerStateChange) : List (DeviceId × NetworkPeerState) :=
  changes.filterMap fun change => change.state.map fun state => (change.recipientDeviceId, state)

def NetworkOperationOutcome.states (o : NetworkOperationOutcome) : List (DeviceId × NetworkPeerState) :=
  pushed o.peerChanges

def AccessOutcome.states (o : AccessOutcome) : List (DeviceId × NetworkPeerState) := pushed o.changes

def ManagementOutcome.states (o : ManagementOutcome) : List (DeviceId × NetworkPeerState) := pushed o.changes

/-- The peer states that the reply to a call carries, each with the device it is for. -/
def Reply.emitted (op : Op) : Reply → List (DeviceId × NetworkPeerState)
  | .operation outcome => outcome.states
  | .access outcome => outcome.states
  | .management outcome => outcome.states
  | .changes updates => pushed updates
  | .peerState outcome => (outcome.state.map fun state => (op.actor, state)).toList
  | .done | .flag _ | .list _ | .keys _ | .packets _ => []

@[simp] theorem pushed_append (xs ys : List RoutedPeerStateChange) : pushed (xs ++ ys) = pushed xs ++ pushed ys :=
  List.filterMap_append

@[simp] theorem pushed_revocation (d : DeviceId) (r : NetworkPeerRevocation) : pushed [⟨d, none, r⟩] = [] := rfl

theorem mem_pushed {changes : List RoutedPeerStateChange} {p : DeviceId × NetworkPeerState} :
    p ∈ pushed changes ↔ ∃ change ∈ changes, change.state = some p.2 ∧ change.recipientDeviceId = p.1 := by
  simp only [pushed, List.mem_filterMap, Option.map_eq_some_iff, Prod.ext_iff]
  constructor
  · rintro ⟨change, hmem, state, hstate, hd, rfl⟩
    exact ⟨change, hmem, hstate, hd⟩
  · rintro ⟨change, hmem, hstate, hd⟩
    exact ⟨change, hmem, p.2, hstate, hd, rfl⟩

namespace Service
variable {s s' : Service} {n : NetworkId} {d : DeviceId}

/-- Each of the states is the current one. -/
def Announces (s : Service) (states : List (DeviceId × NetworkPeerState)) : Prop := ∀ p ∈ states, s.Current p.1 p.2

theorem announces_nil (s : Service) : s.Announces [] := fun _ h => absurd h List.not_mem_nil

theorem Announces.append {xs ys : List (DeviceId × NetworkPeerState)} (hx : s.Announces xs) (hy : s.Announces ys) :
    s.Announces (xs ++ ys) := by
  intro p hp
  rcases List.mem_append.1 hp with h | h
  · exact hx p h
  · exact hy p h

/-- The audit trail, the device log and the limiters play no part. -/
theorem makePeerState_core (h : s'.core = s.core) (revision : UInt64) :
    s'.makePeerState n d revision = s.makePeerState n d revision := by
  -- the function reads the core only
  have hread (s : Service) : s.makePeerState n d revision =
      makePeerState { toLive := s.core.toLive, store := { toTables := s.core.tables } } n d revision := rfl
  rw [hread s', hread s, h]

theorem Announces.of_core {states : List (DeviceId × NetworkPeerState)} (h : s.Announces states)
    (hcore : s'.core = s.core) : s'.Announces states := by
  intro p hp
  have hrevisions : s'.revisions = s.revisions := congrArg (fun c => c.revisions) hcore
  unfold Current revisionFor
  rw [makePeerState_core hcore, hrevisions]
  exact h p hp

/-! ## A logic for what a call sends -/

/-- Where `x` returns, the states of its result are current. -/
def Speaks {α : Type} (states : α → List (DeviceId × NetworkPeerState)) (x : Call α) (s : Service) : Prop :=
  Post x s fun r s' => ∀ a, r = .ok a → s'.Announces (states a)

namespace Speaks
variable {α β : Type} {states : α → List (DeviceId × NetworkPeerState)} {states' : β → List (DeviceId × NetworkPeerState)}

theorem pure {a : α} (h : s.Announces (states a)) : Speaks states (Pure.pure a : Call α) s := by
  rintro _ ⟨⟩
  exact h

theorem silent {a : α} (h : states a = []) : Speaks states (Pure.pure a : Call α) s := by
  refine .pure ?_
  rw [h]
  exact s.announces_nil

theorem throw (e : Exn) : Speaks states (Action.throw e : Call α) s := by
  rintro _ ⟨⟩

theorem bind {x : Call β} {k : β → Call α} (hk : ∀ b s', x s = (.ok b, s') → Speaks states (k b) s') :
    Speaks states (x >>= k) s := by
  unfold Speaks
  rw [post_bind]
  unfold Post
  cases hx : (x s).1 with
  | ok b => exact hk b _ (Prod.ext hx rfl)
  | error e => rintro _ ⟨⟩

/-- Go on with what the first part sent. -/
theorem andThen {x : Call β} {k : β → Call α} (hx : Speaks states' x s)
    (hk : ∀ b s', s'.Announces (states' b) → Speaks states (k b) s') : Speaks states (x >>= k) s := by
  refine .bind fun b s' h => hk b s' ?_
  exact Post.of_run hx h b rfl

theorem lift {x : Except Exn β} {k : β → Call α} (hk : ∀ b, x = .ok b → Speaks states (k b) s) :
    Speaks states (Action.lift x >>= k) s := by
  refine .bind fun b s' h => ?_
  obtain ⟨hb, rfl⟩ := Prod.mk.inj h
  exact hk b hb

theorem gets {f : Service → β} {k : β → Call α} (hk : Speaks states (k (f s)) s) :
    Speaks states (Action.gets f >>= k) s := by
  refine .bind fun b s' h => ?_
  cases h
  exact hk

theorem modify {f : Service → Service} {k : Unit → Call α} (hk : Speaks states (k ()) (f s)) :
    Speaks states (Action.modify f >>= k) s := by
  refine .bind fun b s' h => ?_
  cases h
  exact hk

theorem read {f : Db → Except Exn β} {k : β → Call α} (hk : ∀ b, f s.store = .ok b → Speaks states (k b) s) :
    Speaks states (LanLink.read f >>= k) s := by
  refine .bind fun b s' h => ?_
  obtain ⟨hb, rfl⟩ := Prod.mk.inj h
  exact hk b hb

theorem recordDevice {t : ℤ} {k : Unit → Call α} (hk : ∀ s', s'.core = s.core → Speaks states (k ()) s') :
    Speaks states (LanLink.write (fun db => db.recordDevice d t) >>= k) s := by
  refine post_recordDevice (fun s' hs' => hk s' hs') fun _ => ?_
  rintro _ ⟨⟩

theorem tryCatch {x : Call α} {h : Exn → Call α} (hx : Speaks states x s) (hh : ∀ e s', Speaks states (h e) s') :
    Speaks states (Action.tryCatch x h) s := by
  unfold Speaks
  rw [post_tryCatch]
  refine hx.mono fun r s' hr => ?_
  cases r with
  | ok a => exact hr
  | error e => exact hh e s'

theorem ite {p : Prop} [Decidable p] {x y : Call α} (hx : p → Speaks states x s) (hy : ¬ p → Speaks states y s) :
    Speaks states (if p then x else y) s := by
  by_cases hp : p
  · rw [if_pos hp]
    exact hx hp
  · rw [if_neg hp]
    exact hy hp

/-- What is made of the result sends the same. -/
theorem map {x : Call β} {f : β → α} (hx : Speaks states' x s) (hf : ∀ b, states (f b) = states' b) :
    Speaks states (x >>= fun b => Pure.pure (f b)) s := by
  refine hx.andThen fun b s' h => .pure ?_
  rw [hf b]
  exact h

end Speaks

/-! ## Announcements of one network -/

/-- The states are current and about `n`. -/
structure AnnouncesOf (s : Service) (n : NetworkId) (changes : List RoutedPeerStateChange) : Prop where
  current : s.Announces (pushed changes)
  about : ∀ p ∈ pushed changes, p.2.networkId = n

theorem changesForMembers_ok {changes : List RoutedPeerStateChange} {revision : UInt64}
    (h : s.changesForMembers n revision = .ok changes) (hrevision : s.revisionFor n = revision) :
    s.AnnouncesOf n changes := by
  subst hrevision
  simp only [changesForMembers, bind_eq_ok] at h
  obtain ⟨subnet, -, network, -, h⟩ := h
  split at h
  · cases h
  simp only [bind_eq_ok] at h
  obtain ⟨leases, -, h⟩ := h
  have heach : ∀ p ∈ pushed changes, s.makePeerState n p.1 (s.revisionFor n) = .ok p.2 := by
    rintro ⟨e, state⟩ hp
    obtain ⟨change, hmem, hstate, hd⟩ := mem_pushed.1 hp
    obtain ⟨lease, -, hlease⟩ := mem_of_mapM_eq_ok h hmem
    simp only [bind_eq_ok, Except.ok.injEq] at hlease
    obtain ⟨made, hmake, rfl⟩ := hlease
    cases hstate
    cases hd
    exact hmake
  have habout (p) (hp : p ∈ pushed changes) : p.2.networkId = n := (makePeerState_ok (heach p hp)).1
  refine ⟨fun p hp => ?_, habout⟩
  unfold Current
  rw [habout p hp]
  exact heach p hp

/-- `changes_for_members` with the revision that was just advanced. -/
theorem announcesOf_advancedChanges (s : Service) :
    Post (advancedChanges n) s fun r s' => ∀ changes, r = .ok changes → s'.AnnouncesOf n changes := by
  unfold advancedChanges
  refine post_advanceRevision (fun _ => ?_) fun _ => ?_
  · rintro _ ⟨⟩
  · rw [post_query]
    exact fun changes h => changesForMembers_ok h (Map.getD_insert_self _ _ _ _)

theorem speaks_advancedChanges (s : Service) : Speaks pushed (advancedChanges n) s :=
  (announcesOf_advancedChanges s).mono fun _ _ h changes hr => (h changes hr).current

theorem speaks_audited {actor : DeviceId} {nowMs : ℤ} {now : Time} {out : NetworkOperationOutcome}
    (h : s.Announces out.states) : Speaks NetworkOperationOutcome.states (audited actor nowMs now out) s := by
  refine .bind fun _ s' hrun => .pure (h.of_core ?_)
  cases hrun
  exact core_auditNetworkOutcome _ _ _ _ _

/-! ## Membership operations -/

section
variable {inputs : Inputs} {actor : DeviceId} {nowMs : ℤ} {operation : NetworkOperation}

theorem speaks_catching {full : Bool} {body : Call NetworkOperationOutcome}
    (h : Speaks NetworkOperationOutcome.states body s) :
    Speaks NetworkOperationOutcome.states (catching operation n full body) s := by
  refine h.tryCatch fun e s' => ?_
  cases e <;> cases full <;> exact .silent rfl

theorem speaks_memberJoined (s : Service) :
    Speaks NetworkOperationOutcome.states (memberJoined inputs operation actor n d nowMs) s := by
  refine .bind fun _ s₁ _ => .bind fun members s₂ _ => ?_
  exact (speaks_advancedChanges s₂).andThen fun changes s₃ h => speaks_audited h

theorem speaks_memberRemoved {first : List RoutedNetworkEvent} {excluded : Option DeviceId} {kind : NetworkEventKind}
    (s : Service) :
    Speaks NetworkOperationOutcome.states (memberRemoved inputs operation actor n d nowMs first excluded kind) s := by
  refine .bind fun _ s₁ _ => .bind fun members s₂ _ => ?_
  unfold Speaks
  refine post_advanceRevision (fun _ => ?_) fun _ => ?_
  · rintro _ ⟨⟩
  change Speaks _ _ _
  refine .bind fun changes s₃ hrun => ?_
  obtain ⟨hchanges, rfl⟩ := Prod.mk.inj hrun
  have hcurrent := changesForMembers_ok hchanges (Map.getD_insert_self _ _ _ _)
  refine speaks_audited ?_
  rw [NetworkOperationOutcome.states, pushed_append, pushed_revocation, List.append_nil]
  exact hcurrent.current

theorem speaks_createAttempts {name : Text} {password : Option PasswordVerifier} (left attempt : ℕ) (s : Service) :
    Speaks NetworkOperationOutcome.states (createAttempts inputs actor name nowMs password left attempt) s := by
  induction left generalizing attempt s with
  | zero => exact .silent rfl
  | succ left ih =>
    unfold createAttempts
    refine .bind fun n s₁ _ => .ite (fun _ => ih _ _) fun _ => .bind fun existing s₂ _ => .ite (fun _ => ih _ _) fun _ => ?_
    refine .bind fun created s₃ _ => .ite (fun _ => ?_) fun _ => ih _ _
    refine .bind fun _ s₄ _ => (speaks_advancedChanges s₄).andThen fun changes s₅ h => ?_
    exact speaks_audited h

theorem speaks_createNetworkLocked {name : Text} {password : Option PasswordVerifier} (s : Service) :
    Speaks NetworkOperationOutcome.states (createNetworkLocked inputs actor name nowMs password) s := by
  refine speaks_catching (.bind fun _ s₁ _ => .bind fun full s₂ _ => .ite (fun _ => .silent rfl) fun _ => ?_)
  exact speaks_createAttempts 32 0 s₂

theorem speaks_createNetwork {request : NetworkCreateRequest} (s : Service) :
    Speaks NetworkOperationOutcome.states (createNetwork inputs actor request nowMs) s := by
  refine .bind fun _ s₁ _ => ?_
  split
  · exact .silent rfl
  · exact speaks_createNetworkLocked s₁

theorem speaks_requestToJoin {owner : DeviceId} (s : Service) :
    Speaks NetworkOperationOutcome.states (requestToJoin inputs actor n owner nowMs) s := by
  refine .bind fun pending s₁ _ => .ite (fun _ => .silent rfl) fun _ => .bind fun added s₂ _ => ?_
  exact .ite (fun _ => .silent rfl) fun _ => speaks_audited s₂.announces_nil

theorem speaks_joinNetworkLocked {credentialVerified : Bool} (s : Service) :
    Speaks NetworkOperationOutcome.states (joinNetworkLocked inputs actor n nowMs credentialVerified) s := by
  refine speaks_catching (.bind fun _ s₁ _ => .bind fun network s₂ _ => ?_)
  cases network with
  | none => exact .silent rfl
  | some network =>
    refine .bind fun members s₃ _ => .ite (fun _ => .silent rfl) fun _ => ?_
    refine .bind fun full s₄ _ => .ite (fun _ => .silent rfl) fun _ => ?_
    refine .bind fun password s₅ _ => .bind fun invitation s₆ _ => .ite (fun _ => .silent rfl) fun _ => ?_
    refine .ite (fun _ => ?_) fun _ => speaks_requestToJoin s₆
    exact .bind fun added s₇ _ => .ite (fun _ => .silent rfl) fun _ => speaks_memberJoined s₇

theorem speaks_joinNetwork {request : NetworkSelectionRequest} (s : Service) :
    Speaks NetworkOperationOutcome.states (joinNetwork inputs actor request nowMs) s :=
  .bind fun _ _ _ => .bind fun _ s₂ _ => speaks_joinNetworkLocked s₂

theorem speaks_leaveNetwork {request : NetworkSelectionRequest} (s : Service) :
    Speaks NetworkOperationOutcome.states (leaveNetwork inputs actor request nowMs) s := by
  refine .bind fun _ s₁ _ => .bind fun _ s₂ _ => speaks_catching (.bind fun _ s₃ _ => .bind fun network s₄ _ => ?_)
  cases network with
  | none => exact .silent rfl
  | some network =>
    refine .ite (fun _ => .silent rfl) fun _ => .bind fun members s₅ _ => .ite (fun _ => .silent rfl) fun _ => ?_
    exact .bind fun removed s₆ _ => .ite (fun _ => .silent rfl) fun _ => speaks_memberRemoved s₆

theorem speaks_managing {full : Bool} {request : NetworkMemberRequest} {body : NetworkRecord → Call NetworkOperationOutcome}
    (hbody : ∀ network s, Speaks NetworkOperationOutcome.states (body network) s) (s : Service) :
    Speaks NetworkOperationOutcome.states (managing operation full actor request nowMs body) s := by
  refine .bind fun _ s₁ _ => .bind fun valid s₂ _ => .ite (fun _ => .silent rfl) fun _ => ?_
  refine speaks_catching (.bind fun _ s₃ _ => .bind fun network s₄ _ => ?_)
  cases network with
  | none => exact .silent rfl
  | some network =>
    refine .bind fun manages s₅ _ => .ite (fun _ => .silent rfl) fun _ => .bind fun device s₆ _ => ?_
    exact .ite (fun _ => .silent rfl) fun _ => hbody network s₆

theorem speaks_inviteMember {request : NetworkMemberRequest} (s : Service) :
    Speaks NetworkOperationOutcome.states (inviteMember inputs actor request nowMs) s := by
  refine speaks_managing (fun network s => ?_) s
  refine .bind fun members s₁ _ => .bind fun invitation s₂ _ => .ite (fun _ => .silent rfl) fun _ => ?_
  refine .bind fun pending s₃ _ => .ite (fun _ => .silent rfl) fun _ => ?_
  refine .bind fun full s₄ _ => .ite (fun _ => .silent rfl) fun _ => ?_
  exact .bind fun added s₅ _ => .ite (fun _ => .silent rfl) fun _ => speaks_audited s₅.announces_nil

theorem speaks_approveMember {request : NetworkMemberRequest} (s : Service) :
    Speaks NetworkOperationOutcome.states (approveMember inputs actor request nowMs) s := by
  refine speaks_managing (fun network s => ?_) s
  refine .bind fun members s₁ _ => .ite (fun _ => .silent rfl) fun _ => ?_
  refine .bind fun pending s₂ _ => .ite (fun _ => .silent rfl) fun _ => ?_
  refine .bind fun full s₃ _ => .ite (fun _ => .silent rfl) fun _ => ?_
  exact .bind fun added s₄ _ => .ite (fun _ => .silent rfl) fun _ => speaks_memberJoined s₄

theorem speaks_kickMember {request : NetworkMemberRequest} (s : Service) :
    Speaks NetworkOperationOutcome.states (kickMember inputs actor request nowMs) s := by
  refine speaks_managing (fun network s => ?_) s
  refine .bind fun policy s₁ _ => .ite (fun _ => .silent rfl) fun _ => ?_
  refine .bind fun members s₂ _ => .ite (fun _ => .silent rfl) fun _ => ?_
  exact .bind fun removed s₃ _ => .ite (fun _ => .silent rfl) fun _ => speaks_memberRemoved s₃

theorem speaks_storePolicy {q : ManagementRequest} {current next : NetworkPolicy} (s : Service) :
    Speaks ManagementOutcome.states (storePolicy actor q nowMs current next) s := by
  refine .bind fun saved s₁ _ => .ite (fun _ => .silent rfl) fun _ => .bind fun _ s₂ _ => ?_
  exact (speaks_advancedChanges s₂).andThen fun changes s₃ h => .pure h

theorem speaks_manageAction {q : ManagementRequest} (s : Service) :
    Speaks ManagementOutcome.states (manageAction actor q nowMs) s := by
  refine .bind fun network s₁ _ => ?_
  cases network with
  | none => exact .silent rfl
  | some network =>
    refine .bind fun allowed s₂ _ => .bind fun lease s₃ _ => .ite (fun _ => .silent rfl) fun _ => ?_
    refine .bind fun current s₄ _ => .ite (fun _ => ?_) fun _ => .bind fun edit s₅ _ => ?_
    · refine .bind fun manages s₆ _ => .ite (fun _ => .silent rfl) fun _ => ?_
      exact .bind fun pending s₇ _ => .bind fun audit s₈ _ => .bind fun failures s₉ _ => .silent rfl
    · cases edit with
      | error code => exact .silent rfl
      | ok next => exact speaks_storePolicy s₅

theorem speaks_manageNetwork {q : ManagementRequest} (s : Service) :
    Speaks ManagementOutcome.states (manageNetwork inputs actor q nowMs) s := by
  refine .bind fun _ s₁ _ => .bind fun _ s₂ _ => (speaks_manageAction s₂).andThen fun out s₃ h => ?_
  refine .ite (fun _ => .pure h) fun _ => .bind fun _ s₄ hrun => .pure (h.of_core ?_)
  cases hrun
  exact core_auditLocked _ _ _ _ _ _ _ _ _

end

/-! ## Several networks, one after the other -/

end Service

/-- Nothing that a peer state of `n` depends on is different, and its revision is the same. -/
structure Undisturbed (n : NetworkId) (c c' : Core) : Prop extends SameView n c c' where
  revision : c'.revisions.getD n 0 = c.revisions.getD n 0

namespace Undisturbed
variable {n m : NetworkId} {d : DeviceId} {c c' c'' : Core}

theorem refl (n : NetworkId) (c : Core) : Undisturbed n c c := ⟨.refl n c, rfl⟩

theorem trans (h : Undisturbed n c c') (h' : Undisturbed n c' c'') : Undisturbed n c c'' :=
  ⟨h.toSameView.trans h'.toSameView, h'.revision.trans h.revision⟩

theorem bumpRevision (hne : n ≠ m) (c : Core) : Undisturbed n c (c.bumpRevision m) := by
  refine ⟨⟨rfl, rfl, fun _ => rfl, fun _ => rfl, rfl, rfl, fun _ _ => rfl, fun _ _ _ => Iff.rfl⟩, ?_⟩
  exact Map.getD_insert_of_ne _ _ _ hne

theorem bumpEpoch (hne : n ≠ m) (c : Core) : Undisturbed n c (c.bumpEpoch m) := by
  refine ⟨⟨rfl, rfl, fun _ => rfl, fun _ => rfl, rfl, ?_, fun _ _ => rfl, fun _ _ _ => Iff.rfl⟩, rfl⟩
  exact Map.getD_insert_of_ne _ _ _ hne

theorem leave (hne : n ≠ m) (c : Core) : Undisturbed n c (c.withTables (c.tables.leave m d)) := by
  have hkey (e : DeviceId) : (n, e) ≠ (m, d) := fun h => hne (congrArg Prod.fst h)
  refine ⟨.of_tables rfl rfl (fun e => ?_) (fun e => ?_) ?_, rfl⟩
  · rw [Tables.leave_memberships, Map.lookup_erase, if_neg (hkey e)]
  · rw [Tables.leave_leases, Map.lookup_erase, if_neg (hkey e)]
  · rw [Tables.policy_leave, if_neg hne]

end Undisturbed

namespace Service
variable {s s' : Service} {n : NetworkId} {d : DeviceId}

theorem Announces.undisturbed {states : List (DeviceId × NetworkPeerState)} (h : s.Announces states) (hw : s.tables.Wf)
    (hsame : ∀ p ∈ states, Undisturbed p.2.networkId s.core s'.core) : s'.Announces states :=
  fun p hp => (h p hp).congr hw (hsame p hp).toSameView (hsame p hp).revision

/-- What one round of a loop over networks does: it announces `n` and leaves the others alone. -/
structure Round (n : NetworkId) (s : Service) (r : Except Exn (List RoutedPeerStateChange)) (s' : Service) : Prop where
  wf : s'.tables.Wf
  elsewhere : ∀ m, m ≠ n → Undisturbed m s.core s'.core
  announced : ∀ changes, r = .ok changes → s'.AnnouncesOf n changes

/-- What a loop over networks does. -/
structure Rounds (networks : List NetworkId) (s : Service) (r : Except Exn (List RoutedPeerStateChange)) (s' : Service) :
    Prop where
  wf : s'.tables.Wf
  elsewhere : ∀ m, m ∉ networks → Undisturbed m s.core s'.core
  announced : ∀ changes, r = .ok changes → s'.Announces (pushed changes)
  about : ∀ changes, r = .ok changes → ∀ p ∈ pushed changes, p.2.networkId ∈ networks

theorem rounds_collect {f : NetworkRecord → Call (List RoutedPeerStateChange)} {networks : List NetworkRecord}
    (hnodup : (networks.map (·.id)).Nodup)
    (hround : ∀ network ∈ networks, ∀ s : Service, s.tables.Wf → Post (f network) s (Round network.id s))
    (hw : s.tables.Wf) : Post (collect f networks) s (Rounds (networks.map (·.id)) s) := by
  induction networks generalizing s with
  | nil =>
    refine ⟨hw, fun m _ => .refl m _, ?_, ?_⟩
    · rintro _ ⟨⟩
      exact s.announces_nil
    · rintro _ ⟨⟩ p hp
      exact absurd hp List.not_mem_nil
  | cons network networks ih =>
    rw [List.map_cons, List.nodup_cons] at hnodup
    simp only [collect, post_bind, post_pure]
    refine (hround network List.mem_cons_self s hw).mono fun r s₁ h₁ => ?_
    cases r with
    | error e =>
      refine ⟨h₁.wf, fun m hm => h₁.elsewhere m ?_, ?_, ?_⟩
      · exact fun heq => hm (heq ▸ List.mem_cons_self)
      · rintro _ ⟨⟩
      · rintro _ ⟨⟩
    | ok xs =>
      obtain ⟨hcurrent, habout⟩ := h₁.announced xs rfl
      refine (ih hnodup.2 (fun other ho => hround other (List.mem_cons_of_mem _ ho)) h₁.wf).mono fun r s₂ h₂ => ?_
      have helsewhere : ∀ m, m ∉ network.id :: networks.map (·.id) → Undisturbed m s.core s₂.core := by
        intro m hm
        rw [List.mem_cons, not_or] at hm
        exact (h₁.elsewhere m hm.1).trans (h₂.elsewhere m hm.2)
      cases r with
      | error e =>
        refine ⟨h₂.wf, helsewhere, ?_, ?_⟩
        · rintro _ ⟨⟩
        · rintro _ ⟨⟩
      | ok ys =>
        refine ⟨h₂.wf, helsewhere, ?_, ?_⟩
        · rintro _ ⟨⟩
          rw [pushed_append]
          -- later rounds are about other networks
          refine (hcurrent.undisturbed h₁.wf fun p hp => ?_).append (h₂.announced ys rfl)
          rw [habout p hp]
          exact h₂.elsewhere network.id hnodup.1
        · rintro _ ⟨⟩ p hp
          rw [pushed_append, List.mem_append] at hp
          rcases hp with hp | hp
          · rw [habout p hp]
            exact List.mem_cons_self
          · exact List.mem_cons_of_mem _ (h₂.about ys rfl p hp)

theorem round_advancedChanges (hw : s.tables.Wf) : Post (advancedChanges n) s (Round n s) := by
  have hannounced := announcesOf_advancedChanges (n := n) s
  unfold advancedChanges at hannounced ⊢
  have helsewhere : Post (do
      let revision ← advanceRevision n
      query fun s => s.changesForMembers n revision) s fun _ s' =>
        s'.tables.Wf ∧ ∀ m, m ≠ n → Undisturbed m s.core s'.core := by
    refine post_advanceRevision (fun _ => ⟨hw, fun m _ => .refl m _⟩) fun _ => ?_
    exact ⟨hw, fun m hm => .bumpRevision hm s.core⟩
  exact ⟨helsewhere.1, helsewhere.2, hannounced⟩

theorem round_announceKey {actor : DeviceId} {network : NetworkRecord} (hw : s.tables.Wf) :
    Post (announceKey actor network) s (Round network.id s) := by
  unfold announceKey
  split
  · refine post_advanceKeyEpoch (fun _ => ⟨hw, fun m _ => .refl m _, ?_⟩) fun _ => ?_
    · rintro _ ⟨⟩
    refine Post.mono (round_advancedChanges ?_) fun r s' h => ⟨h.wf, fun m hm => ?_, h.announced⟩
    · exact hw
    · exact (Undisturbed.bumpEpoch hm s.core).trans (h.elsewhere m hm)
  · exact round_advancedChanges hw

theorem round_revokeFrom {q : AccessRequest} {network : NetworkRecord} (hw : s.tables.Wf) :
    Post (revokeFrom q network) s (Round network.id s) := by
  unfold revokeFrom
  refine post_write (fun removed db hdb => ?_) fun e _ => ?_
  swap
  · refine ⟨hw, fun m _ => .refl m _, ?_⟩
    rintro _ ⟨⟩
  -- with or without a row to remove
  obtain ⟨hw₁, hleft⟩ : db.Wf ∧ ∀ m, m ≠ network.id → Undisturbed m s.core ({ s with store := db } : Service).core := by
    obtain ⟨-, -, rfl⟩ | ⟨-, hm, rfl⟩ := Db.removeMember_ok hdb
    · exact ⟨hw, fun m _ => .refl m _⟩
    · exact ⟨hw.change (.leave hm), fun m hne => .leave hne s.core⟩
  refine post_advanceKeyEpoch (fun _ => ⟨hw₁, hleft, ?_⟩) fun _ => ?_
  · rintro _ ⟨⟩
  have hepoch (m) (hm : m ≠ network.id) := (hleft m hm).trans (Undisturbed.bumpEpoch hm _)
  refine post_advanceRevision (fun _ => ⟨hw₁, hepoch, ?_⟩) fun _ => ?_
  · rintro _ ⟨⟩
  have hrevision (m) (hm : m ≠ network.id) := (hepoch m hm).trans (Undisturbed.bumpRevision hm _)
  rw [post_bind, post_query]
  split
  · rename_i changes hchanges
    refine ⟨hw₁, hrevision, ?_⟩
    rintro _ ⟨⟩
    have hcurrent := changesForMembers_ok hchanges (Map.getD_insert_self _ _ _ _)
    refine ⟨?_, ?_⟩ <;> rw [pushed_append, pushed_revocation, List.append_nil]
    · exact hcurrent.current
    · exact hcurrent.about
  · refine ⟨hw₁, hrevision, ?_⟩
    rintro _ ⟨⟩

/-! ## Sessions and reads -/

section
variable {crypto : Crypto} {inputs : Inputs} {actor : DeviceId} {nowMs : ℤ}

theorem speaks_collect_announceKey {networks : List NetworkRecord} (hw : s.tables.Wf)
    (hnets : s.store.listNetworksForDevice actor = .ok networks) :
    Speaks pushed (collect (announceKey actor) networks) s := by
  have hrounds := rounds_collect (f := announceKey actor) (Db.nodup_listNetworksForDevice hnets)
    (fun network _ s hw => round_announceKey hw) hw
  exact hrounds.mono fun _ _ h => h.announced

theorem speaks_publishDeviceKey {session : SessionId} {key : SignedDeviceKey} (hw : s.tables.Wf) :
    Speaks pushed (publishDeviceKey crypto actor session key nowMs) s := by
  refine .lift fun _ _ => .lift fun _ _ => .recordDevice fun s₁ hs₁ => .gets (.ite (fun _ => .throw _) fun _ => ?_)
  rw [← tables_of_core hs₁] at hw
  exact .modify (.read fun networks hnets => speaks_collect_announceKey hw hnets)

theorem speaks_removeDeviceKey {session : SessionId} (hw : s.tables.Wf) :
    Speaks pushed (removeDeviceKey actor session) s := by
  refine .gets (.ite (fun _ => .modify (.read fun networks hnets => ?_)) fun _ => .silent rfl)
  exact speaks_collect_announceKey hw hnets

/-- A round of the loop of `set_management_capable`. -/
theorem round_announceCapability {network : NetworkRecord} (hw : s.tables.Wf) :
    Post (do
      let policy ← gets fun s => s.store.networkPolicy network.id
      if policy.managed then advancedChanges network.id else pure []) s (Round network.id s) := by
  rw [post_gets_bind]
  split
  · exact round_advancedChanges hw
  · refine ⟨hw, fun m _ => .refl m _, ?_⟩
    rintro _ ⟨⟩
    exact ⟨s.announces_nil, fun p hp => absurd hp List.not_mem_nil⟩

theorem speaks_setManagementCapable {capable : Bool} (hw : s.tables.Wf) :
    Speaks pushed (setManagementCapable actor capable) s := by
  refine .modify (.read fun networks hnets => ?_)
  refine Post.mono (rounds_collect (Db.nodup_listNetworksForDevice hnets) (fun network _ s hw => ?_) hw)
    fun _ _ h => h.announced
  exact round_announceCapability hw

theorem speaks_peerState {request : NetworkSelectionRequest} (s : Service) :
    Speaks (fun o => (o.state.map fun state => (actor, state)).toList) (peerState actor request nowMs) s := by
  refine .lift fun _ _ => .lift fun _ _ => .tryCatch ?_ fun _ _ => .silent rfl
  refine .recordDevice fun s₁ _ => .read fun network _ => .ite (fun _ => .silent rfl) fun _ => ?_
  refine .read fun lease _ => .ite (fun _ => .silent rfl) fun _ => .bind fun state s₂ hrun => .pure ?_
  obtain ⟨hstate, rfl⟩ := Prod.mk.inj hrun
  intro p hp
  cases List.mem_singleton.1 hp
  unfold Current
  rw [(makePeerState_ok hstate).1]
  exact hstate

theorem speaks_peerStatesForDevice (s : Service) : Speaks pushed (peerStatesForDevice actor) s := by
  refine .lift fun _ _ => .read fun networks _ changes hchanges => ?_
  rintro ⟨e, state⟩ hp
  obtain ⟨change, hmem, hstate, he⟩ := mem_pushed.1 hp
  obtain ⟨network, -, hmade⟩ := mem_of_mapM_eq_ok hchanges hmem
  simp only [bind_eq_ok, Except.ok.injEq] at hmade
  obtain ⟨made, hmake, rfl⟩ := hmade
  cases hstate
  cases he
  unfold Current
  rw [(makePeerState_ok hmake).1]
  exact hmake

/-! ## Access requests -/

variable {q : AccessRequest}

/-- The key of the revoked device is dropped when it is in none of the networks any more. -/
theorem speaks_deviceRevoke (hw : s.tables.Wf) : Speaks AccessOutcome.states (deviceRevoke actor q) s := by
  refine post_deviceRevoke hw (fun code _ => ?_) (fun e => ?_) fun row networks account h => ?_
  · rintro _ ⟨⟩
    exact s.announces_nil
  · rintro _ ⟨⟩
  have hrounds := rounds_collect (f := revokeFrom q) h.networksOf.nodup (fun network _ s hw => round_revokeFrom hw)
    (s := { s with store := { s.store with toTables := s.tables.revoke q.deviceId row } }) h.wf
  have hpurge := collect_revokeFrom (s := { s with store := { s.store with toTables := s.tables.revoke q.deviceId row } })
    h.wf h.nonzero h.networksOf.nodup h.member
  rw [post_bind]
  refine (hrounds.and hpurge).mono fun r s' hr => ?_
  cases r with
  | error e => rintro _ ⟨⟩
  | ok changes =>
    obtain ⟨-, hpurged⟩ | ⟨⟨e, he⟩, -⟩ := hr.2
    swap
    · cases he
    have hdeparted := hpurged.departed h.wf h.networksOf.nodup
    simp only [post_bind, post_modify, post_pure]
    rintro _ ⟨⟩
    refine (hr.1.announced changes rfl).undisturbed hr.1.wf fun p hp => ?_
    have hgone : (p.2.networkId, q.deviceId) ∉ s'.core.tables.leases := by
      intro hlease
      have hmember := (hr.1.wf.addressed.lease_member _).1 hlease
      exact ((hdeparted.mem _ _).1 hmember).2 ⟨rfl, hr.1.about changes rfl p hp⟩
    refine ⟨⟨rfl, rfl, fun _ => rfl, fun _ => rfl, rfl, rfl, fun e he => ?_, fun _ _ _ => Iff.rfl⟩, rfl⟩
    have hne : e ≠ q.deviceId := by
      rintro rfl
      exact hgone he
    exact (Map.lookup_erase _ _ _).trans (if_neg hne)

theorem speaks_accountReport (account : Option AccountRecord) (secret : Text) (s : Service) :
    Speaks AccessOutcome.states (accountReport q account secret) s := by
  cases account with
  | none => exact .silent rfl
  | some account => exact .gets (.silent rfl)

theorem speaks_inviteAction (s : Service) : Speaks AccessOutcome.states (inviteAction crypto inputs actor q nowMs) s := by
  refine .bind fun allowed s₁ _ => .ite (fun _ => .silent rfl) fun _ => .bind fun network s₂ _ => ?_
  refine .ite (fun _ => ?_) fun _ => .bind fun manages s₃ _ => .ite (fun _ => .silent rfl) fun _ => ?_
  · refine .ite (fun _ => .silent rfl) fun _ => .bind fun lease s₃ _ => .ite (fun _ => .silent rfl) fun _ => ?_
    refine .bind fun full s₄ _ => .bind fun members s₅ _ => .ite (fun _ => .silent rfl) fun _ => ?_
    refine .bind fun redeemed s₆ _ => .ite (fun _ => .silent rfl) fun _ => ?_
    exact (speaks_joinNetworkLocked s₆).map fun _ => rfl
  · refine .ite (fun _ => .bind fun _ s₄ _ => .silent rfl) fun _ => .ite (fun _ => .silent rfl) fun _ => ?_
    exact .bind fun nonce s₄ _ => .bind fun _ s₅ _ => .silent rfl

theorem speaks_passwordAction (s : Service) :
    Speaks AccessOutcome.states (passwordAction crypto inputs actor q nowMs) s := by
  refine .bind fun allowed s₁ _ => .ite (fun _ => .silent rfl) fun _ => .bind fun network s₂ _ => .ite (fun _ => ?_) fun _ => ?_
  · refine .bind fun manages s₃ _ => .ite (fun _ => .silent rfl) fun _ => .ite (fun _ => ?_) fun _ => ?_
    · exact .bind fun _ s₄ _ => .silent rfl
    · exact .bind fun salt s₄ _ => .bind fun verifier s₅ _ => .bind fun _ s₆ _ => .silent rfl
  · refine .bind fun verifier s₃ _ => .bind fun isMatch s₄ _ => .ite (fun _ => .silent rfl) fun _ => ?_
    exact (speaks_joinNetworkLocked s₄).map fun _ => rfl

theorem speaks_networkCreateProtected (s : Service) :
    Speaks AccessOutcome.states (networkCreateProtected crypto inputs actor q nowMs) s := by
  refine .bind fun _ s₁ _ => .bind fun allowed s₂ _ => .ite (fun _ => .silent rfl) fun _ => ?_
  refine .bind fun salt s₃ _ => .bind fun verifier s₄ _ => ?_
  exact (speaks_createNetworkLocked s₄).map fun _ => rfl

theorem speaks_accessAction (hw : s.tables.Wf) : Speaks AccessOutcome.states (accessAction crypto inputs actor q nowMs) s := by
  refine .gets (.ite (fun _ => .silent rfl) fun _ => .recordDevice fun s₁ hs₁ => .gets ?_)
  rw [← tables_of_core hs₁] at hw
  cases q.action with
  | deviceRevoke => exact speaks_deviceRevoke hw
  | networkCreateProtected => exact speaks_networkCreateProtected s₁
  | inviteIssue | inviteRedeem | inviteRevoke => exact speaks_inviteAction s₁
  | passwordSet | passwordJoin => exact speaks_passwordAction s₁
  | accountStatus => exact speaks_accountReport _ _ s₁
  | accountCreate =>
    refine .ite (fun _ => .silent rfl) fun _ => .ite (fun _ => .silent rfl) fun _ => .bind fun id s₂ _ => ?_
    exact .bind fun _ s₃ _ => .bind fun account s₄ _ => speaks_accountReport _ _ s₄
  | enrollmentIssue =>
    dsimp only
    unfold enrollmentIssue
    split
    · exact .silent rfl
    · refine .ite (fun _ => .silent rfl) fun _ => .bind fun nonce s₂ _ => .bind fun _ s₃ _ => ?_
      exact speaks_accountReport _ _ s₃
  | deviceEnroll =>
    refine .ite (fun _ => .silent rfl) fun _ => .bind fun enrolled s₂ _ => .ite (fun _ => .silent rfl) fun _ => ?_
    exact .bind fun account s₃ _ => speaks_accountReport _ _ s₃

theorem speaks_accessRequest (hw : s.tables.Wf) : Speaks AccessOutcome.states (accessRequest crypto inputs actor q nowMs) s := by
  refine .lift fun _ _ => .lift fun _ _ => .andThen (.tryCatch (speaks_accessAction hw) fun e s' => ?_) fun out s₁ h => ?_
  · exact .bind fun _ s₂ _ => .throw e
  · refine .bind fun _ s₂ hrun => .pure (h.of_core ?_)
    cases hrun
    exact core_accessAudit inputs _

end

/-! ## Every call -/

theorem speaks_reply {α : Type} {op : Op} {f : α → Reply} {x : Call α} {states : α → List (DeviceId × NetworkPeerState)}
    (hx : Speaks states x s) (hf : ∀ a, (f a).emitted op = states a) : Speaks (Reply.emitted op) (reply f x) s :=
  hx.map hf

theorem speaks_nothing {α : Type} {op : Op} {f : α → Reply} {x : Call α} (hf : ∀ a, (f a).emitted op = []) :
    Speaks (Reply.emitted op) (reply f x) s :=
  .bind fun a _ _ => .silent (hf a)

/-- Every peer state in the reply to a call is the current one when the call is done. -/
theorem speaks_perform (crypto : Crypto) (inputs : Inputs) (op : Op) (hw : s.tables.Wf) :
    Speaks (Reply.emitted op) (perform crypto inputs op) s := by
  cases op with
  | manageNetwork actor request nowMs => exact speaks_reply (speaks_manageNetwork s) fun _ => rfl
  | setManagementCapable actor capable => exact speaks_reply (speaks_setManagementCapable hw) fun _ => rfl
  | accessRequest actor request nowMs => exact speaks_reply (speaks_accessRequest hw) fun _ => rfl
  | publishDeviceKey actor session key nowMs => exact speaks_reply (speaks_publishDeviceKey hw) fun _ => rfl
  | removeDeviceKey actor session => exact speaks_reply (speaks_removeDeviceKey hw) fun _ => rfl
  | createNetwork actor request nowMs => exact speaks_reply (speaks_createNetwork s) fun _ => rfl
  | joinNetwork actor request nowMs => exact speaks_reply (speaks_joinNetwork s) fun _ => rfl
  | leaveNetwork actor request nowMs => exact speaks_reply (speaks_leaveNetwork s) fun _ => rfl
  | inviteMember actor request nowMs => exact speaks_reply (speaks_inviteMember s) fun _ => rfl
  | approveMember actor request nowMs => exact speaks_reply (speaks_approveMember s) fun _ => rfl
  | kickMember actor request nowMs => exact speaks_reply (speaks_kickMember s) fun _ => rfl
  | peerState actor request nowMs => exact speaks_reply (speaks_peerState s) fun _ => rfl
  | peerStatesForDevice actor => exact speaks_reply (speaks_peerStatesForDevice s) fun _ => rfl
  | _ => exact speaks_nothing fun _ => rfl

end Service

end LanLink
