import LanLink.Relay.Steps
/-!
# Calls and the limiters

Most of what a call changes on its way the limiters do not look at. Of the
fan-out buckets only two calls take notice: a routed packet is charged to them,
and the end of a session drops those of its device. The table of access
attempts changes only as access requests go through it.
-/
open LanLink.Lib LanLink.Lib.Action

namespace LanLink

/-- The call routes a packet or ends a session. -/
def Op.Meters : Op → Prop
  | .routeEncryptedPacket _ _ | .removeDeviceKey _ _ => True
  | _ => False

namespace Service
variable (crypto : Crypto) (inputs : Inputs)

/-- `R` does not look at the store, the live part, the quota and what is kept about audits. -/
class Aside (R : Service → Service → Prop) : Prop extends Std.Refl R, IsTrans Service R where
  store (s : Service) (store : Db) : R s { s with store }
  live (s : Service) (live : Live) : R s { s with toLive := live }
  quota (s : Service) (quota : ForwardingQuota) : R s { s with quota }
  denials (s : Service) (auditDenials : Map DeviceId Time) : R s { s with auditDenials }
  failures (s : Service) (auditWriteFailures : UInt64) : R s { s with auditWriteFailures }

section
variable {R : Service → Service → Prop} [Aside R]

/-! ## Shared steps -/

section
variable {α : Type}

theorem within_read (f : Db → Except Exn α) : Within R (read f) := .query _

theorem within_write (f : Db → Except Exn (α × Db)) : Within R (write f) := by
  intro s
  unfold write
  split
  · exact Aside.store s _
  · exact Std.Refl.refl s

theorem within_advanceRevision (n : NetworkId) : Within R (advanceRevision n) := by
  intro s
  unfold advanceRevision
  dsimp only
  split
  · exact Std.Refl.refl s
  · exact Aside.live s _

theorem within_advanceKeyEpoch (n : NetworkId) : Within R (advanceKeyEpoch n) := by
  intro s
  unfold advanceKeyEpoch
  dsimp only
  split
  · exact Std.Refl.refl s
  · exact Aside.live s _

theorem within_advancedChanges (n : NetworkId) : Within R (advancedChanges n) :=
  .bind (within_advanceRevision n) fun _ => .query _

theorem within_announceKey (actor : DeviceId) (network : NetworkRecord) : Within R (announceKey actor network) := by
  refine .ite (.bind (within_advanceKeyEpoch _) fun _ => ?_) ?_
  · exact within_advancedChanges _
  · exact within_advancedChanges _

theorem within_writeAudit (s : Service) (event : AuditEvent) : R s (s.writeAudit event) := by
  unfold writeAudit
  split
  · exact Aside.store s _
  · exact Aside.failures s _

theorem within_auditLocked (s : Service) (kind : AuditKind) (actor target : DeviceId) (network : NetworkId)
    (result : NetworkResultCode) (nowMs : ℤ) (now : Time) (revision : UInt64) :
    R s (s.auditLocked kind actor target network result nowMs now revision) := by
  have hdenial : R s (s.admitDenial actor now).2 := by
    unfold admitDenial
    dsimp only
    split <;> split <;> exact Aside.denials s _
  unfold auditLocked
  dsimp only
  split
  · exact within_writeAudit _ _
  split
  · exact IsTrans.trans _ _ _ hdenial (within_writeAudit _ _)
  · exact hdenial

theorem within_audited (actor : DeviceId) (nowMs : ℤ) (now : Time) (out : NetworkOperationOutcome) :
    Within R (audited actor nowMs now out) := by
  refine .bind (.modify fun s => ?_) fun _ => .pure _
  unfold auditNetworkOutcome
  split
  · exact Std.Refl.refl s
  · exact within_auditLocked _ _ _ _ _ _ _ _ _

theorem within_catching {operation : NetworkOperation} {n : NetworkId} {full : Bool}
    {body : Call NetworkOperationOutcome} (h : Within R body) : Within R (catching operation n full body) := by
  refine .tryCatch h fun e => ?_
  split <;> exact .pure _

theorem within_reply {f : α → Reply} {x : Call α} (h : Within R x) : Within R (reply f x) :=
  .bind h fun _ => .pure _

end

/-! ## Networks and members -/

theorem within_createAttempts (actor : DeviceId) (name : Text) (nowMs : ℤ) (password : Option PasswordVerifier)
    (left attempt : ℕ) : Within R (createAttempts inputs actor name nowMs password left attempt) := by
  induction left generalizing attempt with
  | zero => exact .pure _
  | succ left ih =>
    refine .bind (.lift _) fun n => .ite (ih _) (.bind (within_read _) fun _ => .ite (ih _) ?_)
    refine .bind (.tryCatch (.bind (within_write _) fun _ => .pure _) fun e => ?_) fun created => .ite ?_ (ih _)
    · exact .bind (within_read _) fun _ => .ite (.pure _) (.throw _)
    · exact .bind (within_advanceKeyEpoch n) fun _ => .bind (within_advancedChanges n) fun _ => within_audited _ _ _ _

theorem within_createNetworkLocked (actor : DeviceId) (name : Text) (nowMs : ℤ) (password : Option PasswordVerifier) :
    Within R (createNetworkLocked inputs actor name nowMs password) := by
  refine within_catching (.bind (within_write _) fun _ => .bind (within_read _) fun _ => .ite (.pure _) ?_)
  exact within_createAttempts inputs _ _ _ _ _ _

theorem within_memberJoined (operation : NetworkOperation) (actor : DeviceId) (n : NetworkId) (d : DeviceId)
    (nowMs : ℤ) : Within R (memberJoined inputs operation actor n d nowMs) := by
  refine .bind (within_advanceKeyEpoch n) fun _ => .bind (within_read _) fun _ => ?_
  exact .bind (within_advancedChanges n) fun _ => within_audited _ _ _ _

theorem within_requestToJoin (actor : DeviceId) (n : NetworkId) (owner : DeviceId) (nowMs : ℤ) :
    Within R (requestToJoin inputs actor n owner nowMs) := by
  refine .bind (within_read _) fun _ => .ite (.pure _) (.bind (within_write _) fun _ => .ite (.pure _) ?_)
  exact within_audited _ _ _ _

theorem within_joinNetworkLocked (actor : DeviceId) (n : NetworkId) (nowMs : ℤ) (credentialVerified : Bool) :
    Within R (joinNetworkLocked inputs actor n nowMs credentialVerified) := by
  refine within_catching (.bind (within_write _) fun _ => .bind (within_read _) fun network => ?_)
  cases network with
  | none => exact .pure _
  | some network =>
    refine .bind (within_read _) fun _ => .ite (.pure _) (.bind (within_read _) fun _ => .ite (.pure _) ?_)
    refine .bind (.gets _) fun _ => .bind (within_read _) fun _ => .ite (.pure _) (.ite ?_ ?_)
    · exact .bind (within_write _) fun _ => .ite (.pure _) (within_memberJoined inputs _ _ _ _ _)
    · exact within_requestToJoin inputs _ _ _ _

theorem within_memberRemoved (operation : NetworkOperation) (actor : DeviceId) (n : NetworkId) (d : DeviceId)
    (nowMs : ℤ) (first : List RoutedNetworkEvent) (excluded : Option DeviceId) (kind : NetworkEventKind) :
    Within R (memberRemoved inputs operation actor n d nowMs first excluded kind) := by
  refine .bind (within_advanceKeyEpoch n) fun _ => .bind (within_read _) fun _ => ?_
  exact .bind (within_advanceRevision n) fun _ => .bind (.query _) fun _ => within_audited _ _ _ _

theorem within_leaveNetwork (actor : DeviceId) (request : NetworkSelectionRequest) (nowMs : ℤ) :
    Within R (leaveNetwork inputs actor request nowMs) := by
  refine .bind (.lift _) fun _ => .bind (.lift _) fun _ => within_catching ?_
  refine .bind (within_write _) fun _ => .bind (within_read _) fun network => ?_
  cases network with
  | none => exact .pure _
  | some network =>
    refine .ite (.pure _) (.bind (within_read _) fun _ => .ite (.pure _) ?_)
    exact .bind (within_write _) fun _ => .ite (.pure _) (within_memberRemoved inputs _ _ _ _ _ _ _ _)

theorem within_managing {operation : NetworkOperation} {full : Bool} {actor : DeviceId} {request : NetworkMemberRequest}
    {nowMs : ℤ} {body : NetworkRecord → Call NetworkOperationOutcome} (h : ∀ network, Within R (body network)) :
    Within R (managing operation full actor request nowMs body) := by
  refine .bind (.lift _) fun _ => .bind (.lift _) fun _ => .ite (.pure _) (within_catching ?_)
  refine .bind (within_write _) fun _ => .bind (within_read _) fun network => ?_
  cases network with
  | none => exact .pure _
  | some network =>
    exact .bind (.gets _) fun _ => .ite (.pure _) (.bind (within_read _) fun _ => .ite (.pure _) (h network))

theorem within_inviteMember (actor : DeviceId) (request : NetworkMemberRequest) (nowMs : ℤ) :
    Within R (inviteMember inputs actor request nowMs) := by
  refine within_managing fun _ => .bind (within_read _) fun _ => .bind (within_read _) fun _ => .ite (.pure _) ?_
  refine .bind (within_read _) fun _ => .ite (.pure _) (.bind (within_read _) fun _ => .ite (.pure _) ?_)
  exact .bind (within_write _) fun _ => .ite (.pure _) (within_audited _ _ _ _)

theorem within_approveMember (actor : DeviceId) (request : NetworkMemberRequest) (nowMs : ℤ) :
    Within R (approveMember inputs actor request nowMs) := by
  refine within_managing fun _ => .bind (within_read _) fun _ => .ite (.pure _) ?_
  refine .bind (within_read _) fun _ => .ite (.pure _) (.bind (within_read _) fun _ => .ite (.pure _) ?_)
  exact .bind (within_write _) fun _ => .ite (.pure _) (within_memberJoined inputs _ _ _ _ _)

theorem within_kickMember (actor : DeviceId) (request : NetworkMemberRequest) (nowMs : ℤ) :
    Within R (kickMember inputs actor request nowMs) := by
  refine within_managing fun _ => .bind (.gets _) fun _ => .ite (.pure _) ?_
  refine .bind (within_read _) fun _ => .ite (.pure _) (.bind (within_write _) fun _ => .ite (.pure _) ?_)
  exact within_memberRemoved inputs _ _ _ _ _ _ _ _

/-! ## Management and access -/

theorem within_manageNetwork (actor : DeviceId) (q : ManagementRequest) (nowMs : ℤ) :
    Within R (manageNetwork inputs actor q nowMs) := by
  have hstore (current next : NetworkPolicy) : Within R (storePolicy actor q nowMs current next) := by
    refine .bind (within_write _) fun _ => .ite (.pure _) (.bind (within_advanceKeyEpoch _) fun _ => ?_)
    exact .bind (within_advancedChanges _) fun _ => .pure _
  have hinspect (current : NetworkPolicy) : Within R (inspectNetwork actor q nowMs current) := by
    refine .bind (.gets _) fun _ => .ite (.pure _) (.bind (within_read _) fun _ => .bind (within_read _) fun _ => ?_)
    exact .bind (.gets _) fun _ => .pure _
  have haction : Within R (manageAction actor q nowMs) := by
    refine .bind (within_read _) fun network => ?_
    cases network with
    | none => exact .pure _
    | some network =>
      refine .bind (.gets _) fun _ => .bind (within_read _) fun _ => .ite (.pure _) (.bind (.gets _) fun _ => ?_)
      refine .ite (hinspect _) (.bind (.gets _) fun edit => ?_)
      cases edit with
      | error code => exact .pure _
      | ok next => exact hstore _ _
  refine .bind (.lift _) fun _ => .bind (.lift _) fun _ => .bind haction fun _ => .ite (.pure _) ?_
  exact .bind (.modify fun s => within_auditLocked _ _ _ _ _ _ _ _ _) fun _ => .pure _

section
variable (actor : DeviceId) (q : AccessRequest) (nowMs : ℤ)

theorem within_deviceRevoke : Within R (deviceRevoke actor q) := by
  refine .bind (.gets _) fun account => .bind (.gets _) fun target => ?_
  split
  · refine .ite (.pure _) (.bind (within_read _) fun networks => .ite (.pure _) (.bind (within_write _) fun _ => ?_))
    refine .bind (.collect (fun network => ?_) _) fun _ => .bind (.modify fun s => Aside.live s _) fun _ => .pure _
    refine .bind (within_write _) fun _ => .bind (within_advanceKeyEpoch _) fun _ => ?_
    exact .bind (within_advanceRevision _) fun _ => .bind (.query _) fun _ => .pure _
  · exact .pure _

theorem within_networkCreateProtected (hattempt : ∀ n s, R s (allowAccessAttempt actor n inputs.now s).2) :
    Within R (networkCreateProtected crypto inputs actor q nowMs) := by
  refine .bind (.lift _) fun _ => .bind (.update (hattempt _)) fun _ => .ite (.pure _) ?_
  refine .bind (.lift _) fun _ => .bind (.lift _) fun _ => .bind ?_ fun _ => .pure _
  exact within_createNetworkLocked inputs _ _ _ _

theorem within_inviteAction (hattempt : ∀ n s, R s (allowAccessAttempt actor n inputs.now s).2) :
    Within R (inviteAction crypto inputs actor q nowMs) := by
  have hissue : Within R (inviteIssue crypto inputs q nowMs) :=
    .ite (.pure _) (.bind (.lift _) fun _ => .bind (within_write _) fun _ => .pure _)
  have hredeem (network : Option NetworkRecord) : Within R (inviteRedeem crypto inputs actor q nowMs network) := by
    refine .ite (.pure _) (.bind (within_read _) fun _ => .ite (.pure _) (.bind (within_read _) fun _ => ?_))
    refine .bind (within_read _) fun _ => .ite (.pure _) (.bind (within_write _) fun _ => .ite (.pure _) ?_)
    exact .bind (within_joinNetworkLocked inputs _ _ _ _) fun _ => .pure _
  refine .bind (.update (hattempt _)) fun _ => .ite (.pure _) (.bind (within_read _) fun network => ?_)
  refine .ite (hredeem network) (.bind (.gets _) fun _ => .ite (.pure _) (.ite ?_ hissue))
  exact .bind (within_write _) fun _ => .pure _

theorem within_passwordAction (hattempt : ∀ n s, R s (allowAccessAttempt actor n inputs.now s).2) :
    Within R (passwordAction crypto inputs actor q nowMs) := by
  refine .bind (.update (hattempt _)) fun _ => .ite (.pure _) (.bind (within_read _) fun network => ?_)
  refine .ite (.bind (.gets _) fun _ => .ite (.pure _) (.ite ?_ ?_)) ?_
  · exact .bind (within_write _) fun _ => .pure _
  · exact .bind (.lift _) fun _ => .bind (.lift _) fun _ => .bind (within_write _) fun _ => .pure _
  · refine .bind (.gets _) fun _ => .bind (.lift _) fun _ => .ite (.pure _) ?_
    exact .bind (within_joinNetworkLocked inputs _ _ _ _) fun _ => .pure _

theorem within_accountReport (account : Option AccountRecord) (secret : Text) :
    Within R (accountReport q account secret) := by
  cases account with
  | none => exact .pure _
  | some account => exact .bind (.gets _) fun _ => .pure _

theorem within_accessAction (hattempt : ∀ n s, R s (allowAccessAttempt actor n inputs.now s).2) :
    Within R (accessAction crypto inputs actor q nowMs) := by
  refine .bind (.gets _) fun _ => .ite (.pure _) (.bind (within_write _) fun _ => .bind (.gets _) fun account => ?_)
  split
  · exact within_deviceRevoke actor q
  · exact within_networkCreateProtected crypto inputs actor q nowMs hattempt
  · exact within_inviteAction crypto inputs actor q nowMs hattempt
  · exact within_inviteAction crypto inputs actor q nowMs hattempt
  · exact within_inviteAction crypto inputs actor q nowMs hattempt
  · exact within_passwordAction crypto inputs actor q nowMs hattempt
  · exact within_passwordAction crypto inputs actor q nowMs hattempt
  · refine .ite (.pure _) (.ite (.pure _) (.bind (.lift _) fun _ => .bind (within_write _) fun _ => ?_))
    exact .bind (.gets _) fun _ => within_accountReport q _ _
  · exact within_accountReport q _ _
  · cases account with
    | none => exact .pure _
    | some account =>
      refine .ite (.pure _) (.bind (.lift _) fun _ => .bind (within_write _) fun _ => ?_)
      exact within_accountReport q _ _
  · refine .ite (.pure _) (.bind (within_write _) fun _ => .ite (.pure _) (.bind (.gets _) fun _ => ?_))
    exact within_accountReport q _ _

theorem within_accessRequest (hattempt : ∀ n s, R s (allowAccessAttempt actor n inputs.now s).2) :
    Within R (accessRequest crypto inputs actor q nowMs) := by
  have haudit (code : NetworkResultCode) (s : Service) : R s (accessAudit inputs actor q nowMs code s) := by
    unfold accessAudit
    split
    · exact Std.Refl.refl s
    · exact within_auditLocked _ _ _ _ _ _ _ _ _
  refine .bind (.lift _) fun _ => .bind (.lift _) fun _ => .bind (.tryCatch ?_ fun e => ?_) fun _ => ?_
  · exact within_accessAction crypto inputs actor q nowMs hattempt
  · exact .bind (.modify (haudit _)) fun _ => .throw _
  · exact .bind (.modify (haudit _)) fun _ => .pure _

end

/-! ## All calls -/

/-- A call that does not meter packets moves along `R` where the attempts of an access request do. -/
theorem within_perform {op : Op} (hop : ¬ op.Meters)
    (hattempt : op.actor ≠ 0 → ∀ n s, R s (allowAccessAttempt op.actor n inputs.now s).2) :
    Within R (perform crypto inputs op) := by
  cases op with
  | setForwardingLimits limits =>
    refine within_reply fun s => ?_
    unfold setForwardingLimits
    cases s.quota.configure limits with
    | ok quota => exact Aside.quota s quota
    | error e => exact Std.Refl.refl s
  | admitControl actor => exact within_reply (.update fun s => Aside.quota s _)
  | manageNetwork actor request nowMs => exact within_reply (within_manageNetwork inputs _ _ _)
  | setManagementCapable actor capable =>
    refine within_reply (.bind (.modify fun s => Aside.live s _) fun _ => .bind (within_read _) fun _ => .collect (fun _ => ?_) _)
    exact .bind (.gets _) fun _ => .ite (within_advancedChanges _) (.pure _)
  | accessRequest actor request nowMs =>
    by_cases hactor : actor = 0
    · -- the request is turned away before the limiter
      subst hactor
      exact within_reply fun s => Std.Refl.refl s
    · exact within_reply (within_accessRequest crypto inputs _ _ _ (hattempt hactor))
  | recordAuthenticatedDevice actor nowMs =>
    exact within_reply (.bind (.lift _) fun _ => .bind (.gets _) fun _ => .ite (.throw _) (within_write _))
  | publishDeviceKey actor session key nowMs =>
    refine within_reply (.bind (.lift _) fun _ => .bind (.lift _) fun _ => .bind (within_write _) fun _ => ?_)
    refine .bind (.gets _) fun _ => .ite (.throw _) (.bind (.modify fun s => Aside.live s _) fun _ => ?_)
    exact .bind (within_read _) fun _ => .collect (within_announceKey actor) _
  | removeDeviceKey actor session => exact absurd trivial hop
  | createNetwork actor request nowMs =>
    refine within_reply (.bind (.lift _) fun _ => ?_)
    split
    · exact .pure _
    · exact within_createNetworkLocked inputs _ _ _ _
  | listNetworks actor nowMs =>
    refine within_reply (.bind (.lift _) fun _ => .tryCatch ?_ fun _ => .pure _)
    refine .bind (within_write _) fun _ => .bind (within_read _) fun _ => .ite (.pure _) ?_
    exact .bind (within_read _) fun _ => .pure _
  | joinNetwork actor request nowMs =>
    exact within_reply (.bind (.lift _) fun _ => .bind (.lift _) fun _ => within_joinNetworkLocked inputs _ _ _ _)
  | leaveNetwork actor request nowMs => exact within_reply (within_leaveNetwork inputs _ _ _)
  | inviteMember actor request nowMs => exact within_reply (within_inviteMember inputs _ _ _)
  | approveMember actor request nowMs => exact within_reply (within_approveMember inputs _ _ _)
  | kickMember actor request nowMs => exact within_reply (within_kickMember inputs _ _ _)
  | peerState actor request nowMs =>
    refine within_reply (.bind (.lift _) fun _ => .bind (.lift _) fun _ => .tryCatch ?_ fun _ => .pure _)
    refine .bind (within_write _) fun _ => .bind (within_read _) fun _ => .ite (.pure _) ?_
    exact .bind (within_read _) fun _ => .ite (.pure _) (.bind (.query _) fun _ => .pure _)
  | publishNetworkKeys actor envelopes =>
    refine within_reply ?_
    unfold publishNetworkKeys
    split
    · exact .pure _
    refine .ite (.pure _) (.bind (within_read _) fun network => ?_)
    cases network with
    | none => exact .pure _
    | some network => exact .query _
  | peerStatesForDevice actor =>
    exact within_reply (.bind (.lift _) fun _ => .bind (within_read _) fun _ => .query _)
  | routeEncryptedPacket actor packet => exact absurd trivial hop
  | authorizePeerExchange actor exchange => exact within_reply (.query _)

end

/-! ## What routing a packet changes -/

section
variable (s : Service) (actor : DeviceId) (p : EncryptedNetworkPacket) (leases : List LeaseRecord)

theorem routeUnicast_frame : ∃ quota, (s.routeUnicast inputs actor p leases).2 = { s with quota } := by
  unfold routeUnicast
  split
  · exact ⟨s.quota, rfl⟩
  split
  · exact ⟨s.quota, rfl⟩
  split
  · exact ⟨_, rfl⟩
  · exact ⟨_, rfl⟩

theorem chargeFanout_frame (count : ℕ) : ∃ quota senderFanout networkFanout,
    (s.chargeFanout inputs actor p count).2 = { s with quota, senderFanout, networkFanout } := by
  unfold chargeFanout
  dsimp only
  split
  · exact ⟨s.quota, _, _, rfl⟩
  split
  · exact ⟨_, _, _, rfl⟩
  · exact ⟨_, _, _, rfl⟩

theorem routeFanout_frame (key : ActiveKey) : ∃ quota senderFanout networkFanout fanoutReplay,
    (s.routeFanout inputs actor key p leases).2 = { s with quota, senderFanout, networkFanout, fanoutReplay } := by
  unfold routeFanout
  dsimp only
  split
  · exact ⟨s.quota, s.senderFanout, s.networkFanout, s.fanoutReplay, rfl⟩
  split
  · exact ⟨s.quota, s.senderFanout, s.networkFanout, _, rfl⟩
  split
  · exact ⟨s.quota, s.senderFanout, s.networkFanout, _, rfl⟩
  split
  · rename_i s' hcharge
    obtain ⟨quota, senders, networks, hframe⟩ := chargeFanout_frame inputs _ actor p _
    rw [hcharge] at hframe
    exact ⟨quota, senders, networks, _, hframe⟩
  · rename_i s' hcharge
    obtain ⟨quota, senders, networks, hframe⟩ := chargeFanout_frame inputs _ actor p _
    rw [hcharge] at hframe
    obtain rfl : s' = _ := hframe
    exact ⟨quota, senders, networks, _, rfl⟩

end

/-- What the calls that meter packets change goes unnoticed as well. -/
class AsideMetering (R : Service → Service → Prop) : Prop extends Aside R where
  fanout (s : Service) (senderFanout : Map (NetworkId × DeviceId) FanoutBucket) (networkFanout : Map NetworkId FanoutBucket)
    (fanoutReplay : Map (NetworkId × DeviceId) FanoutReplay) : R s { s with senderFanout, networkFanout, fanoutReplay }

section
variable {R : Service → Service → Prop} [AsideMetering R]

theorem within_routeEncryptedPacket (actor : DeviceId) (p : EncryptedNetworkPacket) :
    Within R (routeEncryptedPacket inputs actor p) := by
  refine .bind (.gets _) fun _ => .ite (.pure _) (.bind (.lift _) fun _ => .bind (.gets _) fun sender => ?_)
  rcases sender with _ | ⟨key, subnet⟩
  · exact .pure _
  refine .bind (within_read _) fun leases => .ite (.update fun s => ?_) (.update fun s => ?_)
  · obtain ⟨quota, senders, networks, replay, hframe⟩ := routeFanout_frame inputs s actor p leases key
    rw [hframe]
    exact IsTrans.trans _ _ _ (Aside.quota s quota) (AsideMetering.fanout { s with quota } senders networks replay)
  · obtain ⟨quota, hframe⟩ := routeUnicast_frame inputs s actor p leases
    rw [hframe]
    exact Aside.quota s quota

theorem within_removeDeviceKey (actor : DeviceId) (session : SessionId) : Within R (removeDeviceKey actor session) := by
  refine .bind (.gets _) fun _ => .ite (.bind (.modify fun s => ?_) fun _ => ?_) (.pure _)
  · exact IsTrans.trans _ _ _ (Aside.live s (dropSession actor s).toLive)
      (AsideMetering.fanout { s with toLive := (dropSession actor s).toLive } _ _ _)
  · exact .bind (within_read _) fun _ => .collect (within_announceKey actor) _

/-- All that a call does to the rest of the service is to make attempts. -/
theorem within_perform_metering {op : Op}
    (hattempt : op.actor ≠ 0 → ∀ n s, R s (allowAccessAttempt op.actor n inputs.now s).2) :
    Within R (perform crypto inputs op) := by
  by_cases hop : op.Meters
  · cases op with
    | routeEncryptedPacket actor packet => exact within_reply (within_routeEncryptedPacket inputs actor packet)
    | removeDeviceKey actor session => exact within_reply (within_removeDeviceKey actor session)
    | _ => exact absurd hop id
  · exact within_perform crypto inputs hop hattempt

end

/-! ## The fan-out buckets -/

/-- The buckets of senders and of networks. -/
def fanout (s : Service) : Map (NetworkId × DeviceId) FanoutBucket × Map NetworkId FanoutBucket :=
  (s.senderFanout, s.networkFanout)

instance : Aside (Same fanout) where
  store _ _ := rfl
  live _ _ := rfl
  quota _ _ := rfl
  denials _ _ := rfl
  failures _ _ := rfl

theorem fanout_allowAccessAttempt (actor : DeviceId) (n : NetworkId) (now : Time) (s : Service) :
    (allowAccessAttempt actor n now s).2.fanout = s.fanout := by
  unfold allowAccessAttempt
  dsimp only
  split
  · rfl
  · split <;> rfl

theorem leaves_perform {op : Op} (hop : ¬ op.Meters) : Leaves fanout (perform crypto inputs op) :=
  within_perform crypto inputs hop fun _ n s => fanout_allowAccessAttempt op.actor n inputs.now s

end Service

end LanLink
