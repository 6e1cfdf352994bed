import LanLink.Relay.NetworkService
/-!
# Access requests

`NetworkService::access_request`: accounts and their devices, passwords,
invitation links. The audit entry is written by a destructor, so it is written
on every way out; where the request throws, the result's code is still
`success` at that point.
-/
open LanLink.Lib

namespace LanLink

structure AccessOutcome where
  result : AccessResult
  changes : List RoutedPeerStateChange := []
  events : List RoutedNetworkEvent := []
  deriving DecidableEq, Repr

def AccessOutcome.fail (q : AccessRequest) (code : NetworkResultCode) : AccessOutcome :=
  { result := { action := q.action, code } }

/-- As `fail`, in the branches that set the network first. -/
def AccessOutcome.failAt (q : AccessRequest) (code : NetworkResultCode) : AccessOutcome :=
  { result := { action := q.action, code, networkId := q.networkId } }

def accessAuditKind : AccessAction → Option AuditKind
  | .accountCreate => some .accountCreate
  | .enrollmentIssue => some .enrollmentIssue
  | .deviceEnroll => some .deviceEnroll
  | .deviceRevoke => some .deviceRevoke
  | .passwordSet => some .passwordChange
  | .inviteIssue => some .inviteIssue
  | .inviteRevoke => some .inviteRevoke
  | .accountStatus | .passwordJoin | .inviteRedeem | .networkCreateProtected => none

namespace Service

/-! ## The attempt limiter -/

/-- Open a window for each scope in turn; stop at one that is used up. -/
def openWindows (now : Time) : List ((NetworkId × DeviceId) × ℕ) → Map (NetworkId × DeviceId) AccessWindow →
    Bool × Map (NetworkId × DeviceId) AccessWindow
  | [], attempts => (true, attempts)
  | (key, limit) :: scopes, attempts =>
    let window := attempts.getD key { start := now, attempts := 0 }
    let attempts := attempts.insert key window
    if limit ≤ window.attempts then (false, attempts) else openWindows now scopes attempts

def countAttempt (attempts : Map (NetworkId × DeviceId) AccessWindow) (key : NetworkId × DeviceId) :
    Map (NetworkId × DeviceId) AccessWindow :=
  match attempts.lookup key with
  | some window => attempts.insert key { window with attempts := window.attempts + 1 }
  | none => attempts

def allowAccessAttempt (actor : DeviceId) (network : NetworkId) (now : Time) (s : Service) : Bool × Service :=
  let attempts := s.accessAttempts.eraseIf fun _ window => minute ≤ now - window.start
  if 4092 < attempts.size then (false, { s with accessAttempts := attempts })
  else
    let keys := [(network, actor), (0, actor), (network, 0), (0, 0)]
    match openWindows now (keys.zip [5, 10, 20, 40]) attempts with
    | (false, attempts) => (false, { s with accessAttempts := attempts })
    | (true, attempts) => (true, { s with accessAttempts := keys.foldl countAttempt attempts })

/-! ## The actions -/

section
variable (crypto : Crypto) (inputs : Inputs) (actor : DeviceId) (q : AccessRequest) (nowMs : ℤ)

/-- The body of the loop of `device_revoke`: leave one network. -/
def revokeFrom (network : NetworkRecord) : Call (List RoutedPeerStateChange) := do
  let _ ← write fun db => db.removeMember network.id q.deviceId
  advanceKeyEpoch network.id
  let revision ← advanceRevision network.id
  let updates ← Action.query fun s => s.changesForMembers network.id revision
  pure (updates ++ [{ recipientDeviceId := q.deviceId, state := none, revocation := ⟨network.id, revision⟩ }])

def deviceRevoke : Call AccessOutcome := do
  let account ← Action.gets fun s => s.store.accountForDevice actor
  let target ← Action.gets fun s => s.store.accountForDevice q.deviceId
  match account, target with
  | some account, some target =>
    if account.owner ≠ actor ∨ target.id ≠ account.id ∨ q.deviceId = actor then pure (.fail q .permissionDenied)
    else do
      let networks ← read fun db => db.listNetworksForDevice q.deviceId
      if networks.any fun n => n.ownerDeviceId = q.deviceId then pure (.fail q .conflict)
      else do
        write fun db => db.revokeAccountDevice account.id q.deviceId
        let changes ← Action.collect (revokeFrom q) networks
        Action.modify fun s => { s with activeKeys := s.activeKeys.erase q.deviceId }
        pure { result := { action := q.action, accountId := account.id }, changes }
  | _, _ => pure (.fail q .permissionDenied)

def networkCreateProtected : Call AccessOutcome := do
  Action.lift (requireCreateRequest ⟨q.text⟩)
  let allowed ← Action.update (allowAccessAttempt actor 0 inputs.now)
  if ¬ allowed then pure (.fail q .limitReached)
  else do
    let salt ← Action.lift inputs.nonce
    let verifier ← Action.lift (protectPassword crypto salt q.secret q.requireApproval)
    let created ← createNetworkLocked inputs actor q.text nowMs (some verifier)
    pure { result := { action := q.action, code := created.result.code, networkId := created.result.networkId },
           changes := created.peerChanges, events := created.events }

/-- The result of a join made for an access request. -/
def joined (join : NetworkOperationOutcome) : AccessOutcome :=
  { result := { action := q.action, code := join.result.code, networkId := q.networkId },
    changes := join.peerChanges, events := join.events }

def inviteIssue : Call AccessOutcome :=
  if q.lifetimeSeconds < 60 ∨ 86400 < q.lifetimeSeconds ∨ q.maxUses = 0 ∨ 100 < q.maxUses then
    pure (.failAt q .invalidRequest)
  else do
    let nonce ← Action.lift inputs.nonce
    let code := randomAccessCode nonce
    write fun db => db.issueInviteLink q.networkId (accessDigest crypto code) nowMs
      (nowMs + q.lifetimeSeconds.toNat * 1000) q.maxUses
    pure { result := { action := q.action, networkId := q.networkId, secret := makeInviteLink q.networkId code,
                       text := makeInviteCode q.networkId code } }

def inviteRedeem (network : Option NetworkRecord) : Call AccessOutcome :=
  if network.isNone ∨ q.secret.length ≠ 40 then pure (.failAt q .permissionDenied)
  else do
    let lease ← read fun db => db.findVirtualIpv4Lease q.networkId actor
    if lease.isSome then pure (.failAt q .alreadyExists)
    else do
      let full ← read fun db => networkLimitReached db actor
      let members ← read fun db => db.listMembers q.networkId
      if full ∨ maxNetworkPeerEntries + 1 ≤ members.length then pure (.failAt q .limitReached)
      else do
        let redeemed ← write fun db => db.redeemInviteLink q.networkId (accessDigest crypto q.secret) actor nowMs
        if ¬ redeemed then pure (.failAt q .permissionDenied)
        else do
          let join ← joinNetworkLocked inputs actor q.networkId nowMs false
          pure (joined q join)

/-- `invite_issue`, `invite_redeem` and `invite_revoke`. -/
def inviteAction : Call AccessOutcome := do
  let allowed ← Action.update (allowAccessAttempt actor q.networkId inputs.now)
  if ¬ allowed then pure (.failAt q .limitReached)
  else do
    let network ← read fun db => db.findNetwork q.networkId
    if q.action = .inviteRedeem then inviteRedeem crypto inputs actor q nowMs network
    else do
      let manages ← Action.gets fun s => s.canManageNetwork q.networkId actor
      if network.isNone ∨ ¬ manages then pure (.failAt q .permissionDenied)
      else if q.action = .inviteRevoke then do
        write fun db => db.revokeInviteLinks q.networkId
        pure (.failAt q .success)
      else inviteIssue crypto inputs q nowMs

def passwordSet (network : Option NetworkRecord) : Call AccessOutcome := do
  let manages ← Action.gets fun s => s.canManageNetwork q.networkId actor
  if network.isNone ∨ ¬ manages then pure (.failAt q .permissionDenied)
  else if q.secret = [] then do
    write fun db => db.setNetworkPassword q.networkId none
    pure (.failAt q .success)
  else do
    let salt ← Action.lift inputs.nonce
    let verifier ← Action.lift (protectPassword crypto salt q.secret q.requireApproval)
    write fun db => db.setNetworkPassword q.networkId (some verifier)
    pure (.failAt q .success)

def passwordJoin (network : Option NetworkRecord) : Call AccessOutcome := do
  let verifier ← Action.gets fun s => s.store.networkPassword q.networkId
  let isMatch ← Action.lift (passwordMatches crypto q.secret (verifier.getD {}))
  if network.isNone ∨ verifier.isNone ∨ ¬ isMatch then pure (.failAt q .permissionDenied)
  else do
    let join ← joinNetworkLocked inputs actor q.networkId nowMs true
    pure (joined q join)

/-- `password_set` and `password_join`. -/
def passwordAction : Call AccessOutcome := do
  let allowed ← Action.update (allowAccessAttempt actor q.networkId inputs.now)
  if ¬ allowed then pure (.failAt q .limitReached)
  else do
    let network ← read fun db => db.findNetwork q.networkId
    if q.action = .passwordSet then passwordSet crypto inputs actor q network
    else passwordJoin crypto inputs actor q nowMs network

/-- The end of the account actions: report the actor's account, if any. -/
def accountReport (account : Option AccountRecord) (secret : Text) : Call AccessOutcome :=
  match account with
  | none => pure { result := { action := q.action, code := .notFound, secret } }
  | some account => do
    let devices ← Action.gets fun s => s.store.listAccountDevices account.id
    pure { result := { action := q.action, accountId := account.id, text := account.name, secret, devices } }

def accountCreate (account : Option AccountRecord) : Call AccessOutcome :=
  if account.isSome then pure (.fail q .alreadyExists)
  else if q.text = [] then pure (.fail q .invalidRequest)
  else do
    let id ← Action.lift inputs.nonce
    write fun db => db.createAccount { id, owner := actor, name := q.text } nowMs
    let account ← Action.gets fun s => s.store.accountForDevice actor
    accountReport q account []

def enrollmentIssue (account : Option AccountRecord) : Call AccessOutcome :=
  match account with
  | none => pure (.fail q .permissionDenied)
  | some account =>
    if account.owner ≠ actor then pure (.fail q .permissionDenied)
    else do
      let nonce ← Action.lift inputs.nonce
      let secret := randomAccessCode nonce
      write fun db => db.issueEnrollment account.id (accessDigest crypto secret) (nowMs + 300000)
      accountReport q (some account) secret

def deviceEnroll : Call AccessOutcome :=
  if q.secret.length ≠ 40 then pure (.fail q .permissionDenied)
  else do
    let enrolled ← write fun db => db.enrollDevice (accessDigest crypto q.secret) actor q.text nowMs
    if ¬ enrolled then pure (.fail q .permissionDenied)
    else do
      let account ← Action.gets fun s => s.store.accountForDevice actor
      accountReport q account []

def accessAction : Call AccessOutcome := do
  let allowed ← Action.gets fun s => s.deviceAllowed actor
  if ¬ allowed then pure (.fail q .permissionDenied)
  else do
    write fun db => db.recordDevice actor nowMs
    let account ← Action.gets fun s => s.store.accountForDevice actor
    match q.action with
    | .deviceRevoke => deviceRevoke actor q
    | .networkCreateProtected => networkCreateProtected crypto inputs actor q nowMs
    | .inviteIssue | .inviteRedeem | .inviteRevoke => inviteAction crypto inputs actor q nowMs
    | .passwordSet | .passwordJoin => passwordAction crypto inputs actor q nowMs
    | .accountCreate => accountCreate inputs actor q nowMs account
    | .accountStatus => accountReport q account []
    | .enrollmentIssue => enrollmentIssue crypto inputs actor q nowMs account
    | .deviceEnroll => deviceEnroll crypto actor q nowMs

def accessAudit (code : NetworkResultCode) (s : Service) : Service :=
  match accessAuditKind q.action with
  | none => s
  | some kind =>
    s.auditLocked kind actor (if q.deviceId = 0 then actor else q.deviceId) q.networkId code nowMs inputs.auditNow

def accessRequest : Call AccessOutcome := do
  Action.lift (requireActorAndTime actor nowMs)
  Action.lift (requireAccessRequest q)
  let out ← Action.tryCatch (accessAction crypto inputs actor q nowMs) fun e => do
    Action.modify (accessAudit inputs actor q nowMs .success)
    Action.throw e
  Action.modify (accessAudit inputs actor q nowMs out.result.code)
  pure out

end

end Service

end LanLink
