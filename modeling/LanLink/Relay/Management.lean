import LanLink.Relay.NetworkService
/-!
# Policy management

`NetworkService::manage_network` and `set_management_capable`. The checks of an
edit read the state and write nothing, so they are one function, `editPolicy`,
that returns the policy to store or the code of the check that failed.
-/
open LanLink.Lib

namespace LanLink

structure ManagementOutcome where
  result : ManagementResult
  changes : List RoutedPeerStateChange := []
  deriving DecidableEq, Repr

namespace Service

def setManagementCapable (actor : DeviceId) (capable : Bool) : Call (List RoutedPeerStateChange) := do
  Action.modify fun s => { s with
    managementCapable := if capable then insert actor s.managementCapable else s.managementCapable.erase actor }
  let networks ← read fun db => db.listNetworksForDevice actor
  Action.collect (fun network => do
    let policy ← Action.gets fun s => s.store.networkPolicy network.id
    if policy.managed then advancedChanges network.id else pure []) networks

/-! ## The checks of an edit -/

section
variable (s : Service) (owner actor : DeviceId) (q : ManagementRequest) (current : NetworkPolicy)

/-- The zero device stands for all members. -/
def isMember (d : DeviceId) : Bool := d = 0 || decide ((q.networkId, d) ∈ s.store.leases)

/-- What the actor asks to store: its own policy, or the current one with the
actor as an unapproved gateway. -/
def requestedPolicy : Except NetworkResultCode NetworkPolicy :=
  if q.action = .requestGateway then do
    check (current.managed ∧ policyRole current actor ≠ .restricted) .permissionDenied
    check (q.policy.revision = current.revision) .conflict
    check (current.gateways.all fun g => g.device ≠ actor) .alreadyExists
    check (current.gateways.length < 16) .limitReached
    .ok { current with gateways := current.gateways ++ [{ device := actor, approved := false }] }
  else do
    check (s.canManageNetwork q.networkId actor) .permissionDenied
    .ok q.policy

def checkGateway (next : NetworkPolicy) (g : GatewayNode) : Except NetworkResultCode Unit := do
  check (s.isMember q g.device ∧ policyRole next g.device ≠ .restricted) .targetNotFound
  check (current.gateways.any (fun old => old.device = g.device) ∨
    (q.action = .requestGateway ∧ g.device = actor ∧ ¬ g.approved)) .permissionDenied

def checkAssignment (m : MemberPolicy) : Except NetworkResultCode Unit :=
  check ((s.isMember q m.device ∨ (m.role = .restricted ∧ m.device ∈ s.store.devices)) ∧
    (m.device = owner → m.role = .member)) .invalidRequest

/-- An administrator cannot change, remove or grant roles, including its own. -/
def checkRoles (next : NetworkPolicy) : Except NetworkResultCode Unit :=
  if actor = owner ∨ q.action ≠ .replacePolicy then .ok ()
  else do
    check next.managed .permissionDenied
    check (next.members.all fun m => m.role = policyRole current m.device) .permissionDenied
    check (current.members.all fun m => m.role = policyRole next m.device) .permissionDenied

/-- The entire reserved overlay pool, and every other routed subnet, is
excluded. -/
def checkRoute (r : RoutedSubnet) : Except NetworkResultCode Unit := do
  check (¬ subnetsOverlap r.address r.prefixLength virtualIpv4PoolFirst 10) .conflict
  check (s.isMember q r.gateway) .targetNotFound
  check ((s.store.subnets.lookup q.networkId).all fun subnet =>
    !subnetsOverlap r.address r.prefixLength subnet.val virtualIpv4PrefixLength) .conflict
  check (s.store.networks.rows.all fun other => other.1 = q.networkId ||
    (s.store.networkPolicy other.1).routes.all fun existing =>
      !subnetsOverlap r.address r.prefixLength existing.address existing.prefixLength) .conflict

/-- The policy to store, still with the revision it was based on. -/
def editPolicy : Except NetworkResultCode NetworkPolicy := do
  check (actor ∈ s.managementCapable) .permissionDenied
  let next ← requestedPolicy s actor q current
  check (¬ (next.topology = .hubSpoke ∧ next.hubs = [])) .invalidRequest
  check (q.policy.hubs.all fun hub => s.isMember q hub) .targetNotFound
  check (q.policy.rules.all fun r => s.isMember q r.first.device && s.isMember q r.second.device) .targetNotFound
  next.gateways.forM (checkGateway s actor q current next)
  next.members.forM (checkAssignment s owner q)
  checkRoles owner actor q current next
  next.routes.forM (checkRoute s q)
  check (next.revision = current.revision ∧ next.revision ≠ uint64Max) .conflict
  .ok next

end

/-! ## The operation -/

variable (inputs : Inputs)

def inspectNetwork (actor : DeviceId) (q : ManagementRequest) (nowMs : ℤ) (current : NetworkPolicy) :
    Call ManagementOutcome := do
  let result : ManagementResult := { action := q.action, networkId := q.networkId, policy := current }
  let manages ← Action.gets fun s => s.canManageNetwork q.networkId actor
  if ¬ manages then pure { result }
  else do
    let pending ← read fun db => db.listJoinRequestsForNetwork q.networkId
    let auditEvents ← read fun db => db.auditEvents q.networkId nowMs 64
    let auditWriteFailures ← Action.gets (·.auditWriteFailures)
    pure { result := { result with
      pendingRequests := pending.take maxNetworkPeerEntries, auditEvents, auditWriteFailures } }

def managementAuditKind (action : ManagementAction) : AuditKind :=
  if action = .requestGateway then .gatewayRequest else .policyChange

/-- Store the checked policy under the next revision. -/
def storePolicy (actor : DeviceId) (q : ManagementRequest) (nowMs : ℤ) (current next : NetworkPolicy) :
    Call ManagementOutcome := do
  let result : ManagementResult := { action := q.action, networkId := q.networkId, policy := current }
  let next := { next with revision := next.revision + 1 }
  let event : AuditEvent := { timestampMs := nowMs.toNat, networkId := q.networkId, actor, target := actor,
                              kind := managementAuditKind q.action, policyRevision := next.revision }
  let saved ← write fun db => db.saveNetworkPolicy q.networkId next current.revision (some event)
  if ¬ saved then pure { result := { result with code := .conflict } }
  else do
    advanceKeyEpoch q.networkId
    let changes ← advancedChanges q.networkId
    pure { result := { result with policy := next }, changes }

def manageAction (actor : DeviceId) (q : ManagementRequest) (nowMs : ℤ) : Call ManagementOutcome := do
  let result : ManagementResult := { action := q.action, networkId := q.networkId }
  let network ← read fun db => db.findNetwork q.networkId
  match network with
  | none => pure { result := { result with code := .notFound } }
  | some network => do
    let allowed ← Action.gets fun s => s.deviceAllowed actor
    let lease ← read fun db => db.findVirtualIpv4Lease q.networkId actor
    if ¬ allowed ∨ lease.isNone then pure { result := { result with code := .notMember } }
    else do
      let current ← Action.gets fun s => s.store.networkPolicy q.networkId
      if q.action = .inspect then inspectNetwork actor q nowMs current
      else do
        let edit ← Action.gets fun s => s.editPolicy network.ownerDeviceId actor q current
        match edit with
        | .error code => pure { result := { result with code, policy := current } }
        | .ok next => storePolicy actor q nowMs current next

def manageNetwork (actor : DeviceId) (q : ManagementRequest) (nowMs : ℤ) : Call ManagementOutcome := do
  Action.lift (requireActorAndTime actor nowMs)
  Action.lift (requireManagementRequest q)
  let out ← manageAction actor q nowMs
  if q.action = .inspect ∨ out.result.code = .success then pure out
  else do
    Action.modify fun s => s.auditLocked (managementAuditKind q.action) actor actor q.networkId out.result.code nowMs
      inputs.auditNow out.result.policy.revision
    pure out

end Service

end LanLink
