import LanLink.Storage.Schema
/-!
# The store

The operations of `RelayStore`. An operation returns its result and the new
database or throws; `BEGIN IMMEDIATE` without `COMMIT` rolls back, so an
operation that throws leaves the database as it was, and one that returns
`false` early returns the database it started from. SQLite never fails by
itself. Queries with `ORDER BY` sort by the same columns.
-/
open LanLink.Lib

namespace LanLink

def requireDeviceId (d : DeviceId) : Except Exn Unit := check (d ≠ 0) (.invalidArgument "device id must not be zero")

def requireNetworkId (n : NetworkId) : Except Exn Unit := check (n ≠ 0) (.invalidArgument "network id must not be zero")

def requireTimestamp (t : ℤ) : Except Exn Unit := check (0 ≤ t) (.invalidArgument "timestamp must not be negative")

def requireNetworkName (name : Text) : Except Exn Unit := do
  check (name ≠ [] ∧ name.length ≤ 128) (.invalidArgument "network name must contain 1 to 128 bytes")
  check (name.all fun c => !(c < 0x20 || c = 0x7f)) (.invalidArgument "network name contains a control character")

/-! ## Queries -/

structure NetworkRecord where
  id : NetworkId
  name : Text
  ownerDeviceId : DeviceId
  createdAtMs : ℤ
  deriving DecidableEq, Repr

structure MembershipRecord where
  deviceId : DeviceId
  role : MembershipRole
  joinedAtMs : ℤ
  deriving DecidableEq, Repr

structure LeaseRecord where
  deviceId : DeviceId
  address : UInt32
  deriving DecidableEq, Repr

structure AccountRecord where
  id : AccountId
  owner : DeviceId
  name : Text
  deriving DecidableEq, Repr

def NetworkRecord.ofRow (row : NetworkId × Network) : NetworkRecord :=
  { id := row.1, name := row.2.name, ownerDeviceId := row.2.ownerDeviceId, createdAtMs := row.2.createdAtMs }

namespace Db

def findDevice (db : Db) (d : DeviceId) : Except Exn (Option Device) := do
  requireDeviceId d
  .ok (db.devices.lookup d)

def findNetwork (db : Db) (n : NetworkId) : Except Exn (Option NetworkRecord) := do
  requireNetworkId n
  .ok ((db.networks.lookup n).map fun network => .ofRow (n, network))

/-- `ORDER BY role DESC, device_id`. -/
def listMembers (db : Db) (n : NetworkId) : Except Exn (List MembershipRecord) := do
  requireNetworkId n
  let rows := db.memberships.rows.filter fun row => row.1.1 = n
  .ok ((rows.map fun row => { deviceId := row.1.2, role := row.2.role, joinedAtMs := row.2.joinedAtMs }).insertionSort
    fun a b => b.role.code < a.role.code ∨ (b.role = a.role ∧ a.deviceId ≤ b.deviceId))

/-- `ORDER BY created_at_ms, network_id`. -/
def listNetworksForDevice (db : Db) (d : DeviceId) : Except Exn (List NetworkRecord) := do
  requireDeviceId d
  let rows := db.networks.rows.filter fun row => (row.1, d) ∈ db.memberships
  .ok ((rows.map .ofRow).insertionSort
    fun a b => a.createdAtMs < b.createdAtMs ∨ (a.createdAtMs = b.createdAtMs ∧ a.id ≤ b.id))

def findSubnet (db : Db) (n : NetworkId) : Except Exn (Option UInt32) := do
  requireNetworkId n
  .ok ((db.subnets.lookup n).map (·.val))

def findVirtualIpv4Lease (db : Db) (n : NetworkId) (d : DeviceId) : Except Exn (Option UInt32) := do
  requireNetworkId n
  requireDeviceId d
  .ok ((db.leases.lookup (n, d)).map (·.val))

/-- `ORDER BY ipv4_address`. -/
def listVirtualIpv4Leases (db : Db) (n : NetworkId) : Except Exn (List LeaseRecord) := do
  requireNetworkId n
  let rows := db.leases.rows.filter fun row => row.1.1 = n
  .ok ((rows.map fun row => { deviceId := row.1.2, address := row.2.val }).insertionSort
    fun a b => a.address ≤ b.address)

def findInvitation (db : Db) (n : NetworkId) (d : DeviceId) : Except Exn (Option ℤ) := do
  requireNetworkId n
  requireDeviceId d
  .ok (db.invitations.lookup (n, d))

def findJoinRequest (db : Db) (n : NetworkId) (d : DeviceId) : Except Exn (Option ℤ) := do
  requireNetworkId n
  requireDeviceId d
  .ok (db.joinRequests.lookup (n, d))

/-- The devices of the rows, `ORDER BY requested_at_ms, device_id`. -/
def listJoinRequestsForNetwork (db : Db) (n : NetworkId) : Except Exn (List DeviceId) := do
  requireNetworkId n
  let rows := db.joinRequests.rows.filter fun row => row.1.1 = n
  .ok ((rows.insertionSort fun a b => a.2 < b.2 ∨ (a.2 = b.2 ∧ a.1.2 ≤ b.1.2)).map (·.1.2))

def networkPassword (db : Db) (n : NetworkId) : Option PasswordVerifier := db.access.lookup n

def deviceRevoked (db : Db) (d : DeviceId) : Bool := (db.accountDevices.lookup d).any (·.revoked)

def accountForDevice (db : Db) (d : DeviceId) : Option AccountRecord :=
  match db.accountDevices.lookup d with
  | some row =>
    if row.revoked then none
    else (db.accounts.lookup row.accountId).map fun a => { id := row.accountId, owner := a.owner, name := a.name }
  | none => none

/-- `ORDER BY device_id LIMIT 64`. -/
def listAccountDevices (db : Db) (account : AccountId) : List AccountDevice :=
  let rows := db.accountDevices.rows.filter fun row => row.2.accountId = account
  (((rows.insertionSort fun a b => a.1 ≤ b.1).map fun row =>
    { deviceId := row.1, label := row.2.label, revoked := row.2.revoked })).take 64

/-- `read_policy`. -/
def networkPolicy (db : Db) (n : NetworkId) : NetworkPolicy := db.policy n

def auditAgeLimit : ℤ := 30 * 24 * 60 * 60 * 1000

def auditEvents (db : Db) (n : NetworkId) (nowMs : ℤ) (limit : ℕ) : Except Exn (List AuditEvent) := do
  check (0 ≤ nowMs ∧ limit ≤ 256) (.invalidArgument "invalid audit query")
  .ok ((db.audit.filter fun e => e.networkId = n && max 0 (nowMs - auditAgeLimit) ≤ e.timestampMs).take limit)

/-! ## Devices and networks -/

/-- The first and last time a device was seen, extended by `t`. -/
def recordDevice (db : Db) (d : DeviceId) (t : ℤ) : Except Exn (Unit × Db) := do
  requireDeviceId d
  requireTimestamp t
  let row := match db.devices.lookup d with
    | some seen => { firstSeenAtMs := min seen.firstSeenAtMs t, lastSeenAtMs := max seen.lastSeenAtMs t }
    | none => { firstSeenAtMs := t, lastSeenAtMs := t }
  .ok ((), { db with devices := db.devices.insert d row })

def createNetwork (db : Db) (n : NetworkId) (network : Network) (password : Option PasswordVerifier) :
    Except Exn (Unit × Db) := do
  requireNetworkId n
  requireNetworkName network.name
  requireDeviceId network.ownerDeviceId
  requireTimestamp network.createdAtMs
  let db ← db.insertNetwork n network
  let db ← db.insertSubnet n
  let (_, db) ← db.insertMembership false n network.ownerDeviceId { role := .owner, joinedAtMs := network.createdAtMs }
  let db ← db.insertLease n network.ownerDeviceId
  match password with
  | none => .ok ((), db)
  | some verifier => do
    check (n ∉ db.access) (constraintFailed "UNIQUE constraint failed: network_access.network_id")
    let db ← db.upsertAccess n verifier
    .ok ((), db)

/-- Deleting a network deletes every row that refers to it; the audit trail
stays. -/
def deleteNetwork (db : Db) (n : NetworkId) : Except Exn (Bool × Db) := do
  requireNetworkId n
  .ok (n ∈ db.networks, { db with
    networks := db.networks.erase n
    memberships := db.memberships.eraseIf fun key _ => key.1 = n
    invitations := db.invitations.eraseIf fun key _ => key.1 = n
    joinRequests := db.joinRequests.eraseIf fun key _ => key.1 = n
    subnets := db.subnets.erase n
    leases := db.leases.eraseIf fun key _ => key.1 = n
    access := db.access.erase n
    links := db.links.eraseIf fun _ link => link.networkId = n
    policies := db.policies.erase n })

/-! ## Membership -/

def addMember (db : Db) (n : NetworkId) (d : DeviceId) (joinedAtMs : ℤ) : Except Exn (Bool × Db) := do
  requireNetworkId n
  requireDeviceId d
  requireTimestamp joinedAtMs
  let (inserted, db') ← db.insertMembership true n d { role := .member, joinedAtMs }
  if inserted then do
    let db' ← db'.insertLease n d
    .ok (true, db')
  else .ok (false, db)

/-- The edits `remove_member` makes to a policy, before the revision. -/
def pruneMember (d : DeviceId) (p : NetworkPolicy) : NetworkPolicy :=
  { p with
    hubs := p.hubs.filter fun hub => hub ≠ d
    members := p.members.filter fun m => !(m.device = d && m.role ≠ .restricted)
    gateways := p.gateways.filter fun g => g.device ≠ d
    routes := p.routes.filter fun r => r.gateway ≠ d
    rules := p.rules.filter fun r => !(r.first.device = d || r.second.device = d) }

/-- The policy part of `remove_member`. -/
def prunePolicy (db : Db) (n : NetworkId) (d : DeviceId) : Except Exn Db := do
  let previous := db.networkPolicy n
  let policy := pruneMember d previous
  if policy = previous then .ok db
  else do
    check (policy.revision ≠ uint64Max) (.overflowError "policy revision exhausted")
    let policy := { policy with revision := policy.revision + 1 }
    if h : Encodable policy then
      -- UPDATE: changes nothing where there is no document
      if n ∈ db.policies then .ok { db with policies := db.policies.insert n ⟨policy, h⟩ } else .ok db
    else .error invalidPolicy

def removeMember (db : Db) (n : NetworkId) (d : DeviceId) : Except Exn (Bool × Db) := do
  requireNetworkId n
  requireDeviceId d
  if (db.memberships.lookup (n, d)).any (·.role = .member) then do
    let db ← (db.deleteMembership n d).prunePolicy n d
    .ok (true, db)
  else .ok (false, db)

def addInvitation (db : Db) (n : NetworkId) (d : DeviceId) (invitedAtMs : ℤ) : Except Exn (Bool × Db) := do
  requireNetworkId n
  requireDeviceId d
  requireTimestamp invitedAtMs
  if (n, d) ∈ db.memberships ∨ (n, d) ∈ db.joinRequests then .ok (false, db)
  else db.insertInvitation false n d invitedAtMs

def removeInvitation (db : Db) (n : NetworkId) (d : DeviceId) : Except Exn (Bool × Db) := do
  requireNetworkId n
  requireDeviceId d
  .ok ((n, d) ∈ db.invitations, { db with invitations := db.invitations.erase (n, d) })

def addJoinRequest (db : Db) (n : NetworkId) (d : DeviceId) (requestedAtMs : ℤ) : Except Exn (Bool × Db) := do
  requireNetworkId n
  requireDeviceId d
  requireTimestamp requestedAtMs
  if (n, d) ∈ db.memberships ∨ (n, d) ∈ db.invitations then .ok (false, db)
  else db.insertJoinRequest n d requestedAtMs

def removeJoinRequest (db : Db) (n : NetworkId) (d : DeviceId) : Except Exn (Bool × Db) := do
  requireNetworkId n
  requireDeviceId d
  .ok ((n, d) ∈ db.joinRequests, { db with joinRequests := db.joinRequests.erase (n, d) })

/-! ## Invitation links and passwords -/

def issueInviteLink (db : Db) (n : NetworkId) (digest : Digest) (nowMs expiresMs : ℤ) (maxUses : UInt16) :
    Except Exn (Unit × Db) := do
  check (nowMs < expiresMs ∧ expiresMs - nowMs ≤ 86400000 ∧ maxUses ≠ 0 ∧ maxUses ≤ 100)
    (.invalidArgument "invalid invitation policy")
  let links := db.links.eraseIf fun _ link => link.expiresMs ≤ nowMs || link.remaining = 0
  check ((links.rows.filter fun row => row.2.networkId = n).length < 64) (.lengthError "invitation limit reached")
  check (digest ∉ links) (constraintFailed "UNIQUE constraint failed: invitation_links.digest")
  check (n ∈ db.networks) foreignKeyFailed
  .ok ((), { db with links := links.insert digest { networkId := n, expiresMs, remaining := maxUses.toNat } })

/-- The link of `digest` if it belongs to the network, has not expired and has
uses left. -/
def liveLink (db : Db) (n : NetworkId) (digest : Digest) (nowMs : ℤ) : Option InvitationLink :=
  (db.links.lookup digest).filter fun link => link.networkId = n && nowMs < link.expiresMs && 0 < link.remaining

def redeemInviteLink (db : Db) (n : NetworkId) (digest : Digest) (actor : DeviceId) (nowMs : ℤ) :
    Except Exn (Bool × Db) := do
  match db.liveLink n digest nowMs with
  | none => .ok (false, db)
  | some link =>
    let db := { db with joinRequests := db.joinRequests.erase (n, actor) }
    let (_, db) ← db.insertInvitation true n actor nowMs
    .ok (true, { db with links := db.links.insert digest { link with remaining := link.remaining - 1 } })

def revokeInviteLinks (db : Db) (n : NetworkId) : Except Exn (Unit × Db) :=
  .ok ((), { db with links := db.links.eraseIf fun _ link => link.networkId = n })

def setNetworkPassword (db : Db) (n : NetworkId) : Option PasswordVerifier → Except Exn (Unit × Db)
  | none => .ok ((), { db with access := db.access.erase n })
  | some verifier => do
    let db ← db.upsertAccess n verifier
    .ok ((), db)

/-! ## Accounts -/

def createAccount (db : Db) (account : AccountRecord) (nowMs : ℤ) : Except Exn (Unit × Db) := do
  requireDeviceId account.id
  requireDeviceId account.owner
  requireTimestamp nowMs
  check (account.name ≠ [] ∧ account.name.length ≤ 128) (.invalidArgument "invalid account name")
  check (1 ≤ sqlLength account.name ∧ sqlLength account.name ≤ 128)
    (constraintFailed "CHECK constraint failed: length(name) BETWEEN 1 AND 128")
  check (account.id ∉ db.accounts) (constraintFailed "UNIQUE constraint failed: accounts.account_id")
  check (db.accounts.rows.all fun row => row.2.owner ≠ account.owner)
    (constraintFailed "UNIQUE constraint failed: accounts.owner")
  check (account.owner ∈ db.devices) foreignKeyFailed
  check (account.owner ∉ db.accountDevices) (constraintFailed "UNIQUE constraint failed: account_devices.device_id")
  .ok ((), { db with
    accounts := db.accounts.insert account.id { owner := account.owner, name := account.name }
    accountDevices := db.accountDevices.insert account.owner
      { accountId := account.id, label := account.name, revoked := false } })

def issueEnrollment (db : Db) (account : AccountId) (digest : Digest) (expiresMs : ℤ) : Except Exn (Unit × Db) := do
  check (db.enrollments.rows.all fun row => row.1 = account || row.2.digest ≠ digest)
    (constraintFailed "UNIQUE constraint failed: device_enrollment.digest")
  check (account ∈ db.accounts) foreignKeyFailed
  .ok ((), { db with enrollments := db.enrollments.insert account { digest, expiresMs } })

/-- The row a code was issued in, while it is valid. -/
def liveEnrollment (db : Db) (digest : Digest) (nowMs : ℤ) : Option AccountId :=
  (db.enrollments.rows.find? fun row => row.2.digest = digest && nowMs < row.2.expiresMs).map (·.1)

def enrollDevice (db : Db) (digest : Digest) (device : DeviceId) (label : Text) (nowMs : ℤ) :
    Except Exn (Bool × Db) := do
  requireDeviceId device
  requireTimestamp nowMs
  check (label ≠ [] ∧ label.length ≤ 128) (.invalidArgument "invalid device label")
  match db.liveEnrollment digest nowMs with
  | none => .ok (false, db)
  | some account =>
    if (db.accountDevices.lookup device).any fun row => row.accountId ≠ account || !row.revoked then .ok (false, db)
    else if 64 ≤ (db.accountDevices.rows.filter fun row => row.2.accountId = account).length then .ok (false, db)
    else do
      check (device ∈ db.devices ∧ account ∈ db.accounts) foreignKeyFailed
      .ok (true, { db with
        accountDevices := db.accountDevices.insert device { accountId := account, label, revoked := false }
        enrollments := db.enrollments.eraseIf fun _ row => row.digest = digest })

def revokeAccountDevice (db : Db) (account : AccountId) (device : DeviceId) : Except Exn (Unit × Db) :=
  match db.accountDevices.lookup device with
  | some row =>
    if row.accountId = account && db.accounts.rows.all fun a => a.2.owner ≠ device then
      .ok ((), { db with accountDevices := db.accountDevices.insert device { row with revoked := true } })
    else .ok ((), db)
  | none => .ok ((), db)

/-! ## Policies and the audit trail -/

/-- The first `limit` elements satisfying `p`, and everything else. -/
def keepFirst (p : AuditEvent → Bool) : ℕ → List AuditEvent → List AuditEvent
  | _, [] => []
  | limit, e :: events =>
    if p e then
      match limit with
      | 0 => keepFirst p 0 events
      | limit + 1 => e :: keepFirst p limit events
    else e :: keepFirst p limit events

/-- Append, then keep 256 events of the network, none older than thirty days
before this one, and 10000 events in all. -/
def appendAuditLocked (db : Db) (e : AuditEvent) : Except Exn Db := do
  requireAuditEvent e
  check (db.auditSequence < 2 ^ 63 - 1)
    (.runtimeError "executing SQLite statement failed (13): database or disk is full")
  let events := { e with sequence := db.auditSequence + 1 } :: db.audit
  let events := keepFirst (fun x => x.networkId = e.networkId) 256 events
  let events := events.filter fun x => max 0 ((e.timestampMs : ℤ) - auditAgeLimit) ≤ x.timestampMs
  .ok { db with audit := events.take 10000, auditSequence := db.auditSequence + 1 }

def appendAudit (db : Db) (e : AuditEvent) : Except Exn (Unit × Db) := do
  let db ← db.appendAuditLocked e
  .ok ((), db)

def saveNetworkPolicy (db : Db) (n : NetworkId) (policy : NetworkPolicy) (expected : UInt64)
    (audit : Option AuditEvent) : Except Exn (Bool × Db) :=
  if h : Encodable policy then do
    check (expected ≠ uint64Max ∧ policy.revision = expected + 1) (.invalidArgument "invalid policy revision")
    if (db.networkPolicy n).revision ≠ expected then .ok (false, db)
    else do
      check (n ∈ db.networks) foreignKeyFailed
      let db := { db with policies := db.policies.insert n ⟨policy, h⟩ }
      match audit with
      | none => .ok (true, db)
      | some e => do
        let db ← db.appendAuditLocked e
        .ok (true, db)
  else .error invalidPolicy

end Db

end LanLink
