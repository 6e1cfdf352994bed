import LanLink.Lib.Maps
import LanLink.Protocol.Messages
/-!
# The relay database

The tables of `relay_store.cpp` at schema version 8. A table is a map from its
primary key, column `CHECK`s are subtypes or checks of the inserting statement,
and every statement that can violate a constraint returns `Except`: SQLite
checks `BEFORE` triggers, then `CHECK` and uniqueness, then foreign keys, and an
error undoes the statement. A constraint that only an identifier of the wrong
length could violate is left out: identifiers have a fixed length here.
-/
open LanLink.Lib

namespace LanLink

abbrev AccountId := BitVec 256
abbrev Digest := BitVec 256

inductive MembershipRole
  | member
  | owner
  deriving DecidableEq, Repr

def MembershipRole.code : MembershipRole → ℕ
  | .member => 0
  | .owner => 1

def virtualIpv4PoolFirst : UInt32 := 0x0a400000
def virtualIpv4PoolEnd : UInt32 := 0x0a800000
def virtualIpv4SubnetSize : UInt32 := 256
def virtualIpv4PrefixLength : UInt8 := 24

/-- `network_subnets.subnet_address`, with its `CHECK`. -/
def SubnetAddress : Type :=
  {a : UInt32 // virtualIpv4PoolFirst ≤ a ∧ a < virtualIpv4PoolEnd ∧ a % virtualIpv4SubnetSize = 0}

/-- `virtual_ipv4_leases.ipv4_address`, with its `CHECK`. -/
def LeaseAddress : Type :=
  {a : UInt32 // virtualIpv4PoolFirst ≤ a ∧ a < virtualIpv4PoolEnd ∧
    1 ≤ a % virtualIpv4SubnetSize ∧ a % virtualIpv4SubnetSize ≤ 254}

instance : DecidableEq SubnetAddress := inferInstanceAs (DecidableEq (Subtype _))
instance : DecidableEq LeaseAddress := inferInstanceAs (DecidableEq (Subtype _))

structure Device where
  firstSeenAtMs : ℤ
  lastSeenAtMs : ℤ
  deriving DecidableEq, Repr

structure Network where
  name : Text
  ownerDeviceId : DeviceId
  createdAtMs : ℤ
  deriving DecidableEq, Repr

structure Membership where
  role : MembershipRole
  joinedAtMs : ℤ
  deriving DecidableEq, Repr

structure Account where
  owner : DeviceId
  name : Text
  deriving DecidableEq, Repr

structure AccountDeviceRow where
  accountId : AccountId
  label : Text
  revoked : Bool
  deriving DecidableEq, Repr

structure Enrollment where
  digest : Digest
  expiresMs : ℤ
  deriving DecidableEq, Repr

structure InvitationLink where
  networkId : NetworkId
  expiresMs : ℤ
  remaining : ℕ
  deriving DecidableEq, Repr

/-- A stored policy: only encodable policies are written, and
`decode_network_policy` reads the same policy back (`decode_policyBytes`). -/
structure PolicyDocument where
  policy : NetworkPolicy
  encodable : Encodable policy
  deriving DecidableEq

/-- The blob in the `document` column. -/
def PolicyDocument.bytes (d : PolicyDocument) : Bytes := policyBytes d.policy

/-- The tables that say who belongs to what. -/
structure Tables where
  networks : Map NetworkId Network := ∅
  memberships : Map (NetworkId × DeviceId) Membership := ∅
  invitations : Map (NetworkId × DeviceId) ℤ := ∅
  joinRequests : Map (NetworkId × DeviceId) ℤ := ∅
  subnets : Map NetworkId SubnetAddress := ∅
  leases : Map (NetworkId × DeviceId) LeaseAddress := ∅
  accounts : Map AccountId Account := ∅
  accountDevices : Map DeviceId AccountDeviceRow := ∅
  enrollments : Map AccountId Enrollment := ∅
  access : Map NetworkId PasswordVerifier := ∅
  links : Map Digest InvitationLink := ∅
  policies : Map NetworkId PolicyDocument := ∅

/-- The database: the tables above, the devices seen so far and the audit
trail, newest event first. -/
structure Db extends Tables where
  devices : Map DeviceId Device := ∅
  audit : List AuditEvent := []
  auditSequence : ℕ := 0

/-- The device in `networks.owner_device_id`. -/
def Tables.owner (t : Tables) (n : NetworkId) : Option DeviceId := (t.networks.lookup n).map (·.ownerDeviceId)

/-- A network's policy; the default one where there is no document. -/
def Tables.policy (t : Tables) (n : NetworkId) : NetworkPolicy :=
  match t.policies.lookup n with
  | some document => document.policy
  | none => {}

/-! ## Statements -/

/-- A constraint violation, as `throw_sqlite` reports it. -/
def constraintFailed (detail : String) : Exn :=
  .runtimeError ("executing SQLite statement failed (19): " ++ detail)

def foreignKeyFailed : Exn := constraintFailed "FOREIGN KEY constraint failed"

/-- `length` of a `TEXT` value: characters before the first NUL, where the
continuation bytes after a lead byte belong to its character. -/
def sqlLengthFrom (inCharacter : Bool) : Text → ℕ
  | [] => 0
  | b :: rest =>
    if b = 0 then 0
    else if inCharacter && continuationByte b then sqlLengthFrom true rest
    else 1 + sqlLengthFrom (0xc0 ≤ b) rest

def sqlLength (t : Text) : ℕ := sqlLengthFrom false t

namespace Db

def insertNetwork (db : Db) (n : NetworkId) (network : Network) : Except Exn Db := do
  check (1 ≤ sqlLength network.name ∧ sqlLength network.name ≤ 128)
    (constraintFailed "CHECK constraint failed: length(name) BETWEEN 1 AND 128")
  check (0 ≤ network.createdAtMs) (constraintFailed "CHECK constraint failed: created_at_ms >= 0")
  check (n ∉ db.networks) (constraintFailed "UNIQUE constraint failed: networks.network_id")
  check (network.ownerDeviceId ∈ db.devices) foreignKeyFailed
  .ok { db with networks := db.networks.insert n network }

/-- `memberships_single_owner_idx` already has an entry for the network. -/
def hasOwnerRow (db : Db) (n : NetworkId) : Bool :=
  db.memberships.rows.any fun row => row.1.1 = n && row.2.role = .owner

/-- `INSERT INTO memberships`, or `INSERT OR IGNORE` when `orIgnore`: then a
row that breaks a `CHECK` or is not unique is skipped. The trigger
`membership_clears_pending_access` empties the other two tables for the pair. -/
def insertMembership (db : Db) (orIgnore : Bool) (n : NetworkId) (d : DeviceId) (row : Membership) :
    Except Exn (Bool × Db) := do
  check (row.role = .owner → db.owner n = some d)
    (constraintFailed "owner membership does not match network owner")
  if row.joinedAtMs < 0 ∨ (n, d) ∈ db.memberships ∨ (row.role = .owner ∧ db.hasOwnerRow n) then
    if orIgnore then .ok (false, db)
    else .error (constraintFailed "UNIQUE constraint failed: memberships.network_id, memberships.device_id")
  else do
    check (n ∈ db.networks ∧ d ∈ db.devices) foreignKeyFailed
    .ok (true, { db with
      memberships := db.memberships.insert (n, d) row
      invitations := db.invitations.erase (n, d)
      joinRequests := db.joinRequests.erase (n, d) })

/-- The triggers before `INSERT INTO network_invitations`, then the insert. An
existing row is kept, and `orIgnore` also skips a row that breaks the `CHECK`. -/
def insertInvitation (db : Db) (orIgnore : Bool) (n : NetworkId) (d : DeviceId) (invitedAtMs : ℤ) :
    Except Exn (Bool × Db) := do
  check ((n, d) ∉ db.memberships) (constraintFailed "network member cannot have an invitation")
  check ((n, d) ∉ db.joinRequests) (constraintFailed "join request already exists for invitation")
  if (n, d) ∈ db.invitations ∨ (orIgnore ∧ invitedAtMs < 0) then .ok (false, db)
  else do
    check (0 ≤ invitedAtMs) (constraintFailed "CHECK constraint failed: invited_at_ms >= 0")
    check (n ∈ db.networks ∧ d ∈ db.devices) foreignKeyFailed
    .ok (true, { db with invitations := db.invitations.insert (n, d) invitedAtMs })

/-- The triggers before `INSERT INTO network_join_requests`, then the insert;
an existing row is kept. -/
def insertJoinRequest (db : Db) (n : NetworkId) (d : DeviceId) (requestedAtMs : ℤ) : Except Exn (Bool × Db) := do
  check ((n, d) ∉ db.memberships) (constraintFailed "network member cannot have a join request")
  check ((n, d) ∉ db.invitations) (constraintFailed "invitation already exists for join request")
  if (n, d) ∈ db.joinRequests then .ok (false, db)
  else do
    check (0 ≤ requestedAtMs) (constraintFailed "CHECK constraint failed: requested_at_ms >= 0")
    check (n ∈ db.networks ∧ d ∈ db.devices) foreignKeyFailed
    .ok (true, { db with joinRequests := db.joinRequests.insert (n, d) requestedAtMs })

/-- Walk the occupied addresses upwards: the first candidate, a multiple of
`stride` from the start, that is not among them. -/
def firstFree (stride candidate : UInt32) : List UInt32 → UInt32
  | [] => candidate
  | address :: occupied =>
    if candidate < address then candidate
    else if address = candidate then firstFree stride (candidate + stride) occupied
    else firstFree stride candidate occupied

def insertSubnet (db : Db) (n : NetworkId) : Except Exn Db := do
  let occupied := (db.subnets.rows.map (·.2.val)).insertionSort (· ≤ ·)
  let candidate := firstFree virtualIpv4SubnetSize virtualIpv4PoolFirst occupied
  check (candidate < virtualIpv4PoolEnd) (.lengthError "virtual IPv4 subnet pool is exhausted")
  if h : virtualIpv4PoolFirst ≤ candidate ∧ candidate < virtualIpv4PoolEnd ∧ candidate % virtualIpv4SubnetSize = 0 then do
    check (n ∉ db.subnets) (constraintFailed "UNIQUE constraint failed: network_subnets.network_id")
    check (db.subnets.rows.all fun row => row.2.val ≠ candidate)
      (constraintFailed "UNIQUE constraint failed: network_subnets.subnet_address")
    check (n ∈ db.networks) foreignKeyFailed
    .ok { db with subnets := db.subnets.insert n ⟨candidate, h⟩ }
  else .error (constraintFailed "CHECK constraint failed: subnet_address")

def insertLease (db : Db) (n : NetworkId) (d : DeviceId) : Except Exn Db := do
  match db.subnets.lookup n with
  | none => .error (.runtimeError "virtual IPv4 subnet is missing")
  | some base =>
    let occupied := ((db.leases.rows.filter fun row => row.1.1 = n).map (·.2.val)).insertionSort (· ≤ ·)
    let candidate := firstFree 1 (base.val + 1) occupied
    check (candidate < base.val + virtualIpv4SubnetSize - 1)
      (.lengthError "virtual IPv4 subnet has no available host addresses")
    -- virtual_ipv4_subnet_insert_guard
    check (base.val = candidate - candidate % 256)
      (constraintFailed "virtual IPv4 address is outside network subnet")
    if h : virtualIpv4PoolFirst ≤ candidate ∧ candidate < virtualIpv4PoolEnd ∧
        1 ≤ candidate % virtualIpv4SubnetSize ∧ candidate % virtualIpv4SubnetSize ≤ 254 then do
      check ((n, d) ∉ db.leases)
        (constraintFailed "UNIQUE constraint failed: virtual_ipv4_leases.network_id, virtual_ipv4_leases.device_id")
      check (db.leases.rows.all fun row => row.2.val ≠ candidate)
        (constraintFailed "UNIQUE constraint failed: virtual_ipv4_leases.ipv4_address")
      check ((n, d) ∈ db.memberships) foreignKeyFailed
      .ok { db with leases := db.leases.insert (n, d) ⟨candidate, h⟩ }
    else .error (constraintFailed "CHECK constraint failed: ipv4_address")

/-- `INSERT INTO network_access`, replacing the row of the network when there
is one. -/
def upsertAccess (db : Db) (n : NetworkId) (verifier : PasswordVerifier) : Except Exn Db := do
  check (n ∈ db.networks) foreignKeyFailed
  .ok { db with access := db.access.insert n verifier }

def deleteMembership (db : Db) (n : NetworkId) (d : DeviceId) : Db :=
  { db with memberships := db.memberships.erase (n, d), leases := db.leases.erase (n, d) }

end Db

end LanLink
