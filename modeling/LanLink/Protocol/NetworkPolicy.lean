import LanLink.Basic
/-!
# Network policies

The policy document of a network (`network_policy.cpp`): its data, the
predicates that decide traffic and roles, and its wire format. The codec
functions follow the source field by field; `PolicyCodec.lean` proves that
decoding gives back what was encoded.
-/
open LanLink.Lib

namespace LanLink

inductive NetworkTopology
  | mesh
  | hubSpoke
  deriving DecidableEq, Repr

inductive AccessRole
  | member
  | administrator
  | restricted
  deriving DecidableEq, Repr

/-- Zero device and empty group mean all members. -/
structure PolicySubject where
  device : DeviceId := 0
  group : Text := []
  deriving DecidableEq, Repr

structure AccessRule where
  first : PolicySubject := {}
  second : PolicySubject := {}
  allow : Bool := false
  deriving DecidableEq, Repr

/-- The group of members without an assignment. -/
def membersGroup : Text := text "members"

structure MemberPolicy where
  device : DeviceId
  role : AccessRole := .member
  group : Text := membersGroup
  deriving DecidableEq, Repr

structure GatewayNode where
  device : DeviceId
  approved : Bool := false
  deriving DecidableEq, Repr

structure RoutedSubnet where
  gateway : DeviceId
  address : UInt32 := 0
  prefixLength : UInt8 := 24
  group : Text := []
  deriving DecidableEq, Repr

structure NetworkPolicy where
  revision : UInt64 := 0
  managed : Bool := false
  topology : NetworkTopology := .mesh
  hubs : List DeviceId := []
  rules : List AccessRule := []
  groups : List Text := []
  members : List MemberPolicy := []
  gateways : List GatewayNode := []
  routes : List RoutedSubnet := []
  deriving DecidableEq, Repr

/-! ## Subnets -/

/-- `0xffffffffU << (32U - prefix)`. -/
def subnetMask (prefixLength : UInt8) : UInt32 := 0xffffffff <<< (32 - prefixLength.toUInt32)

def subnetContains (subnet : UInt32) (prefixLength : UInt8) (address : UInt32) : Bool :=
  0 < prefixLength && prefixLength ≤ 32 && (address &&& subnetMask prefixLength) = subnet

def subnetsOverlap (a : UInt32) (ap : UInt8) (b : UInt32) (bp : UInt8) : Bool :=
  if ap = 0 ∨ 32 < ap ∨ bp = 0 ∨ 32 < bp then true
  else (a &&& subnetMask (min ap bp)) = (b &&& subnetMask (min ap bp))

def privateRoutedSubnet (a : UInt32) (p : UInt8) : Bool :=
  if p < 8 ∨ 30 < p ∨ ¬ subnetContains a p a then false
  else (8 ≤ p && subnetContains 0x0a000000 8 a) || (12 ≤ p && subnetContains 0xac100000 12 a) ||
    (16 ≤ p && subnetContains 0xc0a80000 16 a)

/-! ## Decisions -/

def policyRole (p : NetworkPolicy) (d : DeviceId) : AccessRole :=
  match p.members.find? (·.device = d) with
  | some m => m.role
  | none => .member

def policyGroup (p : NetworkPolicy) (d : DeviceId) : Text :=
  match p.members.find? (·.device = d) with
  | some m => m.group
  | none => membersGroup

def subjectMatches (p : NetworkPolicy) (s : PolicySubject) (d : DeviceId) : Bool :=
  if s.device ≠ 0 then s.device = d else s.group = [] || s.group = policyGroup p d

/-- The rule applies to the unordered pair. -/
def ruleMatches (p : NetworkPolicy) (a b : DeviceId) (rule : AccessRule) : Bool :=
  (subjectMatches p rule.first a && subjectMatches p rule.second b) ||
    (subjectMatches p rule.first b && subjectMatches p rule.second a)

/-- The loop over the rules: a matching deny ends it, `allowed` carries a
matching allow seen so far. -/
def rulesAllow (p : NetworkPolicy) (a b : DeviceId) : Bool → List AccessRule → Bool
  | allowed, [] => allowed
  | allowed, rule :: rules =>
    if ruleMatches p a b rule then
      if rule.allow then rulesAllow p a b true rules else false
    else rulesAllow p a b allowed rules

def policyAllows (p : NetworkPolicy) (a b : DeviceId) : Bool :=
  if a = b ∨ a = 0 ∨ b = 0 then false
  else if ¬ p.managed then true
  else if p.topology = .hubSpoke ∧ a ∉ p.hubs ∧ b ∉ p.hubs then false
  else rulesAllow p a b false p.rules

def policyFanoutAllows (p : NetworkPolicy) (a b : DeviceId) : Bool :=
  policyAllows p a b && (!p.managed || (policyRole p a ≠ .restricted && policyRole p b ≠ .restricted))

/-- A member may use the route through its gateway. -/
def routeAllows (p : NetworkPolicy) (r : RoutedSubnet) (member : DeviceId) : Bool :=
  p.managed && policyRole p member ≠ .restricted && (r.group = [] || policyGroup p member = r.group) &&
    policyAllows p member r.gateway && p.gateways.any (fun g => g.device = r.gateway && g.approved)

/-! ## Encoding -/

def invalidPolicy : Exn := .invalidArgument "invalid network policy"

/-- The characters `text` accepts. -/
def policyChar (c : UInt8) : Bool :=
  (97 ≤ c && c ≤ 122) || (65 ≤ c && c ≤ 90) || (48 ≤ c && c ≤ 57) || c = 95 || c = 45

def validText (t : Text) : Prop := t.length ≤ 32 ∧ t.all policyChar

instance (t : Text) : Decidable (validText t) := inferInstanceAs (Decidable (_ ∧ _))

/-- The groups an assignment, a rule or a route may name. -/
def NetworkPolicy.groupNames (p : NetworkPolicy) : List Text := membersGroup :: p.groups

/-- What `subject` and the later group check require of a rule's subject. -/
def validSubject (p : NetworkPolicy) (s : PolicySubject) : Prop :=
  (s.device = 0 ∨ s.group = []) ∧ validText s.group ∧ (s.group = [] ∨ s.group ∈ p.groupNames)

instance (p : NetworkPolicy) (s : PolicySubject) : Decidable (validSubject p s) :=
  inferInstanceAs (Decidable (_ ∧ _))

/-- An approved gateway on device `d`. -/
def NetworkPolicy.approves (p : NetworkPolicy) (d : DeviceId) : Prop := ∃ g ∈ p.gateways, g.device = d ∧ g.approved

instance (p : NetworkPolicy) (d : DeviceId) : Decidable (p.approves d) :=
  inferInstanceAs (Decidable (∃ g ∈ p.gateways, g.device = d ∧ g.approved))

/-- Every `require` of `encode_network_policy`. They all throw the same
exception, so their order does not matter. -/
@[mk_iff] structure Encodable (p : NetworkPolicy) : Prop where
  sizes : p.hubs.length ≤ 32 ∧ p.rules.length ≤ 64 ∧ p.groups.length ≤ 16 ∧ p.members.length ≤ 254 ∧
    p.gateways.length ≤ 16 ∧ p.routes.length ≤ 32
  unmanaged : p.managed ∨ (p.topology = .mesh ∧ p.hubs = [] ∧ p.rules = [] ∧ p.groups = [] ∧ p.members = [] ∧
    p.gateways = [] ∧ p.routes = [])
  hubs : 0 ∉ p.hubs ∧ p.hubs.Nodup
  rules : ∀ r ∈ p.rules, validSubject p r.first ∧ validSubject p r.second
  groups : [] ∉ p.groups ∧ membersGroup ∉ p.groups ∧ (∀ g ∈ p.groups, validText g) ∧ p.groups.Nodup
  members : (∀ m ∈ p.members, m.device ≠ 0 ∧ m.group ∈ p.groupNames ∧ validText m.group) ∧
    (p.members.map (·.device)).Nodup
  gateways : (∀ g ∈ p.gateways, g.device ≠ 0) ∧ (p.gateways.map (·.device)).Nodup
  routes : ∀ r ∈ p.routes, privateRoutedSubnet r.address r.prefixLength ∧
    (r.group = [] ∨ r.group ∈ p.groupNames) ∧ p.approves r.gateway ∧ validText r.group
  disjoint : p.routes.Pairwise fun earlier later =>
    ¬ subnetsOverlap later.address later.prefixLength earlier.address earlier.prefixLength

instance (p : NetworkPolicy) : Decidable (Encodable p) := decidable_of_iff' _ (encodable_iff p)

def textBytes (t : Text) : Bytes := beBytes 1 t.length ++ t

def subjectBytes (s : PolicySubject) : Bytes := arrayBytes s.device ++ textBytes s.group

def flagByte (b : Bool) : Bytes := beBytes 1 (if b then 1 else 0)

def NetworkTopology.code : NetworkTopology → ℕ
  | .mesh => 0
  | .hubSpoke => 1

def AccessRole.code : AccessRole → ℕ
  | .member => 0
  | .administrator => 1
  | .restricted => 2

def ruleBytes (r : AccessRule) : Bytes := subjectBytes r.first ++ subjectBytes r.second ++ flagByte r.allow

def memberBytes (m : MemberPolicy) : Bytes := arrayBytes m.device ++ beBytes 1 m.role.code ++ textBytes m.group

def gatewayBytes (g : GatewayNode) : Bytes := arrayBytes g.device ++ flagByte g.approved

def routeBytes (r : RoutedSubnet) : Bytes :=
  arrayBytes r.gateway ++ beBytes 4 r.address.toNat ++ beBytes 1 r.prefixLength.toNat ++ textBytes r.group

/-- What `encode_network_policy` writes. -/
def policyBytes (p : NetworkPolicy) : Bytes :=
  beBytes 1 1 ++ beBytes 8 p.revision.toNat ++ flagByte p.managed ++ beBytes 1 p.topology.code ++
    beBytes 1 p.hubs.length ++ p.hubs.flatMap arrayBytes ++
    beBytes 1 p.rules.length ++ p.rules.flatMap ruleBytes ++
    beBytes 1 p.groups.length ++ p.groups.flatMap textBytes ++
    beBytes 2 p.members.length ++ p.members.flatMap memberBytes ++
    beBytes 1 p.gateways.length ++ p.gateways.flatMap gatewayBytes ++
    beBytes 1 p.routes.length ++ p.routes.flatMap routeBytes

def encodeNetworkPolicy (p : NetworkPolicy) : Except Exn Bytes := do
  check (Encodable p) invalidPolicy
  .ok (policyBytes p)

/-! ## Decoding -/

abbrev PolicyReader := Reader Exn

namespace PolicyReader

/-- `BinaryReader::bytes`. -/
def bytes (n : ℕ) : PolicyReader Bytes := Reader.bytes (.invalidArgument "truncated protocol payload") n

/-- `BinaryReader::get` of an `n`-byte integer. -/
def get (n : ℕ) : PolicyReader ℕ := do
  let bs ← bytes n
  pure (beNat bs)

/-- `BinaryReader::array` of `w / 8` bytes. -/
def array (w : ℕ) : PolicyReader (BitVec w) := do
  let bs ← bytes (w / 8)
  pure (BitVec.ofNat w (beNat bs))

def text : PolicyReader Text := do
  let size ← get 1
  bytes size

def subject : PolicyReader PolicySubject := do
  let device ← array 256
  let group ← text
  pure { device, group }

/-- A byte that must be 0 or 1. -/
def flag : PolicyReader Bool := do
  let f ← get 1
  Reader.require (f ≤ 1) invalidPolicy
  pure (f ≠ 0)

def rule : PolicyReader AccessRule := do
  let first ← subject
  let second ← subject
  let allow ← flag
  pure { first, second, allow }

/-- The role stays a byte until the whole document is read. -/
def member : PolicyReader (DeviceId × ℕ × Text) := do
  let device ← array 256
  let role ← get 1
  let group ← text
  pure (device, role, group)

def gateway : PolicyReader GatewayNode := do
  let device ← array 256
  let approved ← flag
  pure { device, approved }

def route : PolicyReader RoutedSubnet := do
  let gateway ← array 256
  let address ← get 4
  let prefixLength ← get 1
  let group ← text
  pure { gateway, address := UInt32.ofNat address, prefixLength := UInt8.ofNat prefixLength, group }

/-- A counted list of at most `limit` entries; the count has `n` bytes. -/
def list {α : Type} (n limit : ℕ) (r : PolicyReader α) : PolicyReader (List α) := do
  let count ← get n
  Reader.require (count ≤ limit) invalidPolicy
  Reader.many r count

end PolicyReader

def topologyOfCode : ℕ → Option NetworkTopology
  | 0 => some .mesh
  | 1 => some .hubSpoke
  | _ => none

def roleOfCode : ℕ → Option AccessRole
  | 0 => some .member
  | 1 => some .administrator
  | 2 => some .restricted
  | _ => none

def memberOfRaw : DeviceId × ℕ × Text → Option MemberPolicy
  | (device, role, group) => (roleOfCode role).map fun role => { device, role, group }

/-- A document as read: topology and roles are still bytes. -/
structure RawPolicy where
  revision : UInt64
  managed : Bool
  topology : ℕ
  hubs : List DeviceId
  rules : List AccessRule
  groups : List Text
  members : List (DeviceId × ℕ × Text)
  gateways : List GatewayNode
  routes : List RoutedSubnet

/-- The reads of `decode_network_policy`, in order. -/
def rawPolicy : PolicyReader RawPolicy := do
  let version ← PolicyReader.get 1
  Reader.require (version = 1) invalidPolicy
  let revision ← PolicyReader.get 8
  let managed ← PolicyReader.flag
  let topology ← PolicyReader.get 1
  let hubs ← PolicyReader.list 1 32 (PolicyReader.array 256)
  let rules ← PolicyReader.list 1 64 PolicyReader.rule
  let groups ← PolicyReader.list 1 16 PolicyReader.text
  let members ← PolicyReader.list 2 254 PolicyReader.member
  let gateways ← PolicyReader.list 1 16 PolicyReader.gateway
  let routes ← PolicyReader.list 1 32 PolicyReader.route
  Reader.finish (.invalidArgument "trailing protocol payload")
  pure { revision := UInt64.ofNat revision, managed, topology, hubs, rules, groups, members, gateways, routes }

/-- The policy a document stands for; a topology or role byte outside its
enumeration fails the encoder's check. -/
def RawPolicy.toPolicy (r : RawPolicy) : Except Exn NetworkPolicy :=
  match topologyOfCode r.topology, r.members.mapM memberOfRaw with
  | some topology, some members =>
    .ok { revision := r.revision, managed := r.managed, topology, hubs := r.hubs, rules := r.rules,
          groups := r.groups, members, gateways := r.gateways, routes := r.routes }
  | _, _ => .error invalidPolicy

def decodeNetworkPolicy (bs : Bytes) : Except Exn NetworkPolicy := do
  check (bs.length ≤ 32768) invalidPolicy
  let raw ← rawPolicy.parse bs
  let p ← raw.toPolicy
  check (Encodable p) invalidPolicy
  .ok p

end LanLink
