import LanLink.Protocol.NetworkPolicy
/-!
# Encoded policies read back

`decode_network_policy` gives back the policy that `encode_network_policy`
accepted, and accepts nothing but what it wrote. So a store that keeps encodable
policies, as the model does, keeps what the relay's store keeps as bytes.
-/
open LanLink.Lib LanLink.Lib.Reader

namespace LanLink

/-! ## The parts of a document -/

theorem reads_get {n x : ℕ} (h : x < 256 ^ n) : Reads (PolicyReader.get n) (beBytes n x) x := .word _ h

/-- A fixed array, whatever is thrown where the input is too short. -/
theorem reads_fixed (e : Exn) {w : ℕ} (hw : w = 8 * (w / 8)) (x : BitVec w) :
    Reads (do let bs ← bytes e (w / 8); Pure.pure (BitVec.ofNat w (beNat bs))) (arrayBytes x) x := by
  have hx : x.toNat < 256 ^ (w / 8) := calc
    x.toNat < 2 ^ w := x.isLt
    _ = 2 ^ (8 * (w / 8)) := congrArg _ hw
    _ = 256 ^ (w / 8) := pow_mul 2 8 (w / 8)
  have hread := (Reads.bytes e (beBytes_length (w / 8) x.toNat)).bind
    (f := fun bs => Pure.pure (BitVec.ofNat w (beNat bs))) (.pure _)
  rwa [List.append_nil, beNat_beBytes _ _ hx, BitVec.ofNat_toNat, BitVec.setWidth_eq] at hread

theorem reads_array {w : ℕ} (hw : w = 8 * (w / 8)) (x : BitVec w) : Reads (PolicyReader.array w) (arrayBytes x) x :=
  reads_fixed _ hw x

theorem reads_text {t : Text} (h : validText t) : Reads PolicyReader.text (textBytes t) t := by
  have hlength := h.1
  exact (reads_get (by omega)).bind (.bytes _ rfl)

theorem reads_flag (b : Bool) : Reads PolicyReader.flag (flagByte b) b := by
  intro rest
  rw [PolicyReader.flag, flagByte, (reads_get (by cases b <;> norm_num)).run_bind]
  cases b <;> rfl

theorem reads_subject {s : PolicySubject} (h : validText s.group) : Reads PolicyReader.subject (subjectBytes s) s := by
  intro rest
  rw [PolicyReader.subject, subjectBytes, List.append_assoc, (reads_array rfl _).run_bind, (reads_text h).run_bind]
  rfl

theorem reads_rule {r : AccessRule} (h : validText r.first.group ∧ validText r.second.group) :
    Reads PolicyReader.rule (ruleBytes r) r := by
  intro rest
  rw [PolicyReader.rule, ruleBytes, List.append_assoc, List.append_assoc, (reads_subject h.1).run_bind,
    (reads_subject h.2).run_bind, (reads_flag _).run_bind]
  rfl

theorem reads_member {m : MemberPolicy} (h : validText m.group) :
    Reads PolicyReader.member (memberBytes m) (m.device, m.role.code, m.group) := by
  have hcode : m.role.code < 256 ^ 1 := by cases m.role <;> decide
  intro rest
  rw [PolicyReader.member, memberBytes, List.append_assoc, List.append_assoc, (reads_array rfl _).run_bind,
    (reads_get hcode).run_bind, (reads_text h).run_bind]
  rfl

theorem reads_gateway (g : GatewayNode) : Reads PolicyReader.gateway (gatewayBytes g) g := by
  intro rest
  rw [PolicyReader.gateway, gatewayBytes, List.append_assoc, (reads_array rfl _).run_bind, (reads_flag _).run_bind]
  rfl

theorem reads_route {r : RoutedSubnet} (h : validText r.group) : Reads PolicyReader.route (routeBytes r) r := by
  have haddress : r.address.toNat < 256 ^ 4 := r.address.toNat_lt
  have hlength : r.prefixLength.toNat < 256 ^ 1 := r.prefixLength.toNat_lt
  intro rest
  rw [PolicyReader.route, routeBytes, List.append_assoc, List.append_assoc, List.append_assoc,
    (reads_array rfl _).run_bind, (reads_get haddress).run_bind, (reads_get hlength).run_bind, (reads_text h).run_bind,
    UInt32.ofNat_toNat, UInt8.ofNat_toNat]
  rfl

/-- A counted list of entries that read back. -/
theorem run_list {α β γ : Type} {r : PolicyReader α} {enc : γ → Bytes} {val : γ → α} {l : List γ} {n limit : ℕ}
    (hlimit : l.length ≤ limit) (hn : limit < 256 ^ n) (h : ∀ c ∈ l, Reads r (enc c) (val c))
    (f : List α → PolicyReader β) (rest : Bytes) :
    (PolicyReader.list n limit r >>= f) (beBytes n l.length ++ (l.flatMap enc ++ rest)) = f (l.map val) rest := by
  have hread : Reads (PolicyReader.list n limit r) (beBytes n l.length ++ l.flatMap enc) (l.map val) :=
    (reads_get (by omega)).bind ((Reads.require invalidPolicy hlimit).bind (.many h))
  rw [← List.append_assoc, hread.run_bind]

/-! ## Whole documents -/

/-- The document of `p` as it is read. -/
def NetworkPolicy.toRaw (p : NetworkPolicy) : RawPolicy where
  revision := p.revision
  managed := p.managed
  topology := p.topology.code
  hubs := p.hubs
  rules := p.rules
  groups := p.groups
  members := p.members.map fun m => (m.device, m.role.code, m.group)
  gateways := p.gateways
  routes := p.routes

theorem toPolicy_toRaw (p : NetworkPolicy) : p.toRaw.toPolicy = .ok p := by
  have hmembers : (p.members.map fun m => (m.device, m.role.code, m.group)).mapM memberOfRaw = some p.members := by
    induction p.members with
    | nil => rfl
    | cons m members ih =>
      have hm : memberOfRaw (m.device, m.role.code, m.group) = some m := by
        cases m with
        | mk device role group => cases role <;> rfl
      rw [List.map_cons, List.mapM_cons, hm, ih]
      rfl
  have htopology : topologyOfCode p.topology.code = some p.topology := by cases p.topology <;> rfl
  simp only [RawPolicy.toPolicy, NetworkPolicy.toRaw, htopology, hmembers]

theorem rawPolicy_policyBytes {p : NetworkPolicy} (h : Encodable p) : rawPolicy (policyBytes p) = .ok (p.toRaw, []) := by
  obtain ⟨hhubs, hrules, hgroups, hmembers, hgateways, hroutes⟩ := h.sizes
  have htopology : p.topology.code < 256 ^ 1 := by cases p.topology <;> decide
  have hrevision : p.revision.toNat < 256 ^ 8 := p.revision.toNat_lt
  have hrule : ∀ r ∈ p.rules, Reads PolicyReader.rule (ruleBytes r) r := fun r hr =>
    reads_rule ⟨(h.rules r hr).1.2.1, (h.rules r hr).2.2.1⟩
  have hroute : p.routes.flatMap routeBytes = p.routes.flatMap routeBytes ++ [] := (List.append_nil _).symm
  rw [rawPolicy, policyBytes, hroute]
  simp only [List.append_assoc]
  rw [(reads_get (n := 1) (x := 1) (by norm_num)).run_bind, ← List.nil_append (beBytes 8 _ ++ _),
    (Reads.require invalidPolicy rfl).run_bind, (reads_get hrevision).run_bind, (reads_flag _).run_bind,
    (reads_get htopology).run_bind, run_list hhubs (by norm_num) fun d _ => reads_array rfl d,
    run_list hrules (by norm_num) hrule, run_list hgroups (by norm_num) fun g hg => reads_text (h.groups.2.2.1 g hg),
    run_list hmembers (by norm_num) fun m hm => reads_member (h.members.1 m hm).2.2,
    run_list hgateways (by norm_num) fun g _ => reads_gateway g,
    run_list hroutes (by norm_num) fun r hr => reads_route (h.routes r hr).2.2.2]
  rw [UInt64.ofNat_toNat]
  simp only [List.map_id']
  rfl

/-! ## Sizes -/

theorem length_textBytes {t : Text} (h : validText t) : (textBytes t).length ≤ 33 := by
  have := h.1
  simp only [textBytes, List.length_append, beBytes_length]
  omega

theorem length_flatMap_le {α : Type} {f : α → Bytes} {l : List α} {b : ℕ} (h : ∀ a ∈ l, (f a).length ≤ b) :
    (l.flatMap f).length ≤ l.length * b := by
  have hlength : (l.map fun a => (f a).length).length = l.length := List.length_map _
  rw [List.length_flatMap, ← smul_eq_mul, ← hlength]
  refine List.sum_le_card_nsmul _ _ fun n hn => ?_
  obtain ⟨a, ha, rfl⟩ := List.mem_map.1 hn
  exact h a ha

/-- The longest document has 29486 bytes. -/
theorem length_policyBytes {p : NetworkPolicy} (h : Encodable p) : (policyBytes p).length ≤ 29486 := by
  obtain ⟨hhubs, hrules, hgroups, hmembers, hgateways, hroutes⟩ := h.sizes
  have hub : ∀ d ∈ p.hubs, (arrayBytes d).length ≤ 32 := fun d _ => (length_arrayBytes d).le
  have rule : ∀ r ∈ p.rules, (ruleBytes r).length ≤ 131 := by
    intro r hr
    have hfirst := length_textBytes (h.rules r hr).1.2.1
    have hsecond := length_textBytes (h.rules r hr).2.2.1
    simp only [ruleBytes, subjectBytes, flagByte, List.length_append, length_arrayBytes, beBytes_length]
    omega
  have group : ∀ g ∈ p.groups, (textBytes g).length ≤ 33 := fun g hg => length_textBytes (h.groups.2.2.1 g hg)
  have member : ∀ m ∈ p.members, (memberBytes m).length ≤ 66 := by
    intro m hm
    have hgroup := length_textBytes (h.members.1 m hm).2.2
    simp only [memberBytes, List.length_append, length_arrayBytes, beBytes_length]
    omega
  have gateway : ∀ g ∈ p.gateways, (gatewayBytes g).length ≤ 33 := by
    intro g _
    simp [gatewayBytes, flagByte, length_arrayBytes]
  have route : ∀ r ∈ p.routes, (routeBytes r).length ≤ 70 := by
    intro r hr
    have hgroup := length_textBytes (h.routes r hr).2.2.2
    simp only [routeBytes, List.length_append, length_arrayBytes, beBytes_length]
    omega
  have hhub := length_flatMap_le hub
  have hrule := length_flatMap_le rule
  have hgroup := length_flatMap_le group
  have hmember := length_flatMap_le member
  have hgateway := length_flatMap_le gateway
  have hroute := length_flatMap_le route
  simp only [policyBytes, flagByte, List.length_append, beBytes_length]
  omega

/-- An encoded policy decodes to itself. -/
theorem decode_policyBytes {p : NetworkPolicy} (h : Encodable p) : decodeNetworkPolicy (policyBytes p) = .ok p := by
  have hlength := length_policyBytes h
  have hparse : rawPolicy.parse (policyBytes p) = .ok p.toRaw := by rw [parse, rawPolicy_policyBytes h, ok_bind]
  rw [decodeNetworkPolicy, check_of (by omega), ok_bind, hparse, ok_bind, toPolicy_toRaw, ok_bind, check_of h, ok_bind]

/-! ## Documents that decode -/

theorem spells_get (n : ℕ) : Spells (PolicyReader.get n) (beBytes n) (· < 256 ^ n) := .word _ n

theorem spells_fixed (e : Exn) {w : ℕ} (hw : w = 8 * (w / 8)) :
    Spells (do let bs ← bytes e (w / 8); Pure.pure (BitVec.ofNat w (beNat bs))) arrayBytes fun _ => True := by
  intro input x rest h
  obtain ⟨bs, mid, hbytes, h⟩ := run_bind_ok.1 h
  obtain ⟨rfl, rfl⟩ := run_pure_ok.1 h
  obtain ⟨rfl, hlength⟩ := Spells.bytes _ _ _ _ _ hbytes
  have hlt : beNat bs < 2 ^ w := calc
    beNat bs < 256 ^ bs.length := beNat_lt bs
    _ = 2 ^ w := by rw [hlength, show 256 = 2 ^ 8 by norm_num, ← pow_mul, ← hw]
  have hback : arrayBytes (BitVec.ofNat w (beNat bs)) = bs := by
    rw [arrayBytes, BitVec.toNat_ofNat, Nat.mod_eq_of_lt hlt, ← hlength, beBytes_beNat]
  exact ⟨by rw [hback]; rfl, trivial⟩

theorem spells_array {w : ℕ} (hw : w = 8 * (w / 8)) : Spells (PolicyReader.array w) arrayBytes fun _ => True :=
  spells_fixed _ hw

theorem spells_text : Spells PolicyReader.text textBytes fun _ => True := by
  intro input t rest h
  obtain ⟨size, mid, hsize, h⟩ := run_bind_ok.1 h
  have hbytes := Spells.bytes (.invalidArgument "truncated protocol payload" : Exn) size mid t rest h
  have hsplit := (spells_get 1 _ _ _ hsize).1
  refine ⟨?_, trivial⟩
  rw [hsplit, hbytes.1, ← hbytes.2, textBytes, List.append_assoc]
  rfl

theorem spells_flag : Spells PolicyReader.flag flagByte fun _ => True := by
  intro input b rest h
  obtain ⟨f, mid, hget, h⟩ := run_bind_ok.1 h
  obtain ⟨_, mid', hrequire, h⟩ := run_bind_ok.1 h
  obtain ⟨hle, rfl⟩ := run_require_ok.1 hrequire
  obtain ⟨rfl, rfl⟩ := run_pure_ok.1 h
  obtain ⟨rfl, -⟩ := spells_get 1 _ _ _ hget
  refine ⟨?_, trivial⟩
  rcases Nat.le_one_iff_eq_zero_or_eq_one.1 hle with rfl | rfl <;> rfl

theorem spells_subject : Spells PolicyReader.subject subjectBytes fun _ => True := by
  intro input s rest h
  obtain ⟨device, mid, hdevice, h⟩ := run_bind_ok.1 h
  obtain ⟨group, mid', hgroup, h⟩ := run_bind_ok.1 h
  obtain ⟨rfl, rfl⟩ := run_pure_ok.1 h
  obtain ⟨rfl, -⟩ := spells_array rfl _ _ _ hdevice
  obtain ⟨rfl, -⟩ := spells_text _ _ _ hgroup
  simp [subjectBytes]

theorem spells_rule : Spells PolicyReader.rule ruleBytes fun _ => True := by
  intro input r rest h
  obtain ⟨first, _, hfirst, h⟩ := run_bind_ok.1 h
  obtain ⟨second, _, hsecond, h⟩ := run_bind_ok.1 h
  obtain ⟨allow, _, hallow, h⟩ := run_bind_ok.1 h
  obtain ⟨rfl, rfl⟩ := run_pure_ok.1 h
  obtain ⟨rfl, -⟩ := spells_subject _ _ _ hfirst
  obtain ⟨rfl, -⟩ := spells_subject _ _ _ hsecond
  obtain ⟨rfl, -⟩ := spells_flag _ _ _ hallow
  simp [ruleBytes]

/-- A member entry, its role still a byte. -/
def rawMemberBytes (m : DeviceId × ℕ × Text) : Bytes := arrayBytes m.1 ++ beBytes 1 m.2.1 ++ textBytes m.2.2

theorem spells_member : Spells PolicyReader.member rawMemberBytes fun _ => True := by
  intro input m rest h
  obtain ⟨device, _, hdevice, h⟩ := run_bind_ok.1 h
  obtain ⟨role, _, hrole, h⟩ := run_bind_ok.1 h
  obtain ⟨group, _, hgroup, h⟩ := run_bind_ok.1 h
  obtain ⟨rfl, rfl⟩ := run_pure_ok.1 h
  obtain ⟨rfl, -⟩ := spells_array rfl _ _ _ hdevice
  obtain ⟨rfl, -⟩ := spells_get 1 _ _ _ hrole
  obtain ⟨rfl, -⟩ := spells_text _ _ _ hgroup
  simp [rawMemberBytes]

theorem spells_gateway : Spells PolicyReader.gateway gatewayBytes fun _ => True := by
  intro input g rest h
  obtain ⟨device, _, hdevice, h⟩ := run_bind_ok.1 h
  obtain ⟨approved, _, happroved, h⟩ := run_bind_ok.1 h
  obtain ⟨rfl, rfl⟩ := run_pure_ok.1 h
  obtain ⟨rfl, -⟩ := spells_array rfl _ _ _ hdevice
  obtain ⟨rfl, -⟩ := spells_flag _ _ _ happroved
  simp [gatewayBytes]

theorem spells_route : Spells PolicyReader.route routeBytes fun _ => True := by
  intro input r rest h
  obtain ⟨gateway, _, hgateway, h⟩ := run_bind_ok.1 h
  obtain ⟨address, _, haddress, h⟩ := run_bind_ok.1 h
  obtain ⟨length, _, hlength, h⟩ := run_bind_ok.1 h
  obtain ⟨group, _, hgroup, h⟩ := run_bind_ok.1 h
  obtain ⟨rfl, rfl⟩ := run_pure_ok.1 h
  obtain ⟨rfl, -⟩ := spells_array rfl _ _ _ hgateway
  obtain ⟨rfl, hle⟩ := spells_get 4 _ _ _ haddress
  obtain ⟨rfl, hle'⟩ := spells_get 1 _ _ _ hlength
  obtain ⟨rfl, -⟩ := spells_text _ _ _ hgroup
  have h₁ : (UInt32.ofNat address).toNat = address := UInt32.toNat_ofNat_of_lt hle
  have h₂ : (UInt8.ofNat length).toNat = length := UInt8.toNat_ofNat_of_lt hle'
  simp only [routeBytes, h₁, h₂, List.append_assoc, and_self]

/-- A counted list. -/
def listBytes {α : Type} (n : ℕ) (enc : α → Bytes) (l : List α) : Bytes := beBytes n l.length ++ l.flatMap enc

theorem spells_list {α : Type} {r : PolicyReader α} {enc : α → Bytes} {P : α → Prop} (h : Spells r enc P)
    (n limit : ℕ) : Spells (PolicyReader.list n limit r) (listBytes n enc) fun l => l.length ≤ limit ∧ ∀ a ∈ l, P a := by
  intro input l rest hread
  obtain ⟨count, mid, hcount, hread⟩ := run_bind_ok.1 hread
  obtain ⟨_, mid', hrequire, hread⟩ := run_bind_ok.1 hread
  obtain ⟨hle, rfl⟩ := run_require_ok.1 hrequire
  obtain ⟨rfl, rfl, hl⟩ := h.many count _ _ _ hread
  obtain ⟨rfl, -⟩ := spells_get _ _ _ _ hcount
  exact ⟨by rw [listBytes, List.append_assoc], hle, hl⟩

/-- A document as it is written, topology and roles as bytes. -/
def RawPolicy.bytes (r : RawPolicy) : Bytes :=
  beBytes 1 1 ++ beBytes 8 r.revision.toNat ++ flagByte r.managed ++ beBytes 1 r.topology ++ listBytes 1 arrayBytes r.hubs ++
    listBytes 1 ruleBytes r.rules ++ listBytes 1 textBytes r.groups ++ listBytes 2 rawMemberBytes r.members ++
    listBytes 1 gatewayBytes r.gateways ++ listBytes 1 routeBytes r.routes

theorem rawPolicy_ok {input rest : Bytes} {r : RawPolicy} (h : rawPolicy input = .ok (r, rest)) : input = r.bytes := by
  obtain ⟨version, _, hversion, h⟩ := run_bind_ok.1 h
  obtain ⟨_, _, hone, h⟩ := run_bind_ok.1 h
  obtain ⟨rfl, rfl⟩ := run_require_ok.1 hone
  obtain ⟨revision, _, hrevision, h⟩ := run_bind_ok.1 h
  obtain ⟨managed, _, hmanaged, h⟩ := run_bind_ok.1 h
  obtain ⟨topology, _, htopology, h⟩ := run_bind_ok.1 h
  obtain ⟨hubs, _, hhubs, h⟩ := run_bind_ok.1 h
  obtain ⟨rules, _, hrules, h⟩ := run_bind_ok.1 h
  obtain ⟨groups, _, hgroups, h⟩ := run_bind_ok.1 h
  obtain ⟨members, _, hmembers, h⟩ := run_bind_ok.1 h
  obtain ⟨gateways, _, hgateways, h⟩ := run_bind_ok.1 h
  obtain ⟨routes, _, hroutes, h⟩ := run_bind_ok.1 h
  obtain ⟨_, _, hfinish, h⟩ := run_bind_ok.1 h
  obtain ⟨rfl, rfl⟩ := run_finish_ok.1 hfinish
  obtain ⟨rfl, -⟩ := run_pure_ok.1 h
  obtain ⟨rfl, -⟩ := spells_get 1 _ _ _ hversion
  obtain ⟨rfl, hlt⟩ := spells_get 8 _ _ _ hrevision
  obtain ⟨rfl, -⟩ := spells_flag _ _ _ hmanaged
  obtain ⟨rfl, -⟩ := spells_get 1 _ _ _ htopology
  obtain ⟨rfl, -⟩ := spells_list (spells_array rfl) 1 32 _ _ _ hhubs
  obtain ⟨rfl, -⟩ := spells_list spells_rule 1 64 _ _ _ hrules
  obtain ⟨rfl, -⟩ := spells_list spells_text 1 16 _ _ _ hgroups
  obtain ⟨rfl, -⟩ := spells_list spells_member 2 254 _ _ _ hmembers
  obtain ⟨rfl, -⟩ := spells_list spells_gateway 1 16 _ _ _ hgateways
  obtain ⟨rfl, -⟩ := spells_list spells_route 1 32 _ _ _ hroutes
  have hback : (UInt64.ofNat revision).toNat = revision := UInt64.toNat_ofNat_of_lt hlt
  simp only [RawPolicy.bytes, hback, List.append_assoc, List.append_nil]

theorem code_of_topologyOfCode {c : ℕ} {t : NetworkTopology} (h : topologyOfCode c = some t) : t.code = c := by
  match c with
  | 0 | 1 => cases h; rfl
  | _ + 2 => cases h

theorem raw_of_memberOfRaw {raw : DeviceId × ℕ × Text} {m : MemberPolicy} (h : memberOfRaw raw = some m) :
    (m.device, m.role.code, m.group) = raw := by
  obtain ⟨device, role, group⟩ := raw
  match role with
  | 0 | 1 | 2 => cases h; rfl
  | _ + 3 => cases h

theorem raw_of_mapM_memberOfRaw {raws : List (DeviceId × ℕ × Text)} {members : List MemberPolicy}
    (h : raws.mapM memberOfRaw = some members) : members.map (fun m => (m.device, m.role.code, m.group)) = raws := by
  induction raws generalizing members with
  | nil =>
    cases h
    rfl
  | cons raw raws ih =>
    rw [List.mapM_cons] at h
    cases hm : memberOfRaw raw with
    | none => simp [hm] at h
    | some m =>
      cases hms : raws.mapM memberOfRaw with
      | none => simp [hm, hms] at h
      | some ms =>
        simp only [hm, hms, Option.bind_eq_bind, Option.bind_some, Option.pure_def, Option.some.injEq] at h
        cases h
        rw [List.map_cons, raw_of_memberOfRaw hm, ih hms]

theorem toRaw_of_toPolicy {r : RawPolicy} {p : NetworkPolicy} (h : r.toPolicy = .ok p) : p.toRaw = r := by
  unfold RawPolicy.toPolicy at h
  split at h
  · rename_i topology members htopology hmembers
    cases h
    simp only [NetworkPolicy.toRaw, code_of_topologyOfCode htopology, raw_of_mapM_memberOfRaw hmembers]
  · cases h

theorem bytes_toRaw (p : NetworkPolicy) : p.toRaw.bytes = policyBytes p := by
  have hmembers : (p.members.map fun m => (m.device, m.role.code, m.group)).flatMap rawMemberBytes =
      p.members.flatMap memberBytes := by
    rw [List.flatMap_map]
    rfl
  simp only [RawPolicy.bytes, NetworkPolicy.toRaw, listBytes, hmembers, List.length_map, policyBytes, List.append_assoc]

/-- A document that decodes is the encoding of the policy it decodes to. -/
theorem policyBytes_of_decode {bs : Bytes} {p : NetworkPolicy} (h : decodeNetworkPolicy bs = .ok p) :
    Encodable p ∧ policyBytes p = bs := by
  simp only [decodeNetworkPolicy, parse, bind_eq_ok, check_eq_ok, exists_const, Except.ok.injEq] at h
  obtain ⟨-, raw, ⟨⟨raw', rest⟩, hread, rfl⟩, p', hpolicy, hencodable, rfl⟩ := h
  refine ⟨hencodable, ?_⟩
  rw [← bytes_toRaw, toRaw_of_toPolicy hpolicy]
  exact (rawPolicy_ok hread).symm

end LanLink
