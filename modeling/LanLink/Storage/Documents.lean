import LanLink.Protocol.PolicyCodec
import LanLink.Storage.Transitions
/-!
# Policy documents

The store keeps a policy as the bytes that `encode_network_policy` made of it,
and reads it with `decode_network_policy`. The two are inverse to each other, the
bytes fit the column, so what is saved is what is read.
-/
open LanLink.Lib

namespace LanLink

/-! ## The codec -/

theorem encodeNetworkPolicy_ok {p : NetworkPolicy} {bs : Bytes} :
    encodeNetworkPolicy p = .ok bs ↔ Encodable p ∧ policyBytes p = bs := by
  simp only [encodeNetworkPolicy, bind_eq_ok, check_eq_ok, exists_const, Except.ok.injEq]

theorem length_policyBytes_pos (p : NetworkPolicy) : 0 < (policyBytes p).length := by
  simp only [policyBytes, List.length_append, beBytes_length]
  omega

/-! ## The column -/

namespace Db
variable {db db' : Db} {n : NetworkId} {d : DeviceId}

/-- `read_policy`: the document is decoded. -/
def readPolicy (db : Db) (n : NetworkId) : Except Exn NetworkPolicy :=
  match db.policies.lookup n with
  | some document => decodeNetworkPolicy document.bytes
  | none => .ok {}

/-- Every document decodes to the policy it was made of. -/
theorem readPolicy_eq (db : Db) (n : NetworkId) : db.readPolicy n = .ok (db.networkPolicy n) := by
  unfold readPolicy networkPolicy Tables.policy
  cases db.policies.lookup n with
  | none => rfl
  | some document => exact decode_policyBytes document.encodable

theorem networkPolicy_saved {p : NetworkPolicy} {expected : UInt64} {audit : Option AuditEvent}
    (h : db.saveNetworkPolicy n p expected audit = .ok (true, db')) : db'.networkPolicy n = p := by
  obtain ⟨hfalse, -⟩ | ⟨-, -, -, -, -, -, he, htables, -⟩ := saveNetworkPolicy_ok h
  · cases hfalse
  · rw [networkPolicy, htables, Tables.policy_savePolicy, if_pos rfl]

theorem networkPolicy_removed (h : db.removeMember n d = .ok (true, db')) :
    db'.networkPolicy n = prunedPolicy d (db.networkPolicy n) := by
  obtain ⟨hfalse, -⟩ | ⟨-, -, rfl⟩ := removeMember_ok h
  · cases hfalse
  · exact (Tables.policy_leave _ _ _ _).trans (if_pos rfl)

end Db

/-- The codec and the store agree on policies. -/
structure PolicyCodec : Prop where
  /-- The column takes 1 to 32768 bytes. -/
  fits : ∀ p bs, encodeNetworkPolicy p = .ok bs → 1 ≤ bs.length ∧ bs.length ≤ 32768
  decode_encode : ∀ p bs, encodeNetworkPolicy p = .ok bs → decodeNetworkPolicy bs = .ok p
  encode_decode : ∀ bs p, decodeNetworkPolicy bs = .ok p → encodeNetworkPolicy p = .ok bs
  saved : ∀ (db : Db) n p expected audit db', db.saveNetworkPolicy n p expected audit = .ok (true, db') →
    db'.readPolicy n = .ok p
  removed : ∀ (db : Db) n d db', db.removeMember n d = .ok (true, db') →
    db'.readPolicy n = .ok (prunedPolicy d (db.networkPolicy n))

theorem policy_codec : PolicyCodec := by
  constructor
  · intro p bs h
    obtain ⟨hencodable, rfl⟩ := encodeNetworkPolicy_ok.1 h
    have hlong := length_policyBytes hencodable
    have hshort := length_policyBytes_pos p
    omega
  · intro p bs h
    obtain ⟨hencodable, rfl⟩ := encodeNetworkPolicy_ok.1 h
    exact decode_policyBytes hencodable
  · intro bs p h
    exact encodeNetworkPolicy_ok.2 (policyBytes_of_decode h)
  · intro db n p expected audit db' h
    rw [Db.readPolicy_eq, Db.networkPolicy_saved h]
  · intro db n d db' h
    rw [Db.readPolicy_eq, Db.networkPolicy_removed h]

end LanLink
