import LanLink.P2P.Candidates
import LanLink.Protocol.AccessCodec
import LanLink.Protocol.PolicyCodec
/-!
# Management requests, results and audit events

The payloads of `network_management.cpp` and `audit_event.cpp`. A policy is
embedded after its length, an audit event at its fixed size.
-/
open LanLink.Lib LanLink.Lib.Reader

namespace LanLink

/-! ## Codes -/

def ManagementAction.code : ManagementAction → ℕ
  | .inspect => 1
  | .replacePolicy => 2
  | .requestGateway => 3

def managementActionOfCode : ℕ → Option ManagementAction
  | 1 => some .inspect
  | 2 => some .replacePolicy
  | 3 => some .requestGateway
  | _ => none

theorem managementActionOfCode_eq {c : ℕ} {a : ManagementAction} : managementActionOfCode c = some a ↔ c = a.code := by
  constructor
  · intro h
    unfold managementActionOfCode at h
    split at h <;> cases h <;> rfl
  · rintro rfl
    cases a <;> rfl

theorem ManagementAction.code_lt (a : ManagementAction) : a.code < 256 ^ 1 := by
  cases a <;> decide

def AuditKind.code : AuditKind → ℕ
  | .networkCreate => 1
  | .networkJoin => 2
  | .networkLeave => 3
  | .memberInvite => 4
  | .memberApprove => 5
  | .memberKick => 6
  | .passwordChange => 7
  | .inviteIssue => 8
  | .inviteRevoke => 9
  | .accountCreate => 10
  | .deviceEnroll => 11
  | .deviceRevoke => 12
  | .gatewayRequest => 13
  | .policyChange => 14
  | .enrollmentIssue => 15

def auditKindOfCode : ℕ → Option AuditKind
  | 1 => some .networkCreate
  | 2 => some .networkJoin
  | 3 => some .networkLeave
  | 4 => some .memberInvite
  | 5 => some .memberApprove
  | 6 => some .memberKick
  | 7 => some .passwordChange
  | 8 => some .inviteIssue
  | 9 => some .inviteRevoke
  | 10 => some .accountCreate
  | 11 => some .deviceEnroll
  | 12 => some .deviceRevoke
  | 13 => some .gatewayRequest
  | 14 => some .policyChange
  | 15 => some .enrollmentIssue
  | _ => none

theorem auditKindOfCode_eq {c : ℕ} {k : AuditKind} : auditKindOfCode c = some k ↔ c = k.code := by
  constructor
  · intro h
    unfold auditKindOfCode at h
    split at h <;> cases h <;> rfl
  · rintro rfl
    cases k <;> rfl

theorem AuditKind.code_lt (k : AuditKind) : k.code < 256 ^ 1 := by
  cases k <;> decide

/-! ## Audit events -/

def auditEventBytes (e : AuditEvent) : Bytes :=
  beBytes 8 e.sequence ++ (beBytes 8 e.timestampMs ++ (arrayBytes e.networkId ++ (arrayBytes e.actor ++ (arrayBytes e.target ++
    (beBytes 1 e.kind.code ++ (beBytes 2 e.result.code ++ beBytes 8 e.policyRevision.toNat))))))

def encodeAuditEvent (e : AuditEvent) : Except Exn Bytes := do
  requireAuditEvent e
  .ok (auditEventBytes e)

open PolicyReader BinaryReader

def invalidAuditEvent : Exn := .invalidArgument "invalid audit event"

def readAuditEvent : PolicyReader AuditEvent := do
  let sequence ← get 8
  let timestampMs ← get 8
  let networkId ← array 128
  let actor ← array 256
  let target ← array 256
  let kind ← get 1
  let result ← get 2
  let policyRevision ← get64
  finish
  let kind ← PayloadReader.known (auditKindOfCode kind) invalidAuditEvent
  let result ← PayloadReader.known (resultOfCode result) invalidAuditEvent
  let e : AuditEvent := { sequence, timestampMs, networkId, actor, target, kind, result, policyRevision }
  BinaryReader.validate (requireAuditEvent e)
  pure e

def decodeAuditEvent (b : Bytes) : Except Exn AuditEvent := readAuditEvent.parse b

/-- The numbers are of the types of the source. -/
def AuditEvent.Typed (e : AuditEvent) : Prop := e.sequence < 2 ^ 64 ∧ e.timestampMs < 2 ^ 64

theorem readAuditEvent_record : Record Closed (fun _ => True) readAuditEvent auditEventBytes fun e =>
    e.Typed ∧ requireAuditEvent e = .ok () := by
  refine .congr (.field AuditEvent.sequence (get_format 8) fun sequence _ => .field AuditEvent.timestampMs (get_format 8) fun timestamp _ =>
    .field AuditEvent.networkId array128_format fun networkId _ => .field AuditEvent.actor array256_format fun actor _ =>
    .field AuditEvent.target array256_format fun target _ => .field (fun e => e.kind.code) (get_format 1) fun kind _ =>
    .field (fun e => e.result.code) (get_format 2) fun result _ =>
    .field AuditEvent.policyRevision get64_format fun revision _ =>
    .finish _ (known_record AuditEvent.kind ?_ fun k hk => known_record AuditEvent.result ?_ fun c hc =>
    checked_record requireAuditEvent ?_)) ?_ ?_
  · intro e he
    exact auditKindOfCode_eq.2 (by tauto)
  · intro e he
    exact resultOfCode_eq.2 (by tauto)
  · obtain rfl := auditKindOfCode_eq.1 hk
    obtain rfl := resultOfCode_eq.1 hc
    rintro ⟨⟩
    simp only [true_and, AuditEvent.mk.injEq, and_assoc]
    constructor
    · rintro ⟨rfl, rfl, rfl, rfl, rfl, -, -, rfl, rfl, rfl⟩
      simp
    · rintro ⟨rfl, rfl, rfl, rfl, rfl, rfl, rfl, rfl⟩
      simp
  · intro e _
    have hkind := e.kind.code_lt
    have hresult := e.result.code_lt
    have hword : 256 ^ 8 = 2 ^ 64 := by norm_num
    simp only [true_and, AuditEvent.Typed, hword, hkind, hresult, and_assoc]
  · intro e _ _
    simp only [auditEventBytes, List.append_nil]

theorem audit_event_inverse : Inverse AuditEvent.Typed encodeAuditEvent decodeAuditEvent :=
  .of_checked (fun _ => rfl) readAuditEvent_record

/-- The size at which a management result embeds an event. -/
def auditEventSize : ℕ := 107

theorem length_auditEventBytes (e : AuditEvent) : (auditEventBytes e).length = auditEventSize := by
  simp [auditEventBytes, auditEventSize, length_arrayBytes]

/-! ## Management -/

/-- `policy`: the policy's encoding after its length. -/
def embeddedPolicyBytes (p : NetworkPolicy) : Bytes := beBytes 4 (policyBytes p).length ++ policyBytes p

def managementRequestBytes (q : ManagementRequest) : Bytes :=
  beBytes 1 1 ++ (beBytes 1 q.action.code ++ (arrayBytes q.networkId ++ embeddedPolicyBytes q.policy))

def encodeManagementRequest (q : ManagementRequest) : Except Exn Bytes := do
  requireManagementRequest q
  .ok (managementRequestBytes q)

def managementResultBytes (q : ManagementResult) : Bytes :=
  beBytes 1 1 ++ (beBytes 1 q.action.code ++ (arrayBytes q.networkId ++ (beBytes 2 q.code.code ++ (embeddedPolicyBytes q.policy ++
    ((beBytes 2 q.pendingRequests.length ++ q.pendingRequests.flatMap arrayBytes) ++
    ((beBytes 1 q.auditEvents.length ++ q.auditEvents.flatMap auditEventBytes) ++ beBytes 8 q.auditWriteFailures.toNat))))))

def encodeManagementResult (q : ManagementResult) : Except Exn Bytes := do
  requireManagementResult q
  .ok (managementResultBytes q)

def readPolicy : PolicyReader NetworkPolicy := do
  let size ← get 4
  let document ← bytes size
  BinaryReader.validate (decodeNetworkPolicy document)

def unknownManagementVersion : Exn := .invalidArgument "unknown management version"

def invalidManagementRequest : Exn := .invalidArgument "invalid management request"

def readManagementRequest : PolicyReader ManagementRequest := do
  readVersion unknownManagementVersion
  let action ← get 1
  let networkId ← array 128
  let policy ← readPolicy
  finish
  let action ← PayloadReader.known (managementActionOfCode action) invalidManagementRequest
  let q : ManagementRequest := { action, networkId, policy }
  BinaryReader.validate (requireManagementRequest q)
  pure q

def decodeManagementRequest (b : Bytes) : Except Exn ManagementRequest := readManagementRequest.parse b

def readEmbeddedEvent : PolicyReader AuditEvent := do
  let document ← bytes auditEventSize
  BinaryReader.validate (decodeAuditEvent document)

def readManagementResult : PolicyReader ManagementResult := do
  readVersion unknownManagementVersion
  let action ← get 1
  let networkId ← array 128
  let code ← get 2
  let policy ← readPolicy
  let pendingRequests ← counted 2 maxNetworkPeerEntries (.invalidArgument "too many pending requests") (array 256)
  let auditEvents ← counted 1 64 (.invalidArgument "too many audit events") readEmbeddedEvent
  let auditWriteFailures ← get64
  finish
  let action ← PayloadReader.known (managementActionOfCode action) invalidManagementRequest
  let code ← PayloadReader.known (resultOfCode code) (.invalidArgument "invalid management result")
  let q : ManagementResult := { action, networkId, code, pendingRequests, auditEvents, auditWriteFailures, policy }
  BinaryReader.validate (requireManagementResult q)
  pure q

def decodeManagementResult (b : Bytes) : Except Exn ManagementResult := readManagementResult.parse b

/-! ## Formats -/

theorem decodeNetworkPolicy_ok {bs : Bytes} {p : NetworkPolicy} :
    decodeNetworkPolicy bs = .ok p ↔ bs = policyBytes p ∧ Encodable p := by
  constructor
  · intro h
    obtain ⟨hencodable, rfl⟩ := policyBytes_of_decode h
    exact ⟨rfl, hencodable⟩
  · rintro ⟨rfl, hencodable⟩
    exact decode_policyBytes hencodable

theorem readPolicy_format : Format readPolicy embeddedPolicyBytes Encodable := by
  intro input p rest
  constructor
  · intro h
    obtain ⟨size, mid, hsize, hdocument⟩ := run_bind_ok.1 h
    obtain ⟨rfl, -⟩ := (get_format 4 _ _ _).1 hsize
    obtain ⟨rfl, rfl, hp⟩ := (embedded_format (fun _ _ => decodeNetworkPolicy_ok) _ _ _).1 hdocument
    exact ⟨(List.append_assoc _ _ _).symm, hp⟩
  · rintro ⟨rfl, hp⟩
    have hsize : (policyBytes p).length < 256 ^ 4 := (length_policyBytes hp).trans_lt (by norm_num)
    refine run_bind_ok.2 ⟨_, _, (get_format 4 _ _ _).2 ⟨List.append_assoc _ _ _, hsize⟩, ?_⟩
    exact (embedded_format (fun _ _ => decodeNetworkPolicy_ok) _ _ _).2 ⟨rfl, rfl, hp⟩

theorem readEmbeddedEvent_format : Format readEmbeddedEvent auditEventBytes fun e => e.Typed ∧ requireAuditEvent e = .ok () := by
  refine (embedded_format fun _ _ => readAuditEvent_record.parse_eq_ok).congr ?_ fun _ _ => rfl
  intro e
  exact and_iff_right (length_auditEventBytes e)

theorem readManagementRequest_record : Record Closed (fun _ => True) readManagementRequest managementRequestBytes fun q =>
    True ∧ requireManagementRequest q = .ok () := by
  refine .congr (.field (fun _ => ()) (readVersion_format _) fun _ _ => .field (fun q => q.action.code) (get_format 1) fun action _ =>
    .field ManagementRequest.networkId array128_format fun networkId _ => .field ManagementRequest.policy readPolicy_format fun policy _ =>
    .finish _ (known_record ManagementRequest.action ?_ fun a ha => checked_record requireManagementRequest ?_)) ?_ ?_
  · intro q hq
    exact managementActionOfCode_eq.2 (by tauto)
  · obtain rfl := managementActionOfCode_eq.1 ha
    rintro ⟨⟩
    simp only [true_and, ManagementRequest.mk.injEq, and_assoc]
    constructor
    · rintro ⟨-, rfl, rfl, rfl⟩
      simp
    · rintro ⟨rfl, rfl, rfl⟩
      simp
  · intro q _
    simp only [true_and]
    constructor
    · tauto
    · intro h
      have haction := q.action.code_lt
      have hpolicy : Encodable q.policy := by
        simp only [requireManagementRequest, bind_eq_ok, check_eq_ok, exists_const] at h
        exact h.2
      tauto
  · intro q _ _
    simp only [managementRequestBytes, List.append_nil]

theorem management_request_inverse : Inverse (fun _ => True) encodeManagementRequest decodeManagementRequest :=
  .of_checked (fun _ => rfl) readManagementRequest_record

/-- The numbers of the embedded events are of the types of the source. -/
def ManagementResult.Typed (q : ManagementResult) : Prop := ∀ e ∈ q.auditEvents, e.Typed

/-- What the encoder of a result asks for. -/
theorem requireManagementResult_ok {q : ManagementResult} (h : requireManagementResult q = .ok ()) :
    Encodable q.policy ∧ q.pendingRequests.length ≤ maxNetworkPeerEntries ∧ q.auditEvents.length ≤ 64 ∧
      ∀ e ∈ q.auditEvents, requireAuditEvent e = .ok () := by
  simp only [requireManagementResult, bind_eq_ok, check_eq_ok, exists_const] at h
  obtain ⟨-, hpolicy, hpending, hcount, hevents⟩ := h
  exact ⟨hpolicy, hpending, hcount, forM_eq_ok.1 hevents⟩

theorem readManagementResult_record : Record Closed (fun _ => True) readManagementResult managementResultBytes fun q =>
    q.Typed ∧ requireManagementResult q = .ok () := by
  refine .congr (.field (fun _ => ()) (readVersion_format _) fun _ _ => .field (fun q => q.action.code) (get_format 1) fun action _ =>
    .field ManagementResult.networkId array128_format fun networkId _ => .field (fun q => q.code.code) (get_format 2) fun code _ =>
    .field ManagementResult.policy readPolicy_format fun policy _ =>
    .field ManagementResult.pendingRequests (counted_format array256_format (by decide) _) fun pending _ =>
    .field ManagementResult.auditEvents (counted_format readEmbeddedEvent_format (by decide) _) fun events _ =>
    .field ManagementResult.auditWriteFailures get64_format fun failures _ =>
    .finish _ (known_record ManagementResult.action ?_ fun a ha => known_record ManagementResult.code ?_ fun c hc =>
    checked_record requireManagementResult ?_)) ?_ ?_
  · intro q hq
    exact managementActionOfCode_eq.2 (by tauto)
  · intro q hq
    exact resultOfCode_eq.2 (by tauto)
  · obtain rfl := managementActionOfCode_eq.1 ha
    obtain rfl := resultOfCode_eq.1 hc
    rintro ⟨⟩
    simp only [true_and, ManagementResult.mk.injEq, and_assoc]
    constructor
    · rintro ⟨-, rfl, -, rfl, rfl, rfl, rfl, rfl, rfl⟩
      simp
    · rintro ⟨rfl, rfl, rfl, rfl, rfl, rfl, rfl⟩
      simp
  · intro q _
    simp only [true_and, ManagementResult.Typed]
    constructor
    · rintro ⟨-, -, -, -, ⟨-, hevents⟩, h⟩
      exact ⟨fun e he => (hevents e he).1, h⟩
    · rintro ⟨htyped, h⟩
      obtain ⟨hpolicy, hpending, hcount, hevents⟩ := requireManagementResult_ok h
      refine ⟨q.action.code_lt, q.code.code_lt, hpolicy, ⟨hpending, fun _ _ => trivial⟩, ⟨hcount, ?_⟩, h⟩
      exact fun e he => ⟨htyped e he, hevents e he⟩
  · intro q _ _
    simp only [managementResultBytes, List.append_nil]

theorem management_result_inverse : Inverse ManagementResult.Typed encodeManagementResult decodeManagementResult :=
  .of_checked (fun _ => rfl) readManagementResult_record

/-- The payloads with which devices are administered and find each other. -/
structure ManagementCodecs : Prop where
  accessRequest : Inverse AccessRequest.Typed encodeAccessRequest decodeAccessRequest
  accessResult : Inverse (fun _ => True) encodeAccessResult decodeAccessResult
  managementRequest : Inverse (fun _ => True) encodeManagementRequest decodeManagementRequest
  managementResult : Inverse ManagementResult.Typed encodeManagementResult decodeManagementResult
  auditEvent : Inverse AuditEvent.Typed encodeAuditEvent decodeAuditEvent
  candidates : Inverse (fun _ => True) P2P.encodeCandidates P2P.decodeCandidates

theorem management_codecs : ManagementCodecs where
  accessRequest := access_request_inverse
  accessResult := access_result_inverse
  managementRequest := management_request_inverse
  managementResult := management_result_inverse
  auditEvent := audit_event_inverse
  candidates := P2P.candidates_inverse

end LanLink
