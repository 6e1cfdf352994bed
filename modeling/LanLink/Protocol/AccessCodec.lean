import LanLink.Protocol.Binary
/-!
# Access requests and results

The payloads of `user_access.cpp`. Requests have a last byte from `password_set`
on; what a decoder read it checks by encoding it again.
-/
open LanLink.Lib LanLink.Lib.Reader

namespace LanLink

/-! ## Codes -/

def AccessAction.code : AccessAction → ℕ
  | .accountCreate => 1
  | .accountStatus => 2
  | .enrollmentIssue => 3
  | .deviceEnroll => 4
  | .deviceRevoke => 5
  | .passwordSet => 6
  | .passwordJoin => 7
  | .inviteIssue => 8
  | .inviteRedeem => 9
  | .inviteRevoke => 10
  | .networkCreateProtected => 11

def accessActionOfCode : ℕ → Option AccessAction
  | 1 => some .accountCreate
  | 2 => some .accountStatus
  | 3 => some .enrollmentIssue
  | 4 => some .deviceEnroll
  | 5 => some .deviceRevoke
  | 6 => some .passwordSet
  | 7 => some .passwordJoin
  | 8 => some .inviteIssue
  | 9 => some .inviteRedeem
  | 10 => some .inviteRevoke
  | 11 => some .networkCreateProtected
  | _ => none

theorem accessActionOfCode_eq {c : ℕ} {a : AccessAction} : accessActionOfCode c = some a ↔ c = a.code := by
  constructor
  · intro h
    unfold accessActionOfCode at h
    split at h <;> cases h <;> rfl
  · rintro rfl
    cases a <;> rfl

theorem AccessAction.code_lt (a : AccessAction) : a.code < 256 ^ 1 := by
  cases a <;> decide

theorem NetworkResultCode.code_lt (c : NetworkResultCode) : c.code < 256 ^ 2 := by
  cases c <;> decide

/-! ## Writing -/

/-- The approval policy, which an action before `password_set` does not have. -/
def approvalBytes (action : ℕ) (requireApproval : Bool) : Bytes :=
  if AccessAction.passwordSet.code ≤ action then flagByte requireApproval else []

def accessRequestBytes (x : AccessRequest) : Bytes :=
  beBytes 1 1 ++ (beBytes 1 x.action.code ++ (arrayBytes x.networkId ++ (arrayBytes x.deviceId ++ (nameBytes x.text ++
    (nameBytes x.secret ++ (beBytes 4 x.lifetimeSeconds.toNat ++ (beBytes 2 x.maxUses.toNat ++
    approvalBytes x.action.code x.requireApproval)))))))

def encodeAccessRequest (x : AccessRequest) : Except Exn Bytes := do
  requireAccessRequest x
  .ok (accessRequestBytes x)

def accountDeviceBytes (d : AccountDevice) : Bytes := arrayBytes d.deviceId ++ (nameBytes d.label ++ flagByte d.revoked)

def accessResultBytes (x : AccessResult) : Bytes :=
  beBytes 1 1 ++ (beBytes 1 x.action.code ++ (beBytes 2 x.code.code ++ (arrayBytes x.accountId ++ (arrayBytes x.networkId ++
    (nameBytes x.text ++ (nameBytes x.secret ++ (beBytes 1 x.devices.length ++ x.devices.flatMap accountDeviceBytes)))))))

def encodeAccessResult (x : AccessResult) : Except Exn Bytes := do
  requireAccessResult x
  .ok (accessResultBytes x)

/-! ## Reading -/

open PolicyReader BinaryReader

def unknownAction : Exn := .invalidArgument "unknown access action"

def accessString (limit : ℕ) : PolicyReader Text := do
  let b ← string
  Reader.require (b.length ≤ limit) (.invalidArgument "access text too long")
  pure b

def readVersion (e : Exn) : PolicyReader Unit := do
  let version ← get8
  Reader.require (version = 1) e

/-- The action is looked at again only when the request is encoded. -/
def readApproval (action : ℕ) : PolicyReader Bool :=
  if AccessAction.passwordSet.code ≤ action then flag (.invalidArgument "invalid approval policy") else pure false

def readAccessRequest : PolicyReader AccessRequest := do
  readVersion (.invalidArgument "unsupported access version")
  let action ← get 1
  let networkId ← array 128
  let deviceId ← array 256
  let text ← accessString 128
  let secret ← accessString 256
  let lifetimeSeconds ← get32
  let maxUses ← get16
  let requireApproval ← readApproval action
  finish
  let action ← PayloadReader.known (accessActionOfCode action) unknownAction
  let x : AccessRequest := { action, networkId, deviceId, text, secret, lifetimeSeconds, maxUses, requireApproval }
  BinaryReader.validate (requireAccessRequest x)
  pure x

def decodeAccessRequest (payload : Bytes) : Except Exn AccessRequest := readAccessRequest.parse payload

def readAccountDevice : PolicyReader AccountDevice := do
  let deviceId ← array 256
  let label ← accessString 128
  let revoked ← flag (.invalidArgument "invalid device state")
  pure { deviceId, label, revoked }

def readAccessResult : PolicyReader AccessResult := do
  readVersion (.invalidArgument "unsupported access version")
  let action ← get 1
  let code ← get 2
  let accountId ← array 256
  let networkId ← array 128
  let text ← accessString 128
  let secret ← accessString 512
  let devices ← counted 1 64 (.invalidArgument "too many account devices") readAccountDevice
  finish
  let action ← PayloadReader.known (accessActionOfCode action) unknownAction
  let code ← PayloadReader.known (resultOfCode code) (.invalidArgument "invalid access result")
  let x : AccessResult := { action, code, accountId, networkId, text, secret, devices }
  BinaryReader.validate (requireAccessResult x)
  pure x

def decodeAccessResult (payload : Bytes) : Except Exn AccessResult := readAccessResult.parse payload

/-! ## Formats -/

theorem readVersion_format (e : Exn) : Format (readVersion e) (fun _ => beBytes 1 1) fun _ => True := by
  intro input u rest
  constructor
  · intro h
    obtain ⟨version, mid, hget, hcheck⟩ := run_bind_ok.1 h
    obtain ⟨rfl, -⟩ := (get8_format _ _ _).1 hget
    obtain ⟨rfl, rfl⟩ := run_require_ok.1 hcheck
    exact ⟨rfl, trivial⟩
  · rintro ⟨rfl, -⟩
    exact run_bind_ok.2 ⟨1, rest, (get8_format _ _ _).2 ⟨rfl, trivial⟩, run_require_ok.2 ⟨rfl, rfl⟩⟩

theorem accessString_format {limit : ℕ} (hlimit : limit < 256 ^ 2) :
    Format (accessString limit) nameBytes (·.length ≤ limit) := by
  refine (Record.field id string_format fun t _ => .require (fun t : Text => t.length ≤ limit) ?_ fun _ => .pure ?_).format.congr ?_ ?_
  · rintro t' ⟨-, rfl⟩
    rfl
  · intro t'
    simp [eq_comm]
  · intro t'
    simp only [id_eq, and_true]
    constructor
    · exact fun h => h.2
    · exact fun h => ⟨by omega, h⟩
  · intro t' _
    exact List.append_nil _

theorem readApproval_format (action : ℕ) : Format (readApproval action) (approvalBytes action) fun approval =>
    approval = true → AccessAction.passwordSet.code ≤ action := by
  unfold readApproval
  split
  · rename_i haction
    refine (flag_format _).congr ?_ ?_
    · simp [haction]
    · intro approval _
      rw [approvalBytes, if_pos haction]
  · rename_i haction
    refine (Record.rest (fun approval => approval = false) ?_).format.congr ?_ ?_
    · simp [eq_comm]
    · simp [haction]
    · intro approval _
      rw [approvalBytes, if_neg haction]

theorem length_of_requireAccessRequest {x : AccessRequest} (h : requireAccessRequest x = .ok ()) :
    x.text.length ≤ 128 ∧ x.secret.length ≤ 256 := by
  simp only [requireAccessRequest, bind_eq_ok, check_eq_ok, exists_const] at h
  exact ⟨h.1.1, h.2.1⟩

/-- A request has an approval policy only where its encoding has one. -/
def AccessRequest.Typed (x : AccessRequest) : Prop := x.requireApproval = true → AccessAction.passwordSet.code ≤ x.action.code

theorem readAccessRequest_record : Record Closed (fun _ => True) readAccessRequest accessRequestBytes fun x =>
    x.Typed ∧ requireAccessRequest x = .ok () := by
  refine .congr (.field (fun _ => ()) (readVersion_format _) fun _ _ => .field (fun x => x.action.code) (get_format 1) fun action _ =>
    .field AccessRequest.networkId array128_format fun networkId _ => .field AccessRequest.deviceId array256_format fun deviceId _ =>
    .field AccessRequest.text (accessString_format (by decide)) fun text _ =>
    .field AccessRequest.secret (accessString_format (by decide)) fun secret _ =>
    .field AccessRequest.lifetimeSeconds get32_format fun lifetime _ => .field AccessRequest.maxUses get16_format fun maxUses _ =>
    .tagged AccessRequest.requireApproval (fun x => x.action.code) ?_ (readApproval_format action) fun approval _ =>
    .finish _ (known_record AccessRequest.action ?_ fun a ha => checked_record requireAccessRequest ?_)) ?_ ?_
  · tauto
  · intro x hx
    exact accessActionOfCode_eq.2 (by tauto)
  · obtain rfl := accessActionOfCode_eq.1 ha
    rintro ⟨⟩
    simp only [true_and, and_true, AccessRequest.mk.injEq, and_assoc]
    constructor
    · rintro ⟨-, rfl, rfl, rfl, rfl, rfl, rfl, rfl, rfl⟩
      simp
    · rintro ⟨rfl, rfl, rfl, rfl, rfl, rfl, rfl, rfl⟩
      simp
  · intro x _
    simp only [true_and, AccessRequest.Typed]
    constructor
    · tauto
    · intro h
      have hlength := length_of_requireAccessRequest h.2
      have hcode := x.action.code_lt
      tauto
  · intro x _ _
    simp only [accessRequestBytes, List.append_nil]

theorem access_request_inverse : Inverse AccessRequest.Typed encodeAccessRequest decodeAccessRequest :=
  .of_checked (fun _ => rfl) readAccessRequest_record

theorem readAccountDevice_format : Format readAccountDevice accountDeviceBytes (·.label.length ≤ 128) := by
  refine (Record.field AccountDevice.deviceId array256_format fun deviceId _ =>
    .field AccountDevice.label (accessString_format (by decide)) fun label _ =>
    .field AccountDevice.revoked (flag_format _) fun revoked _ => .pure ?_).format.congr ?_ ?_
  · rintro ⟨⟩
    simp only [true_and, AccountDevice.mk.injEq, and_assoc, eq_comm]
  · intro d
    simp
  · intro d _
    simp only [accountDeviceBytes, List.append_nil]

/-- What the encoder of a result asks for. -/
theorem requireAccessResult_ok {x : AccessResult} (h : requireAccessResult x = .ok ()) :
    x.devices.length ≤ 64 ∧ x.text.length ≤ 128 ∧ x.secret.length ≤ 512 ∧ ∀ d ∈ x.devices, d.label.length ≤ 128 := by
  simp only [requireAccessResult, bind_eq_ok, check_eq_ok, exists_const] at h
  obtain ⟨hdevices, htext, hsecret, hlabels⟩ := h
  refine ⟨hdevices, htext.1, hsecret.1, fun d hd => ?_⟩
  exact (check_eq_ok.1 (forM_eq_ok.1 hlabels d hd)).1

theorem readAccessResult_record : Record Closed (fun _ => True) readAccessResult accessResultBytes fun x =>
    True ∧ requireAccessResult x = .ok () := by
  refine .congr (.field (fun _ => ()) (readVersion_format _) fun _ _ => .field (fun x => x.action.code) (get_format 1) fun action _ =>
    .field (fun x => x.code.code) (get_format 2) fun code _ =>
    .field AccessResult.accountId array256_format fun accountId _ => .field AccessResult.networkId array128_format fun networkId _ =>
    .field AccessResult.text (accessString_format (by decide)) fun text _ =>
    .field AccessResult.secret (accessString_format (by decide)) fun secret _ =>
    .field AccessResult.devices (counted_format readAccountDevice_format (by decide) _) fun devices _ =>
    .finish _ (known_record AccessResult.action ?_ fun a ha => known_record AccessResult.code ?_ fun c hc =>
    checked_record requireAccessResult ?_)) ?_ ?_
  · intro x hx
    exact accessActionOfCode_eq.2 (by tauto)
  · intro x hx
    exact resultOfCode_eq.2 (by tauto)
  · obtain rfl := accessActionOfCode_eq.1 ha
    obtain rfl := resultOfCode_eq.1 hc
    rintro ⟨⟩
    simp only [true_and, AccessResult.mk.injEq, and_assoc]
    constructor
    · rintro ⟨-, -, rfl, rfl, rfl, rfl, rfl, rfl, rfl⟩
      simp
    · rintro ⟨rfl, rfl, rfl, rfl, rfl, rfl, rfl⟩
      simp
  · intro x _
    simp only [true_and]
    constructor
    · tauto
    · intro h
      have hlength := requireAccessResult_ok h
      have haction := x.action.code_lt
      have hcode := x.code.code_lt
      tauto
  · intro x _ _
    simp only [accessResultBytes, List.append_nil]

theorem access_result_inverse : Inverse (fun _ => True) encodeAccessResult decodeAccessResult :=
  .of_checked (fun _ => rfl) readAccessResult_record

end LanLink
