import LanLink.Relay.ServiceState
/-!
# Operations of the network service

The public functions of `NetworkService`, each as a `Call`. What a function
takes from outside the state, its clock readings and its random values, is in
`Inputs`. An early `return` is the end of a branch; a `try` block is
`Action.tryCatch`, which keeps what was written before the throw.
-/
open LanLink.Lib

namespace LanLink

/-- What an operation reads from the clock and the random source. -/
structure Inputs where
  /-- `time_source_()` in the operation. -/
  now : Time := 0
  /-- `time_source_()` in `audit_locked`. -/
  auditNow : Time := 0
  /-- The values of `network_id_generator_()`, in order. -/
  networkIds : ℕ → Except Exn NetworkId := fun _ => .error (.runtimeError "network id generation failed")
  /-- `random_nonce()`. -/
  nonce : Except Exn Nonce := .error (.runtimeError "secure random generation failed")

namespace Service

variable (crypto : Crypto) (inputs : Inputs)

/-! ## Creating, joining and leaving -/

/-- `catch (const std::exception&)`, where `full` also maps `length_error`. -/
def catching (operation : NetworkOperation) (n : NetworkId) (full : Bool) (body : Call NetworkOperationOutcome) :
    Call NetworkOperationOutcome :=
  Action.tryCatch body fun e =>
    match e, full with
    | .lengthError _, true => pure (operationOutcome operation .limitReached n)
    | _, _ => pure (operationOutcome operation .internalError n)

/-- The loop over network ids: `left` attempts remain, `attempt` were made. -/
def createAttempts (actor : DeviceId) (name : Text) (nowMs : ℤ) (password : Option PasswordVerifier) :
    ℕ → ℕ → Call NetworkOperationOutcome
  | 0, _ => pure (operationOutcome .create .conflict)
  | left + 1, attempt => do
    let n ← Action.lift (inputs.networkIds attempt)
    if n = 0 then createAttempts actor name nowMs password left (attempt + 1)
    else do
      let existing ← read fun db => db.findNetwork n
      if existing.isSome then createAttempts actor name nowMs password left (attempt + 1)
      else do
        let created ← Action.tryCatch
          (do
            write fun db => db.createNetwork n { name, ownerDeviceId := actor, createdAtMs := nowMs } password
            pure true)
          (fun e => do
            let existing ← read fun db => db.findNetwork n
            if existing.isSome then pure false else Action.throw e)
        if created then do
          advanceKeyEpoch n
          let peerChanges ← advancedChanges n
          audited actor nowMs inputs.auditNow { operationOutcome .create .success n with peerChanges }
        else createAttempts actor name nowMs password left (attempt + 1)

def createNetworkLocked (actor : DeviceId) (name : Text) (nowMs : ℤ) (password : Option PasswordVerifier) :
    Call NetworkOperationOutcome :=
  catching .create 0 true do
    write fun db => db.recordDevice actor nowMs
    let full ← read fun db => networkLimitReached db actor
    if full then pure (operationOutcome .create .limitReached)
    else createAttempts inputs actor name nowMs password 32 0

def createNetwork (actor : DeviceId) (request : NetworkCreateRequest) (nowMs : ℤ) : Call NetworkOperationOutcome := do
  Action.lift (requireActorAndTime actor nowMs)
  match requireCreateRequest request with
  | .error _ => pure (operationOutcome .create .invalidRequest)
  | .ok () => createNetworkLocked inputs actor request.name nowMs none

/-- What follows a new membership of `d` in `n`. -/
def memberJoined (operation : NetworkOperation) (actor : DeviceId) (n : NetworkId) (d : DeviceId) (nowMs : ℤ) :
    Call NetworkOperationOutcome := do
  advanceKeyEpoch n
  let members ← read fun db => db.listMembers n
  let peerChanges ← advancedChanges n
  audited actor nowMs inputs.auditNow { operationOutcome operation .success n with
    events := eventsForMembers members (some actor) .memberJoined n d
    peerChanges }

/-- The device is asking: its request waits for approval. -/
def requestToJoin (actor : DeviceId) (n : NetworkId) (owner : DeviceId) (nowMs : ℤ) : Call NetworkOperationOutcome := do
  let pending ← read fun db => db.findJoinRequest n actor
  if pending.isSome then pure (operationOutcome .join .pendingApproval n)
  else do
    let added ← write fun db => db.addJoinRequest n actor nowMs
    if ¬ added then pure (operationOutcome .join .conflict n)
    else audited actor nowMs inputs.auditNow { operationOutcome .join .pendingApproval n with
      events := [routedEvent owner .joinRequested n actor] }

def joinNetworkLocked (actor : DeviceId) (n : NetworkId) (nowMs : ℤ) (credentialVerified : Bool) :
    Call NetworkOperationOutcome :=
  catching .join n true do
    write fun db => db.recordDevice actor nowMs
    let network ← read fun db => db.findNetwork n
    match network with
    | none => pure (operationOutcome .join .notFound n)
    | some network => do
      let members ← read fun db => db.listMembers n
      if (findMember members actor).isSome then pure (operationOutcome .join .alreadyExists n)
      else do
        let full ← read fun db => networkLimitReached db actor
        if full then pure (operationOutcome .join .limitReached n)
        else do
          let password ← Action.gets fun s => s.store.networkPassword n
          let invitation ← read fun db => db.findInvitation n actor
          if password.isSome ∧ ¬ credentialVerified ∧ invitation.isNone then
            pure (operationOutcome .join .inviteRequired n)
          else if invitation.isSome ∨ (credentialVerified ∧ password.any fun p => !p.requireApproval) then do
            let added ← write fun db => db.addMember n actor nowMs
            if ¬ added then pure (operationOutcome .join .conflict n)
            else memberJoined inputs .join actor n actor nowMs
          else requestToJoin inputs actor n network.ownerDeviceId nowMs

def joinNetwork (actor : DeviceId) (request : NetworkSelectionRequest) (nowMs : ℤ) : Call NetworkOperationOutcome := do
  Action.lift (requireActorAndTime actor nowMs)
  Action.lift (requireSelectionRequest request)
  joinNetworkLocked inputs actor request.networkId nowMs false

/-- What follows the removal of `d` from `n`; `first` are the events before
those of the members. -/
def memberRemoved (operation : NetworkOperation) (actor : DeviceId) (n : NetworkId) (d : DeviceId) (nowMs : ℤ)
    (first : List RoutedNetworkEvent) (excluded : Option DeviceId) (kind : NetworkEventKind) :
    Call NetworkOperationOutcome := do
  advanceKeyEpoch n
  let members ← read fun db => db.listMembers n
  let revision ← advanceRevision n
  let changes ← Action.query fun s => s.changesForMembers n revision
  audited actor nowMs inputs.auditNow { operationOutcome operation .success n with
    events := first ++ eventsForMembers members excluded kind n d
    peerChanges := changes ++ [{ recipientDeviceId := d, state := none, revocation := ⟨n, revision⟩ }] }

def leaveNetwork (actor : DeviceId) (request : NetworkSelectionRequest) (nowMs : ℤ) :
    Call NetworkOperationOutcome := do
  Action.lift (requireActorAndTime actor nowMs)
  Action.lift (requireSelectionRequest request)
  let n := request.networkId
  catching .leave n false do
    write fun db => db.recordDevice actor nowMs
    let network ← read fun db => db.findNetwork n
    match network with
    | none => pure (operationOutcome .leave .notFound n)
    | some network =>
      if network.ownerDeviceId = actor then pure (operationOutcome .leave .permissionDenied n)
      else do
        let members ← read fun db => db.listMembers n
        if (findMember members actor).isNone then pure (operationOutcome .leave .notMember n)
        else do
          let removed ← write fun db => db.removeMember n actor
          if ¬ removed then pure (operationOutcome .leave .conflict n)
          else memberRemoved inputs .leave actor n actor nowMs [] none .memberLeft

/-! ## Managing members -/

/-- The common start of `invite_member`, `approve_member` and `kick_member`:
the actor manages an existing network and the target is a known device. -/
def managing (operation : NetworkOperation) (full : Bool) (actor : DeviceId) (request : NetworkMemberRequest)
    (nowMs : ℤ) (body : NetworkRecord → Call NetworkOperationOutcome) : Call NetworkOperationOutcome := do
  Action.lift (requireActorAndTime actor nowMs)
  let valid ← Action.lift (validMemberRequest request)
  let n := request.networkId
  if ¬ valid then pure (operationOutcome operation .invalidRequest n)
  else catching operation n full do
    write fun db => db.recordDevice actor nowMs
    let network ← read fun db => db.findNetwork n
    match network with
    | none => pure (operationOutcome operation .notFound n)
    | some network => do
      let manages ← Action.gets fun s => s.canManageNetwork n actor
      if ¬ manages then pure (operationOutcome operation .permissionDenied n)
      else do
        let device ← read fun db => db.findDevice request.deviceId
        if device.isNone then pure (operationOutcome operation .targetNotFound n)
        else body network

def inviteMember (actor : DeviceId) (request : NetworkMemberRequest) (nowMs : ℤ) : Call NetworkOperationOutcome :=
  let n := request.networkId
  let d := request.deviceId
  managing .invite false actor request nowMs fun _ => do
    let members ← read fun db => db.listMembers n
    let invitation ← read fun db => db.findInvitation n d
    if (findMember members d).isSome ∨ invitation.isSome then pure (operationOutcome .invite .alreadyExists n)
    else do
      let pending ← read fun db => db.findJoinRequest n d
      if pending.isSome then pure (operationOutcome .invite .conflict n)
      else do
        let full ← read fun db => networkLimitReached db d
        if full then pure (operationOutcome .invite .limitReached n)
        else do
          let added ← write fun db => db.addInvitation n d nowMs
          if ¬ added then pure (operationOutcome .invite .conflict n)
          else audited actor nowMs inputs.auditNow { operationOutcome .invite .success n with
            events := [routedEvent d .invited n d] }

/-- The revoked flag of the target is not looked at. -/
def approveMember (actor : DeviceId) (request : NetworkMemberRequest) (nowMs : ℤ) : Call NetworkOperationOutcome :=
  let n := request.networkId
  let d := request.deviceId
  managing .approve true actor request nowMs fun _ => do
    let members ← read fun db => db.listMembers n
    if (findMember members d).isSome then pure (operationOutcome .approve .alreadyExists n)
    else do
      let pending ← read fun db => db.findJoinRequest n d
      if pending.isNone then pure (operationOutcome .approve .notFound n)
      else do
        let full ← read fun db => networkLimitReached db d
        if full then pure (operationOutcome .approve .limitReached n)
        else do
          let added ← write fun db => db.addMember n d nowMs
          if ¬ added then pure (operationOutcome .approve .conflict n)
          else memberJoined inputs .approve actor n d nowMs

def kickMember (actor : DeviceId) (request : NetworkMemberRequest) (nowMs : ℤ) : Call NetworkOperationOutcome :=
  let n := request.networkId
  let d := request.deviceId
  managing .kick false actor request nowMs fun network => do
    let policy ← Action.gets fun s => s.store.networkPolicy n
    if d = network.ownerDeviceId ∨ (actor ≠ network.ownerDeviceId ∧ policyRole policy d = .administrator) then
      pure (operationOutcome .kick .permissionDenied n)
    else do
      let members ← read fun db => db.listMembers n
      if (findMember members d).isNone then pure (operationOutcome .kick .notMember n)
      else do
        let removed ← write fun db => db.removeMember n d
        if ¬ removed then pure (operationOutcome .kick .conflict n)
        else memberRemoved inputs .kick actor n d nowMs [routedEvent d .memberKicked n d] (some actor) .memberKicked

end Service

end LanLink
