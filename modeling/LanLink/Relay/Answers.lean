import LanLink.Relay.ChannelRuns
import LanLink.Relay.Emission
import LanLink.Relay.SessionKeys
/-!
# What the relay answers

A request frame that the channel does not throw at is answered by one frame
with its request id. The answer is of a kind that goes with the request and is
about what was asked: the same operation, the same action, the same network.
-/
open LanLink.Lib LanLink.Lib.Action

namespace LanLink

/-- Every key in the state is signed by the device it is listed for. -/
def NetworkPeerState.Signed (crypto : Crypto) (state : NetworkPeerState) : Prop :=
  ∀ peer ∈ state.peers, ∀ key, peer.signedKey = some key → verifySignedDeviceKey crypto key peer.deviceId

/-- The message is an answer to the request. -/
inductive Answers (crypto : Crypto) : ControlRequest → ControlMessage → Prop
  | refused (request : ControlRequest) : Answers crypto request .error
  | management {q : ManagementRequest} {r : ManagementResult} (action : r.action = q.action)
      (networkId : r.networkId = q.networkId) : Answers crypto (.management (.ok q)) (.managementResult r)
  | access {q : AccessRequest} {r : AccessResult} (action : r.action = q.action) :
      Answers crypto (.access (.ok q)) (.accessResult r)
  | candidates (payload : Except Exn CandidateExchange) : Answers crypto (.candidates payload) .candidatesAck
  | capabilityOffer (payload : Except Exn CapabilityOffer) (selection : NegotiatedCapabilities) :
      Answers crypto (.capabilityOffer payload) (.capabilitySelection selection)
  | create {q : NetworkCreateRequest} {r : NetworkOperationResult} (operation : r.operation = .create) :
      Answers crypto (.create (.ok q)) (.operationResult r)
  | networks (networks : List NetworkSummary) : Answers crypto (.list (.ok ())) (.listResult networks)
  | list {r : NetworkOperationResult} (operation : r.operation = .list) : Answers crypto (.list (.ok ())) (.operationResult r)
  | join {q : NetworkSelectionRequest} {r : NetworkOperationResult} (operation : r.operation = .join)
      (networkId : r.networkId = q.networkId) : Answers crypto (.join (.ok q)) (.operationResult r)
  | leave {q : NetworkSelectionRequest} {r : NetworkOperationResult} (operation : r.operation = .leave)
      (networkId : r.networkId = q.networkId) : Answers crypto (.leave (.ok q)) (.operationResult r)
  | invite {q : NetworkMemberRequest} {r : NetworkOperationResult} (operation : r.operation = .invite)
      (networkId : r.networkId = q.networkId) : Answers crypto (.invite (.ok q)) (.operationResult r)
  | approve {q : NetworkMemberRequest} {r : NetworkOperationResult} (operation : r.operation = .approve)
      (networkId : r.networkId = q.networkId) : Answers crypto (.approve (.ok q)) (.operationResult r)
  | kick {q : NetworkMemberRequest} {r : NetworkOperationResult} (operation : r.operation = .kick)
      (networkId : r.networkId = q.networkId) : Answers crypto (.kick (.ok q)) (.operationResult r)
  | peers {q : NetworkSelectionRequest} {state : NetworkPeerState} (networkId : state.networkId = q.networkId)
      (signed : state.Signed crypto) : Answers crypto (.peerState (.ok q)) (.peerStateResult state)
  | noPeers {q : NetworkSelectionRequest} {r : NetworkOperationResult} (operation : r.operation = .peerState)
      (networkId : r.networkId = q.networkId) : Answers crypto (.peerState (.ok q)) (.operationResult r)
  | keyPublish (payload : Except Exn (List NetworkKeyEnvelope)) {r : NetworkOperationResult}
      (operation : r.operation = .keyPublish) : Answers crypto (.keyPublish payload) (.operationResult r)

/-- The dispatch carries an answer to the frame. -/
structure ControlDispatch.AnswersTo (crypto : Crypto) (requestId : UInt32) (request : ControlRequest) (d : ControlDispatch) :
    Prop where
  requestId : d.requestId = requestId
  answers : Answers crypto request d.response

theorem ControlMessage.encode_ok {m m' : ControlMessage} (h : m.encode = .ok m') : m' = m := by
  cases m with
  | error | candidatesAck | candidatesForward =>
    cases h
    rfl
  | _ =>
    simp only [encode, bind_eq_ok, Except.ok.injEq] at h
    obtain ⟨-, -, h⟩ := h
    exact h.symm

/-! ## Results of the service -/

/-- The result is that of `operation` at `n`. -/
def NetworkOperationOutcome.Concerns (operation : NetworkOperation) (n : NetworkId) (o : NetworkOperationOutcome) : Prop :=
  o.result.operation = operation ∧ o.result.networkId = n

namespace Service
variable {inputs : Inputs} {actor : DeviceId} {nowMs : ℤ} {operation : NetworkOperation} {n : NetworkId}

open NetworkOperationOutcome (Concerns)

theorem reports_outcome (operation : NetworkOperation) (code : NetworkResultCode) (n : NetworkId) :
    Concerns operation n (operationOutcome operation code n) := ⟨rfl, rfl⟩

theorem returns_outcome (code : NetworkResultCode) :
    Returns (Concerns operation n) (pure (operationOutcome operation code n) : Call NetworkOperationOutcome) :=
  .pure (reports_outcome operation code n)

theorem returns_catching {full : Bool} {body : Call NetworkOperationOutcome} (h : Returns (Concerns operation n) body) :
    Returns (Concerns operation n) (catching operation n full body) := by
  refine h.tryCatch fun e => ?_
  cases e <;> cases full <;> exact returns_outcome _

/-- `audited` returns the outcome it is given. -/
theorem returns_audited {now : Time} {out : NetworkOperationOutcome} {P : NetworkOperationOutcome → Prop} (h : P out) :
    Returns P (audited actor nowMs now out) := .skip fun _ => .pure h

theorem returns_memberJoined {d : DeviceId} :
    Returns (Concerns operation n) (memberJoined inputs operation actor n d nowMs) :=
  .skip fun _ => .skip fun _ => .skip fun _ => returns_audited ⟨rfl, rfl⟩

theorem returns_memberRemoved {d : DeviceId} {first : List RoutedNetworkEvent} {excluded : Option DeviceId}
    {kind : NetworkEventKind} :
    Returns (Concerns operation n) (memberRemoved inputs operation actor n d nowMs first excluded kind) :=
  .skip fun _ => .skip fun _ => .skip fun _ => .skip fun _ => returns_audited ⟨rfl, rfl⟩

theorem returns_createAttempts {name : Text} {password : Option PasswordVerifier} (left attempt : ℕ) :
    Returns (fun o => o.result.operation = .create) (createAttempts inputs actor name nowMs password left attempt) := by
  induction left generalizing attempt with
  | zero => exact .pure rfl
  | succ left ih =>
    unfold createAttempts
    refine .skip fun n => .ite (ih _) (.skip fun existing => .ite (ih _) (.skip fun created => .ite ?_ (ih _)))
    exact .skip fun _ => .skip fun _ => returns_audited rfl

theorem returns_createNetwork (request : NetworkCreateRequest) :
    Returns (fun o => o.result.operation = .create) (createNetwork inputs actor request nowMs) := by
  refine .skip fun _ => ?_
  split
  · exact .pure rfl
  refine .tryCatch (.skip fun _ => .skip fun full => .ite (.pure rfl) (returns_createAttempts 32 0)) fun e => ?_
  cases e <;> exact .pure rfl

theorem returns_joinNetworkLocked {credentialVerified : Bool} :
    Returns (Concerns .join n) (joinNetworkLocked inputs actor n nowMs credentialVerified) := by
  refine returns_catching (.skip fun _ => .skip fun network => ?_)
  cases network with
  | none => exact returns_outcome _
  | some network =>
    refine .skip fun members => .ite (returns_outcome _) (.skip fun full => .ite (returns_outcome _) ?_)
    refine .skip fun password => .skip fun invitation => .ite (returns_outcome _) (.ite ?_ ?_)
    · exact .skip fun added => .ite (returns_outcome _) returns_memberJoined
    · -- the request that waits for approval
      refine .skip fun pending => .ite (returns_outcome _) (.skip fun added => .ite (returns_outcome _) ?_)
      exact returns_audited ⟨rfl, rfl⟩

theorem returns_joinNetwork (request : NetworkSelectionRequest) :
    Returns (Concerns .join request.networkId) (joinNetwork inputs actor request nowMs) :=
  .skip fun _ => .skip fun _ => returns_joinNetworkLocked

theorem returns_leaveNetwork (request : NetworkSelectionRequest) :
    Returns (Concerns .leave request.networkId) (leaveNetwork inputs actor request nowMs) := by
  refine .skip fun _ => .skip fun _ => returns_catching (.skip fun _ => .skip fun network => ?_)
  cases network with
  | none => exact returns_outcome _
  | some network =>
    refine .ite (returns_outcome _) (.skip fun members => .ite (returns_outcome _) (.skip fun removed => ?_))
    exact .ite (returns_outcome _) returns_memberRemoved

theorem returns_managing {full : Bool} {request : NetworkMemberRequest} {body : NetworkRecord → Call NetworkOperationOutcome}
    (hbody : ∀ network, Returns (Concerns operation request.networkId) (body network)) :
    Returns (Concerns operation request.networkId) (managing operation full actor request nowMs body) := by
  refine .skip fun _ => .skip fun valid => .ite (returns_outcome _) (returns_catching (.skip fun _ => .skip fun network => ?_))
  cases network with
  | none => exact returns_outcome _
  | some network =>
    refine .skip fun manages => .ite (returns_outcome _) (.skip fun device => ?_)
    exact .ite (returns_outcome _) (hbody network)

theorem returns_inviteMember (request : NetworkMemberRequest) :
    Returns (Concerns .invite request.networkId) (inviteMember inputs actor request nowMs) := by
  refine returns_managing fun _ => .skip fun members => .skip fun invitation => .ite (returns_outcome _) ?_
  refine .skip fun pending => .ite (returns_outcome _) (.skip fun full => .ite (returns_outcome _) ?_)
  exact .skip fun added => .ite (returns_outcome _) (returns_audited ⟨rfl, rfl⟩)

theorem returns_approveMember (request : NetworkMemberRequest) :
    Returns (Concerns .approve request.networkId) (approveMember inputs actor request nowMs) := by
  refine returns_managing fun _ => .skip fun members => .ite (returns_outcome _) ?_
  refine .skip fun pending => .ite (returns_outcome _) (.skip fun full => .ite (returns_outcome _) ?_)
  exact .skip fun added => .ite (returns_outcome _) returns_memberJoined

theorem returns_kickMember (request : NetworkMemberRequest) :
    Returns (Concerns .kick request.networkId) (kickMember inputs actor request nowMs) := by
  refine returns_managing fun network => .skip fun policy => .ite (returns_outcome _) ?_
  refine .skip fun members => .ite (returns_outcome _) (.skip fun removed => ?_)
  exact .ite (returns_outcome _) returns_memberRemoved

/-- The result of a management request names its action and its network. -/
theorem returns_manageNetwork (q : ManagementRequest) :
    Returns (fun out => out.result.action = q.action ∧ out.result.networkId = q.networkId)
      (manageNetwork inputs actor q nowMs) := by
  have haction : Returns (fun out : ManagementOutcome => out.result.action = q.action ∧ out.result.networkId = q.networkId)
      (manageAction actor q nowMs) := by
    refine .skip fun network => ?_
    cases network with
    | none => exact .pure ⟨rfl, rfl⟩
    | some network =>
      refine .skip fun allowed => .skip fun lease => .ite (.pure ⟨rfl, rfl⟩) (.skip fun current => .ite ?_ ?_)
      · refine .skip fun manages => .ite (.pure ⟨rfl, rfl⟩) (.skip fun pending => .skip fun audit => ?_)
        exact .skip fun failures => .pure ⟨rfl, rfl⟩
      · refine .skip fun edit => ?_
        cases edit with
        | error code => exact .pure ⟨rfl, rfl⟩
        | ok next =>
          refine .skip fun saved => .ite (.pure ⟨rfl, rfl⟩) (.skip fun _ => .skip fun changes => .pure ⟨rfl, rfl⟩)
  refine .skip fun _ => .skip fun _ => haction.bind fun out hout => .ite (.pure hout) ?_
  exact .skip fun _ => .pure hout

section
variable {crypto : Crypto} {q : AccessRequest}

theorem returns_accountReport (account : Option AccountRecord) (secret : Text) :
    Returns (fun out => out.result.action = q.action) (accountReport q account secret) := by
  cases account with
  | none => exact .pure rfl
  | some account => exact .skip fun _ => .pure rfl

theorem returns_inviteAction :
    Returns (fun out => out.result.action = q.action) (inviteAction crypto inputs actor q nowMs) := by
  refine .skip fun allowed => .ite (.pure rfl) (.skip fun network => .ite (.ite (.pure rfl) ?_) ?_)
  · refine .skip fun lease => .ite (.pure rfl) (.skip fun full => .skip fun members => .ite (.pure rfl) ?_)
    exact .skip fun redeemed => .ite (.pure rfl) (.skip fun join => .pure rfl)
  · refine .skip fun manages => .ite (.pure rfl) (.ite (.skip fun _ => .pure rfl) (.ite (.pure rfl) ?_))
    exact .skip fun nonce => .skip fun _ => .pure rfl

theorem returns_passwordAction :
    Returns (fun out => out.result.action = q.action) (passwordAction crypto inputs actor q nowMs) := by
  refine .skip fun allowed => .ite (.pure rfl) (.skip fun network => .ite ?_ ?_)
  · refine .skip fun manages => .ite (.pure rfl) (.ite (.skip fun _ => .pure rfl) ?_)
    exact .skip fun salt => .skip fun verifier => .skip fun _ => .pure rfl
  · exact .skip fun verifier => .skip fun isMatch => .ite (.pure rfl) (.skip fun join => .pure rfl)

theorem returns_deviceRevoke : Returns (fun out => out.result.action = q.action) (deviceRevoke actor q) := by
  refine .skip fun account => .skip fun target => ?_
  cases account with
  | none => exact .pure rfl
  | some account =>
    cases target with
    | none => exact .pure rfl
    | some target =>
      refine .ite (.pure rfl) (.skip fun networks => .ite (.pure rfl) (.skip fun _ => .skip fun changes => ?_))
      exact .skip fun _ => .pure rfl

/-- The result of an access request names its action. -/
theorem returns_accessRequest (q : AccessRequest) :
    Returns (fun out => out.result.action = q.action) (accessRequest crypto inputs actor q nowMs) := by
  have haction : Returns (fun out : AccessOutcome => out.result.action = q.action) (accessAction crypto inputs actor q nowMs) := by
    refine .skip fun allowed => .ite (.pure rfl) (.skip fun _ => .skip fun account => ?_)
    split
    · exact returns_deviceRevoke
    · refine .skip fun _ => .skip fun allowed => .ite (.pure rfl) (.skip fun salt => .skip fun verifier => ?_)
      exact .skip fun created => .pure rfl
    · exact returns_inviteAction
    · exact returns_inviteAction
    · exact returns_inviteAction
    · exact returns_passwordAction
    · exact returns_passwordAction
    · refine .ite (.pure rfl) (.ite (.pure rfl) (.skip fun id => .skip fun _ => .skip fun account => ?_))
      exact returns_accountReport _ _
    · exact returns_accountReport _ _
    · unfold enrollmentIssue
      split
      · exact .pure rfl
      · exact .ite (.pure rfl) (.skip fun nonce => .skip fun _ => returns_accountReport _ _)
    · refine .ite (.pure rfl) (.skip fun enrolled => .ite (.pure rfl) (.skip fun account => ?_))
      exact returns_accountReport _ _
  refine .skip fun _ => .skip fun _ => .bind (haction.tryCatch fun e => ?_) fun out hout => .skip fun _ => .pure hout
  exact .skip fun _ => .throw e

end

/-! ## Keys in peer states -/

section
variable {crypto : Crypto} {s s' : Service} {d : DeviceId} {state : NetworkPeerState}

/-- A key in a peer state is one that the relay holds. -/
theorem signedKey_of_makePeerState {revision : UInt64} (h : s.makePeerState n d revision = .ok state) {peer : NetworkPeer}
    (hpeer : peer ∈ state.peers) {key : SignedDeviceKey} (hkey : peer.signedKey = some key) :
    ∃ k, s.activeKeys.lookup peer.deviceId = some k ∧ k.signedKey = key := by
  simp only [makePeerState, bind_eq_ok] at h
  obtain ⟨subnet, -, network, -, h⟩ := h
  cases subnet with
  | none => cases h
  | some subnet =>
  cases network with
  | none => cases h
  | some network =>
    simp only [bind_eq_ok] at h
    obtain ⟨leases, -, assembled, hassembled, h⟩ := h
    obtain ⟨-, own, -, rfl⟩ := assemblePeerState_ok hassembled
    have hlisted {peer : NetworkPeer} (hpeer : peer ∈ (leases.filter fun l => l.deviceId ≠ d).map fun l =>
        ({ deviceId := l.deviceId, ipv4Address := l.address,
           signedKey := (s.activeKeys.lookup l.deviceId).map (·.signedKey) } : NetworkPeer))
        (hkey : peer.signedKey = some key) : ∃ k, s.activeKeys.lookup peer.deviceId = some k ∧ k.signedKey = key := by
      obtain ⟨l, -, rfl⟩ := List.mem_map.1 hpeer
      exact Option.map_eq_some_iff.1 hkey
    split at h
    · cases h
      obtain ⟨listed, hlistedMem, rfl⟩ := List.mem_map.1 hpeer
      -- a key is hidden where the peer cannot do managed networks
      split at hkey
      · rename_i hcapable
        rw [if_pos hcapable]
        exact hlisted hlistedMem hkey
      · cases hkey
    · cases h
      exact hlisted hpeer hkey

theorem Current.signed (h : s.Current d state) (hverified : s.KeysVerified crypto) : state.Signed crypto := by
  intro peer hpeer key hkey
  obtain ⟨k, hlookup, rfl⟩ := signedKey_of_makePeerState h hpeer hkey
  exact (hverified peer.deviceId k hlookup).2

theorem keysVerified_reachable (h : Reachable (step crypto) s s') (hw : s.tables.Wf) (hverified : s.KeysVerified crypto) :
    s'.tables.Wf ∧ s'.KeysVerified crypto := by
  refine h.inv (fun s => s.tables.Wf ∧ s.KeysVerified crypto) ⟨hw, hverified⟩ fun s e hs => ⟨wf_step crypto hs.1 e, ?_⟩
  cases e with
  | call op inputs => exact keysVerified_perform inputs op hs.1 hs.2
  | restart => intro d k hk; cases hk

/-- The state that is returned is the one asked for, with keys that their devices signed. -/
theorem post_peerState {request : NetworkSelectionRequest} (hw : s.tables.Wf) (hverified : s.KeysVerified crypto) :
    Post (peerState actor request nowMs) s fun r _ => ∀ o, r = .ok o → ∀ state, o.state = some state →
      state.networkId = request.networkId ∧ state.Signed crypto := by
  have hspeaks := @speaks_peerState actor nowMs request s
  have hserviced : Within (Channel.Serviced crypto) (Channel.onService (peerState actor request nowMs)) :=
    Channel.serviced_onService {} (.peerState actor request nowMs) rfl
  obtain ⟨-, hkept⟩ := keysVerified_reachable (hserviced { service := s }) hw hverified
  have hnetwork : Returns (fun o : NetworkPeerStateOutcome => ∀ state, o.state = some state →
      state.networkId = request.networkId) (peerState actor request nowMs) := by
    refine .skip fun _ => .skip fun _ => .tryCatch (.skip fun _ => .skip fun network => .ite (.pure nofun) ?_)
      fun _ => .pure nofun
    refine .skip fun lease => .ite (.pure nofun) ?_
    refine .bind (.query fun s state hstate => (makePeerState_ok hstate).1) fun state hstate => .pure ?_
    rintro _ ⟨⟩
    exact hstate
  intro o ho state hstate
  refine ⟨hnetwork s o ho state hstate, ?_⟩
  have hcurrent := hspeaks o ho (actor, state) (by simp [hstate])
  exact hcurrent.signed hkept

end

end Service

/-! ## Answers of the channel -/

namespace Channel
variable {crypto : Crypto} {inputs : ChannelInputs} {actor : DeviceId} {requestId : UInt32} {request : ControlRequest}

open ControlDispatch (AnswersTo)

theorem returns_refused :
    Returns (AnswersTo crypto requestId request) (pure { requestId, response := .error } : Call ControlDispatch) :=
  .pure ⟨rfl, .refused request⟩

theorem returns_onService {α : Type} {P : α → Prop} {x : LanLink.Call α} (h : Returns P x) : Returns P (onService x) :=
  fun c => h c.service

theorem returns_handleOperation {q : Type} {payload : Except Exn q} {operation : q → ℤ → LanLink.Call NetworkOperationOutcome}
    {P : q → NetworkOperationOutcome → Prop} (hoperation : ∀ x t, Returns (P x) (operation x t))
    (hanswers : ∀ x o, payload = .ok x → P x o → Answers crypto request (.operationResult o.result)) :
    Returns (AnswersTo crypto requestId request) (handleOperation inputs requestId payload operation) := by
  refine .bind (.lift fun x hx => hx) fun x hx => .skip fun t => .bind (returns_onService (hoperation x t)) fun o ho => ?_
  refine .query fun c d hd => ?_
  simp only [bind_eq_ok, Except.ok.injEq] at hd
  obtain ⟨response, hresponse, events, -, changes, -, rfl⟩ := hd
  exact ⟨rfl, ControlMessage.encode_ok hresponse ▸ hanswers x o hx ho⟩

theorem returns_handleManagement {payload : Except Exn ManagementRequest} :
    Returns (AnswersTo crypto requestId (.management payload)) (handleManagement inputs actor requestId payload) := by
  refine .skip fun negotiated => .ite returns_refused (.bind (.lift fun q hq => hq) fun q hq => .skip fun t => ?_)
  refine .bind (returns_onService (Service.returns_manageNetwork q)) fun out hout => .query fun c d hd => ?_
  simp only [bind_eq_ok, Except.ok.injEq] at hd
  obtain ⟨response, hresponse, events, -, rfl⟩ := hd
  subst hq
  exact ⟨rfl, ControlMessage.encode_ok hresponse ▸ .management hout.1 hout.2⟩

theorem returns_handleAccess {payload : Except Exn AccessRequest} :
    Returns (AnswersTo crypto requestId (.access payload)) (handleAccess crypto inputs actor requestId payload) := by
  refine .bind (.lift fun q hq => hq) fun q hq => .skip fun negotiated => .ite returns_refused (.skip fun t => ?_)
  refine .bind (returns_onService (Service.returns_accessRequest q)) fun out hout => .query fun c d hd => ?_
  simp only [bind_eq_ok, Except.ok.injEq] at hd
  obtain ⟨changes, -, notifications, -, response, hresponse, rfl⟩ := hd
  subst hq
  exact ⟨rfl, ControlMessage.encode_ok hresponse ▸ .access hout⟩

theorem answersTo_forwardCandidates {payload : Except Exn CandidateExchange} (x : CandidateExchange) (c : Channel) :
    AnswersTo crypto requestId (.candidates payload) (forwardCandidates actor requestId x c).1 := by
  have hrefused : AnswersTo crypto requestId (.candidates payload) { requestId, response := .error } := ⟨rfl, .refused _⟩
  unfold forwardCandidates
  split
  · dsimp only
    split
    · exact hrefused
    · split
      · exact hrefused
      · exact ⟨rfl, .candidates payload⟩
  · exact hrefused

theorem returns_handleOffer {payload : Except Exn CapabilityOffer} :
    Returns (AnswersTo crypto requestId (.capabilityOffer payload)) (handleOffer actor requestId payload) := by
  refine .skip fun offer => .skip fun negotiated => .skip fun session => ?_
  cases session with
  | none => exact returns_refused
  | some session =>
    refine .skip fun _ => .skip fun changes => .query fun c d hd => ?_
    simp only [bind_eq_ok, Except.ok.injEq] at hd
    obtain ⟨response, hresponse, events, -, rfl⟩ := hd
    exact ⟨rfl, ControlMessage.encode_ok hresponse ▸ .capabilityOffer payload negotiated⟩

theorem returns_handleList {payload : Except Exn Unit} :
    Returns (AnswersTo crypto requestId (.list payload)) (handleList inputs actor requestId payload) := by
  refine .bind (.lift fun q hq => hq) fun _ hq => .skip fun t => .skip fun outcome => .lift fun d hd => ?_
  subst hq
  unfold listResponse at hd
  split at hd <;> simp only [bind_eq_ok, Except.ok.injEq] at hd <;> obtain ⟨response, hresponse, rfl⟩ := hd
  · exact ⟨rfl, ControlMessage.encode_ok hresponse ▸ .networks _⟩
  · exact ⟨rfl, ControlMessage.encode_ok hresponse ▸ .list rfl⟩

theorem returns_handleKeyPublish {payload : Except Exn (List NetworkKeyEnvelope)} :
    Returns (AnswersTo crypto 0 (.keyPublish payload)) (handleKeyPublish crypto actor payload) := by
  refine .skip fun envelopes => .skip fun outcome => .lift fun d hd => ?_
  simp only [keyPublishResponse, bind_eq_ok] at hd
  obtain ⟨response, hresponse, hd⟩ := hd
  have hanswers : Answers crypto (.keyPublish payload) response :=
    ControlMessage.encode_ok hresponse ▸ .keyPublish payload rfl
  split at hd
  · simp only [bind_eq_ok, Except.ok.injEq] at hd
    obtain ⟨events, -, rfl⟩ := hd
    exact ⟨rfl, hanswers⟩
  · cases hd
    exact ⟨rfl, hanswers⟩

theorem answersTo_peerStateResponse {q : NetworkSelectionRequest} {outcome : NetworkPeerStateOutcome} {capable : Bool}
    {d : ControlDispatch} (hstate : ∀ state, outcome.state = some state → state.networkId = q.networkId ∧ state.Signed crypto)
    (hd : peerStateResponse requestId q.networkId outcome capable = .ok d) :
    AnswersTo crypto requestId (.peerState (.ok q)) d := by
  have hnone {code : NetworkResultCode} {response : ControlMessage}
      (h : (ControlMessage.operationResult ⟨.peerState, code, q.networkId⟩).encode = .ok response) :
      Answers crypto (.peerState (.ok q)) response := ControlMessage.encode_ok h ▸ .noPeers rfl rfl
  unfold peerStateResponse at hd
  dsimp only at hd
  split at hd
  · rename_i state hshown
    -- a state is sent only where it is not denied
    split at hshown
    · cases hshown
    rename_i hallowed
    obtain ⟨hnetwork, hsigned⟩ := hstate state hshown
    simp only [if_neg hallowed] at hd
    split at hd
    all_goals
      simp only [bind_eq_ok, Except.ok.injEq] at hd
      obtain ⟨response, hresponse, rfl⟩ := hd
    · exact ⟨rfl, ControlMessage.encode_ok hresponse ▸ .peers hnetwork hsigned⟩
    · exact ⟨rfl, hnone hresponse⟩
  · simp only [bind_eq_ok, Except.ok.injEq] at hd
    obtain ⟨response, hresponse, rfl⟩ := hd
    exact ⟨rfl, hnone hresponse⟩

theorem post_handlePeerState {payload : Except Exn NetworkSelectionRequest} {c : Channel} (hw : c.service.tables.Wf)
    (hverified : c.service.KeysVerified crypto) :
    Post (handlePeerState inputs actor requestId payload) c fun r _ => ∀ d, r = .ok d →
      AnswersTo crypto requestId (.peerState payload) d := by
  refine post_lift_bind (fun q hq => post_lift_bind (fun t _ => ?_) ?_) ?_
  · subst hq
    rw [post_bind, post_onService]
    refine (Service.post_peerState hw hverified).mono fun r s' h => ?_
    cases r with
    | error e => rintro _ ⟨⟩
    | ok outcome =>
      intro d hd
      exact answersTo_peerStateResponse (h outcome rfl) hd
  all_goals rintro e _ ⟨⟩

theorem post_dispatch {c : Channel} (hw : c.service.tables.Wf) (hverified : c.service.KeysVerified crypto)
    (hpublish : ∀ payload, request = .keyPublish payload → requestId = 0) :
    Post (dispatch crypto inputs actor requestId request) c fun r _ => ∀ d, r = .ok d → AnswersTo crypto requestId request d := by
  cases request with
  | management payload => exact returns_handleManagement c
  | access payload => exact returns_handleAccess c
  | candidates payload =>
    have hreturns : Returns (AnswersTo crypto requestId (.candidates payload)) (handleCandidates actor requestId payload) := by
      refine .skip fun x => .skip fun authorized => .ite returns_refused fun c d hd => ?_
      cases hd
      exact answersTo_forwardCandidates x c
    exact hreturns c
  | create payload =>
    exact returns_handleOperation (fun q t => Service.returns_createNetwork q) (fun q o hq ho => hq ▸ .create ho) c
  | list payload => exact returns_handleList c
  | capabilityOffer payload => exact returns_handleOffer c
  | join payload =>
    exact returns_handleOperation (fun q t => Service.returns_joinNetwork q) (fun q o hq ho => hq ▸ .join ho.1 ho.2) c
  | leave payload =>
    exact returns_handleOperation (fun q t => Service.returns_leaveNetwork q) (fun q o hq ho => hq ▸ .leave ho.1 ho.2) c
  | invite payload =>
    exact returns_handleOperation (fun q t => Service.returns_inviteMember q) (fun q o hq ho => hq ▸ .invite ho.1 ho.2) c
  | approve payload =>
    exact returns_handleOperation (fun q t => Service.returns_approveMember q) (fun q o hq ho => hq ▸ .approve ho.1 ho.2) c
  | kick payload =>
    exact returns_handleOperation (fun q t => Service.returns_kickMember q) (fun q o hq ho => hq ▸ .kick ho.1 ho.2) c
  | peerState payload => exact post_handlePeerState hw hverified
  | keyPublish payload =>
    rw [hpublish payload rfl]
    exact returns_handleKeyPublish c
  | other => rintro _ ⟨⟩

/-- The channel answers a frame under its request id, or throws. -/
theorem post_handleAuthenticated (f : ControlFrame) {c : Channel} (hw : c.service.tables.Wf)
    (hverified : c.service.KeysVerified crypto) :
    Post (handleAuthenticated crypto inputs actor f) c fun r _ => ∀ d, r = .ok d →
      AnswersTo crypto f.requestId f.request d := by
  refine post_lift_bind (fun _ hframe => ?_) ?_
  swap
  · rintro e _ ⟨⟩
  have hpublish : ∀ payload, f.request = .keyPublish payload → f.requestId = 0 := by
    intro payload hpayload
    simp only [requireFrame, hpayload, bind_eq_ok, check_eq_ok] at hframe
    obtain ⟨-, -, hzero⟩ := hframe
    exact hzero
  have hserviced : Within (Serviced crypto) (onService (Service.admitControl actor inputs.now)) :=
    serviced_onService inputs.toInputs (.admitControl actor) rfl
  obtain ⟨hw₁, hverified₁⟩ := Service.keysVerified_reachable (hserviced c) hw hverified
  have hrefused (id : UInt32) (c : Channel) : Post (pure { requestId := id, response := .error } : Call ControlDispatch) c
      fun r _ => ∀ d, r = .ok d → AnswersTo crypto id f.request d := returns_refused c
  -- the limiter returns and does not throw
  rw [post_bind]
  refine (show Post (onService (Service.admitControl actor inputs.now)) c fun r c' =>
    c' = (onService (Service.admitControl actor inputs.now) c).2 from rfl).mono fun r c₁ hc₁ => ?_
  subst hc₁
  cases r with
  | error e => rintro _ ⟨⟩
  | ok admitted =>
  dsimp only
  rw [post_ite]
  refine ⟨fun _ => hrefused _ _, fun _ => ?_⟩
  rw [post_tryCatch, post_gets_bind, post_ite]
  refine ⟨fun _ => ?_, fun _ => ?_⟩
  · rw [post_pure]
    rintro _ ⟨⟩
    exact ⟨rfl, .refused _⟩
  refine (post_dispatch hw₁ hverified₁ hpublish).mono fun r c' h => ?_
  cases r with
  | ok d => exact h
  | error e => exact hrefused _ _

end Channel

end LanLink
