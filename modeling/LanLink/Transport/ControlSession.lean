import LanLink.Transport.ControlCalls
/-!
# Control calls across a connection

A client and a relay with a stream each way that keeps its order. Threads of the
client call, other frames of both sides go in between, other devices do what
they like at the relay, calls give up and the connection closes, in any order.
A call that returns a response returns what the relay answered to its request.
-/
open LanLink.Lib LanLink.Lib.Action

namespace LanLink

/-- A call that drew an id, and whether its request was sent. -/
structure MadeCall where
  requestId : UInt32
  call : ControlCall
  sent : Bool
  deriving DecidableEq, Repr

def MadeCall.frame (m : MadeCall) : ControlFrame := { requestId := m.requestId, request := m.call.request }

structure ControlSession where
  client : ControlClient
  relay : Channel := { service := .fresh {} }
  /-- Neither side has thrown at a frame. -/
  clientUp : Bool := true
  relayUp : Bool := true
  made : List MadeCall := []
  toRelay : List ControlFrame := []
  /-- What the relay made of the frames it took. -/
  served : List (ControlFrame × Except Exn ControlDispatch) := []
  toClient : List RelayFrame := []
  /-- The frames the client took. -/
  delivered : List RelayFrame := []

inductive ControlEvent
  | call (call : ControlCall) (timeoutMs : ℤ) (sends : Bool)
  /-- The client sends a capability offer, key envelopes, candidates or a packet. -/
  | post (frame : ControlFrame)
  /-- The relay takes the next frame, or its rate limit throws. -/
  | serve (inputs : ChannelInputs) (allowed : Bool)
  /-- The relay sends what an event of another device routes to this one. -/
  | notify (message : RelayMessage)
  /-- Something else happens at the relay. -/
  | relay (e : RelayEvent)
  | deliver (inputs : ClientInputs) (now : Time)
  | timeOut (id : UInt32)
  | close (reason : CloseReason)
  /-- The worker of the event queue takes a message, or its handler returns. -/
  | worker (takes : Bool)

namespace ControlSession
variable (crypto : KeyCrypto) (sizes : EventSizes) (encryptionKey : DeviceEncryptionKey)

/-- The frames of a dispatch that go to `device`: the response, then what is routed to it. -/
def framesFor (device : DeviceId) (d : ControlDispatch) : List RelayFrame :=
  { requestId := d.requestId, message := .control d.response } ::
    (d.events.filter fun e => e.recipientDeviceId = device).map fun e => { requestId := 0, message := .control e.message }

def device (s : ControlSession) : DeviceId := s.client.cache.identity.deviceId crypto

def serve (inputs : ChannelInputs) (allowed : Bool) (s : ControlSession) : ControlSession :=
  match s.relayUp, s.toRelay with
  | true, f :: toRelay =>
    if allowed then
      let r := Channel.handleAuthenticated crypto.toCrypto inputs (s.device crypto) f s.relay
      let s := { s with toRelay, served := s.served ++ [(f, r.1)], relay := r.2 }
      match r.1 with
      | .ok d => { s with toClient := s.toClient ++ framesFor (s.device crypto) d }
      | .error _ => { s with relayUp := false }
    else
      { s with toRelay, served := s.served ++ [(f, .error (.runtimeError "QUIC control request rate exceeded"))], relayUp := false }
  | _, _ => s

def deliver (inputs : ClientInputs) (now : Time) (s : ControlSession) : ControlSession :=
  match s.clientUp, s.toClient with
  | true, f :: toClient =>
    let r := ControlClient.handleControlFrame crypto sizes inputs now encryptionKey f s.client
    { s with toClient, delivered := s.delivered ++ [f], client := r.2, clientUp := r.1.isOk }
  | _, _ => s

def call (call : ControlCall) (timeoutMs : ℤ) (sends : Bool) (s : ControlSession) : ControlSession :=
  let r := s.client.requestControl call timeoutMs sends
  match r.1 with
  | .drew id =>
    let m : MadeCall := { requestId := id, call, sent := sends }
    { s with client := r.2, made := s.made ++ [m], toRelay := s.toRelay ++ if sends then [m.frame] else [] }
  | _ => { s with client := r.2 }

def step (s : ControlSession) : ControlEvent → ControlSession
  | .call c timeoutMs sends => s.call c timeoutMs sends
  | .post frame => if controlId frame.requestId then s else { s with toRelay := s.toRelay ++ [frame] }
  | .serve inputs allowed => s.serve crypto inputs allowed
  | .notify message => { s with toClient := s.toClient ++ [{ requestId := 0, message }] }
  | .relay e => { s with relay := s.relay.relayStep crypto.toCrypto e }
  | .deliver inputs now => s.deliver crypto sizes encryptionKey inputs now
  | .timeOut id => { s with client := { s.client with attempt := s.client.attempt.timeOut id } }
  | .close reason => { s with client := s.client.close reason }
  | .worker takes =>
    let events := s.client.events
    { s with client := { s.client with events := if takes then events.take.2 else events.finish } }

/-- The session of a client that comes with `cache`, its counter at `first`, after `k` events. -/
def run (cache : QuicClient) (first : UInt32) (events : ℕ → ControlEvent) (k : ℕ) : ControlSession :=
  states (step crypto sizes encryptionKey) { client := { cache, nextRequestId := first } } events k

end ControlSession

/-! ## What the client makes of an answer -/

/-- The call that waits is `call`. -/
structure PendingControl.Waits (p : PendingControl) (call : ControlCall) : Prop where
  type : p.requestType = call.type
  operation : p.operation = call.operation
  networkId : p.networkId = call.networkId

/-- What `request_control` throws when the relay rejects the request. -/
def rejected : Exn := .runtimeError "relay rejected network control request"

/-- What a call gets from an answer. -/
def ControlMessage.result : ControlMessage → Except Exn ControlMessage
  | .error => .error rejected
  | m => .ok m

section
variable {crypto : KeyCrypto} {call : ControlCall} {m : ControlMessage}

theorem verifyPeerKeys_of_signed {state : NetworkPeerState} (h : state.Signed crypto.toCrypto) :
    QuicClient.verifyPeerKeys crypto state = .ok () := by
  refine check_of ?_
  rw [List.all_eq_true]
  intro peer hpeer
  cases hkey : peer.signedKey with
  | none => rfl
  | some key => exact h peer hpeer key hkey

/-- An answer is accepted by the call that asked. -/
theorem Answers.accept (h : Answers crypto.toCrypto call.request m) {p : PendingControl} (hp : p.Waits call) :
    ControlClient.acceptResponse crypto p m = .ok m.result := by
  obtain ⟨htype, hoperation, hnetwork⟩ := hp
  cases call <;> cases h <;>
    simp_all [ControlClient.acceptResponse, ControlCall.type, ControlCall.operation, ControlCall.networkId, ControlMessage.result,
      rejected, verifyPeerKeys_of_signed, check_of]

/-- The function that asked makes a reply of it. -/
theorem Answers.reply (h : Answers crypto.toCrypto call.request m) (hm : m ≠ .error) :
    ∃ reply, call.reply crypto m = some (.ok reply) := by
  cases call <;> cases h <;> simp_all [ControlCall.reply, verifyPeerKeys_of_signed]

end

namespace ControlClient
variable {crypto : KeyCrypto} {sizes : EventSizes} {encryptionKey : DeviceEncryptionKey} {inputs : ClientInputs} {now : Time}
  {f : RelayFrame}

/-- What control calls depend on. -/
def callState (c : ControlClient) : ControlAttempt × UInt32 := (c.attempt, c.nextRequestId)

theorem leaves_onCache {α : Type} (x : ClientCall α) : Leaves callState (onCache x) := fun _ => rfl

theorem leaves_handleSelection (m : ControlMessage) : Leaves callState (handleSelection m) := by
  unfold handleSelection
  split
  · exact .ite (.throw _) (.modify fun _ => rfl)
  · exact .throw _
  · exact .modify fun _ => rfl
  · exact .modify fun _ => rfl
  · exact .throw _

/-- A frame without the id of a control call touches no call. -/
theorem leaves_handleControlFrame (h : controlId f.requestId = false) :
    Leaves callState (handleControlFrame crypto sizes inputs now encryptionKey f) := by
  have hid : f.requestId = capabilityRequestId ∨ f.requestId = 0 := by
    simp only [controlId, Bool.and_eq_false_iff, decide_eq_false_iff_not, not_not] at h
    exact h.symm
  unfold handleControlFrame
  dsimp only
  split
  · exact .pure _
  · refine .modify fun c => ?_
    split <;> rfl
  · refine .ite (.throw _) (.bind (.lift _) fun _ => .modify fun c => ?_)
    split
    · dsimp only
      split <;> rfl
    · rfl
  · by_cases hcapability : f.requestId = capabilityRequestId
    · rw [if_pos hcapability]
      exact leaves_handleSelection _
    · rw [if_neg hcapability]
      split
      · exact .bind (.lift _) fun _ => leaves_onCache _
      · exact .bind (.lift _) fun _ => leaves_onCache _
      · exact .bind (.lift _) fun _ => leaves_onCache _
      · exact .bind (.lift _) fun _ _ => rfl
      · rw [if_neg (not_not.2 (hid.resolve_left hcapability))]
        split
        · exact .lift _
        · exact .pure _
        · exact .throw _

/-- An answer goes to the call that waits under its id. -/
theorem handleControlFrame_answer {call : ControlCall} {m : ControlMessage} {id : UInt32} (hid : controlId id = true)
    (h : Answers crypto.toCrypto call.request m) :
    handleControlFrame crypto sizes inputs now encryptionKey ⟨id, .control m⟩ = handleResponse crypto id m := by
  simp only [controlId, Bool.and_eq_true, decide_eq_true_eq] at hid
  cases call <;> cases h <;> simp [handleControlFrame, hid]

end ControlClient

/-! ## What holds throughout -/

namespace ControlSession
variable {crypto : KeyCrypto} {sizes : EventSizes} {encryptionKey : DeviceEncryptionKey} {first : UInt32}

/-- The response the relay made under the id of a control call. -/
def answer (x : ControlFrame × Except Exn ControlDispatch) : Option RelayFrame :=
  match x.2 with
  | .ok d => if controlId x.1.requestId then some ⟨x.1.requestId, .control d.response⟩ else none
  | .error _ => none

/-- How many calls the ids are enough for. -/
def callLimit : ℕ := 2 ^ 32 - 2

/-- The ids of the calls that were made, of which `d` numbers were looked at, are all different. -/
structure Ids (first : UInt32) (s : ControlSession) (d : ℕ) : Prop where
  round : d ≤ 2 ^ 32
  next : s.client.nextRequestId = (· + 1)^[d] first
  drawn : s.made.map (·.requestId) = Serials.drawn (· + 1) controlId first d

/-- What is on its way and what has arrived. -/
structure Streams (s : ControlSession) : Prop where
  outward : (s.served.map (·.1) ++ s.toRelay).filter (fun f => controlId f.requestId) = (s.made.filter (·.sent)).map (·.frame)
  inward : (s.delivered ++ s.toClient).filter (fun f => controlId f.requestId) = s.served.filterMap answer
  serving : s.relayUp = true → ∀ f e, (f, .error e) ∉ s.served

/-- The relay has answered what it served. -/
structure Answered (crypto : KeyCrypto) (s : ControlSession) : Prop where
  wf : s.relay.service.tables.Wf
  verified : s.relay.service.KeysVerified crypto.toCrypto
  answers : ∀ f d, (f, .ok d) ∈ s.served → d.AnswersTo crypto.toCrypto f.requestId f.request

/-- A call waits for an answer that has not come, or has returned once. -/
structure Calls (s : ControlSession) : Prop where
  calls : s.client.attempt.calls = s.made.length
  waiting : ∀ id p, s.client.attempt.pending.lookup id = some p →
    ∃ x, s.made[p.call]? = some x ∧ x.requestId = id ∧ p.Waits x.call ∧
      (∀ f ∈ s.delivered, f.requestId ≠ id) ∧ p.call ∉ s.client.attempt.returned.map (·.1)
  once : (s.client.attempt.returned.map (·.1)).Nodup
  returned : ∀ i r, (i, r) ∈ s.client.attempt.returned → ∃ x, s.made[i]? = some x ∧
    (r.isOk ∨ r = .error rejected → ∃ m, ⟨x.requestId, .control m⟩ ∈ s.delivered ∧ r = m.result)
  accounted : ∀ i x, s.made[i]? = some x → i ∈ s.client.attempt.returned.map (·.1) ∨
    ∃ p, s.client.attempt.pending.lookup x.requestId = some p ∧ p.call = i

structure Inv (crypto : KeyCrypto) (first : UInt32) (s : ControlSession) : Prop where
  ids : ∃ d, Ids first s d
  streams : Streams s
  answered : Answered crypto s
  calls : Calls s

theorem injOn_ids : Set.InjOn (fun p => (· + 1)^[p] first) (Set.Iio (2 ^ 32)) := by
  have hiter (p : ℕ) : (· + 1)^[p] first = first + UInt32.ofNat p := by
    induction p with
    | zero => simp
    | succ p ih =>
      rw [Function.iterate_succ_apply', ih]
      apply UInt32.toNat_inj.1
      simp
      omega
  intro p hp q hq heq
  simp only [hiter, UInt32.add_right_inj] at heq
  have hsame := congrArg UInt32.toNat heq
  simp only [UInt32.toNat_ofNat', Set.mem_Iio] at hsame hp hq
  omega

/-- All ids but two are there for calls. -/
theorem callLimit_le : callLimit ≤ (Serials.drawn (· + 1) controlId first (2 ^ 32)).length := by
  have h := @Serials.length_drawn _ (· + 1) controlId first (2 ^ 32) injOn_ids [0, capabilityRequestId] fun p _ hp => by
    simp only [controlId, Bool.and_eq_false_iff, decide_eq_false_iff_not, not_not] at hp
    simpa using hp
  simp only [List.length_cons, List.length_nil] at h
  unfold callLimit
  omega

variable {s : ControlSession}

theorem Ids.nodup {d : ℕ} (h : Ids first s d) : (s.made.map (·.requestId)).Nodup := by
  rw [h.drawn]
  exact Serials.nodup_drawn injOn_ids h.round

theorem Ids.control {d : ℕ} (h : Ids first s d) {x : MadeCall} (hx : x ∈ s.made) : controlId x.requestId = true := by
  have hmem := @List.mem_map_of_mem _ _ _ _ (·.requestId) hx
  rw [h.drawn] at hmem
  exact Serials.usable_of_mem_drawn hmem

/-- The loop comes to an id that no call has had. -/
theorem Ids.draw {d : ℕ} (h : Ids first s d) (hcalls : Calls s) (hroom : s.made.length < callLimit) :
    ∃ p id, Serials.draw (· + 1) s.client.taken (2 ^ 32) s.client.nextRequestId = some (id, (· + 1)^[p + 1] first) ∧ p + 1 ≤ 2 ^ 32 ∧
      Serials.drawn (· + 1) controlId first (p + 1) = s.made.map (·.requestId) ++ [id] ∧ id ∉ s.made.map (·.requestId) := by
  have hlt : (Serials.drawn (· + 1) controlId first d).length < (Serials.drawn (· + 1) controlId first (2 ^ 32)).length := by
    rw [← h.drawn, List.length_map]
    exact hroom.trans_le callLimit_le
  -- an id that a call waits under is that of a call
  have htaken : ∀ id, controlId id = true → s.client.taken id = true → id ∈ Serials.drawn (· + 1) controlId first d := by
    intro id hid htaken
    rw [ControlClient.taken, hid, Bool.not_true, Bool.false_or, Option.isSome_iff_exists] at htaken
    obtain ⟨p, hp⟩ := htaken
    obtain ⟨x, hx, rfl, -⟩ := hcalls.waiting id p hp
    rw [← h.drawn]
    exact List.mem_map_of_mem (List.mem_of_getElem? hx)
  obtain ⟨p, -, hp, hdraw, hnext, hfresh⟩ := Serials.draw_fresh injOn_ids h.round hlt
    (fun id hid => by simp [ControlClient.taken, hid]) htaken
  rw [← h.drawn] at hnext hfresh
  rw [← h.next] at hdraw
  exact ⟨p, _, hdraw, hp, hnext, hfresh⟩

end ControlSession

end LanLink
