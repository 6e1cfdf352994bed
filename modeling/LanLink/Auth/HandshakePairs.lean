import LanLink.Auth.HandshakeRuns
import LanLink.Protocol.PolicyCodec
/-!
# A client and a server of one handshake

A client and a server that get nothing but each other's frames, in any order
and any number of times. The client draws one nonce and makes one proof, the
server draws one nonce and reaches one verdict, so whoever is authenticated
holds the values of these.
-/
open LanLink.Lib LanLink.Lib.Action

namespace LanLink

/-! ## Payloads read back -/

theorem readArrayAt_append {n : ℕ} (front rest : Bytes) (x : BitVec (8 * n)) :
    readArrayAt n (front ++ (arrayBytes x ++ rest)) front.length = x := by
  have hlength : (arrayBytes x).length = n := by
    rw [length_arrayBytes, Nat.mul_div_cancel_left n (by norm_num)]
  rw [readArrayAt, List.drop_left, List.take_left' hlength, ofBytes_arrayBytes]

theorem decode_encodeClientHello (h : ClientHelloPayload) : decodeClientHello (encodeClientHello h) = .ok h := by
  have h₁ : readArrayAt 32 (encodeClientHello h) 0 = h.publicKey := by
    have hread := readArrayAt_append (n := 32) [] (arrayBytes h.encryptionPublicKey ++ arrayBytes h.clientNonce) h.publicKey
    rwa [List.nil_append, ← List.append_assoc] at hread
  have h₂ : readArrayAt 32 (encodeClientHello h) 32 = h.encryptionPublicKey := by
    have hread := readArrayAt_append (n := 32) (arrayBytes h.publicKey) (arrayBytes h.clientNonce) h.encryptionPublicKey
    rwa [← List.append_assoc] at hread
  have h₃ : readArrayAt 32 (encodeClientHello h) (32 + 32) = h.clientNonce := by
    have hread := readArrayAt_append (n := 32) (arrayBytes h.publicKey ++ arrayBytes h.encryptionPublicKey) [] h.clientNonce
    rwa [List.append_nil] at hread
  rw [decodeClientHello, check_of (by simp [encodeClientHello, length_arrayBytes]), ok_bind, h₁, h₂, h₃]

theorem decode_encodeServerChallenge (c : ServerChallengePayload) :
    decodeServerChallenge (encodeServerChallenge c) = .ok c := by
  have h₁ : readArrayAt 32 (encodeServerChallenge c) 0 = c.serverNonce := by
    have hread := readArrayAt_append (n := 32) [] [] c.serverNonce
    rwa [List.nil_append, List.append_nil] at hread
  rw [decodeServerChallenge, check_of (by simp [encodeServerChallenge, length_arrayBytes]), ok_bind, h₁]

theorem decode_encodeClientProof (p : ClientProofPayload) : decodeClientProof (encodeClientProof p) = .ok p := by
  have h₁ : readArrayAt 64 (encodeClientProof p) 0 = p.signature := by
    have hread := readArrayAt_append (n := 64) [] (arrayBytes p.tokenProof) p.signature
    rwa [List.nil_append] at hread
  have h₂ : readArrayAt 32 (encodeClientProof p) 64 = p.tokenProof := by
    have hread := readArrayAt_append (n := 32) (arrayBytes p.signature) [] p.tokenProof
    rwa [List.append_nil] at hread
  rw [decodeClientProof, check_of (by simp [encodeClientProof, length_arrayBytes]), ok_bind, h₁, h₂]

/-- An acceptance is read from the payload of one only. -/
theorem decodeAuthResult_result {accepted : Bool} {session : SessionId} {result : AuthResultPayload}
    (h : decodeAuthResult ((if accepted then 1 else 0) :: arrayBytes session) = .ok result) : result = ⟨accepted, session⟩ := by
  have hread : readArrayAt 32 ((if accepted then 1 else 0) :: arrayBytes session) 1 = session := by
    have hread := readArrayAt_append (n := 32) [if accepted then 1 else 0] [] session
    rwa [List.append_nil, List.singleton_append] at hread
  simp only [decodeAuthResult, bind_eq_ok, check_eq_ok, exists_const, Except.ok.injEq] at h
  obtain ⟨-, -, rfl⟩ := h
  rw [hread]
  cases accepted <;> rfl

/-! ## The client's calls -/

namespace ClientHandshake
variable (crypto : AuthCrypto) (inputs : AuthInputs)

def publicKey (c : ClientHandshake) : PublicKey := crypto.identityPublicKey c.identity

def encryptionPublicKey (c : ClientHandshake) : EncryptionPublicKey := crypto.encryptionPublicKey c.encryptionKey

/-- The call threw: the client waits as before. -/
inductive Kept (c c' : ClientHandshake) : Prop
  | same (h : c' = c)
  | numbered (requestId : BitVec 32) (state : c.state = .ready) (h : c' = { c with requestId })
  | unsigned (state : c.state = .waitingChallenge) (h : c' = { c with signedDeviceKey := none })

inductive BeginOutcome (c : ClientHandshake) : Except Exn Frame → ClientHandshake → Prop
  | begun {requestId : BitVec 32} {nonce : Nonce} (state : c.state = .ready) :
      BeginOutcome c (.ok { type := MessageType.clientHello.code, requestId
                            payload := encodeClientHello ⟨c.publicKey crypto, c.encryptionPublicKey crypto, nonce⟩ })
        { c with requestId, clientNonce := nonce, state := .waitingChallenge }
  | threw {e : Exn} {c' : ClientHandshake} (h : Kept c c') : BeginOutcome c (.error e) c'

theorem begin_outcome (requestId : BitVec 32) (c : ClientHandshake) :
    Post (begin crypto inputs requestId) c (BeginOutcome crypto c) := by
  unfold begin
  rw [post_gets_bind, post_ite]
  refine ⟨fun _ => .threw (.same rfl), fun hstate => ?_⟩
  rw [not_not] at hstate
  rw [post_ite]
  refine ⟨fun _ => .threw (.same rfl), fun _ => ?_⟩
  simp only [post_bind, post_modify, post_lift]
  cases inputs.nonce with
  | error e => exact .threw (.numbered requestId hstate rfl)
  | ok nonce => exact .begun hstate

inductive ChallengeOutcome (c : ClientHandshake) (frame : Frame) : Except Exn Frame → ClientHandshake → Prop
  | proved {nonce : Nonce} {signature : Signature} {tokenProof : TokenProof} (state : c.state = .waitingChallenge)
      (type : frame.type = MessageType.serverHello.code) (payload : decodeServerChallenge frame.payload = .ok ⟨nonce⟩) :
      ChallengeOutcome c frame (.ok { type := MessageType.clientAuth.code, requestId := c.requestId
                                      payload := encodeClientProof ⟨signature, tokenProof⟩ })
        { c with
          signedDeviceKey := some ⟨c.publicKey crypto, c.encryptionPublicKey crypto, c.clientNonce, nonce, signature⟩
          state := .waitingResult }
  | threw {e : Exn} {c' : ClientHandshake} (h : Kept c c') : ChallengeOutcome c frame (.error e) c'

theorem handleChallenge_outcome (frame : Frame) (c : ClientHandshake) :
    Post (handleChallenge crypto inputs frame) c (ChallengeOutcome crypto c frame) := by
  unfold handleChallenge
  rw [post_gets_bind, post_ite]
  refine ⟨fun _ => .threw (.same rfl), fun hstate => ?_⟩
  rw [not_not] at hstate
  refine post_lift_bind (fun _ hframe => ?_) fun _ => .threw (.same rfl)
  refine post_lift_bind (fun challenge hpayload => ?_) fun _ => .threw (.same rfl)
  have htype : frame.type = MessageType.serverHello.code := by
    have hexpected := check_eq_ok.1 hframe
    rw [not_or, not_not] at hexpected
    exact hexpected.1
  have hthrew (e : Exn) : ChallengeOutcome crypto c frame (.error e) { c with signedDeviceKey := none } :=
    .threw (.unsigned hstate rfl)
  unfold prove
  rw [post_gets_bind]
  simp only [post_tryCatch, post_bind, post_lift, post_modify, post_throw, post_pure, id]
  cases orThrow inputs.signFault (crypto.sign c.identity (makeAuthTranscript (crypto.identityPublicKey c.identity)
      (crypto.encryptionPublicKey c.encryptionKey) c.clientNonce challenge.serverNonce)) with
  | error e => exact hthrew e
  | ok signature =>
  cases AuthToken.proof crypto inputs c.token (makeAuthTranscript (crypto.identityPublicKey c.identity)
      (crypto.encryptionPublicKey c.encryptionKey) c.clientNonce challenge.serverNonce) with
  | error e => exact hthrew e
  | ok tokenProof => exact .proved hstate htype hpayload

inductive ResultOutcome (c : ClientHandshake) (frame : Frame) : ClientHandshake → Prop
  | accepted {session : SessionId} (state : c.state = .waitingResult) (type : frame.type = MessageType.authResult.code)
      (payload : decodeAuthResult frame.payload = .ok ⟨true, session⟩) :
      ResultOutcome c frame { c with clientNonce := 0, sessionIdValue := session, state := .authenticated }
  | refused {c' : ClientHandshake} (state : c'.state = .rejected) (identity : c'.identity = c.identity)
      (encryptionKey : c'.encryptionKey = c.encryptionKey) : ResultOutcome c frame c'
  | threw : ResultOutcome c frame c

theorem handleResult_outcome (frame : Frame) (c : ClientHandshake) :
    Post (handleResult frame) c fun _ c' => ResultOutcome c frame c' := by
  unfold handleResult
  rw [post_gets_bind, post_ite]
  refine ⟨fun _ => .threw, fun hstate => ?_⟩
  rw [not_not] at hstate
  refine post_lift_bind (fun _ hframe => ?_) fun _ => .threw
  refine post_lift_bind (fun result hpayload => ?_) fun _ => .threw
  have htype : frame.type = MessageType.authResult.code := by
    have hexpected := check_eq_ok.1 hframe
    rw [not_or, not_not] at hexpected
    exact hexpected.1
  simp only [post_bind, post_modify, post_pure]
  obtain ⟨accepted, session⟩ := result
  cases accepted with
  | true => exact .accepted hstate htype hpayload
  | false => exact .refused rfl rfl rfl

end ClientHandshake

/-! ## Exchanges -/

/-- A client, a server and the frames each has sent. -/
structure Exchange where
  client : ClientHandshake
  server : ServerHandshake
  fromClient : List Frame := []
  fromServer : List Frame := []

/-- The calls of both sides; a frame that is handled was sent by the other side. -/
inductive ExchangeCall
  | begin (requestId : BitVec 32)
  | challenge (frame : Frame)
  | result (frame : Frame)
  | closeClient
  | hello (frame : Frame)
  | proof (frame : Frame)
  | expire
  | closeServer

/-- A call that returns sends its frame. -/
def sent (r : Except Exn Frame) : List Frame :=
  match r with
  | .ok frame => [frame]
  | .error _ => []

namespace Exchange

def ofClient (x : Exchange) (result : Except Exn Frame × ClientHandshake) : Exchange :=
  { x with client := result.2, fromClient := x.fromClient ++ sent result.1 }

def ofServer (x : Exchange) (result : Except Exn Frame × ServerHandshake) : Exchange :=
  { x with server := result.2, fromServer := x.fromServer ++ sent result.1 }

def step (crypto : AuthCrypto) (x : Exchange) (e : ExchangeCall × AuthInputs) : Exchange :=
  match e.1 with
  | .begin requestId => x.ofClient (ClientHandshake.begin crypto e.2 requestId x.client)
  | .challenge frame =>
    if x.fromServer.contains frame then x.ofClient (ClientHandshake.handleChallenge crypto e.2 frame x.client) else x
  | .result frame =>
    if x.fromServer.contains frame then { x with client := (ClientHandshake.handleResult frame x.client).2 } else x
  | .closeClient => { x with client := x.client.close }
  | .hello frame =>
    if x.fromClient.contains frame then x.ofServer (ServerHandshake.handleHello e.2 frame x.server) else x
  | .proof frame =>
    if x.fromClient.contains frame then x.ofServer (ServerHandshake.handleProof crypto e.2 frame x.server) else x
  | .expire => { x with server := (ServerHandshake.expire e.2.now x.server).2 }
  | .closeServer => { x with server := x.server.close }

def run (crypto : AuthCrypto) (x₀ : Exchange) (calls : ℕ → ExchangeCall × AuthInputs) (k : ℕ) : Exchange :=
  states (step crypto) x₀ calls k

/-! ## What the two sides hold -/

/-- The values of one exchange: the nonces, the signature and the session of the verdict. -/
structure Values where
  clientNonce : Nonce := 0
  serverNonce : Nonce := 0
  signature : Signature := 0
  session : SessionId := 0

section
variable (crypto : AuthCrypto) (c₀ : ClientHandshake) (v : Values)

/-- The key that both sides are to hold. -/
def Values.key : SignedDeviceKey :=
  ⟨c₀.publicKey crypto, c₀.encryptionPublicKey crypto, v.clientNonce, v.serverNonce, v.signature⟩

def IsHello (f : Frame) : Prop := f.type = MessageType.clientHello.code ∧
  f.payload = encodeClientHello ⟨c₀.publicKey crypto, c₀.encryptionPublicKey crypto, v.clientNonce⟩

def IsProof (f : Frame) : Prop := f.type = MessageType.clientAuth.code ∧
  ∃ tokenProof, f.payload = encodeClientProof ⟨v.signature, tokenProof⟩

def IsChallenge (f : Frame) : Prop := f.type = MessageType.serverHello.code ∧
  f.payload = encodeServerChallenge ⟨v.serverNonce⟩

def IsResult (f : Frame) : Prop := f.type = MessageType.authResult.code ∧
  ∃ accepted session, f.payload = (if accepted then 1 else 0) :: arrayBytes session ∧ (accepted = true → session = v.session)

/-- The client has sent no proof yet. -/
def NoProof (frames : List Frame) : Prop := ∀ f ∈ frames, f.type = MessageType.clientHello.code

/-- The server has sent no verdict yet. -/
def NoResult (frames : List Frame) : Prop := ∀ f ∈ frames, f.type = MessageType.serverHello.code

structure ClientSide (c : ClientHandshake) (frames : List Frame) : Prop where
  identity : c.identity = c₀.identity
  encryptionKey : c.encryptionKey = c₀.encryptionKey
  ready : c.state = .ready → frames = []
  waiting : c.state = .waitingChallenge → c.clientNonce = v.clientNonce ∧ NoProof frames
  signed : c.state = .waitingResult ∨ c.state = .authenticated → c.signedDeviceKey = some (v.key crypto c₀)
  session : c.state = .authenticated → c.sessionIdValue = v.session
  frames : ∀ f ∈ frames, IsHello crypto c₀ v f ∨ IsProof v f

structure ServerSide (s : ServerHandshake) (frames : List Frame) : Prop where
  hello : s.state = .waitingHello → frames = []
  proof : s.state = .waitingProof → s.publicKey = c₀.publicKey crypto ∧ s.encryptionPublicKey = c₀.encryptionPublicKey crypto ∧
    s.clientNonce = v.clientNonce ∧ s.serverNonce = v.serverNonce ∧ NoResult frames
  admitted : s.state = .authenticated → s.signedDeviceKeyValue = some (v.key crypto c₀) ∧
    s.deviceIdValue = makeDeviceId crypto.toCrypto (c₀.publicKey crypto) ∧ s.sessionIdValue = v.session
  frames : ∀ f ∈ frames, IsChallenge v f ∨ IsResult v f

/-- Nobody is ahead of the frames he was sent. -/
structure InStep (x : Exchange) : Prop where
  proof : x.fromClient = [] → x.server.state ≠ .waitingProof
  admitted : NoProof x.fromClient → x.server.state ≠ .authenticated
  result : x.fromServer = [] → x.client.state ≠ .waitingResult
  authenticated : NoResult x.fromServer → x.client.state ≠ .authenticated

structure Holds (x : Exchange) : Prop where
  client : ClientSide crypto c₀ v x.client x.fromClient
  server : ServerSide crypto c₀ v x.server x.fromServer
  inStep : InStep x

end

section
variable {crypto : AuthCrypto} {c₀ : ClientHandshake} {v : Values} {x : Exchange}

theorem NoResult.of_append {frames more : List Frame} (h : NoResult (frames ++ more)) : NoResult frames :=
  fun f hf => h f (List.mem_append_left _ hf)

/-- A client that sends nothing and stays in its state, or ends. -/
theorem Holds.client_quiet (h : Holds crypto c₀ v x) {c : ClientHandshake} (hidentity : c.identity = x.client.identity)
    (hkey : c.encryptionKey = x.client.encryptionKey)
    (hstate : c.state = .rejected ∨ c.state = .closed ∨ (c.state = x.client.state ∧ c.clientNonce = x.client.clientNonce ∧
      (c.state ≠ .waitingChallenge → c.signedDeviceKey = x.client.signedDeviceKey) ∧
      c.sessionIdValue = x.client.sessionIdValue)) : Holds crypto c₀ v { x with client := c } := by
  obtain ⟨hclient, hserver, hstep⟩ := h
  have hends {P : Prop} {state : ClientState} (hs : c.state = state) (h₁ : state ≠ .rejected) (h₂ : state ≠ .closed)
      (hsame : c.state = x.client.state → c.clientNonce = x.client.clientNonce →
        (c.state ≠ .waitingChallenge → c.signedDeviceKey = x.client.signedDeviceKey) →
        c.sessionIdValue = x.client.sessionIdValue → P) : P := by
    rcases hstate with hr | hc | ⟨hstate, hnonce, hsigned, hsession⟩
    · exact absurd (hs.symm.trans hr) h₁
    · exact absurd (hs.symm.trans hc) h₂
    · exact hsame hstate hnonce hsigned hsession
  refine ⟨⟨hidentity.trans hclient.identity, hkey.trans hclient.encryptionKey, fun hs => ?_, fun hs => ?_, fun hs => ?_,
    fun hs => ?_, hclient.frames⟩, hserver, ⟨hstep.proof, hstep.admitted, fun hnil hs => ?_, fun hnone hs => ?_⟩⟩
  · exact hends hs (by decide) (by decide) fun hstate _ _ _ => hclient.ready (hstate.symm.trans hs)
  · refine hends hs (by decide) (by decide) fun hstate hnonce _ _ => ?_
    rw [hnonce]
    exact hclient.waiting (hstate.symm.trans hs)
  · rcases hs with hs | hs
    · refine hends hs (by decide) (by decide) fun hstate _ hsigned _ => ?_
      rw [hsigned (by rw [hs]; decide)]
      exact hclient.signed (.inl (hstate.symm.trans hs))
    · refine hends hs (by decide) (by decide) fun hstate _ hsigned _ => ?_
      rw [hsigned (by rw [hs]; decide)]
      exact hclient.signed (.inr (hstate.symm.trans hs))
  · refine hends hs (by decide) (by decide) fun hstate _ _ hsession => ?_
    rw [hsession]
    exact hclient.session (hstate.symm.trans hs)
  · exact hends hs (by decide) (by decide) fun hstate _ _ _ => hstep.result hnil (hstate.symm.trans hs)
  · exact hends hs (by decide) (by decide) fun hstate _ _ _ => hstep.authenticated hnone (hstate.symm.trans hs)

theorem Holds.kept (h : Holds crypto c₀ v x) {c : ClientHandshake} (hkept : ClientHandshake.Kept x.client c) :
    Holds crypto c₀ v { x with client := c } := by
  cases hkept with
  | same hsame =>
    subst hsame
    exact h
  | numbered requestId state hc =>
    subst hc
    exact h.client_quiet rfl rfl (.inr (.inr ⟨rfl, rfl, fun _ => rfl, rfl⟩))
  | unsigned state hc =>
    subst hc
    exact h.client_quiet rfl rfl (.inr (.inr ⟨rfl, rfl, fun hne => absurd state hne, rfl⟩))

/-- A server that sends nothing. -/
theorem Holds.stalled (h : Holds crypto c₀ v x) {s : ServerHandshake} (hstalled : ServerHandshake.Stalled x.server s) :
    Holds crypto c₀ v { x with server := s } := by
  obtain ⟨hclient, hserver, hstep⟩ := h
  cases hstalled with
  | same hsame =>
    subst hsame
    exact ⟨hclient, hserver, hstep⟩
  | greeted hbefore hafter _ _ =>
    refine ⟨hclient, ⟨fun _ => hserver.hello hbefore, fun hs => ?_, fun hs => ?_, hserver.frames⟩,
      ⟨fun _ hs => ?_, fun _ hs => ?_, hstep.result, hstep.authenticated⟩⟩
    all_goals cases hafter.symm.trans hs
  | expired _ hafter _ _ =>
    refine ⟨hclient, ⟨fun hs => ?_, fun hs => ?_, fun hs => ?_, hserver.frames⟩,
      ⟨fun _ hs => ?_, fun _ hs => ?_, hstep.result, hstep.authenticated⟩⟩
    all_goals cases hafter.symm.trans hs

/-! ## Frames that were sent -/

theorem IsHello.not_proof {f : Frame} (h : IsProof v f) (htype : f.type = MessageType.clientHello.code) {P : Prop} : P :=
  absurd (htype.symm.trans h.1) (by decide)

theorem IsChallenge.not_result {f : Frame} (h : IsResult v f) (htype : f.type = MessageType.serverHello.code) {P : Prop} : P :=
  absurd (htype.symm.trans h.1) (by decide)

theorem ClientSide.hello {c : ClientHandshake} {frames : List Frame} (h : ClientSide crypto c₀ v c frames) {f : Frame} (hf : f ∈ frames)
    (htype : f.type = MessageType.clientHello.code) {hello : ClientHelloPayload}
    (hpayload : decodeClientHello f.payload = .ok hello) :
    hello = ⟨c₀.publicKey crypto, c₀.encryptionPublicKey crypto, v.clientNonce⟩ := by
  rcases h.frames f hf with hhello | hproof
  · rw [hhello.2, decode_encodeClientHello] at hpayload
    exact (Except.ok.inj hpayload).symm
  · exact IsHello.not_proof hproof htype

theorem ClientSide.proof {c : ClientHandshake} {frames : List Frame} (h : ClientSide crypto c₀ v c frames) {f : Frame} (hf : f ∈ frames)
    (htype : f.type = MessageType.clientAuth.code) {proof : ClientProofPayload}
    (hpayload : decodeClientProof f.payload = .ok proof) : proof.signature = v.signature := by
  rcases h.frames f hf with hhello | ⟨-, tokenProof, hproof⟩
  · exact absurd (htype.symm.trans hhello.1) (by decide)
  · rw [hproof, decode_encodeClientProof] at hpayload
    cases hpayload
    rfl

theorem ServerSide.challenge {s : ServerHandshake} {frames : List Frame} (h : ServerSide crypto c₀ v s frames) {f : Frame}
    (hf : f ∈ frames) (htype : f.type = MessageType.serverHello.code) {nonce : Nonce}
    (hpayload : decodeServerChallenge f.payload = .ok ⟨nonce⟩) : nonce = v.serverNonce := by
  rcases h.frames f hf with hchallenge | hresult
  · rw [hchallenge.2, decode_encodeServerChallenge] at hpayload
    cases hpayload
    rfl
  · exact IsChallenge.not_result hresult htype

theorem ServerSide.verdict {s : ServerHandshake} {frames : List Frame} (h : ServerSide crypto c₀ v s frames) {f : Frame}
    (hf : f ∈ frames) (htype : f.type = MessageType.authResult.code) {session : SessionId}
    (hpayload : decodeAuthResult f.payload = .ok ⟨true, session⟩) : session = v.session := by
  rcases h.frames f hf with hchallenge | ⟨-, accepted, session', hresult, haccepted⟩
  · exact absurd (htype.symm.trans hchallenge.1) (by decide)
  · rw [hresult] at hpayload
    have hsame := decodeAuthResult_result hpayload
    cases hsame
    exact haccepted rfl

/-! ## Calls that move the exchange on -/

/-- The client draws its nonce before the server has a frame of it. -/
theorem Holds.begun (h : Holds crypto c₀ v x) (hstate : x.client.state = .ready) (requestId : BitVec 32) (nonce : Nonce) :
    ∃ v, Holds crypto c₀ v { x with
      client := { x.client with requestId, clientNonce := nonce, state := .waitingChallenge }
      fromClient := x.fromClient ++ [{
        type := MessageType.clientHello.code, requestId
        payload := encodeClientHello ⟨x.client.publicKey crypto, x.client.encryptionPublicKey crypto, nonce⟩ }] } := by
  obtain ⟨hclient, hserver, hstep⟩ := h
  have hnil := hclient.ready hstate
  have hpublic : x.client.publicKey crypto = c₀.publicKey crypto := by
    rw [ClientHandshake.publicKey, hclient.identity, ClientHandshake.publicKey]
  have hencryption : x.client.encryptionPublicKey crypto = c₀.encryptionPublicKey crypto := by
    rw [ClientHandshake.encryptionPublicKey, hclient.encryptionKey, ClientHandshake.encryptionPublicKey]
  have hproof : x.server.state ≠ .waitingProof := hstep.proof hnil
  have hadmitted : x.server.state ≠ .authenticated := hstep.admitted (by rw [hnil]; simp [NoProof])
  refine ⟨{ v with clientNonce := nonce }, ⟨hclient.identity, hclient.encryptionKey, ?_, ?_, ?_, ?_, ?_⟩,
    ⟨hserver.hello, ?_, ?_, hserver.frames⟩, ⟨?_, fun _ => hadmitted, ?_, ?_⟩⟩
  · intro hs
    cases hs
  · intro _
    refine ⟨rfl, ?_⟩
    rw [hnil]
    simp [NoProof]
  · rintro (hs | hs) <;> cases hs
  · intro hs
    cases hs
  · intro f hf
    rw [hnil, List.nil_append, List.mem_singleton] at hf
    subst hf
    exact .inl ⟨rfl, by rw [hpublic, hencryption]⟩
  · exact fun hs => absurd hs hproof
  · exact fun hs => absurd hs hadmitted
  · intro hempty
    simp at hempty
  · intro _ hs
    cases hs
  · intro _ hs
    cases hs

/-- The client signs once, for the nonce of the challenge. -/
theorem Holds.proved (h : Holds crypto c₀ v x) (hstate : x.client.state = .waitingChallenge) {frame : Frame}
    (hmem : frame ∈ x.fromServer) (htype : frame.type = MessageType.serverHello.code) {nonce : Nonce}
    (hpayload : decodeServerChallenge frame.payload = .ok ⟨nonce⟩) (signature : Signature) (tokenProof : TokenProof) :
    ∃ v, Holds crypto c₀ v { x with
      client := { x.client with
        signedDeviceKey := some ⟨x.client.publicKey crypto, x.client.encryptionPublicKey crypto, x.client.clientNonce, nonce,
          signature⟩
        state := .waitingResult }
      fromClient := x.fromClient ++ [{
        type := MessageType.clientAuth.code, requestId := x.client.requestId
        payload := encodeClientProof ⟨signature, tokenProof⟩ }] } := by
  obtain ⟨hclient, hserver, hstep⟩ := h
  obtain ⟨hnonce, hnone⟩ := hclient.waiting hstate
  have hpublic : x.client.publicKey crypto = c₀.publicKey crypto := by
    rw [ClientHandshake.publicKey, hclient.identity, ClientHandshake.publicKey]
  have hencryption : x.client.encryptionPublicKey crypto = c₀.encryptionPublicKey crypto := by
    rw [ClientHandshake.encryptionPublicKey, hclient.encryptionKey, ClientHandshake.encryptionPublicKey]
  have hserverNonce := hserver.challenge hmem htype hpayload
  have hadmitted : x.server.state ≠ .authenticated := hstep.admitted hnone
  refine ⟨{ v with signature }, ⟨hclient.identity, hclient.encryptionKey, ?_, ?_, ?_, ?_, ?_⟩,
    ⟨hserver.hello, hserver.proof, ?_, hserver.frames⟩, ⟨?_, ?_, ?_, ?_⟩⟩
  · intro hs
    cases hs
  · intro hs
    cases hs
  · intro _
    simp only [Values.key, hpublic, hencryption, hnonce, hserverNonce]
  · intro hs
    cases hs
  · intro f hf
    rcases List.mem_append.1 hf with hold | hnew
    · rcases hclient.frames f hold with hhello | hproof
      · exact .inl hhello
      · exact IsHello.not_proof hproof (hnone f hold)
    · rw [List.mem_singleton] at hnew
      subst hnew
      exact .inr ⟨rfl, tokenProof, rfl⟩
  · exact fun hs => absurd hs hadmitted
  · intro hempty
    simp at hempty
  · intro hproofs
    have hproof : MessageType.clientAuth.code = MessageType.clientHello.code :=
      hproofs _ (List.mem_append_right _ List.mem_cons_self)
    exact absurd hproof (by decide)
  · intro hempty
    rw [show x.fromServer = [] from hempty] at hmem
    cases hmem
  · intro _ hs
    cases hs

/-- The client takes the session of the verdict. -/
theorem Holds.joined (h : Holds crypto c₀ v x) (hstate : x.client.state = .waitingResult) {frame : Frame}
    (hmem : frame ∈ x.fromServer) (htype : frame.type = MessageType.authResult.code) {session : SessionId}
    (hpayload : decodeAuthResult frame.payload = .ok ⟨true, session⟩) :
    Holds crypto c₀ v { x with
      client := { x.client with clientNonce := 0, sessionIdValue := session, state := .authenticated } } := by
  obtain ⟨hclient, hserver, hstep⟩ := h
  refine ⟨⟨hclient.identity, hclient.encryptionKey, ?_, ?_, ?_, ?_, hclient.frames⟩, hserver,
    ⟨hstep.proof, hstep.admitted, ?_, ?_⟩⟩
  · intro hs
    cases hs
  · intro hs
    cases hs
  · exact fun _ => hclient.signed (.inl hstate)
  · exact fun _ => hserver.verdict hmem htype hpayload
  · intro _ hs
    cases hs
  · intro hnone
    exact absurd ((hnone frame hmem).symm.trans htype) (by decide)

/-- The server draws its nonce before the client has a frame of it. -/
theorem Holds.greeted (h : Holds crypto c₀ v x) {inputs : AuthInputs} {frame : Frame} (hmem : frame ∈ x.fromClient)
    {hello : ClientHelloPayload} {nonce : Nonce} (greets : x.server.Greets inputs frame hello nonce) :
    ∃ v, Holds crypto c₀ v { x with
      server := x.server.greeted frame hello nonce
      fromServer := x.fromServer ++ [ServerHandshake.challengeFrame frame.requestId nonce] } := by
  obtain ⟨hclient, hserver, hstep⟩ := h
  have hnil := hserver.hello greets.state
  have hresult : x.client.state ≠ .waitingResult := hstep.result hnil
  have hauthenticated : x.client.state ≠ .authenticated := hstep.authenticated (by rw [hnil]; simp [NoResult])
  have hhello := hclient.hello hmem greets.type greets.payload
  refine ⟨{ v with serverNonce := nonce }, ⟨hclient.identity, hclient.encryptionKey, hclient.ready, hclient.waiting, ?_, ?_,
    hclient.frames⟩, ⟨?_, ?_, ?_, ?_⟩, ⟨?_, ?_, ?_, ?_⟩⟩
  · rintro (hs | hs)
    · exact absurd hs hresult
    · exact absurd hs hauthenticated
  · exact fun hs => absurd hs hauthenticated
  · intro hs
    cases hs
  · intro _
    subst hhello
    refine ⟨rfl, rfl, rfl, rfl, ?_⟩
    rw [hnil]
    simp [NoResult, ServerHandshake.challengeFrame]
  · intro hs
    cases hs
  · intro f hf
    rw [hnil, List.nil_append, List.mem_singleton] at hf
    subst hf
    exact .inl ⟨rfl, rfl⟩
  · intro hempty
    rw [show x.fromClient = [] from hempty] at hmem
    cases hmem
  · intro _ hs
    cases hs
  · exact fun _ => hresult
  · exact fun _ => hauthenticated

/-- The server reaches its verdict before the client has heard of one. -/
theorem Holds.accepted (h : Holds crypto c₀ v x) {inputs : AuthInputs} {frame : Frame} (hmem : frame ∈ x.fromClient)
    {proof : ClientProofPayload} (judges : x.server.Judges inputs frame proof) (session : SessionId) :
    ∃ v, Holds crypto c₀ v { x with
      server := x.server.admitted crypto session proof.signature
      fromServer := x.fromServer ++ [ServerHandshake.resultFrame x.server.requestId true session] } := by
  obtain ⟨hclient, hserver, hstep⟩ := h
  obtain ⟨hpublic, hencryption, hclientNonce, hserverNonce, hnone⟩ := hserver.proof judges.state
  have hauthenticated : x.client.state ≠ .authenticated := hstep.authenticated hnone
  have hsignature := hclient.proof hmem judges.type judges.payload
  refine ⟨{ v with session }, ⟨hclient.identity, hclient.encryptionKey, hclient.ready, hclient.waiting, hclient.signed, ?_,
    hclient.frames⟩, ⟨?_, ?_, ?_, ?_⟩, ⟨?_, ?_, ?_, ?_⟩⟩
  · exact fun hs => absurd hs hauthenticated
  · intro hs
    cases hs
  · intro hs
    cases hs
  · intro _
    refine ⟨?_, ?_, rfl⟩
    · simp only [ServerHandshake.admitted, Values.key, hpublic, hencryption, hclientNonce, hserverNonce, hsignature]
    · simp only [ServerHandshake.admitted, hpublic]
  · intro f hf
    rcases List.mem_append.1 hf with hold | hnew
    · rcases hserver.frames f hold with hchallenge | hresult
      · exact .inl hchallenge
      · exact IsChallenge.not_result hresult (hnone f hold)
    · rw [List.mem_singleton] at hnew
      subst hnew
      exact .inr ⟨rfl, true, session, rfl, fun _ => rfl⟩
  · intro hempty
    rw [show x.fromClient = [] from hempty] at hmem
    cases hmem
  · intro hproofs
    exact absurd ((hproofs frame hmem).symm.trans judges.type) (by decide)
  · intro hempty
    simp at hempty
  · exact fun _ => hauthenticated

/-- A server that ends without authenticating anybody. -/
theorem Holds.failed (h : Holds crypto c₀ v x) {s : ServerHandshake} (hfailed : s.Failed) {frames : List Frame}
    (hframes : ∀ f ∈ frames, IsResult v f) :
    Holds crypto c₀ v { x with server := s, fromServer := x.fromServer ++ frames } := by
  obtain ⟨hclient, hserver, hstep⟩ := h
  have hended {state : ServerState} (hs : s.state = state) (h₁ : state ≠ .rejected) (h₂ : state ≠ .timedOut)
      (h₃ : state ≠ .closed) {P : Prop} : P := by
    rcases hfailed with h | h | h
    · exact absurd (hs.symm.trans h) h₁
    · exact absurd (hs.symm.trans h) h₂
    · exact absurd (hs.symm.trans h) h₃
  refine ⟨hclient, ⟨fun hs => ?_, fun hs => ?_, fun hs => ?_, fun f hf => ?_⟩, ⟨fun _ hs => ?_, fun _ hs => ?_, fun hempty => ?_,
    fun hnone => ?_⟩⟩
  · exact hended hs (by decide) (by decide) (by decide)
  · exact hended hs (by decide) (by decide) (by decide)
  · exact hended hs (by decide) (by decide) (by decide)
  · rcases List.mem_append.1 hf with hold | hnew
    · exact hserver.frames f hold
    · exact .inr (hframes f hnew)
  · exact hended hs (by decide) (by decide) (by decide)
  · exact hended hs (by decide) (by decide) (by decide)
  · exact hstep.result (List.append_eq_nil_iff.1 hempty).1
  · exact hstep.authenticated hnone.of_append

/-! ## Any sequence of calls -/

theorem Holds.begins (h : Holds crypto c₀ v x) (inputs : AuthInputs) (requestId : BitVec 32) :
    ∃ v, Holds crypto c₀ v (x.ofClient (ClientHandshake.begin crypto inputs requestId x.client)) := by
  have houtcome := ClientHandshake.begin_outcome crypto inputs requestId x.client
  unfold Post at houtcome
  generalize ClientHandshake.begin crypto inputs requestId x.client = result at houtcome ⊢
  obtain ⟨r, c⟩ := result
  cases houtcome with
  | begun state => exact h.begun state _ _
  | threw hkept =>
    have hkept := h.kept hkept
    exact ⟨v, by simpa [ofClient, sent] using hkept⟩

theorem Holds.proves (h : Holds crypto c₀ v x) (inputs : AuthInputs) {frame : Frame} (hmem : frame ∈ x.fromServer) :
    ∃ v, Holds crypto c₀ v (x.ofClient (ClientHandshake.handleChallenge crypto inputs frame x.client)) := by
  have houtcome := ClientHandshake.handleChallenge_outcome crypto inputs frame x.client
  unfold Post at houtcome
  generalize ClientHandshake.handleChallenge crypto inputs frame x.client = result at houtcome ⊢
  obtain ⟨r, c⟩ := result
  cases houtcome with
  | proved state type payload => exact h.proved state hmem type payload _ _
  | threw hkept =>
    have hkept := h.kept hkept
    exact ⟨v, by simpa [ofClient, sent] using hkept⟩

theorem Holds.ends (h : Holds crypto c₀ v x) {frame : Frame} (hmem : frame ∈ x.fromServer) :
    Holds crypto c₀ v { x with client := (ClientHandshake.handleResult frame x.client).2 } := by
  have houtcome := ClientHandshake.handleResult_outcome frame x.client
  unfold Post at houtcome
  generalize ClientHandshake.handleResult frame x.client = result at houtcome ⊢
  obtain ⟨r, c⟩ := result
  cases houtcome with
  | accepted state type payload => exact h.joined state hmem type payload
  | refused state identity encryptionKey => exact h.client_quiet identity encryptionKey (.inl state)
  | threw => exact h

theorem Holds.hello (h : Holds crypto c₀ v x) (inputs : AuthInputs) {frame : Frame} (hmem : frame ∈ x.fromClient) :
    ∃ v, Holds crypto c₀ v (x.ofServer (ServerHandshake.handleHello inputs frame x.server)) := by
  have houtcome := ServerHandshake.handleHello_outcome inputs frame x.server
  unfold Post at houtcome
  generalize ServerHandshake.handleHello inputs frame x.server = result at houtcome ⊢
  obtain ⟨r, s⟩ := result
  cases houtcome with
  | answered greets => exact h.greeted hmem greets
  | stalled hstalled =>
    have hstalled := h.stalled hstalled
    exact ⟨v, by simpa [ofServer, sent] using hstalled⟩

theorem Holds.judges (h : Holds crypto c₀ v x) (inputs : AuthInputs) {frame : Frame} (hmem : frame ∈ x.fromClient) :
    ∃ v, Holds crypto c₀ v (x.ofServer (ServerHandshake.handleProof crypto inputs frame x.server)) := by
  have houtcome := @ServerHandshake.handleProof_outcome crypto inputs frame x.server
  unfold Post at houtcome
  generalize ServerHandshake.handleProof crypto inputs frame x.server = result at houtcome ⊢
  obtain ⟨r, s⟩ := result
  cases houtcome with
  | accepted judges proves nonzero => exact h.accepted hmem judges _
  | refused judges state answer =>
    refine ⟨v, h.failed (.inl state) fun f hf => ?_⟩
    cases r with
    | error e => cases hf
    | ok answered =>
      obtain rfl := List.mem_singleton.1 hf
      rw [answer f rfl]
      exact ⟨rfl, false, 0, rfl, fun h => by cases h⟩
  | stalled hstalled idle =>
    have hstalled := h.stalled hstalled
    exact ⟨v, by simpa [ofServer, sent] using hstalled⟩

/-- A frame that was not sent is not handled. -/
theorem Holds.heard (h : Holds crypto c₀ v x) {frames : List Frame} {frame : Frame} {y : Exchange}
    (hy : frame ∈ frames → ∃ v, Holds crypto c₀ v y) : ∃ v, Holds crypto c₀ v (if frames.contains frame then y else x) := by
  by_cases hmem : frames.contains frame
  · rw [if_pos hmem]
    exact hy (List.contains_iff_mem.1 hmem)
  · rw [if_neg hmem]
    exact ⟨v, h⟩

/-- Every call keeps what the two sides hold, with the values it fixed. -/
theorem Holds.step (h : Holds crypto c₀ v x) (e : ExchangeCall × AuthInputs) : ∃ v, Holds crypto c₀ v (x.step crypto e) := by
  obtain ⟨call, inputs⟩ := e
  cases call with
  | begin requestId => exact h.begins inputs requestId
  | challenge frame => exact h.heard fun hmem => h.proves inputs hmem
  | result frame => exact h.heard fun hmem => ⟨v, h.ends hmem⟩
  | closeClient => exact ⟨v, h.client_quiet rfl rfl (.inr (.inl rfl))⟩
  | hello frame => exact h.heard fun hmem => h.hello inputs hmem
  | proof frame => exact h.heard fun hmem => h.judges inputs hmem
  | expire => exact ⟨v, h.stalled (ServerHandshake.expire_stalled inputs.now x.server)⟩
  | closeServer =>
    have hclosed := @Holds.failed _ _ _ _ h x.server.close (.inr (.inr rfl)) [] (by simp)
    rw [List.append_nil] at hclosed
    exact ⟨v, hclosed⟩

end

end Exchange

end LanLink
