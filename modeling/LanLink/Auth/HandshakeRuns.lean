import LanLink.Auth.Handshake
import LanLink.Lib.Runs
/-!
# Runs of a server handshake

What one call can do to a server handshake, and what follows for any sequence
of calls at any times. A handshake moves from the hello to the proof and from
the proof to its end, never back.
-/
open LanLink.Lib LanLink.Lib.Action

namespace LanLink

/-- The calls the relay makes of a handshake. -/
inductive ServerCall
  | hello (frame : Frame)
  | proof (frame : Frame)
  | expire
  | close

namespace ServerHandshake
variable {crypto : AuthCrypto} {inputs : AuthInputs} {frame : Frame} {s s' : ServerHandshake}

def step (crypto : AuthCrypto) (s : ServerHandshake) (e : ServerCall × AuthInputs) : ServerHandshake :=
  match e.1 with
  | .hello frame => (handleHello e.2 frame s).2
  | .proof frame => (handleProof crypto e.2 frame s).2
  | .expire => (expire e.2.now s).2
  | .close => s.close

/-! ## One call -/

def Waiting (s : ServerHandshake) : Prop := s.state = .waitingHello ∨ s.state = .waitingProof

/-- The call did not get the handshake on: at most the fields of a hello were
written, or the deadline was noticed. -/
inductive Stalled (s s' : ServerHandshake) : Prop
  | same (h : s' = s)
  | greeted (h : s.state = .waitingHello) (h' : s'.state = .waitingHello) (deadline : s'.deadline = s.deadline)
      (token : s'.token = s.token)
  | expired (h : s.Waiting) (h' : s'.state = .timedOut) (deadline : s'.deadline = s.deadline) (token : s'.token = s.token)

/-- A hello that is answered, with the nonce drawn for it. -/
structure Greets (s : ServerHandshake) (inputs : AuthInputs) (frame : Frame) (hello : ClientHelloPayload) (nonce : Nonce) :
    Prop where
  state : s.state = .waitingHello
  time : inputs.now < s.deadline
  type : frame.type = MessageType.clientHello.code
  payload : decodeClientHello frame.payload = .ok hello
  drawn : inputs.nonce = .ok nonce

/-- A proof that is judged. -/
structure Judges (s : ServerHandshake) (inputs : AuthInputs) (frame : Frame) (proof : ClientProofPayload) : Prop where
  state : s.state = .waitingProof
  time : inputs.now < s.deadline
  type : frame.type = MessageType.clientAuth.code
  request : frame.requestId = s.requestId
  payload : decodeClientProof frame.payload = .ok proof

def transcript (s : ServerHandshake) : Bytes :=
  makeAuthTranscript s.publicKey s.encryptionPublicKey s.clientNonce s.serverNonce

/-- The proof is good for the transcript. -/
def Proves (crypto : AuthCrypto) (token : AuthToken) (key : PublicKey) (transcript : Bytes) (proof : ClientProofPayload) : Prop :=
  crypto.verifySignature key transcript proof.signature = true ∧ crypto.hmac token transcript = proof.tokenProof

/-- The state after a hello was answered. -/
def greeted (s : ServerHandshake) (frame : Frame) (hello : ClientHelloPayload) (nonce : Nonce) : ServerHandshake :=
  { s with publicKey := hello.publicKey, encryptionPublicKey := hello.encryptionPublicKey
           clientNonce := hello.clientNonce, serverNonce := nonce, requestId := frame.requestId, state := .waitingProof }

/-- The state after a proof was accepted. -/
def admitted (crypto : AuthCrypto) (s : ServerHandshake) (session : SessionId) (signature : Signature) : ServerHandshake :=
  { s.cleanse with
    deviceIdValue := makeDeviceId crypto.toCrypto s.publicKey
    sessionIdValue := session
    signedDeviceKeyValue := some ⟨s.publicKey, s.encryptionPublicKey, s.clientNonce, s.serverNonce, signature⟩
    state := .authenticated }

theorem expire_stalled (now : ℤ) (s : ServerHandshake) : Stalled s (expire now s).2 := by
  unfold expire
  split
  · rename_i hlate
    exact .expired hlate.1 rfl rfl rfl
  · exact .same rfl

/-- Go on within the deadline. -/
theorem post_requireActive {α : Type} {k : Unit → Action Exn ServerHandshake α} {Q : Except Exn α → ServerHandshake → Prop}
    (hstalled : ∀ e s', Stalled s s' → (s.Waiting → s.deadline ≤ inputs.now) → Q (.error e) s')
    (hok : (s.Waiting → inputs.now < s.deadline) → Post (k ()) s Q) : Post (requireActive inputs.now >>= k) s Q := by
  unfold requireActive
  rw [post_bind, post_update_bind, expire]
  by_cases hlate : (s.state = .waitingHello ∨ s.state = .waitingProof) ∧ s.deadline ≤ inputs.now
  · rw [if_pos hlate]
    exact hstalled _ _ (.expired hlate.1 rfl rfl rfl) fun _ => hlate.2
  · rw [if_neg hlate]
    have htime : s.Waiting → inputs.now < s.deadline := by
      intro hwaiting
      rw [not_and, not_le] at hlate
      exact hlate hwaiting
    dsimp only
    rw [post_ite]
    have hended {state : ServerState} (hstate : s.state = state) (h : state ≠ .waitingHello) (h' : state ≠ .waitingProof)
        (e : Exn) : Q (.error e) s := by
      refine hstalled _ _ (.same rfl) fun hwaiting => ?_
      rcases hwaiting with hwaiting | hwaiting
      · exact absurd (hstate.symm.trans hwaiting) h
      · exact absurd (hstate.symm.trans hwaiting) h'
    refine ⟨fun hexpired => hended (of_decide_eq_true hexpired) (by decide) (by decide) _, fun _ => ?_⟩
    rw [post_gets_bind, post_ite]
    exact ⟨fun hclosed => hended hclosed (by decide) (by decide) _, fun _ => hok htime⟩

def challengeFrame (requestId : BitVec 32) (nonce : Nonce) : Frame :=
  { type := MessageType.serverHello.code, requestId, payload := encodeServerChallenge ⟨nonce⟩ }

def resultFrame (requestId : BitVec 32) (accepted : Bool) (session : SessionId) : Frame :=
  { type := MessageType.authResult.code, requestId, payload := (if accepted then 1 else 0) :: arrayBytes session }

/-- What `handle_hello` can do. -/
inductive HelloOutcome (s : ServerHandshake) (inputs : AuthInputs) (frame : Frame) : Except Exn Frame → ServerHandshake → Prop
  | answered {hello : ClientHelloPayload} {nonce : Nonce} (greets : s.Greets inputs frame hello nonce) :
      HelloOutcome s inputs frame (.ok (challengeFrame frame.requestId nonce)) (s.greeted frame hello nonce)
  | stalled {e : Exn} {s' : ServerHandshake} (h : Stalled s s') : HelloOutcome s inputs frame (.error e) s'

theorem handleHello_outcome (inputs : AuthInputs) (frame : Frame) (s : ServerHandshake) :
    Post (handleHello inputs frame) s (HelloOutcome s inputs frame) := by
  unfold handleHello
  refine post_requireActive (fun e s' h _ => .stalled h) fun htime => ?_
  have hsame (e : Exn) : HelloOutcome s inputs frame (.error e) s := .stalled (.same rfl)
  rw [post_gets_bind, post_ite]
  refine ⟨fun _ => hsame _, fun hexpected => ?_⟩
  rw [not_or, not_not, not_not] at hexpected
  obtain ⟨hstate, htype⟩ := hexpected
  rw [post_ite]
  refine ⟨fun _ => hsame _, fun _ => ?_⟩
  refine post_lift_bind (fun hello hpayload => ?_) hsame
  refine post_lift_bind (fun _ _ => ?_) hsame
  simp only [post_bind, post_modify]
  rw [post_lift]
  cases hnonce : inputs.nonce with
  | error e => exact .stalled (.greeted hstate hstate rfl rfl)
  | ok nonce => exact .answered ⟨hstate, htime (.inl hstate), htype, hpayload, hnonce⟩

/-- What `handle_proof` can do. -/
inductive ProofOutcome (crypto : AuthCrypto) (s : ServerHandshake) (inputs : AuthInputs) (frame : Frame) :
    Except Exn Frame → ServerHandshake → Prop
  | accepted {proof : ClientProofPayload} {session : SessionId} (judges : s.Judges inputs frame proof)
      (proves : Proves crypto s.token s.publicKey s.transcript proof) (nonzero : session ≠ 0) :
      ProofOutcome crypto s inputs frame (.ok (resultFrame s.requestId true session)) (s.admitted crypto session proof.signature)
  | refused {proof : ClientProofPayload} {r : Except Exn Frame} {s' : ServerHandshake} (judges : s.Judges inputs frame proof)
      (state : s'.state = .rejected) (answer : ∀ f, r = .ok f → f = resultFrame s.requestId false 0) :
      ProofOutcome crypto s inputs frame r s'
  | stalled {e : Exn} {s' : ServerHandshake} (h : Stalled s s') (idle : ∀ proof, ¬ s.Judges inputs frame proof) :
      ProofOutcome crypto s inputs frame (.error e) s'

theorem makeNonzeroSessionId_ne {ids : List SessionId} {session : SessionId} (h : makeNonzeroSessionId ids = .ok session) :
    session ≠ 0 := by
  induction ids with
  | nil => cases h
  | cons id ids ih =>
    rw [makeNonzeroSessionId] at h
    split at h
    · exact ih h
    · rename_i hne
      cases h
      exact hne

theorem orThrow_ok {α : Type} {fault : Option Exn} {value a : α} (h : orThrow fault value = .ok a) : value = a := by
  cases fault with
  | none =>
    cases h
    rfl
  | some e => cases h

/-- What the `try` block does: it throws, refuses or admits. -/
inductive Verdict (crypto : AuthCrypto) (s : ServerHandshake) (proof : ClientProofPayload) :
    Except Exn Frame → ServerHandshake → Prop
  | threw {e : Exn} {s' : ServerHandshake} : Verdict crypto s proof (.error e) s'
  | refused {s' : ServerHandshake} (state : s'.state = .rejected) :
      Verdict crypto s proof (.ok (resultFrame s.requestId false 0)) s'
  | admitted {session : SessionId} (proves : Proves crypto s.token s.publicKey s.transcript proof) (nonzero : session ≠ 0) :
      Verdict crypto s proof (.ok (resultFrame s.requestId true session)) (s.admitted crypto session proof.signature)

theorem judge_verdict (inputs : AuthInputs) (s : ServerHandshake) (proof : ClientProofPayload) :
    Post (judge crypto inputs s.transcript proof) s (Verdict crypto s proof) := by
  unfold judge
  rw [post_gets_bind]
  refine post_lift_bind (fun validSignature hsignature => ?_) fun _ => .threw
  refine post_lift_bind (fun validToken htoken => ?_) fun _ => .threw
  have hsignature' := orThrow_ok hsignature
  simp only [AuthToken.verify, AuthToken.proof, bind_eq_ok, Except.ok.injEq] at htoken
  obtain ⟨expected, hexpected, htoken⟩ := htoken
  have hexpected' := orThrow_ok hexpected
  by_cases haccepted : (validSignature && validToken) = true
  · have hboth := Bool.and_eq_true_iff.1 haccepted
    have hproves : Proves crypto s.token s.publicKey s.transcript proof := by
      refine ⟨hsignature'.trans hboth.1, ?_⟩
      rw [hboth.2, decide_eq_true_eq] at htoken
      exact hexpected'.trans htoken
    rw [haccepted]
    simp only [if_true, admitClient, post_bind, post_gets, post_lift, post_modify, post_pure, id]
    cases hdigest : orThrow inputs.digestFault (makeDeviceId crypto.toCrypto s.publicKey) with
    | error e => exact .threw
    | ok device =>
    cases hsession : makeNonzeroSessionId inputs.sessionIds with
    | error e => exact .threw
    | ok session =>
      have hnonzero := makeNonzeroSessionId_ne hsession
      have hencode : encodeAuthResult ⟨true, session⟩ = .ok (1 :: arrayBytes session) := by
        rw [encodeAuthResult, check_of (by simpa [validResultState] using hnonzero)]
        rfl
      have hdevice := orThrow_ok hdigest
      dsimp only
      rw [hencode, ← hdevice]
      exact .admitted hproves hnonzero
  · rw [Bool.not_eq_true] at haccepted
    rw [haccepted]
    have hencode : encodeAuthResult ⟨false, 0⟩ = .ok (0 :: arrayBytes (0 : SessionId)) := rfl
    rw [if_neg Bool.false_ne_true]
    simp only [refuse, post_bind, post_gets, post_lift, post_modify, post_pure, id]
    rw [hencode]
    exact .refused rfl

theorem handleProof_outcome (inputs : AuthInputs) (frame : Frame) (s : ServerHandshake) :
    Post (handleProof crypto inputs frame) s (ProofOutcome crypto s inputs frame) := by
  unfold handleProof
  refine post_requireActive (fun e s' h hlate => .stalled h fun proof hjudges => ?_) fun htime => ?_
  · exact absurd (hlate (.inr hjudges.state)) (not_le.2 hjudges.time)
  have hsame (e : Exn) (idle : ∀ proof, ¬ s.Judges inputs frame proof) : ProofOutcome crypto s inputs frame (.error e) s :=
    .stalled (.same rfl) idle
  rw [post_gets_bind, post_ite]
  refine ⟨fun hstate => hsame _ fun proof hjudges => hstate hjudges.state, fun hstate => ?_⟩
  rw [not_not] at hstate
  by_cases hframe : frame.type ≠ MessageType.clientAuth.code ∨ frame.requestId ≠ s.requestId
  · have hrefused : requireFrame frame .clientAuth (id s).requestId =
        .error (.runtimeError "unexpected authentication frame") := if_neg (not_not.2 hframe)
    rw [post_bind, post_lift, hrefused]
    refine hsame _ fun proof hjudges => ?_
    rcases hframe with htype | hrequest
    · exact htype hjudges.type
    · exact hrequest hjudges.request
  rw [post_bind, post_lift, requireFrame, check_of (show ¬ (_ ∨ frame.requestId ≠ (id s).requestId) from hframe)]
  rw [not_or, not_not, not_not] at hframe
  cases hpayload : decodeClientProof frame.payload with
  | error e =>
    rw [post_bind, post_lift]
    refine hsame _ fun proof hjudges => ?_
    have hdecoded := hjudges.payload
    rw [hpayload] at hdecoded
    cases hdecoded
  | ok proof =>
  have hjudges : s.Judges inputs frame proof := ⟨hstate, htime (.inr hstate), hframe.1, hframe.2, hpayload⟩
  rw [post_bind, post_lift]
  dsimp only
  rw [post_tryCatch]
  refine (judge_verdict inputs s proof).mono fun r s' hverdict => ?_
  cases hverdict with
  | threw =>
    simp only [post_bind, post_modify, post_throw]
    exact .refused hjudges rfl (fun f hf => by cases hf)
  | refused state => exact .refused hjudges state (fun f hf => by cases hf; rfl)
  | admitted proves nonzero => exact .accepted hjudges proves nonzero

/-! ## Any sequence of calls -/

/-- How far a handshake has come. -/
def phase (s : ServerHandshake) : ℕ :=
  match s.state with
  | .waitingHello => 0
  | .waitingProof => 1
  | _ => 2

/-- A handshake that ended without authenticating anybody. -/
def Failed (s : ServerHandshake) : Prop := s.state = .rejected ∨ s.state = .timedOut ∨ s.state = .closed

/-- One call of any kind. -/
inductive Moves (crypto : AuthCrypto) (s : ServerHandshake) (e : ServerCall × AuthInputs) : ServerHandshake → Prop
  | stalled {s' : ServerHandshake} (h : Stalled s s') : Moves crypto s e s'
  | closed : Moves crypto s e s.close
  | greeted {frame : Frame} {hello : ClientHelloPayload} {nonce : Nonce} (call : e.1 = .hello frame)
      (greets : s.Greets e.2 frame hello nonce) : Moves crypto s e (s.greeted frame hello nonce)
  | accepted {frame : Frame} {proof : ClientProofPayload} {session : SessionId} (call : e.1 = .proof frame)
      (judges : s.Judges e.2 frame proof) (proves : Proves crypto s.token s.publicKey s.transcript proof) :
      Moves crypto s e (s.admitted crypto session proof.signature)
  | refused {frame : Frame} {proof : ClientProofPayload} {s' : ServerHandshake} (call : e.1 = .proof frame)
      (judges : s.Judges e.2 frame proof) (state : s'.state = .rejected) : Moves crypto s e s'

theorem step_moves (s : ServerHandshake) (e : ServerCall × AuthInputs) : Moves crypto s e (s.step crypto e) := by
  obtain ⟨call, inputs⟩ := e
  cases call with
  | hello frame =>
    have houtcome := handleHello_outcome inputs frame s
    unfold Post at houtcome
    change Moves crypto s (.hello frame, inputs) (handleHello inputs frame s).2
    generalize handleHello inputs frame s = result at houtcome ⊢
    obtain ⟨r, s'⟩ := result
    cases houtcome with
    | answered greets => exact .greeted rfl greets
    | stalled h => exact .stalled h
  | proof frame =>
    have houtcome := @handleProof_outcome crypto inputs frame s
    unfold Post at houtcome
    change Moves crypto s (.proof frame, inputs) (handleProof crypto inputs frame s).2
    generalize handleProof crypto inputs frame s = result at houtcome ⊢
    obtain ⟨r, s'⟩ := result
    cases houtcome with
    | accepted judges proves nonzero => exact .accepted rfl judges proves
    | refused judges state answer => exact .refused rfl judges state
    | stalled h idle => exact .stalled h
  | expire => exact .stalled (expire_stalled inputs.now s)
  | close => exact .closed

theorem Moves.phase_le {e : ServerCall × AuthInputs} (h : Moves crypto s e s') : s.phase ≤ s'.phase := by
  have hle (s : ServerHandshake) : s.phase ≤ 2 := by
    unfold phase
    split <;> omega
  cases h with
  | stalled hstalled =>
    cases hstalled with
    | same h =>
      rw [h]
    | greeted h h' _ _ => simp [phase, h, h']
    | expired _ h' _ _ => exact (hle s).trans (by simp [phase, h'])
  | closed => exact (hle s).trans (by simp [phase, close])
  | greeted _ greets => simp [phase, greets.state]
  | accepted _ _ _ => exact (hle s).trans (by simp [phase, admitted])
  | refused _ _ state => exact (hle s).trans (by simp [phase, state])

theorem Moves.failed {e : ServerCall × AuthInputs} (h : Moves crypto s e s') (hs : s.Failed) : s'.Failed := by
  have hnot {state : ServerState} (heq : s.state = state) (h1 : state ≠ .rejected) (h2 : state ≠ .timedOut)
      (h3 : state ≠ .closed) {P : Prop} : P := by
    rcases hs with hs | hs | hs
    · exact absurd (heq.symm.trans hs) h1
    · exact absurd (heq.symm.trans hs) h2
    · exact absurd (heq.symm.trans hs) h3
  cases h with
  | stalled hstalled =>
    cases hstalled with
    | same h => rwa [h]
    | greeted h _ _ _ => exact hnot h (by decide) (by decide) (by decide)
    | expired _ h' _ _ => exact .inr (.inl h')
  | closed => exact .inr (.inr rfl)
  | greeted _ greets => exact hnot greets.state (by decide) (by decide) (by decide)
  | accepted _ judges _ => exact hnot judges.state (by decide) (by decide) (by decide)
  | refused _ _ state => exact .inl state

section
variable (crypto : AuthCrypto) (s₀ : ServerHandshake) (calls : ℕ → ServerCall × AuthInputs)

def run (k : ℕ) : ServerHandshake := states (step crypto) s₀ calls k

/-- Call `i` is a hello that is answered. -/
def AnswersHello (i : ℕ) (hello : ClientHelloPayload) (nonce : Nonce) : Prop :=
  ∃ frame, (calls i).1 = .hello frame ∧ (handleHello (calls i).2 frame (run crypto s₀ calls i)).1.isOk ∧
    decodeClientHello frame.payload = .ok hello ∧ (calls i).2.nonce = .ok nonce

/-- Call `j` is a proof that is judged, against the nonce of the handshake. -/
def JudgesProof (j : ℕ) (proof : ClientProofPayload) : Prop :=
  ∃ frame, (calls j).1 = .proof frame ∧ (run crypto s₀ calls j).Judges (calls j).2 frame proof

/-- Call `j` is a proof that is accepted. -/
def AcceptsProof (j : ℕ) (proof : ClientProofPayload) : Prop :=
  JudgesProof crypto s₀ calls j proof ∧ (run crypto s₀ calls (j + 1)).authenticated = true

end

section
variable {s₀ : ServerHandshake} {calls : ℕ → ServerCall × AuthInputs} {i j k : ℕ} {hello : ClientHelloPayload} {nonce : Nonce}
  {proof : ClientProofPayload}

theorem run_moves (k : ℕ) : Moves crypto (run crypto s₀ calls k) (calls k) (run crypto s₀ calls (k + 1)) :=
  step_moves _ _

theorem phase_mono (h : j ≤ k) : (run crypto s₀ calls j).phase ≤ (run crypto s₀ calls k).phase :=
  states_mono (R := fun s s' => s.phase ≤ s'.phase) (fun _ => le_rfl) (fun h h' => h.trans h')
    (fun s e => (step_moves s e).phase_le) calls h

theorem failed_mono (h : j ≤ k) (hfailed : (run crypto s₀ calls j).Failed) : (run crypto s₀ calls k).Failed :=
  states_mono (R := fun s s' => s.Failed → s'.Failed) (fun _ h => h) (fun h h' hs => h' (h hs))
    (fun s e => (step_moves s e).failed) calls h hfailed

/-- An answer takes the handshake from the hello to the proof. -/
theorem AnswersHello.greets (h : AnswersHello crypto s₀ calls i hello nonce) :
    ∃ frame, (run crypto s₀ calls i).Greets (calls i).2 frame hello nonce ∧
      run crypto s₀ calls (i + 1) = (run crypto s₀ calls i).greeted frame hello nonce := by
  obtain ⟨frame, hcall, hok, hpayload, hdrawn⟩ := h
  have houtcome := handleHello_outcome (calls i).2 frame (run crypto s₀ calls i)
  have hnext : run crypto s₀ calls (i + 1) = (handleHello (calls i).2 frame (run crypto s₀ calls i)).2 := by
    change step crypto (run crypto s₀ calls i) (calls i) = _
    rw [step, hcall]
  unfold Post at houtcome
  rw [hnext]
  generalize handleHello (calls i).2 frame (run crypto s₀ calls i) = result at houtcome hok ⊢
  obtain ⟨r, s'⟩ := result
  cases houtcome with
  | @answered hello' nonce' greets =>
    obtain rfl : hello' = hello := Except.ok.inj (greets.payload.symm.trans hpayload)
    obtain rfl : nonce' = nonce := Except.ok.inj (greets.drawn.symm.trans hdrawn)
    exact ⟨frame, greets, rfl⟩
  | stalled h => cases hok

theorem AnswersHello.unique {hello' : ClientHelloPayload} {nonce' : Nonce} (h : AnswersHello crypto s₀ calls i hello nonce)
    (h' : AnswersHello crypto s₀ calls j hello' nonce') : i = j := by
  obtain ⟨frame, greets, hnext⟩ := h.greets
  obtain ⟨frame', greets', hnext'⟩ := h'.greets
  have hphase : (run crypto s₀ calls i).phase = 0 := by simp [phase, greets.state]
  have hphase' : (run crypto s₀ calls j).phase = 0 := by simp [phase, greets'.state]
  have hone : (run crypto s₀ calls (i + 1)).phase = 1 := by rw [hnext]; rfl
  have hone' : (run crypto s₀ calls (j + 1)).phase = 1 := by rw [hnext']; rfl
  rcases Nat.lt_trichotomy i j with hlt | heq | hlt
  · have hle := @phase_mono crypto s₀ calls (i + 1) j hlt
    omega
  · exact heq
  · have hle := @phase_mono crypto s₀ calls (j + 1) i hlt
    omega

/-- A judgement ends the handshake one way or the other. -/
theorem JudgesProof.phases (h : JudgesProof crypto s₀ calls j proof) :
    (run crypto s₀ calls j).phase = 1 ∧ (run crypto s₀ calls (j + 1)).phase = 2 := by
  obtain ⟨frame, hcall, judges⟩ := h
  refine ⟨by simp [phase, judges.state], ?_⟩
  have houtcome := @handleProof_outcome crypto (calls j).2 frame (run crypto s₀ calls j)
  have hnext : run crypto s₀ calls (j + 1) = (handleProof crypto (calls j).2 frame (run crypto s₀ calls j)).2 := by
    change step crypto (run crypto s₀ calls j) (calls j) = _
    rw [step, hcall]
  unfold Post at houtcome
  rw [hnext]
  generalize handleProof crypto (calls j).2 frame (run crypto s₀ calls j) = result at houtcome ⊢
  obtain ⟨r, s'⟩ := result
  cases houtcome with
  | accepted _ _ _ => rfl
  | refused _ state _ =>
    have hrejected : s'.state = .rejected := state
    simp [phase, hrejected]
  | stalled _ idle => exact absurd judges (idle proof)

theorem JudgesProof.unique {proof' : ClientProofPayload} (h : JudgesProof crypto s₀ calls i proof)
    (h' : JudgesProof crypto s₀ calls j proof') : i = j := by
  have hphases := h.phases
  have hphases' := h'.phases
  rcases Nat.lt_trichotomy i j with hlt | heq | hlt
  · have hle := @phase_mono crypto s₀ calls (i + 1) j hlt
    omega
  · exact heq
  · have hle := @phase_mono crypto s₀ calls (j + 1) i hlt
    omega

/-- The fields are those of the hello that was answered at `i`. -/
structure FromHello (crypto : AuthCrypto) (s₀ : ServerHandshake) (calls : ℕ → ServerCall × AuthInputs) (s : ServerHandshake)
    (i : ℕ) (hello : ClientHelloPayload) (nonce : Nonce) : Prop where
  answers : AnswersHello crypto s₀ calls i hello nonce
  time : (calls i).2.now < s₀.deadline
  publicKey : s.publicKey = hello.publicKey
  encryptionPublicKey : s.encryptionPublicKey = hello.encryptionPublicKey
  clientNonce : s.clientNonce = hello.clientNonce
  serverNonce : s.serverNonce = nonce

theorem FromHello.transcript {s : ServerHandshake} (h : FromHello crypto s₀ calls s i hello nonce) : s.transcript =
    makeAuthTranscript hello.publicKey hello.encryptionPublicKey hello.clientNonce nonce := by
  rw [ServerHandshake.transcript, h.publicKey, h.encryptionPublicKey, h.clientNonce, h.serverNonce]

/-- A handshake that waits was made with its token and deadline, and owes its fields to a hello. -/
structure Grounds (crypto : AuthCrypto) (s₀ : ServerHandshake) (calls : ℕ → ServerCall × AuthInputs) (k : ℕ) : Prop where
  made : (run crypto s₀ calls k).Waiting →
    (run crypto s₀ calls k).deadline = s₀.deadline ∧ (run crypto s₀ calls k).token = s₀.token
  hello : (run crypto s₀ calls k).state = .waitingProof →
    ∃ i < k, ∃ hello nonce, FromHello crypto s₀ calls (run crypto s₀ calls k) i hello nonce

theorem answersHello_of_greets {frame : Frame} (hcall : (calls i).1 = .hello frame)
    (greets : (run crypto s₀ calls i).Greets (calls i).2 frame hello nonce)
    (hnext : run crypto s₀ calls (i + 1) = (run crypto s₀ calls i).greeted frame hello nonce) :
    AnswersHello crypto s₀ calls i hello nonce := by
  refine ⟨frame, hcall, ?_, greets.payload, greets.drawn⟩
  have houtcome := handleHello_outcome (calls i).2 frame (run crypto s₀ calls i)
  have hstep : run crypto s₀ calls (i + 1) = (handleHello (calls i).2 frame (run crypto s₀ calls i)).2 := by
    change step crypto (run crypto s₀ calls i) (calls i) = _
    rw [step, hcall]
  rw [hstep] at hnext
  have hstate := congrArg ServerHandshake.state hnext
  have hwaiting := greets.state
  unfold Post at houtcome
  generalize handleHello (calls i).2 frame (run crypto s₀ calls i) = result at houtcome hstate ⊢
  obtain ⟨r, s'⟩ := result
  cases houtcome with
  | answered _ => rfl
  | stalled h =>
    have hproof : s'.state = .waitingProof := hstate
    -- a call that stalls does not get past the hello
    cases h with
    | same h =>
      rw [show s' = _ from h, hwaiting] at hproof
      cases hproof
    | greeted _ h' _ _ => cases hproof.symm.trans h'
    | expired _ h' _ _ => cases hproof.symm.trans h'

theorem grounds (hs₀ : s₀.state = .waitingHello) (k : ℕ) : Grounds crypto s₀ calls k := by
  induction k with
  | zero =>
    refine ⟨fun _ => ⟨rfl, rfl⟩, fun h => ?_⟩
    cases hs₀.symm.trans h
  | succ k ih =>
    have hmoves := @run_moves crypto s₀ calls k
    generalize hnext : run crypto s₀ calls (k + 1) = s' at hmoves
    have hended (hnot : ¬ s'.Waiting) : Grounds crypto s₀ calls (k + 1) := by
      constructor
      · rw [hnext]
        exact fun h => absurd h hnot
      · rw [hnext]
        exact fun h => absurd (.inr h) hnot
    have hnotWaiting {state : ServerState} (hstate : s'.state = state) (h : state ≠ .waitingHello)
        (h' : state ≠ .waitingProof) : ¬ s'.Waiting := by
      rintro (hwaiting | hwaiting)
      · exact h (hstate.symm.trans hwaiting)
      · exact h' (hstate.symm.trans hwaiting)
    cases hmoves with
    | stalled hstalled =>
      cases hstalled with
      | same h =>
        subst h
        constructor
        · rw [hnext]
          exact ih.made
        · rw [hnext]
          intro hproof
          obtain ⟨i, hi, hfrom⟩ := ih.hello hproof
          exact ⟨i, hi.trans k.lt_succ_self, hfrom⟩
      | greeted h h' deadline token =>
        constructor
        · rw [hnext, deadline, token]
          exact fun _ => ih.made (.inl h)
        · rw [hnext]
          exact fun hproof => by cases hproof.symm.trans h'
      | expired _ h' _ _ => exact hended (hnotWaiting h' (by decide) (by decide))
    | closed => exact hended (@hnotWaiting .closed rfl (by decide) (by decide))
    | @greeted frame hello nonce call greets =>
      have hmade := ih.made (.inl greets.state)
      constructor
      · rw [hnext]
        exact fun _ => hmade
      · rw [hnext]
        intro _
        refine ⟨k, k.lt_succ_self, hello, nonce, answersHello_of_greets call greets hnext, ?_, rfl, rfl, rfl, rfl⟩
        rw [← hmade.1]
        exact greets.time
    | accepted _ _ _ => exact hended (@hnotWaiting .authenticated rfl (by decide) (by decide))
    | refused _ _ state => exact hended (hnotWaiting state (by decide) (by decide))

/-- An authenticated handshake accepted a proof. -/
theorem accepted_of_authenticated (hs₀ : s₀.state = .waitingHello) (hk : (run crypto s₀ calls k).state = .authenticated) :
    ∃ j < k, ∃ proof, AcceptsProof crypto s₀ calls j proof ∧ Proves crypto (run crypto s₀ calls j).token
      (run crypto s₀ calls j).publicKey (run crypto s₀ calls j).transcript proof := by
  induction k with
  | zero => cases hs₀.symm.trans hk
  | succ k ih =>
    have hmoves := @run_moves crypto s₀ calls k
    generalize hnext : run crypto s₀ calls (k + 1) = s' at hmoves hk
    cases hmoves with
    | stalled hstalled =>
      cases hstalled with
      | same h =>
        rw [h] at hk
        obtain ⟨j, hj, hrest⟩ := ih hk
        exact ⟨j, hj.trans k.lt_succ_self, hrest⟩
      | greeted _ h' _ _ => cases hk.symm.trans h'
      | expired _ h' _ _ => cases hk.symm.trans h'
    | closed => cases hk
    | greeted _ _ => cases hk
    | @accepted frame proof session call judges proves =>
      refine ⟨k, k.lt_succ_self, proof, ⟨⟨frame, call, judges⟩, ?_⟩, proves⟩
      rw [hnext]
      rfl
    | refused _ _ state => cases hk.symm.trans state

end

end ServerHandshake

end LanLink
