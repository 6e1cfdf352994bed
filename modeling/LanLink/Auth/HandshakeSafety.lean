import LanLink.Auth.HandshakePairs
/-!
# Safety and agreement of the handshake

A server handshake authenticates a device for one hello and one proof within
its deadline, and judges a nonce once; a client and a server that authenticated
each other hold the same session and the same signed key.
-/
open LanLink.Lib

namespace LanLink

/-! ## One server -/

namespace ServerHandshake
variable {crypto : AuthCrypto} {token : AuthToken} {connectionBinding : ℕ} {deadline : ℤ} {s₀ : ServerHandshake}
  {calls : ℕ → ServerCall × AuthInputs} {j k : ℕ} {proof : ClientProofPayload}

theorem make_eq_ok (h : make token connectionBinding deadline = .ok s₀) : s₀ = { token, connectionBinding, deadline } := by
  simp only [make, bind_eq_ok, check_eq_ok, exists_const, Except.ok.injEq] at h
  exact h.2.symm

/-- Why a handshake may be authenticated: hello `i` was answered with the nonce,
proof `j` was accepted for both. -/
structure Authenticates (crypto : AuthCrypto) (s₀ : ServerHandshake) (calls : ℕ → ServerCall × AuthInputs) (i j : ℕ)
    (hello : ClientHelloPayload) (nonce : Nonce) (proof : ClientProofPayload) : Prop where
  answers : AnswersHello crypto s₀ calls i hello nonce
  accepts : AcceptsProof crypto s₀ calls j proof
  helloTime : (calls i).2.now < s₀.deadline
  proofTime : (calls j).2.now < s₀.deadline
  signature : crypto.verifySignature hello.publicKey
    (makeAuthTranscript hello.publicKey hello.encryptionPublicKey hello.clientNonce nonce) proof.signature = true
  tokenProof : crypto.hmac s₀.token
    (makeAuthTranscript hello.publicKey hello.encryptionPublicKey hello.clientNonce nonce) = proof.tokenProof
  soleHello : ∀ i' hello' nonce', AnswersHello crypto s₀ calls i' hello' nonce' → i' = i
  soleProof : ∀ j' proof', JudgesProof crypto s₀ calls j' proof' → j' = j

theorem authenticates (hs₀ : s₀.state = .waitingHello) (hk : (run crypto s₀ calls k).state = .authenticated) :
    ∃ i j hello nonce proof, i < j ∧ j < k ∧ Authenticates crypto s₀ calls i j hello nonce proof := by
  obtain ⟨j, hj, proof, haccepts, hsignature, htoken⟩ := accepted_of_authenticated hs₀ hk
  obtain ⟨frame, hcall, hjudges⟩ := haccepts.1
  have hgrounds := @grounds crypto s₀ calls hs₀ j
  obtain ⟨i, hi, hello, nonce, hfrom⟩ := hgrounds.hello hjudges.state
  obtain ⟨hdeadline, hmade⟩ := hgrounds.made (.inr hjudges.state)
  refine ⟨i, j, hello, nonce, proof, hi, hj, hfrom.answers, haccepts, hfrom.time, ?_, ?_, ?_, ?_, ?_⟩
  · rw [← hdeadline]
    exact hjudges.time
  · rw [← hfrom.transcript, ← hfrom.publicKey]
    exact hsignature
  · rw [← hfrom.transcript, ← hmade]
    exact htoken
  · exact fun i' hello' nonce' h => h.unique hfrom.answers
  · exact fun j' proof' h => h.unique haccepts.1

/-- Call `j` judges a proof for the nonce. -/
def JudgesNonce (crypto : AuthCrypto) (s₀ : ServerHandshake) (calls : ℕ → ServerCall × AuthInputs) (j : ℕ) (nonce : Nonce) : Prop :=
  ∃ proof, JudgesProof crypto s₀ calls j proof ∧ (run crypto s₀ calls j).serverNonce = nonce

/-- The nonce that is judged was drawn by an earlier call of the handshake. -/
theorem JudgesNonce.drawn {nonce : Nonce} (hs₀ : s₀.state = .waitingHello) (h : JudgesNonce crypto s₀ calls j nonce) :
    ∃ i < j, (calls i).2.nonce = .ok nonce := by
  obtain ⟨proof, ⟨frame, hcall, hjudges⟩, hnonce⟩ := h
  obtain ⟨i, hi, hello, drawn, hfrom⟩ := (@grounds crypto s₀ calls hs₀ j).hello hjudges.state
  obtain ⟨frame', hcall', hok, hpayload, hdrawn⟩ := hfrom.answers
  refine ⟨i, hi, ?_⟩
  rw [← hnonce, hfrom.serverNonce]
  exact hdrawn

theorem Failed.not_authenticated {s : ServerHandshake} (h : s.Failed) : s.authenticated = false := by
  rcases h with h | h | h <;> simp [authenticated, h]

end ServerHandshake

/-! ## A client and a server -/

namespace Exchange
variable {crypto : AuthCrypto} {c₀ : ClientHandshake} {s₀ : ServerHandshake}

theorem holds_initial (hc₀ : c₀.state = .ready) (hs₀ : s₀.state = .waitingHello) :
    Holds crypto c₀ {} { client := c₀, server := s₀ } := by
  have hclient {state : ClientState} (hs : c₀.state = state) (hne : state ≠ .ready) {P : Prop} : P :=
    absurd (hs.symm.trans hc₀) hne
  have hserver {state : ServerState} (hs : s₀.state = state) (hne : state ≠ .waitingHello) {P : Prop} : P :=
    absurd (hs.symm.trans hs₀) hne
  refine ⟨⟨rfl, rfl, fun _ => rfl, fun hs => ?_, fun hs => ?_, fun hs => ?_, by simp⟩, ⟨fun _ => rfl, fun hs => ?_, fun hs => ?_,
    by simp⟩, ⟨fun _ hs => ?_, fun _ hs => ?_, fun _ hs => ?_, fun _ hs => ?_⟩⟩
  · exact hclient hs (by decide)
  · rcases hs with hs | hs
    · exact hclient hs (by decide)
    · exact hclient hs (by decide)
  · exact hclient hs (by decide)
  · exact hserver hs (by decide)
  · exact hserver hs (by decide)
  · exact hserver hs (by decide)
  · exact hserver hs (by decide)
  · exact hclient hs (by decide)
  · exact hclient hs (by decide)

theorem holds_run (hc₀ : c₀.state = .ready) (hs₀ : s₀.state = .waitingHello) (calls : ℕ → ExchangeCall × AuthInputs) (k : ℕ) :
    ∃ v, Holds crypto c₀ v (run crypto { client := c₀, server := s₀ } calls k) :=
  states_inv (fun x => ∃ v, Holds crypto c₀ v x) (fun _ _ => True) ⟨{}, holds_initial hc₀ hs₀⟩
    (fun _ e _ ⟨_, h⟩ => h.step e) (fun _ => trivial) k

/-- Both sides hold the session and the key, and the device of the server is the client's. -/
structure Agree (crypto : AuthCrypto) (identity : DeviceIdentity) (x : Exchange) (session : SessionId) (key : SignedDeviceKey) :
    Prop where
  clientSession : x.client.sessionId = some session
  serverSession : x.server.sessionId = .ok session
  clientKey : x.client.signedKey = some key
  serverKey : x.server.signedDeviceKey = .ok key
  device : x.server.deviceId = .ok (makeDeviceId crypto.toCrypto (crypto.identityPublicKey identity))

theorem Holds.agree {v : Values} {x : Exchange} (h : Holds crypto c₀ v x) (hclient : x.client.authenticated = true)
    (hserver : x.server.authenticated = true) : Agree crypto c₀.identity x v.session (v.key crypto c₀) := by
  have hc : x.client.state = .authenticated := of_decide_eq_true hclient
  have hs : x.server.state = .authenticated := of_decide_eq_true hserver
  obtain ⟨hkey, hdevice, hsession⟩ := h.server.admitted hs
  refine ⟨?_, ?_, ?_, ?_, ?_⟩
  · rw [ClientHandshake.sessionId, if_pos hclient, h.client.session hc]
  · rw [ServerHandshake.sessionId, check_of hserver, ok_bind, hsession]
  · rw [ClientHandshake.signedKey, if_pos hclient, h.client.signed (.inr hc)]
  · rw [ServerHandshake.signedDeviceKey, hkey]
    dsimp only
    rw [check_of hserver, ok_bind]
  · rw [ServerHandshake.deviceId, check_of hserver, ok_bind, hdevice, ClientHandshake.publicKey]

/-- Signatures and token proofs that sum up what they are over. -/
def plainAuthCrypto : AuthCrypto where
  sha256 bytes := BitVec.ofNat 256 (beNat bytes)
  scrypt _ _ := none
  verifySignature key message signature := signature = BitVec.ofNat 512 (beNat message + key.toNat)
  hkdf key _ info := BitVec.ofNat 256 (beNat key + beNat info)
  aesGcmEncrypt _ _ _ plaintext := (plaintext, 0)
  aesGcmDecrypt _ _ _ ciphertext _ := some ciphertext
  encryptionPublicKey key := key + 1
  x25519 key peer := some (key + peer)
  identityPublicKey identity := identity
  sign identity message := BitVec.ofNat 512 (beNat message + identity.toNat)
  hmac token message := BitVec.ofNat 256 (beNat message + token.toNat)

/-- Device 3 greets with nonce 11, the server answers with nonce 12 and opens session 13. -/
def greeting : ℕ → ExchangeCall × AuthInputs
  | 0 => (.begin 1, { nonce := .ok 11 })
  | 1 => (.hello { type := MessageType.clientHello.code, requestId := 1, payload := encodeClientHello ⟨3, 5, 11⟩ },
      { now := 1, nonce := .ok 12 })
  | 2 => (.challenge (ServerHandshake.challengeFrame 1 12), {})
  | 3 =>
    (.proof { type := MessageType.clientAuth.code, requestId := 1
              payload := encodeClientProof ⟨plainAuthCrypto.sign 3 (makeAuthTranscript 3 5 11 12),
                plainAuthCrypto.hmac 9 (makeAuthTranscript 3 5 11 12)⟩ },
      { now := 2, sessionIds := [0, 13] })
  | 4 => (.result (ServerHandshake.resultFrame 1 true 13), {})
  | _ => (.expire, { now := 20 })

example :
    let x₀ : Exchange := { client := .make 3 9 4, server := { token := 9, connectionBinding := 1, deadline := 10 } }
    let x := run plainAuthCrypto x₀ greeting 6
    x.client.sessionId = some 13 ∧ x.server.sessionId = .ok 13 ∧ x.server.deviceId = .ok 3 ∧ x.client.signedKey ≠ none := by
  decide +kernel

end Exchange

/-! ## The handshake -/

/-- No nonce is drawn by two calls. -/
def FreshNonces {ι : Type} (calls : ι → ℕ → ServerCall × AuthInputs) : Prop :=
  ∀ a b i j nonce, (calls a i).2.nonce = .ok nonce → (calls b j).2.nonce = .ok nonce → a = b ∧ i = j

/-- What the handshake is for, over any calls in any order at any times. -/
structure HandshakeSafety (crypto : AuthCrypto) : Prop where
  authenticated : ∀ token connectionBinding deadline s₀, ServerHandshake.make token connectionBinding deadline = .ok s₀ →
    ∀ calls k, (ServerHandshake.run crypto s₀ calls k).authenticated = true →
      ∃ i j hello nonce proof, i < j ∧ j < k ∧ ServerHandshake.Authenticates crypto s₀ calls i j hello nonce proof
  /-- Over any number of handshakes, a nonce is judged once. -/
  judged : ∀ (ι : Type) (token : ι → AuthToken) (connectionBinding : ι → ℕ) (deadline : ι → ℤ) (s₀ : ι → ServerHandshake),
    (∀ a, ServerHandshake.make (token a) (connectionBinding a) (deadline a) = .ok (s₀ a)) →
    ∀ calls : ι → ℕ → ServerCall × AuthInputs, FreshNonces calls → ∀ a b j l nonce,
      ServerHandshake.JudgesNonce crypto (s₀ a) (calls a) j nonce → ServerHandshake.JudgesNonce crypto (s₀ b) (calls b) l nonce →
        a = b ∧ j = l
  /-- A handshake that was rejected, timed out or closed stays so. -/
  failed : ∀ s₀ calls j k, j ≤ k → (ServerHandshake.run crypto s₀ calls j).Failed →
    (ServerHandshake.run crypto s₀ calls k).authenticated = false
  agreement : ∀ identity clientToken encryptionKey token connectionBinding deadline s₀,
    ServerHandshake.make token connectionBinding deadline = .ok s₀ → ∀ calls k,
      let x := Exchange.run crypto { client := ClientHandshake.make identity clientToken encryptionKey, server := s₀ } calls k
      x.client.authenticated = true → x.server.authenticated = true → ∃ session key, Exchange.Agree crypto identity x session key

theorem handshake_safe (crypto : AuthCrypto) : HandshakeSafety crypto where
  authenticated := by
    intro token connectionBinding deadline s₀ hmake calls k hk
    obtain rfl := ServerHandshake.make_eq_ok hmake
    exact ServerHandshake.authenticates rfl (of_decide_eq_true hk)
  judged := by
    intro ι token connectionBinding deadline s₀ hmake calls hfresh a b j l nonce hj hl
    have hstate (a : ι) : (s₀ a).state = .waitingHello := by rw [ServerHandshake.make_eq_ok (hmake a)]
    -- the draw tells which handshake it was
    obtain ⟨i, -, hdrawn⟩ := hj.drawn (hstate a)
    obtain ⟨i', -, hdrawn'⟩ := hl.drawn (hstate b)
    obtain ⟨rfl, -⟩ := hfresh a b i i' nonce hdrawn hdrawn'
    obtain ⟨proof, hjudges, -⟩ := hj
    obtain ⟨proof', hjudges', -⟩ := hl
    exact ⟨rfl, hjudges.unique hjudges'⟩
  failed := by
    intro s₀ calls j k hjk hfailed
    exact (ServerHandshake.failed_mono hjk hfailed).not_authenticated
  agreement := by
    intro identity clientToken encryptionKey token connectionBinding deadline s₀ hmake calls k x hclient hserver
    obtain rfl := ServerHandshake.make_eq_ok hmake
    obtain ⟨v, hholds⟩ := @Exchange.holds_run crypto (ClientHandshake.make identity clientToken encryptionKey)
      { token, connectionBinding, deadline } rfl rfl calls k
    exact ⟨_, _, hholds.agree hclient hserver⟩

end LanLink
