import LanLink.Auth.Handshake
import LanLink.P2P.Bindings
import LanLink.P2P.Connectivity
/-!
# Punching

`PunchSession` (`p2p/punch.cpp`): a device sends signed probes to the candidates
of its peer, answers the probes of the peer, and selects the candidate from which
its own nonce comes back. The clock, the datagrams and a failing signature are
inputs.
-/
open LanLink.Lib LanLink.Lib.Reader

namespace LanLink.P2P
open LanLink.Session (PeerBinding)

structure Datagram where
  source : Endpoint
  bytes : Bytes
  deriving DecidableEq, Repr

structure ProbeDatagram where
  destination : Endpoint
  bytes : Bytes
  deriving DecidableEq, Repr

structure PunchSession where
  identity : DeviceIdentity
  peerKey : SignedDeviceKey
  binding : PeerBinding
  remote : List Candidate
  nonce : Nonce
  deadline : Time
  next : Time
  round : ℕ := 0
  sent : ℕ := 0
  responses : ℕ := 0
  selected : Option Endpoint := none
  verified : List Endpoint := []
  deriving DecidableEq, Repr

/-! ## Datagrams -/

/-- What `receive` reads of a datagram. -/
structure Punch where
  kind : UInt8
  nonce : Nonce
  echo : Nonce
  signature : Signature
  deriving DecidableEq, Repr

/-- `receive` returns nothing. -/
def dropped : Exn := .runtimeError "dropped"

section
open PolicyReader BinaryReader

/-- The reads of `receive`, with the binding it expects. -/
def readPunch (expected : PeerBinding) : PolicyReader Punch := do
  let magic ← get32
  Reader.require (magic = 0x4c4c5031) dropped
  let kind ← get8
  let bound ← bytes 168
  let binding ← BinaryReader.validate (decodeBinding bound)
  Reader.require (binding = expected) dropped
  let nonce ← array 256
  let echo ← array 256
  let signature ← array 512
  finish
  pure { kind, nonce, echo, signature }

end

namespace PunchSession
variable (crypto : KeyCrypto)

/-- The loop of the constructor. -/
def checkEndpoints : List Candidate → Except Exn Unit
  | [] => .ok ()
  | c :: remote => do
    check (usableEndpoint c.endpoint true) (.invalidArgument "invalid punch endpoint")
    checkEndpoints remote

/-- The constructor, with the nonce it draws. -/
def make (identity : DeviceIdentity) (peer : SignedDeviceKey) (binding : PeerBinding) (remote : List Candidate)
    (nonce : Except Exn Nonce) (now : Time) : Except Exn PunchSession := do
  let nonce ← nonce
  check (¬ (identity.deviceId crypto ≠ binding.localDevice ∨ ¬ verifySignedDeviceKey crypto.toCrypto peer binding.peerDevice ∨
      peer.encryptionPublicKey ≠ binding.peerSession ∨ binding.keyEpoch = 0 ∨ binding.localGeneration = 0 ∨
      binding.peerGeneration = 0 ∨ remote = [] ∨ maxCandidates < remote.length))
    (.invalidArgument "unauthorized punch session")
  checkEndpoints remote
  .ok { identity, peerKey := peer, binding, remote, nonce, deadline := now + 5000000000, next := now }

/-- What a probe or a reply signs. -/
def payload (s : PunchSession) (reply : Bool) (echo : Nonce) : Bytes := punchBytes (if reply then 2 else 1) s.binding s.nonce echo

def message (s : PunchSession) (signFault : Option Exn) (reply : Bool) (echo : Nonce) : Except Exn Bytes := do
  let bytes := s.payload reply echo
  let signature ← orThrow signFault (crypto.sign s.identity bytes)
  .ok (bytes ++ arrayBytes signature)

def finished (s : PunchSession) (now : Time) : Prop := s.selected.isSome ∨ s.deadline ≤ now

instance (s : PunchSession) (now : Time) : Decidable (s.finished now) := inferInstanceAs (Decidable (_ ∨ _))

/-- The loop of `tick`: the datagrams, and how many probes were sent by then. -/
def probes (bytes : Bytes) (sent : ℕ) : List Candidate → List ProbeDatagram × ℕ
  | [] => ([], sent)
  | c :: remote =>
    if 32 ≤ sent then ([], sent)
    else
      let rest := probes bytes (sent + 1) remote
      ({ destination := c.endpoint, bytes } :: rest.1, rest.2)

def tick (s : PunchSession) (now : Time) (signFault : Option Exn) : Except Exn (List ProbeDatagram) × PunchSession :=
  if s.finished now ∨ now < s.next ∨ 32 ≤ s.sent then (.ok [], s)
  else
    match s.message crypto signFault false 0 with
    | .error e => (.error e, s)
    | .ok bytes =>
      let sent := probes bytes s.sent s.remote
      (.ok sent.1, { s with sent := sent.2, next := now + 50000000 * 2 ^ min s.round 4, round := s.round + 1 })

/-- A reply came back from `source`. -/
def select (s : PunchSession) (source : Endpoint) : PunchSession :=
  { s with
    selected := some source
    verified := if source ∈ s.verified then s.verified else s.verified ++ [source] }

def receive (s : PunchSession) (d : Datagram) (now : Time) (signFault : Option Exn) : Option ProbeDatagram × PunchSession :=
  if s.deadline ≤ now ∨ d.bytes.length ≠ 5 + 168 + 64 + 64 ∨ 32 ≤ s.responses then (none, s)
  else if d.source ∉ s.remote.map (·.endpoint) then (none, s)
  else
    match (readPunch s.binding.reversed).parse d.bytes with
    | .error _ => (none, s)
    | .ok p =>
      if (p.kind ≠ 1 ∧ p.kind ≠ 2) ∨ ¬ crypto.verifySignature s.peerKey.identityPublicKey (d.bytes.take (d.bytes.length - 64)) p.signature then
        (none, s)
      else if p.kind = 2 then (none, if p.echo = s.nonce then s.select d.source else s)
      else
        -- the response counts even if it cannot be signed
        match s.message crypto signFault true p.nonce with
        | .error _ => (none, { s with responses := s.responses + 1 })
        | .ok bytes => (some { destination := d.source, bytes }, { s with responses := s.responses + 1 })

end PunchSession

/-! ## What is read -/

section
open PolicyReader BinaryReader

/-- The binding is read whole, and has to be the one expected. -/
theorem expected_record {expected : PeerBinding} {f : PolicyReader Punch} {write : Punch → Bytes} {known allowed : Punch → Prop}
    (h : Record Closed known f write allowed) :
    Record Closed known (do
      let bound ← bytes 168
      let binding ← BinaryReader.validate (decodeBinding bound)
      Reader.require (binding = expected) dropped
      f) (fun p => encodeBinding expected ++ write p) allowed := by
  intro input p rest
  simp only [run_bind_ok, run_require_ok]
  constructor
  · rintro ⟨bound, mid, hbound, binding, mid', hvalid, u, mid'', ⟨rfl, rfl⟩, hrest⟩
    obtain ⟨rfl, -⟩ := (Format.bytes _ _ _ _ _).1 hbound
    cases hdecode : decodeBinding bound with
    | error e =>
      rw [BinaryReader.validate, hdecode] at hvalid
      cases hvalid
    | ok binding' =>
      rw [BinaryReader.validate, hdecode] at hvalid
      cases hvalid
      obtain ⟨rfl, hafter, hp⟩ := (h _ _ _).1 hrest
      rw [decodeBinding_ok.1 hdecode]
      exact ⟨(List.append_assoc _ _ _).symm, hafter, hp⟩
  · rintro ⟨rfl, hafter, hp⟩
    refine ⟨encodeBinding expected, write p ++ rest, ?_, expected, write p ++ rest, ?_, (), _, ⟨rfl, rfl⟩, (h _ _ _).2 ⟨rfl, hafter, hp⟩⟩
    · exact (Format.bytes _ _ _ _ _).2 ⟨List.append_assoc _ _ _, length_encodeBinding expected⟩
    · rw [BinaryReader.validate, decodeBinding_ok.2 rfl]
      rfl

theorem readPunch_record (expected : PeerBinding) : Record Closed (fun _ => True) (readPunch expected)
    (fun p => punchBytes p.kind expected p.nonce p.echo ++ arrayBytes p.signature) fun _ => True := by
  refine .congr (.field (fun _ => 0x4c4c5031) get32_format fun magic _ => .require (fun _ => True) ?_ fun hmagic =>
    .field Punch.kind get8_format fun kind _ => @expected_record expected _ _ _ _ (.field Punch.nonce array256_format fun nonce _ =>
    .field Punch.echo array256_format fun echo _ => .field Punch.signature (array_format rfl) fun signature _ =>
    .finish _ (.pure ?_))) ?_ ?_
  · rintro p ⟨-, rfl⟩
    simp
  · subst hmagic
    rintro ⟨⟩
    simp only [true_and, Punch.mk.injEq, and_assoc, eq_comm]
  · intro p _
    simp
  · intro p _ _
    have hmagic : (0x4c4c5031 : UInt32).toNat = 0x4c4c5031 := rfl
    simp only [punchBytes, hmagic, List.append_assoc, List.append_nil]

theorem parse_readPunch {expected : PeerBinding} {input : Bytes} {p : Punch} : (readPunch expected).parse input = .ok p ↔
    input = punchBytes p.kind expected p.nonce p.echo ++ arrayBytes p.signature :=
  (readPunch_record expected).parse_eq_ok.trans (and_iff_left trivial)

end

/-! ## What a call does -/

namespace PunchSession

/-- The peer signed `bytes`, and one of its candidates sent them in time. -/
structure Heard (crypto : KeyCrypto) (s : PunchSession) (d : Datagram) (now : Time) (bytes : Bytes) : Prop where
  payload : signedPayload d.bytes = bytes
  verified : crypto.verifySignature s.peerKey.identityPublicKey bytes (messageSignature d.bytes) = true
  source : d.source ∈ s.remote.map (·.endpoint)
  early : now < s.deadline

/-- A datagram with what it signs. -/
def signed (crypto : KeyCrypto) (s : PunchSession) (reply : Bool) (echo : Nonce) : Bytes :=
  s.payload reply echo ++ arrayBytes (crypto.sign s.identity (s.payload reply echo))

theorem message_ok {crypto : KeyCrypto} {s : PunchSession} {fault : Option Exn} {reply : Bool} {echo : Nonce} {bytes : Bytes}
    (h : s.message crypto fault reply echo = .ok bytes) : bytes = s.signed crypto reply echo := by
  simp only [message, bind_eq_ok, Except.ok.injEq] at h
  obtain ⟨signature, hsigned, rfl⟩ := h
  cases fault with
  | some e => cases hsigned
  | none =>
    obtain rfl := Except.ok.inj hsigned
    rfl

@[simp] theorem message_none (crypto : KeyCrypto) (s : PunchSession) (reply : Bool) (echo : Nonce) :
    s.message crypto none reply echo = .ok (s.signed crypto reply echo) := rfl

inductive ReceiveOutcome (crypto : KeyCrypto) (s : PunchSession) (d : Datagram) (now : Time) : Option ProbeDatagram → PunchSession → Prop
  | kept : ReceiveOutcome crypto s d now none s
  | selected {nonce : Nonce} (heard : s.Heard crypto d now (punchBytes 2 s.binding.reversed nonce s.nonce)) :
      ReceiveOutcome crypto s d now none (s.select d.source)
  | unsigned {nonce echo : Nonce} (heard : s.Heard crypto d now (punchBytes 1 s.binding.reversed nonce echo)) (room : s.responses < 32) :
      ReceiveOutcome crypto s d now none { s with responses := s.responses + 1 }
  | answered {nonce echo : Nonce} (heard : s.Heard crypto d now (punchBytes 1 s.binding.reversed nonce echo)) (room : s.responses < 32) :
      ReceiveOutcome crypto s d now (some { destination := d.source, bytes := s.signed crypto true nonce })
        { s with responses := s.responses + 1 }

theorem receive_outcome (crypto : KeyCrypto) (s : PunchSession) (d : Datagram) (now : Time) (fault : Option Exn) :
    ReceiveOutcome crypto s d now (s.receive crypto d now fault).1 (s.receive crypto d now fault).2 := by
  unfold receive
  split
  · exact .kept
  rename_i hopen
  simp only [not_or, not_le, not_not] at hopen
  obtain ⟨hearly, -, hroom⟩ := hopen
  split
  · exact .kept
  rename_i hsource
  rw [not_not] at hsource
  split
  · exact .kept
  rename_i p hparse
  have hbytes := parse_readPunch.1 hparse
  split
  · exact .kept
  rename_i hverified
  simp only [not_or, not_not, not_and_or] at hverified
  obtain ⟨hkind, hverified⟩ := hverified
  have hheard : s.Heard crypto d now (punchBytes p.kind s.binding.reversed p.nonce p.echo) := by
    have hpayload : signedPayload d.bytes = punchBytes p.kind s.binding.reversed p.nonce p.echo := by
      rw [hbytes, signedPayload_append]
    refine ⟨hpayload, ?_, hsource, hearly⟩
    have hsignature : messageSignature d.bytes = p.signature := by rw [hbytes, messageSignature_append]
    rw [← hpayload, hsignature]
    exact hverified
  split
  · rename_i htwo
    split
    · rename_i hecho
      rw [htwo, hecho] at hheard
      exact .selected hheard
    · exact .kept
  · rename_i htwo
    have hone : p.kind = 1 := hkind.resolve_right htwo
    rw [hone] at hheard
    split
    · exact .unsigned hheard hroom
    · rename_i bytes hmessage
      rw [message_ok hmessage]
      exact .answered hheard hroom

/-- The probes of a tick, each to a candidate, while fewer than 32 were sent. -/
theorem probes_spec (bytes : Bytes) (sent : ℕ) (remote : List Candidate) :
    (probes bytes sent remote).2 = sent + (probes bytes sent remote).1.length ∧
    (sent ≤ 32 → (probes bytes sent remote).2 ≤ 32) ∧
    ∀ d ∈ (probes bytes sent remote).1, d.bytes = bytes ∧ d.destination ∈ remote.map (·.endpoint) := by
  induction remote generalizing sent with
  | nil => simp [probes]
  | cons c remote ih =>
    rw [probes]
    split
    · simp
    · rename_i hroom
      obtain ⟨hcount, hmost, hall⟩ := ih (sent + 1)
      refine ⟨?_, fun _ => hmost (by omega), ?_⟩
      · rw [List.length_cons, hcount]
        omega
      · rintro d hd
        rcases List.mem_cons.1 hd with rfl | hd
        · exact ⟨rfl, List.mem_cons_self⟩
        · exact ⟨(hall d hd).1, List.mem_cons_of_mem _ (hall d hd).2⟩

inductive TickOutcome (crypto : KeyCrypto) (s : PunchSession) (now : Time) : Except Exn (List ProbeDatagram) → PunchSession → Prop
  | idle : TickOutcome crypto s now (.ok []) s
  | unsigned {e : Exn} : TickOutcome crypto s now (.error e) s
  | probed (waits : ¬ s.finished now) (due : s.next ≤ now) (room : s.sent < 32) :
      TickOutcome crypto s now (.ok (probes (s.signed crypto false 0) s.sent s.remote).1)
        { s with
          sent := (probes (s.signed crypto false 0) s.sent s.remote).2
          next := now + 50000000 * 2 ^ min s.round 4
          round := s.round + 1 }

theorem tick_outcome (crypto : KeyCrypto) (s : PunchSession) (now : Time) (fault : Option Exn) :
    TickOutcome crypto s now (s.tick crypto now fault).1 (s.tick crypto now fault).2 := by
  unfold tick
  split
  · exact .idle
  rename_i hopen
  simp only [not_or, not_le, not_lt] at hopen
  split
  · exact .unsigned
  rename_i bytes hmessage
  rw [message_ok hmessage]
  exact .probed hopen.1 hopen.2.1 hopen.2.2

end PunchSession
end LanLink.P2P
