import LanLink.Protocol.Binary
/-!
# Candidate exchanges

`p2p/candidates.cpp`: the endpoints two devices tell each other, in a message
that the relay passes on.
-/
open LanLink.Lib LanLink.Lib.Reader

namespace LanLink.P2P

/-- `enum class CandidateKind : std::uint8_t`: any byte, two of which have names. -/
structure CandidateKind where
  code : UInt8
  deriving DecidableEq, Repr

namespace CandidateKind

def host : CandidateKind := ⟨1⟩

def serverReflexive : CandidateKind := ⟨2⟩

end CandidateKind

structure Endpoint where
  ipv4 : UInt32 := 0
  port : UInt16 := 0
  deriving DecidableEq, Repr

structure Candidate where
  endpoint : Endpoint
  kind : CandidateKind := .host
  priority : UInt32 := 0
  deriving DecidableEq, Repr

def maxCandidates : ℕ := 8

/-- The whole of a `CandidateExchange`; the relay looks at the part it extends. -/
structure CandidateExchange extends LanLink.CandidateExchange where
  responseToGeneration : UInt64 := 0
  lifetimeMs : UInt32 := 30000
  candidates : List Candidate := []
  deriving DecidableEq, Repr

def usableEndpoint (e : Endpoint) (loopback : Bool) : Bool :=
  let first := e.ipv4 >>> 24
  e.port ≠ 0 && first ≠ 0 && first < 224 && (loopback || first ≠ 127) && e.ipv4 &&& 0xffff0000 ≠ 0xa9fe0000 && e.ipv4 ≠ 0xffffffff

/-! ## Validation -/

/-- The loop of `validate`, given the endpoints before. -/
def checkCandidates (seen : List Endpoint) : List Candidate → Except Exn Unit
  | [] => .ok ()
  | c :: candidates => do
    check (¬ (¬ usableEndpoint c.endpoint true ∨ c.priority = 0 ∨ (c.kind ≠ .host ∧ c.kind ≠ .serverReflexive) ∨ c.endpoint ∈ seen))
      (.invalidArgument "invalid peer candidate")
    checkCandidates (c.endpoint :: seen) candidates

def validate (v : CandidateExchange) : Except Exn Unit := do
  check (¬ (v.networkId = 0 ∨ v.sender = 0 ∨ v.recipient = 0 ∨ v.sender = v.recipient ∨ v.senderSession = 0 ∨ v.recipientSession = 0 ∨
      v.keyEpoch = 0 ∨ v.generation = 0 ∨ v.lifetimeMs < 1000 ∨ 30000 < v.lifetimeMs ∨ v.candidates = [] ∨
      maxCandidates < v.candidates.length))
    (.invalidArgument "invalid peer candidate exchange")
  checkCandidates [] v.candidates

/-! ## The codec -/

def candidateBytes (c : Candidate) : Bytes :=
  beBytes 4 c.endpoint.ipv4.toNat ++ (beBytes 2 c.endpoint.port.toNat ++ (beBytes 1 c.kind.code.toNat ++ beBytes 4 c.priority.toNat))

def exchangeBytes (v : CandidateExchange) : Bytes :=
  beBytes 1 2 ++ (arrayBytes v.networkId ++ (arrayBytes v.sender ++ (arrayBytes v.recipient ++ (arrayBytes v.senderSession ++
    (arrayBytes v.recipientSession ++ (beBytes 8 v.keyEpoch.toNat ++ (beBytes 8 v.generation.toNat ++
    (beBytes 8 v.responseToGeneration.toNat ++ (beBytes 4 v.lifetimeMs.toNat ++ (beBytes 1 v.candidates.length ++
    v.candidates.flatMap candidateBytes))))))))))

def encodeCandidates (v : CandidateExchange) : Except Exn Bytes := do
  validate v
  .ok (exchangeBytes v)

open PolicyReader BinaryReader

def readCandidate : PolicyReader Candidate := do
  let ipv4 ← get32
  let port ← get16
  let kind ← get8
  let priority ← get32
  pure { endpoint := { ipv4, port }, kind := ⟨kind⟩, priority }

def readExchange : PolicyReader CandidateExchange := do
  let version ← get8
  Reader.require (version = 2) (.invalidArgument "unknown candidate schema")
  let networkId ← array 128
  let sender ← array 256
  let recipient ← array 256
  let senderSession ← array 256
  let recipientSession ← array 256
  let keyEpoch ← get64
  let generation ← get64
  let responseToGeneration ← get64
  let lifetimeMs ← get32
  let candidates ← counted 1 maxCandidates (.invalidArgument "too many candidates") readCandidate
  finish
  let v : CandidateExchange := { networkId, sender, recipient, senderSession, recipientSession, keyEpoch, generation,
                                 responseToGeneration, lifetimeMs, candidates }
  BinaryReader.validate (P2P.validate v)
  pure v

def decodeCandidates (payload : Bytes) : Except Exn CandidateExchange := readExchange.parse payload

/-! ## The round trip -/

theorem readCandidate_format : Format readCandidate candidateBytes fun _ => True := by
  refine (Record.field (fun c => c.endpoint.ipv4) get32_format fun ipv4 _ => .field (fun c => c.endpoint.port) get16_format fun port _ =>
    .field (fun c => c.kind.code) get8_format fun kind _ => .field Candidate.priority get32_format fun priority _ =>
    .pure ?_).format.congr ?_ ?_
  · rintro ⟨⟨ipv4', port'⟩, ⟨kind'⟩, priority'⟩
    simp only [true_and, Candidate.mk.injEq, Endpoint.mk.injEq, CandidateKind.mk.injEq, and_assoc, eq_comm]
  · intro c
    simp
  · intro c _
    simp [candidateBytes]

theorem length_of_validate {v : CandidateExchange} (h : validate v = .ok ()) : v.candidates.length ≤ maxCandidates := by
  simp only [validate, bind_eq_ok, check_eq_ok, exists_const, not_or, not_lt] at h
  exact h.1.2.2.2.2.2.2.2.2.2.2.2

theorem readExchange_record :
    Record Closed (fun _ => True) readExchange exchangeBytes fun v => True ∧ validate v = .ok () := by
  refine .congr (.field (fun _ => 2) get8_format fun version _ =>
    .require (fun _ => True) ?_ fun hversion =>
    .field (fun v => v.networkId) array128_format fun networkId _ => .field (fun v => v.sender) array256_format fun sender _ =>
    .field (fun v => v.recipient) array256_format fun recipient _ => .field (fun v => v.senderSession) array256_format fun session _ =>
    .field (fun v => v.recipientSession) array256_format fun session' _ => .field (fun v => v.keyEpoch) get64_format fun epoch _ =>
    .field (fun v => v.generation) get64_format fun generation _ =>
    .field CandidateExchange.responseToGeneration get64_format fun response _ =>
    .field CandidateExchange.lifetimeMs get32_format fun lifetime _ =>
    .field CandidateExchange.candidates (counted_format readCandidate_format (by decide) _) fun candidates _ =>
    .finish _ (checked_record validate ?_)) ?_ ?_
  · rintro v ⟨-, rfl⟩
    decide
  · subst hversion
    rintro ⟨⟨⟩⟩
    simp only [true_and, and_true, CandidateExchange.mk.injEq, LanLink.CandidateExchange.mk.injEq, and_assoc, eq_comm]
  · intro v _
    simp only [true_and, implies_true]
    constructor
    · exact fun h => h.2
    · exact fun h => ⟨⟨length_of_validate h, trivial⟩, h⟩
  · intro v _ _
    have htwo : (2 : UInt8).toNat = 2 := rfl
    simp only [exchangeBytes, htwo, List.append_nil]

/-- `decode_candidates` inverts `encode_candidates`. -/
theorem candidates_inverse : Inverse (fun _ => True) encodeCandidates decodeCandidates :=
  .of_checked (fun _ => rfl) readExchange_record

end LanLink.P2P
