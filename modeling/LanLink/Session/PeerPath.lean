import LanLink.Lib.Runs
import LanLink.P2P.Candidates
/-!
# Peer packet paths

`session/peer_packet_path.cpp`: how two devices of a network agree on a direct
path. Each keeps an entry for the other, offers its candidates under a
generation of its own and answers the offers of the other. When something is
retried, what candidates there are and whether a frame goes out are inputs here.
-/
open LanLink.Lib

namespace LanLink.Session

/-! ## Entries -/

structure PeerBinding where
  networkId : NetworkId
  keyEpoch : UInt64
  localGeneration : UInt64 := 0
  peerGeneration : UInt64 := 0
  localDevice : DeviceId
  peerDevice : DeviceId
  localSession : EncryptionPublicKey
  peerSession : EncryptionPublicKey
  deriving DecidableEq, Repr

/-- The part of `Impl::Peer` that offers and answers are about. -/
structure Peer where
  binding : PeerBinding
  localCandidates : List P2P.Candidate := []
  remoteCandidates : List P2P.Candidate := []
  published : Bool := false
  waitingForAnswer : Bool := true
  responseToGeneration : UInt64 := 0
  deriving DecidableEq, Repr

namespace Peer

/-- `prepare`, with the generation it draws and the candidates it finds. -/
def prepare (p : Peer) (generation : UInt64) (gathered : List P2P.Candidate) : Peer :=
  { binding := { p.binding with localGeneration := generation, peerGeneration := 0 }, localCandidates := gathered }

/-- What is published for an entry. -/
def exchange (p : Peer) : P2P.CandidateExchange where
  networkId := p.binding.networkId
  sender := p.binding.localDevice
  recipient := p.binding.peerDevice
  senderSession := p.binding.localSession
  recipientSession := p.binding.peerSession
  keyEpoch := p.binding.keyEpoch
  generation := p.binding.localGeneration
  responseToGeneration := p.responseToGeneration
  candidates := p.localCandidates

/-- Candidates that are not for this entry, or not new to it. -/
def Ignores (p : Peer) (x : P2P.CandidateExchange) : Prop :=
  x.generation ≤ p.binding.peerGeneration ∨ x.senderSession ≠ p.binding.peerSession ∨ x.recipientSession ≠ p.binding.localSession ∨
    x.keyEpoch ≠ p.binding.keyEpoch ∨ p.localCandidates = []

instance (p : Peer) (x : P2P.CandidateExchange) : Decidable (p.Ignores x) := inferInstanceAs (Decidable (_ ∨ _))

/-- Both devices offer, and the offer of this one is to be answered. -/
def Prevails (p : Peer) : Prop := p.waitingForAnswer = true ∧ p.binding.localDevice < p.binding.peerDevice

instance (p : Peer) : Decidable p.Prevails := inferInstanceAs (Decidable (_ ∧ _))

/-- The answer to the last offer. -/
def Awaits (p : Peer) (x : P2P.CandidateExchange) : Prop :=
  p.waitingForAnswer = true ∧ x.responseToGeneration = p.binding.localGeneration

instance (p : Peer) (x : P2P.CandidateExchange) : Decidable (p.Awaits x) := inferInstanceAs (Decidable (_ ∧ _))

/-- Offer again, under a generation that the other device has not seen. -/
def offerAgain (p : Peer) (generation : UInt64) : Peer :=
  { p with binding := { p.binding with localGeneration := generation }, published := false }

/-- Take the candidates of an offer, to be answered. -/
def acceptOffer (p : Peer) (generation : UInt64) (gathered : List P2P.Candidate) (x : P2P.CandidateExchange) : Peer :=
  { p.prepare generation gathered with
    binding := { (p.prepare generation gathered).binding with peerGeneration := x.generation }
    remoteCandidates := x.candidates
    waitingForAnswer := false
    responseToGeneration := x.generation }

/-- Take the candidates of an answer. -/
def acceptAnswer (p : Peer) (x : P2P.CandidateExchange) : Peer :=
  { p with binding := { p.binding with peerGeneration := x.generation }, remoteCandidates := x.candidates, waitingForAnswer := false }

/-- Neither an answer nor an offer is awaited. -/
def Completed (p : Peer) : Prop := p.waitingForAnswer = false ∧ p.binding.peerGeneration ≠ 0

instance (p : Peer) : Decidable p.Completed := inferInstanceAs (Decidable (_ ∧ _))

end Peer

/-! ## One device -/

/-- The generations drawn so far, for any peer, and the entry for the other device. -/
structure PeerPath where
  generation : UInt64 := 0
  peer : Option Peer := none
  deriving DecidableEq, Repr

namespace PeerPath

/-- `create`, unless there is an entry. -/
def create (s : PeerPath) (binding : PeerBinding) (gathered : List P2P.Candidate) : PeerPath :=
  match s.peer with
  | some _ => s
  | none => { generation := s.generation + 1, peer := some (Peer.prepare { binding } (s.generation + 1) gathered) }

/-- `prepare` for an entry that is revalidated or retried. -/
def revalidate (s : PeerPath) (gathered : List P2P.Candidate) : PeerPath :=
  match s.peer with
  | none => s
  | some p => { generation := s.generation + 1, peer := some (p.prepare (s.generation + 1) gathered) }

/-- What `update` does with candidates that came in. -/
def receive (s : PeerPath) (x : P2P.CandidateExchange) (gathered : List P2P.Candidate) : PeerPath :=
  match s.peer with
  | none => s
  | some p =>
    if p.Ignores x then s
    else if x.responseToGeneration = 0 then
      if p.Prevails then
        if p.published then { generation := s.generation + 1, peer := some (p.offerAgain (s.generation + 1)) } else s
      else { generation := s.generation + 1, peer := some (p.acceptOffer (s.generation + 1) gathered x) }
    else if p.Awaits x then { s with peer := some (p.acceptAnswer x) }
    else s

/-- What is there to publish. -/
def offer (s : PeerPath) : Option P2P.CandidateExchange :=
  s.peer.bind fun p =>
    if p.published = false ∧ p.localCandidates ≠ [] ∧ (P2P.validate p.exchange).isOk then some p.exchange else none

/-- The entry, once that went out. -/
def published (s : PeerPath) : PeerPath := { s with peer := s.peer.map fun p => { p with published := true } }

end PeerPath

/-! ## Two devices and the relay -/

inductive Side
  | first
  | second
  deriving DecidableEq, Repr

def Side.other : Side → Side
  | .first => .second
  | .second => .first

/-- Two devices of one network. -/
structure Pair where
  network : NetworkId
  device : Side → DeviceId
  distinct : device .first ≠ device .second

/-- The two devices, and what is under way from each to the other: on the way to the relay, and on the way from it. The relay
keeps the last generation it forwarded for each. -/
structure World where
  path : Side → PeerPath := fun _ => {}
  sent : Side → List P2P.CandidateExchange := fun _ => []
  generations : Side → Option UInt64 := fun _ => none
  forwarded : Side → List P2P.CandidateExchange := fun _ => []

inductive Event
  | create (p : Side) (keyEpoch : UInt64) (localSession peerSession : EncryptionPublicKey) (gathered : List P2P.Candidate)
  | remove (p : Side)
  | revalidate (p : Side) (gathered : List P2P.Candidate)
  /-- A generation is drawn for another peer. -/
  | draw (p : Side)
  | publish (p : Side)
  /-- The relay takes the next message of a device. -/
  | forward (p : Side)
  /-- The relay begins anew to count the generations of a device. -/
  | forget (p : Side)
  | loseSent (p : Side) (i : ℕ)
  | loseForwarded (p : Side) (i : ℕ)
  /-- A device takes the next message that the relay forwarded to it. -/
  | deliver (p : Side) (gathered : List P2P.Candidate)
  deriving Repr

/-- The device that an event is about. -/
def Event.side : Event → Side
  | create p _ _ _ _ | remove p | revalidate p _ | draw p | publish p | forward p | forget p | loseSent p _ | loseForwarded p _
  | deliver p _ => p

namespace World

def setPath (w : World) (p : Side) (s : PeerPath) : World := { w with path := Function.update w.path p s }

/-- The relay forwards what has a later generation than what it forwarded before. -/
def relay (w : World) (p : Side) : World :=
  match w.sent p with
  | [] => w
  | x :: rest =>
    if (w.generations p).any (x.generation ≤ ·) then { w with sent := Function.update w.sent p rest }
    else
      { w with
        sent := Function.update w.sent p rest
        generations := Function.update w.generations p (some x.generation)
        forwarded := Function.update w.forwarded p (w.forwarded p ++ [x]) }

def step (P : Pair) (w : World) : Event → World
  | .create p keyEpoch localSession peerSession gathered =>
    w.setPath p ((w.path p).create
      { networkId := P.network, keyEpoch, localDevice := P.device p, peerDevice := P.device p.other, localSession, peerSession } gathered)
  | .remove p => w.setPath p { w.path p with peer := none }
  | .revalidate p gathered => w.setPath p ((w.path p).revalidate gathered)
  | .draw p => w.setPath p { w.path p with generation := (w.path p).generation + 1 }
  | .publish p =>
    match (w.path p).offer with
    | none => w
    | some x => { w.setPath p (w.path p).published with sent := Function.update w.sent p (w.sent p ++ [x]) }
  | .forward p => w.relay p
  | .forget p => { w with generations := Function.update w.generations p none }
  | .loseSent p i => { w with sent := Function.update w.sent p ((w.sent p).eraseIdx i) }
  | .loseForwarded p i => { w with forwarded := Function.update w.forwarded p ((w.forwarded p).eraseIdx i) }
  | .deliver p gathered =>
    match w.forwarded p.other with
    | [] => w
    | x :: rest =>
      { w.setPath p ((w.path p).receive x gathered) with forwarded := Function.update w.forwarded p.other rest }

/-- The state after the first `k` events. -/
def run (P : Pair) (events : ℕ → Event) : ℕ → World := states (step P) {} events

/-- The next message for a device draws a generation: an offer that is accepted, or makes the device offer again. -/
def ReceiptDraws (w : World) (p : Side) : Prop :=
  ∃ x ∈ (w.forwarded p.other).head?, ∃ e ∈ (w.path p).peer, ¬ e.Ignores x ∧ x.responseToGeneration = 0 ∧ (e.Prevails → e.published = true)

/-- The event draws a generation. -/
def Draws (w : World) : Event → Prop
  | .create p _ _ _ _ => (w.path p).peer = none
  | .revalidate p _ => (w.path p).peer ≠ none
  | .draw _ => True
  | .deliver p _ => w.ReceiptDraws p
  | _ => False

/-- No generation is drawn by a device that has drawn the largest one. -/
def Unwrapped (w : World) (e : Event) : Prop := w.Draws e → (w.path e.side).generation ≠ 0xffffffffffffffff

end World

end LanLink.Session
