import LanLink.P2P.PathQuality
import LanLink.Protocol.Binary
import LanLink.Protocol.LocalControl
/-!
# Diagnostics

What the service tells the client program about its paths and its virtual networks
(`path_diagnostics.cpp`, `game_diagnostics.cpp`). A counter that is absent is
written as zero, and its presence bit is clear.
-/
open LanLink.Lib LanLink.Lib.Reader

namespace LanLink

/-! ## Enumerations -/

/-- The value with a code, among all values of an enumeration. -/
def ofCode {α : Type} (all : List α) (code : α → ℕ) (c : ℕ) : Option α := all.find? fun a => code a = c

theorem ofCode_eq {α : Type} {all : List α} {code : α → ℕ} (hall : ∀ a, a ∈ all) (hcode : ∀ a b, code a = code b → a = b) {c : ℕ}
    {a : α} : ofCode all code c = some a ↔ c = code a := by
  constructor
  · intro h
    have hfound := List.find?_some (p := fun a => decide (code a = c)) h
    exact (of_decide_eq_true hfound).symm
  · rintro rfl
    have hsome : (ofCode all code (code a)).isSome := List.find?_isSome.2 ⟨a, hall a, decide_eq_true rfl⟩
    obtain ⟨b, hb⟩ := Option.isSome_iff_exists.1 hsome
    have hfound := List.find?_some (p := fun b => decide (code b = code a)) hb
    rw [hb, hcode b a (of_decide_eq_true hfound)]

inductive PathKind
  | none | relayQuic | relayTls | directQuic
  deriving DecidableEq, Repr

def PathKind.code : PathKind → ℕ
  | .none => 0
  | .relayQuic => 1
  | .relayTls => 2
  | .directQuic => 3

def pathKindOfCode : ℕ → Option PathKind := ofCode [.none, .relayQuic, .relayTls, .directQuic] PathKind.code

inductive PathLifecycle
  | stopped | connecting | authenticated | failed
  deriving DecidableEq, Repr

def PathLifecycle.code : PathLifecycle → ℕ
  | .stopped => 0
  | .connecting => 1
  | .authenticated => 2
  | .failed => 3

def pathLifecycleOfCode : ℕ → Option PathLifecycle := ofCode [.stopped, .connecting, .authenticated, .failed] PathLifecycle.code

def PathReason.code : PathReason → ℕ
  | .awaitingRelay => 0
  | .relayed => 1
  | .directReady => 2
  | .directUnreachable => 3
  | .udpBlocked => 4
  | .degraded => 5
  | .revalidating => 6
  | .revoked => 7
  | .stopped => 8

def pathReasonOfCode : ℕ → Option PathReason :=
  ofCode [.awaitingRelay, .relayed, .directReady, .directUnreachable, .udpBlocked, .degraded, .revalidating, .revoked, .stopped]
    PathReason.code

/-- `core::ErrorCode`. -/
inductive ErrorCode
  | none | connectionFailed | authenticationFailed | timeout | backpressure | packetRejected | adapterFailed | unsupported | revoked
  deriving DecidableEq, Repr

def ErrorCode.code : ErrorCode → ℕ
  | .none => 0
  | .connectionFailed => 1
  | .authenticationFailed => 2
  | .timeout => 3
  | .backpressure => 4
  | .packetRejected => 5
  | .adapterFailed => 6
  | .unsupported => 7
  | .revoked => 8

def errorOfCode : ℕ → Option ErrorCode :=
  ofCode [.none, .connectionFailed, .authenticationFailed, .timeout, .backpressure, .packetRejected, .adapterFailed, .unsupported, .revoked]
    ErrorCode.code

section
variable {c : ℕ}

theorem pathKindOfCode_eq {k : PathKind} : pathKindOfCode c = some k ↔ c = k.code :=
  ofCode_eq (fun a => by cases a <;> decide) (fun a b => by cases a <;> cases b <;> decide)

theorem pathLifecycleOfCode_eq {l : PathLifecycle} : pathLifecycleOfCode c = some l ↔ c = l.code :=
  ofCode_eq (fun a => by cases a <;> decide) (fun a b => by cases a <;> cases b <;> decide)

theorem pathReasonOfCode_eq {r : PathReason} : pathReasonOfCode c = some r ↔ c = r.code :=
  ofCode_eq (fun a => by cases a <;> decide) (fun a b => by cases a <;> cases b <;> decide)

theorem errorOfCode_eq {e : ErrorCode} : errorOfCode c = some e ↔ c = e.code :=
  ofCode_eq (fun a => by cases a <;> decide) (fun a b => by cases a <;> cases b <;> decide)

end

/-! ## Paths -/

structure PathStatus where
  kind : PathKind := .none
  lifecycle : PathLifecycle := .stopped
  rttUs : Option UInt32 := none
  sentBytes : UInt64 := 0
  receivedBytes : UInt64 := 0
  reason : PathReason := .awaitingRelay
  error : ErrorCode := .none
  sentPackets : UInt64 := 0
  receivedPackets : UInt64 := 0
  droppedPackets : UInt64 := 0
  lostPackets : Option UInt64 := none
  retransmittedPackets : Option UInt64 := none
  retransmittablePackets : Option UInt64 := none
  reconnects : UInt32 := 0
  deriving DecidableEq, Repr

/-- A bit for each value that may be absent. -/
def presenceBits (rtt lost retransmitted retransmittable : Bool) : UInt8 :=
  (if rtt then 1 else 0) ||| (if lost then 2 else 0) ||| (if retransmitted then 4 else 0) ||| (if retransmittable then 8 else 0)

def PathStatus.presence (p : PathStatus) : UInt8 :=
  presenceBits p.rttUs.isSome p.lostPackets.isSome p.retransmittedPackets.isSome p.retransmittablePackets.isSome

def pathBytes (p : PathStatus) : Bytes :=
  beBytes 1 p.kind.code ++ (beBytes 1 p.lifecycle.code ++ (beBytes 1 p.reason.code ++ (beBytes 1 p.error.code ++
    (beBytes 1 p.presence.toNat ++ (beBytes 4 (p.rttUs.getD 0).toNat ++ (beBytes 8 p.sentBytes.toNat ++ (beBytes 8 p.receivedBytes.toNat ++
    (beBytes 8 p.sentPackets.toNat ++ (beBytes 8 p.receivedPackets.toNat ++ (beBytes 8 p.droppedPackets.toNat ++
    (beBytes 8 (p.lostPackets.getD 0).toNat ++ (beBytes 8 (p.retransmittedPackets.getD 0).toNat ++
    (beBytes 8 (p.retransmittablePackets.getD 0).toNat ++ beBytes 4 p.reconnects.toNat)))))))))))))

structure PeerPathStatus where
  networkId : NetworkId := 0
  deviceId : DeviceId := 0
  virtualIpv4 : UInt32 := 0
  path : PathStatus := {}
  deriving DecidableEq, Repr

def peerPathBytes (p : PeerPathStatus) : Bytes :=
  arrayBytes p.networkId ++ (arrayBytes p.deviceId ++ (beBytes 4 p.virtualIpv4.toNat ++ pathBytes p.path))

structure PathDiagnostics where
  relay : PathStatus := {}
  peers : List PeerPathStatus := []
  truncated : Bool := false
  deriving DecidableEq, Repr

def maxDiagnosticPeers : ℕ := 256

def pathMagic : UInt32 := 0x4c4c5044

def pathDiagnosticsBytes (value : PathDiagnostics) : Bytes :=
  beBytes 4 pathMagic.toNat ++ (beBytes 1 1 ++ (flagByte value.truncated ++ (beBytes 2 value.peers.length ++ (pathBytes value.relay ++
    value.peers.flatMap peerPathBytes))))

def encodePathDiagnostics (value : PathDiagnostics) : Except Exn Bytes := do
  check (value.peers.length ≤ maxDiagnosticPeers) (.lengthError "too many diagnostic peers")
  .ok (pathDiagnosticsBytes value)

open PolicyReader BinaryReader

def invalidPathState : Exn := .invalidArgument "invalid path diagnostic state"

/-- A value that was read, if it is present. -/
def optional {α : Type} (present : Prop) [Decidable present] (x : α) : Option α := if present then some x else none

def readPath : PolicyReader PathStatus := do
  let kind ← get 1
  let lifecycle ← get 1
  let reason ← get 1
  let error ← get 1
  let flags ← get8
  Reader.require (flags &&& ~~~15 = 0) (.invalidArgument "invalid path diagnostic flags")
  let rtt ← get32
  let sentBytes ← get64
  let receivedBytes ← get64
  let sentPackets ← get64
  let receivedPackets ← get64
  let droppedPackets ← get64
  let lost ← get64
  let retransmitted ← get64
  let retransmittable ← get64
  Reader.require (¬ ((¬ flags &&& 1 ≠ 0 ∧ rtt ≠ 0) ∨ (¬ flags &&& 2 ≠ 0 ∧ lost ≠ 0) ∨ (¬ flags &&& 4 ≠ 0 ∧ retransmitted ≠ 0) ∨
      (¬ flags &&& 8 ≠ 0 ∧ retransmittable ≠ 0)))
    (.invalidArgument "noncanonical path diagnostic value")
  let reconnects ← get32
  let kind ← PayloadReader.known (pathKindOfCode kind) invalidPathState
  let lifecycle ← PayloadReader.known (pathLifecycleOfCode lifecycle) invalidPathState
  let reason ← PayloadReader.known (pathReasonOfCode reason) invalidPathState
  let error ← PayloadReader.known (errorOfCode error) invalidPathState
  pure { kind, lifecycle, rttUs := optional (flags &&& 1 ≠ 0) rtt, sentBytes, receivedBytes, reason, error, sentPackets,
         receivedPackets, droppedPackets, lostPackets := optional (flags &&& 2 ≠ 0) lost,
         retransmittedPackets := optional (flags &&& 4 ≠ 0) retransmitted,
         retransmittablePackets := optional (flags &&& 8 ≠ 0) retransmittable, reconnects }

def readPeerPath : PolicyReader PeerPathStatus := do
  let networkId ← array 128
  let deviceId ← array 256
  let virtualIpv4 ← get32
  let path ← readPath
  pure { networkId, deviceId, virtualIpv4, path }

def invalidPathHeader : Exn := .invalidArgument "invalid path diagnostics header"

def readPathDiagnostics : PolicyReader PathDiagnostics := do
  let magic ← get32
  Reader.require (magic = pathMagic) invalidPathHeader
  let version ← get8
  Reader.require (version = 1) invalidPathHeader
  let flags ← get8
  let count ← get 2
  Reader.require (¬ (1 < flags ∨ maxDiagnosticPeers < count)) (.invalidArgument "invalid path diagnostics size")
  let relay ← readPath
  let peers ← Reader.many readPeerPath count
  finish
  pure { relay, peers, truncated := flags ≠ 0 }

def decodePathDiagnostics (value : Bytes) : Except Exn PathDiagnostics := readPathDiagnostics.parse value

/-! ### The format -/

theorem presenceBits_ofBitVec : ∀ (v : BitVec 8) (a b c d : Bool), UInt8.ofBitVec v &&& ~~~15 = 0 →
    (presenceBits a b c d = UInt8.ofBitVec v ↔ a = decide (UInt8.ofBitVec v &&& 1 ≠ 0) ∧ b = decide (UInt8.ofBitVec v &&& 2 ≠ 0) ∧
      c = decide (UInt8.ofBitVec v &&& 4 ≠ 0) ∧ d = decide (UInt8.ofBitVec v &&& 8 ≠ 0)) := by
  decide +kernel

theorem presenceBits_eq {a b c d : Bool} {flags : UInt8} (h : flags &&& ~~~15 = 0) :
    presenceBits a b c d = flags ↔ a = decide (flags &&& 1 ≠ 0) ∧ b = decide (flags &&& 2 ≠ 0) ∧ c = decide (flags &&& 4 ≠ 0) ∧
      d = decide (flags &&& 8 ≠ 0) :=
  presenceBits_ofBitVec flags.toBitVec a b c d h

theorem presenceBits_low (a b c d : Bool) : presenceBits a b c d &&& ~~~15 = 0 := by
  cases a <;> cases b <;> cases c <;> cases d <;> decide

/-- Presence and value determine an optional value whose absence is written as zero. -/
theorem optional_eq {α : Type} {o : Option α} {x zero : α} {present : Prop} [Decidable present] (h : ¬ (¬ present ∧ x ≠ zero)) :
    optional present x = o ↔ o.isSome = decide present ∧ o.getD zero = x := by
  unfold optional
  split
  · rename_i hpresent
    cases o <;> simp [hpresent, eq_comm]
  · rename_i hpresent
    have hzero : x = zero := by
      by_contra hx
      exact h ⟨hpresent, hx⟩
    cases o <;> simp [hpresent, hzero]

theorem canonical_of_presence {α : Type} {o : Option α} {zero : α} {present : Prop} [Decidable present] (h : o.isSome = decide present) :
    ¬ (¬ present ∧ o.getD zero ≠ zero) := by
  rintro ⟨habsent, hvalue⟩
  rw [decide_eq_false habsent, Option.isSome_eq_false_iff, Option.isNone_iff_eq_none] at h
  exact hvalue (by rw [h, Option.getD_none])

theorem readPath_format : Format readPath pathBytes fun _ => True := by
  refine (Record.field (fun p => p.kind.code) (get_format 1) fun kind _ => .field (fun p => p.lifecycle.code) (get_format 1) fun lifecycle _ =>
    .field (fun p => p.reason.code) (get_format 1) fun reason _ => .field (fun p => p.error.code) (get_format 1) fun error _ =>
    .field PathStatus.presence get8_format fun flags _ => .require (fun _ => True) ?_ fun hflags =>
    .field (fun p => p.rttUs.getD 0) get32_format fun rtt _ => .field PathStatus.sentBytes get64_format fun sentBytes _ =>
    .field PathStatus.receivedBytes get64_format fun receivedBytes _ => .field PathStatus.sentPackets get64_format fun sentPackets _ =>
    .field PathStatus.receivedPackets get64_format fun receivedPackets _ =>
    .field PathStatus.droppedPackets get64_format fun droppedPackets _ => .field (fun p => p.lostPackets.getD 0) get64_format fun lost _ =>
    .field (fun p => p.retransmittedPackets.getD 0) get64_format fun retransmitted _ =>
    .field (fun p => p.retransmittablePackets.getD 0) get64_format fun retransmittable _ =>
    .require (fun _ => True) ?_ fun hcanonical => .field PathStatus.reconnects get32_format fun reconnects _ =>
    known_record PathStatus.kind ?_ fun k hk => known_record PathStatus.lifecycle ?_ fun l hl =>
    known_record PathStatus.reason ?_ fun r hr => known_record PathStatus.error ?_ fun e he => .pure ?_).format.congr ?_ ?_
  · rintro p ⟨-, rfl⟩
    exact iff_of_true trivial (presenceBits_low _ _ _ _)
  · simp only [true_and, and_assoc]
    rintro p ⟨-, -, -, -, hpresence, rfl, -, -, -, -, -, rfl, rfl, rfl⟩
    obtain ⟨hrtt, hlost, hretransmitted, hretransmittable⟩ := (presenceBits_eq hflags).1 hpresence
    refine iff_of_true trivial ?_
    rw [not_or, not_or, not_or]
    exact ⟨canonical_of_presence hrtt, canonical_of_presence hlost, canonical_of_presence hretransmitted,
      canonical_of_presence hretransmittable⟩
  · intro p hp
    simp only [true_and, and_assoc] at hp
    exact pathKindOfCode_eq.2 hp.1.symm
  · intro p hp
    simp only [true_and, and_assoc] at hp
    exact pathLifecycleOfCode_eq.2 hp.2.1.symm
  · intro p hp
    simp only [true_and, and_assoc] at hp
    exact pathReasonOfCode_eq.2 hp.2.2.1.symm
  · intro p hp
    simp only [true_and, and_assoc] at hp
    exact errorOfCode_eq.2 hp.2.2.2.1.symm
  · obtain rfl := pathKindOfCode_eq.1 hk
    obtain rfl := pathLifecycleOfCode_eq.1 hl
    obtain rfl := pathReasonOfCode_eq.1 hr
    obtain rfl := errorOfCode_eq.1 he
    rw [not_or, not_or, not_or] at hcanonical
    obtain ⟨hrtt, hlost, hretransmitted, hretransmittable⟩ := hcanonical
    rintro ⟨⟩
    simp only [PathStatus.presence, presenceBits_eq hflags, PathStatus.mk.injEq, optional_eq hrtt, optional_eq hlost,
      optional_eq hretransmitted, optional_eq hretransmittable, true_and, and_assoc]
    constructor
    · rintro ⟨-, -, -, -, h₁, h₂, h₃, h₄, hrtt', rfl, rfl, rfl, rfl, rfl, hlost', hretransmitted', hretransmittable', rfl, rfl, rfl, rfl, rfl⟩
      exact ⟨rfl, rfl, h₁, hrtt', rfl, rfl, rfl, rfl, rfl, rfl, rfl, h₂, hlost', h₃, hretransmitted', h₄, hretransmittable', rfl⟩
    · rintro ⟨rfl, rfl, h₁, hrtt', rfl, rfl, rfl, rfl, rfl, rfl, rfl, h₂, hlost', h₃, hretransmitted', h₄, hretransmittable', rfl⟩
      exact ⟨rfl, rfl, rfl, rfl, h₁, h₂, h₃, h₄, hrtt', rfl, rfl, rfl, rfl, rfl, hlost', hretransmitted', hretransmittable', rfl, rfl,
        rfl, rfl, rfl⟩
  · intro p
    have hkind : p.kind.code < 256 ^ 1 := by cases p.kind <;> decide
    have hlifecycle : p.lifecycle.code < 256 ^ 1 := by cases p.lifecycle <;> decide
    have hreason : p.reason.code < 256 ^ 1 := by cases p.reason <;> decide
    have herror : p.error.code < 256 ^ 1 := by cases p.error <;> decide
    simp only [hkind, hlifecycle, hreason, herror, and_true]
  · intro p _
    simp only [pathBytes, List.append_nil]

theorem readPeerPath_format : Format readPeerPath peerPathBytes fun _ => True := by
  refine (Record.field PeerPathStatus.networkId array128_format fun networkId _ =>
    .field PeerPathStatus.deviceId array256_format fun deviceId _ => .field PeerPathStatus.virtualIpv4 get32_format fun address _ =>
    .field PeerPathStatus.path readPath_format fun path _ => .pure ?_).format.congr ?_ ?_
  · rintro ⟨⟩
    simp only [true_and, PeerPathStatus.mk.injEq, and_assoc, eq_comm]
  · intro p
    simp
  · intro p _
    simp only [peerPathBytes, List.append_nil]

theorem readPathDiagnostics_record : Record Closed (fun _ => True) readPathDiagnostics pathDiagnosticsBytes fun v =>
    True ∧ v.peers.length ≤ maxDiagnosticPeers := by
  refine .congr (.field (fun _ => pathMagic) get32_format fun magic _ => .require (fun _ => True) ?_ fun hmagic =>
    .field (fun _ => 1) get8_format fun version _ => .require (fun _ => True) ?_ fun hversion =>
    .field (fun v => if v.truncated then 1 else 0) get8_format fun flags _ => .field (fun v => v.peers.length) (get_format 2) fun count _ =>
    .require (fun v => v.peers.length ≤ maxDiagnosticPeers) ?_ fun hsize => .field PathDiagnostics.relay readPath_format fun relay _ =>
    .tagged (t := count) PathDiagnostics.peers (fun v => v.peers.length) ?_ (readPeerPath_format.many count) fun peers hpeers =>
    .finish _ (.pure ?_)) ?_ ?_
  · rintro v ⟨-, rfl⟩
    exact iff_of_true trivial rfl
  · rintro v ⟨-, rfl⟩
    exact iff_of_true trivial rfl
  · rintro v ⟨⟨-, rfl⟩, rfl⟩
    have hflag : ¬ 1 < (if v.truncated then 1 else 0 : UInt8) := by
      cases v.truncated <;> decide
    rw [not_or, not_lt]
    exact (and_iff_right hflag).symm
  · tauto
  · rw [not_or] at hsize
    subst hmagic hversion
    rintro ⟨⟩
    simp only [true_and, PathDiagnostics.mk.injEq, and_assoc]
    constructor
    · rintro ⟨htruncated, -, rfl, rfl⟩
      exact ⟨rfl, rfl, (flag_eq_iff (UInt8.not_lt.1 hsize.1)).1 htruncated⟩
    · rintro ⟨rfl, rfl, rfl⟩
      exact ⟨(flag_eq_iff (UInt8.not_lt.1 hsize.1)).2 rfl, hpeers.1, rfl, rfl⟩
  · intro v _
    simp only [true_and, and_true, implies_true]
    constructor
    · exact fun h => h.2
    · exact fun h => ⟨h.trans_lt (by decide), h⟩
  · intro v _ _
    have hversion : (1 : UInt8).toNat = 1 := rfl
    have htruncated : beBytes 1 (if v.truncated then 1 else 0 : UInt8).toNat = flagByte v.truncated := by
      cases v.truncated <;> rfl
    simp only [pathDiagnosticsBytes, hversion, htruncated, List.append_nil]

theorem path_diagnostics_inverse : Inverse (fun _ => True) encodePathDiagnostics decodePathDiagnostics where
  decode_encode v bs _ h := by
    simp only [encodePathDiagnostics, bind_eq_ok, check_eq_ok, exists_const, Except.ok.injEq] at h
    obtain ⟨hlength, rfl⟩ := h
    exact readPathDiagnostics_record.parse_eq_ok.2 ⟨rfl, trivial, hlength⟩
  encode_decode bs v h := by
    obtain ⟨rfl, -, hlength⟩ := readPathDiagnostics_record.parse_eq_ok.1 h
    refine ⟨trivial, ?_⟩
    rw [encodePathDiagnostics, check_of hlength, ok_bind]

/-! ## Virtual networks -/

structure GameNetworkStatus where
  networkId : NetworkId := 0
  address : UInt32 := 0
  subnet : UInt32 := 0
  prefixLength : UInt8 := 24
  onlinePeers : UInt32 := 0
  discoverySent : UInt64 := 0
  discoveryReceived : UInt64 := 0
  rateLimited : UInt64 := 0
  duplicates : UInt64 := 0
  invalid : UInt64 := 0
  reflections : UInt64 := 0
  deriving DecidableEq, Repr

structure GameDiagnostics where
  mtu : UInt16 := 1400
  adapterFailed : Bool := false
  truncated : Bool := false
  rejectedPackets : UInt64 := 0
  networks : List GameNetworkStatus := []
  deriving DecidableEq, Repr

def maxGameDiagnosticNetworks : ℕ := 256

/-- The loop of `validate`, given the ids before. -/
def requireNetworks (ids : List NetworkId) : List GameNetworkStatus → Except Exn Unit
  | [] => .ok ()
  | item :: networks => do
    check (¬ (¬ isIpv4Host item.address item.subnet item.prefixLength ∨ item.networkId ∈ ids ∨ item.networkId = 0))
      (.invalidArgument "invalid game diagnostic network")
    requireNetworks (item.networkId :: ids) networks

/-- `validate`. -/
def requireGameDiagnostics (value : GameDiagnostics) : Except Exn Unit := do
  check (¬ (value.mtu < 576 ∨ 9000 < value.mtu ∨ maxGameDiagnosticNetworks < value.networks.length))
    (.invalidArgument "invalid game diagnostic limits")
  requireNetworks [] value.networks

def gameMagic : UInt32 := 0x4c4c4744

def gameNetworkBytes (item : GameNetworkStatus) : Bytes :=
  arrayBytes item.networkId ++ (beBytes 4 item.address.toNat ++ (beBytes 4 item.subnet.toNat ++ (beBytes 1 item.prefixLength.toNat ++
    (beBytes 4 item.onlinePeers.toNat ++ (beBytes 8 item.discoverySent.toNat ++ (beBytes 8 item.discoveryReceived.toNat ++
    (beBytes 8 item.rateLimited.toNat ++ (beBytes 8 item.duplicates.toNat ++ (beBytes 8 item.invalid.toNat ++
    beBytes 8 item.reflections.toNat)))))))))

def gameDiagnosticsBytes (value : GameDiagnostics) : Bytes :=
  beBytes 4 gameMagic.toNat ++ (beBytes 1 1 ++ (beBytes 1 (twoFlags value.adapterFailed value.truncated).toNat ++
    (beBytes 2 value.mtu.toNat ++ (beBytes 8 value.rejectedPackets.toNat ++ (beBytes 2 value.networks.length ++
    value.networks.flatMap gameNetworkBytes)))))

def encodeGameDiagnostics (value : GameDiagnostics) : Except Exn Bytes := do
  requireGameDiagnostics value
  .ok (gameDiagnosticsBytes value)

def invalidGameHeader : Exn := .invalidArgument "invalid game diagnostic header"

def readGameNetwork : PolicyReader GameNetworkStatus := do
  let networkId ← array 128
  let address ← get32
  let subnet ← get32
  let prefixLength ← get8
  let onlinePeers ← get32
  let discoverySent ← get64
  let discoveryReceived ← get64
  let rateLimited ← get64
  let duplicates ← get64
  let invalid ← get64
  let reflections ← get64
  pure { networkId, address, subnet, prefixLength, onlinePeers, discoverySent, discoveryReceived, rateLimited, duplicates, invalid,
         reflections }

def readGameDiagnostics : PolicyReader GameDiagnostics := do
  let magic ← get32
  Reader.require (magic = gameMagic) invalidGameHeader
  let version ← get8
  Reader.require (version = 1) invalidGameHeader
  let flags ← get8
  Reader.require (¬ 3 < flags) (.invalidArgument "invalid game diagnostic flags")
  let mtu ← get16
  let rejectedPackets ← get64
  let networks ← counted 2 maxGameDiagnosticNetworks (.invalidArgument "too many game diagnostic networks") readGameNetwork
  finish
  let value : GameDiagnostics := { mtu, adapterFailed := flags &&& 1 ≠ 0, truncated := flags &&& 2 ≠ 0, rejectedPackets, networks }
  BinaryReader.validate (requireGameDiagnostics value)
  pure value

def decodeGameDiagnostics (bytes : Bytes) : Except Exn GameDiagnostics := readGameDiagnostics.parse bytes

theorem readGameNetwork_format : Format readGameNetwork gameNetworkBytes fun _ => True := by
  refine (Record.field GameNetworkStatus.networkId array128_format fun networkId _ =>
    .field GameNetworkStatus.address get32_format fun address _ => .field GameNetworkStatus.subnet get32_format fun subnet _ =>
    .field GameNetworkStatus.prefixLength get8_format fun prefixLength _ => .field GameNetworkStatus.onlinePeers get32_format fun online _ =>
    .field GameNetworkStatus.discoverySent get64_format fun sent _ => .field GameNetworkStatus.discoveryReceived get64_format fun received _ =>
    .field GameNetworkStatus.rateLimited get64_format fun limited _ => .field GameNetworkStatus.duplicates get64_format fun duplicates _ =>
    .field GameNetworkStatus.invalid get64_format fun invalid _ => .field GameNetworkStatus.reflections get64_format fun reflections _ =>
    .pure ?_).format.congr ?_ ?_
  · rintro ⟨⟩
    simp only [true_and, GameNetworkStatus.mk.injEq, and_assoc, eq_comm]
  · intro item
    simp
  · intro item _
    simp only [gameNetworkBytes, List.append_nil]

theorem length_of_requireGameDiagnostics {v : GameDiagnostics} (h : requireGameDiagnostics v = .ok ()) :
    v.networks.length ≤ maxGameDiagnosticNetworks := by
  simp only [requireGameDiagnostics, bind_eq_ok, check_eq_ok, exists_const, not_or, not_lt] at h
  exact h.1.2.2

theorem readGameDiagnostics_record : Record Closed (fun _ => True) readGameDiagnostics gameDiagnosticsBytes fun v =>
    True ∧ requireGameDiagnostics v = .ok () := by
  refine .congr (.field (fun _ => gameMagic) get32_format fun magic _ => .require (fun _ => True) ?_ fun hmagic =>
    .field (fun _ => 1) get8_format fun version _ => .require (fun _ => True) ?_ fun hversion =>
    .field (fun v => twoFlags v.adapterFailed v.truncated) get8_format fun flags _ => .require (fun _ => True) ?_ fun hflags =>
    .field GameDiagnostics.mtu get16_format fun mtu _ => .field GameDiagnostics.rejectedPackets get64_format fun rejected _ =>
    .field GameDiagnostics.networks (counted_format readGameNetwork_format (by decide) _) fun networks _ =>
    .finish _ (checked_record requireGameDiagnostics ?_)) ?_ ?_
  · rintro v ⟨-, rfl⟩
    exact iff_of_true trivial rfl
  · rintro v ⟨-, rfl⟩
    exact iff_of_true trivial rfl
  · rintro v ⟨-, rfl⟩
    exact iff_of_true trivial (UInt8.not_lt.2 (twoFlags_le _ _))
  · subst hmagic hversion
    rintro ⟨⟩
    simp only [true_and, twoFlags_eq (UInt8.not_lt.1 hflags), GameDiagnostics.mk.injEq, and_assoc]
    constructor
    · rintro ⟨hfailed, htruncated, rfl, rfl, rfl⟩
      exact ⟨rfl, hfailed, htruncated, rfl, rfl⟩
    · rintro ⟨rfl, hfailed, htruncated, rfl, rfl⟩
      exact ⟨hfailed, htruncated, rfl, rfl, rfl⟩
  · intro v _
    simp only [true_and, and_true, implies_true]
    constructor
    · exact fun h => h.2
    · exact fun h => ⟨length_of_requireGameDiagnostics h, h⟩
  · intro v _ _
    have hversion : (1 : UInt8).toNat = 1 := rfl
    simp only [gameDiagnosticsBytes, hversion, List.append_nil]

theorem game_diagnostics_inverse : Inverse (fun _ => True) encodeGameDiagnostics decodeGameDiagnostics :=
  .of_checked (fun _ => rfl) readGameDiagnostics_record

/-! ## The four codecs -/

/-- What the client program and the service rely on. -/
structure LocalCodecs : Prop where
  message : Inverse (fun _ => True) encodeLocalMessage decodeLocalMessage
  activity : Inverse (fun _ => True) encodeLocalActivity decodeLocalActivity
  paths : Inverse (fun _ => True) encodePathDiagnostics decodePathDiagnostics
  game : Inverse (fun _ => True) encodeGameDiagnostics decodeGameDiagnostics

theorem local_codecs : LocalCodecs where
  message := local_message_inverse
  activity := local_activity_inverse
  paths := path_diagnostics_inverse
  game := game_diagnostics_inverse

end LanLink
