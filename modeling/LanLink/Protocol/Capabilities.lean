import LanLink.Basic
/-!
# Capability negotiation

A client offers protocol versions and features (`capabilities.hpp`); the relay
selects the highest common version and the common features.
-/
open LanLink.Lib

namespace LanLink

inductive Capability
  | negotiation | structuredDiagnostics | peerCandidates | directQuic | candidateGenerations | userAccounts
  | passwordNetworks | invitationCodes | managedNetworks
  deriving DecidableEq, Repr

/-- The bit of a capability in a feature mask. -/
def Capability.bit : Capability → UInt64
  | .negotiation => 1
  | .structuredDiagnostics => 2
  | .peerCandidates => 4
  | .directQuic => 8
  | .candidateGenerations => 16
  | .userAccounts => 32
  | .passwordNetworks => 64
  | .invitationCodes => 128
  | .managedNetworks => 256

def protocolVersion : UInt16 := 5

def supportedCapabilities : UInt64 := 1 ||| 2 ||| 4 ||| 8 ||| 16 ||| 32 ||| 64 ||| 128 ||| 256

structure CapabilityOffer where
  minimumVersion : UInt16 := protocolVersion
  maximumVersion : UInt16 := protocolVersion
  features : UInt64 := supportedCapabilities
  deriving DecidableEq, Repr

structure NegotiatedCapabilities where
  wireVersion : UInt16 := protocolVersion
  features : UInt64 := 0
  legacy : Bool := true
  deriving DecidableEq, Repr

def NegotiatedCapabilities.supports (n : NegotiatedCapabilities) (c : Capability) : Bool :=
  !n.legacy && (n.features &&& c.bit) ≠ 0

def validateOffer (o : CapabilityOffer) : Except Exn Unit :=
  check (o.minimumVersion ≠ 0 ∧ o.minimumVersion ≤ o.maximumVersion) (.invalidArgument "invalid protocol version range")

def negotiateCapabilities (own remote : CapabilityOffer) : Except Exn NegotiatedCapabilities := do
  validateOffer own
  validateOffer remote
  let low := if own.minimumVersion < remote.minimumVersion then remote.minimumVersion else own.minimumVersion
  let high := if remote.maximumVersion < own.maximumVersion then remote.maximumVersion else own.maximumVersion
  if high < low then .ok {}
  else .ok { wireVersion := high, features := own.features &&& remote.features, legacy := false }

/-- The check of `encode_capability_selection`. -/
def requireCapabilitySelection (n : NegotiatedCapabilities) : Except Exn Unit :=
  check (n.wireVersion ≠ 0 ∧ ¬ (n.legacy ∧ n.features ≠ 0)) (.invalidArgument "invalid capability selection")

end LanLink
