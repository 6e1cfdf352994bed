import LanLink.Lib.Maps
import LanLink.Protocol.Messages
/-!
# The forwarding quota

`ForwardingQuota`: byte, delivery and control buckets per device, per network
and for the whole relay. Tokens are exact rationals, times are nanoseconds.
-/
open LanLink.Lib

namespace LanLink

/-- A `steady_clock` time point, in nanoseconds. -/
abbrev Time := ℤ

/-- `std::chrono::duration<double>` of a duration. -/
def toSeconds (ns : ℤ) : ℚ := ns / 1000000000

structure ForwardingLimits where
  deviceBytesPerSecond : ℕ := 8 * 1024 * 1024
  networkBytesPerSecond : ℕ := 32 * 1024 * 1024
  deviceDeliveriesPerSecond : ℕ := 8192
  networkDeliveriesPerSecond : ℕ := 32768
  controlPerSecond : ℕ := 32
  authorityBytesPerSecond : ℕ := 64 * 1024 * 1024
  authorityDeliveriesPerSecond : ℕ := 65536
  deriving DecidableEq, Repr

structure ForwardingMetrics where
  admittedDeliveries : ℕ := 0
  admittedBytes : ℕ := 0
  quotaRejections : ℕ := 0
  controlRejections : ℕ := 0
  deriving DecidableEq, Repr

structure Bucket where
  bytes : ℚ := 0
  deliveries : ℚ := 0
  controls : ℚ := 0
  updated : Time := 0
  initialized : Bool := false
  deriving DecidableEq, Repr

structure ForwardingQuota where
  limits : ForwardingLimits := {}
  metrics : ForwardingMetrics := {}
  devices : Map DeviceId Bucket := ∅
  networks : Map NetworkId Bucket := ∅
  nextPrune : Time := 0
  aggregate : Bucket := {}

namespace ForwardingQuota

def validLimits (l : ForwardingLimits) : Prop :=
  0 < l.deviceBytesPerSecond ∧ l.deviceBytesPerSecond ≤ 1024 * 1024 * 1024 ∧
    0 < l.networkBytesPerSecond ∧ l.networkBytesPerSecond ≤ 1024 * 1024 * 1024 ∧
    0 < l.deviceDeliveriesPerSecond ∧ l.deviceDeliveriesPerSecond ≤ 1000000 ∧
    0 < l.networkDeliveriesPerSecond ∧ l.networkDeliveriesPerSecond ≤ 1000000 ∧
    0 < l.authorityBytesPerSecond ∧ l.authorityBytesPerSecond ≤ 1024 * 1024 * 1024 ∧
    0 < l.authorityDeliveriesPerSecond ∧ l.authorityDeliveriesPerSecond ≤ 1000000 ∧
    0 < l.controlPerSecond ∧ l.controlPerSecond ≤ 10000

instance (l : ForwardingLimits) : Decidable (validLimits l) := inferInstanceAs (Decidable (_ ∧ _))

def configure (q : ForwardingQuota) (limits : ForwardingLimits) : Except Exn ForwardingQuota := do
  check (validLimits limits) (.invalidArgument "invalid forwarding quota")
  .ok { q with limits, devices := ∅, networks := ∅, aggregate := {} }

def burst : ℚ := 2

def refill (b : Bucket) (bytes deliveries controls : ℕ) (now : Time) : Bucket :=
  if ¬ b.initialized then
    { bytes := bytes * burst, deliveries := deliveries * burst, controls := controls * burst,
      updated := now, initialized := true }
  else if now ≤ b.updated then b
  else
    let seconds := toSeconds (now - b.updated)
    { b with
      bytes := min (bytes * burst) (b.bytes + seconds * bytes)
      deliveries := min (deliveries * burst) (b.deliveries + seconds * deliveries)
      controls := min (controls * burst) (b.controls + seconds * controls)
      updated := now }

/-- Not used for five minutes. -/
def expired (now : Time) (b : Bucket) : Bool := b.updated < now && 300000000000 < now - b.updated

def prune (q : ForwardingQuota) (now : Time) : ForwardingQuota :=
  if now < q.nextPrune then q
  else { q with
    devices := q.devices.eraseIf fun _ => expired now
    networks := q.networks.eraseIf fun _ => expired now
    nextPrune := now + 30000000000 }

def rejectControl (q : ForwardingQuota) : Bool × ForwardingQuota :=
  (false, { q with metrics := { q.metrics with controlRejections := q.metrics.controlRejections + 1 } })

def control (q : ForwardingQuota) (actor : DeviceId) (now : Time) : Bool × ForwardingQuota :=
  let q := q.prune now
  if actor ∉ q.devices ∧ 4096 ≤ q.devices.size then q.rejectControl
  else
    let device := refill (q.devices.getD actor {}) q.limits.deviceBytesPerSecond q.limits.deviceDeliveriesPerSecond
      q.limits.controlPerSecond now
    if device.controls < 1 then { q with devices := q.devices.insert actor device }.rejectControl
    else (true, { q with devices := q.devices.insert actor { device with controls := device.controls - 1 } })

def rejectQuota (q : ForwardingQuota) : Bool × ForwardingQuota :=
  (false, { q with metrics := { q.metrics with quotaRejections := q.metrics.quotaRejections + 1 } })

/-- A bucket after paying for `recipients` deliveries of `bytes` in all. -/
def Bucket.spend (b : Bucket) (bytes recipients : ℕ) : Bucket :=
  { b with bytes := b.bytes - bytes, deliveries := b.deliveries - recipients }

def admits (q : ForwardingQuota) (actor : DeviceId) (network : NetworkId) (size recipients : ℕ) (now : Time) :
    Bool × ForwardingQuota :=
  let q := q.prune now
  if size = 0 ∨ recipients = 0 ∨ 4096 < recipients ∨ (2 ^ 64 - 1) / recipients < size ∨
      (actor ∉ q.devices ∧ 4096 ≤ q.devices.size) ∨ (network ∉ q.networks ∧ 4096 ≤ q.networks.size) then
    q.rejectQuota
  else
    let device := refill (q.devices.getD actor {}) q.limits.deviceBytesPerSecond q.limits.deviceDeliveriesPerSecond
      q.limits.controlPerSecond now
    let shared := refill (q.networks.getD network {}) q.limits.networkBytesPerSecond
      q.limits.networkDeliveriesPerSecond q.limits.controlPerSecond now
    let aggregate := refill q.aggregate q.limits.authorityBytesPerSecond q.limits.authorityDeliveriesPerSecond
      q.limits.controlPerSecond now
    let bytes := size * recipients
    if device.bytes < bytes ∨ shared.bytes < bytes ∨ device.deliveries < recipients ∨
        shared.deliveries < recipients ∨ aggregate.bytes < bytes ∨ aggregate.deliveries < recipients then
      { q with
        devices := q.devices.insert actor device
        networks := q.networks.insert network shared
        aggregate }.rejectQuota
    else
      (true, { q with
        devices := q.devices.insert actor (Bucket.spend device bytes recipients)
        networks := q.networks.insert network (Bucket.spend shared bytes recipients)
        aggregate := Bucket.spend aggregate bytes recipients
        metrics := { q.metrics with
          admittedDeliveries := q.metrics.admittedDeliveries + recipients
          admittedBytes := q.metrics.admittedBytes + bytes } })

end ForwardingQuota

end LanLink
