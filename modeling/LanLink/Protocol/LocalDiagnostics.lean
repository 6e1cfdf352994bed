import LanLink.Lib.Slices
import LanLink.Protocol.Binary
import LanLink.Protocol.LocalControl
/-!
# Local diagnostics

`encode_local_diagnostics` and `decode_local_diagnostics` of `local_control.cpp`:
the counters a client program shows. The round-trip time is optional, and its
largest value stands for none.
-/
open LanLink.Lib

namespace LanLink

/-- `enum class ClientConfigurationState : std::uint8_t`: any byte, three of which have names. -/
structure ClientConfigurationState where
  code : UInt8
  deriving DecidableEq, Repr

namespace ClientConfigurationState

def configured : ClientConfigurationState := ⟨0⟩

def unconfigured : ClientConfigurationState := ⟨1⟩

def invalidCredentials : ClientConfigurationState := ⟨2⟩

end ClientConfigurationState

structure LocalDiagnostics where
  connected : Bool := false
  authenticated : Bool := false
  tcpFallback : Bool := false
  configuration : ClientConfigurationState := .configured
  activeNetworks : UInt32 := 0
  rttUs : Option UInt32 := none
  sentBytes : UInt64 := 0
  receivedBytes : UInt64 := 0
  reconnects : UInt32 := 0
  lastError : Text := []
  deriving DecidableEq, Repr

/-! ## The codec -/

/-- `std::numeric_limits<std::uint32_t>::max()`, in place of a round-trip time. -/
def noRtt : UInt32 := 0xffffffff

/-- What the encoder checks. Only a configured service is active. -/
def LocalDiagnostics.Valid (d : LocalDiagnostics) : Prop :=
  ¬ (512 < d.lastError.length ∨ ClientConfigurationState.invalidCredentials.code < d.configuration.code ∨
    (d.configuration ≠ .configured ∧ (d.connected ∨ d.authenticated ∨ d.tcpFallback ∨ d.activeNetworks ≠ 0)))

instance (d : LocalDiagnostics) : Decidable d.Valid := inferInstanceAs (Decidable (¬ _))

def boolByte (b : Bool) : UInt8 := if b then 1 else 0

def stateBytes (d : LocalDiagnostics) : Bytes :=
  [boolByte d.connected, boolByte d.authenticated, boolByte d.tcpFallback, d.configuration.code]

def localDiagnosticsBytes (d : LocalDiagnostics) : Bytes :=
  stateBytes d ++ (leBytes 4 d.activeNetworks.toNat ++ (leBytes 4 (d.rttUs.getD noRtt).toNat ++ (leBytes 8 d.sentBytes.toNat ++
    (leBytes 8 d.receivedBytes.toNat ++ (leBytes 4 d.reconnects.toNat ++ (leBytes 2 d.lastError.length ++ d.lastError))))))

def encodeLocalDiagnostics (d : LocalDiagnostics) : Except Exn Bytes := do
  check d.Valid (.invalidArgument "local diagnostic error is too long")
  .ok (localDiagnosticsBytes d)

/-- `read` of the decoder. -/
def readLittle (payload : Bytes) (offset count : ℕ) : ℕ := leNat (slice payload offset count)

/-- The round-trip time, unless the value stands for none. -/
def rttOf (rtt : UInt32) : Option UInt32 := if rtt ≠ noRtt then some rtt else none

def decodeLocalDiagnostics (payload : Bytes) : Except Exn LocalDiagnostics := do
  check (¬ (payload.length < 34 ∨ 1 < payload.getD 0 0 ∨ 1 < payload.getD 1 0 ∨ 1 < payload.getD 2 0 ∨ 2 < payload.getD 3 0 ∨
      (payload.getD 3 0 ≠ 0 ∧ (payload.getD 0 0 ≠ 0 ∨ payload.getD 1 0 ≠ 0 ∨ payload.getD 2 0 ≠ 0))))
    (.invalidArgument "invalid local diagnostics")
  let errorSize := readLittle payload 32 2
  check (¬ (512 < errorSize ∨ payload.length ≠ 34 + errorSize)) (.invalidArgument "invalid local diagnostic error size")
  let configuration : ClientConfigurationState := ⟨payload.getD 3 0⟩
  let activeNetworks := UInt32.ofNat (readLittle payload 4 4)
  check (¬ (configuration ≠ .configured ∧ activeNetworks ≠ 0)) (.invalidArgument "inactive service has active networks")
  .ok {
    connected := payload.getD 0 0 = 1
    authenticated := payload.getD 1 0 = 1
    tcpFallback := payload.getD 2 0 = 1
    configuration
    activeNetworks
    rttUs := rttOf (UInt32.ofNat (readLittle payload 8 4))
    sentBytes := UInt64.ofNat (readLittle payload 12 8)
    receivedBytes := UInt64.ofNat (readLittle payload 20 8)
    reconnects := UInt32.ofNat (readLittle payload 28 4)
    lastError := slice payload 34 errorSize }

/-! ## Round-trip times -/

theorem rttOf_getD {rtt : Option UInt32} : rttOf (rtt.getD noRtt) = rtt ↔ rtt ≠ some noRtt := by
  cases rtt with
  | none => simp [rttOf]
  | some x =>
    rcases eq_or_ne x noRtt with rfl | hx
    · simp [rttOf]
    · simp [rttOf, hx]

theorem rttOf_getD_noRtt (rtt : UInt32) : (rttOf rtt).getD noRtt = rtt := by
  rcases eq_or_ne rtt noRtt with rfl | hx
  · simp [rttOf]
  · simp [rttOf, hx]

theorem rttOf_ne (rtt : UInt32) : rttOf rtt ≠ some noRtt := by
  rcases eq_or_ne rtt noRtt with rfl | hx
  · simp [rttOf]
  · simp [rttOf, hx]

/-! ## The fields of a payload -/

theorem readLittle_of_slice {payload : Bytes} {offset n x : ℕ} (h : slice payload offset n = leBytes n x) (hx : x < 256 ^ n) :
    readLittle payload offset n = x := by
  rw [readLittle, h, leNat_leBytes n x hx]

theorem leBytes_readLittle {payload : Bytes} {offset n : ℕ} (h : offset + n ≤ payload.length) :
    leBytes n (readLittle payload offset n) = slice payload offset n := leBytes_slice h

/-- A number read into a field of its width. -/
theorem leBytes_read32 {payload : Bytes} {offset : ℕ} (h : offset + 4 ≤ payload.length) :
    leBytes 4 (UInt32.ofNat (readLittle payload offset 4)).toNat = slice payload offset 4 := by
  have hlt : readLittle payload offset 4 < UInt32.size := leNat_slice_lt h
  rw [UInt32.toNat_ofNat_of_lt' hlt, leBytes_readLittle h]

theorem leBytes_read64 {payload : Bytes} {offset : ℕ} (h : offset + 8 ≤ payload.length) :
    leBytes 8 (UInt64.ofNat (readLittle payload offset 8)).toNat = slice payload offset 8 := by
  have hlt : readLittle payload offset 8 < UInt64.size := leNat_slice_lt h
  rw [UInt64.toNat_ofNat_of_lt' hlt, leBytes_readLittle h]

@[simp] theorem length_stateBytes (d : LocalDiagnostics) : (stateBytes d).length = 4 := by
  simp [stateBytes]

theorem length_localDiagnosticsBytes (d : LocalDiagnostics) : (localDiagnosticsBytes d).length = 34 + d.lastError.length := by
  simp [localDiagnosticsBytes]
  omega

/-- The slices of an encoding. -/
theorem slices_localDiagnosticsBytes (d : LocalDiagnostics) :
    slice (localDiagnosticsBytes d) 4 4 = leBytes 4 d.activeNetworks.toNat ∧
    slice (localDiagnosticsBytes d) 8 4 = leBytes 4 (d.rttUs.getD noRtt).toNat ∧
    slice (localDiagnosticsBytes d) 12 8 = leBytes 8 d.sentBytes.toNat ∧
    slice (localDiagnosticsBytes d) 20 8 = leBytes 8 d.receivedBytes.toNat ∧
    slice (localDiagnosticsBytes d) 28 4 = leBytes 4 d.reconnects.toNat ∧
    slice (localDiagnosticsBytes d) 32 2 = leBytes 2 d.lastError.length ∧
    slice (localDiagnosticsBytes d) 34 d.lastError.length = d.lastError := by
  unfold localDiagnosticsBytes
  refine ⟨?_, ?_, ?_, ?_, ?_, ?_, ?_⟩
  case refine_7 => simp [slice_skip, slice_all]
  all_goals simp [slice_skip, slice_head]

/-- A payload is its four bytes of state and its numbers, one after the other. -/
theorem slices_append {payload : Bytes} {size : ℕ} (h : payload.length = 34 + size) :
    [payload.getD 0 0, payload.getD 1 0, payload.getD 2 0, payload.getD 3 0] ++ (slice payload 4 4 ++ (slice payload 8 4 ++
      (slice payload 12 8 ++ (slice payload 20 8 ++ (slice payload 28 4 ++ (slice payload 32 2 ++ slice payload 34 size)))))) = payload := by
  have hstate : [payload.getD 0 0, payload.getD 1 0, payload.getD 2 0, payload.getD 3 0] = slice payload 0 4 := by
    rcases payload with _ | ⟨p₀, _ | ⟨p₁, _ | ⟨p₂, _ | ⟨p₃, payload⟩⟩⟩⟩
    case cons.cons.cons.cons => simp [slice]
    all_goals simp at h; omega
  rw [hstate]
  have hjoin := fun offset n m => slice_append_slice payload offset n m
  rw [hjoin 32 2 size, hjoin 28 4, hjoin 20 8, hjoin 12 8, hjoin 8 4, hjoin 4 4, hjoin 0 4]
  apply slice_all
  omega

/-! ## What is accepted -/

theorem encodeLocalDiagnostics_ok {d : LocalDiagnostics} {bs : Bytes} :
    encodeLocalDiagnostics d = .ok bs ↔ d.Valid ∧ localDiagnosticsBytes d = bs := by
  simp only [encodeLocalDiagnostics, bind_eq_ok, check_eq_ok, exists_const, Except.ok.injEq]

theorem boolByte_eq_one {b : Bool} : boolByte b = 1 ↔ b = true := by cases b <;> decide

theorem boolByte_ne_zero {b : Bool} : boolByte b ≠ 0 ↔ b = true := by cases b <;> decide

theorem boolByte_le (b : Bool) : ¬ 1 < boolByte b := by cases b <;> decide

/-- A byte of state that passed the decoder's check. -/
theorem boolByte_of_le {x : UInt8} (h : ¬ 1 < x) : boolByte (decide (x = 1)) = x := by
  rcases BinaryReader.flag_cases (UInt8.not_lt.1 h) with rfl | rfl <;> rfl

theorem configured_iff {c : ClientConfigurationState} : c = .configured ↔ c.code = 0 := by
  cases c
  simp [ClientConfigurationState.configured]

/-- Decoding an encoding gives the value back, but for the round-trip time that stands for none. -/
theorem decode_localDiagnosticsBytes {d : LocalDiagnostics} (h : d.Valid) :
    decodeLocalDiagnostics (localDiagnosticsBytes d) = .ok { d with rttUs := rttOf (d.rttUs.getD noRtt) } := by
  obtain ⟨hnetworks, hrtt, hsent, hreceived, hreconnects, hsize, herror⟩ := slices_localDiagnosticsBytes d
  have hlength := length_localDiagnosticsBytes d
  have h₀ : (localDiagnosticsBytes d).getD 0 0 = boolByte d.connected := rfl
  have h₁ : (localDiagnosticsBytes d).getD 1 0 = boolByte d.authenticated := rfl
  have h₂ : (localDiagnosticsBytes d).getD 2 0 = boolByte d.tcpFallback := rfl
  have h₃ : (localDiagnosticsBytes d).getD 3 0 = d.configuration.code := rfl
  simp only [LocalDiagnostics.Valid, not_or, not_and, not_lt] at h
  obtain ⟨hlimit, hcode, hidle⟩ := h
  have herrorSize : readLittle (localDiagnosticsBytes d) 32 2 = d.lastError.length :=
    readLittle_of_slice hsize (hlimit.trans_lt (by decide))
  unfold decodeLocalDiagnostics
  dsimp only
  rw [h₀, h₁, h₂, h₃, herrorSize, readLittle_of_slice hnetworks d.activeNetworks.toNat_lt,
    readLittle_of_slice hrtt (d.rttUs.getD noRtt).toNat_lt, readLittle_of_slice hsent d.sentBytes.toNat_lt,
    readLittle_of_slice hreceived d.receivedBytes.toNat_lt, readLittle_of_slice hreconnects d.reconnects.toNat_lt, herror]
  simp only [UInt32.ofNat_toNat, UInt64.ofNat_toNat, boolByte_eq_one, Bool.decide_eq_true]
  rw [check_of, ok_bind, check_of, ok_bind, check_of, ok_bind]
  · rintro ⟨hconfiguration, hactive⟩
    exact (hidle hconfiguration).2.2.2 hactive
  · omega
  · rintro (hshort | h | h | h | hcode' | ⟨hconfiguration, hstate⟩)
    · omega
    · exact boolByte_le _ h
    · exact boolByte_le _ h
    · exact boolByte_le _ h
    · exact hcode hcode'
    · obtain ⟨hc, ha, ht, -⟩ := hidle fun hc => hconfiguration (configured_iff.1 hc)
      simp only [boolByte_ne_zero] at hstate
      rcases hstate with h | h | h
      · exact hc h
      · exact ha h
      · exact ht h

/-- What is decoded is the encoding of the result. -/
theorem of_decodeLocalDiagnostics {bs : Bytes} {d : LocalDiagnostics} (h : decodeLocalDiagnostics bs = .ok d) :
    localDiagnosticsBytes d = bs ∧ d.Valid ∧ d.rttUs ≠ some noRtt := by
  simp only [decodeLocalDiagnostics, bind_eq_ok, check_eq_ok, exists_const, Except.ok.injEq] at h
  obtain ⟨hstate, hsizes, hnetworks, rfl⟩ := h
  simp only [not_or, not_lt, not_not] at hsizes
  simp only [not_or, not_lt] at hstate
  obtain ⟨hlong, h₀, h₁, h₂, h₃, hidle⟩ := hstate
  obtain ⟨hlimit, hlength⟩ := hsizes
  have herror : (slice bs 34 (readLittle bs 32 2)).length = readLittle bs 32 2 := length_slice hlength.ge
  refine ⟨?_, ?_, rttOf_ne _⟩
  · simp only [localDiagnosticsBytes, stateBytes, rttOf_getD_noRtt, herror]
    rw [boolByte_of_le h₀, boolByte_of_le h₁, boolByte_of_le h₂,
      leBytes_read32 (by omega), leBytes_read32 (by omega), leBytes_read64 (by omega), leBytes_read64 (by omega),
      leBytes_read32 (by omega), leBytes_readLittle (by omega)]
    exact slices_append hlength
  · rintro (hlong' | hcode | ⟨hconfiguration, hactive⟩)
    · exact absurd hlong' (by rw [herror]; exact not_lt.2 hlimit)
    · exact h₃ hcode
    · -- the checks on both sides of the size of the error say the same of an idle service
      have hcode : bs.getD 3 0 ≠ 0 := fun hzero => hconfiguration (configured_iff.2 hzero)
      simp only [not_and, not_or, not_not] at hidle
      obtain ⟨hc, ha, ht⟩ := hidle hcode
      rw [hc, ha, ht] at hactive
      rcases hactive with h | h | h | h
      · cases h
      · cases h
      · cases h
      · exact hnetworks ⟨hconfiguration, h⟩

/-- The largest round-trip time is written as none is. -/
theorem largest_rtt_lost : ¬ ∀ d bs, encodeLocalDiagnostics d = .ok bs → decodeLocalDiagnostics bs = .ok d := by
  intro h
  have hvalid : ({ rttUs := some noRtt } : LocalDiagnostics).Valid := by decide
  have hdecode := decode_localDiagnosticsBytes hvalid
  rw [h _ _ (encodeLocalDiagnostics_ok.2 ⟨hvalid, rfl⟩)] at hdecode
  cases hdecode

/-- The codec loses nothing but that one round-trip time, and accepts only what it writes. -/
structure LocalDiagnosticsCodec : Prop where
  inverse : Inverse (fun d => d.rttUs ≠ some 0xffffffff) encodeLocalDiagnostics decodeLocalDiagnostics
  largest (d : LocalDiagnostics) (bs : Bytes) : encodeLocalDiagnostics d = .ok bs → d.rttUs = some 0xffffffff →
    decodeLocalDiagnostics bs = .ok { d with rttUs := none }

theorem local_diagnostics_codec : LocalDiagnosticsCodec where
  inverse := by
    constructor
    · intro d bs hrtt hencode
      obtain ⟨hvalid, rfl⟩ := encodeLocalDiagnostics_ok.1 hencode
      rw [decode_localDiagnosticsBytes hvalid, rttOf_getD.2 hrtt]
    · intro bs d hdecode
      obtain ⟨rfl, hvalid, hrtt⟩ := of_decodeLocalDiagnostics hdecode
      exact ⟨hrtt, encodeLocalDiagnostics_ok.2 ⟨hvalid, rfl⟩⟩
  largest d bs hencode hrtt := by
    obtain ⟨hvalid, rfl⟩ := encodeLocalDiagnostics_ok.1 hencode
    rw [decode_localDiagnosticsBytes hvalid, hrtt]
    rfl

end LanLink
