import LanLink.Auth.KeyEnvelopes
import LanLink.Protocol.MessageRoundTrip
/-!
# Local control messages

`local_control.cpp`: what the client program and the service say to each other on
one machine. The header has its length in little-endian; payloads are in network
order.
-/
open LanLink.Lib LanLink.Lib.Reader

namespace LanLink

/-! ## Flags -/

/-- Two flags in the low bits of a byte. -/
def twoFlags (first second : Bool) : UInt8 := (if first then 1 else 0) ||| (if second then 2 else 0)

theorem twoFlags_ofBitVec : ∀ (v : BitVec 8) (first second : Bool), UInt8.ofBitVec v ≤ 3 →
    (twoFlags first second = UInt8.ofBitVec v ↔
      decide (UInt8.ofBitVec v &&& 1 ≠ 0) = first ∧ decide (UInt8.ofBitVec v &&& 2 ≠ 0) = second) := by
  decide +kernel

/-- The flags of a byte without other bits. -/
theorem twoFlags_eq {first second : Bool} {flags : UInt8} (h : flags ≤ 3) :
    twoFlags first second = flags ↔ decide (flags &&& 1 ≠ 0) = first ∧ decide (flags &&& 2 ≠ 0) = second :=
  twoFlags_ofBitVec flags.toBitVec first second h

theorem twoFlags_le (first second : Bool) : twoFlags first second ≤ 3 := by
  cases first <;> cases second <;> decide

/-! ## Messages -/

inductive LocalCommand
  | status | list | create | join | leave | invite | approve | kick | stop | diagnostics | peers | activity | pathDiagnostics
  | gameDiagnostics | userAccess | networkManagement | routingOptions
  deriving DecidableEq, Repr

def LocalCommand.code : LocalCommand → ℕ
  | .status => 1
  | .list => 2
  | .create => 3
  | .join => 4
  | .leave => 5
  | .invite => 6
  | .approve => 7
  | .kick => 8
  | .stop => 9
  | .diagnostics => 10
  | .peers => 11
  | .activity => 12
  | .pathDiagnostics => 13
  | .gameDiagnostics => 14
  | .userAccess => 15
  | .networkManagement => 16
  | .routingOptions => 17

/-- `valid_command`. -/
def localCommandOfCode : ℕ → Option LocalCommand
  | 1 => some .status
  | 2 => some .list
  | 3 => some .create
  | 4 => some .join
  | 5 => some .leave
  | 6 => some .invite
  | 7 => some .approve
  | 8 => some .kick
  | 9 => some .stop
  | 10 => some .diagnostics
  | 11 => some .peers
  | 12 => some .activity
  | 13 => some .pathDiagnostics
  | 14 => some .gameDiagnostics
  | 15 => some .userAccess
  | 16 => some .networkManagement
  | 17 => some .routingOptions
  | _ => none

structure LocalMessage where
  command : LocalCommand := .status
  response : Bool := false
  error : Bool := false
  payload : Bytes := []
  deriving DecidableEq, Repr

def maxLocalControlPayload : ℕ := 512 * 1024

/-- `magic`: "LLCP". -/
def localMagic : Bytes := [76, 76, 67, 80]

def invalidLocalMessage : Exn := .invalidArgument "invalid local control message"

/-- An error is a response, and payloads have a limit. -/
def LocalMessage.Valid (m : LocalMessage) : Prop := ¬ ((m.error ∧ ¬ m.response) ∨ maxLocalControlPayload < m.payload.length)

instance (m : LocalMessage) : Decidable m.Valid := inferInstanceAs (Decidable (¬ _))

def localMessageBytes (m : LocalMessage) : Bytes :=
  localMagic ++ ([1, UInt8.ofNat m.command.code, twoFlags m.response m.error, 0] ++ (leBytes 4 m.payload.length ++ m.payload))

def encodeLocalMessage (m : LocalMessage) : Except Exn Bytes := do
  check m.Valid invalidLocalMessage
  .ok (localMessageBytes m)

def decodeLocalMessage : Bytes → Except Exn LocalMessage
  | m₀ :: m₁ :: m₂ :: m₃ :: version :: command :: flags :: zero :: l₀ :: l₁ :: l₂ :: l₃ :: payload => do
    check (¬ (version ≠ 1 ∨ zero ≠ 0 ∨ flags &&& ~~~3 ≠ 0)) (.invalidArgument "invalid local control header")
    check ([m₀, m₁, m₂, m₃] = localMagic) (.invalidArgument "invalid local control magic")
    let length := leNat [l₀, l₁, l₂, l₃]
    match localCommandOfCode command.toNat with
    | none => .error invalidLocalMessage
    | some command => do
      check (¬ ((flags &&& 2 ≠ 0 ∧ ¬ flags &&& 1 ≠ 0) ∨ maxLocalControlPayload < length ∨ payload.length ≠ length)) invalidLocalMessage
      .ok { command, response := flags &&& 1 ≠ 0, error := flags &&& 2 ≠ 0, payload }
  | _ => .error (.invalidArgument "invalid local control header")

theorem localCommandOfCode_eq {c : ℕ} {k : LocalCommand} : localCommandOfCode c = some k ↔ c = k.code := by
  constructor
  · intro h
    unfold localCommandOfCode at h
    split at h <;> cases h <;> rfl
  · rintro rfl
    cases k <;> rfl

theorem low_flags {flags : UInt8} : flags &&& ~~~3 = 0 ↔ flags ≤ 3 := by
  have h : ∀ v : BitVec 8, UInt8.ofBitVec v &&& ~~~3 = 0 ↔ UInt8.ofBitVec v ≤ 3 := by
    decide +kernel
  exact h flags.toBitVec

theorem localMessage_of_decode {bs : Bytes} {m : LocalMessage} (h : decodeLocalMessage bs = .ok m) :
    localMessageBytes m = bs ∧ m.Valid := by
  unfold decodeLocalMessage at h
  split at h
  · rename_i m₀ m₁ m₂ m₃ version command flags zero l₀ l₁ l₂ l₃ payload
    simp only [bind_eq_ok, check_eq_ok, exists_const, not_or, not_not] at h
    obtain ⟨⟨rfl, rfl, hflags⟩, hmagic, h⟩ := h
    split at h
    · cases h
    · rename_i k hk
      simp only [bind_eq_ok, check_eq_ok, exists_const, not_lt, Except.ok.injEq] at h
      obtain ⟨⟨herror, hlimit, hlength⟩, rfl⟩ := h
      have hcode : UInt8.ofNat k.code = command := by
        rw [← localCommandOfCode_eq.1 hk, UInt8.ofNat_toNat]
      have hbits : twoFlags (decide (flags &&& 1 ≠ 0)) (decide (flags &&& 2 ≠ 0)) = flags :=
        (twoFlags_eq (low_flags.1 hflags)).2 ⟨rfl, rfl⟩
      have hspelled : leBytes 4 payload.length = [l₀, l₁, l₂, l₃] := by
        rw [hlength]
        exact leBytes_leNat [l₀, l₁, l₂, l₃]
      constructor
      · simp only [localMessageBytes]
        rw [hcode, hbits, hspelled, ← hmagic]
        rfl
      · rw [LocalMessage.Valid, not_or, not_lt, hlength]
        refine ⟨?_, hlimit⟩
        simpa using herror
  · cases h

theorem decode_localMessageBytes {m : LocalMessage} (h : m.Valid) : decodeLocalMessage (localMessageBytes m) = .ok m := by
  rw [LocalMessage.Valid, not_or, not_lt] at h
  obtain ⟨herror, hlimit⟩ := h
  have hcommand : localCommandOfCode (UInt8.ofNat m.command.code).toNat = some m.command := by
    rw [localCommandOfCode_eq]
    cases m.command <;> rfl
  have hlength : leNat (leBytes 4 m.payload.length) = m.payload.length :=
    leNat_leBytes 4 _ (hlimit.trans_lt (by norm_num [maxLocalControlPayload]))
  obtain ⟨l₀, l₁, l₂, l₃, hbytes⟩ : ∃ l₀ l₁ l₂ l₃, leBytes 4 m.payload.length = [l₀, l₁, l₂, l₃] := ⟨_, _, _, _, rfl⟩
  have hflags := twoFlags_le m.response m.error
  obtain ⟨hresponse, herror'⟩ := (twoFlags_eq hflags).1 rfl
  have hbytes' : localMessageBytes m = 76 :: 76 :: 67 :: 80 :: 1 :: UInt8.ofNat m.command.code :: twoFlags m.response m.error :: 0 ::
      l₀ :: l₁ :: l₂ :: l₃ :: m.payload := by
    rw [localMessageBytes, hbytes]
    rfl
  rw [hbytes] at hlength
  rw [hbytes', decodeLocalMessage, check_of, ok_bind, check_of, ok_bind]
  · dsimp only
    rw [hcommand, hlength]
    dsimp only
    rw [check_of, ok_bind, hresponse, herror']
    rw [not_or, not_or, not_lt]
    refine ⟨?_, hlimit, not_not.2 rfl⟩
    rintro ⟨hsecond, hfirst⟩
    exact herror ⟨herror' ▸ decide_eq_true hsecond, fun hset => hfirst (of_decide_eq_true (hresponse.trans hset))⟩
  · rfl
  · rw [not_or, not_or, not_not, not_not, not_not, low_flags]
    exact ⟨rfl, rfl, hflags⟩

theorem local_message_inverse : Inverse (fun _ => True) encodeLocalMessage decodeLocalMessage where
  decode_encode m bs _ h := by
    simp only [encodeLocalMessage, bind_eq_ok, check_eq_ok, exists_const, Except.ok.injEq] at h
    obtain ⟨hvalid, rfl⟩ := h
    exact decode_localMessageBytes hvalid
  encode_decode bs m h := by
    obtain ⟨rfl, hvalid⟩ := localMessage_of_decode h
    refine ⟨trivial, ?_⟩
    rw [encodeLocalMessage, check_of hvalid, ok_bind]

/-! ## Activity -/

structure LocalActivity where
  deviceId : DeviceId := 0
  requests : List NetworkEvent := []
  deriving DecidableEq, Repr

def encodeLocalActivity (activity : LocalActivity) : Except Exn Bytes := do
  check (activity.requests.length ≤ 128) (.invalidArgument "too many pending requests")
  let events ← activity.requests.mapM encodeNetworkEvent
  .ok (arrayBytes activity.deviceId ++ ([UInt8.ofNat activity.requests.length] ++ events.flatten))

def decodeLocalActivity (payload : Bytes) : Except Exn LocalActivity := do
  check (33 ≤ payload.length) (.invalidArgument "invalid local activity")
  let count := (payload.getD 32 0).toNat
  check (¬ (128 < count ∨ payload.length ≠ 33 + count * networkEventSize)) (.invalidArgument "invalid local activity size")
  let requests ← decodeChunks networkEventSize decodeNetworkEvent count (payload.drop 33)
  .ok { deviceId := ofBytes 256 (payload.take 32), requests }

def eventBytes (e : NetworkEvent) : Bytes := beBytes 1 e.kind.code ++ arrayBytes e.networkId ++ arrayBytes e.deviceId

theorem encodeNetworkEvent_ok {e : NetworkEvent} {bs : Bytes} :
    encodeNetworkEvent e = .ok bs ↔ (e.networkId ≠ 0 ∧ e.deviceId ≠ 0) ∧ eventBytes e = bs := by
  simp only [encodeNetworkEvent, requireEvent, bind_eq_ok, check_eq_ok, exists_const, Except.ok.injEq, eventBytes]

theorem length_eventBytes (e : NetworkEvent) : (eventBytes e).length = networkEventSize := by
  simp [eventBytes, networkEventSize, length_arrayBytes]

theorem decodeNetworkEvent_ok {bs : Bytes} {e : NetworkEvent} :
    decodeNetworkEvent bs = .ok e ↔ bs = eventBytes e ∧ (e.networkId ≠ 0 ∧ e.deviceId ≠ 0) := by
  rw [event_inverse.iff, encodeNetworkEvent_ok, and_comm, eq_comm]

theorem encodeEvents_ok {l : List NetworkEvent} {encoded : List Bytes} :
    l.mapM encodeNetworkEvent = .ok encoded ↔ (∀ e ∈ l, e.networkId ≠ 0 ∧ e.deviceId ≠ 0) ∧ l.map eventBytes = encoded := by
  induction l generalizing encoded with
  | nil => simp [pure, Except.pure]
  | cons e l ih =>
    simp only [List.mapM_cons, bind_eq_ok, encodeNetworkEvent_ok, ih, pure_eq_ok, List.forall_mem_cons, List.map_cons]
    constructor
    · rintro ⟨bs, ⟨he, rfl⟩, rest, ⟨hl, rfl⟩, rfl⟩
      exact ⟨⟨he, hl⟩, rfl⟩
    · rintro ⟨⟨he, hl⟩, rfl⟩
      exact ⟨_, ⟨he, rfl⟩, _, ⟨hl, rfl⟩, rfl⟩

def localActivityBytes (activity : LocalActivity) : Bytes :=
  arrayBytes activity.deviceId ++ ([UInt8.ofNat activity.requests.length] ++ activity.requests.flatMap eventBytes)

def LocalActivity.Valid (activity : LocalActivity) : Prop :=
  activity.requests.length ≤ 128 ∧ ∀ e ∈ activity.requests, e.networkId ≠ 0 ∧ e.deviceId ≠ 0

theorem encodeLocalActivity_ok {activity : LocalActivity} {bs : Bytes} :
    encodeLocalActivity activity = .ok bs ↔ activity.Valid ∧ localActivityBytes activity = bs := by
  simp only [encodeLocalActivity, bind_eq_ok, check_eq_ok, exists_const, encodeEvents_ok, Except.ok.injEq, LocalActivity.Valid, and_assoc]
  constructor
  · rintro ⟨hlength, encoded, hevents, rfl, rfl⟩
    exact ⟨hlength, hevents, by rw [localActivityBytes, List.flatMap_def]⟩
  · rintro ⟨hlength, hevents, rfl⟩
    exact ⟨hlength, _, hevents, rfl, by rw [localActivityBytes, List.flatMap_def]⟩

/-- The three parts of an activity message. -/
theorem activity_parts {payload : Bytes} (h : 33 ≤ payload.length) :
    payload.take 32 ++ ([payload.getD 32 0] ++ payload.drop 33) = payload := by
  have hlt : 32 < payload.length := h
  have hrest : payload.drop 32 = payload.getD 32 0 :: payload.drop 33 := by
    rw [List.drop_eq_getElem_cons hlt, List.getD_eq_getElem?_getD, List.getElem?_eq_getElem hlt, Option.getD_some]
  rw [List.singleton_append, ← hrest, List.take_append_drop]

theorem decodeLocalActivity_ok {bs : Bytes} {activity : LocalActivity} :
    decodeLocalActivity bs = .ok activity ↔ localActivityBytes activity = bs ∧ activity.Valid := by
  constructor
  · intro h
    simp only [decodeLocalActivity, bind_eq_ok, check_eq_ok, exists_const, not_or, not_lt, not_not, Except.ok.injEq] at h
    obtain ⟨hheader, ⟨hcount, hsize⟩, requests, hrequests, rfl⟩ := h
    have hdrop : (bs.drop 33).length = (bs.getD 32 0).toNat * networkEventSize := by
      rw [List.length_drop, hsize, Nat.add_sub_cancel_left]
    obtain ⟨hrest, hlength, hvalid⟩ := (decodeChunks_ok (fun _ _ => decodeNetworkEvent_ok) length_eventBytes hdrop).1 hrequests
    refine ⟨?_, hlength.le.trans hcount, hvalid⟩
    have hid : arrayBytes (ofBytes 256 (bs.take 32)) = bs.take 32 := arrayBytes_ofBytes (List.length_take_of_le (by omega))
    simp only [localActivityBytes]
    rw [hid, hlength, UInt8.ofNat_toNat, ← hrest]
    exact activity_parts hheader
  · rintro ⟨rfl, hcount, hvalid⟩
    have hid : (arrayBytes activity.deviceId).length = 32 := length_arrayBytes _
    have hlength := length_chunks length_eventBytes activity.requests
    have htake : (localActivityBytes activity).take 32 = arrayBytes activity.deviceId := List.take_left' hid
    have hdrop : (localActivityBytes activity).drop 33 = activity.requests.flatMap eventBytes := by
      rw [localActivityBytes, ← List.append_assoc]
      exact List.drop_left' (by rw [List.length_append, hid, List.length_singleton])
    have hbyte : ((localActivityBytes activity).getD 32 0).toNat = activity.requests.length := by
      have hget : (localActivityBytes activity).getD 32 0 = UInt8.ofNat activity.requests.length := by
        rw [localActivityBytes, List.getD_eq_getElem?_getD, List.getElem?_append_right hid.le, hid]
        rfl
      rw [hget, UInt8.toNat_ofNat_of_lt' (hcount.trans_lt (by decide))]
    have hsize : (localActivityBytes activity).length = 33 + activity.requests.length * networkEventSize := by
      rw [localActivityBytes, List.length_append, List.length_append, hid, hlength, List.length_singleton]
      omega
    simp only [decodeLocalActivity, bind_eq_ok, check_eq_ok, exists_const, not_or, not_lt, not_not, Except.ok.injEq]
    rw [hbyte, hdrop, htake, hsize]
    refine ⟨by omega, ⟨hcount, rfl⟩, activity.requests, ?_, ?_⟩
    · exact (decodeChunks_ok (fun _ _ => decodeNetworkEvent_ok) length_eventBytes hlength).2 ⟨rfl, rfl, hvalid⟩
    · have hback : ofBytes 256 (arrayBytes activity.deviceId) = activity.deviceId := @ofBytes_arrayBytes 32 _
      rw [hback]

theorem local_activity_inverse : Inverse (fun _ => True) encodeLocalActivity decodeLocalActivity where
  decode_encode activity bs _ h := by
    obtain ⟨hvalid, rfl⟩ := encodeLocalActivity_ok.1 h
    exact decodeLocalActivity_ok.2 ⟨rfl, hvalid⟩
  encode_decode bs activity h := by
    obtain ⟨rfl, hvalid⟩ := decodeLocalActivity_ok.1 h
    exact ⟨trivial, encodeLocalActivity_ok.2 ⟨hvalid, rfl⟩⟩

end LanLink
