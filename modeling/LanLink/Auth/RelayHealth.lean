import LanLink.Auth.Directory
/-!
# Signed relay health

`auth/relay_health.cpp`: what a relay reports of itself, signed over the nonce of
the client that asks. The second version of the format has the accounting
counters.
-/
open LanLink.Lib LanLink.Lib.Reader

namespace LanLink

structure RelayHealth where
  nonce : Nonce := 0
  relayId : Text := []
  authority : Text := []
  issuedMs : UInt64 := 0
  uptimeMs : UInt64 := 0
  capacity : UInt32 := 0
  activeConnections : UInt32 := 0
  upstreamRttUs : UInt32 := 0
  forwardedPackets : UInt64 := 0
  forwardedBytes : UInt64 := 0
  droppedPackets : UInt64 := 0
  admittedDeliveries : UInt64 := 0
  admittedBytes : UInt64 := 0
  quotaRejections : UInt64 := 0
  controlRejections : UInt64 := 0
  accountingAvailable : Bool := false
  ready : Bool := false
  deriving DecidableEq, Repr

namespace RelayHealth

/-! ## Writing -/

def magic (accounting : Bool) : UInt32 := if accounting then 0x4c4c4832 else 0x4c4c4831

def badIdentity : Exn := .invalidArgument "invalid health identity"

def accountingBytes (v : RelayHealth) : Bytes :=
  if v.accountingAvailable then beBytes 8 v.admittedDeliveries.toNat ++ (beBytes 8 v.admittedBytes.toNat ++
    (beBytes 8 v.quotaRejections.toNat ++ beBytes 8 v.controlRejections.toNat)) else []

/-- The fields after the identity. -/
def counterBytes (v : RelayHealth) : Bytes :=
  arrayBytes v.nonce ++ (beBytes 8 v.issuedMs.toNat ++ (beBytes 8 v.uptimeMs.toNat ++ (beBytes 4 v.capacity.toNat ++
    (beBytes 4 v.activeConnections.toNat ++ (beBytes 4 v.upstreamRttUs.toNat ++ (beBytes 8 v.forwardedPackets.toNat ++
    (beBytes 8 v.forwardedBytes.toNat ++ (beBytes 8 v.droppedPackets.toNat ++ (accountingBytes v ++ flagByte v.ready)))))))))

def body (v : RelayHealth) : Except Exn Bytes := do
  check (¬ (v.nonce = 0 ∨ v.capacity = 0 ∨ 1000000 < v.capacity ∨ v.capacity < v.activeConnections))
    (.invalidArgument "invalid health counters or challenge")
  check (¬ (¬ v.accountingAvailable ∧ (v.admittedDeliveries ≠ 0 ∨ v.admittedBytes ≠ 0 ∨ v.quotaRejections ≠ 0 ∨ v.controlRejections ≠ 0)))
    (.invalidArgument "accounting counters require health format 2")
  let relayId ← directoryText badIdentity 64 v.relayId
  let authority ← directoryText badIdentity 64 v.authority
  .ok (beBytes 4 (magic v.accountingAvailable).toNat ++ (beBytes 2 protocolVersion.toNat ++ (relayId ++ (authority ++ counterBytes v))))

/-! ## Reading -/

open PolicyReader BinaryReader

/-- The accounting counters, in the second version. -/
def readAccounting (accounting : Bool) : PolicyReader (UInt64 × UInt64 × UInt64 × UInt64) :=
  if accounting then do
    let admittedDeliveries ← get64
    let admittedBytes ← get64
    let quotaRejections ← get64
    let controlRejections ← get64
    pure (admittedDeliveries, admittedBytes, quotaRejections, controlRejections)
  else pure (0, 0, 0, 0)

/-- The fields after the version. -/
def readFields (accounting : Bool) : PolicyReader RelayHealth := do
  let relayId ← string
  let authority ← string
  let nonce ← array 256
  let issuedMs ← get64
  let uptimeMs ← get64
  let capacity ← get32
  let activeConnections ← get32
  let upstreamRttUs ← get32
  let forwardedPackets ← get64
  let forwardedBytes ← get64
  let droppedPackets ← get64
  let counters ← readAccounting accounting
  let ready ← flag (.invalidArgument "invalid health readiness")
  finish
  pure { nonce, relayId, authority, issuedMs, uptimeMs, capacity, activeConnections, upstreamRttUs, forwardedPackets,
         forwardedBytes, droppedPackets, admittedDeliveries := counters.1, admittedBytes := counters.2.1,
         quotaRejections := counters.2.2.1, controlRejections := counters.2.2.2, accountingAvailable := accounting, ready }

def versionMismatch : Exn := .invalidArgument "relay health protocol mismatch"

def read (expected : UInt16) : PolicyReader RelayHealth := do
  let format ← get32
  Reader.require (format = magic false ∨ format = magic true) versionMismatch
  let version ← get16
  Reader.require (version = expected) versionMismatch
  readFields (format = magic true)

/-- How far the report's clock is from the client's. -/
def age (v : RelayHealth) (nowMs : UInt64) : UInt64 := if nowMs < v.issuedMs then v.issuedMs - nowMs else nowMs - v.issuedMs

end RelayHealth

/-! ## Signing -/

def signRelayHealth (crypto : KeyCrypto) (v : RelayHealth) (identity : DeviceIdentity) : Except Exn Bytes := do
  let bytes ← RelayHealth.body v
  .ok (bytes ++ arrayBytes (crypto.sign identity bytes))

def verifyRelayHealth (crypto : Crypto) (encoded : Bytes) (expected : RelayEndpoint) (nonce : Nonce) (nowMs : UInt64) :
    Except Exn RelayHealth := do
  check (¬ (encoded.length < 64 ∨ 512 < encoded.length ∨ expected.healthKey = 0 ∨ nonce = 0))
    (.invalidArgument "invalid signed health response")
  check (crypto.verifySignature expected.healthKey (signedPayload encoded) (messageSignature encoded))
    (.runtimeError "relay health signature rejected")
  let v ← (RelayHealth.read expected.protocolVersion).parse (signedPayload encoded)
  let _ ← RelayHealth.body v
  check (¬ (v.relayId ≠ expected.id ∨ v.authority ≠ expected.authority ∨ v.capacity ≠ expected.capacity ∨ v.nonce ≠ nonce ∨
      30000 < v.age nowMs))
    (.runtimeError "relay health challenge, freshness or authority mismatch")
  .ok v

namespace RelayHealth

/-! ## What is written -/

def Valid (v : RelayHealth) : Prop :=
  ¬ (v.nonce = 0 ∨ v.capacity = 0 ∨ 1000000 < v.capacity ∨ v.capacity < v.activeConnections) ∧
  ¬ (¬ v.accountingAvailable ∧ (v.admittedDeliveries ≠ 0 ∨ v.admittedBytes ≠ 0 ∨ v.quotaRejections ≠ 0 ∨ v.controlRejections ≠ 0)) ∧
  validDirectoryText 64 v.relayId ∧ validDirectoryText 64 v.authority

def bytes (v : RelayHealth) : Bytes :=
  beBytes 4 (magic v.accountingAvailable).toNat ++ (beBytes 2 protocolVersion.toNat ++ (nameBytes v.relayId ++
    (nameBytes v.authority ++ counterBytes v)))

theorem body_ok {v : RelayHealth} {bs : Bytes} : body v = .ok bs ↔ Valid v ∧ v.bytes = bs := by
  simp only [body, Valid, bytes, bind_eq_ok, check_eq_ok, directoryText_ok, exists_const, Except.ok.injEq]
  constructor
  · rintro ⟨hcounters, haccounting, _, ⟨hid, rfl⟩, _, ⟨hauthority, rfl⟩, rfl⟩
    exact ⟨⟨hcounters, haccounting, hid, hauthority⟩, rfl⟩
  · rintro ⟨⟨hcounters, haccounting, hid, hauthority⟩, rfl⟩
    exact ⟨hcounters, haccounting, _, ⟨hid, rfl⟩, _, ⟨hauthority, rfl⟩, rfl⟩

theorem length_bytes {v : RelayHealth} (h : Valid v) : v.bytes.length ≤ 255 := by
  obtain ⟨-, -, ⟨-, hid, -⟩, -, hauthority, -⟩ := h
  have haccounting : (accountingBytes v).length ≤ 32 := by
    unfold accountingBytes
    split <;> simp [beBytes_length]
  have hflag : (flagByte v.ready).length = 1 := beBytes_length _ _
  simp only [bytes, counterBytes, List.length_append, Directory.length_nameBytes, beBytes_length, length_arrayBytes, hflag]
  omega

/-! ## What is read -/

open BinaryReader

theorem readAccounting_format (accounting : Bool) : Format (readAccounting accounting)
    (fun p => if accounting then beBytes 8 p.1.toNat ++ (beBytes 8 p.2.1.toNat ++ (beBytes 8 p.2.2.1.toNat ++ beBytes 8 p.2.2.2.toNat)) else [])
    (fun p => accounting = false → p = (0, 0, 0, 0)) := by
  cases accounting with
  | false =>
    refine (Record.rest (fun p => p = (0, 0, 0, 0)) fun p => ?_).format.congr ?_ fun _ _ => rfl
    · rw [true_and, eq_comm]
    · intro p
      simp
  | true =>
    refine (Record.field (fun p : UInt64 × UInt64 × UInt64 × UInt64 => p.1) get64_format fun deliveries _ =>
      .field (fun p : UInt64 × UInt64 × UInt64 × UInt64 => p.2.1) get64_format fun admitted _ =>
      .field (fun p : UInt64 × UInt64 × UInt64 × UInt64 => p.2.2.1) get64_format fun quota _ =>
      .field (fun p : UInt64 × UInt64 × UInt64 × UInt64 => p.2.2.2) get64_format fun control _ => .pure ?_).format.congr ?_ ?_
    · intro p
      simp only [true_and, Prod.ext_iff, and_assoc, eq_comm]
    · intro p
      simp
    · intro p _
      simp

/-- What a reader asks of a report. -/
def Readable (v : RelayHealth) : Prop :=
  v.relayId.length < 256 ^ 2 ∧ v.authority.length < 256 ^ 2 ∧ (v.accountingAvailable = false →
    (v.admittedDeliveries, v.admittedBytes, v.quotaRejections, v.controlRejections) = (0, 0, 0, 0))

theorem readFields_record (accounting : Bool) {known : RelayHealth → Prop} (hknown : ∀ v, known v ↔ v.accountingAvailable = accounting) :
    Record Closed known (readFields accounting) (fun v => nameBytes v.relayId ++ (nameBytes v.authority ++ counterBytes v)) Readable := by
  refine .congr (.field RelayHealth.relayId string_format fun relayId _ => .field RelayHealth.authority string_format fun authority _ =>
    .field RelayHealth.nonce array256_format fun nonce _ => .field RelayHealth.issuedMs get64_format fun issued _ =>
    .field RelayHealth.uptimeMs get64_format fun uptime _ => .field RelayHealth.capacity get32_format fun capacity _ =>
    .field RelayHealth.activeConnections get32_format fun active _ => .field RelayHealth.upstreamRttUs get32_format fun upstream _ =>
    .field RelayHealth.forwardedPackets get64_format fun packets _ => .field RelayHealth.forwardedBytes get64_format fun forwarded _ =>
    .field RelayHealth.droppedPackets get64_format fun dropped _ =>
    .field (fun v => (v.admittedDeliveries, v.admittedBytes, v.quotaRejections, v.controlRejections))
      (readAccounting_format accounting) fun counters _ =>
    .field RelayHealth.ready (flag_format _) fun ready _ => .finish _ (.pure ?_)) ?_ ?_
  · rintro ⟨⟩
    simp only [hknown, RelayHealth.mk.injEq, Prod.ext_iff, eq_comm]
    tauto
  · intro v hv
    obtain rfl := (hknown v).1 hv
    simp only [Readable, true_and, and_true]
  · intro v hv _
    obtain rfl := (hknown v).1 hv
    simp only [counterBytes, accountingBytes, List.append_nil]

/-- A report is read from what is written for it, under the version it is written with. -/
theorem read_record : Record Closed (fun _ => True) (read protocolVersion) bytes Readable := by
  refine .congr (.field (fun v => magic v.accountingAvailable) get32_format fun format _ => .require (fun _ => True) ?_ fun hformat =>
    .field (fun _ => protocolVersion) get16_format fun version _ => .require (fun _ => True) ?_ fun hversion =>
    readFields_record _ fun v => ?_) ?_ ?_
  · rintro v ⟨-, rfl⟩
    cases v.accountingAvailable <;> decide
  · rintro v ⟨-, rfl⟩
    simp
  · subst hversion
    simp only [true_and, and_true]
    rcases hformat with rfl | rfl <;> cases v.accountingAvailable <;> decide
  · intro v _
    simp only [true_and]
  · intro v _ _
    simp only [bytes]

theorem Valid.readable {v : RelayHealth} (h : Valid v) : Readable v := by
  obtain ⟨-, haccounting, ⟨-, hid, -⟩, -, hauthority, -⟩ := h
  refine ⟨by omega, by omega, fun hnone => ?_⟩
  simp only [hnone, Bool.false_eq_true, not_false_eq_true, true_and, not_or, not_not] at haccounting
  obtain ⟨hdeliveries, hadmitted, hquota, hcontrol⟩ := haccounting
  rw [hdeliveries, hadmitted, hquota, hcontrol]

/-- The payloads that are accepted are what is written for their reports. -/
theorem read_ok {payload bs : Bytes} {v : RelayHealth} :
    ((read protocolVersion).parse payload = .ok v ∧ body v = .ok bs) ↔ payload = bs ∧ body v = .ok payload := by
  rw [read_record.parse_eq_ok, body_ok, body_ok]
  constructor
  · rintro ⟨⟨rfl, -⟩, hvalid, rfl⟩
    exact ⟨rfl, hvalid, rfl⟩
  · rintro ⟨rfl, hvalid, rfl⟩
    exact ⟨⟨rfl, hvalid.readable⟩, hvalid, rfl⟩

theorem age_le {v : RelayHealth} {now : UInt64} : v.age now ≤ 30000 ↔
    v.issuedMs.toNat ≤ now.toNat + 30000 ∧ now.toNat ≤ v.issuedMs.toNat + 30000 := by
  have hlimit : (30000 : UInt64).toNat = 30000 := rfl
  rw [age, UInt64.le_iff_toNat_le, hlimit]
  split
  · rename_i hlt
    have hlt' := UInt64.lt_iff_toNat_lt.1 hlt
    rw [UInt64.toNat_sub_of_le _ _ (UInt64.le_of_lt hlt)]
    omega
  · rename_i hle
    have hle' := UInt64.le_iff_toNat_le.1 (UInt64.not_lt.1 hle)
    rw [UInt64.toNat_sub_of_le _ _ (UInt64.not_lt.1 hle)]
    omega

end RelayHealth

/-! ## Signed reports -/

section
variable {crypto : Crypto} {encoded : Bytes} {expected : RelayEndpoint} {nonce : Nonce} {now : UInt64} {v : RelayHealth}

/-- The report is one of the relay that is asked, and answers the question. -/
def RelayHealth.Answers (v : RelayHealth) (expected : RelayEndpoint) (nonce : Nonce) (now : UInt64) : Prop :=
  v.relayId = expected.id ∧ v.authority = expected.authority ∧ v.capacity = expected.capacity ∧ v.nonce = nonce ∧
    v.issuedMs.toNat ≤ now.toNat + 30000 ∧ now.toNat ≤ v.issuedMs.toNat + 30000

/-- What is accepted: a signed encoding of the report. -/
theorem verifyRelayHealth_ok (hversion : expected.protocolVersion = protocolVersion) :
    verifyRelayHealth crypto encoded expected nonce now = .ok v ↔
    ((64 ≤ encoded.length ∧ encoded.length ≤ 512) ∧ expected.healthKey ≠ 0 ∧ nonce ≠ 0) ∧
    crypto.verifySignature expected.healthKey (signedPayload encoded) (messageSignature encoded) = true ∧
    RelayHealth.body v = .ok (signedPayload encoded) ∧ v.Answers expected nonce now := by
  simp only [verifyRelayHealth, hversion, bind_eq_ok, check_eq_ok, exists_const, Except.ok.injEq, not_or, not_lt, not_not,
    UInt64.not_lt, RelayHealth.age_le, RelayHealth.Answers]
  constructor
  · rintro ⟨⟨hmin, hmax, hkey, hnonce⟩, hsigned, v', hread, bs, hbody, hanswer, rfl⟩
    obtain ⟨rfl, hpayload⟩ := RelayHealth.read_ok.1 ⟨hread, hbody⟩
    exact ⟨⟨⟨hmin, hmax⟩, hkey, hnonce⟩, hsigned, hpayload, hanswer⟩
  · rintro ⟨⟨⟨hmin, hmax⟩, hkey, hnonce⟩, hsigned, hbody, hanswer⟩
    exact ⟨⟨hmin, hmax, hkey, hnonce⟩, hsigned, v, (RelayHealth.read_ok.2 ⟨rfl, hbody⟩).1, _, hbody, hanswer, rfl⟩

end

/-! ## The two formats -/

/-- An identity whose signatures verify under its public key, which is not zero. -/
structure KeyCrypto.Signs (crypto : KeyCrypto) (identity : DeviceIdentity) : Prop where
  key : crypto.identityPublicKey identity ≠ 0
  verifies : ∀ message, crypto.verifySignature (crypto.identityPublicKey identity) message (crypto.sign identity message) = true

section
variable {crypto : KeyCrypto} {identity : DeviceIdentity} {bytes : Bytes}

theorem verify_signDirectory (hsign : crypto.Signs identity) {c : DirectoryCatalog} {now : UInt64} (hsigned : signDirectory crypto c identity = .ok bytes)
    (hnow : c.issuedMs ≤ now ∧ now < c.expiresMs) :
    bytes.length ≤ 16384 ∧ verifyDirectory crypto.toCrypto bytes (crypto.identityPublicKey identity) now = .ok c := by
  simp only [signDirectory, bind_eq_ok, Except.ok.injEq] at hsigned
  obtain ⟨payload, hbody, rfl⟩ := hsigned
  obtain ⟨hvalid, rfl⟩ := Directory.body_ok.1 hbody
  have hlength := Directory.length_catalogBytes hvalid
  have hsize : (Directory.catalogBytes c ++ arrayBytes (crypto.sign identity (Directory.catalogBytes c))).length =
      (Directory.catalogBytes c).length + 64 := by
    rw [List.length_append, length_arrayBytes]
  rw [verifyDirectory_ok, signedPayload_append, messageSignature_append, hsize]
  exact ⟨by omega, ⟨by omega, by omega⟩, hsign.verifies _, hbody, hnow⟩

theorem verify_signRelayHealth (hsign : crypto.Signs identity) {v : RelayHealth} {expected : RelayEndpoint} {nonce : Nonce} {now : UInt64}
    (hsigned : signRelayHealth crypto v identity = .ok bytes) (hversion : expected.protocolVersion = protocolVersion)
    (hkey : expected.healthKey = crypto.identityPublicKey identity) (hanswer : v.Answers expected nonce now) :
    bytes.length ≤ 512 ∧ verifyRelayHealth crypto.toCrypto bytes expected nonce now = .ok v := by
  simp only [signRelayHealth, bind_eq_ok, Except.ok.injEq] at hsigned
  obtain ⟨payload, hbody, rfl⟩ := hsigned
  obtain ⟨hvalid, rfl⟩ := RelayHealth.body_ok.1 hbody
  have hlength := RelayHealth.length_bytes hvalid
  have hsize : (v.bytes ++ arrayBytes (crypto.sign identity v.bytes)).length = v.bytes.length + 64 := by
    rw [List.length_append, length_arrayBytes]
  have hnonce : nonce ≠ 0 := by
    rw [← hanswer.2.2.2.1]
    exact fun h => hvalid.1 (.inl h)
  rw [verifyRelayHealth_ok hversion, signedPayload_append, messageSignature_append, hsize, hkey]
  exact ⟨by omega, ⟨⟨by omega, by omega⟩, hsign.key, hnonce⟩, hsign.verifies _, hbody, hanswer⟩

/-- The magic number says which version it is. -/
theorem plain_of_legacy {c : DirectoryCatalog} {payload : Bytes} (hbody : Directory.body c = .ok payload)
    (hmagic : payload.take 4 = beBytes 4 (Directory.magic false).toNat) :
    c.scope = .legacy ∧ c.revision = 0 ∧ ∀ e ∈ c.relays, Directory.Plain e := by
  obtain ⟨hvalid, rfl⟩ := Directory.body_ok.1 hbody
  have hfirst : (Directory.catalogBytes c).take 4 = beBytes 4 (Directory.magic (Directory.regional c)).toNat := by
    rw [Directory.catalogBytes, Directory.headerBytes, List.append_assoc]
    exact List.take_left' (beBytes_length _ _)
  have hlegacy : Directory.regional c = false := by
    rw [hfirst] at hmagic
    cases hregional : Directory.regional c with
    | false => rfl
    | true =>
      rw [hregional] at hmagic
      exact absurd hmagic (by decide)
  refine ⟨?_, hvalid.readable.1 hlegacy, ?_⟩
  · simpa [Directory.regional] using hlegacy
  · intro e he
    obtain ⟨ids, addresses, -, -, -, hmeta⟩ := hvalid.2.2.endpoint he
    rw [hlegacy] at hmeta
    exact hmeta

/-- Catalogs and health reports that are signed are read back, and nothing is
accepted but the signed encoding of what is returned. -/
theorem signed_formats (crypto : KeyCrypto) (identity : DeviceIdentity) (hsign : crypto.Signs identity) :
    (∀ c bytes (now : UInt64), signDirectory crypto c identity = .ok bytes → c.issuedMs ≤ now ∧ now < c.expiresMs →
      bytes.length ≤ 16384 ∧ verifyDirectory crypto.toCrypto bytes (crypto.identityPublicKey identity) now = .ok c) ∧
    (∀ response key now c, verifyDirectory crypto.toCrypto response key now = .ok c →
      Directory.body c = .ok (signedPayload response) ∧
      ((signedPayload response).take 4 = beBytes 4 (Directory.magic false).toNat →
        c.scope = .legacy ∧ c.revision = 0 ∧ ∀ e ∈ c.relays, Directory.Plain e)) ∧
    (∀ response response' key key' now now' c, verifyDirectory crypto.toCrypto response key now = .ok c →
      verifyDirectory crypto.toCrypto response' key' now' = .ok c → signedPayload response = signedPayload response') ∧
    (∀ v bytes expected nonce now, signRelayHealth crypto v identity = .ok bytes → expected.protocolVersion = protocolVersion →
      expected.healthKey = crypto.identityPublicKey identity → v.Answers expected nonce now →
      bytes.length ≤ 512 ∧ verifyRelayHealth crypto.toCrypto bytes expected nonce now = .ok v) ∧
    (∀ encoded expected nonce now v, expected.protocolVersion = protocolVersion →
      verifyRelayHealth crypto.toCrypto encoded expected nonce now = .ok v →
      RelayHealth.body v = .ok (signedPayload encoded) ∧ v.Answers expected nonce now) := by
  refine ⟨?_, ?_, ?_, ?_, ?_⟩
  · intro c bytes now hsigned hnow
    exact verify_signDirectory hsign hsigned hnow
  · intro response key now c haccepted
    obtain ⟨-, -, hbody, -⟩ := verifyDirectory_ok.1 haccepted
    exact ⟨hbody, plain_of_legacy hbody⟩
  · intro response response' key key' now now' c haccepted haccepted'
    obtain ⟨-, -, hbody, -⟩ := verifyDirectory_ok.1 haccepted
    obtain ⟨-, -, hbody', -⟩ := verifyDirectory_ok.1 haccepted'
    rw [hbody] at hbody'
    exact Except.ok.inj hbody'
  · intro v bytes expected nonce now hsigned hversion hkey hanswer
    exact verify_signRelayHealth hsign hsigned hversion hkey hanswer
  · intro encoded expected nonce now v hversion haccepted
    obtain ⟨-, -, hbody, hanswer⟩ := (verifyRelayHealth_ok hversion).1 haccepted
    exact ⟨hbody, hanswer⟩

/-- Signatures that sum up what they are over. -/
def summingCrypto : KeyCrypto where
  sha256 bytes := BitVec.ofNat 256 (beNat bytes)
  scrypt _ _ := none
  verifySignature key message signature := signature = BitVec.ofNat 512 (beNat message + key.toNat)
  hkdf _ _ _ := 0
  aesGcmEncrypt _ _ _ plaintext := (plaintext, 0)
  aesGcmDecrypt _ _ _ ciphertext _ := some ciphertext
  encryptionPublicKey key := key
  x25519 _ _ := none
  identityPublicKey identity := identity
  sign identity message := BitVec.ofNat 512 (beNat message + identity.toNat)

/-- One relay in the second version. -/
def regionalCatalog : DirectoryCatalog :=
  { issuedMs := 1000, expiresMs := 2000, scope := .official, revision := 7
    relays := [{ id := text "r1", host := text "relay.test", region := text "eu", capacity := 100, authority := text "main", healthKey := 3 }] }

def healthReport : RelayHealth :=
  { nonce := 9, relayId := text "r1", authority := text "main", issuedMs := 1500, capacity := 100, activeConnections := 40, ready := true }

theorem signed_formats_sample : ∃ catalog report, signDirectory summingCrypto regionalCatalog 3 = .ok catalog ∧
    signRelayHealth summingCrypto healthReport 3 = .ok report ∧
    verifyDirectory summingCrypto.toCrypto catalog 3 1500 = .ok regionalCatalog ∧
    ∀ expected ∈ regionalCatalog.relays, verifyRelayHealth summingCrypto.toCrypto report expected 9 1600 = .ok healthReport := by
  obtain ⟨hdirectory, -, -, hhealth, -⟩ := signed_formats summingCrypto 3 ⟨by decide, by simp [summingCrypto]⟩
  have hcatalog : Directory.ValidCatalog regionalCatalog :=
    ⟨by decide, by decide, ⟨by decide, by decide +kernel, by decide +kernel, by decide, by decide +kernel, by decide +kernel⟩, trivial⟩
  have hreport : RelayHealth.Valid healthReport := ⟨by decide, by decide, by decide +kernel, by decide +kernel⟩
  obtain ⟨catalog, hsigned⟩ : ∃ bytes, signDirectory summingCrypto regionalCatalog 3 = .ok bytes := by
    rw [signDirectory, Directory.body_ok.2 ⟨hcatalog, rfl⟩]
    exact ⟨_, rfl⟩
  obtain ⟨report, hsigned'⟩ : ∃ bytes, signRelayHealth summingCrypto healthReport 3 = .ok bytes := by
    rw [signRelayHealth, RelayHealth.body_ok.2 ⟨hreport, rfl⟩]
    exact ⟨_, rfl⟩
  refine ⟨catalog, report, hsigned, hsigned', (hdirectory _ _ 1500 hsigned (by decide)).2, ?_⟩
  intro expected hexpected
  obtain rfl := List.mem_singleton.1 hexpected
  exact (hhealth _ _ _ 9 1600 hsigned' rfl rfl ⟨rfl, rfl, rfl, rfl, by decide, by decide⟩).2

end

end LanLink
