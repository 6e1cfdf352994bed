import LanLink.Auth.KeyEnvelopes
import LanLink.Protocol.Binary
import LanLink.Protocol.Capabilities
/-!
# Signed relay directories

`auth/directory.cpp`: a catalog of relays, signed by the directory's key. The
first version of the format lists addresses; the second adds what regional relays
need. Which one is written follows from the scope of the catalog, which one is
read from the magic number.
-/
open LanLink.Lib LanLink.Lib.Reader

namespace LanLink

/-- `enum class DirectoryScope : std::uint8_t`: any byte, three of which have names. -/
structure DirectoryScope where
  code : UInt8
  deriving DecidableEq, Repr

namespace DirectoryScope

def legacy : DirectoryScope := ⟨0⟩

def official : DirectoryScope := ⟨1⟩

def selfHosted : DirectoryScope := ⟨2⟩

end DirectoryScope

structure RelayEndpoint where
  id : Text := []
  host : Text := []
  port : UInt16 := 4433
  region : Text := []
  capacity : UInt32 := 0
  protocolVersion : UInt16 := LanLink.protocolVersion
  authority : Text := []
  healthKey : PublicKey := 0
  deriving DecidableEq, Repr

structure DirectoryCatalog where
  issuedMs : UInt64 := 0
  expiresMs : UInt64 := 0
  relays : List RelayEndpoint := []
  scope : DirectoryScope := .legacy
  revision : UInt64 := 0
  deriving DecidableEq, Repr

/-! ## Writing -/

/-- Letters, digits, dots and dashes. -/
def directoryChar (c : UInt8) : Bool :=
  (0x61 ≤ c && c ≤ 0x7a) || (0x41 ≤ c && c ≤ 0x5a) || (0x30 ≤ c && c ≤ 0x39) || c = 0x2e || c = 0x2d

def validDirectoryText (limit : ℕ) (s : Text) : Prop := s ≠ [] ∧ s.length ≤ limit ∧ s.all directoryChar = true

instance (limit : ℕ) (s : Text) : Decidable (validDirectoryText limit s) := inferInstanceAs (Decidable (_ ∧ _))

/-- `text`, as the directory and the health report have it. -/
def directoryText (e : Exn) (limit : ℕ) (s : Text) : Except Exn Bytes := do
  check (validDirectoryText limit s) e
  .ok (nameBytes s)

namespace Directory

def magic (regional : Bool) : UInt32 := if regional then 0x4c4c4432 else 0x4c4c4431

def badEndpoint : Exn := .invalidArgument "invalid directory endpoint"

/-- What the second version adds to an endpoint. -/
def writeMetadata (regional : Bool) (addresses : List (Text × UInt16)) (e : RelayEndpoint) : Except Exn Bytes :=
  if regional then do
    check (¬ (e.capacity = 0 ∨ 1000000 < e.capacity ∨ e.protocolVersion = 0 ∨ e.healthKey = 0 ∨ (e.host, e.port) ∈ addresses))
      (.invalidArgument "invalid regional relay metadata")
    let region ← directoryText badEndpoint 32 e.region
    let authority ← directoryText badEndpoint 64 e.authority
    .ok (region ++ (beBytes 4 e.capacity.toNat ++ (beBytes 2 e.protocolVersion.toNat ++ (authority ++ arrayBytes e.healthKey))))
  else do
    check (¬ (e.region ≠ [] ∨ e.capacity ≠ 0 ∨ e.authority ≠ [] ∨ e.healthKey ≠ 0 ∨ e.protocolVersion ≠ LanLink.protocolVersion))
      (.invalidArgument "regional metadata requires directory version 2")
    .ok []

def writeEndpoint (regional : Bool) (ids : List Text) (addresses : List (Text × UInt16)) (e : RelayEndpoint) : Except Exn Bytes := do
  check (¬ (ids.contains e.id ∨ e.port = 0)) (.invalidArgument "duplicate directory ID or invalid port")
  let id ← directoryText badEndpoint 64 e.id
  let host ← directoryText badEndpoint 253 e.host
  let metadata ← writeMetadata regional addresses e
  .ok (id ++ (host ++ (beBytes 2 e.port.toNat ++ metadata)))

/-- The loop of `body`, given the ids and addresses before. -/
def writeRelays (regional : Bool) (ids : List Text) (addresses : List (Text × UInt16)) : List RelayEndpoint → Except Exn Bytes
  | [] => .ok []
  | e :: relays => do
    let bs ← writeEndpoint regional ids addresses e
    let rest ← writeRelays regional (e.id :: ids) ((e.host, e.port) :: addresses) relays
    .ok (bs ++ rest)

def regional (c : DirectoryCatalog) : Bool := c.scope ≠ .legacy

def scopeBytes (c : DirectoryCatalog) : Bytes :=
  if regional c then beBytes 8 c.revision.toNat ++ beBytes 1 c.scope.code.toNat else []

/-- The fields in front of the relays. -/
def headerBytes (c : DirectoryCatalog) : Bytes :=
  beBytes 4 (magic (regional c)).toNat ++ (beBytes 8 c.issuedMs.toNat ++ (beBytes 8 c.expiresMs.toNat ++ scopeBytes c))

def body (c : DirectoryCatalog) : Except Exn Bytes := do
  check (¬ (c.relays = [] ∨ 32 < c.relays.length ∨ c.expiresMs ≤ c.issuedMs ∨ 86400000 < c.expiresMs - c.issuedMs))
    (.invalidArgument "invalid directory lifetime or size")
  check (¬ ((regional c ∧ (DirectoryScope.selfHosted.code < c.scope.code ∨ c.revision = 0)) ∨ (¬ regional c ∧ c.revision ≠ 0)))
    (.invalidArgument "invalid directory scope or revision")
  let relays ← writeRelays (regional c) [] [] c.relays
  .ok (headerBytes c ++ (beBytes 1 c.relays.length ++ relays))

/-! ## Reading -/

open PolicyReader BinaryReader

/-- What the second version adds to `e`. -/
def readMetadata (regional : Bool) (e : RelayEndpoint) : PolicyReader RelayEndpoint :=
  if regional then do
    let region ← string
    let capacity ← get32
    let protocolVersion ← get16
    let authority ← string
    let healthKey ← array 256
    pure { e with region, capacity, protocolVersion, authority, healthKey }
  else pure e

def readEndpoint (regional : Bool) : PolicyReader RelayEndpoint := do
  let id ← string
  let host ← string
  let port ← get16
  readMetadata regional { id, host, port }

/-- Revision and scope, in the second version. -/
def readScope (regional : Bool) : PolicyReader (UInt64 × DirectoryScope) :=
  if regional then do
    let revision ← get64
    let scope ← get8
    Reader.require (scope ≠ 0) (.invalidArgument "regional directory requires an explicit scope")
    pure (revision, ⟨scope⟩)
  else pure (0, .legacy)

/-- The fields after the magic number. -/
def readFields (regional : Bool) : PolicyReader DirectoryCatalog := do
  let issuedMs ← get64
  let expiresMs ← get64
  let scope ← readScope regional
  let relays ← counted 1 32 (.invalidArgument "directory limit exceeded") (readEndpoint regional)
  finish
  pure { issuedMs, expiresMs, relays, scope := scope.2, revision := scope.1 }

def readCatalog : PolicyReader DirectoryCatalog := do
  let version ← get32
  Reader.require (version = magic false ∨ version = magic true) (.invalidArgument "invalid directory version")
  readFields (version = magic true)

end Directory

/-! ## Signing -/

/-- The part of a signed message in front of the signature. -/
def signedPayload (message : Bytes) : Bytes := message.take (message.length - 64)

def messageSignature (message : Bytes) : Signature := ofBytes 512 (message.drop (message.length - 64))

def signDirectory (crypto : KeyCrypto) (c : DirectoryCatalog) (identity : DeviceIdentity) : Except Exn Bytes := do
  let bytes ← Directory.body c
  .ok (bytes ++ arrayBytes (crypto.sign identity bytes))

def verifyDirectory (crypto : Crypto) (response : Bytes) (key : PublicKey) (nowMs : UInt64) : Except Exn DirectoryCatalog := do
  check (¬ (response.length < 85 ∨ 16384 < response.length)) (.invalidArgument "invalid directory response size")
  check (crypto.verifySignature key (signedPayload response) (messageSignature response))
    (.invalidArgument "directory signature rejected")
  let c ← Directory.readCatalog.parse (signedPayload response)
  let _ ← Directory.body c
  check (¬ (nowMs < c.issuedMs ∨ c.expiresMs ≤ nowMs)) (.invalidArgument "directory response expired or not yet valid")
  .ok c

/-! ## What is written -/

theorem directoryText_ok {e : Exn} {limit : ℕ} {s : Text} {bs : Bytes} :
    directoryText e limit s = .ok bs ↔ validDirectoryText limit s ∧ nameBytes s = bs := by
  simp only [directoryText, bind_eq_ok, check_eq_ok, exists_const, Except.ok.injEq]

namespace Directory

section
variable {regional : Bool} {ids : List Text} {addresses : List (Text × UInt16)} {e : RelayEndpoint} {bs : Bytes}

def metadataBytes (regional : Bool) (e : RelayEndpoint) : Bytes :=
  if regional then nameBytes e.region ++ (beBytes 4 e.capacity.toNat ++ (beBytes 2 e.protocolVersion.toNat ++
    (nameBytes e.authority ++ arrayBytes e.healthKey))) else []

def endpointBytes (regional : Bool) (e : RelayEndpoint) : Bytes :=
  nameBytes e.id ++ (nameBytes e.host ++ (beBytes 2 e.port.toNat ++ metadataBytes regional e))

/-- Nothing that the first version has no place for. -/
def Plain (e : RelayEndpoint) : Prop :=
  e.region = [] ∧ e.capacity = 0 ∧ e.authority = [] ∧ e.healthKey = 0 ∧ e.protocolVersion = LanLink.protocolVersion

def ValidMetadata (regional : Bool) (addresses : List (Text × UInt16)) (e : RelayEndpoint) : Prop :=
  if regional then ¬ (e.capacity = 0 ∨ 1000000 < e.capacity ∨ e.protocolVersion = 0 ∨ e.healthKey = 0 ∨ (e.host, e.port) ∈ addresses) ∧
    validDirectoryText 32 e.region ∧ validDirectoryText 64 e.authority
  else Plain e

theorem writeMetadata_ok : writeMetadata regional addresses e = .ok bs ↔
    ValidMetadata regional addresses e ∧ metadataBytes regional e = bs := by
  cases regional with
  | false =>
    simp only [writeMetadata, ValidMetadata, metadataBytes, Plain, Bool.false_eq_true, if_false, bind_eq_ok, check_eq_ok,
      exists_const, Except.ok.injEq, not_or, not_not]
  | true =>
    simp only [writeMetadata, ValidMetadata, metadataBytes, if_true, bind_eq_ok, check_eq_ok, directoryText_ok, exists_const,
      Except.ok.injEq]
    constructor
    · rintro ⟨hmeta, _, ⟨hregion, rfl⟩, _, ⟨hauthority, rfl⟩, rfl⟩
      exact ⟨⟨hmeta, hregion, hauthority⟩, rfl⟩
    · rintro ⟨⟨hmeta, hregion, hauthority⟩, rfl⟩
      exact ⟨hmeta, _, ⟨hregion, rfl⟩, _, ⟨hauthority, rfl⟩, rfl⟩

def ValidEndpoint (regional : Bool) (ids : List Text) (addresses : List (Text × UInt16)) (e : RelayEndpoint) : Prop :=
  ¬ (e.id ∈ ids ∨ e.port = 0) ∧ validDirectoryText 64 e.id ∧ validDirectoryText 253 e.host ∧ ValidMetadata regional addresses e

theorem writeEndpoint_ok : writeEndpoint regional ids addresses e = .ok bs ↔
    ValidEndpoint regional ids addresses e ∧ endpointBytes regional e = bs := by
  simp only [writeEndpoint, ValidEndpoint, endpointBytes, bind_eq_ok, check_eq_ok, directoryText_ok, writeMetadata_ok,
    List.contains_iff_mem, exists_const, Except.ok.injEq]
  constructor
  · rintro ⟨hnew, _, ⟨hid, rfl⟩, _, ⟨hhost, rfl⟩, _, ⟨hmeta, rfl⟩, rfl⟩
    exact ⟨⟨hnew, hid, hhost, hmeta⟩, rfl⟩
  · rintro ⟨⟨hnew, hid, hhost, hmeta⟩, rfl⟩
    exact ⟨hnew, _, ⟨hid, rfl⟩, _, ⟨hhost, rfl⟩, _, ⟨hmeta, rfl⟩, rfl⟩

/-- Relays one after the other, none under an id or an address seen before. -/
def ValidRelays (regional : Bool) (ids : List Text) (addresses : List (Text × UInt16)) : List RelayEndpoint → Prop
  | [] => True
  | e :: relays => ValidEndpoint regional ids addresses e ∧ ValidRelays regional (e.id :: ids) ((e.host, e.port) :: addresses) relays

theorem writeRelays_ok {relays : List RelayEndpoint} : writeRelays regional ids addresses relays = .ok bs ↔
    ValidRelays regional ids addresses relays ∧ relays.flatMap (endpointBytes regional) = bs := by
  induction relays generalizing ids addresses bs with
  | nil => simp [writeRelays, ValidRelays]
  | cons e relays ih =>
    simp only [writeRelays, ValidRelays, bind_eq_ok, writeEndpoint_ok, ih, Except.ok.injEq, List.flatMap_cons]
    constructor
    · rintro ⟨_, ⟨he, rfl⟩, _, ⟨hrelays, rfl⟩, rfl⟩
      exact ⟨⟨he, hrelays⟩, rfl⟩
    · rintro ⟨⟨he, hrelays⟩, rfl⟩
      exact ⟨_, ⟨he, rfl⟩, _, ⟨hrelays, rfl⟩, rfl⟩

theorem ValidRelays.endpoint {relays : List RelayEndpoint} (h : ValidRelays regional ids addresses relays) (he : e ∈ relays) :
    ∃ ids addresses, ValidEndpoint regional ids addresses e := by
  induction relays generalizing ids addresses with
  | nil => cases he
  | cons e' relays ih =>
    rcases List.mem_cons.1 he with rfl | he
    · exact ⟨ids, addresses, h.1⟩
    · exact ih h.2 he

end

section
variable {c : DirectoryCatalog} {bs : Bytes}

def ValidCatalog (c : DirectoryCatalog) : Prop :=
  ¬ (c.relays = [] ∨ 32 < c.relays.length ∨ c.expiresMs ≤ c.issuedMs ∨ 86400000 < c.expiresMs - c.issuedMs) ∧
  ¬ ((regional c ∧ (DirectoryScope.selfHosted.code < c.scope.code ∨ c.revision = 0)) ∨ (¬ regional c ∧ c.revision ≠ 0)) ∧
  ValidRelays (regional c) [] [] c.relays

def catalogBytes (c : DirectoryCatalog) : Bytes :=
  headerBytes c ++ (beBytes 1 c.relays.length ++ c.relays.flatMap (endpointBytes (regional c)))

theorem body_ok : body c = .ok bs ↔ ValidCatalog c ∧ catalogBytes c = bs := by
  simp only [body, ValidCatalog, catalogBytes, bind_eq_ok, check_eq_ok, writeRelays_ok, exists_const, Except.ok.injEq]
  constructor
  · rintro ⟨hlife, hscope, _, ⟨hrelays, rfl⟩, rfl⟩
    exact ⟨⟨hlife, hscope, hrelays⟩, rfl⟩
  · rintro ⟨⟨hlife, hscope, hrelays⟩, rfl⟩
    exact ⟨hlife, hscope, _, ⟨hrelays, rfl⟩, rfl⟩

end

/-! ## Sizes -/

theorem length_nameBytes (t : Text) : (nameBytes t).length = 2 + t.length := by
  rw [nameBytes, List.length_append, beBytes_length]

theorem length_endpointBytes {regional : Bool} {ids : List Text} {addresses : List (Text × UInt16)} {e : RelayEndpoint}
    (h : ValidEndpoint regional ids addresses e) : (endpointBytes regional e).length ≤ 461 := by
  obtain ⟨-, ⟨-, hid, -⟩, ⟨-, hhost, -⟩, hmeta⟩ := h
  have hmetadata : (metadataBytes regional e).length ≤ 138 := by
    cases regional with
    | false => exact Nat.zero_le _
    | true =>
      obtain ⟨-, ⟨-, hregion, -⟩, -, hauthority, -⟩ := hmeta
      simp only [metadataBytes, if_true, List.length_append, length_nameBytes, beBytes_length, length_arrayBytes]
      omega
  simp only [endpointBytes, List.length_append, length_nameBytes, beBytes_length]
  omega

theorem length_catalogBytes {c : DirectoryCatalog} (h : ValidCatalog c) :
    21 ≤ (catalogBytes c).length ∧ (catalogBytes c).length ≤ 14782 := by
  obtain ⟨hlife, -, hrelays⟩ := h
  have hheader : 20 ≤ (headerBytes c).length ∧ (headerBytes c).length ≤ 29 := by
    simp only [headerBytes, scopeBytes, List.length_append, beBytes_length]
    split <;> simp [beBytes_length]
  have hbody : (c.relays.flatMap (endpointBytes (regional c))).length ≤ c.relays.length * 461 := by
    refine length_flatMap_le fun e he => ?_
    obtain ⟨ids, addresses, hvalid⟩ := hrelays.endpoint he
    exact length_endpointBytes hvalid
  have hcount : c.relays.length ≤ 32 := not_lt.1 fun hlt => hlife (.inr (.inl hlt))
  simp only [catalogBytes, List.length_append, beBytes_length]
  omega

/-! ## What is read -/

open BinaryReader

theorem readMetadata_record (regional : Bool) (e : RelayEndpoint) {known : RelayEndpoint → Prop}
    (hknown : ∀ b, known b ↔ b.id = e.id ∧ b.host = e.host ∧ b.port = e.port) :
    Record Open known (readMetadata regional { id := e.id, host := e.host, port := e.port }) (metadataBytes regional) fun b =>
      if regional then b.region.length < 256 ^ 2 ∧ b.authority.length < 256 ^ 2 else Plain b := by
  cases regional with
  | false =>
    refine .rest Plain fun b => ?_
    obtain ⟨id, host, port, region, capacity, version, authority, key⟩ := b
    simp only [hknown, Plain, RelayEndpoint.mk.injEq]
    constructor
    · rintro ⟨⟨rfl, rfl, rfl⟩, rfl, rfl, rfl, rfl, rfl⟩
      exact ⟨rfl, rfl, rfl, rfl, rfl, rfl, rfl, rfl⟩
    · rintro ⟨rfl, rfl, rfl, rfl, rfl, rfl, rfl, rfl⟩
      exact ⟨⟨rfl, rfl, rfl⟩, rfl, rfl, rfl, rfl, rfl⟩
  | true =>
    refine .congr (.field RelayEndpoint.region string_format fun region _ => .field RelayEndpoint.capacity get32_format fun capacity _ =>
      .field RelayEndpoint.protocolVersion get16_format fun version _ => .field RelayEndpoint.authority string_format fun authority _ =>
      .field RelayEndpoint.healthKey array256_format fun key _ => .pure ?_) ?_ ?_
    · intro b
      obtain ⟨id, host, port, region', capacity', version', authority', key'⟩ := b
      simp only [hknown, RelayEndpoint.mk.injEq, eq_comm, and_assoc]
    · intro b _
      simp
    · intro b _ _
      simp [metadataBytes]

/-- What a reader asks of an endpoint. -/
def ReadableEndpoint (regional : Bool) (e : RelayEndpoint) : Prop :=
  e.id.length < 256 ^ 2 ∧ e.host.length < 256 ^ 2 ∧
    if regional then e.region.length < 256 ^ 2 ∧ e.authority.length < 256 ^ 2 else Plain e

theorem readEndpoint_format (regional : Bool) : Format (readEndpoint regional) (endpointBytes regional) (ReadableEndpoint regional) := by
  refine (Record.field RelayEndpoint.id string_format fun id _ => .field RelayEndpoint.host string_format fun host _ =>
    .field RelayEndpoint.port get16_format fun port _ =>
    readMetadata_record regional { id, host, port } fun b => ?_).format.congr ?_ ?_
  · simp only [true_and, and_assoc]
  · intro e
    simp only [ReadableEndpoint, true_and]
  · intro e _
    rfl

theorem readScope_format (regional : Bool) : Format (readScope regional)
    (fun p => if regional then beBytes 8 p.1.toNat ++ beBytes 1 p.2.code.toNat else [])
    (fun p => if regional then p.2 ≠ .legacy else p = (0, .legacy)) := by
  cases regional with
  | false =>
    refine (Record.rest (fun p => p = (0, DirectoryScope.legacy)) fun p => ?_).format
    rw [true_and, eq_comm]
  | true =>
    refine (Record.field (fun p : UInt64 × DirectoryScope => p.1) get64_format fun revision _ =>
      .field (fun p : UInt64 × DirectoryScope => p.2.code) get8_format fun scope _ =>
      .require (fun p : UInt64 × DirectoryScope => p.2 ≠ .legacy) ?_ fun _ => .pure ?_).format.congr ?_ ?_
    · rintro ⟨revision', ⟨code⟩⟩ ⟨-, rfl⟩
      simp [DirectoryScope.legacy]
    · rintro ⟨revision', ⟨code⟩⟩
      simp only [true_and, Prod.mk.injEq, DirectoryScope.mk.injEq, eq_comm]
    · intro p
      simp
    · intro p _
      simp

/-- What a reader asks of a catalog. -/
def Readable (c : DirectoryCatalog) : Prop :=
  (regional c = false → c.revision = 0) ∧ c.relays.length ≤ 32 ∧ ∀ e ∈ c.relays, ReadableEndpoint (regional c) e

theorem readFields_record (r : Bool) {known : DirectoryCatalog → Prop} (hknown : ∀ c, known c ↔ regional c = r) :
    Record Closed known (readFields r) (fun c => beBytes 8 c.issuedMs.toNat ++ (beBytes 8 c.expiresMs.toNat ++ (scopeBytes c ++
      (beBytes 1 c.relays.length ++ c.relays.flatMap (endpointBytes (regional c)))))) Readable := by
  refine .congr (.field DirectoryCatalog.issuedMs get64_format fun issued _ =>
    .field DirectoryCatalog.expiresMs get64_format fun expires _ =>
    .field (fun c => (c.revision, c.scope)) (readScope_format r) fun scope hscope =>
    .field DirectoryCatalog.relays (counted_format (readEndpoint_format r) (by norm_num) _) fun relays _ => .finish _ (.pure ?_)) ?_ ?_
  · rintro ⟨issued', expires', relays', scope', revision'⟩
    simp only [hknown, DirectoryCatalog.mk.injEq, Prod.ext_iff, regional]
    constructor
    · rintro ⟨⟨⟨⟨-, rfl⟩, rfl⟩, rfl, rfl⟩, rfl⟩
      exact ⟨rfl, rfl, rfl, rfl, rfl⟩
    · rintro ⟨rfl, rfl, rfl, rfl, rfl⟩
      refine ⟨⟨⟨⟨?_, rfl⟩, rfl⟩, rfl, rfl⟩, rfl⟩
      -- the scope that was read says which version it is
      cases r with
      | false =>
        have hlegacy : scope = (0, .legacy) := hscope
        simp [hlegacy]
      | true => exact decide_eq_true hscope
  · intro c hc
    obtain rfl := (hknown c).1 hc
    simp only [Readable, true_and, and_true, and_congr_left_iff]
    intro _
    unfold regional
    by_cases hlegacy : c.scope = .legacy <;> simp [hlegacy]
  · intro c hc _
    obtain rfl := (hknown c).1 hc
    simp only [scopeBytes, List.append_nil]

/-- A catalog is read from what is written for it. -/
theorem readCatalog_record : Record Closed (fun _ => True) readCatalog catalogBytes Readable := by
  refine .congr (.field (fun c => magic (regional c)) get32_format fun version _ => .require (fun _ => True) ?_ fun hversion =>
    readFields_record _ fun c => ?_) ?_ ?_
  · rintro c ⟨-, rfl⟩
    cases regional c <;> decide
  · rw [true_and]
    rcases hversion with rfl | rfl <;> cases regional c <;> decide
  · intro c _
    simp only [true_and]
  · intro c _ _
    simp only [catalogBytes, headerBytes, List.append_assoc]

theorem ValidRelays.readable {r : Bool} {ids : List Text} {addresses : List (Text × UInt16)} {relays : List RelayEndpoint}
    (h : ValidRelays r ids addresses relays) : ∀ e ∈ relays, ReadableEndpoint r e := by
  intro e he
  obtain ⟨ids', addresses', -, ⟨-, hid, -⟩, ⟨-, hhost, -⟩, hmeta⟩ := h.endpoint he
  refine ⟨by omega, by omega, ?_⟩
  cases r with
  | false => exact hmeta
  | true =>
    obtain ⟨-, ⟨-, hregion, -⟩, -, hauthority, -⟩ := hmeta
    exact ⟨by omega, by omega⟩

/-- Whatever may be written can be read. -/
theorem ValidCatalog.readable {c : DirectoryCatalog} (h : ValidCatalog c) : Readable c := by
  obtain ⟨hlife, hscope, hrelays⟩ := h
  refine ⟨fun hlegacy => ?_, not_lt.1 fun hlt => hlife (.inr (.inl hlt)), hrelays.readable⟩
  by_contra hrevision
  exact hscope (.inr ⟨by rw [hlegacy]; decide, hrevision⟩)

/-- The payloads that are accepted are what is written for their catalogs. -/
theorem readCatalog_ok {payload bs : Bytes} {c : DirectoryCatalog} :
    (readCatalog.parse payload = .ok c ∧ body c = .ok bs) ↔ payload = bs ∧ body c = .ok payload := by
  rw [readCatalog_record.parse_eq_ok, body_ok, body_ok]
  constructor
  · rintro ⟨⟨rfl, -⟩, hvalid, rfl⟩
    exact ⟨rfl, hvalid, rfl⟩
  · rintro ⟨rfl, hvalid, rfl⟩
    exact ⟨⟨rfl, hvalid.readable⟩, hvalid, rfl⟩

end Directory

/-! ## Signed catalogs -/

section
variable {payload message : Bytes} {signature : Signature}

theorem signedPayload_append : signedPayload (payload ++ arrayBytes signature) = payload := by
  simp only [signedPayload, List.length_append, length_arrayBytes]
  exact List.take_left' (by omega)

theorem messageSignature_append : messageSignature (payload ++ arrayBytes signature) = signature := by
  have hdrop : (payload ++ arrayBytes signature).drop ((payload ++ arrayBytes signature).length - 64) = arrayBytes signature := by
    refine List.drop_left' ?_
    simp only [List.length_append, length_arrayBytes]
    omega
  rw [messageSignature, hdrop]
  exact @ofBytes_arrayBytes 64 signature

end

section
variable {crypto : Crypto} {response : Bytes} {key : PublicKey} {now : UInt64} {c : DirectoryCatalog}

/-- What is accepted: a signed encoding of the catalog. -/
theorem verifyDirectory_ok : verifyDirectory crypto response key now = .ok c ↔
    (85 ≤ response.length ∧ response.length ≤ 16384) ∧
    crypto.verifySignature key (signedPayload response) (messageSignature response) = true ∧
    Directory.body c = .ok (signedPayload response) ∧ c.issuedMs ≤ now ∧ now < c.expiresMs := by
  simp only [verifyDirectory, bind_eq_ok, check_eq_ok, exists_const, Except.ok.injEq, not_or, not_lt, UInt64.not_le, UInt64.not_lt]
  constructor
  · rintro ⟨hsize, hsigned, c', hread, bs, hbody, htime, rfl⟩
    obtain ⟨rfl, hpayload⟩ := Directory.readCatalog_ok.1 ⟨hread, hbody⟩
    exact ⟨hsize, hsigned, hpayload, htime⟩
  · rintro ⟨hsize, hsigned, hbody, htime⟩
    exact ⟨hsize, hsigned, c, (Directory.readCatalog_ok.2 ⟨rfl, hbody⟩).1, _, hbody, htime, rfl⟩

end

end LanLink
