import LanLink.Protocol.MessageCodec
import LanLink.Protocol.PolicyCodec
/-!
# Payloads read back

Every payload codec is a bijection between the values its encoder accepts and
the byte strings its decoder accepts. A decoder that takes nothing but the
encoding of what it returns is shown field by field, from the front.
-/
open LanLink.Lib LanLink.Lib.Reader

namespace LanLink

open PayloadReader

/-- `decode` inverts `encode` on the values of its type, and accepts nothing but encodings. -/
structure Inverse {α : Type} (typed : α → Prop) (encode : α → Except Exn Bytes) (decode : Bytes → Except Exn α) :
    Prop where
  decode_encode : ∀ x bs, typed x → encode x = .ok bs → decode bs = .ok x
  encode_decode : ∀ bs x, decode bs = .ok x → typed x ∧ encode x = .ok bs

theorem Inverse.iff {α : Type} {encode : α → Except Exn Bytes} {decode : Bytes → Except Exn α} (h : Inverse (fun _ => True) encode decode)
    {bs : Bytes} {x : α} : decode bs = .ok x ↔ encode x = .ok bs :=
  ⟨fun hdecode => (h.encode_decode bs x hdecode).2, fun hencode => h.decode_encode x bs trivial hencode⟩

/-! ## Fields -/

section
variable {input rest : Bytes}

theorem Lib.Reader.Spells.iff {α : Type} {r : PayloadReader α} {enc : α → Bytes} {P : α → Prop} {a : α}
    (h : Spells r enc P) (hreads : P a → Reads r (enc a) a) :
    r input = .ok (a, rest) ↔ input = enc a ++ rest ∧ P a := by
  constructor
  · exact h input a rest
  · rintro ⟨rfl, ha⟩
    exact hreads ha rest

theorem readInteger_ok {n x : ℕ} : readInteger n input = .ok (x, rest) ↔ input = beBytes n x ++ rest ∧ x < 256 ^ n :=
  Spells.iff (.word _ n) fun h => .word _ h

theorem readArray_ok {w : ℕ} (hw : w = 8 * (w / 8)) {x : BitVec w} :
    readArray w input = .ok (x, rest) ↔ input = arrayBytes x ++ rest :=
  (Spells.iff (spells_fixed truncated hw) fun _ => reads_fixed truncated hw x).trans (and_iff_left trivial)

theorem array96_ok {x : BitVec 96} : readArray 96 input = .ok (x, rest) ↔ input = arrayBytes x ++ rest := readArray_ok rfl

theorem array128_ok {x : BitVec 128} : readArray 128 input = .ok (x, rest) ↔ input = arrayBytes x ++ rest := readArray_ok rfl

theorem array256_ok {x : BitVec 256} : readArray 256 input = .ok (x, rest) ↔ input = arrayBytes x ++ rest := readArray_ok rfl

theorem array512_ok {x : BitVec 512} : readArray 512 input = .ok (x, rest) ↔ input = arrayBytes x ++ rest := readArray_ok rfl

theorem name_ok {t : Text} : name input = .ok (t, rest) ↔ input = nameBytes t ++ rest ∧ t.length < 256 ^ 2 := by
  constructor
  · intro h
    obtain ⟨size, mid, hsize, h⟩ := run_bind_ok.1 h
    have hbytes := Spells.bytes truncated size mid t rest h
    obtain ⟨hsplit, hlt⟩ := readInteger_ok.1 hsize
    refine ⟨?_, hbytes.2.trans_lt hlt⟩
    rw [hsplit, hbytes.1, ← hbytes.2, nameBytes, List.append_assoc]
    rfl
  · rintro ⟨rfl, hlt⟩
    exact (Reads.word truncated hlt).bind (.bytes truncated rfl) rest

theorem known_ok {α : Type} {value : Option α} {e : Exn} {a : α} :
    known value e input = .ok (a, rest) ↔ value = some a ∧ input = rest := by
  cases value <;> simp [known]

theorem finished_ok {u : Unit} : requireFinished input = .ok (u, rest) ↔ input = [] ∧ rest = [] := run_finish_ok

theorem parse_eq_ok {α : Type} {r : PayloadReader α} {a : α} : r.parse input = .ok a ↔ ∃ rest, r input = .ok (a, rest) := by
  simp only [parse, bind_eq_ok, Except.ok.injEq]
  exact ⟨fun ⟨⟨_, rest⟩, h, h'⟩ => ⟨rest, h' ▸ h⟩, fun ⟨rest, h⟩ => ⟨⟨a, rest⟩, h, rfl⟩⟩

end

theorem length_of_validNetworkName {t : Text} (h : validNetworkName t = true) : t.length < 256 ^ 2 := by
  simp only [validNetworkName, Bool.and_eq_true] at h
  have hle : t.length ≤ 128 := of_decide_eq_true h.1.2
  exact hle.trans_lt (by norm_num)

/-- A decoder is given by what its reader takes. -/
theorem Inverse.of_reader {α : Type} {typed : α → Prop} (good : α → Prop) (enc : α → Bytes)
    {encode : α → Except Exn Bytes} {r : PayloadReader α}
    (hencode : ∀ x bs, encode x = .ok bs ↔ good x ∧ enc x = bs)
    (hread : ∀ x payload rest, r payload = .ok (x, rest) ↔ (typed x ∧ good x) ∧ payload = enc x ∧ rest = []) :
    Inverse typed encode r.parse := by
  constructor
  · intro x bs htyped h
    obtain ⟨hgood, rfl⟩ := (hencode x bs).1 h
    exact parse_eq_ok.2 ⟨[], (hread x _ _).2 ⟨⟨htyped, hgood⟩, rfl, rfl⟩⟩
  · intro bs x h
    obtain ⟨rest, h⟩ := parse_eq_ok.1 h
    obtain ⟨⟨htyped, hgood⟩, rfl, -⟩ := (hread x _ _).1 h
    exact ⟨htyped, (hencode x _).2 ⟨hgood, rfl⟩⟩

/-- The size of the payload is the size of every encoding. -/
theorem Inverse.sized {α : Type} {typed : α → Prop} {encode : α → Except Exn Bytes} {r : PayloadReader α} {size : ℕ}
    (h : Inverse typed encode r.parse) (hsize : ∀ x bs, encode x = .ok bs → bs.length = size) (e : Exn) :
    Inverse typed encode (decodeSized size e r) := by
  constructor
  · intro x bs htyped hx
    rw [decodeSized, check_of (hsize x bs hx), ok_bind]
    exact h.decode_encode x bs htyped hx
  · intro bs x hbs
    simp only [decodeSized, bind_eq_ok, check_eq_ok, exists_const] at hbs
    exact h.encode_decode bs x hbs.2

/-! ## Requests -/

theorem create_request_inverse : Inverse (fun _ => True) encodeNetworkCreateRequest decodeNetworkCreateRequest := by
  refine .of_reader (fun q => validNetworkName q.name = true) (fun q => nameBytes q.name) ?_ ?_
  · intro q bs
    simp only [encodeNetworkCreateRequest, requireCreateRequest, bind_eq_ok, check_eq_ok, exists_const, Except.ok.injEq]
  · rintro ⟨t⟩ payload rest
    simp only [readCreateRequest, run_bind_ok, name_ok, finished_ok, run_require_ok, run_pure_ok]
    constructor
    · rintro ⟨t', _, ⟨rfl, -⟩, _, _, ⟨rfl, rfl⟩, _, _, ⟨hvalid, rfl⟩, ⟨⟩, rfl⟩
      exact ⟨⟨trivial, hvalid⟩, List.append_nil _, rfl⟩
    · rintro ⟨⟨-, hvalid⟩, rfl, rfl⟩
      have hlength := length_of_validNetworkName hvalid
      exact ⟨t, [], ⟨(List.append_nil _).symm, hlength⟩, (), [], ⟨rfl, rfl⟩, (), [], ⟨hvalid, rfl⟩, rfl, rfl⟩

theorem selection_request_inverse :
    Inverse (fun _ => True) encodeNetworkSelectionRequest decodeNetworkSelectionRequest := by
  refine .sized (.of_reader (fun q => q.networkId ≠ 0) (fun q => arrayBytes q.networkId) ?_ ?_) ?_ _
  · intro q bs
    simp only [encodeNetworkSelectionRequest, requireSelectionRequest, bind_eq_ok, check_eq_ok, exists_const,
      Except.ok.injEq]
  · rintro ⟨n⟩ payload rest
    simp only [readSelectionRequest, run_bind_ok, array128_ok, finished_ok, run_require_ok, run_pure_ok]
    constructor
    · rintro ⟨n', _, rfl, _, _, ⟨rfl, rfl⟩, _, _, ⟨hn, rfl⟩, ⟨⟩, rfl⟩
      exact ⟨⟨trivial, hn⟩, List.append_nil _, rfl⟩
    · rintro ⟨⟨-, hn⟩, rfl, rfl⟩
      exact ⟨n, [], (List.append_nil _).symm, (), [], ⟨rfl, rfl⟩, (), [], ⟨hn, rfl⟩, rfl, rfl⟩
  · intro q bs h
    simp only [encodeNetworkSelectionRequest, bind_eq_ok, Except.ok.injEq] at h
    obtain ⟨-, -, rfl⟩ := h
    exact length_arrayBytes _

theorem member_request_inverse : Inverse (fun _ => True) encodeNetworkMemberRequest decodeNetworkMemberRequest := by
  refine .sized (.of_reader (fun q => q.networkId ≠ 0 ∧ q.deviceId ≠ 0)
    (fun q => arrayBytes q.networkId ++ arrayBytes q.deviceId) ?_ ?_) ?_ _
  · intro q bs
    simp only [encodeNetworkMemberRequest, requireMemberRequest, bind_eq_ok, check_eq_ok, exists_const,
      Except.ok.injEq]
  · rintro ⟨n, d⟩ payload rest
    simp only [readMemberRequest, run_bind_ok, array128_ok, array256_ok, finished_ok, run_require_ok, run_pure_ok]
    constructor
    · rintro ⟨n', _, rfl, d', _, rfl, _, _, ⟨rfl, rfl⟩, _, _, ⟨hn, rfl⟩, _, _, ⟨hd, rfl⟩, ⟨⟩, rfl⟩
      exact ⟨⟨trivial, hn, hd⟩, by rw [List.append_nil], rfl⟩
    · rintro ⟨⟨-, hn, hd⟩, rfl, rfl⟩
      exact ⟨n, _, rfl, d, [], (List.append_nil _).symm, (), [], ⟨rfl, rfl⟩, (), [], ⟨hn, rfl⟩, (), [], ⟨hd, rfl⟩, rfl, rfl⟩
  · intro q bs h
    simp only [encodeNetworkMemberRequest, bind_eq_ok, Except.ok.injEq] at h
    obtain ⟨-, -, rfl⟩ := h
    rw [List.length_append, length_arrayBytes, length_arrayBytes]
    rfl

/-! ## Results and events -/

theorem operationOfCode_eq {c : ℕ} {o : NetworkOperation} : operationOfCode c = some o ↔ c = o.code := by
  constructor
  · intro h
    unfold operationOfCode at h
    split at h <;> cases h <;> rfl
  · rintro rfl
    cases o <;> rfl

theorem resultOfCode_eq {c : ℕ} {r : NetworkResultCode} : resultOfCode c = some r ↔ c = r.code := by
  constructor
  · intro h
    unfold resultOfCode at h
    split at h <;> cases h <;> rfl
  · rintro rfl
    cases r <;> rfl

theorem eventKindOfCode_eq {c : ℕ} {k : NetworkEventKind} : eventKindOfCode c = some k ↔ c = k.code := by
  constructor
  · intro h
    unfold eventKindOfCode at h
    split at h <;> cases h <;> rfl
  · rintro rfl
    cases k <;> rfl

theorem ownerOfCode_eq {c : ℕ} {owner : Bool} : ownerOfCode c = some owner ↔ c = roleCode owner := by
  constructor
  · intro h
    unfold ownerOfCode at h
    split at h <;> cases h <;> rfl
  · rintro rfl
    cases owner <;> rfl

/-- What both validators of an operation result ask for. -/
def validResult (r : NetworkOperationResult) : Prop :=
  (r.code = .pendingApproval → r.operation = .join) ∧
    (if r.operation = .list ∨ (r.operation = .create ∧ r.code ≠ .success) then r.networkId = 0 else r.networkId ≠ 0)

theorem requireOperationResult_ok {r : NetworkOperationResult} {u : Unit} :
    requireOperationResult r = .ok u ↔ validResult r := by
  unfold requireOperationResult validResult
  by_cases hlist : r.operation = .list <;> by_cases hcreate : r.operation = .create ∧ r.code ≠ .success <;>
    simp [hlist, hcreate]

theorem validateResultForDecode_ok {r : NetworkOperationResult} {input rest : Bytes} {u : Unit} :
    validateResultForDecode r input = .ok (u, rest) ↔ validResult r ∧ input = rest := by
  unfold validateResultForDecode validResult
  simp only [run_bind_ok, run_require_ok]
  by_cases hlist : r.operation = .list
  · simp [hlist, run_require_ok, and_assoc]
  by_cases hcreate : r.operation = .create ∧ r.code ≠ .success
  · simp [hcreate, run_require_ok, and_assoc]
  · simp only [hlist, hcreate, if_false, or_self, run_require_ok]
    simp [and_assoc]

def resultBytes (r : NetworkOperationResult) : Bytes :=
  beBytes 1 r.operation.code ++ beBytes 2 r.code.code ++ arrayBytes r.networkId

theorem operation_result_inverse :
    Inverse (fun _ => True) encodeNetworkOperationResult decodeNetworkOperationResult := by
  have hoperation (o : NetworkOperation) : o.code < 256 ^ 1 := by cases o <;> decide
  have hcode (c : NetworkResultCode) : c.code < 256 ^ 2 := by cases c <;> decide
  refine .sized (.of_reader validResult resultBytes ?_ ?_) ?_ _
  · intro r bs
    simp only [encodeNetworkOperationResult, bind_eq_ok, requireOperationResult_ok, exists_const, Except.ok.injEq,
      resultBytes]
  · rintro ⟨o, c, n⟩ payload rest
    simp only [readOperationResult, run_bind_ok, readInteger_ok, array128_ok, finished_ok, known_ok, operationOfCode_eq,
      resultOfCode_eq, validateResultForDecode_ok, run_pure_ok]
    constructor
    · rintro ⟨_, _, ⟨rfl, -⟩, _, _, ⟨rfl, -⟩, n', _, rfl, _, _, ⟨rfl, rfl⟩, o', _, ⟨rfl, rfl⟩, c', _, ⟨rfl, rfl⟩, _, _,
        ⟨hvalid, rfl⟩, ⟨⟩, rfl⟩
      exact ⟨⟨trivial, hvalid⟩, by simp only [resultBytes, List.append_nil, List.append_assoc], rfl⟩
    · rintro ⟨⟨-, hvalid⟩, rfl, rfl⟩
      exact ⟨_, _, ⟨List.append_assoc _ _ _, hoperation o⟩, _, _, ⟨rfl, hcode c⟩, n, [], (List.append_nil _).symm, (), [],
        ⟨rfl, rfl⟩, o, [], ⟨rfl, rfl⟩, c, [], ⟨rfl, rfl⟩, (), [], ⟨hvalid, rfl⟩, rfl, rfl⟩
  · intro r bs h
    simp only [encodeNetworkOperationResult, bind_eq_ok, Except.ok.injEq] at h
    obtain ⟨-, -, rfl⟩ := h
    simp only [List.length_append, length_arrayBytes, beBytes_length]
    rfl

theorem event_inverse : Inverse (fun _ => True) encodeNetworkEvent decodeNetworkEvent := by
  have hkind (k : NetworkEventKind) : k.code < 256 ^ 1 := by cases k <;> decide
  refine .sized (.of_reader (fun e => e.networkId ≠ 0 ∧ e.deviceId ≠ 0)
    (fun e => beBytes 1 e.kind.code ++ arrayBytes e.networkId ++ arrayBytes e.deviceId) ?_ ?_) ?_ _
  · intro e bs
    simp only [encodeNetworkEvent, requireEvent, bind_eq_ok, check_eq_ok, exists_const, Except.ok.injEq]
  · rintro ⟨k, n, d⟩ payload rest
    simp only [readEvent, run_bind_ok, readInteger_ok, array128_ok, array256_ok, finished_ok, known_ok,
      eventKindOfCode_eq, run_require_ok, run_pure_ok]
    constructor
    · rintro ⟨_, _, ⟨rfl, -⟩, n', _, rfl, d', _, rfl, _, _, ⟨rfl, rfl⟩, k', _, ⟨rfl, rfl⟩, _, _, ⟨hn, rfl⟩, _, _,
        ⟨hd, rfl⟩, ⟨⟩, rfl⟩
      exact ⟨⟨trivial, hn, hd⟩, by simp only [List.append_nil, List.append_assoc], rfl⟩
    · rintro ⟨⟨-, hn, hd⟩, rfl, rfl⟩
      exact ⟨_, _, ⟨List.append_assoc _ _ _, hkind k⟩, n, _, rfl, d, [], (List.append_nil _).symm, (), [], ⟨rfl, rfl⟩, k,
        [], ⟨rfl, rfl⟩, (), [], ⟨hn, rfl⟩, (), [], ⟨hd, rfl⟩, rfl, rfl⟩
  · intro e bs h
    simp only [encodeNetworkEvent, bind_eq_ok, Except.ok.injEq] at h
    obtain ⟨-, -, rfl⟩ := h
    simp only [List.length_append, length_arrayBytes, beBytes_length]
    rfl

/-! ## Network lists -/

/-- What both validators of a summary ask for. -/
def validSummary (s : NetworkSummary) : Prop :=
  s.networkId ≠ 0 ∧ s.ownerDeviceId ≠ 0 ∧ 0 ≤ s.createdAtMs ∧ s.memberCount ≠ 0 ∧ validNetworkName s.name = true

theorem requireSummary_ok {s : NetworkSummary} {u : Unit} : requireSummary s = .ok u ↔ validSummary s := by
  simp only [requireSummary, bind_eq_ok, check_eq_ok, exists_const, validSummary]

theorem readSummary_ok {s : NetworkSummary} {input rest : Bytes} :
    readSummary input = .ok (s, rest) ↔ input = summaryBytes s ++ rest ∧ s.Typed ∧ validSummary s := by
  obtain ⟨n, d, owner, createdAtMs, memberCount, t⟩ := s
  simp only [readSummary, run_bind_ok, readInteger_ok, array128_ok, array256_ok, name_ok, known_ok, ownerOfCode_eq,
    run_require_ok, run_pure_ok]
  constructor
  · rintro ⟨n', _, rfl, d', _, rfl, _, _, ⟨rfl, -⟩, timestamp, _, ⟨rfl, -⟩, _, _, ⟨htime, rfl⟩, count, _, ⟨rfl, hcount⟩,
      t', _, ⟨rfl, -⟩, _, _, ⟨hn, rfl⟩, _, _, ⟨hd, rfl⟩, owner', _, ⟨rfl, rfl⟩, _, _, ⟨⟨hpositive, hname⟩, rfl⟩, ⟨⟩, rfl⟩
    refine ⟨?_, ⟨?_, hcount⟩, hn, hd, Int.natCast_nonneg _, hpositive, hname⟩
    · simp only [summaryBytes, Int.toNat_natCast, List.append_assoc]
    · dsimp only
      omega
  · rintro ⟨rfl, ⟨htime, hcount⟩, hn, hd, hnonneg, hpositive, hname⟩
    obtain ⟨timestamp, rfl⟩ := Int.eq_ofNat_of_zero_le hnonneg
    have hrole : roleCode owner < 256 ^ 1 := by cases owner <;> decide
    dsimp only at htime hcount hn hd hpositive hname
    refine ⟨n, _, ?_, d, _, rfl, _, _, ⟨rfl, hrole⟩, timestamp, _, ⟨rfl, by omega⟩, (), _, ⟨by omega, rfl⟩, memberCount, _,
      ⟨rfl, hcount⟩, t, rest, ⟨rfl, length_of_validNetworkName hname⟩, (), _, ⟨hn, rfl⟩, (), _, ⟨hd, rfl⟩, owner, _,
      ⟨rfl, rfl⟩, (), _, ⟨⟨hpositive, hname⟩, rfl⟩, rfl, rfl⟩
    simp only [summaryBytes, Int.toNat_natCast, List.append_assoc]

/-- Summaries one after the other, none under an id seen before. -/
def validSummaries (ids : List NetworkId) : List NetworkSummary → Prop
  | [] => True
  | s :: summaries => s.networkId ∉ ids ∧ validSummary s ∧ validSummaries (s.networkId :: ids) summaries

theorem requireSummaries_ok {networks : List NetworkSummary} {ids : List NetworkId} {u : Unit} :
    requireSummaries ids networks = .ok u ↔ validSummaries ids networks := by
  induction networks generalizing ids with
  | nil => simp [requireSummaries, validSummaries]
  | cons s networks ih =>
    simp only [requireSummaries, bind_eq_ok, check_eq_ok, requireSummary_ok, exists_const, ih, validSummaries]

theorem readSummaries_ok {count : ℕ} {ids : List NetworkId} {networks : List NetworkSummary} {input rest : Bytes} :
    readSummaries ids count input = .ok (networks, rest) ↔
      input = networks.flatMap summaryBytes ++ rest ∧ networks.length = count ∧ (∀ s ∈ networks, s.Typed) ∧
        validSummaries ids networks := by
  induction count generalizing ids networks input rest with
  | zero =>
    rw [readSummaries, run_pure_ok]
    constructor
    · rintro ⟨rfl, rfl⟩
      exact ⟨rfl, rfl, by simp, trivial⟩
    · rintro ⟨hinput, hlength, -, -⟩
      obtain rfl := List.eq_nil_of_length_eq_zero hlength
      exact ⟨rfl, hinput⟩
  | succ count ih =>
    simp only [readSummaries, run_bind_ok, readSummary_ok, run_require_ok, run_pure_ok, ih]
    constructor
    · rintro ⟨s, _, ⟨rfl, htyped, hvalid⟩, _, _, ⟨hfresh, rfl⟩, summaries, _, ⟨rfl, rfl, htypeds, hvalids⟩, rfl, rfl⟩
      refine ⟨by simp, rfl, by simpa using ⟨htyped, htypeds⟩, by simpa using hfresh, hvalid, hvalids⟩
    · rintro ⟨rfl, hlength, htyped, hvalid⟩
      cases networks with
      | nil => cases hlength
      | cons s summaries =>
        obtain ⟨hfresh, hvalid, hvalids⟩ := hvalid
        exact ⟨s, _, ⟨by simp, htyped s (by simp), hvalid⟩, (), _, ⟨by simpa using hfresh, rfl⟩, summaries, rest,
          ⟨rfl, Nat.succ.inj hlength, fun x hx => htyped x (by simp [hx]), hvalids⟩, rfl, rfl⟩

theorem list_result_inverse :
    Inverse (fun networks => ∀ s ∈ networks, s.Typed) encodeNetworkListResult decodeNetworkListResult := by
  refine .of_reader (fun networks => networks.length ≤ maxNetworkListEntries ∧ validSummaries [] networks)
    (fun networks => beBytes 2 networks.length ++ networks.flatMap summaryBytes) ?_ ?_
  · intro networks bs
    simp only [encodeNetworkListResult, requireListResult, bind_eq_ok, check_eq_ok, requireSummaries_ok, exists_const,
      Except.ok.injEq]
  · intro networks payload rest
    simp only [readListResult, run_bind_ok, readInteger_ok, readSummaries_ok, finished_ok, run_require_ok, run_pure_ok]
    constructor
    · rintro ⟨_, _, ⟨rfl, -⟩, _, _, ⟨hcount, rfl⟩, networks', _, ⟨rfl, rfl, htyped, hvalid⟩, _, _, ⟨rfl, rfl⟩, rfl, rfl⟩
      exact ⟨⟨htyped, hcount, hvalid⟩, by rw [List.append_nil], rfl⟩
    · rintro ⟨⟨htyped, hcount, hvalid⟩, rfl, rfl⟩
      have hlt : networks.length < 256 ^ 2 := hcount.trans_lt (by norm_num [maxNetworkListEntries])
      exact ⟨_, _, ⟨rfl, hlt⟩, (), _, ⟨hcount, rfl⟩, networks, [], ⟨(List.append_nil _).symm, rfl, htyped, hvalid⟩, (), [],
        ⟨rfl, rfl⟩, rfl, rfl⟩

/-! ## Peer states -/

theorem readSignedKey_ok {k : SignedDeviceKey} {input rest : Bytes} :
    readSignedKey input = .ok (k, rest) ↔ input = signedKeyBytes k ++ rest := by
  obtain ⟨k₁, k₂, k₃, k₄, k₅⟩ := k
  simp only [readSignedKey, run_bind_ok, array256_ok, array512_ok, run_pure_ok]
  constructor
  · rintro ⟨_, _, rfl, _, _, rfl, _, _, rfl, _, _, rfl, _, _, rfl, ⟨⟩, rfl⟩
    simp only [signedKeyBytes, List.append_assoc]
  · rintro rfl
    refine ⟨k₁, _, ?_, k₂, _, rfl, k₃, _, rfl, k₄, _, rfl, k₅, rest, rfl, rfl, rfl⟩
    simp only [signedKeyBytes, List.append_assoc]

theorem readOptionalKey_ok {k : Option SignedDeviceKey} {input rest : Bytes} :
    readOptionalKey input = .ok (k, rest) ↔ input = optionalKeyBytes k ++ rest := by
  simp only [readOptionalKey, run_bind_ok, readInteger_ok, run_require_ok]
  constructor
  · rintro ⟨flag, _, ⟨rfl, -⟩, _, _, ⟨hle, rfl⟩, hread⟩
    rcases Nat.le_one_iff_eq_zero_or_eq_one.1 hle with rfl | rfl
    · rw [if_neg (by norm_num), run_pure_ok] at hread
      obtain ⟨rfl, rfl⟩ := hread
      rfl
    · rw [if_pos rfl] at hread
      simp only [run_bind_ok, readSignedKey_ok, run_pure_ok] at hread
      obtain ⟨key, _, rfl, rfl, rfl⟩ := hread
      rw [optionalKeyBytes, List.append_assoc]
  · rintro rfl
    cases k with
    | none =>
      refine ⟨0, rest, ⟨rfl, by norm_num⟩, (), rest, ⟨by norm_num, rfl⟩, ?_⟩
      rw [if_neg (by norm_num), run_pure_ok]
      exact ⟨rfl, rfl⟩
    | some key =>
      refine ⟨1, signedKeyBytes key ++ rest, ⟨?_, by norm_num⟩, (), _, ⟨le_rfl, rfl⟩, ?_⟩
      · rw [optionalKeyBytes, List.append_assoc]
      · rw [if_pos rfl]
        simp only [run_bind_ok, readSignedKey_ok, run_pure_ok]
        exact ⟨key, rest, rfl, rfl, rfl⟩

theorem toNat_uint8 {x : ℕ} (h : x < 256 ^ 1) : (UInt8.ofNat x).toNat = x := UInt8.toNat_ofNat_of_lt h

theorem toNat_uint32 {x : ℕ} (h : x < 256 ^ 4) : (UInt32.ofNat x).toNat = x := UInt32.toNat_ofNat_of_lt h

theorem toNat_uint64 {x : ℕ} (h : x < 256 ^ 8) : (UInt64.ofNat x).toNat = x := UInt64.toNat_ofNat_of_lt h

theorem readPeer_ok {p : NetworkPeer} {input rest : Bytes} :
    readPeer input = .ok (p, rest) ↔ input = peerBytes p ++ rest := by
  obtain ⟨d, a, k⟩ := p
  simp only [readPeer, run_bind_ok, array256_ok, readInteger_ok, readOptionalKey_ok, run_pure_ok]
  constructor
  · rintro ⟨_, _, rfl, x, _, ⟨rfl, hlt⟩, _, _, rfl, ⟨⟩, rfl⟩
    simp only [peerBytes, toNat_uint32 hlt, List.append_assoc]
  · rintro rfl
    refine ⟨d, _, ?_, a.toNat, _, ⟨rfl, a.toNat_lt⟩, k, rest, rfl, by rw [UInt32.ofNat_toNat], rfl⟩
    simp only [peerBytes, List.append_assoc]

theorem many_ok {α : Type} {r : PayloadReader α} {enc : α → Bytes}
    (h : ∀ a input rest, r input = .ok (a, rest) ↔ input = enc a ++ rest) {count : ℕ} {l : List α} {input rest : Bytes} :
    many r count input = .ok (l, rest) ↔ input = l.flatMap enc ++ rest ∧ l.length = count := by
  have hspells : Spells r enc fun _ => True := fun input a rest hread => ⟨(h a input rest).1 hread, trivial⟩
  constructor
  · intro hread
    obtain ⟨hinput, hlength, -⟩ := hspells.many count input l rest hread
    exact ⟨hinput, hlength⟩
  · rintro ⟨rfl, rfl⟩
    have hreads : Reads (many r l.length) (l.flatMap enc) (l.map id) := .many fun a _ rest => (h a _ rest).2 rfl
    rw [List.map_id] at hreads
    exact hreads rest

/-- The fixed part of a peer state. -/
theorem readPeerState_ok {s : NetworkPeerState} {input rest : Bytes} :
    readPeerState input = .ok (s, rest) ↔
      input = peerStateBytes s ++ rest ∧ s.peers.length ≤ maxNetworkPeerEntries ∧ s.policy = none := by
  obtain ⟨n, revision, subnet, length, own, peers, owner, epoch, policy⟩ := s
  simp only [readPeerState, run_bind_ok, array128_ok, array256_ok, readInteger_ok, many_ok @readPeer_ok, run_require_ok,
    run_pure_ok]
  constructor
  · rintro ⟨_, _, rfl, x₁, _, ⟨rfl, h₁⟩, x₂, _, ⟨rfl, h₂⟩, x₃, _, ⟨rfl, h₃⟩, x₄, _, ⟨rfl, h₄⟩, _, _, ⟨rfl, -⟩, _, _,
      ⟨hcount, rfl⟩, _, _, ⟨rfl, rfl⟩, _, _, rfl, x₅, _, ⟨rfl, h₅⟩, ⟨⟩, rfl⟩
    refine ⟨?_, hcount, rfl⟩
    simp only [peerStateBytes, toNat_uint64 h₁, toNat_uint32 h₂, toNat_uint8 h₃, toNat_uint32 h₄, toNat_uint64 h₅, List.append_assoc]
  · rintro ⟨rfl, hcount, rfl⟩
    have hlt : peers.length < 256 ^ 2 := hcount.trans_lt (by norm_num [maxNetworkPeerEntries])
    refine ⟨n, _, ?_, revision.toNat, _, ⟨rfl, revision.toNat_lt⟩, subnet.toNat, _, ⟨rfl, subnet.toNat_lt⟩, length.toNat, _,
      ⟨rfl, length.toNat_lt⟩, own.toNat, _, ⟨rfl, own.toNat_lt⟩, peers.length, _, ⟨rfl, hlt⟩, (), _, ⟨hcount, rfl⟩, peers, _,
      ⟨rfl, rfl⟩, owner, _, rfl, epoch.toNat, rest, ⟨rfl, epoch.toNat_lt⟩, ?_, rfl⟩
    · simp only [peerStateBytes, List.append_assoc]
    · simp only [UInt64.ofNat_toNat, UInt32.ofNat_toNat, UInt8.ofNat_toNat]

/-- The policy is there exactly when bytes are left. -/
theorem peer_state_inverse : Inverse (fun _ => True) encodeNetworkPeerState decodeNetworkPeerState := by
  have hpeers {s : NetworkPeerState} (h : validPeerState s = true) : s.peers.length ≤ maxNetworkPeerEntries := by
    simp only [validPeerState, Bool.and_eq_true, decide_eq_true_eq] at h
    exact h.1.1.1.2
  constructor
  · intro s bs _ h
    simp only [encodeNetworkPeerState, bind_eq_ok, check_eq_ok, exists_const] at h
    obtain ⟨hvalid, h⟩ := h
    cases hpolicy : s.policy with
    | none =>
      rw [hpolicy] at h
      cases h
      have hread : readPeerState (peerStateBytes s) = .ok (s, []) :=
        readPeerState_ok.2 ⟨(List.append_nil _).symm, hpeers hvalid, hpolicy⟩
      rw [decodeNetworkPeerState, hread, ok_bind]
      dsimp only
      rw [withPolicy, if_neg (not_not.2 rfl), ok_bind, check_of hvalid, ok_bind]
    | some policy =>
      rw [hpolicy] at h
      simp only [encodeNetworkPolicy, bind_eq_ok, check_eq_ok, exists_const, Except.ok.injEq] at h
      obtain ⟨extension, ⟨hencodable, rfl⟩, rfl⟩ := h
      have hread : readPeerState (peerStateBytes s ++ policyBytes policy) =
          .ok ({ s with policy := none }, policyBytes policy) := readPeerState_ok.2 ⟨rfl, hpeers hvalid, rfl⟩
      have hne : policyBytes policy ≠ [] := by
        intro hnil
        have hlength := congrArg List.length hnil
        simp [policyBytes] at hlength
      have hsame : { { s with policy := none } with policy := some policy } = s := by rw [← hpolicy]
      rw [decodeNetworkPeerState, hread, ok_bind]
      dsimp only
      rw [withPolicy, if_pos hne, decode_policyBytes hencodable, ok_bind, ok_bind, hsame, check_of hvalid, ok_bind]
  · intro bs s h
    refine ⟨trivial, ?_⟩
    simp only [decodeNetworkPeerState, bind_eq_ok, check_eq_ok, exists_const, Except.ok.injEq] at h
    obtain ⟨⟨fixed, remaining⟩, hread, state, hstate, hvalid, rfl⟩ := h
    obtain ⟨rfl, -, hnone⟩ := readPeerState_ok.1 hread
    by_cases hempty : remaining = []
    · subst hempty
      rw [withPolicy, if_neg (not_not.2 rfl)] at hstate
      cases hstate
      rw [encodeNetworkPeerState, check_of hvalid, ok_bind, hnone, List.append_nil]
    · rw [withPolicy, if_pos hempty, bind_eq_ok] at hstate
      obtain ⟨policy, hpolicy, hstate⟩ := hstate
      cases hstate
      obtain ⟨hencodable, rfl⟩ := policyBytes_of_decode hpolicy
      rw [encodeNetworkPeerState, check_of hvalid, ok_bind]
      dsimp only
      rw [encodeNetworkPolicy, check_of hencodable, ok_bind, ok_bind]
      rfl

theorem peer_revocation_inverse :
    Inverse (fun _ => True) encodeNetworkPeerRevocation decodeNetworkPeerRevocation := by
  refine .of_reader (fun r => r.networkId ≠ 0) (fun r => arrayBytes r.networkId ++ beBytes 8 r.revision.toNat) ?_ ?_
  · intro r bs
    simp only [encodeNetworkPeerRevocation, requirePeerRevocation, bind_eq_ok, check_eq_ok, exists_const,
      Except.ok.injEq]
  · rintro ⟨n, revision⟩ payload rest
    simp only [readPeerRevocation, run_bind_ok, array128_ok, readInteger_ok, finished_ok, run_require_ok, run_pure_ok]
    constructor
    · rintro ⟨n', _, rfl, x, _, ⟨rfl, hlt⟩, _, _, ⟨rfl, rfl⟩, _, _, ⟨hn, rfl⟩, ⟨⟩, rfl⟩
      exact ⟨⟨trivial, hn⟩, by simp only [toNat_uint64 hlt, List.append_nil], rfl⟩
    · rintro ⟨⟨-, hn⟩, rfl, rfl⟩
      exact ⟨n, _, rfl, revision.toNat, [], ⟨(List.append_nil _).symm, revision.toNat_lt⟩, (), [], ⟨rfl, rfl⟩, (), [],
        ⟨hn, rfl⟩, by rw [UInt64.ofNat_toNat], rfl⟩

/-! ## Network keys -/

theorem length_envelopeBytes (e : NetworkKeyEnvelope) : (envelopeBytes e).length = keyEnvelopeSize := by
  simp only [envelopeBytes, List.length_append, length_arrayBytes, beBytes_length]
  rfl

theorem requireKeyEnvelope_ok {e : NetworkKeyEnvelope} {u : Unit} :
    requireKeyEnvelope e = .ok u ↔ validKeyEnvelope e = true := check_eq_ok

theorem encodeNetworkKeyEnvelope_ok {e : NetworkKeyEnvelope} {bs : Bytes} :
    encodeNetworkKeyEnvelope e = .ok bs ↔ validKeyEnvelope e = true ∧ envelopeBytes e = bs := by
  simp only [encodeNetworkKeyEnvelope, bind_eq_ok, requireKeyEnvelope_ok, exists_const, Except.ok.injEq]

theorem key_envelope_inverse : Inverse (fun _ => True) encodeNetworkKeyEnvelope decodeNetworkKeyEnvelope := by
  refine .sized (.of_reader (fun e => validKeyEnvelope e = true) envelopeBytes ?_ ?_) ?_ _
  · intro e bs
    exact encodeNetworkKeyEnvelope_ok
  · rintro ⟨n, epoch, d₁, d₂, k₁, k₂, nonce, ciphertext, tag, signature⟩ payload rest
    simp only [readKeyEnvelope, run_bind_ok, array96_ok, array128_ok, array256_ok, array512_ok, readInteger_ok,
      finished_ok, run_require_ok, run_pure_ok]
    constructor
    · rintro ⟨_, _, rfl, x, _, ⟨rfl, hlt⟩, _, _, rfl, _, _, rfl, _, _, rfl, _, _, rfl, _, _, rfl, _, _, rfl, _, _, rfl, _, _,
        rfl, _, _, ⟨rfl, rfl⟩, _, _, ⟨hvalid, rfl⟩, ⟨⟩, rfl⟩
      exact ⟨⟨trivial, hvalid⟩, by simp only [envelopeBytes, toNat_uint64 hlt, List.append_nil, List.append_assoc], rfl⟩
    · rintro ⟨⟨-, hvalid⟩, rfl, rfl⟩
      refine ⟨n, _, ?_, epoch.toNat, _, ⟨rfl, epoch.toNat_lt⟩, d₁, _, rfl, d₂, _, rfl, k₁, _, rfl, k₂, _, rfl, nonce, _, rfl,
        ciphertext, _, rfl, tag, _, rfl, signature, [], (List.append_nil _).symm, (), [], ⟨rfl, rfl⟩, (), [], ⟨?_, rfl⟩, ?_,
        rfl⟩
      · simp only [envelopeBytes, List.append_assoc]
      · rw [UInt64.ofNat_toNat]
        exact hvalid
      · rw [UInt64.ofNat_toNat]
  · intro e bs h
    obtain ⟨-, rfl⟩ := encodeNetworkKeyEnvelope_ok.1 h
    exact length_envelopeBytes e

theorem decodeNetworkKeyEnvelope_ok {e : NetworkKeyEnvelope} {bs : Bytes} :
    decodeNetworkKeyEnvelope bs = .ok e ↔ bs = envelopeBytes e ∧ validKeyEnvelope e = true := by
  rw [key_envelope_inverse.iff, encodeNetworkKeyEnvelope_ok, and_comm, eq_comm]

theorem decodeEnvelopes_eq (count : ℕ) (payload : Bytes) :
    decodeEnvelopes count payload = decodeChunks keyEnvelopeSize decodeNetworkKeyEnvelope count payload := by
  induction count generalizing payload with
  | zero => rfl
  | succ count ih => simp only [decodeEnvelopes, decodeChunks, ih]

theorem decodeEnvelopes_ok {count : ℕ} {payload : Bytes} {envelopes : List NetworkKeyEnvelope}
    (hlength : payload.length = count * keyEnvelopeSize) :
    decodeEnvelopes count payload = .ok envelopes ↔
      payload = envelopes.flatMap envelopeBytes ∧ envelopes.length = count ∧ ∀ e ∈ envelopes, validKeyEnvelope e = true := by
  rw [decodeEnvelopes_eq]
  exact decodeChunks_ok (fun _ _ => decodeNetworkKeyEnvelope_ok) length_envelopeBytes hlength

theorem requireEnvelopes_ok {envelopes : List NetworkKeyEnvelope} {u : Unit} :
    envelopes.forM requireKeyEnvelope = .ok u ↔ ∀ e ∈ envelopes, validKeyEnvelope e = true := by
  induction envelopes with
  | nil => simp [pure, Except.pure]
  | cons e envelopes ih =>
    rw [show (e :: envelopes).forM requireKeyEnvelope =
      (requireKeyEnvelope e >>= fun _ => envelopes.forM requireKeyEnvelope) from rfl, bind_eq_ok]
    simp only [requireKeyEnvelope_ok, exists_const, ih, List.mem_cons, forall_eq_or_imp]

theorem key_publish_request_inverse :
    Inverse (fun _ => True) encodeNetworkKeyPublishRequest decodeNetworkKeyPublishRequest := by
  constructor
  · intro envelopes bs _ h
    simp only [encodeNetworkKeyPublishRequest, bind_eq_ok, check_eq_ok, requireEnvelopes_ok, exists_const,
      Except.ok.injEq] at h
    obtain ⟨⟨hne, hcount⟩, hvalids, rfl⟩ := h
    have hlt : envelopes.length < 256 ^ 2 := hcount.trans_lt (by norm_num [maxNetworkPeerEntries])
    have hlength := length_chunks length_envelopeBytes envelopes
    have htake : (beBytes 2 envelopes.length ++ envelopes.flatMap envelopeBytes).take 2 = beBytes 2 envelopes.length :=
      List.take_left' (beBytes_length 2 _)
    have hdrop : (beBytes 2 envelopes.length ++ envelopes.flatMap envelopeBytes).drop 2 = envelopes.flatMap envelopeBytes :=
      List.drop_left' (beBytes_length 2 _)
    have hpositive : envelopes.length ≠ 0 := by simpa using hne
    have htotal : (beBytes 2 envelopes.length ++ envelopes.flatMap envelopeBytes).length =
        2 + envelopes.length * keyEnvelopeSize := by
      rw [List.length_append, beBytes_length, hlength]
    rw [decodeNetworkKeyPublishRequest, check_of (by rw [htotal]; omega), ok_bind]
    dsimp only
    rw [htake, hdrop, beNat_beBytes 2 _ hlt, check_of ⟨hpositive, hcount, htotal⟩, ok_bind]
    exact (decodeEnvelopes_ok hlength).2 ⟨rfl, rfl, hvalids⟩
  · intro bs envelopes h
    refine ⟨trivial, ?_⟩
    simp only [decodeNetworkKeyPublishRequest, bind_eq_ok, check_eq_ok, exists_const] at h
    obtain ⟨htwo, ⟨hpositive, hcount, hlength⟩, h⟩ := h
    have hdrop : (bs.drop 2).length = beNat (bs.take 2) * keyEnvelopeSize := by
      rw [List.length_drop, hlength, Nat.add_sub_cancel_left]
    obtain ⟨hrest, hsame, hvalids⟩ := (decodeEnvelopes_ok hdrop).1 h
    have hsize : (bs.take 2).length = 2 := List.length_take_of_le htwo
    have hfirst : beBytes 2 envelopes.length = bs.take 2 := by
      have hback := beBytes_beNat (bs.take 2)
      rwa [hsize, ← hsame] at hback
    have hne : envelopes ≠ [] := by
      rintro rfl
      exact hpositive hsame.symm
    rw [encodeNetworkKeyPublishRequest, check_of ⟨hne, hsame ▸ hcount⟩, ok_bind, requireEnvelopes_ok (u := ()) |>.2 hvalids, ok_bind,
      hfirst, ← hrest, List.take_append_drop]

/-! ## The ten codecs -/

/-- What the sender and the receiver of control payloads rely on. -/
structure PayloadCodecs : Prop where
  create_request : Inverse (fun _ => True) encodeNetworkCreateRequest decodeNetworkCreateRequest
  selection_request : Inverse (fun _ => True) encodeNetworkSelectionRequest decodeNetworkSelectionRequest
  member_request : Inverse (fun _ => True) encodeNetworkMemberRequest decodeNetworkMemberRequest
  operation_result : Inverse (fun _ => True) encodeNetworkOperationResult decodeNetworkOperationResult
  list_result : Inverse (fun networks => ∀ s ∈ networks, s.Typed) encodeNetworkListResult decodeNetworkListResult
  event : Inverse (fun _ => True) encodeNetworkEvent decodeNetworkEvent
  peer_state : Inverse (fun _ => True) encodeNetworkPeerState decodeNetworkPeerState
  peer_revocation : Inverse (fun _ => True) encodeNetworkPeerRevocation decodeNetworkPeerRevocation
  key_envelope : Inverse (fun _ => True) encodeNetworkKeyEnvelope decodeNetworkKeyEnvelope
  key_publish_request : Inverse (fun _ => True) encodeNetworkKeyPublishRequest decodeNetworkKeyPublishRequest
  /-- A policy is read exactly from the payloads that were written with one. -/
  peer_state_policy : ∀ sent received bs, encodeNetworkPeerState sent = .ok bs →
    decodeNetworkPeerState bs = .ok received → (received.policy = none ↔ sent.policy = none)

theorem payload_codecs : PayloadCodecs where
  create_request := create_request_inverse
  selection_request := selection_request_inverse
  member_request := member_request_inverse
  operation_result := operation_result_inverse
  list_result := list_result_inverse
  event := event_inverse
  peer_state := peer_state_inverse
  peer_revocation := peer_revocation_inverse
  key_envelope := key_envelope_inverse
  key_publish_request := key_publish_request_inverse
  peer_state_policy sent received bs hsent hreceived := by
    have hback := peer_state_inverse.decode_encode sent bs trivial hsent
    rw [hreceived] at hback
    cases hback
    rfl

end LanLink
