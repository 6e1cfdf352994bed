import LanLink.Lib.Prefixes
import LanLink.Lib.SpanReader
import LanLink.P2P.Candidates
/-!
# STUN responses

`parse_stun_binding_response` of `p2p/stun.cpp`: what a device takes from a
server that tells it its own address. The body is a sequence of attributes with
lengths of their own, which a loop reads while it counts how far it has come.
-/
open LanLink.Lib LanLink.Lib.Reader LanLink.Lib.SpanReader

namespace LanLink.P2P

abbrev StunTransaction := BitVec 96

namespace Stun

def cookie : UInt32 := 0x2112a442

/-! ## Reads -/

abbrev StunReader (α : Type) := Reader (Fault Exn) α

def invalid (text : String) : Fault Exn := .thrown (.invalidArgument text)

/-- What `BinaryReader` throws at the end of its input. -/
def truncated : Exn := .invalidArgument "truncated protocol payload"

def get8 : StunReader UInt8 := do
  let x ← word truncated 1
  pure (UInt8.ofNat x)

def get16 : StunReader UInt16 := do
  let x ← word truncated 2
  pure (UInt16.ofNat x)

def get32 : StunReader UInt32 := do
  let x ← word truncated 4
  pure (UInt32.ofNat x)

/-! ## The parser -/

/-- The value of an XOR-MAPPED-ADDRESS. -/
def readMapped : StunReader Endpoint := do
  let reserved ← get8
  Reader.require (reserved = 0) (invalid "unsupported STUN address family")
  let family ← get8
  Reader.require (family = 1) (invalid "unsupported STUN address family")
  let port ← get16
  let ipv4 ← get32
  let e : Endpoint := { ipv4 := ipv4 ^^^ cookie, port := (port.toUInt32 ^^^ (cookie >>> 16)).toUInt16 }
  Reader.require (usableEndpoint e true = true) (invalid "invalid STUN mapped endpoint")
  pure e

/-- What the loop does with an attribute. -/
def applyAttribute (mapped : Option Endpoint) (type length : UInt16) (value : Bytes) : Except (Fault Exn) (Option Endpoint) :=
  if type = 0x0020 then do
    check (¬ (mapped.isSome ∨ length ≠ 8)) (invalid "invalid XOR-MAPPED-ADDRESS")
    let e ← readMapped.parse value
    .ok (some e)
  else .ok mapped

/-- What the loop adds to its offset. -/
def stride (length : UInt16) : ℕ := (4 + ((length.toUInt32 + 3) &&& ~~~3)).toNat

/-- The bytes of padding after a value. -/
def padding (length : ℕ) : ℕ := (4 - length % 4) % 4

theorem stride_eq (length : UInt16) : stride length = 4 + (length.toNat + padding length.toNat) := by
  have hlt := length.toNat_lt
  have hround : ((length.toUInt32 + 3) &&& ~~~3).toNat = (length.toNat + 3) / 4 * 4 := by
    rw [UInt32.toNat_and, UInt32.toNat_add]
    change (length.toNat + 3) % 2 ^ 32 &&& (2 ^ 32 - 2 ^ 2) = _
    rw [Nat.mod_eq_of_lt (by omega), and_mask (by omega) (by omega)]
    rfl
  rw [stride, UInt32.toNat_add, hround, padding]
  change (4 + _) % 2 ^ 32 = _
  omega

/-- The loop over the attributes. -/
def readAttributes (size offset : ℕ) (mapped : Option Endpoint) : StunReader (Option Endpoint) :=
  if offset < size then do
    let type ← get16
    let length ← get16
    let value ← bytes truncated length.toNat
    let _ ← bytes truncated (padding length.toNat)
    let mapped ← StateT.lift (applyAttribute mapped type length value)
    readAttributes size (offset + stride length) mapped
  else pure mapped
termination_by size - offset
decreasing_by
  rw [stride_eq]
  omega

/-- The address, once the input is used up. -/
def mappedAddress : Option Endpoint → Except (Fault Exn) Endpoint
  | some e => .ok e
  | none => .error (invalid "missing XOR-MAPPED-ADDRESS")

def readResponse (size : ℕ) (t : StunTransaction) : StunReader Endpoint := do
  let type ← get16
  Reader.require (type = 0x0101) (invalid "not a STUN binding success")
  let length ← get16
  Reader.require (length % 4 = 0) (invalid "invalid STUN transaction")
  Reader.require (length.toNat = size - 20) (invalid "invalid STUN transaction")
  let magic ← get32
  Reader.require (magic = cookie) (invalid "invalid STUN transaction")
  let transaction ← bytes truncated 12
  Reader.require (transaction = arrayBytes t) (invalid "invalid STUN transaction")
  let mapped ← readAttributes size 20 none
  Reader.finish (invalid "trailing protocol payload")
  StateT.lift (mappedAddress mapped)

/-! ## Every read is inside -/

theorem inside_get8 : Inside get8 := (inside_word truncated 1).bind fun _ => inside_pure _

theorem inside_get16 : Inside get16 := (inside_word truncated 2).bind fun _ => inside_pure _

theorem inside_get32 : Inside get32 := (inside_word truncated 4).bind fun _ => inside_pure _

theorem inside_readMapped : Inside readMapped := by
  unfold readMapped
  refine inside_get8.bind fun _ => inside_require.bind fun _ => inside_get8.bind fun _ => inside_require.bind fun _ => ?_
  exact inside_get16.bind fun _ => inside_get32.bind fun _ => inside_require.bind fun _ => inside_pure _

theorem inBounds_applyAttribute (mapped : Option Endpoint) (type length : UInt16) (value : Bytes) :
    InBounds (applyAttribute mapped type length value) := by
  unfold applyAttribute
  split
  · apply InBounds.guard
    intro _
    exact (inside_readMapped.parse value).bind fun _ _ => inBounds_ok _
  · exact inBounds_ok _

theorem inside_readAttributes (size offset : ℕ) (mapped : Option Endpoint) : Inside (readAttributes size offset mapped) := by
  induction hn : size - offset using Nat.strong_induction_on generalizing offset mapped with
  | _ n ih =>
    rw [readAttributes]
    split
    · refine inside_get16.bind fun _ => inside_get16.bind fun length => (inside_bytes _ _).bind fun _ => (inside_bytes _ _).bind fun _ => ?_
      refine (inside_lift (inBounds_applyAttribute _ _ _ _)).bind fun mapped => ih _ ?_ _ _ rfl
      rw [stride_eq]
      omega
    · exact inside_pure _

theorem inBounds_mappedAddress : ∀ mapped, InBounds (mappedAddress mapped)
  | some _ => inBounds_ok _
  | none => inBounds_lift (.error _)

theorem inside_readResponse (size : ℕ) (t : StunTransaction) : Inside (readResponse size t) := by
  unfold readResponse
  refine inside_get16.bind fun _ => inside_require.bind fun _ => inside_get16.bind fun _ => inside_require.bind fun _ => ?_
  refine inside_require.bind fun _ => inside_get32.bind fun _ => inside_require.bind fun _ => ?_
  refine (inside_bytes _ _).bind fun _ => inside_require.bind fun _ => (inside_readAttributes _ _ _).bind fun mapped => ?_
  exact (inside_finish _).bind fun _ => inside_lift (inBounds_mappedAddress mapped)

/-! ## Attributes -/

/-- An attribute with the padding that fills it up to whole words. -/
structure Attribute where
  type : UInt16
  value : Bytes
  padding : Bytes
  value_lt : value.length < 2 ^ 16
  padding_length : padding.length = Stun.padding value.length

namespace Attribute

def length (a : Attribute) : UInt16 := UInt16.ofNat a.value.length

def bytes (a : Attribute) : Bytes := beBytes 2 a.type.toNat ++ (beBytes 2 a.length.toNat ++ (a.value ++ a.padding))

/-- What the loop does with it. -/
def apply (mapped : Option Endpoint) (a : Attribute) : Except (Fault Exn) (Option Endpoint) :=
  applyAttribute mapped a.type a.length a.value

@[simp] theorem toNat_length (a : Attribute) : a.length.toNat = a.value.length := UInt16.toNat_ofNat_of_lt' a.value_lt

theorem length_bytes (a : Attribute) : a.bytes.length = stride a.length := by
  rw [stride_eq, bytes]
  simp [a.padding_length]
  omega

theorem length_pos (a : Attribute) : 0 < a.bytes.length := by
  rw [length_bytes, stride_eq]
  omega

end Attribute

def bodyBytes (attributes : List Attribute) : Bytes := attributes.flatMap Attribute.bytes

@[simp] theorem bodyBytes_nil : bodyBytes [] = [] := rfl

@[simp] theorem bodyBytes_cons (a : Attribute) (attributes : List Attribute) : bodyBytes (a :: attributes) = a.bytes ++ bodyBytes attributes := rfl

theorem get8_format : Format get8 (fun x => beBytes 1 x.toNat) fun _ => True := (word_format truncated 1).uint8

theorem get16_format : Format get16 (fun x => beBytes 2 x.toNat) fun _ => True := (word_format truncated 2).uint16

theorem get32_format : Format get32 (fun x => beBytes 4 x.toNat) fun _ => True := (word_format truncated 4).uint32

section
variable {size offset : ℕ} {mapped m : Option Endpoint} {input rest : Bytes}

/-- One turn of the loop takes one attribute. -/
theorem readAttributes_step (h : offset < size) :
    readAttributes size offset mapped input = .ok (m, rest) ↔ ∃ a tail mapped', input = Attribute.bytes a ++ tail ∧
      a.apply mapped = .ok mapped' ∧ readAttributes size (offset + a.bytes.length) mapped' tail = .ok (m, rest) := by
  rw [readAttributes, if_pos h]
  simp only [run_bind_ok, run_lift_ok]
  constructor
  · rintro ⟨type, _, htype, length, _, hlength, value, _, hvalue, padding, tail, hpadding, mapped', _, ⟨happly, rfl⟩, hrest⟩
    obtain ⟨rfl, -⟩ := (get16_format _ _ _).1 htype
    obtain ⟨rfl, -⟩ := (get16_format _ _ _).1 hlength
    obtain ⟨rfl, hcount⟩ := (bytes_format _ _ _ _ _).1 hvalue
    obtain ⟨rfl, hpad⟩ := (bytes_format _ _ _ _ _).1 hpadding
    obtain ⟨a, ha⟩ : ∃ a : Attribute, a.type = type ∧ a.value = value ∧ a.padding = padding :=
      ⟨⟨type, value, padding, hcount ▸ length.toNat_lt, hcount ▸ hpad⟩, rfl, rfl, rfl⟩
    obtain ⟨rfl, rfl, rfl⟩ := ha
    obtain rfl : a.length = length := UInt16.toNat_inj.1 (a.toNat_length.trans hcount)
    refine ⟨a, tail, mapped', ?_, happly, ?_⟩
    · simp [Attribute.bytes]
    · rwa [a.length_bytes]
  · rintro ⟨a, tail, mapped', rfl, happly, hrest⟩
    refine ⟨a.type, _, (get16_format _ _ _).2 ⟨List.append_assoc _ _ _, trivial⟩, a.length, _,
      (get16_format _ _ _).2 ⟨List.append_assoc _ _ _, trivial⟩, a.value, _,
      (bytes_format _ _ _ _ _).2 ⟨List.append_assoc _ _ _, a.toNat_length.symm⟩, a.padding, tail,
      (bytes_format _ _ _ _ _).2 ⟨rfl, ?_⟩, mapped', tail, ⟨happly, rfl⟩, ?_⟩
    · exact a.padding_length.trans (by rw [a.toNat_length])
    · rwa [← a.length_bytes]

/-- Both cursors stay in step: what is left of the input is what is left of the count. -/
theorem readAttributes_ok (hsize : offset + input.length = size) :
    readAttributes size offset mapped input = .ok (m, rest) ↔
      rest = [] ∧ ∃ attributes, input = bodyBytes attributes ∧ attributes.foldlM Attribute.apply mapped = .ok m := by
  induction hn : input.length using Nat.strong_induction_on generalizing offset mapped input with
  | _ n ih =>
    rcases Nat.eq_zero_or_pos input.length with hempty | hpos
    · obtain rfl := List.length_eq_zero_iff.1 hempty
      rw [readAttributes, if_neg (by omega), run_pure_ok]
      constructor
      · rintro ⟨rfl, rfl⟩
        exact ⟨rfl, [], rfl, rfl⟩
      · rintro ⟨rfl, attributes, hinput, hfold⟩
        cases attributes with
        | nil => exact ⟨Except.ok.inj hfold, rfl⟩
        | cons a attributes =>
          have hlength := congrArg List.length hinput
          have := a.length_pos
          simp at hlength
          omega
    · rw [readAttributes_step (by omega)]
      constructor
      · rintro ⟨a, tail, mapped', rfl, happly, hrest⟩
        have := a.length_pos
        rw [List.length_append] at hsize hn
        obtain ⟨rfl, attributes, rfl, hfold⟩ := (ih tail.length (by omega) (by omega) rfl).1 hrest
        exact ⟨rfl, a :: attributes, rfl, by rw [List.foldlM_cons, happly, ok_bind, hfold]⟩
      · rintro ⟨rfl, attributes, rfl, hfold⟩
        cases attributes with
        | nil => exact absurd hpos (lt_irrefl 0)
        | cons a attributes =>
          have := a.length_pos
          rw [bodyBytes_cons, List.length_append] at hsize hn
          rw [List.foldlM_cons, bind_eq_ok] at hfold
          obtain ⟨mapped', happly, hfold⟩ := hfold
          exact ⟨a, _, mapped', rfl, happly, (ih (bodyBytes attributes).length (by omega) (by omega) rfl).2 ⟨rfl, attributes, rfl, hfold⟩⟩

end

/-! ## The address -/

/-- The value of an XOR-MAPPED-ADDRESS of family IPv4. -/
def addressBytes (port : UInt16) (ipv4 : UInt32) : Bytes :=
  beBytes 1 0 ++ (beBytes 1 1 ++ (beBytes 2 port.toNat ++ beBytes 4 ipv4.toNat))

/-- The endpoint it stands for. -/
def decoded (port : UInt16) (ipv4 : UInt32) : Endpoint := { ipv4 := ipv4 ^^^ cookie, port := port ^^^ 0x2112 }

theorem decoded_port (port : UInt16) : (port.toUInt32 ^^^ (cookie >>> 16)).toUInt16 = port ^^^ 0x2112 := by
  rw [UInt32.toUInt16_xor, UInt16.toUInt16_toUInt32]
  rfl

/-- What the parser takes for an address. -/
def IsAddress (value : Bytes) (e : Endpoint) : Prop :=
  ∃ port ipv4, value = addressBytes port ipv4 ∧ e = decoded port ipv4 ∧ usableEndpoint e true = true

theorem length_addressBytes (port : UInt16) (ipv4 : UInt32) : (addressBytes port ipv4).length = 8 := by simp [addressBytes]

theorem IsAddress.length {value : Bytes} {e : Endpoint} (h : IsAddress value e) : value.length = 8 := by
  obtain ⟨port, ipv4, rfl, -⟩ := h
  exact length_addressBytes port ipv4

theorem readMapped_ok {value rest : Bytes} {e : Endpoint} :
    readMapped value = .ok (e, rest) ↔ ∃ port ipv4, value = addressBytes port ipv4 ++ rest ∧ e = decoded port ipv4 ∧
      usableEndpoint e true = true := by
  unfold readMapped
  simp only [run_bind_ok, run_require_ok, run_pure_ok, decoded_port]
  constructor
  · rintro ⟨reserved, _, hreserved, -, _, ⟨rfl, rfl⟩, family, _, hfamily, -, _, ⟨rfl, rfl⟩, port, _, hport, ipv4, _, hipv4, -, _,
      ⟨husable, rfl⟩, rfl, rfl⟩
    obtain ⟨rfl, -⟩ := (get8_format _ _ _).1 hreserved
    obtain ⟨rfl, -⟩ := (get8_format _ _ _).1 hfamily
    obtain ⟨rfl, -⟩ := (get16_format _ _ _).1 hport
    obtain ⟨rfl, -⟩ := (get32_format _ _ _).1 hipv4
    exact ⟨port, ipv4, by simp [addressBytes], rfl, husable⟩
  · rintro ⟨port, ipv4, rfl, rfl, husable⟩
    refine ⟨0, _, (get8_format _ _ _).2 ⟨List.append_assoc _ _ _, trivial⟩, (), _, ⟨rfl, rfl⟩, 1, _,
      (get8_format _ _ _).2 ⟨List.append_assoc _ _ _, trivial⟩, (), _, ⟨rfl, rfl⟩, port, _,
      (get16_format _ _ _).2 ⟨List.append_assoc _ _ _, trivial⟩, ipv4, rest,
      (get32_format _ _ _).2 ⟨rfl, trivial⟩, (), _, ⟨husable, rfl⟩, rfl, rfl⟩

theorem parse_readMapped {value : Bytes} {e : Endpoint} (h : value.length = 8) :
    readMapped.parse value = .ok e ↔ IsAddress value e := by
  simp only [parse, bind_eq_ok, Except.ok.injEq, Prod.exists]
  constructor
  · rintro ⟨e', rest, hread, rfl⟩
    obtain ⟨port, ipv4, rfl, he⟩ := readMapped_ok.1 hread
    -- nothing is left of the eight bytes
    rw [List.length_append, length_addressBytes, Nat.add_eq_left, List.length_eq_zero_iff] at h
    exact ⟨port, ipv4, by rw [h, List.append_nil], he⟩
  · rintro ⟨port, ipv4, rfl, he⟩
    exact ⟨e, [], readMapped_ok.2 ⟨port, ipv4, (List.append_nil _).symm, he⟩, rfl⟩

namespace Attribute
variable {a : Attribute} {mapped m : Option Endpoint}

theorem apply_other (h : a.type ≠ 0x0020) : a.apply mapped = .ok mapped := if_neg h

theorem apply_address (h : a.type = 0x0020) :
    a.apply mapped = .ok m ↔ mapped = none ∧ ∃ e, IsAddress a.value e ∧ m = some e := by
  have hlength : a.length = 8 ↔ a.value.length = 8 := by
    rw [← UInt16.toNat_inj, toNat_length]
    rfl
  unfold apply applyAttribute
  simp only [if_pos h, bind_eq_ok, check_eq_ok, exists_const, not_or, not_not, hlength, Option.not_isSome_iff_eq_none, Except.ok.injEq]
  constructor
  · rintro ⟨⟨hnone, height⟩, e, hparse, rfl⟩
    exact ⟨hnone, e, (parse_readMapped height).1 hparse, rfl⟩
  · rintro ⟨hnone, e, he, rfl⟩
    exact ⟨⟨hnone, he.length⟩, e, (parse_readMapped he.length).2 he, rfl⟩

end Attribute

/-- The attributes that carry an address. -/
def addresses (attributes : List Attribute) : List Attribute := attributes.filter (·.type = 0x0020)

/-- With an address, no second one is accepted. -/
theorem foldlM_some {attributes : List Attribute} {e : Endpoint} {m : Option Endpoint} :
    attributes.foldlM Attribute.apply (some e) = .ok m ↔ addresses attributes = [] ∧ m = some e := by
  induction attributes with
  | nil => simp [addresses, pure, Except.pure, eq_comm]
  | cons a attributes ih =>
    rw [List.foldlM_cons, bind_eq_ok]
    by_cases ha : a.type = 0x0020
    · simp [Attribute.apply_address ha, addresses, ha]
    · rw [Attribute.apply_other ha]
      simpa [addresses, ha] using ih

theorem foldlM_none {attributes : List Attribute} {e : Endpoint} :
    attributes.foldlM Attribute.apply none = .ok (some e) ↔ ∃ a, addresses attributes = [a] ∧ IsAddress a.value e := by
  induction attributes with
  | nil => simp [addresses, pure, Except.pure]
  | cons a attributes ih =>
    rw [List.foldlM_cons, bind_eq_ok]
    by_cases ha : a.type = 0x0020
    · have hcons : addresses (a :: attributes) = a :: addresses attributes := List.filter_cons_of_pos (by simpa using ha)
      simp only [Attribute.apply_address ha, hcons]
      constructor
      · rintro ⟨_, ⟨-, e', he, rfl⟩, hfold⟩
        obtain ⟨hnone, heq⟩ := foldlM_some.1 hfold
        cases heq
        exact ⟨a, by rw [hnone], he⟩
      · rintro ⟨a', heq, he⟩
        obtain ⟨rfl, hnone⟩ := List.cons.inj heq
        exact ⟨some e, ⟨trivial, e, he, rfl⟩, foldlM_some.2 ⟨hnone, rfl⟩⟩
    · rw [Attribute.apply_other ha]
      simpa [addresses, ha] using ih

/-! ## Responses -/

/-- A binding success with these attributes. -/
def bindingSuccess (t : StunTransaction) (attributes : List Attribute) : Bytes :=
  beBytes 2 0x0101 ++ (beBytes 2 (bodyBytes attributes).length ++ (beBytes 4 cookie.toNat ++ (arrayBytes t ++ bodyBytes attributes)))

theorem length_bodyBytes (attributes : List Attribute) : (bodyBytes attributes).length % 4 = 0 := by
  induction attributes with
  | nil => rfl
  | cons a attributes ih =>
    rw [bodyBytes_cons, List.length_append, a.length_bytes, stride_eq, padding]
    omega

theorem length_bindingSuccess (t : StunTransaction) (attributes : List Attribute) :
    (bindingSuccess t attributes).length = 20 + (bodyBytes attributes).length := by
  simp [bindingSuccess, length_arrayBytes]
  omega

theorem mappedAddress_ok {mapped : Option Endpoint} {e : Endpoint} : mappedAddress mapped = .ok e ↔ mapped = some e := by
  cases mapped <;> simp [mappedAddress]

/-- The reader of a response, in terms of what a response is. -/
theorem readResponse_ok {t : StunTransaction} {b rest : Bytes} {e : Endpoint} (hlong : 20 ≤ b.length) (hshort : b.length ≤ 1200) :
    readResponse b.length t b = .ok (e, rest) ↔ rest = [] ∧ ∃ attributes, b = bindingSuccess t attributes ∧
      attributes.foldlM Attribute.apply none = .ok (some e) := by
  unfold readResponse
  simp only [run_bind_ok, run_require_ok, run_finish_ok, run_lift_ok, mappedAddress_ok]
  constructor
  · rintro ⟨type, _, htype, -, _, ⟨rfl, rfl⟩, length, _, hlength, -, _, ⟨-, rfl⟩, -, _, ⟨hcount, rfl⟩, magic, _, hmagic, -, _, ⟨rfl, rfl⟩,
      transaction, body, htransaction, -, _, ⟨rfl, rfl⟩, mapped, _, hattributes, -, _, ⟨rfl, rfl⟩, rfl, rfl⟩
    obtain ⟨rfl, -⟩ := (get16_format _ _ _).1 htype
    obtain ⟨rfl, -⟩ := (get16_format _ _ _).1 hlength
    obtain ⟨rfl, -⟩ := (get32_format _ _ _).1 hmagic
    obtain ⟨rfl, -⟩ := (bytes_format _ _ _ _ _).1 htransaction
    have hbody : length.toNat = body.length := by
      simp [length_arrayBytes] at hcount
      omega
    obtain ⟨-, attributes, rfl, hfold⟩ := (readAttributes_ok (by simp [length_arrayBytes]; omega)).1 hattributes
    exact ⟨rfl, attributes, by rw [bindingSuccess, ← hbody]; rfl, hfold⟩
  · rintro ⟨rfl, attributes, rfl, hfold⟩
    have hlength := length_bindingSuccess t attributes
    have hmod := length_bodyBytes attributes
    obtain ⟨length, hcount⟩ : ∃ length : UInt16, length.toNat = (bodyBytes attributes).length :=
      ⟨UInt16.ofNat (bodyBytes attributes).length, UInt16.toNat_ofNat_of_lt' (by
        change _ < 65536
        omega)⟩
    refine ⟨0x0101, _, (get16_format _ _ _).2 ⟨rfl, trivial⟩, (), _, ⟨rfl, rfl⟩, length, _,
      (get16_format _ _ _).2 ⟨by rw [← hcount]; rfl, trivial⟩, (), _, ⟨?_, rfl⟩, (), _, ⟨by omega, rfl⟩, cookie, _,
      (get32_format _ _ _).2 ⟨rfl, trivial⟩, (), _, ⟨rfl, rfl⟩, arrayBytes t, bodyBytes attributes,
      (bytes_format _ _ _ _ _).2 ⟨rfl, length_arrayBytes t⟩, (), _, ⟨rfl, rfl⟩, some e, [],
      (readAttributes_ok hlength.symm).2 ⟨rfl, attributes, rfl, hfold⟩, (), [], ⟨rfl, rfl⟩, rfl, rfl⟩
    apply UInt16.toNat_inj.1
    rw [UInt16.toNat_mod, hcount]
    exact hmod

end Stun

def parseStunBindingResponse (b : Bytes) (t : StunTransaction) : Except (Fault Exn) Endpoint := do
  check (¬ (b.length < 20 ∨ 1200 < b.length)) (Stun.invalid "invalid STUN size")
  (Stun.readResponse b.length t).parse b

open Stun

/-- The inputs the parser accepts. -/
theorem parseStunBindingResponse_ok {b : Bytes} {t : StunTransaction} {e : Endpoint} :
    parseStunBindingResponse b t = .ok e ↔ b.length ≤ 1200 ∧ ∃ attributes a, b = bindingSuccess t attributes ∧
      addresses attributes = [a] ∧ IsAddress a.value e := by
  simp only [parseStunBindingResponse, bind_eq_ok, check_eq_ok, exists_const, not_or, not_lt, parse, Except.ok.injEq, Prod.exists]
  constructor
  · rintro ⟨⟨hlong, hshort⟩, e', rest, hread, rfl⟩
    obtain ⟨-, attributes, hb, hfold⟩ := (readResponse_ok hlong hshort).1 hread
    obtain ⟨a, ha, he⟩ := foldlM_none.1 hfold
    exact ⟨hshort, attributes, a, hb, ha, he⟩
  · rintro ⟨hshort, attributes, a, hb, ha, he⟩
    have hlong : 20 ≤ b.length := by
      rw [hb, length_bindingSuccess]
      omega
    exact ⟨⟨hlong, hshort⟩, e, [], (readResponse_ok hlong hshort).2 ⟨rfl, attributes, hb, foldlM_none.2 ⟨a, ha, he⟩⟩, rfl⟩

/-- The attribute a server writes for an endpoint. -/
def mappedAttribute (e : Endpoint) : Attribute where
  type := 0x0020
  value := addressBytes (e.port ^^^ 0x2112) (e.ipv4 ^^^ cookie)
  padding := []
  value_lt := by simp [length_addressBytes]
  padding_length := by simp [length_addressBytes, padding]

theorem decoded_encoded (e : Endpoint) : decoded (e.port ^^^ 0x2112) (e.ipv4 ^^^ cookie) = e := by
  rw [decoded, UInt16.xor_assoc, UInt32.xor_assoc, UInt16.xor_self, UInt32.xor_self, UInt16.xor_zero, UInt32.xor_zero]

/-- A response is parsed without a read past its end, exactly the well-formed ones give an endpoint, and it is the one that was
written. -/
structure StunResponses : Prop where
  inside (b : Bytes) (t : StunTransaction) : parseStunBindingResponse b t ≠ .error .outOfBounds
  accepted (b : Bytes) (t : StunTransaction) (e : Endpoint) : parseStunBindingResponse b t = .ok e ↔
    b.length ≤ 1200 ∧ ∃ attributes a, b = bindingSuccess t attributes ∧ addresses attributes = [a] ∧
      ∃ port ipv4, a.value = addressBytes port ipv4 ∧ e = { ipv4 := ipv4 ^^^ cookie, port := port ^^^ 0x2112 } ∧ usableEndpoint e true = true
  written (t : StunTransaction) (e : Endpoint) (before after : List Attribute) : usableEndpoint e true = true →
    (∀ a ∈ before ++ after, a.type ≠ 0x0020) → (bindingSuccess t (before ++ mappedAttribute e :: after)).length ≤ 1200 →
    parseStunBindingResponse (bindingSuccess t (before ++ mappedAttribute e :: after)) t = .ok e

theorem stun_responses : StunResponses where
  inside b t := by
    apply InBounds.ne
    apply InBounds.guard
    intro _
    exact (inside_readResponse b.length t).parse b
  accepted b t e := parseStunBindingResponse_ok
  written t e before after husable hothers hshort := by
    have hnone : ∀ l : List Attribute, (∀ a ∈ l, a.type ≠ 0x0020) → addresses l = [] := by
      intro l hl
      simpa [addresses] using hl
    have hbefore := hnone before fun a ha => hothers a (List.mem_append_left _ ha)
    have hafter := hnone after fun a ha => hothers a (List.mem_append_right _ ha)
    refine parseStunBindingResponse_ok.2 ⟨hshort, _, mappedAttribute e, rfl, ?_, _, _, rfl, (decoded_encoded e).symm, husable⟩
    change List.filter _ _ = _
    rw [List.filter_append, List.filter_cons_of_pos (by simp [mappedAttribute])]
    change addresses before ++ mappedAttribute e :: addresses after = _
    rw [hbefore, hafter, List.nil_append]

end LanLink.P2P
