import LanLink.Lib.Formats
import LanLink.Protocol.MessageRoundTrip
/-!
# Binary payloads

`BinaryReader` and `BinaryWriter` of `protocol/binary.hpp`, as the codecs with
optional parts use them: integers of the fixed-width types, strings after their
length, flags and counted lists, each with its format.
-/
open LanLink.Lib LanLink.Lib.Reader

namespace LanLink

namespace BinaryReader

open PolicyReader

/-! ## Reads -/

/-- `get<std::uint8_t>`, and so on. -/
def get8 : PolicyReader UInt8 := do
  let x ← get 1
  pure (UInt8.ofNat x)

def get16 : PolicyReader UInt16 := do
  let x ← get 2
  pure (UInt16.ofNat x)

def get32 : PolicyReader UInt32 := do
  let x ← get 4
  pure (UInt32.ofNat x)

def get64 : PolicyReader UInt64 := do
  let x ← get 8
  pure (UInt64.ofNat x)

def finish : PolicyReader Unit := Reader.finish (.invalidArgument "trailing protocol payload")

/-- A string after its length. -/
def string : PolicyReader Text := do
  let size ← get 2
  bytes size

/-- A byte that must be 0 or 1. -/
def flag (e : Exn) : PolicyReader Bool := do
  let f ← get8
  Reader.require (f ≤ 1) e
  pure (f ≠ 0)

/-- A list after its length, which has `n` bytes. -/
def counted {α : Type} (n limit : ℕ) (e : Exn) (r : PolicyReader α) : PolicyReader (List α) := do
  let count ← get n
  Reader.require (count ≤ limit) e
  Reader.many r count

/-- Validate what was read. -/
def validate {α : Type} (x : Except Exn α) : PolicyReader α := fun input => x.map fun a => (a, input)

/-! ## Formats -/

theorem get_format (n : ℕ) : Format (get n) (beBytes n) (· < 256 ^ n) := .word _ n

theorem array_format {w : ℕ} (hw : w = 8 * (w / 8)) : Format (array w) arrayBytes fun _ => True :=
  .of_spells (spells_array hw) fun x _ => reads_array hw x

theorem array128_format : Format (array 128) arrayBytes fun _ => True := array_format rfl

theorem array256_format : Format (array 256) arrayBytes fun _ => True := array_format rfl

theorem get8_format : Format get8 (fun x => beBytes 1 x.toNat) fun _ => True := (get_format 1).uint8

theorem get16_format : Format get16 (fun x => beBytes 2 x.toNat) fun _ => True := (get_format 2).uint16

theorem get32_format : Format get32 (fun x => beBytes 4 x.toNat) fun _ => True := (get_format 4).uint32

theorem get64_format : Format get64 (fun x => beBytes 8 x.toNat) fun _ => True := (get_format 8).uint64

theorem string_format : Format string nameBytes (·.length < 256 ^ 2) := by
  intro input t rest
  constructor
  · intro h
    obtain ⟨size, mid, hsize, hbytes⟩ := run_bind_ok.1 h
    obtain ⟨rfl, hlt⟩ := (get_format 2 _ _ _).1 hsize
    obtain ⟨rfl, rfl⟩ := (Format.bytes _ _ _ _ _).1 hbytes
    exact ⟨(List.append_assoc _ _ _).symm, hlt⟩
  · rintro ⟨rfl, hlt⟩
    exact (reads_get hlt).bind (.bytes _ rfl) rest

theorem flag_cases {f : UInt8} (h : f ≤ 1) : f = 0 ∨ f = 1 := by
  have hle := UInt8.le_iff_toNat_le.1 h
  have hone : (1 : UInt8).toNat = 1 := rfl
  rcases Nat.le_one_iff_eq_zero_or_eq_one.1 (hle.trans hone.le) with hzero | hone
  · exact .inl (UInt8.toNat_inj.1 hzero)
  · exact .inr (UInt8.toNat_inj.1 hone)

theorem flag_eq_iff {b : Bool} {f : UInt8} (h : f ≤ 1) : (if b then 1 else 0) = f ↔ decide (f ≠ 0) = b := by
  rcases flag_cases h with rfl | rfl <;> cases b <;> decide

theorem flag_format (e : Exn) : Format (flag e) flagByte fun _ => True := by
  refine (Record.field (fun b => if b then 1 else 0) get8_format fun f _ =>
    .require (fun _ => True) ?_ fun hf => .pure ?_).format.congr ?_ ?_
  · rintro b ⟨-, rfl⟩
    cases b <;> decide
  · intro b
    simp only [true_and]
    exact flag_eq_iff hf
  · simp
  · intro b _
    cases b <;> rfl

/-- Lists of no more entries than a count may have. -/
theorem counted_format {α : Type} {r : PolicyReader α} {write : α → Bytes} {allowed : α → Prop} (h : Format r write allowed)
    {n limit : ℕ} (hlimit : limit < 256 ^ n) (e : Exn) :
    Format (counted n limit e r) (fun l => beBytes n l.length ++ l.flatMap write) fun l =>
      l.length ≤ limit ∧ ∀ a ∈ l, allowed a := by
  intro input l rest
  constructor
  · intro hread
    obtain ⟨count, mid, hcount, htail⟩ := run_bind_ok.1 hread
    obtain ⟨u, mid', hcheck, hmany⟩ := run_bind_ok.1 htail
    obtain ⟨rfl, -⟩ := (get_format n _ _ _).1 hcount
    obtain ⟨hle, rfl⟩ := run_require_ok.1 hcheck
    obtain ⟨rfl, rfl, hl⟩ := (h.many count _ _ _).1 hmany
    exact ⟨(List.append_assoc _ _ _).symm, hle, hl⟩
  · rintro ⟨rfl, hle, hl⟩
    refine run_bind_ok.2 ⟨l.length, _, (get_format n _ _ _).2 ⟨List.append_assoc _ _ _, by omega⟩, ?_⟩
    exact run_bind_ok.2 ⟨(), _, run_require_ok.2 ⟨hle, rfl⟩, (h.many _ _ _ _).2 ⟨rfl, rfl, hl⟩⟩

/-- The value a code read before stands for. -/
theorem known_record {α β : Type} {after : Bytes → Prop} {known : β → Prop} {f : α → PolicyReader β} {write : β → Bytes}
    {allowed : β → Prop} {v : Option α} {e : Exn} (get : β → α) (hget : ∀ b, known b → v = some (get b))
    (hf : ∀ a, v = some a → Record after (fun b => known b ∧ get b = a) (f a) write allowed) :
    Record after known (PayloadReader.known v e >>= f) write allowed := by
  refine .value get (fun a => v = some a) ?_ (fun b hb _ => hget b hb) hf
  intro input a rest
  rw [known_ok]
  exact and_comm

/-- A record that is checked when all fields were read. -/
theorem checked_record {β : Type} {known : β → Prop} {v : β} (require : β → Except Exn Unit) (h : ∀ b, known b ↔ v = b) :
    Record Open known (validate (require v) >>= fun _ => Pure.pure v) (fun _ => []) fun b => require b = .ok () := by
  intro input b rest
  rw [run_bind_ok]
  constructor
  · rintro ⟨u, mid, hvalid, hpure⟩
    cases hrequire : require v with
    | error e =>
      rw [hrequire] at hvalid
      cases hvalid
    | ok u' =>
      rw [hrequire] at hvalid
      cases hvalid
      obtain ⟨rfl, rfl⟩ := run_pure_ok.1 hpure
      exact ⟨rfl, trivial, (h v).2 rfl, hrequire⟩
  · rintro ⟨rfl, -, hknown, hb⟩
    obtain rfl := (h b).1 hknown
    refine ⟨(), _, ?_, run_pure_ok.2 ⟨rfl, rfl⟩⟩
    rw [hb]
    rfl

/-- A document of a known length that has its own decoder. -/
theorem embedded_format {α : Type} {decode : Bytes → Except Exn α} {write : α → Bytes} {allowed : α → Prop}
    (hdecode : ∀ bs a, decode bs = .ok a ↔ bs = write a ∧ allowed a) {n : ℕ} :
    Format (bytes n >>= fun document => validate (decode document)) write fun a => (write a).length = n ∧ allowed a := by
  intro input a rest
  rw [run_bind_ok]
  constructor
  · rintro ⟨document, mid, hbytes, hvalid⟩
    obtain ⟨rfl, hlength⟩ := (Format.bytes _ _ _ _ _).1 hbytes
    cases hdocument : decode document with
    | error e =>
      rw [hdocument] at hvalid
      cases hvalid
    | ok a' =>
      rw [hdocument] at hvalid
      cases hvalid
      obtain ⟨rfl, ha⟩ := (hdecode _ _).1 hdocument
      exact ⟨rfl, hlength, ha⟩
  · rintro ⟨rfl, hlength, ha⟩
    refine ⟨write a, rest, (Format.bytes _ _ _ _ _).2 ⟨rfl, hlength⟩, ?_⟩
    rw [(hdecode _ _).2 ⟨rfl, ha⟩]
    rfl

end BinaryReader

/-- A codec that checks the value and then writes it, and whose reader checks what it read. -/
theorem Inverse.of_checked {α : Type} {typed : α → Prop} {encode : α → Except Exn Bytes} {r : PolicyReader α} {write : α → Bytes}
    {require : α → Except Exn Unit} (hencode : ∀ x, encode x = require x >>= fun _ => .ok (write x))
    (hread : Record Closed (fun _ => True) r write fun x => typed x ∧ require x = .ok ()) : Inverse typed encode r.parse where
  decode_encode x bs htyped h := by
    rw [hencode, bind_eq_ok] at h
    obtain ⟨⟨⟩, hrequire, hwrite⟩ := h
    obtain rfl := Except.ok.inj hwrite
    exact hread.parse_eq_ok.2 ⟨rfl, htyped, hrequire⟩
  encode_decode bs x h := by
    obtain ⟨rfl, htyped, hrequire⟩ := hread.parse_eq_ok.1 h
    refine ⟨htyped, ?_⟩
    rw [hencode, hrequire]
    rfl

end LanLink
