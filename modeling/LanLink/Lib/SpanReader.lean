import LanLink.Lib.Formats
import LanLink.Lib.Spans
/-!
# Readers over spans

A reader that keeps the span of what it has not read. It compares every count
with what is left before it takes a part of the span, so at the end of its input
it throws and never reads past it.
-/
namespace LanLink.Lib.SpanReader

open Reader

variable {ε α β : Type}

/-- The next `count` bytes; `e` is thrown if there are fewer. -/
def bytes (e : ε) (count : ℕ) : Reader (Fault ε) Bytes := fun data => do
  check (¬ data.length < count) (.thrown e)
  let result ← subspan data 0 count
  let rest ← subspan data count (data.length - count)
  .ok (result, rest)

/-- A big-endian number of `n` bytes. -/
def word (e : ε) (n : ℕ) : Reader (Fault ε) ℕ := do
  let value ← bytes e n
  pure (beNat value)

/-! ## What is read -/

theorem bytes_eq (e : ε) (n : ℕ) : bytes e n = Reader.bytes (.thrown e) n := by
  funext data
  unfold bytes Reader.bytes
  rcases Nat.lt_or_ge data.length n with hshort | hlong
  · rw [check_of_not (not_not.2 hshort), if_neg (Nat.not_le.2 hshort)]
    rfl
  · rw [check_of (Nat.not_lt.2 hlong), if_pos hlong, ok_bind, subspan_of_le (by omega), ok_bind, subspan_of_le (by omega), ok_bind]
    -- what is left is as long as the count that is taken of it
    simp [slice, List.take_of_length_le]

theorem word_eq (e : ε) (n : ℕ) : word e n = Reader.word (.thrown e) n := by
  rw [word, bytes_eq]
  rfl

theorem bytes_format (e : ε) (n : ℕ) : Format (bytes e n) id fun bs => bs.length = n := by
  rw [bytes_eq]
  exact .bytes _ n

theorem word_format (e : ε) (n : ℕ) : Format (word e n) (beBytes n) (· < 256 ^ n) := by
  rw [word_eq]
  exact .word _ n

/-- A program without input between the reads. -/
theorem run_lift_ok {x : Except ε α} {input rest : Bytes} {a : α} :
    (StateT.lift x : Reader ε α) input = .ok (a, rest) ↔ x = .ok a ∧ input = rest := by
  change (x >>= fun a => Except.ok (a, input)) = _ ↔ _
  rw [bind_eq_ok]
  constructor
  · rintro ⟨a', hx, heq⟩
    obtain ⟨rfl, rfl⟩ := Prod.mk.inj (Except.ok.inj heq)
    exact ⟨hx, rfl⟩
  · rintro ⟨hx, rfl⟩
    exact ⟨a, hx, rfl⟩

/-! ## Readers that stay inside -/

/-- The reader does not read past the end of any input. -/
def Inside (r : Reader (Fault ε) α) : Prop := ∀ input, InBounds (r input)

theorem inside_bytes (e : ε) (n : ℕ) : Inside (bytes e n) := by
  intro input
  rw [bytes_eq, Reader.bytes]
  split
  · exact inBounds_ok _
  · exact inBounds_lift (.error e)

theorem Inside.bind {r : Reader (Fault ε) α} {f : α → Reader (Fault ε) β} (hr : Inside r) (hf : ∀ a, Inside (f a)) :
    Inside (r >>= f) :=
  fun input => (hr input).bind fun p _ => hf p.1 p.2

theorem inside_pure (a : α) : Inside (pure a : Reader (Fault ε) α) := fun _ => inBounds_ok _

theorem inside_word (e : ε) (n : ℕ) : Inside (word e n) := (inside_bytes e n).bind fun _ => inside_pure _

theorem inside_require {c : Prop} [Decidable c] {e : ε} : Inside (require c (Fault.thrown e)) := by
  intro input
  rw [require]
  split
  · exact inBounds_ok _
  · exact inBounds_lift (.error e)

theorem inside_finish (e : ε) : Inside (finish (Fault.thrown e)) := by
  intro input
  rw [finish]
  split
  · exact inBounds_ok _
  · exact inBounds_lift (.error e)

theorem inside_lift {x : Except (Fault ε) α} (h : InBounds x) : Inside (StateT.lift x) :=
  fun _ => h.bind fun _ _ => inBounds_ok _

theorem Inside.parse {r : Reader (Fault ε) α} (h : Inside r) (input : Bytes) : InBounds (r.parse input) :=
  (h input).bind fun _ _ => inBounds_ok _

end LanLink.Lib.SpanReader
