import LanLink.Lib.Guards
import LanLink.Lib.Slices
/-!
# Reading from spans

A program that indexes a byte string has two ways to stop early: it throws, or
it reads past the end. Here both are errors, so that a program is free of the
second when `outOfBounds` is not among its errors. A check that passed is known
to the rest of the program.
-/
namespace LanLink.Lib

variable {ε α β : Type}

/-- What stops a program: a read past the end, or an exception. -/
inductive Fault (ε : Type)
  | outOfBounds
  | thrown (e : ε)
  deriving DecidableEq, Repr

/-- A program that reads nothing, as one that may. -/
def lift (x : Except ε α) : Except (Fault ε) α := x.mapError .thrown

/-- `bytes[i]`. -/
def readAt (bytes : Bytes) (i : ℕ) : Except (Fault ε) UInt8 :=
  match bytes[i]? with
  | some b => .ok b
  | none => .error .outOfBounds

/-- `count` bytes from `offset` on, one after the other. -/
def readSlice (bytes : Bytes) : ℕ → ℕ → Except (Fault ε) Bytes
  | _, 0 => .ok []
  | offset, count + 1 => do
    let b ← readAt bytes offset
    let rest ← readSlice bytes (offset + 1) count
    .ok (b :: rest)

/-- The number `count` bytes spell. -/
def readInt (bytes : Bytes) (offset count : ℕ) : Except (Fault ε) ℕ := do
  let field ← readSlice bytes offset count
  .ok (beNat field)

/-- A span inside a span; one that sticks out is a read past the end already. -/
def subspan (bytes : Bytes) (offset count : ℕ) : Except (Fault ε) Bytes :=
  if offset + count ≤ bytes.length then .ok (slice bytes offset count) else .error .outOfBounds

/-! ## Lifting -/

@[simp] theorem lift_ok (a : α) : lift (.ok a : Except ε α) = .ok a := rfl

@[simp] theorem lift_error (e : ε) : lift (.error e : Except ε α) = .error (.thrown e) := rfl

theorem lift_bind (x : Except ε α) (f : α → Except ε β) : lift (x >>= f) = lift x >>= fun a => lift (f a) := by
  cases x <;> rfl

theorem lift_check (c : Prop) [Decidable c] (e : ε) : lift (check c e) = check c (.thrown e) := by
  unfold check
  split <;> rfl

@[simp] theorem lift_eq_ok {x : Except ε α} {a : α} : lift x = .ok a ↔ x = .ok a := by
  cases x <;> simp

/-! ## Programs that stay inside -/

/-- The program does not read past an end. -/
def InBounds (x : Except (Fault ε) α) : Prop := Throws (· ≠ .outOfBounds) x

theorem InBounds.ne {x : Except (Fault ε) α} (h : InBounds x) : x ≠ .error .outOfBounds :=
  fun hx => h _ hx rfl

theorem inBounds_ok (a : α) : InBounds (.ok a : Except (Fault ε) α) := throws_ok

theorem inBounds_lift (x : Except ε α) : InBounds (lift x) := by
  intro e he
  cases x with
  | ok a => cases he
  | error e' =>
    cases he
    exact fun h => nomatch h

theorem inBounds_check {c : Prop} [Decidable c] {e : ε} : InBounds (check c (Fault.thrown e)) := by
  rw [← lift_check]
  exact inBounds_lift _

/-- The rest of a program may use what the first part returned. -/
theorem InBounds.bind {x : Except (Fault ε) α} {f : α → Except (Fault ε) β} (hx : InBounds x)
    (hf : ∀ a, x = .ok a → InBounds (f a)) : InBounds (x >>= f) := by
  cases x with
  | ok a => exact hf a rfl
  | error e => exact fun _ he => hx _ (by simpa using he)

/-- The rest of a program runs only if a check passed. -/
theorem InBounds.guard {c : Prop} [Decidable c] {e : ε} {f : Unit → Except (Fault ε) β} (hf : c → InBounds (f ())) :
    InBounds (check c (Fault.thrown e) >>= f) :=
  inBounds_check.bind fun _ h => hf (check_eq_ok.1 h)

section
variable {bytes : Bytes} {offset count i : ℕ}

theorem readAt_of_lt (h : i < bytes.length) : (readAt bytes i : Except (Fault ε) UInt8) = .ok (bytes.getD i 0) := by
  rw [readAt, List.getElem?_eq_getElem h, List.getD_eq_getElem?_getD, List.getElem?_eq_getElem h]
  rfl

theorem readSlice_of_le (h : offset + count ≤ bytes.length) :
    (readSlice bytes offset count : Except (Fault ε) Bytes) = .ok (slice bytes offset count) := by
  induction count generalizing offset with
  | zero => rw [readSlice, slice, List.take_zero]
  | succ count ih =>
    rw [readSlice, readAt_of_lt (by omega), ok_bind, ih (by omega), ok_bind, slice, slice,
      List.drop_eq_getElem_cons (show offset < bytes.length by omega), List.take_succ_cons,
      List.getD_eq_getElem?_getD, List.getElem?_eq_getElem (show offset < bytes.length by omega)]
    rfl

theorem readInt_of_le (h : offset + count ≤ bytes.length) :
    (readInt bytes offset count : Except (Fault ε) ℕ) = .ok (beNat (slice bytes offset count)) := by
  rw [readInt, readSlice_of_le h, ok_bind]

theorem subspan_of_le (h : offset + count ≤ bytes.length) :
    (subspan bytes offset count : Except (Fault ε) Bytes) = .ok (slice bytes offset count) := if_pos h

theorem inBounds_readAt (h : i < bytes.length) : InBounds (readAt bytes i : Except (Fault ε) UInt8) := by
  rw [readAt_of_lt h]
  exact inBounds_ok _

theorem inBounds_readSlice (h : offset + count ≤ bytes.length) : InBounds (readSlice bytes offset count : Except (Fault ε) Bytes) := by
  rw [readSlice_of_le h]
  exact inBounds_ok _

theorem inBounds_readInt (h : offset + count ≤ bytes.length) : InBounds (readInt bytes offset count : Except (Fault ε) ℕ) := by
  rw [readInt_of_le h]
  exact inBounds_ok _

theorem inBounds_subspan (h : offset + count ≤ bytes.length) : InBounds (subspan bytes offset count : Except (Fault ε) Bytes) := by
  rw [subspan_of_le h]
  exact inBounds_ok _

end

end LanLink.Lib
