import LanLink.Lib.Guards
/-!
# Bytes, integers and readers

`beBytes n x` are the `n` big-endian bytes of `x`, `beNat` reads them back;
`leBytes` and `leNat` put the low-order byte first. A `Reader` consumes a byte string from the front. `Reads r bs a` says that `r`
takes exactly `bs` off any input and returns `a`: a writer and a reader fit
when the reader reads what the writer wrote.
-/
namespace LanLink.Lib

/-- A byte string. -/
abbrev Bytes := List UInt8

/-- The `n` low-order bytes of `x`, most significant first. -/
def beBytes : ℕ → ℕ → Bytes
  | 0, _ => []
  | n + 1, x => UInt8.ofNat (x / 256 ^ n) :: beBytes n x

/-- The number a byte string spells, most significant byte first. -/
def beNat (bs : Bytes) : ℕ := bs.foldl (fun acc b => acc * 256 + b.toNat) 0

@[simp] theorem beBytes_length (n x : ℕ) : (beBytes n x).length = n := by
  induction n with
  | zero => rfl
  | succ n ih => simp [beBytes, ih]

theorem foldl_beBytes (n x acc : ℕ) :
    (beBytes n x).foldl (fun acc b => acc * 256 + b.toNat) acc = acc * 256 ^ n + x % 256 ^ n := by
  induction n generalizing acc with
  | zero => simp [beBytes, Nat.mod_one]
  | succ n ih =>
    simp only [beBytes, List.foldl_cons, ih]
    have hb : (UInt8.ofNat (x / 256 ^ n)).toNat = x / 256 ^ n % 256 := by simp
    have h : x % 256 ^ (n + 1) = x / 256 ^ n % 256 * 256 ^ n + x % 256 ^ n := by
      rw [pow_succ, Nat.mod_mul, Nat.mul_comm, Nat.add_comm]
    rw [hb, h, pow_succ, Nat.add_mul, Nat.mul_assoc, Nat.mul_comm 256, Nat.add_assoc]

theorem beNat_beBytes (n x : ℕ) (h : x < 256 ^ n) : beNat (beBytes n x) = x := by
  rw [beNat, foldl_beBytes, Nat.zero_mul, Nat.zero_add, Nat.mod_eq_of_lt h]

theorem foldl_be (bs : Bytes) (acc : ℕ) :
    bs.foldl (fun acc b => acc * 256 + b.toNat) acc = acc * 256 ^ bs.length + beNat bs := by
  induction bs generalizing acc with
  | nil => simp [beNat]
  | cons b bs ih =>
    rw [beNat, List.foldl_cons, List.foldl_cons, ih, ih (0 * 256 + b.toNat), List.length_cons, pow_succ]
    ring

theorem beNat_lt (bs : Bytes) : beNat bs < 256 ^ bs.length := by
  induction bs with
  | nil => simp [beNat]
  | cons b bs ih =>
    have hb : b.toNat ≤ 255 := Nat.lt_succ_iff.1 b.toNat_lt
    rw [beNat, List.foldl_cons, foldl_be, Nat.zero_mul, Nat.zero_add, List.length_cons, pow_succ]
    calc b.toNat * 256 ^ bs.length + beNat bs < b.toNat * 256 ^ bs.length + 256 ^ bs.length := by omega
      _ = (b.toNat + 1) * 256 ^ bs.length := by ring
      _ ≤ 256 ^ bs.length * 256 := by rw [Nat.mul_comm]; exact Nat.mul_le_mul_left _ (by omega)

theorem beBytes_add (n x y : ℕ) : beBytes n (y * 256 ^ n + x) = beBytes n x := by
  induction n generalizing y with
  | zero => rfl
  | succ n ih =>
    have hsplit : y * 256 ^ (n + 1) + x = y * 256 * 256 ^ n + x := by ring
    have hdigit : UInt8.ofNat ((y * 256 * 256 ^ n + x) / 256 ^ n) = UInt8.ofNat (x / 256 ^ n) := by
      rw [Nat.add_comm, Nat.add_mul_div_right _ _ (by positivity)]
      ext
      simp
    rw [beBytes, beBytes, hsplit, ih, hdigit]

/-- A byte string is spelled by the number it spells. -/
theorem beBytes_beNat (bs : Bytes) : beBytes bs.length (beNat bs) = bs := by
  induction bs with
  | nil => rfl
  | cons b bs ih =>
    have hlt := beNat_lt bs
    rw [beNat, List.foldl_cons, foldl_be, Nat.zero_mul, Nat.zero_add, List.length_cons, beBytes, beBytes_add, ih,
      Nat.add_comm, Nat.add_mul_div_right _ _ (by positivity), Nat.div_eq_of_lt hlt, Nat.zero_add, UInt8.ofNat_toNat]

/-! ## Little-endian integers -/

/-- The `n` low-order bytes of `x`, least significant first. -/
def leBytes : ℕ → ℕ → Bytes
  | 0, _ => []
  | n + 1, x => UInt8.ofNat x :: leBytes n (x / 256)

/-- The number a byte string spells, least significant byte first. -/
def leNat : Bytes → ℕ
  | [] => 0
  | b :: bs => b.toNat + 256 * leNat bs

theorem leNat_leBytes (n x : ℕ) (h : x < 256 ^ n) : leNat (leBytes n x) = x := by
  induction n generalizing x with
  | zero =>
    rw [pow_zero, Nat.lt_one_iff] at h
    simp [leBytes, leNat, h]
  | succ n ih =>
    have hrest : x / 256 < 256 ^ n := by
      rw [pow_succ'] at h
      exact Nat.div_lt_of_lt_mul h
    rw [leBytes, leNat, ih _ hrest, UInt8.toNat_ofNat']
    exact Nat.mod_add_div x 256

theorem leBytes_leNat (bs : Bytes) : leBytes bs.length (leNat bs) = bs := by
  induction bs with
  | nil => rfl
  | cons b bs ih =>
    have hb := b.toNat_lt
    have hfirst : UInt8.ofNat (b.toNat + 256 * leNat bs) = b := by
      apply UInt8.toNat_inj.1
      rw [UInt8.toNat_ofNat']
      omega
    have hrest : (b.toNat + 256 * leNat bs) / 256 = leNat bs := by omega
    rw [leNat, List.length_cons, leBytes, hfirst, hrest, ih]

@[simp] theorem length_leBytes (n x : ℕ) : (leBytes n x).length = n := by
  induction n generalizing x with
  | zero => rfl
  | succ n ih => rw [leBytes, List.length_cons, ih]

theorem leNat_lt (bs : Bytes) : leNat bs < 256 ^ bs.length := by
  induction bs with
  | nil => simp [leNat]
  | cons b bs ih =>
    have hb := b.toNat_lt
    rw [leNat, List.length_cons, pow_succ']
    omega

/-! ## Pieces of one size -/

/-- Decode `count` pieces of `size` bytes, one after the other. -/
def decodeChunks {ε α : Type} (size : ℕ) (decode : Bytes → Except ε α) : ℕ → Bytes → Except ε (List α)
  | 0, _ => .ok []
  | count + 1, payload => do
    let a ← decode (payload.take size)
    let as ← decodeChunks size decode count (payload.drop size)
    .ok (a :: as)

section
variable {ε α : Type} {decode : Bytes → Except ε α} {write : α → Bytes} {valid : α → Prop} {size : ℕ}

theorem length_chunks (hsize : ∀ a, (write a).length = size) (l : List α) : (l.flatMap write).length = l.length * size := by
  induction l with
  | nil => simp
  | cons a l ih => rw [List.flatMap_cons, List.length_append, hsize, ih, List.length_cons, Nat.succ_mul, Nat.add_comm]

/-- The pieces that are accepted are the ones that are written. -/
theorem decodeChunks_ok (hdecode : ∀ bs a, decode bs = .ok a ↔ bs = write a ∧ valid a) (hsize : ∀ a, (write a).length = size)
    {count : ℕ} {payload : Bytes} {l : List α} (hlength : payload.length = count * size) :
    decodeChunks size decode count payload = .ok l ↔ payload = l.flatMap write ∧ l.length = count ∧ ∀ a ∈ l, valid a := by
  induction count generalizing payload l with
  | zero =>
    rw [Nat.zero_mul] at hlength
    obtain rfl := List.eq_nil_of_length_eq_zero hlength
    rw [decodeChunks, Except.ok.injEq]
    constructor
    · rintro rfl
      simp
    · rintro ⟨-, hcount, -⟩
      exact (List.eq_nil_of_length_eq_zero hcount).symm
  | succ count ih =>
    have hdrop : (payload.drop size).length = count * size := by
      rw [List.length_drop, hlength, Nat.succ_mul, Nat.add_sub_cancel]
    simp only [decodeChunks, bind_eq_ok, hdecode, ih hdrop, Except.ok.injEq]
    constructor
    · rintro ⟨a, ⟨hfirst, ha⟩, l', ⟨hrest, rfl, hl⟩, rfl⟩
      refine ⟨?_, rfl, List.forall_mem_cons.2 ⟨ha, hl⟩⟩
      rw [List.flatMap_cons, ← hfirst, ← hrest, List.take_append_drop]
    · rintro ⟨rfl, hcount, hl⟩
      cases l with
      | nil => cases hcount
      | cons a l =>
        obtain ⟨ha, hl⟩ := List.forall_mem_cons.1 hl
        have hfirst := hsize a
        refine ⟨a, ⟨?_, ha⟩, l, ⟨?_, Nat.succ.inj hcount, hl⟩, rfl⟩
        · rw [List.flatMap_cons, ← hfirst, List.take_left]
        · rw [List.flatMap_cons, ← hfirst, List.drop_left]

end

/-! ## Readers -/

/-- Consume bytes from the front of the input, or fail with an `ε`. -/
abbrev Reader (ε α : Type) := StateT Bytes (Except ε) α

namespace Reader
variable {ε α β : Type}

/-- The next `n` bytes; `e` if there are fewer. -/
def bytes (e : ε) (n : ℕ) : Reader ε Bytes := fun input =>
  if n ≤ input.length then .ok (input.take n, input.drop n) else .error e

/-- Fail with `e` unless `c` holds. -/
def require (c : Prop) [Decidable c] (e : ε) : Reader ε Unit := fun input =>
  if c then .ok ((), input) else .error e

/-- Fail with `e` unless the input is used up. -/
def finish (e : ε) : Reader ε Unit := fun input => if input = [] then .ok ((), []) else .error e

/-- A big-endian number of `n` bytes. -/
def word (e : ε) (n : ℕ) : Reader ε ℕ := do
  let bs ← bytes e n
  pure (beNat bs)

/-- `n` values read one after the other. -/
def many (r : Reader ε α) : ℕ → Reader ε (List α)
  | 0 => pure []
  | n + 1 => do
    let a ← r
    let as ← many r n
    pure (a :: as)

/-- `r` takes exactly `bs` off any input that starts with it, and returns `a`. -/
def Reads (r : Reader ε α) (bs : Bytes) (a : α) : Prop := ∀ rest, r (bs ++ rest) = .ok (a, rest)

theorem Reads.pure (a : α) : Reads (Pure.pure a : Reader ε α) [] a := fun _ => rfl

theorem Reads.bind {r : Reader ε α} {f : α → Reader ε β} {bs cs : Bytes} {a : α} {b : β}
    (hr : Reads r bs a) (hf : Reads (f a) cs b) : Reads (r >>= f) (bs ++ cs) b := by
  intro rest
  change (r (bs ++ cs ++ rest) >>= fun p => f p.1 p.2) = _
  rw [List.append_assoc, hr, ok_bind, hf]

theorem Reads.bytes (e : ε) {n : ℕ} {bs : Bytes} (h : bs.length = n) : Reads (bytes e n) bs bs := by
  intro rest
  subst h
  simp [Reader.bytes]

theorem Reads.require {c : Prop} [Decidable c] (e : ε) (h : c) : Reads (require c e) [] () := by
  intro rest
  simp [Reader.require, h]

theorem Reads.word (e : ε) {n x : ℕ} (h : x < 256 ^ n) : Reads (word e n) (beBytes n x) x := by
  have hread := (Reads.bytes e (beBytes_length n x)).bind (f := fun bs => Pure.pure (beNat bs)) (.pure _)
  rwa [List.append_nil, beNat_beBytes n x h] at hread

/-- Values of which `r` reads the encodings. -/
theorem Reads.many {γ : Type} {r : Reader ε α} {enc : γ → Bytes} {val : γ → α} {l : List γ}
    (h : ∀ c ∈ l, Reads r (enc c) (val c)) : Reads (many r l.length) (l.flatMap enc) (l.map val) := by
  induction l with
  | nil => exact .pure []
  | cons c l ih =>
    have htail : Reads (r.many l.length >>= fun as => Pure.pure (val c :: as)) (l.flatMap enc ++ [])
        (val c :: l.map val) := (ih fun b hb => h b (by simp [hb])).bind (.pure _)
    rw [List.append_nil] at htail
    exact (h c (by simp)).bind htail

/-- Go on with the rest of the input. -/
theorem Reads.run_bind {r : Reader ε α} {bs : Bytes} {a : α} (h : Reads r bs a) (f : α → Reader ε β) (rest : Bytes) :
    (r >>= f) (bs ++ rest) = f a rest := by
  change (r (bs ++ rest) >>= fun p => f p.1 p.2) = _
  rw [h, ok_bind]

/-! ## What was read -/

section
variable {input rest : Bytes} {b : β}

theorem run_bind_ok {r : Reader ε α} {f : α → Reader ε β} :
    (r >>= f) input = .ok (b, rest) ↔ ∃ a mid, r input = .ok (a, mid) ∧ f a mid = .ok (b, rest) := by
  change (r input >>= fun p => f p.1 p.2) = _ ↔ _
  rw [bind_eq_ok]
  exact ⟨fun ⟨p, h, h'⟩ => ⟨p.1, p.2, h, h'⟩, fun ⟨a, mid, h, h'⟩ => ⟨(a, mid), h, h'⟩⟩

theorem run_pure_ok {a : β} : (Pure.pure a : Reader ε β) input = .ok (b, rest) ↔ a = b ∧ input = rest := by
  change Except.ok (a, input) = _ ↔ _
  rw [Except.ok.injEq, Prod.mk.injEq]

theorem run_require_ok {c : Prop} [Decidable c] {e : ε} {u : Unit} :
    require c e input = .ok (u, rest) ↔ c ∧ input = rest := by
  unfold require
  split <;> simp_all

theorem run_finish_ok {e : ε} {u : Unit} : finish e input = .ok (u, rest) ↔ input = [] ∧ rest = [] := by
  unfold finish
  split <;> simp_all [eq_comm]

end

/-- What `r` reads is the encoding of what it returns, which satisfies `P`. -/
def Spells (r : Reader ε α) (enc : α → Bytes) (P : α → Prop) : Prop :=
  ∀ input a rest, r input = .ok (a, rest) → input = enc a ++ rest ∧ P a

theorem Spells.bytes (e : ε) (n : ℕ) : Spells (bytes e n) id fun bs => bs.length = n := by
  intro input a rest h
  unfold Reader.bytes at h
  split at h
  · cases h
    exact ⟨(List.take_append_drop n input).symm, List.length_take_of_le ‹_›⟩
  · cases h

theorem Spells.word (e : ε) (n : ℕ) : Spells (word e n) (beBytes n) (· < 256 ^ n) := by
  intro input x rest h
  obtain ⟨bs, mid, hbytes, h⟩ := run_bind_ok.1 h
  obtain ⟨rfl, rfl⟩ := run_pure_ok.1 h
  obtain ⟨rfl, rfl⟩ := Spells.bytes _ _ _ _ _ hbytes
  exact ⟨by rw [beBytes_beNat]; rfl, beNat_lt bs⟩

theorem Spells.many {r : Reader ε α} {enc : α → Bytes} {P : α → Prop} (h : Spells r enc P) (n : ℕ) :
    Spells (many r n) (·.flatMap enc) fun l => l.length = n ∧ ∀ a ∈ l, P a := by
  induction n with
  | zero =>
    intro input l rest hread
    obtain ⟨rfl, rfl⟩ := run_pure_ok.1 hread
    exact ⟨rfl, rfl, by simp⟩
  | succ n ih =>
    intro input l rest hread
    obtain ⟨a, mid, hfirst, hread⟩ := run_bind_ok.1 hread
    obtain ⟨as, mid', hothers, hread⟩ := run_bind_ok.1 hread
    obtain ⟨rfl, rfl⟩ := run_pure_ok.1 hread
    obtain ⟨rfl, ha⟩ := h _ _ _ hfirst
    obtain ⟨rfl, hlength, has⟩ := ih _ _ _ hothers
    refine ⟨by simp, by simp [hlength], ?_⟩
    simpa using ⟨ha, has⟩

/-- Read a whole input. -/
def parse (r : Reader ε α) (input : Bytes) : Except ε α := do
  let (a, _) ← r input
  .ok a

end Reader

end LanLink.Lib
