import LanLink.Lib.Bytes
/-!
# Formats

A format says which bytes stand for which values: a reader of the format takes
exactly what the writer writes for a value that it allows. A record is read field
by field; `Record` carries what the fields read so far say about it, so that the
reader of a record is shown correct from the front, one rule a step.
-/
namespace LanLink.Lib.Reader

variable {ε α β : Type}

/-- `r` takes what `write` writes for an allowed value, and nothing else. -/
def Format (r : Reader ε α) (write : α → Bytes) (allowed : α → Prop) : Prop :=
  ∀ input a rest, r input = .ok (a, rest) ↔ input = write a ++ rest ∧ allowed a

/-- The same where `known` is known of the value already. What follows it satisfies `after`. -/
def Record (after : Bytes → Prop) (known : β → Prop) (r : Reader ε β) (write : β → Bytes) (allowed : β → Prop) : Prop :=
  ∀ input b rest, r input = .ok (b, rest) ↔ input = write b ++ rest ∧ after rest ∧ known b ∧ allowed b

/-- A record that more may follow. -/
abbrev Open : Bytes → Prop := fun _ => True

/-- A record at the end of the input. -/
abbrev Closed : Bytes → Prop := (· = [])

/-! ## Fields -/

theorem Format.of_spells {r : Reader ε α} {write : α → Bytes} {allowed : α → Prop} (hspells : Spells r write allowed)
    (hreads : ∀ a, allowed a → Reads r (write a) a) : Format r write allowed := by
  intro input a rest
  constructor
  · exact hspells input a rest
  · rintro ⟨rfl, ha⟩
    exact hreads a ha rest

theorem Format.bytes (e : ε) (n : ℕ) : Format (bytes e n) id fun bs => bs.length = n :=
  .of_spells (.bytes e n) fun _ h => .bytes e h

theorem Format.word (e : ε) (n : ℕ) : Format (word e n) (beBytes n) (· < 256 ^ n) :=
  .of_spells (.word e n) fun _ h => .word e h

/-- As many values as are asked for. -/
theorem Format.many {r : Reader ε α} {write : α → Bytes} {allowed : α → Prop} (h : Format r write allowed) (n : ℕ) :
    Format (many r n) (·.flatMap write) fun l => l.length = n ∧ ∀ a ∈ l, allowed a := by
  refine .of_spells (Spells.many (fun input a rest => (h input a rest).1) n) ?_
  rintro l ⟨rfl, hl⟩
  have hreads : Reads (r.many l.length) (l.flatMap write) (l.map id) :=
    .many fun a ha rest => (h _ a rest).2 ⟨rfl, hl a ha⟩
  rwa [List.map_id] at hreads

/-- What a format writes says which value was written. -/
theorem Format.cancel {r : Reader ε α} {write : α → Bytes} {allowed : α → Prop} (h : Format r write allowed) {a b : α} {rest rest' : Bytes}
    (ha : allowed a) (hb : allowed b) (heq : write a ++ rest = write b ++ rest') : a = b ∧ rest = rest' := by
  have hread := (h _ a rest).2 ⟨rfl, ha⟩
  rw [(h _ b rest').2 ⟨heq, hb⟩] at hread
  rcases Except.ok.inj hread with ⟨⟩
  exact ⟨rfl, rfl⟩

theorem Format.congr {r : Reader ε α} {write write' : α → Bytes} {allowed allowed' : α → Prop} (h : Format r write allowed)
    (hallowed : ∀ a, allowed a ↔ allowed' a) (hwrite : ∀ a, allowed a → write a = write' a) : Format r write' allowed' := by
  intro input a rest
  rw [h input a rest, ← hallowed]
  constructor
  · rintro ⟨rfl, ha⟩
    exact ⟨by rw [hwrite a ha], ha⟩
  · rintro ⟨rfl, ha⟩
    exact ⟨by rw [hwrite a ha], ha⟩

/-- Another representation of what is read. -/
theorem Format.map {r : Reader ε α} {write : α → Bytes} {allowed : α → Prop} (h : Format r write allowed) (f : α → β) (g : β → α)
    (hfg : ∀ b, f (g b) = b) (hgf : ∀ a, allowed a → g (f a) = a) :
    Format (r >>= fun a => Pure.pure (f a)) (fun b => write (g b)) fun b => allowed (g b) := by
  intro input b rest
  rw [run_bind_ok]
  constructor
  · rintro ⟨a, mid, hread, hpure⟩
    obtain ⟨rfl, ha⟩ := (h _ _ _).1 hread
    obtain ⟨rfl, rfl⟩ := run_pure_ok.1 hpure
    dsimp only
    rw [hgf a ha]
    exact ⟨rfl, ha⟩
  · rintro ⟨rfl, hb⟩
    exact ⟨g b, rest, (h _ _ _).2 ⟨rfl, hb⟩, run_pure_ok.2 ⟨hfg b, rfl⟩⟩

section
variable {r : Reader ε ℕ}

theorem Format.uint8 (h : Format r (beBytes 1) (· < 256 ^ 1)) :
    Format (r >>= fun x => Pure.pure (UInt8.ofNat x)) (fun x => beBytes 1 x.toNat) fun _ => True := by
  refine (h.map UInt8.ofNat UInt8.toNat (fun x => UInt8.ofNat_toNat) ?_).congr ?_ fun _ _ => rfl
  · intro x hx
    exact UInt8.toNat_ofNat_of_lt' hx
  · intro x
    exact iff_true_intro x.toNat_lt

theorem Format.uint16 (h : Format r (beBytes 2) (· < 256 ^ 2)) :
    Format (r >>= fun x => Pure.pure (UInt16.ofNat x)) (fun x => beBytes 2 x.toNat) fun _ => True := by
  refine (h.map UInt16.ofNat UInt16.toNat (fun x => UInt16.ofNat_toNat) ?_).congr ?_ fun _ _ => rfl
  · intro x hx
    exact UInt16.toNat_ofNat_of_lt' hx
  · intro x
    exact iff_true_intro x.toNat_lt

theorem Format.uint32 (h : Format r (beBytes 4) (· < 256 ^ 4)) :
    Format (r >>= fun x => Pure.pure (UInt32.ofNat x)) (fun x => beBytes 4 x.toNat) fun _ => True := by
  refine (h.map UInt32.ofNat UInt32.toNat (fun x => UInt32.ofNat_toNat) ?_).congr ?_ fun _ _ => rfl
  · intro x hx
    exact UInt32.toNat_ofNat_of_lt' hx
  · intro x
    exact iff_true_intro x.toNat_lt

theorem Format.uint64 (h : Format r (beBytes 8) (· < 256 ^ 8)) :
    Format (r >>= fun x => Pure.pure (UInt64.ofNat x)) (fun x => beBytes 8 x.toNat) fun _ => True := by
  refine (h.map UInt64.ofNat UInt64.toNat (fun x => UInt64.ofNat_toNat) ?_).congr ?_ fun _ _ => rfl
  · intro x hx
    exact UInt64.toNat_ofNat_of_lt' hx
  · intro x
    exact iff_true_intro x.toNat_lt

end

/-! ## Records -/

section
variable {after : Bytes → Prop} {known : β → Prop}

/-- The next field of the record. -/
theorem Record.field {r : Reader ε α} {f : α → Reader ε β} {write : α → Bytes} {write' : β → Bytes} {allowed : α → Prop}
    {allowed' : β → Prop} (get : β → α) (h : Format r write allowed)
    (hf : ∀ a, allowed a → Record after (fun b => known b ∧ get b = a) (f a) write' allowed') :
    Record after known (r >>= f) (fun b => write (get b) ++ write' b) fun b => allowed (get b) ∧ allowed' b := by
  intro input b rest
  rw [run_bind_ok]
  constructor
  · rintro ⟨a, mid, hread, hrest⟩
    obtain ⟨rfl, ha⟩ := (h _ _ _).1 hread
    obtain ⟨rfl, hafter, ⟨hknown, rfl⟩, hb⟩ := (hf _ ha _ _ _).1 hrest
    exact ⟨(List.append_assoc _ _ _).symm, hafter, hknown, ha, hb⟩
  · rintro ⟨rfl, hafter, hknown, ha, hb⟩
    refine ⟨get b, write' b ++ rest, (h _ _ _).2 ⟨List.append_assoc _ _ _, ha⟩, ?_⟩
    exact (hf _ ha _ _ _).2 ⟨rfl, hafter, ⟨hknown, rfl⟩, hb⟩

/-- A check on the fields read so far. -/
theorem Record.require {r : Reader ε β} {write : β → Bytes} {allowed : β → Prop} {c : Prop} [Decidable c] {e : ε}
    (checked : β → Prop) (hc : ∀ b, known b → (checked b ↔ c)) (h : c → Record after known r write allowed) :
    Record after known (Reader.require c e >>= fun _ => r) write fun b => checked b ∧ allowed b := by
  intro input b rest
  simp only [run_bind_ok, run_require_ok]
  constructor
  · rintro ⟨-, _, ⟨hcheck, rfl⟩, hrest⟩
    obtain ⟨rfl, hafter, hknown, hb⟩ := (h hcheck _ _ _).1 hrest
    exact ⟨rfl, hafter, hknown, (hc b hknown).2 hcheck, hb⟩
  · rintro ⟨rfl, hafter, hknown, hchecked, hb⟩
    have hcheck := (hc b hknown).1 hchecked
    exact ⟨(), _, ⟨hcheck, rfl⟩, (h hcheck _ _ _).2 ⟨rfl, hafter, hknown, hb⟩⟩

/-- A value that is a function of the fields read so far, if it is one at all. -/
theorem Record.value {r : Reader ε α} {f : α → Reader ε β} {write : β → Bytes} {allowed : β → Prop} (get : β → α) (possible : α → Prop)
    (hr : ∀ input a rest, r input = .ok (a, rest) ↔ input = rest ∧ possible a) (hget : ∀ b, known b → allowed b → possible (get b))
    (hf : ∀ a, possible a → Record after (fun b => known b ∧ get b = a) (f a) write allowed) :
    Record after known (r >>= f) write allowed := by
  intro input b rest
  rw [run_bind_ok]
  constructor
  · rintro ⟨a, mid, hread, hrest⟩
    obtain ⟨rfl, ha⟩ := (hr _ _ _).1 hread
    obtain ⟨rfl, hafter, ⟨hknown, -⟩, hb⟩ := (hf _ ha _ _ _).1 hrest
    exact ⟨rfl, hafter, hknown, hb⟩
  · rintro ⟨rfl, hafter, hknown, hb⟩
    have ha := hget b hknown hb
    exact ⟨get b, _, (hr _ _ _).2 ⟨rfl, ha⟩, (hf _ ha _ _ _).2 ⟨rfl, hafter, ⟨hknown, rfl⟩, hb⟩⟩

/-- Nothing follows the fields. -/
theorem Record.finish {r : Reader ε β} {allowed : β → Prop} (e : ε) (h : Record Open known r (fun _ => []) allowed) :
    Record Closed known (Reader.finish e >>= fun _ => r) (fun _ => []) allowed := by
  intro input b rest
  simp only [run_bind_ok, run_finish_ok]
  constructor
  · rintro ⟨-, _, ⟨rfl, rfl⟩, hrest⟩
    obtain ⟨hempty, -, hknown, hb⟩ := (h _ _ _).1 hrest
    exact ⟨hempty, hempty.symm, hknown, hb⟩
  · rintro ⟨rfl, rfl, hknown, hb⟩
    exact ⟨(), [], ⟨rfl, rfl⟩, (h _ _ _).2 ⟨rfl, trivial, hknown, hb⟩⟩

/-- The fields that were not read have the values that `allowed` asks for. -/
theorem Record.rest {v : β} (allowed : β → Prop) (h : ∀ b, known b ∧ allowed b ↔ v = b) :
    Record Open known (Pure.pure v : Reader ε β) (fun _ => []) allowed := by
  intro input b rest
  rw [run_pure_ok]
  constructor
  · rintro ⟨rfl, rfl⟩
    obtain ⟨hknown, hv⟩ := (h v).2 rfl
    exact ⟨rfl, trivial, hknown, hv⟩
  · rintro ⟨rfl, -, hknown, hb⟩
    exact ⟨(h b).1 ⟨hknown, hb⟩, rfl⟩

/-- All fields were read. -/
theorem Record.pure {v : β} (h : ∀ b, known b ↔ v = b) :
    Record Open known (Pure.pure v : Reader ε β) (fun _ => []) fun _ => True :=
  .rest _ fun b => (and_iff_left trivial).trans (h b)

theorem Record.congr {r : Reader ε β} {write write' : β → Bytes} {allowed allowed' : β → Prop}
    (h : Record after known r write allowed) (hallowed : ∀ b, known b → (allowed b ↔ allowed' b))
    (hwrite : ∀ b, known b → allowed' b → write b = write' b) : Record after known r write' allowed' := by
  intro input b rest
  rw [h input b rest]
  constructor
  · rintro ⟨rfl, hafter, hknown, hb⟩
    have hb' := (hallowed b hknown).1 hb
    exact ⟨by rw [hwrite b hknown hb'], hafter, hknown, hb'⟩
  · rintro ⟨rfl, hafter, hknown, hb'⟩
    exact ⟨by rw [hwrite b hknown hb'], hafter, hknown, (hallowed b hknown).2 hb'⟩

/-- A field whose format depends on a part of the value that was read before. -/
theorem Record.tagged {γ : Type} {r : Reader ε α} {f : α → Reader ε β} {write : γ → α → Bytes} {write' : β → Bytes}
    {allowed : γ → α → Prop} {allowed' : β → Prop} {t : γ} (get : β → α) (tag : β → γ) (htag : ∀ b, known b → tag b = t)
    (h : Format r (write t) (allowed t))
    (hf : ∀ a, allowed t a → Record after (fun b => known b ∧ get b = a) (f a) write' allowed') :
    Record after known (r >>= f) (fun b => write (tag b) (get b) ++ write' b) fun b => allowed (tag b) (get b) ∧ allowed' b := by
  refine (Record.field get h hf).congr ?_ ?_
  · intro b hknown
    rw [htag b hknown]
  · intro b hknown _
    rw [htag b hknown]

end

section
variable {r : Reader ε β} {write : β → Bytes} {allowed : β → Prop}

/-- A whole record is a format. -/
theorem Record.format (h : Record Open (fun _ => True) r write allowed) : Format r write allowed := by
  intro input b rest
  rw [h input b rest]
  constructor
  · rintro ⟨hinput, -, -, hb⟩
    exact ⟨hinput, hb⟩
  · rintro ⟨hinput, hb⟩
    exact ⟨hinput, trivial, trivial, hb⟩

/-- The inputs a reader of a whole input accepts. -/
theorem Record.parse_eq_ok (h : Record Closed (fun _ => True) r write allowed) {input : Bytes} {b : β} :
    r.parse input = .ok b ↔ input = write b ∧ allowed b := by
  simp only [parse, bind_eq_ok, Except.ok.injEq]
  constructor
  · rintro ⟨⟨b', rest⟩, hread, rfl⟩
    obtain ⟨rfl, rfl, -, hb⟩ := (h _ _ _).1 hread
    exact ⟨List.append_nil _, hb⟩
  · rintro ⟨rfl, hb⟩
    exact ⟨(b, []), (h _ _ _).2 ⟨(List.append_nil _).symm, rfl, trivial, hb⟩, rfl⟩

end

end LanLink.Lib.Reader
