import LanLink.Lib.Guards
/-!
# Decoding a stream item by item

A `Scanner` looks at the front of a stream and says that more is needed, that
the stream is broken, or which item stands there and how long it is. What it
says once, it says whatever follows. `drain` takes items off the front until
more is needed. A stream fed piece by piece, with the undecoded rest kept
between the pieces, gives what the whole stream gives.
-/
namespace LanLink.Lib

variable {α ε φ : Type}

/-- What stands at the front of a stream. -/
inductive Scan (ε φ : Type) where
  | more
  | fail (e : ε)
  | item (a : φ) (size : ℕ)

/-- A look at the front of a stream whose answer no later input changes. -/
structure Scanner (α ε φ : Type) where
  scan : List α → Scan ε φ
  scan_nil : scan [] = .more
  size_pos : ∀ {bs a n}, scan bs = .item a n → 0 < n
  size_le : ∀ {bs a n}, scan bs = .item a n → n ≤ bs.length
  item_append : ∀ {bs a n} (rest : List α), scan bs = .item a n → scan (bs ++ rest) = .item a n
  fail_append : ∀ {bs e} (rest : List α), scan bs = .fail e → scan (bs ++ rest) = .fail e

namespace Scanner
variable (s : Scanner α ε φ)

/-- Put items in front of those of a later result. -/
def prepend (items : List φ) (r : List φ × List α) : List φ × List α := (items ++ r.1, r.2)

@[simp] theorem prepend_nil : prepend ([] : List φ) = (id : List φ × List α → _) := by
  funext r
  rfl

@[simp] theorem prepend_prepend (as bs : List φ) (r : List φ × List α) :
    prepend as (prepend bs r) = prepend (as ++ bs) r := by
  simp [prepend]

/-- The items at the front of a stream, and what is left when more is needed. -/
def drain (bs : List α) : Except ε (List φ × List α) :=
  match h : s.scan bs with
  | .more => .ok ([], bs)
  | .fail e => .error e
  | .item a n => (drain (bs.drop n)).map (prepend [a])
termination_by bs.length
decreasing_by
  have hpos := s.size_pos h
  have hle := s.size_le h
  simp only [List.length_drop]
  omega

variable {s}

theorem drain_more {bs : List α} (h : s.scan bs = .more) : s.drain bs = .ok ([], bs) := by
  rw [drain]
  split <;> simp_all

theorem drain_fail {bs : List α} {e : ε} (h : s.scan bs = .fail e) : s.drain bs = .error e := by
  rw [drain]
  split <;> simp_all

theorem drain_item {bs : List α} {a : φ} {n : ℕ} (h : s.scan bs = .item a n) :
    s.drain bs = (s.drain (bs.drop n)).map (prepend [a]) := by
  conv => lhs; rw [drain]
  split
  · simp_all
  · simp_all
  · rename_i a' n' h'
    rw [h] at h'
    cases h'
    rfl

/-- What is left after draining needs more. -/
theorem scan_rest {bs rest : List α} {items : List φ} (h : s.drain bs = .ok (items, rest)) : s.scan rest = .more := by
  fun_induction drain s bs generalizing items with
  | case1 bs hscan =>
    cases h
    exact hscan
  | case2 bs e hscan => cases h
  | case3 bs a n hscan ih =>
    cases htail : s.drain (bs.drop n) with
    | error e => simp [htail, Except.map] at h
    | ok r =>
      rw [htail] at h
      cases h
      exact ih htail

/-- A stream in two parts: drain the first, then the second after what is left. -/
theorem drain_append (bs rest : List α) :
    s.drain (bs ++ rest) = s.drain bs >>= fun r => (s.drain (r.2 ++ rest)).map (prepend r.1) := by
  fun_induction drain s bs with
  | case1 bs hscan => simp [Except.map_id]
  | case2 bs e hscan =>
    rw [drain_fail (s.fail_append rest hscan)]
    rfl
  | case3 bs a n hscan ih =>
    rw [drain_item (s.item_append rest hscan), List.drop_append_of_le_length (s.size_le hscan), ih]
    cases s.drain (bs.drop n) with
    | error e => rfl
    | ok r =>
      change Except.map (prepend [a]) ((s.drain (r.2 ++ rest)).map (prepend r.1)) =
        (s.drain (r.2 ++ rest)).map (prepend (a :: r.1))
      cases s.drain (r.2 ++ rest) with
      | error e => rfl
      | ok t => simp [Except.map]

/-- What draining throws, some look at the stream found. -/
theorem exists_scan_fail {bs : List α} {e : ε} (h : s.drain bs = .error e) : ∃ front, s.scan front = .fail e := by
  fun_induction drain s bs with
  | case1 bs hscan => cases h
  | case2 bs e' hscan =>
    cases h
    exact ⟨bs, hscan⟩
  | case3 bs a n hscan ih =>
    cases htail : s.drain (bs.drop n) with
    | error e' =>
      rw [htail] at h
      cases h
      exact ih htail
    | ok r => simp [htail, Except.map] at h

/-- Items written one after the other are read back. -/
theorem drain_flatten {δ : Type} {enc : φ → Except δ (List α)}
    (henc : ∀ {a bs}, enc a = .ok bs → s.scan bs = .item a bs.length) {items : List φ} {encs : List (List α)}
    (h : items.mapM enc = .ok encs) : s.drain encs.flatten = .ok (items, []) := by
  induction items generalizing encs with
  | nil =>
    simp only [List.mapM_nil, pure_eq_ok] at h
    subst h
    exact drain_more s.scan_nil
  | cons a items ih =>
    simp only [List.mapM_cons, bind_eq_ok, pure_eq_ok] at h
    obtain ⟨bs, ha, rest, hrest, rfl⟩ := h
    rw [List.flatten_cons, drain_item (s.item_append _ (henc ha)), List.drop_left, ih hrest]
    rfl

/-- What is cut off before its end asks for more. -/
theorem scan_extended {bs whole : List α} {a : φ} (hwhole : s.scan whole = .item a whole.length) (h : bs <+: whole)
    (hlt : bs.length < whole.length) : s.scan bs = .more := by
  obtain ⟨rest, rfl⟩ := h
  cases hscan : s.scan bs with
  | more => rfl
  | fail e =>
    rw [s.fail_append rest hscan] at hwhole
    cases hwhole
  | item a' n =>
    -- an item found early would end before the whole does
    have hle := s.size_le hscan
    rw [s.item_append rest hscan] at hwhole
    cases hwhole
    omega

/-- The stream that `items` are written as, one after the other. -/
def wire (enc : φ → List α) (items : List φ) : List α := (items.map enc).flatten

@[simp] theorem wire_nil (enc : φ → List α) : wire enc [] = [] := rfl

@[simp] theorem wire_cons (enc : φ → List α) (a : φ) (items : List φ) : wire enc (a :: items) = enc a ++ wire enc items := rfl

@[simp] theorem wire_append (enc : φ → List α) (items more : List φ) :
    wire enc (items ++ more) = wire enc items ++ wire enc more := by
  simp [wire]

/-- From the front of a stream of items come the items that are there whole. -/
theorem drain_prefix {enc : φ → List α} {items : List φ} (henc : ∀ a ∈ items, s.scan (enc a) = .item a (enc a).length)
    {bs : List α} (h : bs <+: wire enc items) :
    ∃ m rest, s.drain bs = .ok (items.take m, rest) ∧ bs = wire enc (items.take m) ++ rest ∧
      (m < items.length → bs.length < (wire enc (items.take (m + 1))).length) := by
  induction items generalizing bs with
  | nil =>
    rw [wire_nil, List.prefix_nil] at h
    subst h
    exact ⟨0, [], drain_more s.scan_nil, rfl, fun h => absurd h (by simp)⟩
  | cons a items ih =>
    have ha := henc a List.mem_cons_self
    rw [wire_cons] at h
    by_cases hlen : (enc a).length ≤ bs.length
    · obtain ⟨tail, rfl⟩ := List.prefix_of_prefix_length_le (List.prefix_append _ _) h hlen
      obtain ⟨m, rest, hdrain, hbs, hnext⟩ := ih (fun b hb => henc b (List.mem_cons_of_mem a hb))
        ((List.prefix_append_right_inj _).1 h)
      refine ⟨m + 1, rest, ?_, ?_, ?_⟩
      · rw [drain_item (s.item_append tail ha), List.drop_left, hdrain]
        rfl
      · rw [List.take_succ_cons, wire_cons, List.append_assoc, ← hbs]
      · intro hm
        rw [List.take_succ_cons, wire_cons, List.length_append, List.length_append]
        have hlt := hnext (Nat.lt_of_succ_lt_succ hm)
        omega
    · refine ⟨0, bs, drain_more (scan_extended ha ?_ (Nat.lt_of_not_le hlen)), rfl, fun _ => ?_⟩
      · exact List.prefix_of_prefix_length_le h (List.prefix_append _ _) (Nat.le_of_not_le hlen)
      · simp only [List.take_succ_cons, List.take_zero, wire_cons, wire_nil, List.append_nil]
        exact Nat.lt_of_not_le hlen

end Scanner

end LanLink.Lib
