import LanLink.Lib.Spans
import LanLink.Lib.Utf8
import LanLink.Protocol.Messages
/-!
# Network names

`valid_network_name` scans its bytes with a decoder of its own. Here is the scan
with every index it reads: none is past the end, so it is the `nameScan` of
`Protocol/Messages`, and what it accepts is UTF-8 without control characters.
-/
open LanLink.Lib

namespace LanLink

/-! ## The scan -/

namespace Indexed

/-- The bits of the code point that the first byte holds, and the number of bytes after it. -/
def leadByte (first : UInt8) : Option (ℕ × ℕ) :=
  if first ≤ 0x7f then some (first.toNat, 0)
  else if 0xc2 ≤ first ∧ first ≤ 0xdf then some (first.toNat % 32, 1)
  else if 0xe0 ≤ first ∧ first ≤ 0xef then some (first.toNat % 16, 2)
  else if 0xf0 ≤ first ∧ first ≤ 0xf4 then some (first.toNat % 8, 3)
  else none

/-- The loop over the continuation bytes; none if there is another byte among them. -/
def continuation (name : Text) (offset : ℕ) : ℕ → ℕ → Except (Fault Exn) (Option ℕ)
  | 0, codePoint => .ok (some codePoint)
  | count + 1, codePoint => do
    let next ← readAt name offset
    if continuationByte next then continuation name (offset + 1) count (continued codePoint next) else .ok none

/-- The smallest code point that needs this many continuation bytes. -/
def leastCodePoint : ℕ → ℕ
  | 0 => 0
  | 1 => 0x80
  | 2 => 0x800
  | _ => 0x10000

/-- The scan from `offset` on. -/
def nameScan (name : Text) (offset : ℕ) : Except (Fault Exn) Bool :=
  if offset < name.length then do
    let first ← readAt name offset
    match leadByte first with
    | none => .ok false
    | some (codePoint, count) =>
      if name.length - offset - 1 < count then .ok false
      else do
        let codePoint ← continuation name (offset + 1) count codePoint
        match codePoint with
        | none => .ok false
        | some codePoint =>
          if nameCodePoint (leastCodePoint count) codePoint then nameScan name (offset + count + 1) else .ok false
  else .ok true
termination_by name.length - offset
decreasing_by omega

def validNetworkName (name : Text) : Except (Fault Exn) Bool :=
  if name = [] ∨ maxNetworkNameSize < name.length then .ok false else nameScan name 0

end Indexed

/-! ## What it accepts -/

/-- A C0 control, DEL or a C1 control. -/
def IsControl (c : Char) : Prop := c.toNat < 0x20 ∨ c.toNat = 0x7f ∨ (0x80 ≤ c.toNat ∧ c.toNat ≤ 0x9f)

theorem continuationByte_iff {b : UInt8} : continuationByte b = true ↔ IsContinuation b := by
  have h : ∀ v : BitVec 8, continuationByte (UInt8.ofBitVec v) = true ↔
      0x80 ≤ (UInt8.ofBitVec v).toNat ∧ (UInt8.ofBitVec v).toNat ≤ 0xbf := by
    decide +kernel
  exact h b.toBitVec

/-- The code points that pass are characters, in their shortest form. -/
theorem nameCodePoint_iff {least v : ℕ} : nameCodePoint least v = true ↔ least ≤ v ∧ ∃ c : Char, c.toNat = v ∧ ¬ IsControl c := by
  simp only [nameCodePoint, Bool.and_eq_true, Bool.not_eq_true', Bool.and_eq_false_iff, Bool.or_eq_false_iff, decide_eq_true_eq,
    decide_eq_false_iff_not]
  constructor
  · rintro ⟨⟨⟨hleast, hsurrogate⟩, hmax⟩, hcontrol⟩
    have hvalid : v.isValidChar := by
      unfold Nat.isValidChar
      omega
    have hv := toNat_ofNat_of_valid hvalid
    refine ⟨hleast, Char.ofNat v, hv, ?_⟩
    rw [IsControl, hv]
    omega
  · rintro ⟨hleast, c, rfl, hcontrol⟩
    have hvalid := c.valid
    change c.toNat.isValidChar at hvalid
    unfold Nat.isValidChar at hvalid
    unfold IsControl at hcontrol
    omega

/-- The scan with the ranges of the first byte as numbers. -/
theorem nameScan_cons (b : UInt8) (rest : Text) : nameScan (b :: rest) =
    if b.toNat ≤ 0x7f then nameCodePoint 0 b.toNat && nameScan rest
    else if 0xc2 ≤ b.toNat ∧ b.toNat ≤ 0xdf then
      match rest with
      | c :: rest => continuationByte c && nameCodePoint 0x80 (continued (b.toNat % 32) c) && nameScan rest
      | [] => false
    else if 0xe0 ≤ b.toNat ∧ b.toNat ≤ 0xef then
      match rest with
      | c :: d :: rest =>
        continuationByte c && continuationByte d && nameCodePoint 0x800 (continued (continued (b.toNat % 16) c) d) && nameScan rest
      | _ => false
    else if 0xf0 ≤ b.toNat ∧ b.toNat ≤ 0xf4 then
      match rest with
      | c :: d :: e :: rest =>
        continuationByte c && continuationByte d && continuationByte e &&
          nameCodePoint 0x10000 (continued (continued (continued (b.toNat % 8) c) d) e) && nameScan rest
      | _ => false
    else false := by
  rw [nameScan.eq_def]
  simp only [UInt8.le_iff_toNat_le]
  rfl

/-- The bytes of a character that passes are taken, and the scan goes on. -/
theorem nameScan_encode {c : Char} (hc : ¬ IsControl c) (rest : Text) :
    nameScan (String.utf8EncodeChar c ++ rest) = nameScan rest := by
  rcases utf8EncodeChar_cases c with ⟨a, heq⟩ | ⟨a, b, heq⟩ | ⟨a, b, d, heq⟩ | ⟨a, b, d, e, heq⟩
  · obtain ⟨ha, hv⟩ := utf8EncodeChar_one.1 heq
    have hpass : nameCodePoint 0 a.toNat = true := nameCodePoint_iff.2 ⟨Nat.zero_le _, c, hv, hc⟩
    rw [heq, List.singleton_append, nameScan_cons, if_pos ha, hpass, Bool.true_and]
  · obtain ⟨hlow, hhigh, hb, hv⟩ := utf8EncodeChar_two.1 heq
    have hpass : nameCodePoint 0x80 (continued (a.toNat % 32) b) = true :=
      nameCodePoint_iff.2 ⟨by unfold continued; omega, c, hv, hc⟩
    rw [heq, List.cons_append, List.singleton_append, nameScan_cons, if_neg (by omega), if_pos ⟨hlow, hhigh⟩]
    simp [continuationByte_iff.2 hb, hpass]
  · obtain ⟨hlow, hhigh, hb, hd, hleast, hv⟩ := utf8EncodeChar_three.1 heq
    have hpass : nameCodePoint 0x800 (continued (continued (a.toNat % 16) b) d) = true :=
      nameCodePoint_iff.2 ⟨hleast.trans hv.le, c, hv, hc⟩
    rw [heq, List.cons_append, List.cons_append, List.singleton_append, nameScan_cons, if_neg (by omega), if_neg (by omega),
      if_pos ⟨hlow, hhigh⟩]
    simp [continuationByte_iff.2 hb, continuationByte_iff.2 hd, hpass]
  · obtain ⟨hlow, hhigh, hb, hd, he, hleast, hv⟩ := utf8EncodeChar_four.1 heq
    have hpass : nameCodePoint 0x10000 (continued (continued (continued (a.toNat % 8) b) d) e) = true :=
      nameCodePoint_iff.2 ⟨hleast.trans hv.le, c, hv, hc⟩
    rw [heq, List.cons_append, List.cons_append, List.cons_append, List.singleton_append, nameScan_cons, if_neg (by omega),
      if_neg (by omega), if_neg (by omega), if_pos ⟨hlow, hhigh⟩]
    simp [continuationByte_iff.2 hb, continuationByte_iff.2 hd, continuationByte_iff.2 he, hpass]

/-- A character in front of the rest. -/
theorem spelled_cons {c : Char} {bytes rest : Text} (hbytes : String.utf8EncodeChar c = bytes) (hc : ¬ IsControl c)
    (h : ∃ cs : List Char, cs.flatMap String.utf8EncodeChar = rest ∧ ∀ c ∈ cs, ¬ IsControl c) :
    ∃ cs : List Char, cs.flatMap String.utf8EncodeChar = bytes ++ rest ∧ ∀ c ∈ cs, ¬ IsControl c := by
  obtain ⟨cs, rfl, hcs⟩ := h
  exact ⟨c :: cs, by rw [List.flatMap_cons, hbytes], List.forall_mem_cons.2 ⟨hc, hcs⟩⟩

/-- What the scan accepts is a sequence of characters, none of them a control. -/
theorem nameScan_iff {name : Text} :
    nameScan name = true ↔ ∃ cs : List Char, cs.flatMap String.utf8EncodeChar = name ∧ ∀ c ∈ cs, ¬ IsControl c := by
  constructor
  · intro h
    induction name using nameScan.induct with
    | case1 => exact ⟨[], rfl, by simp⟩
    | case2 b rest hone ih =>
      have hb : b.toNat ≤ 0x7f := UInt8.le_iff_toNat_le.1 hone
      rw [nameScan_cons, if_pos hb, Bool.and_eq_true, nameCodePoint_iff] at h
      obtain ⟨⟨-, c, hv, hc⟩, hrest⟩ := h
      exact spelled_cons (utf8EncodeChar_one.2 ⟨hb, hv⟩) hc (ih hrest)
    | case3 b hone htwo d rest ih =>
      have hlow : 0xc2 ≤ b.toNat := UInt8.le_iff_toNat_le.1 htwo.1
      have hhigh : b.toNat ≤ 0xdf := UInt8.le_iff_toNat_le.1 htwo.2
      rw [nameScan_cons, if_neg (by omega), if_pos ⟨hlow, hhigh⟩] at h
      simp only [Bool.and_eq_true, continuationByte_iff, nameCodePoint_iff] at h
      obtain ⟨⟨hd, -, c, hv, hc⟩, hrest⟩ := h
      exact spelled_cons (utf8EncodeChar_two.2 ⟨hlow, hhigh, hd, hv⟩) hc (ih hrest)
    | case4 b hone htwo =>
      rw [nameScan.eq_def] at h
      simp only [if_neg hone, if_pos htwo] at h
      cases h
    | case5 b hone htwo hthree d e rest ih =>
      have hlow : 0xe0 ≤ b.toNat := UInt8.le_iff_toNat_le.1 hthree.1
      have hhigh : b.toNat ≤ 0xef := UInt8.le_iff_toNat_le.1 hthree.2
      rw [nameScan_cons, if_neg (by omega), if_neg (by omega), if_pos ⟨hlow, hhigh⟩] at h
      simp only [Bool.and_eq_true, continuationByte_iff, nameCodePoint_iff] at h
      obtain ⟨⟨⟨hd, he⟩, hleast, c, hv, hc⟩, hrest⟩ := h
      exact spelled_cons (utf8EncodeChar_three.2 ⟨hlow, hhigh, hd, he, hleast.trans hv.ge, hv⟩) hc (ih hrest)
    | case6 b rest hone htwo hthree hshort =>
      rw [nameScan.eq_def] at h
      simp only [if_neg hone, if_neg htwo, if_pos hthree] at h
      cases h
    | case7 b hone htwo hthree hfour d e f rest ih =>
      have hlow : 0xf0 ≤ b.toNat := UInt8.le_iff_toNat_le.1 hfour.1
      have hhigh : b.toNat ≤ 0xf4 := UInt8.le_iff_toNat_le.1 hfour.2
      rw [nameScan_cons, if_neg (by omega), if_neg (by omega), if_neg (by omega), if_pos ⟨hlow, hhigh⟩] at h
      simp only [Bool.and_eq_true, continuationByte_iff, nameCodePoint_iff] at h
      obtain ⟨⟨⟨⟨hd, he⟩, hf⟩, hleast, c, hv, hc⟩, hrest⟩ := h
      exact spelled_cons (utf8EncodeChar_four.2 ⟨hlow, hhigh, hd, he, hf, hleast.trans hv.ge, hv⟩) hc (ih hrest)
    | case8 b rest hone htwo hthree hfour hshort =>
      rw [nameScan.eq_def] at h
      simp only [if_neg hone, if_neg htwo, if_neg hthree, if_pos hfour] at h
      cases h
    | case9 b rest hone htwo hthree hfour =>
      rw [nameScan.eq_def] at h
      simp only [if_neg hone, if_neg htwo, if_neg hthree, if_neg hfour] at h
      cases h
  · rintro ⟨cs, rfl, hcs⟩
    induction cs with
    | nil => rfl
    | cons c cs ih =>
      obtain ⟨hc, hcs⟩ := List.forall_mem_cons.1 hcs
      rw [List.flatMap_cons, nameScan_encode hc]
      exact ih hcs

/-! ## Every read is inside -/

namespace Indexed
variable {name rest : Text} {offset : ℕ} {b : UInt8}

theorem readAt_of_drop (h : name.drop offset = b :: rest) :
    (readAt name offset : Except (Fault Exn) UInt8) = .ok b ∧ name.drop (offset + 1) = rest ∧ name.length = offset + 1 + rest.length := by
  have hlength := congrArg List.length h
  rw [List.length_drop, List.length_cons] at hlength
  have hlt : offset < name.length := by omega
  rw [List.drop_eq_getElem_cons hlt] at h
  obtain ⟨rfl, rfl⟩ := List.cons.inj h
  refine ⟨?_, rfl, by rw [List.length_drop]; omega⟩
  rw [readAt, List.getElem?_eq_getElem hlt]

theorem continuation_cons (h : name.drop offset = b :: rest) (count codePoint : ℕ) :
    continuation name offset (count + 1) codePoint =
      if continuationByte b then continuation name (offset + 1) count (continued codePoint b) else .ok none := by
  rw [continuation, (readAt_of_drop h).1, ok_bind]

/-- One round of the scan. -/
theorem nameScan_cons (h : name.drop offset = b :: rest) : nameScan name offset =
    match leadByte b with
    | none => .ok false
    | some (codePoint, count) =>
      if rest.length < count then .ok false
      else continuation name (offset + 1) count codePoint >>= fun
        | none => .ok false
        | some codePoint =>
          if nameCodePoint (leastCodePoint count) codePoint then nameScan name (offset + count + 1) else .ok false := by
  obtain ⟨hread, hdrop, hlength⟩ := readAt_of_drop h
  rw [nameScan, if_pos (by omega), hread, ok_bind, show name.length - offset - 1 = rest.length by omega]

theorem ok_and (p q : Bool) : (if p then .ok q else .ok false : Except (Fault Exn) Bool) = .ok (p && q) := by
  cases p <;> rfl

theorem nameScan_eq (h : name.drop offset = rest) : nameScan name offset = .ok (LanLink.nameScan rest) := by
  induction rest using LanLink.nameScan.induct generalizing offset with
  | case1 =>
    have hend : name.length ≤ offset := List.drop_eq_nil_iff.1 h
    rw [nameScan, if_neg (by omega)]
    rfl
  | case2 b rest hone ih =>
    obtain ⟨-, hdrop, -⟩ := readAt_of_drop h
    rw [nameScan_cons h, LanLink.nameScan.eq_def, leadByte]
    simp only [if_pos hone]
    rw [if_neg (Nat.not_lt_zero _), continuation, ok_bind]
    dsimp only
    rw [ih hdrop, ok_and, leastCodePoint]
  | case3 b hone htwo d rest ih =>
    obtain ⟨-, hfirst, -⟩ := readAt_of_drop h
    obtain ⟨-, hrest, -⟩ := readAt_of_drop hfirst
    rw [nameScan_cons h, LanLink.nameScan.eq_def, leadByte]
    simp only [if_neg hone, if_pos htwo]
    rw [if_neg (by simp), continuation_cons hfirst]
    cases continuationByte d with
    | false => rfl
    | true =>
      rw [if_pos rfl, continuation, ok_bind]
      dsimp only
      rw [ih hrest, ok_and, leastCodePoint, Bool.true_and]
  | case4 b hone htwo =>
    rw [nameScan_cons h, LanLink.nameScan.eq_def, leadByte]
    simp only [if_neg hone, if_pos htwo]
    rfl
  | case5 b hone htwo hthree d e rest ih =>
    obtain ⟨-, hfirst, -⟩ := readAt_of_drop h
    obtain ⟨-, hsecond, -⟩ := readAt_of_drop hfirst
    obtain ⟨-, hrest, -⟩ := readAt_of_drop hsecond
    rw [nameScan_cons h, LanLink.nameScan.eq_def, leadByte]
    simp only [if_neg hone, if_neg htwo, if_pos hthree]
    rw [if_neg (by simp), continuation_cons hfirst, continuation_cons hsecond]
    cases continuationByte d with
    | false => rfl
    | true =>
      cases continuationByte e with
      | false => rfl
      | true =>
        rw [if_pos rfl, if_pos rfl, continuation, ok_bind]
        dsimp only
        rw [ih hrest, ok_and, leastCodePoint, Bool.true_and, Bool.true_and]
  | case6 b rest hone htwo hthree hshort =>
    rw [nameScan_cons h, LanLink.nameScan.eq_def, leadByte]
    simp only [if_neg hone, if_neg htwo, if_pos hthree]
    match rest, hshort with
    | [], _ => rfl
    | [d], _ => rfl
    | d :: e :: rest, hshort => exact (hshort d e rest rfl).elim
  | case7 b hone htwo hthree hfour d e f rest ih =>
    obtain ⟨-, hfirst, -⟩ := readAt_of_drop h
    obtain ⟨-, hsecond, -⟩ := readAt_of_drop hfirst
    obtain ⟨-, hthird, -⟩ := readAt_of_drop hsecond
    obtain ⟨-, hrest, -⟩ := readAt_of_drop hthird
    rw [nameScan_cons h, LanLink.nameScan.eq_def, leadByte]
    simp only [if_neg hone, if_neg htwo, if_neg hthree, if_pos hfour]
    rw [if_neg (by simp), continuation_cons hfirst, continuation_cons hsecond, continuation_cons hthird]
    cases continuationByte d with
    | false => rfl
    | true =>
      cases continuationByte e with
      | false => rfl
      | true =>
        cases continuationByte f with
        | false => rfl
        | true =>
          rw [if_pos rfl, if_pos rfl, if_pos rfl, continuation, ok_bind]
          dsimp only
          rw [ih hrest, ok_and, Bool.true_and, Bool.true_and, Bool.true_and]
          rfl
  | case8 b rest hone htwo hthree hfour hshort =>
    rw [nameScan_cons h, LanLink.nameScan.eq_def, leadByte]
    simp only [if_neg hone, if_neg htwo, if_neg hthree, if_pos hfour]
    match rest, hshort with
    | [], _ => rfl
    | [d], _ => rfl
    | [d, e], _ => rfl
    | d :: e :: f :: rest, hshort => exact (hshort d e f rest rfl).elim
  | case9 b rest hone htwo hthree hfour =>
    rw [nameScan_cons h, LanLink.nameScan.eq_def, leadByte]
    simp only [if_neg hone, if_neg htwo, if_neg hthree, if_neg hfour]

theorem validNetworkName_eq (name : Text) : validNetworkName name = .ok (LanLink.validNetworkName name) := by
  rw [validNetworkName, LanLink.validNetworkName]
  by_cases hlength : name = [] ∨ maxNetworkNameSize < name.length
  · rw [if_pos hlength]
    rcases hlength with hempty | hlong
    · simp [hempty]
    · simp [hlong]
  · rw [if_neg hlength, nameScan_eq (List.drop_zero)]
    rw [not_or, not_lt] at hlength
    simp [hlength.1, hlength.2]

end Indexed

/-- A name is accepted if and only if it is the UTF-8 encoding of characters that
are no controls, in 1 to 128 bytes. The scan ends and reads only bytes of the name. -/
theorem network_names (name : Text) : ∃ accepted, Indexed.validNetworkName name = .ok accepted ∧
    (accepted = true ↔ 1 ≤ name.length ∧ name.length ≤ 128 ∧
      ∃ cs : List Char, cs ≠ [] ∧ cs.flatMap String.utf8EncodeChar = name ∧ ∀ c ∈ cs, ¬ IsControl c) := by
  refine ⟨_, Indexed.validNetworkName_eq name, ?_⟩
  simp only [validNetworkName, Bool.and_eq_true, decide_eq_true_eq, nameScan_iff, maxNetworkNameSize]
  constructor
  · rintro ⟨⟨hne, hlength⟩, cs, hcs, hcontrol⟩
    refine ⟨List.length_pos_iff.2 hne, of_decide_eq_true hlength, cs, ?_, hcs, hcontrol⟩
    rintro rfl
    exact hne hcs.symm
  · rintro ⟨hpos, hlength, cs, -, hcs, hcontrol⟩
    exact ⟨⟨List.length_pos_iff.1 hpos, decide_eq_true hlength⟩, cs, hcs, hcontrol⟩

end LanLink
