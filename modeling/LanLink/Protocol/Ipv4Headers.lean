import LanLink.Protocol.Ipv4
/-!
# Reading and writing headers

What `inspect_ipv4` accepts, field by field. A write to one field leaves the
others alone, the checksum that `update_ipv4_checksum` writes is the one
`inspect_ipv4` looks for, and the options are a list of which the copied ones
are a part.
-/
open LanLink.Lib

namespace LanLink

/-! ## Fields -/

section
variable {bytes : Bytes} {offset value count i n : ℕ}

theorem length_putInt (h : offset + count ≤ bytes.length) : (putInt bytes offset value count).length = bytes.length := by
  simp only [putInt, List.length_append, List.length_take, beBytes_length, List.length_drop]
  omega

theorem getElem?_putInt (h : offset + count ≤ bytes.length) (i : ℕ) :
    (putInt bytes offset value count)[i]? =
      if offset ≤ i ∧ i < offset + count then (beBytes count value)[i - offset]? else bytes[i]? := by
  have htake : (bytes.take offset).length = offset := by
    rw [List.length_take]
    omega
  unfold putInt
  rcases lt_or_ge i offset with hi | hi
  · rw [if_neg (by omega), List.append_assoc, List.getElem?_append_left (by omega), List.getElem?_take_of_lt hi]
  rcases lt_or_ge i (offset + count) with hi' | hi'
  · rw [if_pos ⟨hi, hi'⟩, List.append_assoc, List.getElem?_append_right (by omega), htake,
      List.getElem?_append_left (by rw [beBytes_length]; omega)]
  · rw [if_neg (by omega), List.getElem?_append_right (by rw [List.length_append, htake, beBytes_length]; omega),
      List.length_append, htake, beBytes_length, List.getElem?_drop]
    congr 1
    omega

/-- A write leaves what it does not touch. -/
theorem slice_putInt (h : offset + count ≤ bytes.length) {from' : ℕ} (hapart : from' + n ≤ offset ∨ offset + count ≤ from') :
    ((putInt bytes offset value count).drop from').take n = (bytes.drop from').take n := by
  apply List.ext_getElem?
  intro i
  rcases lt_or_ge i n with hi | hi
  · rw [List.getElem?_take_of_lt hi, List.getElem?_take_of_lt hi, List.getElem?_drop, List.getElem?_drop,
      getElem?_putInt h, if_neg (by omega)]
  · rw [List.getElem?_take_eq_none hi, List.getElem?_take_eq_none hi]

theorem drop_putInt (h : offset + count ≤ bytes.length) (hn : offset + count ≤ n) :
    (putInt bytes offset value count).drop n = bytes.drop n := by
  apply List.ext_getElem?
  intro i
  rw [List.getElem?_drop, List.getElem?_drop, getElem?_putInt h, if_neg (by omega)]

theorem take_putInt (h : offset + count ≤ bytes.length) (hn : offset + count ≤ n) :
    (putInt bytes offset value count).take n = putInt (bytes.take n) offset value count := by
  apply List.ext_getElem?
  intro i
  rw [getElem?_putInt (by rw [List.length_take]; omega)]
  rcases lt_or_ge i n with hi | hi
  · rw [List.getElem?_take_of_lt hi, List.getElem?_take_of_lt hi, getElem?_putInt h]
  · rw [List.getElem?_take_eq_none hi, if_neg (by omega), List.getElem?_take_eq_none hi]

theorem putInt_putInt (h : offset + count ≤ bytes.length) {value' : ℕ} :
    putInt (putInt bytes offset value count) offset value' count = putInt bytes offset value' count := by
  apply List.ext_getElem?
  intro i
  rw [getElem?_putInt (by rwa [length_putInt h]), getElem?_putInt h, getElem?_putInt h]
  split <;> rfl

theorem byteAt_putInt (h : offset + count ≤ bytes.length) (hi : i < offset ∨ offset + count ≤ i) :
    byteAt (putInt bytes offset value count) i = byteAt bytes i := by
  rw [byteAt, byteAt, List.getD_eq_getElem?_getD, List.getD_eq_getElem?_getD, getElem?_putInt h, if_neg (by omega)]

theorem getInt_putInt (h : offset + count ≤ bytes.length) (hvalue : value < 256 ^ count) :
    getInt (putInt bytes offset value count) offset count = value := by
  have hfield : ((putInt bytes offset value count).drop offset).take count = beBytes count value := by
    apply List.ext_getElem?
    intro i
    rcases lt_or_ge i count with hi | hi
    · rw [List.getElem?_take_of_lt hi, List.getElem?_drop, getElem?_putInt h, if_pos (by omega), Nat.add_sub_cancel_left]
    · rw [List.getElem?_take_eq_none hi, List.getElem?_eq_none (by rwa [beBytes_length])]
  rw [getInt, hfield, beNat_beBytes _ _ hvalue]

theorem getInt_putInt_of_apart (h : offset + count ≤ bytes.length) {from' : ℕ}
    (hapart : from' + n ≤ offset ∨ offset + count ≤ from') :
    getInt (putInt bytes offset value count) from' n = getInt bytes from' n := by
  rw [getInt, getInt, slice_putInt h hapart]

theorem byteAt_eq_getInt (h : i < bytes.length) : (byteAt bytes i).toNat = getInt bytes i 1 := by
  rw [getInt, List.take_one, List.head?_drop, byteAt, List.getD_eq_getElem?_getD, List.getElem?_eq_getElem h]
  simp [beNat]

theorem readIpv4_of_getInt {address : UInt32} (h : getInt bytes offset 4 = address.toNat) :
    readIpv4 bytes offset = address := by
  rw [← UInt32.ofNat_toNat (x := address), ← h]
  rfl

theorem putInt_append {xs : Bytes} (ys : Bytes) {offset count : ℕ} (value : ℕ) (h : offset + count ≤ xs.length) :
    putInt (xs ++ ys) offset value count = putInt xs offset value count ++ ys := by
  rw [putInt, putInt, List.take_append_of_le_length (by omega), List.drop_append_of_le_length h]
  simp only [List.append_assoc]

/-- A write into what is left after the first `n` bytes. -/
theorem drop_putInt_inside (h : n + offset ≤ bytes.length) :
    (putInt bytes (n + offset) value count).drop n = putInt (bytes.drop n) offset value count := by
  rw [putInt, putInt, List.append_assoc, List.append_assoc, List.drop_append_of_le_length (by rw [List.length_take]; omega),
    List.drop_take, Nat.add_sub_cancel_left, List.drop_drop, Nat.add_assoc]

end

/-! ## Checksums -/

theorem sumWords_append {xs : Bytes} (ys : Bytes) (h : xs.length % 2 = 0) :
    sumWords (xs ++ ys) = sumWords xs + sumWords ys := by
  induction xs using sumWords.induct with
  | case1 => simp [sumWords]
  | case2 a => simp at h
  | case3 a b rest ih =>
    simp only [List.cons_append, sumWords]
    rw [List.length_cons, List.length_cons] at h
    rw [ih (by omega)]
    omega

theorem sumWords_le (bytes : Bytes) : sumWords bytes ≤ 65535 * ((bytes.length + 1) / 2) := by
  induction bytes using sumWords.induct with
  | case1 => simp [sumWords]
  | case2 a =>
    have ha : a.toNat < 256 := a.toNat_lt
    simp only [sumWords, List.length_singleton]
    omega
  | case3 a b rest ih =>
    have ha : a.toNat < 256 := a.toNat_lt
    have hb : b.toNat < 256 := b.toNat_lt
    simp only [sumWords, List.length_cons]
    omega

/-- A word in an even place enters the sum with its value. -/
theorem sumWords_putInt {bytes : Bytes} {offset value : ℕ} (h : offset + 2 ≤ bytes.length) (heven : offset % 2 = 0)
    (hvalue : value < 65536) : sumWords (putInt bytes offset value 2) + getInt bytes offset 2 = sumWords bytes + value := by
  have hhead : (bytes.take offset).length % 2 = 0 := by
    rw [List.length_take]
    omega
  obtain ⟨a, b, hword⟩ : ∃ a b, (bytes.drop offset).take 2 = [a, b] := by
    apply List.length_eq_two.1
    rw [List.length_take, List.length_drop]
    omega
  have hsplit : bytes = bytes.take offset ++ ([a, b] ++ bytes.drop (offset + 2)) := by
    rw [← hword, ← List.drop_drop, List.take_append_drop, List.take_append_drop]
  have hvalue' : (UInt8.ofNat (value / 256)).toNat = value / 256 := by
    simp
    omega
  have hwhole : sumWords bytes = sumWords (bytes.take offset) + (a.toNat * 256 + b.toNat) + sumWords (bytes.drop (offset + 2)) := by
    conv_lhs => rw [hsplit, sumWords_append _ hhead]
    simp only [List.cons_append, List.nil_append, sumWords]
    omega
  have hwritten : sumWords (putInt bytes offset value 2) =
      sumWords (bytes.take offset) + value + sumWords (bytes.drop (offset + 2)) := by
    rw [putInt, List.append_assoc, sumWords_append _ hhead]
    simp [beBytes, sumWords]
    omega
  have hread : getInt bytes offset 2 = a.toNat * 256 + b.toNat := by simp [getInt, hword, beNat]
  omega

/-- Folding keeps the remainder modulo `65535`, and only zero folds to zero. -/
theorem foldCarries_spec (sum : ℕ) :
    foldCarries sum < 65536 ∧ foldCarries sum % 65535 = sum % 65535 ∧ (0 < foldCarries sum ↔ 0 < sum) := by
  induction sum using foldCarries.induct with
  | case1 sum h =>
    rw [foldCarries, if_pos h]
    exact ⟨h, rfl, Iff.rfl⟩
  | case2 sum h ih =>
    rw [foldCarries, if_neg h, ih.2.1, ih.2.2]
    exact ⟨ih.1, by omega, by omega⟩

theorem toNat_internetChecksum (bytes : Bytes) :
    (internetChecksum bytes).toNat = 65535 - foldCarries (sumWords bytes % 2 ^ 32) := by
  have hlt := (foldCarries_spec (sumWords bytes % 2 ^ 32)).1
  rw [internetChecksum, UInt16.toNat_not, UInt16.toNat_ofNat']
  have hsize : UInt16.size = 65536 := rfl
  omega

/-- The checksum comes out as zero on a sum that is a positive multiple of `65535`. -/
theorem internetChecksum_eq_zero {bytes : Bytes} (hlength : bytes.length ≤ 65535) (hpos : 0 < sumWords bytes)
    (hsum : sumWords bytes % 65535 = 0) : internetChecksum bytes = 0 := by
  have hle := sumWords_le bytes
  have hmod : sumWords bytes % 2 ^ 32 = sumWords bytes := Nat.mod_eq_of_lt (by omega)
  obtain ⟨hlt, hrest, hnonzero⟩ := foldCarries_spec (sumWords bytes)
  have hpositive := hnonzero.2 hpos
  rw [← UInt16.toNat_inj, toNat_internetChecksum, hmod]
  simp
  omega

/-- Bytes that hold the checksum of what they are without it pass. -/
theorem internetChecksum_stored {bytes : Bytes} {offset : ℕ} (hfield : offset + 2 ≤ bytes.length) (heven : offset % 2 = 0)
    (hlength : bytes.length ≤ 65535) :
    internetChecksum (putInt bytes offset (internetChecksum (putInt bytes offset 0 2)).toNat 2) = 0 := by
  obtain ⟨sum, hsum⟩ : ∃ sum, sum = (internetChecksum (putInt bytes offset 0 2)).toNat := ⟨_, rfl⟩
  have hsumlt : sum < 65536 := hsum ▸ (internetChecksum _).toNat_lt
  have hcleared : getInt (putInt bytes offset 0 2) offset 2 = 0 := getInt_putInt hfield (by norm_num)
  have hadd := @sumWords_putInt (putInt bytes offset 0 2) offset sum (by rwa [length_putInt hfield]) heven hsumlt
  rw [putInt_putInt hfield, hcleared, add_zero] at hadd
  have hle := sumWords_le (putInt bytes offset 0 2)
  rw [length_putInt hfield] at hle
  have hmod : sumWords (putInt bytes offset 0 2) % 2 ^ 32 = sumWords (putInt bytes offset 0 2) := Nat.mod_eq_of_lt (by omega)
  obtain ⟨hlt, hrest, hnonzero⟩ := foldCarries_spec (sumWords (putInt bytes offset 0 2))
  rw [← hsum]
  rw [toNat_internetChecksum, hmod] at hsum
  refine internetChecksum_eq_zero ?_ ?_ ?_
  · rwa [length_putInt hfield]
  · omega
  · omega

/-- The header as it stands is made to pass by its checksum field alone. -/
theorem updateIpv4Checksum_ok {packet : Bytes} (hheader : 20 ≤ headerLength packet)
    (hlength : headerLength packet ≤ packet.length) :
    ∃ sum < 65536, updateIpv4Checksum packet = .ok (putInt packet 10 sum 2) ∧
      internetChecksum ((putInt packet 10 sum 2).take (headerLength packet)) = 0 := by
  have hshort : headerLength packet ≤ 60 := by
    unfold headerLength
    omega
  have hfield : 10 + 2 ≤ packet.length := by omega
  have hcut : 10 + 2 ≤ (packet.take (headerLength packet)).length := by
    rw [List.length_take]
    omega
  refine ⟨(internetChecksum ((putInt packet 10 0 2).take (headerLength packet))).toNat, (internetChecksum _).toNat_lt, ?_, ?_⟩
  · rw [updateIpv4Checksum, check_of (by omega), ok_bind]
    dsimp only
    rw [check_of ⟨hheader, hlength⟩, ok_bind, putInt_putInt hfield]
  · rw [take_putInt hfield (by omega), take_putInt hfield (by omega)]
    refine internetChecksum_stored hcut rfl ?_
    rw [List.length_take]
    omega

/-! ## Options -/

/-- The options in the bytes after the fixed header. A no-operation is skipped, and nothing after an end of list counts. -/
inductive Options : Bytes → List Bytes → Prop
  | done : Options [] []
  | endOfList (rest : Bytes) : Options (0 :: rest) []
  | noOperation {rest : Bytes} {os : List Bytes} (h : Options rest os) : Options (1 :: rest) os
  | option {o rest : Bytes} {os : List Bytes} (htype : 2 ≤ (byteAt o 0).toNat) (hlength : 2 ≤ o.length)
      (hsize : (byteAt o 1).toNat = o.length) (h : Options rest os) : Options (o ++ rest) (o :: os)

/-- The option goes into every fragment. -/
def isCopied (o : Bytes) : Bool := 128 ≤ (byteAt o 0).toNat

def copied (os : List Bytes) : Bytes := (os.filter isCopied).flatten

/-- Zeros up to a multiple of four bytes. -/
def padded (options : Bytes) : Bytes := options ++ List.replicate ((4 - options.length % 4) % 4) 0

/-- The bytes between the fixed header and the payload. -/
def optionBytes (packet : Bytes) : Bytes := (packet.drop 20).take (headerLength packet - 20)

def payloadOf (packet : Bytes) : Bytes := packet.drop (headerLength packet)

section
variable {bs rest : Bytes} {os : List Bytes}

theorem byteAt_append {xs ys : Bytes} {i : ℕ} (h : i < xs.length) : byteAt (xs ++ ys) i = byteAt xs i := by
  rw [byteAt, byteAt, List.getD_eq_getElem?_getD, List.getD_eq_getElem?_getD, List.getElem?_append_left h]

theorem options_nil : Options [] os ↔ os = [] := by
  constructor
  · intro h
    generalize hbs : ([] : Bytes) = bs at h
    cases h with
    | done => rfl
    | endOfList rest => cases hbs
    | noOperation h => cases hbs
    | @option o rest os' _ hlength _ _ =>
      obtain ⟨rfl, -⟩ := List.append_eq_nil_iff.1 hbs.symm
      simp at hlength
  · rintro rfl
    exact .done

/-- What comes first decides which rule applies. -/
theorem options_cases (h : Options bs os) (hne : bs ≠ []) :
    (byteAt bs 0 = 0 ∧ os = []) ∨ (byteAt bs 0 = 1 ∧ Options bs.tail os) ∨
    (2 ≤ (byteAt bs 0).toNat ∧ 2 ≤ (byteAt bs 1).toNat ∧ (byteAt bs 1).toNat ≤ bs.length ∧ 2 ≤ bs.length ∧
      ∃ os', os = bs.take (byteAt bs 1).toNat :: os' ∧ Options (bs.drop (byteAt bs 1).toNat) os') := by
  cases h with
  | done => exact absurd rfl hne
  | endOfList rest => exact .inl ⟨rfl, rfl⟩
  | noOperation h => exact .inr (.inl ⟨rfl, h⟩)
  | @option o rest os' htype hlength hsize h =>
    have hsize' : (byteAt (o ++ rest) 1).toNat = o.length := by rw [byteAt_append (by omega), hsize]
    right; right
    rw [hsize', byteAt_append (by omega), List.take_left, List.drop_left, List.length_append]
    exact ⟨htype, hlength, by omega, by omega, os', rfl, h⟩

theorem Options.copied_self (h : Options bs os) (k : ℕ) :
    Options (copied os ++ List.replicate k 0) (os.filter isCopied) := by
  induction h with
  | done =>
    cases k with
    | zero => exact .done
    | succ k => exact .endOfList _
  | endOfList rest =>
    cases k with
    | zero => exact .done
    | succ k => exact .endOfList _
  | noOperation _ ih => exact ih
  | @option o rest os htype hlength hsize _ ih =>
    by_cases hcopied : isCopied o = true
    · rw [copied, List.filter_cons_of_pos hcopied, List.flatten_cons, List.append_assoc]
      exact .option htype hlength hsize ih
    · rwa [copied, List.filter_cons_of_neg hcopied]

theorem Options.length_copied (h : Options bs os) : (copied os).length ≤ bs.length := by
  induction h with
  | done => simp [copied]
  | endOfList rest => simp [copied]
  | noOperation _ ih =>
    rw [List.length_cons]
    omega
  | @option o rest os _ _ _ _ ih =>
    rw [List.length_append]
    by_cases hcopied : isCopied o = true
    · rw [copied, List.filter_cons_of_pos hcopied, List.flatten_cons, List.length_append]
      exact Nat.add_le_add_left ih _
    · rw [copied, List.filter_cons_of_neg hcopied]
      exact ih.trans (Nat.le_add_left _ _)

theorem length_padded (options : Bytes) :
    (padded options).length % 4 = 0 ∧ options.length ≤ (padded options).length ∧ (padded options).length < options.length + 4 := by
  rw [padded, List.length_append, List.length_replicate]
  omega

theorem Options.length_padded_copied (h : Options bs os) (hbs : bs.length % 4 = 0) : (padded (copied os)).length ≤ bs.length := by
  have hle := h.length_copied
  obtain ⟨hmod, -, hlt⟩ := length_padded (copied os)
  omega

end

section
variable {packet : Bytes} {header offset fuel : ℕ} {o : Bytes}

theorem byteAt_slice {i n : ℕ} (h : i < n) : byteAt ((packet.drop offset).take n) i = byteAt packet (offset + i) := by
  rw [byteAt, byteAt, List.getD_eq_getElem?_getD, List.getD_eq_getElem?_getD, List.getElem?_take_of_lt h, List.getElem?_drop]

/-- The loop reads the options that are left. -/
theorem optionsFrom_eq_ok (hheader : header ≤ packet.length) (hfuel : header - offset ≤ fuel) :
    optionsFrom packet header fuel offset = .ok o ↔
      ∃ os, Options ((packet.drop offset).take (header - offset)) os ∧ o = copied os := by
  induction fuel generalizing offset o with
  | zero =>
    rw [optionsFrom, show header - offset = 0 by omega, List.take_zero]
    simp [options_nil, copied, eq_comm]
  | succ fuel ih =>
    rw [optionsFrom]
    by_cases hend : header ≤ offset
    · rw [if_pos hend, show header - offset = 0 by omega, List.take_zero]
      simp [options_nil, copied, eq_comm]
    rw [if_neg hend]
    obtain ⟨bs, hbs⟩ : ∃ bs, bs = (packet.drop offset).take (header - offset) := ⟨_, rfl⟩
    rw [← hbs]
    have hlength : bs.length = header - offset := by
      rw [hbs, List.length_take, List.length_drop]
      omega
    have hne : bs ≠ [] := List.ne_nil_of_length_pos (by omega)
    have hfirst : byteAt bs 0 = byteAt packet offset := by
      rw [hbs, byteAt_slice (by omega), add_zero]
    have hdrop (k : ℕ) : bs.drop k = (packet.drop (offset + k)).take (header - (offset + k)) := by
      rw [hbs, List.drop_take, List.drop_drop, Nat.sub_sub]
    have hcons : bs = byteAt packet offset :: bs.drop 1 := by
      rw [← hfirst]
      cases bs with
      | nil => exact (hne rfl).elim
      | cons b bs => rfl
    dsimp only
    by_cases hzero : (byteAt packet offset).toNat = 0
    · rw [if_pos hzero]
      have hbyte : byteAt packet offset = 0 := UInt8.toNat_inj.1 hzero
      constructor
      · rintro ⟨⟩
        rw [hcons, hbyte]
        exact ⟨[], .endOfList _, rfl⟩
      · rintro ⟨os, hos, rfl⟩
        rcases options_cases hos hne with ⟨-, rfl⟩ | ⟨hone, -⟩ | ⟨htwo, -⟩
        · rfl
        · rw [hfirst, hbyte] at hone
          cases hone
        · rw [hfirst] at htwo
          omega
    rw [if_neg hzero]
    by_cases hone : (byteAt packet offset).toNat = 1
    · rw [if_pos hone, ih (by omega), ← hdrop]
      have hbyte : byteAt packet offset = 1 := UInt8.toNat_inj.1 hone
      constructor
      · rintro ⟨os, hos, rfl⟩
        rw [hcons, hbyte]
        exact ⟨os, .noOperation hos, rfl⟩
      · rintro ⟨os, hos, rfl⟩
        rcases options_cases hos hne with ⟨hzero', -⟩ | ⟨-, hos'⟩ | ⟨htwo, -⟩
        · rw [hfirst, hbyte] at hzero'
          cases hzero'
        · rw [← List.drop_one] at hos'
          exact ⟨os, hos', rfl⟩
        · rw [hfirst] at htwo
          omega
    rw [if_neg hone]
    have hsecond (h : offset + 2 ≤ header) : byteAt bs 1 = byteAt packet (offset + 1) := by
      rw [hbs, byteAt_slice (by omega)]
    have htaken (size : ℕ) (h : size ≤ header - offset) : bs.take size = (packet.drop offset).take size := by
      rw [hbs, List.take_take, min_eq_left h]
    have hadd (size : ℕ) (rest : List Bytes) (hpos : 0 < size) (h : size ≤ header - offset) :
        copied (bs.take size :: rest) =
          if 128 ≤ (byteAt packet offset).toNat then (packet.drop offset).take size ++ copied rest else copied rest := by
      have htype : byteAt (bs.take size) 0 = byteAt packet offset := by
        rw [htaken size h, byteAt_slice hpos, add_zero]
      simp only [copied, List.filter_cons, isCopied, htype, decide_eq_true_eq]
      split
      · rw [List.flatten_cons, htaken size h]
      · rfl
    simp only [bind_eq_ok, check_eq_ok]
    constructor
    · rintro ⟨-, htwo, -, ⟨hmin, hmax⟩, rest, hrest, heq⟩
      rw [ih (by omega)] at hrest
      obtain ⟨os, hos, rfl⟩ := hrest
      rw [← hdrop] at hos
      set size := (byteAt packet (offset + 1)).toNat with hsize
      refine ⟨bs.take size :: os, ?_, ?_⟩
      · have htake : (bs.take size).length = size := by
          rw [List.length_take]
          omega
        have hoption : Options (bs.take size ++ bs.drop size) (bs.take size :: os) := by
          refine .option ?_ (by omega) ?_ hos
          · rw [← @byteAt_append _ (bs.drop size) _ (by omega), List.take_append_drop, hfirst]
            omega
          · rw [← @byteAt_append _ (bs.drop size) _ (by omega), List.take_append_drop, hsecond htwo, htake]
        rwa [List.take_append_drop] at hoption
      · rw [hadd size os (by omega) hmax]
        exact (Except.ok.inj heq).symm
    · rintro ⟨os, hos, rfl⟩
      rcases options_cases hos hne with ⟨hzero', -⟩ | ⟨hone', -⟩ | ⟨-, hmin, hmax, htwo, os', rfl, hos'⟩
      · rw [hfirst] at hzero'
        exact absurd (by rw [hzero']; rfl) hzero
      · rw [hfirst] at hone'
        exact absurd (by rw [hone']; rfl) hone
      rw [hsecond (by omega)] at hmin hmax hos'
      refine ⟨(), by omega, (), ⟨hmin, by omega⟩, copied os', ?_, ?_⟩
      · rw [ih (by omega), ← hdrop]
        exact ⟨os', hos', rfl⟩
      · rw [hsecond (by omega), hadd _ os' (by omega) (by omega)]

theorem copiedOptions_eq_ok (hlength : headerLength packet ≤ packet.length) :
    copiedOptions packet (headerLength packet) = .ok o ↔ ∃ os, Options (optionBytes packet) os ∧ o = padded (copied os) := by
  simp only [copiedOptions, bind_eq_ok, optionsFrom_eq_ok hlength le_rfl]
  constructor
  · rintro ⟨_, ⟨os, hos, rfl⟩, hpadded⟩
    exact ⟨os, hos, (Except.ok.inj hpadded).symm⟩
  · rintro ⟨os, hos, rfl⟩
    exact ⟨copied os, ⟨os, hos, rfl⟩, rfl⟩

end

/-! ## What is accepted -/

/-- The offset of a fragment's payload, in bytes. -/
def fragmentOffset (packet : Bytes) : ℕ := getInt packet 6 2 % 0x2000 * 8

def moreFragments (packet : Bytes) : Bool := getInt packet 6 2 / 0x2000 % 2 = 1

def dontFragment (packet : Bytes) : Bool := getInt packet 6 2 / 0x4000 % 2 = 1

def headerOf (packet : Bytes) : Ipv4Header where
  headerSize := headerLength packet
  source := readIpv4 packet 12
  destination := readIpv4 packet 16
  fragmentOffset := fragmentOffset packet
  moreFragments := moreFragments packet
  dontFragment := dontFragment packet

/-- What `inspect_ipv4` asks of a packet. -/
structure Accepted (packet : Bytes) : Prop where
  size_le : packet.length ≤ 65535
  version : (byteAt packet 0).toNat / 16 = 4
  header : 20 ≤ headerLength packet
  header_le : headerLength packet ≤ packet.length
  total : getInt packet 2 2 = packet.length
  ttl : byteAt packet 8 ≠ 0
  checksum : internetChecksum (packet.take (headerLength packet)) = 0
  options : ∃ os, Options (optionBytes packet) os
  reserved : getInt packet 6 2 < 0x8000
  whole : dontFragment packet → ¬ moreFragments packet ∧ fragmentOffset packet = 0
  nonempty : moreFragments packet ∨ fragmentOffset packet ≠ 0 → payloadOf packet ≠ []
  aligned : moreFragments packet → (payloadOf packet).length % 8 = 0
  bound : fragmentOffset packet + (payloadOf packet).length ≤ 65535 - headerLength packet

theorem length_payloadOf (packet : Bytes) : (payloadOf packet).length = packet.length - headerLength packet :=
  List.length_drop

theorem inspectIpv4_eq_ok {packet : Bytes} {info : Ipv4Header} :
    inspectIpv4 packet = .ok info ↔ Accepted packet ∧ info = headerOf packet := by
  have hempty : packet.length - headerLength packet = 0 ↔ payloadOf packet = [] := by
    rw [← length_payloadOf, List.length_eq_zero_iff]
  simp only [inspectIpv4, bind_eq_ok, check_eq_ok, not_or, not_and, not_lt, not_not, ne_eq, not_le]
  constructor
  · rintro ⟨-, ⟨-, hmax, hversion⟩, -, ⟨hmin, hle, htotal, httl, hsum⟩, options, hoptions, -,
      ⟨hreserved, hwhole, hnonempty, haligned, hbound⟩, hinfo⟩
    obtain ⟨os, hos, -⟩ := (copiedOptions_eq_ok hle).1 hoptions
    rw [hempty] at hnonempty
    rw [← length_payloadOf] at haligned hbound
    exact ⟨⟨hmax, hversion, hmin, hle, htotal, httl, hsum, ⟨os, hos⟩, hreserved, hwhole, hnonempty, haligned, hbound⟩,
      (Except.ok.inj hinfo).symm⟩
  · rintro ⟨h, rfl⟩
    obtain ⟨os, hos⟩ := h.options
    have hmin : 20 ≤ packet.length := h.header.trans h.header_le
    refine ⟨(), ⟨hmin, h.size_le, h.version⟩, (), ⟨h.header, h.header_le, h.total, h.ttl, h.checksum⟩, _,
      (copiedOptions_eq_ok h.header_le).2 ⟨os, hos, rfl⟩, (), ?_, rfl⟩
    rw [hempty, ← length_payloadOf]
    exact ⟨h.reserved, h.whole, h.nonempty, h.aligned, h.bound⟩

/-- A whole packet without options that lacks only its checksum. -/
structure Unsummed (packet : Bytes) : Prop where
  size_le : packet.length ≤ 65535
  nonempty : 20 ≤ packet.length
  first : byteAt packet 0 = 0x45
  total : getInt packet 2 2 = packet.length
  ttl : byteAt packet 8 ≠ 0
  flags : getInt packet 6 2 = 0 ∨ getInt packet 6 2 = 0x4000

/-- Only the checksum field is written, and the packet is accepted. -/
theorem Unsummed.updated {packet : Bytes} (h : Unsummed packet) :
    ∃ sum < 65536, updateIpv4Checksum packet = .ok (putInt packet 10 sum 2) ∧ Accepted (putInt packet 10 sum 2) := by
  have hlength := h.nonempty
  have hheader : headerLength packet = 20 := by
    rw [headerLength, h.first]
    rfl
  obtain ⟨sum, hsum, hok, hchecksum⟩ := updateIpv4Checksum_ok hheader.ge (by omega)
  refine ⟨sum, hsum, hok, ?_⟩
  have hfirst : byteAt (putInt packet 10 sum 2) 0 = 0x45 := by rw [byteAt_putInt (by omega) (by omega), h.first]
  have hheader' : headerLength (putInt packet 10 sum 2) = 20 := by
    rw [headerLength, hfirst]
    rfl
  have hlength' : (putInt packet 10 sum 2).length = packet.length := length_putInt (by omega)
  have hflags : getInt (putInt packet 10 sum 2) 6 2 = getInt packet 6 2 := getInt_putInt_of_apart (by omega) (by omega)
  have hmore : moreFragments (putInt packet 10 sum 2) = false := by
    rw [moreFragments, hflags]
    rcases h.flags with h | h <;> rw [h] <;> rfl
  have hoffset : fragmentOffset (putInt packet 10 sum 2) = 0 := by
    rw [fragmentOffset, hflags]
    rcases h.flags with h | h <;> rw [h]
  constructor
  · rw [hlength']
    exact h.size_le
  · rw [hfirst]
    rfl
  · exact hheader'.ge
  · rw [hheader', hlength']
    exact hlength
  · rw [getInt_putInt_of_apart (by omega) (by omega), hlength', h.total]
  · rw [byteAt_putInt (by omega) (by omega)]
    exact h.ttl
  · rw [hheader', ← hheader]
    exact hchecksum
  · rw [optionBytes, hheader', Nat.sub_self, List.take_zero]
    exact ⟨[], .done⟩
  · rw [hflags]
    rcases h.flags with h | h <;> omega
  · rw [hmore, hoffset]
    simp
  · rw [hmore, hoffset]
    simp
  · rw [hmore]
    simp
  · rw [hoffset, length_payloadOf, hheader', hlength']
    have hsize := h.size_le
    omega

end LanLink
