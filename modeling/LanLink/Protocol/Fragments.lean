import LanLink.Lib.Tiling
import LanLink.Protocol.Ipv4Headers
/-!
# Fragmentation

The fragments of a packet tile its payload. The first one has the header of the
packet, the later ones only the options that are copied, so their headers may
be shorter. Each is a packet that `inspect_ipv4` accepts, and can be fragmented
again.
-/
open LanLink.Lib

namespace LanLink

/-! ## Writing a header -/

/-- `f` is a header over `front` with these options and flags, and a payload. -/
structure Written (front options payload : Bytes) (flags : ℕ) (f : Bytes) : Prop where
  rest : f.drop 20 = options ++ payload
  length : f.length = 20 + options.length + payload.length
  version : (byteAt f 0).toNat / 16 = 4
  header : headerLength f = 20 + options.length
  total : getInt f 2 2 = f.length
  flags : getInt f 6 2 = flags
  checksum : internetChecksum (f.take (headerLength f)) = 0
  kept : ∀ from' n, (4 ≤ from' ∧ from' + n ≤ 6) ∨ (8 ≤ from' ∧ from' + n ≤ 10) ∨ (12 ≤ from' ∧ from' + n ≤ 20) →
    (f.drop from').take n = (front.drop from').take n

section
variable {front options payload f : Bytes} {flags : ℕ}

theorem byteAt_of_slice {xs ys : Bytes} {i : ℕ} (h : (xs.drop i).take 1 = (ys.drop i).take 1) : byteAt xs i = byteAt ys i := by
  have hhead := congrArg List.head? h
  rw [List.head?_take, List.head?_take, if_neg one_ne_zero, if_neg one_ne_zero, List.head?_drop, List.head?_drop] at hhead
  rw [byteAt, byteAt, List.getD_eq_getElem?_getD, List.getD_eq_getElem?_getD, hhead]

theorem written_ok (hfront : front.length = 20) (haligned : options.length % 4 = 0) (hoptions : options.length ≤ 40)
    (hlength : 20 + options.length + payload.length ≤ 65535) (hflags : flags < 65536) :
    ∃ f, updateIpv4Checksum (putInt (putInt (putInt (front ++ options ++ payload) 0 (0x40 + (20 + options.length) / 4) 1) 2
        (20 + options.length + payload.length) 2) 6 flags 2) = .ok f ∧ Written front options payload flags f := by
  obtain ⟨base, hbase⟩ : ∃ base, base = front ++ options ++ payload := ⟨_, rfl⟩
  rw [← hbase]
  have h0 : base.length = 20 + options.length + payload.length := by
    rw [hbase, List.length_append, List.length_append, hfront]
  obtain ⟨b1, hb1⟩ : ∃ b1, b1 = putInt base 0 (0x40 + (20 + options.length) / 4) 1 := ⟨_, rfl⟩
  obtain ⟨b2, hb2⟩ : ∃ b2, b2 = putInt b1 2 (20 + options.length + payload.length) 2 := ⟨_, rfl⟩
  obtain ⟨b3, hb3⟩ : ∃ b3, b3 = putInt b2 6 flags 2 := ⟨_, rfl⟩
  rw [← hb1, ← hb2, ← hb3]
  have h1 : b1.length = base.length := by rw [hb1, length_putInt (by omega)]
  have h2 : b2.length = base.length := by rw [hb2, length_putInt (by omega), h1]
  have h3 : b3.length = base.length := by rw [hb3, length_putInt (by omega), h2]
  have hfirst : (byteAt b3 0).toNat = 0x40 + (20 + options.length) / 4 := by
    rw [hb3, byteAt_putInt (by omega) (by omega), hb2, byteAt_putInt (by omega) (by omega), byteAt_eq_getInt (by omega), hb1,
      getInt_putInt (by omega) (by omega)]
  have hheader : headerLength b3 = 20 + options.length := by
    rw [headerLength, hfirst]
    omega
  obtain ⟨sum, hsum, hok, hchecksum⟩ := @updateIpv4Checksum_ok b3 (by omega) (by omega)
  refine ⟨_, hok, ?_⟩
  have hfirst' : byteAt (putInt b3 10 sum 2) 0 = byteAt b3 0 := byteAt_putInt (by omega) (by omega)
  have hheader' : headerLength (putInt b3 10 sum 2) = headerLength b3 := by rw [headerLength, headerLength, hfirst']
  have hlength' : (putInt b3 10 sum 2).length = base.length := by rw [length_putInt (by omega), h3]
  constructor
  · rw [drop_putInt (by omega) (by omega), hb3, drop_putInt (by omega) (by omega), hb2, drop_putInt (by omega) (by omega), hb1,
      drop_putInt (by omega) (by omega), hbase, List.append_assoc, ← hfront, List.drop_left]
  · rw [hlength', h0]
  · rw [hfirst', hfirst]
    omega
  · rw [hheader', hheader]
  · rw [hlength', getInt_putInt_of_apart (by omega) (by omega), hb3, getInt_putInt_of_apart (by omega) (by omega), hb2,
      getInt_putInt (by omega) (by omega), h0]
  · rw [getInt_putInt_of_apart (by omega) (by omega), hb3, getInt_putInt (by omega) (by omega)]
  · rw [hheader']
    exact hchecksum
  · intro from' n hrange
    rw [slice_putInt (by omega) (by omega), hb3, slice_putInt (by omega) (by omega), hb2, slice_putInt (by omega) (by omega), hb1,
      slice_putInt (by omega) (by omega), hbase, List.append_assoc, List.drop_append_of_le_length (by omega),
      List.take_append_of_le_length (by rw [List.length_drop]; omega)]

theorem Written.optionBytes (h : Written front options payload flags f) : optionBytes f = options := by
  rw [LanLink.optionBytes, h.rest, h.header, Nat.add_sub_cancel_left, List.take_left]

theorem Written.payloadOf (h : Written front options payload flags f) : payloadOf f = payload := by
  rw [LanLink.payloadOf, h.header, ← List.drop_drop, h.rest, List.drop_left]

end

/-! ## One fragment -/

/-- What a fragment keeps of its packet. -/
structure SameDatagram (packet f : Bytes) : Prop where
  source : readIpv4 f 12 = readIpv4 packet 12
  destination : readIpv4 f 16 = readIpv4 packet 16
  identification : getInt f 4 2 = getInt packet 4 2
  protocol : byteAt f 9 = byteAt packet 9
  ttl : byteAt f 8 = byteAt packet 8

/-- A fragment of a packet with the options `os`. -/
structure FragmentOf (packet : Bytes) (os : List Bytes) (mtu : ℕ) (f : Bytes) : Prop where
  accepted : Accepted f
  size : f.length ≤ mtu
  same : SameDatagram packet f
  splittable : ¬ dontFragment f
  options : optionBytes f = if fragmentOffset f = fragmentOffset packet then optionBytes packet else padded (copied os)

section
variable {packet : Bytes} {os : List Bytes} {mtu offset count : ℕ} {more : Bool}

theorem length_optionBytes (h : Accepted packet) : (optionBytes packet).length = headerLength packet - 20 := by
  have hle := h.header_le
  rw [optionBytes, List.length_take, List.length_drop]
  omega

theorem headerLength_spec (packet : Bytes) : headerLength packet % 4 = 0 ∧ headerLength packet ≤ 60 := by
  unfold headerLength
  omega

/-- The options of the fragment at `offset`. -/
def fragmentOptions (packet : Bytes) (os : List Bytes) (offset : ℕ) : Bytes :=
  if offset = 0 then optionBytes packet else padded (copied os)

theorem fragmentOptions_spec (h : Accepted packet) (hos : Options (optionBytes packet) os) (offset : ℕ) :
    (fragmentOptions packet os offset).length % 4 = 0 ∧
      (fragmentOptions packet os offset).length ≤ headerLength packet - 20 ∧
      ∃ os', Options (fragmentOptions packet os offset) os' := by
  have hlength := length_optionBytes h
  obtain ⟨hmod, -⟩ := headerLength_spec packet
  have hmin := h.header
  unfold fragmentOptions
  split
  · exact ⟨by omega, by omega, os, hos⟩
  · have hle := hos.length_padded_copied (by omega)
    exact ⟨(length_padded _).1, by omega, _, hos.copied_self _⟩

/-- The fragment with `count` bytes at `offset` is well formed. -/
theorem fragmentAt_ok (h : Accepted packet) (hos : Options (optionBytes packet) os)
    (hoffset : offset % 8 = 0) (hcount : 0 < count) (hend : offset + count ≤ (payloadOf packet).length)
    (hmore : more → count % 8 = 0) (hsize : 20 + (fragmentOptions packet os offset).length + count ≤ mtu) :
    ∃ f, fragmentAt packet (headerOf packet) (padded (copied os)) offset count more = .ok f ∧
      FragmentOf packet os mtu f ∧ fragmentOffset f = fragmentOffset packet + offset ∧ moreFragments f = more ∧
      payloadOf f = ((payloadOf packet).drop offset).take count := by
  obtain ⟨hmod, hle, os', hos'⟩ := fragmentOptions_spec h hos offset
  obtain ⟨-, hheader⟩ := headerLength_spec packet
  have hpacket := h.header.trans h.header_le
  have hmin := h.header
  have hbound := h.bound
  have hunit : fragmentOffset packet % 8 = 0 := by
    unfold fragmentOffset
    omega
  obtain ⟨part, hpart⟩ : ∃ part, part = ((payloadOf packet).drop offset).take count := ⟨_, rfl⟩
  have hpartlength : part.length = count := by
    rw [hpart, List.length_take, List.length_drop]
    omega
  obtain ⟨flags, hflags⟩ : ∃ flags, flags = (fragmentOffset packet + offset) / 8 + if more then 0x2000 else 0 := ⟨_, rfl⟩
  have hunits : (fragmentOffset packet + offset) / 8 < 0x2000 := by omega
  have hflagslt : flags < 0x4000 := by
    rw [hflags]
    split <;> omega
  have hfront : (packet.take 20).length = 20 := by
    rw [List.length_take]
    omega
  have hfits : 20 + (fragmentOptions packet os offset).length + part.length ≤ 65535 := by omega
  obtain ⟨f, hf, hw⟩ := written_ok hfront hmod (by omega) hfits (show flags < 65536 by omega)
  have hoffset' : fragmentOffset f = fragmentOffset packet + offset := by
    rw [fragmentOffset, hw.flags, hflags]
    split <;> omega
  have hmore' : moreFragments f = more := by
    rw [moreFragments, hw.flags, hflags]
    cases more <;> simp <;> omega
  have hdf' : ¬ dontFragment f := by
    rw [dontFragment, hw.flags]
    simp
    omega
  have hpayload : payloadOf f = part := hw.payloadOf
  have hkept (from' n : ℕ) (hrange : (4 ≤ from' ∧ from' + n ≤ 6) ∨ (8 ≤ from' ∧ from' + n ≤ 10) ∨ (12 ≤ from' ∧ from' + n ≤ 20)) :
      (f.drop from').take n = (packet.drop from').take n := by
    rw [hw.kept from' n hrange, List.drop_take, List.take_take, min_eq_left (by omega)]
  have httl : byteAt f 8 = byteAt packet 8 := byteAt_of_slice (hkept 8 1 (by omega))
  refine ⟨f, ?_, ⟨?_, ?_, ?_, hdf', ?_⟩, hoffset', hmore', by rw [hpayload, hpart]⟩
  · have hhead : (if offset = 0 then headerLength packet else 20 + (padded (copied os)).length) =
        20 + (fragmentOptions packet os offset).length := by
      unfold fragmentOptions
      split
      · rw [length_optionBytes h]
        omega
      · rfl
    have hbase : packet.take 20 ++ (if offset = 0 then (packet.drop 20).take (headerLength packet - 20) else padded (copied os)) ++
        (packet.drop (headerLength packet + offset)).take count = packet.take 20 ++ fragmentOptions packet os offset ++ part := by
      rw [hpart, payloadOf, List.drop_drop]
      rfl
    have hlength : (packet.take 20 ++ fragmentOptions packet os offset ++ part).length =
        20 + (fragmentOptions packet os offset).length + part.length := by
      rw [List.length_append, List.length_append, hfront]
    simp only [fragmentAt, headerOf, hhead, hbase]
    rw [length_putInt (by omega), hlength, ← hflags]
    exact hf
  · have hlength := length_payloadOf packet
    constructor
    · rw [hw.length]
      omega
    · exact hw.version
    · rw [hw.header]
      omega
    · rw [hw.header, hw.length]
      omega
    · exact hw.total
    · rw [httl]
      exact h.ttl
    · exact hw.checksum
    · rw [hw.optionBytes]
      exact ⟨os', hos'⟩
    · rw [hw.flags]
      omega
    · exact fun hset => absurd hset hdf'
    · intro _
      rw [hpayload]
      exact List.ne_nil_of_length_pos (by omega)
    · rw [hmore', hpayload, hpartlength]
      exact hmore
    · rw [hoffset', hpayload, hw.header, hpartlength]
      omega
  · rw [hw.length, hpartlength]
    exact hsize
  · constructor
    · rw [readIpv4, readIpv4, hkept 12 4 (by omega)]
    · rw [readIpv4, readIpv4, hkept 16 4 (by omega)]
    · rw [getInt, getInt, hkept 4 2 (by omega)]
    · exact byteAt_of_slice (hkept 9 1 (by omega))
    · exact httl
  · rw [hw.optionBytes, hoffset', fragmentOptions]
    simp

/-! ## The loop -/

/-- Where something is left, a fragment takes something, and it takes all or a multiple of eight. -/
theorem fragmentCount_spec (h : Accepted packet) (hos : Options (optionBytes packet) os) (hmtu : 68 ≤ mtu)
    (hlt : offset < (payloadOf packet).length) :
    ∃ count, fragmentCount packet (headerOf packet) (padded (copied os)) mtu offset = count ∧ 0 < count ∧
      offset + count ≤ (payloadOf packet).length ∧ 20 + (fragmentOptions packet os offset).length + count ≤ mtu ∧
      (offset + count < (payloadOf packet).length → count % 8 = 0) := by
  obtain ⟨-, hle, -⟩ := fragmentOptions_spec h hos offset
  obtain ⟨-, hheader⟩ := headerLength_spec packet
  have hmin := h.header
  have hlength := length_payloadOf packet
  have hhead : (if offset = 0 then headerLength packet else 20 + (padded (copied os)).length) =
      20 + (fragmentOptions packet os offset).length := by
    unfold fragmentOptions
    split
    · rw [length_optionBytes h]
      omega
    · rfl
  refine ⟨_, rfl, ?_⟩
  simp only [fragmentCount, headerOf, hhead]
  split <;> omega

theorem fragmentsFrom_ok (h : Accepted packet) (hos : Options (optionBytes packet) os) (hmtu : 68 ≤ mtu)
    (hoffset : offset % 8 = 0) (hlt : offset < (payloadOf packet).length) :
    ∃ fs, fragmentsFrom packet (headerOf packet) (padded (copied os)) mtu offset = .ok fs ∧
      (∀ f ∈ fs, FragmentOf packet os mtu f) ∧
      Tiles fragmentOffset payloadOf (fragmentOffset packet + offset) fs ((payloadOf packet).drop offset) ∧
      fs.map moreFragments = List.replicate (fs.length - 1) true ++ [moreFragments packet] := by
  induction hleft : (payloadOf packet).length - offset using Nat.strong_induction_on generalizing offset with
  | _ left ih =>
  subst hleft
  have hlength := length_payloadOf packet
  obtain ⟨count, hcount, hpos, hend, hsize, haligned⟩ := fragmentCount_spec h hos hmtu hlt
  obtain ⟨more, hmore⟩ : ∃ more : Bool, more = (decide (offset + count < (payloadOf packet).length) || moreFragments packet) :=
    ⟨_, rfl⟩
  have hmore' : (decide (count < packet.length - headerLength packet - offset) || moreFragments packet) = more := by
    rw [hmore, ← hlength]
    congr 2
    exact propext ⟨fun _ => by omega, fun _ => by omega⟩
  have hunit : more → count % 8 = 0 := by
    intro hset
    rw [hmore, Bool.or_eq_true, decide_eq_true_eq] at hset
    rcases hset with hnear | hset
    · exact haligned hnear
    · have htotal := h.aligned hset
      by_cases hnear : offset + count < (payloadOf packet).length
      · exact haligned hnear
      · omega
  obtain ⟨f, hf, hfragment, hfoffset, hfmore, hfpayload⟩ := fragmentAt_ok h hos hoffset hpos hend hunit hsize
  have hstep : fragmentsFrom packet (headerOf packet) (padded (copied os)) mtu offset =
      fragmentsFrom packet (headerOf packet) (padded (copied os)) mtu (offset + count) >>= fun rest => .ok (f :: rest) := by
    rw [fragmentsFrom, hcount]
    change (if packet.length - headerLength packet ≤ offset then _ else if count = 0 then _ else
      fragmentAt packet (headerOf packet) (padded (copied os)) offset count
        (decide (count < packet.length - headerLength packet - offset) || moreFragments packet) >>= _) = _
    rw [if_neg (by omega), if_neg (by omega), hmore', hf, ok_bind]
  rw [hstep]
  have hcontent : (payloadOf f).length = count := by
    rw [hfpayload, List.length_take, List.length_drop]
    omega
  by_cases hnear : offset + count < (payloadOf packet).length
  · have hnext : (offset + count) % 8 = 0 := by
      have := haligned hnear
      omega
    obtain ⟨fs, hfs, hall, htiles, hmarks⟩ := ih _ (by omega) hnext hnear rfl
    refine ⟨f :: fs, by rw [hfs, ok_bind], ?_, ?_, ?_⟩
    · intro g hg
      rcases List.mem_cons.1 hg with rfl | hg
      · exact hfragment
      · exact hall g hg
    · have hsplit : (payloadOf packet).drop offset = payloadOf f ++ (payloadOf packet).drop (offset + count) := by
        rw [hfpayload, ← List.drop_drop, List.take_append_drop]
      rw [hsplit, ← hfoffset]
      refine .more (List.ne_nil_of_length_pos (by omega)) (List.ne_nil_of_length_pos ?_) ?_
      · rw [List.length_drop]
        omega
      · rwa [hcontent, hfoffset, add_assoc]
    · have hne : 0 < fs.length := List.length_pos_of_ne_nil htiles.ne_nil
      have hset : moreFragments f = true := by
        rw [hfmore, hmore]
        simp [hnear]
      rw [List.map_cons, hmarks, hset, List.length_cons, Nat.add_sub_cancel,
        show fs.length = fs.length - 1 + 1 by omega, List.replicate_succ]
      rfl
  · have hdone : fragmentsFrom packet (headerOf packet) (padded (copied os)) mtu (offset + count) = .ok [] := by
      rw [fragmentsFrom, if_pos]
      simp only [headerOf]
      omega
    refine ⟨[f], by rw [hdone, ok_bind], by simpa using hfragment, ?_, ?_⟩
    · have hwhole : (payloadOf packet).drop offset = payloadOf f := by
        rw [hfpayload, List.take_of_length_le]
        rw [List.length_drop]
        omega
      rw [hwhole, ← hfoffset]
      exact .last f
    · rw [List.map_singleton, hfmore, hmore]
      simp [hnear]

end

/-! ## Fragmentation and reassembly -/

/-- What the fragments of a packet with the options `os` are. -/
structure Fragmentation (packet : Bytes) (os : List Bytes) (mtu : ℕ) (fragments : List Bytes) : Prop where
  accepted : ∀ f ∈ fragments, inspectIpv4 f = .ok (headerOf f)
  size : ∀ f ∈ fragments, f.length ≤ mtu
  same : ∀ f ∈ fragments, SameDatagram packet f
  tiles : Tiles fragmentOffset payloadOf (fragmentOffset packet) fragments (payloadOf packet)
  /-- More fragments follow all but the last; they follow the last if they follow the packet. -/
  marks : fragments.map moreFragments = List.replicate (fragments.length - 1) true ++ [moreFragments packet]
  first : ∀ f ∈ fragments.head?, optionBytes f = optionBytes packet
  later : ∀ f ∈ fragments.tail, optionBytes f = padded (copied os)

section
variable {packet : Bytes} {os : List Bytes} {mtu : ℕ}

theorem fragmentIpv4_of_fits (os : List Bytes) (h : Accepted packet) (hmtu : 68 ≤ mtu)
    (hfit : packet.length ≤ mtu) : fragmentIpv4 packet mtu = .ok [packet] ∧ Fragmentation packet os mtu [packet] := by
  have hinspect : inspectIpv4 packet = .ok (headerOf packet) := inspectIpv4_eq_ok.2 ⟨h, rfl⟩
  constructor
  · rw [fragmentIpv4, check_of hmtu, ok_bind, hinspect, ok_bind, if_pos hfit]
  · exact ⟨by simpa using hinspect, by simpa using hfit, by simpa using ⟨rfl, rfl, rfl, rfl, rfl⟩, .last packet, rfl, by simp, by simp⟩

theorem fragmentIpv4_of_large (h : Accepted packet) (hos : Options (optionBytes packet) os) (hmtu : 68 ≤ mtu)
    (hlarge : mtu < packet.length) (hdf : ¬ dontFragment packet) :
    ∃ fs, fragmentIpv4 packet mtu = .ok fs ∧ Fragmentation packet os mtu fs ∧ ∀ f ∈ fs, ¬ dontFragment f := by
  have hinspect : inspectIpv4 packet = .ok (headerOf packet) := inspectIpv4_eq_ok.2 ⟨h, rfl⟩
  obtain ⟨-, hheader⟩ := headerLength_spec packet
  have hlength := length_payloadOf packet
  obtain ⟨fs, hfs, hall, htiles, hmarks⟩ := fragmentsFrom_ok h hos hmtu (Nat.zero_mod 8) (by omega)
  rw [add_zero, List.drop_zero] at htiles
  refine ⟨fs, ?_, ?_, fun f hf => (hall f hf).splittable⟩
  · have hcopied : copiedOptions packet (headerLength packet) = .ok (padded (copied os)) :=
      (copiedOptions_eq_ok h.header_le).2 ⟨os, hos, rfl⟩
    have hallowed : ¬ (headerOf packet).dontFragment := hdf
    have hsize : (headerOf packet).headerSize = headerLength packet := rfl
    rw [fragmentIpv4, check_of hmtu, ok_bind, hinspect, ok_bind, if_neg (by omega), check_of hallowed, ok_bind, hsize, hcopied,
      ok_bind, hfs]
  · obtain ⟨f, rest, rfl, hstart, hlater⟩ := htiles.head
    refine ⟨fun g hg => inspectIpv4_eq_ok.2 ⟨(hall g hg).accepted, rfl⟩, fun g hg => (hall g hg).size,
      fun g hg => (hall g hg).same, htiles, hmarks, ?_, ?_⟩
    · intro g hg
      cases hg
      rw [(hall f List.mem_cons_self).options, if_pos hstart]
    · intro g hg
      rw [(hall g (List.mem_cons_of_mem f hg)).options, if_neg (hlater g hg).ne']

/-- A packet is refused only where it is larger than the MTU and must not be fragmented. -/
theorem fragmentIpv4_error (h : Accepted packet) (hmtu : 68 ≤ mtu) :
    (∃ e, fragmentIpv4 packet mtu = .error e) ↔ mtu < packet.length ∧ dontFragment packet := by
  obtain ⟨os, hos⟩ := h.options
  constructor
  · rintro ⟨e, he⟩
    by_cases hfit : packet.length ≤ mtu
    · rw [(fragmentIpv4_of_fits os h hmtu hfit).1] at he
      cases he
    refine ⟨by omega, ?_⟩
    by_contra hdf
    obtain ⟨fs, hfs, -⟩ := fragmentIpv4_of_large h hos hmtu (by omega) hdf
    rw [hfs] at he
    cases he
  · rintro ⟨hlarge, hdf⟩
    refine ⟨.lengthError "IPv4 fragmentation needed", ?_⟩
    rw [fragmentIpv4, check_of hmtu, ok_bind, inspectIpv4_eq_ok.2 ⟨h, rfl⟩, ok_bind, if_neg (by omega),
      check_of_not (by simpa [headerOf] using hdf), error_bind]

/-- The fragments of the fragments. -/
def refragment (mtus : Bytes → ℕ) (fragments : List Bytes) : Except Exn (List (List Bytes)) :=
  fragments.mapM fun f => fragmentIpv4 f (mtus f)

theorem refragment_ok {fragments : List Bytes} {mtus : Bytes → ℕ} (h : Fragmentation packet os mtu fragments)
    (hmtus : ∀ f, 68 ≤ mtus f) (hdf : ∀ f ∈ fragments, ¬ dontFragment f) :
    ∃ pieces, refragment mtus fragments = .ok pieces := by
  refine exists_mapM_eq_ok fun f hf => ?_
  have haccepted := (inspectIpv4_eq_ok.1 (h.accepted f hf)).1
  cases hpieces : fragmentIpv4 f (mtus f) with
  | ok pieces => exact ⟨pieces, rfl⟩
  | error e => exact absurd ((fragmentIpv4_error haccepted (hmtus f)).1 ⟨e, hpieces⟩).2 (hdf f hf)

/-- What `fragment_ipv4` returns is a fragmentation. -/
theorem fragmentation_of_ok {fragments : List Bytes} (h : Accepted packet) (hos : Options (optionBytes packet) os)
    (hmtu : 68 ≤ mtu) (hok : fragmentIpv4 packet mtu = .ok fragments) :
    Fragmentation packet os mtu fragments ∧ (¬ dontFragment packet → ∀ f ∈ fragments, ¬ dontFragment f) := by
  by_cases hfit : packet.length ≤ mtu
  · obtain ⟨hone, hfragmentation⟩ := fragmentIpv4_of_fits os h hmtu hfit
    cases hone.symm.trans hok
    exact ⟨hfragmentation, fun hdf => by simpa using hdf⟩
  · have hdf : ¬ dontFragment packet := by
      intro hdf
      obtain ⟨e, he⟩ := (fragmentIpv4_error h hmtu).2 ⟨by omega, hdf⟩
      rw [he] at hok
      cases hok
    obtain ⟨fs, hfs, hfragmentation, hsplittable⟩ := fragmentIpv4_of_large h hos hmtu (by omega) hdf
    cases hfs.symm.trans hok
    exact ⟨hfragmentation, fun _ => hsplittable⟩

/-- However the pieces of the fragments arrive, they make up the payload. -/
theorem reassembled {fragments : List Bytes} {mtus : Bytes → ℕ} {pieces : List (List Bytes)}
    (h : Fragmentation packet os mtu fragments) (hmtus : ∀ f, 68 ≤ mtus f) (hpieces : refragment mtus fragments = .ok pieces)
    {arrived : List Bytes} (harrived : arrived.Perm pieces.flatten) :
    assemble fragmentOffset payloadOf arrived = payloadOf packet := by
  obtain ⟨hmap, hall⟩ := map_of_mapM_eq_ok hpieces
  have htiles := h.tiles.refine fun f hf => by
    have haccepted := (inspectIpv4_eq_ok.1 (h.accepted f hf)).1
    obtain ⟨os', hos'⟩ := haccepted.options
    exact (fragmentation_of_ok haccepted hos' (hmtus f) (hall f hf)).1.tiles
  rw [List.flatMap_def, ← hmap] at htiles
  exact htiles.assemble_perm harrived

/-- Fragmentation fails only on a packet that must not be fragmented; otherwise the fragments are as they should
be, and can be fragmented again and put together in any order. -/
theorem fragment_ipv4 {info : Ipv4Header} (h : inspectIpv4 packet = .ok info) (hmtu : 68 ≤ mtu) :
    ((∃ e, fragmentIpv4 packet mtu = .error e) ↔ mtu < packet.length ∧ info.dontFragment) ∧
    ∀ fragments, fragmentIpv4 packet mtu = .ok fragments →
      (∃ os, Options (optionBytes packet) os ∧ Fragmentation packet os mtu fragments) ∧
      ∀ mtus : Bytes → ℕ, (∀ f, 68 ≤ mtus f) →
        (¬ info.dontFragment → ∃ pieces, refragment mtus fragments = .ok pieces) ∧
        ∀ pieces, refragment mtus fragments = .ok pieces → ∀ arrived, arrived.Perm pieces.flatten →
          assemble fragmentOffset payloadOf arrived = payloadOf packet := by
  obtain ⟨haccepted, rfl⟩ := inspectIpv4_eq_ok.1 h
  obtain ⟨os, hos⟩ := haccepted.options
  refine ⟨fragmentIpv4_error haccepted hmtu, fun fragments hok => ?_⟩
  obtain ⟨hfragmentation, hsplittable⟩ := fragmentation_of_ok haccepted hos hmtu hok
  refine ⟨⟨os, hos, hfragmentation⟩, fun mtus hmtus => ⟨fun hdf => ?_, fun pieces hpieces arrived harrived => ?_⟩⟩
  · exact refragment_ok hfragmentation hmtus (hsplittable hdf)
  · exact reassembled hfragmentation hmtus hpieces harrived

end

/-- A UDP packet with a router alert, an option that is copied. -/
def alertPacket : Bytes :=
  [0x46, 0, 0, 104, 0, 7, 0, 0, 64, 17, 209, 119, 10, 0, 0, 1, 10, 0, 0, 2, 0x94, 4, 0, 0] ++ List.replicate 80 1

theorem inspect_alertPacket : inspectIpv4 alertPacket = .ok (headerOf alertPacket) := by
  refine inspectIpv4_eq_ok.2 ⟨?_, rfl⟩
  constructor
  · decide
  · decide
  · decide
  · decide
  · decide
  · decide
  · exact internetChecksum_eq_zero (by decide) (by decide) (by decide)
  · exact ⟨[[0x94, 4, 0, 0]], .option (o := [0x94, 4, 0, 0]) (by decide) (by decide) (by decide) .done⟩
  · decide
  · decide
  · decide
  · decide
  · decide

theorem fragment_ipv4_alertPacket : ∃ fragments, fragmentIpv4 alertPacket 68 = .ok fragments ∧ 2 ≤ fragments.length ∧
    ∃ os, Options (optionBytes alertPacket) os ∧ Fragmentation alertPacket os 68 fragments := by
  obtain ⟨hfails, hall⟩ := fragment_ipv4 inspect_alertPacket (le_refl 68)
  cases hok : fragmentIpv4 alertPacket 68 with
  | error e =>
    have hrefused := (hfails.1 ⟨e, hok⟩).2
    exact absurd hrefused (by decide)
  | ok fragments =>
    obtain ⟨os, hos, hfragmentation⟩ := (hall fragments hok).1
    refine ⟨fragments, rfl, ?_, os, hos, hfragmentation⟩
    match fragments, hfragmentation with
    | [], h => exact absurd rfl h.tiles.ne_nil
    | [f], h =>
      have hsize := h.size f List.mem_cons_self
      have hwhole : payloadOf f = payloadOf alertPacket := by simpa using h.tiles.flatMap_eq
      have hlength : (payloadOf alertPacket).length = 80 := by decide
      rw [← hwhole, length_payloadOf] at hlength
      omega
    | _ :: _ :: _, _ => simp

end LanLink
