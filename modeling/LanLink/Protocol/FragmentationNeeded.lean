import LanLink.Protocol.Fragments
/-!
# Fragmentation-needed errors

`ipv4_fragmentation_needed` answers a packet that is too large and may not be
fragmented with an ICMP error that quotes its header and eight bytes more. The
error is a packet that `inspect_ipv4` accepts and carries two checksums. No
error answers an error.
-/
open LanLink.Lib

namespace LanLink

/-! ## What is answered -/

/-- The packet begins an ICMP error message. -/
def IsIcmpError (packet : Bytes) : Prop :=
  byteAt packet 9 = 1 ∧ ∃ type ∈ [3, 4, 5, 11, 12], (payloadOf packet).head? = some type

/-- An address of one host: not zero, no multicast group and not reserved. -/
def IsHostAddress (address : UInt32) : Prop := address ≠ 0 ∧ address < 0xe0000000

/-- The packet gets an error from this router. -/
structure Reportable (packet : Bytes) (router : UInt32) : Prop where
  dontFragment : dontFragment packet = true
  source : IsHostAddress (readIpv4 packet 12)
  destination : readIpv4 packet 16 < 0xe0000000
  router : IsHostAddress router
  noError : ¬ IsIcmpError packet

/-- The bytes of a packet that an error quotes. -/
def quoteOf (packet : Bytes) : Bytes := packet.take (min packet.length (headerLength packet + 8))

/-- The error `router` sends about a packet. -/
structure Reports (packet : Bytes) (router : UInt32) (mtu : UInt16) (error : Bytes) : Prop where
  accepted : inspectIpv4 error = .ok (headerOf error)
  size_le : error.length ≤ 96
  header : headerLength error = 20
  source : readIpv4 error 12 = router
  destination : readIpv4 error 16 = readIpv4 packet 12
  protocol : byteAt error 9 = 1
  /-- Destination unreachable, because fragmentation is needed. -/
  type : byteAt error 20 = 3 ∧ byteAt error 21 = 4
  checksum : internetChecksum (payloadOf error) = 0
  mtu : getInt error 26 2 = mtu.toNat
  quote : error.drop 28 = quoteOf packet
  fragmentable : dontFragment error = false

/-! ## The error before its checksums -/

/-- The headers of the error, both checksums zero. -/
def errorFront (length router source mtu : ℕ) : Bytes :=
  [0x45, 0] ++ (beBytes 2 length ++ ([0, 0, 0, 0, 64, 1, 0, 0] ++ (beBytes 4 router ++ (beBytes 4 source ++ ([3, 4, 0, 0, 0, 0] ++
    beBytes 2 mtu)))))

theorem length_errorFront (length router source mtu : ℕ) : (errorFront length router source mtu).length = 28 := by
  simp [errorFront]

/-- The writes before the length is known, on a packet of 28 zeros. -/
theorem errorFront_zero (router source mtu : ℕ) :
    putInt (putInt (putInt (putInt (putInt (putInt (putInt (putInt (List.replicate 28 0) 0 0x45 1) 8 64 1) 9 1 1) 12 router 4)
      16 source 4) 20 3 1) 21 4 1) 26 mtu 2 = errorFront 0 router source mtu := by
  simp [errorFront, putInt, beBytes, List.replicate]

theorem putInt_errorFront (length router source mtu : ℕ) :
    putInt (errorFront 0 router source mtu) 2 length 2 = errorFront length router source mtu := by
  simp [errorFront, putInt, beBytes]

section
variable (packet : Bytes) (router : UInt32) (mtu : UInt16)

/-- The error with both checksums zero. -/
def blankError : Bytes :=
  errorFront (28 + (quoteOf packet).length) router.toNat (readIpv4 packet 12).toNat mtu.toNat ++ quoteOf packet

/-- The error that lacks the checksum of its header only. -/
def unsummedError : Bytes :=
  putInt (blankError packet router mtu) 22 (internetChecksum ((blankError packet router mtu).drop 20)).toNat 2

variable {packet router mtu}

theorem length_quoteOf (packet : Bytes) : (quoteOf packet).length ≤ 68 := by
  rw [quoteOf, List.length_take, headerLength]
  omega

theorem length_blankError : (blankError packet router mtu).length = 28 + (quoteOf packet).length := by
  rw [blankError, List.length_append, length_errorFront]

/-! ## When there is one -/

theorem isIcmpError_iff : IsIcmpError packet ↔
    byteAt packet 9 = 1 ∧ headerLength packet < packet.length ∧ icmpError (byteAt packet (headerLength packet)).toNat = true := by
  have htypes (b : UInt8) : b ∈ [3, 4, 5, 11, 12] ↔ icmpError b.toNat = true := by
    simp [icmpError, ← UInt8.toNat_inj, or_assoc]
  simp only [IsIcmpError, payloadOf, List.head?_drop]
  refine and_congr_right fun _ => ?_
  constructor
  · rintro ⟨b, hb, hfirst⟩
    obtain ⟨hlt, rfl⟩ := List.getElem?_eq_some_iff.1 hfirst
    refine ⟨hlt, ?_⟩
    rw [byteAt, List.getD_eq_getElem?_getD, hfirst]
    exact (htypes _).1 hb
  · rintro ⟨hlt, htype⟩
    refine ⟨_, (htypes _).2 htype, ?_⟩
    rw [byteAt, List.getD_eq_getElem?_getD, List.getElem?_eq_getElem hlt, Option.getD_some]

/-- The two tests of the function. -/
theorem reportable_iff (h : Accepted packet) : Reportable packet router ↔
    ¬ (¬ (headerOf packet).dontFragment ∨ (headerOf packet).fragmentOffset ≠ 0 ∨ (headerOf packet).source = 0 ∨
      0xe0000000 ≤ (headerOf packet).source ∨ 0xe0000000 ≤ (headerOf packet).destination ∨ router = 0 ∨ 0xe0000000 ≤ router) ∧
    ¬ (byteAt packet 9 = 1 ∧ (headerOf packet).headerSize < packet.length ∧
      icmpError (byteAt packet (headerOf packet).headerSize).toNat) := by
  change _ ↔ _ ∧ ¬ (byteAt packet 9 = 1 ∧ headerLength packet < packet.length ∧ icmpError (byteAt packet (headerLength packet)).toNat = true)
  rw [← isIcmpError_iff]
  simp only [not_or, not_not, UInt32.not_le, ne_eq]
  constructor
  · rintro ⟨hdf, ⟨hzero, hsource⟩, hdestination, ⟨hnone, hrouter⟩, herror⟩
    exact ⟨⟨hdf, (h.whole hdf).2, hzero, hsource, hdestination, hnone, hrouter⟩, herror⟩
  · rintro ⟨⟨hdf, -, hzero, hsource, hdestination, hnone, hrouter⟩, herror⟩
    exact ⟨hdf, ⟨hzero, hsource⟩, hdestination, ⟨hnone, hrouter⟩, herror⟩

theorem ipv4FragmentationNeeded_of_not (h : Accepted packet) (hnot : ¬ Reportable packet router) (mtu : ℕ) :
    ipv4FragmentationNeeded packet router mtu = .ok none := by
  rw [reportable_iff h, not_and_or, not_not, not_not] at hnot
  rw [ipv4FragmentationNeeded, inspectIpv4_eq_ok.2 ⟨h, rfl⟩, ok_bind]
  dsimp only
  rcases hnot with hfirst | hsecond
  · rw [if_pos hfirst]
  · rw [if_pos hsecond, ite_self]

theorem ipv4FragmentationNeeded_of_reportable (h : Accepted packet) (hreportable : Reportable packet router) :
    ipv4FragmentationNeeded packet router mtu.toNat = updateIpv4Checksum (unsummedError packet router mtu) >>= fun error => .ok (some error) := by
  obtain ⟨hfirst, hsecond⟩ := (reportable_iff h).1 hreportable
  rw [ipv4FragmentationNeeded, inspectIpv4_eq_ok.2 ⟨h, rfl⟩, ok_bind]
  dsimp only
  rw [if_neg hfirst, if_neg hsecond, unsummedError, blankError, errorFront_zero]
  dsimp only [headerOf]
  have hlength : (errorFront 0 router.toNat (readIpv4 packet 12).toNat mtu.toNat ++
      packet.take (min packet.length (headerLength packet + 8))).length = 28 + (quoteOf packet).length := by
    rw [List.length_append, length_errorFront, quoteOf]
  rw [hlength, putInt_append _ _ (by rw [length_errorFront]; omega), putInt_errorFront, ← quoteOf]

/-! ## What it is -/

/-- A field of the headers, in the error without checksums. -/
theorem getInt_blankError {offset count value : ℕ} (hvalue : value < 256 ^ count) (hin : offset + count ≤ 28)
    (h : ((errorFront (28 + (quoteOf packet).length) router.toNat (readIpv4 packet 12).toNat mtu.toNat).drop offset).take count =
      beBytes count value) : getInt (blankError packet router mtu) offset count = value := by
  rw [getInt, blankError, List.drop_append_of_le_length (by rw [length_errorFront]; omega),
    List.take_append_of_le_length (by rw [List.length_drop, length_errorFront]; omega), h, beNat_beBytes _ _ hvalue]

theorem getInt_unsummedError {offset count : ℕ} (h : offset + count ≤ 22 ∨ 24 ≤ offset) :
    getInt (unsummedError packet router mtu) offset count = getInt (blankError packet router mtu) offset count :=
  getInt_putInt_of_apart (by rw [length_blankError]; omega) h

theorem length_unsummedError : (unsummedError packet router mtu).length = 28 + (quoteOf packet).length := by
  rw [unsummedError, length_putInt (by rw [length_blankError]; omega), length_blankError]

theorem byteAt_unsummedError {i : ℕ} (hi : i < 22) : byteAt (unsummedError packet router mtu) i =
    byteAt (errorFront (28 + (quoteOf packet).length) router.toNat (readIpv4 packet 12).toNat mtu.toNat) i := by
  rw [unsummedError, byteAt_putInt (by rw [length_blankError]; omega) (by omega), blankError,
    byteAt_append (by rw [length_errorFront]; omega)]

theorem unsummed_unsummedError : Unsummed (unsummedError packet router mtu) := by
  have hquote := length_quoteOf packet
  constructor
  · rw [length_unsummedError]
    omega
  · rw [length_unsummedError]
    omega
  · rw [byteAt_unsummedError (by omega)]
    rfl
  · rw [getInt_unsummedError (by omega), length_unsummedError]
    exact getInt_blankError (by omega) (by omega) rfl
  · rw [byteAt_unsummedError (by omega)]
    simp [errorFront, byteAt, beBytes]
  · rw [getInt_unsummedError (by omega)]
    exact .inl (getInt_blankError (by omega) (by omega) rfl)

/-- The message passes with its checksum, which is taken over a field that is still zero. -/
theorem checksum_unsummedError : internetChecksum ((unsummedError packet router mtu).drop 20) = 0 := by
  have hquote := length_quoteOf packet
  have hdrop : (blankError packet router mtu).drop 20 = [3, 4, 0, 0, 0, 0] ++ beBytes 2 mtu.toNat ++ quoteOf packet := by
    rw [blankError, List.drop_append_of_le_length (by rw [length_errorFront]; omega)]
    rfl
  have hzero : putInt ((blankError packet router mtu).drop 20) 2 0 2 = (blankError packet router mtu).drop 20 := by
    rw [hdrop, putInt_append _ _ (by simp)]
    rfl
  have hlength : ((blankError packet router mtu).drop 20).length = 8 + (quoteOf packet).length := by
    rw [List.length_drop, length_blankError]
    omega
  rw [unsummedError, show 22 = 20 + 2 from rfl, drop_putInt_inside (by rw [length_blankError]; omega)]
  have hstored := @internetChecksum_stored ((blankError packet router mtu).drop 20) 2 (by omega) rfl (by omega)
  rwa [hzero] at hstored

/-- The error, given what the last checksum is. -/
theorem reports_of_updated {sum : ℕ} (haccepted : Accepted (putInt (unsummedError packet router mtu) 10 sum 2)) :
    Reports packet router mtu (putInt (unsummedError packet router mtu) 10 sum 2) := by
  have hlength := @length_unsummedError packet router mtu
  have hquote := length_quoteOf packet
  have hfield : 10 + 2 ≤ (unsummedError packet router mtu).length := by omega
  have hheader : headerLength (putInt (unsummedError packet router mtu) 10 sum 2) = 20 := by
    rw [headerLength, byteAt_putInt hfield (by omega), unsummed_unsummedError.first]
    rfl
  constructor
  · exact inspectIpv4_eq_ok.2 ⟨haccepted, rfl⟩
  · rw [length_putInt hfield]
    omega
  · exact hheader
  · refine readIpv4_of_getInt ?_
    rw [getInt_putInt_of_apart hfield (by omega), getInt_unsummedError (by omega)]
    exact getInt_blankError router.toNat_lt (by omega) rfl
  · refine readIpv4_of_getInt ?_
    rw [getInt_putInt_of_apart hfield (by omega), getInt_unsummedError (by omega)]
    exact getInt_blankError (readIpv4 packet 12).toNat_lt (by omega) rfl
  · rw [byteAt_putInt hfield (by omega), byteAt_unsummedError (by omega)]
    simp [errorFront, byteAt, beBytes]
  · rw [byteAt_putInt hfield (by omega), byteAt_putInt hfield (by omega), byteAt_unsummedError (by omega), byteAt_unsummedError (by omega)]
    simp [errorFront, byteAt, beBytes]
  · rw [payloadOf, hheader, drop_putInt hfield (by omega)]
    exact checksum_unsummedError
  · rw [getInt_putInt_of_apart hfield (by omega), getInt_unsummedError (by omega)]
    exact getInt_blankError mtu.toNat_lt (by omega) rfl
  · rw [drop_putInt hfield (by omega), unsummedError, drop_putInt (by rw [length_blankError]; omega) (by omega), blankError,
      List.drop_left' (length_errorFront _ _ _ _)]
  · rw [dontFragment, getInt_putInt_of_apart hfield (by omega), getInt_unsummedError (by omega), @getInt_blankError _ _ _ _ _ 0 (by omega) (by omega) rfl]
    rfl

/-- An error may be fragmented, so it gets none. -/
theorem Reports.unanswered {error : Bytes} (h : Reports packet router mtu error) (router' : UInt32) (mtu' : ℕ) :
    ipv4FragmentationNeeded error router' mtu' = .ok none := by
  refine ipv4FragmentationNeeded_of_not (inspectIpv4_eq_ok.1 h.accepted).1 (fun hreportable => ?_) mtu'
  have hdf := hreportable.dontFragment
  rw [h.fragmentable] at hdf
  cases hdf

/-- Exactly the reportable packets get an error. It is a packet of at most 96
bytes that reports the packet to its source, and gets no error itself. -/
theorem fragmentation_needed {info : Ipv4Header} (h : inspectIpv4 packet = .ok info) (router : UInt32) (mtu : UInt16) :
    ∃ result, ipv4FragmentationNeeded packet router mtu.toNat = .ok result ∧ (result.isSome ↔ Reportable packet router) ∧
      ∀ error, result = some error → Reports packet router mtu error ∧
        ∀ router' mtu', ipv4FragmentationNeeded error router' mtu' = .ok none := by
  obtain ⟨haccepted, -⟩ := inspectIpv4_eq_ok.1 h
  by_cases hreportable : Reportable packet router
  · obtain ⟨sum, -, hok, herror⟩ := (@unsummed_unsummedError packet router mtu).updated
    have hreports := reports_of_updated herror
    refine ⟨some (putInt (unsummedError packet router mtu) 10 sum 2), ?_, iff_of_true rfl hreportable, ?_⟩
    · rw [ipv4FragmentationNeeded_of_reportable haccepted hreportable, hok, ok_bind]
    · rintro _ ⟨⟩
      exact ⟨hreports, hreports.unanswered⟩
  · exact ⟨none, ipv4FragmentationNeeded_of_not haccepted hreportable _, iff_of_false Bool.false_ne_true hreportable, nofun⟩

end

/-- A UDP packet that may not be fragmented. -/
def wholePacket : Bytes :=
  [0x45, 0, 0, 32, 0, 7, 0x40, 0, 64, 17, 38, 68, 10, 64, 0, 1, 10, 64, 0, 2, 19, 136, 19, 136, 0, 12, 0, 0, 1, 2, 3, 4]

theorem inspect_wholePacket : inspectIpv4 wholePacket = .ok (headerOf wholePacket) := by
  refine inspectIpv4_eq_ok.2 ⟨?_, rfl⟩
  constructor
  · decide
  · decide
  · decide
  · decide
  · decide
  · decide
  · exact internetChecksum_eq_zero (by decide) (by decide) (by decide)
  · exact ⟨[], .done⟩
  · decide
  · decide
  · decide
  · decide
  · decide

/-- From the gateway `10.64.0.254`. -/
theorem fragmentation_needed_wholePacket : ∃ error, ipv4FragmentationNeeded wholePacket 0x0a4000fe 1280 = .ok (some error) ∧
    Reports wholePacket 0x0a4000fe 1280 error := by
  obtain ⟨result, hok, hsome, hall⟩ := fragmentation_needed inspect_wholePacket 0x0a4000fe 1280
  have hreportable : Reportable wholePacket 0x0a4000fe := by
    refine ⟨by decide, ⟨by decide, by decide⟩, by decide, ⟨by decide, by decide⟩, ?_⟩
    rintro ⟨hprotocol, -⟩
    exact absurd hprotocol (by decide)
  obtain ⟨error, rfl⟩ := Option.isSome_iff_exists.1 (hsome.2 hreportable)
  exact ⟨error, hok, (hall error rfl).1⟩

end LanLink
