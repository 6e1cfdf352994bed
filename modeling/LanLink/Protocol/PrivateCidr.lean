import LanLink.Lib.Decimal
import LanLink.Protocol.Subnets
/-!
# Private subnets as text

`parse_private_cidr` (`policy_preview.cpp`) reads what the user types for a
routed subnet; `format_virtual_ipv4` (`relay_store.cpp`) writes addresses.
-/
open LanLink.Lib

namespace LanLink

def invalidCidr : Exn := .invalidArgument "Enter a canonical private IPv4 subnet."

/-- One round of the loop: the number before the next `c`, and what follows it. -/
def readOctet (c : UInt8) (t : Text) : Except Exn (ℕ × Text) :=
  match t.idxOf? c with
  | none => .error invalidCidr
  | some stop =>
    match fromChars 32 (t.take stop) with
    | some (octet, []) => if 255 < octet then .error invalidCidr else .ok (octet, t.drop (stop + 1))
    | _ => .error invalidCidr

/-- The loop over the octets; the address collects them. -/
def readOctets : List UInt8 → UInt32 → Text → Except Exn (UInt32 × Text)
  | [], address, t => .ok (address, t)
  | c :: cs, address, t => do
    let (octet, t) ← readOctet c t
    readOctets cs (address <<< 8 ||| UInt32.ofNat octet) t

/-- Three dots and a slash end the octets. -/
def octetEnds : Bytes := text ".../"

def parsePrivateCidr (t : Text) : Except Exn (UInt32 × UInt8) := do
  let (address, t) ← readOctets octetEnds 0 t
  match fromChars 32 t with
  | some (p, []) => do
    check (p ≤ 32 ∧ privateRoutedSubnet address (UInt8.ofNat p) ∧ ¬ subnetsOverlap address (UInt8.ofNat p) 0x0a400000 10)
      invalidCidr
    .ok (address, UInt8.ofNat p)
  | _ => .error invalidCidr

def formatVirtualIpv4 (address : UInt32) : Text :=
  decimal (address >>> 24).toNat ++ text "." ++ decimal (address >>> 16 &&& 0xff).toNat ++ text "." ++
    decimal (address >>> 8 &&& 0xff).toNat ++ text "." ++ decimal (address &&& 0xff).toNat

/-- Dotted decimals, a slash and the prefix length. -/
def cidrText (address : UInt32) (p : UInt8) : Text := formatVirtualIpv4 address ++ text "/" ++ decimal p.toNat

/-! ## Reading what was written -/

section
variable {c : UInt8} {n : ℕ} {rest : Text}

theorem readOctet_decimal (hn : n ≤ 255) (hc : isDigit c = false) : readOctet c (decimal n ++ c :: rest) = .ok (n, rest) := by
  have hfind : (decimal n ++ c :: rest).idxOf? c = some (decimal n).length := by
    rw [List.idxOf?_eq_some_iff]
    refine ⟨by simp, by simp, fun j hj heq => ?_⟩
    rw [List.getElem_append_left hj] at heq
    have hdigit := isDigit_of_mem_decimal (List.getElem_mem hj)
    rw [heq, hc] at hdigit
    cases hdigit
  have hread : fromChars 32 (decimal n) = some (n, []) := by
    have h := @fromChars_decimal n 32 [] (by omega) (by simp)
    rwa [List.append_nil] at h
  have htake : (decimal n ++ c :: rest).take (decimal n).length = decimal n := List.take_left
  have hdrop : (decimal n ++ c :: rest).drop ((decimal n).length + 1) = rest := by
    rw [← List.drop_drop, List.drop_left]
    rfl
  simp only [readOctet, hfind, htake, hread, hdrop]
  rw [if_neg (by omega)]

/-- One more octet below the others. -/
theorem toNat_push (address : UInt32) (hn : n ≤ 255) :
    (address <<< 8 ||| UInt32.ofNat n).toNat = (address.toNat * 256) % 2 ^ 32 + n := by
  have hshift : (address <<< 8).toNat = (address.toNat * 256) % 2 ^ 32 := by
    rw [UInt32.toNat_shiftLeft, Nat.shiftLeft_eq]
    rfl
  have hoctet : (UInt32.ofNat n).toNat = n := by
    rw [UInt32.toNat_ofNat']
    omega
  obtain ⟨k, hk⟩ : ∃ k, (address.toNat * 256) % 2 ^ 32 = k <<< 8 := ⟨address.toNat % 2 ^ 24, by rw [Nat.shiftLeft_eq]; omega⟩
  rw [UInt32.toNat_or, hshift, hoctet, hk, ← Nat.shiftLeft_add_eq_or_of_lt (by omega)]

end

theorem toNat_octet (address : UInt32) : (address >>> 24).toNat = address.toNat / 2 ^ 24 ∧
    (address >>> 16 &&& 0xff).toNat = address.toNat / 2 ^ 16 % 256 ∧
    (address >>> 8 &&& 0xff).toNat = address.toNat / 2 ^ 8 % 256 ∧ (address &&& 0xff).toNat = address.toNat % 256 := by
  have hmask (x : ℕ) : x &&& (0xff : UInt32).toNat = x % 256 := Nat.and_two_pow_sub_one_eq_mod x 8
  simp only [UInt32.toNat_and, hmask, UInt32.toNat_shiftRight, Nat.shiftRight_eq_div_pow]
  exact ⟨rfl, rfl, rfl, trivial⟩

/-- The octets of an address put together again. -/
theorem readOctets_format (address : UInt32) (rest : Text) :
    readOctets octetEnds 0 (formatVirtualIpv4 address ++ text "/" ++ rest) = .ok (address, rest) := by
  obtain ⟨h1, h2, h3, h4⟩ := toNat_octet address
  have hlt := address.toNat_lt
  have hdot : isDigit 46 = false := by decide
  have hslash : isDigit 47 = false := by decide
  have htext : formatVirtualIpv4 address ++ text "/" ++ rest = decimal (address >>> 24).toNat ++ (46 : UInt8) ::
      (decimal (address >>> 16 &&& 0xff).toNat ++ (46 : UInt8) :: (decimal (address >>> 8 &&& 0xff).toNat ++ (46 : UInt8) ::
        (decimal (address &&& 0xff).toNat ++ (47 : UInt8) :: rest))) := by
    have hdottext : text "." = [46] := by decide
    have hslashtext : text "/" = [47] := by decide
    simp [formatVirtualIpv4, hdottext, hslashtext]
  have hends : octetEnds = [46, 46, 46, 47] := by decide
  rw [htext, hends]
  simp only [readOctets]
  rw [readOctet_decimal (by omega) hdot, ok_bind]
  dsimp only
  rw [readOctet_decimal (by omega) hdot, ok_bind]
  dsimp only
  rw [readOctet_decimal (by omega) hdot, ok_bind]
  dsimp only
  rw [readOctet_decimal (by omega) hslash, ok_bind]
  congr 2
  rw [← UInt32.toNat_inj]
  rw [h1, h2, h3, h4, toNat_push, toNat_push, toNat_push, toNat_push]
  · change (((0 * 256 % 2 ^ 32 + _) * 256 % 2 ^ 32 + _) * 256 % 2 ^ 32 + _) * 256 % 2 ^ 32 + _ = _
    omega
  · omega
  · omega
  · omega
  · omega

/-- Reading back the text of a subnet gives the subnet if it is private and outside the overlay's pool. -/
theorem parsePrivateCidr_cidrText {a : UInt32} {p : UInt8} (hp : privateRoutedSubnet a p)
    (hpool : ¬ subnetsOverlap a p 0x0a400000 10) : parsePrivateCidr (cidrText a p) = .ok (a, p) := by
  have hlength := p.toNat_lt
  have hread : fromChars 32 (decimal p.toNat) = some (p.toNat, []) := by
    have h := @fromChars_decimal p.toNat 32 [] (by omega) (by simp)
    rwa [List.append_nil] at h
  have hbound := (subnetContains_iff.1 (privateRoutedSubnet_canonical hp)).2.1
  rw [parsePrivateCidr, cidrText, readOctets_format, ok_bind]
  dsimp only
  rw [hread]
  dsimp only
  rw [UInt8.ofNat_toNat, check_of ⟨hbound, hp, hpool⟩, ok_bind]

theorem parsePrivateCidr_ok {t : Text} {a : UInt32} {p : UInt8} (h : parsePrivateCidr t = .ok (a, p)) :
    privateRoutedSubnet a p ∧ ¬ subnetsOverlap a p 0x0a400000 10 := by
  rw [parsePrivateCidr, bind_eq_ok] at h
  obtain ⟨⟨address, t'⟩, -, h⟩ := h
  dsimp only at h
  split at h
  · rw [bind_eq_ok] at h
    obtain ⟨_, hcheck, h⟩ := h
    rw [check_eq_ok] at hcheck
    cases h
    exact hcheck.2
  · cases h

/-- The pool of the virtual networks, 10.64.0.0/10. -/
def overlayPool : Cidr := ⟨0x0a400000, 10, by decide, by decide, by decide⟩

theorem overlap_pool_iff {a : UInt32} {p : UInt8} (h : privateRoutedSubnet a p) :
    ¬ subnetsOverlap a p 0x0a400000 10 ↔ ∀ x, subnetContains a p x → ¬ subnetContains 0x0a400000 10 x := by
  have hoverlap := @Cidr.overlap_iff (.ofCanonical (privateRoutedSubnet_canonical h)) overlayPool
  change subnetsOverlap a p 0x0a400000 10 ↔ ∃ x, subnetContains a p x ∧ subnetContains 0x0a400000 10 x at hoverlap
  rw [hoverlap]
  push Not
  rfl

/-- The predicates on subnets say what they should about the addresses, and the
texts of the private subnets outside the pool are read back. -/
theorem subnet_algebra :
    (∀ S T : Cidr,
      (subnetsOverlap S.address S.prefixLength T.address T.prefixLength ↔
        ∃ x, subnetContains S.address S.prefixLength x ∧ subnetContains T.address T.prefixLength x) ∧
      (subnetsOverlap S.address S.prefixLength T.address T.prefixLength →
        (∀ x, subnetContains S.address S.prefixLength x → subnetContains T.address T.prefixLength x) ∨
        ∀ x, subnetContains T.address T.prefixLength x → subnetContains S.address S.prefixLength x)) ∧
    (∀ a p, privateRoutedSubnet a p ↔ ∃ S : Cidr, S.address = a ∧ S.prefixLength = p ∧ 8 ≤ p.toNat ∧ p.toNat ≤ 30 ∧
      ∀ x, subnetContains a p x → ∃ B ∈ Cidr.privateBlocks, x ∈ B.addresses) ∧
    (∀ t a p, parsePrivateCidr t = .ok (a, p) →
      privateRoutedSubnet a p ∧ ∀ x, subnetContains a p x → ¬ subnetContains 0x0a400000 10 x) ∧
    ∀ a p, privateRoutedSubnet a p → (∀ x, subnetContains a p x → ¬ subnetContains 0x0a400000 10 x) →
      parsePrivateCidr (cidrText a p) = .ok (a, p) := by
  refine ⟨fun S T => ⟨Cidr.overlap_iff, fun h => ?_⟩, fun a p => ⟨fun h => ?_, ?_⟩, fun t a p h => ?_, fun a p h hpool => ?_⟩
  · simp only [← Cidr.mem_addresses]
    exact Cidr.nested_of_overlap h
  · have hprivate := (Cidr.private_iff (S := .ofCanonical (privateRoutedSubnet_canonical h))).1 h
    refine ⟨.ofCanonical (privateRoutedSubnet_canonical h), rfl, rfl, hprivate.1, hprivate.2.1, fun x hx => ?_⟩
    exact hprivate.2.2 x (Cidr.mem_addresses.2 hx)
  · rintro ⟨S, rfl, rfl, hmin, hmax, hall⟩
    exact Cidr.private_iff.2 ⟨hmin, hmax, fun x hx => hall x (Cidr.mem_addresses.1 hx)⟩
  · obtain ⟨hprivate, hpool⟩ := parsePrivateCidr_ok h
    exact ⟨hprivate, (overlap_pool_iff hprivate).1 hpool⟩
  · exact parsePrivateCidr_cidrText h ((overlap_pool_iff h).2 hpool)

example : parsePrivateCidr (text "192.168.50.0/24") = .ok (0xc0a83200, 24) := by decide

end LanLink
