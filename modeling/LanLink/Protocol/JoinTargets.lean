import LanLink.Auth.KeyEnvelopes
import LanLink.Lib.Texts
/-!
# Join targets

`protocol/join_target.cpp`: what a user enters to join a network, a network id,
an invitation link or an invitation code, and the two writers of invitations.
-/
open LanLink.Lib

namespace LanLink

structure JoinTarget where
  networkId : NetworkId := 0
  invitation : Text := []
  deriving DecidableEq, Repr

/-! ## The parser -/

/-- Spaces, carriage returns, newlines and tabs. -/
def joinSpace (c : UInt8) : Bool := c = 32 || c = 13 || c = 10 || c = 9

def digit (c : UInt8) : Except Exn ℕ :=
  if 48 ≤ c ∧ c ≤ 57 then .ok (c.toNat - 48)
  else if 97 ≤ c ∧ c ≤ 102 then .ok (c.toNat - 97 + 10)
  else if 65 ≤ c ∧ c ≤ 70 then .ok (c.toNat - 65 + 10)
  else .error (.invalidArgument "invalid join identifier")

/-- "lanlink://join/". -/
def linkPrefix : Text := [108, 97, 110, 108, 105, 110, 107, 58, 47, 47, 106, 111, 105, 110, 47]

/-- "LL1.". -/
def codePrefix : Text := [76, 76, 49, 46]

/-- The separator of the form, if it has one, and the text without its prefix. -/
def stripForm (text : Text) : Option UInt8 × Text :=
  if linkPrefix.isPrefixOf text then (some 47, text.drop 15)
  else if codePrefix.isPrefixOf text then (some 46, text.drop 4)
  else (none, text)

/-- Two digits for each byte. -/
def idBytes : Text → Except Exn Bytes
  | high :: low :: rest => do
    let high ← digit high
    let low ← digit low
    let bytes ← idBytes rest
    .ok (UInt8.ofNat (high * 16 + low) :: bytes)
  | _ => .ok []

/-- The digits in lower case. -/
def lowered : Text → Except Exn Text
  | [] => .ok []
  | c :: rest => do
    let v ← digit c
    let secret ← lowered rest
    .ok (hexDigit v :: secret)

/-- The secret of a form that has one. -/
def invitationOf (form : Option UInt8 × Text) : Except Exn Text :=
  if form.1 = none then .ok [] else lowered (form.2.drop 33)

def parseJoinTarget (text : Text) : Except Exn JoinTarget := do
  let form := stripForm (trim joinSpace text)
  check (¬ ((form.1 = none ∧ form.2.length ≠ 32) ∨ (form.1 ≠ none ∧ (form.2.length ≠ 73 ∨ form.2[32]? ≠ form.1))))
    (.invalidArgument "Enter a network ID, LanLink invitation link or invitation code.")
  let id ← idBytes (form.2.take 32)
  check (¬ id.all (· = 0)) (.invalidArgument "zero network ID")
  let invitation ← invitationOf form
  .ok { networkId := ofBytes 128 id, invitation }

/-! ## The writers -/

namespace JoinTarget

/-- What was written must parse. -/
def makeInviteLink (network : NetworkId) (secret : Text) : Except Exn Text := do
  let result := LanLink.makeInviteLink network secret
  let _ ← parseJoinTarget result
  .ok result

def makeInviteCode (network : NetworkId) (secret : Text) : Except Exn Text := do
  let result := LanLink.makeInviteCode network secret
  let _ ← parseJoinTarget result
  .ok result

end JoinTarget

/-! ## The grammar -/

/-- A text that names a network, with the digits of its id and of the invitation's secret. -/
inductive Named : Text → List ℕ → List ℕ → Prop
  | id {id : Text} {ids : List ℕ} (hid : Spells id ids) (hlength : ids.length = 32) : Named id ids []
  | link {id secret : Text} {ids secrets : List ℕ} (hid : Spells id ids) (hlength : ids.length = 32)
      (hsecret : Spells secret secrets) (hlength' : secrets.length = 40) :
      Named (text "lanlink://join/" ++ (id ++ (text "/" ++ secret))) ids secrets
  | code {id secret : Text} {ids secrets : List ℕ} (hid : Spells id ids) (hlength : ids.length = 32)
      (hsecret : Spells secret secrets) (hlength' : secrets.length = 40) :
      Named (text "LL1." ++ (id ++ (text "." ++ secret))) ids secrets

/-- What the digits name: the secret in lower case. -/
def targetOf (ids secrets : List ℕ) : JoinTarget where
  networkId := BitVec.ofNat 128 (hexNumber ids)
  invitation := secrets.map hexDigit

/-! ## Digits -/

section
variable {c : UInt8} {v : ℕ} {digits secret : Text} {bytes : Bytes} {values : List ℕ}

theorem digit_ofBitVec : ∀ (x : BitVec 8) (v : Fin 16), (digit (UInt8.ofBitVec x)).toOption = some v.val ↔ IsDigit (UInt8.ofBitVec x) v := by
  decide +kernel

theorem digit_lt : ∀ x : BitVec 8, (digit (UInt8.ofBitVec x)).toOption.getD 0 < 16 := by
  decide +kernel

theorem digit_eq_ok : digit c = .ok v ↔ IsDigit c v := by
  have hdigit (h : v < 16) : digit c = .ok v ↔ IsDigit c v := by
    rw [← digit_ofBitVec c.toBitVec ⟨v, h⟩]
    change digit c = .ok v ↔ (digit c).toOption = some v
    cases digit c <;> simp [Except.toOption]
  constructor
  · intro h
    have hlt : (digit c).toOption.getD 0 < 16 := digit_lt c.toBitVec
    rw [h] at hlt
    exact (hdigit hlt).1 h
  · exact fun h => (hdigit h.lt).2 h

theorem isDigit_hexDigit (h : v < 16) : IsDigit (hexDigit v) v := by
  have hall : ∀ v : Fin 16, IsDigit (hexDigit v) v := by decide
  exact hall ⟨v, h⟩

theorem idBytes_eq_ok (heven : digits.length % 2 = 0) : idBytes digits = .ok bytes ↔ ∃ values, Spells digits values ∧ bytes = packed values := by
  induction digits using idBytes.induct generalizing bytes with
  | case1 high low rest ih =>
    rw [List.length_cons, List.length_cons] at heven
    simp only [idBytes, bind_eq_ok, digit_eq_ok, ih (by omega), Except.ok.injEq]
    constructor
    · rintro ⟨v, hv, w, hw, _, ⟨values, hvalues, rfl⟩, rfl⟩
      exact ⟨v :: w :: values, .cons hv (.cons hw hvalues), rfl⟩
    · rintro ⟨values, hvalues, rfl⟩
      cases hvalues with
      | cons hv hrest =>
        cases hrest with
        | cons hw hvalues => exact ⟨_, hv, _, hw, _, ⟨_, hvalues, rfl⟩, rfl⟩
  | case2 digits hshort =>
    rcases digits with _ | ⟨high, _ | ⟨low, rest⟩⟩
    · simp [idBytes, packed, eq_comm]
    · simp at heven
    · exact (hshort high low rest rfl).elim

theorem lowered_eq_ok : lowered digits = .ok secret ↔ ∃ values, Spells digits values ∧ secret = values.map hexDigit := by
  induction digits generalizing secret with
  | nil => simp [lowered, eq_comm]
  | cons c digits ih =>
    simp only [lowered, bind_eq_ok, digit_eq_ok, ih, Except.ok.injEq]
    constructor
    · rintro ⟨v, hv, _, ⟨values, hvalues, rfl⟩, rfl⟩
      exact ⟨v :: values, .cons hv hvalues, rfl⟩
    · rintro ⟨values, hvalues, rfl⟩
      cases hvalues with
      | cons hv hvalues => exact ⟨_, hv, _, ⟨_, hvalues, rfl⟩, rfl⟩

theorem packed_eq_zero (heven : values.length % 2 = 0) (h : Spells digits values) :
    (packed values).all (· = 0) = true ↔ hexNumber values = 0 := by
  simp only [List.all_eq_true, decide_eq_true_eq, ← beNat_eq_zero, beNat_packed heven h.lt]

end

/-! ## Forms -/

section
variable {core id secret body t : Text} {ids secrets values : List ℕ} {separator : UInt8} {target : JoinTarget}

theorem text_linkPrefix : text "lanlink://join/" = linkPrefix := by decide

theorem text_codePrefix : text "LL1." = codePrefix := by decide

theorem stripForm_link (body : Text) : stripForm (linkPrefix ++ body) = (some 47, body) := by
  rw [stripForm, if_pos (List.isPrefixOf_iff_prefix.2 (List.prefix_append _ _))]
  rfl

theorem stripForm_code (body : Text) : stripForm (codePrefix ++ body) = (some 46, body) := by
  have hlink : ¬ linkPrefix.isPrefixOf (codePrefix ++ body) = true := by
    rw [List.isPrefixOf_iff_prefix]
    rintro ⟨rest, hrest⟩
    cases hrest
  rw [stripForm, if_neg hlink, if_pos (List.isPrefixOf_iff_prefix.2 (List.prefix_append _ _))]
  rfl

/-- Neither prefix begins with a digit. -/
theorem stripForm_id (h : Spells core values) : stripForm core = (none, core) := by
  have hfirst {c : UInt8} {rest : Text} (hcore : core = c :: rest) : c ≠ 108 ∧ c ≠ 76 :=
    @Spells.forall_mem (fun c => c ≠ 108 ∧ c ≠ 76) _ _ h (by decide +kernel) c (hcore ▸ List.mem_cons_self)
  have hlink : ¬ linkPrefix.isPrefixOf core = true := by
    rw [List.isPrefixOf_iff_prefix]
    rintro ⟨rest, hrest⟩
    exact (hfirst hrest.symm).1 rfl
  have hcode : ¬ codePrefix.isPrefixOf core = true := by
    rw [List.isPrefixOf_iff_prefix]
    rintro ⟨rest, hrest⟩
    exact (hfirst hrest.symm).2 rfl
  rw [stripForm, if_neg hlink, if_neg hcode]

theorem body_split (hseparator : body[32]? = some separator) :
    body = body.take 32 ++ (separator :: body.drop 33) := by
  obtain ⟨hlt, heq⟩ := List.getElem?_eq_some_iff.1 hseparator
  rw [← heq, List.getElem_cons_drop, List.take_append_drop]

theorem stripForm_cases (core : Text) : (∃ body, core = linkPrefix ++ body ∧ stripForm core = (some 47, body)) ∨
    (∃ body, core = codePrefix ++ body ∧ stripForm core = (some 46, body)) ∨ stripForm core = (none, core) := by
  by_cases hlink : linkPrefix.isPrefixOf core = true
  · obtain ⟨body, rfl⟩ := List.isPrefixOf_iff_prefix.1 hlink
    exact .inl ⟨body, rfl, stripForm_link body⟩
  by_cases hcode : codePrefix.isPrefixOf core = true
  · obtain ⟨body, rfl⟩ := List.isPrefixOf_iff_prefix.1 hcode
    exact .inr (.inl ⟨body, rfl, stripForm_code body⟩)
  · exact .inr (.inr (by rw [stripForm, if_neg hlink, if_neg hcode]))

theorem ofBytes_packed (hlength : ids.length = 32) (h : Spells id ids) : ofBytes 128 (packed ids) = BitVec.ofNat 128 (hexNumber ids) := by
  rw [ofBytes, beNat_packed (by omega) h.lt]

/-- The two parts of a text with a separator. -/
theorem separated_of_ok {bytes : Bytes} {invitation : Text} (hlength : body.length = 73) (hseparator : body[32]? = some separator)
    (hid : idBytes (body.take 32) = .ok bytes) (hnonzero : ¬ bytes.all (· = 0) = true) (hsecret : lowered (body.drop 33) = .ok invitation) :
    ∃ id secret ids secrets, body = id ++ (separator :: secret) ∧ Spells id ids ∧ ids.length = 32 ∧ Spells secret secrets ∧
      secrets.length = 40 ∧ hexNumber ids ≠ 0 ∧ { networkId := ofBytes 128 bytes, invitation } = targetOf ids secrets := by
  have hfront : (body.take 32).length = 32 := by
    rw [List.length_take]
    omega
  obtain ⟨ids, hids, rfl⟩ := (idBytes_eq_ok (by omega)).1 hid
  obtain ⟨secrets, hsecrets, rfl⟩ := lowered_eq_ok.1 hsecret
  have hids' : ids.length = 32 := hids.length_eq.symm.trans hfront
  have hsecrets' : secrets.length = 40 := by
    rw [← hsecrets.length_eq, List.length_drop]
    omega
  rw [packed_eq_zero (by omega) hids] at hnonzero
  refine ⟨_, _, ids, secrets, body_split hseparator, hids, hids', hsecrets, hsecrets', hnonzero, ?_⟩
  rw [targetOf, ofBytes_packed hids' hids]

theorem separator_checked (h : ¬ ((some separator : Option UInt8) ≠ none ∧ (body.length ≠ 73 ∨ body[32]? ≠ some separator))) :
    body.length = 73 ∧ body[32]? = some separator := by
  have hboth := not_or.1 fun hor => h ⟨nofun, hor⟩
  exact ⟨not_not.1 hboth.1, not_not.1 hboth.2⟩

theorem parse_separated (hstrip : stripForm (trim joinSpace t) = (some separator, id ++ (separator :: secret))) (hid : Spells id ids)
    (hlength : ids.length = 32) (hsecret : Spells secret secrets) (hlength' : secrets.length = 40) (hnonzero : hexNumber ids ≠ 0) :
    parseJoinTarget t = .ok (targetOf ids secrets) := by
  have hfront : id.length = 32 := hid.length_eq.trans hlength
  have hrest : secret.length = 40 := hsecret.length_eq.trans hlength'
  have htake : (id ++ (separator :: secret)).take 32 = id := List.take_left' hfront
  have hdrop : (id ++ (separator :: secret)).drop 33 = secret := by
    rw [show 33 = 32 + 1 from rfl, ← List.drop_drop, List.drop_left' hfront]
    rfl
  have hvalues : idBytes id = .ok (packed ids) := (idBytes_eq_ok (by omega)).2 ⟨ids, hid, rfl⟩
  have hnot := mt (packed_eq_zero (by omega) hid).1 hnonzero
  rw [parseJoinTarget, hstrip]
  dsimp only
  rw [check_of (by simp [hfront, hrest]), ok_bind, htake, hvalues, ok_bind, check_of hnot, ok_bind, invitationOf,
    if_neg (by simp), hdrop, lowered_eq_ok.2 ⟨secrets, hsecret, rfl⟩, ok_bind, ofBytes_packed hlength hid]
  rfl

theorem parse_id (hstrip : stripForm (trim joinSpace t) = (none, id)) (hid : Spells id ids) (hlength : ids.length = 32)
    (hnonzero : hexNumber ids ≠ 0) : parseJoinTarget t = .ok (targetOf ids []) := by
  have hfront : id.length = 32 := hid.length_eq.trans hlength
  have hvalues : idBytes id = .ok (packed ids) := (idBytes_eq_ok (by omega)).2 ⟨ids, hid, rfl⟩
  have hnot := mt (packed_eq_zero (by omega) hid).1 hnonzero
  rw [parseJoinTarget, hstrip]
  dsimp only
  rw [check_of (by simp [hfront]), ok_bind, List.take_of_length_le hfront.le, hvalues, ok_bind, check_of hnot, ok_bind, invitationOf,
    if_pos rfl, ok_bind, ofBytes_packed hlength hid]
  rfl

/-- What parses: a form, with an id that is not zero. -/
theorem parseJoinTarget_eq_ok : parseJoinTarget t = .ok target ↔
    ∃ ids secrets, Named (trim joinSpace t) ids secrets ∧ hexNumber ids ≠ 0 ∧ target = targetOf ids secrets := by
  constructor
  · intro h
    generalize hcore : trim joinSpace t = core
    simp only [parseJoinTarget, hcore, bind_eq_ok, check_eq_ok, exists_const, Except.ok.injEq, not_or] at h
    obtain ⟨⟨hplain, hseparated⟩, bytes, hid, hnonzero, invitation, hsecret, rfl⟩ := h
    rcases stripForm_cases core with ⟨body, rfl, hstrip⟩ | ⟨body, rfl, hstrip⟩ | hstrip
    · rw [hstrip] at hseparated hid hsecret
      obtain ⟨hlength, hseparator⟩ := separator_checked hseparated
      obtain ⟨id, secret, ids, secrets, rfl, hids, hids', hsecrets, hsecrets', hnumber, htarget⟩ :=
        separated_of_ok hlength hseparator hid hnonzero hsecret
      rw [← text_linkPrefix]
      exact ⟨ids, secrets, .link hids hids' hsecrets hsecrets', hnumber, htarget⟩
    · rw [hstrip] at hseparated hid hsecret
      obtain ⟨hlength, hseparator⟩ := separator_checked hseparated
      obtain ⟨id, secret, ids, secrets, rfl, hids, hids', hsecrets, hsecrets', hnumber, htarget⟩ :=
        separated_of_ok hlength hseparator hid hnonzero hsecret
      rw [← text_codePrefix]
      exact ⟨ids, secrets, .code hids hids' hsecrets hsecrets', hnumber, htarget⟩
    · rw [hstrip] at hplain hid hsecret
      have hlength : core.length = 32 := not_not.1 fun hne => hplain ⟨rfl, hne⟩
      rw [List.take_of_length_le hlength.le] at hid
      obtain ⟨ids, hids, rfl⟩ := (idBytes_eq_ok (by omega)).1 hid
      have hids' : ids.length = 32 := hids.length_eq.symm.trans hlength
      rw [packed_eq_zero (by omega) hids] at hnonzero
      refine ⟨ids, [], .id hids hids', hnonzero, ?_⟩
      rw [← Except.ok.inj hsecret, targetOf, ofBytes_packed hids' hids]
      rfl
  · rintro ⟨ids, secrets, hnamed, hnonzero, rfl⟩
    generalize hcore : trim joinSpace t = core at hnamed
    cases hnamed with
    | id hid hlength => exact parse_id (by rw [hcore, stripForm_id hid]) hid hlength hnonzero
    | link hid hlength hsecret hlength' =>
      rw [text_linkPrefix] at hcore
      exact parse_separated (hcore ▸ stripForm_link _) hid hlength hsecret hlength' hnonzero
    | code hid hlength hsecret hlength' =>
      rw [text_codePrefix] at hcore
      exact parse_separated (hcore ▸ stripForm_code _) hid hlength hsecret hlength' hnonzero

/-- No white space is part of a form. -/
theorem Named.joinSpace (h : Named core ids secrets) : ∀ c ∈ core, joinSpace c = false := by
  have hdigits {digits : Text} {values : List ℕ} (h : Spells digits values) : ∀ c ∈ digits, LanLink.joinSpace c = false :=
    h.forall_mem (by decide +kernel)
  cases h with
  | id hid => exact hdigits hid
  | link hid _ hsecret =>
    intro c hc
    simp only [List.mem_append] at hc
    rcases hc with hc | hc | hc | hc
    · exact (show ∀ c ∈ text "lanlink://join/", LanLink.joinSpace c = false by decide +kernel) c hc
    · exact hdigits hid c hc
    · exact (show ∀ c ∈ text "/", LanLink.joinSpace c = false by decide +kernel) c hc
    · exact hdigits hsecret c hc
  | code hid _ hsecret =>
    intro c hc
    simp only [List.mem_append] at hc
    rcases hc with hc | hc | hc | hc
    · exact (show ∀ c ∈ text "LL1.", LanLink.joinSpace c = false by decide +kernel) c hc
    · exact hdigits hid c hc
    · exact (show ∀ c ∈ text ".", LanLink.joinSpace c = false by decide +kernel) c hc
    · exact hdigits hsecret c hc

/-! ## What is written -/

/-- A secret as the relay writes it: forty digits in lower case. -/
def IsSecret (secret : Text) : Prop := secret.length = 40 ∧ ∀ c ∈ secret, c ∈ lowerDigits

theorem exists_values (h : ∀ c ∈ secret, c ∈ lowerDigits) : ∃ values, Spells secret values ∧ values.map hexDigit = secret := by
  induction secret with
  | nil => exact ⟨[], .nil, rfl⟩
  | cons c secret ih =>
    obtain ⟨hc, hrest⟩ := List.forall_mem_cons.1 h
    obtain ⟨values, hvalues, hmap⟩ := ih hrest
    obtain ⟨v, hlt, heq⟩ := List.getElem_of_mem hc
    have hdigit : ∀ v : Fin 16, hexDigit v = lowerDigits.getD v 0 := by decide
    have hv : hexDigit v = c := by
      rw [hdigit ⟨v, hlt⟩, List.getD_eq_getElem?_getD, List.getElem?_eq_getElem hlt, heq, Option.getD_some]
    exact ⟨v :: values, .cons (.inl (List.getElem?_eq_some_iff.2 ⟨hlt, heq⟩)) hvalues, by rw [List.map_cons, hv, hmap]⟩

theorem spells_hexEncode (bytes : Bytes) : Spells (hexEncode bytes) (unpacked bytes) := by
  induction bytes with
  | nil => exact .nil
  | cons b bytes ih =>
    have hb : b.toNat < 256 := b.toNat_lt
    exact .cons (isDigit_hexDigit (by omega)) (.cons (isDigit_hexDigit (by omega)) ih)

theorem length_unpacked (bytes : Bytes) : (unpacked bytes).length = 2 * bytes.length := by
  induction bytes with
  | nil => rfl
  | cons b bytes ih =>
    rw [unpacked, List.flatMap_cons, List.length_append, ← unpacked, ih, List.length_cons]
    simp
    omega

/-- The digits of an id name the id. -/
theorem hexNumber_unpacked (network : NetworkId) : hexNumber (unpacked (arrayBytes network)) = network.toNat := by
  rw [← beNat_packed (by rw [length_unpacked]; omega) (spells_hexEncode _).lt, packed_unpacked, arrayBytes]
  exact beNat_beBytes 16 _ network.isLt

/-- The digits of an id and a secret name both. -/
theorem target_named {network : NetworkId} (hnetwork : network ≠ 0) (hsecret : IsSecret secret)
    (hcore : ∀ ids secrets, Spells (hexEncode (arrayBytes network)) ids → ids.length = 32 → Spells secret secrets → secrets.length = 40 →
      Named core ids secrets) {before after : Text} (hbefore : ∀ c ∈ before, joinSpace c = true) (hafter : ∀ c ∈ after, joinSpace c = true) :
    parseJoinTarget (before ++ core ++ after) = .ok { networkId := network, invitation := secret } := by
  obtain ⟨secrets, hsecrets, hmap⟩ := exists_values hsecret.2
  have hnamed := hcore _ secrets (spells_hexEncode _) (by rw [length_unpacked, length_arrayBytes]) hsecrets
    (hsecrets.length_eq.symm.trans hsecret.1)
  refine parseJoinTarget_eq_ok.2 ⟨_, secrets, by rwa [trim_append hbefore hnamed.joinSpace hafter], ?_, ?_⟩
  · rw [hexNumber_unpacked]
    exact fun hzero => hnetwork (BitVec.eq_of_toNat_eq hzero)
  · rw [targetOf, hexNumber_unpacked, hmap, BitVec.ofNat_toNat, BitVec.setWidth_eq]

theorem target_alone {network : NetworkId} (hnetwork : network ≠ 0) (hsecret : IsSecret secret)
    (hcore : ∀ ids secrets, Spells (hexEncode (arrayBytes network)) ids → ids.length = 32 → Spells secret secrets → secrets.length = 40 →
      Named core ids secrets) : parseJoinTarget core = .ok { networkId := network, invitation := secret } := by
  have hnone : ∀ c ∈ ([] : Text), joinSpace c = true := by simp
  have h := target_named hnetwork hsecret hcore hnone hnone
  rwa [List.nil_append, List.append_nil] at h

end

/-- Exactly the three forms parse, with any white space around them, and the
writers write two of them. -/
structure JoinTargets : Prop where
  /-- The digits' values alone determine what is named. -/
  parsed (t : Text) (target : JoinTarget) : parseJoinTarget t = .ok target ↔
    ∃ before core after ids secrets, t = before ++ core ++ after ∧ (∀ c ∈ before, joinSpace c = true) ∧
      (∀ c ∈ after, joinSpace c = true) ∧ Named core ids secrets ∧ hexNumber ids ≠ 0 ∧ target = targetOf ids secrets
  link (network : NetworkId) (secret before after : Text) : network ≠ 0 → IsSecret secret → (∀ c ∈ before, joinSpace c = true) →
    (∀ c ∈ after, joinSpace c = true) → ∃ link, JoinTarget.makeInviteLink network secret = .ok link ∧
      parseJoinTarget (before ++ link ++ after) = .ok { networkId := network, invitation := secret }
  code (network : NetworkId) (secret before after : Text) : network ≠ 0 → IsSecret secret → (∀ c ∈ before, joinSpace c = true) →
    (∀ c ∈ after, joinSpace c = true) → ∃ code, JoinTarget.makeInviteCode network secret = .ok code ∧
      parseJoinTarget (before ++ code ++ after) = .ok { networkId := network, invitation := secret }

theorem join_targets : JoinTargets where
  parsed t target := by
    rw [parseJoinTarget_eq_ok]
    constructor
    · rintro ⟨ids, secrets, hnamed, hnonzero, htarget⟩
      obtain ⟨before, after, ht, hbefore, hafter⟩ := exists_trim joinSpace t
      exact ⟨before, _, after, ids, secrets, ht, hbefore, hafter, hnamed, hnonzero, htarget⟩
    · rintro ⟨before, core, after, ids, secrets, rfl, hbefore, hafter, hnamed, hnonzero, htarget⟩
      exact ⟨ids, secrets, by rwa [trim_append hbefore hnamed.joinSpace hafter], hnonzero, htarget⟩
  link network secret before after hnetwork hsecret hbefore hafter := by
    have hnamed : ∀ ids secrets, Spells (hexEncode (arrayBytes network)) ids → ids.length = 32 → Spells secret secrets →
        secrets.length = 40 → Named (LanLink.makeInviteLink network secret) ids secrets := by
      intro ids secrets hids hlength hsecrets hlength'
      rw [LanLink.makeInviteLink, List.append_assoc, List.append_assoc]
      exact .link hids hlength hsecrets hlength'
    refine ⟨_, ?_, target_named hnetwork hsecret hnamed hbefore hafter⟩
    rw [JoinTarget.makeInviteLink, target_alone hnetwork hsecret hnamed, ok_bind]
  code network secret before after hnetwork hsecret hbefore hafter := by
    have hnamed : ∀ ids secrets, Spells (hexEncode (arrayBytes network)) ids → ids.length = 32 → Spells secret secrets →
        secrets.length = 40 → Named (LanLink.makeInviteCode network secret) ids secrets := by
      intro ids secrets hids hlength hsecrets hlength'
      rw [LanLink.makeInviteCode, List.append_assoc, List.append_assoc]
      exact .code hids hlength hsecrets hlength'
    refine ⟨_, ?_, target_named hnetwork hsecret hnamed hbefore hafter⟩
    rw [JoinTarget.makeInviteCode, target_alone hnetwork hsecret hnamed, ok_bind]

end LanLink
