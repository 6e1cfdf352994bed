import LanLink.Relay.Gateways
/-!
# Consent to membership

A device becomes a member only with its own consent and the network's. The
network's consent is a row of the store: an invitation, a link or a password,
and the device's is the call that joins or a pending request. Here rows are
followed back to the steps that inserted them.
-/
open LanLink.Lib

namespace LanLink

/-! ## One step -/

/-- What a call does to members, invitations, requests and links. -/
inductive RowStep (crypto : Crypto) (c : Core) (op : Op) (t' : Tables) : Prop
  | fewer (memberships : ∀ key ∈ t'.memberships, key ∈ c.tables.memberships)
      (invitations : t'.invitations = c.tables.invitations) (joinRequests : t'.joinRequests = c.tables.joinRequests)
      (links : t'.links = c.tables.links)
  | created {n : NetworkId} {network : Network} {base : SubnetAddress} {a : LeaseAddress}
      {password : Option PasswordVerifier} (hop : op.Creates) (owner : network.ownerDeviceId = op.actor)
      (fresh : n ∉ c.tables.networks) (tables : t' = c.tables.create n network base a password)
  | joined {n : NetworkId} {d : DeviceId} {row : Membership} {a : LeaseAddress} (admission : Admission crypto c op n d)
      (tables : t' = c.tables.join n d row a)
  | requested {n : NetworkId} {atMs : ℤ} (hop : op.Joins crypto c n) (member : (n, op.actor) ∉ c.tables.memberships)
      (tables : t' = c.tables.request n op.actor atMs)
  | redeemed {n : NetworkId} {digest : Digest} {link : InvitationLink} {atMs : ℤ}
      (redemption : Redemption crypto c op n digest link atMs)
      (tables : t' = c.tables.redeem n digest link op.actor atMs)
  | redeemJoined {n : NetworkId} {digest : Digest} {link : InvitationLink} {atMs : ℤ} {row : Membership}
      {a : LeaseAddress} (redemption : Redemption crypto c op n digest link atMs)
      (tables : t' = (c.tables.redeem n digest link op.actor atMs).join n op.actor row a)
  | invited {n : NetworkId} {d : DeviceId} {t : ℤ} (hop : op = .inviteMember op.actor ⟨n, d⟩ t)
      (manager : c.CanManage n op.actor) (tables : t' = c.tables.invite n d t)
  | linkIssued {q : AccessRequest} {t : ℤ} {digest : Digest} (hop : op = .accessRequest op.actor q t)
      (action : q.action = .inviteIssue) (manager : c.CanManage q.networkId op.actor)
      (tables : t' = c.tables.issueLink digest ⟨q.networkId, t + q.lifetimeSeconds.toNat * 1000, q.maxUses.toNat⟩ t)
  | linksDropped {n : NetworkId} (tables : t' = c.tables.dropLinks n)

/-- How `d` becomes a member of `n`. -/
inductive Joining (crypto : Crypto) (c : Core) (op : Op) (n : NetworkId) (d : DeviceId) : Prop
  | created (hop : op.Creates) (self : d = op.actor) (fresh : n ∉ c.tables.networks)
  | admitted (admission : Admission crypto c op n d)
  | redeemed {digest : Digest} {link : InvitationLink} {atMs : ℤ} (self : d = op.actor)
      (redemption : Redemption crypto c op n digest link atMs)

/-- A link of `n` that expires at `expiresMs`. -/
def Tables.HasLink (t : Tables) (n : NetworkId) (digest : Digest) (expiresMs : ℤ) : Prop :=
  ∃ link, t.links.lookup digest = some link ∧ link.networkId = n ∧ link.expiresMs = expiresMs

section
variable {crypto : Crypto} {c c' : Core} {op : Op} {ok : Bool} {n : NetworkId} {d : DeviceId} {t' : Tables}

theorem Effect.rowStep (h : Effect crypto c op ok c') (hw : c.tables.Wf) : RowStep crypto c op c'.tables := by
  have hsame (ht : c'.tables = c.tables) : RowStep crypto c op c'.tables := by
    rw [ht]
    exact .fewer (fun _ => id) rfl rfl rfl
  cases h with
  | created _ hop owner _ fresh _ _ _ advanced => exact .created hop owner fresh advanced.tables
  | joined _ admission _ advanced => exact .joined admission advanced.tables
  | requested _ hop _ member _ => exact .requested hop member rfl
  | redeemed redemption => exact .redeemed redemption rfl
  | redeemJoined _ redemption _ advanced => exact .redeemJoined redemption advanced.tables
  | invited hop manager _ _ => exact .invited hop manager rfl
  | linkIssued _ hop action manager => exact .linkIssued hop action manager rfl
  | linksDropped _ _ => exact .linksDropped rfl
  | left _ _ advanced =>
    rw [advanced.tables]
    exact .fewer (fun _ hk => (AList.mem_erase.1 hk).2) rfl rfl rfl
  | edited _ _ _ _ _ _ _ advanced =>
    rw [advanced.tables]
    exact .fewer (fun _ => id) rfl rfl rfl
  | revoked _ owns networksOf _ purged =>
    have hdeparted := purged.departed (hw.change (owns.change hw)) networksOf.nodup
    exact .fewer (fun key hk => ((hdeparted.mem key.1 key.2).1 hk).1) hdeparted.invitations hdeparted.joinRequests
      hdeparted.links
  | revokeStopped _ owns networksOf _ purged stopped =>
    obtain ⟨gone, -, hdeparted⟩ := stopped.departed (hw.change (owns.change hw)) networksOf.nodup purged
    exact .fewer (fun key hk => ((hdeparted.mem key.1 key.2).1 hk).1) hdeparted.invitations hdeparted.joinRequests
      hdeparted.links
  | keyPublished _ _ ticked => exact hsame ticked.tables
  | keyRemoved _ ticked => exact hsame ticked.tables
  | capableSet _ ticked => exact hsame ticked.tables
  | _ => exact .fewer (fun _ => id) rfl rfl rfl

/-- No other step makes a member. -/
theorem RowStep.joining (h : RowStep crypto c op t') (hout : (n, d) ∉ c.tables.memberships)
    (hin : (n, d) ∈ t'.memberships) : Joining crypto c op n d := by
  cases h with
  | fewer memberships _ _ _ => exact absurd (memberships _ hin) hout
  | created hop owner fresh tables =>
    rw [tables, Tables.create_memberships, AList.mem_insert, Prod.mk.injEq] at hin
    obtain ⟨rfl, rfl⟩ | hin := hin
    · exact .created hop owner fresh
    · exact absurd hin hout
  | joined admission tables =>
    rw [tables, Tables.join_memberships, AList.mem_insert, Prod.mk.injEq] at hin
    obtain ⟨rfl, rfl⟩ | hin := hin
    · exact .admitted admission
    · exact absurd hin hout
  | redeemJoined redemption tables =>
    rw [tables, Tables.join_memberships, AList.mem_insert, Prod.mk.injEq] at hin
    obtain ⟨rfl, rfl⟩ | hin := hin
    · exact .redeemed rfl redemption
    · exact absurd hin hout
  | requested _ _ tables | redeemed _ tables | invited _ _ tables | linkIssued _ _ _ tables | linksDropped tables =>
    rw [tables] at hin
    exact absurd hin hout

/-- An invitation is made by a manager, or by the device that redeems a link
and then does not join. -/
theorem RowStep.inviting (h : RowStep crypto c op t') (hout : (n, d) ∉ c.tables.invitations)
    (hin : (n, d) ∈ t'.invitations) :
    (c.CanManage n op.actor ∧ ∃ t, op = .inviteMember op.actor ⟨n, d⟩ t) ∨
      (d = op.actor ∧ ∃ digest link atMs, Redemption crypto c op n digest link atMs) := by
  have hredeem {m : NetworkId} {digest : Digest} {link : InvitationLink} {atMs : ℤ}
      (hin : (n, d) ∈ (c.tables.redeem m digest link op.actor atMs).invitations) : d = op.actor ∧ m = n := by
    rw [Tables.redeem_invitations] at hin
    split at hin
    · exact absurd hin hout
    · rw [AList.mem_insert, Prod.mk.injEq] at hin
      obtain ⟨hm, hd⟩ | hin := hin
      · exact ⟨hd, hm.symm⟩
      · exact absurd hin hout
  cases h with
  | fewer _ invitations _ _ => exact absurd (invitations ▸ hin) hout
  | created _ _ _ tables =>
    rw [tables, Tables.create_invitations, AList.mem_erase] at hin
    exact absurd hin.2 hout
  | joined _ tables =>
    rw [tables, Tables.join_invitations, AList.mem_erase] at hin
    exact absurd hin.2 hout
  | redeemed redemption tables =>
    rw [tables] at hin
    obtain ⟨hd, rfl⟩ := hredeem hin
    exact .inr ⟨hd, _, _, _, redemption⟩
  | redeemJoined redemption tables =>
    rw [tables, Tables.join_invitations, AList.mem_erase] at hin
    obtain ⟨hd, rfl⟩ := hredeem hin.2
    exact .inr ⟨hd, _, _, _, redemption⟩
  | invited hop manager tables =>
    rw [tables, Tables.invite_invitations, AList.mem_insert, Prod.mk.injEq] at hin
    obtain ⟨rfl, rfl⟩ | hin := hin
    · exact .inl ⟨manager, _, hop⟩
    · exact absurd hin hout
  | requested _ _ tables | linkIssued _ _ _ tables | linksDropped tables =>
    rw [tables] at hin
    exact absurd hin hout

/-- A request is filed by the device it is for, when it is not a member. -/
theorem RowStep.requesting (h : RowStep crypto c op t') (hout : (n, d) ∉ c.tables.joinRequests)
    (hin : (n, d) ∈ t'.joinRequests) :
    d = op.actor ∧ op.Joins crypto c n ∧ (n, d) ∉ c.tables.memberships := by
  cases h with
  | fewer _ _ joinRequests _ => exact absurd (joinRequests ▸ hin) hout
  | created _ _ _ tables =>
    rw [tables, Tables.create_joinRequests, AList.mem_erase] at hin
    exact absurd hin.2 hout
  | joined _ tables =>
    rw [tables, Tables.join_joinRequests, AList.mem_erase] at hin
    exact absurd hin.2 hout
  | requested hop member tables =>
    rw [tables, Tables.request_joinRequests, AList.mem_insert, Prod.mk.injEq] at hin
    obtain ⟨rfl, rfl⟩ | hin := hin
    · exact ⟨rfl, hop, member⟩
    · exact absurd hin hout
  | redeemed _ tables =>
    rw [tables, Tables.redeem_joinRequests, AList.mem_erase] at hin
    exact absurd hin.2 hout
  | redeemJoined _ tables =>
    rw [tables, Tables.join_joinRequests, AList.mem_erase, Tables.redeem_joinRequests, AList.mem_erase] at hin
    exact absurd hin.2.2 hout
  | invited _ _ tables | linkIssued _ _ _ tables | linksDropped tables =>
    rw [tables] at hin
    exact absurd hin hout

/-- A link is issued by a manager; using it changes neither its network nor the
time it expires. -/
theorem RowStep.issuing (h : RowStep crypto c op t') {digest : Digest} {expiresMs : ℤ}
    (hout : ¬ c.tables.HasLink n digest expiresMs) (hin : t'.HasLink n digest expiresMs) :
    ∃ q t, op = .accessRequest op.actor q t ∧ q.action = .inviteIssue ∧ q.networkId = n ∧
      expiresMs = t + q.lifetimeSeconds.toNat * 1000 ∧ c.CanManage n op.actor := by
  obtain ⟨row, hrow, hn, hexpires⟩ := hin
  have hkept (hl : t'.links = c.tables.links) {P : Prop} : P := absurd ⟨row, hl ▸ hrow, hn, hexpires⟩ hout
  have hredeem {m : NetworkId} {digest' : Digest} {link : InvitationLink} {atMs : ℤ}
      (redemption : Redemption crypto c op m digest' link atMs)
      (hrow : (c.tables.redeem m digest' link op.actor atMs).links.lookup digest = some row) {P : Prop} : P := by
    rw [Tables.redeem_links, Map.lookup_insert] at hrow
    split at hrow
    · rename_i hd
      rw [Option.some.injEq] at hrow
      subst hrow hd
      exact absurd ⟨link, redemption.live, hn, hexpires⟩ hout
    · exact absurd ⟨row, hrow, hn, hexpires⟩ hout
  cases h with
  | fewer _ _ _ links => exact hkept links
  | created _ _ _ tables => exact hkept (by rw [tables, Tables.create_links])
  | joined _ tables | requested _ _ tables | invited _ _ tables => exact hkept (by rw [tables]; rfl)
  | redeemed redemption tables => exact hredeem redemption (tables ▸ hrow)
  | redeemJoined redemption tables =>
    rw [tables, Tables.join_links] at hrow
    exact hredeem redemption hrow
  | @linkIssued q t digest' hop action manager tables =>
    rw [tables, Tables.issueLink_links, Map.lookup_insert] at hrow
    split at hrow
    · rw [Option.some.injEq] at hrow
      subst hrow hn
      exact ⟨q, t, hop, action, rfl, hexpires.symm, manager⟩
    · exact absurd ⟨row, (Map.lookup_eraseIf_eq_some.1 hrow).1, hn, hexpires⟩ hout
  | linksDropped tables =>
    rw [tables, Tables.dropLinks_links] at hrow
    exact absurd ⟨row, (Map.lookup_eraseIf_eq_some.1 hrow).1, hn, hexpires⟩ hout

end

/-! ## Provenance of rows -/

namespace Service
variable (crypto : Crypto) (events : ℕ → Event)

/-- At step `i` there is a link of `n`, and a manager of `n` issued it: it has
been in the store since. -/
def LinkFrom (n : NetworkId) (digest : Digest) (expiresMs : ℤ) (i : ℕ) : Prop :=
  ∃ j < i, (∃ actor q t inputs, events j = .call (.accessRequest actor q t) inputs ∧ q.action = .inviteIssue ∧
      q.networkId = n ∧ expiresMs = t + q.lifetimeSeconds.toNat * 1000 ∧
      (run crypto events j).core.CanManage n actor) ∧
    ∀ l, j < l → l ≤ i → (run crypto events l).tables.HasLink n digest expiresMs

/-- At step `i` the device `d` redeems a link that a manager of `n` issued, has
not expired, was not revoked and has uses left. -/
def RedeemsAt (n : NetworkId) (d : DeviceId) (i : ℕ) : Prop :=
  ∃ q t inputs link, events i = .call (.accessRequest d q t) inputs ∧ q.action = .inviteRedeem ∧ q.networkId = n ∧
    (run crypto events i).tables.links.lookup (accessDigest crypto q.secret) = some link ∧ t < link.expiresMs ∧
    0 < link.remaining ∧ LinkFrom crypto events n (accessDigest crypto q.secret) link.expiresMs i

/-- At step `k` there is an invitation of `d` that a manager of `n` made, or
`d` by redeeming a link. -/
def InvitedAt (n : NetworkId) (d : DeviceId) (k : ℕ) : Prop :=
  ∃ j < k, ((∃ actor t inputs, events j = .call (.inviteMember actor ⟨n, d⟩ t) inputs ∧
      (run crypto events j).core.CanManage n actor) ∨ RedeemsAt crypto events n d j) ∧
    ∀ i, j < i → i ≤ k → (n, d) ∈ (run crypto events i).tables.invitations

/-- At step `k` there is a request of `d` that `d` filed itself, and `d` has not
been a member since. -/
def RequestedAt (n : NetworkId) (d : DeviceId) (k : ℕ) : Prop :=
  ∃ j < k, (∃ op inputs, events j = .call op inputs ∧ op.actor = d ∧ op.Joins crypto (run crypto events j).core n) ∧
    (∀ i, j < i → i ≤ k → (n, d) ∈ (run crypto events i).tables.joinRequests) ∧
    ∀ i, j ≤ i → i ≤ k → (n, d) ∉ (run crypto events i).tables.memberships

/-- What was not there at the start was made by a last call. -/
theorem exists_rowStep {P : Tables → Prop} (h0 : ¬ P {}) {k : ℕ} (hk : P (run crypto events k).tables) :
    ∃ j < k, ∃ op inputs, events j = .call op inputs ∧
      RowStep crypto (run crypto events j).core op (run crypto events (j + 1)).tables ∧
      ¬ P (run crypto events j).tables ∧ ∀ i, j < i → i ≤ k → P (run crypto events i).tables := by
  obtain ⟨j, hj, hout, hin⟩ := exists_last_rise (P := fun i => P (run crypto events i).tables) h0 hk
  have hw := wf_run crypto events j
  cases he : events j with
  | call op inputs =>
    have hstep := step_core crypto hw (.call op inputs)
    rw [← he, ← run_succ, he] at hstep
    generalize hc : (run crypto events (j + 1)).core = c' at hstep
    cases hstep with
    | call effect =>
      have hrows := effect.rowStep hw
      rw [← hc] at hrows
      exact ⟨j, hj, op, inputs, he, hrows, hout, hin⟩
  | restart =>
    have hnext := hin (j + 1) (by omega) hj
    rw [run_succ, he] at hnext
    exact absurd hnext hout

theorem linkFrom {n : NetworkId} {digest : Digest} {link : InvitationLink} {i : ℕ}
    (hl : (run crypto events i).tables.links.lookup digest = some link) (hn : link.networkId = n) :
    LinkFrom crypto events n digest link.expiresMs i := by
  obtain ⟨j, hj, op, inputs, he, hrows, hout, hin⟩ := exists_rowStep crypto events
    (P := fun t => t.HasLink n digest link.expiresMs) (by simp [Tables.HasLink]) ⟨link, hl, hn, rfl⟩
  obtain ⟨q, t, hop, haction, hq, hexpires, hmanager⟩ := hrows.issuing hout (hin (j + 1) (by omega) hj)
  exact ⟨j, hj, ⟨op.actor, q, t, inputs, hop ▸ he, haction, hq, hexpires, hmanager⟩, hin⟩

theorem redeemsAt {n : NetworkId} {d : DeviceId} {i : ℕ} {op : Op} {inputs : Inputs} {digest : Digest}
    {link : InvitationLink} {atMs : ℤ} (he : events i = .call op inputs) (hd : d = op.actor)
    (h : Redemption crypto (run crypto events i).core op n digest link atMs) : RedeemsAt crypto events n d i := by
  obtain ⟨q, hop, haction, hq, rfl⟩ := h.call
  rw [hop, ← hd] at he
  exact ⟨q, atMs, inputs, link, he, haction, hq, h.live, h.fresh, h.uses, linkFrom crypto events h.live h.network⟩

theorem invitedAt {n : NetworkId} {d : DeviceId} {k : ℕ} (h : (n, d) ∈ (run crypto events k).tables.invitations) :
    InvitedAt crypto events n d k := by
  obtain ⟨j, hj, op, inputs, he, hrows, hout, hin⟩ := exists_rowStep crypto events
    (P := fun t => (n, d) ∈ t.invitations) (AList.notMem_empty _) h
  refine ⟨j, hj, ?_, hin⟩
  obtain ⟨hmanager, t, hop⟩ | ⟨hd, digest, link, atMs, redemption⟩ := hrows.inviting hout (hin (j + 1) (by omega) hj)
  · exact .inl ⟨op.actor, t, inputs, hop ▸ he, hmanager⟩
  · exact .inr (redeemsAt crypto events he hd redemption)

theorem requestedAt {n : NetworkId} {d : DeviceId} {k : ℕ} (h : (n, d) ∈ (run crypto events k).tables.joinRequests) :
    RequestedAt crypto events n d k := by
  obtain ⟨j, hj, op, inputs, he, hrows, hout, hin⟩ := exists_rowStep crypto events
    (P := fun t => (n, d) ∈ t.joinRequests) (AList.notMem_empty _) h
  obtain ⟨hd, hjoins, hmember⟩ := hrows.requesting hout (hin (j + 1) (by omega) hj)
  refine ⟨j, hj, ⟨op, inputs, he, hd.symm, hjoins⟩, hin, fun i hji hik => ?_⟩
  obtain rfl | hji := hji.eq_or_lt
  · exact hmember
  · exact (wf_run crypto events i).settled.requested_nonmember _ (hin i hji hik)

/-! ## Consent -/

/-- Why `d` becomes a member of `n` at step `k`, where `J` are the calls by
which an invited device joins. -/
inductive Consent (J : Core → Op → Prop) (n : NetworkId) (d : DeviceId) (k : ℕ) : Prop
  | create {op : Op} {inputs : Inputs} (call : events k = .call op inputs) (creates : op.Creates) (self : d = op.actor)
      (fresh : n ∉ (run crypto events k).tables.networks)
  | join {op : Op} {inputs : Inputs} (call : events k = .call op inputs) (joins : J (run crypto events k).core op)
      (self : d = op.actor) (invited : InvitedAt crypto events n d k)
  | redeem (redeems : RedeemsAt crypto events n d k)
  | password {q : AccessRequest} {t : ℤ} {inputs : Inputs} {v : PasswordVerifier}
      (call : events k = .call (.accessRequest d q t) inputs) (action : q.action = .passwordJoin)
      (network : q.networkId = n) (verifier : (run crypto events k).tables.access.lookup n = some v)
      (secret : passwordMatches crypto q.secret v = .ok true) (approval : v.requireApproval = false)
  | approve {actor : DeviceId} {t : ℤ} {inputs : Inputs} (call : events k = .call (.approveMember actor ⟨n, d⟩ t) inputs)
      (manager : (run crypto events k).core.CanManage n actor) (requested : RequestedAt crypto events n d k)

/-- Every step that makes `d` a member of `n` has consent. -/
def MembershipConsent (J : Core → Op → Prop) (n : NetworkId) (d : DeviceId) : Prop :=
  ∀ k, (n, d) ∉ (run crypto events k).tables.memberships → (n, d) ∈ (run crypto events (k + 1)).tables.memberships →
    Consent crypto events J n d k

/-- In every run every device becomes a member by consent, where an invited
device joins by `join_network` or by `password_join` with the right password. -/
theorem membership_consent (n : NetworkId) (d : DeviceId) :
    MembershipConsent crypto events (fun c op => op.Joins crypto c n) n d := by
  intro k hout hin
  have hw := wf_run crypto events k
  cases he : events k with
  | restart =>
    rw [run_succ, he] at hin
    exact absurd hin hout
  | call op inputs =>
    have hrows := (perform_effect crypto inputs op hw).rowStep hw
    rw [run_succ, he] at hin
    obtain ⟨hop, hd, hfresh⟩ | admission | ⟨hd, redemption⟩ := hrows.joining hout hin
    · exact .create he hop hd hfresh
    · cases admission with
      | invited hop self invitation => exact .join he hop self (invitedAt crypto events invitation)
      | password hop network self verifier secret approval =>
        obtain ⟨haction, t, hop⟩ := hop
        rw [hop, ← self] at he
        exact .password he haction network verifier secret approval
      | approved hop manager request =>
        rw [hop] at he
        exact .approve he manager (requestedAt crypto events request)
    · exact .redeem (redeemsAt crypto events he hd redemption)

/-! The owner sets a password that needs approval and invites a guest. The guest
joins with the password: the invitation stands for the approval. -/

def passwordCrypto : Crypto where
  sha256 _ := 0
  scrypt _ _ := some 0
  verifySignature _ _ _ := false

def visitor : DeviceId := 2

def passwordRequest (action : AccessAction) : AccessRequest :=
  { action, networkId := soleNetwork, secret := text "password", requireApproval := true }

def inviting : ℕ → Event
  | 0 => .call (.createNetwork soleOwner ⟨text "lan"⟩ 0) soleInputs
  | 1 => .call (.accessRequest soleOwner (passwordRequest .passwordSet) 0) { soleInputs with nonce := .ok 0 }
  | 2 => .call (.recordAuthenticatedDevice visitor 0) soleInputs
  | 3 => .call (.inviteMember soleOwner ⟨soleNetwork, visitor⟩ 0) soleInputs
  | 4 => .call (.accessRequest visitor (passwordRequest .passwordJoin) 0) soleInputs
  | _ => .restart

def JoinsNetwork (n : NetworkId) : Op → Prop
  | .joinNetwork _ q _ => q.networkId = n
  | _ => False

theorem password_join_invited :
    ¬ MembershipConsent passwordCrypto inviting (fun _ => JoinsNetwork soleNetwork) soleNetwork visitor := by
  intro h
  cases h 4 (by decide +kernel) (by decide +kernel) with
  | create call creates =>
    cases call
    cases creates
  | join call joins =>
    cases call
    cases joins
  | redeem redeems =>
    obtain ⟨q, t, inputs, link, he, haction, -⟩ := redeems
    cases he
    cases haction
  | @password q t inputs v call action network verifier secret approval =>
    have hstored : (run passwordCrypto inviting 4).tables.access.lookup soleNetwork = some ⟨0, 0, true⟩ := by decide +kernel
    rw [hstored, Option.some.injEq] at verifier
    rw [← verifier] at approval
    cases approval
  | approve call => cases call

end Service

end LanLink
