import LanLink.Relay.InvitationLinks
/-!
# The accounts of invitation links

Over a run, every link goes back to the call that handed it out; the uses it
has left and the devices it brought since then are together the uses it was
issued with.
-/
open LanLink.Lib LanLink.Lib.Action

namespace LanLink

namespace Service
section
variable (crypto : Crypto) (events : ℕ → Event)

/-- Call `j` hands out a link of the network. -/
def IssuesLink (j : ℕ) (n : NetworkId) (code : Text) (uses : ℕ) (expiresMs : ℤ) : Prop :=
  ∃ op inputs, events j = .call op inputs ∧
    op.HandsOutLink inputs ((run crypto events j).replies crypto (events j)) n code uses expiresMs

/-- Call `j` revokes the links of the network. -/
def RevokesLinks (j : ℕ) (n : NetworkId) : Prop :=
  ∃ op inputs, events j = .call op inputs ∧ op.RevokesLinks ((run crypto events j).replies crypto (events j)) n

/-- By call `k` the device redeems a code of the digest and becomes a member. -/
def Redeems (k : ℕ) (d : DeviceId) (n : NetworkId) (digest : Digest) (atMs : ℤ) : Prop :=
  ∃ q inputs, events k = .call (.accessRequest d q atMs) inputs ∧ q.action = .inviteRedeem ∧ q.networkId = n ∧
    accessDigest crypto q.secret = digest ∧ (n, d) ∉ (run crypto events k).tables.memberships ∧
    (n, d) ∈ (run crypto events (k + 1)).tables.memberships

/-- The link that call `i` handed out brings the device into the network by call `k`. -/
structure BroughtBy (i k : ℕ) (d : DeviceId) (n : NetworkId) (code : Text) (uses : ℕ) : Prop where
  before : i < k
  link : ∃ expiresMs atMs, IssuesLink crypto events i n code uses expiresMs ∧
    Redeems crypto events k d n (accessDigest crypto code) atMs ∧ atMs < expiresMs
  newest : ∀ l, i < l → l < k → ∀ n' code' uses' expiresMs, IssuesLink crypto events l n' code' uses' expiresMs →
    accessDigest crypto code' ≠ accessDigest crypto code
  unrevoked : ∀ l, i < l → l < k → ¬ RevokesLinks crypto events l n

/-- The calls between `j` and `k` by which devices redeem the digest. -/
noncomputable def redemptions (digest : Digest) (j k : ℕ) : Finset ℕ :=
  open Classical in (Finset.Ioo j k).filter fun l => ∃ d n atMs, Redeems crypto events l d n digest atMs

/-- The row at `k` is of a link that was handed out at `j`. -/
structure LinkIssued (j k : ℕ) (digest : Digest) (link : InvitationLink) : Prop where
  before : j < k
  code : ∃ code uses, IssuesLink crypto events j link.networkId code uses link.expiresMs ∧ accessDigest crypto code = digest ∧
    link.remaining + (redemptions crypto events digest j k).card = uses
  newest : ∀ l, j < l → l < k → ∀ n code uses expiresMs, IssuesLink crypto events l n code uses expiresMs →
    accessDigest crypto code ≠ digest
  unrevoked : ∀ l, j < l → l < k → ¬ RevokesLinks crypto events l link.networkId

end

section
variable {crypto : Crypto} {events : ℕ → Event} {i j k : ℕ} {n : NetworkId} {d : DeviceId} {digest : Digest} {link : InvitationLink}

theorem run_linkMove (crypto : Crypto) {op : Op} {inputs : Inputs} (hcall : events k = .call op inputs) :
    LinkMove crypto op inputs (run crypto events k).tables ((run crypto events k).replies crypto (events k))
      (run crypto events (k + 1)).tables := by
  have hmove := @linkMove_perform _ crypto inputs op (wf_run crypto events k)
  rw [run_succ, hcall]
  exact hmove

/-! ## Which call is which -/

theorem handsOutLink_unique {op : Op} {inputs : Inputs} {r : Except Exn Reply} {n n' : NetworkId} {code code' : Text}
    {uses uses' : ℕ} {x x' : ℤ} (h : op.HandsOutLink inputs r n code uses x) (h' : op.HandsOutLink inputs r n' code' uses' x') :
    n = n' ∧ code = code' ∧ uses = uses' ∧ x = x' := by
  obtain ⟨q, t, out, nonce, hop, -, rfl, -, -, hnonce, rfl, -, rfl, rfl⟩ := h
  obtain ⟨q', t', out', nonce', hop', -, rfl, -, -, hnonce', rfl, -, rfl, rfl⟩ := h'
  rw [hop] at hop'
  cases hop'
  rw [hnonce] at hnonce'
  cases hnonce'
  exact ⟨rfl, rfl, rfl, rfl⟩

theorem IssuesLink.unique {n' : NetworkId} {code code' : Text} {uses uses' : ℕ} {x x' : ℤ}
    (h : IssuesLink crypto events j n code uses x) (h' : IssuesLink crypto events j n' code' uses' x') :
    n = n' ∧ code = code' ∧ uses = uses' ∧ x = x' := by
  obtain ⟨op, inputs, hcall, hands⟩ := h
  obtain ⟨op', inputs', hcall', hands'⟩ := h'
  rw [hcall] at hcall'
  cases hcall'
  exact handsOutLink_unique hands hands'

theorem IssuesLink.action {code : Text} {uses : ℕ} {x : ℤ} {actor : DeviceId} {q : AccessRequest} {t : ℤ} {inputs : Inputs}
    (h : IssuesLink crypto events j n code uses x) (hcall : events j = .call (.accessRequest actor q t) inputs) :
    q.action = .inviteIssue := by
  obtain ⟨op, inputs', hcall', hands⟩ := h
  rw [hcall] at hcall'
  cases hcall'
  exact hands.action rfl

theorem RevokesLinks.action {actor : DeviceId} {q : AccessRequest} {t : ℤ} {inputs : Inputs}
    (h : RevokesLinks crypto events j n) (hcall : events j = .call (.accessRequest actor q t) inputs) :
    q.action = .inviteRevoke ∧ q.networkId = n := by
  obtain ⟨op, inputs', hcall', hrevokes⟩ := h
  rw [hcall] at hcall'
  cases hcall'
  exact hrevokes.action rfl

theorem Redeems.action {atMs : ℤ} {actor : DeviceId} {q : AccessRequest} {t : ℤ} {inputs : Inputs}
    (h : Redeems crypto events j d n digest atMs) (hcall : events j = .call (.accessRequest actor q t) inputs) :
    q.action = .inviteRedeem ∧ accessDigest crypto q.secret = digest := by
  obtain ⟨q', inputs', hcall', haction, -, hdigest, -⟩ := h
  rw [hcall] at hcall'
  cases hcall'
  exact ⟨haction, hdigest⟩

/-! ## Counting redemptions -/

theorem mem_redemptions {l : ℕ} : l ∈ redemptions crypto events digest j k ↔
    (j < l ∧ l < k) ∧ ∃ d n atMs, Redeems crypto events l d n digest atMs := by
  simp only [redemptions, Finset.mem_filter, Finset.mem_Ioo]

theorem redemptions_succ_of_not (h : ¬ ∃ d n atMs, Redeems crypto events k d n digest atMs) :
    redemptions crypto events digest j (k + 1) = redemptions crypto events digest j k := by
  ext l
  rw [mem_redemptions, mem_redemptions]
  constructor
  · rintro ⟨⟨hjl, hlk⟩, hl⟩
    refine ⟨⟨hjl, ?_⟩, hl⟩
    rcases Nat.lt_succ_iff_lt_or_eq.1 hlk with hlt | rfl
    · exact hlt
    · exact absurd hl h
  · rintro ⟨⟨hjl, hlk⟩, hl⟩
    exact ⟨⟨hjl, by omega⟩, hl⟩

theorem card_redemptions_succ (hjk : j < k) (h : ∃ d n atMs, Redeems crypto events k d n digest atMs) :
    (redemptions crypto events digest j (k + 1)).card = (redemptions crypto events digest j k).card + 1 := by
  have hinsert : redemptions crypto events digest j (k + 1) = insert k (redemptions crypto events digest j k) := by
    ext l
    rw [Finset.mem_insert, mem_redemptions, mem_redemptions]
    constructor
    · rintro ⟨⟨hjl, hlk⟩, hl⟩
      by_cases hl' : l = k
      · exact .inl hl'
      · exact .inr ⟨⟨hjl, by omega⟩, hl⟩
    · rintro (rfl | ⟨⟨hjl, hlk⟩, hl⟩)
      · exact ⟨⟨hjk, by omega⟩, h⟩
      · exact ⟨⟨hjl, by omega⟩, hl⟩
  rw [hinsert, Finset.card_insert_of_notMem]
  simp [mem_redemptions]

/-! ## Where the rows come from -/

theorem LinkIssued.extend (h : LinkIssued crypto events j k digest link)
    (hissue : ∀ n code uses x, IssuesLink crypto events k n code uses x → accessDigest crypto code ≠ digest)
    (hrevoke : ¬ RevokesLinks crypto events k link.networkId) {link' : InvitationLink} (hnetwork : link'.networkId = link.networkId)
    (hexpires : link'.expiresMs = link.expiresMs)
    (hcount : (¬ (∃ d n atMs, Redeems crypto events k d n digest atMs) ∧ link'.remaining = link.remaining) ∨
      ((∃ d n atMs, Redeems crypto events k d n digest atMs) ∧ link'.remaining + 1 = link.remaining)) :
    LinkIssued crypto events j (k + 1) digest link' where
  before := h.before.trans k.lt_succ_self
  code := by
    obtain ⟨code, uses, hissues, hdigest, huses⟩ := h.code
    refine ⟨code, uses, by rw [hnetwork, hexpires]; exact hissues, hdigest, ?_⟩
    rcases hcount with ⟨hnot, hsame⟩ | ⟨hredeems, hless⟩
    · rw [redemptions_succ_of_not hnot, hsame, huses]
    · rw [card_redemptions_succ h.before hredeems]
      omega
  newest l hjl hlk := by
    rcases Nat.lt_succ_iff_lt_or_eq.1 hlk with hlt | rfl
    · exact h.newest l hjl hlt
    · exact hissue
  unrevoked l hjl hlk := by
    rw [hnetwork]
    rcases Nat.lt_succ_iff_lt_or_eq.1 hlk with hlt | rfl
    · exact h.unrevoked l hjl hlt
    · exact hrevoke

/-- Redeeming takes a live row of the network, uses it once and brings the one device. -/
theorem Redeems.live {atMs : ℤ} (h : Redeems crypto events k d n digest atMs) :
    ∃ link row, (run crypto events k).tables.links.lookup digest = some link ∧ link.networkId = n ∧ atMs < link.expiresMs ∧
      0 < link.remaining ∧
      (run crypto events (k + 1)).tables.links.lookup digest = some { link with remaining := link.remaining - 1 } ∧
      (run crypto events (k + 1)).tables.memberships = (run crypto events k).tables.memberships.insert (n, d) row := by
  obtain ⟨q, inputs, hcall, haction, rfl, rfl, hnot, hmember⟩ := h
  cases run_linkMove crypto hcall with
  | same links _ _ unused =>
    rw [unused q ⟨haction, atMs, rfl⟩] at hmember
    exact absurd hmember hnot
  | issued _ hands _ => cases haction.symm.trans (hands.action rfl)
  | dropped hop _ => cases haction.symm.trans (hop.action rfl)
  | @redeemed q' link atMs' row hop _ live network fresh left _ links memberships =>
    cases hop
    refine ⟨link, row, live, network, fresh, left, ?_, memberships⟩
    rw [links, Map.lookup_insert, if_pos rfl]

/-- Every row of `invitation_links` was issued. -/
theorem linkIssued_run (k : ℕ) (digest : Digest) (link : InvitationLink)
    (hrow : (run crypto events k).tables.links.lookup digest = some link) : ∃ j, LinkIssued crypto events j k digest link := by
  induction k generalizing digest link with
  | zero => cases hrow
  | succ k ih =>
    have hextend (hold : (run crypto events k).tables.links.lookup digest = some link)
        (hissue : ∀ n code uses x, IssuesLink crypto events k n code uses x → accessDigest crypto code ≠ digest)
        (hrevoke : ¬ RevokesLinks crypto events k link.networkId)
        (hredeem : ∀ d n atMs, ¬ Redeems crypto events k d n digest atMs) : ∃ j, LinkIssued crypto events j (k + 1) digest link := by
      obtain ⟨j, hj⟩ := ih digest link hold
      refine ⟨j, hj.extend hissue hrevoke rfl rfl (.inl ⟨?_, rfl⟩)⟩
      rintro ⟨d, n, atMs, h⟩
      exact hredeem d n atMs h
    cases hcall : events k with
    | restart =>
      rw [tables_restart hcall] at hrow
      refine hextend hrow (fun n code uses x h => ?_) (fun h => ?_) fun d n atMs h => ?_
      · obtain ⟨op, inputs, hcall', -⟩ := h
        cases hcall.symm.trans hcall'
      · obtain ⟨op, inputs, hcall', -⟩ := h
        cases hcall.symm.trans hcall'
      · obtain ⟨q, inputs, hcall', -⟩ := h
        cases hcall.symm.trans hcall'
    | call op inputs =>
      cases run_linkMove crypto hcall with
      | same links unissued unrevoked unused =>
        rw [links] at hrow
        refine hextend hrow (fun n code uses x h => ?_) (fun h => ?_) fun d n atMs h => ?_
        · obtain ⟨op', inputs', hcall', hands⟩ := h
          rw [hcall] at hcall'
          cases hcall'
          exact absurd hands (unissued _ _ _ _)
        · obtain ⟨op', inputs', hcall', hrevokes⟩ := h
          rw [hcall] at hcall'
          cases hcall'
          exact unrevoked _ hrevokes
        · obtain ⟨q, inputs', hcall', haction, -, -, hnot, hmember⟩ := h
          rw [hcall] at hcall'
          cases hcall'
          rw [unused q ⟨haction, atMs, rfl⟩] at hmember
          exact hnot hmember
      | @issued n code uses x nowMs hands h =>
        have hissues : IssuesLink crypto events k n code uses x := ⟨op, inputs, hcall, hands⟩
        obtain ⟨q, t, out, nonce, hop, haction, -⟩ := hands
        rw [hop] at hcall
        rw [h, Tables.issueLink_links, Map.lookup_insert] at hrow
        split at hrow
        · rename_i hdigest
          cases hrow
          refine ⟨k, k.lt_succ_self, ⟨code, uses, hissues, hdigest.symm, ?_⟩, fun l hkl hlk => by omega, fun l hkl hlk => by omega⟩
          simp [redemptions]
        · rename_i hdigest
          refine hextend (Map.lookup_eraseIf_eq_some.1 hrow).1 (fun n' code' uses' x' h => ?_) (fun h => ?_) fun d n' atMs h => ?_
          · obtain ⟨-, rfl, -⟩ := h.unique hissues
            exact Ne.symm hdigest
          · cases haction.symm.trans (h.action hcall).1
          · cases haction.symm.trans (h.action hcall).1
      | @dropped q hop h =>
        obtain ⟨haction, t, hop⟩ := hop
        rw [hop] at hcall
        rw [h, Tables.dropLinks_links, Map.lookup_eraseIf_eq_some, decide_eq_false_iff_not] at hrow
        refine hextend hrow.1 (fun n code uses x h => ?_) (fun h => ?_) fun d n atMs h => ?_
        · cases haction.symm.trans (h.action hcall)
        · exact hrow.2 (h.action hcall).2.symm
        · cases haction.symm.trans (h.action hcall).1
      | @redeemed q old atMs row hop action live network fresh left nonmember links memberships =>
        have hredeems : Redeems crypto events k op.actor q.networkId (accessDigest crypto q.secret) atMs := by
          refine ⟨q, inputs, by rw [hcall, ← hop], action, rfl, rfl, nonmember, ?_⟩
          rw [memberships]
          simp
        rw [hop] at hcall
        have hissue (digest : Digest) (n : NetworkId) (code : Text) (uses : ℕ) (x : ℤ) (h : IssuesLink crypto events k n code uses x) :
            accessDigest crypto code ≠ digest := by
          cases action.symm.trans (h.action hcall)
        have hrevoke (n : NetworkId) (h : RevokesLinks crypto events k n) : False := by
          cases action.symm.trans (h.action hcall).1
        rw [links, Map.lookup_insert] at hrow
        split at hrow
        · rename_i hdigest
          subst hdigest
          cases hrow
          obtain ⟨j, hj⟩ := ih _ old live
          refine ⟨j, hj.extend (hissue _) (hrevoke _) rfl rfl (.inr ⟨⟨_, _, _, hredeems⟩, ?_⟩)⟩
          dsimp only
          omega
        · rename_i hdigest
          exact hextend hrow (hissue _) (hrevoke _) fun d n' atMs' h => hdigest (h.action hcall).2.symm

/-! ## The law of links -/

/-- A device that redeems a code was brought by the newest link of the code. -/
theorem Redeems.brought {atMs : ℤ} (h : Redeems crypto events k d n digest atMs) :
    ∃ i code uses, accessDigest crypto code = digest ∧ BroughtBy crypto events i k d n code uses := by
  obtain ⟨link, -, hrow, rfl, hfresh, -⟩ := h.live
  obtain ⟨j, hj⟩ := linkIssued_run k digest link hrow
  obtain ⟨code, uses, hissues, rfl, -⟩ := hj.code
  exact ⟨j, code, uses, rfl, hj.before, ⟨link.expiresMs, atMs, hissues, h, hfresh⟩, hj.newest, hj.unrevoked⟩

/-- The link that brings a device is the one its row goes back to. -/
theorem BroughtBy.row {code : Text} {uses : ℕ} (h : BroughtBy crypto events i k d n code uses) :
    0 < uses - (redemptions crypto events (accessDigest crypto code) i k).card := by
  obtain ⟨x, atMs, hissues, hredeems, -⟩ := h.link
  obtain ⟨link, -, hrow, rfl, -, hleft, -⟩ := hredeems.live
  obtain ⟨j, hj⟩ := linkIssued_run k _ link hrow
  obtain ⟨code', uses', hissues', hdigest, huses⟩ := hj.code
  obtain rfl : i = j := by
    rcases Nat.lt_trichotomy i j with hij | hij | hij
    · exact absurd hdigest (h.newest j hij hj.before _ _ _ _ hissues')
    · exact hij
    · exact absurd rfl (hj.newest i hij h.before _ _ _ _ hissues)
  obtain ⟨-, -, rfl, -⟩ := hissues.unique hissues'
  omega

/-- A link brings at most as many devices as it was issued for. -/
theorem brought_bounded {code : Text} {uses : ℕ} {x : ℤ} (hissues : IssuesLink crypto events i n code uses x) (calls : Finset ℕ)
    (hcalls : ∀ k ∈ calls, ∃ d n' code' uses', BroughtBy crypto events i k d n' code' uses') : calls.card ≤ uses := by
  have hbrought (k : ℕ) (hk : k ∈ calls) : ∃ d, BroughtBy crypto events i k d n code uses := by
    obtain ⟨d, n', code', uses', h⟩ := hcalls k hk
    obtain ⟨x', atMs, hissues', -⟩ := h.link
    obtain ⟨rfl, rfl, rfl, -⟩ := hissues.unique hissues'
    exact ⟨d, h⟩
  rcases calls.eq_empty_or_nonempty with rfl | hne
  · simp
  -- all but the last of them are counted when the last comes
  obtain ⟨d, hlast⟩ := hbrought _ (calls.max'_mem hne)
  have hsubset : calls.erase (calls.max' hne) ⊆ redemptions crypto events (accessDigest crypto code) i (calls.max' hne) := by
    intro k hk
    obtain ⟨hne', hmem⟩ := Finset.mem_erase.1 hk
    obtain ⟨d', h⟩ := hbrought k hmem
    obtain ⟨x', atMs, -, hredeems, -⟩ := h.link
    rw [mem_redemptions]
    exact ⟨⟨h.before, lt_of_le_of_ne (calls.le_max' k hmem) hne'⟩, d', n, atMs, hredeems⟩
  have hcard := Finset.card_le_card hsubset
  rw [Finset.card_erase_of_mem (calls.max'_mem hne)] at hcard
  have hrow := hlast.row
  have hpos := hne.card_pos
  omega

/-- What a call did to a link that is there before and after it. -/
inductive LinkChange (crypto : Crypto) (events : ℕ → Event) (k : ℕ) (digest : Digest) (link link' : InvitationLink) : Prop
  | kept (h : link' = link)
  | used {d : DeviceId} {atMs : ℤ} (h : link' = { link with remaining := link.remaining - 1 }) (left : 0 < link.remaining)
      (redeems : Redeems crypto events k d link.networkId digest atMs)
      (members : ∀ key, key ∈ (run crypto events (k + 1)).tables.memberships ↔
        key = (link.networkId, d) ∨ key ∈ (run crypto events k).tables.memberships)
  | reissued {n : NetworkId} {code : Text} {uses : ℕ} {x : ℤ} (issues : IssuesLink crypto events k n code uses x)
      (digest : accessDigest crypto code = digest)

theorem linkChange_run {link' : InvitationLink} (hrow : (run crypto events k).tables.links.lookup digest = some link)
    (hrow' : (run crypto events (k + 1)).tables.links.lookup digest = some link') : LinkChange crypto events k digest link link' := by
  have hkept (h : (run crypto events k).tables.links.lookup digest = some link') : LinkChange crypto events k digest link link' :=
    .kept (Option.some.inj (h.symm.trans hrow))
  cases hcall : events k with
  | restart =>
    rw [tables_restart hcall] at hrow'
    exact hkept hrow'
  | call op inputs =>
    cases run_linkMove crypto hcall with
    | same links _ _ _ =>
      rw [links] at hrow'
      exact hkept hrow'
    | @issued n code uses x nowMs hands h =>
      rw [h, Tables.issueLink_links, Map.lookup_insert] at hrow'
      split at hrow'
      · rename_i hdigest
        exact .reissued ⟨op, inputs, hcall, hands⟩ hdigest.symm
      · exact hkept (Map.lookup_eraseIf_eq_some.1 hrow').1
    | dropped hop h =>
      rw [h, Tables.dropLinks_links] at hrow'
      exact hkept (Map.lookup_eraseIf_eq_some.1 hrow').1
    | @redeemed q old atMs row hop action live network fresh left nonmember links memberships =>
      rw [links, Map.lookup_insert] at hrow'
      split at hrow'
      · rename_i hdigest
        subst hdigest
        cases live.symm.trans hrow
        cases hrow'
        have hmembers (key : NetworkId × DeviceId) : key ∈ (run crypto events (k + 1)).tables.memberships ↔
            key = (link.networkId, op.actor) ∨ key ∈ (run crypto events k).tables.memberships := by
          rw [memberships, AList.mem_insert, network]
        refine .used rfl left ⟨q, inputs, by rw [hcall, ← hop], action, network.symm, rfl, ?_, ?_⟩ hmembers
        · rw [network]
          exact nonmember
        · exact (hmembers _).2 (.inl rfl)
      · exact hkept hrow'

end

/-- What holds of invitation links in every run. -/
structure LinkLaw (crypto : Crypto) (events : ℕ → Event) : Prop where
  /-- A redemption is one of a link that was handed out, before it expired and before its network's links were revoked. -/
  brought : ∀ k d n digest atMs, Redeems crypto events k d n digest atMs →
    ∃ i code uses, accessDigest crypto code = digest ∧ BroughtBy crypto events i k d n code uses
  /-- A link brings at most as many devices as it was issued for. -/
  bounded : ∀ i n code uses x, IssuesLink crypto events i n code uses x → ∀ calls : Finset ℕ,
    (∀ k ∈ calls, ∃ d n' code' uses', BroughtBy crypto events i k d n' code' uses') → calls.card ≤ uses
  /-- A link changes by a use that brings one device into its network, and in no other way. -/
  changed : ∀ k digest link link', (run crypto events k).tables.links.lookup digest = some link →
    (run crypto events (k + 1)).tables.links.lookup digest = some link' → LinkChange crypto events k digest link link'
  /-- A device that is brought takes one use. -/
  used : ∀ k d n digest atMs, Redeems crypto events k d n digest atMs →
    ∃ link, (run crypto events k).tables.links.lookup digest = some link ∧ link.networkId = n ∧ 0 < link.remaining ∧
      (run crypto events (k + 1)).tables.links.lookup digest = some { link with remaining := link.remaining - 1 }

theorem link_law (crypto : Crypto) (events : ℕ → Event) : LinkLaw crypto events where
  brought _ _ _ _ _ h := h.brought
  bounded _ _ _ _ _ hissues calls hcalls := brought_bounded hissues calls hcalls
  changed _ _ _ _ hrow hrow' := linkChange_run hrow hrow'
  used _ _ _ _ _ h := by
    obtain ⟨link, -, hrow, hn, -, hleft, hrow', -⟩ := h.live
    exact ⟨link, hrow, hn, hleft, hrow'⟩

/-- The operator hands out a link for one use, and two devices try it. -/
def sharing : ℕ → Event
  | 0 => .call (.createNetwork operator ⟨text "office"⟩ 0) officeInputs
  | 1 => .call (.accessRequest operator { action := .inviteIssue, networkId := office, lifetimeSeconds := 60, maxUses := 1 } 0)
      officeInputs
  | 2 => .call (.accessRequest laptop { action := .inviteRedeem, networkId := office, secret := randomAccessCode 1 } 1) officeInputs
  | 3 => .call (.accessRequest soleOwner { action := .inviteRedeem, networkId := office, secret := randomAccessCode 1 } 2)
      officeInputs
  | _ => .restart

example : (office, laptop) ∉ (run plainCrypto sharing 2).tables.memberships ∧
    (office, laptop) ∈ (run plainCrypto sharing 3).tables.memberships ∧
    (office, soleOwner) ∉ (run plainCrypto sharing 4).tables.memberships := by decide +kernel

end Service

end LanLink
