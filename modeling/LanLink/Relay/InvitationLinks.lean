import LanLink.Relay.Accounts
import LanLink.Storage.Addresses
/-!
# Invitation links

A use of a link is committed before the device joins, and the join checks
everything again. What `invite_redeem` checked before the use is enough for
the join to go through, so the uses that are left and the members that a link
brought add up to what it was issued with.
-/
open LanLink.Lib LanLink.Lib.Action

namespace LanLink

open Db (Joinable)

namespace Service
variable {s : Service} {crypto : Crypto} {inputs : Inputs} {actor : DeviceId} {q : AccessRequest} {nowMs : ℤ} {n : NetworkId}

/-! ## The join after a use -/

theorem listMembers_eq {db : Db} (hn : n ≠ 0) : ∃ members, db.listMembers n = .ok members ∧
    members.length = db.memberships.count fun row => row.1.1 = n := by
  refine ⟨_, by rw [Db.listMembers, requireNetworkId, check_of hn, ok_bind], ?_⟩
  rw [List.length_insertionSort, List.length_map]
  rfl

/-- The limit is about the networks a device is in. -/
theorem networkLimitReached_congr {db db' : Db} {d : DeviceId} (hnetworks : db'.networks = db.networks)
    (hmemberships : db'.memberships = db.memberships) : networkLimitReached db' d = networkLimitReached db d := by
  rw [networkLimitReached, networkLimitReached, Db.listNetworksForDevice, Db.listNetworksForDevice, hnetworks, hmemberships]

/-- The actor joined. -/
def JoinedBy (n : NetworkId) (actor : DeviceId) (nowMs : ℤ) (c : Core) (ok : Bool) (c' : Core) : Prop :=
  ∃ a, Joinable c.tables n actor a ∧
    Advanced n ok (c.withTables (c.tables.join n actor { role := .member, joinedAtMs := nowMs } a)) c'

/-- An invited device with room for another network joins one with room for another member. -/
theorem joinNetworkLocked_joins (hw : s.tables.Wf) (hactor : actor ≠ 0) (hnow : 0 ≤ nowMs) (hn : n ∈ s.tables.networks)
    (hfresh : (n, actor) ∉ s.tables.memberships) (hinvited : (n, actor) ∈ s.tables.invitations)
    (hlimit : networkLimitReached s.store actor = .ok false)
    (hroom : s.tables.memberships.count (fun row => row.1.1 = n) ≤ 253) :
    Post (joinNetworkLocked inputs actor n nowMs false) s fun r s' =>
      JoinedBy n actor nowMs s.core (succeeded NetworkOperationOutcome.code r) s'.core := by
  have hn0 : n ≠ 0 := fun h0 => hw.owned.nonzero (h0 ▸ hn)
  refine post_catching (P := fun ok c' => JoinedBy n actor nowMs s.core ok c') ?_
  obtain ⟨devices, hdevice, hrecord⟩ := @recordDevice_eq s.store actor nowMs hactor hnow
  refine post_write_ok hrecord ?_
  obtain ⟨network, hnetwork⟩ := Map.mem_iff_lookup.1 hn
  refine post_read_ok (a := some (.ofRow (n, network)))
    (Db.findNetwork_ok.2 ⟨hn0, Option.map_eq_some_iff.2 ⟨network, hnetwork, rfl⟩⟩) ?_
  obtain ⟨members, hmembers, -⟩ := @listMembers_eq n { s.store with devices } hn0
  refine post_read_ok hmembers ?_
  rw [if_neg (fun h => hfresh ((findMember_isSome hmembers).1 h))]
  refine post_read_ok (a := false) ((networkLimitReached_congr rfl rfl).trans hlimit) ?_
  rw [if_neg (by simp), post_gets_bind]
  obtain ⟨invitedAt, hinvitation⟩ := Map.mem_iff_lookup.1 hinvited
  refine post_read_ok (a := some invitedAt) (Db.findInvitation_ok.2 ⟨hn0, hactor, hinvitation⟩) ?_
  rw [if_neg (by simp), if_pos (.inl rfl)]
  obtain ⟨db, hadd⟩ := @Db.exists_addMember { s.store with devices } n actor nowMs hw hn hactor hnow hdevice hfresh hroom
  refine post_write_ok hadd ?_
  obtain ⟨hfalse, -⟩ | ⟨-, a, hjoinable, rfl⟩ := Db.addMember_ok hadd
  · cases hfalse
  have hw' := hw.change (.join nowMs hjoinable)
  rw [if_neg (by simp)]
  refine Post.mono (memberJoined_effect inputs ?_ ?_) fun r s' hadvanced => ⟨a, hjoinable, hadvanced⟩
  · exact hw'
  · exact hjoinable.network

/-- The actor used the link and joined. -/
def RedeemedBy (crypto : Crypto) (op : Op) (c : Core) (c' : Core) : Prop :=
  ∃ n digest link atMs joinedAtMs a ok, Redemption crypto c op n digest link atMs ∧
    Advanced n ok (c.withTables ((c.tables.redeem n digest link op.actor atMs).join n op.actor
      { role := .member, joinedAtMs } a)) c'

theorem inviteRedeem_joins {network : Option NetworkRecord} (hw : s.tables.Wf) (haction : q.action = .inviteRedeem)
    (hactor : actor ≠ 0) (hnow : 0 ≤ nowMs) :
    Post (inviteRedeem crypto inputs actor q nowMs network) s fun _ s' =>
      s'.core = s.core ∨ RedeemedBy crypto (.accessRequest actor q nowMs) s.core s'.core := by
  unfold inviteRedeem
  rw [post_ite]
  refine ⟨fun _ => .inl rfl, fun _ => ?_⟩
  refine post_read (fun lease _ => ?_) fun _ _ => .inl rfl
  rw [post_ite]
  refine ⟨fun _ => .inl rfl, fun _ => ?_⟩
  refine post_read (fun full hfull => ?_) fun _ _ => .inl rfl
  refine post_read (fun members hmembers => ?_) fun _ _ => .inl rfl
  rw [post_ite]
  refine ⟨fun _ => .inl rfl, fun hopen => ?_⟩
  rw [not_or, Bool.not_eq_true, not_le] at hopen
  obtain ⟨rfl, hlength⟩ := hopen
  refine post_write (fun redeemed db h => ?_) fun _ _ => .inl rfl
  obtain ⟨rfl, -, rfl⟩ | ⟨rfl, link, hlive, hmember, -, rfl⟩ := Db.redeemInviteLink_ok h
  · exact .inl rfl
  obtain ⟨hlink, hnet, hfresh, huses⟩ := Db.liveLink_eq_some.1 hlive
  have hredemption : Redemption crypto s.core (.accessRequest actor q nowMs) q.networkId (accessDigest crypto q.secret) link
      nowMs := ⟨⟨q, rfl, haction, rfl, rfl⟩, hlink, hnet, hfresh, huses, hmember, hnow⟩
  have hw' := hw.change (.redeem (t := s.tables) nowMs hlink hnet hmember)
  have hn : q.networkId ∈ s.tables.networks := hnet ▸ hw.rooted.links _ link hlink
  have hn0 : q.networkId ≠ 0 := fun h0 => hw.owned.nonzero (h0 ▸ hn)
  have hinvited : (q.networkId, actor) ∈ (s.tables.redeem q.networkId (accessDigest crypto q.secret) link actor nowMs).invitations := by
    rw [Tables.redeem_invitations]
    split
    · rename_i hor
      exact hor.resolve_right (not_lt.2 hnow)
    · simp
  have hroom : s.tables.memberships.count (fun row => row.1.1 = q.networkId) ≤ 253 := by
    obtain ⟨members', hmembers', hcount⟩ := @listMembers_eq q.networkId s.store hn0
    rw [hmembers'] at hmembers
    cases hmembers
    rw [hcount] at hlength
    exact Nat.lt_succ_iff.1 hlength
  rw [if_neg (by simp), post_bind]
  refine Post.mono (joinNetworkLocked_joins hw' hactor hnow hn hmember hinvited
    ((networkLimitReached_congr rfl rfl).trans hfull) hroom) fun r s' hjoined => ?_
  obtain ⟨a, -, hadvanced⟩ := hjoined
  have hresult : RedeemedBy crypto (.accessRequest actor q nowMs) s.core s'.core :=
    ⟨_, _, link, nowMs, nowMs, a, _, hredemption, hadvanced⟩
  cases r <;> exact .inr hresult

end Service

/-! ## What a call does to the links -/

/-- The reply hands out a link of the network for a number of uses. -/
def Op.HandsOutLink (op : Op) (inputs : Inputs) (r : Except Exn Reply) (n : NetworkId) (code : Text) (uses : ℕ) (expiresMs : ℤ) :
    Prop :=
  ∃ q t out nonce, op = .accessRequest op.actor q t ∧ q.action = .inviteIssue ∧ q.networkId = n ∧ r = .ok (.access out) ∧
    out.result.code = .success ∧ inputs.nonce = .ok nonce ∧ code = randomAccessCode nonce ∧
    out.result.secret = makeInviteLink n code ∧ uses = q.maxUses.toNat ∧ expiresMs = t + q.lifetimeSeconds.toNat * 1000

/-- The reply confirms that the links of the network are revoked. -/
def Op.RevokesLinks (op : Op) (r : Except Exn Reply) (n : NetworkId) : Prop :=
  ∃ q, op.Requests .inviteRevoke q ∧ q.networkId = n ∧ succeeded Reply.code r = true

inductive LinkMove (crypto : Crypto) (op : Op) (inputs : Inputs) (t : Tables) : Except Exn Reply → Tables → Prop
  | same {r : Except Exn Reply} {t' : Tables} (links : t'.links = t.links)
      (unissued : ∀ n code uses expires, ¬ op.HandsOutLink inputs r n code uses expires) (unrevoked : ∀ n, ¬ op.RevokesLinks r n)
      (unused : ∀ q, op.Requests .inviteRedeem q → t'.memberships = t.memberships) : LinkMove crypto op inputs t r t'
  | issued {r : Except Exn Reply} {t' : Tables} {n : NetworkId} {code : Text} {uses : ℕ} {expiresMs : ℤ}
      (nowMs : ℤ) (hands : op.HandsOutLink inputs r n code uses expiresMs)
      (h : t' = t.issueLink (accessDigest crypto code) ⟨n, expiresMs, uses⟩ nowMs) : LinkMove crypto op inputs t r t'
  | dropped {r : Except Exn Reply} {t' : Tables} {q : AccessRequest} (hop : op.Requests .inviteRevoke q)
      (h : t' = t.dropLinks q.networkId) : LinkMove crypto op inputs t r t'
  | redeemed {r : Except Exn Reply} {t' : Tables} {q : AccessRequest} {link : InvitationLink} {atMs : ℤ} {row : Membership}
      (hop : op = .accessRequest op.actor q atMs) (action : q.action = .inviteRedeem)
      (live : t.links.lookup (accessDigest crypto q.secret) = some link) (network : link.networkId = q.networkId)
      (fresh : atMs < link.expiresMs) (left : 0 < link.remaining) (nonmember : (q.networkId, op.actor) ∉ t.memberships)
      (links : t'.links = t.links.insert (accessDigest crypto q.secret) { link with remaining := link.remaining - 1 })
      (memberships : t'.memberships = t.memberships.insert (q.networkId, op.actor) row) : LinkMove crypto op inputs t r t'

theorem Op.HandsOutLink.action {op : Op} {inputs : Inputs} {r : Except Exn Reply} {n : NetworkId} {code : Text} {uses : ℕ}
    {expires : ℤ} (h : op.HandsOutLink inputs r n code uses expires) {actor : DeviceId} {q : AccessRequest} {t : ℤ}
    (hop : op = .accessRequest actor q t) : q.action = .inviteIssue := by
  obtain ⟨q', t', out, nonce, hop', haction, -⟩ := h
  rw [hop] at hop'
  cases hop'
  exact haction

theorem Op.RevokesLinks.action {op : Op} {r : Except Exn Reply} {n : NetworkId} (h : op.RevokesLinks r n) {actor : DeviceId}
    {q : AccessRequest} {t : ℤ} (hop : op = .accessRequest actor q t) : q.action = .inviteRevoke ∧ q.networkId = n := by
  obtain ⟨q', ⟨haction, t', hop'⟩, hn, -⟩ := h
  rw [hop] at hop'
  cases hop'
  exact ⟨haction, hn⟩

theorem Op.Requests.action {op : Op} {action : AccessAction} {q' : AccessRequest} (h : op.Requests action q') {actor : DeviceId}
    {q : AccessRequest} {t : ℤ} (hop : op = .accessRequest actor q t) : q.action = action := by
  obtain ⟨haction, t', hop'⟩ := h
  rw [hop] at hop'
  cases hop'
  exact haction

namespace Service
variable {s : Service} {crypto : Crypto} {inputs : Inputs} {actor : DeviceId} {q : AccessRequest} {nowMs : ℤ}

/-- A request about links that is not throttled goes on with the network it names. -/
theorem post_inviteRequest (haction : q.action = .inviteIssue ∨ q.action = .inviteRedeem ∨ q.action = .inviteRevoke)
    {Q : Except Exn AccessOutcome → Core → Prop} (hfail : ∀ out : AccessOutcome, out.result.code ≠ .success → Q (.ok out) s.core)
    (hthrew : ∀ e, Q (.error e) s.core)
    (hgo : ∀ (s₁ : Service) (network : Option NetworkRecord), s₁.core = s.core → actor ≠ 0 → 0 ≤ nowMs →
      Post (if q.action = .inviteRedeem then inviteRedeem crypto inputs actor q nowMs network
        else do
          let manages ← Action.gets fun s => s.canManageNetwork q.networkId actor
          if network.isNone ∨ ¬ manages then pure (.failAt q .permissionDenied)
          else if q.action = .inviteRevoke then do
            write fun db => db.revokeInviteLinks q.networkId
            pure (.failAt q .success)
          else inviteIssue crypto inputs q nowMs) s₁ fun r s' => Q r s'.core) :
    Post (accessRequest crypto inputs actor q nowMs) s fun r s' => Q r s'.core := by
  have hbody : accessAction crypto inputs actor q nowMs = admitting actor q nowMs fun _ => inviteAction crypto inputs actor q nowMs := by
    unfold accessAction
    rcases haction with h | h | h <;> (rw [h]; rfl)
  refine post_accessRequest hbody (hfail _ (by rintro ⟨⟩)) hthrew fun s₁ hs₁ hactor hnow _ => ?_
  unfold inviteAction
  rw [post_update_bind]
  have hcore := core_allowAccessAttempt actor q.networkId inputs.now s₁
  generalize allowAccessAttempt actor q.networkId inputs.now s₁ = attempt at hcore ⊢
  obtain ⟨allowed, s₂⟩ := attempt
  have hs₂ : s₂.core = s.core := hcore.trans hs₁
  dsimp only
  rw [← hs₂] at hfail hthrew
  rw [post_ite]
  refine ⟨fun _ => hfail _ (by rintro ⟨⟩), fun _ => ?_⟩
  exact post_read (fun network _ => hgo s₂ network hs₂ hactor hnow) fun e _ => hthrew e

/-- A request that reports no success has left the links alone. -/
theorem linkMove_fail {r : Except Exn AccessOutcome} (hr : ∀ out, r = .ok out → out.result.code ≠ .success) :
    LinkMove crypto (.accessRequest actor q nowMs) inputs s.core.tables (r.map Reply.access) s.core.tables := by
  refine .same rfl (fun n code uses expires h => ?_) (fun n h => ?_) fun _ _ => rfl
  · obtain ⟨q', t', out, nonce, -, -, -, hout, hcode, -⟩ := h
    cases r with
    | error e => cases hout
    | ok out' =>
      cases hout
      exact hr out rfl hcode
  · obtain ⟨q', -, -, hok⟩ := h
    cases r with
    | error e => cases hok
    | ok out' => exact hr out' rfl (of_decide_eq_true hok)

/-- What a request does to the links, the call does. -/
theorem linkMove_reply (h : Post (accessRequest crypto inputs actor q nowMs) s fun r s' =>
      LinkMove crypto (.accessRequest actor q nowMs) inputs s.core.tables (r.map Reply.access) s'.core.tables) :
    Post (perform crypto inputs (.accessRequest actor q nowMs)) s fun r s' =>
      LinkMove crypto (.accessRequest actor q nowMs) inputs s.core.tables r s'.core.tables := by
  change Post (reply Reply.access (accessRequest crypto inputs actor q nowMs)) s _
  rw [reply, post_bind]
  refine h.mono fun r s' h => ?_
  cases r <;> exact h

theorem linkMove_inviteRedeem (hw : s.tables.Wf) (haction : q.action = .inviteRedeem) :
    Post (perform crypto inputs (.accessRequest actor q nowMs)) s fun r s' =>
      LinkMove crypto (.accessRequest actor q nowMs) inputs s.core.tables r s'.core.tables := by
  have hsame (r : Except Exn Reply) : LinkMove crypto (.accessRequest actor q nowMs) inputs s.core.tables r s.core.tables := by
    refine .same rfl (fun n code uses expires h => ?_) (fun n h => ?_) fun _ _ => rfl
    · cases haction.symm.trans (h.action rfl)
    · cases haction.symm.trans (h.action rfl).1
  refine linkMove_reply (post_inviteRequest (.inr (.inl haction))
    (Q := fun r c => LinkMove crypto _ inputs s.core.tables (r.map Reply.access) c.tables)
    (fun _ _ => hsame _) (fun _ => hsame _) fun s₁ network hs₁ hactor hnow => ?_)
  rw [if_pos haction]
  rw [← tables_of_core hs₁] at hw
  refine (inviteRedeem_joins hw haction hactor hnow).mono fun r s' h => ?_
  rcases h with hcore | ⟨n, digest, link, atMs, joinedAtMs, a, ok, redemption, advanced⟩
  · rw [hcore, hs₁]
    exact hsame _
  · obtain ⟨⟨q', hop, -, hn, rfl⟩, hlive, hnet, hfresh, huses, hmember, -⟩ := redemption
    cases hop
    cases hn
    rw [hs₁] at hlive hmember advanced
    have hlinks := congrArg Tables.links advanced.tables
    have hmemberships := congrArg Tables.memberships advanced.tables
    exact .redeemed rfl haction hlive hnet hfresh huses hmember hlinks hmemberships

/-- An issue or a revocation. -/
theorem linkMove_manage (haction : q.action = .inviteIssue ∨ q.action = .inviteRevoke) :
    Post (perform crypto inputs (.accessRequest actor q nowMs)) s fun r s' =>
      LinkMove crypto (.accessRequest actor q nowMs) inputs s.core.tables r s'.core.tables := by
  refine linkMove_reply (post_inviteRequest (haction.imp_right .inr)
    (Q := fun r c => LinkMove crypto _ inputs s.core.tables (r.map Reply.access) c.tables)
    (fun out hcode => linkMove_fail ?_) (fun e => linkMove_fail (r := .error e) (by rintro out ⟨⟩)) fun s₁ network hs₁ _ _ => ?_)
  · rintro out' ⟨⟩
    exact hcode
  have htables : s₁.store.toTables = s.core.tables := congrArg Core.tables hs₁
  have hfail {r : Except Exn AccessOutcome} (hr : ∀ out, r = .ok out → out.result.code ≠ .success) :
      LinkMove crypto (.accessRequest actor q nowMs) inputs s.core.tables (r.map Reply.access) s₁.core.tables := by
    rw [hs₁]
    exact linkMove_fail hr
  have hthrew (e : Exn) : LinkMove crypto (.accessRequest actor q nowMs) inputs s.core.tables (.error e) s₁.core.tables :=
    hfail (r := .error e) (by rintro out ⟨⟩)
  rw [if_neg (by rcases haction with h | h <;> (rw [h]; decide)), post_gets_bind, post_ite]
  refine ⟨fun _ => hfail (by rintro out ⟨⟩ ⟨⟩), fun _ => ?_⟩
  rw [post_ite]
  refine ⟨fun hrevoke => ?_, fun hissue => ?_⟩
  · refine post_write (fun _ db h => ?_) fun e _ => hthrew e
    rw [Db.revokeInviteLinks_ok h]
    refine .dropped ⟨hrevoke, nowMs, rfl⟩ ?_
    rw [← htables]
    rfl
  · unfold inviteIssue
    rw [post_ite]
    refine ⟨fun _ => hfail (by rintro out ⟨⟩ ⟨⟩), fun _ => ?_⟩
    refine post_lift_bind (fun nonce hnonce => ?_) fun e => hthrew e
    refine post_write (fun _ db h => ?_) fun e _ => hthrew e
    obtain ⟨-, -, -, rfl⟩ := Db.issueInviteLink_ok h
    refine .issued nowMs ⟨q, nowMs, _, nonce, rfl, haction.resolve_right hissue, rfl, rfl, rfl, hnonce, rfl, rfl, rfl, rfl⟩ ?_
    rw [← htables]
    rfl

end Service

theorem Purged.links {d : DeviceId} {networks : List NetworkId} {c c' : Core} (h : Purged d networks c c') :
    c'.tables.links = c.tables.links := by
  induction h with
  | nil => rfl
  | cons member advanced rest ih =>
    rw [ih, advanced.tables]
    rfl

theorem Stopped.links {n : NetworkId} {d : DeviceId} {c c' : Core} (h : Stopped n d c c') : c'.tables.links = c.tables.links := by
  cases h with
  | policy _ _ => rfl
  | counter member advanced =>
    rw [advanced.tables]
    rfl

/-- Other calls leave the links alone. -/
theorem Effect.links {crypto : Crypto} {c c' : Core} {op : Op} {ok : Bool} (h : Effect crypto c op ok c')
    (hother : ∀ actor q t, op = .accessRequest actor q t →
      q.action ≠ .inviteIssue ∧ q.action ≠ .inviteRedeem ∧ q.action ≠ .inviteRevoke) : c'.tables.links = c.tables.links := by
  cases h with
  | quiet _ => rfl
  | created password _ _ _ _ _ _ _ advanced =>
    rw [advanced.tables]
    cases password <;> rfl
  | joined atMs _ joinable advanced => rw [advanced.tables]; rfl
  | redeemed redemption =>
    obtain ⟨q, hop, haction, -⟩ := redemption.call
    exact absurd haction (hother _ q _ hop).2.1
  | redeemJoined joinedAtMs redemption joinable advanced =>
    obtain ⟨q, hop, haction, -⟩ := redemption.call
    exact absurd haction (hother _ q _ hop).2.1
  | left _ member advanced => rw [advanced.tables]; rfl
  | edited _ _ _ _ _ _ _ advanced => rw [advanced.tables]; rfl
  | linkIssued _ hop action _ => exact absurd action (hother _ _ _ hop).1
  | linksDropped hop _ =>
    obtain ⟨haction, t, hop⟩ := hop
    exact absurd haction (hother _ _ t hop).2.2
  | revoked _ _ _ _ purged => exact purged.links
  | revokeStopped _ _ _ _ purged stopped => exact stopped.links.trans purged.links
  | keyPublished _ _ ticked => rw [ticked.tables]
  | keyRemoved _ ticked => rw [ticked.tables]
  | capableSet _ ticked => rw [ticked.tables]
  | _ => rfl

namespace Service
variable {s : Service} {crypto : Crypto} {inputs : Inputs}

/-- Every call moves the links on in one of four ways. -/
theorem linkMove_perform (op : Op) (hw : s.tables.Wf) :
    Post (perform crypto inputs op) s fun r s' => LinkMove crypto op inputs s.core.tables r s'.core.tables := by
  by_cases hredeem : ∃ actor q t, op = .accessRequest actor q t ∧ q.action = .inviteRedeem
  · obtain ⟨actor, q, t, rfl, haction⟩ := hredeem
    exact linkMove_inviteRedeem hw haction
  by_cases hmanage : ∃ actor q t, op = .accessRequest actor q t ∧ (q.action = .inviteIssue ∨ q.action = .inviteRevoke)
  · obtain ⟨actor, q, t, rfl, haction⟩ := hmanage
    exact linkMove_manage haction
  refine (perform_effect crypto inputs op hw).mono fun r s' heffect => ?_
  refine .same (Effect.links heffect fun actor q t hop => ⟨?_, ?_, ?_⟩) (fun n code uses expires h => ?_) (fun n h => ?_) fun q h => ?_
  · exact fun h => hmanage ⟨actor, q, t, hop, .inl h⟩
  · exact fun h => hredeem ⟨actor, q, t, hop, h⟩
  · exact fun h => hmanage ⟨actor, q, t, hop, .inr h⟩
  · obtain ⟨q, t, -, -, hop, haction, -⟩ := h
    exact hmanage ⟨_, q, t, hop, .inl haction⟩
  · obtain ⟨q, ⟨haction, t, hop⟩, -⟩ := h
    exact hmanage ⟨_, q, t, hop, .inr haction⟩
  · obtain ⟨haction, t, hop⟩ := h
    exact absurd ⟨_, q, t, hop, haction⟩ hredeem

end Service

end LanLink
