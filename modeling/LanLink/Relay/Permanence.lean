import LanLink.Relay.Consent
import LanLink.Relay.ControlChannel
import LanLink.Relay.Delivery
/-!
# Revocation is permanent

The control channel turns away a device that is revoked, so after its
revocation a device can do nothing itself. What others can do for it is to
approve a request that it filed before: `device_revoke` leaves pending requests
in the store and `approve_member` does not ask whether its target is revoked.
-/
open LanLink.Lib LanLink.Lib.Action

namespace LanLink

/-! ## Calls the channel makes -/

/-- Effects in a row, each of an operation that satisfies `P`. -/
inductive Chain (crypto : Crypto) (P : Op → Prop) (c : Core) : Core → Prop
  | refl : Chain crypto P c c
  | tail {c₁ c₂ : Core} {op : Op} {ok : Bool} (rest : Chain crypto P c c₁) (hop : P op)
      (effect : Effect crypto c₁ op ok c₂) : Chain crypto P c c₂

section
variable {crypto : Crypto} {P : Op → Prop} {c c' c'' : Core}

theorem Chain.trans (h : Chain crypto P c c') (h' : Chain crypto P c' c'') : Chain crypto P c c'' := by
  induction h' with
  | refl => exact h
  | tail _ hop effect ih => exact .tail ih hop effect

/-- An invariant of the effects of such operations. -/
theorem Chain.inv (h : Chain crypto P c c') (I : Core → Prop)
    (hI : ∀ c op ok c', c.tables.Wf → P op → Effect crypto c op ok c' → I c → I c') (hw : c.tables.Wf) (hc : I c) :
    c'.tables.Wf ∧ I c' := by
  induction h with
  | refl => exact ⟨hw, hc⟩
  | tail _ hop effect ih => exact ⟨effect.wf ih.1, hI _ _ _ _ ih.1 hop effect ih.2⟩

theorem Chain.wf (h : Chain crypto P c c') (hw : c.tables.Wf) : c'.tables.Wf :=
  (h.inv (fun _ => True) (fun _ _ _ _ _ _ _ => id) hw trivial).1

end

/-- `x` touches the service only by operations that satisfy `P`. -/
def Calls (crypto : Crypto) (P : Op → Prop) {α : Type} (x : Channel.Call α) : Prop :=
  ∀ c, c.service.tables.Wf → Post x c (fun _ c' => Chain crypto P c.service.core c'.service.core)

namespace Calls
variable {crypto : Crypto} {P : Op → Prop} {α β : Type}

theorem pure (a : α) : Calls crypto P (Pure.pure a : Channel.Call α) := fun _ _ => .refl

theorem lift (x : Except Exn α) : Calls crypto P (Action.lift x) := fun _ _ => .refl

theorem gets (f : Channel → α) : Calls crypto P (Action.gets f) := fun _ _ => .refl

theorem query (f : Channel → Except Exn α) : Calls crypto P (Action.query f) := fun _ _ => .refl

theorem throw (e : Exn) : Calls crypto P (Action.throw e : Channel.Call α) := fun _ _ => .refl

theorem modify {f : Channel → Channel} (hf : ∀ c, (f c).service = c.service) : Calls crypto P (Action.modify f) := by
  intro c _
  rw [post_modify, hf]
  exact .refl

theorem update {f : Channel → α × Channel} (hf : ∀ c, (f c).2.service = c.service) :
    Calls crypto P (Action.update f) := by
  intro c _
  rw [post_update, hf]
  exact .refl

theorem bind {x : Channel.Call α} {k : α → Channel.Call β} (hx : Calls crypto P x) (hk : ∀ a, Calls crypto P (k a)) :
    Calls crypto P (x >>= k) := by
  intro c hw
  rw [post_bind]
  refine (hx c hw).mono fun r c' h => ?_
  cases r with
  | ok a => exact (hk a c' (h.wf hw)).mono fun _ _ h' => h.trans h'
  | error e => exact h

theorem tryCatch {x : Channel.Call α} {h : Exn → Channel.Call α} (hx : Calls crypto P x) (hh : ∀ e, Calls crypto P (h e)) :
    Calls crypto P (Action.tryCatch x h) := by
  intro c hw
  rw [post_tryCatch]
  refine (hx c hw).mono fun r c' hc' => ?_
  cases r with
  | ok a => exact hc'
  | error e => exact (hh e c' (hc'.wf hw)).mono fun _ _ h' => hc'.trans h'

theorem ite {p : Prop} [Decidable p] {x y : Channel.Call α} (hx : Calls crypto P x) (hy : Calls crypto P y) :
    Calls crypto P (if p then x else y) := by
  split
  · exact hx
  · exact hy

/-- What `perform` does for an operation, the function it runs does. -/
theorem onService (inputs : Inputs) (op : Op) {f : α → Reply} {x : Call α}
    (hx : Service.perform crypto inputs op = Service.reply f x) (hop : P op) :
    Calls crypto P (Channel.onService x) := by
  intro c hw
  have heffect := Service.perform_effect crypto inputs op hw
  have hstate : (Service.reply f x c.service).2 = (x c.service).2 := by
    change (Action.bind x (fun a => Pure.pure (f a)) c.service).2 = _
    unfold Action.bind
    rcases x c.service with ⟨_ | _, s'⟩ <;> rfl
  unfold Post at heffect
  rw [hx, hstate] at heffect
  exact .tail .refl hop heffect

end Calls

/-! ## The channel's functions -/

/-- A capability offer. -/
def ControlRequest.Offers : ControlRequest → Prop
  | .capabilityOffer _ => True
  | _ => False

namespace Channel

section
variable (crypto : Crypto) (inputs : ChannelInputs) (actor : DeviceId) (requestId : UInt32)

theorem calls_handleOperation {P : Op → Prop} {q : Type} (payload : Except Exn q)
    {operation : q → ℤ → LanLink.Call NetworkOperationOutcome}
    (h : ∀ x t, Calls crypto P (onService (operation x t))) :
    Calls crypto P (handleOperation inputs requestId payload operation) :=
  .bind (.lift _) fun x => .bind (.lift _) fun t => .bind (h x t) fun _ => .query _

/-- What a request may call: functions for its sender, and of those about sessions only the one of an offer. -/
def Serves (request : ControlRequest) (op : Op) : Prop :=
  op.actor = actor ∧ (op.Session → request.Offers ∧ ∃ capable, op = .setManagementCapable actor capable)

theorem calls_handleOffer (payload : Except Exn CapabilityOffer) :
    Calls crypto (Serves actor (.capabilityOffer payload)) (handleOffer actor requestId payload) := by
  refine .bind (.lift _) fun _ => .bind (.lift _) fun negotiated => .bind (.gets _) fun session => ?_
  cases session with
  | none => exact .pure _
  | some session =>
    refine .bind (.modify fun _ => rfl) fun _ => .bind ?_ fun _ => .query _
    exact .onService {} (.setManagementCapable actor _) rfl ⟨rfl, fun _ => ⟨trivial, _, rfl⟩⟩

theorem service_forwardCandidates (x : CandidateExchange) (c : Channel) :
    (forwardCandidates actor requestId x c).2.service = c.service := by
  unfold forwardCandidates
  split
  · dsimp only
    split
    · rfl
    · split <;> rfl
  · rfl

/-- A request leads to calls for its sender only. -/
theorem calls_dispatch (request : ControlRequest) :
    Calls crypto (Serves actor request) (dispatch crypto inputs actor requestId request) := by
  cases request with
  | management payload =>
    refine .bind (.gets _) fun _ => .ite (.pure _) (.bind (.lift _) fun q => .bind (.lift _) fun t => ?_)
    exact .bind (.onService inputs.toInputs (.manageNetwork actor q t) rfl ⟨rfl, nofun⟩) fun _ => .query _
  | access payload =>
    refine .bind (.lift _) fun q => .bind (.gets _) fun _ => .ite (.pure _) (.bind (.lift _) fun t => ?_)
    exact .bind (.onService inputs.toInputs (.accessRequest actor q t) rfl ⟨rfl, nofun⟩) fun _ => .query _
  | candidates payload =>
    refine .bind (.lift _) fun x => .bind ?_ fun _ => .ite (.pure _) (.update (service_forwardCandidates actor requestId x))
    exact .onService inputs.toInputs (.authorizePeerExchange actor x) rfl ⟨rfl, nofun⟩
  | create payload =>
    exact calls_handleOperation crypto inputs requestId payload fun q t => .onService inputs.toInputs (.createNetwork actor q t) rfl ⟨rfl, nofun⟩
  | list payload =>
    refine .bind (.lift _) fun _ => .bind (.lift _) fun t => .bind ?_ fun _ => .lift _
    exact .onService inputs.toInputs (.listNetworks actor t) rfl ⟨rfl, nofun⟩
  | capabilityOffer payload => exact calls_handleOffer crypto actor requestId payload
  | join payload =>
    exact calls_handleOperation crypto inputs requestId payload fun q t => .onService inputs.toInputs (.joinNetwork actor q t) rfl ⟨rfl, nofun⟩
  | leave payload =>
    exact calls_handleOperation crypto inputs requestId payload fun q t => .onService inputs.toInputs (.leaveNetwork actor q t) rfl ⟨rfl, nofun⟩
  | invite payload =>
    exact calls_handleOperation crypto inputs requestId payload fun q t => .onService inputs.toInputs (.inviteMember actor q t) rfl ⟨rfl, nofun⟩
  | approve payload =>
    exact calls_handleOperation crypto inputs requestId payload fun q t => .onService inputs.toInputs (.approveMember actor q t) rfl ⟨rfl, nofun⟩
  | kick payload =>
    exact calls_handleOperation crypto inputs requestId payload fun q t => .onService inputs.toInputs (.kickMember actor q t) rfl ⟨rfl, nofun⟩
  | peerState payload =>
    refine .bind (.lift _) fun q => .bind (.lift _) fun t => .bind ?_ fun _ => .bind (.gets _) fun _ => .lift _
    exact .onService inputs.toInputs (.peerState actor q t) rfl ⟨rfl, nofun⟩
  | keyPublish payload =>
    refine .bind (.lift _) fun envelopes => .bind ?_ fun _ => .lift _
    exact .onService inputs.toInputs (.publishNetworkKeys actor envelopes) rfl ⟨rfl, nofun⟩
  | other => exact .throw _

theorem calls_noteDevice :
    Calls crypto (fun op => op.actor = actor ∧ ¬ op.Commits ∧ ¬ op.Session) (noteDevice inputs actor) := by
  refine .bind (.lift _) fun t => .bind ?_ fun _ => .modify fun _ => rfl
  exact .onService inputs.toInputs (.recordAuthenticatedDevice actor t) rfl ⟨rfl, not_false, not_false⟩

theorem calls_noteAuthenticated (session : SessionId) (key : SignedDeviceKey) :
    Calls crypto (fun op => op.actor = actor ∧ ¬ op.Commits) (noteAuthenticated crypto inputs actor session key) := by
  refine .bind (.modify fun _ => rfl) fun _ => .bind ?_ fun _ => .bind (.lift _) fun t => .bind ?_ fun _ => .query _
  · exact .onService inputs.toInputs (.setManagementCapable actor false) rfl ⟨rfl, not_false⟩
  · exact .onService inputs.toInputs (.publishDeviceKey actor session key t) rfl ⟨rfl, not_false⟩

theorem calls_noteDisconnected (session : SessionId) :
    Calls crypto (fun op => op = .removeDeviceKey actor session) (noteDisconnected actor session) := by
  refine .bind (.modify fun c => ?_) fun _ => .bind ?_ fun _ => .query _
  · split <;> rfl
  · exact .onService {} (.removeDeviceKey actor session) rfl rfl

theorem calls_handleAuthenticated (f : ControlFrame) :
    Calls crypto (Serves actor f.request) (handleAuthenticated crypto inputs actor f) := by
  refine .bind (.lift _) fun _ => .bind ?_ fun _ => .ite (.pure _) (.tryCatch ?_ fun _ => .pure _)
  · exact .onService inputs.toInputs (.admitControl actor) rfl ⟨rfl, nofun⟩
  · exact .bind (.gets _) fun _ => .ite (.pure _) (calls_dispatch crypto inputs actor f.requestId f.request)

end

end Channel

/-! ## Devices that are gone -/

/-- `d` is revoked, without a key, in no network and asks to join none. -/
structure Gone (d : DeviceId) (c : Core) : Prop where
  revoked : c.revoked d
  key : d ∉ c.activeKeys
  member : ∀ n, (n, d) ∉ c.tables.memberships
  request : ∀ n, (n, d) ∉ c.tables.joinRequests

section
variable {crypto : Crypto} {c c' : Core} {op : Op} {ok : Bool} {d : DeviceId} {n : NetworkId}

theorem Op.Creates.commits (h : op.Creates) : op.Commits := by
  cases op with
  | createNetwork _ _ _ => trivial
  | accessRequest _ q _ => simp [Op.Commits, show q.action = .networkCreateProtected from h]
  | _ => cases h

theorem Op.Joins.commits (h : op.Joins crypto c n) : op.Commits := by
  cases op with
  | joinNetwork _ _ _ => trivial
  | accessRequest _ q _ => simp [Op.Commits, h.1]
  | _ => cases h

theorem Redemption.commits {digest : Digest} {link : InvitationLink} {atMs : ℤ}
    (h : Redemption crypto c op n digest link atMs) : op.Commits := by
  obtain ⟨q, hop, haction, -⟩ := h.call
  rw [hop]
  simp [Op.Commits, haction]

/-- Without a request of `d` only `d` makes itself a member. -/
theorem Joining.commits (h : Joining crypto c op n d) (hreq : (n, d) ∉ c.tables.joinRequests) :
    op.actor = d ∧ op.Commits := by
  cases h with
  | created hop self _ => exact ⟨self.symm, hop.commits⟩
  | redeemed self redemption => exact ⟨self.symm, redemption.commits⟩
  | admitted admission =>
    cases admission with
    | invited hop self _ => exact ⟨self.symm, hop.commits⟩
    | password hop _ self _ _ _ =>
      obtain ⟨haction, t, hop⟩ := hop
      refine ⟨self.symm, ?_⟩
      rw [hop]
      simp [Op.Commits, haction]
    | approved _ _ request => exact absurd request hreq

/-- A device that is gone comes back only by a call of its own. -/
theorem Effect.gone (h : Effect crypto c op ok c') (hw : c.tables.Wf) (hop : op.actor = d → ¬ op.Commits)
    (hg : Gone d c) : Gone d c' where
  revoked := h.revoked_mono hw hg.revoked
  key hd := by
    cases h.deviceStep hw with
    | kept _ keys => exact (keys d hd).elim hg.key fun hallowed => hallowed hg.revoked
    | revoked _ dropped => exact hg.key ((dropped.keys d).1 hd).1
    | stopped _ _ _ keys _ _ => exact hg.key (keys ▸ hd)
  member n hin := by
    obtain ⟨hactor, hcommits⟩ := ((h.rowStep hw).joining (hg.member n) hin).commits (hg.request n)
    exact hop hactor hcommits
  request n hin := by
    obtain ⟨hactor, hjoins, -⟩ := (h.rowStep hw).requesting (hg.request n) hin
    exact hop hactor.symm hjoins.commits

theorem Chain.gone {P : Op → Prop} (h : Chain crypto P c c') (hw : c.tables.Wf)
    (hP : ∀ op, P op → op.actor = d → ¬ op.Commits) (hg : Gone d c) : c'.tables.Wf ∧ Gone d c' :=
  h.inv (Gone d) (fun _ op _ _ hw hop effect => effect.gone hw (hP op hop)) hw hg

end

/-! ## Runs of the channel -/

namespace Channel
variable (crypto : Crypto) {d : DeviceId}

/-- The channel lets a device act only if it is not revoked. -/
theorem gone_handle (inputs : ChannelInputs) (actor : DeviceId) (f : ControlFrame) (c : Channel)
    (hw : c.service.tables.Wf) (hg : Gone d c.service.core) :
    Post (handleAuthenticated crypto inputs actor f) c
      (fun _ c' => c'.service.tables.Wf ∧ Gone d c'.service.core) := by
  refine post_lift_bind (fun _ _ => ?_) fun _ => ⟨hw, hg⟩
  have hcontrol : Calls crypto (fun op => ¬ op.Commits) (onService (Service.admitControl actor inputs.now)) :=
    .onService inputs.toInputs (.admitControl actor) rfl not_false
  rw [post_bind]
  refine (hcontrol c hw).mono fun r c₁ h => ?_
  obtain ⟨hw₁, hg₁⟩ : c₁.service.tables.Wf ∧ Gone d c₁.service.core := h.gone hw (fun _ h _ => h) hg
  cases r with
  | error e => exact ⟨hw₁, hg₁⟩
  | ok admitted =>
    dsimp only
    rw [post_ite]
    refine ⟨fun _ => ⟨hw₁, hg₁⟩, fun _ => ?_⟩
    rw [post_tryCatch, post_gets_bind, post_ite]
    refine ⟨fun _ => ⟨hw₁, hg₁⟩, fun hallowed => ?_⟩
    have hne : actor ≠ d := by
      rintro rfl
      rw [not_not, Service.deviceAllowed_eq, hg₁.revoked] at hallowed
      cases hallowed
    refine (calls_dispatch crypto inputs actor f.requestId f.request c₁ hw₁).mono fun r c₂ h => ?_
    have hgone := h.gone hw₁ (fun op hop hd => absurd (hop.1.symm.trans hd) hne) hg₁
    cases r <;> exact hgone

theorem gone_step {c : Channel} (hw : c.service.tables.Wf) (hg : Gone d c.service.core) (e : ChannelEvent) :
    (c.step crypto e).service.tables.Wf ∧ Gone d (c.step crypto e).service.core := by
  cases e with
  | noteDevice actor inputs => exact (calls_noteDevice crypto inputs actor c hw).gone hw (fun _ h _ => h.2.1) hg
  | noteAuthenticated actor session key inputs =>
    exact (calls_noteAuthenticated crypto inputs actor session key c hw).gone hw (fun _ h _ => h.2) hg
  | noteDisconnected actor session =>
    refine (calls_noteDisconnected crypto actor session c hw).gone hw (fun op hop _ => ?_) hg
    rw [hop]
    exact not_false
  | handle actor frame inputs => exact gone_handle crypto inputs actor frame c hw hg
  | restart => exact ⟨hw, hg.revoked, AList.notMem_empty d, hg.member, hg.request⟩

/-- The channel after `j` events. -/
def run (c : Channel) (events : ℕ → ChannelEvent) (j : ℕ) : Channel := states (step crypto) c events j

theorem gone_run {c : Channel} (hw : c.service.tables.Wf) (hg : Gone d c.service.core) (events : ℕ → ChannelEvent)
    (j : ℕ) : Gone d (run crypto c events j).service.core :=
  (Reachable.inv (fun c : Channel => c.service.tables.Wf ∧ Gone d c.service.core) ⟨hw, hg⟩
    (fun _ e h => gone_step crypto h.1 h.2 e) (states_reachable events j)).2

end Channel

/-! ## After a revocation -/

namespace Service
variable (crypto : Crypto)

/-- What a revocation is for. -/
structure Revoked (d : DeviceId) (s : Service) : Prop where
  revoked : s.core.revoked d
  no_key : d ∉ s.activeKeys
  no_network : ∀ n, (n, d) ∉ s.tables.memberships

/-- A revocation of a device that has no pending request is complete and lasts,
whatever is done through the channel later. -/
theorem revocation_permanent (events : ℕ → Event) (k : ℕ) {actor : DeviceId} {q : AccessRequest} {t : ℤ}
    {inputs : Inputs} (hcall : events k = .call (.accessRequest actor q t) inputs) (haction : q.action = .deviceRevoke)
    (hsuccess : (run crypto events k).succeeds crypto (events k))
    (hpending : ∀ n, (n, q.deviceId) ∉ (run crypto events k).tables.joinRequests)
    (sessions : Map DeviceId CapabilitySession) (later : ℕ → ChannelEvent) (j : ℕ) :
    Revoked q.deviceId (Channel.run crypto ⟨run crypto events (k + 1), sessions⟩ later j).service := by
  have hw := wf_run crypto events k
  have hstep := step_core crypto hw (events k)
  have hgone : Gone q.deviceId (run crypto events (k + 1)).core := by
    rw [hsuccess, hcall] at hstep
    rw [run_succ, hcall]
    generalize (step crypto (run crypto events k) (.call (.accessRequest actor q t) inputs)).core = c' at hstep ⊢
    cases hstep with
    | call effect =>
      have hdropped := effect.dropped hw ⟨haction, t, rfl⟩
      refine ⟨by simp [hdropped.revoked], fun hd => ?_, fun n hn => ?_, fun n hn => ?_⟩
      · exact ((hdropped.keys _).1 hd).2 rfl
      · exact ((hdropped.members n _).1 hn).2 rfl
      · exact hpending n (hdropped.requests ▸ hn)
  obtain ⟨hrevoked, hkey, hmember, -⟩ :=
    Channel.gone_run crypto (c := ⟨run crypto events (k + 1), sessions⟩) (wf_run crypto events (k + 1)) hgone later j
  exact ⟨hrevoked, hkey, hmember⟩

/-! The operator revokes a laptop, after the laptop made one call, and then
approves its request to join the office. -/

def revocationAfter (call : Event) : ℕ → Event
  | 0 => .call (.createNetwork operator ⟨text "office"⟩ 0) officeInputs
  | 1 => .call (.accessRequest operator { action := .accountCreate, text := text "office" } 0) officeInputs
  | 2 => .call (.accessRequest operator { action := .enrollmentIssue } 0) officeInputs
  | 3 => .call (.accessRequest laptop
      { action := .deviceEnroll, secret := randomAccessCode 1, text := text "laptop" } 0) officeInputs
  | 4 => call
  | 5 => revoking
  | _ => .restart

def listing : Event := .call (.listNetworks laptop 0) soleInputs

def asking : Event := .call (.joinNetwork laptop ⟨office⟩ 0) soleInputs

def approving (_ : ℕ) : ChannelEvent := .handle operator ⟨1, .approve (.ok ⟨office, laptop⟩)⟩ {}

theorem revocation_permanent_listing :
    Revoked laptop (Channel.run plainCrypto ⟨run plainCrypto (revocationAfter listing) 6, ∅⟩ approving 1).service := by
  have hnone : (run plainCrypto (revocationAfter listing) 5).tables.joinRequests.rows = [] := by decide +kernel
  refine revocation_permanent plainCrypto (revocationAfter listing) 5 rfl rfl (by decide +kernel) (fun n hn => ?_) ∅
    approving 1
  obtain ⟨atMs, hrow⟩ := Map.mem_iff_lookup.1 hn
  have hmem : ((n, laptop), atMs) ∈ (run plainCrypto (revocationAfter listing) 5).tables.joinRequests.rows :=
    Map.mem_rows.2 hrow
  rw [hnone] at hmem
  cases hmem

/-- The revoked laptop is a member again. -/
theorem approved_after_revocation :
    (run plainCrypto (revocationAfter asking) 5).succeeds plainCrypto revoking ∧
    ¬ Revoked laptop (Channel.run plainCrypto ⟨run plainCrypto (revocationAfter asking) 6, ∅⟩ approving 1).service := by
  refine ⟨by decide +kernel, fun h => h.no_network office ?_⟩
  decide +kernel

end Service

end LanLink
