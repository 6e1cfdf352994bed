import LanLink.Relay.Permanence
import LanLink.Relay.Revisions
/-!
# Sessions supersede each other

A device that connects again takes over from the connection it had: the key
table, the capability table and the management set are then those of the new
session, and the late disconnect of the old one finds nothing to clean up.
`note_authenticated` replaces the capability entry first and publishes the key
last. Between the two it can throw: on a clock before 1970, or where the
peer-state revision of a managed network of the device is used up. The device
then still has the key of the old session under the entry of the new one.
-/
open LanLink.Lib LanLink.Lib.Action

namespace LanLink

/-! ## What other calls leave alone -/

section
variable {crypto : Crypto} {P : Op → Prop} {c c' : Core} {op : Op} {ok : Bool} {d : DeviceId}

/-- The call does not set or drop the session key of `d`. -/
def Op.KeepsKey (d : DeviceId) (op : Op) : Prop :=
  op.Session → op.actor = d → ∃ capable, op = .setManagementCapable d capable

theorem Effect.key_kept (h : Effect crypto c op ok c') (hw : c.tables.Wf) (hop : op.KeepsKey d) (hd : ¬ c'.revoked d) :
    c'.activeKeys.lookup d = c.activeKeys.lookup d := by
  have hne {session : Op} (heq : op = session) (hs : session.Session)
      (hno : ∀ capable, session ≠ .setManagementCapable d capable) : d ≠ op.actor := by
    rintro rfl
    subst heq
    obtain ⟨capable, h⟩ := hop hs rfl
    exact hno capable h
  have hwhole := h
  cases h with
  | created _ _ _ _ _ _ _ _ advanced => rw [advanced.activeKeys]; rfl
  | joined _ _ _ advanced => rw [advanced.activeKeys]; rfl
  | redeemJoined _ _ _ advanced => rw [advanced.activeKeys]; rfl
  | left _ _ advanced => rw [advanced.activeKeys]; rfl
  | edited _ _ _ _ _ _ _ advanced => rw [advanced.activeKeys]; rfl
  | @revoked _ q _ _ revokes _ _ _ purged =>
    have htarget : d ≠ q.deviceId := by
      rintro rfl
      exact hd (by simp [(hwhole.dropped hw revokes).revoked])
    rw [Core.dropKey_activeKeys, Map.lookup_erase, if_neg htarget, purged.activeKeys]
    rfl
  | revokeStopped _ _ _ _ purged stopped => rw [stopped.activeKeys, purged.activeKeys]; rfl
  | keyPublished hpublish _ ticked =>
    rw [ticked.activeKeys]
    exact (Map.lookup_insert _ _ _ _).trans (if_neg (hne hpublish trivial nofun))
  | keyRemoved hremove ticked =>
    rw [ticked.activeKeys]
    exact (Map.lookup_erase _ _ _).trans (if_neg (hne hremove trivial nofun))
  | capableSet _ ticked => rw [ticked.activeKeys]
  | _ => rfl

theorem Chain.key_kept (h : Chain crypto P c c') (hw : c.tables.Wf) (hP : ∀ op, P op → op.KeepsKey d)
    (hd : ¬ c'.revoked d) : c'.activeKeys.lookup d = c.activeKeys.lookup d := by
  induction h with
  | refl => rfl
  | tail rest hop effect ih =>
    have hw₁ := rest.wf hw
    -- a revocation would have lasted
    have hbefore : ¬ _ := fun hrevoked => hd (effect.revoked_mono hw₁ hrevoked)
    exact (effect.key_kept hw₁ (hP _ hop) hd).trans (ih hbefore)

theorem Purged.managementCapable {networks : List NetworkId} (h : Purged d networks c c') :
    c'.managementCapable = c.managementCapable := by
  induction h with
  | nil => rfl
  | cons _ advanced _ ih => exact ih.trans advanced.ticked.managementCapable

theorem Stopped.managementCapable {n : NetworkId} (h : Stopped n d c c') : c'.managementCapable = c.managementCapable := by
  cases h with
  | policy _ _ => rfl
  | counter _ advanced => exact advanced.ticked.managementCapable

/-- Only the declaration of `d` makes it management-capable. -/
theorem Effect.not_capable (h : Effect crypto c op ok c') (hop : op ≠ .setManagementCapable d true)
    (hd : d ∉ c.managementCapable) : d ∉ c'.managementCapable := by
  have hsame (heq : c'.managementCapable = c.managementCapable) : d ∉ c'.managementCapable := heq ▸ hd
  cases h with
  | created _ _ _ _ _ _ _ _ advanced => exact hsame advanced.ticked.managementCapable
  | joined _ _ _ advanced => exact hsame advanced.ticked.managementCapable
  | redeemJoined _ _ _ advanced => exact hsame advanced.ticked.managementCapable
  | left _ _ advanced => exact hsame advanced.ticked.managementCapable
  | edited _ _ _ _ _ _ _ advanced => exact hsame advanced.ticked.managementCapable
  | revoked _ _ _ _ purged => exact hsame purged.managementCapable
  | revokeStopped _ _ _ _ purged stopped => exact hsame (stopped.managementCapable.trans purged.managementCapable)
  | keyPublished _ _ ticked => exact hsame ticked.managementCapable
  | keyRemoved _ ticked =>
    rw [ticked.managementCapable]
    exact fun hmem => hd (Finset.mem_of_mem_erase hmem)
  | @capableSet _ capable _ hdeclare ticked =>
    rw [ticked.managementCapable]
    dsimp only
    split
    · rename_i hcapable
      rw [Finset.mem_insert, not_or]
      refine ⟨?_, hd⟩
      rintro rfl
      exact hop (hcapable ▸ hdeclare)
    · exact fun hmem => hd (Finset.mem_of_mem_erase hmem)
  | _ => exact hsame rfl

theorem Chain.not_capable (h : Chain crypto P c c') (hw : c.tables.Wf) (hP : ∀ op, P op → op ≠ .setManagementCapable d true)
    (hd : d ∉ c.managementCapable) : d ∉ c'.managementCapable :=
  (h.inv (fun c => d ∉ c.managementCapable) (fun _ op _ _ _ hop effect => effect.not_capable (hP op hop)) hw hd).2

end

/-! ## The capability table -/

namespace Channel
variable (crypto : Crypto) (inputs : ChannelInputs) (actor : DeviceId) (requestId : UInt32) {d : DeviceId}

/-- The session and the capabilities filed for `d`. -/
def filed (d : DeviceId) (c : Channel) : Option (SessionId × NegotiatedCapabilities) :=
  (c.sessions.lookup d).map fun e => (e.session, e.negotiated)

/-- The session filed for `d`. -/
def filedSession (d : DeviceId) (c : Channel) : Option SessionId := (c.sessions.lookup d).map (·.session)

theorem leaves_onService {τ α : Type} {f : Channel → τ} (hf : ∀ c s, f { c with service := s } = f c) (x : LanLink.Call α) :
    Leaves f (onService x) := fun c => hf c _

theorem filed_forwardCandidates (x : CandidateExchange) (c : Channel) :
    filed d (forwardCandidates actor requestId x c).2 = filed d c := by
  unfold forwardCandidates
  split
  · rename_i a b ha hb
    dsimp only
    split
    · rfl
    · split
      · rfl
      · -- the entry keeps its session and what it negotiated
        unfold filed
        dsimp only
        rw [Map.lookup_insert]
        split
        · rename_i hd
          rw [hd, ha]
          rfl
        · rfl
  · rfl

/-- A request that is not an offer of `d` leaves the entry of `d`. -/
theorem leaves_filed_dispatch (request : ControlRequest) (h : actor = d → ¬ request.Offers) :
    Leaves (filed d) (dispatch crypto inputs actor requestId request) := by
  have hservice {α : Type} (x : LanLink.Call α) : Leaves (filed d) (onService x) := leaves_onService (fun _ _ => rfl) x
  have hoperation {q : Type} (payload : Except Exn q) (operation : q → ℤ → LanLink.Call NetworkOperationOutcome) :
      Leaves (filed d) (handleOperation inputs requestId payload operation) :=
    .bind (.lift _) fun _ => .bind (.lift _) fun _ => .bind (hservice _) fun _ => .query _
  cases request with
  | management payload =>
    refine .bind (.gets _) fun _ => .ite (.pure _) (.bind (.lift _) fun _ => .bind (.lift _) fun _ => ?_)
    exact .bind (hservice _) fun _ => .query _
  | access payload =>
    refine .bind (.lift _) fun _ => .bind (.gets _) fun _ => .ite (.pure _) (.bind (.lift _) fun _ => ?_)
    exact .bind (hservice _) fun _ => .query _
  | candidates payload =>
    refine .bind (.lift _) fun x => .bind (hservice _) fun _ => .ite (.pure _) ?_
    exact .update (filed_forwardCandidates actor requestId x)
  | capabilityOffer payload =>
    refine .bind (.lift _) fun _ => .bind (.lift _) fun _ => .bind (.gets _) fun session => ?_
    cases session with
    | none => exact .pure _
    | some session =>
      refine .bind (.modify fun c => ?_) fun _ => .bind (hservice _) fun _ => .query _
      have hne : d ≠ actor := by
        rintro rfl
        exact h rfl trivial
      change filed d _ = filed d c
      unfold filed
      dsimp only
      rw [Map.lookup_insert, if_neg hne]
  | list payload => exact .bind (.lift _) fun _ => .bind (.lift _) fun _ => .bind (hservice _) fun _ => .lift _
  | peerState payload =>
    refine .bind (.lift _) fun _ => .bind (.lift _) fun _ => .bind (hservice _) fun _ => ?_
    exact .bind (.gets _) fun _ => .lift _
  | keyPublish payload => exact .bind (.lift _) fun _ => .bind (hservice _) fun _ => .lift _
  | other => exact .throw _
  | create payload => exact hoperation payload _
  | join payload => exact hoperation payload _
  | leave payload => exact hoperation payload _
  | invite payload => exact hoperation payload _
  | approve payload => exact hoperation payload _
  | kick payload => exact hoperation payload _

/-- An offer is filed with the session that is there. -/
theorem leaves_filedSession_handleOffer (payload : Except Exn CapabilityOffer) :
    Leaves (filedSession d) (handleOffer actor requestId payload) := by
  refine .bind (.lift _) fun _ => .bind (.lift _) fun negotiated c => ?_
  change Post _ c fun _ c' => filedSession d c' = filedSession d c
  rw [post_gets_bind]
  cases hentry : c.sessions.lookup actor with
  | none => exact rfl
  | some session =>
    rw [post_bind, post_modify]
    have hfiled : filedSession d { c with sessions := c.sessions.insert actor { session with negotiated } } =
        filedSession d c := by
      unfold filedSession
      dsimp only
      rw [Map.lookup_insert]
      split
      · rename_i hd
        rw [hd, hentry]
        rfl
      · rfl
    have hrest : Leaves (filedSession d)
        (onService (Service.setManagementCapable actor (negotiated.supports .managedNetworks)) >>= fun changes =>
          query fun c => do
            let response ← (ControlMessage.capabilitySelection negotiated).encode
            let events ← c.encodePeerChanges changes
            .ok ({ requestId, response, events } : ControlDispatch)) :=
      .bind (leaves_onService (fun _ _ => rfl) _) fun _ => .query _
    exact (hrest _).trans hfiled

theorem filedSession_eq (d : DeviceId) (c : Channel) : filedSession d c = (filed d c).map (·.1) := by
  unfold filedSession filed
  rw [Option.map_map]
  rfl

theorem filedSession_of_filed {c c' : Channel} (h : filed d c' = filed d c) : filedSession d c' = filedSession d c := by
  rw [filedSession_eq, filedSession_eq, h]

/-- A request keeps the entries of the capability table under their sessions. -/
theorem leaves_filedSession_handle (f : ControlFrame) :
    Leaves (filedSession d) (handleAuthenticated crypto inputs actor f) := by
  refine .bind (.lift _) fun _ => .bind (leaves_onService (fun _ _ => rfl) _) fun _ => .ite (.pure _) ?_
  refine .tryCatch (.bind (.gets _) fun _ => .ite (.pure _) ?_) fun _ => .pure _
  by_cases hoffer : f.request.Offers
  · cases hrequest : f.request with
    | capabilityOffer payload => exact leaves_filedSession_handleOffer actor f.requestId payload
    | _ =>
      rw [hrequest] at hoffer
      cases hoffer
  · intro c
    exact filedSession_of_filed (leaves_filed_dispatch crypto inputs actor f.requestId f.request (fun _ => hoffer) c)

theorem leaves_filed_handle (f : ControlFrame) (h : actor = d → ¬ f.request.Offers) :
    Leaves (filed d) (handleAuthenticated crypto inputs actor f) := by
  refine .bind (.lift _) fun _ => .bind (leaves_onService (fun _ _ => rfl) _) fun _ => .ite (.pure _) ?_
  refine .tryCatch (.bind (.gets _) fun _ => .ite (.pure _) ?_) fun _ => .pure _
  exact leaves_filed_dispatch crypto inputs actor f.requestId f.request h

end Channel

/-! ## Session keys -/

namespace Service
variable {s : Service} {d : DeviceId} {session : SessionId} {key : SignedDeviceKey} {t : ℤ}

/-- A key that is good is published, whatever happens to the announcements. -/
theorem publishDeviceKey_publishes {crypto : Crypto} (hd : d ≠ 0) (ht : 0 ≤ t) (hsession : session ≠ 0)
    (hsigned : verifySignedDeviceKey crypto key d) (hallowed : ¬ s.core.revoked d) :
    Post (publishDeviceKey crypto d session key t) s fun _ s' =>
      s'.activeKeys = s.activeKeys.insert d ⟨session, key⟩ := by
  have hactor : requireActorAndTime d t = .ok () := by rw [requireActorAndTime, check_of hd, ok_bind, check_of ht]
  unfold publishDeviceKey
  rw [hactor, check_of ⟨hsession, hsigned⟩]
  refine post_lift_ok rfl (post_lift_ok rfl ?_)
  refine post_write (fun _ db hdb => ?_) fun e he => ?_
  swap
  · rw [Db.recordDevice, requireDeviceId, check_of hd, ok_bind, requireTimestamp, check_of ht, ok_bind] at he
    cases he
  have hcore : ({ s with store := db } : Service).core = s.core := core_store (Db.recordDevice_ok hdb).2.2.1
  rw [post_gets_bind, deviceAllowed_eq, hcore, if_neg (by simpa using hallowed), post_bind, post_modify]
  refine post_read (fun networks hnets => ?_) fun _ _ => rfl
  refine Post.mono (collect_announceKey ?_) fun _ s' h => ?_
  · exact hnets
  · exact h.activeKeys

theorem removeDeviceKey_removes {a : ActiveKey} (ha : s.activeKeys.lookup d = some a) :
    Post (removeDeviceKey d a.sessionId) s fun _ s' => s'.activeKeys = s.activeKeys.erase d := by
  unfold removeDeviceKey
  rw [post_gets_bind, ha, if_pos (by simp), post_bind, post_modify]
  refine post_read (fun networks hnets => ?_) fun _ _ => rfl
  refine Post.mono (collect_announceKey ?_) fun _ s' h => ?_
  · exact hnets
  · exact h.activeKeys

theorem removeDeviceKey_other (h : ∀ a, s.activeKeys.lookup d = some a → a.sessionId ≠ session) :
    removeDeviceKey d session s = (.ok [], s) := by
  have hnone : ¬ (s.activeKeys.lookup d).any fun k => k.sessionId = session := by
    rw [Option.any_eq_true]
    rintro ⟨a, ha, heq⟩
    exact h a ha (of_decide_eq_true heq)
  change (if (s.activeKeys.lookup d).any fun k => k.sessionId = session then _ else pure [] : Call _) s = _
  rw [if_neg hnone]
  rfl

theorem setManagementCapable_ticked (capable : Bool) :
    Post (setManagementCapable d capable) s fun _ s' =>
      Ticked (fun _ => False) (fun _ => True) (s.withCapability d capable).core s'.core := by
  rw [setManagementCapable_eq, post_bind, post_modify]
  exact post_read (fun networks _ => collect_announceCapability networks) fun _ _ => .refl _

/-- Where its managed networks have a revision left, a device loses its capability and all of them are told. -/
theorem setManagementCapable_succeeds {capable : Bool} (hw : s.tables.Wf) (hd : d ≠ 0)
    (hroom : ∀ n, (n, d) ∈ s.tables.memberships → (s.tables.policy n).managed → ¬ s.core.RevisionFull n) :
    Post (setManagementCapable d capable) s fun r _ => ∃ xs, r = .ok xs := by
  rw [setManagementCapable_eq, post_bind, post_modify]
  refine post_read (fun networks hnets => ?_) fun e he => absurd (listNetworksForDevice_error he) hd
  refine Post.mono (raises_announceCapability ?_ hnets ?_) fun _ _ h => h.1
  · exact hw
  · exact hroom

end Service

/-! ## Events of a relay -/

/-- What happens at a relay: a call of the channel, or one of the service that goes past the capability table, as
packets and peer states do. -/
inductive RelayEvent
  | channel (e : ChannelEvent)
  | service (op : Op) (inputs : Inputs)

namespace RelayEvent

/-- The event authenticates `d` with the session and key `a`. -/
def Authenticates (d : DeviceId) (a : ActiveKey) : RelayEvent → Prop
  | .channel (.noteAuthenticated actor session key _) => actor = d ∧ a = ⟨session, key⟩
  | _ => False

/-- The event ends the session of `d`: it authenticates another one, it is the disconnect, or the relay restarts. -/
def Ends (d : DeviceId) (session : SessionId) : RelayEvent → Prop
  | .channel (.noteAuthenticated actor _ _ _) => actor = d
  | .channel (.noteDisconnected actor old) => actor = d ∧ old = session
  | .channel .restart => True
  | _ => False

/-- A capability offer of `d`. -/
def Offers (d : DeviceId) : RelayEvent → Prop
  | .channel (.handle actor f _) => actor = d ∧ f.request.Offers
  | _ => False

/-- Sessions of `d` have an id and a key that `d` signed, and only the channel changes them. -/
def Proper (crypto : Crypto) (d : DeviceId) : RelayEvent → Prop
  | .channel (.noteAuthenticated actor session key _) => actor = d → session ≠ 0 ∧ verifySignedDeviceKey crypto key d
  | .channel (.noteDisconnected actor session) => actor = d → session ≠ 0
  | .service op _ => op.Session → op.actor ≠ d
  | _ => True

/-- An authentication of `d` gets as far as the key table: the clock is good, and each managed network of `d` has a
revision left. -/
def Unhindered (d : DeviceId) (c : Channel) : RelayEvent → Prop
  | .channel (.noteAuthenticated actor _ _ inputs) => actor = d → 0 ≤ inputs.timeMs ∧
      ∀ n, (n, d) ∈ c.service.tables.memberships → (c.service.tables.policy n).managed → ¬ c.service.core.RevisionFull n
  | _ => True

end RelayEvent

/-- `a` is the session and key that `d` was authenticated with last, and it has not ended since. -/
def LiveSession (events : ℕ → RelayEvent) (d : DeviceId) (k : ℕ) (a : ActiveKey) : Prop :=
  ∃ j < k, (events j).Authenticates d a ∧ ∀ i, j < i → i < k → ¬ (events i).Ends d a.sessionId

theorem liveSession_succ {events : ℕ → RelayEvent} {d : DeviceId} {k : ℕ} {a : ActiveKey} :
    LiveSession events d (k + 1) a ↔
      (events k).Authenticates d a ∨ (LiveSession events d k a ∧ ¬ (events k).Ends d a.sessionId) := by
  constructor
  · rintro ⟨j, hj, hauth, hlast⟩
    rcases Nat.lt_succ_iff_lt_or_eq.1 hj with hlt | rfl
    · exact .inr ⟨⟨j, hlt, hauth, fun i hi hik => hlast i hi (by omega)⟩, hlast k hlt (by omega)⟩
    · exact .inl hauth
  · rintro (hauth | ⟨⟨j, hj, hauth, hlast⟩, hends⟩)
    · exact ⟨k, by omega, hauth, fun i hi hik => by omega⟩
    · refine ⟨j, by omega, hauth, fun i hi hik => ?_⟩
      rcases Nat.lt_succ_iff_lt_or_eq.1 hik with hlt | rfl
      · exact hlast i hi hlt
      · exact hends

namespace Channel

def relayStep (crypto : Crypto) (c : Channel) : RelayEvent → Channel
  | .channel e => c.step crypto e
  | .service op inputs => { c with service := (Service.perform crypto inputs op c.service).2 }

/-- The channel of a new relay after `k` events. -/
def relayRun (crypto : Crypto) (events : ℕ → RelayEvent) (k : ℕ) : Channel :=
  states (relayStep crypto) { service := .fresh {} } events k

/-! ## The tables follow the sessions -/

/-- The tables of the relay say of `d` what `live` says. -/
structure Tracks (d : DeviceId) (live : ActiveKey → Prop) (c : Channel) : Prop where
  wf : c.service.tables.Wf
  key : ∀ a, c.service.activeKeys.lookup d = some a ↔ live a
  session : ∀ id, filedSession d c = some id → id = 0 ∨ ∃ a, live a ∧ a.sessionId = id

/-- Nothing is negotiated for `d`. -/
def Unnegotiated (d : DeviceId) (c : Channel) : Prop :=
  c.capabilities d = {} ∧ d ∉ c.service.managementCapable

section
variable {crypto : Crypto} {c c' : Channel} {d : DeviceId} {live : ActiveKey → Prop}

theorem post_onService {α : Type} {x : LanLink.Call α} {Q : Except Exn α → Channel → Prop} :
    Post (onService x) c Q ↔ Post x c.service fun r s' => Q r { c with service := s' } := Iff.rfl

/-- A change of the state in which `d` keeps its key and its entry. -/
theorem Tracks.kept (h : Tracks d live c) (hw : c'.service.tables.Wf)
    (hkey : c'.service.activeKeys.lookup d = c.service.activeKeys.lookup d)
    (hsession : ∀ id, filedSession d c' = some id → id = 0 ∨ filedSession d c = some id) : Tracks d live c' where
  wf := hw
  key a := by rw [hkey]; exact h.key a
  session id hid := by
    rcases hsession id hid with hzero | hold
    · exact .inl hzero
    · exact h.session id hold

/-- After an authentication that is not hindered, the tables are those of the new session. -/
theorem noteAuthenticated_tracks {inputs : ChannelInputs} {session : SessionId} {key : SignedDeviceKey}
    (hw : c.service.tables.Wf) (hd : d ≠ 0) (hsession : session ≠ 0) (hsigned : verifySignedDeviceKey crypto key d)
    (hallowed : ¬ c.service.core.revoked d) (hclock : 0 ≤ inputs.timeMs)
    (hroom : ∀ n, (n, d) ∈ c.service.tables.memberships → (c.service.tables.policy n).managed →
      ¬ c.service.core.RevisionFull n) :
    Post (noteAuthenticated crypto inputs d session key) c fun _ c' =>
      c'.service.activeKeys.lookup d = some ⟨session, key⟩ ∧ filedSession d c' = some session := by
  unfold noteAuthenticated
  rw [post_bind, post_modify, post_bind, post_onService]
  have hcapable := (Service.setManagementCapable_ticked (s := c.service) (d := d) false).and
    (Service.setManagementCapable_succeeds hw hd hroom)
  refine hcapable.mono fun r s₁ h₁ => ?_
  obtain ⟨hticked, xs, rfl⟩ := h₁
  dsimp only
  have hallowed₁ : ¬ s₁.core.revoked d := by
    rw [Core.revoked, hticked.tables]
    exact hallowed
  rw [nowMs, if_neg (by omega)]
  refine post_lift_ok rfl ?_
  rw [post_bind, post_onService]
  refine (Service.publishDeviceKey_publishes hd hclock hsession hsigned hallowed₁).mono fun r s₂ hkeys => ?_
  have htables : s₂.activeKeys.lookup d = some ⟨session, key⟩ ∧
      filedSession d ⟨s₂, c.sessions.insert d { session }⟩ = some session := by
    constructor
    · rw [hkeys, Map.lookup_insert, if_pos rfl]
    · rw [filedSession, Map.lookup_insert, if_pos rfl]
      rfl
  cases r <;> exact htables

/-- Right after an authentication nothing is negotiated, however far the call came. -/
theorem noteAuthenticated_unnegotiated {inputs : ChannelInputs} {session : SessionId} {key : SignedDeviceKey} :
    Post (noteAuthenticated crypto inputs d session key) c fun _ => Unnegotiated d := by
  have hcapabilities (s : Service) : (⟨s, c.sessions.insert d { session }⟩ : Channel).capabilities d = {} := by
    rw [capabilities, Map.lookup_insert, if_pos rfl]
  unfold noteAuthenticated
  rw [post_bind, post_modify, post_bind, post_onService]
  refine (Service.setManagementCapable_ticked (s := c.service) (d := d) false).mono fun r s₁ hticked => ?_
  have hdropped : d ∉ s₁.managementCapable := by
    rw [show s₁.managementCapable = c.service.managementCapable.erase d from hticked.managementCapable]
    exact Finset.notMem_erase d _
  cases r with
  | error e => exact ⟨hcapabilities s₁, hdropped⟩
  | ok xs =>
    refine post_lift_bind (fun t _ => ?_) fun _ => ⟨hcapabilities s₁, hdropped⟩
    rw [post_bind, post_onService]
    refine (Service.publishDeviceKey_effect crypto).mono fun r s₂ heffect => ?_
    have hcapable : d ∉ s₂.managementCapable := (heffect true).not_capable nofun hdropped
    cases r <;> exact ⟨hcapabilities s₂, hcapable⟩

/-- The disconnect of a session that is not the current one does nothing. -/
theorem noteDisconnected_other (h : Tracks d live c) {session : SessionId} (hsession : session ≠ 0)
    (hother : ∀ a, live a → a.sessionId ≠ session) : noteDisconnected d session c = (.ok [], c) := by
  have hentry : ¬ (c.sessions.lookup d).any fun e => e.session = session := by
    rw [Option.any_eq_true]
    rintro ⟨e, he, heq⟩
    have hfiled : filedSession d c = some session := by
      rw [filedSession, he, Option.map_some, of_decide_eq_true heq]
    rcases h.session session hfiled with hzero | ⟨a, ha, hid⟩
    · exact hsession hzero
    · exact hother a ha hid
  have hremove : Post (Service.removeDeviceKey d session) c.service fun r s' => r = .ok [] ∧ s' = c.service := by
    unfold Post
    rw [Service.removeDeviceKey_other fun a ha => hother a ((h.key a).1 ha)]
    exact ⟨rfl, rfl⟩
  suffices Post (noteDisconnected d session) c fun r c' => (r, c') = (.ok [], c) from this
  unfold noteDisconnected
  rw [post_bind, post_modify, if_neg hentry, post_bind, post_onService]
  refine hremove.mono ?_
  rintro _ _ ⟨rfl, rfl⟩
  rfl

/-- After the disconnect of the current session `d` has no key. -/
theorem noteDisconnected_current (h : Tracks d live c) {a : ActiveKey} (ha : live a) :
    Post (noteDisconnected d a.sessionId) c fun _ c' => c'.service.activeKeys.lookup d = none ∧
      ∀ id, filedSession d c' = some id → id = 0 := by
  have hkey := (h.key a).2 ha
  unfold noteDisconnected
  rw [post_bind, post_modify]
  set c₁ := if (c.sessions.lookup d).any fun e => e.session = a.sessionId then { c with sessions := c.sessions.erase d }
    else c with hc₁
  have hservice : c₁.service = c.service := by
    rw [hc₁]
    split <;> rfl
  have hfiled : ∀ id, filedSession d c₁ = some id → id = 0 := by
    intro id hid
    rw [hc₁] at hid
    split at hid
    · rw [filedSession, Map.lookup_erase, if_pos rfl] at hid
      cases hid
    · rename_i hentry
      rcases h.session id hid with hzero | ⟨b, hb, rfl⟩
      · exact hzero
      · -- the entry would be the one of the session that ends
        have hba := (h.key b).2 hb
        rw [hkey, Option.some.injEq] at hba
        subst hba
        obtain ⟨e, he, hid⟩ := Option.map_eq_some_iff.1 hid
        rw [he] at hentry
        exact absurd (by simpa using hid) hentry
  rw [post_bind, post_onService, hservice]
  refine (Service.removeDeviceKey_removes hkey).mono fun r s' hkeys => ?_
  have hgone : s'.activeKeys.lookup d = none ∧ ∀ id, filedSession d { c₁ with service := s' } = some id → id = 0 := by
    refine ⟨?_, hfiled⟩
    rw [hkeys, Map.lookup_erase, if_pos rfl]
  cases r <;> exact hgone

end

/-! ## Steps and runs -/

section
variable {crypto : Crypto} {c : Channel} {d : DeviceId} {live : ActiveKey → Prop}

/-- The sessions of `d` after an event. -/
def after (d : DeviceId) (live : ActiveKey → Prop) (e : RelayEvent) (a : ActiveKey) : Prop :=
  e.Authenticates d a ∨ (live a ∧ ¬ e.Ends d a.sessionId)

theorem after_of_not {e : RelayEvent} (hauth : ∀ a, ¬ e.Authenticates d a) (hends : ∀ id, ¬ e.Ends d id) :
    after d live e = live := by
  funext a
  simp [after, hauth, hends]

theorem leaves_filed_noteAuthenticated {inputs : ChannelInputs} {actor : DeviceId} {session : SessionId}
    {key : SignedDeviceKey} (hne : d ≠ actor) : Leaves (filed d) (noteAuthenticated crypto inputs actor session key) := by
  refine .bind (.modify fun c => ?_) fun _ => .bind (leaves_onService (fun _ _ => rfl) _) fun _ => .bind (.lift _) fun _ => ?_
  · change filed d _ = filed d c
    unfold filed
    rw [Map.lookup_insert, if_neg hne]
  · exact .bind (leaves_onService (fun _ _ => rfl) _) fun _ => .query _

/-- A disconnect drops the entry, or leaves it. -/
theorem filed_noteDisconnected (actor : DeviceId) (session : SessionId) (c : Channel) :
    Post (noteDisconnected actor session) c fun _ c' => filed d c' = none ∨ filed d c' = filed d c := by
  unfold noteDisconnected
  rw [post_bind, post_modify]
  set c₁ := if (c.sessions.lookup actor).any fun e => e.session = session then
    { c with sessions := c.sessions.erase actor } else c with hc₁
  have hfirst : filed d c₁ = none ∨ filed d c₁ = filed d c := by
    rw [hc₁]
    split
    · unfold filed
      dsimp only
      rw [Map.lookup_erase]
      split
      · exact .inl rfl
      · exact .inr rfl
    · exact .inr rfl
  have hrest : Leaves (filed d) (onService (Service.removeDeviceKey actor session) >>= fun changes =>
      query fun c => c.encodePeerChanges changes) := .bind (leaves_onService (fun _ _ => rfl) _) fun _ => .query _
  rw [← hrest c₁] at hfirst
  exact hfirst

/-- The overload without a session files the zero session, or nothing. -/
theorem filed_noteDevice (inputs : ChannelInputs) (actor : DeviceId) (c : Channel) :
    Post (noteDevice inputs actor) c fun _ c' => filed d c' = some (0, {}) ∨ filed d c' = filed d c := by
  refine post_lift_bind (fun t _ => ?_) fun _ => .inr rfl
  rw [post_bind, post_onService]
  unfold Post
  generalize Service.recordAuthenticatedDevice actor t c.service = result
  obtain ⟨r, s'⟩ := result
  cases r with
  | error e => exact .inr rfl
  | ok _ =>
    have hlookup : filed d ⟨s', c.sessions.insert actor {}⟩ = if d = actor then some (0, {}) else filed d c := by
      rw [filed, Map.lookup_insert]
      split <;> rfl
    by_cases hactor : d = actor
    · exact .inl (hlookup.trans (if_pos hactor))
    · exact .inr (hlookup.trans (if_neg hactor))

theorem tracks_noteAuthenticated (h : Tracks d live c) (hd : d ≠ 0) {actor : DeviceId} {session : SessionId}
    {key : SignedDeviceKey} {inputs : ChannelInputs}
    (hproper : RelayEvent.Proper crypto d (.channel (.noteAuthenticated actor session key inputs)))
    (hclear : RelayEvent.Unhindered d c (.channel (.noteAuthenticated actor session key inputs)))
    (hallowed : ¬ c.service.core.revoked d)
    (hallowed' : ¬ (noteAuthenticated crypto inputs actor session key c).2.service.core.revoked d) :
    Tracks d (after d live (.channel (.noteAuthenticated actor session key inputs)))
      (noteAuthenticated crypto inputs actor session key c).2 := by
  have hcalls := calls_noteAuthenticated crypto inputs actor session key c h.wf
  by_cases hactor : actor = d
  · subst hactor
    obtain ⟨hsession, hsigned⟩ := hproper rfl
    obtain ⟨hclock, hroom⟩ := hclear rfl
    obtain ⟨hkey, hfiled⟩ := noteAuthenticated_tracks h.wf hd hsession hsigned hallowed hclock hroom
    have hafter (a : ActiveKey) : after actor live (.channel (.noteAuthenticated actor session key inputs)) a ↔
        a = ⟨session, key⟩ := by
      simp [after, RelayEvent.Authenticates, RelayEvent.Ends]
    refine ⟨hcalls.wf h.wf, fun a => ?_, fun id hid => .inr ⟨⟨session, key⟩, (hafter _).2 rfl, ?_⟩⟩
    · rw [hafter, hkey, Option.some.injEq, eq_comm]
    · rw [hfiled, Option.some.injEq] at hid
      exact hid
  · have hsame : after d live (.channel (.noteAuthenticated actor session key inputs)) = live :=
      after_of_not (fun a ha => hactor ha.1) fun _ => hactor
    rw [hsame]
    refine h.kept (hcalls.wf h.wf) (hcalls.key_kept h.wf (fun op hop _ ha => absurd (hop.1.symm.trans ha) hactor) hallowed')
      fun id hid => .inr ?_
    rw [← filedSession_of_filed (leaves_filed_noteAuthenticated (Ne.symm hactor) c)]
    exact hid

theorem tracks_noteDisconnected (crypto : Crypto) (h : Tracks d live c) {actor : DeviceId} {session : SessionId}
    (hproper : actor = d → session ≠ 0)
    (hallowed' : ¬ (noteDisconnected actor session c).2.service.core.revoked d) :
    Tracks d (after d live (.channel (.noteDisconnected actor session))) (noteDisconnected actor session c).2 := by
  have hcalls := calls_noteDisconnected crypto actor session c h.wf
  by_cases hactor : actor = d
  · subst hactor
    have hafter (a : ActiveKey) : after actor live (.channel (.noteDisconnected actor session)) a ↔
        live a ∧ a.sessionId ≠ session := by
      simp [after, RelayEvent.Authenticates, RelayEvent.Ends, eq_comm]
    by_cases hlive : ∃ a, live a ∧ a.sessionId = session
    · obtain ⟨a, ha, rfl⟩ := hlive
      obtain ⟨hkey, hfiled⟩ := noteDisconnected_current h ha
      refine ⟨hcalls.wf h.wf, fun b => ?_, fun id hid => .inl (hfiled id hid)⟩
      rw [hafter, hkey]
      refine ⟨nofun, fun hb => absurd ?_ hb.2⟩
      have hab := (h.key b).2 hb.1
      rw [(h.key a).2 ha, Option.some.injEq] at hab
      rw [hab]
    · have hother : ∀ a, live a → a.sessionId ≠ session := fun a ha heq => hlive ⟨a, ha, heq⟩
      have hsame : after actor live (.channel (.noteDisconnected actor session)) = live := by
        funext a
        rw [hafter]
        exact propext ⟨And.left, fun ha => ⟨ha, hother a ha⟩⟩
      rw [noteDisconnected_other h (hproper rfl) hother, hsame]
      exact h
  · have hsame : after d live (.channel (.noteDisconnected actor session)) = live :=
      after_of_not (fun _ => not_false) fun _ he => hactor he.1
    rw [hsame]
    refine h.kept (hcalls.wf h.wf) (hcalls.key_kept h.wf (fun op hop _ ha => ?_) hallowed') fun id hid => .inr ?_
    · rw [hop] at ha
      exact absurd ha hactor
    · rcases filed_noteDisconnected (d := d) actor session c with hnone | hold
      · rw [filedSession_eq, hnone] at hid
        cases hid
      · rw [← filedSession_of_filed hold]
        exact hid

/-- The tables follow the sessions through every event. -/
theorem tracks_step (h : Tracks d live c) (hd : d ≠ 0) {e : RelayEvent} (hproper : e.Proper crypto d)
    (hclear : e.Unhindered d c) (hallowed : ¬ c.service.core.revoked d)
    (hallowed' : ¬ (c.relayStep crypto e).service.core.revoked d) :
    Tracks d (after d live e) (c.relayStep crypto e) := by
  cases e with
  | service op inputs =>
    have heffect := Service.perform_effect crypto inputs op h.wf
    have hsame : after d live (.service op inputs) = live := after_of_not (fun _ => not_false) fun _ => not_false
    rw [hsame]
    refine h.kept (heffect.wf h.wf) ?_ fun id hid => .inr hid
    exact heffect.key_kept h.wf (fun hs ha => absurd ha (hproper hs)) hallowed'
  | channel e =>
    cases e with
    | noteDevice actor inputs =>
      have hcalls := calls_noteDevice crypto inputs actor c h.wf
      have hsame : after d live (.channel (.noteDevice actor inputs)) = live :=
        after_of_not (fun _ => not_false) fun _ => not_false
      rw [hsame]
      refine h.kept (hcalls.wf h.wf) (hcalls.key_kept h.wf (fun op hop hs => absurd hs hop.2.2) hallowed') fun id hid => ?_
      change filedSession d (noteDevice inputs actor c).2 = some id at hid
      rcases filed_noteDevice (d := d) inputs actor c with hzero | hold
      · rw [filedSession_eq, hzero] at hid
        cases hid
        exact .inl rfl
      · rw [← filedSession_of_filed hold]
        exact .inr hid
    | noteAuthenticated actor session key inputs =>
      exact tracks_noteAuthenticated h hd hproper hclear hallowed hallowed'
    | noteDisconnected actor session => exact tracks_noteDisconnected crypto h hproper hallowed'
    | handle actor f inputs =>
      have hcalls := calls_handleAuthenticated crypto inputs actor f c h.wf
      have hsame : after d live (.channel (.handle actor f inputs)) = live :=
        after_of_not (fun _ => not_false) fun _ => not_false
      rw [hsame]
      refine h.kept (hcalls.wf h.wf) (hcalls.key_kept h.wf ?_ hallowed') fun id hid => .inr ?_
      · rintro op ⟨hactor, hserves⟩ hs ha
        obtain ⟨-, capable, rfl⟩ := hserves hs
        exact ⟨capable, by rw [← ha]; rfl⟩
      · rw [← hid]
        exact (leaves_filedSession_handle crypto inputs actor f c).symm
    | restart =>
      refine ⟨h.wf, fun a => ⟨nofun, ?_⟩, nofun⟩
      rintro (hauth | ⟨-, hends⟩)
      · exact absurd hauth not_false
      · exact absurd trivial hends

theorem capabilities_eq (d : DeviceId) (c : Channel) : c.capabilities d = ((filed d c).map (·.2)).getD {} := by
  unfold capabilities filed
  cases c.sessions.lookup d <;> rfl

theorem Unnegotiated.kept {c' : Channel} (h : Unnegotiated d c) (hfiled : filed d c' = filed d c)
    (hcapable : d ∉ c'.service.managementCapable) : Unnegotiated d c' := by
  refine ⟨?_, hcapable⟩
  rw [capabilities_eq, hfiled, ← capabilities_eq]
  exact h.1

/-- Only an offer of `d` negotiates for `d`. -/
theorem unnegotiated_step (hw : c.service.tables.Wf) {e : RelayEvent} (hproper : e.Proper crypto d)
    (hoffer : ¬ e.Offers d) (h : Unnegotiated d c) : Unnegotiated d (c.relayStep crypto e) := by
  cases e with
  | service op inputs =>
    refine h.kept rfl ((Service.perform_effect crypto inputs op hw).not_capable ?_ h.2)
    rintro rfl
    exact hproper trivial rfl
  | channel e =>
    cases e with
    | noteDevice actor inputs =>
      have hcapable := (calls_noteDevice crypto inputs actor c hw).not_capable hw (d := d)
        (fun op hop heq => hop.2.2 (heq ▸ trivial)) h.2
      rcases filed_noteDevice (d := d) inputs actor c with hzero | hold
      · refine ⟨?_, hcapable⟩
        change (noteDevice inputs actor c).2.capabilities d = {}
        rw [capabilities_eq, hzero]
        rfl
      · exact h.kept hold hcapable
    | noteAuthenticated actor session key inputs =>
      by_cases hactor : actor = d
      · subst hactor
        exact noteAuthenticated_unnegotiated
      · refine h.kept (leaves_filed_noteAuthenticated (Ne.symm hactor) c) ?_
        refine (calls_noteAuthenticated crypto inputs actor session key c hw).not_capable hw (fun op hop heq => hactor ?_) h.2
        rw [← hop.1, heq]
        rfl
    | noteDisconnected actor session =>
      have hcapable := (calls_noteDisconnected crypto actor session c hw).not_capable hw (d := d)
        (fun op hop heq => by rw [hop] at heq; cases heq) h.2
      rcases filed_noteDisconnected (d := d) actor session c with hnone | hold
      · refine ⟨?_, hcapable⟩
        change (noteDisconnected actor session c).2.capabilities d = {}
        rw [capabilities_eq, hnone]
        rfl
      · exact h.kept hold hcapable
    | handle actor f inputs =>
      have hactor : actor = d → ¬ f.request.Offers := fun ha ho => hoffer ⟨ha, ho⟩
      refine h.kept (leaves_filed_handle crypto inputs actor f hactor c) ?_
      refine (calls_handleAuthenticated crypto inputs actor f c hw).not_capable hw (fun op hop heq => ?_) h.2
      subst heq
      exact hactor hop.1.symm (hop.2 trivial).1
    | restart => exact ⟨rfl, Finset.notMem_empty d⟩

end

section
variable (crypto : Crypto) (events : ℕ → RelayEvent) {d : DeviceId}

theorem relayRun_succ (k : ℕ) : relayRun crypto events (k + 1) = relayStep crypto (relayRun crypto events k) (events k) := rfl

theorem tracks_relayRun (hd : d ≠ 0) (hproper : ∀ k, (events k).Proper crypto d)
    (hallowed : ∀ k, ¬ (relayRun crypto events k).service.core.revoked d)
    (hclear : ∀ k, (events k).Unhindered d (relayRun crypto events k)) (k : ℕ) :
    Tracks d (LiveSession events d k) (relayRun crypto events k) := by
  induction k with
  | zero =>
    refine ⟨Service.wf_run crypto (fun _ => .restart) 0, fun a => ⟨nofun, ?_⟩, nofun⟩
    rintro ⟨j, hj, -⟩
    omega
  | succ k ih =>
    have hlive : LiveSession events d (k + 1) = after d (LiveSession events d k) (events k) := by
      funext a
      exact propext liveSession_succ
    rw [hlive, relayRun_succ]
    exact tracks_step ih hd (hproper k) (hclear k) (hallowed k) (hallowed (k + 1))

theorem unnegotiated_relayRun (hproper : ∀ k, (events k).Proper crypto d)
    (hw : ∀ k, (relayRun crypto events k).service.tables.Wf) {j : ℕ} (hauth : ∃ a, (events j).Authenticates d a)
    {k : ℕ} (hjk : j < k) (hoffer : ∀ i, j < i → i < k → ¬ (events i).Offers d) :
    Unnegotiated d (relayRun crypto events k) := by
  induction k, hjk using Nat.le_induction with
  | base =>
    obtain ⟨a, ha⟩ := hauth
    rw [relayRun_succ]
    cases he : events j with
    | service op inputs =>
      rw [he] at ha
      cases ha
    | channel e =>
      rw [he] at ha
      cases e with
      | noteAuthenticated actor session key inputs =>
        obtain ⟨rfl, -⟩ := ha
        exact noteAuthenticated_unnegotiated
      | _ => cases ha
  | succ k hk ih =>
    rw [relayRun_succ]
    exact unnegotiated_step (hw k) (hproper k) (hoffer k hk (by omega)) (ih fun i hi hik => hoffer i hi (by omega))

/-- The session authenticated last is the one the relay knows, until it ends; the disconnect of another changes
nothing; and a new session starts without capabilities. -/
theorem session_supersession (hd : d ≠ 0) (hproper : ∀ k, (events k).Proper crypto d)
    (hallowed : ∀ k, ¬ (relayRun crypto events k).service.core.revoked d)
    (hclear : ∀ k, (events k).Unhindered d (relayRun crypto events k)) (k : ℕ) :
    (∀ a, (relayRun crypto events k).service.activeKeys.lookup d = some a ↔ LiveSession events d k a) ∧
    (∀ session, events k = .channel (.noteDisconnected d session) →
      (∀ a, LiveSession events d k a → a.sessionId ≠ session) →
        noteDisconnected d session (relayRun crypto events k) = (.ok [], relayRun crypto events k)) ∧
    ∀ j < k, (∃ a, (events j).Authenticates d a) → (∀ i, j < i → i < k → ¬ (events i).Offers d) →
      (relayRun crypto events k).capabilities d = {} ∧ d ∉ (relayRun crypto events k).service.managementCapable := by
  have htracks := tracks_relayRun crypto events hd hproper hallowed hclear
  refine ⟨(htracks k).key, fun session hevent hother => ?_, fun j hj hauth hoffer => ?_⟩
  · have hsession : session ≠ 0 := by
      have hk := hproper k
      rw [hevent] at hk
      exact hk rfl
    exact noteDisconnected_other (htracks k) hsession hother
  · exact unnegotiated_relayRun crypto events hproper (fun k => (htracks k).wf) hauth hj hoffer

end

/-! The laptop connects twice; the clock shows `t` at the second time. -/

open Service (plainCrypto laptop keyOf)

def earlier : ActiveKey := ⟨1, keyOf laptop⟩

def later : ActiveKey := ⟨2, { keyOf laptop with encryptionPublicKey := 4 }⟩

def reconnectingAt (t : ℤ) : ℕ → RelayEvent
  | 0 => .channel (.noteAuthenticated laptop earlier.sessionId earlier.signedKey {})
  | 1 => .channel (.noteAuthenticated laptop later.sessionId later.signedKey { timeMs := t })
  | _ => .channel .restart

theorem reconnectingAt_proper (t : ℤ) (k : ℕ) : (reconnectingAt t k).Proper plainCrypto laptop := by
  match k with
  | 0 => exact fun _ => ⟨by decide, by decide +kernel⟩
  | 1 => exact fun _ => ⟨by decide, by decide +kernel⟩
  | k + 2 => exact trivial

/-- No account is ever opened. -/
theorem reconnectingAt_allowed {t : ℤ}
    (h : ¬ (relayRun plainCrypto (reconnectingAt t) 2).service.core.revoked laptop) (k : ℕ) :
    ¬ (relayRun plainCrypto (reconnectingAt t) k).service.core.revoked laptop := by
  match k with
  | 0 => exact Bool.false_ne_true
  | 1 =>
    change ¬ (relayRun plainCrypto (reconnectingAt 0) 1).service.core.revoked laptop
    decide +kernel
  | 2 => exact h
  | k + 3 => exact reconnectingAt_allowed h (k + 2)

theorem reconnectingAt_live (t : ℤ) : LiveSession (reconnectingAt t) laptop 2 later :=
  ⟨1, by omega, ⟨rfl, rfl⟩, fun i hi hik => by omega⟩

theorem session_supersession_reconnected :
    (relayRun plainCrypto (reconnectingAt 0) 2).service.activeKeys.lookup laptop = some later := by
  have hnone : (relayRun plainCrypto (reconnectingAt 0) 1).service.tables.memberships.rows = [] := by decide +kernel
  have hclear (k : ℕ) : (reconnectingAt 0 k).Unhindered laptop (relayRun plainCrypto (reconnectingAt 0) k) := by
    match k with
    | 0 => exact fun _ => ⟨le_rfl, fun n hn => absurd hn (AList.notMem_empty _)⟩
    | 1 =>
      refine fun _ => ⟨le_rfl, fun n hn => ?_⟩
      obtain ⟨row, hrow⟩ := Map.mem_iff_lookup.1 hn
      have hmem : ((n, laptop), row) ∈ (relayRun plainCrypto (reconnectingAt 0) 1).service.tables.memberships.rows :=
        Map.mem_rows.2 hrow
      rw [hnone] at hmem
      cases hmem
    | k + 2 => exact trivial
  have hall := session_supersession plainCrypto (reconnectingAt 0) (d := laptop) (by decide) (reconnectingAt_proper 0)
    (reconnectingAt_allowed (by decide +kernel)) hclear 2
  exact (hall.1 later).2 (reconnectingAt_live 0)

/-- With a clock before 1970 the laptop still has the key of its earlier session. -/
theorem superseded_key_kept :
    (∀ k, (reconnectingAt (-1) k).Proper plainCrypto laptop) ∧
    (∀ k, ¬ (relayRun plainCrypto (reconnectingAt (-1)) k).service.core.revoked laptop) ∧
    LiveSession (reconnectingAt (-1)) laptop 2 later ∧
    (relayRun plainCrypto (reconnectingAt (-1)) 2).service.activeKeys.lookup laptop = some earlier ∧
    ¬ ∀ a, (relayRun plainCrypto (reconnectingAt (-1)) 2).service.activeKeys.lookup laptop = some a ↔
      LiveSession (reconnectingAt (-1)) laptop 2 a := by
  have hkey : (relayRun plainCrypto (reconnectingAt (-1)) 2).service.activeKeys.lookup laptop = some earlier := by
    decide +kernel
  refine ⟨reconnectingAt_proper (-1), reconnectingAt_allowed (by decide +kernel), reconnectingAt_live (-1), hkey, fun h => ?_⟩
  have hlater := (h later).2 (reconnectingAt_live (-1))
  rw [hkey] at hlater
  exact absurd hlater (by decide)

end Channel

end LanLink
