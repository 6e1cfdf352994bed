import LanLink.Auth.HandshakeSafety
import LanLink.Relay.SessionKeys
import LanLink.Relay.Supersession
import LanLink.Transport.RelayServer
/-!
# Who is present at a relay

However the callbacks of the connections interleave: a device has one active
stream at most, every stream on the list is one that can be sent on, a session
key is there only while a connection that has authenticated its device is, and
what is sent for a device goes over such a connection.
-/
open LanLink.Lib LanLink.Lib.Action

namespace LanLink

/-! ## Keys of the channel -/

section
variable {crypto : Crypto} {c c' : Channel} {d : DeviceId} {a : ActiveKey}

/-- A key that was not there before was published by one of the calls. -/
theorem Chain.lookup_activeKeys {P : Op → Prop} {c c' : Core} (h : Chain crypto P c c') (ha : c'.activeKeys.lookup d = some a) :
    c.activeKeys.lookup d = some a ∨ ∃ t, P (.publishDeviceKey d a.sessionId a.signedKey t) := by
  induction h with
  | refl => exact .inl ha
  | tail rest hop effect ih =>
    rcases effect.lookup_activeKeys ha with hold | ⟨t, rfl⟩
    · exact ih hold
    · exact .inr ⟨t, hop⟩

namespace Channel

theorem keys_noteAuthenticated (hw : c.service.tables.Wf) (inputs : ChannelInputs) (actor : DeviceId) (session : SessionId)
    (key : SignedDeviceKey)
    (ha : (noteAuthenticated crypto inputs actor session key c).2.service.activeKeys.lookup d = some a) :
    c.service.activeKeys.lookup d = some a ∨ d = actor ∧ a = ⟨session, key⟩ := by
  have hcalls : Calls crypto (fun op => op = .setManagementCapable actor false ∨ ∃ t, op = .publishDeviceKey actor session key t)
      (noteAuthenticated crypto inputs actor session key) := by
    refine .bind (.modify fun _ => rfl) fun _ => .bind ?_ fun _ => .bind (.lift _) fun t => .bind ?_ fun _ => .query _
    · exact .onService inputs.toInputs (.setManagementCapable actor false) rfl (.inl rfl)
    · exact .onService inputs.toInputs (.publishDeviceKey actor session key t) rfl (.inr ⟨t, rfl⟩)
  rcases (hcalls c hw).lookup_activeKeys ha with hold | ⟨t, hcapable | ⟨t', heq⟩⟩
  · exact .inl hold
  · cases hcapable
  · cases heq
    exact .inr ⟨rfl, rfl⟩

/-- After the disconnect of a session its key is gone. -/
theorem keys_noteDisconnected (crypto : Crypto) (hw : c.service.tables.Wf) (actor : DeviceId) (session : SessionId)
    (ha : (noteDisconnected actor session c).2.service.activeKeys.lookup d = some a) :
    c.service.activeKeys.lookup d = some a ∧ ¬ (d = actor ∧ a.sessionId = session) := by
  refine ⟨?_, ?_⟩
  · rcases (calls_noteDisconnected crypto actor session c hw).lookup_activeKeys ha with hold | ⟨t, heq⟩
    · exact hold
    · cases heq
  · rintro ⟨rfl, rfl⟩
    have hremoved : Post (noteDisconnected d a.sessionId) c fun _ c' => c'.service.activeKeys.lookup d ≠ some a := by
      unfold noteDisconnected
      rw [post_bind, post_modify]
      have hservice (p : Prop) [Decidable p] : (if p then { c with sessions := c.sessions.erase d } else c).service = c.service := by
        split <;> rfl
      rw [post_bind, post_onService, hservice]
      by_cases hkey : ∃ b, c.service.activeKeys.lookup d = some b ∧ b.sessionId = a.sessionId
      · obtain ⟨b, hb, hsession⟩ := hkey
        rw [← hsession]
        refine (Service.removeDeviceKey_removes hb).mono fun r s' hkeys => ?_
        have hgone : s'.activeKeys.lookup d ≠ some a := by
          rw [hkeys, Map.lookup_erase, if_pos rfl]
          rintro ⟨⟩
        cases r <;> exact hgone
      · have hother : ∀ b, c.service.activeKeys.lookup d = some b → b.sessionId ≠ a.sessionId := fun b hb heq => hkey ⟨b, hb, heq⟩
        have hsame : Post (Service.removeDeviceKey d a.sessionId) c.service fun r s' => r = .ok [] ∧ s' = c.service := by
          unfold Post
          rw [Service.removeDeviceKey_other hother]
          exact ⟨rfl, rfl⟩
        refine hsame.mono ?_
        rintro _ _ ⟨rfl, rfl⟩
        exact fun ha => hother a ha rfl
    exact hremoved ha

end Channel

end

/-! ## What holds throughout -/

/-- A proof for the signed key was good under the token: the device, and the key of its session, are those of whoever made
it. -/
structure LinkIdentity.Authentic (crypto : AuthCrypto) (token : AuthToken) (i : LinkIdentity) : Prop where
  deviceId : i.deviceId = makeDeviceId crypto.toCrypto i.key.signedKey.identityPublicKey
  session : i.key.sessionId ≠ 0
  proves : ∃ tokenProof, ServerHandshake.Proves crypto token i.key.signedKey.identityPublicKey
    (makeAuthTranscript i.key.signedKey.identityPublicKey i.key.signedKey.encryptionPublicKey i.key.signedKey.clientNonce
      i.key.signedKey.serverNonce) ⟨i.key.signedKey.signature, tokenProof⟩

/-- The thread of the connection serves it. -/
def LinkPhase.Open : LinkPhase → Prop
  | .serving | .registering | .noting | .routing _ => True
  | .closed | .leaving _ _ | .left _ => False

namespace RelayLink

/-- The device and session that the connection will sign off. -/
def holds (link : RelayLink) : Option (DeviceId × SessionId) :=
  match link.phase with
  | .leaving deviceId sessionId => some (deviceId, sessionId)
  | .left _ => none
  | _ => link.identity.map fun i => (i.deviceId, i.key.sessionId)

/-- What is sent for the entry can be sent on the connection. -/
structure Carries (link : RelayLink) (e : ActiveControlStream) : Prop where
  kind : e.tcp = decide (link.kind = .tcp)
  device : ∃ i, link.identity = some i ∧ i.deviceId = e.deviceId
  there : link.phase.Open ∨ link.phase = .closed ∧ link.kind = .tcp
  stream : link.kind = .quic → link.streamOpen = true

/-- The connection is as its handshake and its record have it. -/
structure Sound (token : AuthToken) (proven : List (LinkId × LinkIdentity)) (id : LinkId) (link : RelayLink) : Prop where
  token : link.handshake.Waiting → link.handshake.token = token
  unproven : link.handshake.Waiting → id ∉ proven.map (·.1)
  identified : link.handshake.authenticated = true → ∃ i, link.identity = some i ∧ (id, i) ∈ proven
  registering : link.phase = .registering ∨ link.phase = .noting →
    link.handshake.authenticated = true ∧ (link.kind = .quic → link.streamOpen = true)
  leaving : ∀ deviceId sessionId, link.phase = .leaving deviceId sessionId →
    ∃ i, (id, i) ∈ proven ∧ i.deviceId = deviceId ∧ i.key.sessionId = sessionId

end RelayLink

namespace RelayServer
variable {crypto : AuthCrypto} {token : AuthToken} {s : RelayServer} {id : LinkId} {link link' : RelayLink}

structure Inv (crypto : AuthCrypto) (token : AuthToken) (s : RelayServer) : Prop where
  token : s.token = token
  links : ∀ id link, s.links.lookup id = some link → link.Sound s.token s.proven id
  authentic : ∀ x ∈ s.proven, x.2.Authentic crypto s.token
  sole : (s.proven.map (·.1)).Nodup
  /-- A place is taken by one connection, which has not authenticated anybody before it was opened. -/
  admitted : (s.admitted.map (·.1)).Nodup
  numbered : ∀ x ∈ s.admitted, x.1 < s.nextLink
  provenNumbered : ∀ x ∈ s.proven, x.1 < s.nextLink
  opened : ∀ x ∈ s.proven, x.1 ∈ s.links ∨ x.1 ∉ s.admitted.map (·.1)
  placed : ∀ id ∈ s.links, id ∈ s.admitted.map (·.1)
  devices : (s.active.map (·.deviceId)).Nodup
  live : ∀ e ∈ s.active, ∃ link, s.links.lookup e.link = some link ∧ link.Carries e
  wf : s.channel.service.tables.Wf
  keys : ∀ d a, s.channel.service.activeKeys.lookup d = some a →
    ∃ id link, s.links.lookup id = some link ∧ link.holds = some (d, a.sessionId) ∧ (id, ⟨d, a⟩) ∈ s.proven
  acted : ∀ x ∈ s.acted, ∃ i, (x.1, i) ∈ s.proven ∧ i.deviceId = x.2
  sent : ∀ x ∈ s.sent, ∃ i, (x.1, i) ∈ s.proven ∧ i.deviceId = x.2.recipient

/-! ## Changes of one connection -/

/-- What a change of a connection has to keep. -/
structure Follows (s : RelayServer) (id : LinkId) (link link' : RelayLink) : Prop where
  sound : link'.Sound s.token s.proven id
  carries : ∀ e ∈ s.active, e.link = id → link.Carries e → link'.Carries e
  holds : ∀ x, link.holds = some x → link'.holds = some x

theorem Inv.setLink (h : Inv crypto token s) (hlink : s.links.lookup id = some link) (hf : Follows s id link link') :
    Inv crypto token (s.setLink id link') where
  links j l hl := by
    change AList.lookup j (s.links.insert id link') = some l at hl
    rw [Map.lookup_insert] at hl
    by_cases hj : j = id
    · rw [if_pos hj] at hl
      cases hl
      exact hj ▸ hf.sound
    · rw [if_neg hj] at hl
      exact h.links j l hl
  token := h.token
  authentic := h.authentic
  sole := h.sole
  admitted := h.admitted
  numbered := h.numbered
  provenNumbered := h.provenNumbered
  opened x hx := (h.opened x hx).imp_left fun hmem => (AList.mem_insert _).2 (.inr hmem)
  placed j hj := by
    rcases (AList.mem_insert _).1 hj with rfl | hmem
    · exact h.placed j (Map.mem_of_lookup hlink)
    · exact h.placed j hmem
  devices := h.devices
  live e he := by
    obtain ⟨l, hl, hcarries⟩ := h.live e he
    change ∃ l, AList.lookup e.link (s.links.insert id link') = some l ∧ l.Carries e
    rw [Map.lookup_insert]
    by_cases hid : e.link = id
    · rw [hid, hlink] at hl
      cases hl
      exact ⟨link', if_pos hid, hf.carries e he hid hcarries⟩
    · exact ⟨l, by rw [if_neg hid, hl], hcarries⟩
  wf := h.wf
  keys d a ha := by
    obtain ⟨j, l, hl, hholds, hproven⟩ := h.keys d a ha
    change ∃ j l, AList.lookup j (s.links.insert id link') = some l ∧ _
    by_cases hj : j = id
    · rw [hj, hlink] at hl
      cases hl
      exact ⟨j, link', by rw [Map.lookup_insert, if_pos hj], hf.holds _ hholds, hproven⟩
    · exact ⟨j, l, by rw [Map.lookup_insert, if_neg hj, hl], hholds, hproven⟩
  acted := h.acted
  sent := h.sent

/-- A connection that signs nobody off and is on no list goes. -/
theorem Inv.removeLink (h : Inv crypto token s) (hactive : ∀ e ∈ s.active, e.link ≠ id)
    (hholds : ∀ link, s.links.lookup id = some link → link.holds = none) : Inv crypto token (s.removeLink id) := by
  have hlookup {j : LinkId} {l : RelayLink} (hl : (s.links.erase id).lookup j = some l) : j ≠ id ∧ s.links.lookup j = some l := by
    rw [Map.lookup_erase] at hl
    split at hl
    · cases hl
    · rename_i hj
      exact ⟨hj, hl⟩
  have hkept {j : LinkId} {l : RelayLink} (hj : j ≠ id) (hl : s.links.lookup j = some l) : (s.links.erase id).lookup j = some l := by
    rw [Map.lookup_erase, if_neg hj, hl]
  -- the place that is given back is the only one of the connection
  have herased : (s.admitted.eraseP (·.1 = id)).map (·.1) = (s.admitted.map (·.1)).erase id := by
    rw [List.erase_eq_eraseP', List.eraseP_map]
    rfl
  have hplaces {j : LinkId} : j ∈ (s.admitted.eraseP (·.1 = id)).map (·.1) ↔ j ≠ id ∧ j ∈ s.admitted.map (·.1) := by
    rw [herased, h.admitted.mem_erase_iff]
  have hnodup := h.admitted.erase id
  rw [← herased] at hnodup
  exact {
    token := h.token
    links := fun j l hl => h.links j l (hlookup hl).2
    authentic := h.authentic
    sole := h.sole
    admitted := hnodup
    numbered := fun x hx => h.numbered x (List.mem_of_mem_eraseP hx)
    provenNumbered := h.provenNumbered
    opened := fun x hx => by
      change x.1 ∈ s.links.erase id ∨ _
      rw [AList.mem_erase]
      rcases h.opened x hx with hmem | hnot
      · by_cases hid : x.1 = id
        · exact .inr fun hplace => (hplaces.1 hplace).1 hid
        · exact .inl ⟨hid, hmem⟩
      · exact .inr fun hplace => hnot (hplaces.1 hplace).2
    placed := fun j hj => by
      obtain ⟨hne, hmem⟩ := AList.mem_erase.1 hj
      exact hplaces.2 ⟨hne, h.placed j hmem⟩
    devices := h.devices
    live := fun e he => by
      obtain ⟨l, hl, hcarries⟩ := h.live e he
      exact ⟨l, hkept (hactive e he) hl, hcarries⟩
    wf := h.wf
    keys := fun d a ha => by
      obtain ⟨j, l, hl, hkey, hproven⟩ := h.keys d a ha
      refine ⟨j, l, hkept ?_ hl, hkey, hproven⟩
      rintro rfl
      rw [hholds l hl] at hkey
      cases hkey
    acted := h.acted
    sent := h.sent }

/-- A connection that has just been opened. -/
theorem Inv.opens (h : Inv crypto token s) (hplace : id ∈ s.admitted.map (·.1)) (hnone : id ∉ s.links) {handshake : ServerHandshake}
    (hwaits : handshake.state = .waitingHello) (htoken : handshake.token = s.token) (kind : LinkKind) :
    Inv crypto token (s.setLink id { kind, handshake }) := by
  have hunproven : id ∉ s.proven.map (·.1) := by
    rintro hmem
    obtain ⟨x, hx, rfl⟩ := List.mem_map.1 hmem
    rcases h.opened x hx with hlinks | hnot
    · exact hnone hlinks
    · exact hnot hplace
  have hlookup : s.links.lookup id = none := AList.lookup_eq_none.2 hnone
  have hkept {j : LinkId} {l : RelayLink} (hl : s.links.lookup j = some l) :
      (s.links.insert id { kind, handshake }).lookup j = some l := by
    rw [Map.lookup_insert, if_neg, hl]
    rintro rfl
    rw [hlookup] at hl
    cases hl
  refine { h with links := fun j l hl => ?_, opened := fun x hx => ?_, placed := fun j hj => ?_, live := fun e he => ?_, keys := fun d a ha => ?_ }
  · change AList.lookup j (s.links.insert id _) = some l at hl
    rw [Map.lookup_insert] at hl
    split at hl
    · rename_i hj
      cases hl
      subst hj
      have hnot : handshake.authenticated = false := by simp [ServerHandshake.authenticated, hwaits]
      refine ⟨fun _ => htoken, fun _ => hunproven, fun hauth => ?_, fun hp => ?_, fun _ _ hp => ?_⟩
      · rw [show _ = handshake.authenticated from rfl, hnot] at hauth
        cases hauth
      · rcases hp with hp | hp <;> cases hp
      · cases hp
    · exact h.links j l hl
  · exact (h.opened x hx).imp_left fun hmem => (AList.mem_insert _).2 (.inr hmem)
  · rcases (AList.mem_insert _).1 hj with rfl | hmem
    · exact hplace
    · exact h.placed j hmem
  · obtain ⟨l, hl, hcarries⟩ := h.live e he
    exact ⟨l, hkept hl, hcarries⟩
  · obtain ⟨j, l, hl, hrest⟩ := h.keys d a ha
    exact ⟨j, l, hkept hl, hrest⟩

/-! ## Changes of a connection that serves -/

theorem identity_eq_some {i : LinkIdentity} (h : link.identity = some i) :
    link.handshake.authenticated = true ∧ link.handshake.deviceIdValue = i.deviceId ∧
      link.handshake.sessionIdValue = i.key.sessionId := by
  unfold RelayLink.identity at h
  split at h
  · rename_i hauth
    obtain ⟨key, -, rfl⟩ := Option.map_eq_some_iff.1 h
    exact ⟨hauth, rfl, rfl⟩
  · cases h

theorem identity_eq_none (h : link.handshake.authenticated = false) : link.identity = none := by
  rw [RelayLink.identity, h]
  rfl

theorem holds_of_open (h : link.phase.Open ∨ link.phase = .closed) :
    link.holds = link.identity.map fun i => (i.deviceId, i.key.sessionId) := by
  obtain ⟨kind, handshake, phase, streamStarted, streamOpen⟩ := link
  cases phase with
  | leaving => rcases h with h | h <;> cases h
  | left => rcases h with h | h <;> cases h
  | _ => rfl

theorem Follows.trans {s : RelayServer} {link link' link'' : RelayLink} (h : Follows s id link link') (h' : Follows s id link' link'') :
    Follows s id link link'' :=
  ⟨h'.sound, fun e he hid hc => h'.carries e he hid (h.carries e he hid hc), fun x hx => h'.holds x (h.holds x hx)⟩

/-- The thread of a connection that is served goes on. -/
theorem follows_phase (h : link.Sound s.token s.proven id) (hopen : link.phase.Open) {phase : LinkPhase}
    (hnew : phase.Open ∨ phase = .closed ∧ link.kind = .tcp)
    (hregistering : phase = .registering ∨ phase = .noting →
      link.handshake.authenticated = true ∧ (link.kind = .quic → link.streamOpen = true)) :
    Follows s id link { link with phase } := by
  refine ⟨⟨h.token, h.unproven, h.identified, hregistering, ?_⟩, fun e _ _ hc => ⟨hc.kind, hc.device, hnew, hc.stream⟩, fun x hx => ?_⟩
  · rintro deviceId sessionId rfl
    rcases hnew with hnew | ⟨hnew, -⟩ <;> cases hnew
  · rw [holds_of_open (.inl hopen)] at hx
    rw [holds_of_open (hnew.imp_right And.left)]
    exact hx

theorem follows_failed (h : link.Sound s.token s.proven id) (hopen : link.phase.Open) : Follows s id link link.failed := by
  refine follows_phase h hopen ?_ ?_
  · cases hkind : link.kind with
    | quic => exact .inl trivial
    | tcp => exact .inr ⟨rfl, rfl⟩
  · rintro hphase
    cases hkind : link.kind <;> simp [hkind] at hphase

/-- The handshake goes on, and nobody is authenticated before or after. -/
theorem follows_handshake (h : link.Sound s.token s.proven id) (hserving : link.phase = .serving)
    (hauth : link.handshake.authenticated = false) {handshake : ServerHandshake} (hauth' : handshake.authenticated = false)
    (hwaits : handshake.Waiting → link.handshake.Waiting ∧ handshake.token = link.handshake.token) :
    Follows s id link { link with handshake } := by
  have hopen : link.phase.Open := by rw [hserving]; trivial
  refine ⟨⟨fun hw => ?_, fun hw => h.unproven (hwaits hw).1, fun hnow => ?_, fun hphase => ?_, fun d session hphase => ?_⟩,
    fun e _ _ hc => ?_, fun x hx => ?_⟩
  · obtain ⟨hw', htoken⟩ := hwaits hw
    exact htoken.trans (h.token hw')
  · rw [show _ = handshake.authenticated from rfl, hauth'] at hnow
    cases hnow
  · rw [show _ = link.phase from rfl, hserving] at hphase
    rcases hphase with hphase | hphase <;> cases hphase
  · rw [show _ = link.phase from rfl, hserving] at hphase
    cases hphase
  · obtain ⟨i, hi, -⟩ := hc.device
    rw [identity_eq_none hauth] at hi
    cases hi
  · rw [holds_of_open (.inl hopen), identity_eq_none hauth] at hx
    cases hx

theorem follows_stalled (h : link.Sound s.token s.proven id) (hserving : link.phase = .serving) {handshake : ServerHandshake}
    (hstalled : ServerHandshake.Stalled link.handshake handshake) : Follows s id link { link with handshake } := by
  have hnot {hs : ServerHandshake} {state : ServerState} (hstate : hs.state = state) (hne : state ≠ .authenticated) :
      hs.authenticated = false := by
    simp [ServerHandshake.authenticated, hstate, hne]
  cases hstalled with
  | same heq =>
    rw [heq]
    exact ⟨h, fun _ _ _ hc => hc, fun _ hx => hx⟩
  | greeted hold hnew _ htoken =>
    exact follows_handshake h hserving (hnot hold (by decide)) (hnot hnew (by decide)) fun _ => ⟨.inl hold, htoken⟩
  | expired hold hnew _ htoken =>
    have hauth : link.handshake.authenticated = false := by
      rcases hold with hold | hold
      · exact hnot hold (by decide)
      · exact hnot hold (by decide)
    exact follows_handshake h hserving hauth (hnot hnew (by decide)) fun _ => ⟨hold, htoken⟩

/-! ## The channel, the streams and what is sent -/

/-- The channel gets on, and a key that it did not have is that of a connection. -/
theorem Inv.channel (h : Inv crypto token s) {channel : Channel} (hw : channel.service.tables.Wf)
    (hkeys : ∀ d a, channel.service.activeKeys.lookup d = some a → s.channel.service.activeKeys.lookup d = some a ∨
      ∃ id link, s.links.lookup id = some link ∧ link.holds = some (d, a.sessionId) ∧ (id, ⟨d, a⟩) ∈ s.proven) :
    Inv crypto token { s with channel } :=
  { h with
    wf := hw
    keys := fun d a ha => by
      rcases hkeys d a ha with hold | hnew
      · exact h.keys d a hold
      · exact hnew }

theorem Inv.acts (h : Inv crypto token s) {i : LinkIdentity} (hi : (id, i) ∈ s.proven) :
    Inv crypto token { s with acted := s.acted ++ [(id, i.deviceId)] } :=
  { h with
    acted := fun x hx => by
      rcases List.mem_append.1 hx with hold | hnow
      · exact h.acted x hold
      · cases List.mem_singleton.1 hnow
        exact ⟨i, hi, rfl⟩ }

theorem Inv.sublist (h : Inv crypto token s) {active : List ActiveControlStream} (hsub : active.Sublist s.active) :
    Inv crypto token { s with active } :=
  { h with devices := h.devices.sublist (hsub.map _), live := fun e he => h.live e (hsub.subset he) }

theorem Inv.eraseActive (h : Inv crypto token s) (id : LinkId) : Inv crypto token (s.eraseActive id) := h.sublist List.filter_sublist

theorem Inv.registers (h : Inv crypto token s) {active : List ActiveControlStream} (hsub : active.Sublist s.active)
    {e : ActiveControlStream} (hfresh : ∀ e' ∈ active, e'.deviceId ≠ e.deviceId) (hlink : s.links.lookup e.link = some link)
    (hcarries : link.Carries e) : Inv crypto token { s with active := active ++ [e] } where
  __ := h
  devices := by
    rw [List.map_append]
    refine List.nodup_append.2 ⟨h.devices.sublist (hsub.map _), List.nodup_singleton _, fun d hd d' hd' => ?_⟩
    obtain ⟨e', he', rfl⟩ := List.mem_map.1 hd
    rw [List.mem_singleton.1 hd']
    exact hfresh e' he'
  live e' he' := by
    rcases List.mem_append.1 he' with hold | hnew
    · exact h.live e' (hsub.subset hold)
    · cases List.mem_singleton.1 hnew
      exact ⟨link, hlink, hcarries⟩

/-- What is delivered goes to an entry of its recipient. -/
theorem mem_deliveries {active : List ActiveControlStream} {frame : RoutedFrame} {x : LinkId × RoutedFrame}
    (hx : x ∈ deliveries active frame) : x.2 = frame ∧ ∃ e ∈ active, e.link = x.1 ∧ e.deviceId = frame.recipient := by
  cases frame with
  | control r =>
    obtain ⟨e, he, rfl⟩ := List.mem_map.1 hx
    obtain ⟨hmem, hdevice⟩ := List.mem_filter.1 he
    exact ⟨rfl, e, hmem, rfl, of_decide_eq_true hdevice⟩
  | packet r =>
    obtain ⟨e, he, rfl⟩ := Option.map_eq_some_iff.1 (Option.mem_toList.1 hx)
    have hdevice := List.find?_some he
    exact ⟨rfl, e, List.mem_of_find?_eq_some he, rfl, of_decide_eq_true hdevice⟩

theorem Inv.route (h : Inv crypto token s) (frames : List RoutedFrame) (reached : List LinkId) : Inv crypto token (s.route frames reached) where
  __ := h
  sent x hx := by
    rcases List.mem_append.1 hx with hold | hnow
    · exact h.sent x hold
    · obtain ⟨frame, -, hx⟩ := List.mem_flatMap.1 (List.mem_filter.1 hnow).1
      obtain ⟨rfl, e, he, hlink, hdevice⟩ := mem_deliveries hx
      obtain ⟨link, hl, hcarries⟩ := h.live e he
      obtain ⟨i, hi, hi'⟩ := hcarries.device
      obtain ⟨j, hj, hproven⟩ := (h.links _ _ hl).identified (identity_eq_some hi).1
      rw [hi] at hj
      cases hj
      exact ⟨i, hlink ▸ hproven, hi'.trans hdevice⟩

/-! ## Handshakes -/

/-- A connection that waits for nothing more is recorded with its device. -/
theorem Inv.records (h : Inv crypto token s) (hlink : s.links.lookup id = some link) (hdone : ¬ link.handshake.Waiting)
    (hunproven : id ∉ s.proven.map (·.1)) {i : LinkIdentity} (hauthentic : i.Authentic crypto s.token) :
    Inv crypto token { s with proven := s.proven ++ [(id, i)] } := by
  have hmono {x : LinkId × LinkIdentity} (hx : x ∈ s.proven) : x ∈ s.proven ++ [(id, i)] := List.mem_append_left _ hx
  refine { h with
    links := fun j l hl => ?_
    authentic := fun x hx => ?_
    sole := ?_
    provenNumbered := fun x hx => ?_
    opened := fun x hx => ?_
    keys := fun d a ha => ?_
    acted := fun x hx => (h.acted x hx).imp fun _ hi => ⟨hmono hi.1, hi.2⟩
    sent := fun x hx => (h.sent x hx).imp fun _ hi => ⟨hmono hi.1, hi.2⟩ }
  · have hold := h.links j l hl
    refine ⟨hold.token, fun hw => ?_, fun ha => ?_, hold.registering, fun d session hleaving => ?_⟩
    · rw [List.map_append, List.mem_append, not_or]
      refine ⟨hold.unproven hw, fun hmem => ?_⟩
      rw [List.mem_singleton.1 hmem, hlink] at hl
      cases hl
      exact hdone hw
    · exact (hold.identified ha).imp fun _ hx => ⟨hx.1, hmono hx.2⟩
    · exact (hold.leaving d session hleaving).imp fun _ hx => ⟨hmono hx.1, hx.2⟩
  · rcases List.mem_append.1 hx with hold | hnow
    · exact h.authentic x hold
    · cases List.mem_singleton.1 hnow
      exact hauthentic
  · rw [List.map_append]
    refine List.nodup_append.2 ⟨h.sole, List.nodup_singleton _, fun j hj j' hj' => ?_⟩
    rw [List.mem_singleton.1 hj']
    rintro rfl
    exact hunproven hj
  · rcases List.mem_append.1 hx with hold | hnow
    · exact h.provenNumbered x hold
    · cases List.mem_singleton.1 hnow
      obtain ⟨x, hx, hid⟩ := List.mem_map.1 (h.placed id (Map.mem_of_lookup hlink))
      exact hid ▸ h.numbered x hx
  · rcases List.mem_append.1 hx with hold | hnow
    · exact h.opened x hold
    · cases List.mem_singleton.1 hnow
      exact .inl (Map.mem_of_lookup hlink)
  · obtain ⟨j, l, hl, hholds, hproven⟩ := h.keys d a ha
    exact ⟨j, l, hl, hholds, hmono hproven⟩

/-- A connection authenticates a device. -/
theorem Inv.proves (h : Inv crypto token s) (hlink : s.links.lookup id = some link) (hserving : link.phase = .serving)
    (hwaits : link.handshake.Waiting) {i : LinkIdentity} (hauthentic : i.Authentic crypto s.token) (hi : link'.identity = some i)
    (hphase : link'.phase.Open ∨ link'.phase = .closed)
    (hregistering : link'.phase = .registering ∨ link'.phase = .noting → link'.kind = .quic → link'.streamOpen = true) :
    Inv crypto token ({ s with proven := s.proven ++ [(id, i)] }.setLink id link') := by
  have hsound := h.links id link hlink
  have hauth : link.handshake.authenticated = false := by
    rcases hwaits with hw | hw <;> simp [ServerHandshake.authenticated, hw]
  have hauth' := (identity_eq_some hi).1
  have hdone' : ¬ link'.handshake.Waiting := by
    rintro (hw | hw) <;> simp [ServerHandshake.authenticated, hw] at hauth'
  -- the connection stops to wait, then its device is recorded, then it is as it should be
  obtain ⟨stopped, hst⟩ : ∃ stopped : RelayLink, stopped = { link with handshake := link.handshake.close } := ⟨_, rfl⟩
  have hdone : ¬ stopped.handshake.Waiting := by
    rw [hst]
    rintro (hw | hw) <;> cases hw
  have hidentity : stopped.identity = none := identity_eq_none (by rw [hst]; rfl)
  have hopen : stopped.phase.Open := by
    rw [hst]
    change link.phase.Open
    rw [hserving]
    trivial
  have hstopped : Inv crypto token (s.setLink id stopped) := by
    refine h.setLink hlink ?_
    rw [hst]
    exact follows_handshake hsound hserving hauth rfl (by rintro (hw | hw) <;> cases hw)
  have hlookup : (s.setLink id stopped).links.lookup id = some stopped := by
    change AList.lookup id (s.links.insert id stopped) = _
    rw [Map.lookup_insert, if_pos rfl]
  have hrecorded := hstopped.records hlookup hdone (hsound.unproven hwaits) hauthentic
  have hdevice : Inv crypto token { s with
      links := (s.links.insert id stopped).insert id link', proven := s.proven ++ [(id, i)] } := by
    refine hrecorded.setLink hlookup ⟨⟨fun hw => absurd hw hdone', fun hw => absurd hw hdone', fun _ => ⟨i, hi, ?_⟩,
      fun hr => ⟨hauth', hregistering hr⟩, fun d session hleaving => ?_⟩, fun e _ _ hc => ?_, fun x hx => ?_⟩
    · exact List.mem_append_right _ (List.mem_singleton_self _)
    · rw [hleaving] at hphase
      rcases hphase with hphase | hphase <;> cases hphase
    · obtain ⟨j, hj, -⟩ := hc.device
      rw [hidentity] at hj
      cases hj
    · rw [holds_of_open (.inl hopen), hidentity] at hx
      cases hx
  rw [show (s.links.insert id stopped).insert id link' = s.links.insert id link' from AList.insert_insert _] at hdevice
  exact hdevice

/-- A frame before a device is authenticated. -/
theorem Inv.handleAuthFrame (h : Inv crypto token s) (hlink : s.links.lookup id = some link) (hserving : link.phase = .serving)
    (hstream : link.kind = .quic → link.streamOpen = true) (hauth : link.handshake.authenticated = false)
    (frame : ClientFrame) (inputs : FrameInputs) : Inv crypto token (s.handleAuthFrame crypto id link frame inputs) := by
  have hsound := h.links id link hlink
  have hopen {hs : ServerHandshake} : ({ link with handshake := hs } : RelayLink).phase.Open := by
    change link.phase.Open
    rw [hserving]
    trivial
  have hnot {hs : ServerHandshake} {state : ServerState} (hstate : hs.state = state) (hne : state ≠ .authenticated) :
      hs.authenticated = false := by
    simp [ServerHandshake.authenticated, hstate, hne]
  -- the connection goes on with the handshake, or fails after it
  have hgoes {hs : ServerHandshake} (hf : Follows s id link { link with handshake := hs }) (p : Prop) [Decidable p] :
      Inv crypto token (s.setLink id (if p then { link with handshake := hs } else RelayLink.failed { link with handshake := hs })) := by
    split
    · exact h.setLink hlink hf
    · exact h.setLink hlink (hf.trans (follows_failed hf.sound hopen))
  cases frame with
  | packet requestId payload => exact h.setLink hlink (follows_failed hsound hopen)
  | control f => exact h.setLink hlink (follows_failed hsound hopen)
  | hello f =>
    have houtcome := ServerHandshake.handleHello_outcome inputs.auth f link.handshake
    simp only [Post] at houtcome
    unfold RelayServer.handleAuthFrame
    dsimp only
    generalize ServerHandshake.handleHello inputs.auth f link.handshake = result at houtcome ⊢
    obtain ⟨r, hs⟩ := result
    cases houtcome with
    | @answered hello nonce greets =>
      have hf : Follows s id link { link with handshake := link.handshake.greeted f hello nonce } :=
        follows_handshake hsound hserving hauth rfl fun _ => ⟨.inl greets.state, rfl⟩
      exact hgoes hf _
    | stalled hstalled => exact hgoes (follows_stalled hsound hserving hstalled) _
  | proof f =>
    have houtcome := @ServerHandshake.handleProof_outcome crypto inputs.auth f link.handshake
    simp only [Post] at houtcome
    unfold RelayServer.handleAuthFrame
    dsimp only
    generalize ServerHandshake.handleProof crypto inputs.auth f link.handshake = result at houtcome ⊢
    obtain ⟨r, hs⟩ := result
    have hrefused (hhs : hs.authenticated = false) (hf : Follows s id link { link with handshake := hs }) :
        Inv crypto token (RelayServer.setLink id (if r.isOk ∧ inputs.sends then
            if hs.authenticated then { link with handshake := hs, phase := .registering } else { link with handshake := hs }
          else RelayLink.failed { link with handshake := hs })
          { s with proven := s.proven ++ ((RelayLink.identity { link with handshake := hs }).map fun i => (id, i)).toList }) := by
      rw [identity_eq_none hhs, Option.map_none, Option.toList_none, List.append_nil, hhs]
      exact hgoes hf _
    cases houtcome with
    | @accepted proof session judges proves nonzero =>
      have hauthentic : LinkIdentity.Authentic crypto s.token ⟨makeDeviceId crypto.toCrypto link.handshake.publicKey, session,
          link.handshake.publicKey, link.handshake.encryptionPublicKey, link.handshake.clientNonce, link.handshake.serverNonce,
          proof.signature⟩ := by
        rw [← hsound.token (.inr judges.state)]
        exact ⟨rfl, nonzero, proof.tokenProof, proves⟩
      refine h.proves hlink hserving (.inr judges.state) hauthentic ?_ ?_ ?_
      · split <;> rfl
      · split
        · exact .inl trivial
        · cases hkind : link.kind with
          | quic => exact .inl (by simp [RelayLink.failed, LinkPhase.Open])
          | tcp => exact .inr (by simp [RelayLink.failed])
      · split
        · exact fun _ => hstream
        · exact fun _ => hstream
    | refused judges state =>
      exact hrefused (hnot state (by decide)) (follows_handshake hsound hserving hauth (hnot state (by decide))
        (by rintro (hw | hw) <;> cases hw.symm.trans state))
    | stalled hstalled =>
      have hf := follows_stalled hsound hserving hstalled
      refine hrefused ?_ hf
      cases hstalled with
      | same heq => rw [show hs = link.handshake from heq, hauth]
      | greeted _ hnew _ _ => exact hnot hnew (by decide)
      | expired _ hnew _ _ => exact hnot hnew (by decide)

/-! ## Requests and packets -/

/-- A call of the channel that publishes no key. -/
theorem Inv.calls (h : Inv crypto token s) {α : Type} {x : Channel.Call α} {P : Op → Prop} (hcalls : Calls crypto.toCrypto P x)
    (hquiet : ∀ d session key t, ¬ P (.publishDeviceKey d session key t)) : Inv crypto token { s with channel := (x s.channel).2 } := by
  have hchain : Chain crypto.toCrypto P s.channel.service.core (x s.channel).2.service.core := hcalls s.channel h.wf
  refine h.channel (hchain.wf h.wf) fun d a ha => .inl ?_
  rcases hchain.lookup_activeKeys ha with hold | ⟨t, ht⟩
  · exact hold
  · exact absurd ht (hquiet _ _ _ _)

theorem calls_routePacket (crypto : Crypto) (actor : DeviceId) (payload : Except Exn EncryptedNetworkPacket) (inputs : ChannelInputs) :
    Calls crypto (fun op => ¬ op.Session) (routePacket actor payload inputs) :=
  .bind (.lift _) fun p => .onService inputs.toInputs (.routeEncryptedPacket actor p) rfl not_false

theorem follows_routing (h : link.Sound s.token s.proven id) (hopen : link.phase.Open) (batches : List (List RoutedFrame)) :
    Follows s id link { link with phase := .routing batches } := by
  refine follows_phase h hopen (.inl trivial) ?_
  rintro (hphase | hphase) <;> cases hphase

/-- A packet of an authenticated device. -/
theorem Inv.routePacket (h : Inv crypto token s) {i : LinkIdentity} (hproven : (id, i) ∈ s.proven)
    (payload : Except Exn EncryptedNetworkPacket) (inputs : ChannelInputs) :
    Inv crypto token { s with
      channel := (RelayServer.routePacket i.deviceId payload inputs s.channel).2, acted := s.acted ++ [(id, i.deviceId)] } := by
  have hrouted := h.calls (calls_routePacket crypto.toCrypto i.deviceId payload inputs) fun _ _ _ _ hnot => hnot trivial
  exact hrouted.acts hproven

theorem Inv.handleControlFrame (h : Inv crypto token s) (hlink : s.links.lookup id = some link) (hserving : link.phase = .serving)
    (hauth : link.handshake.authenticated = true) (frame : ClientFrame) (inputs : FrameInputs) :
    Inv crypto token (s.handleControlFrame crypto id link frame inputs) := by
  have hsound := h.links id link hlink
  have hopen : link.phase.Open := by rw [hserving]; trivial
  obtain ⟨i, hi, hproven⟩ := hsound.identified hauth
  have hdevice := (identity_eq_some hi).2.1
  have hfailed := h.setLink hlink (follows_failed hsound hopen)
  have hrequest (f : ControlFrame) : Inv crypto token (s.handleControlFrame crypto id link (.control f) inputs) := by
    unfold RelayServer.handleControlFrame
    dsimp only
    rw [hdevice]
    split
    · have hserved : Inv crypto token { s with
          channel := (Channel.handleAuthenticated crypto.toCrypto inputs.channel i.deviceId f s.channel).2
          acted := s.acted ++ [(id, i.deviceId)] } := by
        refine (h.calls (Channel.calls_handleAuthenticated crypto.toCrypto inputs.channel i.deviceId f) ?_).acts hproven
        rintro d session key t ⟨-, hserves⟩
        obtain ⟨-, capable, heq⟩ := hserves trivial
        cases heq
      split
      · split
        · exact hserved.setLink hlink (follows_routing (hserved.links id link hlink) hopen _)
        · exact hserved.setLink hlink (follows_failed (hserved.links id link hlink) hopen)
      · exact hserved.setLink hlink (follows_failed (hserved.links id link hlink) hopen)
    · exact hfailed
  cases frame with
  | control f => exact hrequest f
  | hello f => exact hrequest ⟨⟨f.requestId⟩, .other⟩
  | proof f => exact hrequest ⟨⟨f.requestId⟩, .other⟩
  | packet requestId payload =>
    unfold RelayServer.handleControlFrame
    dsimp only
    rw [hdevice]
    split
    · exact hfailed
    · have hrouted := h.routePacket hproven payload inputs.channel
      split
      · exact hrouted.setLink hlink (follows_routing (hrouted.links id link hlink) hopen _)
      · exact hrouted.setLink hlink (follows_failed (hrouted.links id link hlink) hopen)

/-! ## The list of streams -/

theorem makeWay_sublist (d : DeviceId) (active : List ActiveControlStream) : (makeWay d active).2.Sublist active := by
  induction active with
  | nil => exact List.Sublist.refl _
  | cons e rest ih =>
    rw [makeWay]
    split
    · exact ih.cons_cons e
    · split
      · exact ih.cons e
      · exact List.Sublist.refl _

theorem makeWay_fresh {d : DeviceId} {active : List ActiveControlStream} (h : (makeWay d active).1 = true) :
    ∀ e ∈ (makeWay d active).2, e.deviceId ≠ d := by
  induction active with
  | nil => rintro e he; cases he
  | cons e rest ih =>
    rw [makeWay] at h ⊢
    split at h
    · rename_i hne
      rw [if_pos hne]
      rintro e' he'
      rcases List.mem_cons.1 he' with rfl | hmem
      · exact hne
      · exact ih h e' hmem
    · rename_i heq
      rw [if_neg heq]
      split at h
      · rename_i htcp
        rw [if_pos htcp]
        exact ih h
      · cases h

/-- A connection gets onto the list, or fails. -/
theorem Inv.register (h : Inv crypto token s) (hlink : s.links.lookup id = some link) (hphase : link.phase = .registering)
    {r : Bool × RelayServer} (hr : r = match link.kind with
      | .quic => s.registerControlStream id link.handshake.deviceIdValue
      | .tcp => s.registerTcp id link.handshake.deviceIdValue) :
    Inv crypto token (r.2.setLink id (if r.1 then { link with phase := .noting } else link.failed)) := by
  have hsound := h.links id link hlink
  have hopen : link.phase.Open := by rw [hphase]; trivial
  obtain ⟨hauth, hstream⟩ := hsound.registering (.inl hphase)
  obtain ⟨i, hi, -⟩ := hsound.identified hauth
  have hdevice := (identity_eq_some hi).2.1
  have hcarries : link.Carries ⟨i.deviceId, id, decide (link.kind = .tcp)⟩ := ⟨rfl, ⟨i, hi, rfl⟩, .inl hopen, hstream⟩
  -- with its entry the connection notes its device, without it fails
  have hdone {active : List ActiveControlStream} (hsub : active.Sublist s.active) (hfresh : ∀ e ∈ active, e.deviceId ≠ i.deviceId) :
      Inv crypto token (RelayServer.setLink id { link with phase := .noting }
        { s with active := active ++ [⟨i.deviceId, id, decide (link.kind = .tcp)⟩] }) := by
    have hlisted := h.registers hsub hfresh hlink hcarries
    refine hlisted.setLink hlink (follows_phase (hlisted.links id link hlink) hopen (.inl ?_) fun _ => ⟨hauth, hstream⟩)
    trivial
  have hfails {active : List ActiveControlStream} (hsub : active.Sublist s.active) :
      Inv crypto token (RelayServer.setLink id link.failed { s with active }) := by
    have hlisted := h.sublist hsub
    exact hlisted.setLink hlink (follows_failed (hlisted.links id link hlink) hopen)
  rw [hdevice] at hr
  cases hkind : link.kind with
  | quic =>
    rw [hkind] at hr hdone
    simp only [registerControlStream] at hr
    cases hway : (makeWay i.deviceId s.active).1 with
    | true =>
      rw [hway, if_pos rfl] at hr
      rw [hr]
      exact hdone (makeWay_sublist _ _) (makeWay_fresh hway)
    | false =>
      rw [hway, if_neg Bool.false_ne_true] at hr
      rw [hr]
      exact hfails (makeWay_sublist _ _)
  | tcp =>
    rw [hkind] at hr hdone
    simp only [registerTcp] at hr
    split at hr
    · rw [hr]
      exact hfails (List.Sublist.refl _)
    · rename_i hnone
      rw [hr]
      refine hdone (List.Sublist.refl _) fun e he heq => hnone ?_
      exact List.any_eq_true.2 ⟨e, he, decide_eq_true heq⟩

/-! ## Joining and leaving -/

/-- The device of the connection is announced. -/
theorem Inv.notes (h : Inv crypto token s) (hlink : s.links.lookup id = some link) (hphase : link.phase = .noting) {i : LinkIdentity}
    (hi : link.identity = some i) (inputs : ChannelInputs) :
    Inv crypto token { s with channel :=
      (Channel.noteAuthenticated crypto.toCrypto inputs i.deviceId i.key.sessionId i.key.signedKey s.channel).2 } := by
  obtain ⟨j, hj, hproven⟩ := (h.links id link hlink).identified (identity_eq_some hi).1
  rw [hi] at hj
  cases hj
  have hholds : link.holds = some (i.deviceId, i.key.sessionId) := by
    rw [holds_of_open (.inl (by rw [hphase]; trivial)), hi]
    rfl
  refine h.channel ((Channel.calls_noteAuthenticated crypto.toCrypto inputs i.deviceId i.key.sessionId i.key.signedKey s.channel
    h.wf).wf h.wf) fun d a ha => ?_
  rcases Channel.keys_noteAuthenticated h.wf inputs i.deviceId i.key.sessionId i.key.signedKey ha with hold | ⟨rfl, rfl⟩
  · exact .inl hold
  · exact .inr ⟨id, link, hlink, hholds, hproven⟩

/-- The connection signs its device off. -/
theorem Inv.disconnects (h : Inv crypto token s) (hlink : s.links.lookup id = some link) {d : DeviceId} {session : SessionId}
    (hphase : link.phase = .leaving d session) (events : List RoutedFrame) :
    Inv crypto token (RelayServer.setLink id { link with phase := .left events }
      { s with channel := (Channel.noteDisconnected d session s.channel).2 }) := by
  have hsound := h.links id link hlink
  have hquiet := h.calls (Channel.calls_noteDisconnected crypto.toCrypto d session) (by rintro _ _ _ _ ⟨⟩)
  have hnone : ∀ e ∈ s.active, e.link ≠ id := by
    rintro e he rfl
    obtain ⟨l, hl, hcarries⟩ := h.live e he
    rw [hlink] at hl
    cases hl
    rcases hcarries.there with hopen | ⟨hclosed, -⟩
    · rw [hphase] at hopen
      exact hopen
    · rw [hphase] at hclosed
      cases hclosed
  have hkept {j : LinkId} {l : RelayLink} (hj : j ≠ id) (hl : s.links.lookup j = some l) :
      (s.links.insert id { link with phase := .left events }).lookup j = some l := by
    rw [Map.lookup_insert, if_neg hj, hl]
  exact {
    token := h.token
    links := fun j l hl => by
      change AList.lookup j (s.links.insert id _) = some l at hl
      rw [Map.lookup_insert] at hl
      split at hl
      · rename_i hj
        cases hl
        subst hj
        refine ⟨hsound.token, hsound.unproven, hsound.identified, fun hr => ?_, nofun⟩
        rcases hr with hr | hr <;> cases hr
      · exact h.links j l hl
    authentic := h.authentic
    sole := h.sole
    admitted := h.admitted
    numbered := h.numbered
    provenNumbered := h.provenNumbered
    opened := fun x hx => (h.opened x hx).imp_left fun hmem => (AList.mem_insert _).2 (.inr hmem)
    placed := fun j hj => by
      rcases (AList.mem_insert _).1 hj with rfl | hmem
      · exact h.placed j (Map.mem_of_lookup hlink)
      · exact h.placed j hmem
    devices := h.devices
    live := fun e he => by
      obtain ⟨l, hl, hcarries⟩ := h.live e he
      exact ⟨l, hkept (hnone e he) hl, hcarries⟩
    wf := hquiet.wf
    keys := fun d' a ha => by
      -- a key that is left has another session, so that another connection holds it
      obtain ⟨hold, hother⟩ := Channel.keys_noteDisconnected crypto.toCrypto h.wf d session ha
      obtain ⟨j, l, hl, hholds, hproven⟩ := h.keys d' a hold
      refine ⟨j, l, hkept ?_ hl, hholds, hproven⟩
      rintro rfl
      rw [hlink] at hl
      cases hl
      rw [RelayLink.holds, hphase] at hholds
      cases hholds
      exact hother ⟨rfl, rfl⟩
    acted := h.acted
    sent := h.sent }

/-- A closed connection is about to sign off. -/
theorem Inv.leaves (h : Inv crypto token s) (hlink : s.links.lookup id = some link) (hphase : link.phase = .closed)
    (hauth : link.handshake.authenticated = true) {handshake : ServerHandshake} (hdone : ¬ handshake.Waiting)
    (hsame : handshake.authenticated = true → handshake = link.handshake) (hnone : ∀ e ∈ s.active, e.link = id → ¬ link.Carries e) :
    Inv crypto token (s.setLink id
      { link with handshake, phase := .leaving link.handshake.deviceIdValue link.handshake.sessionIdValue }) := by
  have hsound := h.links id link hlink
  obtain ⟨i, hi, hproven⟩ := hsound.identified hauth
  obtain ⟨-, hdevice, hsession⟩ := identity_eq_some hi
  refine h.setLink hlink ⟨⟨fun hw => absurd hw hdone, fun hw => absurd hw hdone, fun ha => ?_, ?_, ?_⟩,
    fun e he hid hc => absurd hc (hnone e he hid), fun x hx => ?_⟩
  · refine ⟨i, ?_, hproven⟩
    rw [← hi, hsame ha]
    rfl
  · rintro (hr | hr) <;> cases hr
  · rintro d session hleaving
    cases hleaving
    exact ⟨i, hproven, hdevice.symm, hsession.symm⟩
  · rw [holds_of_open (.inr hphase), hi] at hx
    rw [RelayLink.holds, hdevice, hsession]
    exact hx

/-! ## Steps and runs -/

theorem Inv.stepLink (h : Inv crypto token s) (hlink : s.links.lookup id = some link) (e : RelayServerEvent) :
    Inv crypto token (s.stepLink crypto id link e) := by
  have hsound := h.links id link hlink
  have hserves (hphase : link.phase = .serving) : link.phase.Open := by rw [hphase]; trivial
  cases e with
  | accept | opened | dropped => exact h
  | streamStarted =>
    unfold RelayServer.stepLink
    dsimp only
    split
    · rename_i hcase
      refine h.setLink hlink ⟨⟨hsound.token, hsound.unproven, hsound.identified, fun hr => ?_, hsound.leaving⟩,
        fun e _ _ hc => ⟨hc.kind, hc.device, hc.there, fun _ => rfl⟩, fun x hx => hx⟩
      exact ⟨(hsound.registering hr).1, fun _ => rfl⟩
    · exact h
  | expire _ now =>
    unfold RelayServer.stepLink
    dsimp only
    split
    · rename_i hphase
      have hf := follows_stalled hsound hphase (ServerHandshake.expire_stalled now link.handshake)
      split
      · exact h.setLink hlink (hf.trans (follows_failed hf.sound (hserves hphase)))
      · exact h.setLink hlink hf
    · exact h
  | frame _ frame inputs =>
    unfold RelayServer.stepLink
    dsimp only
    split
    · rename_i hcase
      split
      · rename_i hauth
        exact h.handleControlFrame hlink hcase.1 hauth frame inputs
      · rename_i hauth
        exact h.handleAuthFrame hlink hcase.1 hcase.2 (by simpa using hauth) frame inputs
    · exact h
  | datagram _ payload inputs =>
    unfold RelayServer.stepLink
    dsimp only
    split
    · rename_i hcase
      obtain ⟨i, hi, hproven⟩ := hsound.identified hcase.2.2
      have hrouted := h.routePacket hproven payload inputs
      rw [← (identity_eq_some hi).2.1] at hrouted
      split
      · exact hrouted.setLink hlink (follows_routing (hrouted.links id link hlink) (hserves hcase.2.1) _)
      · exact hrouted
    · exact h
  | register =>
    unfold RelayServer.stepLink
    dsimp only
    split
    · rename_i hphase
      exact h.register hlink hphase rfl
    · exact h
  | note _ inputs =>
    unfold RelayServer.stepLink
    dsimp only
    split
    · rename_i i hphase hi
      have hnoted := h.notes hlink hphase hi inputs
      have hopen : link.phase.Open := by rw [hphase]; trivial
      split
      · exact hnoted.setLink hlink (follows_routing (hnoted.links id link hlink) hopen _)
      · exact hnoted.setLink hlink (follows_failed (hnoted.links id link hlink) hopen)
    · exact h
  | route _ reached =>
    unfold RelayServer.stepLink
    dsimp only
    split
    · rename_i hphase
      refine h.setLink hlink (follows_phase hsound (by rw [hphase]; trivial) (.inl ?_) ?_)
      · trivial
      · rintro (hr | hr) <;> cases hr
    · rename_i frames rest hphase
      have hrouted := h.route frames reached
      exact hrouted.setLink hlink (follows_routing (hrouted.links id link hlink) (by rw [hphase]; trivial) _)
    · exact h
  | streamClosed =>
    unfold RelayServer.stepLink
    dsimp only
    split
    · rename_i hcase
      have herased := h.eraseActive id
      refine herased.setLink hlink ⟨⟨hsound.token, hsound.unproven, hsound.identified, fun hr => ?_, hsound.leaving⟩,
        fun e he hid _ => ?_, fun x hx => hx⟩
      · rw [show _ = link.phase from rfl, hcase.2] at hr
        rcases hr with hr | hr <;> cases hr
      · exact absurd hid (of_decide_eq_true (List.mem_filter.1 he).2)
    · exact h
  | close =>
    unfold RelayServer.stepLink
    dsimp only
    split
    · rename_i hphase
      split
      · have herased := h.eraseActive id
        refine herased.setLink hlink ⟨⟨hsound.token, hsound.unproven, hsound.identified, fun hr => ?_, nofun⟩,
          fun e he hid _ => ?_, fun x hx => ?_⟩
        · rcases hr with hr | hr <;> cases hr
        · exact absurd hid (of_decide_eq_true (List.mem_filter.1 he).2)
        · rw [holds_of_open (.inl (hserves hphase))] at hx
          exact hx
      · rename_i hkind
        refine h.setLink hlink (follows_phase hsound (hserves hphase) (.inr ⟨rfl, hkind⟩) ?_)
        rintro (hr | hr) <;> cases hr
    · exact h
  | leave =>
    unfold RelayServer.stepLink
    dsimp only
    split
    · rename_i hphase
      have hquic (hkind : link.kind = .quic) (e : ActiveControlStream) : ¬ link.Carries e := by
        rintro hc
        rcases hc.there with hopen | ⟨-, htcp⟩
        · rw [hphase] at hopen
          exact hopen
        · rw [hkind] at htcp
          cases htcp
      split
      · rename_i hauth
        split
        · rename_i hkind
          exact h.leaves hlink hphase hauth (by rintro (hw | hw) <;> cases hw) nofun fun e _ _ => hquic hkind e
        · have herased := h.eraseActive id
          refine herased.leaves hlink hphase hauth ?_ (fun _ => rfl) fun e he hid _ => ?_
          · rintro (hw | hw) <;> simp [ServerHandshake.authenticated, hw] at hauth
          · exact absurd hid (of_decide_eq_true (List.mem_filter.1 he).2)
      · rename_i hauth
        have hidentity : link.identity = none := identity_eq_none (by simpa using hauth)
        refine h.removeLink (fun e he hid => ?_) fun l hl => ?_
        · obtain ⟨l, hl, hc⟩ := h.live e he
          rw [hid, hlink] at hl
          cases hl
          obtain ⟨i, hi, -⟩ := hc.device
          rw [hidentity] at hi
          cases hi
        · rw [hlink] at hl
          cases hl
          rw [holds_of_open (.inr hphase), hidentity]
          rfl
    · exact h
  | disconnect =>
    unfold RelayServer.stepLink
    dsimp only
    split
    · rename_i d session hphase
      split
      · exact h.disconnects hlink hphase _
      · exact h.disconnects hlink hphase _
    · exact h
  | finish _ reached =>
    unfold RelayServer.stepLink
    dsimp only
    split
    · rename_i events hphase
      refine (h.route events reached).removeLink (fun e he hid => ?_) fun l hl => ?_
      · obtain ⟨l, hl, hc⟩ := h.live e he
        rw [hid, hlink] at hl
        cases hl
        rcases hc.there with hopen | ⟨hclosed, -⟩
        · rw [hphase] at hopen
          exact hopen
        · rw [hphase] at hclosed
          cases hclosed
      · rw [show AList.lookup id s.links = some l from hl] at hlink
        cases hlink
        rw [RelayLink.holds, hphase]
    · exact h

theorem Inv.accepts (h : Inv crypto token s) {admissions : SendBudget} (ticket : SendBudget.Ticket) :
    Inv crypto token { s with admissions, admitted := s.admitted ++ [(s.nextLink, ticket)], nextLink := s.nextLink + 1 } := by
  have hnew : s.nextLink ∉ s.admitted.map (·.1) := by
    rintro hmem
    obtain ⟨x, hx, hid⟩ := List.mem_map.1 hmem
    have hlt := h.numbered x hx
    rw [hid] at hlt
    exact lt_irrefl _ hlt
  refine { h with
    admitted := ?_
    numbered := fun x hx => ?_
    provenNumbered := fun x hx => (h.provenNumbered x hx).trans (Nat.lt_succ_self _)
    opened := fun x hx => ?_
    placed := fun id hid => ?_ }
  · rw [List.map_append]
    refine List.nodup_append.2 ⟨h.admitted, List.nodup_singleton _, fun id hid id' hid' => ?_⟩
    rw [List.mem_singleton.1 hid']
    rintro rfl
    exact hnew hid
  · rcases List.mem_append.1 hx with hold | hnow
    · exact (h.numbered x hold).trans (Nat.lt_succ_self _)
    · rw [List.mem_singleton.1 hnow]
      exact Nat.lt_succ_self _
  · refine (h.opened x hx).imp_right fun hnot hmem => ?_
    rw [List.map_append, List.mem_append] at hmem
    rcases hmem with hold | hnow
    · exact hnot hold
    · exact absurd (h.provenNumbered x hx) (by rw [List.mem_singleton.1 hnow]; exact lt_irrefl _)
  · rw [List.map_append]
    exact List.mem_append_left _ (h.placed id hid)

theorem Inv.drops (h : Inv crypto token s) (hnone : id ∉ s.links) : Inv crypto token (s.removeLink id) := by
  have hlookup : s.links.lookup id = none := AList.lookup_eq_none.2 hnone
  refine h.removeLink (fun e he hid => ?_) fun l hl => ?_
  · obtain ⟨l, hl, -⟩ := h.live e he
    rw [hid, hlookup] at hl
    cases hl
  · rw [hlookup] at hl
    cases hl

theorem Inv.step (h : Inv crypto token s) (e : RelayServerEvent) : Inv crypto token (s.step crypto e) := by
  cases e with
  | accept =>
    unfold RelayServer.step
    dsimp only
    split
    · exact h.accepts _
    · exact { h with }
  | opened id kind binding deadline =>
    unfold RelayServer.step
    dsimp only
    split
    · rename_i hcase
      split
      · rename_i handshake hmake
        simp only [ServerHandshake.make, bind_eq_ok, check_eq_ok, exists_const, Except.ok.injEq] at hmake
        obtain ⟨-, rfl⟩ := hmake
        exact h.opens hcase.1 hcase.2 rfl rfl kind
      · exact h.drops hcase.2
    · exact h
  | dropped id =>
    unfold RelayServer.step
    dsimp only
    split
    · exact h
    · rename_i hnone
      exact h.drops hnone
  | streamStarted id | expire id | frame id | datagram id | register id | note id | route id | streamClosed id | close id
  | leave id | disconnect id | finish id =>
    unfold RelayServer.step
    dsimp only
    split
    · rename_i link hlink
      exact h.stepLink hlink _
    · exact h

theorem inv_run (token : AuthToken) (maxConnections : UInt64) (events : ℕ → RelayServerEvent) (k : ℕ) :
    Inv crypto token (run crypto token maxConnections events k) := by
  have hnone {κ : Type} [DecidableEq κ] {ν : Type} {j : κ} {x : ν} (hx : (∅ : Map κ ν).lookup j = some x) {P : Prop} : P := by
    rw [AList.lookup_empty] at hx
    cases hx
  refine states_inv (Inv crypto token) (fun _ _ => True) ?_ (fun _ e _ h => h.step e) (fun _ => trivial) k
  exact {
    token := rfl
    links := fun _ _ hl => hnone hl
    authentic := fun _ hx => absurd hx List.not_mem_nil
    sole := List.nodup_nil
    admitted := List.nodup_nil
    numbered := fun _ hx => absurd hx List.not_mem_nil
    provenNumbered := fun _ hx => absurd hx List.not_mem_nil
    opened := fun _ hx => absurd hx List.not_mem_nil
    placed := fun _ hid => absurd hid (AList.notMem_empty _)
    devices := List.nodup_nil
    live := fun _ he => absurd he List.not_mem_nil
    wf := Service.wf_run crypto.toCrypto (fun _ => .restart) 0
    keys := fun _ _ ha => hnone ha
    acted := fun _ hx => absurd hx List.not_mem_nil
    sent := fun _ hx => absurd hx List.not_mem_nil }

/-! ## Places -/

/-- The budget counts the places that are taken. -/
structure Admits (maxConnections : UInt64) (admissions : SendBudget) (admitted : List (LinkId × SendBudget.Ticket)) : Prop where
  limits : admissions.limits = ⟨maxConnections, maxConnections, 0, 0⟩
  bytes : admissions.bytes.toNat = admitted.length
  frames : admissions.frames.toNat = admitted.length
  room : admitted.length ≤ maxConnections.toNat
  tickets : ∀ x ∈ admitted, x.2 = ⟨true, 1, true⟩

variable {maxConnections : UInt64}

theorem Admits.accepts {b b' : SendBudget} {admitted : List (LinkId × SendBudget.Ticket)} {ticket : SendBudget.Ticket}
    (h : Admits maxConnections b admitted) (hreserve : b.reserve 1 true = (some ticket, b')) :
    Admits maxConnections b' (admitted ++ [(id, ticket)]) := by
  obtain ⟨hlimits, hbytes, hframes, hroom, htickets⟩ := h
  simp only [SendBudget.reserve, hlimits, if_true, UInt64.sub_zero] at hreserve
  split at hreserve
  · cases hreserve
  · rename_i hcase
    cases hreserve
    simp only [not_or, UInt64.not_lt, UInt64.not_le] at hcase
    have hlt := UInt64.lt_iff_toNat_lt.1 hcase.2.2.2
    have hmax := maxConnections.toNat_lt
    refine ⟨rfl, ?_, ?_, ?_, fun x hx => ?_⟩
    · rw [UInt64.toNat_add, hbytes, List.length_append, List.length_singleton]
      exact Nat.mod_eq_of_lt (by rw [show (1 : UInt64).toNat = 1 from rfl]; omega)
    · rw [UInt64.toNat_add, hframes, List.length_append, List.length_singleton]
      exact Nat.mod_eq_of_lt (by rw [show (1 : UInt64).toNat = 1 from rfl]; omega)
    · rw [List.length_append, List.length_singleton]
      omega
    · rcases List.mem_append.1 hx with hold | hnow
      · exact htickets x hold
      · rw [List.mem_singleton.1 hnow]

theorem Admits.refused {b b' : SendBudget} {admitted : List (LinkId × SendBudget.Ticket)}
    (h : Admits maxConnections b admitted) (hreserve : b.reserve 1 true = (none, b')) : Admits maxConnections b' admitted := by
  rcases b.reserve_cases 1 true with hnone | hsome
  · rw [hreserve] at hnone
    cases hnone
    exact ⟨h.limits, h.bytes, h.frames, h.room, h.tickets⟩
  · rw [hreserve] at hsome
    cases hsome

theorem Admits.removeLink {s : RelayServer} (h : Admits maxConnections s.admissions s.admitted) (id : LinkId) :
    Admits maxConnections (s.removeLink id).admissions (s.removeLink id).admitted := by
  unfold RelayServer.removeLink
  dsimp only
  cases hfind : s.admitted.find? (·.1 = id) with
  | none =>
    have hsame : s.admitted.eraseP (·.1 = id) = s.admitted :=
      List.eraseP_of_forall_not fun x hx => by simpa using List.find?_eq_none.1 hfind x hx
    rw [hsame]
    exact h
  | some x =>
    have hmem := List.mem_of_find?_eq_some hfind
    have hlength := List.length_eraseP_of_mem hmem (List.find?_some hfind)
    have hpos := List.length_pos_of_mem hmem
    have hless {w : UInt64} (hw : w.toNat = s.admitted.length) : (w - 1).toNat = s.admitted.length - 1 := by
      rw [UInt64.toNat_sub_of_le _ _ (UInt64.le_iff_toNat_le.2 (by rw [hw]; exact hpos)), hw]
      rfl
    dsimp only
    rw [h.tickets x hmem, SendBudget.release, if_pos rfl]
    refine ⟨h.limits, ?_, ?_, ?_, fun y hy => h.tickets y (List.mem_of_mem_eraseP hy)⟩
    · rw [hlength]
      exact hless h.bytes
    · rw [hlength]
      exact hless h.frames
    · rw [hlength]
      exact (Nat.sub_le _ _).trans h.room

theorem places_handleControlFrame (frame : ClientFrame) (inputs : FrameInputs) :
    (s.handleControlFrame crypto id link frame inputs).admissions = s.admissions ∧
      (s.handleControlFrame crypto id link frame inputs).admitted = s.admitted := by
  unfold RelayServer.handleControlFrame
  dsimp only
  cases frame <;> dsimp only <;> split <;> (try split) <;> exact ⟨rfl, rfl⟩

theorem Admits.stepLink {s : RelayServer} (h : Admits maxConnections s.admissions s.admitted) (id : LinkId) (link : RelayLink)
    (e : RelayServerEvent) :
    Admits maxConnections (s.stepLink crypto id link e).admissions (s.stepLink crypto id link e).admitted := by
  unfold RelayServer.stepLink
  cases e with
  | accept | opened | dropped => exact h
  | frame _ frame inputs =>
    dsimp only
    split
    · split
      · obtain ⟨hadmissions, hadmitted⟩ := @places_handleControlFrame crypto s id link frame inputs
        rw [hadmissions, hadmitted]
        exact h
      · cases frame <;> exact h
    · exact h
  | leave =>
    dsimp only
    split
    · split
      · split <;> exact h
      · exact h.removeLink id
    · exact h
  | finish _ reached =>
    dsimp only
    split
    · exact Admits.removeLink (s := s.route _ reached) h id
    · exact h
  | streamStarted | expire | route | streamClosed | disconnect =>
    dsimp only
    split <;> (try split) <;> exact h
  | datagram | note | close =>
    dsimp only
    split <;> (try split) <;> exact h
  | register =>
    dsimp only
    split
    · split <;> (try dsimp only [registerControlStream, registerTcp]) <;> (try split) <;> exact h
    · exact h

theorem Admits.step {s : RelayServer} (h : Admits maxConnections s.admissions s.admitted) (e : RelayServerEvent) :
    Admits maxConnections (s.step crypto e).admissions (s.step crypto e).admitted := by
  unfold RelayServer.step
  cases e with
  | accept =>
    dsimp only
    split
    · rename_i hreserve
      exact h.accepts hreserve
    · rename_i hreserve
      exact h.refused hreserve
  | opened id kind binding deadline =>
    dsimp only
    split
    · split
      · exact h
      · exact h.removeLink id
    · exact h
  | dropped id =>
    dsimp only
    split
    · exact h
    · exact h.removeLink id
  | streamStarted id | expire id | frame id | datagram id | register id | note id | route id | streamClosed id | close id
  | leave id | disconnect id | finish id =>
    dsimp only
    split
    · exact h.stepLink id _ _
    · exact h

theorem admits_run (token : AuthToken) (maxConnections : UInt64) (events : ℕ → RelayServerEvent) (k : ℕ) :
    Admits maxConnections (run crypto token maxConnections events k).admissions (run crypto token maxConnections events k).admitted :=
  states_inv (fun s : RelayServer => Admits maxConnections s.admissions s.admitted) (fun _ _ => True)
    ⟨rfl, rfl, rfl, Nat.zero_le _, fun _ hx => absurd hx List.not_mem_nil⟩ (fun _ e _ h => h.step e) (fun _ => trivial) k

theorem Inv.links_le (h : Inv crypto token s) : s.links.size ≤ s.admitted.length := by
  have hkeys : s.links.keys ⊆ s.admitted.map (·.1) := fun id hid => h.placed id (AList.mem_keys.2 hid)
  have hle := (List.subperm_of_subset s.links.keys_nodup hkeys).length_le
  rw [List.length_map] at hle
  exact (List.length_map _).symm.trans_le hle

/-- No connection has two entries. -/
theorem Inv.active_le (h : Inv crypto token s) : s.active.length ≤ s.links.size := by
  have hlinks : (s.active.map (·.link)).Nodup := by
    refine h.devices.of_map.map_on fun e he e' he' heq => ?_
    obtain ⟨l, hl, hc⟩ := h.live e he
    obtain ⟨l', hl', hc'⟩ := h.live e' he'
    rw [heq, hl'] at hl
    cases hl
    obtain ⟨i, hi, hdevice⟩ := hc.device
    obtain ⟨i', hi', hdevice'⟩ := hc'.device
    rw [hi] at hi'
    cases hi'
    exact List.inj_on_of_nodup_map h.devices he he' (hdevice.symm.trans hdevice')
  have hsub : s.active.map (·.link) ⊆ s.links.keys := by
    rintro id hid
    obtain ⟨e, he, rfl⟩ := List.mem_map.1 hid
    obtain ⟨l, hl, -⟩ := h.live e he
    exact AList.mem_keys.1 (Map.mem_of_lookup hl)
  have hle := (List.subperm_of_subset hlinks hsub).length_le
  rw [List.length_map] at hle
  exact hle.trans_eq (List.length_map _)

/-! ## The relay -/

/-- What a relay guarantees to its devices. -/
structure Safe (crypto : AuthCrypto) (token : AuthToken) (maxConnections : UInt64) (s : RelayServer) : Prop where
  /-- A device has one stream on the list at most. -/
  oneStream : (s.active.map (·.deviceId)).Nodup
  /-- Every stream on the list is open, on a connection that is there and has authenticated the device. -/
  sendable : ∀ e ∈ s.active, ∃ link, s.links.lookup e.link = some link ∧ link.Carries e
  /-- A session key that the relay hands to peers is that of a connection which has not signed off. -/
  present : ∀ d a, s.channel.service.activeKeys.lookup d = some a →
    ∃ id link, s.links.lookup id = some link ∧ link.holds = some (d, a.sessionId) ∧ (id, ⟨d, a⟩) ∈ s.proven
  /-- A connection authenticates one device, which has proved that it has its key and the token. -/
  authentic : (s.proven.map (·.1)).Nodup ∧ ∀ x ∈ s.proven, x.2.Authentic crypto token
  /-- The channel is only asked for the device of the connection. -/
  acts : ∀ x ∈ s.acted, ∃ i, (x.1, i) ∈ s.proven ∧ i.deviceId = x.2
  /-- What is for a device is only sent over a connection of the device. -/
  routes : ∀ x ∈ s.sent, ∃ i, (x.1, i) ∈ s.proven ∧ i.deviceId = x.2.recipient
  places : s.active.length ≤ s.links.size ∧ s.links.size ≤ maxConnections.toNat

/-- However the callbacks and the workers of the connections interleave. -/
theorem relay_server_safe (token : AuthToken) (maxConnections : UInt64) (events : ℕ → RelayServerEvent) (k : ℕ) :
    Safe crypto token maxConnections (run crypto token maxConnections events k) := by
  have h : Inv crypto token (run crypto token maxConnections events k) := inv_run token maxConnections events k
  have hadmits : Admits maxConnections _ _ := @admits_run crypto token maxConnections events k
  have hauthentic := h.authentic
  rw [h.token] at hauthentic
  exact ⟨h.devices, h.live, h.keys, ⟨h.sole, hauthentic⟩, h.acted, h.sent, h.active_le, h.links_le.trans hadmits.room⟩

/-- Device 3 comes over TLS, and over QUIC before its TLS connection has announced it. -/
def overtaken : ℕ → RelayServerEvent
  | 0 | 1 => .accept
  | 2 => .opened 0 .tcp 1 100
  | 3 => .opened 1 .quic 2 100
  | 4 => .streamStarted 1
  | 5 => greet 0
  | 6 => greet 1
  | 7 => prove 0 13
  | 8 => prove 1 14
  | 9 => .register 0
  | 10 => .register 1
  | 11 => .note 1 {}
  | 12 => .note 0 {}
  | 13 | 14 => .route 0 []
  | 15 => .close 0
  | 16 => .leave 0
  | _ => .disconnect 0
where
  greet (id : LinkId) : RelayServerEvent :=
    .frame id (.hello { type := MessageType.clientHello.code, requestId := 1, payload := encodeClientHello ⟨3, 5, 11⟩ })
      { auth := { nonce := .ok 12 } }
  prove (id : LinkId) (session : SessionId) : RelayServerEvent :=
    .frame id
      (.proof { type := MessageType.clientAuth.code, requestId := 1
                payload := encodeClientProof ⟨Exchange.plainAuthCrypto.sign 3 (makeAuthTranscript 3 5 11 12),
                  Exchange.plainAuthCrypto.hmac 9 (makeAuthTranscript 3 5 11 12)⟩ })
      { auth := { sessionIds := [session] } }

-- the late announcement replaces the session that took over, and takes its own away: a stream without a key
example :
    let s := run Exchange.plainAuthCrypto 9 4 overtaken 18
    s.active = [⟨3, 1, false⟩] ∧ s.proven.map (·.1) = [0, 1] ∧ s.channel.service.activeKeys.lookup 3 = none := by
  decide +kernel

end RelayServer

end LanLink
