import LanLink.Auth.ReplayWindow
import LanLink.Transport.PacketBridge
/-!
# What a bridge does to its ciphers

A packet, whichever way it goes, changes a session only through calls of its
cipher: `decrypt` for what came in, `encrypt` for what goes out. Each rule below
says so of one way of building a call.
-/
open LanLink.Lib

namespace LanLink

namespace NetworkPacketCipher
variable {crypto : PacketCrypto}

theorem run_append (c : NetworkPacketCipher) (ops ops' : List CipherOp) :
    c.run crypto (ops ++ ops') = (c.run crypto ops).run crypto ops' := List.foldl_append ..

theorem sent_append (c : NetworkPacketCipher) (ops ops' : List CipherOp) :
    c.sent crypto (ops ++ ops') = c.sent crypto ops ++ (c.run crypto ops).sent crypto ops' := by
  induction ops generalizing c with
  | nil => rfl
  | cons op ops ih =>
    rw [List.cons_append, sent, sent, ih, List.append_assoc]
    rfl

end NetworkPacketCipher

/-- The packet of a call of the send handler. -/
def HandlerCall.sent : HandlerCall → Option EncryptedNetworkPacket
  | .send p => some p
  | .inject _ => none

/-! ## Inside a session -/

namespace Session

/-- A session as it was, but for its cipher and its filters. -/
structure Same (s t : Session) : Prop where
  peers : t.peers = s.peers
  key : t.key = s.key
  ownSignedKey : t.ownSignedKey = s.ownSignedKey
  ownDeviceId : t.ownDeviceId = s.ownDeviceId

theorem Same.refl (s : Session) : Same s s := ⟨rfl, rfl, rfl, rfl⟩

theorem Same.trans {s t u : Session} (h : Same s t) (h' : Same t u) : Same s u :=
  ⟨h'.peers.trans h.peers, h'.key.trans h.key, h'.ownSignedKey.trans h.ownSignedKey, h'.ownDeviceId.trans h.ownDeviceId⟩

/-- From `s` to `t`, the cipher encrypted the packets `ps`, and what it returned was sent. -/
structure Sends (crypto : PacketCrypto) (ps : List Bytes) (s t : Session × List HandlerCall) : Prop where
  same : Same s.1 t.1
  cipher : t.1.cipher = s.1.cipher.run crypto (ps.map .encrypt)
  calls : ∃ new, t.2 = s.2 ++ new ∧ new.filterMap HandlerCall.sent = (s.1.cipher.sent crypto (ps.map .encrypt)).map (·.packet)

theorem Sends.refl (crypto : PacketCrypto) (s : Session × List HandlerCall) : Sends crypto [] s s :=
  ⟨.refl _, rfl, [], by simp, rfl⟩

theorem Sends.trans {crypto : PacketCrypto} {ps qs : List Bytes} {s t u : Session × List HandlerCall}
    (h : Sends crypto ps s t) (h' : Sends crypto qs t u) : Sends crypto (ps ++ qs) s u := by
  obtain ⟨new, hnew, hsent⟩ := h.calls
  obtain ⟨new', hnew', hsent'⟩ := h'.calls
  refine ⟨h.same.trans h'.same, ?_, new ++ new', ?_, ?_⟩
  · rw [h'.cipher, h.cipher, List.map_append, NetworkPacketCipher.run_append]
  · rw [hnew', hnew, List.append_assoc]
  · rw [List.filterMap_append, hsent, hsent', h.cipher, List.map_append, NetworkPacketCipher.sent_append, List.map_append]

/-- `x` only encrypts and sends, thrown or not. -/
def OnlySends {α : Type} (crypto : PacketCrypto) (x : SessionCall α) : Prop :=
  ∀ s, Action.Post x s fun _ t => ∃ ps, Sends crypto ps s t

section
variable {α β : Type} {crypto : PacketCrypto}

theorem onlySends_pure (a : α) : OnlySends crypto (pure a : SessionCall α) := fun s => ⟨[], .refl crypto s⟩

theorem onlySends_lift (x : Except Exn α) : OnlySends crypto (Action.lift x : SessionCall α) := fun s => ⟨[], .refl crypto s⟩

theorem onlySends_view (f : Session → α) : OnlySends crypto (view f) := fun s => ⟨[], .refl crypto s⟩

theorem onlySends_change {f : Session → α × Session} (hf : ∀ s, Same s (f s).2) : OnlySends crypto (change f) := by
  intro s
  refine ⟨[], ?_, rfl, [], (List.append_nil _).symm, rfl⟩
  exact ⟨(hf s.1).peers, (hf s.1).key, (hf s.1).ownSignedKey, (hf s.1).ownDeviceId⟩

theorem onlySends_inject (packet : Bytes) : OnlySends crypto (call (.inject packet)) :=
  fun _ => ⟨[], .refl _, rfl, [.inject packet], rfl, rfl⟩

theorem OnlySends.bind {x : SessionCall α} {f : α → SessionCall β} (hx : OnlySends crypto x)
    (hf : ∀ a, OnlySends crypto (f a)) : OnlySends crypto (x >>= f) := by
  intro s
  rw [Action.post_bind]
  refine (hx s).mono fun r t ⟨ps, hps⟩ => ?_
  cases r with
  | error e => exact ⟨ps, hps⟩
  | ok a => exact (hf a t).mono fun _ u ⟨qs, hqs⟩ => ⟨ps ++ qs, hps.trans hqs⟩

theorem onlySends_ite {c : Prop} [Decidable c] {x y : SessionCall α} (hx : OnlySends crypto x)
    (hy : OnlySends crypto y) : OnlySends crypto (if c then x else y) := by
  split
  · exact hx
  · exact hy

theorem onlySends_each {f : α → SessionCall Unit} (hf : ∀ a, OnlySends crypto (f a)) (l : List α) :
    OnlySends crypto (each f l) := by
  induction l with
  | nil => exact onlySends_pure ()
  | cons a l ih => exact (hf a).bind fun _ => ih

theorem onlySends_encryptAndSend (packet : Bytes) : OnlySends crypto (encryptAndSend crypto packet) := by
  intro s
  refine ⟨[packet], ?_⟩
  unfold encryptAndSend onCipher call
  simp only [Bind.bind, Action.bind, Action.modify]
  -- nothing is sent when `encrypt` throws
  cases h : (NetworkPacketCipher.encrypt crypto packet s.1.cipher).1 with
  | error e =>
    refine ⟨⟨rfl, rfl, rfl, rfl⟩, rfl, [], by simp, ?_⟩
    simp [NetworkPacketCipher.sent, NetworkPacketCipher.sends, h]
  | ok p =>
    refine ⟨⟨rfl, rfl, rfl, rfl⟩, rfl, [.send p], rfl, ?_⟩
    simp [NetworkPacketCipher.sent, NetworkPacketCipher.sends, h, HandlerCall.sent]

/-- An ICMP error, if there is one. -/
theorem onlySends_option {x : Option Bytes} {f : Bytes → SessionCall Unit} (hf : ∀ b, OnlySends crypto (f b)) :
    OnlySends crypto (match x with
      | none => pure ()
      | some b => f b) := by
  cases x with
  | none => exact onlySends_pure ()
  | some b => exact hf b

end

end Session

namespace VirtualPacketBridge
open Session

section
variable (crypto : PacketCrypto) (inputs : BridgeInputs)

theorem onlySends_sendRouted (mtu : ℕ) (packet : Bytes) (h : Ipv4Header) (destination : UInt32) :
    OnlySends crypto (sendRouted crypto mtu packet h destination) := by
  refine (onlySends_view _).bind fun own => (onlySends_lift _).bind fun safe => ?_
  refine onlySends_ite (onlySends_pure ()) (onlySends_ite (onlySends_ite ?_ (onlySends_pure ())) ?_)
  · exact (onlySends_lift _).bind fun error => onlySends_option onlySends_inject
  · refine (onlySends_lift _).bind fun fragments => onlySends_each (fun fragment => ?_) fragments
    exact (onlySends_lift _).bind fun outer => onlySends_encryptAndSend outer

theorem onlySends_offerOutbound (mtu : ℕ) (packet : Bytes) : OnlySends crypto (offerOutbound crypto inputs mtu packet) := by
  refine onlySends_change fun s => ?_
  dsimp only
  split_ifs <;> exact ⟨rfl, rfl, rfl, rfl⟩

theorem onlySends_sendOutbound (mtu : ℕ) (packet : Bytes) (header : Ipv4Header) :
    OnlySends crypto (sendOutbound crypto mtu packet header) := by
  refine onlySends_ite ?_ ?_
  · exact (onlySends_lift _).bind fun error => onlySends_option onlySends_inject
  · exact (onlySends_lift _).bind fun fragments => onlySends_each onlySends_encryptAndSend fragments

theorem onlySends_inboundRouted (acceptRoutes forward : Bool) (mtu : ℕ) (delivery : ForwardedNetworkPacket) (outer : Bytes) :
    OnlySends crypto (inboundRouted acceptRoutes forward mtu delivery outer) := by
  refine (onlySends_lift _).bind fun inner => (onlySends_lift _).bind fun h => (onlySends_lift _).bind fun safe => ?_
  refine (onlySends_view _).bind fun taken => onlySends_ite ?_ (onlySends_pure ())
  exact (onlySends_lift _).bind fun fragments => onlySends_each onlySends_inject fragments

theorem onlySends_admitFanout (mtu : ℕ) (delivery : ForwardedNetworkPacket) (plaintext : Bytes) :
    OnlySends crypto (admitFanout crypto inputs mtu delivery plaintext) := by
  refine onlySends_change fun s => ?_
  dsimp only
  split_ifs <;> exact ⟨rfl, rfl, rfl, rfl⟩

theorem onlySends_injectInbound (mtu : ℕ) (delivery : ForwardedNetworkPacket) (plaintext : Bytes) (header : Ipv4Header) :
    OnlySends crypto (injectInbound crypto mtu delivery plaintext header) := by
  refine (onlySends_view _).bind fun peers => onlySends_ite ?_ ?_
  · exact (onlySends_lift _).bind fun error => onlySends_option onlySends_encryptAndSend
  · refine (onlySends_lift _).bind fun fragments => onlySends_ite ?_ (onlySends_pure ())
    exact onlySends_each onlySends_inject fragments

/-- A packet that came in is decrypted or refused; a refused one has no effect. -/
theorem receive_cases (acceptRoutes forward : Bool) (mtu : ℕ) (delivery : ForwardedNetworkPacket)
    (s : Session × List HandlerCall) :
    (∃ e, NetworkPacketCipher.decrypt crypto delivery.packet delivery.senderDeviceId s.1.cipher = (.error e, s.1.cipher) ∧
      receive crypto inputs acceptRoutes forward mtu delivery s = (.error e, s)) ∨
    ∃ plaintext c, NetworkPacketCipher.decrypt crypto delivery.packet delivery.senderDeviceId s.1.cipher = (.ok plaintext, c) ∧
      Action.Post (receive crypto inputs acceptRoutes forward mtu delivery) s fun _ t =>
        ∃ ps, Sends crypto ps ({ s.1 with cipher := c }, s.2) t := by
  rcases NetworkPacketCipher.decrypt_cases crypto s.1.cipher delivery.packet delivery.senderDeviceId with
    ⟨e, -, h⟩ | ⟨r, plaintext, -, h⟩
  · refine .inl ⟨e, h, ?_⟩
    simp only [receive, Bind.bind, Action.bind, onCipher, h]
  · refine .inr ⟨plaintext, _, h, ?_⟩
    rw [receive, Action.post_bind]
    simp only [Action.Post, onCipher, h]
    refine OnlySends.bind (x := view fun s => s.peers) (onlySends_view _) (fun peers => ?_) _
    refine onlySends_ite (onlySends_inboundRouted crypto _ _ _ _ _) ?_
    refine (onlySends_lift _).bind fun header => onlySends_ite ?_ (onlySends_injectInbound crypto _ _ _ _)
    refine (onlySends_admitFanout crypto inputs _ _ _).bind fun admitted => ?_
    exact onlySends_ite (onlySends_injectInbound crypto _ _ _ _) (onlySends_pure ())

end

/-! ## The sessions of a bridge -/

/-- The packets for network `n` among the calls of the handlers. -/
def sentIn (n : NetworkId) (calls : List HandlerCall) : List EncryptedNetworkPacket :=
  (calls.filterMap HandlerCall.sent).filter fun p => p.networkId = n

theorem sentIn_append (n : NetworkId) (calls calls' : List HandlerCall) :
    sentIn n (calls ++ calls') = sentIn n calls ++ sentIn n calls' := by
  simp [sentIn]

/-- The session under `n` holds what its cipher was made from. -/
structure SessionWf (crypto : PacketCrypto) (n : NetworkId) (s : Session) : Prop where
  cipher : s.cipher.Wf crypto
  networkId : s.cipher.networkId = n
  keyEpoch : s.cipher.keyEpoch = s.key.epoch
  networkKey : s.cipher.networkKey = s.key.key
  ownDeviceId : s.cipher.ownDeviceId = s.ownDeviceId
  ownSession : s.cipher.ownSessionPublicKey = s.ownSignedKey.encryptionPublicKey
  ownAddress : s.cipher.ownIpv4Address = s.peers.ownAddress

def Wf (crypto : PacketCrypto) (b : VirtualPacketBridge) : Prop :=
  ∀ n s, b.sessions.lookup n = some s → SessionWf crypto n s

variable {crypto : PacketCrypto} {b b' b'' : VirtualPacketBridge}

theorem sessionWf_of_same {n : NetworkId} {s t : Session} (hl : crypto.Lawful) (hw : SessionWf crypto n s) (hs : Same s t)
    (ops : List CipherOp) (hops : t.cipher = s.cipher.run crypto ops) : SessionWf crypto n t := by
  obtain ⟨hwf, hsame⟩ := NetworkPacketCipher.wf_run hl hw.cipher ops
  rw [← hops] at hwf hsame
  constructor
  · exact hwf
  · rw [hsame.networkId, hw.networkId]
  · rw [hsame.keyEpoch, hw.keyEpoch, hs.key]
  · rw [hsame.networkKey, hw.networkKey, hs.key]
  · rw [hsame.ownDeviceId, hw.ownDeviceId, hs.ownDeviceId]
  · rw [hsame.ownSessionPublicKey, hw.ownSession, hs.ownSignedKey]
  · rw [hsame.ownIpv4Address, hw.ownAddress, hs.peers]

/-- The packets a session sends are for its network. -/
theorem networkId_sent {n : NetworkId} {s : Session} (hl : crypto.Lawful) (hw : SessionWf crypto n s) (ops : List CipherOp)
    {p : EncryptedNetworkPacket} (h : p ∈ (s.cipher.sent crypto ops).map (·.packet)) : p.networkId = n := by
  obtain ⟨x, hx, rfl⟩ := List.mem_map.1 h
  rw [(NetworkPacketCipher.sealed_sent hl hw.cipher hx).networkId, hw.networkId]

/-- The session of `n` stayed, its cipher encrypted some packets, and these are the ones sent into `n`. -/
def Carried (crypto : PacketCrypto) (n : NetworkId) (new : List HandlerCall) : Option Session → Option Session → Prop
  | none, none => sentIn n new = []
  | some s, some t => ∃ ps : List Bytes, Same s t ∧ t.cipher = s.cipher.run crypto (ps.map .encrypt) ∧
      sentIn n new = (s.cipher.sent crypto (ps.map .encrypt)).map (·.packet)
  | _, _ => False

/-- Every session stayed. -/
def Carries (crypto : PacketCrypto) (b b' : VirtualPacketBridge) : Prop :=
  ∃ new, b'.calls = b.calls ++ new ∧ ∀ n, Carried crypto n new (b.sessions.lookup n) (b'.sessions.lookup n)

theorem carried_refl (crypto : PacketCrypto) (n : NetworkId) (x : Option Session) : Carried crypto n [] x x := by
  cases x with
  | none => rfl
  | some s => exact ⟨[], .refl s, rfl, rfl⟩

theorem Carries.refl (crypto : PacketCrypto) (b : VirtualPacketBridge) : Carries crypto b b :=
  ⟨[], by simp, fun n => carried_refl crypto n _⟩

theorem carried_trans {n : NetworkId} {new new' : List HandlerCall} {x y z : Option Session}
    (h : Carried crypto n new x y) (h' : Carried crypto n new' y z) : Carried crypto n (new ++ new') x z := by
  unfold Carried at *
  rcases x with _ | s <;> rcases y with _ | t <;> rcases z with _ | u <;> try contradiction
  · dsimp only at *
    rw [sentIn_append, h, h', List.append_nil]
  · obtain ⟨ps, hsame, hcipher, hsent⟩ := h
    obtain ⟨qs, hsame', hcipher', hsent'⟩ := h'
    refine ⟨ps ++ qs, hsame.trans hsame', ?_, ?_⟩
    · rw [hcipher', hcipher, List.map_append, NetworkPacketCipher.run_append]
    · rw [sentIn_append, hsent, hsent', hcipher, List.map_append, NetworkPacketCipher.sent_append, List.map_append]

theorem Carries.trans (h : Carries crypto b b') (h' : Carries crypto b' b'') : Carries crypto b b'' := by
  obtain ⟨new, hnew, hn⟩ := h
  obtain ⟨new', hnew', hn'⟩ := h'
  exact ⟨new ++ new', by rw [hnew', hnew, List.append_assoc], fun n => carried_trans (hn n) (hn' n)⟩

theorem Carries.wf (h : Carries crypto b b') (hl : crypto.Lawful) (hw : Wf crypto b) : Wf crypto b' := by
  obtain ⟨new, -, hn⟩ := h
  intro n t ht
  have hcarried := hn n
  rw [ht] at hcarried
  cases hs : b.sessions.lookup n with
  | none =>
    rw [hs] at hcarried
    exact hcarried.elim
  | some s =>
    rw [hs] at hcarried
    obtain ⟨ps, hsame, hcipher, -⟩ := hcarried
    exact sessionWf_of_same hl (hw n s hs) hsame _ hcipher

/-- What one session sends. -/
theorem carries_of_sends {n : NetworkId} {s : Session} {t : Session × List HandlerCall} {ps : List Bytes} (hl : crypto.Lawful)
    (hw : SessionWf crypto n s) (hs : b.sessions.lookup n = some s) (h : Sends crypto ps (s, b.calls) t) :
    Carries crypto b { b with sessions := b.sessions.insert n t.1, calls := t.2 } := by
  obtain ⟨new, hnew, hsent⟩ := h.calls
  have hall : ∀ p ∈ (s.cipher.sent crypto (ps.map .encrypt)).map (·.packet), p.networkId = n :=
    fun p hp => networkId_sent hl hw _ hp
  refine ⟨new, hnew, fun m => ?_⟩
  have hnew' : sentIn m new =
      ((s.cipher.sent crypto (ps.map .encrypt)).map (·.packet)).filter fun p => p.networkId = m := by
    rw [← hsent, sentIn]
  dsimp only
  rw [Map.lookup_insert]
  split
  · rename_i heq
    subst heq
    rw [hs]
    refine ⟨ps, h.same, h.cipher, hnew'.trans (List.filter_eq_self.2 fun p hp => ?_)⟩
    simpa using hall p hp
  · rename_i hne
    have hnone : sentIn m new = [] := by
      rw [hnew', List.filter_eq_nil_iff]
      intro p hp
      rw [hall p hp]
      simpa using Ne.symm hne
    cases b.sessions.lookup m with
    | none => exact hnone
    | some u => exact ⟨[], .refl u, rfl, hnone⟩

/-- `x` keeps every session, thrown or not. -/
def AllCarried {α : Type} (crypto : PacketCrypto) (x : BridgeCall α) : Prop :=
  ∀ b, Wf crypto b → Action.Post x b fun _ b' => Carries crypto b b'

section
variable {α β : Type}

theorem allCarried_pure (a : α) : AllCarried crypto (pure a : BridgeCall α) := fun b _ => .refl crypto b

theorem allCarried_lift (x : Except Exn α) : AllCarried crypto (Action.lift x : BridgeCall α) := fun b _ => .refl crypto b

theorem allCarried_gets (f : VirtualPacketBridge → α) : AllCarried crypto (Action.gets f : BridgeCall α) :=
  fun b _ => .refl crypto b

theorem AllCarried.bind (hl : crypto.Lawful) {x : BridgeCall α} {f : α → BridgeCall β} (hx : AllCarried crypto x)
    (hf : ∀ a, AllCarried crypto (f a)) : AllCarried crypto (x >>= f) := by
  intro b hw
  rw [Action.post_bind]
  refine (hx b hw).mono fun r b₁ h₁ => ?_
  cases r with
  | error e => exact h₁
  | ok a => exact (hf a b₁ (h₁.wf hl hw)).mono fun _ b₂ h₂ => h₁.trans h₂

theorem allCarried_onSession (hl : crypto.Lawful) (n : NetworkId) (default : α) {x : SessionCall α}
    (hx : OnlySends crypto x) : AllCarried crypto (onSession n default x) := by
  intro b hw
  unfold Action.Post onSession
  cases hs : b.sessions.lookup n with
  | none => exact .refl crypto b
  | some s =>
    obtain ⟨ps, hps⟩ := hx (s, b.calls)
    exact carries_of_sends hl (hw n s hs) hs hps

theorem allCarried_outboundRouted (hl : crypto.Lawful) (packet : Bytes) : AllCarried crypto (outboundRouted crypto packet) := by
  refine (allCarried_lift _).bind hl fun h => (allCarried_gets _).bind hl fun route => ?_
  match route with
  | none => exact allCarried_pure false
  | some (_, none) => exact allCarried_pure true
  | some (n, some destination) =>
    refine (allCarried_gets _).bind hl fun mtu => ?_
    exact (allCarried_onSession hl n () (onlySends_sendRouted crypto mtu packet h destination)).bind hl fun _ =>
      allCarried_pure true

theorem allCarried_chooseSession (hl : crypto.Lawful) (inputs : BridgeInputs) (mtu : ℕ) (packet : Bytes) (ns : List NetworkId) :
    AllCarried crypto (chooseSession crypto inputs mtu packet ns) := by
  induction ns with
  | nil => exact allCarried_pure none
  | cons n ns ih =>
    refine (allCarried_onSession hl n none (onlySends_offerOutbound crypto inputs mtu packet)).bind hl fun taken => ?_
    match taken with
    | none => exact ih
    | some true => exact allCarried_pure (some n)
    | some false => exact allCarried_pure none

theorem allCarried_outbound (hl : crypto.Lawful) (inputs : BridgeInputs) (packet : Bytes) :
    AllCarried crypto (outbound crypto inputs packet) := by
  unfold outbound
  split
  · exact allCarried_pure ()
  · refine (allCarried_outboundRouted hl packet).bind hl fun routed => ?_
    split
    · exact allCarried_pure ()
    · refine (allCarried_lift _).bind hl fun header => (allCarried_gets _).bind hl fun mtu => ?_
      refine (allCarried_gets _).bind hl fun ids => (allCarried_chooseSession hl inputs mtu packet ids).bind hl fun chosen => ?_
      match chosen with
      | none => exact allCarried_pure ()
      | some n => exact allCarried_onSession hl n () (onlySends_sendOutbound crypto mtu packet header)

theorem allCarried_synchronizeMulticast (hl : crypto.Lawful) (groups : Option (List UInt32)) (ns : List NetworkId) :
    AllCarried crypto (synchronizeMulticast groups ns) := by
  induction ns with
  | nil => exact allCarried_pure ()
  | cons n ns ih =>
    have hchange : OnlySends crypto (Session.change fun s => ((), { s with multicast := s.multicast.synchronize groups })) :=
      onlySends_change fun _ => ⟨rfl, rfl, rfl, rfl⟩
    exact (allCarried_onSession hl n () hchange).bind hl fun _ => ih

end

/-- A packet that came in: no session takes it, it is refused, or its session decrypts it and goes on from there. -/
theorem inbound_cases (hl : crypto.Lawful) (hw : Wf crypto b) (inputs : BridgeInputs) (delivery : ForwardedNetworkPacket) :
    (b.sessions.lookup delivery.packet.networkId = none ∧ inbound crypto inputs delivery b = (.ok (), b)) ∨
    ∃ s, b.sessions.lookup delivery.packet.networkId = some s ∧
      ((∃ e, NetworkPacketCipher.decrypt crypto delivery.packet delivery.senderDeviceId s.cipher = (.error e, s.cipher) ∧
        inbound crypto inputs delivery b =
          (.error e, { b with sessions := b.sessions.insert delivery.packet.networkId s })) ∨
      ∃ plaintext c, NetworkPacketCipher.decrypt crypto delivery.packet delivery.senderDeviceId s.cipher = (.ok plaintext, c) ∧
        Carries crypto { b with sessions := b.sessions.insert delivery.packet.networkId { s with cipher := c } }
          (inbound crypto inputs delivery b).2) := by
  have hrun : inbound crypto inputs delivery b = onSession delivery.packet.networkId ()
      (receive crypto inputs b.acceptRoutes b.forward b.mtu delivery) b := rfl
  rw [hrun]
  unfold onSession
  cases hs : b.sessions.lookup delivery.packet.networkId with
  | none => exact .inl ⟨rfl, rfl⟩
  | some s =>
    refine .inr ⟨s, rfl, ?_⟩
    rcases receive_cases crypto inputs b.acceptRoutes b.forward b.mtu delivery (s, b.calls) with
      ⟨e, hdecrypt, hreceive⟩ | ⟨plaintext, c, hdecrypt, hreceive⟩
    · exact .inl ⟨e, hdecrypt, by simp only [hreceive]⟩
    · refine .inr ⟨plaintext, c, hdecrypt, ?_⟩
      obtain ⟨ps, hps⟩ := hreceive
      have hwf : SessionWf crypto delivery.packet.networkId { s with cipher := c } := by
        refine sessionWf_of_same hl (hw _ s hs) ⟨rfl, rfl, rfl, rfl⟩
          [.decrypt delivery.packet delivery.senderDeviceId] ?_
        exact (congrArg Prod.snd hdecrypt).symm
      have hcarries := carries_of_sends (b := { b with
        sessions := b.sessions.insert delivery.packet.networkId { s with cipher := c } }) hl hwf (by simp) hps
      simpa only [AList.insert_insert] using hcarries

end VirtualPacketBridge

end LanLink
