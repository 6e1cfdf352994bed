import LanLink.Auth.RelayHealth
import LanLink.Lib.Runs
import LanLink.Lib.Swarms
import LanLink.P2P.DirectQuic
/-!
# Runs of a direct endpoint

What holds of an endpoint after any events in any order: it has a few connections,
says hello and signs a proof once on each, and sends and hands over packets only
on connections whose proof it has accepted, while its lease is valid.
-/
open LanLink.Lib LanLink.Lib.Action

namespace LanLink.P2P
open LanLink.Session (PeerBinding)

/-! ## What is put out -/

namespace DirectOutput

/-- The connection it is about. -/
def id : DirectOutput → DirectId
  | hello i _ | proof i _ _ _ | accepted i _ _ | packet i _ _ | received i _ => i

def isHello (i : DirectId) : DirectOutput → Bool
  | hello j _ => j = i
  | _ => false

def isProof (i : DirectId) : DirectOutput → Bool
  | proof j _ _ _ => j = i
  | _ => false

def isPacket (i : DirectId) : DirectOutput → Bool
  | packet j _ _ | received j _ => j = i
  | _ => false

theorem id_of_isHello {i : DirectId} {x : DirectOutput} (h : x.isHello i = true) : x.id = i := by
  cases x <;> simp_all [isHello, id]

theorem id_of_isProof {i : DirectId} {x : DirectOutput} (h : x.isProof i = true) : x.id = i := by
  cases x <;> simp_all [isProof, id]

/-- What may be put out at all; an accepted signature is one of `carried`. -/
def Valid (crypto : KeyCrypto) (o : DirectQuic) (carried : Signature → Prop) : DirectOutput → Prop
  | hello _ frame => ∃ nonce, frame = o.helloFrame nonce
  | proof _ sender receiver frame => fresh sender receiver = true ∧
      frame = DirectQuic.proofFrame (crypto.sign o.identity (bindingTranscript o.options.binding sender receiver))
  | accepted _ sender receiver => ∃ signature, carried signature ∧
      verifyPeerBinding crypto.toCrypto o.options.peerKey o.options.binding.reversed sender receiver signature = true
  | packet _ p _ => p.networkId = o.options.binding.networkId ∧ p.keyEpoch = o.options.binding.keyEpoch ∧
      p.destinationIpv4 = o.options.peerIpv4
  | received _ d => d.senderDeviceId = o.options.binding.peerDevice ∧ d.packet.networkId = o.options.binding.networkId ∧
      d.packet.keyEpoch = o.options.binding.keyEpoch ∧ d.packet.destinationIpv4 = o.options.localIpv4

/-- When it may be put out: a hello until the endpoint is stopped, all else while the lease is valid too. -/
def Allowed (o : DirectQuic) : DirectOutput → Prop
  | hello _ _ => o.stopping = false
  | _ => o.leaseValid = true ∧ o.stopping = false

end DirectOutput

/-- Packets pass on a connection only after a proof was accepted on it. -/
def Preceded (outs : List DirectOutput) : Prop :=
  ∀ pre x post i, outs = pre ++ x :: post → x.isPacket i → ∃ sender receiver, DirectOutput.accepted i sender receiver ∈ pre

theorem preceded_nil : Preceded [] := fun pre x post i h => by simp at h

theorem Preceded.snoc {outs : List DirectOutput} {x : DirectOutput} (h : Preceded outs)
    (hx : ∀ i, x.isPacket i → ∃ sender receiver, DirectOutput.accepted i sender receiver ∈ outs) : Preceded (outs ++ [x]) := by
  intro pre y post i heq hy
  rcases List.eq_nil_or_concat post with rfl | ⟨post, z, rfl⟩
  · obtain ⟨rfl, hlast⟩ := List.append_inj' heq rfl
    obtain rfl := List.singleton_inj.1 hlast
    exact hx i hy
  · rw [List.concat_eq_append, ← List.cons_append, ← List.append_assoc] at heq
    exact h pre y post i (List.append_inj' heq rfl).1 hy

namespace DirectQuic

/-! ## Connections -/

/-- A connection and what was put out on it. -/
structure ConnectionSound (o : DirectQuic) (outs : List DirectOutput) (i : DirectId) (c : DirectConnection) : Prop where
  authorized : c.authorized = true → (o.leaseValid = true ∧ o.stopping = false) ∧
    ∃ sender, c.peerNonce = some sender ∧ .accepted i sender c.nonce ∈ outs
  hellos : (outs.filter (·.isHello i)).length ≤ c.hello.toNat
  proofs : (outs.filter (·.isProof i)).length ≤ c.proof.toNat
  proven : ∀ sender receiver frame, .proof i sender receiver frame ∈ outs → sender = c.nonce ∧ c.peerNonce = some receiver
  accepted : ∀ sender receiver, .accepted i sender receiver ∈ outs → receiver = c.nonce ∧ c.peerNonce = some sender

/-- A callback at work on the connection `i`, whose nonce is `nonce`; `old` is what was put out before. -/
structure SceneSound (crypto : KeyCrypto) (o : DirectQuic) (carried : Signature → Prop) (i : DirectId) (nonce : Nonce)
    (old : List DirectOutput) (s : DirectScene) : Prop where
  nonce : s.connection.nonce = nonce
  connection : o.ConnectionSound (old ++ s.outputs) i s.connection
  own : ∀ x ∈ s.outputs, x.id = i
  valid : ∀ x ∈ s.outputs, x.Valid crypto o carried
  allowed : ∀ x ∈ s.outputs, x.Allowed o
  order : Preceded (old ++ s.outputs)

variable {crypto : KeyCrypto} {o : DirectQuic} {carried : Signature → Prop} {i : DirectId} {nonce : Nonce} {old : List DirectOutput}
  {s : DirectScene} {inputs : DirectInputs}

/-- More is put out, on the connection or elsewhere. -/
theorem ConnectionSound.append {outs new : List DirectOutput} {c c' : DirectConnection} (h : o.ConnectionSound outs i c)
    (hnonce : c'.nonce = c.nonce) (hpeer : c'.peerNonce = c.peerNonce)
    (hauthorized : c'.authorized = true → c.authorized = true ∨ ((o.leaseValid = true ∧ o.stopping = false) ∧
      ∃ sender, c.peerNonce = some sender ∧ .accepted i sender c.nonce ∈ new))
    (hhellos : c.hello.toNat + (new.filter (·.isHello i)).length ≤ c'.hello.toNat)
    (hproofs : c.proof.toNat + (new.filter (·.isProof i)).length ≤ c'.proof.toNat)
    (hproven : ∀ sender receiver frame, .proof i sender receiver frame ∈ new → sender = c.nonce ∧ c.peerNonce = some receiver)
    (haccepted : ∀ sender receiver, .accepted i sender receiver ∈ new → receiver = c.nonce ∧ c.peerNonce = some sender) :
    o.ConnectionSound (outs ++ new) i c' where
  authorized hauth := by
    rw [hpeer, hnonce]
    rcases hauthorized hauth with hold | ⟨hlease, sender, hsender, hmem⟩
    · obtain ⟨hlease, sender, hsender, hmem⟩ := h.authorized hold
      exact ⟨hlease, sender, hsender, List.mem_append_left _ hmem⟩
    · exact ⟨hlease, sender, hsender, List.mem_append_right _ hmem⟩
  hellos := by
    have hold := h.hellos
    rw [List.filter_append, List.length_append]
    omega
  proofs := by
    have hold := h.proofs
    rw [List.filter_append, List.length_append]
    omega
  proven sender receiver frame hmem := by
    rw [hpeer, hnonce]
    rcases List.mem_append.1 hmem with hmem | hmem
    · exact h.proven sender receiver frame hmem
    · exact hproven sender receiver frame hmem
  accepted sender receiver hmem := by
    rw [hpeer, hnonce]
    rcases List.mem_append.1 hmem with hmem | hmem
    · exact h.accepted sender receiver hmem
    · exact haccepted sender receiver hmem

/-- Nothing was put out by the callback. -/
theorem SceneSound.silent {s' : DirectScene} (h : SceneSound crypto o carried i nonce old s) (houtputs : s'.outputs = s.outputs)
    (hnonce : s'.connection.nonce = s.connection.nonce) (hpeer : s'.connection.peerNonce = s.connection.peerNonce)
    (hauthorized : s'.connection.authorized = true → s.connection.authorized = true)
    (hhello : s.connection.hello.toNat ≤ s'.connection.hello.toNat) (hproof : s.connection.proof.toNat ≤ s'.connection.proof.toNat) :
    SceneSound crypto o carried i nonce old s' where
  nonce := hnonce.trans h.nonce
  connection := by
    have hsame : o.ConnectionSound (old ++ s.outputs ++ []) i s'.connection := h.connection.append hnonce hpeer (fun hauth => .inl (hauthorized hauth)) hhello hproof
      (fun _ _ _ hmem => absurd hmem List.not_mem_nil) (fun _ _ hmem => absurd hmem List.not_mem_nil)
    rwa [List.append_nil, ← houtputs] at hsame
  own := by rw [houtputs]; exact h.own
  valid := by rw [houtputs]; exact h.valid
  allowed := by rw [houtputs]; exact h.allowed
  order := by rw [houtputs]; exact h.order

/-- One thing was put out. -/
theorem SceneSound.emit {s' : DirectScene} {x : DirectOutput} (h : SceneSound crypto o carried i nonce old s)
    (houtputs : s'.outputs = s.outputs ++ [x]) (hnonce : s'.connection.nonce = s.connection.nonce) (hid : x.id = i)
    (hvalid : x.Valid crypto o carried) (hallowed : x.Allowed o) (hconnection : o.ConnectionSound (old ++ s.outputs ++ [x]) i s'.connection)
    (horder : ∀ j, x.isPacket j → ∃ sender receiver, .accepted j sender receiver ∈ old ++ s.outputs) :
    SceneSound crypto o carried i nonce old s' where
  nonce := hnonce.trans h.nonce
  connection := by rwa [houtputs, ← List.append_assoc]
  own y hy := by
    rw [houtputs] at hy
    rcases List.mem_append.1 hy with hy | hy
    · exact h.own y hy
    · rw [List.mem_singleton.1 hy, hid]
  valid y hy := by
    rw [houtputs] at hy
    rcases List.mem_append.1 hy with hy | hy
    · exact h.valid y hy
    · rw [List.mem_singleton.1 hy]
      exact hvalid
  allowed y hy := by
    rw [houtputs] at hy
    rcases List.mem_append.1 hy with hy | hy
    · exact h.allowed y hy
    · rw [List.mem_singleton.1 hy]
      exact hallowed
  order := by
    rw [houtputs, ← List.append_assoc]
    exact h.order.snoc horder

/-! ## Callbacks -/

theorem readProof_ok {payload : Bytes} {signature : Signature} : readProof.parse payload = .ok signature ↔ payload = arrayBytes signature := by
  have hrecord : Reader.Record Reader.Closed (fun _ => True) readProof (fun s => arrayBytes s) fun _ => True := by
    refine .congr (.field id (BinaryReader.array_format rfl) fun signature _ => .finish _ (.pure ?_)) ?_ ?_
    · exact fun s => ⟨fun h => h.2.symm, fun h => ⟨trivial, h.symm⟩⟩
    · simp
    · simp
  exact hrecord.parse_eq_ok.trans (and_iff_left trivial)

theorem sound_drop (h : SceneSound crypto o carried i nonce old s) : Post drop s fun _ s' => SceneSound crypto o carried i nonce old s' :=
  h.silent rfl rfl rfl id le_rfl le_rfl

theorem sound_hello (h : SceneSound crypto o carried i nonce old s) (hrunning : o.stopping = false) :
    Post (hello o inputs i) s fun _ s' => SceneSound crypto o carried i nonce old s' := by
  unfold hello
  rw [post_gets_bind, post_ite]
  refine ⟨fun _ => h, fun hopen => ?_⟩
  have hnot : s.connection.hello = false := by simpa using fun hhello => hopen (.inl hhello)
  unfold setConnection DirectQuic.emit
  simp only [post_bind, post_modify, post_ite, post_throw]
  refine ⟨fun _ => ?_, fun _ => h.silent rfl rfl rfl id (by simp [hnot]) le_rfl⟩
  refine h.emit rfl rfl rfl ⟨_, rfl⟩ hrunning ?_ fun j hj => by cases hj
  refine h.connection.append rfl rfl .inl ?_ ?_ ?_ ?_
  · simp [hnot, DirectOutput.isHello]
  · simp [DirectOutput.isProof]
  · exact fun _ _ _ hmem => by cases List.mem_singleton.1 hmem
  · exact fun _ _ hmem => by cases List.mem_singleton.1 hmem

theorem sound_proof (h : SceneSound crypto o carried i nonce old s) (hlease : o.leaseValid = true ∧ o.stopping = false) :
    Post (proof crypto o inputs i) s fun _ s' => SceneSound crypto o carried i nonce old s' := by
  unfold proof
  rw [post_gets_bind]
  split
  · exact h
  rename_i peerNonce hpeer
  rw [post_ite]
  refine ⟨fun _ => h, fun hopen => ?_⟩
  have hnot : s.connection.proof = false := by simpa using hopen
  have hmarked : SceneSound crypto o carried i nonce old { s with connection := { s.connection with proof := true } } :=
    h.silent rfl rfl rfl id le_rfl (by simp [hnot])
  unfold setConnection DirectQuic.emit
  rw [post_bind, post_modify]
  dsimp only
  refine post_lift_bind (fun signature hsigned => ?_) fun _ => hmarked
  refine post_lift_bind (fun signature' hsigned' => ?_) fun _ => hmarked
  rw [post_ite]
  refine ⟨fun _ => ?_, fun _ => hmarked⟩
  rw [post_modify]
  simp only [signPeerBinding, bind_eq_ok, check_eq_ok, exists_const, not_or, not_not, Except.ok.injEq] at hsigned
  obtain ⟨⟨-, hfresh⟩, rfl⟩ := hsigned
  have hsignature : signature' = crypto.sign o.identity (bindingTranscript o.options.binding s.connection.nonce peerNonce) := by
    cases hfault : inputs.signFault with
    | some e =>
      rw [hfault] at hsigned'
      cases hsigned'
    | none =>
      rw [hfault] at hsigned'
      exact (Except.ok.inj hsigned').symm
  refine h.emit rfl rfl rfl ⟨hfresh, by rw [hsignature]⟩ hlease ?_ fun j hj => by cases hj
  refine h.connection.append rfl rfl .inl ?_ ?_ ?_ ?_
  · simp [DirectOutput.isHello]
  · simp [hnot, DirectOutput.isProof]
  · rintro sender receiver frame hmem
    obtain ⟨-, rfl, rfl, -⟩ := DirectOutput.proof.inj (List.mem_singleton.1 hmem)
    exact ⟨rfl, hpeer⟩
  · exact fun _ _ hmem => by cases List.mem_singleton.1 hmem

theorem sound_data (h : SceneSound crypto o carried i nonce old s) (bytes : Bytes) :
    Post (data o i bytes) s fun _ s' => SceneSound crypto o carried i nonce old s' := by
  unfold data
  rw [post_gets_bind, post_ite]
  refine ⟨fun _ => sound_drop h, fun hopen => ?_⟩
  simp only [not_or, not_not] at hopen
  refine post_lift_bind (fun p _ => ?_) fun _ => h
  rw [post_ite]
  refine ⟨fun _ => sound_drop h, fun hmatch => ?_⟩
  simp only [not_or, not_not] at hmatch
  unfold DirectQuic.emit
  simp only [post_bind, post_modify]
  have hlease : o.leaseValid = true ∧ o.stopping = false := by simpa [and_comm] using hopen.2
  have hid : ∀ j, (DirectOutput.received i ⟨o.options.binding.peerDevice, p⟩).isPacket j → i = j := fun j hj => of_decide_eq_true hj
  refine h.emit rfl rfl rfl ⟨rfl, hmatch⟩ hlease ?_ fun j hj => ?_
  · refine h.connection.append rfl rfl .inl ?_ ?_ ?_ ?_
    · simp [DirectOutput.isHello]
    · simp [DirectOutput.isProof]
    · exact fun _ _ _ hmem => by cases List.mem_singleton.1 hmem
    · exact fun _ _ hmem => by cases List.mem_singleton.1 hmem
  · rw [← hid j hj]
    obtain ⟨-, sender, -, hmem⟩ := h.connection.authorized hopen.1
    exact ⟨sender, _, hmem⟩

/-- The nonce of the peer comes in: nothing was proved yet on the connection. -/
theorem SceneSound.greeted (h : SceneSound crypto o carried i nonce old s) (hnone : s.connection.peerNonce = none) (peerNonce : Nonce) :
    SceneSound crypto o carried i nonce old { s with connection := { s.connection with peerNonce := some peerNonce } } where
  nonce := h.nonce
  connection := by
    refine ⟨fun hauth => ?_, h.connection.hellos, h.connection.proofs, fun sender receiver frame hmem => ?_, fun sender receiver hmem => ?_⟩
    · obtain ⟨-, sender, hsender, -⟩ := h.connection.authorized hauth
      rw [hnone] at hsender
      cases hsender
    · obtain ⟨-, hreceiver⟩ := h.connection.proven sender receiver frame hmem
      rw [hnone] at hreceiver
      cases hreceiver
    · obtain ⟨-, hsender⟩ := h.connection.accepted sender receiver hmem
      rw [hnone] at hsender
      cases hsender
  own := h.own
  valid := h.valid
  allowed := h.allowed
  order := h.order

theorem sound_handleHello (h : SceneSound crypto o carried i nonce old s) (hlease : o.leaseValid = true ∧ o.stopping = false) (payload : Bytes) :
    Post (handleHello crypto o inputs i payload) s fun _ s' => SceneSound crypto o carried i nonce old s' := by
  unfold handleHello
  rw [post_gets_bind, post_ite]
  refine ⟨fun _ => h, fun hnone => ?_⟩
  have hnone : s.connection.peerNonce = none := by simpa using hnone
  refine post_lift_bind (fun read _ => ?_) fun _ => h
  unfold setConnection
  rw [post_bind, post_modify]
  have hgreeted := h.greeted hnone read.1
  refine post_lift_bind (fun _ _ => ?_) fun _ => hgreeted
  rw [post_bind]
  refine (sound_hello hgreeted hlease.2).mono fun r s' hs' => ?_
  cases r with
  | error e => exact hs'
  | ok u => exact sound_proof hs' hlease

theorem sound_handleProof (h : SceneSound crypto o carried i nonce old s) (hlease : o.leaseValid = true ∧ o.stopping = false)
    {payload : Bytes} (hcarried : ∀ signature, payload = arrayBytes signature → carried signature) :
    Post (handleProof crypto o i payload) s fun _ s' => SceneSound crypto o carried i nonce old s' := by
  unfold handleProof
  refine post_lift_bind (fun signature hread => ?_) fun _ => h
  rw [post_gets_bind]
  split
  · exact h
  rename_i peerNonce hpeer
  rw [post_ite]
  refine ⟨fun _ => h, fun hopen => ?_⟩
  simp only [not_or, not_not] at hopen
  obtain ⟨-, -, hverified⟩ := hopen
  unfold setConnection DirectQuic.emit
  simp only [post_bind, post_modify]
  refine h.emit rfl rfl rfl ⟨signature, hcarried signature (readProof_ok.1 hread), hverified⟩ hlease ?_ fun j hj => by cases hj
  refine h.connection.append rfl rfl (fun _ => .inr ⟨hlease, peerNonce, hpeer, List.mem_singleton_self _⟩) ?_ ?_ ?_ ?_
  · simp [DirectOutput.isHello]
  · simp [DirectOutput.isProof]
  · exact fun _ _ _ hmem => by cases List.mem_singleton.1 hmem
  · rintro sender receiver hmem
    obtain ⟨-, rfl, rfl⟩ := DirectOutput.accepted.inj (List.mem_singleton.1 hmem)
    exact ⟨rfl, hpeer⟩

/-- Every signature that is the payload of one of the frames is carried. -/
def Carries (carried : Signature → Prop) (fs : List Frame) : Prop := ∀ f ∈ fs, ∀ signature, f.payload = arrayBytes signature → carried signature

theorem sound_frame (h : SceneSound crypto o carried i nonce old s) {f : Frame}
    (hcarried : ∀ signature, f.payload = arrayBytes signature → carried signature) :
    Post (frame crypto o inputs i f) s fun _ s' => SceneSound crypto o carried i nonce old s' := by
  unfold frame askRate
  rw [post_ite]
  refine ⟨fun _ => h, fun hopen => ?_⟩
  have hlease : o.leaseValid = true ∧ o.stopping = false := by simpa using hopen
  rw [post_ite]
  refine ⟨fun _ => h, fun _ => ?_⟩
  rw [post_ite]
  refine ⟨fun _ => sound_data h f.payload, fun _ => ?_⟩
  rw [post_update_bind]
  have hasked : SceneSound crypto o carried i nonce old { s with asked := s.asked + 1 } := h.silent rfl rfl rfl id le_rfl le_rfl
  simp only [post_ite, post_throw]
  exact ⟨fun _ => hasked, fun _ => ⟨fun _ => sound_handleHello hasked hlease f.payload,
    fun _ => ⟨fun _ => sound_handleProof hasked hlease hcarried, fun _ => hasked⟩⟩⟩

theorem sound_frames (h : SceneSound crypto o carried i nonce old s) {fs : List Frame} (hcarried : Carries carried fs) :
    Post (frames crypto o inputs i fs) s fun _ s' => SceneSound crypto o carried i nonce old s' := by
  induction fs generalizing s with
  | nil => exact h
  | cons f fs ih =>
    unfold frames
    rw [post_bind]
    refine (sound_frame h (hcarried f List.mem_cons_self)).mono fun r s' hs' => ?_
    cases r with
    | error e => exact hs'
    | ok u => exact ih hs' fun g hg => hcarried g (List.mem_cons_of_mem _ hg)

/-- The frames that the buffers hold, as far as they decode. -/
def arriving (d : FrameStreamDecoder) : List Bytes → List Frame
  | [] => []
  | bytes :: buffers => (d.push bytes).toOption.elim [] fun decoded => decoded.2 ++ arriving decoded.1 buffers

/-- Frames do not touch the decoder. -/
theorem decoder_frames (o : DirectQuic) (inputs : DirectInputs) (i : DirectId) (fs : List Frame) :
    Leaves (fun s : DirectScene => s.connection.decoder) (frames crypto o inputs i fs) := by
  have hset (f : DirectConnection → DirectConnection) (hf : ∀ c, (f c).decoder = c.decoder) :
      Leaves (fun s : DirectScene => s.connection.decoder) (setConnection f) := .modify fun s => hf s.connection
  have hemit (x : DirectOutput) : Leaves (fun s : DirectScene => s.connection.decoder) (DirectQuic.emit x) := .modify fun _ => rfl
  have hdrop : Leaves (fun s : DirectScene => s.connection.decoder) drop := .modify fun _ => rfl
  have hhello : Leaves (fun s : DirectScene => s.connection.decoder) (hello o inputs i) :=
    .bind (.gets _) fun c => .ite (.pure _) (.bind (hset _ fun _ => rfl) fun _ => .ite (hemit _) (.throw _))
  have hproof : Leaves (fun s : DirectScene => s.connection.decoder) (proof crypto o inputs i) := by
    refine .bind (.gets _) fun c => ?_
    cases c.peerNonce with
    | none => exact .pure _
    | some peerNonce =>
      exact .ite (.pure _) (.bind (hset _ fun _ => rfl) fun _ => .bind (.lift _) fun _ => .bind (.lift _) fun _ => .ite (hemit _) (.throw _))
  have hdata (bytes : Bytes) : Leaves (fun s : DirectScene => s.connection.decoder) (data o i bytes) :=
    .bind (.gets _) fun c => .ite hdrop (.bind (.lift _) fun p => .ite hdrop (.bind (.modify fun _ => rfl) fun _ => hemit _))
  have hgreet (payload : Bytes) : Leaves (fun s : DirectScene => s.connection.decoder) (handleHello crypto o inputs i payload) :=
    .bind (.gets _) fun c => .ite (.throw _) (.bind (.lift _) fun _ => .bind (hset _ fun _ => rfl) fun _ =>
      .bind (.lift _) fun _ => .bind hhello fun _ => hproof)
  have hprove (payload : Bytes) : Leaves (fun s : DirectScene => s.connection.decoder) (handleProof crypto o i payload) := by
    refine .bind (.lift _) fun signature => .bind (.gets _) fun c => ?_
    cases c.peerNonce with
    | none => exact .throw _
    | some peerNonce => exact .ite (.throw _) (.bind (hset _ fun _ => rfl) fun _ => hemit _)
  induction fs with
  | nil => exact .pure _
  | cons f fs ih =>
    refine .bind (.ite (.throw _) (.ite (.throw _) (.ite (hdata _) (.bind (.update fun _ => rfl) fun _ => ?_)))) fun _ => ih
    exact .ite (.throw _) (.ite (hgreet _) (.ite (hprove _) (.throw _)))

theorem sound_receiveBuffers (h : SceneSound crypto o carried i nonce old s) {buffers : List Bytes}
    (hcarried : Carries carried (arriving s.connection.decoder buffers)) :
    Post (receiveBuffers crypto o inputs i buffers) s fun _ s' => SceneSound crypto o carried i nonce old s' := by
  induction buffers generalizing s with
  | nil => exact h
  | cons bytes buffers ih =>
    unfold receiveBuffers
    rw [post_gets_bind]
    split
    · unfold setConnection
      simp only [post_bind, post_modify, post_throw]
      exact h.silent rfl rfl rfl id le_rfl le_rfl
    · rename_i decoded hpush
      rw [arriving, hpush] at hcarried
      simp only [Except.toOption, Option.elim_some] at hcarried
      unfold setConnection
      rw [post_bind, post_modify]
      dsimp only
      have hdecoded : SceneSound crypto o carried i nonce old { s with connection := { s.connection with decoder := decoded.1 } } :=
        h.silent rfl rfl rfl id le_rfl le_rfl
      have hleaves : Post (frames crypto o inputs i decoded.2) { s with connection := { s.connection with decoder := decoded.1 } }
          fun _ s' => s'.connection.decoder = decoded.1 := decoder_frames o inputs i decoded.2 _
      rw [post_bind]
      refine ((sound_frames hdecoded fun f hf => hcarried f (List.mem_append_left _ hf)).and hleaves).mono ?_
      rintro r s' ⟨hs', hdecoder⟩
      cases r with
      | error e => exact hs'
      | ok u =>
        dsimp only
        rw [post_ite]
        refine ⟨fun _ => hs', fun _ => ih hs' ?_⟩
        rw [hdecoder]
        exact fun f hf => hcarried f (List.mem_append_right _ hf)

theorem sound_guarded {x : Action Exn DirectScene Unit} (hx : Post x s fun _ s' => SceneSound crypto o carried i nonce old s') :
    Post (guarded x) s fun _ s' => SceneSound crypto o carried i nonce old s' := by
  unfold guarded drop setConnection
  rw [post_tryCatch]
  refine hx.mono fun r s' hs' => ?_
  cases r with
  | ok u => exact hs'
  | error e =>
    simp only [post_bind, post_modify]
    exact hs'.silent rfl rfl rfl (fun hauth => by cases hauth) le_rfl le_rfl

/-- The frames that a callback decodes. -/
def DirectCallback.frames (c : DirectConnection) : DirectCallback → List Frame
  | .receive buffers _ => arriving c.decoder buffers
  | _ => []

theorem sound_callback (h : SceneSound crypto o carried i nonce old s) (x : DirectCallback)
    (hcarried : Carries carried (x.frames s.connection)) :
    Post (callback crypto o i x) s fun _ s' => SceneSound crypto o carried i nonce old s' := by
  have hrevoked {s' : DirectScene} (houtputs : s'.outputs = s.outputs) (hnonce : s'.connection.nonce = s.connection.nonce)
      (hpeer : s'.connection.peerNonce = s.connection.peerNonce) (hauth : s'.connection.authorized = false)
      (hhello : s'.connection.hello = s.connection.hello) (hproof : s'.connection.proof = s.connection.proof) :
      SceneSound crypto o carried i nonce old s' := by
    refine h.silent houtputs hnonce hpeer (fun htrue => ?_) (by rw [hhello]) (by rw [hproof])
    rw [hauth] at htrue
    cases htrue
  cases x with
  | connected inputs =>
    refine sound_guarded ?_
    unfold onConnected
    rw [post_gets_bind, post_ite]
    refine ⟨fun hrunning => ?_, fun _ => h⟩
    rw [post_ite]
    refine ⟨fun _ => h, fun _ => ?_⟩
    unfold setConnection
    have hopened : SceneSound crypto o carried i nonce old { s with connection := { s.connection with stream := true } } :=
      h.silent rfl rfl rfl id le_rfl le_rfl
    rw [post_bind, post_modify]
    dsimp only
    rw [post_ite]
    exact ⟨fun _ => hopened, fun _ => sound_hello hopened (by simpa using hrunning.2)⟩
  | peerStream =>
    refine sound_guarded ?_
    unfold onPeerStream setConnection
    rw [post_gets_bind]
    simp only [post_ite, post_throw, post_modify]
    exact ⟨fun _ => h, fun _ => ⟨fun _ => h, fun _ => h.silent rfl rfl rfl id le_rfl le_rfl⟩⟩
  | datagramState size => exact h.silent rfl rfl rfl id le_rfl le_rfl
  | datagram bytes => exact sound_guarded (sound_data h bytes)
  | shutdown => exact hrevoked rfl rfl rfl rfl rfl rfl
  | shutdownComplete => exact hrevoked rfl rfl rfl rfl rfl rfl
  | receive buffers inputs =>
    refine sound_guarded ?_
    unfold onReceive
    simp only [post_ite, post_throw]
    exact ⟨fun _ => h, fun _ => ⟨fun _ => h, fun _ => sound_receiveBuffers h hcarried⟩⟩
  | peerAborted => exact hrevoked rfl rfl rfl rfl rfl rfl

/-! ## Endpoints -/

theorem selectFrom_some {preferred : Bool} {fallback : Option DirectId} {k : DirectId} {connections : List DirectConnection}
    (h : selectFrom preferred fallback k connections = some i) :
    fallback = some i ∨ ∃ j c, i = k + j ∧ connections[j]? = some c ∧ c.authorized = true ∧ c.closed = false := by
  induction connections generalizing fallback k with
  | nil => exact .inl h
  | cons c connections ih =>
    have hlater {fallback : Option DirectId} (hrest : selectFrom preferred fallback (k + 1) connections = some i) :
        fallback = some i ∨ ∃ j c', i = k + j ∧ (c :: connections)[j]? = some c' ∧ c'.authorized = true ∧ c'.closed = false := by
      refine (ih hrest).imp_right ?_
      rintro ⟨j, c', rfl, hj, hc⟩
      exact ⟨j + 1, c', (Nat.add_assoc k 1 j).trans (congrArg (k + ·) (Nat.add_comm 1 j)), hj, hc⟩
    rw [selectFrom] at h
    split at h
    · rename_i hopen
      have hhere : ∃ j c', k = k + j ∧ (c :: connections)[j]? = some c' ∧ c'.authorized = true ∧ c'.closed = false :=
        ⟨0, c, rfl, rfl, hopen.1, by simpa using hopen.2⟩
      split at h
      · cases h
        exact .inr hhere
      · rcases hlater h with hk | hrest
        · cases hk
          exact .inr hhere
        · exact .inr hrest
    · exact hlater h

/-- The selected connection is authorized. -/
theorem selected_some (h : o.selected = some i) : ∃ c, o.connections[i]? = some c ∧ c.authorized = true ∧ c.closed = false := by
  rcases selectFrom_some h with hnone | ⟨j, c, rfl, hj, hc⟩
  · cases hnone
  · exact ⟨c, by simpa using hj, hc⟩

/-- An endpoint and all it has put out. -/
structure EndpointSound (crypto : KeyCrypto) (o : DirectQuic) (outs : List DirectOutput) : Prop where
  owner : o.identity.deviceId crypto = o.options.binding.localDevice
  peer : verifySignedDeviceKey crypto.toCrypto o.options.peerKey o.options.binding.peerDevice = true
  few : o.connections.length ≤ 8
  revoking : o.revoking = true → o.leaseValid = false
  connections : ∀ i c, o.connections[i]? = some c → o.ConnectionSound outs i c
  known : o.stopping = false → ∀ x ∈ outs, x.id < o.connections.length
  hellos : ∀ i, (outs.filter (·.isHello i)).length ≤ 1
  proofs : ∀ i, (outs.filter (·.isProof i)).length ≤ 1
  valid : ∀ x ∈ outs, x.Valid crypto o fun _ => True
  order : Preceded outs

theorem DirectOutput.Valid.congr {o' : DirectQuic} {carried' : Signature → Prop} {x : DirectOutput} (h : x.Valid crypto o carried)
    (hidentity : o'.identity = o.identity) (hoptions : o'.options = o.options) (hcarried : ∀ s, carried s → carried' s) :
    x.Valid crypto o' carried' := by
  cases x with
  | hello i frame =>
    obtain ⟨nonce, rfl⟩ := h
    exact ⟨nonce, by simp only [helloFrame, hoptions]⟩
  | proof i sender receiver frame =>
    simp only [DirectOutput.Valid, hidentity, hoptions]
    exact h
  | accepted i sender receiver =>
    obtain ⟨signature, hmem, hverified⟩ := h
    refine ⟨signature, hcarried _ hmem, ?_⟩
    rw [hoptions]
    exact hverified
  | packet i p datagram =>
    simp only [DirectOutput.Valid, hoptions]
    exact h
  | received i d =>
    simp only [DirectOutput.Valid, hoptions]
    exact h

theorem make_sound {identity : DeviceIdentity} {options : DirectQuicOptions} (h : make crypto identity options = .ok o) :
    EndpointSound crypto o [] := by
  simp only [make, bind_eq_ok, check_eq_ok, exists_const, not_or, not_not, Except.ok.injEq] at h
  obtain ⟨⟨howner, hpeer, -⟩, rfl⟩ := h
  refine ⟨howner, hpeer, Nat.zero_le _, fun h => ?_, fun i c h => ?_, fun _ x h => ?_, fun _ => Nat.zero_le _, fun _ => Nat.zero_le _,
    fun x h => ?_, preceded_nil⟩
  · cases h
  · simp at h
  · exact absurd h List.not_mem_nil
  · exact absurd h List.not_mem_nil

section
variable {outs : List DirectOutput}

/-- Only counters and marks change that say nothing of the connections. -/
theorem EndpointSound.marked (h : EndpointSound crypto o outs) {o' : DirectQuic} (hidentity : o'.identity = o.identity)
    (hoptions : o'.options = o.options) (hconnections : o'.connections = o.connections) (hlease : o'.leaseValid = o.leaseValid)
    (hstopping : o'.stopping = o.stopping) (hrevoking : o'.revoking = true → o.revoking = true) : EndpointSound crypto o' outs where
  owner := by rw [hidentity, hoptions, h.owner]
  peer := by rw [hoptions, h.peer]
  few := by rw [hconnections]; exact h.few
  revoking hr := by rw [hlease]; exact h.revoking (hrevoking hr)
  connections i c hc := by
    rw [hconnections] at hc
    have hold := h.connections i c hc
    refine ⟨fun hauth => ?_, hold.hellos, hold.proofs, hold.proven, hold.accepted⟩
    rw [hlease, hstopping]
    exact hold.authorized hauth
  known hs x hx := by
    rw [hconnections]
    exact h.known (hstopping ▸ hs) x hx
  hellos := h.hellos
  proofs := h.proofs
  valid x hx := DirectOutput.Valid.congr (h.valid x hx) hidentity hoptions fun _ => id
  order := h.order

/-- No connection is authorized any more. -/
theorem EndpointSound.revoked (h : EndpointSound crypto o outs) {o' : DirectQuic} (hidentity : o'.identity = o.identity)
    (hoptions : o'.options = o.options) (hconnections : o'.connections = o.connections.map fun c => { c with authorized := false })
    (hrevoking : o'.revoking = true → o'.leaseValid = false) (hstopping : o'.stopping = false → o.stopping = false) :
    EndpointSound crypto o' outs where
  owner := by rw [hidentity, hoptions, h.owner]
  peer := by rw [hoptions, h.peer]
  few := by rw [hconnections, List.length_map]; exact h.few
  revoking := hrevoking
  connections i c hc := by
    rw [hconnections, List.getElem?_map, Option.map_eq_some_iff] at hc
    obtain ⟨c, hc, rfl⟩ := hc
    have hold := h.connections i c hc
    exact ⟨fun hauth => (by cases hauth), hold.hellos, hold.proofs, hold.proven, hold.accepted⟩
  known hs x hx := by
    rw [hconnections, List.length_map]
    exact h.known (hstopping hs) x hx
  hellos := h.hellos
  proofs := h.proofs
  valid x hx := DirectOutput.Valid.congr (h.valid x hx) hidentity hoptions fun _ => id
  order := h.order

theorem EndpointSound.stop (h : EndpointSound crypto o outs) : EndpointSound crypto o.stop outs := by
  unfold DirectQuic.stop
  split
  · exact h
  · exact h.revoked rfl rfl rfl h.revoking fun hs => by cases hs

theorem EndpointSound.synchronize (h : EndpointSound crypto o outs) (snapshot : NetworkSnapshot) :
    EndpointSound crypto (o.synchronize crypto snapshot) outs := by
  unfold DirectQuic.synchronize
  dsimp only
  obtain ⟨valid, hvalid⟩ : ∃ valid, valid = peerBindingAuthorized crypto.toCrypto o.options.binding o.options.peerKey o.options.localIpv4
    o.options.peerIpv4 snapshot := ⟨_, rfl⟩
  rw [← hvalid]
  cases valid with
  | false => exact h.revoked rfl rfl rfl (fun _ => rfl) id
  | true =>
    exact {
      owner := h.owner
      peer := h.peer
      few := h.few
      revoking := fun hr => by cases hr
      connections := fun i c hc => by
        have hold := h.connections i c hc
        refine ⟨fun hauth => ?_, hold.hellos, hold.proofs, hold.proven, hold.accepted⟩
        obtain ⟨⟨-, hstopping⟩, hsender⟩ := hold.authorized hauth
        exact ⟨⟨rfl, hstopping⟩, hsender⟩
      known := h.known
      hellos := h.hellos
      proofs := h.proofs
      valid := fun x hx => DirectOutput.Valid.congr (h.valid x hx) rfl rfl fun _ => id
      order := h.order }

/-- A connection that nothing was put out on joins. -/
theorem EndpointSound.joined (h : EndpointSound crypto o outs) (hstopping : o.stopping = false) (hroom : o.connections.length < 8)
    {c : DirectConnection} (hc : c.authorized = false) : EndpointSound crypto { o with connections := o.connections ++ [c] } outs where
  owner := h.owner
  peer := h.peer
  few := by simpa using hroom
  revoking := h.revoking
  connections i c' hc' := by
    have hnone (p : DirectOutput → Bool) (hp : ∀ x, p x = true → x.id = o.connections.length) : outs.filter p = [] := by
      rw [List.filter_eq_nil_iff]
      intro x hx hpx
      exact (h.known hstopping x hx).ne (hp x hpx)
    rcases lt_trichotomy i o.connections.length with hlt | rfl | hlt
    · rw [List.getElem?_append_left hlt] at hc'
      have hold := h.connections i c' hc'
      exact ⟨hold.authorized, hold.hellos, hold.proofs, hold.proven, hold.accepted⟩
    · rw [List.getElem?_concat_length, Option.some.injEq] at hc'
      subst hc'
      refine ⟨fun hauth => ?_, ?_, ?_, fun sender receiver frame hmem => ?_, fun sender receiver hmem => ?_⟩
      · rw [hc] at hauth
        cases hauth
      · rw [hnone _ fun x => DirectOutput.id_of_isHello]
        exact Nat.zero_le _
      · rw [hnone _ fun x => DirectOutput.id_of_isProof]
        exact Nat.zero_le _
      · exact absurd (h.known hstopping _ hmem) (lt_irrefl _)
      · exact absurd (h.known hstopping _ hmem) (lt_irrefl _)
    · rw [List.getElem?_eq_none (by simpa using hlt)] at hc'
      cases hc'
  known hs x hx := by
    rw [List.length_append, List.length_singleton]
    exact Nat.lt_succ_of_lt (h.known hstopping x hx)
  hellos := h.hellos
  proofs := h.proofs
  valid x hx := DirectOutput.Valid.congr (h.valid x hx) rfl rfl fun _ => id
  order := h.order

theorem EndpointSound.start (h : EndpointSound crypto o outs) (fails : Bool) : EndpointSound crypto (o.start fails) outs := by
  unfold DirectQuic.start
  split
  · exact h
  · split
    · exact h.stop
    · exact h.marked rfl rfl rfl rfl rfl id

theorem EndpointSound.connect (h : EndpointSound crypto o outs) (endpoint : Endpoint) (nonce : Nonce) (opens starts : Bool) :
    EndpointSound crypto (o.connect endpoint nonce opens starts) outs := by
  unfold DirectQuic.connect
  split
  · exact h
  · rename_i hopen
    simp only [not_or, not_le] at hopen
    exact h.joined (by simpa using hopen.2.2.1) hopen.2.2.2.2.1 rfl

theorem EndpointSound.accept (h : EndpointSound crypto o outs) (nonce : Nonce) (configured : Bool) :
    EndpointSound crypto (o.accept nonce configured) outs := by
  unfold DirectQuic.accept
  split
  · exact h
  · rename_i hopen
    simp only [not_or, not_le] at hopen
    exact h.joined (by simpa using hopen.2.1) hopen.2.2 rfl

/-- All connections are gone, after the endpoint was stopped. -/
theorem EndpointSound.emptied (h : EndpointSound crypto o outs) (hstopping : o.stopping = true) :
    EndpointSound crypto { o with connections := [] } outs where
  owner := h.owner
  peer := h.peer
  few := Nat.zero_le _
  revoking := h.revoking
  connections i c hc := by simp at hc
  known hs := by
    rw [hstopping] at hs
    cases hs
  hellos := h.hellos
  proofs := h.proofs
  valid x hx := DirectOutput.Valid.congr (h.valid x hx) rfl rfl fun _ => id
  order := h.order

/-- What is put out on other connections does not matter to a connection. -/
theorem ConnectionSound.elsewhere {c : DirectConnection} {new : List DirectOutput} (h : o.ConnectionSound outs i c)
    (hnew : ∀ x ∈ new, x.id ≠ i) : o.ConnectionSound (outs ++ new) i c := by
  have hnone (p : DirectOutput → Bool) (hp : ∀ x, p x = true → x.id = i) : new.filter p = [] := by
    rw [List.filter_eq_nil_iff]
    exact fun x hx hpx => hnew x hx (hp x hpx)
  refine h.append rfl rfl .inl ?_ ?_ ?_ ?_
  · rw [hnone _ fun x => DirectOutput.id_of_isHello]
    rfl
  · rw [hnone _ fun x => DirectOutput.id_of_isProof]
    rfl
  · exact fun _ _ _ hmem => absurd rfl (hnew _ hmem)
  · exact fun _ _ hmem => absurd rfl (hnew _ hmem)

/-! ## One event -/

/-- The frames that an event brings in. -/
def arrived (o : DirectQuic) : DirectEvent → List Frame
  | .callback i x => o.connections[i]?.elim [] x.frames
  | _ => []

/-- A signature that an event brings in. -/
def Arrives (o : DirectQuic) (e : DirectEvent) (signature : Signature) : Prop := ∃ f ∈ o.arrived e, f.payload = arrayBytes signature

/-- The endpoint is `o'` after `new` was put out; the signatures that it accepted are `carried`. -/
structure Turn (crypto : KeyCrypto) (o : DirectQuic) (outs : List DirectOutput) (carried : Signature → Prop) (new : List DirectOutput)
    (o' : DirectQuic) : Prop where
  sound : EndpointSound crypto o' (outs ++ new)
  valid : ∀ x ∈ new, x.Valid crypto o carried
  allowed : ∀ x ∈ new, x.Allowed o

theorem EndpointSound.quiet {o' : DirectQuic} (h : EndpointSound crypto o' outs) : Turn crypto o outs carried [] o' :=
  ⟨by rwa [List.append_nil], fun x hx => absurd hx List.not_mem_nil, fun x hx => absurd hx List.not_mem_nil⟩

/-- The connection at `i` goes on to `c'`, and `new` is put out on it. -/
theorem EndpointSound.worked (h : EndpointSound crypto o outs) {c c' : DirectConnection} {new : List DirectOutput} {counters : DirectCounters}
    (hc : o.connections[i]? = some c) (hconnection : o.ConnectionSound (outs ++ new) i c') (hown : ∀ x ∈ new, x.id = i)
    (hvalid : ∀ x ∈ new, x.Valid crypto o carried) (horder : Preceded (outs ++ new)) :
    EndpointSound crypto { o with connections := o.connections.set i c', counters := counters } (outs ++ new) := by
  have hlt : i < o.connections.length := (List.getElem?_eq_some_iff.1 hc).1
  have hcount (p : DirectId → DirectOutput → Bool) (hp : ∀ j x, p j x = true → x.id = j)
      (hold : ∀ j, (outs.filter (p j)).length ≤ 1) (hnow : ((outs ++ new).filter (p i)).length ≤ 1) (j : DirectId) :
      ((outs ++ new).filter (p j)).length ≤ 1 := by
    by_cases hji : j = i
    · rw [hji]
      exact hnow
    · have hnone : new.filter (p j) = [] := by
        rw [List.filter_eq_nil_iff]
        exact fun x hx hpx => hji ((hp j x hpx).symm.trans (hown x hx))
      rw [List.filter_append, hnone, List.append_nil]
      exact hold j
  exact {
    owner := h.owner
    peer := h.peer
    few := by simpa using h.few
    revoking := h.revoking
    connections := fun j c'' hj => by
      rw [List.getElem?_set] at hj
      split at hj
      · rename_i hij
        obtain rfl := Option.some.inj hj
        rw [← hij]
        exact ⟨hconnection.authorized, hconnection.hellos, hconnection.proofs, hconnection.proven, hconnection.accepted⟩
      · rename_i hij
        have hother := (h.connections j c'' hj).elsewhere fun x hx hid => hij ((hown x hx).symm.trans hid)
        exact ⟨hother.authorized, hother.hellos, hother.proofs, hother.proven, hother.accepted⟩
    known := fun hs x hx => by
      rw [List.length_set]
      rcases List.mem_append.1 hx with hx | hx
      · exact h.known hs x hx
      · rw [hown x hx]
        exact hlt
    hellos := hcount _ (fun _ _ => DirectOutput.id_of_isHello) h.hellos (hconnection.hellos.trans (Bool.toNat_le _))
    proofs := hcount _ (fun _ _ => DirectOutput.id_of_isProof) h.proofs (hconnection.proofs.trans (Bool.toNat_le _))
    valid := fun x hx => by
      rcases List.mem_append.1 hx with hx | hx
      · exact DirectOutput.Valid.congr (h.valid x hx) rfl rfl fun _ => id
      · exact DirectOutput.Valid.congr (hvalid x hx) rfl rfl fun _ _ => trivial
    order := horder }

theorem EndpointSound.call (h : EndpointSound crypto o outs) (i : DirectId) (x : DirectCallback) :
    Turn crypto o outs (o.Arrives (.callback i x)) (o.call crypto i x).1 (o.call crypto i x).2 := by
  unfold DirectQuic.call
  split
  · exact h.quiet
  rename_i c hc
  have hstart : SceneSound crypto o (o.Arrives (.callback i x)) i c.nonce outs { connection := c, counters := o.counters } := by
    refine ⟨rfl, ?_, fun y hy => absurd hy List.not_mem_nil, fun y hy => absurd hy List.not_mem_nil,
      fun y hy => absurd hy List.not_mem_nil, ?_⟩
    · rw [List.append_nil]
      exact h.connections i c hc
    · rw [List.append_nil]
      exact h.order
  have hcarried : Carries (o.Arrives (.callback i x)) (x.frames c) := by
    intro f hf signature hsignature
    refine ⟨f, ?_, hsignature⟩
    rw [arrived, hc]
    exact hf
  have hend := sound_callback hstart x hcarried
  exact ⟨h.worked hc hend.connection hend.own hend.valid hend.order, hend.valid, hend.allowed⟩

/-- Nothing is sent, or one packet on an authorized connection. -/
inductive SendOutcome (o : DirectQuic) (p : EncryptedNetworkPacket) : List DirectOutput → DirectQuic → Prop
  | refused (counters : DirectCounters) : SendOutcome o p [] { o with counters := counters }
  | sent (counters : DirectCounters) {i : DirectId} {c : DirectConnection} (hc : o.connections[i]? = some c) (hauth : c.authorized = true)
      (hlease : o.leaseValid = true ∧ o.stopping = false)
      (hmatch : p.networkId = o.options.binding.networkId ∧ p.keyEpoch = o.options.binding.keyEpoch ∧ p.destinationIpv4 = o.options.peerIpv4)
      (datagram : Bool) : SendOutcome o p [.packet i p datagram] { o with counters := counters }

theorem send_outcome (o : DirectQuic) (p : EncryptedNetworkPacket) (reserved : Bool) :
    SendOutcome o p (o.send p reserved).2.1 (o.send p reserved).2.2 := by
  have hsame : SendOutcome o p [] o := .refused o.counters
  unfold send
  split
  · exact hsame
  rename_i i hselected
  split
  · exact hsame
  rename_i hopen
  split
  · exact hsame
  rename_i hmatch
  split
  · exact hsame
  unfold sendOn
  split
  · exact .refused _
  simp only [not_or, not_not] at hmatch
  obtain ⟨c, hc, hauth, -⟩ := selected_some hselected
  exact .sent _ hc hauth (by simpa [and_comm] using hopen) hmatch _

theorem EndpointSound.send (h : EndpointSound crypto o outs) (p : EncryptedNetworkPacket) (reserved : Bool) :
    Turn crypto o outs carried (o.send p reserved).2.1 (o.send p reserved).2.2 := by
  have houtcome := send_outcome o p reserved
  obtain ⟨new, o', hr⟩ : ∃ new o', (o.send p reserved).2 = (new, o') := ⟨_, _, rfl⟩
  rw [hr] at houtcome ⊢
  cases houtcome with
  | refused counters =>
    have hnext : EndpointSound crypto { o with counters := counters } outs := h.marked rfl rfl rfl rfl rfl id
    exact hnext.quiet
  | @sent counters i c hc hauth hlease hmatch datagram =>
    have hown : ∀ x ∈ [DirectOutput.packet i p datagram], x.id = i := fun x hx => by rw [List.mem_singleton.1 hx]; rfl
    have hvalid : ∀ x ∈ [DirectOutput.packet i p datagram], x.Valid crypto o carried := fun x hx => by
      rw [List.mem_singleton.1 hx]
      exact hmatch
    have hconnection : o.ConnectionSound (outs ++ [.packet i p datagram]) i c := by
      refine (h.connections i c hc).append rfl rfl .inl ?_ ?_ ?_ ?_
      · simp [DirectOutput.isHello]
      · simp [DirectOutput.isProof]
      · exact fun _ _ _ hmem => by cases List.mem_singleton.1 hmem
      · exact fun _ _ hmem => by cases List.mem_singleton.1 hmem
    have horder : Preceded (outs ++ [.packet i p datagram]) := by
      refine h.order.snoc fun j hj => ?_
      obtain rfl : i = j := of_decide_eq_true hj
      obtain ⟨-, sender, -, hmem⟩ := (h.connections i c hc).authorized hauth
      exact ⟨sender, _, hmem⟩
    refine ⟨?_, hvalid, fun x hx => ?_⟩
    · have hworked : EndpointSound crypto { o with connections := o.connections.set i c, counters := counters }
          (outs ++ [.packet i p datagram]) := h.worked hc hconnection hown hvalid horder
      obtain ⟨hlt, rfl⟩ := List.getElem?_eq_some_iff.1 hc
      rwa [List.set_getElem_self] at hworked
    · rw [List.mem_singleton.1 hx]
      exact hlease

theorem EndpointSound.work (h : EndpointSound crypto o outs) (e : DirectEvent) :
    Turn crypto o outs (o.Arrives e) (o.work crypto e).1 (o.work crypto e).2 := by
  cases e with
  | synchronize snapshot =>
    have hnext : EndpointSound crypto (if o.revoking then o else o.synchronize crypto snapshot) outs := by
      split
      · exact h
      · exact h.synchronize snapshot
    exact hnext.quiet
  | start fails => exact (h.start fails).quiet
  | connect endpoint nonce opens starts => exact (h.connect endpoint nonce opens starts).quiet
  | accept nonce configured => exact (h.accept nonce configured).quiet
  | callback i x => exact h.call i x
  | send p reserved => exact h.send p reserved
  | stop =>
    have hnext : EndpointSound crypto { o.stop with revoking := false } outs := h.stop.marked rfl rfl rfl rfl rfl fun hr => Bool.noConfusion hr
    exact hnext.quiet
  | stopped =>
    have hnext : EndpointSound crypto (if o.stopping then { o with connections := [] } else o) outs := by
      split
      · rename_i hstopping
        exact h.emptied hstopping
      · exact h
    exact hnext.quiet

/-! ## The end -/

/-- The endpoint was stopped, or its lease is found revoked and it is about to be. -/
def Dead (o : DirectQuic) : Prop := o.stopping = true ∨ o.revoking = true

theorem Dead.silent (hdead : o.Dead) (h : EndpointSound crypto o outs) {x : DirectOutput} (hx : x.Allowed o) : ∃ frame, x = .hello x.id frame := by
  have hnot : ¬ (o.leaseValid = true ∧ o.stopping = false) := by
    rintro ⟨hlease, hrunning⟩
    rcases hdead with hstopping | hrevoking
    · rw [hrunning] at hstopping
      cases hstopping
    · rw [h.revoking hrevoking] at hlease
      cases hlease
  cases x with
  | hello i frame => exact ⟨frame, rfl⟩
  | _ => exact absurd hx hnot

theorem Dead.not_authenticated (hdead : o.Dead) (h : EndpointSound crypto o outs) : o.authenticated = false := by
  rcases hdead with hstopping | hrevoking
  · simp [authenticated, hstopping]
  · simp [authenticated, h.revoking hrevoking]

theorem Dead.stop (h : o.Dead) : o.stop.Dead := by
  unfold DirectQuic.stop
  split
  · exact h
  · exact .inl rfl

theorem Dead.work (h : o.Dead) (e : DirectEvent) : (o.work crypto e).2.Dead := by
  cases e with
  | synchronize snapshot =>
    simp only [DirectQuic.work]
    split
    · exact h
    · rename_i hrevoking
      exact .inl (h.resolve_right hrevoking)
  | start fails =>
    simp only [DirectQuic.work, DirectQuic.start]
    split
    · exact h
    · split
      · exact h.stop
      · exact h
  | connect endpoint nonce opens starts =>
    simp only [DirectQuic.work, DirectQuic.connect]
    split <;> exact h
  | accept nonce configured =>
    simp only [DirectQuic.work, DirectQuic.accept]
    split <;> exact h
  | callback i x =>
    simp only [DirectQuic.work, DirectQuic.call]
    split <;> exact h
  | send p reserved =>
    have houtcome := send_outcome o p reserved
    simp only [DirectQuic.work]
    obtain ⟨new, o', hr⟩ : ∃ new o', (o.send p reserved).2 = (new, o') := ⟨_, _, rfl⟩
    rw [hr] at houtcome ⊢
    cases houtcome <;> exact h
  | stop =>
    refine .inl ?_
    simp only [DirectQuic.work, DirectQuic.stop]
    split
    · assumption
    · rfl
  | stopped =>
    simp only [DirectQuic.work]
    split <;> exact h

end

end DirectQuic

/-! ## Runs -/

instance : DecidablePred Statement.Direct
  | .direct .. => instDecidableTrue
  | .sessionKey .. | .envelope .. | .punch .. | .health .. | .directory .. => instDecidableFalse

instance : DecidablePred Statement.Legacy
  | .directory c _ => instDecidableEqBool (Directory.regional c) false
  | .sessionKey .. | .envelope .. | .punch .. | .direct .. | .health .. => instDecidableFalse

/-- Endpoints of any identities and bindings, and what is signed around them. -/
structure DirectWorld where
  swarm : Swarm DirectQuic DirectOutput := {}
  others : List (DeviceIdentity × Statement) := []

inductive DirectAct
  /-- The constructor is called. -/
  | make (identity : DeviceIdentity) (options : DirectQuicOptions)
  | input (i : ℕ) (e : DirectQuic.DirectEvent)
  /-- An identity signs something else; devices sign no directories. -/
  | sign (identity : DeviceIdentity) (statement : Statement)

namespace DirectWorld

/-- An endpoint that was constructed joins. -/
def enlist (w : DirectWorld) (o : Except Exn DirectQuic) : DirectWorld :=
  o.toOption.elim w fun o => { w with swarm := w.swarm.join o }

def step (crypto : KeyCrypto) (w : DirectWorld) : DirectAct → DirectWorld
  | .make identity options => w.enlist (DirectQuic.make crypto identity options)
  | .input i e => { w with swarm := w.swarm.feed (DirectQuic.work crypto) i e }
  | .sign identity statement => if statement.Direct ∨ statement.Legacy then w else { w with others := (identity, statement) :: w.others }

def run (crypto : KeyCrypto) (acts : ℕ → DirectAct) (k : ℕ) : DirectWorld := states (step crypto) {} acts k

def endpoint (w : DirectWorld) (i : ℕ) : Option DirectQuic := w.swarm.machines[i]?

def outputsOf (w : DirectWorld) (i : ℕ) : List DirectOutput := w.swarm.outputsOf i

variable {crypto : KeyCrypto} {w : DirectWorld} {i : ℕ} {o : DirectQuic}

/-- What a step does to the endpoints. -/
theorem step_swarm (w : DirectWorld) (a : DirectAct) : (w.step crypto a).swarm = w.swarm ∨
    (∃ o, DirectQuic.EndpointSound crypto o [] ∧ (w.step crypto a).swarm = w.swarm.join o) ∨
    ∃ i e, a = .input i e ∧ (w.step crypto a).swarm = w.swarm.feed (DirectQuic.work crypto) i e := by
  cases a with
  | make identity options =>
    simp only [step, enlist]
    cases hmake : DirectQuic.make crypto identity options with
    | error e => exact .inl rfl
    | ok o => exact .inr (.inl ⟨o, DirectQuic.make_sound hmake, rfl⟩)
  | input i e => exact .inr (.inr ⟨i, e, rfl, rfl⟩)
  | sign identity statement =>
    refine .inl ?_
    simp only [step]
    split <;> rfl

theorem sound_run (crypto : KeyCrypto) (acts : ℕ → DirectAct) (k : ℕ) : (run crypto acts k).swarm.Local (DirectQuic.EndpointSound crypto) := by
  refine states_inv (fun w : DirectWorld => w.swarm.Local (DirectQuic.EndpointSound crypto)) (fun _ _ => True) Swarm.local_empty
    (fun w a _ h => ?_) (fun _ => trivial) k
  rcases @step_swarm crypto w a with heq | ⟨o, ho, heq⟩ | ⟨i, e, -, heq⟩
  · rw [heq]
    exact h
  · rw [heq]
    exact h.join ho
  · rw [heq]
    exact h.feed fun o _ outs hold => (hold.work e).sound

end DirectWorld

namespace DirectQuic

/-- The identity and the options stay, and what is dead stays dead. -/
structure Lasting (o o' : DirectQuic) : Prop where
  identity : o'.identity = o.identity
  options : o'.options = o.options
  dead : o.Dead → o'.Dead

theorem Lasting.refl (o : DirectQuic) : Lasting o o := ⟨rfl, rfl, id⟩

theorem Lasting.trans {o o' o'' : DirectQuic} (h : Lasting o o') (h' : Lasting o' o'') : Lasting o o'' :=
  ⟨h'.identity.trans h.identity, h'.options.trans h.options, fun hdead => h'.dead (h.dead hdead)⟩

theorem same_stop (o : DirectQuic) : o.stop.identity = o.identity ∧ o.stop.options = o.options := by
  unfold stop
  split <;> exact ⟨rfl, rfl⟩

theorem same_work (crypto : KeyCrypto) (o : DirectQuic) (e : DirectEvent) :
    (o.work crypto e).2.identity = o.identity ∧ (o.work crypto e).2.options = o.options := by
  cases e with
  | synchronize snapshot =>
    simp only [work]
    split <;> exact ⟨rfl, rfl⟩
  | start fails =>
    simp only [work, start]
    split
    · exact ⟨rfl, rfl⟩
    · split
      · exact same_stop o
      · exact ⟨rfl, rfl⟩
  | connect endpoint nonce opens starts =>
    simp only [work, connect]
    split <;> exact ⟨rfl, rfl⟩
  | accept nonce configured =>
    simp only [work, accept]
    split <;> exact ⟨rfl, rfl⟩
  | callback i x =>
    simp only [work, call]
    split <;> exact ⟨rfl, rfl⟩
  | send p reserved =>
    have houtcome := send_outcome o p reserved
    simp only [work]
    obtain ⟨new, o', hr⟩ : ∃ new o', (o.send p reserved).2 = (new, o') := ⟨_, _, rfl⟩
    rw [hr] at houtcome ⊢
    cases houtcome <;> exact ⟨rfl, rfl⟩
  | stop => exact same_stop o
  | stopped =>
    simp only [work]
    split <;> exact ⟨rfl, rfl⟩

theorem lasting_work (crypto : KeyCrypto) (o : DirectQuic) (e : DirectEvent) : Lasting o (o.work crypto e).2 :=
  ⟨(same_work crypto o e).1, (same_work crypto o e).2, fun hdead => hdead.work e⟩

end DirectQuic

namespace DirectWorld
variable {crypto : KeyCrypto} {w : DirectWorld} {i : ℕ} {o : DirectQuic}

theorem lasting_step (w : DirectWorld) (a : DirectAct) : w.swarm.Grows DirectQuic.Lasting (w.step crypto a).swarm := by
  rcases @step_swarm crypto w a with heq | ⟨o, -, heq⟩ | ⟨i, e, -, heq⟩
  · rw [heq]
    exact .refl DirectQuic.Lasting.refl _
  · rw [heq]
    exact Swarm.grows_join DirectQuic.Lasting.refl
  · rw [heq]
    exact Swarm.grows_feed DirectQuic.Lasting.refl fun o _ => DirectQuic.lasting_work crypto o e

theorem lasting_run (acts : ℕ → DirectAct) {j k : ℕ} (h : j ≤ k) :
    (run crypto acts j).swarm.Grows DirectQuic.Lasting (run crypto acts k).swarm :=
  states_mono (R := fun w w' : DirectWorld => w.swarm.Grows DirectQuic.Lasting w'.swarm) (fun w => .refl DirectQuic.Lasting.refl w.swarm)
    (fun h h' => .trans DirectQuic.Lasting.trans h h') (fun w a => lasting_step w a) acts h

/-- All but the hellos. -/
def tellingsOf (w : DirectWorld) (i : ℕ) : List DirectOutput := (w.outputsOf i).filter fun x => !x.isHello x.id

/-- A dead endpoint says no more than hello. -/
theorem tellingsOf_step (hlocal : w.swarm.Local (DirectQuic.EndpointSound crypto)) (ho : w.endpoint i = some o) (hdead : o.Dead)
    (a : DirectAct) : (w.step crypto a).tellingsOf i = w.tellingsOf i := by
  rcases @step_swarm crypto w a with heq | ⟨o', -, heq⟩ | ⟨j, e, -, heq⟩
  · rw [tellingsOf, outputsOf, heq, tellingsOf, outputsOf]
  · rw [tellingsOf, outputsOf, heq, tellingsOf, outputsOf]
    rfl
  · rw [tellingsOf, outputsOf, heq, tellingsOf, outputsOf]
    cases hj : w.swarm.machines[j]? with
    | none => rw [Swarm.feed_none hj]
    | some o' =>
      rw [Swarm.outputsOf_feed hj, List.filter_append]
      split
      · rename_i hij
        subst hij
        obtain rfl : o = o' := Option.some.inj (ho.symm.trans hj)
        have hnone : (o.work crypto e).1.filter (fun x => !x.isHello x.id) = [] := by
          rw [List.filter_eq_nil_iff]
          intro x hx
          have hown := hlocal.own i o ho
          obtain ⟨frame, hframe⟩ := hdead.silent hown ((hown.work e).allowed x hx)
          rw [hframe]
          simp [DirectOutput.isHello, DirectOutput.id]
        rw [hnone, List.append_nil]
      · rw [List.filter_nil, List.append_nil]

end DirectWorld

open DirectWorld

/-- What holds of an endpoint and of all it has put out, and what does not come after its end. -/
structure DirectSafe (crypto : KeyCrypto) (o : DirectQuic) (outs : List DirectOutput) : Prop where
  few : o.connections.length ≤ 8
  hellos : ∀ i, (outs.filter (·.isHello i)).length ≤ 1
  proofs : ∀ i, (outs.filter (·.isProof i)).length ≤ 1
  /-- Proofs are over the binding of the endpoint, an accepted one over it as the peer sees it,
  and packets are of its network and epoch and between its addresses. -/
  valid : ∀ x ∈ outs, x.Valid crypto o fun _ => True
  order : Preceded outs
  authenticated : o.authenticated = true → o.leaseValid = true ∧ o.stopping = false ∧ ∃ i sender receiver, .accepted i sender receiver ∈ outs

theorem DirectQuic.EndpointSound.safe {crypto : KeyCrypto} {o : DirectQuic} {outs : List DirectOutput}
    (h : EndpointSound crypto o outs) : DirectSafe crypto o outs where
  few := h.few
  hellos := h.hellos
  proofs := h.proofs
  valid := h.valid
  order := h.order
  authenticated hauth := by
    simp only [authenticated, Bool.and_eq_true, Bool.not_eq_true'] at hauth
    obtain ⟨⟨hrunning, hlease⟩, hselected⟩ := hauth
    obtain ⟨i, hi⟩ := Option.isSome_iff_exists.1 hselected
    obtain ⟨c, hc, hopen, -⟩ := selected_some hi
    obtain ⟨-, sender, -, hmem⟩ := (h.connections i c hc).authorized hopen
    exact ⟨hlease, hrunning, i, sender, _, hmem⟩

theorem direct_quic_safe (crypto : KeyCrypto) (acts : ℕ → DirectAct) (i k : ℕ) (o : DirectQuic)
    (ho : (run crypto acts k).endpoint i = some o) : DirectSafe crypto o ((run crypto acts k).outputsOf i) ∧
    (o.Dead → ∀ l, k ≤ l → (run crypto acts l).tellingsOf i = (run crypto acts k).tellingsOf i ∧
      ∀ o', (run crypto acts l).endpoint i = some o' → o'.authenticated = false) := by
  refine ⟨((sound_run crypto acts k).own i o ho).safe, fun hdead l hkl => ?_⟩
  have hdead' (l : ℕ) (hkl : k ≤ l) : ∃ o', (run crypto acts l).endpoint i = some o' ∧ o'.Dead := by
    obtain ⟨o', ho', hlasting⟩ := (@lasting_run crypto acts _ _ hkl).machines i o ho
    exact ⟨o', ho', hlasting.dead hdead⟩
  refine ⟨?_, fun o' ho' => ?_⟩
  · induction l, hkl using Nat.le_induction with
    | base => rfl
    | succ l hkl ih =>
      obtain ⟨o', ho', hdead'⟩ := hdead' l hkl
      rw [← ih]
      exact tellingsOf_step (sound_run crypto acts l) ho' hdead' (acts l)
  · obtain ⟨o'', ho'', hdead''⟩ := hdead' l hkl
    obtain rfl : o'' = o' := Option.some.inj (ho''.symm.trans ho')
    exact hdead''.not_authenticated ((sound_run crypto acts l).own i o'' ho'')

/-! Devices 3 and 5 connect: 3 opens the connection, both say hello and prove the binding, and a packet goes out;
another does not once the endpoint is stopped. -/

def directBinding : PeerBinding :=
  { networkId := 8, keyEpoch := 1, localGeneration := 1, peerGeneration := 1
    localDevice := 3, peerDevice := 5, localSession := 103, peerSession := 105 }

def directMessages : List Bytes :=
  [makeAuthTranscript 3 103 1 2, makeAuthTranscript 5 105 1 2, bindingTranscript directBinding 11 12,
    bindingTranscript directBinding.reversed 12 11]

def messageNumber (message : Bytes) : ℕ := directMessages.findIdx fun m => decide (m = message)

/-- Signatures that say which message of `directMessages` they are over, and whose they are. -/
def listingCrypto : KeyCrypto :=
  { summingCrypto with
    verifySignature := fun key message signature =>
      (directMessages.any fun m => decide (m = message)) && decide (signature = BitVec.ofNat 512 (10 * messageNumber message + key.toNat))
    sign := fun identity message => BitVec.ofNat 512 (10 * messageNumber message + identity.toNat) }

def directKey (identity : DeviceIdentity) : SignedDeviceKey :=
  { identityPublicKey := identity, encryptionPublicKey := identity + 100, clientNonce := 1, serverNonce := 2
    signature := listingCrypto.sign identity (makeAuthTranscript identity (identity + 100) 1 2) }

def directOptions (binding : PeerBinding) (peer : DeviceIdentity) (host peerHost : UInt32) : DirectQuicOptions :=
  { binding, peerKey := directKey peer, localIpv4 := 0x0a400000 + host, peerIpv4 := 0x0a400000 + peerHost }

def directSnapshot (own peer : DeviceIdentity) (host peerHost : UInt32) : NetworkSnapshot :=
  { identity := some { deviceId := own, signedKey := directKey own }
    networks := [{
      peers := {
        networkId := 8, revision := 1, subnetAddress := 0x0a400000, prefixLength := 24, ownAddress := 0x0a400000 + host
        peers := [{ deviceId := peer, ipv4Address := 0x0a400000 + peerHost, signedKey := some (directKey peer) }]
        ownerDeviceId := 3, keyEpoch := 1 }
      key := { epoch := 1, key := 77 } }] }

/-- The hello of a side, and its proof, as they arrive. -/
def directHello (binding : PeerBinding) (nonce : Nonce) : Bytes :=
  (encodeFrame { type := MessageType.clientHello.code, payload := encodeBinding binding ++ arrayBytes nonce }).toOption.getD []

def directProof (signature : Signature) : Bytes :=
  (encodeFrame { type := MessageType.clientAuth.code, payload := arrayBytes signature }).toOption.getD []

def directPacket : EncryptedNetworkPacket :=
  { networkId := 8, destinationIpv4 := 0x0a400005, keyEpoch := 1, sequence := 1, nonce := 1, ciphertext := List.replicate 20 7, tag := 1 }

def directRun : ℕ → DirectAct
  | 0 => .make 3 (directOptions directBinding 5 3 5)
  | 1 => .make 5 (directOptions directBinding.reversed 3 5 3)
  | 2 => .input 0 (.synchronize (directSnapshot 3 5 3 5))
  | 3 => .input 1 (.synchronize (directSnapshot 5 3 5 3))
  | 4 => .input 0 (.start false)
  | 5 => .input 0 (.connect { ipv4 := 0x0a000005, port := 4000 } 11 true true)
  | 6 => .input 1 (.accept 12 true)
  | 7 => .input 0 (.callback 0 (.connected {}))
  | 8 => .input 1 (.callback 0 .peerStream)
  | 9 => .input 1 (.callback 0 (.receive [directHello directBinding 11] {}))
  | 10 => .input 0 (.callback 0 (.receive [directHello directBinding.reversed 12 ++ directProof 35] {}))
  | 11 => .input 0 (.send directPacket true)
  | 12 => .input 0 .stop
  | 13 => .input 0 (.send directPacket true)
  | _ => .sign 3 (.sessionKey 3 103 1 2)

theorem direct_quic_safe_run : ∃ o, (run listingCrypto directRun 13).endpoint 0 = some o ∧
    DirectSafe listingCrypto o ((run listingCrypto directRun 13).outputsOf 0) ∧
    (run listingCrypto directRun 14).tellingsOf 0 = (run listingCrypto directRun 13).tellingsOf 0 := by
  have hfacts : ((run listingCrypto directRun 13).endpoint 0).map (·.stopping) = some true := by decide +kernel
  obtain ⟨o, ho, hstopping⟩ := Option.map_eq_some_iff.1 hfacts
  obtain ⟨hsafe, hdead⟩ := direct_quic_safe listingCrypto directRun 0 13 o ho
  exact ⟨o, ho, hsafe, (hdead (.inl hstopping) 14 (by omega)).1⟩

end LanLink.P2P
