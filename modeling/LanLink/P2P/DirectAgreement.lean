import LanLink.P2P.DirectRuns
/-!
# Two endpoints of one direct connection

Where signatures are not forged, a proof that an endpoint accepts was put out by
an endpoint of the peer, over the same binding and over the nonce of the
connection; and no packet passes before that.
-/
open LanLink.Lib

namespace LanLink.P2P
open LanLink.Session (PeerBinding)

namespace DirectWorld
variable {crypto : KeyCrypto} {honest : DeviceIdentity → Prop} {w w' : DirectWorld} {i : ℕ} {o o' : DirectQuic}

/-! ## What was signed -/

/-- `identity` has signed `bytes`, in a proof it put out or otherwise. -/
def Signed (w : DirectWorld) (identity : DeviceIdentity) (bytes : Bytes) : Prop :=
  (∃ j t c sender receiver frame, w.endpoint j = some t ∧ t.identity = identity ∧ .proof c sender receiver frame ∈ w.outputsOf j ∧
    bindingTranscript t.options.binding sender receiver = bytes) ∨
  ∃ statement, (identity, statement) ∈ w.others ∧ statement.bytes = bytes

/-- A signature that comes in and verifies under the key of an honest identity is over what that identity signed. -/
def Unforged (crypto : KeyCrypto) (honest : DeviceIdentity → Prop) (w : DirectWorld) (a : DirectAct) : Prop :=
  ∀ i e o, a = .input i e → w.endpoint i = some o → ∀ signature, o.Arrives e signature → ∀ identity, honest identity → ∀ bytes,
    crypto.verifySignature (crypto.identityPublicKey identity) bytes signature = true → w.Signed identity bytes

/-- The log of signatures only grows. -/
structure Later (w w' : DirectWorld) : Prop where
  swarm : w.swarm.Grows DirectQuic.Lasting w'.swarm
  others : ∀ x ∈ w.others, x ∈ w'.others

theorem later_step (crypto : KeyCrypto) (w : DirectWorld) (a : DirectAct) : w.Later (w.step crypto a) := by
  refine ⟨lasting_step w a, fun x hx => ?_⟩
  cases a with
  | make identity options =>
    simp only [step, enlist]
    cases DirectQuic.make crypto identity options <;> exact hx
  | input i e => exact hx
  | sign identity statement =>
    simp only [step]
    split
    · exact hx
    · exact List.mem_cons_of_mem _ hx

theorem Signed.later {identity : DeviceIdentity} {bytes : Bytes} (h : w.Signed identity bytes) (hlater : w.Later w') :
    w'.Signed identity bytes := by
  rcases h with ⟨j, t, c, sender, receiver, frame, ht, hidentity, hmem, hbytes⟩ | ⟨statement, hmem, hbytes⟩
  · obtain ⟨t', ht', hlasting⟩ := hlater.swarm.machines j t ht
    refine .inl ⟨j, t', c, sender, receiver, frame, ht', hlasting.identity.trans hidentity, ?_, ?_⟩
    · exact Swarm.mem_outputsOf.2 (hlater.swarm.outputs _ (Swarm.mem_outputsOf.1 hmem))
    · rw [hlasting.options, hbytes]
  · exact .inr ⟨statement, hlater.others _ hmem, hbytes⟩

theorem others_run (crypto : KeyCrypto) (acts : ℕ → DirectAct) (k : ℕ) :
    ∀ x ∈ (run crypto acts k).others, ¬ x.2.Direct ∧ ¬ x.2.Legacy := by
  refine states_inv (fun w : DirectWorld => ∀ x ∈ w.others, ¬ x.2.Direct ∧ ¬ x.2.Legacy) (fun _ _ => True)
    (fun x hx => absurd hx List.not_mem_nil) (fun w a _ h => ?_) (fun _ => trivial) k
  cases a with
  | make identity options =>
    simp only [step, enlist]
    cases DirectQuic.make crypto identity options <;> exact h
  | input i e => exact h
  | sign identity statement =>
    simp only [step]
    split
    · exact h
    · rename_i hnot
      rintro x hx
      rcases List.mem_cons.1 hx with rfl | hx
      · exact not_or.1 hnot
      · exact h x hx

/-- Whoever signed a binding for a direct connection put out a proof of it. -/
theorem endpoint_of_signed (hothers : ∀ x ∈ w.others, ¬ x.2.Direct ∧ ¬ x.2.Legacy) {identity : DeviceIdentity} {b : PeerBinding}
    {sender receiver : Nonce} (h : w.Signed identity (bindingTranscript b sender receiver)) :
    ∃ j t c frame, w.endpoint j = some t ∧ t.identity = identity ∧ t.options.binding = b ∧ .proof c sender receiver frame ∈ w.outputsOf j := by
  rcases h with ⟨j, t, c, sender', receiver', frame, ht, hidentity, hmem, hbytes⟩ | ⟨statement, hmem, hbytes⟩
  · have hdirect := Statement.direct_injective hbytes
    obtain ⟨hbinding, rfl, rfl⟩ := Statement.direct.inj hdirect
    exact ⟨j, t, c, frame, ht, hidentity, hbinding, hmem⟩
  · obtain ⟨hdirect, hlegacy⟩ := hothers _ hmem
    have hbytes : statement.bytes = (Statement.direct b sender receiver).bytes := hbytes
    rcases Statement.bytes_inj hbytes with rfl | ⟨hdirect', -⟩ | ⟨hlegacy', -⟩
    · exact absurd trivial hdirect
    · exact absurd hdirect' hdirect
    · exact absurd hlegacy' hlegacy

/-! ## What an endpoint rests on -/

/-- The proofs that an endpoint accepted, if its peer is honest. -/
def Backed (crypto : KeyCrypto) (honest : DeviceIdentity → Prop) (w : DirectWorld) (i : ℕ) (o : DirectQuic) : Prop :=
  ∀ c sender receiver, .accepted c sender receiver ∈ w.outputsOf i → ∀ peer, honest peer →
    o.options.peerKey.identityPublicKey = crypto.identityPublicKey peer →
    w.Signed peer (bindingTranscript o.options.binding.reversed sender receiver)

theorem Backed.later (h : w.Backed crypto honest i o) (hlater : w.Later w') (hoptions : o'.options = o.options)
    (hsame : ∀ x ∈ w'.outputsOf i, x ∈ w.outputsOf i) : w'.Backed crypto honest i o' := by
  intro c sender receiver hmem peer hpeer hkey
  rw [hoptions] at hkey ⊢
  exact (h c sender receiver (hsame _ hmem) peer hpeer hkey).later hlater

theorem backed_input (hlocal : w.swarm.Local (DirectQuic.EndpointSound crypto)) (h : w.Backed crypto honest i o)
    (ho : w.endpoint i = some o) {e : DirectQuic.DirectEvent} (hunforged : w.Unforged crypto honest (.input i e)) :
    (w.step crypto (.input i e)).Backed crypto honest i (o.work crypto e).2 := by
  intro c sender receiver hmem peer hpeer hkey
  have hoptions := (DirectQuic.same_work crypto o e).2
  rw [hoptions] at hkey ⊢
  refine Signed.later ?_ (later_step crypto w (.input i e))
  rw [outputsOf, step, Swarm.outputsOf_feed ho, if_pos rfl] at hmem
  rcases List.mem_append.1 hmem with hmem | hmem
  · exact h c sender receiver hmem peer hpeer hkey
  · obtain ⟨signature, harrives, hverified⟩ := ((hlocal.own i o ho).work e).valid _ hmem
    simp only [verifyPeerBinding, Bool.and_eq_true] at hverified
    rw [hkey] at hverified
    exact hunforged i e o rfl ho signature harrives peer hpeer _ hverified.2

theorem backed_step (hlocal : w.swarm.Local (DirectQuic.EndpointSound crypto)) (h : ∀ i o, w.endpoint i = some o → w.Backed crypto honest i o)
    {a : DirectAct} (hunforged : w.Unforged crypto honest a) :
    ∀ i o, (w.step crypto a).endpoint i = some o → (w.step crypto a).Backed crypto honest i o := by
  have hlater := later_step crypto w a
  intro i o ho
  rcases @step_swarm crypto w a with heq | ⟨t, ht, heq⟩ | ⟨j, e, rfl, heq⟩
  · have hold : w.endpoint i = some o := by rwa [endpoint, heq] at ho
    exact (h i o hold).later hlater rfl fun x hx => by rwa [outputsOf, heq] at hx
  · rw [endpoint, heq] at ho
    have hsame : ∀ x ∈ (w.step crypto a).outputsOf i, x ∈ w.outputsOf i := fun x hx => by rwa [outputsOf, heq] at hx
    rcases Swarm.machines_join.1 ho with hold | ⟨rfl, rfl⟩
    · exact (h i o hold).later hlater rfl hsame
    · intro c sender receiver hmem
      have hlt := hlocal.known _ (Swarm.mem_outputsOf.1 (hsame _ hmem))
      exact absurd hlt (lt_irrefl _)
  · rw [endpoint, heq] at ho
    rcases Swarm.machines_feed ho with ⟨hne, hold⟩ | ⟨rfl, t, ht, rfl⟩
    · refine (h i o hold).later hlater rfl fun x hx => ?_
      rw [outputsOf, heq] at hx
      cases hj : w.swarm.machines[j]? with
      | none => rwa [Swarm.feed_none hj] at hx
      | some t =>
        rw [Swarm.outputsOf_feed hj, if_neg hne, List.append_nil] at hx
        exact hx
    · exact backed_input hlocal (h i t ht) ht hunforged

theorem backed_run {acts : ℕ → DirectAct} (hunforged : ∀ k, (run crypto acts k).Unforged crypto honest (acts k)) (k : ℕ) :
    ∀ i o, (run crypto acts k).endpoint i = some o → (run crypto acts k).Backed crypto honest i o := by
  induction k with
  | zero => exact fun i o ho => by simp [run, states, endpoint] at ho
  | succ k ih => exact backed_step (sound_run crypto acts k) ih (hunforged k)

end DirectWorld

open DirectWorld

/-! ## Agreement -/

/-- An endpoint of the peer over the same binding, for the same two devices, has proved it with these nonces. -/
def Proves (crypto : KeyCrypto) (w : DirectWorld) (o : DirectQuic) (peer : DeviceIdentity) (sender receiver : Nonce) : Prop :=
  ∃ j t c frame, w.endpoint j = some t ∧ t.identity = peer ∧ t.options.binding = o.options.binding.reversed ∧
    makeDeviceId crypto.toCrypto t.options.peerKey.identityPublicKey = o.identity.deviceId crypto ∧
    .proof c sender receiver frame ∈ w.outputsOf j

/-- What holds of an endpoint whose peer is honest. -/
structure Agreed (crypto : KeyCrypto) (w : DirectWorld) (i : ℕ) (o : DirectQuic) (peer : DeviceIdentity) : Prop where
  accepted : ∀ c sender receiver, .accepted c sender receiver ∈ w.outputsOf i → Proves crypto w o peer sender receiver
  packets : ∀ c x, x ∈ w.outputsOf i → x.isPacket c → ∃ sender receiver, .accepted c sender receiver ∈ w.outputsOf i ∧
    Proves crypto w o peer sender receiver
  authenticated : o.authenticated = true → ∃ c sender receiver, .accepted c sender receiver ∈ w.outputsOf i ∧
    Proves crypto w o peer sender receiver

theorem direct_agrees (crypto : KeyCrypto) (honest : DeviceIdentity → Prop) (acts : ℕ → DirectAct)
    (hunforged : ∀ k, (run crypto acts k).Unforged crypto honest (acts k)) (k i : ℕ) (o : DirectQuic)
    (ho : (run crypto acts k).endpoint i = some o) (peer : DeviceIdentity) (hpeer : honest peer)
    (hkey : o.options.peerKey.identityPublicKey = crypto.identityPublicKey peer) : Agreed crypto (run crypto acts k) i o peer := by
  have hlocal := sound_run crypto acts k
  have hown := hlocal.own i o ho
  have hproves (c : DirectId) (sender receiver : Nonce)
      (hmem : .accepted c sender receiver ∈ (run crypto acts k).outputsOf i) : Proves crypto (run crypto acts k) o peer sender receiver := by
    have hsigned := backed_run hunforged k i o ho c sender receiver hmem peer hpeer hkey
    obtain ⟨j, t, c', frame, ht, hidentity, hbinding, hproof⟩ := endpoint_of_signed (others_run crypto acts k) hsigned
    refine ⟨j, t, c', frame, ht, hidentity, hbinding, ?_, hproof⟩
    have hpeerKey := (hlocal.own j t ht).peer
    simp only [verifySignedDeviceKey, Bool.and_eq_true, decide_eq_true_eq] at hpeerKey
    rw [hpeerKey.1.2, hown.owner, hbinding]
    rfl
  refine ⟨hproves, fun c x hx hpacket => ?_, fun hauth => ?_⟩
  · obtain ⟨pre, post, hsplit⟩ := List.append_of_mem hx
    obtain ⟨sender, receiver, hmem⟩ := hown.order pre x post c hsplit hpacket
    have hmem : .accepted c sender receiver ∈ (run crypto acts k).outputsOf i := by
      rw [hsplit]
      exact List.mem_append_left _ hmem
    exact ⟨sender, receiver, hmem, hproves c sender receiver hmem⟩
  · obtain ⟨-, -, c, sender, receiver, hmem⟩ := hown.safe.authenticated hauth
    exact ⟨c, sender, receiver, hmem, hproves c sender receiver hmem⟩

/-- What comes in carries no signature but the one that device 5 has put out. -/
theorem arriving_of {w : DirectWorld} {i : ℕ} {e : DirectQuic.DirectEvent} {o : DirectQuic} {signature : Signature} (payloads : List Bytes)
    (hpayloads : (w.endpoint i).map (fun o => (o.arrived e).map (·.payload)) = some payloads) (ho : w.endpoint i = some o)
    (harrives : o.Arrives e signature) : arrayBytes signature ∈ payloads := by
  rw [ho, Option.map_some, Option.some.injEq] at hpayloads
  obtain ⟨f, hf, hsignature⟩ := harrives
  rw [← hpayloads, ← hsignature]
  exact List.mem_map_of_mem hf

theorem directRun_unforged (k : ℕ) :
    (run listingCrypto directRun k).Unforged listingCrypto (fun identity => identity = 3 ∨ identity = 5) (directRun k) := by
  rintro i e o hact ho signature harrives identity hidentity bytes hverified
  have hquiet (hnone : ((run listingCrypto directRun k).endpoint i).map (fun o => (o.arrived e).map (·.payload)) = some []) :
      (run listingCrypto directRun k).Signed identity bytes := absurd (arriving_of [] hnone ho harrives) List.not_mem_nil
  rcases k with _ | _ | _ | _ | _ | _ | _ | _ | _ | _ | _ | _ | _ | _ | k
  all_goals cases hact
  · exact hquiet (by decide +kernel)
  · exact hquiet (by decide +kernel)
  · exact hquiet (by decide +kernel)
  · exact hquiet (by decide +kernel)
  · exact hquiet (by decide +kernel)
  · exact hquiet (by decide +kernel)
  · exact hquiet (by decide +kernel)
  · -- a hello is longer than a signature
    have hmem := arriving_of [encodeBinding directBinding ++ arrayBytes (11 : Nonce)] (by decide +kernel) ho harrives
    have hlength := congrArg List.length (List.mem_singleton.1 hmem)
    rw [length_arrayBytes] at hlength
    exact absurd hlength (by decide +kernel)
  · have hmem := arriving_of [encodeBinding directBinding.reversed ++ arrayBytes (12 : Nonce), arrayBytes (35 : Signature)]
      (by decide +kernel) ho harrives
    rcases List.mem_cons.1 hmem with hhello | hproof
    · have hlength := congrArg List.length hhello
      rw [length_arrayBytes] at hlength
      exact absurd hlength (by decide +kernel)
    · obtain rfl : signature = 35 := arrayBytes_injective (by rfl) (List.mem_singleton.1 hproof)
      obtain ⟨hmessage, hsignature⟩ := Bool.and_eq_true_iff.1 hverified
      have hsignature := of_decide_eq_true hsignature
      simp only [directMessages, List.any_cons, List.any_nil, Bool.or_false, Bool.or_eq_true, decide_eq_true_eq] at hmessage
      rcases hidentity with rfl | rfl <;> rcases hmessage with rfl | rfl | rfl | rfl
      case inr.inr.inr.inr =>
        have hfacts : ((run listingCrypto directRun 10).endpoint 1).map (fun t => (t.identity, t.options.binding)) =
            some (5, directBinding.reversed) := by decide +kernel
        obtain ⟨t, ht, heq⟩ := Option.map_eq_some_iff.1 hfacts
        obtain ⟨hidentity, hbinding⟩ := Prod.mk.inj heq
        exact .inl ⟨1, t, 0, 12, 11, DirectQuic.proofFrame 35, ht, hidentity, by decide +kernel, by rw [hbinding]⟩
      all_goals exact absurd hsignature (by decide +kernel)
  · exact hquiet (by decide +kernel)
  · exact hquiet (by decide +kernel)
  · exact hquiet (by decide +kernel)

theorem direct_agrees_run : ∃ o, (run listingCrypto directRun 12).endpoint 0 = some o ∧ o.authenticated = true ∧
    Agreed listingCrypto (run listingCrypto directRun 12) 0 o 5 := by
  have hfacts : ((run listingCrypto directRun 12).endpoint 0).map (fun o => (o.authenticated, o.options.peerKey.identityPublicKey)) =
      some (true, 5) := by decide +kernel
  obtain ⟨o, ho, heq⟩ := Option.map_eq_some_iff.1 hfacts
  obtain ⟨hauthenticated, hkey⟩ := Prod.mk.inj heq
  exact ⟨o, ho, hauthenticated, direct_agrees listingCrypto _ directRun directRun_unforged 12 0 o ho 5 (.inr rfl) hkey⟩

end LanLink.P2P
