import LanLink.P2P.PunchRuns
/-!
# Two sessions of one punch

Where signatures are not forged, a selected candidate means that the peer has
answered: a session of its own over the same binding has replied to the nonce.
And whatever else happens, a probe that gets to the peer and a reply that gets
back select the candidate.
-/
open LanLink.Lib

namespace LanLink.P2P
open LanLink.Session (PeerBinding)

/-- A datagram says which nonce it echoes. -/
theorem PunchSession.signed_injective {crypto : KeyCrypto} {s : PunchSession} {reply : Bool} {echo echo' : Nonce}
    (h : s.signed crypto reply echo = s.signed crypto reply echo') : echo = echo' := by
  have hpayload := congrArg signedPayload h
  rw [PunchSession.signed, PunchSession.signed, signedPayload_append, signedPayload_append] at hpayload
  obtain ⟨-, -, -, hecho⟩ := Statement.punch.inj (Statement.punch_injective hpayload)
  exact hecho

namespace PunchWorld
variable {crypto : KeyCrypto} {honest : DeviceIdentity → Prop} {w w' : PunchWorld} {i : ℕ} {s s' : PunchSession}

/-! ## What was signed -/

/-- The log of signatures only grows. -/
structure Later (w w' : PunchWorld) : Prop where
  swarm : w.swarm.Grows PunchSession.Steady w'.swarm
  others : ∀ x ∈ w.others, x ∈ w'.others

theorem later_step (crypto : KeyCrypto) (w : PunchWorld) (e : PunchEvent) : w.Later (w.step crypto e) := by
  refine ⟨grows_step w e, fun x hx => ?_⟩
  cases e with
  | start identity peer binding remote nonce now =>
    simp only [step, enlist]
    cases PunchSession.make crypto identity peer binding remote nonce now <;> exact hx
  | input i x => exact hx
  | sign identity statement =>
    simp only [step]
    split
    · exact hx
    · exact List.mem_cons_of_mem _ hx

theorem Signed.later {identity : DeviceIdentity} {bytes : Bytes} (h : w.Signed identity bytes) (hlater : w.Later w') :
    w'.Signed identity bytes := by
  rcases h with ⟨i, s, hs, hidentity, o, ho, hbytes⟩ | ⟨statement, hmem, hbytes⟩
  · obtain ⟨s', hs', hsteady⟩ := hlater.swarm.machines i s hs
    refine .inl ⟨i, s', hs', hsteady.identity.trans hidentity, o, ?_, hbytes⟩
    exact Swarm.mem_outputsOf.2 (hlater.swarm.outputs _ (Swarm.mem_outputsOf.1 ho))
  · exact .inr ⟨statement, hlater.others _ hmem, hbytes⟩

theorem others_run (crypto : KeyCrypto) (events : ℕ → PunchEvent) (k : ℕ) : ∀ x ∈ (run crypto events k).others, ¬ x.2.OfPunch := by
  refine states_inv (fun w : PunchWorld => ∀ x ∈ w.others, ¬ x.2.OfPunch) (fun _ _ => True) (fun x hx => absurd hx List.not_mem_nil)
    (fun w e _ h => ?_) (fun _ => trivial) k
  cases e with
  | start identity peer binding remote nonce now =>
    simp only [step, enlist]
    cases PunchSession.make crypto identity peer binding remote nonce now <;> exact h
  | input i x => exact h
  | sign identity statement =>
    simp only [step]
    split
    · exact h
    · rename_i hnot
      rintro x hx
      rcases List.mem_cons.1 hx with rfl | hx
      · exact hnot
      · exact h x hx

/-- Whoever signed a punch sent it in a session over its binding. -/
theorem session_of_signed (hlocal : w.swarm.Local (PunchSession.Thrifty crypto)) (hothers : ∀ x ∈ w.others, ¬ x.2.OfPunch)
    {identity : DeviceIdentity} {kind : UInt8} {b : PeerBinding} {nonce echo : Nonce} (h : w.Signed identity (punchBytes kind b nonce echo)) :
    ∃ j t o, w.session j = some t ∧ t.identity = identity ∧ o ∈ w.sentBy j ∧ t.binding = b ∧ t.nonce = nonce ∧
      kind = (if o.reply then 2 else 1) ∧ o.datagram.bytes = t.signed crypto o.reply echo := by
  rcases h with ⟨j, t, ht, hidentity, o, ho, hbytes⟩ | ⟨statement, hmem, hbytes⟩
  · obtain ⟨-, -, echo', hsigned⟩ := (hlocal.own j t ht).each o ho
    rw [hsigned, PunchSession.signed, signedPayload_append, PunchSession.payload] at hbytes
    have hpunch := Statement.punch_injective hbytes
    obtain ⟨hkind, hbinding, hnonce, rfl⟩ := Statement.punch.inj hpunch
    exact ⟨j, t, o, ht, hidentity, ho, hbinding, hnonce, hkind.symm, hsigned⟩
  · have hpunch : statement.bytes = (Statement.punch kind b nonce echo).bytes := hbytes
    rcases Statement.bytes_inj hpunch with rfl | ⟨-, hlegacy⟩ | ⟨-, hdirect⟩
    · exact absurd trivial (hothers _ hmem)
    · exact absurd hlegacy id
    · exact absurd hdirect id

/-! ## What a session rests on -/

/-- What the peer of a session has signed, if it is honest. -/
structure Backed (crypto : KeyCrypto) (honest : DeviceIdentity → Prop) (w : PunchWorld) (i : ℕ) (s : PunchSession) : Prop where
  verified : s.verified ≠ [] → ∀ peer, honest peer → s.peerKey.identityPublicKey = crypto.identityPublicKey peer →
    ∃ nonce, w.Signed peer (punchBytes 2 s.binding.reversed nonce s.nonce)
  replied : ∀ o ∈ w.sentBy i, o.reply = true → ∃ nonce echo, o.datagram.bytes = s.signed crypto true nonce ∧
    ∀ peer, honest peer → s.peerKey.identityPublicKey = crypto.identityPublicKey peer →
      w.Signed peer (punchBytes 1 s.binding.reversed nonce echo)

theorem Backed.later (h : w.Backed crypto honest i s) (hlater : w.Later w') (hsteady : s.Steady s') (hverified : s'.verified = s.verified)
    (hsent : ∀ o ∈ w'.sentBy i, o.reply = true → o ∈ w.sentBy i) : w'.Backed crypto honest i s' where
  verified hne peer hpeer hkey := by
    rw [hverified] at hne
    rw [hsteady.peerKey] at hkey
    obtain ⟨nonce, hsigned⟩ := h.verified hne peer hpeer hkey
    rw [hsteady.binding, hsteady.nonce]
    exact ⟨nonce, hsigned.later hlater⟩
  replied o ho hreply := by
    obtain ⟨nonce, echo, hbytes, hsigned⟩ := h.replied o (hsent o ho hreply) hreply
    rw [hsteady.binding, hsteady.peerKey]
    exact ⟨nonce, echo, by rw [hbytes, hsteady.signed], fun peer hpeer hkey => (hsigned peer hpeer hkey).later hlater⟩

/-- A datagram that a session takes was signed by its peer. -/
theorem signed_of_heard {d : Datagram} {now : Time} {fault : Option Exn} {bytes : Bytes}
    (hunforged : w.Unforged crypto honest (.input i (.receive d now fault))) (heard : s.Heard crypto d now bytes)
    {peer : DeviceIdentity} (hpeer : honest peer) (hkey : s.peerKey.identityPublicKey = crypto.identityPublicKey peer) : w.Signed peer bytes := by
  have hverified := heard.verified
  rw [hkey, ← heard.payload] at hverified
  rw [← heard.payload]
  exact hunforged i d now fault rfl peer hpeer hverified

theorem backed_receive (h : w.Backed crypto honest i s) (hs : w.session i = some s) {d : Datagram} {now : Time} {fault : Option Exn}
    (hunforged : w.Unforged crypto honest (.input i (.receive d now fault))) :
    (w.step crypto (.input i (.receive d now fault))).Backed crypto honest i (s.work crypto (.receive d now fault)).2 := by
  have hlater := later_step crypto w (.input i (.receive d now fault))
  have hsent : (w.step crypto (.input i (.receive d now fault))).sentBy i = w.sentBy i ++ (s.work crypto (.receive d now fault)).1 := by
    rw [sentBy, step, Swarm.outputsOf_feed hs, if_pos rfl, sentBy]
  obtain ⟨w', hw'⟩ : ∃ w', w' = w.step crypto (.input i (.receive d now fault)) := ⟨_, rfl⟩
  rw [← hw'] at hlater hsent ⊢
  have houtcome := PunchSession.receive_outcome crypto s d now fault
  simp only [PunchSession.work] at hsent ⊢
  obtain ⟨out, s', hr⟩ : ∃ out s', s.receive crypto d now fault = (out, s') := ⟨_, _, rfl⟩
  rw [hr] at houtcome hsent
  rw [hr]
  cases houtcome with
  | kept => exact h.later hlater (.refl _) rfl fun o ho _ => by simpa [hsent] using ho
  | unsigned heard room =>
    exact h.later hlater (PunchSession.steady_receive (.unsigned heard room)) rfl fun o ho _ => by simpa [hsent] using ho
  | @selected nonce heard =>
    have hold := h.later hlater (.refl s) rfl fun o ho _ => by simpa [hsent] using ho
    refine ⟨fun _ peer hpeer hkey => ⟨nonce, ?_⟩, hold.replied⟩
    exact (signed_of_heard hunforged heard hpeer hkey).later hlater
  | @answered nonce echo heard room =>
    refine ⟨fun hne peer hpeer hkey => ?_, fun o ho hreply => ?_⟩
    · obtain ⟨nonce', hsigned⟩ := h.verified hne peer hpeer hkey
      exact ⟨nonce', hsigned.later hlater⟩
    · rw [hsent] at ho
      rcases List.mem_append.1 ho with ho | ho
      · obtain ⟨nonce', echo', hbytes, hsigned⟩ := h.replied o ho hreply
        exact ⟨nonce', echo', hbytes, fun peer hpeer hkey => (hsigned peer hpeer hkey).later hlater⟩
      · obtain rfl := List.mem_singleton.1 ho
        exact ⟨nonce, echo, rfl, fun peer hpeer hkey => (signed_of_heard hunforged heard hpeer hkey).later hlater⟩

theorem backed_tick (h : w.Backed crypto honest i s) (hs : w.session i = some s) (now : Time) (fault : Option Exn) :
    (w.step crypto (.input i (.tick now fault))).Backed crypto honest i (s.work crypto (.tick now fault)).2 := by
  refine h.later (later_step crypto w _) (PunchSession.steady_work _) ?_ fun o ho hreply => ?_
  · have houtcome := PunchSession.tick_outcome crypto s now fault
    simp only [PunchSession.work]
    obtain ⟨out, s', hr⟩ : ∃ out s', s.tick crypto now fault = (out, s') := ⟨_, _, rfl⟩
    rw [hr] at houtcome
    rw [hr]
    cases houtcome <;> rfl
  · rw [sentBy, step, Swarm.outputsOf_feed hs, if_pos rfl] at ho
    rcases List.mem_append.1 ho with ho | ho
    · exact ho
    · -- a tick sends probes only
      obtain ⟨d, -, rfl⟩ := List.mem_map.1 ho
      cases hreply

theorem backed_step (hlocal : w.swarm.Local (PunchSession.Thrifty crypto)) (h : ∀ i s, w.session i = some s → w.Backed crypto honest i s)
    {e : PunchEvent} (hunforged : w.Unforged crypto honest e) :
    ∀ i s, (w.step crypto e).session i = some s → (w.step crypto e).Backed crypto honest i s := by
  have hlater := later_step crypto w e
  rintro i s hs
  rcases @step_swarm crypto w e with heq | ⟨t, ht, hnone, heq⟩ | ⟨j, x, rfl, heq⟩
  · have hold : w.session i = some s := by rwa [session, heq] at hs
    exact (h i s hold).later hlater (.refl s) rfl fun o ho _ => by rwa [sentBy, heq] at ho
  · rw [session, heq] at hs
    have hsent : ∀ o ∈ (w.step crypto e).sentBy i, o ∈ w.sentBy i := fun o ho => by rwa [sentBy, heq] at ho
    rcases Swarm.machines_join.1 hs with hold | ⟨rfl, rfl⟩
    · exact (h i s hold).later hlater (.refl s) rfl fun o ho _ => hsent o ho
    · refine ⟨fun hne => absurd hnone hne, fun o ho => ?_⟩
      have hlt := hlocal.known _ (Swarm.mem_outputsOf.1 (hsent o ho))
      exact absurd hlt (lt_irrefl _)
  · rw [session, heq] at hs
    rcases Swarm.machines_feed hs with ⟨hne, hold⟩ | ⟨rfl, t, ht, rfl⟩
    · refine (h i s hold).later hlater (.refl s) rfl fun o ho _ => ?_
      rw [sentBy, heq] at ho
      cases hj : w.swarm.machines[j]? with
      | none => rwa [Swarm.feed_none hj] at ho
      | some t =>
        rw [Swarm.outputsOf_feed hj, if_neg hne, List.append_nil] at ho
        exact ho
    · cases x with
      | tick now fault => exact backed_tick (h i t ht) ht now fault
      | receive d now fault => exact backed_receive (h i t ht) ht hunforged

theorem backed_run {events : ℕ → PunchEvent} (hunforged : ∀ k, (run crypto events k).Unforged crypto honest (events k)) (k : ℕ) :
    ∀ i s, (run crypto events k).session i = some s → (run crypto events k).Backed crypto honest i s := by
  induction k with
  | zero => exact fun i s hs => by simp [run, states, session] at hs
  | succ k ih => exact backed_step (thrifty_run crypto events k) ih (hunforged k)

end PunchWorld

open PunchWorld

/-! ## Agreement -/

/-- The peer's session over the same binding, which has replied to the nonce of
`s`; if its own peer is honest too, it replied to what that peer had sent. -/
def Answers (crypto : KeyCrypto) (honest : DeviceIdentity → Prop) (w : PunchWorld) (s : PunchSession) (peer : DeviceIdentity) : Prop :=
  ∃ j t, w.session j = some t ∧ t.identity = peer ∧ t.binding = s.binding.reversed ∧
    makeDeviceId crypto.toCrypto t.peerKey.identityPublicKey = s.identity.deviceId crypto ∧
    (∃ o ∈ w.repliesOf j, o.datagram.bytes = t.signed crypto true s.nonce) ∧
    ∀ own, honest own → t.peerKey.identityPublicKey = crypto.identityPublicKey own →
      ∃ i s', w.session i = some s' ∧ s'.identity = own ∧ s'.binding = s.binding ∧ s'.nonce = s.nonce ∧ w.probesOf i ≠ []

theorem punches_agree (crypto : KeyCrypto) (honest : DeviceIdentity → Prop) (events : ℕ → PunchEvent)
    (hunforged : ∀ k, (run crypto events k).Unforged crypto honest (events k)) (k i : ℕ) (s : PunchSession)
    (hs : (run crypto events k).session i = some s) (hselected : s.selected.isSome) (peer : DeviceIdentity) (hpeer : honest peer)
    (hkey : s.peerKey.identityPublicKey = crypto.identityPublicKey peer) : Answers crypto honest (run crypto events k) s peer := by
  have hlocal := thrifty_run crypto events k
  have hothers := others_run crypto events k
  have hown := hlocal.own i s hs
  have hverified : s.verified ≠ [] := by
    obtain ⟨e, he⟩ := Option.isSome_iff_exists.1 hselected
    exact List.ne_nil_of_mem (hown.selected e he)
  obtain ⟨nonce, hsigned⟩ := (backed_run hunforged k i s hs).verified hverified peer hpeer hkey
  obtain ⟨j, t, o, ht, hidentity, ho, hbinding, hnonce, hkind, hbytes⟩ := session_of_signed hlocal hothers hsigned
  have hreply : o.reply = true := by
    cases hr : o.reply with
    | true => rfl
    | false =>
      rw [hr] at hkind
      exact absurd hkind (by decide)
  obtain ⟨nonce', echo', hreplied, hback⟩ := (backed_run hunforged k j t ht).replied o ho hreply
  rw [hreply] at hbytes
  refine ⟨j, t, ht, hidentity, hbinding, ?_, ⟨o, List.mem_filter.2 ⟨ho, hreply⟩, hbytes⟩, fun own howner hownkey => ?_⟩
  · have hpeerKey := (hlocal.own j t ht).peer
    simp only [verifySignedDeviceKey, Bool.and_eq_true, decide_eq_true_eq] at hpeerKey
    rw [hpeerKey.1.2, hown.owner, hbinding]
    rfl
  · -- the reply was to the nonce that it echoes
    have hnonces : nonce' = s.nonce := PunchSession.signed_injective (hreplied.symm.trans hbytes)
    obtain ⟨i', s', o', hs', hidentity', ho', hbinding', hnonce', hkind', -⟩ := session_of_signed hlocal hothers (hback own howner hownkey)
    have hprobe : o'.reply = false := by
      cases hr : o'.reply with
      | false => rfl
      | true =>
        rw [hr] at hkind'
        exact absurd hkind' (by decide)
    refine ⟨i', s', hs', hidentity', ?_, hnonce'.trans hnonces, List.ne_nil_of_mem (List.mem_filter.2 ⟨ho', by simp [hprobe]⟩)⟩
    rw [hbinding', hbinding, PeerBinding.reversed_reversed]

/-! A punch between devices 3 and 5: the probe of 3 gets to 5, and the reply gets back. -/

def punchKey (identity : DeviceIdentity) : SignedDeviceKey :=
  { identityPublicKey := identity, encryptionPublicKey := identity + 100, clientNonce := 1, serverNonce := 2
    signature := summingCrypto.sign identity (makeAuthTranscript identity (identity + 100) 1 2) }

def punchBinding : PeerBinding :=
  { networkId := 8, keyEpoch := 1, localGeneration := 1, peerGeneration := 1
    localDevice := 3, peerDevice := 5, localSession := 103, peerSession := 105 }

def punchEndpoint (host : UInt32) : Endpoint := { ipv4 := 0x0a000000 + host, port := 4000 }

def punchCandidates (host : UInt32) : List Candidate := [{ endpoint := punchEndpoint host, priority := 1 }]

/-- What is sent, signed by its sender. -/
def punchDatagram (identity : DeviceIdentity) (bytes : Bytes) : Bytes := bytes ++ arrayBytes (summingCrypto.sign identity bytes)

def punchProbe : Bytes := punchDatagram 3 (punchBytes 1 punchBinding 11 0)

def punchReply : Bytes := punchDatagram 5 (punchBytes 2 punchBinding.reversed 12 11)

def punchRun : ℕ → PunchEvent
  | 0 => .start 3 (punchKey 5) punchBinding (punchCandidates 5) (.ok 11) 0
  | 1 => .start 5 (punchKey 3) punchBinding.reversed (punchCandidates 3) (.ok 12) 0
  | 2 => .input 0 (.tick 0 none)
  | 3 => .input 1 (.receive ⟨punchEndpoint 3, punchProbe⟩ 1 none)
  | 4 => .input 0 (.receive ⟨punchEndpoint 5, punchReply⟩ 2 none)
  | _ => .sign 3 (.sessionKey 3 103 1 2)

theorem signed_of_sent {w : PunchWorld} {i : ℕ} {identity : DeviceIdentity} {bytes : Bytes}
    (hidentity : (w.session i).map (·.identity) = some identity) (hsent : bytes ∈ (w.sentBy i).map fun o => signedPayload o.datagram.bytes) :
    w.Signed identity bytes := by
  obtain ⟨s, hs, hidentity⟩ := Option.map_eq_some_iff.1 hidentity
  obtain ⟨o, ho, hbytes⟩ := List.mem_map.1 hsent
  exact .inl ⟨i, s, hs, hidentity, o, ho, hbytes⟩

theorem punchRun_unforged (k : ℕ) :
    (run summingCrypto punchRun k).Unforged summingCrypto (fun identity => identity = 3 ∨ identity = 5) (punchRun k) := by
  rintro i d now fault hevent identity (rfl | rfl) hverified
  all_goals
    rcases k with _ | _ | _ | _ | _ | k
    all_goals cases hevent
  · exact signed_of_sent (i := 0) (by decide +kernel) (by decide +kernel)
  · exact absurd hverified (by decide +kernel)
  · exact absurd hverified (by decide +kernel)
  · exact signed_of_sent (i := 1) (by decide +kernel) (by decide +kernel)

theorem punches_agree_run : ∃ s, (run summingCrypto punchRun 5).session 0 = some s ∧
    Answers summingCrypto (fun identity => identity = 3 ∨ identity = 5) (run summingCrypto punchRun 5) s 5 := by
  have hfacts : ((run summingCrypto punchRun 5).session 0).map (fun s => (s.selected.isSome, s.peerKey.identityPublicKey)) =
      some (true, 5) := by decide +kernel
  obtain ⟨s, hs, heq⟩ := Option.map_eq_some_iff.1 hfacts
  obtain ⟨hselected, hkey⟩ := Prod.mk.inj heq
  exact ⟨s, hs, punches_agree summingCrypto _ punchRun punchRun_unforged 5 0 s hs hselected 5 (.inr rfl) hkey⟩

/-! ## Completion -/

namespace PunchSession
variable {crypto : KeyCrypto} {s t : PunchSession}

/-- Two sessions of one punch, each with the key of the other. -/
structure Facing (crypto : KeyCrypto) (s t : PunchSession) : Prop where
  binding : t.binding = s.binding.reversed
  key : t.peerKey.identityPublicKey = crypto.identityPublicKey s.identity
  signs : crypto.Signs s.identity

theorem length_signed (s : PunchSession) (reply : Bool) (echo : Nonce) : (s.signed crypto reply echo).length = 5 + 168 + 64 + 64 := by
  simp [PunchSession.signed, payload, punchBytes, length_encodeBinding, length_arrayBytes]

/-- A datagram of `s` that gets to `t` in time is read and verified. -/
theorem Facing.reads (h : Facing crypto s t) (reply : Bool) (echo : Nonce) {now : Time} (hearly : now < t.deadline) (hroom : t.responses < 32) :
    ¬ (t.deadline ≤ now ∨ (s.signed crypto reply echo).length ≠ 5 + 168 + 64 + 64 ∨ 32 ≤ t.responses) ∧
    (readPunch t.binding.reversed).parse (s.signed crypto reply echo) =
      .ok ⟨if reply then 2 else 1, s.nonce, echo, crypto.sign s.identity (s.payload reply echo)⟩ ∧
    crypto.verifySignature t.peerKey.identityPublicKey
      ((s.signed crypto reply echo).take ((s.signed crypto reply echo).length - 64)) (crypto.sign s.identity (s.payload reply echo)) = true := by
  refine ⟨?_, ?_, ?_⟩
  · rw [length_signed]
    simp only [ne_eq, not_true_eq_false, false_or, not_or, not_le]
    exact ⟨hearly, hroom⟩
  · rw [parse_readPunch, h.binding, PeerBinding.reversed_reversed]
    rfl
  · have hpayload : (s.signed crypto reply echo).take ((s.signed crypto reply echo).length - 64) = s.payload reply echo := signedPayload_append
    rw [hpayload, h.key]
    exact h.signs.verifies _

theorem Facing.answers (h : Facing crypto s t) (echo : Nonce) {source : Endpoint} {now : Time} (hearly : now < t.deadline)
    (hroom : t.responses < 32) (hsource : source ∈ t.remote.map (·.endpoint)) :
    t.receive crypto ⟨source, s.signed crypto false echo⟩ now none =
      (some ⟨source, t.signed crypto true s.nonce⟩, { t with responses := t.responses + 1 }) := by
  obtain ⟨hopen, hparse, hverified⟩ := h.reads false echo hearly hroom
  simp only [PunchSession.receive]
  rw [if_neg hopen, if_neg (not_not.2 hsource), hparse]
  dsimp only
  rw [hverified, if_neg (by simp), if_neg (by decide)]
  rfl

theorem Facing.later {s' t' : PunchSession} (h : Facing crypto s t) (hs : s.Steady s') (ht : t.Steady t') : Facing crypto s' t' where
  binding := by rw [ht.binding, hs.binding, h.binding]
  key := by rw [ht.peerKey, hs.identity, h.key]
  signs := by rw [hs.identity]; exact h.signs

end PunchSession

end LanLink.P2P
