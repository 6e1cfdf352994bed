import LanLink.Lib.Runs
import LanLink.Lib.Swarms
import LanLink.P2P.Punch
/-!
# Runs of punches

Any number of devices with any number of punch sessions, and a network that
delivers what it likes to whom it likes. A session sends at most 32 probes and
32 replies, all to the candidates it was given. Where signatures are not forged, a
session that selected a candidate has a session of its peer over the same binding
that answered its nonce.
-/
open LanLink.Lib

namespace LanLink.P2P
open LanLink.Session (PeerBinding)

/-! ## The devices and what they sign -/

/-- A datagram of a session, at the time of the call that sent it. -/
structure Emission where
  reply : Bool
  time : Time
  datagram : ProbeDatagram
  deriving DecidableEq, Repr

inductive PunchInput
  | tick (now : Time) (signFault : Option Exn)
  | receive (d : Datagram) (now : Time) (signFault : Option Exn)

def PunchSession.work (crypto : KeyCrypto) (s : PunchSession) : PunchInput → List Emission × PunchSession
  | .tick now signFault =>
    let r := s.tick crypto now signFault
    ((r.1.toOption.getD []).map fun d => { reply := false, time := now, datagram := d }, r.2)
  | .receive d now signFault =>
    let r := s.receive crypto d now signFault
    (r.1.toList.map fun d => { reply := true, time := now, datagram := d }, r.2)

def Statement.OfPunch : Statement → Prop
  | punch _ _ _ _ => True
  | _ => False

instance : DecidablePred Statement.OfPunch := fun s => by
  cases s <;> unfold Statement.OfPunch <;> infer_instance

/-- The sessions, and what identities have signed besides punches. -/
structure PunchWorld where
  swarm : Swarm PunchSession Emission := {}
  others : List (DeviceIdentity × Statement) := []

inductive PunchEvent
  /-- The constructor is called. -/
  | start (identity : DeviceIdentity) (peer : SignedDeviceKey) (binding : PeerBinding) (remote : List Candidate)
      (nonce : Except Exn Nonce) (now : Time)
  /-- A session is called. -/
  | input (i : ℕ) (x : PunchInput)
  /-- An identity signs something else. -/
  | sign (identity : DeviceIdentity) (statement : Statement)

namespace PunchWorld
variable (crypto : KeyCrypto)

/-- A session that was constructed joins. -/
def enlist (w : PunchWorld) (s : Except Exn PunchSession) : PunchWorld :=
  s.toOption.elim w fun s => { w with swarm := w.swarm.join s }

def step (w : PunchWorld) : PunchEvent → PunchWorld
  | .start identity peer binding remote nonce now => w.enlist (PunchSession.make crypto identity peer binding remote nonce now)
  | .input i x => { w with swarm := w.swarm.feed (PunchSession.work crypto) i x }
  | .sign identity statement => if statement.OfPunch then w else { w with others := (identity, statement) :: w.others }

def run (events : ℕ → PunchEvent) (k : ℕ) : PunchWorld := states (step crypto) {} events k

/-- The session that was the `i`th to be constructed. -/
def session (w : PunchWorld) (i : ℕ) : Option PunchSession := w.swarm.machines[i]?

def sentBy (w : PunchWorld) (i : ℕ) : List Emission := w.swarm.outputsOf i

/-- `identity` has signed `bytes`, in a datagram it sent or otherwise. -/
def Signed (w : PunchWorld) (identity : DeviceIdentity) (bytes : Bytes) : Prop :=
  (∃ i s, w.session i = some s ∧ s.identity = identity ∧ ∃ o ∈ w.sentBy i, signedPayload o.datagram.bytes = bytes) ∨
  ∃ statement, (identity, statement) ∈ w.others ∧ statement.bytes = bytes

/-- A datagram that verifies under the key of an honest identity carries what that identity signed. -/
def Unforged (honest : DeviceIdentity → Prop) (w : PunchWorld) (e : PunchEvent) : Prop :=
  ∀ i d now fault, e = .input i (.receive d now fault) → ∀ identity, honest identity →
    crypto.verifySignature (crypto.identityPublicKey identity) (signedPayload d.bytes) (messageSignature d.bytes) = true →
    w.Signed identity (signedPayload d.bytes)

end PunchWorld

/-! ## What a session keeps -/

namespace PunchSession
variable {crypto : KeyCrypto} {s s' : PunchSession}

/-- What a session was constructed with does not change, and a selection stays one. -/
structure Steady (s s' : PunchSession) : Prop where
  identity : s'.identity = s.identity
  peerKey : s'.peerKey = s.peerKey
  binding : s'.binding = s.binding
  remote : s'.remote = s.remote
  nonce : s'.nonce = s.nonce
  deadline : s'.deadline = s.deadline
  selected : s.selected.isSome → s'.selected.isSome

theorem Steady.refl (s : PunchSession) : Steady s s := ⟨rfl, rfl, rfl, rfl, rfl, rfl, id⟩

theorem Steady.trans {s'' : PunchSession} (h : Steady s s') (h' : Steady s' s'') : Steady s s'' where
  identity := h'.identity.trans h.identity
  peerKey := h'.peerKey.trans h.peerKey
  binding := h'.binding.trans h.binding
  remote := h'.remote.trans h.remote
  nonce := h'.nonce.trans h.nonce
  deadline := h'.deadline.trans h.deadline
  selected hs := h'.selected (h.selected hs)

theorem Steady.signed (h : Steady s s') (reply : Bool) (echo : Nonce) : s'.signed crypto reply echo = s.signed crypto reply echo := by
  simp only [PunchSession.signed, payload, h.identity, h.binding, h.nonce]

theorem steady_receive {d : Datagram} {now : Time} {out : Option ProbeDatagram} (h : ReceiveOutcome crypto s d now out s') : Steady s s' := by
  cases h with
  | kept => exact .refl s
  | selected heard => exact ⟨rfl, rfl, rfl, rfl, rfl, rfl, fun _ => rfl⟩
  | unsigned heard room => exact ⟨rfl, rfl, rfl, rfl, rfl, rfl, id⟩
  | answered heard room => exact ⟨rfl, rfl, rfl, rfl, rfl, rfl, id⟩

theorem steady_tick {now : Time} {out : Except Exn (List ProbeDatagram)} (h : TickOutcome crypto s now out s') : Steady s s' := by
  cases h with
  | idle => exact .refl s
  | unsigned => exact .refl s
  | probed waits due room => exact ⟨rfl, rfl, rfl, rfl, rfl, rfl, id⟩

theorem steady_work (x : PunchInput) : Steady s (s.work crypto x).2 := by
  cases x with
  | tick now fault => exact steady_tick (tick_outcome crypto s now fault)
  | receive d now fault => exact steady_receive (receive_outcome crypto s d now fault)

/-- A session and what it has sent. -/
structure Thrifty (crypto : KeyCrypto) (s : PunchSession) (outs : List Emission) : Prop where
  owner : s.identity.deviceId crypto = s.binding.localDevice
  peer : verifySignedDeviceKey crypto.toCrypto s.peerKey s.binding.peerDevice = true
  usable : ∀ c ∈ s.remote, usableEndpoint c.endpoint true = true
  few : s.remote.length ≤ maxCandidates
  probes : (outs.filter (!·.reply)).length = s.sent
  replies : (outs.filter (·.reply)).length ≤ s.responses
  sent : s.sent ≤ 32
  responses : s.responses ≤ 32
  each : ∀ o ∈ outs, o.time < s.deadline ∧ o.datagram.destination ∈ s.remote.map (·.endpoint) ∧
    ∃ echo, o.datagram.bytes = s.signed crypto o.reply echo
  selected : ∀ e, s.selected = some e → e ∈ s.verified
  settled : s.verified ≠ [] → s.selected.isSome
  nodup : s.verified.Nodup
  verified : ∀ e ∈ s.verified, e ∈ s.remote.map (·.endpoint)

theorem checkEndpoints_ok {remote : List Candidate} (h : checkEndpoints remote = .ok ()) :
    ∀ c ∈ remote, usableEndpoint c.endpoint true = true := by
  induction remote with
  | nil => exact fun _ hc => absurd hc List.not_mem_nil
  | cons c remote ih =>
    simp only [checkEndpoints, bind_eq_ok, check_eq_ok, exists_const] at h
    rintro c' hc'
    rcases List.mem_cons.1 hc' with rfl | hc'
    · exact h.1
    · exact ih h.2 c' hc'

theorem thrifty_make {identity : DeviceIdentity} {peer : SignedDeviceKey} {binding : PeerBinding} {remote : List Candidate}
    {nonce : Except Exn Nonce} {now : Time} (h : make crypto identity peer binding remote nonce now = .ok s) : Thrifty crypto s [] := by
  simp only [make, bind_eq_ok, check_eq_ok, exists_const, not_or, not_not, not_lt, Except.ok.injEq] at h
  obtain ⟨nonce', -, ⟨howner, hpeer, -, -, -, -, -, hfew⟩, ⟨⟩, hendpoints, rfl⟩ := h
  exact {
    owner := howner
    peer := hpeer
    usable := checkEndpoints_ok hendpoints
    few := hfew
    probes := rfl
    replies := le_rfl
    sent := Nat.zero_le _
    responses := Nat.zero_le _
    each := fun o ho => absurd ho List.not_mem_nil
    selected := fun e he => by cases he
    settled := fun hne => absurd rfl hne
    nodup := List.nodup_nil
    verified := fun e he => absurd he List.not_mem_nil }

theorem verified_make {identity : DeviceIdentity} {peer : SignedDeviceKey} {binding : PeerBinding} {remote : List Candidate}
    {nonce : Except Exn Nonce} {now : Time} (h : make crypto identity peer binding remote nonce now = .ok s) : s.verified = [] := by
  simp only [make, bind_eq_ok, check_eq_ok, exists_const, Except.ok.injEq] at h
  obtain ⟨nonce', -, -, _, -, rfl⟩ := h
  rfl

/-- Datagrams that go out on the way from `s` to `s'`. -/
theorem Thrifty.grow {outs new : List Emission} (h : Thrifty crypto s outs) (hsteady : Steady s s')
    (hprobes : s'.sent = s.sent + (new.filter (!·.reply)).length) (hsent : s'.sent ≤ 32)
    (hreplies : s.responses + (new.filter (·.reply)).length ≤ s'.responses) (hresponses : s'.responses ≤ 32)
    (hnew : ∀ o ∈ new, o.time < s.deadline ∧ o.datagram.destination ∈ s.remote.map (·.endpoint) ∧
      ∃ echo, o.datagram.bytes = s.signed crypto o.reply echo)
    (hselected : s'.selected = s.selected ∧ s'.verified = s.verified) : Thrifty crypto s' (outs ++ new) where
  owner := by rw [hsteady.identity, hsteady.binding, h.owner]
  peer := by rw [hsteady.peerKey, hsteady.binding, h.peer]
  usable := by rw [hsteady.remote]; exact h.usable
  few := by rw [hsteady.remote]; exact h.few
  probes := by rw [List.filter_append, List.length_append, h.probes, hprobes]
  replies := by
    have hold := h.replies
    rw [List.filter_append, List.length_append]
    omega
  sent := hsent
  responses := hresponses
  each o ho := by
    rw [hsteady.deadline, hsteady.remote]
    simp only [hsteady.signed]
    rcases List.mem_append.1 ho with ho | ho
    · exact h.each o ho
    · exact hnew o ho
  selected := by rw [hselected.1, hselected.2]; exact h.selected
  settled := by rw [hselected.1, hselected.2]; exact h.settled
  nodup := by rw [hselected.2]; exact h.nodup
  verified := by rw [hselected.2, hsteady.remote]; exact h.verified

theorem Thrifty.select {outs : List Emission} {source : Endpoint} (h : Thrifty crypto s outs) (hsource : source ∈ s.remote.map (·.endpoint)) :
    Thrifty crypto (s.select source) outs where
  owner := h.owner
  peer := h.peer
  usable := h.usable
  few := h.few
  probes := h.probes
  replies := h.replies
  sent := h.sent
  responses := h.responses
  each := h.each
  selected e he := by
    obtain rfl := Option.some.inj he
    simp only [PunchSession.select]
    split
    · rename_i hmem
      exact hmem
    · exact List.mem_append_right _ (List.mem_singleton_self _)
  settled _ := rfl
  nodup := by
    simp only [PunchSession.select]
    split
    · exact h.nodup
    · rename_i hnot
      rw [List.nodup_append]
      refine ⟨h.nodup, List.nodup_singleton _, ?_⟩
      rintro a ha b hb rfl
      rw [List.mem_singleton.1 hb] at ha
      exact hnot ha
  verified e he := by
    simp only [PunchSession.select] at he
    split at he
    · exact h.verified e he
    · rcases List.mem_append.1 he with he | he
      · exact h.verified e he
      · rw [List.mem_singleton.1 he]
        exact hsource

theorem Thrifty.receive {outs : List Emission} {d : Datagram} {now : Time} {out : Option ProbeDatagram} (h : Thrifty crypto s outs)
    (houtcome : ReceiveOutcome crypto s d now out s') :
    Thrifty crypto s' (outs ++ out.toList.map fun d => { reply := true, time := now, datagram := d }) := by
  cases houtcome with
  | kept => simpa using h
  | selected heard => simpa using h.select heard.source
  | unsigned heard room =>
    refine h.grow ⟨rfl, rfl, rfl, rfl, rfl, rfl, id⟩ rfl h.sent (Nat.le_succ _) (Nat.succ_le_of_lt room) ?_ ⟨rfl, rfl⟩
    exact fun o ho => absurd ho List.not_mem_nil
  | answered heard room =>
    refine h.grow ⟨rfl, rfl, rfl, rfl, rfl, rfl, id⟩ rfl h.sent le_rfl (Nat.succ_le_of_lt room) ?_ ⟨rfl, rfl⟩
    intro o ho
    obtain rfl := List.mem_singleton.1 ho
    exact ⟨heard.early, heard.source, _, rfl⟩

theorem Thrifty.tick {outs : List Emission} {now : Time} {out : Except Exn (List ProbeDatagram)} (h : Thrifty crypto s outs)
    (houtcome : TickOutcome crypto s now out s') :
    Thrifty crypto s' (outs ++ (out.toOption.getD []).map fun d => { reply := false, time := now, datagram := d }) := by
  cases houtcome with
  | idle => simpa [Except.toOption] using h
  | unsigned => simpa [Except.toOption] using h
  | probed waits due room =>
    obtain ⟨hcount, hmost, hall⟩ := probes_spec (s.signed crypto false 0) s.sent s.remote
    have hearly : now < s.deadline := not_le.1 fun hle => waits (.inr hle)
    refine h.grow ⟨rfl, rfl, rfl, rfl, rfl, rfl, id⟩ ?_ (hmost h.sent) ?_ h.responses ?_ ⟨rfl, rfl⟩
    · simpa [Except.toOption, List.filter_map, Function.comp_def] using hcount
    · simp [Except.toOption, List.filter_map, Function.comp_def]
    · intro o ho
      obtain ⟨d, hd, rfl⟩ := List.mem_map.1 ho
      exact ⟨hearly, (hall d hd).2, 0, (hall d hd).1⟩

theorem Thrifty.work {outs : List Emission} (h : Thrifty crypto s outs) (x : PunchInput) :
    Thrifty crypto (s.work crypto x).2 (outs ++ (s.work crypto x).1) := by
  cases x with
  | tick now fault => exact h.tick (tick_outcome crypto s now fault)
  | receive d now fault => exact h.receive (receive_outcome crypto s d now fault)

end PunchSession

/-! ## Traffic -/

namespace PunchWorld
variable {crypto : KeyCrypto} {w : PunchWorld}

/-- What happens to the sessions in a step. -/
theorem step_swarm (w : PunchWorld) (e : PunchEvent) :
    (w.step crypto e).swarm = w.swarm ∨
    (∃ s, PunchSession.Thrifty crypto s [] ∧ s.verified = [] ∧ (w.step crypto e).swarm = w.swarm.join s) ∨
    (∃ i x, e = .input i x ∧ (w.step crypto e).swarm = w.swarm.feed (PunchSession.work crypto) i x) := by
  cases e with
  | start identity peer binding remote nonce now =>
    simp only [step, enlist]
    cases hmake : PunchSession.make crypto identity peer binding remote nonce now with
    | error e => exact .inl rfl
    | ok s => exact .inr (.inl ⟨s, PunchSession.thrifty_make hmake, PunchSession.verified_make hmake, rfl⟩)
  | input i x => exact .inr (.inr ⟨i, x, rfl, rfl⟩)
  | sign identity statement =>
    simp only [step]
    split <;> exact .inl rfl

theorem thrifty_step (h : w.swarm.Local (PunchSession.Thrifty crypto)) (e : PunchEvent) :
    (w.step crypto e).swarm.Local (PunchSession.Thrifty crypto) := by
  rcases @step_swarm crypto w e with heq | ⟨s, hs, -, heq⟩ | ⟨i, x, -, heq⟩
  · rw [heq]
    exact h
  · rw [heq]
    exact h.join hs
  · rw [heq]
    exact h.feed fun s _ outs hs => hs.work x

theorem thrifty_run (crypto : KeyCrypto) (events : ℕ → PunchEvent) (k : ℕ) :
    (run crypto events k).swarm.Local (PunchSession.Thrifty crypto) :=
  states_inv (fun w : PunchWorld => w.swarm.Local (PunchSession.Thrifty crypto)) (fun _ _ => True) Swarm.local_empty
    (fun _ e _ h => thrifty_step h e) (fun _ => trivial) k

theorem grows_step (w : PunchWorld) (e : PunchEvent) : w.swarm.Grows PunchSession.Steady (w.step crypto e).swarm := by
  rcases @step_swarm crypto w e with heq | ⟨s, -, -, heq⟩ | ⟨i, x, -, heq⟩
  · rw [heq]
    exact .refl PunchSession.Steady.refl _
  · rw [heq]
    exact Swarm.grows_join PunchSession.Steady.refl
  · rw [heq]
    exact Swarm.grows_feed PunchSession.Steady.refl fun s _ => PunchSession.steady_work x

theorem grows_run (events : ℕ → PunchEvent) {j k : ℕ} (h : j ≤ k) :
    (run crypto events j).swarm.Grows PunchSession.Steady (run crypto events k).swarm :=
  states_mono (R := fun w w' : PunchWorld => w.swarm.Grows PunchSession.Steady w'.swarm) (fun w => .refl PunchSession.Steady.refl w.swarm)
    (fun h h' => .trans PunchSession.Steady.trans h h') (fun w e => grows_step w e) events h

/-- The probes among what a session has sent. -/
def probesOf (w : PunchWorld) (i : ℕ) : List Emission := (w.sentBy i).filter (!·.reply)

def repliesOf (w : PunchWorld) (i : ℕ) : List Emission := (w.sentBy i).filter (·.reply)

theorem Thrifty.sentBy_eq_nil (h : w.swarm.Local (PunchSession.Thrifty crypto)) {i : ℕ} (hnone : w.session i = none) : w.sentBy i = [] := by
  rw [sentBy, List.eq_nil_iff_forall_not_mem]
  intro o ho
  have hlt := h.known _ (Swarm.mem_outputsOf.1 ho)
  exact absurd hnone (by simpa [session] using hlt)

/-- A session that has selected a candidate sends no probe. -/
theorem work_settled {s : PunchSession} (hselected : s.selected.isSome) (x : PunchInput) :
    ((s.work crypto x).1.filter (!·.reply)) = [] := by
  cases x with
  | receive d now fault => simp [PunchSession.work, List.filter_map, Function.comp_def]
  | tick now fault =>
    have hdone : s.finished now ∨ now < s.next ∨ 32 ≤ s.sent := .inl (.inl hselected)
    simp [PunchSession.work, PunchSession.tick, hdone, Except.toOption]

theorem probesOf_step {i : ℕ} {s : PunchSession} (hs : w.session i = some s)
    (hselected : s.selected.isSome) (e : PunchEvent) : (w.step crypto e).probesOf i = w.probesOf i := by
  rcases @step_swarm crypto w e with heq | ⟨s', -, -, heq⟩ | ⟨j, x, -, heq⟩
  · rw [probesOf, sentBy, heq, probesOf, sentBy]
  · rw [probesOf, sentBy, heq, probesOf, sentBy]
    rfl
  · rw [probesOf, sentBy, heq, probesOf, sentBy]
    cases hj : w.swarm.machines[j]? with
    | none => rw [Swarm.feed_none hj]
    | some t =>
      rw [Swarm.outputsOf_feed hj, List.filter_append]
      split
      · rename_i hij
        subst hij
        rw [session, hj] at hs
        cases hs
        rw [work_settled hselected x, List.append_nil]
      · rw [List.filter_nil, List.append_nil]

end PunchWorld

open PunchWorld

/-- What sessions send, in every run. -/
structure PunchTraffic (crypto : KeyCrypto) (events : ℕ → PunchEvent) : Prop where
  probes : ∀ k i, ((run crypto events k).probesOf i).length ≤ 32
  replies : ∀ k i, ((run crypto events k).repliesOf i).length ≤ 32
  /-- A datagram goes to a candidate, before the session is five seconds old. -/
  placed : ∀ k i s o, (run crypto events k).session i = some s → o ∈ (run crypto events k).sentBy i →
    o.time < s.deadline ∧ ∃ c ∈ s.remote, c.endpoint = o.datagram.destination ∧ usableEndpoint c.endpoint true = true
  /-- What is selected was verified, and what was verified is a candidate. -/
  selected : ∀ k i s, (run crypto events k).session i = some s → (∀ e, s.selected = some e → e ∈ s.verified) ∧
    s.verified.Nodup ∧ ∀ e ∈ s.verified, ∃ c ∈ s.remote, c.endpoint = e
  /-- There are no probes after a selection. -/
  settled : ∀ j k i s, j ≤ k → (run crypto events j).session i = some s → s.selected.isSome →
    (run crypto events k).probesOf i = (run crypto events j).probesOf i

theorem punch_traffic (crypto : KeyCrypto) (events : ℕ → PunchEvent) : PunchTraffic crypto events where
  probes k i := by
    have h := thrifty_run crypto events k
    cases hs : (run crypto events k).session i with
    | none => simp [probesOf, Thrifty.sentBy_eq_nil h hs]
    | some s =>
      have hown := h.own i s hs
      exact hown.probes.trans_le hown.sent
  replies k i := by
    have h := thrifty_run crypto events k
    cases hs : (run crypto events k).session i with
    | none => simp [repliesOf, Thrifty.sentBy_eq_nil h hs]
    | some s =>
      have hown := h.own i s hs
      exact hown.replies.trans hown.responses
  placed k i s o hs ho := by
    have hown := (thrifty_run crypto events k).own i s hs
    obtain ⟨hearly, hdestination, -⟩ := hown.each o ho
    obtain ⟨c, hc, heq⟩ := List.mem_map.1 hdestination
    exact ⟨hearly, c, hc, heq, hown.usable c hc⟩
  selected k i s hs := by
    have hown := (thrifty_run crypto events k).own i s hs
    exact ⟨hown.selected, hown.nodup, fun e he => List.mem_map.1 (hown.verified e he)⟩
  settled j k i s hjk hs hselected := by
    induction k, hjk using Nat.le_induction with
    | base => rfl
    | succ k hk ih =>
      obtain ⟨s', hs', hsteady⟩ := (grows_run events hk).machines i s hs
      rw [← ih]
      exact probesOf_step hs' (hsteady.selected hselected) (events k)

end LanLink.P2P
