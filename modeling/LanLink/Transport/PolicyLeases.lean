import LanLink.Lib.Runs
import LanLink.Transport.CacheOrder
/-!
# Policy leases

A client acts on a managed network's state for six seconds after it asked the
relay whether that state still holds. A run interleaves the relay's pushes, the
connection's end and the calls of `fetch_peer_state`, whose answers come late,
in any order or not at all. The clock counts nanoseconds from its epoch.
-/
open LanLink.Lib

namespace LanLink

/-- The client, and the calls of `fetch_peer_state` that wait for their answer, with the network and the time of each
request. -/
structure Polling where
  client : QuicClient
  pending : Map ℕ (NetworkId × Time) := ∅

inductive ClientEvent
  /-- `run` is called. -/
  | started
  | authenticated (key : SignedDeviceKey)
  /-- The connection ends, or a new one is made. -/
  | disconnected
  | stopped
  | received (arrival : Arrival)
  /-- The second critical section of `apply_network_key_envelope`, with the key opened before it. -/
  | opened (envelope : NetworkKeyEnvelope) (key : NetworkKey)
  /-- A call of `fetch_peer_state` reads the clock. -/
  | requested (call : ℕ) (network : NetworkId)
  /-- That call gets its answer. -/
  | answered (call : ℕ) (frame : PeerStateFrame)

namespace QuicClient

/-- `run` starts. -/
def start (c : QuicClient) : QuicClient :=
  { c with stopRequested := false, authenticated := false }.clearPeerStates

/-- The relay accepted the handshake. -/
def authenticate (key : SignedDeviceKey) (c : QuicClient) : QuicClient :=
  { c with ownSignedKey := some key, authenticated := c.authenticated || !c.stopRequested }

def disconnect (c : QuicClient) : QuicClient := { c with authenticated := false }.clearPeerStates

def stop (c : QuicClient) : QuicClient := { c with stopRequested := true }.clearPeerStates

end QuicClient

namespace Polling
variable (crypto : KeyCrypto)

def answer (call : ℕ) (frame : PeerStateFrame) (p : Polling) : Polling :=
  match p.pending.lookup call with
  | none => p
  | some (n, requested) =>
    { client := (QuicClient.fetchPeerState crypto n requested frame p.client).2, pending := p.pending.erase call }

def step (p : Polling) : Time × ClientEvent → Polling
  | (_, .started) => { p with client := p.client.start }
  | (_, .authenticated key) => { p with client := p.client.authenticate key }
  | (_, .disconnected) => { p with client := p.client.disconnect }
  | (_, .stopped) => { p with client := p.client.stop }
  | (_, .received a) => { p with client := p.client.receive crypto a }
  | (_, .opened e key) => { p with client := (QuicClient.storeNetworkKey e key p.client).2 }
  | (now, .requested call n) => { p with pending := p.pending.insert call (n, now) }
  | (_, .answered call frame) => p.answer crypto call frame

/-- The client after the first `k` events. -/
def run (identity : DeviceIdentity) (events : ℕ → Time × ClientEvent) (k : ℕ) : Polling :=
  states (step crypto) { client := { identity } } events k

end Polling

/-! ## What one event does to a lease -/

namespace QuicClient
variable {crypto : KeyCrypto} {c : QuicClient} {n : NetworkId} {S : NetworkPeerState} {L : Time}

/-- The managed state `S` of `n` is cached, with the lease `L`. -/
structure Leased (c : QuicClient) (n : NetworkId) (S : NetworkPeerState) (L : Time) : Prop where
  state : c.peerStates.lookup n = some S
  managed : S.policy.isSome
  lease : c.policyLeases.lookup n = some L

theorem not_leased_cleared (c : QuicClient) : ¬ c.clearPeerStates.Leased n S L := by
  intro h
  cases h.state

/-- No peer message grants a lease: one that survives was there for the same state. -/
theorem leased_of_receive {a : Arrival} (h : (c.receive crypto a).Leased n S L) : c.Leased n S L := by
  by_cases hn : n = a.message.networkId
  · subst hn
    revert h
    unfold receive
    cases hm : a.message with
    | update state =>
      intro h
      simp only at h
      have hstate := applyPeerState_state crypto a.inputs a.encryptionKey state c
      split at hstate
      · obtain ⟨published, hc⟩ := hstate
        rw [hc] at h
        have hs : S = state := by
          have hs : some state = some S := (AList.lookup_insert _).symm.trans h.state
          exact (Option.some.inj hs).symm
        subst hs
        have hlease : (c.leasesFor S).lookup S.networkId = some L := h.lease
        unfold leasesFor at hlease
        by_cases hsame : c.peerStates.lookup S.networkId = some S
        · rw [if_neg fun hne => hne.2 hsame] at hlease
          exact ⟨hsame, h.managed, hlease⟩
        · rw [if_pos ⟨h.managed, hsame⟩, AList.lookup_erase] at hlease
          cases hlease
      · rwa [hstate] at h
    | revocation r =>
      intro h
      simp only [applyPeerRevocation, Action.modify] at h
      split at h
      · exact h
      · have hs : (c.peerStates.erase r.networkId).lookup r.networkId = some S := h.state
        rw [AList.lookup_erase] at hs
        cases hs
  · have hother := holding_receive_of_ne crypto c a hn
    simp only [holding, Prod.mk.injEq] at hother
    exact ⟨hother.1 ▸ h.state, h.managed, hother.2.2.2 ▸ h.lease⟩

/-- Opening an envelope changes the network's key only. -/
theorem storeNetworkKey_state (e : NetworkKeyEnvelope) (key : NetworkKey) (c : QuicClient) :
    ∃ networkKeys, (storeNetworkKey e key c).2 = { c with networkKeys } ∧
      ∀ m, networkKeys.lookup m = c.networkKeys.lookup m ∨ m = e.networkId ∧ c.expects e := by
  unfold storeNetworkKey
  by_cases hexpects : c.expects e
  · rw [if_neg (not_not.2 hexpects)]
    have hstored : ∀ m, (c.networkKeys.insert e.networkId { epoch := e.epoch, key }).lookup m =
        c.networkKeys.lookup m ∨ m = e.networkId ∧ c.expects e := by
      intro m
      by_cases hm : m = e.networkId
      · exact .inr ⟨hm, hexpects⟩
      · exact .inl (AList.lookup_insert_ne hm)
    split
    · split
      · split <;> exact ⟨_, rfl, fun m => .inl rfl⟩
      · exact ⟨_, rfl, hstored⟩
    · exact ⟨_, rfl, hstored⟩
  · rw [if_pos hexpects]
    exact ⟨_, rfl, fun m => .inl rfl⟩

/-- A fetch returns the state it read, or changes nothing. -/
theorem fetchPeerState_state (crypto : KeyCrypto) (m : NetworkId) (requested : Time) (frame : PeerStateFrame)
    (c : QuicClient) :
    (fetchPeerState crypto m requested frame c).2 = c ∨
      ∃ state, frame = .state state ∧
        (fetchPeerState crypto m requested frame c).1 = .ok { code := .success, state := some state } ∧
        (fetchPeerState crypto m requested frame c).2 = c.renewLease m requested state := by
  cases frame with
  | operation result => exact .inl rfl
  | state state =>
    cases hvalid : verifyPeerKeys crypto state with
    | error e => exact .inl (by simp [fetchPeerState, bind, Action.bind, Action.lift, hvalid])
    | ok u =>
      refine .inr ⟨state, rfl, ?_, ?_⟩ <;>
        simp [fetchPeerState, bind, Action.bind, Action.lift, Action.modify, hvalid, pure]

/-- A renewal grants the request's own time at most. -/
theorem leased_of_renewLease {m : NetworkId} {requested : Time} {state : NetworkPeerState} (hpos : 0 ≤ requested)
    (h : (c.renewLease m requested state).Leased n S L) :
    c.Leased n S L ∨ n = m ∧ S = state ∧ L = requested ∧ c.peerStates.lookup n = some S := by
  unfold renewLease at h
  split at h
  · rename_i hcached
    by_cases hn : n = m
    · subst hn
      have hS : S = state := by
        have hs : c.peerStates.lookup n = some S := h.state
        rw [hcached.1] at hs
        exact (Option.some.inj hs).symm
      subst hS
      have hL : max (c.policyLeases.getD n 0) requested = L :=
        Option.some.inj ((AList.lookup_insert _).symm.trans h.lease)
      unfold Map.getD at hL
      cases hlease : c.policyLeases.lookup n with
      | none =>
        rw [hlease] at hL
        simp only [Option.getD_none] at hL
        rw [max_eq_right hpos] at hL
        exact .inr ⟨rfl, rfl, hL.symm, hcached.1⟩
      | some old =>
        rw [hlease] at hL
        simp only [Option.getD_some] at hL
        rcases le_total requested old with hle | hle
        · rw [max_eq_left hle] at hL
          exact .inl ⟨hcached.1, h.managed, hL ▸ hlease⟩
        · rw [max_eq_right hle] at hL
          exact .inr ⟨rfl, rfl, hL.symm, hcached.1⟩
    · have hlease : (c.policyLeases.insert m (max (c.policyLeases.getD m 0) requested)).lookup n = some L := h.lease
      rw [AList.lookup_insert_ne hn] at hlease
      exact .inl ⟨h.state, h.managed, hlease⟩
  · exact .inl h

/-- A network's state is cached under its own id, and a network with a key has a state. -/
structure Filed (c : QuicClient) : Prop where
  state : ∀ n S, c.peerStates.lookup n = some S → S.networkId = n
  key : ∀ n key, c.networkKeys.lookup n = some key → ∃ S, c.peerStates.lookup n = some S

theorem filed_cleared (c : QuicClient) : c.clearPeerStates.Filed := by
  constructor
  · rintro n S ⟨⟩
  · rintro n key ⟨⟩

theorem Filed.receive (h : c.Filed) (a : Arrival) : (c.receive crypto a).Filed := by
  -- the two parts at once: other networks are as they were
  have hat : ∀ n, (∀ S, (c.receive crypto a).peerStates.lookup n = some S → S.networkId = n) ∧
      ∀ key, (c.receive crypto a).networkKeys.lookup n = some key →
        ∃ S, (c.receive crypto a).peerStates.lookup n = some S := by
    intro n
    by_cases hn : n = a.message.networkId
    · subst hn
      unfold QuicClient.receive
      cases hm : a.message with
      | update state =>
        simp only
        have hstate := applyPeerState_state crypto a.inputs a.encryptionKey state c
        split at hstate
        · obtain ⟨published, hc⟩ := hstate
          rw [hc]
          have hs : (c.peerStates.insert state.networkId state).lookup state.networkId = some state :=
            AList.lookup_insert _
          refine ⟨?_, fun _ _ => ⟨state, hs⟩⟩
          intro S hS
          rw [Option.some.inj (hS.symm.trans hs)]
          rfl
        · rw [hstate]
          exact ⟨h.state _, h.key _⟩
      | revocation r =>
        simp only [applyPeerRevocation, Action.modify]
        split
        · exact ⟨h.state _, h.key _⟩
        · constructor
          · intro S hS
            cases (AList.lookup_erase _ _).symm.trans hS
          · intro key hkey
            cases (AList.lookup_erase _ _).symm.trans hkey
    · have hother := holding_receive_of_ne crypto c a hn
      simp only [holding, Prod.mk.injEq] at hother
      rw [hother.1, hother.2.2.1]
      exact ⟨h.state n, h.key n⟩
  exact ⟨fun n => (hat n).1, fun n => (hat n).2⟩

theorem Filed.storeNetworkKey (h : c.Filed) (e : NetworkKeyEnvelope) (key : NetworkKey) :
    (QuicClient.storeNetworkKey e key c).2.Filed := by
  obtain ⟨networkKeys, hc, hkeys⟩ := storeNetworkKey_state e key c
  rw [hc]
  refine ⟨h.state, ?_⟩
  intro n found hfound
  rcases hkeys n with hsame | ⟨rfl, hexpects⟩
  · exact h.key n found (hsame ▸ hfound)
  · simp only [expects, Bool.and_eq_true, Option.any_eq_true] at hexpects
    obtain ⟨-, S, hS, -⟩ := hexpects
    exact ⟨S, hS⟩

theorem Filed.renewLease (h : c.Filed) (m : NetworkId) (requested : Time) (state : NetworkPeerState) :
    (c.renewLease m requested state).Filed := by
  unfold QuicClient.renewLease
  split
  · exact ⟨h.state, h.key⟩
  · exact h

end QuicClient

namespace Polling
variable {crypto : KeyCrypto} {identity : DeviceIdentity} {events : ℕ → Time × ClientEvent} {k : ℕ} {n : NetworkId}
  {S : NetworkPeerState} {L t : Time}

/-- A lease after an event was there before it, or the event answers a request made at the lease's time with the
state that is cached. -/
theorem leased_step {p : Polling} {e : Time × ClientEvent}
    (hpos : ∀ call m requested, p.pending.lookup call = some (m, requested) → 0 ≤ requested)
    (h : (p.step crypto e).client.Leased n S L) :
    p.client.Leased n S L ∨
      ∃ call, e.2 = .answered call (.state S) ∧ p.pending.lookup call = some (n, L) ∧
        p.client.peerStates.lookup n = some S ∧
        (QuicClient.fetchPeerState crypto n L (.state S) p.client).1 = .ok { code := .success, state := some S } := by
  obtain ⟨now, event⟩ := e
  cases event with
  | started => exact absurd h (QuicClient.not_leased_cleared _)
  | authenticated key => exact .inl ⟨h.state, h.managed, h.lease⟩
  | disconnected => exact absurd h (QuicClient.not_leased_cleared _)
  | stopped => exact absurd h (QuicClient.not_leased_cleared _)
  | received a => exact .inl (QuicClient.leased_of_receive h)
  | opened e key =>
    obtain ⟨networkKeys, hc, -⟩ := QuicClient.storeNetworkKey_state e key p.client
    simp only [step] at h
    rw [hc] at h
    exact .inl ⟨h.state, h.managed, h.lease⟩
  | requested call m => exact .inl h
  | answered call frame =>
    simp only [step, answer] at h
    cases hpending : p.pending.lookup call with
    | none =>
      rw [hpending] at h
      exact .inl h
    | some request =>
      obtain ⟨m, requested⟩ := request
      rw [hpending] at h
      simp only at h
      rcases QuicClient.fetchPeerState_state crypto m requested frame p.client with hsame | ⟨state, rfl, hreply, hnew⟩
      · rw [hsame] at h
        exact .inl h
      rw [hnew] at h
      rcases QuicClient.leased_of_renewLease (hpos call m requested hpending) h with hold | ⟨rfl, rfl, rfl, hcached⟩
      · exact .inl hold
      · exact .inr ⟨call, rfl, hpending, hcached, hreply⟩

/-! ## Every run -/

/-- A call of `fetch_peer_state` sent its request at `L`, got `S` as the answer, and `S` has been cached ever since. -/
structure Granted (crypto : KeyCrypto) (identity : DeviceIdentity) (events : ℕ → Time × ClientEvent) (k : ℕ)
    (n : NetworkId) (S : NetworkPeerState) (L : Time) (call requested answered : ℕ) : Prop where
  order : requested < answered ∧ answered < k
  request : events requested = (L, .requested call n)
  answer : (events answered).2 = .answered call (.state S)
  pending : (run crypto identity events answered).pending.lookup call = some (n, L)
  returned : (QuicClient.fetchPeerState crypto n L (.state S) (run crypto identity events answered).client).1 =
    .ok { code := .success, state := some S }
  since : ∀ l, answered ≤ l → l ≤ k → (run crypto identity events l).client.peerStates.lookup n = some S

/-- What holds after `k` events. -/
structure Sound (crypto : KeyCrypto) (identity : DeviceIdentity) (events : ℕ → Time × ClientEvent) (k : ℕ) : Prop where
  /-- A request that waits was made. -/
  pending : ∀ call n L, (run crypto identity events k).pending.lookup call = some (n, L) →
    ∃ i < k, events i = (L, .requested call n)
  filed : (run crypto identity events k).client.Filed
  /-- A lease was granted. -/
  leased : ∀ n S L, (run crypto identity events k).client.Leased n S L →
    ∃ call i j, Granted crypto identity events k n S L call i j

theorem filed_step {p : Polling} (h : p.client.Filed) (e : Time × ClientEvent) : (p.step crypto e).client.Filed := by
  obtain ⟨now, event⟩ := e
  cases event with
  | started => exact QuicClient.filed_cleared _
  | authenticated key => exact ⟨h.state, h.key⟩
  | disconnected => exact QuicClient.filed_cleared _
  | stopped => exact QuicClient.filed_cleared _
  | received a => exact h.receive a
  | opened e key => exact h.storeNetworkKey e key
  | requested call m => exact h
  | answered call frame =>
    simp only [step, answer]
    split
    · exact h
    · rename_i m requested hpending
      rcases QuicClient.fetchPeerState_state crypto m requested frame p.client with hsame | ⟨state, -, -, hnew⟩
      · simp only [hsame]
        exact h
      · simp only [hnew]
        exact h.renewLease m requested state

theorem pending_step {p : Polling} {e : Time × ClientEvent} {call : ℕ}
    (h : (p.step crypto e).pending.lookup call = some (n, L)) :
    p.pending.lookup call = some (n, L) ∨ e = (L, .requested call n) := by
  obtain ⟨now, event⟩ := e
  cases event with
  | requested call' m =>
    simp only [step] at h
    by_cases hcall : call = call'
    · subst hcall
      rw [AList.lookup_insert] at h
      cases h
      exact .inr rfl
    · rw [AList.lookup_insert_ne hcall] at h
      exact .inl h
  | answered call' frame =>
    simp only [step, answer] at h
    split at h
    · exact .inl h
    · exact .inl (Map.lookup_of_lookup_erase h)
  | _ => exact .inl h

/-- One more event keeps a grant, if the state stays. -/
theorem Granted.succ {call i j : ℕ} (h : Granted crypto identity events k n S L call i j)
    (hs : (run crypto identity events (k + 1)).client.peerStates.lookup n = some S) :
    Granted crypto identity events (k + 1) n S L call i j where
  order := ⟨h.order.1, by have := h.order.2; omega⟩
  request := h.request
  answer := h.answer
  pending := h.pending
  returned := h.returned
  since := by
    intro l hl hlk
    by_cases hlast : l ≤ k
    · exact h.since l hl hlast
    · rwa [show l = k + 1 by omega]

theorem sound_run (crypto : KeyCrypto) (identity : DeviceIdentity) (hpos : ∀ i, 0 ≤ (events i).1) (k : ℕ) :
    Sound crypto identity events k := by
  induction k with
  | zero =>
    refine ⟨?_, QuicClient.filed_cleared { identity }, ?_⟩
    · rintro call n L ⟨⟩
    · intro n S L h
      cases h.state
  | succ k ih =>
    refine ⟨?_, filed_step ih.filed (events k), ?_⟩
    · intro call n L h
      rcases pending_step h with hold | hnew
      · obtain ⟨i, hi, hevent⟩ := ih.pending call n L hold
        exact ⟨i, by omega, hevent⟩
      · exact ⟨k, by omega, hnew⟩
    · intro n S L h
      have hwaiting : ∀ call m requested,
          (run crypto identity events k).pending.lookup call = some (m, requested) → 0 ≤ requested := by
        intro call m requested hp
        obtain ⟨i, -, hevent⟩ := ih.pending call m requested hp
        have := hpos i
        rwa [hevent] at this
      rcases leased_step hwaiting h with hold | ⟨call, hevent, hp, hcached, hreply⟩
      · obtain ⟨call, i, j, hgrant⟩ := ih.leased n S L hold
        exact ⟨call, i, j, hgrant.succ h.state⟩
      · obtain ⟨i, hi, hrequest⟩ := ih.pending call n L hp
        refine ⟨call, i, k, ⟨hi, by omega⟩, hrequest, hevent, hp, hreply, ?_⟩
        intro l hl hlk
        by_cases hlast : l = k
        · rw [hlast]
          exact hcached
        · rw [show l = k + 1 by omega]
          exact h.state

/-! ## What the client exposes -/

end Polling

namespace QuicClient
variable {c : QuicClient} {now : Time} {n : NetworkId}

/-- The client acts on the network at `now`: hands out its state or key, or sends or accepts a packet of it. -/
inductive Exposes (c : QuicClient) (now : Time) (n : NetworkId) : Prop
  | state {S : NetworkPeerState} (h : c.cachedPeerState now n = some S)
  | listed {S : NetworkPeerState} (h : S ∈ c.cachedPeerStates now) (hn : S.networkId = n)
  | key {key : NetworkKeySnapshot} (h : c.cachedNetworkKey now n = some key)
  | sent {packet : EncryptedNetworkPacket} (h : c.requireActiveKey now packet = .ok ()) (hn : packet.networkId = n)
  | accepted {delivery : ForwardedNetworkPacket} (h : c.acceptsDelivery now delivery)
      (hn : delivery.packet.networkId = n)

theorem cachedPeerState_eq {S : NetworkPeerState} (h : c.cachedPeerState now n = some S) :
    c.peerStates.lookup n = some S ∧ c.policyCurrent now S := by
  unfold cachedPeerState at h
  split at h
  · cases h
  · rename_i found hfound
    split at h
    · rename_i hcurrent
      cases h
      exact ⟨hfound, hcurrent⟩
    · cases h

theorem mem_cachedPeerStates {S : NetworkPeerState} (hf : c.Filed) (h : S ∈ c.cachedPeerStates now) :
    c.peerStates.lookup S.networkId = some S ∧ c.policyCurrent now S := by
  simp only [cachedPeerStates, List.mem_filterMap, List.mem_mergeSort] at h
  obtain ⟨⟨m, state⟩, hrow, hS⟩ := h
  split at hS
  · rename_i hcurrent
    cases hS
    have hlookup := Map.mem_rows.1 hrow
    simp only at hlookup hcurrent
    rw [hf.state m state hlookup]
    exact ⟨hlookup, hcurrent⟩
  · cases hS

/-- What is exposed is cached, and its policy is current. -/
theorem Exposes.current (hf : c.Filed) (h : c.Exposes now n) :
    ∃ S, c.peerStates.lookup n = some S ∧ c.policyCurrent now S := by
  cases h with
  | state h => exact ⟨_, cachedPeerState_eq h⟩
  | listed h hn =>
    subst hn
    exact ⟨_, mem_cachedPeerStates hf h⟩
  | key h =>
    unfold cachedNetworkKey at h
    split at h
    · rename_i hnone
      obtain ⟨S, hS⟩ := hf.key n _ h
      rw [hnone] at hS
      cases hS
    · rename_i S hS
      split at h
      · rename_i hcurrent
        exact ⟨S, hS, hcurrent⟩
      · cases h
  | sent h hn =>
    subst hn
    simp only [requireActiveKey, bind_eq_ok, check_eq_ok, Option.any_eq_true, Bool.and_eq_true] at h
    obtain ⟨-, -, S, hS, ⟨⟨hcurrent, -⟩, -⟩, -⟩ := h
    exact ⟨S, hS, hcurrent⟩
  | accepted h hn =>
    subst hn
    simp only [acceptsDelivery, Option.any_eq_true, Bool.and_eq_true] at h
    obtain ⟨S, hS, ⟨⟨hcurrent, -⟩, -⟩, -⟩ := h
    exact ⟨S, hS, hcurrent⟩

/-- A managed state whose policy is current has a lease of less than six seconds. -/
theorem leased_of_current {S : NetworkPeerState} (hf : c.Filed) (hS : c.peerStates.lookup n = some S)
    (hmanaged : S.policy.isSome) (h : c.policyCurrent now S) : ∃ L, c.Leased n S L ∧ now - L < maxPolicyAge := by
  unfold policyCurrent at h
  split at h
  · rename_i hpolicy
    rw [hpolicy] at hmanaged
    cases hmanaged
  · split at h
    · cases h
    · rename_i L hlease
      rw [hf.state n S hS] at hlease
      exact ⟨L, ⟨hS, hmanaged, hlease⟩, of_decide_eq_true h⟩

/-- An answer never shortens a lease, and moves it to the request's time at most. -/
theorem lease_renewLease {m : NetworkId} {requested : Time} {state : NetworkPeerState} (hpos : 0 ≤ requested) :
    (∀ old, c.policyLeases.lookup n = some old →
      ∃ new, (c.renewLease m requested state).policyLeases.lookup n = some new ∧ old ≤ new) ∧
    ∀ new, (c.renewLease m requested state).policyLeases.lookup n = some new →
      c.policyLeases.lookup n = some new ∨ n = m ∧ new = requested := by
  unfold renewLease
  split
  · by_cases hn : n = m
    · subst hn
      simp only [AList.lookup_insert, Map.getD]
      cases hlease : c.policyLeases.lookup n with
      | none =>
        refine ⟨?_, ?_⟩
        · rintro old ⟨⟩
        · rintro new ⟨⟩
          exact .inr ⟨trivial, max_eq_right hpos⟩
      | some old =>
        constructor
        · rintro _ ⟨⟩
          exact ⟨_, rfl, le_max_left _ _⟩
        · rintro new ⟨⟩
          rcases le_total requested old with hle | hle
          · exact .inl (by rw [Option.getD_some, max_eq_left hle])
          · exact .inr ⟨trivial, by rw [Option.getD_some, max_eq_right hle]⟩
    · simp only [AList.lookup_insert_ne hn]
      exact ⟨fun old h => ⟨old, h, le_rfl⟩, fun new h => .inl h⟩
  · exact ⟨fun old h => ⟨old, h, le_rfl⟩, fun new h => .inl h⟩

end QuicClient

namespace Polling

/-- What the client exposes of a managed network at time `t` is the state that `fetch_peer_state` returned for a
request of the last six seconds, cached without a break since that answer. An answer never shortens a lease, and
extends one to the time of its own request at most. -/
theorem exposes_only_renewed (crypto : KeyCrypto) (identity : DeviceIdentity) (events : ℕ → Time × ClientEvent)
    (hstart : 0 ≤ (events 0).1) (hclock : Monotone fun i => (events i).1) (k : ℕ) :
    (∀ t n, (∀ i < k, (events i).1 ≤ t) → (run crypto identity events k).client.Exposes t n →
      ∃ S, (run crypto identity events k).client.peerStates.lookup n = some S ∧
        (∀ S', (run crypto identity events k).client.cachedPeerState t n = some S' → S' = S) ∧
        (∀ S' ∈ (run crypto identity events k).client.cachedPeerStates t, S'.networkId = n → S' = S) ∧
        (S.policy.isSome → ∃ L call i j, L ≤ t ∧ t - L < maxPolicyAge ∧
          Granted crypto identity events k n S L call i j)) ∧
    ∀ call frame n L, (events k).2 = .answered call frame →
      (run crypto identity events k).pending.lookup call = some (n, L) → ∀ m,
      (∀ old, (run crypto identity events k).client.policyLeases.lookup m = some old →
        ∃ new, (run crypto identity events (k + 1)).client.policyLeases.lookup m = some new ∧ old ≤ new) ∧
      ∀ new, (run crypto identity events (k + 1)).client.policyLeases.lookup m = some new →
        (run crypto identity events k).client.policyLeases.lookup m = some new ∨ m = n ∧ new = L := by
  have hpos : ∀ i, 0 ≤ (events i).1 := fun i => hstart.trans (hclock (Nat.zero_le i))
  have hsound := sound_run crypto identity hpos k
  constructor
  · intro t n ht h
    obtain ⟨S, hS, hcurrent⟩ := h.current hsound.filed
    refine ⟨S, hS, ?_, ?_, ?_⟩
    · intro S' h'
      exact Option.some.inj ((QuicClient.cachedPeerState_eq h').1.symm.trans hS)
    · rintro S' h' rfl
      exact Option.some.inj ((QuicClient.mem_cachedPeerStates hsound.filed h').1.symm.trans hS)
    · intro hmanaged
      obtain ⟨L, hleased, hfresh⟩ := QuicClient.leased_of_current hsound.filed hS hmanaged hcurrent
      obtain ⟨call, i, j, hgrant⟩ := hsound.leased n S L hleased
      refine ⟨L, call, i, j, ?_, hfresh, hgrant⟩
      have hi := ht i (hgrant.order.1.trans hgrant.order.2)
      rwa [hgrant.request] at hi
  · intro call frame n L hevent hpending m
    obtain ⟨i, -, hrequest⟩ := hsound.pending call n L hpending
    have hL : 0 ≤ L := by
      have := hpos i
      rwa [hrequest] at this
    have hnext : run crypto identity events (k + 1) = (run crypto identity events k).answer crypto call frame := by
      change step crypto _ (events k) = _
      rw [show events k = ((events k).1, .answered call frame) from Prod.ext rfl hevent]
      rfl
    rw [hnext]
    simp only [answer, hpending]
    rcases QuicClient.fetchPeerState_state crypto n L frame (run crypto identity events k).client with
      hsame | ⟨state, -, -, hnew⟩
    · rw [hsame]
      exact ⟨fun old h => ⟨old, h, le_rfl⟩, fun new h => .inl h⟩
    · rw [hnew]
      exact QuicClient.lease_renewLease hL

def sampleManaged : NetworkPeerState := { QuicClient.sampleUpdate 1 with policy := some { managed := true } }

/-- A managed state comes, is asked for at the second and confirmed at the third second. -/
def sampleEvents (i : ℕ) : Time × ClientEvent :=
  (1000000000 * i,
    match i with
    | 0 => .authenticated (NetworkPacketCipher.sampleKey 2)
    | 1 => .received { message := .update sampleManaged }
    | 2 => .requested 0 8
    | 3 => .answered 0 (.state sampleManaged)
    | _ => .stopped)

theorem sampleEvents_exposes :
    (run QuicClient.plainKeyCrypto 2 sampleEvents 4).client.cachedPeerState 7000000000 8 = some sampleManaged ∧
      ∃ L call i j, L ≤ 7000000000 ∧ 7000000000 - L < maxPolicyAge ∧
        Granted QuicClient.plainKeyCrypto 2 sampleEvents 4 8 sampleManaged L call i j := by
  have hstate : (run QuicClient.plainKeyCrypto 2 sampleEvents 4).client.cachedPeerState 7000000000 8 =
      some sampleManaged := by decide +kernel
  refine ⟨hstate, ?_⟩
  obtain ⟨S, -, heq, -, hgranted⟩ := (exposes_only_renewed QuicClient.plainKeyCrypto 2 sampleEvents (by decide)
    (fun i j hij => by simp only [sampleEvents]; gcongr) 4).1 7000000000 8 (by decide) (.state hstate)
  obtain rfl := heq _ hstate
  exact hgranted rfl

end Polling
end LanLink
