import LanLink.Auth.ReplayWindow
import LanLink.Transport.PeerCache
import Mathlib.Data.List.MinMax
/-!
# The order of peer messages

The relay's updates and revocations may reach a client out of order and more
than once. The cache keeps, for each network, the message of the highest
priority: the latest revision, and a revocation before an update of the same
revision. It is therefore a function of the set of messages.
-/
open LanLink.Lib

namespace LanLink

/-- What the relay pushes about the peers of a network. -/
inductive PeerMessage
  | update (state : NetworkPeerState)
  | revocation (revocation : NetworkPeerRevocation)
  deriving DecidableEq, Repr

namespace PeerMessage

def networkId : PeerMessage → NetworkId
  | .update state => state.networkId
  | .revocation r => r.networkId

def revision : PeerMessage → UInt64
  | .update state => state.revision
  | .revocation r => r.revision

/-- What is cached when the message is the last word. -/
def entry : PeerMessage → Option NetworkPeerState
  | .update state => some state
  | .revocation _ => none

def isRevocation : PeerMessage → Bool
  | .update _ => false
  | .revocation _ => true

/-- Later revisions first; of one revision, the revocation. -/
def priority (m : PeerMessage) : ℕ := 2 * m.revision.toNat + if m.isRevocation then 1 else 0

@[simp] theorem priority_update (s : NetworkPeerState) : (update s).priority = 2 * s.revision.toNat := rfl

@[simp] theorem priority_revocation (r : NetworkPeerRevocation) :
    (revocation r).priority = 2 * r.revision.toNat + 1 := rfl

/-- The client does not throw on the message. -/
def Valid (crypto : KeyCrypto) : PeerMessage → Prop
  | .update state => QuicClient.requireTracked crypto state = .ok ()
  | .revocation _ => True

instance (crypto : KeyCrypto) (m : PeerMessage) : Decidable (m.Valid crypto) := by
  cases m <;> unfold Valid <;> infer_instance

theorem revision_le_of_priority_le {k m : PeerMessage} (h : k.priority ≤ m.priority) : k.revision ≤ m.revision := by
  rw [UInt64.le_iff_toNat_le]
  simp only [priority] at h
  split at h <;> split at h <;> omega

theorem isRevocation_of_priority_le {k m : PeerMessage} (h : k.priority ≤ m.priority) (hr : k.revision = m.revision)
    (hk : k.isRevocation) : m.isRevocation := by
  simp only [priority, hr, hk, if_true] at h
  split at h
  · assumption
  · omega

/-- Two messages of one network and one priority are the same, if updates are. -/
theorem eq_of_priority_eq {k m : PeerMessage} (hn : k.networkId = m.networkId) (hp : k.priority = m.priority)
    (hagree : ∀ s t, k = .update s → m = .update t → s.networkId = t.networkId → s.revision = t.revision → s = t) :
    k = m := by
  have hr : k.revision = m.revision := by
    apply UInt64.le_antisymm
    · exact revision_le_of_priority_le hp.le
    · exact revision_le_of_priority_le hp.ge
  cases k with
  | update s =>
    cases m with
    | update t => rw [hagree s t rfl rfl hn hr]
    | revocation r => exact absurd (isRevocation_of_priority_le hp.ge hr.symm rfl) Bool.false_ne_true
  | revocation q =>
    cases m with
    | update t => exact absurd (isRevocation_of_priority_le hp.le hr rfl) Bool.false_ne_true
    | revocation r =>
      cases q
      cases r
      simp only [networkId, revision] at hn hr
      rw [hn, hr]

end PeerMessage

/-- A message as it reaches the client. -/
structure Arrival where
  message : PeerMessage
  inputs : ClientInputs := {}
  encryptionKey : DeviceEncryptionKey := 0

namespace QuicClient
variable (crypto : KeyCrypto)

/-- The client after the message; a throw leaves what was stored before it. -/
def receive (a : Arrival) (c : QuicClient) : QuicClient :=
  match a.message with
  | .update state => (applyPeerState crypto a.inputs a.encryptionKey state c).2
  | .revocation r => (applyPeerRevocation r c).2

def receiveAll (arrivals : List Arrival) (c : QuicClient) : QuicClient :=
  arrivals.foldl (fun c a => c.receive crypto a) c

theorem receiveAll_snoc (arrivals : List Arrival) (a : Arrival) (c : QuicClient) :
    c.receiveAll crypto (arrivals ++ [a]) = (c.receiveAll crypto arrivals).receive crypto a := by
  simp only [receiveAll, List.foldl_append, List.foldl_cons, List.foldl_nil]

variable {crypto} {c : QuicClient} {n : NetworkId}

/-! ## Other networks -/

theorem lookup_keysOfEpoch_of_ne {state : NetworkPeerState} (h : n ≠ state.networkId) :
    (c.keysOfEpoch state).lookup n = c.networkKeys.lookup n := by
  unfold keysOfEpoch
  split
  · rfl
  · split
    · exact AList.lookup_erase_ne h
    · rfl

theorem lookup_keysFor_of_ne {inputs : ClientInputs} {state : NetworkPeerState} (h : n ≠ state.networkId) :
    (c.keysFor crypto inputs state).lookup n = c.networkKeys.lookup n := by
  unfold keysFor
  dsimp only
  split
  · rw [AList.lookup_insert_ne h, lookup_keysOfEpoch_of_ne h]
  · exact lookup_keysOfEpoch_of_ne h

theorem lookup_leasesFor_of_ne {state : NetworkPeerState} (h : n ≠ state.networkId) :
    (c.leasesFor state).lookup n = c.policyLeases.lookup n := by
  unfold leasesFor
  split
  · exact AList.lookup_erase_ne h
  · rfl

/-- What the cache holds of a network: its state, revision, key and lease. -/
def holding (c : QuicClient) (n : NetworkId) :
    Option NetworkPeerState × Option UInt64 × Option NetworkKeySnapshot × Option Time :=
  (c.peerStates.lookup n, c.peerRevisions.lookup n, c.networkKeys.lookup n, c.policyLeases.lookup n)

/-- A message about one network changes nothing of another. -/
theorem holding_receive_of_ne (crypto : KeyCrypto) (c : QuicClient) (a : Arrival) (h : n ≠ a.message.networkId) :
    (c.receive crypto a).holding n = c.holding n := by
  unfold receive
  cases hm : a.message with
  | update state =>
    rw [hm] at h
    change n ≠ state.networkId at h
    simp only
    have hstate := applyPeerState_state crypto a.inputs a.encryptionKey state c
    split at hstate
    · obtain ⟨published, hc⟩ := hstate
      rw [hc]
      simp only [holding, storePeerState, AList.lookup_insert_ne h, lookup_keysFor_of_ne h, lookup_leasesFor_of_ne h]
    · rw [hstate]
  | revocation r =>
    rw [hm] at h
    change n ≠ r.networkId at h
    simp only [applyPeerRevocation, Action.modify]
    split
    · rfl
    · simp only [holding, dropPeerState, AList.lookup_insert_ne h, AList.lookup_erase_ne h]

/-! ## The message a network's entry comes from -/

/-- The cache holds what `last` says of `n`. -/
structure Represents (c : QuicClient) (n : NetworkId) (last : Option PeerMessage) : Prop where
  revision : c.peerRevisions.lookup n = last.map (·.revision)
  state : c.peerStates.lookup n = last.bind (·.entry)

theorem represents_cleared (c : QuicClient) (n : NetworkId) : Represents c.clearPeerStates n none := by
  constructor <;> rfl

/-- The client drops the message as outdated. -/
def drops (c : QuicClient) : PeerMessage → Bool
  | .update state => c.outdated state
  | .revocation r => c.superseded r

/-- A message is dropped exactly when the cached one goes before it. -/
theorem drops_iff {m : PeerMessage} {last : Option PeerMessage} (h : Represents c m.networkId last) :
    c.drops m ↔ ∃ k, last = some k ∧ m.priority < k.priority := by
  cases last with
  | none =>
    have hr : c.peerRevisions.lookup m.networkId = none := h.revision
    cases m with
    | update state =>
      change c.peerRevisions.lookup state.networkId = none at hr
      simp [drops, outdated, hr]
    | revocation r =>
      change c.peerRevisions.lookup r.networkId = none at hr
      simp [drops, superseded, hr]
  | some k =>
    have hr : c.peerRevisions.lookup m.networkId = some k.revision := h.revision
    have hs : c.peerStates.lookup m.networkId = k.entry := h.state
    cases m with
    | update state =>
      change c.peerRevisions.lookup state.networkId = some k.revision at hr
      change c.peerStates.lookup state.networkId = k.entry at hs
      cases k <;>
        simp only [PeerMessage.revision, PeerMessage.entry] at hr hs <;>
        simp [drops, outdated, hr, hs, UInt64.lt_iff_toNat_lt, ← UInt64.toNat_inj]
      omega
    | revocation r =>
      change c.peerRevisions.lookup r.networkId = some k.revision at hr
      cases k <;>
        simp only [PeerMessage.revision] at hr <;>
        simp [drops, superseded, hr, UInt64.lt_iff_toNat_lt]
      omega

theorem receive_of_drops {a : Arrival} (h : c.drops a.message) : c.receive crypto a = c := by
  unfold receive
  cases hm : a.message with
  | update state =>
    rw [hm] at h
    have hstate := applyPeerState_state crypto a.inputs a.encryptionKey state c
    rwa [if_neg fun hok => hok.2 (.inr h)] at hstate
  | revocation r =>
    rw [hm] at h
    exact if_pos (.inr h)

/-- A message that is not dropped becomes the cached one. -/
theorem represents_receive_self {a : Arrival} (hlive : ¬ c.idle) (hvalid : a.message.Valid crypto)
    (h : ¬ c.drops a.message) : Represents (c.receive crypto a) a.message.networkId (some a.message) := by
  unfold receive
  cases hm : a.message with
  | update state =>
    rw [hm] at h hvalid
    have hstate := applyPeerState_state crypto a.inputs a.encryptionKey state c
    rw [if_pos ⟨hvalid, by rintro (hidle | hdrop) <;> contradiction⟩] at hstate
    obtain ⟨published, hc⟩ := hstate
    simp only
    rw [hc]
    constructor <;> exact AList.lookup_insert _
  | revocation r =>
    rw [hm] at h
    simp only [applyPeerRevocation, Action.modify]
    rw [if_neg (by rintro (hidle | hdrop) <;> contradiction)]
    constructor
    · exact AList.lookup_insert _
    · exact AList.lookup_erase _ _

theorem represents_receive_of_le {a : Arrival} {last : Option PeerMessage} (hlive : ¬ c.idle)
    (hvalid : a.message.Valid crypto) (h : Represents c a.message.networkId last)
    (hle : ∀ k, last = some k → k.priority ≤ a.message.priority) :
    Represents (c.receive crypto a) a.message.networkId (some a.message) := by
  refine represents_receive_self hlive hvalid ?_
  rw [drops_iff h]
  rintro ⟨k, hk, hlt⟩
  have := hle k hk
  omega

theorem idle_receive {a : Arrival} : (c.receive crypto a).idle = c.idle := by
  unfold receive
  split
  · rename_i state hm
    have hstate := applyPeerState_state crypto a.inputs a.encryptionKey state c
    split at hstate
    · obtain ⟨published, hc⟩ := hstate
      rw [hc]
      rfl
    · rw [hstate]
  · simp only [applyPeerRevocation, Action.modify]
    split <;> rfl

/-! ## Runs of messages -/

/-- The messages about `n`. -/
def about (n : NetworkId) (messages : List PeerMessage) : List PeerMessage :=
  messages.filter fun m => m.networkId = n

/-- Two updates of one network and one revision are equal. -/
def Agree (messages : List PeerMessage) : Prop :=
  ∀ s t, PeerMessage.update s ∈ messages → PeerMessage.update t ∈ messages →
    s.networkId = t.networkId → s.revision = t.revision → s = t

theorem Agree.eq {messages : List PeerMessage} (h : Agree messages) {k m : PeerMessage} (hk : k ∈ about n messages)
    (hm : m ∈ about n messages) (hp : k.priority = m.priority) : k = m := by
  simp only [about, List.mem_filter, decide_eq_true_eq] at hk hm
  refine PeerMessage.eq_of_priority_eq (hk.2.trans hm.2.symm) hp ?_
  rintro s t rfl rfl hn hr
  exact h s t hk.1 hm.1 hn hr

theorem idle_receiveAll (arrivals : List Arrival) (c : QuicClient) : (c.receiveAll crypto arrivals).idle = c.idle := by
  induction arrivals using List.reverseRecOn with
  | nil => rfl
  | append_singleton arrivals a ih => rw [receiveAll_snoc, idle_receive, ih]

/-- After a run the cache holds, for each network, the message of the highest priority. -/
theorem represents_receiveAll (hlive : ¬ c.idle) (arrivals : List Arrival)
    (hvalid : ∀ a ∈ arrivals, a.message.Valid crypto) (hagree : Agree (arrivals.map (·.message))) (n : NetworkId) :
    Represents (c.clearPeerStates.receiveAll crypto arrivals) n
      ((about n (arrivals.map (·.message))).argmax PeerMessage.priority) := by
  induction arrivals using List.reverseRecOn with
  | nil => exact represents_cleared c n
  | append_singleton arrivals a ih =>
    have hsub : arrivals.map (·.message) ⊆ (arrivals ++ [a]).map (·.message) := by
      rw [List.map_append]
      exact List.subset_append_left _ _
    have hrep := ih (fun b hb => hvalid b (List.mem_append_left _ hb))
      fun s t hs ht => hagree s t (hsub hs) (hsub ht)
    have hva := hvalid a (List.mem_append_right _ (List.mem_singleton_self a))
    have hidle : ¬ (c.clearPeerStates.receiveAll crypto arrivals).idle := by rwa [idle_receiveAll]
    rw [receiveAll_snoc]
    generalize hd : c.clearPeerStates.receiveAll crypto arrivals = d at hrep hidle ⊢
    by_cases hn : a.message.networkId = n
    · subst hn
      have hlast : about a.message.networkId ((arrivals ++ [a]).map (·.message)) =
          about a.message.networkId (arrivals.map (·.message)) ++ [a.message] := by simp [about]
      rw [hlast, List.argmax_concat]
      cases hk : (about a.message.networkId (arrivals.map (·.message))).argmax PeerMessage.priority with
      | none =>
        rw [hk] at hrep
        refine represents_receive_of_le hidle hva hrep ?_
        rintro k ⟨⟩
      | some k =>
        rw [hk] at hrep
        simp only
        by_cases hlt : k.priority < a.message.priority
        · rw [if_pos hlt]
          refine represents_receive_of_le hidle hva hrep ?_
          rintro k' ⟨⟩
          exact hlt.le
        rw [if_neg hlt]
        by_cases heq : a.message.priority = k.priority
        · -- a duplicate: it is stored again
          have hmem : k ∈ about a.message.networkId ((arrivals ++ [a]).map (·.message)) := by
            rw [hlast]
            exact List.mem_append_left _ (List.argmax_mem hk)
          have hself : a.message ∈ about a.message.networkId ((arrivals ++ [a]).map (·.message)) := by
            rw [hlast]
            exact List.mem_append_right _ (List.mem_singleton_self _)
          rw [← hagree.eq hself hmem heq]
          refine represents_receive_of_le hidle hva hrep ?_
          rintro k' ⟨⟩
          exact heq.ge
        · rw [receive_of_drops ((drops_iff hrep).2 ⟨k, rfl, by omega⟩)]
          exact hrep
    · have hother := holding_receive_of_ne crypto d a (Ne.symm hn)
      simp only [holding, Prod.mk.injEq] at hother
      have hlast : about n ((arrivals ++ [a]).map (·.message)) = about n (arrivals.map (·.message)) := by
        simp [about, hn]
      rw [hlast]
      constructor
      · rw [hother.2.1]
        exact hrep.revision
      · rw [hother.1]
        exact hrep.state

theorem mem_about {messages : List PeerMessage} {m : PeerMessage} :
    m ∈ about n messages ↔ m ∈ messages ∧ m.networkId = n := by simp [about]

/-- The revision is the greatest one. -/
theorem Represents.revision_iff {messages : List PeerMessage} {revision : UInt64}
    (h : Represents c n ((about n messages).argmax PeerMessage.priority)) :
    c.peerRevisions.lookup n = some revision ↔
      (∃ m ∈ about n messages, m.revision = revision) ∧ ∀ m ∈ about n messages, m.revision ≤ revision := by
  rw [h.revision]
  constructor
  · intro hrev
    obtain ⟨m, hm, rfl⟩ := Option.map_eq_some_iff.1 hrev
    refine ⟨⟨m, List.argmax_mem hm, rfl⟩, ?_⟩
    intro k hk
    exact PeerMessage.revision_le_of_priority_le (List.le_of_mem_argmax hk hm)
  · rintro ⟨⟨m, hm, rfl⟩, hmax⟩
    cases hk : (about n messages).argmax PeerMessage.priority with
    | none =>
      rw [List.argmax_eq_none.1 hk] at hm
      cases hm
    | some k =>
      have hle := hmax k (List.argmax_mem hk)
      have hge := PeerMessage.revision_le_of_priority_le (List.le_of_mem_argmax hm hk)
      exact congrArg some (UInt64.le_antisymm hle hge)

/-- The entry is the update of that revision, unless a revocation carries it. -/
theorem Represents.state_iff {messages : List PeerMessage} {state : NetworkPeerState} (hagree : Agree messages)
    (h : Represents c n ((about n messages).argmax PeerMessage.priority)) :
    c.peerStates.lookup n = some state ↔
      .update state ∈ about n messages ∧ (∀ m ∈ about n messages, m.revision ≤ state.revision) ∧
        ∀ m ∈ about n messages, m.isRevocation → m.revision ≠ state.revision := by
  rw [h.state]
  constructor
  · intro hs
    obtain ⟨m, hm, hentry⟩ := Option.bind_eq_some_iff.1 hs
    cases m with
    | revocation r => cases hentry
    | update s =>
      cases hentry
      refine ⟨List.argmax_mem hm, ?_, ?_⟩
      · intro k hk
        exact PeerMessage.revision_le_of_priority_le (List.le_of_mem_argmax hk hm)
      · intro k hk hrevoked heq
        exact Bool.false_ne_true
          (PeerMessage.isRevocation_of_priority_le (List.le_of_mem_argmax hk hm) heq hrevoked)
  · rintro ⟨hmem, hmax, hfree⟩
    cases hk : (about n messages).argmax PeerMessage.priority with
    | none =>
      rw [List.argmax_eq_none.1 hk] at hmem
      cases hmem
    | some k =>
      have hle := hmax k (List.argmax_mem hk)
      have hpri := List.le_of_mem_argmax hmem hk
      have heq : k.revision = state.revision :=
        UInt64.le_antisymm hle (PeerMessage.revision_le_of_priority_le hpri)
      cases k with
      | revocation r => exact absurd heq (hfree _ (List.argmax_mem hk) rfl)
      | update s =>
        obtain ⟨hs, hsn⟩ := mem_about.1 (List.argmax_mem hk)
        obtain ⟨hstate, hstaten⟩ := mem_about.1 hmem
        rw [hagree s state hs hstate (hsn.trans hstaten.symm) heq]
        rfl

/-- What the client has cached of a network after a run of peer messages depends only on which messages came: the
revision is the greatest, and the entry is the update of that revision unless a revocation carries it. A message
changes nothing of another network. -/
theorem cache_order_insensitive (crypto : KeyCrypto) (c : QuicClient) (hlive : ¬ c.idle) (arrivals : List Arrival)
    (hvalid : ∀ a ∈ arrivals, a.message.Valid crypto) (hagree : Agree (arrivals.map (·.message))) :
    (∀ n revision, (c.clearPeerStates.receiveAll crypto arrivals).peerRevisions.lookup n = some revision ↔
      (∃ m ∈ about n (arrivals.map (·.message)), m.revision = revision) ∧
        ∀ m ∈ about n (arrivals.map (·.message)), m.revision ≤ revision) ∧
    (∀ n state, (c.clearPeerStates.receiveAll crypto arrivals).peerStates.lookup n = some state ↔
      .update state ∈ about n (arrivals.map (·.message)) ∧
        (∀ m ∈ about n (arrivals.map (·.message)), m.revision ≤ state.revision) ∧
        ∀ m ∈ about n (arrivals.map (·.message)), m.isRevocation → m.revision ≠ state.revision) ∧
    (∀ others : List Arrival, (∀ m, m ∈ others.map (·.message) ↔ m ∈ arrivals.map (·.message)) → ∀ n,
      (c.clearPeerStates.receiveAll crypto others).peerRevisions.lookup n =
          (c.clearPeerStates.receiveAll crypto arrivals).peerRevisions.lookup n ∧
        (c.clearPeerStates.receiveAll crypto others).peerStates.lookup n =
          (c.clearPeerStates.receiveAll crypto arrivals).peerStates.lookup n) ∧
    ∀ (d : QuicClient) (a : Arrival) (n : NetworkId), n ≠ a.message.networkId →
      (d.receive crypto a).holding n = d.holding n := by
  have hrep := represents_receiveAll hlive arrivals hvalid hagree
  refine ⟨fun n revision => (hrep n).revision_iff, fun n state => (hrep n).state_iff hagree, ?_, ?_⟩
  · intro others hsame n
    have hvalid' : ∀ a ∈ others, a.message.Valid crypto := by
      intro a ha
      obtain ⟨b, hb, hm⟩ := List.mem_map.1 ((hsame a.message).1 (List.mem_map_of_mem ha))
      rw [← hm]
      exact hvalid b hb
    have hagree' : Agree (others.map (·.message)) :=
      fun s t hs ht => hagree s t ((hsame _).1 hs) ((hsame _).1 ht)
    have hrep' := represents_receiveAll hlive others hvalid' hagree' n
    have hmem : ∀ m, m ∈ about n (others.map (·.message)) ↔ m ∈ about n (arrivals.map (·.message)) := by
      intro m
      rw [mem_about, mem_about, hsame m]
    constructor
    · ext revision
      rw [hrep'.revision_iff, (hrep n).revision_iff]
      simp only [hmem]
    · ext state
      rw [hrep'.state_iff hagree', (hrep n).state_iff hagree]
      simp only [hmem]
  · intro d a n h
    exact holding_receive_of_ne crypto d a h

/-! ## A run -/

/-- Private keys are public, and X25519 adds. -/
def plainKeyCrypto : KeyCrypto where
  toPacketCrypto := NetworkPacketCipher.plainPacketCrypto
  encryptionPublicKey key := key
  x25519 key peer := some (key + peer)
  identityPublicKey identity := identity
  sign _ _ := 0

def sampleClient : QuicClient := { identity := 2, authenticated := true }

def sampleUpdate (revision : UInt64) : NetworkPeerState :=
  { NetworkPacketCipher.sampleState 0x0a400001 3 0x0a400002 with revision }

/-- The device joins, leaves and joins again. -/
def sampleArrivals : List Arrival :=
  [{ message := .update (sampleUpdate 1) }, { message := .revocation { networkId := 8, revision := 2 } },
    { message := .update (sampleUpdate 3) }]

theorem sampleArrivals_valid : ∀ a ∈ sampleArrivals, a.message.Valid plainKeyCrypto := by decide +kernel

theorem sampleArrivals_agree : Agree (sampleArrivals.map (·.message)) := by
  intro s t hs ht _ hr
  simp only [sampleArrivals, List.map_cons, List.map_nil, List.mem_cons, PeerMessage.update.injEq, reduceCtorEq,
    List.not_mem_nil, or_false, false_or] at hs ht
  rcases hs with rfl | rfl <;> rcases ht with rfl | rfl
  · rfl
  · exact absurd hr (by decide)
  · exact absurd hr (by decide)
  · rfl

/-- The messages come in the opposite order. -/
theorem cache_reversed :
    (sampleClient.clearPeerStates.receiveAll plainKeyCrypto sampleArrivals.reverse).peerStates.lookup 8 =
      some (sampleUpdate 3) := by
  have h := cache_order_insensitive plainKeyCrypto sampleClient (by decide) sampleArrivals sampleArrivals_valid
    sampleArrivals_agree
  rw [(h.2.2.1 sampleArrivals.reverse (by simp) 8).2, h.2.1]
  decide +kernel

end QuicClient
end LanLink
