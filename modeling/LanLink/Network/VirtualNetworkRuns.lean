import LanLink.Network.VirtualNetwork
import LanLink.Transport.InstalledRoutes
/-!
# Runs of a virtual network

Whatever the adapter refuses and whenever packets come: a session of the bridge
has its network installed, and between the calls the addresses on the adapter are
those of the sessions, or there are no sessions at all.
-/
open LanLink.Lib

namespace LanLink

namespace VirtualPacketBridge
variable {crypto : PacketCrypto} {b b' : VirtualPacketBridge} {n : NetworkId}

/-! ## What a bridge serves -/

/-- The state of the session of `n`. -/
def peersOf (b : VirtualPacketBridge) (n : NetworkId) : Option NetworkPeerState := (b.sessions.lookup n).map (·.peers)

theorem peersOf_congr (h : b'.heldBy n = b.heldBy n) : b'.peersOf n = b.peersOf n := by
  have hpeers := congrArg (Option.map Prod.fst) h
  simpa only [heldBy, Option.map_map, Function.comp_def, peersOf] using hpeers

theorem peersOf_clear (b : VirtualPacketBridge) (n : NetworkId) : b.clear.peersOf n = none := rfl

theorem peersOf_outbound (hl : crypto.Lawful) (hw : Wf crypto b) (inputs : BridgeInputs) (bytes : Bytes) (n : NetworkId) :
    (outbound crypto inputs bytes b).2.peersOf n = b.peersOf n :=
  peersOf_congr (heldBy_step (e := (inputs, .outbound bytes)) hl hw id n)

theorem peersOf_inbound (hl : crypto.Lawful) (hw : Wf crypto b) (inputs : BridgeInputs) (delivery : ForwardedNetworkPacket) (n : NetworkId) :
    (inbound crypto inputs delivery b).2.peersOf n = b.peersOf n :=
  peersOf_congr (heldBy_step (e := (inputs, .inbound delivery)) hl hw id n)

theorem peersOf_multicast (hl : crypto.Lawful) (hw : Wf crypto b) (groups : Option (List UInt32)) (n : NetworkId) :
    (synchronizeMulticast groups b.ids b).2.peersOf n = b.peersOf n :=
  peersOf_congr (heldBy_step (e := ({}, .synchronizeMulticast groups)) hl hw id n)

end VirtualPacketBridge

namespace AdapterState

/-- No routes are configured, as far as is known. -/
def Unrouted (s : AdapterState) : Prop := ∀ r, s.routing = some r → r = {}

/-- Those configured, as far as is known, are of the snapshot under some options. -/
def RoutedFor (s : AdapterState) (snapshot : NetworkSnapshot) : Prop :=
  ∀ r, s.routing = some r → r = {} ∨ ∃ acceptRoutes forward, routingConfiguration snapshot acceptRoutes forward = .ok r

end AdapterState

/-- The snapshot that a call goes on with. -/
def NetworkTask.snapshot? : NetworkTask → Option NetworkSnapshot
  | .configuring snapshot _ | .bridging snapshot | .listening snapshot => some snapshot
  | .idle | .removing _ | .failing _ | .unrouting _ | .stopping => none

namespace VirtualNetwork
open VirtualPacketBridge (peersOf)
variable {crypto : PacketCrypto} {v v' : VirtualNetwork} {snapshot : NetworkSnapshot} {n : NetworkId} {a : VirtualNetworkAddress}

/-- The state that a snapshot has for `n`. -/
def shown (snapshot : NetworkSnapshot) (n : NetworkId) : Option NetworkPeerState :=
  if snapshot.identity.isSome then (snapshot.networks.find? fun network => network.peers.networkId = n).map (·.peers) else none

/-- The address it has for `n`. -/
def wanted (snapshot : NetworkSnapshot) (n : NetworkId) : Option VirtualNetworkAddress := (shown snapshot n).map addressOf

theorem find?_id {networks : List ActiveNetworkPacketState} {network : ActiveNetworkPacketState}
    (h : (networks.find? fun network => network.peers.networkId = n) = some network) : network ∈ networks ∧ network.peers.networkId = n :=
  ⟨List.mem_of_find?_eq_some h, by simpa using List.find?_some h⟩

theorem isSome_shown : (shown snapshot n).isSome = desires snapshot n := by
  unfold shown desires
  split
  · rename_i hidentity
    rw [hidentity, Bool.true_and, Option.isSome_map, List.isSome_find?]
  · rename_i hidentity
    simp [Bool.eq_false_iff.2 hidentity]

theorem isSome_wanted : (wanted snapshot n).isSome = desires snapshot n := by
  rw [wanted, Option.isSome_map, isSome_shown]

theorem networkId_of_wanted (h : wanted snapshot n = some a) : a.networkId = n := by
  obtain ⟨p, hp, rfl⟩ := Option.map_eq_some_iff.1 h
  unfold shown at hp
  split at hp
  · obtain ⟨network, hfind, rfl⟩ := Option.map_eq_some_iff.1 hp
    exact (find?_id hfind).2
  · cases hp

/-- A bridge that took a snapshot serves exactly its networks. -/
theorem peersOf_synchronize {inputs : BridgeInputs} {b b' : VirtualPacketBridge}
    (h : VirtualPacketBridge.synchronize crypto inputs snapshot.identity snapshot.networks b = (.ok (), b')) (n : NetworkId) :
    peersOf b' n = shown snapshot n := by
  cases hidentity : snapshot.identity with
  | none =>
    rw [hidentity] at h
    obtain ⟨-, rfl⟩ := Prod.mk.inj h
    simp only [shown, hidentity, Option.isSome_none, Bool.false_eq_true, if_false]
    rfl
  | some identity =>
    rw [hidentity] at h
    obtain ⟨hchecked, hturned⟩ := VirtualPacketBridge.synchronize_ok (congrArg Prod.fst h)
    rw [h] at hturned
    simp only [shown, hidentity, Option.isSome_some, if_true]
    rcases hturned n with hn | ⟨hnone, hother⟩
    · cases ht : b'.sessions.lookup n with
      | none =>
        rw [ht] at hn
        cases hn
      | some t =>
        rw [ht] at hn
        obtain ⟨network, hmem, hpeers, hid⟩ := hn.peers
        rw [peersOf, ht, Option.map_some, ← hpeers]
        -- the snapshot lists no network twice
        have hnodup := (VirtualPacketBridge.checkNetworks_ok hchecked).1
        cases hfind : snapshot.networks.find? fun network => network.peers.networkId = n with
        | none =>
          rw [List.find?_eq_none] at hfind
          exact absurd (hpeers ▸ hid) (by simpa using hfind network hmem)
        | some other =>
          obtain ⟨hother, hid'⟩ := find?_id hfind
          rw [← hpeers] at hid
          rw [List.inj_on_of_nodup_map hnodup hother hmem (hid'.trans hid.symm), Option.map_some]
    · have hfind : (snapshot.networks.find? fun network => network.peers.networkId = n) = none :=
        List.find?_eq_none.2 fun network hmem => by simpa using hother network hmem
      rw [peersOf, hnone, hfind]
      rfl

/-- A bridge that threw serves no network that it did not serve before and the snapshot has not. -/
theorem peersOf_synchronize_some {inputs : BridgeInputs} {b : VirtualPacketBridge}
    (h : (peersOf (VirtualPacketBridge.synchronize crypto inputs snapshot.identity snapshot.networks b).2 n).isSome) :
    (peersOf b n).isSome ∨ desires snapshot n := by
  obtain ⟨-, hcases⟩ := VirtualPacketBridge.synchronize_cases crypto inputs snapshot.identity snapshot.networks b n
  obtain ⟨b', hb'⟩ : ∃ b', b' = (VirtualPacketBridge.synchronize crypto inputs snapshot.identity snapshot.networks b).2 := ⟨_, rfl⟩
  rw [← hb'] at h hcases
  rcases hcases with hsame | ⟨hnone, -⟩ | ⟨identity, hidentity, -, hturned⟩
  · left
    rwa [peersOf, hsame, ← peersOf] at h
  · rw [peersOf, hnone] at h
    cases h
  · right
    cases ht : b'.sessions.lookup n with
    | none =>
      rw [peersOf, ht] at h
      cases h
    | some t =>
      rw [ht] at hturned
      obtain ⟨network, hmem, hpeers, hid⟩ := hturned.peers
      simp only [desires, hidentity, Option.isSome_some, Bool.true_and, List.any_eq_true, decide_eq_true_eq]
      exact ⟨network, hmem, by rw [hpeers, hid]⟩

/-! ## Desired addresses -/

theorem emplaceAddresses_ok {desired desired' : List VirtualNetworkAddress} {networks : List ActiveNetworkPacketState}
    (h : emplaceAddresses desired networks = .ok desired') : desired' = desired ++ networks.map fun network => addressOf network.peers := by
  induction networks generalizing desired with
  | nil => simpa [emplaceAddresses] using (Except.ok.inj h).symm
  | cons network networks ih =>
    rw [emplaceAddresses] at h
    split at h
    · cases h
    · rw [ih h, List.map_cons, List.append_assoc, List.singleton_append]

theorem nodup_emplaceAddresses {desired desired' : List VirtualNetworkAddress} {networks : List ActiveNetworkPacketState}
    (h : emplaceAddresses desired networks = .ok desired') (hnodup : (desired.map (·.networkId)).Nodup) :
    (desired'.map (·.networkId)).Nodup := by
  induction networks generalizing desired with
  | nil =>
    rw [← Except.ok.inj h]
    exact hnodup
  | cons network networks ih =>
    rw [emplaceAddresses] at h
    split at h
    · cases h
    · rename_i hnew
      refine ih h ?_
      rw [List.map_append, List.nodup_append]
      refine ⟨hnodup, List.nodup_singleton _, ?_⟩
      rintro _ hm m' hm' rfl
      obtain ⟨a, ha, hid⟩ := List.mem_map.1 hm
      exact hnew (List.any_eq_true.2 ⟨a, ha, by simpa [hid, addressOf] using List.mem_singleton.1 hm'⟩)

/-- The addresses to configure are those that the snapshot has. -/
theorem mem_desiredAddresses {desired : List VirtualNetworkAddress} (h : desiredAddresses snapshot = .ok desired) :
    a ∈ desired ↔ wanted snapshot a.networkId = some a := by
  unfold desiredAddresses at h
  cases hidentity : snapshot.identity with
  | none =>
    rw [hidentity] at h
    cases h
    simp [wanted, shown, hidentity]
  | some identity =>
    rw [hidentity] at h
    simp only [bind_eq_ok, Except.ok.injEq] at h
    obtain ⟨filled, hfilled, rfl⟩ := h
    have hnodup := nodup_emplaceAddresses hfilled List.nodup_nil
    have hmem := emplaceAddresses_ok hfilled
    rw [List.nil_append] at hmem
    rw [List.mem_mergeSort, wanted, shown, hidentity, Option.isSome_some, if_pos rfl]
    constructor
    · intro ha
      rw [hmem] at ha
      obtain ⟨network, hnetwork, rfl⟩ := List.mem_map.1 ha
      cases hfind : snapshot.networks.find? fun other => other.peers.networkId = (addressOf network.peers).networkId with
      | none =>
        rw [List.find?_eq_none] at hfind
        exact absurd (decide_eq_true rfl) (hfind network hnetwork)
      | some other =>
        obtain ⟨hother, hid⟩ := find?_id hfind
        rw [hmem, List.map_map] at hnodup
        rw [List.inj_on_of_nodup_map hnodup hother hnetwork hid]
        rfl
    · intro ha
      obtain ⟨p, hp, rfl⟩ := Option.map_eq_some_iff.1 ha
      obtain ⟨network, hfind, rfl⟩ := Option.map_eq_some_iff.1 hp
      rw [hmem]
      exact List.mem_map.2 ⟨network, (find?_id hfind).1, rfl⟩

/-! ## What holds between two steps -/

/-- The bridge has no session. -/
def Quiet (v : VirtualNetwork) : Prop := ∀ n, peersOf v.bridge n = none

/-- The bridge has the sessions of the snapshot, which it took last. -/
def Serves (v : VirtualNetwork) (snapshot : NetworkSnapshot) : Prop :=
  v.held = some snapshot ∧ ∀ n, peersOf v.bridge n = shown snapshot n

/-- The addresses of the snapshot are on the adapter. -/
def Addressed (v : VirtualNetwork) (snapshot : NetworkSnapshot) : Prop :=
  ∀ n a, wanted snapshot n = some a → v.adapter.addresses.lookup n = some a

/-- Nothing is left of a network that is not started. -/
structure Off (v : VirtualNetwork) : Prop where
  quiet : v.Quiet
  installed : ∀ n, v.installed.lookup n = none
  unrouted : v.adapter.Unrouted
  running : v.adapter.running = false
  receiving : v.receiving = false

/-- What holds where a call stands. -/
def Stands (v : VirtualNetwork) : NetworkTask → Prop
  | .idle => (v.Quiet ∧ v.adapter.Unrouted) ∨
      ∃ snapshot, v.Serves snapshot ∧ (∀ n, v.adapter.addresses.lookup n = wanted snapshot n) ∧ v.adapter.RoutedFor snapshot
  | .configuring snapshot todo => (∀ a ∈ todo, wanted snapshot a.networkId = some a) ∧
      ∀ n a, wanted snapshot n = some a → a ∈ todo ∨ v.adapter.addresses.lookup n = some a
  | .bridging snapshot => v.Addressed snapshot ∧ v.adapter.RoutedFor snapshot
  | .listening snapshot => v.Serves snapshot ∧ v.Addressed snapshot ∧ v.adapter.RoutedFor snapshot
  | .removing todo => ∃ snapshot, v.Serves snapshot ∧ v.Addressed snapshot ∧ v.adapter.RoutedFor snapshot ∧
      (∀ n ∈ todo, wanted snapshot n = none) ∧ ∀ n, v.installed.lookup n ≠ none → wanted snapshot n = none → n ∈ todo
  | .failing _ => True
  | .unrouting _ | .stopping => v.Quiet

structure Inv (crypto : PacketCrypto) (v : VirtualNetwork) : Prop where
  wf : v.bridge.Wf crypto
  sessions : ∀ n, peersOf v.bridge n ≠ none → v.installed.lookup n ≠ none
  addresses : ∀ n a, v.adapter.addresses.lookup n = some a → v.installed.lookup n = some a
  off : v.started = false → v.task = .idle ∧ v.Off
  stands : v.Stands v.task

/-- What touches neither sessions nor addresses, and at most takes routes away. -/
structure Leaves (v v' : VirtualNetwork) : Prop where
  peers : ∀ n, peersOf v'.bridge n = peersOf v.bridge n
  held : v'.held = v.held
  addresses : v'.adapter.addresses = v.adapter.addresses
  installed : v'.installed = v.installed
  routing : ∀ r, v'.adapter.routing = some r → r = {} ∨ v.adapter.routing = some r
  task : v'.task = v.task

theorem Leaves.quiet (h : v.Leaves v') (hquiet : v.Quiet) : v'.Quiet := fun n => (h.peers n).trans (hquiet n)

theorem Leaves.serves (h : v.Leaves v') (hserves : v.Serves snapshot) : v'.Serves snapshot :=
  ⟨h.held.trans hserves.1, fun n => (h.peers n).trans (hserves.2 n)⟩

theorem Leaves.addressed (h : v.Leaves v') (haddressed : v.Addressed snapshot) : v'.Addressed snapshot := fun n a ha => by
  rw [h.addresses]
  exact haddressed n a ha

theorem Leaves.unrouted (h : v.Leaves v') (hunrouted : v.adapter.Unrouted) : v'.adapter.Unrouted :=
  fun r hr => (h.routing r hr).elim id (hunrouted r)

theorem Leaves.routedFor (h : v.Leaves v') (hrouted : v.adapter.RoutedFor snapshot) : v'.adapter.RoutedFor snapshot :=
  fun r hr => (h.routing r hr).elim .inl (hrouted r)

theorem Leaves.stands (h : v.Leaves v') {t : NetworkTask} (hstands : v.Stands t) : v'.Stands t := by
  cases t with
  | idle =>
    rcases hstands with ⟨hquiet, hunrouted⟩ | ⟨snapshot, hserves, haddresses, hrouted⟩
    · exact .inl ⟨h.quiet hquiet, h.unrouted hunrouted⟩
    · refine .inr ⟨snapshot, h.serves hserves, fun n => ?_, h.routedFor hrouted⟩
      rw [h.addresses]
      exact haddresses n
  | configuring snapshot todo =>
    refine ⟨hstands.1, ?_⟩
    rw [h.addresses]
    exact hstands.2
  | bridging snapshot => exact ⟨h.addressed hstands.1, h.routedFor hstands.2⟩
  | listening snapshot => exact ⟨h.serves hstands.1, h.addressed hstands.2.1, h.routedFor hstands.2.2⟩
  | removing todo =>
    obtain ⟨snapshot, hserves, haddressed, hrouted, htodo, hleft⟩ := hstands
    refine ⟨snapshot, h.serves hserves, h.addressed haddressed, h.routedFor hrouted, htodo, ?_⟩
    rw [h.installed]
    exact hleft
  | failing again => trivial
  | unrouting again => exact h.quiet hstands
  | stopping => exact h.quiet hstands

theorem Inv.leaves (h : Inv crypto v) (hleaves : v.Leaves v') (hwf : v'.bridge.Wf crypto)
    (hoff : v'.started = false → v.started = false ∧ v'.adapter.running = false ∧ v'.receiving = false) : Inv crypto v' where
  wf := hwf
  sessions n hn := by
    rw [hleaves.peers] at hn
    rw [hleaves.installed]
    exact h.sessions n hn
  addresses n a ha := by
    rw [hleaves.addresses] at ha
    rw [hleaves.installed]
    exact h.addresses n a ha
  off hstarted := by
    obtain ⟨hstopped, hrunning, hreceiving⟩ := hoff hstarted
    obtain ⟨hidle, hv⟩ := h.off hstopped
    refine ⟨hleaves.task.trans hidle, hleaves.quiet hv.quiet, fun n => ?_, hleaves.unrouted hv.unrouted, hrunning, hreceiving⟩
    rw [hleaves.installed, hv.installed]
  stands := by
    rw [hleaves.task]
    exact hleaves.stands h.stands

theorem Inv.still (h : Inv crypto v) (hstopped : v.started = false) :
    v.started = false ∧ v.adapter.running = false ∧ v.receiving = false :=
  ⟨hstopped, (h.off hstopped).2.running, (h.off hstopped).2.receiving⟩

theorem wf_clear (b : VirtualPacketBridge) : b.clear.Wf crypto := by
  intro n s hs
  cases hs

theorem shown_eq_none : shown snapshot n = none ↔ wanted snapshot n = none := by
  rw [wanted, Option.map_eq_none_iff]

theorem Inv.packet (h : Inv crypto v) {r : Except Exn Unit × VirtualPacketBridge} (hwf : r.2.Wf crypto)
    (hpeers : ∀ n, peersOf r.2 n = peersOf v.bridge n) : Inv crypto (v.packet r) := by
  unfold VirtualNetwork.packet
  split <;> exact h.leaves ⟨hpeers, rfl, rfl, rfl, fun _ => .inr, rfl⟩ hwf h.still

/-- A network is started while a call goes on. -/
theorem Inv.busy (h : Inv crypto v) (hbusy : v.task ≠ .idle) : ¬ v.started = false := fun hstopped => hbusy (h.off hstopped).1

theorem Inv.fails (h : Inv crypto v) (hoff : ¬ v.started = false) : Inv crypto { v with task := .failing false } :=
  ⟨h.wf, h.sessions, h.addresses, fun hstopped => absurd hstopped hoff, trivial⟩

/-- After `configure_routing({})` nothing is routed, as far as is known. -/
theorem unrouted_reset (succeeds : Bool) {r : RoutingConfiguration} (hr : (if succeeds then some {} else none) = some r) : r = {} := by
  split at hr
  · exact (Option.some.inj hr).symm
  · cases hr

/-! ## Calls -/

theorem Inv.start (h : Inv crypto v) (succeeds : Bool) : Inv crypto (v.start succeeds) := by
  unfold VirtualNetwork.start
  split
  · exact h
  · rename_i hfree
    obtain ⟨hidle, hstopped⟩ : v.task = .idle ∧ v.started = false := by simpa using hfree
    obtain ⟨-, hoff⟩ := h.off hstopped
    split
    · exact h.leaves ⟨fun _ => rfl, rfl, rfl, rfl, fun _ => .inr, rfl⟩ h.wf fun hstarted => by cases hstarted
    · refine ⟨wf_clear _, fun n hn => absurd (VirtualPacketBridge.peersOf_clear _ n) hn, h.addresses, fun _ => ⟨hidle, ?_⟩, ?_⟩
      · exact ⟨VirtualPacketBridge.peersOf_clear _, hoff.installed, hoff.unrouted, rfl, rfl⟩
      · change VirtualNetwork.Stands _ v.task
        rw [hidle]
        exact .inl ⟨VirtualPacketBridge.peersOf_clear _, hoff.unrouted⟩

theorem Inv.setRoutingOptions (h : Inv crypto v) (acceptRoutes forward succeeds : Bool) :
    Inv crypto (v.setRoutingOptions acceptRoutes forward succeeds) := by
  unfold VirtualNetwork.setRoutingOptions
  split
  · exact h
  · dsimp only
    split
    · exact h.leaves ⟨fun _ => rfl, rfl, rfl, rfl, fun _ => .inr, rfl⟩ h.wf h.still
    · exact h.leaves ⟨fun _ => rfl, rfl, rfl, rfl, fun r hr => .inl (unrouted_reset succeeds hr), rfl⟩ h.wf h.still

theorem Inv.synchronize (h : Inv crypto v) (snapshot : NetworkSnapshot) : Inv crypto (v.synchronize snapshot) := by
  unfold VirtualNetwork.synchronize
  split
  · exact h
  · rename_i hfree
    obtain ⟨-, hstarted⟩ : v.task = .idle ∧ v.started = true := by simpa using hfree
    have hoff : ¬ v.started = false := by simp [hstarted]
    split
    · exact h.fails hoff
    · rename_i desired hdesired
      refine ⟨h.wf, h.sessions, h.addresses, fun hstopped => absurd hstopped hoff, fun a ha => (mem_desiredAddresses hdesired).1 ha, ?_⟩
      intro n a ha
      left
      rw [mem_desiredAddresses hdesired, networkId_of_wanted ha]
      exact ha

theorem Inv.stop (h : Inv crypto v) : Inv crypto v.stop := by
  unfold VirtualNetwork.stop
  split
  · exact h
  · rename_i hfree
    obtain ⟨-, hstarted⟩ : v.task = .idle ∧ v.started = true := by simpa using hfree
    have hoff : ¬ v.started = false := by simp [hstarted]
    exact ⟨wf_clear _, fun n hn => absurd (VirtualPacketBridge.peersOf_clear _ n) hn, h.addresses,
      fun hstopped => absurd hstopped hoff, VirtualPacketBridge.peersOf_clear _⟩

/-! ## Steps -/

theorem Inv.configureNext (h : Inv crypto v) {todo : List VirtualNetworkAddress} (htask : v.task = .configuring snapshot (a :: todo))
    (inputs : NetworkInputs) : Inv crypto (v.configureNext inputs snapshot a todo) := by
  have hoff := h.busy (by simp [htask])
  obtain ⟨htodo, hwanted⟩ : v.Stands (.configuring snapshot (a :: todo)) := htask ▸ h.stands
  unfold VirtualNetwork.configureNext
  split
  · refine ⟨h.wf, fun n hn => ?_, fun n b hb => ?_, fun hstopped => absurd hstopped hoff, ?_, fun n b hb => ?_⟩
    · dsimp only
      rw [Map.lookup_insert]
      split
      · exact Option.some_ne_none _
      · exact h.sessions n hn
    · dsimp only at hb ⊢
      rw [Map.lookup_insert] at hb ⊢
      split at hb
      · rename_i heq
        rw [if_pos heq, hb]
      · rename_i hne
        rw [if_neg hne]
        exact h.addresses n b hb
    · exact fun b hb => htodo b (List.mem_cons_of_mem a hb)
    · dsimp only
      rw [Map.lookup_insert]
      split
      · -- the address just configured is the one that the snapshot has
        rename_i heq
        have ha := htodo a List.mem_cons_self
        rw [← heq, hb] at ha
        exact .inr ha.symm
      · rename_i hne
        refine (hwanted n b hb).imp_left fun hmem => ?_
        rcases List.mem_cons.1 hmem with rfl | hmem
        · exact absurd (networkId_of_wanted hb).symm hne
        · exact hmem
  · -- an address may be lost here that its session still has, until the sessions are cleared
    refine ⟨h.wf, h.sessions, fun n b hb => ?_, fun hstopped => absurd hstopped hoff, trivial⟩
    dsimp only at hb
    split at hb
    · rw [Map.lookup_erase] at hb
      split at hb
      · cases hb
      · exact h.addresses n b hb
    · exact h.addresses n b hb

theorem Inv.configureRouting (h : Inv crypto v) (htask : v.task = .configuring snapshot []) (inputs : NetworkInputs) :
    Inv crypto (v.configureRouting inputs snapshot) := by
  have hoff := h.busy (by simp [htask])
  obtain ⟨-, hwanted⟩ : v.Stands (.configuring snapshot []) := htask ▸ h.stands
  unfold VirtualNetwork.configureRouting
  split
  · exact h.fails hoff
  · split
    · rename_i routing hrouting _
      refine ⟨h.wf, h.sessions, h.addresses, fun hstopped => absurd hstopped hoff, fun n a ha => (hwanted n a ha).resolve_left (by simp), ?_⟩
      intro r hr
      obtain rfl := Option.some.inj hr
      exact .inr ⟨v.acceptRoutes, v.forward, hrouting⟩
    · exact ⟨h.wf, h.sessions, h.addresses, fun hstopped => absurd hstopped hoff, trivial⟩

/-- What the snapshot has is installed once its addresses are on the adapter. -/
theorem Addressed.installed (h : v.Addressed snapshot) (haddresses : ∀ n a, v.adapter.addresses.lookup n = some a → v.installed.lookup n = some a)
    (hn : wanted snapshot n ≠ none) : v.installed.lookup n ≠ none := by
  obtain ⟨a, ha⟩ := Option.ne_none_iff_exists'.1 hn
  rw [haddresses n a (h n a ha)]
  exact Option.some_ne_none a

theorem Inv.synchronizeBridge (h : Inv crypto v) (hl : crypto.Lawful) (htask : v.task = .bridging snapshot) (inputs : NetworkInputs) :
    Inv crypto (v.synchronizeBridge crypto inputs snapshot) := by
  have hoff := h.busy (by simp [htask])
  obtain ⟨haddressed, hrouted⟩ : v.Stands (.bridging snapshot) := htask ▸ h.stands
  have hwf := VirtualPacketBridge.wf_step hl h.wf (inputs.bridge, .synchronize snapshot.identity snapshot.networks)
  unfold VirtualNetwork.synchronizeBridge
  split
  · rename_i b hsync
    have hpeers := peersOf_synchronize hsync
    simp only [VirtualPacketBridge.step, hsync] at hwf
    refine ⟨hwf, fun n hn => ?_, h.addresses, fun hstopped => absurd hstopped hoff, ⟨rfl, hpeers⟩, haddressed, hrouted⟩
    dsimp only at hn
    rw [hpeers, Ne, shown_eq_none] at hn
    exact haddressed.installed h.addresses hn
  · rename_i e b hsync
    simp only [VirtualPacketBridge.step, hsync] at hwf
    refine ⟨hwf, fun n hn => ?_, h.addresses, fun hstopped => absurd hstopped hoff, trivial⟩
    -- a bridge that threw may have replaced sessions; those are of the snapshot, whose networks are installed by now
    have hsome := @peersOf_synchronize_some crypto snapshot n inputs.bridge v.bridge
    rw [hsync] at hsome
    rcases hsome (Option.isSome_iff_ne_none.2 hn) with hbefore | hdesires
    · exact h.sessions n (Option.isSome_iff_ne_none.1 hbefore)
    · rw [← isSome_wanted, Option.isSome_iff_ne_none] at hdesires
      exact haddressed.installed h.addresses hdesires

theorem mem_installedIds : n ∈ v.installedIds ↔ v.installed.lookup n ≠ none := by
  rw [installedIds, List.mem_mergeSort, List.mem_map]
  constructor
  · rintro ⟨row, hrow, rfl⟩
    rw [Map.mem_rows.1 hrow]
    exact Option.some_ne_none _
  · intro hn
    obtain ⟨a, ha⟩ := Option.ne_none_iff_exists'.1 hn
    exact ⟨(n, a), Map.mem_rows.2 ha, rfl⟩

theorem desires_eq_false : desires snapshot n = false ↔ wanted snapshot n = none := by
  rw [← isSome_wanted, Option.isSome_eq_false_iff, Option.isNone_iff_eq_none]

theorem Inv.synchronizeMulticast (h : Inv crypto v) (hl : crypto.Lawful) (htask : v.task = .listening snapshot) (inputs : NetworkInputs) :
    Inv crypto (v.synchronizeMulticast inputs snapshot) := by
  have hoff := h.busy (by simp [htask])
  obtain ⟨⟨hheld, hpeers⟩, haddressed, hrouted⟩ : v.Stands (.listening snapshot) := htask ▸ h.stands
  have hsame := VirtualPacketBridge.peersOf_multicast hl h.wf inputs.groups
  unfold VirtualNetwork.synchronizeMulticast
  split
  · exact h.fails hoff
  · refine ⟨VirtualPacketBridge.wf_step hl h.wf ({}, .synchronizeMulticast inputs.groups), fun n hn => ?_, h.addresses,
      fun hstopped => absurd hstopped hoff, snapshot, ⟨hheld, fun n => (hsame n).trans (hpeers n)⟩, haddressed, hrouted, fun n hn => ?_, ?_⟩
    · dsimp only at hn
      rw [hsame] at hn
      exact h.sessions n hn
    · obtain ⟨-, hn⟩ := List.mem_filter.1 hn
      exact desires_eq_false.1 (by simpa using hn)
    · intro n hinstalled hn
      exact List.mem_filter.2 ⟨mem_installedIds.2 hinstalled, by simpa using desires_eq_false.2 hn⟩

theorem Inv.removeNext (h : Inv crypto v) {todo : List NetworkId} (htask : v.task = .removing (n :: todo)) :
    Inv crypto { v.removeNetwork n with task := .removing todo } := by
  have hoff := h.busy (by simp [htask])
  obtain ⟨snapshot, ⟨hheld, hpeers⟩, haddressed, hrouted, htodo, hleft⟩ : v.Stands (.removing (n :: todo)) := htask ▸ h.stands
  have hn := htodo n List.mem_cons_self
  refine ⟨h.wf, fun m hm => ?_, fun m b hb => ?_, fun hstopped => absurd hstopped hoff, snapshot, ⟨hheld, hpeers⟩, fun m b hb => ?_,
    hrouted, fun m hm => htodo m (List.mem_cons_of_mem n hm), fun m hm hnone => ?_⟩
  · change (v.installed.erase n).lookup m ≠ none
    rw [Map.lookup_erase]
    split
    · -- the bridge has dropped the network before the adapter does
      rename_i heq
      refine absurd ?_ hm
      change peersOf v.bridge m = none
      rw [heq, hpeers, shown_eq_none]
      exact hn
    · exact h.sessions m hm
  · change (v.adapter.addresses.erase n).lookup m = some b at hb
    change (v.installed.erase n).lookup m = some b
    rw [Map.lookup_erase] at hb ⊢
    split at hb
    · cases hb
    · rename_i hne
      rw [if_neg hne]
      exact h.addresses m b hb
  · change (v.adapter.addresses.erase n).lookup m = some b
    rw [Map.lookup_erase, if_neg fun heq => ?_]
    · exact haddressed m b hb
    · rw [heq, hn] at hb
      cases hb
  · change (v.installed.erase n).lookup m ≠ none at hm
    rw [Map.lookup_erase] at hm
    split at hm
    · exact absurd rfl hm
    · rename_i hne
      exact (List.mem_cons.1 (hleft m hm hnone)).resolve_left hne

theorem Inv.settle (h : Inv crypto v) (htask : v.task = .removing []) : Inv crypto { v with task := .idle } := by
  have hoff := h.busy (by simp [htask])
  obtain ⟨snapshot, hserves, haddressed, hrouted, -, hleft⟩ : v.Stands (.removing []) := htask ▸ h.stands
  refine ⟨h.wf, h.sessions, h.addresses, fun hstopped => absurd hstopped hoff, .inr ⟨snapshot, hserves, fun n => ?_, hrouted⟩⟩
  cases hwanted : wanted snapshot n with
  | some a => exact haddressed n a hwanted
  | none =>
    -- an address left over would be of an installed network, which would still be to remove
    cases haddress : v.adapter.addresses.lookup n with
    | none => rfl
    | some a =>
      have hinstalled : v.installed.lookup n ≠ none := by
        rw [h.addresses n a haddress]
        exact Option.some_ne_none a
      exact absurd (hleft n hinstalled hwanted) (by simp)

theorem addresses_removeNetworks (ids : List NetworkId) (v : VirtualNetwork) (n : NetworkId) :
    (removeNetworks ids v).adapter.addresses.lookup n = if n ∈ ids then none else v.adapter.addresses.lookup n := by
  induction ids generalizing v with
  | nil => simp [removeNetworks]
  | cons m ids ih =>
    rw [removeNetworks, ih]
    change (if n ∈ ids then none else (v.adapter.addresses.erase m).lookup n) = _
    rw [Map.lookup_erase]
    by_cases hm : n = m <;> by_cases hn : n ∈ ids <;> simp [hm, hn]

theorem bridge_removeNetworks (ids : List NetworkId) (v : VirtualNetwork) : (removeNetworks ids v).bridge = v.bridge := by
  induction ids generalizing v with
  | nil => rfl
  | cons n ids ih => exact ih _

theorem held_removeNetworks (ids : List NetworkId) (v : VirtualNetwork) : (removeNetworks ids v).held = v.held := by
  induction ids generalizing v with
  | nil => rfl
  | cons n ids ih => exact ih _

theorem Inv.finish (h : Inv crypto v) (htask : v.task = .stopping) (inputs : NetworkInputs) :
    Inv crypto (v.finish inputs) := by
  have hquiet : v.Stands .stopping := htask ▸ h.stands
  have hquiet' : (v.finish inputs).Quiet := fun n => by
    unfold VirtualNetwork.finish
    dsimp only
    rw [bridge_removeNetworks]
    exact hquiet n
  have haddresses : ∀ n, (v.finish inputs).adapter.addresses.lookup n = none := fun n => by
    unfold VirtualNetwork.finish
    dsimp only
    rw [addresses_removeNetworks]
    split
    · rfl
    · rename_i hn
      rw [mem_installedIds, not_not] at hn
      cases haddress : v.adapter.addresses.lookup n with
      | none => rfl
      | some a =>
        rw [h.addresses n a haddress] at hn
        cases hn
  have hunrouted : (v.finish inputs).adapter.Unrouted := fun _ => unrouted_reset inputs.succeeds
  refine ⟨?_, fun n hn => absurd (hquiet' n) hn, fun n a ha => ?_, fun _ => ⟨rfl, hquiet', fun _ => rfl, hunrouted, rfl, rfl⟩,
    .inl ⟨hquiet', hunrouted⟩⟩
  · unfold VirtualNetwork.finish
    dsimp only
    rw [bridge_removeNetworks]
    exact h.wf
  · rw [haddresses] at ha
    cases ha

theorem Inv.advance (h : Inv crypto v) (hl : crypto.Lawful) (inputs : NetworkInputs) : Inv crypto (v.advance crypto inputs) := by
  unfold VirtualNetwork.advance
  split
  · exact h
  · rename_i htask
    exact h.configureNext htask inputs
  · rename_i htask
    exact h.configureRouting htask inputs
  · rename_i htask
    exact h.synchronizeBridge hl htask inputs
  · rename_i htask
    exact h.synchronizeMulticast hl htask inputs
  · rename_i htask
    exact h.removeNext htask
  · rename_i htask
    exact h.settle htask
  · rename_i again htask
    have hoff := h.busy (by simp [htask])
    exact ⟨wf_clear _, fun n hn => absurd (VirtualPacketBridge.peersOf_clear _ n) hn, h.addresses,
      fun hstopped => absurd hstopped hoff, VirtualPacketBridge.peersOf_clear _⟩
  · rename_i again htask
    have hoff := h.busy (by simp [htask])
    have hquiet : v.Stands (.unrouting again) := htask ▸ h.stands
    refine ⟨h.wf, h.sessions, h.addresses, fun hstopped => absurd hstopped hoff, ?_⟩
    cases again with
    | true => exact trivial
    | false => exact Or.inl ⟨hquiet, fun _ => unrouted_reset inputs.succeeds⟩
  · rename_i htask
    exact h.finish htask inputs

/-! ## Runs -/

theorem Inv.step (h : Inv crypto v) (hl : crypto.Lawful) (e : Event) : Inv crypto (v.step crypto e) := by
  cases e with
  | start succeeds => exact h.start succeeds
  | setRoutingOptions acceptRoutes forward succeeds => exact h.setRoutingOptions acceptRoutes forward succeeds
  | synchronize snapshot => exact h.synchronize snapshot
  | stop => exact h.stop
  | advance inputs => exact h.advance hl inputs
  | outbound inputs bytes =>
    simp only [VirtualNetwork.step, VirtualNetwork.outbound]
    split
    · exact h.packet (VirtualPacketBridge.wf_step hl h.wf (inputs, .outbound bytes)) (VirtualPacketBridge.peersOf_outbound hl h.wf inputs bytes)
    · exact h
  | inbound inputs delivery =>
    simp only [VirtualNetwork.step, VirtualNetwork.inbound]
    split
    · exact h.packet (VirtualPacketBridge.wf_step hl h.wf (inputs, .inbound delivery)) (VirtualPacketBridge.peersOf_inbound hl h.wf inputs delivery)
    · exact h

theorem inv_make (hl : crypto.Lawful) {mtu : ℕ} (h : make mtu = .ok v) : Inv crypto v := by
  have hempty : VirtualPacketBridge.Wf crypto {} := fun n s hs => by cases hs
  have hwf := VirtualPacketBridge.wf_step hl hempty ({}, .setMtu mtu)
  have hquiet : ∀ n, peersOf (VirtualPacketBridge.setMtu mtu {}).2 n = none := fun n =>
    VirtualPacketBridge.peersOf_congr (VirtualPacketBridge.heldBy_step (e := ({}, .setMtu mtu)) hl hempty id n)
  unfold make at h
  split at h
  · rename_i b hb
    obtain rfl := Except.ok.inj h
    simp only [VirtualPacketBridge.step, hb] at hwf
    rw [hb] at hquiet
    have hunrouted : AdapterState.Unrouted {} := fun r hr => (Option.some.inj hr).symm
    exact ⟨hwf, fun n hn => absurd (hquiet n) hn, fun n a ha => (by cases ha),
      fun _ => ⟨rfl, hquiet, fun _ => rfl, hunrouted, rfl, rfl⟩, .inl ⟨hquiet, hunrouted⟩⟩
  · cases h

theorem inv_run (hl : crypto.Lawful) {mtu : ℕ} (h : make mtu = .ok v) (events : ℕ → Event) (k : ℕ) : Inv crypto (v.run crypto events k) :=
  states_inv (Inv crypto) (fun _ _ => True) (inv_make hl h) (fun _ e _ hv => hv.step hl e) (fun _ => trivial) k

/-! ## Snapshots -/

/-- Every snapshot in use is one of `P`. -/
structure Given (P : NetworkSnapshot → Prop) (v : VirtualNetwork) : Prop where
  held : ∀ snapshot, v.held = some snapshot → P snapshot
  task : ∀ snapshot, v.task.snapshot? = some snapshot → P snapshot

section
variable {P Q : NetworkSnapshot → Prop}

theorem Given.mono (h : v.Given P) (hPQ : ∀ snapshot, P snapshot → Q snapshot) : v.Given Q :=
  ⟨fun s hs => hPQ s (h.held s hs), fun s hs => hPQ s (h.task s hs)⟩

/-- A call that uses no snapshot any more. -/
theorem Given.ended (h : v.Given P) (hheld : v'.held = v.held ∨ v'.held = none) (htask : v'.task.snapshot? = none) : v'.Given P := by
  refine ⟨fun s hs => ?_, fun s hs => ?_⟩
  · rcases hheld with hheld | hheld
    · exact h.held s (hheld ▸ hs)
    · rw [hheld] at hs
      cases hs
  · rw [htask] at hs
    cases hs

/-- A call that goes on with its snapshot. -/
theorem Given.goes (h : v.Given P) (htask : v.task.snapshot? = some snapshot) (hheld : v'.held = v.held ∨ v'.held = some snapshot)
    (htask' : v'.task.snapshot? = some snapshot ∨ v'.task.snapshot? = none) : v'.Given P := by
  have hsnapshot := h.task snapshot htask
  refine ⟨fun s hs => ?_, fun s hs => ?_⟩
  · rcases hheld with hheld | hheld
    · exact h.held s (hheld ▸ hs)
    · obtain rfl := Option.some.inj (hheld.symm.trans hs)
      exact hsnapshot
  · rcases htask' with htask' | htask'
    · obtain rfl := Option.some.inj (htask'.symm.trans hs)
      exact hsnapshot
    · rw [htask'] at hs
      cases hs

theorem Given.advance (h : v.Given P) (inputs : NetworkInputs) : (v.advance crypto inputs).Given P := by
  unfold VirtualNetwork.advance
  split
  · exact h
  · rename_i htask
    have hsnapshot := congrArg NetworkTask.snapshot? htask
    unfold VirtualNetwork.configureNext
    split
    · exact h.goes hsnapshot (.inl rfl) (.inl rfl)
    · exact h.ended (.inl rfl) rfl
  · rename_i htask
    have hsnapshot := congrArg NetworkTask.snapshot? htask
    unfold VirtualNetwork.configureRouting
    split
    · exact h.ended (.inl rfl) rfl
    · split
      · exact h.goes hsnapshot (.inl rfl) (.inl rfl)
      · exact h.ended (.inl rfl) rfl
  · rename_i htask
    have hsnapshot := congrArg NetworkTask.snapshot? htask
    unfold VirtualNetwork.synchronizeBridge
    split
    · exact h.goes hsnapshot (.inr rfl) (.inl rfl)
    · exact h.ended (.inl rfl) rfl
  · unfold VirtualNetwork.synchronizeMulticast
    split <;> exact h.ended (.inl rfl) rfl
  · exact h.ended (.inl rfl) rfl
  · exact h.ended (.inl rfl) rfl
  · exact h.ended (.inr rfl) rfl
  · rename_i again htask
    cases again <;> exact h.ended (.inl rfl) rfl
  · refine h.ended (.inl ?_) rfl
    unfold VirtualNetwork.finish
    exact held_removeNetworks v.installedIds v

theorem Given.packet (h : v.Given P) (r : Except Exn Unit × VirtualPacketBridge) : (v.packet r).Given P := by
  unfold VirtualNetwork.packet
  split <;> exact ⟨h.held, h.task⟩

theorem Given.step (h : v.Given P) (e : Event) (he : ∀ snapshot, e = .synchronize snapshot → P snapshot) : (v.step crypto e).Given P := by
  cases e with
  | start succeeds =>
    simp only [VirtualNetwork.step, VirtualNetwork.start]
    split
    · exact h
    · split
      · exact ⟨h.held, h.task⟩
      · exact ⟨fun s hs => (by cases hs), h.task⟩
  | setRoutingOptions acceptRoutes forward succeeds =>
    simp only [VirtualNetwork.step, VirtualNetwork.setRoutingOptions]
    split
    · exact h
    · split <;> exact ⟨h.held, h.task⟩
  | synchronize snapshot =>
    simp only [VirtualNetwork.step, VirtualNetwork.synchronize]
    split
    · exact h
    · split
      · exact h.ended (.inl rfl) rfl
      · refine ⟨h.held, fun s hs => ?_⟩
        obtain rfl := Option.some.inj hs
        exact he _ rfl
  | stop =>
    simp only [VirtualNetwork.step, VirtualNetwork.stop]
    split
    · exact h
    · exact h.ended (.inr rfl) rfl
  | advance inputs => exact h.advance inputs
  | outbound inputs bytes =>
    simp only [VirtualNetwork.step, VirtualNetwork.outbound]
    split
    · exact h.packet _
    · exact h
  | inbound inputs delivery =>
    simp only [VirtualNetwork.step, VirtualNetwork.inbound]
    split
    · exact h.packet _
    · exact h

end

/-- The steps that are left at most. -/
def remaining (v : VirtualNetwork) : ℕ :=
  match v.task with
  | .idle => 0
  | .configuring _ todo => v.installed.size + 2 * todo.length + 7
  | .bridging _ => v.installed.size + 6
  | .listening _ => v.installed.size + 5
  | .removing todo => todo.length + 1
  | .failing again => if again then 4 else 2
  | .unrouting again => if again then 3 else 1
  | .stopping => 1

/-- A member that accepts routes is synchronised once. -/
def joining : ℕ → Event
  | 0 => .setRoutingOptions true false true
  | 1 => .start true
  | 2 => .synchronize (VirtualPacketBridge.tunnelSnapshot 3 0x0a400002 2 0x0a400001)
  | _ => .advance {}

end VirtualNetwork
end LanLink
