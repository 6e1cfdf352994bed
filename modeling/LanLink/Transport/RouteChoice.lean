import LanLink.Protocol.Decisions
import LanLink.Transport.SessionState
/-!
# The route a packet takes

`outbound_routed` asks the routes of every session in turn. A packet from the
device's own address into a routed subnet is left to that subnet's route: own
addresses differ, routed subnets of a policy do not overlap, and none of them
has an overlay address.
-/
open LanLink.Lib

namespace LanLink

/-! ## Subnets -/

section
variable {route : RoutedSubnet} {subnet address : UInt32}

/-- Overlay addresses are not in routed subnets. -/
theorem SafeSubnet.not_contains (h : SafeSubnet route) (ha : Placed subnet address) :
    ¬ subnetContains route.address route.prefixLength address := by
  intro hin
  have hpool : subnetContains 0x0a400000 10 address := by
    rw [subnetContains_iff, trunc_eq_iff (by decide)]
    obtain ⟨hge, hlt, haligned, hhost⟩ := ha
    have h10 : (10 : UInt8).toNat = 10 := rfl
    have hbase : (0x0a400000 : UInt32).toNat = 0x0a400000 := rfl
    rw [h10, hbase]
    omega
  exact h.2 (subnetsOverlap_of_contains hin hpool)

theorem SafeSubnet.contains_self (h : SafeSubnet route) : subnetContains route.address route.prefixLength route.address :=
  privateRoutedSubnet_canonical h.1

end

def RoutesApart (r r' : RoutedSubnet) : Prop := ¬ subnetsOverlap r.address r.prefixLength r'.address r'.prefixLength

instance : Std.Symm RoutesApart := ⟨fun r r' h => by rwa [RoutesApart, subnetsOverlap_comm]⟩

/-- The routed subnets of a valid policy are apart. -/
theorem routesApart_of_valid {state : NetworkPeerState} {policy : NetworkPolicy} {route route' : RoutedSubnet}
    (h : requirePeerState state = .ok ()) (hpolicy : state.policy = some policy) (hroute : route ∈ policy.routes)
    (hroute' : route' ∈ policy.routes) (hne : route' ≠ route) : RoutesApart route' route := by
  have hdisjoint : policy.routes.Pairwise RoutesApart :=
    ((requirePeerState_ok h).2 policy hpolicy).disjoint.imp fun hapart => by rwa [RoutesApart, subnetsOverlap_comm]
  exact hdisjoint.forall hroute' hroute hne

/-! ## Policies -/

section
variable {state : NetworkPeerState} {policy : NetworkPolicy} {route : RoutedSubnet} {d : DeviceId}

theorem policyAllows_of_routeAllows (h : routeAllows policy route d) : policyAllows policy d route.gateway := by
  simp only [routeAllows, Bool.and_eq_true] at h
  exact h.1.2

/-- No device is a member of its own route, so the order of the two tests does not matter. -/
theorem takesRoute_of {acceptRoutes forward : Bool} (haccepts : acceptRoutes) (hallowed : routeAllows policy route d)
    (honline : ∃ peer ∈ state.peers, peer.deviceId = route.gateway ∧ peer.signedKey.isSome) :
    TakesRoute d acceptRoutes forward state policy route := by
  refine ⟨?_, haccepts, hallowed, honline⟩
  rintro ⟨hgateway, -⟩
  have hself := policyAllows_of_routeAllows hallowed
  simp [policyAllows, hgateway] at hself

end

namespace VirtualPacketBridge

/-! ## The loop over the routes -/

theorem mem_ids {b : VirtualPacketBridge} {n : NetworkId} : n ∈ b.ids ↔ ∃ s, b.sessions.lookup n = some s := by
  simp [ids, Map.mem_rows]

/-- The only element with a result decides. -/
theorem findSome?_unique {α β : Type} {l : List α} {f : α → Option β} {a : α} (ha : a ∈ l) (hother : ∀ x ∈ l, x ≠ a → f x = none) :
    l.findSome? f = f a := by
  induction l with
  | nil => cases ha
  | cons x l ih =>
    rw [List.findSome?_cons]
    by_cases hx : x = a
    · subst hx
      cases hf : f x with
      | some b => rfl
      | none =>
        rw [List.findSome?_eq_none_iff]
        intro y hy
        by_cases hyx : y = x
        · rw [hyx, hf]
        · exact hother y (List.mem_cons_of_mem _ hy) hyx
    · rw [hother x List.mem_cons_self hx]
      rcases List.mem_cons.1 ha with rfl | ha
      · exact absurd rfl hx
      · exact ih ha fun y hy => hother y (List.mem_cons_of_mem _ hy)

/-- What the loop makes of the verdict of a route. -/
def RouteVerdict.outcome (n : NetworkId) : RouteVerdict → Option (NetworkId × Option UInt32)
  | .skip => none
  | .stop => some (n, none)
  | .forwardTo destination => some (n, some destination)

/-- If no other route has a say, the packet is left to this one. -/
theorem findRoute_unique {b : VirtualPacketBridge} {h : Ipv4Header} {n : NetworkId} {s : Session} {policy : NetworkPolicy}
    {route : RoutedSubnet} (hs : b.sessions.lookup n = some s) (hpolicy : s.peers.policy = some policy)
    (hroute : route ∈ policy.routes)
    (hother : ∀ m t p r, b.sessions.lookup m = some t → t.peers.policy = some p → r ∈ p.routes → (m ≠ n ∨ r ≠ route) →
      b.routeVerdict t p r h = .skip) :
    b.findRoute h = (b.routeVerdict s policy route h).outcome n := by
  have hinner : ∀ m t p, b.sessions.lookup m = some t → t.peers.policy = some p →
      (∀ r ∈ p.routes, b.routeVerdict t p r h = .skip) → (p.routes.findSome? fun r => (b.routeVerdict t p r h).outcome m) = none := by
    intro m t p ht hp hskip
    rw [List.findSome?_eq_none_iff]
    intro r hr
    rw [hskip r hr]
    rfl
  have heq : b.findRoute h = b.ids.findSome? fun m => (b.sessions.lookup m).bind fun t => t.peers.policy.bind fun p =>
      p.routes.findSome? fun r => (b.routeVerdict t p r h).outcome m := by
    unfold findRoute
    congr 1
    funext m
    cases b.sessions.lookup m with
    | none => rfl
    | some t =>
      cases hp : t.peers.policy with
      | none => simp [hp]
      | some p =>
        simp only [Option.bind_some, hp]
        congr 1
  rw [heq, findSome?_unique (mem_ids.2 ⟨s, hs⟩)]
  · rw [hs, Option.bind_some, hpolicy, Option.bind_some, findSome?_unique hroute]
    intro r hr hne
    rw [hother n s policy r hs hpolicy hr (.inr hne)]
    rfl
  · intro m hm hne
    obtain ⟨t, ht⟩ := mem_ids.1 hm
    rw [ht, Option.bind_some]
    cases hp : t.peers.policy with
    | none => rfl
    | some p => exact hinner m t p ht hp fun r hr => hother m t p r ht hp hr (.inl hne)

/-- No route of a session is for overlay addresses. -/
def SafeRoutes (b : VirtualPacketBridge) : Prop :=
  ∀ n s policy route, b.sessions.lookup n = some s → s.peers.policy = some policy → route ∈ policy.routes → SafeSubnet route

/-- A packet from the own address into a routed subnet is left to its route. -/
theorem findRoute_own {crypto : PacketCrypto} {b : VirtualPacketBridge} {h : Ipv4Header} {n : NetworkId} {s : Session}
    {policy : NetworkPolicy} {route : RoutedSubnet} (hagrees : Agrees crypto b) (hown : OwnsApart b) (hsafe : SafeRoutes b)
    (hs : b.sessions.lookup n = some s) (hpolicy : s.peers.policy = some policy) (hroute : route ∈ policy.routes)
    (hsource : h.source = s.peers.ownAddress)
    (hdestination : subnetContains route.address route.prefixLength h.destination) :
    b.findRoute h = (b.routeVerdict s policy route h).outcome n := by
  refine findRoute_unique hs hpolicy hroute fun m t p r ht hp hr hne => ?_
  have hfirst : ¬ (h.source = t.peers.ownAddress ∧ subnetContains r.address r.prefixLength h.destination) := by
    rintro ⟨hsame, hin⟩
    by_cases heq : m = n
    · subst heq
      rw [hs, Option.some.injEq] at ht
      subst ht
      rw [hpolicy, Option.some.injEq] at hp
      subst hp
      have hapart := routesApart_of_valid (hagrees m s hs).valid hpolicy hroute hr (hne.resolve_left fun hm => hm rfl)
      exact hapart (subnetsOverlap_of_contains hin hdestination)
    · exact hown n m s t hs ht heq (hsame.symm.trans hsource)
  have hsecond : ¬ (r.gateway = t.ownDeviceId ∧ subnetContains r.address r.prefixLength h.source) := by
    rintro ⟨-, hin⟩
    rw [hsource] at hin
    exact (hsafe m t p r ht hp hr).not_contains (valid_own (hagrees n s hs).valid).2 hin
  rw [routeVerdict, if_neg hfirst, if_neg hsecond]

end VirtualPacketBridge

end LanLink
