import LanLink.Protocol.Subnets
import LanLink.Relay.Policies
/-!
# Routed subnets across the relay

Inside a policy the encoder keeps routes apart, across policies `manage_network`
does. Together: an address is in at most one routed or virtual subnet.
-/
open LanLink.Lib

namespace LanLink

/-- Routes of different networks do not overlap, and none overlaps the pool of
virtual addresses. -/
structure Core.Separate (c : Core) : Prop where
  apart : ∀ n m, n ≠ m → ∀ r ∈ (c.tables.policy n).routes, ∀ r' ∈ (c.tables.policy m).routes,
    ¬ subnetsOverlap r.address r.prefixLength r'.address r'.prefixLength
  pool : ∀ n, ∀ r ∈ (c.tables.policy n).routes, ¬ subnetsOverlap r.address r.prefixLength virtualIpv4PoolFirst 10

/-! ## What a step keeps -/

/-- A step keeps or drops routes of `n`, or stores the routes of an edit. -/
theorem PolicyStep.routes {c c' : Core} {op : Op} {ok : Bool} {n : NetworkId} (h : PolicyStep c op ok n c') :
    (∀ r ∈ (c'.tables.policy n).routes, r ∈ (c.tables.policy n).routes) ∨
      ∃ q owner next, q.networkId = n ∧ EditStep c op q owner next ∧ (c'.tables.policy n).routes = next.routes := by
  obtain ⟨policy, -⟩ | ⟨-, -, policy, -⟩ | ⟨network, edit, policy, -, -⟩ := h
  · exact .inl fun r hr => policy ▸ hr
  · refine .inl fun r hr => ?_
    rw [policy, routes_prunedPolicy] at hr
    exact List.mem_of_mem_filter hr
  · exact .inr ⟨_, _, _, network, edit, by rw [policy]⟩

/-- Routes belong to networks that exist. -/
theorem Tables.mem_networks_of_route {t : Tables} (hw : t.Wf) {n : NetworkId} {r : RoutedSubnet}
    (hr : r ∈ (t.policy n).routes) : n ∈ t.networks := by
  unfold Tables.policy at hr
  split at hr
  · rename_i hl
    exact hw.rooted.policies n (Map.mem_of_lookup hl)
  · cases hr

theorem Effect.separate {crypto : Crypto} {c c' : Core} {op : Op} {ok : Bool} (h : Effect crypto c op ok c')
    (hw : c.tables.Wf) (hs : c.Separate) : c'.Separate := by
  -- an edit is checked against the routes all other networks had
  have hedit {n m : NetworkId} (hne : n ≠ m) {q : ManagementRequest} {owner : DeviceId} {next : NetworkPolicy}
      (hq : q.networkId = n) (edit : EditStep c op q owner next) {r r' : RoutedSubnet} (hr : r ∈ next.routes)
      (hr' : r' ∈ (c.tables.policy m).routes) : ¬ subnetsOverlap r.address r.prefixLength r'.address r'.prefixLength :=
    (edit.edit.routes r hr).2.2 m (Tables.mem_networks_of_route hw hr') (hq ▸ Ne.symm hne) r' hr'
  refine ⟨fun n m hne r hr r' hr' => ?_, fun n r hr => ?_⟩
  · obtain hn | ⟨q, owner, next, hq, edit, hroutes⟩ := (h.policyStep hw n).routes
    · obtain hm | ⟨q, owner, next, hq, edit, hroutes⟩ := (h.policyStep hw m).routes
      · exact hs.apart n m hne r (hn r hr) r' (hm r' hr')
      · rw [subnetsOverlap_comm]
        exact hedit (Ne.symm hne) hq edit (hroutes ▸ hr') (hn r hr)
    · obtain hm | ⟨q', owner', next', hq', edit', -⟩ := (h.policyStep hw m).routes
      · exact hedit hne hq edit (hroutes ▸ hr) (hm r' hr')
      · -- one call edits one network
        obtain ⟨t, hop⟩ := edit.call
        obtain ⟨t', hop'⟩ := edit'.call
        rw [hop] at hop'
        injection hop' with _ hqq
        exact absurd (hq.symm.trans (hqq ▸ hq')) hne
  · obtain hn | ⟨q, owner, next, hq, edit, hroutes⟩ := (h.policyStep hw n).routes
    · exact hs.pool n r (hn r hr)
    · exact (edit.edit.routes r (hroutes ▸ hr)).1

/-! ## Address sets -/

/-- A routed or a virtual subnet of the relay. -/
inductive Subnet
  | routed (n : NetworkId) (i : ℕ)
  | virtual (n : NetworkId)
  deriving DecidableEq, Repr

/-- The address `x` is in the subnet: the `i`-th route of the policy of `n`, or
the subnet of `n`. -/
def Tables.Holds (t : Tables) (x : UInt32) : Subnet → Prop
  | .routed n i => ∃ r, (t.policy n).routes[i]? = some r ∧ subnetContains r.address r.prefixLength x
  | .virtual n => ∃ base, t.subnets.lookup n = some base ∧ subnetContains base.val virtualIpv4PrefixLength x

/-- Virtual subnets are in the pool. -/
theorem SubnetAddress.pool (base : SubnetAddress) {x : UInt32} (hx : subnetContains base.val virtualIpv4PrefixLength x) :
    subnetContains virtualIpv4PoolFirst 10 x := by
  refine subnetContains_trans (by decide) ?_ hx
  rw [subnetContains_iff]
  refine ⟨by decide, by decide, ?_⟩
  rw [trunc_eq_iff (by decide)]
  obtain ⟨hfirst, hend, -⟩ := base.property
  rw [UInt32.le_iff_toNat_le] at hfirst
  rw [UInt32.lt_iff_toNat_lt] at hend
  exact ⟨hfirst, hend⟩

theorem Encodable.routes_apart {p : NetworkPolicy} (h : Encodable p) {i j : ℕ} {r r' : RoutedSubnet}
    (hr : p.routes[i]? = some r) (hr' : p.routes[j]? = some r') (hne : i ≠ j) :
    ¬ subnetsOverlap r.address r.prefixLength r'.address r'.prefixLength := by
  obtain ⟨hi, rfl⟩ := List.getElem?_eq_some_iff.1 hr
  obtain ⟨hj, rfl⟩ := List.getElem?_eq_some_iff.1 hr'
  obtain hlt | hlt := Nat.lt_or_gt_of_ne hne
  · rw [subnetsOverlap_comm]
    exact List.pairwise_iff_getElem.1 h.disjoint i j hi hj hlt
  · exact List.pairwise_iff_getElem.1 h.disjoint j i hj hi hlt

/-- The routed subnets of all policies and the virtual subnets, as sets of
addresses. -/
structure Tables.Disjoint (t : Tables) : Prop where
  /-- Different routes have no address in common. -/
  routed : ∀ (n m : NetworkId) (i j : ℕ) (r r' : RoutedSubnet), (t.policy n).routes[i]? = some r →
    (t.policy m).routes[j]? = some r' → (n, i) ≠ (m, j) →
    ∀ x, ¬ (subnetContains r.address r.prefixLength x ∧ subnetContains r'.address r'.prefixLength x)
  canonical : ∀ n, ∀ r ∈ (t.policy n).routes, subnetContains r.address r.prefixLength r.address
  /-- A route lies in one of the private blocks. -/
  block : ∀ n, ∀ r ∈ (t.policy n).routes,
    (∀ x, subnetContains r.address r.prefixLength x → subnetContains 0x0a000000 8 x) ∨
    (∀ x, subnetContains r.address r.prefixLength x → subnetContains 0xac100000 12 x) ∨
    (∀ x, subnetContains r.address r.prefixLength x → subnetContains 0xc0a80000 16 x)
  /-- No route has an address of the pool, where the virtual subnets are. -/
  pool : ∀ n, ∀ r ∈ (t.policy n).routes, ∀ x, subnetContains r.address r.prefixLength x →
    ¬ subnetContains virtualIpv4PoolFirst 10 x
  virtual : ∀ n base, t.subnets.lookup n = some base → ∀ x, subnetContains base.val virtualIpv4PrefixLength x →
    subnetContains virtualIpv4PoolFirst 10 x
  /-- An address is in at most one routed or virtual subnet. -/
  unique : ∀ x a b, t.Holds x a → t.Holds x b → a = b

theorem Core.Separate.disjoint {c : Core} (h : c.Separate) (hw : c.tables.Wf) : c.tables.Disjoint := by
  have hencodable (n : NetworkId) := c.tables.encodable_policy n
  have hrouted : ∀ (n m : NetworkId) (i j : ℕ) (r r' : RoutedSubnet), (c.tables.policy n).routes[i]? = some r →
      (c.tables.policy m).routes[j]? = some r' → (n, i) ≠ (m, j) → ∀ x,
      ¬ (subnetContains r.address r.prefixLength x ∧ subnetContains r'.address r'.prefixLength x) := by
    intro n m i j r r' hr hr' hne x hx
    have hover := subnetsOverlap_of_contains hx.1 hx.2
    by_cases hnm : n = m
    · subst hnm
      exact (hencodable n).routes_apart hr hr' (fun hij => hne (by rw [hij])) hover
    · exact h.apart n m hnm r (List.mem_of_getElem? hr) r' (List.mem_of_getElem? hr') hover
  have hpool : ∀ n, ∀ r ∈ (c.tables.policy n).routes, ∀ x, subnetContains r.address r.prefixLength x →
      ¬ subnetContains virtualIpv4PoolFirst 10 x :=
    fun n r hr x hx hp => h.pool n r hr (subnetsOverlap_of_contains hx hp)
  refine ⟨hrouted, fun n r hr => ?_, fun n r hr => ?_, hpool, fun n base _ x hx => base.pool hx, ?_⟩
  · exact privateRoutedSubnet_canonical ((hencodable n).routes r hr).1
  · exact privateRoutedSubnet_block ((hencodable n).routes r hr).1
  · rintro x (⟨n, i⟩ | n) (⟨m, j⟩ | m) ha hb
    · obtain ⟨r, hr, hx⟩ := ha
      obtain ⟨r', hr', hx'⟩ := hb
      by_contra hne
      refine hrouted n m i j r r' hr hr' (fun heq => hne ?_) x ⟨hx, hx'⟩
      rw [Prod.mk.injEq] at heq
      rw [heq.1, heq.2]
    · obtain ⟨r, hr, hx⟩ := ha
      obtain ⟨base, -, hx'⟩ := hb
      exact absurd (base.pool hx') (hpool n r (List.mem_of_getElem? hr) x hx)
    · obtain ⟨base, -, hx⟩ := ha
      obtain ⟨r, hr, hx'⟩ := hb
      exact absurd (base.pool hx) (hpool m r (List.mem_of_getElem? hr) x hx')
    · obtain ⟨base, hbase, hx⟩ := ha
      obtain ⟨base', hbase', hx'⟩ := hb
      rw [subnetContains_iff] at hx hx'
      have heq : base.val = base'.val := UInt32.toNat_inj.1 (hx.2.2.symm.trans hx'.2.2)
      rw [hw.addressed.subnet_distinct n m base base' hbase hbase' heq]

namespace Service
variable (crypto : Crypto)

/-- Routed and virtual subnets are disjoint relay-wide, in every state of every
run. -/
theorem routes_disjoint (events : ℕ → Event) (k : ℕ) : (run crypto events k).tables.Disjoint := by
  refine Core.Separate.disjoint (c := (run crypto events k).core) ?_ (wf_run crypto events k)
  refine core_run crypto Core.Separate ⟨?_, ?_⟩ (fun c e ok c' hw hstep hs => ?_) events k
  · exact fun n m _ r hr => nomatch hr
  · exact fun n r hr => nomatch hr
  · cases hstep with
    | call effect => exact effect.separate hw hs
    | restart => exact ⟨hs.apart, hs.pool⟩

end Service

end LanLink
