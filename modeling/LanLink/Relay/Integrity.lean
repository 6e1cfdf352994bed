import LanLink.Relay.Policies
import LanLink.Relay.Roles
/-!
# Referential integrity of policies

A stored policy names members of its network only, apart from restricted
devices, and the pruning of `remove_member` keeps it so. The revision of a
policy cannot run out: an edit stops at `2 ^ 63 - 1`, and each later pruning
uses up at least one of the entries that the edit left.
-/
open LanLink.Lib

namespace LanLink

open Db (MemberRow)

/-- The policy refers to devices that satisfy `Member`. -/
structure Referenced (Member : DeviceId → Prop) (owner : Option DeviceId) (p : NetworkPolicy) : Prop where
  hubs : ∀ hub ∈ p.hubs, Member hub
  gateways : ∀ g ∈ p.gateways, Member g.device
  routes : ∀ r ∈ p.routes, Member r.gateway
  rules : ∀ r ∈ p.rules, (r.first.device ≠ 0 → Member r.first.device) ∧ (r.second.device ≠ 0 → Member r.second.device)
  members : ∀ m ∈ p.members, Member m.device ∨ m.role = .restricted
  owner : ∀ m ∈ p.members, owner = some m.device → m.role = .member
  unrestricted : ∀ g ∈ p.gateways, policyRole p g.device ≠ .restricted

/-- The entries that a pruning can drop. -/
def NetworkPolicy.entries (p : NetworkPolicy) : ℕ :=
  p.hubs.length + p.rules.length + p.members.length + p.gateways.length + p.routes.length

/-- The revision, with one pruning for each entry, stays below the last one. -/
def NetworkPolicy.Bounded (p : NetworkPolicy) : Prop := p.revision.toNat + p.entries < 2 ^ 63 + 398

/-! ## What a step keeps -/

section
variable {Member Member' : DeviceId → Prop} {owner owner' : Option DeviceId} {p : NetworkPolicy} {d : DeviceId}

theorem referenced_default : Referenced Member owner {} where
  hubs := by simp
  gateways := by simp
  routes := by simp
  rules := by simp
  members := by simp
  owner := by simp
  unrestricted := by simp

theorem Referenced.mono (h : Referenced Member owner p) (hm : ∀ e, Member e → Member' e) : Referenced Member' owner p :=
  { h with
    hubs := fun hub hh => hm _ (h.hubs hub hh)
    gateways := fun g hg => hm _ (h.gateways g hg)
    routes := fun r hr => hm _ (h.routes r hr)
    rules := fun r hr => ⟨fun h0 => hm _ ((h.rules r hr).1 h0), fun h0 => hm _ ((h.rules r hr).2 h0)⟩
    members := fun m hm' => (h.members m hm').imp_left (hm _) }

/-- The mentions of `d` go with it. -/
theorem Referenced.prune (h : Referenced Member owner p) (he : Encodable p) (hm : ∀ e, Member e → e ≠ d → Member' e) :
    Referenced Member' owner (prunedPolicy d p) where
  hubs hub hh := by
    simp only [hubs_prunedPolicy, List.mem_filter, decide_eq_true_eq] at hh
    exact hm _ (h.hubs hub hh.1) hh.2
  gateways g hg := by
    simp only [gateways_prunedPolicy, List.mem_filter, decide_eq_true_eq] at hg
    exact hm _ (h.gateways g hg.1) hg.2
  routes r hr := by
    simp only [routes_prunedPolicy, List.mem_filter, decide_eq_true_eq] at hr
    exact hm _ (h.routes r hr.1) hr.2
  rules r hr := by
    simp only [rules_prunedPolicy, List.mem_filter, Bool.not_eq_true', Bool.or_eq_false_iff, decide_eq_false_iff_not] at hr
    exact ⟨fun h0 => hm _ ((h.rules r hr.1).1 h0) hr.2.1, fun h0 => hm _ ((h.rules r hr.1).2 h0) hr.2.2⟩
  members m hm' := by
    simp only [members_prunedPolicy, List.mem_filter, Bool.not_eq_true', Bool.and_eq_false_iff, decide_eq_false_iff_not,
      not_not] at hm'
    obtain hmem | hr := h.members m hm'.1
    · exact hm'.2.imp (hm _ hmem) id
    · exact .inr hr
  owner m hm' := by
    simp only [members_prunedPolicy, List.mem_filter] at hm'
    exact h.owner m hm'.1
  unrestricted g hg := by
    simp only [gateways_prunedPolicy, List.mem_filter, decide_eq_true_eq] at hg
    rw [policyRole_prunedPolicy he, if_neg fun hc => hg.2 hc.1]
    exact h.unrestricted g hg.1

/-- A pruning that changes the policy drops an entry. -/
theorem entries_pruneMember (h : Db.pruneMember d p ≠ p) : (Db.pruneMember d p).entries < p.entries := by
  have hle {α : Type} (q : α → Bool) (l : List α) : (l.filter q).length ≤ l.length := List.length_filter_le q l
  have hsame {α : Type} {q : α → Bool} {l : List α} (hl : l.length ≤ (l.filter q).length) : l.filter q = l :=
    List.filter_eq_self.2 (List.length_filter_eq_length_iff.1 (le_antisymm (hle q l) hl))
  by_contra hlt
  simp only [NetworkPolicy.entries, Db.pruneMember] at hlt
  have hhubs := hle (fun hub => hub ≠ d) p.hubs
  have hrules := hle (fun r => !(r.first.device = d || r.second.device = d)) p.rules
  have hmembers := hle (fun m => !(m.device = d && m.role ≠ .restricted)) p.members
  have hgateways := hle (fun g => g.device ≠ d) p.gateways
  have hroutes := hle (fun r => r.gateway ≠ d) p.routes
  refine h ?_
  rw [Db.pruneMember, hsame (l := p.hubs) (by omega), hsame (l := p.members) (by omega),
    hsame (l := p.gateways) (by omega), hsame (l := p.routes) (by omega), hsame (l := p.rules) (by omega)]

theorem NetworkPolicy.Bounded.revision_ne (h : p.Bounded) : p.revision ≠ uint64Max := by
  intro heq
  rw [Bounded, heq] at h
  have : uint64Max.toNat = 2 ^ 64 - 1 := rfl
  omega

theorem NetworkPolicy.Bounded.prune (h : p.Bounded) : (prunedPolicy d p).Bounded := by
  unfold prunedPolicy
  split
  · exact h
  · rename_i hne
    have hlt := entries_pruneMember hne
    have hsucc : (p.revision + 1).toNat = p.revision.toNat + 1 := by
      rw [UInt64.toNat_add, UInt64.toNat_one, Nat.mod_eq_of_lt]
      rw [Bounded] at h
      omega
    change (p.revision + 1).toNat + (Db.pruneMember d p).entries < 2 ^ 63 + 398
    rw [Bounded] at h
    omega

/-- The sizes the encoder accepts, and the largest revision an edit may write. -/
theorem NetworkPolicy.Bounded.of_encodable (he : Encodable p) (h : p.revision.toNat < 2 ^ 63) : p.Bounded := by
  obtain ⟨hhubs, hrules, -, hmembers, hgateways, hroutes⟩ := he.sizes
  rw [Bounded, entries]
  omega

end

/-! ## Edits -/

/-- The checks of `manage_network` are enough for the stored policy, although
hubs and rules are checked in the request and the rest in the result. -/
theorem EditStep.referenced {c : Core} {op : Op} {q : ManagementRequest} {owner : DeviceId} {next : NetworkPolicy}
    (hw : c.tables.Wf) (h : EditStep c op q owner next)
    (hold : Referenced (fun d => (q.networkId, d) ∈ c.tables.memberships) (c.tables.owner q.networkId)
      (c.tables.policy q.networkId)) :
    Referenced (fun d => (q.networkId, d) ∈ c.tables.memberships) (c.tables.owner q.networkId)
      { next with revision := next.revision + 1 } := by
  have hmember {d : DeviceId} (hd : d ≠ 0) (hm : c.tables.Member q.networkId d) :
      (q.networkId, d) ∈ c.tables.memberships := (hw.addressed.lease_member _).1 (hm.resolve_left hd)
  have hgateway : ∀ g ∈ next.gateways, (q.networkId, g.device) ∈ c.tables.memberships := fun g hg =>
    hmember (h.encodable.gateways.1 g hg) (h.edit.gateways g hg).1
  refine ⟨?_, hgateway, fun r hr => ?_, ?_, fun m hm => ?_, fun m hm howner => ?_, fun g hg => ?_⟩
  · obtain ⟨-, -, -, -, -, -, rfl⟩ | ⟨-, -, rfl⟩ := h.edit.requested
    · exact hold.hubs
    · intro hub hh
      refine hmember ?_ (h.edit.hubs hub hh)
      rintro rfl
      exact h.valid.hubs.1 hh
  · obtain ⟨-, -, ⟨g, hg, hgd, -⟩, -⟩ := h.encodable.routes r hr
    exact hgd ▸ hgateway g hg
  · obtain ⟨-, -, -, -, -, -, rfl⟩ | ⟨-, -, rfl⟩ := h.edit.requested
    · exact hold.rules
    · exact fun r hr => ⟨fun h0 => hmember h0 (h.edit.rules r hr).1, fun h0 => hmember h0 (h.edit.rules r hr).2⟩
  · exact (h.edit.members m hm).1.imp_left (hmember (h.encodable.members.1 m hm).1)
  · rw [h.howner, Option.some.injEq] at howner
    exact (h.edit.members m hm).2 howner.symm
  · exact (h.edit.gateways g hg).2.1

/-! ## Runs -/

/-- The policy of `n` refers to its members and has prunings to spare. -/
structure Core.Integrity (c : Core) (n : NetworkId) : Prop where
  referenced : Referenced (fun d => (n, d) ∈ c.tables.memberships) (c.tables.owner n) (c.tables.policy n)
  bounded : (c.tables.policy n).Bounded

theorem Effect.integrity {crypto : Crypto} {c c' : Core} {op : Op} {ok : Bool} (h : Effect crypto c op ok c')
    (hw : c.tables.Wf) {n : NetworkId} (hi : c.Integrity n) : c'.Integrity n := by
  -- a network that is new has the default policy
  have howner : c'.tables.owner n = c.tables.owner n ∨ c.tables.policy n = {} := by
    cases ho : c.tables.owner n with
    | some owner => exact .inl (h.owner hw ho)
    | none =>
      refine .inr ?_
      have hnone : c.tables.policies.lookup n = none := by
        rw [AList.lookup_eq_none]
        intro hp
        obtain ⟨network, hn⟩ := Map.mem_iff_lookup.1 (hw.rooted.policies n hp)
        rw [Tables.lookup_owner hn] at ho
        cases ho
      simp only [Tables.policy, hnone]
  obtain ⟨policy, members⟩ | ⟨-, -, policy, members⟩ | ⟨network, edit, policy, members, -⟩ := h.policyStep hw n
  · refine ⟨?_, policy ▸ hi.bounded⟩
    rw [policy]
    obtain howner | hdefault := howner
    · rw [howner]
      exact hi.referenced.mono members
    · rw [hdefault]
      exact referenced_default
  · refine ⟨?_, policy ▸ hi.bounded.prune⟩
    rw [policy]
    obtain howner | hdefault := howner
    · rw [howner]
      exact hi.referenced.prune (c.tables.encodable_policy n) fun e he hne => (members e).2 ⟨he, hne⟩
    · rw [hdefault, prunedPolicy_default]
      exact referenced_default
  · subst network
    refine ⟨?_, ?_⟩
    · rw [policy, members, h.owner hw edit.howner, ← edit.howner]
      exact edit.referenced hw hi.referenced
    · rw [policy]
      exact .of_encodable edit.encodable edit.bounded

namespace Service
variable (crypto : Crypto)

theorem integrity_run (events : ℕ → Event) (k : ℕ) (n : NetworkId) : (run crypto events k).core.Integrity n := by
  refine core_run crypto (fun c => c.Integrity n) ⟨referenced_default, ?_⟩ (fun c e ok c' hw hstep hi => ?_) events k
  · change 0 + 0 < 2 ^ 63 + 398
    omega
  · cases hstep with
    | call effect => exact effect.integrity hw hi
    | restart => exact ⟨hi.referenced, hi.bounded⟩

/-- Policies of every network, in every state of every run. -/
theorem policy_integrity (events : ℕ → Event) (k : ℕ) (n : NetworkId) :
    let t := (run crypto events k).tables
    Referenced (fun d => (n, d) ∈ t.memberships) (t.owner n) (t.policy n) ∧
      encodeNetworkPolicy (t.policy n) = .ok (policyBytes (t.policy n)) ∧
      ∀ d, d ≠ 0 → MemberRow t n d → Encodable (prunedPolicy d (t.policy n)) ∧
        (run crypto events k).store.removeMember n d =
          .ok (true, { (run crypto events k).store with toTables := t.leave n d }) := by
  have hi := integrity_run crypto events k n
  have hencodable := (run crypto events k).tables.encodable_policy n
  refine ⟨hi.referenced, ?_, fun d hd hm => ⟨hencodable.pruned d, ?_⟩⟩
  · rw [encodeNetworkPolicy, check_of hencodable]
    rfl
  · have hn : n ≠ 0 := by
      rintro rfl
      obtain ⟨row, hrow, -⟩ := hm
      have hw := wf_run crypto events k
      exact hw.owned.nonzero (hw.owned.member_network _ _ (Map.mem_of_lookup hrow))
    exact Db.removeMember_succeeds hn hd hm (.inr hi.bounded.revision_ne)

end Service

end LanLink
