import LanLink.Relay.Policies
/-!
# Gateways

A device becomes a gateway at its own request and carries routes only after a
manager approved it; when it goes away it has to ask again.
-/
open LanLink.Lib

namespace LanLink

open Db (MemberRow)

/-- `d` is in the list of gateways. -/
def NetworkPolicy.lists (p : NetworkPolicy) (d : DeviceId) : Prop := ∃ g ∈ p.gateways, g.device = d

instance (p : NetworkPolicy) (d : DeviceId) : Decidable (p.lists d) :=
  inferInstanceAs (Decidable (∃ g ∈ p.gateways, g.device = d))

/-- Some route goes through `d`. -/
def NetworkPolicy.routesVia (p : NetworkPolicy) (d : DeviceId) : Prop := ∃ r ∈ p.routes, r.gateway = d

/-- A route's gateway is approved, hence listed. -/
theorem Encodable.approves_of_routesVia {p : NetworkPolicy} (h : Encodable p) {d : DeviceId} (hr : p.routesVia d) :
    p.approves d := by
  obtain ⟨r, hr, rfl⟩ := hr
  exact (h.routes r hr).2.2.1

theorem NetworkPolicy.lists_of_approves {p : NetworkPolicy} {d : DeviceId} (h : p.approves d) : p.lists d := by
  obtain ⟨g, hg, hd, -⟩ := h
  exact ⟨g, hg, hd⟩

/-! ## Pruning -/

theorem lists_of_prunedPolicy {p : NetworkPolicy} {d e : DeviceId} (h : (prunedPolicy d p).lists e) :
    p.lists e ∧ e ≠ d := by
  obtain ⟨g, hg, rfl⟩ := h
  rw [gateways_prunedPolicy, List.mem_filter, decide_eq_true_eq] at hg
  exact ⟨⟨g, hg.1, rfl⟩, hg.2⟩

theorem approves_of_prunedPolicy {p : NetworkPolicy} {d e : DeviceId} (h : (prunedPolicy d p).approves e) :
    p.approves e := by
  obtain ⟨g, hg, he, ha⟩ := h
  rw [gateways_prunedPolicy] at hg
  exact ⟨g, List.mem_of_mem_filter hg, he, ha⟩

theorem routesVia_of_prunedPolicy {p : NetworkPolicy} {d e : DeviceId} (h : (prunedPolicy d p).routesVia e) :
    p.routesVia e := by
  obtain ⟨r, hr, he⟩ := h
  rw [routes_prunedPolicy] at hr
  exact ⟨r, List.mem_of_mem_filter hr, he⟩

/-! ## Steps -/

/-- The step is an edit of the policy of `n` that `actor` asks for. -/
def Event.Edits (n : NetworkId) (action : ManagementAction) (actor : DeviceId) (e : Event) : Prop :=
  ∃ q, q.action = action ∧ e.Manages n actor q

/-- What a step may do to the gateway `d` of `n`. -/
structure GatewayStep (crypto : Crypto) (n : NetworkId) (d : DeviceId) (s : Service) (e : Event) (s' : Service) :
    Prop where
  /-- A new gateway asked for it itself, as an unrestricted member, and is not approved. -/
  enters : ¬ (s.tables.policy n).lists d → (s'.tables.policy n).lists d →
    e.Edits n .requestGateway d ∧ s.succeeds crypto e ∧ (n, d) ∈ s.tables.memberships ∧
      policyRole (s.tables.policy n) d ≠ .restricted ∧ ¬ (s'.tables.policy n).approves d
  /-- Only a manager approves, and only who asked before. -/
  approved : ¬ (s.tables.policy n).approves d → (s'.tables.policy n).approves d →
    (s.tables.policy n).lists d ∧ ∃ actor, e.Edits n .replacePolicy actor ∧ s.canManageNetwork n actor
  /-- Only a manager routes through a gateway. -/
  routed : ¬ (s.tables.policy n).routesVia d → (s'.tables.policy n).routesVia d →
    (s.tables.policy n).lists d ∧ ∃ actor, e.Edits n .replacePolicy actor ∧ s.canManageNetwork n actor
  /-- A member that goes away is no gateway any more. -/
  removed : (n, d) ∈ s.tables.memberships → (n, d) ∉ s'.tables.memberships → ¬ (s'.tables.policy n).lists d
  /-- No route goes through a device that is not listed. -/
  unrouted : ¬ (s'.tables.policy n).lists d → ¬ (s'.tables.policy n).routesVia d

/-- An edit lists only who was listed, or its actor by request. -/
theorem EditStep.lists {c : Core} {op : Op} {q : ManagementRequest} {owner d : DeviceId} {next : NetworkPolicy}
    (h : EditStep c op q owner next) (hl : next.lists d) :
    (c.tables.policy q.networkId).lists d ∨ (q.action = .requestGateway ∧ op.actor = d) := by
  obtain ⟨g, hg, rfl⟩ := hl
  obtain ⟨-, -, ⟨old, ho, hd⟩ | ⟨haction, hd, -⟩⟩ := h.edit.gateways g hg
  · exact .inl ⟨old, ho, hd⟩
  · exact .inr ⟨haction, hd.symm⟩

/-- A request approves nobody and routes through nobody new. -/
theorem EditStep.approves {c : Core} {op : Op} {q : ManagementRequest} {owner d : DeviceId} {next : NetworkPolicy}
    (h : EditStep c op q owner next) (haction : q.action = .requestGateway) (ha : next.approves d) :
    (c.tables.policy q.networkId).approves d := by
  obtain ⟨-, -, -, -, -, -, rfl⟩ | ⟨haction', -, -⟩ := h.edit.requested
  · obtain ⟨g, hg, hd, ha⟩ := ha
    obtain hg | hg := List.mem_append.1 hg
    · exact ⟨g, hg, hd, ha⟩
    · rw [List.mem_singleton.1 hg] at ha
      cases ha
  · rw [haction] at haction'
    cases haction'

theorem EditStep.routesVia {c : Core} {op : Op} {q : ManagementRequest} {owner d : DeviceId} {next : NetworkPolicy}
    (h : EditStep c op q owner next) (haction : q.action = .requestGateway) (hr : next.routesVia d) :
    (c.tables.policy q.networkId).routesVia d := by
  obtain ⟨-, -, -, -, -, -, rfl⟩ | ⟨haction', -, -⟩ := h.edit.requested
  · exact hr
  · rw [haction] at haction'
    cases haction'

/-- An edit that is no request is a manager's. -/
theorem EditStep.manager {c : Core} {op : Op} {q : ManagementRequest} {owner : DeviceId} {next : NetworkPolicy}
    (h : EditStep c op q owner next) (haction : q.action ≠ .requestGateway) :
    q.action = .replacePolicy ∧ c.CanManage q.networkId op.actor := by
  obtain ⟨haction', -⟩ | ⟨haction', hman, -⟩ := h.edit.requested
  · exact absurd haction' haction
  · exact ⟨haction', hman⟩

namespace Service
variable (crypto : Crypto)

theorem gatewayStep {s : Service} (hw : s.tables.Wf) (e : Event) (hroom : s.HasRoom e) (n : NetworkId) (d : DeviceId) :
    GatewayStep crypto n d s e (s.step crypto e) := by
  have hunrouted (s' : Service) (h : ¬ (s'.tables.policy n).lists d) : ¬ (s'.tables.policy n).routesVia d :=
    fun hr => h (NetworkPolicy.lists_of_approves ((s'.tables.encodable_policy n).approves_of_routesVia hr))
  cases e with
  | restart =>
    exact ⟨fun h h' => absurd h' h, fun h h' => absurd h' h, fun h h' => absurd h' h, fun h h' => absurd h h', hunrouted _⟩
  | call op inputs =>
    obtain ⟨policy, members⟩ | ⟨-, member, policy, members⟩ | ⟨network, edit, policy, members, -⟩ :=
      (perform_effect crypto inputs op hw).policyStep hw n
    all_goals replace policy : (s.step crypto (.call op inputs)).tables.policy n = _ := policy
    · refine ⟨fun h h' => ?_, fun h h' => ?_, fun h h' => ?_, fun h h' => absurd (members d h) h', hunrouted _⟩
      all_goals exact absurd (policy ▸ h') h
    · refine ⟨fun h h' => ?_, fun h h' => ?_, fun h h' => ?_, fun h h' => ?_, hunrouted _⟩
      · exact absurd (lists_of_prunedPolicy (policy ▸ h')).1 h
      · exact absurd (approves_of_prunedPolicy (policy ▸ h')) h
      · exact absurd (routesVia_of_prunedPolicy (policy ▸ h')) h
      · rename_i gone
        rw [policy]
        intro hl
        have hne := (lists_of_prunedPolicy hl).2
        exact h' ((members d).2 ⟨h, hne⟩)
    · subst network
      rename_i q owner next
      obtain ⟨t, hop⟩ := edit.call
      have hedits (action : ManagementAction) (ha : q.action = action) :
          Event.Edits q.networkId action op.actor (.call op inputs) := ⟨q, ha, rfl, t, inputs, by rw [← hop]⟩
      have hmanager (ha : q.action ≠ .requestGateway) : ∃ actor,
          Event.Edits q.networkId .replacePolicy actor (.call op inputs) ∧ s.canManageNetwork q.networkId actor := by
        obtain ⟨haction, hman⟩ := edit.manager ha
        exact ⟨op.actor, hedits _ haction, (canManageNetwork_iff s _ _).2 hman⟩
      -- the stored policy is `next` under its new revision
      have hnext : ((s.step crypto (.call op inputs)).tables.policy q.networkId).gateways = next.gateways ∧
          ((s.step crypto (.call op inputs)).tables.policy q.networkId).routes = next.routes := by
        rw [policy]
        exact ⟨rfl, rfl⟩
      have hlists (h : ((s.step crypto (.call op inputs)).tables.policy q.networkId).lists d) : next.lists d := by
        rwa [NetworkPolicy.lists, hnext.1] at h
      have happroves (h : ((s.step crypto (.call op inputs)).tables.policy q.networkId).approves d) :
          next.approves d := by
        rwa [NetworkPolicy.approves, hnext.1] at h
      have hroutesVia (h : ((s.step crypto (.call op inputs)).tables.policy q.networkId).routesVia d) :
          next.routesVia d := by
        rwa [NetworkPolicy.routesVia, hnext.2] at h
      -- listed before, unless the step is a request of `d`
      have hlisted (ha : q.action ≠ .requestGateway)
          (hl : ((s.step crypto (.call op inputs)).tables.policy q.networkId).lists d) :
          (s.tables.policy q.networkId).lists d :=
        (edit.lists (hlists hl)).resolve_right fun h => ha h.1
      refine ⟨fun h h' => ?_, fun h h' => ?_, fun h h' => ?_, fun h h' => absurd (members ▸ h) h', hunrouted _⟩
      · obtain hl | ⟨haction, rfl⟩ := edit.lists (hlists h')
        · exact absurd hl h
        have hsucceeds : s.succeeds crypto (.call op inputs) = true := by
          by_contra hfail
          rw [Bool.not_eq_true] at hfail
          rw [hop] at hroom hfail h'
          have hcore := core_eq_of_not_succeeds hw hroom hfail
          refine h ?_
          rwa [show (s.step crypto (.call (.manageNetwork op.actor q t) inputs)).tables = s.tables from
            congrArg Core.tables hcore] at h'
        refine ⟨hedits _ haction, hsucceeds, ?_, ?_, fun ha => ?_⟩
        · exact (hw.addressed.lease_member _).1 edit.lease
        · obtain ⟨-, -, hrole, -⟩ | ⟨haction', -⟩ := edit.edit.requested
          · exact hrole
          · rw [haction] at haction'
            cases haction'
        · exact h (NetworkPolicy.lists_of_approves (edit.approves haction (happroves ha)))
      · have haction : q.action ≠ .requestGateway := fun ha => h (edit.approves ha (happroves h'))
        exact ⟨hlisted haction (NetworkPolicy.lists_of_approves h'), hmanager haction⟩
      · have haction : q.action ≠ .requestGateway := fun ha => h (edit.routesVia ha (hroutesVia h'))
        have hlists' := ((s.step crypto (.call op inputs)).tables.encodable_policy _).approves_of_routesVia h'
        exact ⟨hlisted haction (NetworkPolicy.lists_of_approves hlists'), hmanager haction⟩

/-- A gateway that was not listed has asked since. -/
theorem requested_since {events : ℕ → Event} (hroom : ∀ k, (run crypto events k).HasRoom (events k)) {n : NetworkId}
    {d : DeviceId} {j k : ℕ} (hjk : j ≤ k) (hj : ¬ ((run crypto events j).tables.policy n).lists d)
    (hk : ((run crypto events k).tables.policy n).lists d) :
    ∃ i, j ≤ i ∧ i < k ∧ (events i).Edits n .requestGateway d ∧ (run crypto events i).succeeds crypto (events i) := by
  induction k, hjk using Nat.le_induction with
  | base => exact absurd hk hj
  | succ k hjk ih =>
    by_cases h : ((run crypto events k).tables.policy n).lists d
    · obtain ⟨i, hi, hik, hedits⟩ := ih h
      exact ⟨i, hi, by omega, hedits⟩
    · have hstep := gatewayStep crypto (wf_run crypto events k) (events k) (hroom k) n d
      obtain ⟨hedits, hsucceeds, -⟩ := hstep.enters h hk
      exact ⟨k, hjk, by omega, hedits, hsucceeds⟩

/-- The history of the gateway `d` of `n` in a run. -/
structure GatewayConsent (events : ℕ → Event) (n : NetworkId) (d : DeviceId) : Prop where
  step : ∀ k, GatewayStep crypto n d (run crypto events k) (events k) (run crypto events (k + 1))
  /-- Who was not listed has asked since, successfully. -/
  fresh_request : ∀ j k, j ≤ k → ¬ ((run crypto events j).tables.policy n).lists d →
    ((run crypto events k).tables.policy n).lists d →
    ∃ i, j ≤ i ∧ i < k ∧ (events i).Edits n .requestGateway d ∧ (run crypto events i).succeeds crypto (events i)

/-- Gateways consent, in every run whose accepted edits find room in the
counters. -/
theorem gateway_consent (events : ℕ → Event) (hroom : ∀ k, (run crypto events k).HasRoom (events k)) (n : NetworkId)
    (d : DeviceId) : GatewayConsent crypto events n d where
  step k := gatewayStep crypto (wf_run crypto events k) (events k) (hroom k) n d
  fresh_request _ _ hjk hj hk := requested_since crypto hroom hjk hj hk

/-! ## A network of one device

The owner turns management on and asks to be a gateway, without cryptography.
Announcing its capability first, `2 ^ 64 - 3` times, uses up the peer-state
revision, and then the request is stored but not answered. -/

def soleOwner : DeviceId := 1

def soleNetwork : NetworkId := 7

def noCrypto : Crypto where
  sha256 _ := 0
  scrypt _ _ := none
  verifySignature _ _ _ := false

def soleInputs : Inputs := { networkIds := fun _ => .ok soleNetwork }

def announcing : Event := .call (.setManagementCapable soleOwner true) soleInputs

def requesting : Event :=
  .call (.manageNetwork soleOwner { action := .requestGateway, networkId := soleNetwork, policy := { revision := 1 } } 0)
    soleInputs

def consenting : ℕ → Event
  | 0 => .call (.createNetwork soleOwner ⟨text "lan"⟩ 0) soleInputs
  | 1 => announcing
  | 2 => .call (.manageNetwork soleOwner
      { action := .replacePolicy, networkId := soleNetwork, policy := { managed := true } } 0) soleInputs
  | 3 => requesting
  | _ => .restart

def exhausting : ℕ → Event := repeating consenting 3 announcing (2 ^ 64 - 3) fun _ => requesting

theorem consenting_hasRoom (k : ℕ) : (run noCrypto consenting k).HasRoom (consenting k) := by
  intro actor q t inputs owner next he _
  match k with
  | 0 | 1 => cases he
  | 2 =>
    cases he
    exact ⟨by decide +kernel, by decide +kernel⟩
  | 3 =>
    cases he
    exact ⟨by decide +kernel, by decide +kernel⟩
  | k + 4 => cases he

theorem gateway_consent_sole : ((run noCrypto consenting 4).tables.policy soleNetwork).lists soleOwner ∧
    GatewayConsent noCrypto consenting soleNetwork soleOwner :=
  ⟨by decide +kernel, gateway_consent noCrypto consenting consenting_hasRoom soleNetwork soleOwner⟩

theorem consenting_networks : (run noCrypto consenting 3).store.listNetworksForDevice soleOwner =
    .ok [{ id := soleNetwork, name := text "lan", ownerDeviceId := soleOwner, createdAtMs := 0 }] := by
  decide +kernel

theorem run_exhausting : run noCrypto exhausting (2 ^ 64) =
    (run noCrypto consenting 3).withRevision soleNetwork uint64Max := by
  have hmanaged : ((run noCrypto consenting 3).tables.policy soleNetwork).managed := by decide +kernel
  have hcapable : soleOwner ∈ (run noCrypto consenting 3).managementCapable := by decide +kernel
  exact run_repeating noCrypto soleInputs (fun _ => requesting) consenting_networks hmanaged hcapable
    (show 2 ^ 64 - 4 < 2 ^ 64 - 1 by norm_num) (by decide +kernel)

/-- The request that was stored was not answered with a success. -/
theorem gateway_without_success : ¬ GatewayConsent noCrypto exhausting soleNetwork soleOwner := by
  intro h
  have hstep := h.step (2 ^ 64)
  rw [run_succ, run_exhausting, show exhausting (2 ^ 64) = requesting from rfl] at hstep
  have hfail := (hstep.enters (by decide +kernel) (by decide +kernel)).2.1
  exact absurd hfail (by decide +kernel)

end Service

end LanLink
