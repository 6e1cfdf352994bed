import LanLink.Relay.Policies
/-!
# Roles

A role changes only at the owner's hand, or falls back to `member` when its
device goes away; `restricted` does not even fall back.
-/
open LanLink.Lib

namespace LanLink

open Db (MemberRow)

/-! ## Roles of an edited or pruned policy -/

theorem policyRole_of_mem {p : NetworkPolicy} (h : (p.members.map (·.device)).Nodup) {m : MemberPolicy}
    (hm : m ∈ p.members) : policyRole p m.device = m.role := by
  have hfind : p.members.find? (·.device = m.device) = some m := by
    obtain ⟨m', hm'⟩ : ∃ m', p.members.find? (·.device = m.device) = some m' := by
      rw [← Option.isSome_iff_exists, List.find?_isSome]
      exact ⟨m, hm, by simp⟩
    have heq : m'.device = m.device := by simpa using List.find?_some hm'
    rw [hm', List.inj_on_of_nodup_map h (List.mem_of_find?_eq_some hm') hm heq]
  rw [policyRole, hfind]

theorem policyRole_of_not_mem {p : NetworkPolicy} {d : DeviceId} (h : ∀ m ∈ p.members, m.device ≠ d) :
    policyRole p d = .member := by
  have hfind : p.members.find? (·.device = d) = none := by
    rw [List.find?_eq_none]
    exact fun m hm => by simpa using h m hm
  rw [policyRole, hfind]

/-- The two comparisons of `manage_network` leave no role changed. -/
theorem policyRole_eq_of_roles {p q : NetworkPolicy} (hq : (q.members.map (·.device)).Nodup)
    (hp : (p.members.map (·.device)).Nodup) (hnext : ∀ m ∈ q.members, m.role = policyRole p m.device)
    (hcurrent : ∀ m ∈ p.members, m.role = policyRole q m.device) (d : DeviceId) : policyRole q d = policyRole p d := by
  by_cases hmem : ∃ m ∈ q.members, m.device = d
  · obtain ⟨m, hm, rfl⟩ := hmem
    rw [policyRole_of_mem hq hm, hnext m hm]
  by_cases hmem' : ∃ m ∈ p.members, m.device = d
  · obtain ⟨m, hm, rfl⟩ := hmem'
    rw [policyRole_of_mem hp hm, hcurrent m hm]
  · rw [policyRole_of_not_mem (by simpa using hmem), policyRole_of_not_mem (by simpa using hmem')]

theorem policyRole_prunedPolicy {p : NetworkPolicy} (h : Encodable p) (d e : DeviceId) :
    policyRole (prunedPolicy d p) e =
      if e = d ∧ policyRole p d ≠ .restricted then .member else policyRole p e := by
  have hmembers := members_prunedPolicy d p
  have hnodup := h.members.2
  have hnodup' : ((prunedPolicy d p).members.map (·.device)).Nodup := (h.pruned d).members.2
  by_cases hmem : ∃ m ∈ p.members, m.device = e
  · obtain ⟨m, hm, rfl⟩ := hmem
    by_cases hgone : m.device = d ∧ m.role ≠ .restricted
    · -- the entry is dropped, and no other names the device
      rw [if_pos ⟨hgone.1, by rw [← hgone.1, policyRole_of_mem hnodup hm]; exact hgone.2⟩]
      refine policyRole_of_not_mem fun m' hm' heq => ?_
      rw [hmembers, List.mem_filter] at hm'
      have hsame := List.inj_on_of_nodup_map hnodup hm'.1 hm heq
      subst hsame
      simp [hgone.1, hgone.2] at hm'
    · have hkept : m ∈ (prunedPolicy d p).members := by
        rw [hmembers, List.mem_filter]
        refine ⟨hm, ?_⟩
        simp only [ne_eq, decide_not, Bool.not_and, Bool.not_not, Bool.or_eq_true, Bool.not_eq_true',
          decide_eq_false_iff_not, decide_eq_true_eq]
        tauto
      rw [policyRole_of_mem hnodup' hkept, policyRole_of_mem hnodup hm, if_neg]
      rintro ⟨hd, hr⟩
      rw [← hd, policyRole_of_mem hnodup hm] at hr
      exact hgone ⟨hd, hr⟩
  · have hnone : ∀ m ∈ p.members, m.device ≠ e := by simpa using hmem
    rw [policyRole_of_not_mem hnone, ite_self]
    refine policyRole_of_not_mem fun m hm => ?_
    rw [hmembers] at hm
    exact hnone m (List.mem_of_mem_filter hm)

/-! ## Steps -/

/-- The step is a call made for the owner of `n`. -/
def Service.ownerStep (s : Service) (e : Event) (n : NetworkId) : Prop :=
  ∃ op inputs, e = .call op inputs ∧ s.tables.owner n = some op.actor

/-- The step is a `replace_policy` request of the owner of `n`. -/
def Service.ownerReplaces (s : Service) (e : Event) (n : NetworkId) : Prop :=
  ∃ owner q t inputs, e = .call (.manageNetwork owner q t) inputs ∧ q.action = .replacePolicy ∧ q.networkId = n ∧
    s.tables.owner n = some owner

def Service.role (s : Service) (n : NetworkId) (d : DeviceId) : AccessRole := policyRole (s.tables.policy n) d

/-- What a step may do to the role of `d` in `n`. -/
structure RoleStep (n : NetworkId) (d : DeviceId) (s : Service) (e : Event) (s' : Service) : Prop where
  /-- Only the owner changes the role of a device that stays. -/
  kept : ¬ s.ownerStep e n → ((n, d) ∈ s.tables.memberships → (n, d) ∈ s'.tables.memberships) → s'.role n d = s.role n d
  /-- A device that goes away keeps `restricted` and loses any other role. -/
  removed : ¬ s.ownerStep e n → (n, d) ∈ s.tables.memberships → (n, d) ∉ s'.tables.memberships →
    e.Removes n d ∧ s'.role n d = if s.role n d = .restricted then .restricted else .member
  /-- Only the owner turns management on or off. -/
  managed : ¬ s.ownerStep e n → (s'.tables.policy n).managed = (s.tables.policy n).managed
  /-- Only the owner kicks an administrator. -/
  kick : ¬ s.ownerStep e n → (∃ actor t inputs, e = .call (.kickMember actor ⟨n, d⟩ t) inputs) →
    s.role n d = .administrator → (n, d) ∈ s.tables.memberships → (n, d) ∈ s'.tables.memberships
  /-- Only a `replace_policy` of the owner lifts a restriction. -/
  lifted : s.role n d = .restricted → s'.role n d ≠ .restricted → s.ownerReplaces e n

/-- A kick that is not the owner's does not hit an administrator. -/
theorem Departure.not_administrator {c : Core} {n : NetworkId} {d actor : DeviceId} {t : ℤ}
    (h : Departure c (.kickMember actor ⟨n, d⟩ t) n d) (hne : c.tables.owner n ≠ some actor) :
    policyRole (c.tables.policy n) d ≠ .administrator := by
  cases h with
  | removal h =>
    cases h with
    | leave hop _ => cases hop
    | kick _ _ admin => exact admin hne
  | revocation hop _ =>
    obtain ⟨-, _, hop⟩ := hop
    cases hop

/-- The roles of an edit that is not the owner's are those before. -/
theorem EditStep.roles {c : Core} {op : Op} {q : ManagementRequest} {owner : DeviceId} {next : NetworkPolicy}
    (h : EditStep c op q owner next) (hne : op.actor ≠ owner ∨ q.action ≠ .replacePolicy) (d : DeviceId) :
    policyRole next d = policyRole (c.tables.policy q.networkId) d ∧
      next.managed = (c.tables.policy q.networkId).managed := by
  obtain ⟨-, -, -, -, -, -, rfl⟩ | ⟨haction, hman, rfl⟩ := h.edit.requested
  · exact ⟨rfl, rfl⟩
  have hactor := hne.resolve_right (not_not.2 haction)
  obtain ⟨hmanaged, hnext, hcurrent⟩ := h.edit.roles hactor haction
  refine ⟨policyRole_eq_of_roles h.valid.members.2 (c.tables.encodable_policy _).members.2 hnext hcurrent d, ?_⟩
  obtain ⟨-, -, howner | ⟨hm, -⟩⟩ := hman
  · rw [h.howner, Option.some.injEq] at howner
    exact absurd howner.symm hactor
  · rw [hmanaged, hm]

theorem PolicyStep.managed {c c' : Core} {op : Op} {ok : Bool} {n : NetworkId} (h : PolicyStep c op ok n c')
    (hne : c.tables.owner n ≠ some op.actor) : (c'.tables.policy n).managed = (c.tables.policy n).managed := by
  cases h with
  | kept policy _ => rw [policy]
  | pruned _ _ policy _ =>
    rw [policy, managed_prunedPolicy]
  | edited network edit policy _ _ =>
    subst network
    rw [policy]
    exact (edit.roles (.inl fun h => hne (h ▸ edit.howner)) 0).2

namespace Service
variable (crypto : Crypto)

theorem roleStep {s : Service} (hw : s.tables.Wf) (e : Event) (n : NetworkId) (d : DeviceId) :
    RoleStep n d s e (s.step crypto e) := by
  cases e with
  | restart => exact ⟨fun _ _ => rfl, fun _ h h' => absurd h h', fun _ => rfl, fun _ _ _ => id, fun h h' => absurd h h'⟩
  | call op inputs =>
    have hnot (h : ¬ s.ownerStep (.call op inputs) n) : s.core.tables.owner n ≠ some op.actor :=
      fun ho => h ⟨op, inputs, rfl, ho⟩
    have hstep := (perform_effect crypto inputs op hw).policyStep hw n
    have hpolicy := hstep
    obtain ⟨policy, members⟩ | ⟨departure, member, policy, members⟩ | ⟨network, edit, policy, members, -⟩ := hstep
    · have hrole : (s.step crypto (.call op inputs)).role n d = s.role n d := congrArg (policyRole · d) policy
      exact ⟨fun _ _ => hrole, fun _ h h' => absurd (members d h) h', fun h => hpolicy.managed (hnot h),
        fun _ _ _ h => members d h, fun h h' => absurd (hrole.trans h) h'⟩
    · rename_i gone
      have hrole : (s.step crypto (.call op inputs)).role n d =
          if d = gone ∧ policyRole (s.core.tables.policy n) gone ≠ .restricted then .member else s.role n d := by
        rw [role, show (s.step crypto (.call op inputs)).tables.policy n = _ from policy,
          policyRole_prunedPolicy (s.core.tables.encodable_policy n)]
        rfl
      refine ⟨fun _ hstays => ?_, fun _ h h' => ?_, fun h => hpolicy.managed (hnot h), fun hne hkick hadmin h => ?_,
        fun h h' => ?_⟩
      · by_cases hd : d = gone
        · subst hd
          obtain ⟨row, hrow, -⟩ := member
          exact absurd rfl ((members d).1 (hstays (Map.mem_of_lookup hrow))).2
        · rw [hrole, if_neg fun h => hd h.1]
      · have hd : d = gone := by
          by_contra hd
          exact h' ((members d).2 ⟨h, hd⟩)
        subst hd
        refine ⟨departure.removes inputs, ?_⟩
        rw [hrole]
        by_cases hr : s.role n d = .restricted
        · rw [if_neg fun hc => hc.2 hr, if_pos hr, hr]
        · rw [if_pos ⟨rfl, hr⟩, if_neg hr]
      · -- an administrator is kicked by the owner only
        refine (members d).2 ⟨h, ?_⟩
        rintro rfl
        obtain ⟨actor, t, inputs', he⟩ := hkick
        obtain ⟨rfl, -⟩ := Event.call.inj he
        exact departure.not_administrator (hnot hne) hadmin
      · rw [hrole] at h'
        refine absurd ?_ h'
        rw [if_neg, h]
        rintro ⟨rfl, hr⟩
        exact hr h
    · subst network
      rename_i q owner next
      have hstays : (q.networkId, d) ∈ s.tables.memberships →
          (q.networkId, d) ∈ (s.step crypto (.call op inputs)).tables.memberships := fun h => members ▸ h
      have hrole (h : op.actor ≠ owner ∨ q.action ≠ .replacePolicy) :
          (s.step crypto (.call op inputs)).role q.networkId d = s.role q.networkId d := by
        rw [role, show (s.step crypto (.call op inputs)).tables.policy q.networkId = _ from policy]
        exact (edit.roles h d).1
      refine ⟨fun h _ => hrole (.inl ?_), fun _ h h' => absurd (hstays h) h', fun h => hpolicy.managed (hnot h),
        fun _ _ _ h => hstays h, fun h h' => ?_⟩
      · rintro rfl
        exact hnot h edit.howner
      · by_contra hno
        refine h' ((hrole ?_).trans h)
        by_contra hcon
        rw [not_or, not_not, not_not] at hcon
        obtain ⟨t, hop⟩ := edit.call
        refine hno ⟨op.actor, q, t, inputs, by rw [← hop], hcon.2, rfl, ?_⟩
        rw [hcon.1]
        exact edit.howner

/-- A restriction holds until the owner replaces the policy. -/
theorem restricted_until {events : ℕ → Event} {n : NetworkId} {d : DeviceId} {j k : ℕ} (hjk : j ≤ k)
    (hr : (run crypto events j).role n d = .restricted)
    (hno : ∀ i, j ≤ i → i < k → ¬ (run crypto events i).ownerReplaces (events i) n) :
    (run crypto events k).role n d = .restricted := by
  induction k, hjk using Nat.le_induction with
  | base => exact hr
  | succ k hjk ih =>
    have hk := ih fun i hi hik => hno i hi (by omega)
    by_contra hlifted
    exact hno k hjk (by omega) ((roleStep crypto (wf_run crypto events k) (events k) n d).lifted hk hlifted)

/-- Roles along every run: each step obeys `RoleStep`, and a restriction
outlives everything but a `replace_policy` of the owner. -/
theorem no_role_escalation (events : ℕ → Event) (n : NetworkId) (d : DeviceId) :
    (∀ k, RoleStep n d (run crypto events k) (events k)
      (run crypto events (k + 1))) ∧
    ∀ j k, j ≤ k → (run crypto events j).role n d = .restricted →
      (∀ i, j ≤ i → i < k → ¬ (run crypto events i).ownerReplaces (events i) n) →
      (run crypto events k).role n d = .restricted := by
  refine ⟨fun k => ?_, fun j k hjk hr hno => restricted_until crypto hjk hr hno⟩
  exact roleStep crypto (wf_run crypto events k) (events k) n d

end Service

end LanLink
