import LanLink.Relay.Runs
/-!
# What a step does to a policy

Seen from one network, a step keeps the policy, prunes it because a member went
away, or stores an accepted edit. Roles, gateways, routes and revisions of a
network are all decided by these three.
-/
open LanLink.Lib LanLink.Lib.Action

namespace LanLink

open Db (MemberRow)

/-- Every stored policy is encodable, and so is the default. -/
theorem Tables.encodable_policy (t : Tables) (n : NetworkId) : Encodable (t.policy n) := by
  unfold Tables.policy
  split
  · rename_i document _
    exact document.encodable
  · decide +kernel

/-- Why `d` ceases to be a member of `n`: it left, it was kicked, or it was
revoked. -/
inductive Departure (c : Core) (op : Op) (n : NetworkId) (d : DeviceId) : Prop
  | removal (h : Removal c op n d)
  | revocation {q : AccessRequest} (hop : op.Requests .deviceRevoke q) (device : q.deviceId = d)

/-- The step is a leave of `d`, a kick of `d` or a revocation of `d`. -/
def Event.Removes (n : NetworkId) (d : DeviceId) (e : Event) : Prop :=
  ∃ op inputs, e = .call op inputs ∧ ((∃ t, op = .leaveNetwork d ⟨n⟩ t) ∨ (∃ actor t, op = .kickMember actor ⟨n, d⟩ t) ∨
    ∃ actor q t, op = .accessRequest actor q t ∧ q.action = .deviceRevoke ∧ q.deviceId = d)

theorem Departure.removes {c : Core} {op : Op} {n : NetworkId} {d : DeviceId} (h : Departure c op n d)
    (inputs : Inputs) : Event.Removes n d (.call op inputs) := by
  refine ⟨op, inputs, rfl, ?_⟩
  cases h with
  | removal h =>
    cases h with
    | @leave t hop self => exact .inl ⟨t, self ▸ hop⟩
    | @kick t hop _ _ => exact .inr (.inl ⟨op.actor, t, hop⟩)
  | @revocation q hop device =>
    obtain ⟨haction, t, hop⟩ := hop
    exact .inr (.inr ⟨op.actor, q, t, hop, haction, device⟩)

/-- An edit of the policy of `n` to `next`, with every check made of it. -/
structure EditStep (c : Core) (op : Op) (q : ManagementRequest) (owner : DeviceId) (next : NetworkPolicy) : Prop where
  call : ∃ t, op = .manageNetwork op.actor q t
  howner : c.tables.owner q.networkId = some owner
  lease : (q.networkId, op.actor) ∈ c.tables.leases
  valid : Encodable q.policy
  edit : Edit c owner op.actor q (c.tables.policy q.networkId) next
  encodable : Encodable { next with revision := next.revision + 1 }
  bounded : (next.revision + 1).toNat < 2 ^ 63

inductive PolicyStep (c : Core) (op : Op) (ok : Bool) (n : NetworkId) (c' : Core) : Prop
  | kept (policy : c'.tables.policy n = c.tables.policy n)
      (members : ∀ d, (n, d) ∈ c.tables.memberships → (n, d) ∈ c'.tables.memberships)
  | pruned {d : DeviceId} (departure : Departure c op n d) (member : MemberRow c.tables n d)
      (policy : c'.tables.policy n = prunedPolicy d (c.tables.policy n))
      (members : ∀ e, (n, e) ∈ c'.tables.memberships ↔ (n, e) ∈ c.tables.memberships ∧ e ≠ d)
  | edited {q : ManagementRequest} {owner : DeviceId} {next : NetworkPolicy} (network : q.networkId = n)
      (edit : EditStep c op q owner next)
      (policy : c'.tables.policy n = { next with revision := next.revision + 1 })
      (members : c'.tables.memberships = c.tables.memberships)
      (room : ok = true ∨ c.EpochFull n ∨ c.RevisionFull n)

section
variable {crypto : Crypto} {c c' : Core} {op : Op} {ok : Bool} {n : NetworkId}

theorem Departed.policyStep {d : DeviceId} {gone : List NetworkId} {t : Tables} (h : Departed d gone t c'.tables)
    (hpolicies : t.policies = c.tables.policies) (hmemberships : t.memberships = c.tables.memberships)
    (hgone : n ∈ gone → MemberRow c.tables n d ∧ Departure c op n d) : PolicyStep c op ok n c' := by
  have hpolicy : t.policy n = c.tables.policy n := by simp only [Tables.policy, hpolicies]
  by_cases hn : n ∈ gone
  · refine .pruned (hgone hn).2 (hgone hn).1 ?_ fun e => ?_
    · rw [h.policy, if_pos hn, hpolicy]
    · rw [h.mem, hmemberships]
      simp [hn]
  · refine .kept ?_ fun e he => ?_
    · rw [h.policy, if_neg hn, hpolicy]
    · rw [h.mem, hmemberships]
      simp [hn, he]

theorem Advanced.room {c₀ : Core} (h : Advanced n ok c₀ c') (hlive : c₀.toLive = c.toLive) :
    ok = true ∨ c.EpochFull n ∨ c.RevisionFull n := by
  have hkeys : c₀.keyEpochs = c.keyEpochs := congrArg Live.keyEpochs hlive
  have hrevs : c₀.revisions = c.revisions := congrArg Live.revisions hlive
  cases h with
  | epochFull h => exact .inr (.inl (by rwa [Core.EpochFull, ← hkeys]))
  | revisionFull _ h => exact .inr (.inr (by rwa [Core.RevisionFull, ← hrevs]))
  | done _ _ => exact .inl rfl

/-- Every call does one of the three. -/
theorem Effect.policyStep (h : Effect crypto c op ok c') (hw : c.tables.Wf) (n : NetworkId) :
    PolicyStep c op ok n c' := by
  have hkept (hp : c'.tables.policies = c.tables.policies)
      (hm : ∀ key, key ∈ c.tables.memberships → key ∈ c'.tables.memberships) : PolicyStep c op ok n c' := by
    refine .kept ?_ fun d => hm (n, d)
    simp only [Tables.policy, hp]
  cases h with
  | quiet _ => exact hkept rfl fun _ => id
  | created password _ _ _ _ _ _ _ advanced =>
    refine hkept ?_ fun key hkey => ?_
    · rw [advanced.tables]
      cases password <;> rfl
    · rw [advanced.tables]
      cases password <;> simp [Tables.create, hkey]
  | joined _ _ _ advanced =>
    refine hkept (by rw [advanced.tables]; rfl) fun key hkey => ?_
    rw [advanced.tables]
    simp [hkey]
  | redeemJoined _ _ _ advanced =>
    refine hkept (by rw [advanced.tables]; rfl) fun key hkey => ?_
    rw [advanced.tables]
    simp [hkey]
  | left removal member advanced =>
    rename_i m d
    have hleave : Departed d [m] c.tables c'.tables := by
      rw [advanced.tables]
      exact .leave hw member
    refine hleave.policyStep rfl rfl fun hn => ?_
    rw [List.mem_singleton.1 hn]
    exact ⟨member, .removal removal⟩
  | edited hop howner lease valid edit encodable bounded advanced =>
    rename_i owner q t next
    by_cases hn : q.networkId = n
    · subst hn
      refine .edited rfl ⟨⟨t, hop⟩, howner, lease, valid, edit, encodable, bounded⟩ ?_ ?_ ?_
      · rw [advanced.tables, Core.withTables_tables, Tables.policy_savePolicy, if_pos rfl]
      · rw [advanced.tables]
        rfl
      · exact advanced.room rfl
    · refine .kept ?_ fun d hd => ?_
      · rw [advanced.tables, Core.withTables_tables, Tables.policy_savePolicy, if_neg (Ne.symm hn)]
      · rw [advanced.tables]
        exact hd
  | revoked hop owns networksOf notOwner purged =>
    have hdeparted := purged.departed (hw.change (owns.change hw)) networksOf.nodup
    refine Departed.policyStep (c := c) hdeparted rfl rfl fun hn => ?_
    exact ⟨memberRow_of_mem hw ((networksOf.mem n).1 hn) (notOwner n), .revocation hop rfl⟩
  | revokeStopped hop owns networksOf notOwner purged stopped =>
    obtain ⟨gone, hgone, hdeparted⟩ := stopped.departed (hw.change (owns.change hw)) networksOf.nodup purged
    refine Departed.policyStep (c := c) hdeparted rfl rfl fun hn => ?_
    exact ⟨memberRow_of_mem hw ((networksOf.mem n).1 (hgone n hn)) (notOwner n), .revocation hop rfl⟩
  | keyPublished _ _ ticked => exact hkept (by rw [ticked.tables]) (by rw [ticked.tables]; exact fun _ => id)
  | keyRemoved _ ticked => exact hkept (by rw [ticked.tables]) (by rw [ticked.tables]; exact fun _ => id)
  | capableSet _ ticked => exact hkept (by rw [ticked.tables]) (by rw [ticked.tables]; exact fun _ => id)
  | _ => exact hkept rfl fun _ => id

/-- Networks stay, with their owner. -/
theorem Effect.owner (h : Effect crypto c op ok c') (hw : c.tables.Wf) {owner : DeviceId}
    (ho : c.tables.owner n = some owner) : c'.tables.owner n = some owner := by
  have hsame (hn : c'.tables.networks = c.tables.networks) : c'.tables.owner n = some owner := by
    rw [← ho]
    simp only [Tables.owner, hn]
  cases h with
  | quiet _ => exact ho
  | @created _ _ m _ _ _ password _ _ _ fresh _ _ _ advanced =>
    have hne : n ≠ m := by
      rintro rfl
      exact fresh (Tables.mem_networks_of_owner ho)
    rw [← ho, advanced.tables]
    cases password <;> simp [Tables.owner, Tables.create, hne]
  | joined _ _ _ advanced => exact hsame (by rw [advanced.tables]; rfl)
  | redeemJoined _ _ _ advanced => exact hsame (by rw [advanced.tables]; rfl)
  | left _ _ advanced => exact hsame (by rw [advanced.tables]; rfl)
  | edited _ _ _ _ _ _ _ advanced => exact hsame (by rw [advanced.tables]; rfl)
  | revoked _ owns networksOf _ purged =>
    exact hsame (purged.departed (hw.change (owns.change hw)) networksOf.nodup).networks
  | revokeStopped _ owns networksOf _ purged stopped =>
    obtain ⟨gone, -, hdeparted⟩ := stopped.departed (hw.change (owns.change hw)) networksOf.nodup purged
    exact hsame hdeparted.networks
  | keyPublished _ _ ticked => exact hsame (by rw [ticked.tables])
  | keyRemoved _ ticked => exact hsame (by rw [ticked.tables])
  | capableSet _ ticked => exact hsame (by rw [ticked.tables])
  | _ => exact hsame rfl

end

/-! ## Edits that run out of counters -/

/-- The step is the request `q` of `actor` about the policy of `n`. -/
def Event.Manages (n : NetworkId) (actor : DeviceId) (q : ManagementRequest) (e : Event) : Prop :=
  q.networkId = n ∧ ∃ t inputs, e = .call (.manageNetwork actor q t) inputs

/-- An edit that the step accepts finds room in both counters of its network. -/
def Service.HasRoom (s : Service) (e : Event) : Prop :=
  ∀ actor q t inputs owner next, e = .call (.manageNetwork actor q t) inputs → s.Accepts actor q owner next →
    ¬ s.core.EpochFull q.networkId ∧ ¬ s.core.RevisionFull q.networkId

/-- `perform` reports what `manage_network` does. -/
theorem Service.manage_effect (crypto : Crypto) {s : Service} (hw : s.tables.Wf) (actor : DeviceId)
    (q : ManagementRequest) (t : ℤ) (inputs : Inputs) :
    ManageEffect s actor q (s.succeeds crypto (.call (.manageNetwork actor q t) inputs))
      (s.step crypto (.call (.manageNetwork actor q t) inputs)).core :=
  post_reply (f := Reply.management) ManagementOutcome.code (P := fun ok c' => ManageEffect s actor q ok c')
    (fun _ => rfl) (manageNetwork_effect inputs hw)

/-- With room, an edit that does not succeed changes nothing. -/
theorem Service.core_eq_of_not_succeeds {crypto : Crypto} {s : Service} (hw : s.tables.Wf) {actor : DeviceId}
    {q : ManagementRequest} {t : ℤ} {inputs : Inputs} (hroom : s.HasRoom (.call (.manageNetwork actor q t) inputs))
    (hfail : s.succeeds crypto (.call (.manageNetwork actor q t) inputs) = false) :
    (s.step crypto (.call (.manageNetwork actor q t) inputs)).core = s.core := by
  have h := manage_effect crypto hw actor q t inputs
  rw [hfail] at h
  generalize (s.step crypto (.call (.manageNetwork actor q t) inputs)).core = c' at h ⊢
  cases h with
  | none _ => rfl
  | edited accepts advanced =>
    obtain ⟨hepoch, hrevision⟩ := hroom actor q t inputs _ _ rfl accepts
    obtain h | h | h := advanced.room (c := s.core) rfl
    · cases h
    · exact absurd h hepoch
    · exact absurd h hrevision

def Service.withRevision (s : Service) (n : NetworkId) (r : UInt64) : Service :=
  { s with revisions := s.revisions.insert n r }

/-- Announcing a capability moves the revision of the one managed network of
`actor` on. -/
theorem Service.step_setManagementCapable (crypto : Crypto) {s : Service} {actor : DeviceId} {network : NetworkRecord} (inputs : Inputs)
    (hw : s.tables.Wf) (hnets : s.store.listNetworksForDevice actor = .ok [network])
    (hmanaged : (s.tables.policy network.id).managed) (hcapable : actor ∈ s.managementCapable)
    (hroom : ¬ s.core.RevisionFull network.id) :
    s.step crypto (.call (.setManagementCapable actor true) inputs) =
      s.withRevision network.id (s.revisions.getD network.id 0 + 1) := by
  have hn : network.id ∈ s.tables.networks := by
    obtain ⟨row, hrow, -⟩ := (Db.mem_listNetworksForDevice (r := network) hnets).1 (by simp)
    exact Map.mem_of_lookup hrow
  have hsame : ({ s with managementCapable := insert actor s.managementCapable } : Service) = s := by
    rw [Finset.insert_eq_of_mem hcapable]
  have hpost : Post (perform crypto inputs (.setManagementCapable actor true)) s (fun _ s' =>
      s' = s.withRevision network.id (s.revisions.getD network.id 0 + 1)) := by
    rw [perform, reply, setManagementCapable, post_bind, post_bind, post_modify]
    dsimp only
    rw [if_pos rfl, hsame]
    refine post_read (fun networks h => ?_) fun e h => ?_
    · rw [hnets, Except.ok.injEq] at h
      subst h
      rw [collect, post_bind, post_gets_bind, if_pos (show (s.store.networkPolicy network.id).managed = true from hmanaged)]
      have hchanges := post_advancedChanges (s := s) (k := fun changes => pure changes) (Q := fun r s' =>
        (∃ xs, r = .ok xs) ∧ s' = s.withRevision network.id (s.revisions.getD network.id 0 + 1)) hw hn
        (fun hf => absurd hf hroom) fun _ changes => ⟨⟨changes, rfl⟩, rfl⟩
      rw [post_bind] at hchanges
      refine hchanges.mono fun r s' h => ?_
      cases r with
      | ok xs =>
        obtain ⟨-, rfl⟩ := h
        rfl
      | error e =>
        obtain ⟨⟨xs, h⟩, -⟩ := h
        cases h
    · rw [hnets] at h
      cases h
  exact hpost

/-- So the revision can be brought to any value. -/
theorem Service.repeat_setManagementCapable (crypto : Crypto) {s : Service} {actor : DeviceId} {network : NetworkRecord}
    (inputs : Inputs) (hw : s.tables.Wf) (hnets : s.store.listNetworksForDevice actor = .ok [network])
    (hmanaged : (s.tables.policy network.id).managed) (hcapable : actor ∈ s.managementCapable) {r j : ℕ}
    (hj : r + j < 2 ^ 64) :
    (fun s => step crypto s (.call (.setManagementCapable actor true) inputs))^[j]
        (s.withRevision network.id (UInt64.ofNat r)) = s.withRevision network.id (UInt64.ofNat (r + j)) := by
  induction j with
  | zero => rfl
  | succ j ih =>
    have hroom : ¬ (s.withRevision network.id (UInt64.ofNat (r + j))).core.RevisionFull network.id := by
      rw [Core.RevisionFull, show (s.withRevision network.id (UInt64.ofNat (r + j))).core.revisions =
        s.revisions.insert network.id (UInt64.ofNat (r + j)) from rfl, Map.getD_insert_self, ← UInt64.toNat_inj,
        UInt64.toNat_ofNat', Nat.mod_eq_of_lt (by omega)]
      change ¬ r + j = 2 ^ 64 - 1
      omega
    have hstep := step_setManagementCapable crypto (s := s.withRevision network.id (UInt64.ofNat (r + j)))
      inputs hw hnets hmanaged hcapable hroom
    rw [Function.iterate_succ_apply', ih (by omega), hstep]
    simp only [withRevision, Map.getD_insert_self, AList.insert_insert]
    rw [← add_assoc, UInt64.ofNat_add (r + j) 1]
    rfl

/-- `m` events of `setup`, then `e` for `j` times, then `rest`. -/
def repeating (setup : ℕ → Event) (m : ℕ) (e : Event) (j : ℕ) (rest : ℕ → Event) (k : ℕ) : Event :=
  if k < m then setup k else if k < m + j then e else rest (k - (m + j))

/-- A run that announces a capability until the revision is used up. -/
theorem Service.run_repeating (crypto : Crypto) (inputs : Inputs) {setup : ℕ → Event} (rest : ℕ → Event) {m j : ℕ}
    {actor : DeviceId} {network : NetworkRecord}
    (hnets : (run crypto setup m).store.listNetworksForDevice actor = .ok [network])
    (hmanaged : ((run crypto setup m).tables.policy network.id).managed)
    (hcapable : actor ∈ (run crypto setup m).managementCapable) (hj : j < 2 ^ 64 - 1)
    (hrevision : (run crypto setup m).revisions.getD network.id 0 = UInt64.ofNat (2 ^ 64 - 2 - j)) :
    run crypto (repeating setup m (.call (.setManagementCapable actor true) inputs) (j + 1) rest) (m + (j + 1)) =
      (run crypto setup m).withRevision network.id uint64Max := by
  have hw := wf_run crypto setup m
  have hsetup : run crypto (repeating setup m (.call (.setManagementCapable actor true) inputs) (j + 1) rest) m =
      run crypto setup m := states_congr fun i hi => by rw [repeating, if_pos hi]
  have hroom : ¬ (run crypto setup m).core.RevisionFull network.id := by
    rw [Core.RevisionFull, show (run crypto setup m).core.revisions = (run crypto setup m).revisions from rfl, hrevision,
      ← UInt64.toNat_inj, UInt64.toNat_ofNat', Nat.mod_eq_of_lt (by omega)]
    change ¬ 2 ^ 64 - 2 - j = 2 ^ 64 - 1
    omega
  have hfirst := step_setManagementCapable crypto inputs hw hnets hmanaged hcapable hroom
  have hnext : UInt64.ofNat (2 ^ 64 - 2 - j) + 1 = UInt64.ofNat (2 ^ 64 - 2 - j + 1) := (UInt64.ofNat_add _ 1).symm
  rw [hrevision, hnext] at hfirst
  rw [run, states_iterate m fun k hm hk => by rw [repeating, if_neg (by omega), if_pos hk], Function.iterate_succ_apply]
  rw [show states (step crypto) (fresh {}) _ m = _ from hsetup, hfirst,
    repeat_setManagementCapable crypto inputs hw hnets hmanaged hcapable (by omega),
    show 2 ^ 64 - 2 - j + 1 + j = 2 ^ 64 - 1 by omega]
  rfl

end LanLink
