import LanLink.Relay.Runs
/-!
# Counters and keys belong to somebody

Two small invariants of every run. Counters are kept for networks that exist,
so a new network starts with fresh ones. The zero device is nobody: no call
that is made for it gets past the first check, so it is no member, asks for
nothing and has no key.
-/
open LanLink.Lib LanLink.Lib.Action

namespace LanLink

structure Core.Grounded (c : Core) : Prop where
  revisions : ∀ n, n ∈ c.revisions → n ∈ c.tables.networks
  epochs : ∀ n, n ∈ c.keyEpochs → n ∈ c.tables.networks
  members : ∀ n, (n, 0) ∉ c.tables.memberships
  requests : ∀ n, (n, 0) ∉ c.tables.joinRequests
  keys : 0 ∉ c.activeKeys

/-! ## Counters -/

section
variable {C : NetworkId → Prop} {m m' : Map NetworkId UInt64} {n : NetworkId} {c c' : Core}

theorem Counted.mem (h : Counted C m m') (hn : n ∈ m') : n ∈ m ∨ C n := by
  obtain hsame | ⟨hc, -⟩ := h n
  · left
    rwa [Map.mem_iff_lookup, ← hsame, ← Map.mem_iff_lookup]
  · exact .inr hc

theorem Counted.getD_le (h : Counted C m m') (n : NetworkId) : m.getD n 0 ≤ m'.getD n 0 := by
  obtain hsame | ⟨-, v, hv, hlt⟩ := h n
  · rw [Map.getD, Map.getD, hsame]
    exact UInt64.le_refl _
  · have hget : m'.getD n 0 = v := by rw [Map.getD, hv, Option.getD_some]
    rw [hget]
    exact UInt64.le_of_lt hlt

/-- A counter of a network that does not exist is not used up. -/
theorem Core.Grounded.fresh (hg : c.Grounded) (hn : n ∉ c.tables.networks) :
    ¬ c.EpochFull n ∧ ¬ c.RevisionFull n := by
  have hepoch : c.keyEpochs.lookup n = none := AList.lookup_eq_none.2 fun h => hn (hg.epochs n h)
  have hrevision : c.revisions.lookup n = none := AList.lookup_eq_none.2 fun h => hn (hg.revisions n h)
  refine ⟨?_, ?_⟩
  · rw [Core.EpochFull, Map.getD, hepoch]
    decide
  · rw [Core.RevisionFull, Map.getD, hrevision]
    decide

end

/-! ## Effects -/

section
variable {crypto : Crypto} {c c' : Core} {op : Op} {ok : Bool}

/-- What the live part says of counters and keys is in order once the tables are. -/
theorem Core.Grounded.of_live (hg : c.Grounded) (networks : ∀ n, n ∈ c.tables.networks → n ∈ c'.tables.networks)
    (revisions : Counted (· ∈ c'.tables.networks) c.revisions c'.revisions)
    (epochs : Counted (· ∈ c'.tables.networks) c.keyEpochs c'.keyEpochs)
    (members : ∀ n, (n, 0) ∉ c'.tables.memberships) (requests : ∀ n, (n, 0) ∉ c'.tables.joinRequests)
    (keys : 0 ∉ c'.activeKeys) : c'.Grounded where
  revisions n hn := (revisions.mem hn).elim (fun h => networks n (hg.revisions n h)) id
  epochs n hn := (epochs.mem hn).elim (fun h => networks n (hg.epochs n h)) id
  members := members
  requests := requests
  keys := keys

/-- New tables, and the counters of one of their networks moved. -/
theorem Core.Grounded.advanced {t : Tables} {n : NetworkId} (hg : c.Grounded) (advanced : Advanced n ok (c.withTables t) c')
    (networks : ∀ n, n ∈ c.tables.networks → n ∈ t.networks) (network : n ∈ t.networks)
    (members : ∀ n, (n, 0) ∉ t.memberships) (requests : ∀ n, (n, 0) ∉ t.joinRequests) : c'.Grounded := by
  have htables : c'.tables = t := advanced.tables
  have hticked := advanced.ticked
  have hmem (m : NetworkId) (hm : m = n) : m ∈ c'.tables.networks := by
    rw [hm, htables]
    exact network
  refine hg.of_live (fun m hm => ?_) (hticked.revisions.mono hmem) (hticked.epochs.mono hmem) ?_ ?_ ?_
  · rw [htables]
    exact networks m hm
  · rwa [htables]
  · rwa [htables]
  · rw [hticked.activeKeys]
    exact hg.keys

theorem Core.Grounded.withTables {t : Tables} (hg : c.Grounded) (networks : ∀ n, n ∈ c.tables.networks → n ∈ t.networks)
    (members : ∀ n, (n, 0) ∉ t.memberships) (requests : ∀ n, (n, 0) ∉ t.joinRequests) : (c.withTables t).Grounded :=
  hg.of_live networks (.refl _) (.refl _) members requests hg.keys

theorem Core.Grounded.ticked {c₁ : Core} {E R : NetworkId → Prop} (hg : c₁.Grounded) (h : Ticked E R c₁ c')
    (hE : ∀ n, E n → n ∈ c₁.tables.networks) (hR : ∀ n, R n → n ∈ c₁.tables.networks) : c'.Grounded := by
  refine hg.of_live (fun n hn => ?_) (h.revisions.mono ?_) (h.epochs.mono ?_) ?_ ?_ ?_
  · rwa [h.tables]
  · rwa [h.tables]
  · rwa [h.tables]
  · rw [h.tables]
    exact hg.members
  · rw [h.tables]
    exact hg.requests
  · rw [h.activeKeys]
    exact hg.keys

theorem Purged.grounded {d : DeviceId} {networks : List NetworkId} (h : Purged d networks c c') (hw : c.tables.Wf)
    (hg : c.Grounded) : c'.Grounded := by
  induction h with
  | nil => exact hg
  | @cons n networks c c₁ c' member advanced rest ih =>
    have hn : n ∈ c.tables.networks := by
      obtain ⟨row, hrow, -⟩ := member
      exact hw.owned.member_network n d (Map.mem_of_lookup hrow)
    refine ih ?_ (hg.advanced advanced (fun _ h => h) hn (fun m hm => hg.members m ?_) hg.requests)
    · rw [advanced.tables]
      exact hw.change (.leave member)
    · exact (AList.mem_erase.1 hm).2

theorem Stopped.grounded {n : NetworkId} {d : DeviceId} (h : Stopped n d c c') (hw : c.tables.Wf) (hg : c.Grounded) :
    c'.Grounded := by
  cases h with
  | policy _ _ => exact hg
  | counter member advanced =>
    obtain ⟨row, hrow, -⟩ := member
    have hn : n ∈ c.tables.networks := hw.owned.member_network n d (Map.mem_of_lookup hrow)
    refine hg.advanced advanced (fun _ h => h) hn (fun m hm => hg.members m ?_) hg.requests
    exact (AList.mem_erase.1 hm).2

theorem Admission.nonzero {n : NetworkId} {d : DeviceId} (h : Admission crypto c op n d) (hactor : op.actor ≠ 0)
    (hg : c.Grounded) : d ≠ 0 := by
  cases h with
  | invited _ self _ => rwa [self]
  | password _ _ self _ _ _ => rwa [self]
  | approved _ _ request =>
    rintro rfl
    exact hg.requests n request

theorem Effect.grounded (h : Effect crypto c op ok c') (hw : c.tables.Wf) (hactor : op.actor ≠ 0) (hg : c.Grounded) :
    c'.Grounded := by
  -- a new row of a device that is not the zero device
  have hinsert {V : Type} {rows : Map (NetworkId × DeviceId) V} {n : NetworkId} {d : DeviceId} (v : V) (hd : d ≠ 0)
      (hrows : ∀ m, (m, 0) ∉ rows) (m : NetworkId) : (m, 0) ∉ rows.insert (n, d) v := by
    rw [AList.mem_insert, not_or]
    exact ⟨fun heq => hd (congrArg Prod.snd heq).symm, hrows m⟩
  have herase {rows : Map (NetworkId × DeviceId) ℤ} {key : NetworkId × DeviceId} (hrows : ∀ m, (m, 0) ∉ rows)
      (m : NetworkId) : (m, 0) ∉ rows.erase key := fun hm => hrows m (AList.mem_erase.1 hm).2
  cases h with
  | quiet _ => exact hg
  | @created _ _ n network base a password _ owner _ _ _ _ _ advanced =>
    have hnetwork : n ∈ (c.tables.create n network base a password).networks := by simp
    refine hg.advanced advanced (fun m hm => ?_) hnetwork ?_ ?_
    · rw [Tables.create_networks, AList.mem_insert]
      exact .inr hm
    · rw [Tables.create_memberships]
      exact hinsert _ (by rwa [owner]) hg.members
    · rw [Tables.create_joinRequests]
      exact herase hg.requests
  | @joined _ _ n d a atMs admission joinable advanced =>
    refine hg.advanced advanced (fun m hm => hm) joinable.network ?_ ?_
    · exact hinsert _ (admission.nonzero hactor hg) hg.members
    · exact herase hg.requests
  | requested atMs _ _ _ _ => exact hg.withTables (fun _ h => h) hg.members (hinsert _ hactor hg.requests)
  | redeemed redemption => exact hg.withTables (fun _ h => h) hg.members (herase hg.requests)
  | redeemJoined joinedAtMs redemption joinable advanced =>
    refine hg.advanced advanced (fun m hm => hm) joinable.network ?_ ?_
    · exact hinsert _ hactor hg.members
    · exact herase (herase hg.requests)
  | left _ member advanced =>
    obtain ⟨row, hrow, -⟩ := member
    have hn := hw.owned.member_network _ _ (Map.mem_of_lookup hrow)
    refine hg.advanced advanced (fun m hm => hm) hn (fun m hm => hg.members m ?_) hg.requests
    exact (AList.mem_erase.1 hm).2
  | edited _ howner _ _ _ _ _ advanced =>
    exact hg.advanced advanced (fun m hm => hm) (Tables.mem_networks_of_owner howner) hg.members hg.requests
  | revoked _ owns _ _ purged =>
    have hwr := hw.change (owns.change hw)
    have hp := purged.grounded hwr (hg.withTables (fun _ h => h) hg.members hg.requests)
    exact ⟨hp.revisions, hp.epochs, hp.members, hp.requests, fun h => hp.keys (AList.mem_erase.1 h).2⟩
  | revokeStopped _ owns networksOf _ purged stopped =>
    have hwr := hw.change (owns.change hw)
    have hp := purged.grounded hwr (hg.withTables (fun _ h => h) hg.members hg.requests)
    exact stopped.grounded (purged.departed hwr (List.nodup_append.1 networksOf.nodup).1).wf hp
  | keyPublished _ _ ticked =>
    refine Core.Grounded.ticked ?_ ticked (fun n hn => Tables.mem_networks_of_owner hn)
      (fun n hn => hw.owned.member_network n _ hn)
    refine ⟨hg.revisions, hg.epochs, hg.members, hg.requests, ?_⟩
    rw [AList.mem_insert, not_or]
    exact ⟨hactor.symm, hg.keys⟩
  | keyRemoved _ ticked =>
    refine Core.Grounded.ticked ?_ ticked (fun n hn => Tables.mem_networks_of_owner hn)
      (fun n hn => hw.owned.member_network n _ hn)
    exact ⟨hg.revisions, hg.epochs, hg.members, hg.requests, fun h => hg.keys (AList.mem_erase.1 h).2⟩
  | capableSet _ ticked =>
    refine Core.Grounded.ticked ?_ ticked (fun n hn => hn.elim) (fun n hn => hw.owned.member_network n _ hn.1)
    exact ⟨hg.revisions, hg.epochs, hg.members, hg.requests, hg.keys⟩
  | _ => exact hg.withTables (fun _ h => h) hg.members hg.requests

end

/-! ## Runs -/

namespace Service
variable {s : Service}

/-- A call for the zero device can do no more than to file its capability. -/
theorem perform_zero (crypto : Crypto) (inputs : Inputs) {op : Op} (hzero : op.actor = 0) (hkeys : 0 ∉ s.activeKeys) :
    Post (perform crypto inputs op) s fun _ s' =>
      s'.core = s.core ∨ ∃ capable, op = .setManagementCapable 0 capable ∧ s'.core = { s.core with
        managementCapable := if capable then insert 0 s.managementCapable else s.managementCapable.erase 0 } := by
  have hkeeps {x : Call Reply} (hx : Keeps x) : Post x s fun _ s' =>
      s'.core = s.core ∨ ∃ capable, op = .setManagementCapable 0 capable ∧ s'.core = { s.core with
        managementCapable := if capable then insert 0 s.managementCapable else s.managementCapable.erase 0 } :=
    (hx s).mono fun _ _ h => .inl h
  cases op with
  | setForwardingLimits limits =>
    refine hkeeps (reply_keeps fun s => ?_)
    unfold Post setForwardingLimits
    cases s.quota.configure limits <;> rfl
  | setManagementCapable actor capable =>
    cases hzero
    exact .inr ⟨capable, rfl, rfl⟩
  | removeDeviceKey actor session =>
    have hactor : actor = 0 := hzero
    have hlookup : s.activeKeys.lookup actor = none := by
      rw [hactor]
      exact AList.lookup_eq_none.2 hkeys
    rw [perform, reply, post_bind, removeDeviceKey, post_gets_bind, hlookup]
    exact .inl rfl
  | publishNetworkKeys actor envelopes => exact hkeeps (reply_keeps (publishNetworkKeys_keeps crypto actor envelopes))
  | routeEncryptedPacket actor packet => exact hkeeps (reply_keeps (routeEncryptedPacket_keeps inputs actor packet))
  | admitControl actor => exact .inl rfl
  | authorizePeerExchange actor exchange => exact hkeeps (reply_keeps (keeps_query _))
  | _ =>
    cases hzero
    exact .inl rfl

theorem grounded_step (crypto : Crypto) (hw : s.tables.Wf) (hg : s.core.Grounded) (e : Event) :
    (s.step crypto e).core.Grounded := by
  cases e with
  | restart =>
    refine ⟨fun n hn => ?_, fun n hn => ?_, hg.members, hg.requests, List.not_mem_nil⟩
    · exact absurd hn List.not_mem_nil
    · exact absurd hn List.not_mem_nil
  | call op inputs =>
    by_cases hactor : op.actor = 0
    · obtain hcore | ⟨capable, -, hcore⟩ := perform_zero crypto inputs hactor hg.keys
      · change (perform crypto inputs op s).2.core.Grounded
        rwa [hcore]
      · change (perform crypto inputs op s).2.core.Grounded
        rw [hcore]
        exact ⟨hg.revisions, hg.epochs, hg.members, hg.requests, hg.keys⟩
    · exact Effect.grounded (perform_effect crypto inputs op hw) hw hactor hg

theorem grounded_run (crypto : Crypto) (events : ℕ → Event) (k : ℕ) : (run crypto events k).core.Grounded := by
  induction k with
  | zero =>
    refine ⟨fun n hn => ?_, fun n hn => ?_, fun n hn => ?_, fun n hn => ?_, List.not_mem_nil⟩
    all_goals exact absurd hn List.not_mem_nil
  | succ k ih => exact grounded_step crypto (wf_run crypto events k) ih (events k)

end Service

end LanLink
