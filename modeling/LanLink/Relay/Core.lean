import LanLink.Relay.Steps
import LanLink.Storage.Invariant
/-!
# The core of the service state

`Core` is what the properties of the relay are about: the tables and the live
part. The device log, the audit trail and the limiters are left out; reads and
audit writes do not change the core. The rules below say what each primitive
of a call does to it.
-/
open LanLink.Lib

namespace LanLink

/-- The tables and the live part of a service. -/
structure Core extends Live where
  tables : Tables

def Service.core (s : Service) : Core := { s.toLive with tables := s.tables }

namespace Core

/-- The key epoch of `n` cannot be advanced any more. -/
def EpochFull (c : Core) (n : NetworkId) : Prop := c.keyEpochs.getD n 0 = uint64Max

/-- The peer-state revision of `n` cannot be advanced any more. -/
def RevisionFull (c : Core) (n : NetworkId) : Prop := c.revisions.getD n 0 = uint64Max

instance (c : Core) (n : NetworkId) : Decidable (c.EpochFull n) := inferInstanceAs (Decidable (_ = _))
instance (c : Core) (n : NetworkId) : Decidable (c.RevisionFull n) := inferInstanceAs (Decidable (_ = _))

@[simps] def bumpEpoch (c : Core) (n : NetworkId) : Core :=
  { c with keyEpochs := c.keyEpochs.insert n (c.keyEpochs.getD n 0 + 1) }

@[simps] def bumpRevision (c : Core) (n : NetworkId) : Core :=
  { c with revisions := c.revisions.insert n (c.revisions.getD n 0 + 1) }

def keyEpochFor (c : Core) (n : NetworkId) : UInt64 := c.keyEpochs.getD n 1

def revoked (c : Core) (d : DeviceId) : Bool := (c.tables.accountDevices.lookup d).any (·.revoked)

/-- The owner, or an administrator of a managed network, not revoked. -/
def CanManage (c : Core) (n : NetworkId) (actor : DeviceId) : Prop :=
  n ∈ c.tables.networks ∧ ¬ c.revoked actor ∧
    (c.tables.owner n = some actor ∨
      ((c.tables.policy n).managed ∧ actor ∈ c.managementCapable ∧ (n, actor) ∈ c.tables.leases ∧
        policyRole (c.tables.policy n) actor = .administrator))

end Core

namespace Service
variable {s : Service}

theorem deviceAllowed_eq (s : Service) (d : DeviceId) : s.deviceAllowed d = !s.core.revoked d := rfl

theorem canManageNetwork_iff (s : Service) (n : NetworkId) (actor : DeviceId) :
    s.canManageNetwork n actor ↔ s.core.CanManage n actor := by
  unfold canManageNetwork Core.CanManage
  cases hn : s.store.networks.lookup n with
  | none =>
    have hmem : n ∉ s.core.tables.networks := AList.lookup_eq_none.1 hn
    simp [hmem]
  | some network =>
    have hmem : n ∈ s.core.tables.networks := Map.mem_of_lookup hn
    have howner : s.core.tables.owner n = some network.ownerDeviceId := Tables.lookup_owner hn
    simp only [hmem, howner, deviceAllowed_eq, true_and, Option.some.injEq]
    cases hr : s.core.revoked actor
    · by_cases ho : network.ownerDeviceId = actor
      · simp [ho]
      · simp only [ho, Bool.not_false, not_true, if_false, Bool.and_eq_true, decide_eq_true_eq, false_or, and_assoc,
          Bool.false_eq_true, not_false_iff, true_and]
        rfl
    · simp

/-! ## Audit writes -/

@[simp] theorem core_writeAudit (s : Service) (e : AuditEvent) : (s.writeAudit e).core = s.core := by
  unfold writeAudit
  split
  · rename_i db h
    simp only [core, tables, (Db.appendAudit_ok h).1]
  · rfl

@[simp] theorem core_admitDenial (s : Service) (actor : DeviceId) (now : Time) :
    (s.admitDenial actor now).2.core = s.core := by
  unfold admitDenial
  dsimp only
  split <;> split <;> rfl

@[simp] theorem core_auditLocked (s : Service) (kind : AuditKind) (actor target : DeviceId) (n : NetworkId)
    (result : NetworkResultCode) (nowMs : ℤ) (now : Time) (revision : UInt64) :
    (s.auditLocked kind actor target n result nowMs now revision).core = s.core := by
  unfold auditLocked
  dsimp only
  split
  · simp
  · split <;> simp

@[simp] theorem core_auditNetworkOutcome (s : Service) (actor : DeviceId) (out : NetworkOperationOutcome) (nowMs : ℤ)
    (now : Time) : (s.auditNetworkOutcome actor out nowMs now).core = s.core := by
  unfold auditNetworkOutcome
  split <;> simp

@[simp] theorem core_allowAccessAttempt (actor : DeviceId) (n : NetworkId) (now : Time) (s : Service) :
    (allowAccessAttempt actor n now s).2.core = s.core := by
  unfold allowAccessAttempt
  dsimp only
  split
  · rfl
  · split <;> rfl

/-! ## Peer states of a well-formed store -/

/-- A `/24` has 254 host addresses, so a network has at most 254 leases. -/
theorem length_leases_le {db : Db} (hw : db.Wf) {n : NetworkId} {leases : List LeaseRecord}
    (h : db.listVirtualIpv4Leases n = .ok leases) : leases.length ≤ 254 := by
  have hmem := @Db.mem_listVirtualIpv4Leases db n leases h
  simp only [Db.listVirtualIpv4Leases, requireNetworkId, bind_eq_ok, check_eq_ok, Except.ok.injEq, exists_const] at h
  obtain ⟨-, h⟩ := h
  -- rows have different keys, and the rows of one network different addresses
  have hrows : (db.leases.rows.filter fun row => row.1.1 = n).Nodup :=
    (List.Nodup.of_map _ (Map.nodup_rows db.leases)).filter _
  have haddr : (leases.map (·.address.toNat)).Nodup := by
    rw [← h]
    refine (((List.perm_insertionSort _ _).map _).nodup_iff).2 ?_
    rw [List.map_map]
    refine hrows.map_on fun r hr s hs hrs => ?_
    have hr := List.mem_of_mem_filter hr
    have hs := List.mem_of_mem_filter hs
    exact rows_distinct hw.addressed.lease_distinct r hr s hs (UInt32.toNat_inj.1 hrs)
  by_cases hne : leases = []
  · simp [hne]
  obtain ⟨l₀, hl₀⟩ := List.exists_mem_of_ne_nil leases hne
  obtain ⟨a₀, ha₀, -⟩ := hmem.1 hl₀
  obtain ⟨base, hbase, -⟩ := hw.addressed.lease_inside n l₀.deviceId a₀ ha₀
  have hsub : (leases.map (·.address.toNat)).toFinset ⊆ Finset.Icc (base.val.toNat + 1) (base.val.toNat + 254) := by
    intro x hx
    simp only [List.mem_toFinset, List.mem_map] at hx
    obtain ⟨l, hl, rfl⟩ := hx
    obtain ⟨a, ha, hla⟩ := hmem.1 hl
    obtain ⟨base', hbase', hin⟩ := hw.addressed.lease_inside n l.deviceId a ha
    rw [hbase, Option.some.injEq] at hbase'
    subst hbase'
    rw [Finset.mem_Icc, ← hla]
    exact host_of_subnet hin a.property.2.2.1 a.property.2.2.2
  have hcard := Finset.card_le_card hsub
  rw [List.toFinset_card_of_nodup haddr, Nat.card_Icc, List.length_map] at hcard
  omega

/-- A device holds one lease of a network. -/
theorem nodup_leases {db : Db} {n : NetworkId} {leases : List LeaseRecord} (h : db.listVirtualIpv4Leases n = .ok leases) :
    (leases.map (·.deviceId)).Nodup := by
  simp only [Db.listVirtualIpv4Leases, requireNetworkId, bind_eq_ok, check_eq_ok, Except.ok.injEq, exists_const] at h
  rw [← h.2]
  refine (((List.perm_insertionSort _ _).map _).nodup_iff).2 ?_
  rw [List.map_map]
  have hkeys := (Map.nodup_rows db.leases)
  refine ((List.Nodup.of_map _ hkeys).filter _).map_on fun r hr r' hr' heq => ?_
  rw [List.mem_filter, decide_eq_true_eq] at hr hr'
  refine List.inj_on_of_nodup_map hkeys hr.1 hr'.1 (Prod.ext ?_ heq)
  rw [hr.2, hr'.2]

/-- In a well-formed store every network has peer states. -/
theorem exists_changesForMembers (hw : s.tables.Wf) {n : NetworkId} (hn : n ∈ s.tables.networks) (revision : UInt64) :
    ∃ changes, s.changesForMembers n revision = .ok changes := by
  have hn0 : n ≠ 0 := fun h0 => hw.owned.nonzero (h0 ▸ hn)
  obtain ⟨network, hnet⟩ := Map.mem_iff_lookup.1 hn
  obtain ⟨base, hbase⟩ := Map.mem_iff_lookup.1 ((hw.addressed.subnet_network n).2 hn)
  have hsubnet : s.store.findSubnet n = .ok (some base.val) :=
    Db.findSubnet_ok.2 ⟨hn0, Option.map_eq_some_iff.2 ⟨base, hbase, rfl⟩⟩
  have hnetwork : s.store.findNetwork n = .ok (some (.ofRow (n, network))) :=
    Db.findNetwork_ok.2 ⟨hn0, Option.map_eq_some_iff.2 ⟨network, hnet, rfl⟩⟩
  obtain ⟨leases, hleases⟩ : ∃ leases, s.store.listVirtualIpv4Leases n = .ok leases :=
    ⟨_, by rw [Db.listVirtualIpv4Leases, requireNetworkId, check_of hn0, ok_bind]⟩
  have hlen : leases.length ≤ maxNetworkPeerEntries + 1 := @length_leases_le s.store hw n leases hleases
  have hstate : ∀ l ∈ leases, ∃ state, s.makePeerState n l.deviceId revision = .ok state := by
    intro l hl
    obtain ⟨own, hown⟩ : ∃ own, leases.find? (·.deviceId = l.deviceId) = some own := by
      rw [← Option.isSome_iff_exists, List.find?_isSome]
      exact ⟨l, hl, by simp⟩
    simp only [makePeerState, hsubnet, hnetwork, hleases, ok_bind, assemblePeerState, hown, check_of hlen]
    split <;> exact ⟨_, rfl⟩
  simp only [changesForMembers, hsubnet, hnetwork, hleases, ok_bind, Option.isNone_some, Bool.false_eq_true, or_self,
    if_false]
  refine exists_mapM_eq_ok fun l hl => ?_
  obtain ⟨state, hst⟩ := hstate l hl
  exact ⟨_, by rw [hst, ok_bind]⟩

/-! ## Rules for the primitives -/

section
open Action
variable {α β : Type} {Q : Except Exn β → Service → Prop} {k : α → Call β}

/-- A read goes on with what it read, or throws. -/
theorem post_read {f : Db → Except Exn α} (hok : ∀ a, f s.store = .ok a → Post (k a) s Q)
    (herr : ∀ e, f s.store = .error e → Q (.error e) s) : Post (read f >>= k) s Q := by
  rw [post_bind, read, post_query]
  cases h : f s.store with
  | ok a => exact hok a h
  | error e => exact herr e h

/-- A write goes on in the new store, or throws with the old one. -/
theorem post_write {f : Db → Except Exn (α × Db)}
    (hok : ∀ a db, f s.store = .ok (a, db) → Post (k a) { s with store := db } Q)
    (herr : ∀ e, f s.store = .error e → Q (.error e) s) : Post (write f >>= k) s Q := by
  rw [post_bind]
  unfold Post write
  cases h : f s.store with
  | ok p => exact hok p.1 p.2 h
  | error e => exact herr e h

theorem post_read_ok {f : Db → Except Exn α} {a : α} (hf : f s.store = .ok a) (h : Post (k a) s Q) :
    Post (read f >>= k) s Q := by
  refine post_read (fun a' hf' => ?_) fun e hf' => ?_
  · rw [hf] at hf'
    cases hf'
    exact h
  · rw [hf] at hf'
    cases hf'

theorem post_write_ok {f : Db → Except Exn (α × Db)} {a : α} {db : Db} (hf : f s.store = .ok (a, db))
    (h : Post (k a) { s with store := db } Q) : Post (write f >>= k) s Q := by
  refine post_write (fun a' db' hf' => ?_) fun e hf' => ?_
  · rw [hf] at hf'
    cases hf'
    exact h
  · rw [hf] at hf'
    cases hf'

theorem post_advanceKeyEpoch {n : NetworkId} {k : Unit → Call β}
    (hfull : s.core.EpochFull n → Q (.error (.overflowError "network key epoch exhausted")) s)
    (hok : ¬ s.core.EpochFull n →
      Post (k ()) { s with keyEpochs := s.keyEpochs.insert n (s.keyEpochs.getD n 0 + 1) } Q) :
    Post (advanceKeyEpoch n >>= k) s Q := by
  rw [post_bind]
  unfold Post advanceKeyEpoch
  by_cases h : s.keyEpochs.getD n 0 = uint64Max
  · simp only [h, if_true]
    exact hfull h
  · simp only [h, if_false]
    exact hok h

theorem post_advanceRevision {n : NetworkId} {k : UInt64 → Call β}
    (hfull : s.core.RevisionFull n → Q (.error (.overflowError "network peer state revision exhausted")) s)
    (hok : ¬ s.core.RevisionFull n → Post (k (s.revisions.getD n 0 + 1))
      { s with revisions := s.revisions.insert n (s.revisions.getD n 0 + 1) } Q) :
    Post (advanceRevision n >>= k) s Q := by
  rw [post_bind]
  unfold Post advanceRevision
  by_cases h : s.revisions.getD n 0 = uint64Max
  · simp only [h, if_true]
    exact hfull h
  · simp only [h, if_false]
    exact hok h

end

end Service

end LanLink
