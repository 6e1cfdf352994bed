import LanLink.Relay.Epochs
import LanLink.Relay.Integrity
/-!
# Revoked devices

`device_revoke` marks the device first, then removes it from its networks, and
drops its session key last. A counter that is used up stops it half way, with
the key still active.
-/
open LanLink.Lib

namespace LanLink

open Db (MemberRow)

/-- Why a removal of `d` from `n` cannot finish. -/
def Core.Full (c : Core) (n : NetworkId) : Prop := c.EpochFull n ∨ c.RevisionFull n

/-- The call is a request to revoke `d` that passes every check. -/
structure Revokes (t : Tables) (op : Op) (d : DeviceId) : Prop where
  call : ∃ q, op.Requests .deviceRevoke q ∧ q.deviceId = d
  owns : ∃ row, OwnsDevice t op.actor d row
  notOwner : ∀ n, t.owner n ≠ some d

/-- `d` is revoked, and its key, its memberships and nothing else are gone. -/
structure Dropped (d : DeviceId) (c c' : Core) : Prop where
  revoked : ∀ e, c'.revoked e = (c.revoked e || e = d)
  keys : ∀ e, e ∈ c'.activeKeys ↔ e ∈ c.activeKeys ∧ e ≠ d
  members : ∀ n e, (n, e) ∈ c'.tables.memberships ↔ (n, e) ∈ c.tables.memberships ∧ e ≠ d
  requests : c'.tables.joinRequests = c.tables.joinRequests

/-- What a call does to the revoked devices and to the session keys. -/
inductive DeviceStep (c : Core) (op : Op) (ok : Bool) (c' : Core) : Prop
  | kept (revoked : ∀ d, c'.revoked d = c.revoked d) (keys : ∀ d ∈ c'.activeKeys, d ∈ c.activeKeys ∨ ¬ c.revoked d)
  | revoked {d : DeviceId} (revokes : Revokes c.tables op d) (dropped : Dropped d c c')
  | stopped {d : DeviceId} {n : NetworkId} (revokes : Revokes c.tables op d) (failure : ok = false)
      (revoked : ∀ e, c'.revoked e = (c.revoked e || e = d)) (keys : c'.activeKeys = c.activeKeys)
      (member : (n, d) ∈ c.tables.memberships)
      (full : c.Full n ∨ (c.tables.policy n).revision = uint64Max)

section
variable {crypto : Crypto} {c c' : Core} {op : Op} {ok : Bool}

theorem Core.revoked_congr (h : c'.tables.accountDevices = c.tables.accountDevices) (d : DeviceId) :
    c'.revoked d = c.revoked d := by rw [Core.revoked, Core.revoked, h]

/-- A device that was unknown is now in an account, not revoked. -/
theorem Core.revoked_insert {d : DeviceId} {row : AccountDeviceRow} (hunknown : d ∉ c.tables.accountDevices)
    (hrow : row.revoked = false) (h : c'.tables.accountDevices = c.tables.accountDevices.insert d row) (e : DeviceId) :
    c'.revoked e = c.revoked e := by
  rw [Core.revoked, Core.revoked, h, Map.lookup_insert]
  split
  · rename_i he
    rw [he, AList.lookup_eq_none.2 hunknown]
    simp [hrow]
  · rfl

theorem Core.revoked_revoke {d : DeviceId} {row : AccountDeviceRow}
    (h : c'.tables.accountDevices = (c.tables.revoke d row).accountDevices) (e : DeviceId) :
    c'.revoked e = (c.revoked e || e = d) := by
  rw [Core.revoked, Core.revoked, h, Tables.revoke_accountDevices, Map.lookup_insert]
  split
  · rename_i he
    simp [he]
  · rename_i he
    simp [he]

theorem Advanced.activeKeys {n : NetworkId} (h : Advanced n ok c c') : c'.activeKeys = c.activeKeys := h.ticked.activeKeys

theorem Purged.full {d : DeviceId} {networks : List NetworkId} (h : Purged d networks c c') {n : NetworkId}
    (hn : n ∉ networks) (hfull : c'.Full n) : c.Full n := by
  have hsame {m m' : Map NetworkId UInt64} (h : Counted (· ∈ networks) m m') : m'.getD n 0 = m.getD n 0 := by
    obtain hl | ⟨hmem, -⟩ := h n
    · rw [Map.getD, Map.getD, hl]
    · exact absurd hmem hn
  rwa [Core.Full, Core.EpochFull, Core.RevisionFull, hsame h.counted.1, hsame h.counted.2] at hfull

/-- A revocation stops at a network whose counters or policy are used up. -/
theorem Stopped.full {n : NetworkId} {d : DeviceId} {before after : List NetworkId} {c₁ : Core} (hw : c.tables.Wf)
    (hnodup : (before ++ n :: after).Nodup) (hpurged : Purged d before c c₁) (h : Stopped n d c₁ c') :
    c.Full n ∨ (c.tables.policy n).revision = uint64Max := by
  have hn : n ∉ before := fun hmem => (List.nodup_append.1 hnodup).2.2 n hmem n (by simp) rfl
  cases h with
  | policy _ full =>
    have hpolicy := (hpurged.departed hw (List.nodup_append.1 hnodup).1).policy n
    rw [if_neg hn] at hpolicy
    exact .inr (hpolicy ▸ full)
  | counter member advanced =>
    refine .inl (hpurged.full hn ?_)
    obtain h | h := advanced.room (c := c₁) rfl
    · cases h
    · exact h

theorem Stopped.activeKeys {n : NetworkId} {d : DeviceId} (h : Stopped n d c c') : c'.activeKeys = c.activeKeys := by
  cases h with
  | policy _ _ => rfl
  | counter _ advanced => exact advanced.activeKeys

theorem Purged.dropped {d : DeviceId} {row : AccountDeviceRow} {networks : List NetworkId} (hw : c.tables.Wf)
    (owns : OwnsDevice c.tables op.actor d row) (networksOf : NetworksOf c.tables d networks)
    (h : Purged d networks (c.withTables (c.tables.revoke d row)) c') : Dropped d c (c'.dropKey d) := by
  have hdeparted := h.departed (hw.change (owns.change hw)) networksOf.nodup
  refine ⟨Core.revoked_revoke hdeparted.accountDevices, fun e => ?_, fun n e => ?_, hdeparted.joinRequests⟩
  · rw [Core.dropKey_activeKeys, AList.mem_erase, h.activeKeys, and_comm]
    rfl
  · rw [show (Core.dropKey d c').tables = c'.tables from rfl, hdeparted.mem, networksOf.mem]
    simp only [Core.withTables_tables, Tables.revoke_memberships, not_and, ne_eq, and_congr_right_iff]
    intro hm
    exact ⟨fun h he => h he (he ▸ hm), fun h he => absurd he h⟩

/-- Every call does one of the three. -/
theorem Effect.deviceStep (h : Effect crypto c op ok c') (hw : c.tables.Wf) : DeviceStep c op ok c' := by
  have hkept (ha : c'.tables.accountDevices = c.tables.accountDevices) (hk : c'.activeKeys = c.activeKeys) :
      DeviceStep c op ok c' := .kept (Core.revoked_congr ha) fun d hd => .inl (hk ▸ hd)
  have hadvanced {n : NetworkId} {t : Tables} (advanced : Advanced n ok (c.withTables t) c')
      (ha : t.accountDevices = c.tables.accountDevices) : DeviceStep c op ok c' :=
    hkept (by rw [advanced.tables]; exact ha) advanced.activeKeys
  cases h with
  | created password _ _ _ _ _ _ _ advanced => exact hadvanced advanced (by cases password <;> rfl)
  | joined _ _ _ advanced => exact hadvanced advanced rfl
  | redeemJoined _ _ _ advanced => exact hadvanced advanced rfl
  | left _ _ advanced => exact hadvanced advanced rfl
  | edited _ _ _ _ _ _ _ advanced => exact hadvanced advanced rfl
  | accountOpened _ _ _ _ unknown => exact .kept (Core.revoked_insert unknown rfl rfl) fun d hd => .inl hd
  | enrolled _ _ _ _ unknown => exact .kept (Core.revoked_insert unknown rfl rfl) fun d hd => .inl hd
  | revoked hop owns networksOf notOwner purged =>
    exact .revoked ⟨⟨_, hop, rfl⟩, ⟨_, owns⟩, notOwner⟩ (purged.dropped hw owns networksOf)
  | @revokeStopped c₁ c' q row before after n hop owns networksOf notOwner purged stopped =>
    have hw' := hw.change (owns.change hw)
    obtain ⟨gone, -, hdeparted⟩ := stopped.departed hw' networksOf.nodup purged
    refine .stopped ⟨⟨q, hop, rfl⟩, ⟨row, owns⟩, notOwner⟩ rfl (Core.revoked_revoke hdeparted.accountDevices)
      (stopped.activeKeys.trans purged.activeKeys) ((networksOf.mem n).1 (by simp))
      (Stopped.full (c := c.withTables (c.tables.revoke q.deviceId row)) hw' networksOf.nodup purged stopped)
  | keyPublished hop allowed ticked =>
    refine .kept (Core.revoked_congr (by rw [ticked.tables])) fun d hd => ?_
    rw [ticked.activeKeys, AList.mem_insert] at hd
    obtain rfl | hd := hd
    · exact .inr allowed
    · exact .inl hd
  | keyRemoved hop ticked =>
    refine .kept (Core.revoked_congr (by rw [ticked.tables])) fun d hd => .inl ?_
    rw [ticked.activeKeys] at hd
    exact (AList.mem_erase.1 hd).2
  | capableSet hop ticked => exact hkept (by rw [ticked.tables]) ticked.activeKeys
  | _ => exact hkept rfl rfl

theorem Op.Requests.unique {action action' : AccessAction} {q q' : AccessRequest} (h : op.Requests action q)
    (h' : op.Requests action' q') : action = action' ∧ q = q' := by
  obtain ⟨rfl, t, hop⟩ := h
  obtain ⟨rfl, t', hop'⟩ := h'
  rw [hop] at hop'
  injection hop' with _ hq _
  exact ⟨congrArg _ hq, hq⟩

/-- A success of `device_revoke` is a revocation. -/
theorem Effect.dropped (h : Effect crypto c op true c') (hw : c.tables.Wf) {q : AccessRequest}
    (hop : op.Requests .deviceRevoke q) : Dropped q.deviceId c c' := by
  -- the other effects are of other calls
  have htarget {n : NetworkId} (h : op.target = some n) {P : Prop} : P := by
    rw [hop.target] at h
    cases h
  have hother {action : AccessAction} {q' : AccessRequest} (h : op.Requests action q') (hne : action ≠ .deviceRevoke)
      {P : Prop} : P := absurd (h.unique hop).1 hne
  cases h with
  | quiet hquiet =>
    obtain ⟨haction, t, hop⟩ := hop
    refine absurd ?_ (hquiet rfl)
    rw [hop]
    simp [Op.Commits, haction]
  | created _ hcreates =>
    obtain ⟨haction, t, hop⟩ := hop
    rw [hop] at hcreates
    cases haction.symm.trans hcreates
  | joined _ admission => exact htarget admission.target
  | redeemJoined _ redemption => exact htarget redemption.target
  | left removal => exact htarget removal.target
  | edited hop' _ _ _ edit => exact htarget (edit.target hop')
  | revoked hop' owns networksOf _ purged =>
    obtain ⟨-, rfl⟩ := hop'.unique hop
    exact purged.dropped hw owns networksOf
  | linkIssued _ hop' action => exact hother ⟨action, _, hop'⟩ (by decide)
  | linksDropped hop' | passwordSet _ hop' | accountOpened hop' | enrollmentOffered _ hop' | enrolled _ _ hop' =>
    exact hother hop' (by decide)
  | invited hop' | keyPublished hop' | keyRemoved hop' | capableSet hop' =>
    obtain ⟨-, t, hop⟩ := hop
    rw [hop] at hop'
    cases hop'

/-- A revoked device stays revoked. -/
theorem Effect.revoked_mono (h : Effect crypto c op ok c') (hw : c.tables.Wf) {d : DeviceId} (hd : c.revoked d) :
    c'.revoked d := by
  cases h.deviceStep hw with
  | kept revoked _ => rw [revoked, hd]
  | revoked _ dropped => rw [dropped.revoked, hd, Bool.true_or]
  | stopped _ _ revoked _ _ _ => rw [revoked, hd, Bool.true_or]

end

/-! ## Session keys -/

/-- No revoked device has a session key. -/
def Core.KeysAllowed (c : Core) : Prop := ∀ d ∈ c.activeKeys, ¬ c.revoked d

/-- A revocation of a device with a session key that passes its checks finds
room in both counters of each network of the device. -/
def Service.RevokesInRoom (s : Service) (e : Event) : Prop :=
  ∀ op inputs d, e = .call op inputs → Revokes s.tables op d → d ∈ s.activeKeys →
    ∀ n, (n, d) ∈ s.tables.memberships → ¬ s.core.EpochFull n ∧ ¬ s.core.RevisionFull n

theorem Effect.keysAllowed {crypto : Crypto} {c c' : Core} {op : Op} {ok : Bool} (h : Effect crypto c op ok c')
    (hw : c.tables.Wf) (hi : ∀ n, c.Integrity n)
    (hroom : ∀ d, Revokes c.tables op d → d ∈ c.activeKeys → ∀ n, (n, d) ∈ c.tables.memberships → ¬ c.Full n)
    (hc : c.KeysAllowed) : c'.KeysAllowed := by
  intro e he
  cases h.deviceStep hw with
  | kept revoked keys =>
    rw [revoked]
    exact (keys e he).elim (hc e) id
  | revoked _ dropped =>
    obtain ⟨he, hne⟩ := (dropped.keys e).1 he
    simp [dropped.revoked, hne, hc e he]
  | @stopped d n revokes _ revoked keys member full =>
    rw [keys] at he
    have hne : e ≠ d := by
      rintro rfl
      obtain hfull | hpolicy := full
      · exact hroom e revokes he n member hfull
      · exact (hi n).bounded.revision_ne hpolicy
    simp [revoked, hne, hc e he]

namespace Service
variable (crypto : Crypto)

theorem keysAllowed_run {events : ℕ → Event} (hroom : ∀ k, (run crypto events k).RevokesInRoom (events k)) (k : ℕ) :
    (run crypto events k).core.KeysAllowed := by
  induction k with
  | zero => intro d hd; exact absurd hd (AList.notMem_empty d)
  | succ k ih =>
    have hw := wf_run crypto events k
    have hstep := step_core crypto hw (events k)
    rw [← run_succ] at hstep
    generalize (run crypto events (k + 1)).core = c' at hstep ⊢
    generalize he : events k = e at hstep
    cases hstep with
    | call effect =>
      refine effect.keysAllowed hw (integrity_run crypto events k) (fun d revokes hd n hm hfull => ?_) ih
      obtain ⟨hepoch, hrevision⟩ := hroom k _ _ d he revokes hd n hm
      exact hfull.elim hepoch hrevision
    | restart => intro d hd; exact absurd hd (AList.notMem_empty d)

end Service

end LanLink
