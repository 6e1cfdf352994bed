import LanLink.Relay.Gateways
/-!
# Key epochs

A membership or policy change is meant to start a new key epoch. The epoch is
read with default 1 and counted from 0, so the first change of a network after
a start of the process leaves it at 1.
-/
open LanLink.Lib

namespace LanLink

/-- The network whose members or policy a call changes when it succeeds. -/
def Op.target : Op → Option NetworkId
  | .joinNetwork _ q _ | .leaveNetwork _ q _ => some q.networkId
  | .approveMember _ q _ | .kickMember _ q _ => some q.networkId
  | .manageNetwork _ q _ => if q.action = .inspect then none else some q.networkId
  | .accessRequest _ q _ => if q.action = .passwordJoin ∨ q.action = .inviteRedeem then some q.networkId else none
  | _ => none

/-- Calls that change `n` when they succeed; a revocation changes all networks
of the device. -/
def Op.Advances (t : Tables) (n : NetworkId) (op : Op) : Prop :=
  op.target = some n ∨ ∃ q, op.Requests .deviceRevoke q ∧ (n, q.deviceId) ∈ t.memberships

/-- Calls that change the session key of their actor. -/
def Op.ChangesKey : Op → Prop
  | .publishDeviceKey _ _ _ _ | .removeDeviceKey _ _ => True
  | _ => False

/-- The networks a call affects: those it changes, one it creates, and those
whose owner's key it changes. -/
def Op.Affects (t : Tables) (n : NetworkId) (op : Op) : Prop :=
  op.Advances t n ∨ (op.Creates ∧ n ∉ t.networks) ∨ (op.ChangesKey ∧ t.owner n = some op.actor)

/-! ## Counting -/

section
variable {n : NetworkId} {c c' : Core}

/-- The epoch of `n` is the next one. -/
def NextEpoch (n : NetworkId) (c c' : Core) : Prop :=
  ¬ c.EpochFull n ∧ c'.keyEpochs.lookup n = some (c.keyEpochs.getD n 0 + 1)

theorem Advanced.nextEpoch (h : Advanced n true c c') : NextEpoch n c c' := by
  cases h with
  | done epoch _ => exact ⟨epoch, by simp⟩

theorem Advanced.epochs {ok : Bool} (h : Advanced n ok c c') : Counted (· = n) c.keyEpochs c'.keyEpochs := h.ticked.epochs

/-- `device_revoke` starts a new epoch in each of the networks. -/
theorem Purged.nextEpoch {d : DeviceId} {networks : List NetworkId} (h : Purged d networks c c')
    (hnodup : networks.Nodup) (hn : n ∈ networks) : NextEpoch n c c' := by
  induction h with
  | nil => cases hn
  | @cons m networks c c₁ c' member advanced rest ih =>
    rw [List.nodup_cons] at hnodup
    obtain rfl | htail := List.mem_cons.1 hn
    · -- later networks leave this epoch alone
      obtain ⟨hroom, hlookup⟩ := advanced.nextEpoch
      obtain hsame | ⟨hmem, -⟩ := rest.counted.1 n
      · exact ⟨hroom, hsame.trans hlookup⟩
      · exact absurd hmem hnodup.1
    · obtain ⟨hroom, hlookup⟩ := ih hnodup.2 htail
      obtain hsame | ⟨rfl, -⟩ := advanced.epochs n
      · refine ⟨?_, ?_⟩
        · rwa [Core.EpochFull, Map.getD, hsame] at hroom
        · rwa [Map.getD, hsame] at hlookup
      · exact absurd htail hnodup.1

theorem Stopped.epochs {d : DeviceId} (h : Stopped n d c c') : Counted (· = n) c.keyEpochs c'.keyEpochs := by
  cases h with
  | policy _ _ => exact .refl _
  | counter _ advanced => exact advanced.epochs

/-- Risen or the same, the reported epoch is not lower. -/
theorem Counted.keyEpochFor_le {C : NetworkId → Prop} (h : Counted C c.keyEpochs c'.keyEpochs) (n : NetworkId) :
    c.keyEpochFor n ≤ c'.keyEpochFor n := by
  obtain hsame | ⟨-, v, hv, hlt⟩ := h n
  · rw [Core.keyEpochFor, Core.keyEpochFor, Map.getD, Map.getD, hsame]
    exact UInt64.le_refl _
  · rw [Core.keyEpochFor, Core.keyEpochFor, Map.getD, Map.getD, hv]
    rw [Map.getD] at hlt
    cases hl : c.keyEpochs.lookup n with
    | some w =>
      rw [hl] at hlt
      exact UInt64.le_of_lt hlt
    | none =>
      rw [hl] at hlt
      rw [UInt64.lt_iff_toNat_lt] at hlt
      rw [UInt64.le_iff_toNat_le]
      exact hlt

theorem Counted.keyEpochFor_eq {C : NetworkId → Prop} (h : Counted C c.keyEpochs c'.keyEpochs) (hn : ¬ C n) :
    c'.keyEpochFor n = c.keyEpochFor n := by
  obtain hsame | ⟨hc, -⟩ := h n
  · rw [Core.keyEpochFor, Core.keyEpochFor, Map.getD, Map.getD, hsame]
  · exact absurd hc hn

/-- The next epoch is a larger one exactly if the epoch was counted before. -/
theorem NextEpoch.lt_iff (h : NextEpoch n c c') : c.keyEpochFor n < c'.keyEpochFor n ↔ n ∈ c.keyEpochs := by
  obtain ⟨hroom, hlookup⟩ := h
  rw [Core.keyEpochFor, Core.keyEpochFor, Map.getD, Map.getD, hlookup, Option.getD_some]
  cases hl : c.keyEpochs.lookup n with
  | some v =>
    have hmem : n ∈ c.keyEpochs := Map.mem_of_lookup hl
    simp only [hmem, iff_true, Option.getD_some, Map.getD, hl]
    rw [Core.EpochFull, Map.getD, hl] at hroom
    exact lt_succ_of_ne_max hroom
  | none =>
    have hmem : n ∉ c.keyEpochs := AList.lookup_eq_none.1 hl
    simp only [hmem, iff_false, Option.getD_none, Map.getD, hl]
    decide

end

/-! ## Steps -/

section
variable {crypto : Crypto} {c c' : Core} {op : Op} {ok : Bool}

theorem Admission.target {n : NetworkId} {d : DeviceId} (h : Admission crypto c op n d) : op.target = some n := by
  cases h with
  | invited hop _ _ =>
    cases op with
    | joinNetwork _ q _ => exact congrArg some hop
    | accessRequest _ q _ => rw [Op.target, if_pos (.inl hop.1), hop.2.1]
    | _ => cases hop
  | password hop network _ _ _ _ =>
    obtain ⟨haction, t, hop⟩ := hop
    rw [hop, Op.target, if_pos (.inl haction), network]
  | approved hop _ _ =>
    rw [hop]
    rfl

theorem Removal.target {n : NetworkId} {d : DeviceId} (h : Removal c op n d) : op.target = some n := by
  cases h with
  | leave hop _ =>
    rw [hop]
    rfl
  | kick hop _ _ =>
    rw [hop]
    rfl

theorem Redemption.target {n : NetworkId} {digest : Digest} {link : InvitationLink} {atMs : ℤ}
    (h : Redemption crypto c op n digest link atMs) : op.target = some n := by
  obtain ⟨q, hop, haction, hn, -⟩ := h.call
  rw [hop, Op.target, if_pos (.inr haction), hn]

theorem Edit.target {owner actor : DeviceId} {q : ManagementRequest} {current next : NetworkPolicy} {t : ℤ}
    (h : Edit c owner actor q current next) (hop : op = .manageNetwork actor q t) : op.target = some q.networkId := by
  rw [hop, Op.target, if_neg]
  obtain ⟨haction, -⟩ | ⟨haction, -⟩ := h.requested <;> simp [haction]

theorem Op.Requests.target {q : AccessRequest} (h : op.Requests .deviceRevoke q) : op.target = none := by
  obtain ⟨haction, t, hop⟩ := h
  rw [hop, Op.target, if_neg (by simp [haction])]

theorem Op.Advances.unique {t : Tables} {m n : NetworkId} (hn : op.Advances t n) (hm : op.target = some m) : m = n := by
  obtain hn | ⟨q, hq, -⟩ := hn
  · rw [hm, Option.some.injEq] at hn
    exact hn
  · rw [hq.target] at hm
    cases hm

/-- A call affects the epochs of the networks it affects, and raises them. -/
theorem Effect.epochs (h : Effect crypto c op ok c') : Counted (op.Affects c.tables) c.keyEpochs c'.keyEpochs := by
  have hone {m : NetworkId} {ok : Bool} {t : Tables} (hm : op.Affects c.tables m)
      (advanced : Advanced m ok (c.withTables t) c') : Counted (op.Affects c.tables) c.keyEpochs c'.keyEpochs := by
    refine advanced.epochs.mono ?_
    rintro _ rfl
    exact hm
  have hrevoked {q : AccessRequest} (hop : op.Requests .deviceRevoke q) {m : NetworkId}
      (hm : (m, q.deviceId) ∈ c.tables.memberships) : op.Affects c.tables m := .inl (.inr ⟨q, hop, hm⟩)
  cases h with
  | created _ hop _ _ fresh _ _ _ advanced => exact hone (.inr (.inl ⟨hop, fresh⟩)) advanced
  | joined _ admission _ advanced => exact hone (.inl (.inl admission.target)) advanced
  | redeemJoined _ redemption _ advanced => exact hone (.inl (.inl redemption.target)) advanced
  | left removal _ advanced => exact hone (.inl (.inl removal.target)) advanced
  | edited hop _ _ _ edit _ _ advanced => exact hone (.inl (.inl (edit.target hop))) advanced
  | revoked hop _ networksOf _ purged => exact purged.counted.1.mono fun m hm => hrevoked hop ((networksOf.mem m).1 hm)
  | revokeStopped hop _ networksOf _ purged stopped =>
    refine Counted.trans (purged.counted.1.mono fun m hm => ?_) (stopped.epochs.mono ?_)
    · exact hrevoked hop ((networksOf.mem m).1 (List.mem_append_left _ hm))
    · rintro m rfl
      exact hrevoked hop ((networksOf.mem m).1 (by simp))
  | keyPublished hop _ ticked =>
    refine ticked.epochs.mono fun m hm => .inr (.inr ⟨?_, hm⟩)
    rw [hop]
    trivial
  | keyRemoved hop ticked =>
    refine ticked.epochs.mono fun m hm => .inr (.inr ⟨?_, hm⟩)
    rw [hop]
    trivial
  | capableSet _ ticked => exact ticked.epochs.mono fun m hm => hm.elim
  | _ => exact .refl _

/-- A call that changes `n` is there to change tables, and creates no network. -/
theorem Op.Advances.commits {t : Tables} {n : NetworkId} (h : op.Advances t n) : op.Commits ∧ ¬ op.Creates := by
  obtain h | ⟨q, ⟨haction, t', hop⟩, -⟩ := h
  · cases op with
    | accessRequest _ q _ =>
      rw [Op.target] at h
      split at h
      · rename_i haction
        obtain haction | haction := haction <;> simp [Op.Commits, Op.Creates, haction]
      · cases h
    | manageNetwork _ q _ =>
      rw [Op.target] at h
      split at h
      · cases h
      · rename_i haction
        exact ⟨haction, not_false⟩
    | joinNetwork _ _ _ | leaveNetwork _ _ _ | approveMember _ _ _ | kickMember _ _ _ => exact ⟨trivial, not_false⟩
    | _ => cases h
  · rw [hop]
    simp [Op.Commits, Op.Creates, haction]

/-- Of the access requests three change networks. -/
theorem Op.Advances.action {t : Tables} {n : NetworkId} {q : AccessRequest} {action : AccessAction}
    (h : op.Advances t n) (hop : op.Requests action q) :
    action = .passwordJoin ∨ action = .inviteRedeem ∨ action = .deviceRevoke ∧ (n, q.deviceId) ∈ t.memberships := by
  obtain ⟨haction, t', hop⟩ := hop
  subst haction
  obtain h | ⟨q', ⟨haction', t'', hop'⟩, hm⟩ := h
  · rw [hop, Op.target] at h
    split at h
    · tauto
    · cases h
  · rw [hop] at hop'
    injection hop' with _ hq _
    subst hq
    exact .inr (.inr ⟨haction', hm⟩)

/-- A successful change of `n` makes the next epoch of `n`. -/
theorem Effect.nextEpoch (h : Effect crypto c op true c') {n : NetworkId} (hn : op.Advances c.tables n) :
    NextEpoch n c c' := by
  have hone {m : NetworkId} {t : Tables} (hm : op.target = some m) (advanced : Advanced m true (c.withTables t) c') :
      NextEpoch n c c' := by
    obtain rfl := hn.unique hm
    exact advanced.nextEpoch
  cases h with
  | quiet h => exact absurd hn.commits.1 (h rfl)
  | created _ hop => exact absurd hop hn.commits.2
  | joined _ admission _ advanced => exact hone admission.target advanced
  | redeemJoined _ redemption _ advanced => exact hone redemption.target advanced
  | left removal _ advanced => exact hone removal.target advanced
  | edited hop _ _ _ edit _ _ advanced => exact hone (edit.target hop) advanced
  | @revoked c' q row networks hop _ networksOf _ purged =>
    have hm : (n, q.deviceId) ∈ c.tables.memberships := by simpa using hn.action hop
    exact purged.nextEpoch networksOf.nodup ((networksOf.mem n).2 hm)
  -- the other effects belong to calls that change no network
  | linkIssued _ hop action => simpa using hn.action ⟨action, _, hop⟩
  | linksDropped hop | passwordSet _ hop | accountOpened hop | enrollmentOffered _ hop | enrolled _ _ hop =>
    simpa using hn.action hop
  | invited hop | keyPublished hop | keyRemoved hop | capableSet hop =>
    rw [hop] at hn
    obtain hn | ⟨q, ⟨-, t, hop'⟩, -⟩ := hn
    · cases hn
    · cases hop'

end

/-! ## Runs -/

namespace Service
variable (crypto : Crypto)

/-- A call does not lower epochs, and leaves alone those of networks it does
not affect. -/
structure EpochsKept (s : Service) (op : Op) (inputs : Inputs) : Prop where
  never_lower : ∀ n, s.keyEpochFor n ≤ (s.step crypto (.call op inputs)).keyEpochFor n
  unaffected : ∀ m, ¬ op.Affects s.tables m → (s.step crypto (.call op inputs)).keyEpochFor m = s.keyEpochFor m

/-- And a call that succeeds starts a new epoch in the networks it changes. -/
structure EpochsIncrease (s : Service) (op : Op) (inputs : Inputs) : Prop extends EpochsKept crypto s op inputs where
  increase : s.succeeds crypto (.call op inputs) → ∀ n, op.Advances s.tables n →
    s.keyEpochFor n < (s.step crypto (.call op inputs)).keyEpochFor n

theorem epochsKept {s : Service} (hw : s.tables.Wf) (op : Op) (inputs : Inputs) : EpochsKept crypto s op inputs := by
  have hepochs := (perform_effect crypto inputs op hw).epochs
  exact ⟨hepochs.keyEpochFor_le, fun m hm => hepochs.keyEpochFor_eq hm⟩

/-- In every state of every run no call lowers an epoch or moves that of another
network, and a success starts a larger epoch exactly where one was counted
since the process started. -/
theorem key_epochs_increase (events : ℕ → Event) (k : ℕ) (op : Op) (inputs : Inputs) :
    EpochsKept crypto (run crypto events k) op inputs ∧
    ((run crypto events k).succeeds crypto (.call op inputs) → ∀ n, op.Advances (run crypto events k).tables n →
      ((run crypto events k).keyEpochFor n < ((run crypto events k).step crypto (.call op inputs)).keyEpochFor n ↔
        n ∈ (run crypto events k).keyEpochs)) := by
  have hw := wf_run crypto events k
  refine ⟨epochsKept crypto hw op inputs, fun hok n hn => ?_⟩
  have hstep := step_core crypto hw (.call op inputs)
  rw [hok] at hstep
  cases hstep with
  | call effect => exact (effect.nextEpoch hn).lt_iff

/-! A guest joins a network, the relay starts again, and the guest leaves: the
epoch is 1 before and after. -/

def guest : DeviceId := 2

def restarting : ℕ → Event
  | 0 => .call (.createNetwork soleOwner ⟨text "lan"⟩ 0) soleInputs
  | 1 => .call (.joinNetwork guest ⟨soleNetwork⟩ 0) soleInputs
  | 2 => .call (.approveMember soleOwner ⟨soleNetwork, guest⟩ 0) soleInputs
  | _ => .restart

theorem epoch_kept_by_leave :
    ¬ EpochsIncrease noCrypto (run noCrypto restarting 4) (.leaveNetwork guest ⟨soleNetwork⟩ 0) soleInputs := by
  intro h
  have hlt := h.increase (by decide +kernel) soleNetwork (.inl rfl)
  exact absurd hlt (by decide +kernel)

end Service

end LanLink
