import LanLink.Relay.Gateways
import LanLink.Relay.Integrity
/-!
# No policy update is lost

Edits compare the revision they were based on with the stored one, and a removal
that changes the policy moves the revision on. So a revision names one document,
and an edit replaces the document it was made from.
-/
open LanLink.Lib

namespace LanLink

/-- What an accepted edit stores: the request's policy, or the current one with
the actor as an unapproved gateway, under the next revision. -/
def editedPolicy (actor : DeviceId) (q : ManagementRequest) (current : NetworkPolicy) : NetworkPolicy :=
  if q.action = .requestGateway then
    { current with
      revision := current.revision + 1
      gateways := current.gateways ++ [{ device := actor, approved := false }] }
  else { q.policy with revision := current.revision + 1 }

theorem Edit.next_eq {c : Core} {owner actor : DeviceId} {q : ManagementRequest} {current next : NetworkPolicy}
    (h : Edit c owner actor q current next) :
    q.policy.revision = current.revision ∧ { next with revision := next.revision + 1 } = editedPolicy actor q current := by
  obtain ⟨haction, -, -, hrev, -, -, rfl⟩ | ⟨haction, -, rfl⟩ := h.requested
  · exact ⟨hrev, by rw [editedPolicy, if_pos haction]⟩
  · exact ⟨h.revision.1, by rw [editedPolicy, if_neg (by simp [haction]), h.revision.1]⟩

theorem toNat_succ {x : UInt64} (h : x ≠ uint64Max) : (x + 1).toNat = x.toNat + 1 := by
  have hx : x.toNat ≠ 2 ^ 64 - 1 := fun hx => h (UInt64.toNat_inj.1 hx)
  have hlt := x.toNat_lt
  rw [UInt64.toNat_add, UInt64.toNat_one, Nat.mod_eq_of_lt]
  omega

/-! ## Steps -/

/-- A step keeps the document or raises its revision by one. -/
theorem PolicyStep.revision {c c' : Core} {op : Op} {ok : Bool} {n : NetworkId} (h : PolicyStep c op ok n c')
    (hb : (c.tables.policy n).Bounded) :
    c'.tables.policy n = c.tables.policy n ∨
      (c'.tables.policy n).revision.toNat = (c.tables.policy n).revision.toNat + 1 := by
  obtain ⟨policy, -⟩ | ⟨-, -, policy, -⟩ | ⟨network, edit, policy, -, -⟩ := h
  · exact .inl policy
  · rw [policy, prunedPolicy]
    split
    · exact .inl rfl
    · exact .inr (toNat_succ hb.revision_ne)
  · subst network
    refine .inr ?_
    rw [policy, toNat_succ edit.edit.revision.2, edit.edit.revision.1]

namespace Service
variable (crypto : Crypto) (events : ℕ → Event) (n : NetworkId)

/-- The document of `n` after `k` events. -/
def document (k : ℕ) : NetworkPolicy := (run crypto events k).tables.policy n

theorem document_step (k : ℕ) : document crypto events n (k + 1) = document crypto events n k ∨
    (document crypto events n (k + 1)).revision.toNat = (document crypto events n k).revision.toNat + 1 := by
  have hw := wf_run crypto events k
  have hstep := step_core crypto hw (events k)
  have hcore : document crypto events n (k + 1) = ((run crypto events k).step crypto (events k)).core.tables.policy n := rfl
  rw [hcore]
  cases he : events k with
  | restart => exact .inl rfl
  | call op inputs =>
    exact ((perform_effect crypto inputs op hw).policyStep hw n).revision (integrity_run crypto events k n).bounded

/-- Revisions never go down, and stay only where the document stays. -/
theorem document_mono {j k : ℕ} (hjk : j ≤ k) : document crypto events n j = document crypto events n k ∨
    (document crypto events n j).revision.toNat < (document crypto events n k).revision.toNat := by
  induction k, hjk using Nat.le_induction with
  | base => exact .inl rfl
  | succ k _ ih =>
    obtain hstep | hstep := document_step crypto events n k
    · rwa [hstep]
    · obtain heq | hlt := ih
      · exact .inr (by rw [heq, hstep]; omega)
      · exact .inr (by omega)

theorem document_unique {j k : ℕ}
    (h : (document crypto events n j).revision = (document crypto events n k).revision) :
    document crypto events n j = document crypto events n k := by
  obtain hjk | hkj := Nat.le_total j k
  · exact (document_mono crypto events n hjk).resolve_right (by rw [h]; omega)
  · exact ((document_mono crypto events n hkj).resolve_right (by rw [h]; omega)).symm

/-- A successful edit was based on the document it replaces. -/
theorem edit_succeeds {k : ℕ} {actor : DeviceId} {q : ManagementRequest} (hq : (events k).Manages n actor q)
    (haction : q.action ≠ .inspect) (hok : (run crypto events k).succeeds crypto (events k)) :
    q.policy.revision = (document crypto events n k).revision ∧
      document crypto events n (k + 1) = editedPolicy actor q (document crypto events n k) := by
  obtain ⟨rfl, t, inputs, he⟩ := hq
  have h := manage_effect crypto (wf_run crypto events k) actor q t inputs
  rw [he] at hok
  rw [hok] at h
  have hdoc : document crypto events q.networkId (k + 1) =
      ((run crypto events k).step crypto (.call (.manageNetwork actor q t) inputs)).core.tables.policy q.networkId := by
    rw [← he]
    rfl
  rw [hdoc]
  generalize ((run crypto events k).step crypto (.call (.manageNetwork actor q t) inputs)).core = c' at h ⊢
  cases h with
  | none h => exact absurd (h rfl) haction
  | edited accepts advanced =>
    obtain ⟨hrev, hnext⟩ := (editPolicy_ok accepts.action accepts.edited).next_eq
    refine ⟨hrev, ?_⟩
    rw [advanced.tables, Core.withTables_tables, Tables.policy_savePolicy, if_pos rfl]
    exact hnext

theorem single_success {j k : ℕ} (hjk : j < k) {actor actor' : DeviceId} {q q' : ManagementRequest}
    (hq : (events j).Manages n actor q) (hq' : (events k).Manages n actor' q') (haction : q.action ≠ .inspect)
    (haction' : q'.action ≠ .inspect) (hj : (run crypto events j).succeeds crypto (events j))
    (hk : (run crypto events k).succeeds crypto (events k)) : q.policy.revision ≠ q'.policy.revision := by
  obtain ⟨hrev, hdoc⟩ := edit_succeeds crypto events n hq haction hj
  obtain ⟨hrev', -⟩ := edit_succeeds crypto events n hq' haction' hk
  -- the first edit moved the revision on, so it is past its base when the second is made
  have hlt : (document crypto events n j).revision.toNat < (document crypto events n (j + 1)).revision.toNat := by
    obtain hsame | hraised := document_step crypto events n j
    · have hne : (editedPolicy actor q (document crypto events n j)).revision =
          (document crypto events n j).revision + 1 := by
        unfold editedPolicy
        split <;> rfl
      rw [← hdoc, hsame] at hne
      have hsucc := toNat_succ (integrity_run crypto events j n).bounded.revision_ne
      rw [show ((run crypto events j).core.tables.policy n) = document crypto events n j from rfl, ← hne] at hsucc
      omega
    · omega
  intro heq
  rw [hrev, hrev'] at heq
  obtain h | h := document_mono crypto events n (show j + 1 ≤ k from hjk)
  · rw [h, heq] at hlt
    exact lt_irrefl _ hlt
  · rw [heq] at hlt
    omega

/-- The history of the document of `n`. -/
structure NoLostUpdate : Prop where
  /-- A change raises the revision by one; it is a successful edit or a removal. -/
  raised : ∀ k, document crypto events n (k + 1) ≠ document crypto events n k →
    (document crypto events n (k + 1)).revision.toNat = (document crypto events n k).revision.toNat + 1 ∧
      ((∃ actor q, (events k).Manages n actor q ∧ q.action ≠ .inspect ∧ (run crypto events k).succeeds crypto (events k)) ∨
        ∃ d, (events k).Removes n d)
  /-- A revision names one document. -/
  unique : ∀ j k, (document crypto events n j).revision = (document crypto events n k).revision →
    document crypto events n j = document crypto events n k
  /-- Of two edits based on the same revision one succeeds at most. -/
  single : ∀ j k actor actor' q q', j ≠ k → (events j).Manages n actor q → (events k).Manages n actor' q' →
    q.action ≠ .inspect → q'.action ≠ .inspect → (run crypto events j).succeeds crypto (events j) →
    (run crypto events k).succeeds crypto (events k) → q.policy.revision ≠ q'.policy.revision
  /-- A successful edit is computed from the document it replaces, the only one of its revision. -/
  based : ∀ k actor q, (events k).Manages n actor q → q.action ≠ .inspect →
    (run crypto events k).succeeds crypto (events k) → q.policy.revision = (document crypto events n k).revision ∧
      document crypto events n (k + 1) = editedPolicy actor q (document crypto events n k)
  /-- An edit that does not succeed changes nothing. -/
  failed : ∀ k actor q, (events k).Manages n actor q → (run crypto events k).succeeds crypto (events k) = false →
    document crypto events n (k + 1) = document crypto events n k ∧
      (run crypto events (k + 1)).keyEpochs = (run crypto events k).keyEpochs ∧
      (run crypto events (k + 1)).revisions = (run crypto events k).revisions

/-- With room in the counters, a change of the document is a successful edit or a
removal. -/
theorem document_changed {k : ℕ} (hroom : (run crypto events k).HasRoom (events k))
    (hne : document crypto events n (k + 1) ≠ document crypto events n k) :
    (∃ actor q, (events k).Manages n actor q ∧ q.action ≠ .inspect ∧ (run crypto events k).succeeds crypto (events k)) ∨
      ∃ d, (events k).Removes n d := by
  have hw := wf_run crypto events k
  have hdoc : document crypto events n (k + 1) = ((run crypto events k).step crypto (events k)).tables.policy n := rfl
  rw [hdoc] at hne
  cases he : events k with
  | restart =>
    rw [he] at hne
    exact absurd rfl hne
  | call op inputs =>
    rw [he] at hne hroom
    obtain ⟨policy, -⟩ | ⟨departure, -, -, -⟩ | ⟨network, edit, -, -, -⟩ :=
      (perform_effect crypto inputs op hw).policyStep hw n
    · exact absurd policy hne
    · exact .inr ⟨_, departure.removes inputs⟩
    · rename_i q owner next
      obtain ⟨t, hop⟩ := edit.call
      refine .inl ⟨op.actor, q, ⟨network, t, inputs, by rw [← hop]⟩, ?_, ?_⟩
      · obtain ⟨haction, -⟩ | ⟨haction, -⟩ := edit.edit.requested <;> simp [haction]
      · by_contra hfail
        rw [Bool.not_eq_true] at hfail
        rw [hop] at hroom hfail hne
        have hcore := core_eq_of_not_succeeds hw hroom hfail
        exact hne (congrArg (fun c => c.tables.policy n) hcore)

/-- No policy update is lost, in every run whose accepted edits find room in the
counters. -/
theorem no_lost_update (hroom : ∀ k, (run crypto events k).HasRoom (events k)) : NoLostUpdate crypto events n where
  raised k hne := ⟨(document_step crypto events n k).resolve_left hne, document_changed crypto events n (hroom k) hne⟩
  unique _ _ h := document_unique crypto events n h
  single j k actor actor' q q' hjk hq hq' haction haction' hj hk := by
    obtain hlt | hlt := Nat.lt_or_gt_of_ne hjk
    · exact single_success crypto events n hlt hq hq' haction haction' hj hk
    · exact (single_success crypto events n hlt hq' hq haction' haction hk hj).symm
  based k actor q hq haction hok := edit_succeeds crypto events n hq haction hok
  failed k actor q hq hfail := by
    obtain ⟨rfl, t, inputs, he⟩ := hq
    have hk := hroom k
    rw [he] at hk hfail
    have hcore := core_eq_of_not_succeeds (wf_run crypto events k) hk hfail
    rw [← he] at hcore
    exact ⟨congrArg (fun c => c.tables.policy q.networkId) hcore, congrArg (fun c => c.keyEpochs) hcore,
      congrArg (fun c => c.revisions) hcore⟩

theorem no_lost_update_sole : (document noCrypto consenting soleNetwork 4).revision = 2 ∧
    NoLostUpdate noCrypto consenting soleNetwork :=
  ⟨by decide +kernel, no_lost_update noCrypto consenting soleNetwork consenting_hasRoom⟩

/-- With the peer-state revision used up, an edit that fails is stored. -/
theorem failed_edit_stored : ¬ NoLostUpdate noCrypto exhausting soleNetwork := by
  intro h
  have hfailed := (h.failed (2 ^ 64) soleOwner
    { action := .requestGateway, networkId := soleNetwork, policy := { revision := 1 } } ⟨rfl, 0, soleInputs, rfl⟩
    (by rw [run_exhausting]; decide +kernel)).1
  rw [document, document, run_succ, run_exhausting, show exhausting (2 ^ 64) = requesting from rfl] at hfailed
  exact absurd hfailed (by decide +kernel)

end Service

end LanLink
