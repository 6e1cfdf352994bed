import LanLink.Relay.Simulation
/-!
# Runs of the machine

The core after a step is one the machine allows, so invariants of the machine
hold in every state of every run of the service. The first one is that the
tables stay well formed.
-/
open LanLink.Lib

namespace LanLink

open Db (MemberRow)

/-! ## Removals -/

/-- `d` is out of the networks `gone` and out of their policies; nothing else of
memberships and policies changed. -/
structure Departed (d : DeviceId) (gone : List NetworkId) (t t' : Tables) : Prop where
  wf : t'.Wf
  networks : t'.networks = t.networks
  accountDevices : t'.accountDevices = t.accountDevices
  joinRequests : t'.joinRequests = t.joinRequests
  invitations : t'.invitations = t.invitations
  links : t'.links = t.links
  mem : ∀ n e, (n, e) ∈ t'.memberships ↔ (n, e) ∈ t.memberships ∧ ¬ (e = d ∧ n ∈ gone)
  policy : ∀ n, t'.policy n = if n ∈ gone then prunedPolicy d (t.policy n) else t.policy n

theorem Departed.refl {t : Tables} (hw : t.Wf) (d : DeviceId) : Departed d [] t t where
  wf := hw
  networks := rfl
  accountDevices := rfl
  joinRequests := rfl
  invitations := rfl
  links := rfl
  mem _ _ := by simp
  policy _ := by simp

theorem Departed.leave {t : Tables} (hw : t.Wf) {n : NetworkId} {d : DeviceId} (hm : MemberRow t n d) :
    Departed d [n] t (t.leave n d) where
  wf := hw.change (.leave hm)
  networks := rfl
  accountDevices := rfl
  joinRequests := rfl
  invitations := rfl
  links := rfl
  mem m e := by
    rw [Tables.leave_memberships, AList.mem_erase]
    simp only [ne_eq, Prod.mk.injEq, List.mem_singleton]
    tauto
  policy m := by
    rw [Tables.policy_leave]
    by_cases h : m = n <;> simp [h]

theorem Departed.trans {t t' t'' : Tables} {d : DeviceId} {gone gone' : List NetworkId} (h : Departed d gone t t')
    (h' : Departed d gone' t' t'') (hdisjoint : ∀ n ∈ gone', n ∉ gone) : Departed d (gone ++ gone') t t'' where
  wf := h'.wf
  networks := h'.networks.trans h.networks
  accountDevices := h'.accountDevices.trans h.accountDevices
  joinRequests := h'.joinRequests.trans h.joinRequests
  invitations := h'.invitations.trans h.invitations
  links := h'.links.trans h.links
  mem n e := by
    rw [h'.mem, h.mem, List.mem_append]
    tauto
  policy n := by
    rw [h'.policy, h.policy]
    by_cases h₁ : n ∈ gone' <;> by_cases h₂ : n ∈ gone <;> simp [h₁, h₂]
    exact absurd h₂ (hdisjoint n h₁)

theorem Purged.departed {d : DeviceId} {networks : List NetworkId} {c c' : Core} (h : Purged d networks c c')
    (hw : c.tables.Wf) (hnodup : networks.Nodup) : Departed d networks c.tables c'.tables := by
  induction h with
  | nil => exact .refl hw d
  | cons member advanced rest ih =>
    rw [List.nodup_cons] at hnodup
    have hfirst := Departed.leave hw member
    have hrest := ih (by rw [advanced.tables]; exact hfirst.wf) hnodup.2
    rw [advanced.tables] at hrest
    refine hfirst.trans hrest fun m hm hmem => hnodup.1 ?_
    rwa [List.mem_singleton.1 hmem] at hm

theorem Purged.activeKeys {d : DeviceId} {networks : List NetworkId} {c c' : Core} (h : Purged d networks c c') :
    c'.activeKeys = c.activeKeys := by
  induction h with
  | nil => rfl
  | cons member advanced rest ih => exact ih.trans advanced.ticked.activeKeys

/-- The networks left count their own epochs and revisions. -/
theorem Purged.counted {d : DeviceId} {networks : List NetworkId} {c c' : Core} (h : Purged d networks c c') :
    Counted (· ∈ networks) c.keyEpochs c'.keyEpochs ∧ Counted (· ∈ networks) c.revisions c'.revisions := by
  induction h with
  | nil => exact ⟨.refl _, .refl _⟩
  | @cons m networks c c₁ c' member advanced rest ih =>
    have hticked := advanced.ticked
    have hfirst (k : NetworkId) (hk : k = m) : k ∈ m :: networks := by simp [hk]
    have hrest (k : NetworkId) (hk : k ∈ networks) : k ∈ m :: networks := by simp [hk]
    exact ⟨(hticked.epochs.mono hfirst).trans (ih.1.mono hrest), (hticked.revisions.mono hfirst).trans (ih.2.mono hrest)⟩

/-- What `device_revoke` removed before it stopped. -/
theorem Stopped.departed {n : NetworkId} {d : DeviceId} {before after : List NetworkId} {c c₁ c' : Core}
    (hw : c.tables.Wf) (hnodup : (before ++ n :: after).Nodup) (hpurged : Purged d before c c₁)
    (h : Stopped n d c₁ c') :
    ∃ gone, (∀ m ∈ gone, m ∈ before ++ n :: after) ∧ Departed d gone c.tables c'.tables := by
  have hbefore := hpurged.departed hw (List.nodup_append.1 hnodup).1
  cases h with
  | policy _ _ => exact ⟨before, fun m hm => by simp [hm], hbefore⟩
  | counter member advanced =>
    refine ⟨before ++ [n], fun m hm => ?_, ?_⟩
    · simp only [List.mem_append, List.mem_cons, List.not_mem_nil, or_false] at hm ⊢
      tauto
    · rw [advanced.tables]
      refine hbefore.trans (.leave hbefore.wf member) fun m hm hmem => ?_
      rw [List.mem_singleton.1 hm] at hmem
      exact (List.nodup_append.1 hnodup).2.2 n hmem n (by simp) rfl

/-! ## Well-formed tables -/

section
variable {crypto : Crypto} {c c' : Core} {op : Op} {ok : Bool}

theorem OwnsDevice.change {actor d : DeviceId} {t : Tables} {row : AccountDeviceRow} (hw : t.Wf)
    (h : OwnsDevice t actor d row) : Change t (t.revoke d row) := by
  obtain ⟨a, ha, howner⟩ := h.owner
  refine .revoke h.device (Service.not_account_owner hw h.device ha ?_)
  rw [howner]
  exact Ne.symm h.other

theorem Effect.wf (h : Effect crypto c op ok c') (hw : c.tables.Wf) : c'.tables.Wf := by
  cases h with
  | quiet _ => exact hw
  | created password _ _ nonzero fresh unassigned inside unleased advanced =>
    rw [advanced.tables]
    exact hw.change (.create password nonzero fresh unassigned inside unleased)
  | joined atMs _ joinable advanced =>
    rw [advanced.tables]
    exact hw.change (.join atMs joinable)
  | requested atMs _ network member invitation => exact hw.change (.request atMs network member invitation)
  | redeemed redemption => exact hw.change (.redeem _ redemption.live redemption.network redemption.nonmember)
  | redeemJoined joinedAtMs redemption joinable advanced =>
    rw [advanced.tables]
    exact (hw.change (.redeem _ redemption.live redemption.network redemption.nonmember)).change (.join joinedAtMs joinable)
  | left _ member advanced =>
    rw [advanced.tables]
    exact hw.change (.leave member)
  | invited _ manager member request => exact hw.change (.invite _ manager.1 member request)
  | edited _ howner _ _ _ _ _ advanced =>
    rw [advanced.tables]
    exact hw.change (.savePolicy _ _ (Tables.mem_networks_of_owner howner))
  | linkIssued digest _ _ manager => exact hw.change (.issueLink _ _ _ manager.1)
  | linksDropped _ _ => exact hw.change (.dropLinks _)
  | passwordSet verifier _ manager => exact hw.change (.setAccess _ _ fun _ => manager.1)
  | accountOpened _ _ fresh single unknown => exact hw.change (.openAccount fresh single unknown)
  | enrollmentOffered enrollment _ account => exact hw.change (.offerEnrollment _ _ account)
  | enrolled digest label _ account unknown =>
    refine hw.change (.enroll _ _ account fun row hrow => ?_)
    exact absurd (Map.mem_of_lookup hrow) unknown
  | revoked _ owns networksOf _ purged => exact (purged.departed (hw.change (owns.change hw)) networksOf.nodup).wf
  | revokeStopped _ owns networksOf _ purged stopped =>
    obtain ⟨gone, -, hdeparted⟩ := stopped.departed (hw.change (owns.change hw)) networksOf.nodup purged
    exact hdeparted.wf
  | keyPublished _ _ ticked => exact ticked.tables ▸ hw
  | keyRemoved _ ticked => exact ticked.tables ▸ hw
  | capableSet _ ticked => exact ticked.tables ▸ hw

end

/-! ## Steps -/

/-- A restart keeps the tables. -/
def Core.restarted (c : Core) : Core := { tables := c.tables }

/-- A step of the service, on cores. -/
inductive CoreStep (crypto : Crypto) (c : Core) : Event → Bool → Core → Prop
  | call {op : Op} {inputs : Inputs} {ok : Bool} {c' : Core} (effect : Effect crypto c op ok c') :
      CoreStep crypto c (.call op inputs) ok c'
  | restart : CoreStep crypto c .restart true c.restarted

theorem CoreStep.wf {crypto : Crypto} {c c' : Core} {e : Event} {ok : Bool} (h : CoreStep crypto c e ok c')
    (hw : c.tables.Wf) : c'.tables.Wf := by
  cases h with
  | call effect => exact effect.wf hw
  | restart => exact hw

namespace Service
variable (crypto : Crypto)

/-- Whether a step reports success. -/
def succeeds (s : Service) (e : Event) : Bool := succeeded Reply.code (s.replies crypto e)

theorem step_core {s : Service} (hw : s.tables.Wf) (e : Event) :
    CoreStep crypto s.core e (s.succeeds crypto e) (s.step crypto e).core := by
  cases e with
  | call op inputs => exact .call (perform_effect crypto inputs op hw)
  | restart => exact .restart

theorem wf_step {s : Service} (hw : s.tables.Wf) (e : Event) : (s.step crypto e).tables.Wf :=
  (step_core crypto hw e).wf hw

/-- The tables are well formed in every state of every run over a well-formed
store. -/
theorem wf_reachable {s₀ s : Service} (hw : s₀.tables.Wf) (h : Reachable (step crypto) s₀ s) : s.tables.Wf :=
  h.inv (fun s => s.tables.Wf) hw fun _ e hw => wf_step crypto hw e

/-- The state after `k` events of a run that starts with an empty store. -/
def run (events : ℕ → Event) (k : ℕ) : Service := states (step crypto) (fresh {}) events k

theorem run_succ (events : ℕ → Event) (k : ℕ) :
    run crypto events (k + 1) = (run crypto events k).step crypto (events k) := rfl

theorem run_reachable (events : ℕ → Event) (k : ℕ) : Reachable (step crypto) (fresh {}) (run crypto events k) :=
  states_reachable events k

theorem wf_run (events : ℕ → Event) (k : ℕ) : (run crypto events k).tables.Wf :=
  wf_reachable crypto (show (fresh {}).tables.Wf from Tables.wf_empty) (run_reachable crypto events k)

/-- An invariant of the machine holds throughout every run. -/
theorem core_run (I : Core → Prop) (h0 : I { tables := {} })
    (hs : ∀ c e ok c', c.tables.Wf → CoreStep crypto c e ok c' → I c → I c') (events : ℕ → Event) (k : ℕ) :
    I (run crypto events k).core := by
  induction k with
  | zero => exact h0
  | succ k ih =>
    have hw := wf_run crypto events k
    exact hs _ _ _ _ hw (step_core crypto hw (events k)) ih

end Service

end LanLink
