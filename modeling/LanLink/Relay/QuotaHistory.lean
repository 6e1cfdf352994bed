import LanLink.Relay.QuotaBounds
/-!
# Histories of the forwarding quota

Calls come one after another, the clock does not go back. In any window of time
a device, a network and the whole relay get twice their rate and what the rate
gives in the window. Dropping idle buckets changes no decision: the same calls
are decided in the same way by a quota that never drops one.
-/
open LanLink.Lib

namespace LanLink

theorem Lib.Map.size_le_of_subset {κ α β : Type} {a : Map κ α} {b : Map κ β} (h : ∀ k, k ∈ a → k ∈ b) :
    a.size ≤ b.size := by
  have hsub : a.keys ⊆ b.keys := fun k hk => h k hk
  have hlength := (List.subperm_of_subset a.nodupKeys hsub).length_le
  simpa [AList.keys, List.keys, Map.size] using hlength

namespace ForwardingQuota

/-- Calls with the time each is made at. -/
abbrev Calls := ℕ → QuotaCall × Time

/-- The quota before call `k`. -/
def history (q : ForwardingQuota) (calls : Calls) : ℕ → ForwardingQuota :=
  states (fun q c => (q.serve c.1 c.2).2) q calls

def decision (q : ForwardingQuota) (calls : Calls) (k : ℕ) : Bool :=
  ((q.history calls k).serve (calls k).1 (calls k).2).1

/-- What call `k` takes of a bucket. -/
def spent (q : ForwardingQuota) (calls : Calls) (m : Meter) (g : Gauge) (k : ℕ) : ℚ :=
  (calls k).1.taken (q.decision calls k) m g

section
variable {q q₀ : ForwardingQuota} {now t : Time} {limits : ForwardingLimits} {calls : Calls}

/-! ## One step -/

theorem sound_configure (h : q₀.configure limits = .ok q) (now : Time) : q.Sound now := by
  have hempty (m : Meter) : q.bucket m = {} := by
    unfold configure at h
    simp only [check] at h
    split at h
    · cases h
      cases m <;> rfl
    · cases h
  intro m
  rw [hempty]
  exact filled_empty _ _

theorem Sound.serve (hq : q.Sound now) (call : QuotaCall) : (q.serve call now).2.Sound now :=
  (serve_charged hq call).sound hq.prune

theorem limits_serve (hq : q.Sound now) (call : QuotaCall) : (q.serve call now).2.limits = q.limits :=
  (serve_charged hq call).limits.trans (limits_prune q now)

/-- A call changes levels by what it takes. -/
theorem Sound.level_serve (hq : q.Sound now) (call : QuotaCall) (ht : now ≤ t) (m : Meter) (g : Gauge) :
    (q.serve call now).2.level m g t =
      min (rate q.limits m g * burst)
        (q.level m g now - call.taken (q.serve call now).1 m g + toSeconds (t - now) * rate q.limits m g) := by
  rw [(serve_charged hq call).level hq.prune ht, limits_prune, hq.level_prune le_rfl]

theorem Sound.taken_le (hq : q.Sound now) (call : QuotaCall) (m : Meter) (g : Gauge) :
    call.taken (q.serve call now).1 m g ≤ q.level m g now := by
  rw [← hq.level_prune le_rfl]
  exact (serve_charged hq call).paid m g

theorem taken_nonneg (call : QuotaCall) (admitted : Bool) (m : Meter) (g : Gauge) : 0 ≤ call.taken admitted m g := by
  unfold QuotaCall.taken
  split
  · exact Nat.cast_nonneg _
  · exact le_rfl

/-- A refused call takes nothing. -/
theorem Sound.level_refused (hq : q.Sound now) {call : QuotaCall} (hrefused : (q.serve call now).1 = false)
    (ht : now ≤ t) (m : Meter) (g : Gauge) : (q.serve call now).2.level m g t = q.level m g t := by
  rw [hq.level_serve call ht, hrefused, hq.level_later ht]
  simp [QuotaCall.taken]

/-! ## Every step -/

theorem sound_history (hq : q.Sound (calls 0).2) (hclock : ∀ k, (calls k).2 ≤ (calls (k + 1)).2) (k : ℕ) :
    (q.history calls k).Sound (calls k).2 ∧ (q.history calls k).limits = q.limits := by
  induction k with
  | zero => exact ⟨hq, rfl⟩
  | succ k ih => exact ⟨(ih.1.serve _).later (hclock k), (limits_serve ih.1 _).trans ih.2⟩

/-- Every bucket is metered by the levels before each call. -/
theorem metered_history (hq : q.Sound (calls 0).2) (hclock : ∀ k, (calls k).2 ≤ (calls (k + 1)).2) (m : Meter)
    (g : Gauge) :
    Metered (rate q.limits m g * burst) (rate q.limits m g : ℚ) (fun k => toSeconds (calls k).2)
      (fun k => (q.history calls k).level m g (calls k).2) (q.spent calls m g) (fun _ => 0) := by
  constructor
  · intro k
    exact toSeconds_le.2 (hclock k)
  · intro k
    obtain ⟨hsound, hlimits⟩ := sound_history hq hclock k
    rw [← hlimits]
    exact (hsound.level_range le_rfl m g).2
  · intro k
    exact taken_nonneg _ _ m g
  · intro k
    exact (sound_history hq hclock k).1.taken_le _ m g
  · intro k
    exact le_rfl
  · intro k
    obtain ⟨hsound, hlimits⟩ := sound_history hq hclock k
    have hlevel := hsound.level_serve (calls k).1 (hclock k) m g
    rw [hlimits, toSeconds_sub, mul_comm (_ - _)] at hlevel
    rw [add_zero]
    exact hlevel.trans_le (min_le_right _ _)

/-! ## A quota that never drops a bucket -/

/-- A call served without dropping idle buckets first. -/
def serveUnpruned (q : ForwardingQuota) (call : QuotaCall) (now : Time) : Bool × ForwardingQuota :=
  { q with nextPrune := now + 1 }.serve call now

def unpruned (q : ForwardingQuota) (calls : Calls) : ℕ → ForwardingQuota :=
  states (fun q c => (q.serveUnpruned c.1 c.2).2) q calls

/-- There is room in the tables for one more bucket. -/
def HasRoom (q : ForwardingQuota) : Prop := q.devices.size < 4096 ∧ q.networks.size < 4096

/-- The arguments are in range. -/
def QuotaCall.Fits : QuotaCall → Prop
  | .control _ => True
  | .admits _ _ size recipients =>
    size ≠ 0 ∧ recipients ≠ 0 ∧ recipients ≤ 4096 ∧ size ≤ (2 ^ 64 - 1) / recipients

def tracked (q : ForwardingQuota) : Meter → Prop
  | .device d => d ∈ q.devices
  | .network n => n ∈ q.networks
  | .authority => True

/-- With room in the tables the levels decide. -/
theorem serve_iff (hq : q.Sound now) (hroom : (q.prune now).HasRoom) (call : QuotaCall) :
    (q.serve call now).1 = true ↔ call.Fits ∧ ∀ m, call.Concerns m → ∀ g, call.price g ≤ q.level m g now := by
  have hlevel (m : Meter) (g : Gauge) := hq.level_prune le_rfl m g
  simp only [← hlevel]
  have hp := hq.prune
  obtain ⟨hdevices, hnetworks⟩ := hroom
  cases call with
  | control actor =>
    simp only [serve, control]
    generalize q.prune now = p at hp hdevices ⊢
    rw [if_neg (by omega)]
    have hcontrols : (refill (p.devices.getD actor {}) p.limits.deviceBytesPerSecond p.limits.deviceDeliveriesPerSecond
        p.limits.controlPerSecond now).controls = p.level (.device actor) .controls now := rfl
    rw [hcontrols]
    constructor
    · intro h
      refine ⟨trivial, ?_⟩
      rintro m rfl g
      split at h
      · cases h
      · cases g with
        | controls =>
          rename_i hone
          simpa [QuotaCall.price] using not_lt.1 hone
        | bytes => simpa [QuotaCall.price] using (hp.level_range le_rfl _ .bytes).1
        | deliveries => simpa [QuotaCall.price] using (hp.level_range le_rfl _ .deliveries).1
    · rintro ⟨-, hpaid⟩
      have hone := hpaid _ rfl .controls
      rw [if_neg]
      simpa [QuotaCall.price] using hone
  | admits actor network size recipients =>
    simp only [serve, admits]
    generalize q.prune now = p at hp hdevices hnetworks ⊢
    split
    · rename_i hbad
      have hunfit : ¬ (QuotaCall.admits actor network size recipients).Fits := by
        rintro ⟨hsize, hrecipients, hmany, hbytes⟩
        omega
      exact iff_of_false Bool.false_ne_true fun h => hunfit h.1
    · rename_i hgood
      simp only [not_or, not_lt] at hgood
      have hfits : (QuotaCall.admits actor network size recipients).Fits :=
        ⟨hgood.1, hgood.2.1, hgood.2.2.1, hgood.2.2.2.1⟩
      split
      · rename_i hshort
        refine iff_of_false Bool.false_ne_true fun h => ?_
        have hdevice := h.2 (.device actor) (.inl rfl)
        have hnetwork := h.2 (.network network) (.inr (.inl rfl))
        have hauthority := h.2 .authority (.inr (.inr rfl))
        rcases hshort with hlt | hlt | hlt | hlt | hlt | hlt
        · exact absurd hlt (not_lt.2 (hdevice .bytes))
        · exact absurd hlt (not_lt.2 (hnetwork .bytes))
        · exact absurd hlt (not_lt.2 (hdevice .deliveries))
        · exact absurd hlt (not_lt.2 (hnetwork .deliveries))
        · exact absurd hlt (not_lt.2 (hauthority .bytes))
        · exact absurd hlt (not_lt.2 (hauthority .deliveries))
      · rename_i henough
        simp only [not_or, not_lt] at henough
        obtain ⟨h₁, h₂, h₃, h₄, h₅, h₆⟩ := henough
        refine iff_of_true rfl ⟨hfits, fun m hm g => ?_⟩
        cases g with
        | controls => simpa [QuotaCall.price] using (hp.level_range le_rfl m .controls).1
        | bytes => rcases hm with rfl | rfl | rfl <;> assumption
        | deliveries => rcases hm with rfl | rfl | rfl <;> assumption

/-- A call that is not refused at once leaves its buckets tracked. -/
theorem tracked_serve (hroom : (q.prune now).HasRoom) (call : QuotaCall) (m : Meter) :
    (q.serve call now).2.tracked m ↔ (q.prune now).tracked m ∨ (call.Fits ∧ call.Concerns m) := by
  obtain ⟨hdevices, hnetworks⟩ := hroom
  cases call with
  | control actor =>
    simp only [serve, control]
    generalize q.prune now = p at hdevices ⊢
    rw [if_neg (by omega)]
    split <;> cases m <;>
      simp [rejectControl, tracked, QuotaCall.Fits, QuotaCall.Concerns, AList.mem_insert, or_comm]
  | admits actor network size recipients =>
    simp only [serve, admits]
    generalize q.prune now = p at hdevices hnetworks ⊢
    split
    · rename_i hbad
      have hunfit : ¬ (QuotaCall.admits actor network size recipients).Fits := by
        rintro ⟨hsize, hrecipients, hmany, hbytes⟩
        omega
      simp [hunfit, rejectQuota, tracked]
    · rename_i hgood
      simp only [not_or, not_lt] at hgood
      have hfits : (QuotaCall.admits actor network size recipients).Fits :=
        ⟨hgood.1, hgood.2.1, hgood.2.2.1, hgood.2.2.2.1⟩
      split <;> cases m <;>
        simp [rejectQuota, tracked, hfits, QuotaCall.Concerns, AList.mem_insert, or_comm]

theorem prune_unpruned (q : ForwardingQuota) (now : Time) :
    prune { q with nextPrune := now + 1 } now = { q with nextPrune := now + 1 } := if_pos (lt_add_one now)

theorem tracked_of_prune {m : Meter} (h : (q.prune now).tracked m) : q.tracked m := by
  unfold prune at h
  split at h
  · exact h
  · cases m with
    | device d => exact Map.mem_of_mem_eraseIf h
    | network n => exact Map.mem_of_mem_eraseIf h
    | authority => trivial

/-- `p` may have dropped buckets that `q` still has; they decide alike from `now` on. -/
structure Alike (p q : ForwardingQuota) (now : Time) : Prop where
  sound : p.Sound now
  sound' : q.Sound now
  limits : p.limits = q.limits
  level : ∀ m g t, now ≤ t → p.level m g t = q.level m g t
  tracked : ∀ m, p.tracked m → q.tracked m

namespace Alike
variable {p : ForwardingQuota}

theorem refl (h : q.Sound now) : Alike q q now := ⟨h, h, rfl, fun _ _ _ _ => rfl, fun _ => id⟩

theorem later (h : Alike p q now) (ht : now ≤ t) : Alike p q t :=
  ⟨h.sound.later ht, h.sound'.later ht, h.limits, fun m g u hu => h.level m g u (ht.trans hu), h.tracked⟩

theorem hasRoom (h : Alike p q now) (hroom : q.HasRoom) : (p.prune now).HasRoom := by
  have hsub (m : Meter) (hm : (p.prune now).tracked m) : q.tracked m := h.tracked m (tracked_of_prune hm)
  constructor
  · exact (Map.size_le_of_subset fun d hd => hsub (.device d) hd).trans_lt hroom.1
  · exact (Map.size_le_of_subset fun n hn => hsub (.network n) hn).trans_lt hroom.2

/-- The same call is decided alike and leaves them alike. -/
theorem serve (h : Alike p q now) (hroom : q.HasRoom) (call : QuotaCall) :
    (p.serve call now).1 = (q.serveUnpruned call now).1 ∧
      Alike (p.serve call now).2 (q.serveUnpruned call now).2 now := by
  have hp := h.sound
  -- neither the buckets nor the levels read `nextPrune`
  have hq : Sound { q with nextPrune := now + 1 } now := h.sound'
  have hroom' : (prune { q with nextPrune := now + 1 } now).HasRoom := by
    rw [prune_unpruned]
    exact hroom
  have hsame (m : Meter) (g : Gauge) : p.level m g now = ForwardingQuota.level { q with nextPrune := now + 1 } m g now :=
    h.level m g now le_rfl
  have hdecision : (p.serve call now).1 = (q.serveUnpruned call now).1 := by
    rw [Bool.eq_iff_iff, serve_iff hp (h.hasRoom hroom), serveUnpruned, serve_iff hq hroom']
    simp only [hsame]
  refine ⟨hdecision, hp.serve call, hq.serve call, ?_, fun m g t ht => ?_, fun m hm => ?_⟩
  · exact (limits_serve hp call).trans (h.limits.trans (limits_serve hq call).symm)
  · rw [hp.level_serve call ht, hdecision, serveUnpruned, hq.level_serve call ht, hsame, h.limits]
  · rw [tracked_serve (h.hasRoom hroom)] at hm
    rw [serveUnpruned, tracked_serve hroom', prune_unpruned]
    rcases hm with hm | hm
    · exact .inl (h.tracked m (tracked_of_prune hm))
    · exact .inr hm

end Alike

/-- As long as it has room, a quota that drops no bucket stays like the one that does. -/
theorem alike_history (hq : q.Sound (calls 0).2) (hclock : ∀ k, (calls k).2 ≤ (calls (k + 1)).2) {k : ℕ}
    (hroom : ∀ i < k, (q.unpruned calls i).HasRoom) :
    Alike (q.history calls k) (q.unpruned calls k) (calls k).2 := by
  induction k with
  | zero => exact .refl hq
  | succ k ih =>
    have halike := ih fun i hi => hroom i (by omega)
    exact (halike.serve (hroom k (by omega)) (calls k).1).2.later (hclock k)

theorem decision_unpruned (hq : q.Sound (calls 0).2) (hclock : ∀ k, (calls k).2 ≤ (calls (k + 1)).2) {k : ℕ}
    (hroom : ∀ i ≤ k, (q.unpruned calls i).HasRoom) :
    q.decision calls k = ((q.unpruned calls k).serveUnpruned (calls k).1 (calls k).2).1 :=
  ((alike_history hq hclock fun i hi => hroom i hi.le).serve (hroom k le_rfl) (calls k).1).1

theorem history_add (q : ForwardingQuota) (calls : Calls) (j k : ℕ) :
    q.history calls (j + k) = (q.history calls j).history (fun i => calls (j + i)) k := by
  induction k with
  | zero => rfl
  | succ k ih => rw [← add_assoc, history, states, ← history, ih, history, history, states]

/-! ## The quota -/

/-- What the quota guarantees about a sequence of calls. -/
structure Guaranteed (q : ForwardingQuota) (calls : Calls) : Prop where
  /-- Twice the rate, and the rate times the length of the window. -/
  window : ∀ m g n s t, s ≤ t →
    ∑ k ∈ (Finset.range n).filter (fun k => s ≤ (calls k).2 ∧ (calls k).2 ≤ t), q.spent calls m g k ≤
      2 * rate q.limits m g + rate q.limits m g * toSeconds (t - s)
  nonneg : ∀ k m g, 0 ≤ amount ((q.history calls k).bucket m) g
  refused : ∀ k, q.decision calls k = false → ∀ m g t, (calls k).2 ≤ t →
    (q.history calls (k + 1)).level m g t = (q.history calls k).level m g t
  /-- If no bucket were dropped from call `j` on, call `j + k` would be decided as it is. -/
  pruning : ∀ j k, (∀ i ≤ k, ((q.history calls j).unpruned (fun i => calls (j + i)) i).HasRoom) →
    q.decision calls (j + k) =
      (((q.history calls j).unpruned (fun i => calls (j + i)) k).serveUnpruned (calls (j + k)).1 (calls (j + k)).2).1

theorem quota_guaranteed (hconfigured : q₀.configure limits = .ok q) (hclock : ∀ k, (calls k).2 ≤ (calls (k + 1)).2) :
    q.Guaranteed calls := by
  have hq := sound_configure hconfigured (calls 0).2
  have hsound (k : ℕ) : (q.history calls k).Sound (calls k).2 := (sound_history hq hclock k).1
  constructor
  · intro m g n s t hst
    have hcapacity : (0 : ℚ) ≤ rate q.limits m g * burst := mul_nonneg (Nat.cast_nonneg _) (by norm_num [burst])
    have hwindow := (metered_history hq hclock m g).window (Nat.cast_nonneg _) hcapacity n (toSeconds_le.2 hst)
    simp only [toSeconds_le, ← toSeconds_sub, Finset.sum_const_zero, add_zero] at hwindow
    rwa [burst, mul_comm _ (2 : ℚ)] at hwindow
  · intro k m g
    exact (hsound k m).nonneg g
  · intro k hrefused m g t ht
    exact (hsound k).level_refused hrefused ht m g
  · intro j k hroom
    have hdecision := decision_unpruned (hsound j) (fun k => hclock (j + k)) hroom
    rwa [decision, ← history_add] at hdecision

/-- One device sends one packet a second. -/
theorem quota_guaranteed_steady :
    (∀ k : ℕ, ((k : ℤ) * 1000000000) ≤ ((k + 1 : ℕ) : ℤ) * 1000000000) ∧
      ({} : ForwardingQuota).Guaranteed fun k => (.admits 1 7 1200 2, k * 1000000000) := by
  have hclock (k : ℕ) : ((k : ℤ) * 1000000000) ≤ ((k + 1 : ℕ) : ℤ) * 1000000000 := by
    push_cast
    linarith
  exact ⟨hclock, quota_guaranteed (show configure {} {} = .ok {} from rfl) hclock⟩

end

end ForwardingQuota

end LanLink
