import LanLink.Lib.Runs
import LanLink.Network.Filters
import LanLink.Relay.QuotaBounds
/-!
# Runs of the discovery guard

`LanDiscoveryGuard::permit`, call after call with a clock that does not go back.
The two buckets bound what is permitted in any window of time. That bounds the
digests less than 100 ms old, so the table of digests never fills up and nothing
is dropped from it early; so a copy of a discovery packet is refused until the
first is 100 ms old.
-/
open LanLink.Lib

namespace LanLink

namespace LanDiscoveryGuard

/-- The two buckets. -/
inductive Gauge
  | packets | bytes
  deriving DecidableEq, Repr

def amount (g : LanDiscoveryGuard) : Gauge → ℚ
  | .packets => g.packets
  | .bytes => g.bytes

def capacity : Gauge → ℚ
  | .packets => 32
  | .bytes => 65536

/-- Tokens a second. -/
def rate : Gauge → ℚ
  | .packets => 16
  | .bytes => 32768

/-- What a packet costs. -/
def cost (packet : Bytes) : Gauge → ℚ
  | .packets => 1
  | .bytes => packet.length

/-- 100 ms. -/
def freshTime : Time := 100000000

theorem rate_nonneg (γ : Gauge) : 0 ≤ rate γ := by cases γ <;> norm_num [rate]

theorem capacity_nonneg (γ : Gauge) : 0 ≤ capacity γ := by cases γ <;> norm_num [capacity]

theorem cost_nonneg (packet : Bytes) (γ : Gauge) : 0 ≤ cost packet γ := by
  cases γ with
  | packets => norm_num [cost]
  | bytes => exact Nat.cast_nonneg _

/-! ## Refilling -/

/-- The buckets are not overdrawn, hold no more than they can, and no token is from the future. -/
structure Sound (g : LanDiscoveryGuard) (now : Time) : Prop where
  nonneg : ∀ γ, 0 ≤ g.amount γ
  capped : ∀ γ, g.amount γ ≤ capacity γ
  past : g.initialized = true → g.updated ≤ now

section
variable {g : LanDiscoveryGuard} {now t : Time}

theorem sound_empty (now : Time) : Sound {} now where
  nonneg γ := by cases γ <;> norm_num [amount]
  capped γ := by cases γ <;> exact le_rfl
  past h := nomatch h

theorem Sound.later (h : Sound g now) (ht : now ≤ t) : Sound g t :=
  ⟨h.nonneg, h.capped, fun hinit => (h.past hinit).trans ht⟩

/-- A bucket at `t`. -/
theorem amount_refill (h : Sound g t) (γ : Gauge) : (g.refill t).amount γ =
    if g.initialized then min (capacity γ) (g.amount γ + rate γ * toSeconds (t - g.updated)) else g.amount γ := by
  have hcap := h.capped γ
  cases hinit : g.initialized with
  | false =>
    simp only [refill, hinit, Bool.false_eq_true, if_false, lt_irrefl]
    cases γ <;> rfl
  | true =>
    have hpast := h.past hinit
    simp only [refill, hinit, if_true]
    split
    · cases γ <;> simp [amount, capacity, rate, mul_comm]
    · rename_i hlt
      have heq : t - g.updated = 0 := by
        rw [le_antisymm hpast (not_lt.1 hlt), sub_self]
      rw [heq, show toSeconds 0 = 0 by norm_num [toSeconds], mul_zero, add_zero, min_eq_right hcap]

theorem refill_state (h : Sound g t) : (g.refill t).initialized = true ∧ (g.refill t).updated = t ∧
    (g.refill t).recent = g.recent ∧ (g.refill t).counters = g.counters := by
  cases hinit : g.initialized with
  | false =>
    simp [refill, hinit]
  | true =>
    have hpast := h.past hinit
    simp only [refill, hinit, if_true]
    split
    · exact ⟨rfl, rfl, rfl, rfl⟩
    · rename_i hlt
      exact ⟨hinit, le_antisymm hpast (not_lt.1 hlt), rfl, rfl⟩

theorem amount_le_refill (h : Sound g t) (γ : Gauge) : g.amount γ ≤ (g.refill t).amount γ := by
  rw [amount_refill h]
  split
  · rename_i hinit
    have hgain : 0 ≤ rate γ * toSeconds (t - g.updated) :=
      mul_nonneg (rate_nonneg γ) (toSeconds_nonneg (sub_nonneg.2 (h.past hinit)))
    exact le_min (h.capped γ) (by linarith)
  · exact le_rfl

theorem Sound.refill (h : Sound g t) : Sound (g.refill t) t where
  nonneg γ := (h.nonneg γ).trans (amount_le_refill h γ)
  capped γ := by
    rw [amount_refill h]
    split
    · exact min_le_left _ _
    · exact h.capped γ
  past _ := (refill_state h).2.1.le

/-- Waiting gives the rate at most. -/
theorem amount_refill_later (h : Sound g now) (ht : now ≤ t) (γ : Gauge) :
    (g.refill t).amount γ ≤ (g.refill now).amount γ + rate γ * (toSeconds t - toSeconds now) := by
  have hgain : 0 ≤ rate γ * (toSeconds t - toSeconds now) :=
    mul_nonneg (rate_nonneg γ) (sub_nonneg.2 (toSeconds_le.2 ht))
  rw [amount_refill h, amount_refill (h.later ht)]
  split
  · have hsplit : toSeconds (t - g.updated) = toSeconds (now - g.updated) + (toSeconds t - toSeconds now) := by
      rw [toSeconds_sub, toSeconds_sub]
      ring
    rw [hsplit, mul_add, ← add_assoc, min_def, min_def]
    split <;> split <;> linarith
  · linarith

end

/-! ## One call -/

section
variable (crypto : Crypto)

/-- The digests that count as recent at `now`. -/
def fresh (g : LanDiscoveryGuard) (now : Time) : Map (BitVec 256) Time := g.recent.eraseIf fun _ seen => freshTime ≤ now - seen

variable {crypto} {g : LanDiscoveryGuard} {packet : Bytes} {now : Time}

/-- A call refuses a malformed packet, refuses a valid one, or permits it. -/
theorem permit_cases (h : Sound g now) :
    (validDiscovery packet = false ∧ ∃ counters, g.permit crypto packet now = (false, { g with counters })) ∨
    (validDiscovery packet = true ∧ ∃ counters,
      g.permit crypto packet now = (false, { g.refill now with recent := g.fresh now, counters })) ∨
    (validDiscovery packet = true ∧ (isDiscovery (readIpv4 packet 16) = true → crypto.sha256 packet ∉ g.fresh now) ∧
      (∀ γ, cost packet γ ≤ (g.refill now).amount γ) ∧ ∃ counters,
      g.permit crypto packet now = (true, { g.refill now with
        packets := (g.refill now).packets - 1
        bytes := (g.refill now).bytes - packet.length
        recent := if isDiscovery (readIpv4 packet 16) then
            (if (g.fresh now).size = 128 then eraseOldest (g.fresh now) else g.fresh now).insert (crypto.sha256 packet) now
          else g.fresh now
        counters })) := by
  obtain ⟨-, -, hrecent, -⟩ := refill_state h
  simp only [permit]
  by_cases hvalid : validDiscovery packet = true
  swap
  · left
    rw [if_pos hvalid]
    exact ⟨Bool.eq_false_iff.2 hvalid, _, rfl⟩
  right
  rw [if_neg (not_not.2 hvalid), hrecent]
  split
  · left
    exact ⟨hvalid, _, rfl⟩
  rename_i hnew
  split
  · left
    exact ⟨hvalid, _, rfl⟩
  rename_i htokens
  right
  refine ⟨hvalid, fun hdiscovery hmem => hnew ⟨hdiscovery, hmem⟩, ?_, _, rfl⟩
  intro γ
  rw [not_or, not_lt, not_lt] at htokens
  cases γ with
  | packets => exact htokens.1
  | bytes => exact htokens.2

end

/-! ## Runs -/

section
variable (crypto : Crypto) (inputs : ℕ → Bytes × Time)

/-- The guard before call `k`. -/
def before (k : ℕ) : LanDiscoveryGuard := states (fun g i => (g.permit crypto i.1 i.2).2) {} inputs k

def Permitted (k : ℕ) : Prop := ((before crypto inputs k).permit crypto (inputs k).1 (inputs k).2).1 = true

instance (k : ℕ) : Decidable (Permitted crypto inputs k) := inferInstanceAs (Decidable (_ = true))

/-- What call `k` takes out of a bucket. -/
def spent (γ : Gauge) (k : ℕ) : ℚ := if Permitted crypto inputs k then cost (inputs k).1 γ else 0

/-- What a bucket holds when call `k` is made. -/
def level (γ : Gauge) (k : ℕ) : ℚ := ((before crypto inputs k).refill (inputs k).2).amount γ

/-- The clock does not go back. -/
def Clocked : Prop := ∀ k, (inputs k).2 ≤ (inputs (k + 1)).2

variable {crypto inputs} {k : ℕ}

theorem Clocked.le (h : Clocked inputs) {j k : ℕ} (hjk : j ≤ k) : (inputs j).2 ≤ (inputs k).2 :=
  monotone_nat_of_le_succ (f := fun k => (inputs k).2) h hjk

/-- Calls in terms of the guard before and after. -/
theorem step_cases (h : Sound (before crypto inputs k) (inputs k).2) :
    (¬ Permitted crypto inputs k ∧ ∃ counters, before crypto inputs (k + 1) = { before crypto inputs k with counters }) ∨
    (¬ Permitted crypto inputs k ∧ ∃ counters, before crypto inputs (k + 1) =
      { (before crypto inputs k).refill (inputs k).2 with recent := (before crypto inputs k).fresh (inputs k).2, counters }) ∨
    (Permitted crypto inputs k ∧
      (isDiscovery (readIpv4 (inputs k).1 16) = true → crypto.sha256 (inputs k).1 ∉ (before crypto inputs k).fresh (inputs k).2) ∧
      (∀ γ, cost (inputs k).1 γ ≤ level crypto inputs γ k) ∧
      (∀ γ, (before crypto inputs (k + 1)).amount γ = level crypto inputs γ k - cost (inputs k).1 γ) ∧
      (before crypto inputs (k + 1)).initialized = true ∧ (before crypto inputs (k + 1)).updated = (inputs k).2 ∧
      (before crypto inputs (k + 1)).recent = if isDiscovery (readIpv4 (inputs k).1 16) then
          (if ((before crypto inputs k).fresh (inputs k).2).size = 128 then eraseOldest ((before crypto inputs k).fresh (inputs k).2)
            else (before crypto inputs k).fresh (inputs k).2).insert (crypto.sha256 (inputs k).1) (inputs k).2
        else (before crypto inputs k).fresh (inputs k).2) := by
  have hnext : before crypto inputs (k + 1) = ((before crypto inputs k).permit crypto (inputs k).1 (inputs k).2).2 := rfl
  obtain ⟨hinit, hupdated, -⟩ := refill_state h
  rw [hnext]
  unfold Permitted
  rcases @permit_cases crypto _ (inputs k).1 _ h with
    ⟨-, counters, heq⟩ | ⟨-, counters, heq⟩ | ⟨-, hnew, hpaid, counters, heq⟩
  · rw [heq]
    exact .inl ⟨Bool.false_ne_true, counters, rfl⟩
  · rw [heq]
    exact .inr (.inl ⟨Bool.false_ne_true, counters, rfl⟩)
  · rw [heq]
    refine .inr (.inr ⟨rfl, hnew, hpaid, fun γ => ?_, hinit, hupdated, rfl⟩)
    cases γ <;> rfl

theorem sound_before (hclock : Clocked inputs) (k : ℕ) : Sound (before crypto inputs k) (inputs k).2 := by
  induction k with
  | zero => exact sound_empty _
  | succ k ih =>
    have hrefill := ih.refill
    refine Sound.later ?_ (hclock k)
    rcases step_cases ih with ⟨-, counters, heq⟩ | ⟨-, counters, heq⟩ | ⟨-, -, hpaid, hamount, -, hupdated, -⟩
    · rw [heq]
      exact ⟨ih.nonneg, ih.capped, ih.past⟩
    · rw [heq]
      exact ⟨hrefill.nonneg, hrefill.capped, hrefill.past⟩
    · refine ⟨fun γ => ?_, fun γ => ?_, fun _ => hupdated.le⟩ <;> rw [hamount]
      · exact sub_nonneg.2 (hpaid γ)
      exact (sub_le_self _ (cost_nonneg _ γ)).trans (hrefill.capped γ)

/-- A refused call takes nothing. -/
theorem refused (hclock : Clocked inputs) (h : ¬ Permitted crypto inputs k) (γ : Gauge) :
    (before crypto inputs (k + 1)).amount γ = (before crypto inputs k).amount γ ∨
    (before crypto inputs (k + 1)).amount γ = level crypto inputs γ k := by
  rcases step_cases (sound_before hclock k) with ⟨-, counters, heq⟩ | ⟨-, counters, heq⟩ | ⟨hpermitted, -⟩
  · rw [heq]
    left
    cases γ <;> rfl
  · rw [heq]
    right
    cases γ <;> rfl
  · exact absurd hpermitted h

/-- What is there at the next call. -/
theorem level_le (h : Sound (before crypto inputs (k + 1)) (inputs (k + 1)).2) (hinit : (before crypto inputs (k + 1)).initialized = true)
    (hupdated : (before crypto inputs (k + 1)).updated = (inputs k).2) (γ : Gauge) : level crypto inputs γ (k + 1) ≤
      (before crypto inputs (k + 1)).amount γ + rate γ * (toSeconds (inputs (k + 1)).2 - toSeconds (inputs k).2) := by
  rw [level, amount_refill h, if_pos hinit, hupdated, toSeconds_sub]
  exact min_le_right _ _

/-- Each bucket is metered. -/
theorem metered (hclock : Clocked inputs) (γ : Gauge) :
    Metered (capacity γ) (rate γ) (fun k => toSeconds (inputs k).2) (level crypto inputs γ) (spent crypto inputs γ)
      (fun _ => 0) where
  clock k := toSeconds_le.2 (hclock k)
  full k := (sound_before hclock k).refill.capped γ
  free k := by
    unfold spent
    split
    · exact cost_nonneg _ γ
    · exact le_rfl
  paid k := by
    have hsound := @sound_before crypto inputs hclock k
    unfold spent
    split
    · rename_i hpermitted
      rcases step_cases hsound with ⟨hnot, -⟩ | ⟨hnot, -⟩ | ⟨-, -, hpaid, -⟩
      · exact absurd hpermitted hnot
      · exact absurd hpermitted hnot
      · exact hpaid γ
    · exact hsound.refill.nonneg γ
  gift k := le_rfl
  refilled k := by
    have hsound := @sound_before crypto inputs hclock k
    have hsound' := @sound_before crypto inputs hclock (k + 1)
    rcases step_cases hsound with ⟨hnot, counters, heq⟩ | ⟨hnot, counters, heq⟩ | ⟨hpermitted, -, -, hamount, hinit, hupdated, -⟩
    · have hsame : level crypto inputs γ (k + 1) = ((before crypto inputs k).refill (inputs (k + 1)).2).amount γ := by
        rw [level, amount_refill hsound', amount_refill (hsound.later (hclock k)), heq]
        cases γ <;> rfl
      rw [hsame, spent, if_neg hnot, sub_zero, add_zero]
      exact amount_refill_later hsound (hclock k) γ
    · obtain ⟨hinit, hupdated, -⟩ := refill_state hsound
      have hamount : (before crypto inputs (k + 1)).amount γ = level crypto inputs γ k := by
        rw [heq]
        cases γ <;> rfl
      rw [spent, if_neg hnot, sub_zero, add_zero, ← hamount]
      exact level_le hsound' (by rw [heq]; exact hinit) (by rw [heq]; exact hupdated) γ
    · rw [spent, if_pos hpermitted, add_zero, ← hamount]
      exact level_le hsound' hinit hupdated γ

/-- The first `n` calls permitted from `s` to `t`. -/
def permittedIn (crypto : Crypto) (inputs : ℕ → Bytes × Time) (n : ℕ) (s t : Time) : Finset ℕ :=
  (Finset.range n).filter fun k => (s ≤ (inputs k).2 ∧ (inputs k).2 ≤ t) ∧ Permitted crypto inputs k

/-- What is permitted in a window of time. -/
theorem cost_permittedIn (crypto : Crypto) (hclock : Clocked inputs) (γ : Gauge) (n : ℕ) {s t : Time} (hst : s ≤ t) :
    ∑ k ∈ permittedIn crypto inputs n s t, cost (inputs k).1 γ ≤ capacity γ + rate γ * toSeconds (t - s) := by
  have hwindow := (@metered crypto inputs hclock γ).window (rate_nonneg γ) (capacity_nonneg γ) n (toSeconds_le.2 hst)
  simp only [toSeconds_le, Finset.sum_const_zero, add_zero, spent] at hwindow
  rw [← Finset.sum_filter, Finset.filter_filter] at hwindow
  rwa [toSeconds_sub]

theorem card_permittedIn (crypto : Crypto) (hclock : Clocked inputs) (n : ℕ) {s t : Time} (hst : s ≤ t) :
    ((permittedIn crypto inputs n s t).card : ℚ) ≤ 32 + 16 * toSeconds (t - s) := by
  have hcost := cost_permittedIn crypto hclock .packets n hst
  simp only [cost, Finset.sum_const, nsmul_one] at hcost
  exact hcost

/-! ## The digests -/

/-- Permitted so far. -/
theorem sourced (hclock : Clocked inputs) {d : BitVec 256} {t : Time} (h : (before crypto inputs k).recent.lookup d = some t) :
    ∃ j < k, Permitted crypto inputs j ∧ crypto.sha256 (inputs j).1 = d ∧ (inputs j).2 = t := by
  induction k generalizing d t with
  | zero => cases h
  | succ k ih =>
    -- a row of the table before the call
    have hold : ∀ d t, (before crypto inputs k).recent.lookup d = some t →
        ∃ j < k + 1, Permitted crypto inputs j ∧ crypto.sha256 (inputs j).1 = d ∧ (inputs j).2 = t := by
      intro d t hrow
      obtain ⟨j, hj, hrest⟩ := ih hrow
      exact ⟨j, by omega, hrest⟩
    have hfresh : ∀ d t, ((before crypto inputs k).fresh (inputs k).2).lookup d = some t →
        ∃ j < k + 1, Permitted crypto inputs j ∧ crypto.sha256 (inputs j).1 = d ∧ (inputs j).2 = t :=
      fun d t hrow => hold d t (Map.lookup_eraseIf_eq_some.1 hrow).1
    rcases step_cases (sound_before hclock k) with ⟨-, counters, heq⟩ | ⟨-, counters, heq⟩ | ⟨hpermitted, -, -, -, -, -, hrecent⟩
    · rw [heq] at h
      exact hold d t h
    · rw [heq] at h
      exact hfresh d t h
    · rw [hrecent] at h
      split at h
      · rw [Map.lookup_insert] at h
        split at h
        · rename_i hd
          cases h
          exact ⟨k, by omega, hpermitted, hd.symm, rfl⟩
        · split at h
          · unfold eraseOldest at h
            split at h
            · exact hfresh d t h
            · exact hfresh d t (Map.lookup_of_lookup_erase h)
          · exact hfresh d t h
      · exact hfresh d t h

/-- The packets bucket allows 33 in 100 ms. -/
theorem card_lately (crypto : Crypto) (hclock : Clocked inputs) (k : ℕ) :
    (permittedIn crypto inputs k ((inputs k).2 - freshTime) (inputs k).2).card ≤ 33 := by
  have hwindow := card_permittedIn crypto hclock k (sub_le_self (inputs k).2 (by decide : (0 : Time) ≤ freshTime))
  rw [sub_sub_cancel] at hwindow
  have hbound : ((permittedIn crypto inputs k ((inputs k).2 - freshTime) (inputs k).2).card : ℚ) < 34 :=
    lt_of_le_of_lt hwindow (by norm_num [toSeconds, freshTime])
  have hlt : (permittedIn crypto inputs k ((inputs k).2 - freshTime) (inputs k).2).card < 34 := by exact_mod_cast hbound
  omega

theorem size_fresh (crypto : Crypto) (hclock : Clocked inputs) (k : ℕ) : ((before crypto inputs k).fresh (inputs k).2).size ≤ 33 := by
  refine (Map.size_le_card (permittedIn crypto inputs k ((inputs k).2 - freshTime) (inputs k).2) (fun j => crypto.sha256 (inputs j).1) ?_).trans (card_lately crypto hclock k)
  intro d hd
  obtain ⟨t, ht⟩ := Map.mem_iff_lookup.1 hd
  obtain ⟨hrow, hage⟩ := Map.lookup_eraseIf_eq_some.1 ht
  obtain ⟨j, hj, hpermitted, hdigest, rfl⟩ := sourced hclock hrow
  have hnear : (inputs k).2 - freshTime ≤ (inputs j).2 := by
    have hlt := not_le.1 (of_decide_eq_false hage)
    linarith
  exact ⟨j, Finset.mem_filter.2 ⟨Finset.mem_range.2 hj, ⟨hnear, hclock.le hj.le⟩, hpermitted⟩, hdigest⟩

/-- The table of digests never fills up. -/
theorem size_recent (crypto : Crypto) (hclock : Clocked inputs) (k : ℕ) : (before crypto inputs k).recent.size ≤ 34 := by
  induction k with
  | zero => exact Nat.zero_le _
  | succ k ih =>
    have hfresh := size_fresh crypto hclock k
    rcases step_cases (sound_before hclock k) with ⟨-, counters, heq⟩ | ⟨-, counters, heq⟩ | ⟨-, hnew, -, -, -, -, hrecent⟩
    · rw [heq]
      exact ih
    · rw [heq]
      exact hfresh.trans (by omega)
    · rw [hrecent, if_neg (by omega : ((before crypto inputs k).fresh (inputs k).2).size ≠ 128)]
      split
      · rename_i hdiscovery
        rw [Map.size_eq, Map.rows_insert_of_notMem (hnew hdiscovery), List.length_cons, ← Map.size_eq]
        omega
      · omega

/-- A digest is remembered for 100 ms after its packet was permitted. -/
theorem remembered (hclock : Clocked inputs) {j : ℕ} (hpermitted : Permitted crypto inputs j)
    (hdiscovery : isDiscovery (readIpv4 (inputs j).1 16) = true) (hjk : j < k) :
    (∃ i < k, freshTime ≤ (inputs i).2 - (inputs j).2) ∨
    ∃ t, (before crypto inputs k).recent.lookup (crypto.sha256 (inputs j).1) = some t ∧ (inputs j).2 ≤ t := by
  induction k, hjk using Nat.le_induction with
  | base =>
    right
    rcases step_cases (sound_before hclock j) with ⟨hnot, -⟩ | ⟨hnot, -⟩ | ⟨-, -, -, -, -, -, hrecent⟩
    · exact absurd hpermitted hnot
    · exact absurd hpermitted hnot
    · rw [hrecent, if_pos hdiscovery, Map.lookup_insert, if_pos rfl]
      exact ⟨_, rfl, le_rfl⟩
  | succ k hjk ih =>
    rcases ih with ⟨i, hi, hold⟩ | ⟨t, hrow, ht⟩
    · exact .inl ⟨i, by omega, hold⟩
    by_cases hage : freshTime ≤ (inputs k).2 - t
    · exact .inl ⟨k, by omega, hage.trans (sub_le_sub_left ht _)⟩
    right
    have hfresh : ((before crypto inputs k).fresh (inputs k).2).lookup (crypto.sha256 (inputs j).1) = some t :=
      Map.lookup_eraseIf_eq_some.2 ⟨hrow, decide_eq_false hage⟩
    rcases step_cases (sound_before hclock k) with ⟨-, counters, heq⟩ | ⟨-, counters, heq⟩ | ⟨-, -, -, -, -, -, hrecent⟩
    · rw [heq]
      exact ⟨t, hrow, ht⟩
    · rw [heq]
      exact ⟨t, hfresh, ht⟩
    · -- nothing is dropped: the table has room
      have hsize := size_fresh crypto hclock k
      rw [hrecent, if_neg (by omega : ((before crypto inputs k).fresh (inputs k).2).size ≠ 128)]
      split
      · rw [Map.lookup_insert]
        split
        · exact ⟨_, rfl, hclock.le (by omega)⟩
        · exact ⟨t, hfresh, ht⟩
      · exact ⟨t, hfresh, ht⟩

/-- Copies of a discovery packet are 100 ms apart. -/
theorem apart (hclock : Clocked inputs) {j : ℕ} (hj : Permitted crypto inputs j) (hk : Permitted crypto inputs k) (hjk : j < k)
    (hsame : (inputs j).1 = (inputs k).1) (hdiscovery : isDiscovery (readIpv4 (inputs j).1 16) = true) :
    freshTime ≤ (inputs k).2 - (inputs j).2 := by
  rcases remembered hclock hj hdiscovery hjk with ⟨i, hi, hold⟩ | ⟨t, hrow, ht⟩
  · exact hold.trans (sub_le_sub_right (hclock.le hi.le) _)
  rcases step_cases (sound_before hclock k) with ⟨hnot, -⟩ | ⟨hnot, -⟩ | ⟨-, hnew, -⟩
  · exact absurd hk hnot
  · exact absurd hk hnot
  · by_contra hage
    have hfresh : ((before crypto inputs k).fresh (inputs k).2).lookup (crypto.sha256 (inputs k).1) = some t := by
      refine Map.lookup_eraseIf_eq_some.2 ⟨hsame ▸ hrow, decide_eq_false ?_⟩
      intro hgone
      exact hage (hgone.trans (sub_le_sub_left ht _))
    exact hnew (hsame ▸ hdiscovery) (Map.mem_of_lookup hfresh)

/-! ## The guard -/

/-- Copies of a discovery packet are permitted 100 ms apart, what is permitted in
a time is bounded, no digest is dropped to make room, and what is refused costs
nothing. -/
theorem discovery_guard (crypto : Crypto) (inputs : ℕ → Bytes × Time) (hclock : Clocked inputs) :
    (∀ j k, j < k → Permitted crypto inputs j → Permitted crypto inputs k → (inputs j).1 = (inputs k).1 →
      isDiscovery (readIpv4 (inputs j).1 16) = true → freshTime ≤ (inputs k).2 - (inputs j).2) ∧
    (∀ n, ∀ s t : Time, s ≤ t → ((permittedIn crypto inputs n s t).card : ℚ) ≤ 32 + 16 * toSeconds (t - s) ∧
      ∑ k ∈ permittedIn crypto inputs n s t, ((inputs k).1.length : ℚ) ≤ 65536 + 32768 * toSeconds (t - s)) ∧
    (∀ k, (before crypto inputs k).recent.size < 128 ∧ ((before crypto inputs k).fresh (inputs k).2).size ≠ 128) ∧
    ∀ k, ¬ Permitted crypto inputs k → ∀ γ, (before crypto inputs k).amount γ ≤ (before crypto inputs (k + 1)).amount γ ∧
      ((before crypto inputs (k + 1)).amount γ = (before crypto inputs k).amount γ ∨
        (before crypto inputs (k + 1)).amount γ = level crypto inputs γ k) := by
  refine ⟨fun j k hjk hj hk => apart hclock hj hk hjk, fun n s t hst => ⟨card_permittedIn crypto hclock n hst, ?_⟩,
    fun k => ⟨?_, ?_⟩, ?_⟩
  · exact cost_permittedIn crypto hclock .bytes n hst
  · have hsize := size_recent crypto hclock k
    omega
  · have hsize := size_fresh crypto hclock k
    omega
  · intro k hrefused γ
    have hcases := refused hclock hrefused γ
    refine ⟨?_, hcases⟩
    rcases hcases with hsame | hlevel
    · exact hsame.ge
    · rw [hlevel]
      exact amount_le_refill (sound_before hclock k) γ

/-- An mDNS packet without questions. -/
def mdnsPacket : Bytes := [0x45, 0, 0, 28, 0, 0, 0, 0, 255, 17, 0, 0, 10, 64, 0, 2, 224, 0, 0, 251, 0x14, 0xe9, 0x14, 0xe9, 0, 8, 0, 0]

def prefixDigests : Crypto where
  sha256 packet := BitVec.ofNat 256 (beNat packet)
  scrypt _ _ := none
  verifySignature _ _ _ := false

/-- The packet every 50 ms. -/
def everyFifty (k : ℕ) : Bytes × Time := (mdnsPacket, 50000000 * k)

theorem everyFifty_clocked : Clocked everyFifty := by
  intro k
  simp only [everyFifty]
  push_cast
  exact mul_le_mul_of_nonneg_left (by linarith) (by norm_num)

theorem discovery_guard_everyFifty : (Permitted prefixDigests everyFifty 0 ∧ ¬ Permitted prefixDigests everyFifty 1 ∧
    Permitted prefixDigests everyFifty 2) ∧ freshTime ≤ (everyFifty 2).2 - (everyFifty 0).2 ∧
    ((before prefixDigests everyFifty 2).recent.size < 128) := by
  have hpermitted : Permitted prefixDigests everyFifty 0 ∧ ¬ Permitted prefixDigests everyFifty 1 ∧
      Permitted prefixDigests everyFifty 2 := by decide +kernel
  obtain ⟨hapart, -, hsize, -⟩ := discovery_guard prefixDigests everyFifty everyFifty_clocked
  exact ⟨hpermitted, hapart 0 2 (by decide) hpermitted.1 hpermitted.2.2 rfl (by decide), (hsize 2).1⟩

end

end LanDiscoveryGuard

end LanLink
