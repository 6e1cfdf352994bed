import LanLink.Lib.Runs
import LanLink.Lib.Streaks
import LanLink.Relay.ForwardingQuota
/-!
# Which path to use

`p2p/path_quality.cpp`: samples of the direct path are smoothed into a round
trip time and a loss rate, and the selector goes over to the direct path or away
from it after three good or bad samples in a row, at most every two seconds.
-/
open LanLink.Lib

namespace LanLink

/-- `PathReason` of `path_diagnostics.hpp`. -/
inductive PathReason
  | awaitingRelay | relayed | directReady | directUnreachable | udpBlocked | degraded | revalidating | revoked | stopped
  deriving DecidableEq, Repr

structure QualitySample where
  authenticated : Bool := false
  rttUs : Option UInt32 := none
  transportSentPackets : UInt64 := 0
  lostPackets : UInt64 := 0
  deriving DecidableEq, Repr

structure PathDecision where
  direct : Bool := false
  reason : PathReason := .directUnreachable
  deriving DecidableEq, Repr

structure PathSelector where
  direct : Bool := false
  seen : Bool := false
  healthy : ℕ := 0
  bad : ℕ := 0
  sent : UInt64 := 0
  lost : UInt64 := 0
  rtt : Option UInt32 := none
  loss : Option UInt32 := none
  changed : Time := 0
  deriving DecidableEq, Repr

namespace PathSelector

def smoothedRtt (s : PathSelector) (d : QualitySample) : Option UInt32 :=
  match d.rttUs, s.rtt with
  | none, rtt => rtt
  | some rtt, none => some rtt
  | some rtt, some old => some ((3 * old.toUInt64 + rtt.toUInt64) / 4).toUInt32

/-- Packets lost of every ten thousand since the last sample. The product may wrap. -/
def currentLoss (s : PathSelector) (d : QualitySample) : UInt32 :=
  let count := d.transportSentPackets - s.sent
  let lost := min (d.lostPackets - s.lost) count
  (lost * 10000 / count).toUInt32

def smoothedLoss (s : PathSelector) (d : QualitySample) : Option UInt32 :=
  if s.seen ∧ s.sent ≤ d.transportSentPackets ∧ s.lost ≤ d.lostPackets ∧ s.sent < d.transportSentPackets then
    match s.loss with
    | none => some (currentLoss s d)
    | some old => some ((3 * old.toUInt64 + (currentLoss s d).toUInt64) / 4).toUInt32
  else s.loss

/-- The state with the estimates after an authenticated sample. -/
def observe (s : PathSelector) (d : QualitySample) : PathSelector :=
  { s with
    rtt := smoothedRtt s d
    loss := smoothedLoss s d
    sent := d.transportSentPackets
    lost := d.lostPackets
    seen := true }

/-- Whether the estimates are good enough for the direct path. -/
def good (s : PathSelector) (relay : Option UInt32) : Bool :=
  let ceiling : UInt64 := max 250000 (match relay with
    | some rtt => 4 * rtt.toUInt64
    | none => 250000)
  (match s.rtt with
    | some rtt => rtt.toUInt64 ≤ ceiling
    | none => false) &&
  (match s.loss with
    | some loss => loss ≤ 1000
    | none => true)

/-- Two seconds. -/
def holdTime : Time := 2000000000

/-- Count a good or a bad sample. -/
def tally (s : PathSelector) (ok : Bool) : PathSelector :=
  if ok then { s with healthy := min (s.healthy + 1) 3, bad := 0 } else { s with bad := min (s.bad + 1) 3, healthy := 0 }

/-- Change the path if the counters say so and the last change is not too recent. -/
def turn (s : PathSelector) (now : Time) : PathSelector :=
  let hold : Bool := s.changed ≠ 0 ∧ now - s.changed < holdTime
  if ¬ hold ∧ ((s.direct ∧ 3 ≤ s.bad) ∨ (¬ s.direct ∧ 3 ≤ s.healthy)) then { s with direct := !s.direct, changed := now } else s

def sample (s : PathSelector) (d : QualitySample) (relay : Option UInt32) (now : Time) : PathDecision × PathSelector :=
  if ¬ d.authenticated then
    ({ direct := false, reason := .directUnreachable },
      { s with
        changed := if s.direct then now else s.changed
        direct := false, healthy := 0, bad := 0, rtt := none, loss := none, seen := false })
  else
    let s := s.observe d
    let ok := s.good relay
    let s := (s.tally ok).turn now
    ({ direct := s.direct
       reason := if s.direct then .directReady else if ok then .revalidating else .degraded }, s)

/-! ## The loss estimate -/

section
variable {s : PathSelector} {d : QualitySample}

/-- Whatever the counters are: a product that wraps is smaller than the true one. -/
theorem currentLoss_le (hsent : s.sent < d.transportSentPackets) : (currentLoss s d).toNat ≤ 10000 := by
  have hsub : (d.transportSentPackets - s.sent).toNat = d.transportSentPackets.toNat - s.sent.toNat :=
    UInt64.toNat_sub_of_le _ _ (UInt64.le_of_lt hsent)
  have hlt := UInt64.lt_iff_toNat_lt.1 hsent
  obtain ⟨count, hcount⟩ : ∃ count, count = d.transportSentPackets - s.sent := ⟨_, rfl⟩
  obtain ⟨lost, hlost⟩ : ∃ lost, lost = min (d.lostPackets - s.lost) count := ⟨_, rfl⟩
  have hle : lost.toNat ≤ count.toNat := by
    rw [hlost, ← UInt64.le_iff_toNat_le]
    have hdef : min (d.lostPackets - s.lost) count = if d.lostPackets - s.lost ≤ count then d.lostPackets - s.lost else count := rfl
    rw [hdef]
    split
    · assumption
    · exact UInt64.le_refl _
  have hpos : 0 < count.toNat := by rw [hcount, hsub]; omega
  have hquotient : (lost * 10000 / count).toNat ≤ 10000 := by
    rw [UInt64.toNat_div, UInt64.toNat_mul]
    refine Nat.div_le_of_le_mul ?_
    calc lost.toNat * (10000 : UInt64).toNat % 2 ^ 64 ≤ lost.toNat * 10000 := Nat.mod_le _ _
      _ ≤ count.toNat * 10000 := Nat.mul_le_mul_right _ hle
  rw [currentLoss, ← hcount, ← hlost, UInt64.toNat_toUInt32, Nat.mod_eq_of_lt (by omega)]
  exact hquotient

theorem smoothed_le {old new : UInt32} (hold : old.toNat ≤ 10000) (hnew : new.toNat ≤ 10000) :
    ((3 * old.toUInt64 + new.toUInt64) / 4).toUInt32.toNat ≤ 10000 := by
  have hthree : (3 : UInt64).toNat = 3 := rfl
  have hfour : (4 : UInt64).toNat = 4 := rfl
  rw [UInt64.toNat_toUInt32, UInt64.toNat_div, UInt64.toNat_add, UInt64.toNat_mul, UInt32.toNat_toUInt64, UInt32.toNat_toUInt64,
    hthree, hfour]
  rw [Nat.mod_eq_of_lt (show 3 * old.toNat < 2 ^ 64 by omega), Nat.mod_eq_of_lt (show 3 * old.toNat + new.toNat < 2 ^ 64 by omega)]
  have hquotient : (3 * old.toNat + new.toNat) / 4 ≤ 10000 := by omega
  exact (Nat.mod_le _ _).trans hquotient

theorem smoothedLoss_le (h : ∀ l, s.loss = some l → l.toNat ≤ 10000) {l : UInt32} (hl : smoothedLoss s d = some l) :
    l.toNat ≤ 10000 := by
  unfold smoothedLoss at hl
  split at hl
  · rename_i hcount
    have hcurrent := currentLoss_le hcount.2.2.2
    split at hl
    · cases hl
      exact hcurrent
    · rename_i old hold
      cases hl
      exact smoothed_le (h old hold) hcurrent
  · exact h l hl

end

/-! ## Runs of samples -/

/-- A sample, the round trip time to the relay, and when it was taken. -/
structure Input where
  sample : QualitySample
  relay : Option UInt32
  now : Time

def step (s : PathSelector) (i : Input) : PathSelector := (s.sample i.sample i.relay i.now).2

section
variable (inputs : ℕ → Input)

/-- The selector before sample `k`. -/
def before (k : ℕ) : PathSelector := states step {} inputs k

def Authenticated (k : ℕ) : Prop := (inputs k).sample.authenticated = true

/-- The estimates that include sample `k` are good. -/
def Good (k : ℕ) : Prop := ((before inputs k).observe (inputs k).sample).good (inputs k).relay = true

/-- Sample `k` changes the path. -/
def Switches (k : ℕ) : Prop := (before inputs (k + 1)).direct ≠ (before inputs k).direct

variable {inputs} {k : ℕ}

theorem before_succ (k : ℕ) : before inputs (k + 1) = step (before inputs k) (inputs k) := rfl

theorem turn_cases (s : PathSelector) (now : Time) : s.turn now = s ∨
    (s.turn now = { s with direct := !s.direct, changed := now } ∧ (s.changed ≠ 0 → holdTime ≤ now - s.changed) ∧
      ((s.direct = true ∧ 3 ≤ s.bad) ∨ (s.direct = false ∧ 3 ≤ s.healthy))) := by
  unfold turn
  dsimp only
  split
  · rename_i hswitch
    refine .inr ⟨rfl, ?_, by simpa using hswitch.2⟩
    intro hchanged
    by_contra hlt
    exact hswitch.1 (decide_eq_true ⟨hchanged, not_le.1 hlt⟩)
  · exact .inl rfl

/-- What one sample does to the counters, the loss estimate and the time of the last change. -/
theorem step_cases (k : ℕ) :
    (¬ Authenticated inputs k ∧ (before inputs (k + 1)).direct = false ∧ (before inputs (k + 1)).healthy = 0 ∧
      (before inputs (k + 1)).bad = 0 ∧ (before inputs (k + 1)).loss = none ∧
      (before inputs (k + 1)).changed = if (before inputs k).direct then (inputs k).now else (before inputs k).changed) ∨
    (Authenticated inputs k ∧ (before inputs (k + 1)).loss = smoothedLoss (before inputs k) (inputs k).sample ∧
      ((Good inputs k ∧ (before inputs (k + 1)).healthy = min ((before inputs k).healthy + 1) 3 ∧ (before inputs (k + 1)).bad = 0) ∨
        (¬ Good inputs k ∧ (before inputs (k + 1)).bad = min ((before inputs k).bad + 1) 3 ∧ (before inputs (k + 1)).healthy = 0)) ∧
      (((before inputs (k + 1)).direct = (before inputs k).direct ∧ (before inputs (k + 1)).changed = (before inputs k).changed) ∨
        ((before inputs (k + 1)).direct = (!(before inputs k).direct) ∧ (before inputs (k + 1)).changed = (inputs k).now ∧
          ((before inputs k).changed ≠ 0 → holdTime ≤ (inputs k).now - (before inputs k).changed) ∧
          (((before inputs k).direct = true ∧ 3 ≤ (before inputs (k + 1)).bad) ∨
            ((before inputs k).direct = false ∧ 3 ≤ (before inputs (k + 1)).healthy))))) := by
  rw [before_succ]
  unfold Authenticated Good
  obtain ⟨s, hs⟩ : ∃ s, s = before inputs k := ⟨_, rfl⟩
  obtain ⟨⟨d, relay, now⟩, hi⟩ : ∃ i, i = inputs k := ⟨_, rfl⟩
  rw [← hs, ← hi]
  by_cases hauth : d.authenticated = true
  · right
    obtain ⟨t, ht⟩ : ∃ t, t = (s.observe d).tally ((s.observe d).good relay) := ⟨_, rfl⟩
    have hstep : step s ⟨d, relay, now⟩ = t.turn now := by
      rw [ht]
      simp only [step, sample]
      rw [if_neg (not_not.2 hauth)]
    have htally : t.direct = s.direct ∧ t.changed = s.changed ∧ t.loss = smoothedLoss s d ∧
        (((s.observe d).good relay = true ∧ t.healthy = min (s.healthy + 1) 3 ∧ t.bad = 0) ∨
          (¬ (s.observe d).good relay = true ∧ t.bad = min (s.bad + 1) 3 ∧ t.healthy = 0)) := by
      rw [ht, tally]
      split
      · rename_i hgood
        exact ⟨rfl, rfl, rfl, .inl ⟨hgood, rfl, rfl⟩⟩
      · rename_i hgood
        exact ⟨rfl, rfl, rfl, .inr ⟨hgood, rfl, rfl⟩⟩
    obtain ⟨hdirect, hchanged, hloss, hcount⟩ := htally
    rw [hstep, ← hdirect, ← hchanged, ← hloss]
    rcases turn_cases t now with hsame | ⟨hturn, hwait, hthree⟩
    · rw [hsame]
      exact ⟨hauth, rfl, hcount, .inl ⟨rfl, rfl⟩⟩
    · rw [hturn]
      exact ⟨hauth, rfl, hcount, .inr ⟨rfl, rfl, hwait, hthree⟩⟩
  · left
    have hstep : step s ⟨d, relay, now⟩ = { s with
        changed := if s.direct then now else s.changed
        direct := false, healthy := 0, bad := 0, rtt := none, loss := none, seen := false } := by
      simp only [step, sample]
      rw [if_pos hauth]
    rw [hstep]
    exact ⟨hauth, rfl, rfl, rfl, rfl, rfl⟩

/-- The counters count streaks, and no loss estimate is over ten thousand. -/
theorem counters (k : ℕ) :
    Streak (fun j => Authenticated inputs j ∧ Good inputs j) k (before inputs k).healthy ∧
    Streak (fun j => Authenticated inputs j ∧ ¬ Good inputs j) k (before inputs k).bad ∧
    ∀ l, (before inputs k).loss = some l → l.toNat ≤ 10000 := by
  induction k with
  | zero => exact ⟨streak_zero _ _, streak_zero _ _, fun l hl => nomatch hl⟩
  | succ k ih =>
    obtain ⟨hhealthy, hbad, hloss⟩ := ih
    rcases step_cases k with ⟨-, -, h0, h0', hnone, -⟩ | ⟨hauth, hsmooth, hcount, -⟩
    · rw [h0, h0', hnone]
      exact ⟨streak_zero _ _, streak_zero _ _, fun l hl => nomatch hl⟩
    refine ⟨?_, ?_, fun l hl => smoothedLoss_le hloss (hsmooth ▸ hl)⟩
    · rcases hcount with ⟨hgood, hup, -⟩ | ⟨-, -, h0⟩
      · rw [hup]
        exact hhealthy.count ⟨hauth, hgood⟩ 3
      · rw [h0]
        exact streak_zero _ _
    · rcases hcount with ⟨-, -, h0⟩ | ⟨hgood, hup, -⟩
      · rw [h0]
        exact streak_zero _ _
      · rw [hup]
        exact hbad.count ⟨hauth, hgood⟩ 3

/-- The time of the last change is not before any change. -/
theorem changed_ge (hpos : ∀ k, 0 < (inputs k).now) (hclock : ∀ j k, j ≤ k → (inputs j).now ≤ (inputs k).now) (k : ℕ) :
    ∀ j < k, Switches inputs j → 0 < (before inputs k).changed ∧ (inputs j).now ≤ (before inputs k).changed := by
  induction k with
  | zero => exact fun j hj => absurd hj (Nat.not_lt_zero j)
  | succ k ih =>
    intro j hj hswitch
    have hcase : (before inputs (k + 1)).changed = (inputs k).now ∨
        (¬ Switches inputs k ∧ (before inputs (k + 1)).changed = (before inputs k).changed) := by
      rcases step_cases k with ⟨-, hdirect, -, -, -, hchanged⟩ | ⟨-, -, -, ⟨hdirect, hchanged⟩ | ⟨-, hchanged, -⟩⟩
      · cases hwas : (before inputs k).direct with
        | true => exact .inl (by rw [hchanged, hwas, if_pos rfl])
        | false => exact .inr ⟨fun h => h (by rw [hdirect, hwas]), by rw [hchanged, hwas]; rfl⟩
      · exact .inr ⟨fun h => h hdirect, hchanged⟩
      · exact .inl hchanged
    rcases hcase with hnow | ⟨hnot, hsame⟩
    · rw [hnow]
      exact ⟨hpos k, hclock j k (by omega)⟩
    · rw [hsame]
      have hne : j ≠ k := fun heq => hnot (heq ▸ hswitch)
      exact ih j (by omega) hswitch

/-- Switches come after three samples in a row, two seconds apart, or at an
unauthenticated sample; the loss estimate stays in range. -/
theorem path_selection (hpos : ∀ k, 0 < (inputs k).now) (hclock : ∀ j k, j ≤ k → (inputs j).now ≤ (inputs k).now) (k : ℕ) :
    ((before inputs k).direct = false → (before inputs (k + 1)).direct = true →
      Streak (fun j => Authenticated inputs j ∧ Good inputs j) (k + 1) 3) ∧
    ((before inputs k).direct = true → (before inputs (k + 1)).direct = false →
      ¬ Authenticated inputs k ∨ Streak (fun j => Authenticated inputs j ∧ ¬ Good inputs j) (k + 1) 3) ∧
    (Switches inputs k → Authenticated inputs k → ∀ j < k, Switches inputs j → holdTime ≤ (inputs k).now - (inputs j).now) ∧
    ∀ l, (before inputs k).loss = some l → l.toNat ≤ 10000 := by
  obtain ⟨hhealthy, hbad, -⟩ := @counters inputs (k + 1)
  refine ⟨?_, ?_, ?_, (counters k).2.2⟩
  · intro hwas his
    rcases step_cases k with ⟨-, hdirect, -⟩ | ⟨-, -, -, ⟨hdirect, -⟩ | ⟨-, -, -, ⟨hwas', -⟩ | ⟨-, hthree⟩⟩⟩
    · rw [his] at hdirect
      cases hdirect
    · rw [his, hwas] at hdirect
      cases hdirect
    · rw [hwas] at hwas'
      cases hwas'
    · exact hhealthy.mono hthree
  · intro hwas his
    rcases step_cases k with ⟨hauth, -⟩ | ⟨-, -, -, ⟨hdirect, -⟩ | ⟨-, -, -, ⟨-, hthree⟩ | ⟨hwas', -⟩⟩⟩
    · exact .inl hauth
    · rw [his, hwas] at hdirect
      cases hdirect
    · exact .inr (hbad.mono hthree)
    · rw [hwas] at hwas'
      cases hwas'
  · intro hswitch hauth j hj hswitch'
    obtain ⟨hpositive, hle⟩ := changed_ge hpos hclock k j hj hswitch'
    rcases step_cases k with ⟨hnot, -⟩ | ⟨-, -, -, ⟨hdirect, -⟩ | ⟨-, -, hhold, -⟩⟩
    · exact absurd hauth hnot
    · exact absurd hdirect hswitch
    · have hwait := hhold hpositive.ne'
      exact hwait.trans (sub_le_sub_left hle _)

end

/-- A good sample every second. -/
def steadyInputs (k : ℕ) : Input where
  sample := { authenticated := true, rttUs := some 20000, transportSentPackets := 100, lostPackets := 0 }
  relay := none
  now := 1000000000 * (k + 1)

theorem path_selection_steady : (before steadyInputs 3).direct = true ∧
    Streak (fun j => Authenticated steadyInputs j ∧ Good steadyInputs j) 3 3 := by
  have hpos : ∀ k, 0 < (steadyInputs k).now := by
    intro k
    simp only [steadyInputs]
    positivity
  have hclock : ∀ j k, j ≤ k → (steadyInputs j).now ≤ (steadyInputs k).now := by
    intro j k hjk
    simp only [steadyInputs]
    gcongr
  have hselection := path_selection hpos hclock 2
  exact ⟨by decide, hselection.1 (by decide) (by decide)⟩

end PathSelector

end LanLink
