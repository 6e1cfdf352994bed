import LanLink.Lib.Buckets
import LanLink.Lib.Runs
import LanLink.Relay.ForwardingQuota
/-!
# Bounds of the forwarding quota

A call is charged to the bucket of its device, of its network and of the whole
relay, or to none of them. What a bucket decides is its level: what it would
hold if it was refilled now. A call changes levels by what it is charged and by
nothing else, and an idle bucket that is dropped was full.
-/
open LanLink.Lib

namespace LanLink

theorem toSeconds_sub (a b : Time) : toSeconds (a - b) = toSeconds a - toSeconds b := by
  simp only [toSeconds, Int.cast_sub]
  ring

theorem toSeconds_le {a b : Time} : toSeconds a ≤ toSeconds b ↔ a ≤ b := by
  simp only [toSeconds]
  rw [div_le_div_iff_of_pos_right (by norm_num), Int.cast_le]

theorem toSeconds_nonneg {a : Time} (h : 0 ≤ a) : 0 ≤ toSeconds a :=
  div_nonneg (Int.cast_nonneg h) (by norm_num)

namespace ForwardingQuota

/-! ## Buckets and levels -/

/-- What a bucket counts. -/
inductive Gauge
  | bytes | deliveries | controls
  deriving DecidableEq, Repr

/-- Whose bucket it is. -/
inductive Meter
  | device (d : DeviceId)
  | network (n : NetworkId)
  | authority
  deriving DecidableEq, Repr

/-- Tokens a second. -/
def rate (l : ForwardingLimits) : Meter → Gauge → ℕ
  | .device _, .bytes => l.deviceBytesPerSecond
  | .device _, .deliveries => l.deviceDeliveriesPerSecond
  | .network _, .bytes => l.networkBytesPerSecond
  | .network _, .deliveries => l.networkDeliveriesPerSecond
  | .authority, .bytes => l.authorityBytesPerSecond
  | .authority, .deliveries => l.authorityDeliveriesPerSecond
  | _, .controls => l.controlPerSecond

def amount (b : Bucket) : Gauge → ℚ
  | .bytes => b.bytes
  | .deliveries => b.deliveries
  | .controls => b.controls

def bucket (q : ForwardingQuota) : Meter → Bucket
  | .device d => q.devices.getD d {}
  | .network n => q.networks.getD n {}
  | .authority => q.aggregate

/-- The bucket of `m`, refilled at `now`. -/
def refilled (q : ForwardingQuota) (m : Meter) (now : Time) : Bucket :=
  refill (q.bucket m) (rate q.limits m .bytes) (rate q.limits m .deliveries) (rate q.limits m .controls) now

def level (q : ForwardingQuota) (m : Meter) (g : Gauge) (now : Time) : ℚ := amount (q.refilled m now) g

/-- Never negative, never more than the burst, and not from the future. -/
structure Filled (r : Gauge → ℕ) (now : Time) (b : Bucket) : Prop where
  nonneg : ∀ g, 0 ≤ amount b g
  capped : ∀ g, amount b g ≤ r g * burst
  past : b.initialized → b.updated ≤ now

section
variable {r : Gauge → ℕ} {now t : Time} {b : Bucket}

theorem amount_refill (b : Bucket) (t : Time) (g : Gauge) :
    amount (refill b (r .bytes) (r .deliveries) (r .controls) t) g =
      if b.initialized = false then r g * burst
      else if t ≤ b.updated then amount b g else min (r g * burst) (amount b g + toSeconds (t - b.updated) * r g) := by
  unfold refill
  cases b.initialized with
  | false => cases g <;> rfl
  | true =>
    simp only [not_true_eq_false, if_false, Bool.true_eq_false]
    by_cases ht : t ≤ b.updated
    · simp only [ht, if_true]
    · simp only [ht, if_false]
      cases g <;> rfl

/-- The level of a bucket that is in use. -/
theorem amount_refill_used (h : Filled r now b) (hinit : b.initialized = true) (ht : b.updated ≤ t) (g : Gauge) :
    amount (refill b (r .bytes) (r .deliveries) (r .controls) t) g =
      min (r g * burst) (amount b g + toSeconds (t - b.updated) * r g) := by
  rw [amount_refill, hinit, if_neg (by simp)]
  by_cases hle : t ≤ b.updated
  · have heq : t = b.updated := le_antisymm hle ht
    rw [if_pos hle, heq, sub_self, show toSeconds 0 = 0 by norm_num [toSeconds], zero_mul, add_zero,
      min_eq_right (h.capped g)]
  · rw [if_neg hle]

theorem filled_empty (r : Gauge → ℕ) (now : Time) : Filled r now {} where
  nonneg g := by cases g <;> exact le_rfl
  capped g := by
    have hzero : amount {} g = 0 := by cases g <;> rfl
    rw [hzero]
    exact mul_nonneg (Nat.cast_nonneg _) (by norm_num [burst])
  past h := by cases h

theorem Filled.later (h : Filled r now b) (ht : now ≤ t) : Filled r t b :=
  ⟨h.nonneg, h.capped, fun hinit => (h.past hinit).trans ht⟩

theorem updated_refill (h : Filled r now b) (ht : now ≤ t) :
    (refill b (r .bytes) (r .deliveries) (r .controls) t).updated = t ∧
      (refill b (r .bytes) (r .deliveries) (r .controls) t).initialized = true := by
  unfold refill
  cases hinit : b.initialized with
  | false => exact ⟨rfl, rfl⟩
  | true =>
    simp only [not_true_eq_false, if_false]
    by_cases hle : t ≤ b.updated
    · rw [if_pos hle]
      exact ⟨le_antisymm ((h.past hinit).trans ht) hle, hinit⟩
    · rw [if_neg hle]
      exact ⟨rfl, rfl⟩

/-- Refilling keeps a bucket in range. -/
theorem Filled.refill (h : Filled r now b) (ht : now ≤ t) :
    Filled r t (refill b (r .bytes) (r .deliveries) (r .controls) t) := by
  have hburst (g : Gauge) : (0 : ℚ) ≤ r g * burst := mul_nonneg (Nat.cast_nonneg _) (by norm_num [burst])
  have hrange (g : Gauge) : 0 ≤ amount (ForwardingQuota.refill b (r .bytes) (r .deliveries) (r .controls) t) g ∧
      amount (ForwardingQuota.refill b (r .bytes) (r .deliveries) (r .controls) t) g ≤ r g * burst := by
    cases hinit : b.initialized with
    | false =>
      rw [amount_refill, if_pos hinit]
      exact ⟨hburst g, le_rfl⟩
    | true =>
      have hpast := (h.past hinit).trans ht
      rw [amount_refill_used h hinit hpast]
      refine ⟨le_min (hburst g) (add_nonneg (h.nonneg g) (mul_nonneg ?_ (Nat.cast_nonneg _))), min_le_left _ _⟩
      exact toSeconds_nonneg (sub_nonneg.2 hpast)
  exact ⟨fun g => (hrange g).1, fun g => (hrange g).2, fun _ => (updated_refill h ht).1.le⟩

/-- A level later on, from the level now. -/
theorem amount_refill_later (h : Filled r now b) (ht : now ≤ t) (g : Gauge) :
    amount (refill b (r .bytes) (r .deliveries) (r .controls) t) g =
      min (r g * burst)
        (amount (refill b (r .bytes) (r .deliveries) (r .controls) now) g + toSeconds (t - now) * r g) := by
  have hgain : 0 ≤ toSeconds (t - now) * (r g : ℚ) :=
    mul_nonneg (toSeconds_nonneg (sub_nonneg.2 ht)) (Nat.cast_nonneg _)
  cases hinit : b.initialized with
  | false =>
    rw [amount_refill, amount_refill, if_pos hinit, if_pos hinit, min_eq_left]
    linarith
  | true =>
    have hpast := h.past hinit
    rw [amount_refill_used h hinit (hpast.trans ht), amount_refill_used h hinit hpast]
    have hsplit : toSeconds (t - b.updated) * (r g : ℚ) = toSeconds (now - b.updated) * r g + toSeconds (t - now) * r g := by
      rw [toSeconds_sub, toSeconds_sub, toSeconds_sub]
      ring
    rw [hsplit, ← add_assoc]
    rcases le_total (r g * burst) (amount b g + toSeconds (now - b.updated) * r g) with hfull | hfull
    · rw [min_eq_left hfull, min_eq_left (by linarith), min_eq_left (by linarith)]
    · rw [min_eq_right hfull]

/-- After five minutes a bucket is full again. -/
theorem amount_refill_idle (h : Filled r now b) (hidle : expired now b) (hinit : b.initialized = true) (g : Gauge) :
    amount (refill b (r .bytes) (r .deliveries) (r .controls) now) g = r g * burst := by
  simp only [expired, Bool.and_eq_true, decide_eq_true_eq] at hidle
  rw [amount_refill_used h hinit hidle.1.le, min_eq_left]
  have hseconds : (2 : ℚ) ≤ toSeconds (now - b.updated) := by
    rw [toSeconds, le_div_iff₀ (by norm_num)]
    have hcast : ((300000000000 : ℤ) : ℚ) < ((now - b.updated : ℤ) : ℚ) := Int.cast_lt.2 hidle.2
    norm_num at hcast ⊢
    linarith
  have hgain : (2 : ℚ) * r g ≤ toSeconds (now - b.updated) * r g :=
    mul_le_mul_of_nonneg_right hseconds (Nat.cast_nonneg _)
  have hnonneg := h.nonneg g
  rw [burst]
  linarith

end

/-! ## Charges -/

/-- Every bucket is in range. -/
def Sound (q : ForwardingQuota) (now : Time) : Prop := ∀ m, Filled (rate q.limits m) now (q.bucket m)

/-- `q'` is `q` with `spent` taken at `now`; buckets that pay nothing may be refilled or not. -/
structure Charged (q q' : ForwardingQuota) (now : Time) (spent : Meter → Gauge → ℚ) : Prop where
  limits : q'.limits = q.limits
  each : ∀ m, (q'.bucket m = q.bucket m ∧ ∀ g, spent m g = 0) ∨
    ((q'.bucket m).initialized = true ∧ (q'.bucket m).updated = now ∧
      ∀ g, amount (q'.bucket m) g = q.level m g now - spent m g)
  free : ∀ m g, 0 ≤ spent m g
  paid : ∀ m g, spent m g ≤ q.level m g now

section
variable {q q' : ForwardingQuota} {now t : Time} {spent : Meter → Gauge → ℚ} {m : Meter} {g : Gauge}

theorem Sound.later (h : q.Sound now) (ht : now ≤ t) : q.Sound t := fun m => (h m).later ht

theorem Sound.level_range (h : q.Sound now) (ht : now ≤ t) (m : Meter) (g : Gauge) :
    0 ≤ q.level m g t ∧ q.level m g t ≤ rate q.limits m g * burst :=
  ⟨((h m).refill ht).nonneg g, ((h m).refill ht).capped g⟩

theorem Sound.level_later (h : q.Sound now) (ht : now ≤ t) (m : Meter) (g : Gauge) :
    q.level m g t = min (rate q.limits m g * burst) (q.level m g now + toSeconds (t - now) * rate q.limits m g) :=
  amount_refill_later (h m) ht g

theorem Charged.sound (h : Charged q q' now spent) (hq : q.Sound now) : q'.Sound now := by
  intro m
  rw [h.limits]
  obtain ⟨hsame, -⟩ | ⟨-, hupdated, hamount⟩ := h.each m
  · rw [hsame]
    exact hq m
  · refine ⟨fun g => ?_, fun g => ?_, fun _ => hupdated.le⟩
    · rw [hamount]
      exact sub_nonneg.2 (h.paid m g)
    · rw [hamount]
      have := (hq.level_range le_rfl m g).2
      have := h.free m g
      linarith

/-- Levels after a charge are what is left, refilled. -/
theorem Charged.level (h : Charged q q' now spent) (hq : q.Sound now) (ht : now ≤ t) (m : Meter) (g : Gauge) :
    q'.level m g t =
      min (rate q.limits m g * burst) (q.level m g now - spent m g + toSeconds (t - now) * rate q.limits m g) := by
  have hsound := h.sound hq m
  rw [h.limits] at hsound
  obtain ⟨hsame, hzero⟩ | ⟨hinit, hupdated, hamount⟩ := h.each m
  · rw [hzero, sub_zero, ← hq.level_later ht, ForwardingQuota.level, ForwardingQuota.level, refilled, refilled, hsame,
      h.limits]
  · rw [ForwardingQuota.level, refilled, h.limits, amount_refill_used hsound hinit (hupdated.trans_le ht), hamount,
      hupdated]

/-! ## Idle buckets -/

theorem limits_prune (q : ForwardingQuota) (now : Time) : (q.prune now).limits = q.limits := by
  unfold prune
  split <;> rfl

/-- A bucket is there after pruning, or it was idle. -/
theorem bucket_prune (q : ForwardingQuota) (now : Time) (m : Meter) :
    (q.prune now).bucket m = q.bucket m ∨ ((q.prune now).bucket m = {} ∧ expired now (q.bucket m)) := by
  have herase {κ : Type} [DecidableEq κ] (rows : Map κ Bucket) (k : κ) :
      (rows.eraseIf fun _ => expired now).getD k {} = rows.getD k {} ∨
        ((rows.eraseIf fun _ => expired now).getD k {} = {} ∧ expired now (rows.getD k {})) := by
    rw [Map.getD, Map.getD, Map.lookup_eraseIf]
    cases rows.lookup k with
    | none => exact .inl rfl
    | some b =>
      cases hexpired : expired now b with
      | false =>
        left
        simp [Option.filter, hexpired]
      | true =>
        right
        simp [Option.filter, hexpired]
  unfold prune
  split
  · exact .inl rfl
  · cases m with
    | device d => exact herase q.devices d
    | network n => exact herase q.networks n
    | authority => exact .inl rfl

theorem Sound.prune (h : q.Sound now) : (q.prune now).Sound now := by
  intro m
  rw [limits_prune]
  obtain hsame | ⟨hempty, -⟩ := bucket_prune q now m
  · rw [hsame]
    exact h m
  · rw [hempty]
    exact filled_empty _ _

/-- Dropping idle buckets changes no level. -/
theorem Sound.level_prune (h : q.Sound now) (ht : now ≤ t) (m : Meter) (g : Gauge) :
    (q.prune now).level m g t = q.level m g t := by
  obtain hsame | ⟨hempty, hidle⟩ := bucket_prune q now m
  · rw [level, level, refilled, refilled, hsame, limits_prune]
  · have hfull : q.level m g now = rate q.limits m g * burst := by
      cases hinit : (q.bucket m).initialized with
      | true => exact amount_refill_idle (h m) hidle hinit g
      | false => exact (amount_refill _ _ g).trans (if_pos hinit)
    have hfresh : (q.prune now).level m g t = rate q.limits m g * burst := by
      rw [level, refilled, hempty, limits_prune]
      exact (amount_refill _ _ g).trans (if_pos rfl)
    rw [hfresh, h.level_later ht, hfull, min_eq_left]
    have hgain : 0 ≤ toSeconds (t - now) * (rate q.limits m g : ℚ) :=
      mul_nonneg (toSeconds_nonneg (sub_nonneg.2 ht)) (Nat.cast_nonneg _)
    linarith

end

/-! ## Calls -/

inductive QuotaCall
  | control (actor : DeviceId)
  | admits (actor : DeviceId) (network : NetworkId) (size recipients : ℕ)
  deriving DecidableEq, Repr

def serve (q : ForwardingQuota) (call : QuotaCall) (now : Time) : Bool × ForwardingQuota :=
  match call with
  | .control actor => q.control actor now
  | .admits actor network size recipients => q.admits actor network size recipients now

/-- The buckets a call is charged to. -/
def QuotaCall.Concerns : QuotaCall → Meter → Prop
  | .control actor, m => m = .device actor
  | .admits actor network _ _, m => m = .device actor ∨ m = .network network ∨ m = .authority

instance (call : QuotaCall) (m : Meter) : Decidable (call.Concerns m) :=
  match call with
  | .control _ => inferInstanceAs (Decidable (_ = _))
  | .admits _ _ _ _ => inferInstanceAs (Decidable (_ ∨ _ ∨ _))

/-- What each of them pays if the call is admitted. -/
def QuotaCall.price : QuotaCall → Gauge → ℕ
  | .control _, .controls => 1
  | .admits _ _ size recipients, .bytes => size * recipients
  | .admits _ _ _ recipients, .deliveries => recipients
  | _, _ => 0

def QuotaCall.charge (call : QuotaCall) (m : Meter) (g : Gauge) : ℕ := if call.Concerns m then call.price g else 0

section
variable {q : ForwardingQuota} {now : Time}

/-- What a call takes from each bucket: its price if it is admitted. -/
def QuotaCall.taken (call : QuotaCall) (admitted : Bool) (m : Meter) (g : Gauge) : ℚ :=
  if admitted then call.charge m g else 0

/-- The buckets a call concerns are refilled and pay if it is admitted, the others are as before. -/
theorem charged_of (hq : q.Sound now) {q' : ForwardingQuota} (call : QuotaCall) (admitted : Bool)
    (hlimits : q'.limits = q.limits)
    (hin : ∀ m, call.Concerns m → (q'.bucket m).initialized = (q.refilled m now).initialized ∧
      (q'.bucket m).updated = (q.refilled m now).updated ∧
      ∀ g, amount (q'.bucket m) g = amount (q.refilled m now) g - if admitted then (call.price g : ℚ) else 0)
    (hout : ∀ m, ¬ call.Concerns m → q'.bucket m = q.bucket m)
    (hpaid : admitted → ∀ m, call.Concerns m → ∀ g, call.price g ≤ q.level m g now) :
    Charged q q' now (call.taken admitted) := by
  have hin' {m : Meter} (hm : call.Concerns m) (g : Gauge) :
      call.taken admitted m g = if admitted then (call.price g : ℚ) else 0 := by
    rw [QuotaCall.taken, QuotaCall.charge, if_pos hm]
  have hout' {m : Meter} (hm : ¬ call.Concerns m) (g : Gauge) : call.taken admitted m g = 0 := by
    rw [QuotaCall.taken, QuotaCall.charge, if_neg hm]
    simp
  constructor
  · exact hlimits
  · intro m
    by_cases hm : call.Concerns m
    · obtain ⟨htime, hinit⟩ := updated_refill (hq m) le_rfl
      obtain ⟨h₁, h₂, h₃⟩ := hin m hm
      refine .inr ⟨h₁.trans hinit, h₂.trans htime, fun g => ?_⟩
      rw [hin' hm]
      exact h₃ g
    · exact .inl ⟨hout m hm, hout' hm⟩
  · intro m g
    unfold QuotaCall.taken
    split
    · exact Nat.cast_nonneg _
    · exact le_rfl
  · intro m g
    by_cases hm : call.Concerns m
    · rw [hin' hm]
      split
      · exact hpaid ‹_› m hm g
      · exact (hq.level_range le_rfl m g).1
    · rw [hout' hm]
      exact (hq.level_range le_rfl m g).1

/-- A call that is refused before any bucket is refilled. -/
theorem charged_none (hq : q.Sound now) {q' : ForwardingQuota} (call : QuotaCall) (hlimits : q'.limits = q.limits)
    (hbucket : ∀ m, q'.bucket m = q.bucket m) : Charged q q' now (call.taken false) :=
  ⟨hlimits, fun m => .inl ⟨hbucket m, fun _ => rfl⟩, fun _ _ => le_rfl, fun m g => (hq.level_range le_rfl m g).1⟩

@[simp]
theorem getD_insert {κ : Type} [DecidableEq κ] (rows : Map κ Bucket) (k j : κ) (b : Bucket) :
    Map.getD (rows.insert k b) j {} = if j = k then b else Map.getD rows j {} := by
  rw [Map.getD, Map.lookup_insert]
  split <;> rfl

theorem control_charged (hq : q.Sound now) (actor : DeviceId) :
    Charged (q.prune now) (q.control actor now).2 now
      ((QuotaCall.control actor).taken (q.control actor now).1) := by
  have hp := hq.prune
  unfold control
  dsimp only
  generalize q.prune now = p at hp ⊢
  have hout (b : Bucket) (m : Meter) (hm : ¬ (QuotaCall.control actor).Concerns m) :
      ({ p with devices := p.devices.insert actor b } : ForwardingQuota).bucket m = p.bucket m := by
    cases m with
    | device d => exact (getD_insert _ _ _ _).trans (if_neg fun h => hm (congrArg Meter.device h))
    | network n => rfl
    | authority => rfl
  split
  · exact charged_none hp _ rfl fun _ => rfl
  have hself (b : Bucket) : Map.getD (p.devices.insert actor b) actor {} = b := by simp
  split
  · -- refilled, but there is not one token
    refine charged_of hp _ false rfl ?_ (hout _) (by simp)
    rintro m rfl
    simp only [bucket, rejectControl, hself, refilled, rate]
    simp
  · rename_i hone
    refine charged_of hp _ true rfl ?_ (hout _) ?_
    · rintro m rfl
      simp only [bucket, hself, refilled, rate, true_and]
      intro g
      cases g <;> simp [amount, QuotaCall.price]
    · rintro - m rfl g
      cases g with
      | controls => simpa [QuotaCall.price, level, refilled, amount, bucket, rate] using hone
      | bytes => simpa [QuotaCall.price] using (hp.level_range le_rfl _ .bytes).1
      | deliveries => simpa [QuotaCall.price] using (hp.level_range le_rfl _ .deliveries).1

theorem admits_charged (hq : q.Sound now) (actor : DeviceId) (network : NetworkId) (size recipients : ℕ) :
    Charged (q.prune now) (q.admits actor network size recipients now).2 now
      ((QuotaCall.admits actor network size recipients).taken (q.admits actor network size recipients now).1) := by
  have hp := hq.prune
  unfold admits
  dsimp only
  generalize q.prune now = p at hp ⊢
  set call := QuotaCall.admits actor network size recipients
  split
  · exact charged_none hp _ rfl fun _ => rfl
  have hout (b c e : Bucket) (m : Meter) (hm : ¬ call.Concerns m) :
      ({ p with
          devices := p.devices.insert actor b, networks := p.networks.insert network c,
          aggregate := e } : ForwardingQuota).bucket m = p.bucket m := by
    cases m with
    | device d => exact (getD_insert _ _ _ _).trans (if_neg fun h => hm (.inl (congrArg Meter.device h)))
    | network n => exact (getD_insert _ _ _ _).trans (if_neg fun h => hm (.inr (.inl (congrArg Meter.network h))))
    | authority => exact absurd (.inr (.inr rfl)) hm
  split
  · refine charged_of hp _ false rfl ?_ (hout _ _ _) (by simp)
    rintro m (rfl | rfl | rfl) <;> simp [bucket, rejectQuota, refilled, rate]
  · rename_i henough
    simp only [not_or, not_lt] at henough
    refine charged_of hp _ true rfl ?_ (hout _ _ _) ?_
    · rintro m (rfl | rfl | rfl) <;> refine ⟨by simp [bucket, refilled, rate, Bucket.spend],
        by simp [bucket, refilled, rate, Bucket.spend], fun g => ?_⟩ <;>
        cases g <;> simp [bucket, refilled, rate, Bucket.spend, amount, QuotaCall.price, call]
    · rintro - m hm g
      cases g with
      | controls => simpa [QuotaCall.price] using (hp.level_range le_rfl _ .controls).1
      | bytes =>
        rcases hm with rfl | rfl | rfl
        · exact henough.1
        · exact henough.2.1
        · exact henough.2.2.2.2.1
      | deliveries =>
        rcases hm with rfl | rfl | rfl
        · exact henough.2.2.1
        · exact henough.2.2.2.1
        · exact henough.2.2.2.2.2

theorem serve_charged (hq : q.Sound now) (call : QuotaCall) :
    Charged (q.prune now) (q.serve call now).2 now (call.taken (q.serve call now).1) := by
  cases call with
  | control actor => exact control_charged hq actor
  | admits actor network size recipients => exact admits_charged hq actor network size recipients

end

end ForwardingQuota

end LanLink
