import LanLink.Lib.Buckets
import LanLink.Relay.Delivery
import LanLink.Relay.Limiters
import LanLink.Relay.QuotaBounds
/-!
# Bounds of the fan-out rate

A packet to a broadcast or multicast address is charged to the bucket of its
sender in the network and to the bucket of the network. The bucket of a network
lasts as long as the process. The bucket of a sender lasts as long as its
session: when the session ends it is dropped, and the next session starts with a
full one.
-/
open LanLink.Lib LanLink.Lib.Action

namespace LanLink.Service

/-! ## Buckets -/

section
variable {capacity perSecond : ℚ} {now t : Time} {b b' : FanoutBucket} {spent : ℚ}

/-- What the bucket would hold at `now`. -/
def fanoutLevel (capacity perSecond : ℚ) (b : FanoutBucket) (now : Time) : ℚ := (replenish now capacity perSecond b).tokens

/-- Never negative, not more than the capacity, and not from the future. -/
structure InRange (capacity : ℚ) (now : Time) (b : FanoutBucket) : Prop where
  nonneg : 0 ≤ b.tokens
  capped : b.tokens ≤ capacity
  past : b.initialized → b.updated ≤ now

/-- A bucket is left alone, or replenished, or replenished and charged `spent`. -/
inductive Paid (capacity perSecond : ℚ) (now : Time) (b : FanoutBucket) : ℚ → FanoutBucket → Prop
  | untouched : Paid capacity perSecond now b 0 b
  | replenished : Paid capacity perSecond now b 0 (replenish now capacity perSecond b)
  | charged {spent : ℚ} (free : 0 ≤ spent) (enough : spent ≤ fanoutLevel capacity perSecond b now) :
      Paid capacity perSecond now b spent
        { replenish now capacity perSecond b with tokens := fanoutLevel capacity perSecond b now - spent }

theorem replenish_updated (now : Time) (capacity perSecond : ℚ) (b : FanoutBucket) :
    (replenish now capacity perSecond b).updated = now ∧ (replenish now capacity perSecond b).initialized = true := by
  unfold replenish
  cases hinit : b.initialized with
  | false => exact ⟨rfl, rfl⟩
  | true =>
    simp only [not_true_eq_false, if_false]
    split <;> exact ⟨rfl, rfl⟩

theorem inRange_empty (hcapacity : 0 ≤ capacity) (now : Time) : InRange capacity now {} where
  nonneg := le_rfl
  capped := hcapacity
  past h := by cases h

theorem InRange.later (h : InRange capacity now b) (ht : now ≤ t) : InRange capacity t b :=
  ⟨h.nonneg, h.capped, fun hinit => (h.past hinit).trans ht⟩

theorem InRange.level_le (h : InRange capacity now b) : fanoutLevel capacity perSecond b t ≤ capacity := by
  unfold fanoutLevel replenish
  split
  · exact le_rfl
  split
  · exact min_le_left _ _
  · exact h.capped

theorem InRange.level_nonneg (h : InRange capacity now b) (hcapacity : 0 ≤ capacity) (hrate : 0 ≤ perSecond) :
    0 ≤ fanoutLevel capacity perSecond b t := by
  unfold fanoutLevel replenish
  split
  · exact hcapacity
  split
  · rename_i hlater
    have hseconds : 0 ≤ toSeconds (t - b.updated) := toSeconds_nonneg (sub_nonneg.2 hlater.le)
    exact le_min hcapacity (add_nonneg h.nonneg (mul_nonneg hseconds hrate))
  · exact h.nonneg

/-- While a bucket waits its level grows by no more than the rate. -/
theorem InRange.level_later (h : InRange capacity now b) (hrate : 0 ≤ perSecond) (ht : now ≤ t) :
    fanoutLevel capacity perSecond b t ≤
      fanoutLevel capacity perSecond b now + perSecond * (toSeconds t - toSeconds now) := by
  have hgain : 0 ≤ perSecond * (toSeconds t - toSeconds now) :=
    mul_nonneg hrate (sub_nonneg.2 (toSeconds_le.2 ht))
  unfold fanoutLevel replenish
  cases hinit : b.initialized with
  | false => simpa using hgain
  | true =>
    simp only [not_true_eq_false, if_false]
    have hpast := h.past hinit
    by_cases hlater : b.updated < t
    swap
    · rw [if_neg hlater, if_neg (fun hlt => hlater (hlt.trans_le ht))]
      linarith
    rw [if_pos hlater]
    by_cases hnow : b.updated < now
    · rw [if_pos hnow]
      dsimp only
      rw [toSeconds_sub, toSeconds_sub]
      rcases le_total capacity (b.tokens + (toSeconds now - toSeconds b.updated) * perSecond) with hfull | hfull
      · rw [min_eq_left hfull]
        exact (min_le_left _ _).trans (by linarith)
      · rw [min_eq_right hfull]
        exact (min_le_right _ _).trans (by linarith)
    · rw [if_neg hnow]
      have heq : b.updated = now := le_antisymm hpast (not_lt.1 hnow)
      refine (min_le_right _ _).trans ?_
      rw [toSeconds_sub, heq]
      linarith

theorem Paid.inRange (hp : Paid capacity perSecond now b spent b') (h : InRange capacity now b)
    (hcapacity : 0 ≤ capacity) (hrate : 0 ≤ perSecond) : InRange capacity now b' := by
  cases hp with
  | untouched => exact h
  | replenished => exact ⟨h.level_nonneg hcapacity hrate, h.level_le, fun _ => (replenish_updated _ _ _ _).1.le⟩
  | charged free enough =>
    have hlevel : fanoutLevel capacity perSecond b now ≤ capacity := h.level_le
    refine ⟨sub_nonneg.2 enough, ?_, fun _ => (replenish_updated now capacity perSecond b).1.le⟩
    dsimp only
    linarith

theorem Paid.level_later (hp : Paid capacity perSecond now b spent b') (h : InRange capacity now b)
    (hcapacity : 0 ≤ capacity) (hrate : 0 ≤ perSecond) (ht : now ≤ t) :
    fanoutLevel capacity perSecond b' t ≤
      fanoutLevel capacity perSecond b now - spent + perSecond * (toSeconds t - toSeconds now) := by
  have hlater := (hp.inRange h hcapacity hrate).level_later hrate ht
  obtain ⟨hupdated, hinit⟩ := replenish_updated now capacity perSecond b
  cases hp with
  | untouched => simpa using hlater
  | replenished =>
    refine hlater.trans (add_le_add_left ?_ _)
    conv_lhs => rw [fanoutLevel, replenish]
    simp [hinit, hupdated, fanoutLevel]
  | charged free enough =>
    refine hlater.trans (add_le_add_left ?_ _)
    conv_lhs => rw [fanoutLevel, replenish]
    simp [hinit, hupdated]

theorem Paid.range (hp : Paid capacity perSecond now b spent b') (h : InRange capacity now b)
    (hcapacity : 0 ≤ capacity) (hrate : 0 ≤ perSecond) : 0 ≤ spent ∧ spent ≤ fanoutLevel capacity perSecond b now := by
  cases hp with
  | untouched => exact ⟨le_rfl, h.level_nonneg hcapacity hrate⟩
  | replenished => exact ⟨le_rfl, h.level_nonneg hcapacity hrate⟩
  | charged free enough => exact ⟨free, enough⟩

end

/-! ## What a packet is charged -/

section
variable (inputs : Inputs)

def senderBucket (s : Service) (n : NetworkId) (d : DeviceId) : FanoutBucket := s.senderFanout.getD (n, d) {}

def networkBucket (s : Service) (n : NetworkId) : FanoutBucket := s.networkFanout.getD n {}

/-- The packet is addressed to all members of its network or to a group. -/
def isFanout (s : Service) (p : EncryptedNetworkPacket) : Bool :=
  (s.store.subnets.lookup p.networkId).any fun subnet =>
    isIpv4FanoutDestination p.destinationIpv4 subnet.val virtualIpv4PrefixLength

/-- The deliveries among the results of routing `p`, if it is a fan-out packet. -/
def fanoutOf (s : Service) (p : EncryptedNetworkPacket) : Except Exn (List RoutedEncryptedPacket) → List RoutedEncryptedPacket
  | .ok deliveries => if s.isFanout p then deliveries else []
  | .error _ => []

/-- The deliveries of a fan-out packet. -/
def fanoutDeliveries (s : Service) (actor : DeviceId) (p : EncryptedNetworkPacket) : List RoutedEncryptedPacket :=
  s.fanoutOf p (routeEncryptedPacket inputs actor p s).1

/-- The buckets of `s'` are those of `s`, where the packet paid for `deliveries`. -/
structure ChargedFor (now : Time) (actor : DeviceId) (n : NetworkId) (deliveries : List RoutedEncryptedPacket)
    (s s' : Service) : Prop where
  sender : ∀ m d, Paid 16 8 now (s.senderBucket m d) (if m = n ∧ d = actor ∧ deliveries ≠ [] then 1 else 0)
    (s'.senderBucket m d)
  network : ∀ m, Paid 256 128 now (s.networkBucket m) (if m = n then deliveries.length else 0) (s'.networkBucket m)

theorem ChargedFor.of_fanout {now : Time} {actor : DeviceId} {n : NetworkId} {s s' : Service} (h : s'.fanout = s.fanout) :
    ChargedFor now actor n [] s s' := by
  obtain ⟨hsender, hnetwork⟩ := Prod.mk.inj h
  constructor
  · intro m d
    rw [if_neg (by simp), senderBucket, senderBucket, hsender]
    exact .untouched
  · intro m
    rw [List.length_nil, Nat.cast_zero, ite_self, networkBucket, networkBucket, hnetwork]
    exact .untouched

theorem getD_fanout_insert {κ : Type} [DecidableEq κ] (rows : Map κ FanoutBucket) (k j : κ) (b : FanoutBucket) :
    Map.getD (rows.insert k b) j {} = if j = k then b else Map.getD rows j {} := by
  rw [Map.getD, Map.lookup_insert]
  split <;> rfl

/-- The buckets of the sender and of the network change, no others. -/
theorem ChargedFor.of_rows {now : Time} {actor : DeviceId} {n : NetworkId} {deliveries : List RoutedEncryptedPacket}
    {s s' : Service} {b c : FanoutBucket}
    (hb : Paid 16 8 now (s.senderBucket n actor) (if deliveries ≠ [] then 1 else 0) b)
    (hc : Paid 256 128 now (s.networkBucket n) deliveries.length c)
    (hsender : ∀ k, s'.senderFanout.getD k {} = if k = (n, actor) then b else s.senderFanout.getD k {})
    (hnetwork : ∀ m, s'.networkFanout.getD m {} = if m = n then c else s.networkFanout.getD m {}) :
    ChargedFor now actor n deliveries s s' := by
  constructor
  · intro m d
    rw [senderBucket, senderBucket, hsender]
    by_cases hkey : m = n ∧ d = actor
    · obtain ⟨rfl, rfl⟩ := hkey
      simpa [senderBucket] using hb
    · rw [if_neg (fun h => hkey (Prod.mk.inj h)), if_neg (fun h => hkey ⟨h.1, h.2.1⟩)]
      exact .untouched
  · intro m
    rw [networkBucket, networkBucket, hnetwork]
    by_cases hm : m = n
    · subst hm
      simpa [networkBucket] using hc
    · rw [if_neg hm, if_neg hm]
      exact .untouched

/-- Both buckets are charged or none. -/
theorem chargeFanout_charged (s : Service) (actor : DeviceId) (p : EncryptedNetworkPacket)
    {deliveries : List RoutedEncryptedPacket} (hne : deliveries ≠ []) :
    ChargedFor inputs.now actor p.networkId
      (if (s.chargeFanout inputs actor p deliveries.length).1 then deliveries else []) s
      (s.chargeFanout inputs actor p deliveries.length).2 := by
  unfold chargeFanout
  dsimp only
  split
  · rw [if_neg Bool.false_ne_true]
    refine .of_rows ?_ ?_ (getD_fanout_insert _ _ · _) (getD_fanout_insert _ _ · _)
    · rw [if_neg (by simp)]
      exact .replenished
    · rw [List.length_nil, Nat.cast_zero]
      exact .replenished
  rename_i henough
  simp only [not_or, not_lt] at henough
  split
  · rw [if_neg Bool.false_ne_true]
    refine .of_rows ?_ ?_ (getD_fanout_insert _ _ · _) (getD_fanout_insert _ _ · _)
    · rw [if_neg (by simp)]
      exact .replenished
    · rw [List.length_nil, Nat.cast_zero]
      exact .replenished
  · rw [if_pos rfl]
    have hsender := Paid.charged zero_le_one henough.1
    have hnetwork := Paid.charged (Nat.cast_nonneg _) henough.2
    refine .of_rows (by rwa [if_pos hne]) hnetwork (fun k => ?_) fun m => ?_
    · rw [getD_fanout_insert, getD_fanout_insert]
      split <;> rfl
    · rw [getD_fanout_insert, getD_fanout_insert]
      split <;> rfl

theorem routeFanout_charged (s : Service) (actor : DeviceId) (key : ActiveKey) (p : EncryptedNetworkPacket)
    (leases : List LeaseRecord) :
    ChargedFor inputs.now actor p.networkId (s.routeFanout inputs actor key p leases).1 s
      (s.routeFanout inputs actor key p leases).2 := by
  unfold routeFanout
  split
  · exact .of_fanout rfl
  dsimp only
  split
  · exact .of_fanout rfl
  split
  · exact .of_fanout rfl
  rename_i hne
  -- the replay window plays no part
  set s₁ : Service := { s with fanoutReplay := _ }
  set recipients := s₁.fanoutRecipients actor p leases
  have hdeliveries : recipients.map (deliver actor p) ≠ [] := by simpa using hne
  have hcharged := s₁.chargeFanout_charged inputs actor p hdeliveries
  rw [List.length_map] at hcharged
  split
  · rename_i s₂ hrefused
    rw [hrefused, if_neg Bool.false_ne_true] at hcharged
    exact ⟨hcharged.sender, hcharged.network⟩
  · rename_i s₂ hadmitted
    rw [hadmitted, if_pos rfl] at hcharged
    exact ⟨hcharged.sender, hcharged.network⟩

theorem fanout_routeUnicast (s : Service) (actor : DeviceId) (p : EncryptedNetworkPacket) (leases : List LeaseRecord) :
    (s.routeUnicast inputs actor p leases).2.fanout = s.fanout := by
  unfold routeUnicast
  split
  · rfl
  split
  · rfl
  · split <;> rfl

/-- A packet is charged for what is delivered of it. -/
theorem routeEncryptedPacket_charged (s : Service) (actor : DeviceId) (p : EncryptedNetworkPacket) :
    ChargedFor inputs.now actor p.networkId (s.fanoutDeliveries inputs actor p) s
      (routeEncryptedPacket inputs actor p s).2 := by
  change Post (routeEncryptedPacket inputs actor p) s fun r s' =>
    ChargedFor inputs.now actor p.networkId (s.fanoutOf p r) s s'
  have hnone : ChargedFor inputs.now actor p.networkId (s.fanoutOf p (.ok [])) s s := by
    rw [fanoutOf, ite_self]
    exact .of_fanout rfl
  unfold routeEncryptedPacket
  rw [post_gets_bind, post_ite]
  refine ⟨fun _ => hnone, fun _ => post_lift_bind (fun _ _ => ?_) fun _ => .of_fanout rfl⟩
  rw [post_gets_bind]
  cases hsender : s.admittedSender actor p with
  | none => exact hnone
  | some known =>
    obtain ⟨key, subnet⟩ := known
    have hsubnet : s.store.subnets.lookup p.networkId = some subnet := by
      unfold admittedSender at hsender
      split at hsender
      · split at hsender
        · cases hsender
        · cases hsender
          assumption
      · cases hsender
    have hfanout : s.isFanout p = isIpv4FanoutDestination p.destinationIpv4 subnet.val virtualIpv4PrefixLength := by
      rw [isFanout, hsubnet, Option.any_some]
    refine post_read (fun leases _ => ?_) fun _ _ => .of_fanout rfl
    rw [post_ite, ← hfanout]
    constructor
    · intro hyes
      rw [post_update, fanoutOf, if_pos hyes]
      exact s.routeFanout_charged inputs actor key p leases
    · intro hno
      rw [post_update, fanoutOf, if_neg hno]
      exact .of_fanout (s.fanout_routeUnicast inputs actor p leases)

end

/-! ## What a call does to the buckets -/

section
variable (crypto : Crypto) (inputs : Inputs)

/-- Fan-out packets that the call delivers for `d` in `n`: one or none. -/
def senderPackets (s : Service) (n : NetworkId) (d : DeviceId) : Op → ℕ
  | .routeEncryptedPacket actor p =>
    if n = p.networkId ∧ d = actor ∧ s.fanoutDeliveries inputs actor p ≠ [] then 1 else 0
  | _ => 0

/-- Fan-out deliveries that the call makes in `n`: packets times recipients. -/
def networkDeliveries (s : Service) (n : NetworkId) : Op → ℕ
  | .routeEncryptedPacket actor p => if n = p.networkId then (s.fanoutDeliveries inputs actor p).length else 0
  | _ => 0

/-- The call ends the current session of `d`. -/
def endsSession (s : Service) (d : DeviceId) : Op → Bool
  | .removeDeviceKey actor session => d = actor && (s.activeKeys.lookup actor).any fun k => k.sessionId = session
  | _ => false

theorem state_reply {α : Type} (f : α → Reply) (x : Call α) (s : Service) : (reply f x s).2 = (x s).2 := by
  change (Action.bind x (fun a => Pure.pure (f a)) s).2 = _
  unfold Action.bind
  rcases x s with ⟨_ | _, s'⟩ <;> rfl

theorem removeDeviceKey_fanout (s : Service) (actor : DeviceId) (session : SessionId) :
    (removeDeviceKey actor session s).2.fanout =
      if s.endsSession actor (.removeDeviceKey actor session) then (dropSession actor s).fanout else s.fanout := by
  change Post (removeDeviceKey actor session) s fun _ s' => s'.fanout = _
  have hcurrent : s.endsSession actor (.removeDeviceKey actor session) =
      (s.activeKeys.lookup actor).any fun k => k.sessionId = session := by
    simp [endsSession]
  unfold removeDeviceKey
  rw [post_gets_bind, post_ite, hcurrent]
  constructor
  · intro hends
    rw [if_pos hends, post_bind, post_modify]
    have hleaves : Leaves fanout (do
        let networks ← read fun db => db.listNetworksForDevice actor
        Action.collect (announceKey actor) networks) :=
      .bind (within_read _) fun _ => .collect (within_announceKey actor) _
    exact hleaves _
  · intro hkeeps
    rw [if_neg hkeeps]
    rfl

theorem senderBucket_dropSession (s : Service) (actor : DeviceId) (n : NetworkId) (d : DeviceId) :
    (dropSession actor s).senderBucket n d = if d = actor then {} else s.senderBucket n d := by
  rw [senderBucket, senderBucket, dropSession, Map.getD, Map.getD, Map.lookup_eraseIf]
  cases s.senderFanout.lookup (n, d) with
  | none => simp
  | some b => by_cases hd : d = actor <;> simp [Option.filter, hd]

/-- A call that neither routes a packet nor ends a session. -/
theorem fanout_perform (s : Service) {op : Op} (hop : ¬ op.Meters) : (perform crypto inputs op s).2.fanout = s.fanout :=
  leaves_perform crypto inputs hop s

/-- The bucket of a sender pays for its packets, or its session ends. -/
theorem perform_sender (s : Service) (op : Op) (n : NetworkId) (d : DeviceId) :
    (s.endsSession d op = false ∧ Paid 16 8 inputs.now (s.senderBucket n d) (s.senderPackets inputs n d op)
      ((perform crypto inputs op s).2.senderBucket n d)) ∨
    (s.endsSession d op = true ∧ s.senderPackets inputs n d op = 0 ∧
      (perform crypto inputs op s).2.senderBucket n d = {}) := by
  have hsame {s' : Service} (h : s'.fanout = s.fanout) :
      Paid 16 8 inputs.now (s.senderBucket n d) (0 : ℕ) (s'.senderBucket n d) := by
    rw [senderBucket, senderBucket, (Prod.mk.inj h).1, Nat.cast_zero]
    exact .untouched
  by_cases hop : op.Meters
  swap
  · left
    have hzero : s.senderPackets inputs n d op = 0 ∧ s.endsSession d op = false := by
      cases op <;> first | exact ⟨rfl, rfl⟩ | exact absurd trivial hop
    rw [hzero.1]
    exact ⟨hzero.2, hsame (fanout_perform crypto inputs s hop)⟩
  cases op with
  | routeEncryptedPacket actor p =>
    left
    refine ⟨rfl, ?_⟩
    rw [perform, state_reply, senderPackets, apply_ite Nat.cast, Nat.cast_one, Nat.cast_zero]
    exact (s.routeEncryptedPacket_charged inputs actor p).sender n d
  | removeDeviceKey actor session =>
    have hfanout := s.removeDeviceKey_fanout actor session
    rw [perform, state_reply]
    by_cases hends : s.endsSession actor (.removeDeviceKey actor session)
    · rw [if_pos hends] at hfanout
      have hbucket : (removeDeviceKey actor session s).2.senderBucket n d = (dropSession actor s).senderBucket n d := by
        rw [senderBucket, senderBucket, (Prod.mk.inj hfanout).1]
      rw [hbucket, senderBucket_dropSession]
      by_cases hd : d = actor
      · right
        rw [if_pos hd]
        exact ⟨hd ▸ hends, rfl, rfl⟩
      · left
        rw [if_neg hd]
        exact ⟨by simp [endsSession, hd], by simpa [senderPackets] using Paid.untouched⟩
    · rw [if_neg hends] at hfanout
      left
      refine ⟨?_, hsame hfanout⟩
      by_cases hd : d = actor
      · rw [hd]
        simpa using hends
      · simp [endsSession, hd]
  | _ => exact absurd hop not_false

theorem perform_network (s : Service) (op : Op) (n : NetworkId) :
    Paid 256 128 inputs.now (s.networkBucket n) (s.networkDeliveries inputs n op)
      ((perform crypto inputs op s).2.networkBucket n) := by
  have hsame {s' : Service} (h : s'.networkFanout = s.networkFanout) :
      Paid 256 128 inputs.now (s.networkBucket n) (0 : ℕ) (s'.networkBucket n) := by
    rw [networkBucket, networkBucket, h, Nat.cast_zero]
    exact .untouched
  by_cases hop : op.Meters
  swap
  · have hzero : s.networkDeliveries inputs n op = 0 := by
      cases op <;> first | rfl | exact absurd trivial hop
    rw [hzero]
    exact hsame (Prod.mk.inj (fanout_perform crypto inputs s hop)).2
  cases op with
  | routeEncryptedPacket actor p =>
    rw [perform, state_reply, networkDeliveries, apply_ite Nat.cast, Nat.cast_zero]
    exact (s.routeEncryptedPacket_charged inputs actor p).network n
  | removeDeviceKey actor session =>
    -- a session that ends leaves the buckets of networks
    rw [perform, state_reply]
    refine hsame ?_
    have hfanout := s.removeDeviceKey_fanout actor session
    split at hfanout
    · exact (Prod.mk.inj hfanout).2
    · exact (Prod.mk.inj hfanout).2
  | _ => exact absurd hop not_false

end

/-! ## Runs -/

section
variable (crypto : Crypto) (store : Db) (calls : ℕ → Op × Inputs)

/-- The service before call `k`, started over `store`. -/
def served : ℕ → Service := states (fun s call => (perform crypto call.2 call.1 s).2) (fresh store) calls

/-- The time that call `k` reads. -/
def clock (k : ℕ) : Time := (calls k).2.now

/-- The calls among the first `count` that are made from `s` to `t`. -/
def window (count : ℕ) (s t : Time) : Finset ℕ := (Finset.range count).filter fun k => s ≤ clock calls k ∧ clock calls k ≤ t

variable {crypto store calls}

theorem sender_inRange (hclock : ∀ k, clock calls k ≤ clock calls (k + 1)) (n : NetworkId) (d : DeviceId) (k : ℕ) :
    InRange 16 (clock calls k) ((served crypto store calls k).senderBucket n d) := by
  induction k with
  | zero => exact inRange_empty (by norm_num) _
  | succ k ih =>
    obtain ⟨-, hpaid⟩ | ⟨-, -, hempty⟩ := perform_sender crypto (calls k).2 (served crypto store calls k) (calls k).1 n d
    · exact (hpaid.inRange ih (by norm_num) (by norm_num)).later (hclock k)
    · rw [served, states, ← served, hempty]
      exact inRange_empty (by norm_num) _

theorem network_inRange (hclock : ∀ k, clock calls k ≤ clock calls (k + 1)) (n : NetworkId) (k : ℕ) :
    InRange 256 (clock calls k) ((served crypto store calls k).networkBucket n) := by
  induction k with
  | zero => exact inRange_empty (by norm_num) _
  | succ k ih =>
    have hpaid := perform_network crypto (calls k).2 (served crypto store calls k) (calls k).1 n
    exact (hpaid.inRange ih (by norm_num) (by norm_num)).later (hclock k)

/-- A session that ends gives its device a full bucket. -/
theorem sender_metered (hclock : ∀ k, clock calls k ≤ clock calls (k + 1)) (n : NetworkId) (d : DeviceId) :
    Metered (16 : ℚ) 8 (fun k => toSeconds (clock calls k))
      (fun k => fanoutLevel 16 8 ((served crypto store calls k).senderBucket n d) (clock calls k))
      (fun k => (served crypto store calls k).senderPackets (calls k).2 n d (calls k).1)
      (fun k => if (served crypto store calls k).endsSession d (calls k).1 then 16 else 0) := by
  have hrange (k : ℕ) : InRange 16 (clock calls k) ((served crypto store calls k).senderBucket n d) :=
    sender_inRange hclock n d k
  have hlevel (k : ℕ) : 0 ≤ fanoutLevel 16 8 ((served crypto store calls k).senderBucket n d) (clock calls k) :=
    (hrange k).level_nonneg (by norm_num) (by norm_num)
  have hstep (k : ℕ) := perform_sender crypto (calls k).2 (served crypto store calls k) (calls k).1 n d
  constructor
  · intro k
    exact toSeconds_le.2 (hclock k)
  · intro k
    exact (hrange k).level_le
  · intro k
    exact Nat.cast_nonneg _
  · intro k
    obtain ⟨-, hpaid⟩ | ⟨-, hzero, -⟩ := hstep k
    · exact (hpaid.range (hrange k) (by norm_num) (by norm_num)).2
    · rw [hzero, Nat.cast_zero]
      exact hlevel k
  · intro k
    split <;> norm_num
  · intro k
    obtain ⟨hkeeps, hpaid⟩ | ⟨hends, hzero, hempty⟩ := hstep k
    · rw [hkeeps, if_neg Bool.false_ne_true, add_zero]
      exact hpaid.level_later (hrange k) (by norm_num) (by norm_num) (hclock k)
    · have hfull : fanoutLevel 16 8 ((served crypto store calls (k + 1)).senderBucket n d) (clock calls (k + 1)) = 16 := by
        rw [served, states, ← served, hempty]
        rfl
      have hgain : (0 : ℚ) ≤ toSeconds (clock calls (k + 1)) - toSeconds (clock calls k) :=
        sub_nonneg.2 (toSeconds_le.2 (hclock k))
      rw [hfull, hzero, if_pos hends, Nat.cast_zero]
      linarith [hlevel k]

theorem network_metered (hclock : ∀ k, clock calls k ≤ clock calls (k + 1)) (n : NetworkId) :
    Metered (256 : ℚ) 128 (fun k => toSeconds (clock calls k))
      (fun k => fanoutLevel 256 128 ((served crypto store calls k).networkBucket n) (clock calls k))
      (fun k => (served crypto store calls k).networkDeliveries (calls k).2 n (calls k).1) (fun _ => 0) := by
  have hrange (k : ℕ) : InRange 256 (clock calls k) ((served crypto store calls k).networkBucket n) :=
    network_inRange hclock n k
  have hpaid (k : ℕ) := perform_network crypto (calls k).2 (served crypto store calls k) (calls k).1 n
  constructor
  · intro k
    exact toSeconds_le.2 (hclock k)
  · intro k
    exact (hrange k).level_le
  · intro k
    exact Nat.cast_nonneg _
  · intro k
    exact ((hpaid k).range (hrange k) (by norm_num) (by norm_num)).2
  · intro k
    exact le_rfl
  · intro k
    rw [add_zero]
    exact (hpaid k).level_later (hrange k) (by norm_num) (by norm_num) (hclock k)

/-- Fan-out packets of a sender and fan-out deliveries in a network, in any window of time. -/
structure FanoutBounded (crypto : Crypto) (store : Db) (calls : ℕ → Op × Inputs) : Prop where
  sender : ∀ n d count s t, s ≤ t →
    (∑ k ∈ window calls count s t, (served crypto store calls k).senderPackets (calls k).2 n d (calls k).1 : ℚ) ≤
      16 + 16 * ((window calls count s t).filter fun k => (served crypto store calls k).endsSession d (calls k).1).card +
        8 * toSeconds (t - s)
  network : ∀ n count s t, s ≤ t →
    (∑ k ∈ window calls count s t, (served crypto store calls k).networkDeliveries (calls k).2 n (calls k).1 : ℚ) ≤
      256 + 128 * toSeconds (t - s)

theorem fanout_bounded (hclock : ∀ k, clock calls k ≤ clock calls (k + 1)) : FanoutBounded crypto store calls := by
  constructor
  · intro n d count s t hst
    have hwindow := (@sender_metered crypto store calls hclock n d).window (by norm_num) (by norm_num) count (toSeconds_le.2 hst)
    simp only [toSeconds_le, ← toSeconds_sub] at hwindow
    rw [← Finset.sum_filter, Finset.sum_const, nsmul_eq_mul, mul_comm _ (16 : ℚ)] at hwindow
    exact hwindow
  · intro n count s t hst
    have hwindow := (@network_metered crypto store calls hclock n).window (by norm_num) (by norm_num) count (toSeconds_le.2 hst)
    simp only [toSeconds_le, ← toSeconds_sub, Finset.sum_const_zero, add_zero] at hwindow
    exact hwindow

end

/-! ## Reconnecting

The laptop spends its budget, ends its session, starts another one and sends
again, all at one time. -/

def toAll (sequence : UInt32) : EncryptedNetworkPacket where
  networkId := soleNetwork
  destinationIpv4 := 0xffffffff
  keyEpoch := 3
  sequence := sequence
  nonce := BitVec.ofNat 96 sequence.toNat
  ciphertext := List.replicate 20 0
  tag := 0

def reconnecting : ℕ → Op × Inputs
  | 0 => (.createNetwork soleOwner ⟨text "lan"⟩ 0, soleInputs)
  | 1 => (.joinNetwork laptop ⟨soleNetwork⟩ 0, soleInputs)
  | 2 => (.approveMember soleOwner ⟨soleNetwork, laptop⟩ 0, soleInputs)
  | 3 => (.publishDeviceKey soleOwner 1 (keyOf soleOwner) 0, soleInputs)
  | 4 => (.publishDeviceKey laptop 1 (keyOf laptop) 0, soleInputs)
  | 21 => (.removeDeviceKey laptop 1, soleInputs)
  | 22 => (.publishDeviceKey laptop 2 (keyOf laptop) 0, soleInputs)
  | k => (.routeEncryptedPacket laptop (toAll (UInt32.ofNat k)), soleInputs)

theorem reconnecting_clock (k : ℕ) : clock reconnecting k = 0 := by
  unfold clock reconnecting
  split <;> rfl

theorem fanout_bounded_reconnecting : (∀ k, clock reconnecting k ≤ clock reconnecting (k + 1)) ∧
    FanoutBounded plainCrypto {} reconnecting := by
  have hclock (k : ℕ) : clock reconnecting k ≤ clock reconnecting (k + 1) := by
    rw [reconnecting_clock, reconnecting_clock]
  exact ⟨hclock, fanout_bounded hclock⟩

/-- Seventeen packets at one time. -/
theorem seventeen_packets : (∀ k, clock reconnecting k ≤ clock reconnecting (k + 1)) ∧
    ¬ (∑ k ∈ window reconnecting 24 0 0,
      (served plainCrypto {} reconnecting k).senderPackets (reconnecting k).2 soleNetwork laptop (reconnecting k).1 : ℚ) ≤
      16 + 8 * toSeconds (0 - 0) := by
  refine ⟨fun k => by rw [reconnecting_clock, reconnecting_clock], ?_⟩
  have hcount : ∑ k ∈ Finset.range 24,
      (served plainCrypto {} reconnecting k).senderPackets (reconnecting k).2 soleNetwork laptop (reconnecting k).1 = 17 := by
    decide +kernel
  have hwindow : window reconnecting 24 0 0 = Finset.range 24 := by
    refine Finset.filter_true_of_mem fun k _ => ?_
    rw [reconnecting_clock]
    exact ⟨le_rfl, le_rfl⟩
  rw [hwindow, ← Nat.cast_sum, hcount]
  norm_num [toSeconds]

end LanLink.Service
