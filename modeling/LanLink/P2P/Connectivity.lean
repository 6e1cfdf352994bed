import LanLink.Lib.Runs
import LanLink.P2P.Candidates
import LanLink.Relay.ForwardingQuota
/-!
# Connectivity checks

`p2p/local_candidates.cpp` and `p2p/connectivity.cpp`: the endpoints a device
offers, the pairs of own and peer endpoints it probes, in the order of a priority
that both devices agree on, and the pair it nominates.
-/
open LanLink.Lib

namespace LanLink.P2P

/-! ## Own candidates -/

structure InterfaceAddress where
  ipv4 : UInt32 := 0
  index : UInt32 := 0
  up : Bool := false
  loopback : Bool := false
  tunnel : Bool := false
  deriving DecidableEq, Repr

structure ExcludedSubnet where
  address : UInt32 := 0
  prefixLength : UInt8 := 24
  deriving DecidableEq, Repr

def ExcludedSubnet.mask (s : ExcludedSubnet) : UInt32 :=
  if s.prefixLength ≠ 0 then 0xffffffff <<< (32 - s.prefixLength.toUInt32) else 0

/-- The loop over the excluded subnets. -/
def excludes (ipv4 : UInt32) : List ExcludedSubnet → Except Exn Bool
  | [] => .ok false
  | s :: subnets => do
    check (s.prefixLength ≤ 32) (.invalidArgument "invalid excluded subnet")
    let skip ← excludes ipv4 subnets
    .ok (ipv4 &&& s.mask = s.address &&& s.mask || skip)

def privateAddress (ipv4 : UInt32) : Bool :=
  ipv4 >>> 24 = 10 || ipv4 &&& 0xfff00000 = 0xac100000 || ipv4 &&& 0xffff0000 = 0xc0a80000

/-- Type preference, interface preference, component 1. -/
def hostPriority (i : InterfaceAddress) : UInt32 :=
  let preference : UInt32 := if i.loopback then 100 else if privateAddress i.ipv4 then 126 else 120
  (preference <<< 24) ||| ((65535 - min i.index 65535) <<< 8) ||| 255

/-- The loop over the interfaces, given the endpoints before. -/
def gatherFrom (port : UInt16) (excluded : List ExcludedSubnet) (loopback : Bool) (seen : List Endpoint) :
    List InterfaceAddress → Except Exn (List Candidate)
  | [] => .ok []
  | i :: interfaces =>
    let endpoint : Endpoint := { ipv4 := i.ipv4, port }
    if ¬ i.up ∨ i.tunnel ∨ (¬ loopback ∧ i.loopback) ∨ ¬ usableEndpoint endpoint loopback then
      gatherFrom port excluded loopback seen interfaces
    else do
      let skip ← excludes i.ipv4 excluded
      if skip ∨ endpoint ∈ seen then gatherFrom port excluded loopback seen interfaces
      else do
        let rest ← gatherFrom port excluded loopback (endpoint :: seen) interfaces
        .ok ({ endpoint, kind := .host, priority := hostPriority i } :: rest)

/-- Higher priorities first, then lower endpoints. -/
def offeredBefore (a b : Candidate) : Prop :=
  if a.priority ≠ b.priority then b.priority < a.priority else a.endpoint.ipv4 < b.endpoint.ipv4 ∨
    (a.endpoint.ipv4 = b.endpoint.ipv4 ∧ a.endpoint.port ≤ b.endpoint.port)

instance : DecidableRel offeredBefore := fun _ _ => by unfold offeredBefore; infer_instance

def gatherLocalCandidates (interfaces : List InterfaceAddress) (port : UInt16) (excluded : List ExcludedSubnet) (loopback : Bool) :
    Except Exn (List Candidate) := do
  let candidates ← gatherFrom port excluded loopback [] interfaces
  .ok ((candidates.insertionSort offeredBefore).take maxCandidates)

/-- What `discover_stun_endpoint` returns for the endpoint a server reports. -/
def stunCandidate (mapped : Endpoint) : Candidate :=
  { endpoint := mapped, kind := .serverReflexive, priority := ((100 : UInt32) <<< 24) ||| 255 }

/-! ## Checklists -/

inductive IceRole
  | controlling | controlled
  deriving DecidableEq, Repr

inductive CheckState
  | waiting | inProgress | succeeded | failed
  deriving DecidableEq, Repr

inductive ConnectivityState
  | checking | connected | failed
  deriving DecidableEq, Repr

structure CandidatePair where
  own : Candidate
  remote : Candidate
  priority : UInt64 := 0
  state : CheckState := .waiting
  attempts : UInt32 := 0
  rttUs : Option UInt32 := none
  deriving DecidableEq, Repr

structure ConnectivityChecks where
  ownDevice : DeviceId
  peer : DeviceId
  role : IceRole
  pairs : List CandidatePair
  deadline : Time
  nextTime : Time
  state : ConnectivityState := .checking
  deriving DecidableEq, Repr

/-- The priority of the controlling agent's candidate, and of the other's. -/
def rolePriorities (role : IceRole) (own remote : Candidate) : UInt32 × UInt32 :=
  if role = .controlling then (own.priority, remote.priority) else (remote.priority, own.priority)

/-- Modulo 2^64. -/
def pairPriority (role : IceRole) (own remote : Candidate) : UInt64 :=
  let (g, d) := rolePriorities role own remote
  ((min g d).toUInt64 <<< 32) + 2 * (max g d).toUInt64 + (if d < g then 1 else 0)

def badPair (own remote : Candidate) : Prop :=
  ¬ usableEndpoint own.endpoint true ∨ ¬ usableEndpoint remote.endpoint true ∨ own.priority = 0 ∨ remote.priority = 0

instance (own remote : Candidate) : Decidable (badPair own remote) := inferInstanceAs (Decidable (_ ∨ _))

/-- The loop over the candidates. -/
def makePairs (role : IceRole) : List (Candidate × Candidate) → Except Exn (List CandidatePair)
  | [] => .ok []
  | (own, remote) :: rest => do
    check (¬ badPair own remote) (.invalidArgument "invalid candidate pair")
    let pairs ← makePairs role rest
    .ok ({ own, remote, priority := pairPriority role own remote } :: pairs)

namespace ConnectivityChecks

/-- The role of a device among two. -/
def roleOf (ownDevice peer : DeviceId) : IceRole := if ownDevice < peer then .controlling else .controlled

/-- The constructor. -/
def make (ownDevice peer : DeviceId) (owns remotes : List Candidate) (now : Time) : Except Exn ConnectivityChecks := do
  check (¬ (ownDevice = peer ∨ owns = [] ∨ remotes = [] ∨ maxCandidates < owns.length ∨ maxCandidates < remotes.length))
    (.invalidArgument "invalid connectivity checklist")
  let role := roleOf ownDevice peer
  let pairs ← makePairs role (owns ×ˢ remotes)
  .ok { ownDevice, peer, role, pairs := pairs.insertionSort fun a b => b.priority ≤ a.priority
        deadline := now + 5000000000, nextTime := now }

/-- What `nominate` finds in the list of pairs. -/
inductive Verdict
  | nominated (p : CandidatePair)
  | undecided
  | exhausted

/-- The loop of `nominate`. -/
def verdict (deadline now : Time) : List CandidatePair → Verdict
  | [] => .exhausted
  | p :: pairs =>
    if p.state = .succeeded then .nominated p
    else if now < deadline ∧ p.state ≠ .failed then .undecided
    else verdict deadline now pairs

def nominate (c : ConnectivityChecks) (now : Time) : Option CandidatePair × ConnectivityChecks :=
  if c.state = .failed then (none, c)
  else
    match verdict c.deadline now c.pairs with
    | .nominated p => (some p, { c with state := .connected })
    | .undecided => (none, c)
    | .exhausted => (none, { c with state := .failed })

/-- Give up a pair that has not succeeded. -/
def giveUp (p : CandidatePair) : CandidatePair := if p.state ≠ .succeeded then { p with state := .failed } else p

/-- A pair that is still probed. -/
def selectable (p : CandidatePair) : Prop := p.state = .waiting ∨ (p.state = .inProgress ∧ p.attempts < 3)

instance (p : CandidatePair) : Decidable (selectable p) := inferInstanceAs (Decidable (_ ∨ _))

/-- The first pair that is still probed, and the pairs after it was. -/
def probe : List CandidatePair → Option (CandidatePair × List CandidatePair)
  | [] => none
  | p :: pairs =>
    if selectable p then
      let probed := { p with state := .inProgress, attempts := p.attempts + 1 }
      some (probed, probed :: pairs)
    else (probe pairs).map fun found => (found.1, p :: found.2)

def next (c : ConnectivityChecks) (now : Time) : Option CandidatePair × ConnectivityChecks :=
  if c.state ≠ .checking ∨ now < c.nextTime then (none, c)
  else if c.deadline ≤ now then
    (none, (({ c with pairs := c.pairs.map giveUp } : ConnectivityChecks).nominate now).2)
  else
    match probe c.pairs with
    | none => (none, (c.nominate now).2)
    | some (p, pairs) => (some p, { c with pairs, nextTime := now + 100000000 })

/-- The pair is between these endpoints. -/
def Between (own remote : Endpoint) (p : CandidatePair) : Prop := p.own.endpoint = own ∧ p.remote.endpoint = remote

instance (own remote : Endpoint) (p : CandidatePair) : Decidable (Between own remote p) := inferInstanceAs (Decidable (_ ∧ _))

def noteProbe (c : ConnectivityChecks) (own remote : Endpoint) : ConnectivityChecks :=
  if c.state ≠ .checking then c
  else
    { c with
      pairs := c.pairs.map fun p =>
        if Between own remote p ∧ p.state ≠ .succeeded ∧ p.state ≠ .failed then
          { p with state := .inProgress, attempts := p.attempts + 1 }
        else p }

def result (c : ConnectivityChecks) (own remote : Endpoint) (success : Bool) (rtt : Option UInt32) : ConnectivityChecks :=
  if c.state ≠ .checking then c
  else
    { c with
      pairs := c.pairs.map fun p =>
        if Between own remote p ∧ p.state = .inProgress then
          { p with
            state := if success then .succeeded else if 3 ≤ p.attempts then .failed else .waiting
            rttUs := if success then rtt else none }
        else p }

/-! ## Runs -/

inductive Call
  | next
  | noteProbe (own remote : Endpoint)
  | result (own remote : Endpoint) (success : Bool) (rtt : Option UInt32)
  | nominate

/-- A call, what it returns and what it leaves. -/
def call (c : ConnectivityChecks) (now : Time) : Call → Option CandidatePair × ConnectivityChecks
  | .next => c.next now
  | .noteProbe own remote => (none, c.noteProbe own remote)
  | .result own remote success rtt => (none, c.result own remote success rtt)
  | .nominate => c.nominate now

section
variable {deadline now now' : Time} {pairs : List CandidatePair} {p : CandidatePair} {c : ConnectivityChecks}

/-! ### Nomination -/

/-- A pair that a nomination passes over. -/
def Passed (deadline now : Time) (p : CandidatePair) : Prop := p.state ≠ .succeeded ∧ (p.state = .failed ∨ deadline ≤ now)

theorem verdict_nominated : verdict deadline now pairs = .nominated p ↔
    ∃ before after, pairs = before ++ p :: after ∧ p.state = .succeeded ∧ ∀ q ∈ before, Passed deadline now q := by
  induction pairs with
  | nil => simp [verdict]
  | cons q pairs ih =>
    unfold verdict
    by_cases hsucceeded : q.state = .succeeded
    · rw [if_pos hsucceeded]
      constructor
      · rintro ⟨rfl⟩
        exact ⟨[], pairs, rfl, hsucceeded, by simp⟩
      · rintro ⟨before, after, hpairs, -, hpassed⟩
        cases before with
        | nil =>
          cases hpairs
          rfl
        | cons q' before =>
          cases hpairs
          exact absurd hsucceeded (hpassed q List.mem_cons_self).1
    rw [if_neg hsucceeded]
    by_cases hundecided : now < deadline ∧ q.state ≠ .failed
    · rw [if_pos hundecided]
      constructor
      · rintro ⟨⟩
      · rintro ⟨before, after, hpairs, hp, hpassed⟩
        cases before with
        | nil =>
          cases hpairs
          exact absurd hp hsucceeded
        | cons q' before =>
          cases hpairs
          rcases (hpassed q List.mem_cons_self).2 with hfailed | hlate
          · exact absurd hfailed hundecided.2
          · exact absurd hundecided.1 (not_lt.2 hlate)
    rw [if_neg hundecided, ih]
    have hq : Passed deadline now q := by
      refine ⟨hsucceeded, ?_⟩
      by_contra hneither
      rw [not_or, not_le] at hneither
      exact hundecided ⟨hneither.2, hneither.1⟩
    constructor
    · rintro ⟨before, after, rfl, hp, hpassed⟩
      exact ⟨q :: before, after, rfl, hp, List.forall_mem_cons.2 ⟨hq, hpassed⟩⟩
    · rintro ⟨before, after, hpairs, hp, hpassed⟩
      cases before with
      | nil =>
        cases hpairs
        exact absurd hp hsucceeded
      | cons q' before =>
        cases hpairs
        exact ⟨before, after, rfl, hp, (List.forall_mem_cons.1 hpassed).2⟩

theorem verdict_exhausted (h : verdict deadline now pairs = .exhausted) : ∀ q ∈ pairs, Passed deadline now q := by
  induction pairs with
  | nil => simp
  | cons q pairs ih =>
    unfold verdict at h
    split at h
    · cases h
    · rename_i hsucceeded
      split at h
      · cases h
      · rename_i hundecided
        rw [not_and_or, not_lt, not_not] at hundecided
        exact List.forall_mem_cons.2 ⟨⟨hsucceeded, hundecided.symm⟩, ih h⟩

/-- Time only lets more pairs be passed over. -/
theorem verdict_later (h : verdict deadline now pairs = .nominated p) (hle : now ≤ now') :
    verdict deadline now' pairs = .nominated p := by
  obtain ⟨before, after, hpairs, hp, hpassed⟩ := verdict_nominated.1 h
  exact verdict_nominated.2 ⟨before, after, hpairs, hp, fun q hq => ⟨(hpassed q hq).1, (hpassed q hq).2.imp_right (·.trans hle)⟩⟩

theorem nominate_cases (h : c.state ≠ .failed) :
    (∃ p, verdict c.deadline now c.pairs = .nominated p ∧ c.nominate now = (some p, { c with state := .connected })) ∨
    c.nominate now = (none, c) ∨
    (verdict c.deadline now c.pairs = .exhausted ∧ c.nominate now = (none, { c with state := .failed })) := by
  unfold nominate
  rw [if_neg h]
  split
  · rename_i p hverdict
    exact .inl ⟨p, hverdict, rfl⟩
  · exact .inr (.inl rfl)
  · rename_i hverdict
    exact .inr (.inr ⟨hverdict, rfl⟩)

/-! ### One call -/

/-- The checks are over and `p` is the pair. -/
def Settled (c : ConnectivityChecks) (now : Time) (p : CandidatePair) : Prop :=
  c.state = .connected ∧ verdict c.deadline now c.pairs = .nominated p

/-- Once the checks are over, only a nomination does anything. -/
theorem call_over (h : c.state ≠ .checking) {k : Call} (hk : k ≠ .nominate) : (c.call now k).2 = c := by
  cases k with
  | next => rw [ConnectivityChecks.call, ConnectivityChecks.next, if_pos (.inl h)]
  | noteProbe own remote => rw [ConnectivityChecks.call, noteProbe, if_pos h]
  | result own remote success rtt => rw [ConnectivityChecks.call, ConnectivityChecks.result, if_pos h]
  | nominate => exact absurd rfl hk

/-- Nothing changes any more. -/
theorem Settled.call (h : Settled c now p) (hle : now ≤ now') (k : Call) :
    (c.call now' k).2 = c ∧ (k = .nominate → (c.call now' k).1 = some p) := by
  obtain ⟨hstate, hverdict⟩ := h
  by_cases hk : k = .nominate
  · subst hk
    have hfailed : c.state ≠ .failed := by simp [hstate]
    rw [ConnectivityChecks.call, nominate, if_neg hfailed, verdict_later hverdict hle, ← hstate]
    exact ⟨rfl, fun _ => rfl⟩
  · exact ⟨call_over (by simp [hstate]) hk, fun h => absurd h hk⟩

/-- What a nomination leads to. -/
theorem nominate_state (hstate : c.state = .checking) : ((c.nominate now).2.state = .checking ∨ (∃ p, Settled (c.nominate now).2 now p) ∨
    ((c.nominate now).2.state = .failed ∧ ∀ q ∈ (c.nominate now).2.pairs, Passed c.deadline now q)) ∧
    (c.nominate now).2.pairs = c.pairs ∧ (c.nominate now).2.deadline = c.deadline := by
  have hfailed : c.state ≠ .failed := by simp [hstate]
  rcases @nominate_cases now c hfailed with ⟨p, hverdict, heq⟩ | heq | ⟨hverdict, heq⟩
  · rw [heq]
    exact ⟨.inr (.inl ⟨p, rfl, hverdict⟩), rfl, rfl⟩
  · rw [heq]
    exact ⟨.inl hstate, rfl, rfl⟩
  · rw [heq]
    exact ⟨.inr (.inr ⟨rfl, verdict_exhausted hverdict⟩), rfl, rfl⟩

theorem probe_priorities {pairs' : List CandidatePair} (h : probe pairs = some (p, pairs')) :
    pairs'.map CandidatePair.priority = pairs.map CandidatePair.priority := by
  induction pairs generalizing pairs' with
  | nil => cases h
  | cons q pairs ih =>
    unfold probe at h
    split at h
    · cases h
      rfl
    · obtain ⟨⟨found, rest⟩, hfound, heq⟩ := Option.map_eq_some_iff.1 h
      cases heq
      rw [List.map_cons, List.map_cons, ih hfound]

/-- A call that a checklist in progress gets. -/
theorem call_checking (hstate : c.state = .checking) (k : Call) : ((c.call now k).2.state = .checking ∨
    (∃ p, Settled (c.call now k).2 now p) ∨
    ((c.call now k).2.state = .failed ∧ ∀ q ∈ (c.call now k).2.pairs, Passed c.deadline now q)) ∧
    (c.call now k).2.pairs.map CandidatePair.priority = c.pairs.map CandidatePair.priority ∧
    (c.call now k).2.deadline = c.deadline := by
  have hnot : ¬ c.state ≠ .checking := not_not.2 hstate
  have hmap : ∀ f : CandidatePair → CandidatePair, (∀ q, (f q).priority = q.priority) →
      (c.pairs.map f).map CandidatePair.priority = c.pairs.map CandidatePair.priority := by
    intro f hf
    rw [List.map_map]
    exact List.map_congr_left fun q _ => hf q
  cases k with
  | next =>
    unfold ConnectivityChecks.call ConnectivityChecks.next
    dsimp only
    split
    · exact ⟨.inl hstate, rfl, rfl⟩
    split
    · obtain ⟨hout, hpairs, hdeadline⟩ := @nominate_state now { c with pairs := c.pairs.map giveUp } hstate
      refine ⟨hout, ?_, hdeadline⟩
      rw [hpairs]
      refine hmap giveUp fun q => ?_
      unfold giveUp
      split <;> rfl
    split
    · obtain ⟨hout, hpairs, hdeadline⟩ := @nominate_state now c hstate
      exact ⟨hout, by rw [hpairs], hdeadline⟩
    · rename_i found pairs' hprobe
      exact ⟨.inl hstate, probe_priorities hprobe, rfl⟩
  | noteProbe own remote =>
    rw [ConnectivityChecks.call, noteProbe, if_neg hnot]
    refine ⟨.inl hstate, hmap _ fun q => ?_, rfl⟩
    split <;> rfl
  | result own remote success rtt =>
    rw [ConnectivityChecks.call, ConnectivityChecks.result, if_neg hnot]
    refine ⟨.inl hstate, hmap _ fun q => ?_, rfl⟩
    split <;> rfl
  | nominate =>
    obtain ⟨hout, hpairs, hdeadline⟩ := @nominate_state now c hstate
    exact ⟨hout, congrArg _ hpairs, hdeadline⟩

theorem call_failed (hstate : c.state = .failed) (k : Call) : (c.call now k).2 = c := by
  by_cases hk : k = .nominate
  · subst hk
    rw [ConnectivityChecks.call, nominate, if_pos hstate]
  · exact call_over (by simp [hstate]) hk

/-- A nomination that returns a pair settles the checks on it. -/
theorem nominate_some (hstate : c.state = .checking) (h : (c.call now .nominate).1 = some p) : Settled (c.call now .nominate).2 now p := by
  have hfailed : c.state ≠ .failed := by simp [hstate]
  rw [ConnectivityChecks.call] at h ⊢
  rcases @nominate_cases now c hfailed with ⟨p', hverdict, heq⟩ | heq | ⟨-, heq⟩
  · rw [heq] at h ⊢
    obtain rfl := Option.some.inj h
    exact ⟨rfl, hverdict⟩
  · rw [heq] at h
    cases h
  · rw [heq] at h
    cases h

/-! ### Every run -/

/-- Higher priorities first. -/
def Ordered (pairs : List CandidatePair) : Prop := pairs.Pairwise fun a b => b.priority ≤ a.priority

theorem ordered_of_priorities {pairs' : List CandidatePair} (h : pairs'.map CandidatePair.priority = pairs.map CandidatePair.priority)
    (hordered : Ordered pairs) : Ordered pairs' := by
  have hmap : ∀ l : List CandidatePair, Ordered l ↔ (l.map CandidatePair.priority).Pairwise fun a b => b ≤ a := fun l => by
    rw [List.pairwise_map]
    rfl
  rw [hmap, h, ← hmap]
  exact hordered

/-- What a settled pair is. -/
theorem Settled.best (h : Settled c now p) (hordered : Ordered c.pairs) : p ∈ c.pairs ∧ p.state = .succeeded ∧
    ∀ q ∈ c.pairs, p.priority < q.priority → q.state = .failed ∨ c.deadline ≤ now := by
  obtain ⟨before, after, hpairs, hp, hpassed⟩ := verdict_nominated.1 h.2
  rw [Ordered, hpairs, List.pairwise_append] at hordered
  rw [hpairs]
  refine ⟨by simp, hp, fun q hq hlt => ?_⟩
  rcases List.mem_append.1 hq with hbefore | hafter
  · exact (hpassed q hbefore).2
  · rcases List.mem_cons.1 hafter with rfl | hafter
    · exact absurd hlt (UInt64.lt_irrefl _)
    · have hle := List.rel_of_pairwise_cons hordered.2.1 hafter
      exact absurd hlt (UInt64.not_lt.2 hle)

theorem call_priorities (k : Call) : (c.call now k).2.pairs.map CandidatePair.priority = c.pairs.map CandidatePair.priority ∧
    (c.call now k).2.deadline = c.deadline := by
  by_cases hstate : c.state = .checking
  · exact (call_checking hstate k).2
  cases k with
  | next =>
    rw [ConnectivityChecks.call, ConnectivityChecks.next, if_pos (.inl hstate)]
    exact ⟨rfl, rfl⟩
  | noteProbe own remote =>
    rw [ConnectivityChecks.call, noteProbe, if_pos hstate]
    exact ⟨rfl, rfl⟩
  | result own remote success rtt =>
    rw [ConnectivityChecks.call, ConnectivityChecks.result, if_pos hstate]
    exact ⟨rfl, rfl⟩
  | nominate =>
    by_cases hfailed : c.state = .failed
    · rw [call_failed hfailed]
      exact ⟨rfl, rfl⟩
    · rw [ConnectivityChecks.call]
      rcases @nominate_cases now c hfailed with ⟨p', -, heq⟩ | heq | ⟨-, heq⟩ <;> rw [heq] <;> exact ⟨rfl, rfl⟩

end

section
variable (c₀ : ConnectivityChecks) (inputs : ℕ → Time × Call)

/-- The checks before call `k`. -/
def before (k : ℕ) : ConnectivityChecks := states (fun c i => (c.call i.1 i.2).2) c₀ inputs k

/-- What call `k` returns. -/
def returned (k : ℕ) : Option CandidatePair := ((before c₀ inputs k).call (inputs k).1 (inputs k).2).1

variable {c₀ inputs} {k m : ℕ} {t : Time} {p : CandidatePair}

theorem before_succ (k : ℕ) : before c₀ inputs (k + 1) = ((before c₀ inputs k).call (inputs k).1 (inputs k).2).2 := rfl

theorem before_priorities (k : ℕ) : (before c₀ inputs k).pairs.map CandidatePair.priority = c₀.pairs.map CandidatePair.priority ∧
    (before c₀ inputs k).deadline = c₀.deadline := by
  induction k with
  | zero => exact ⟨rfl, rfl⟩
  | succ k ih =>
    obtain ⟨hpairs, hdeadline⟩ := @call_priorities (inputs k).1 (before c₀ inputs k) (inputs k).2
    rw [before_succ]
    exact ⟨hpairs.trans ih.1, hdeadline.trans ih.2⟩

/-- Once settled, the checks stay as they are. -/
theorem Settled.forever (h : Settled (before c₀ inputs k) t p) (ht : ∀ m, k ≤ m → t ≤ (inputs m).1) (hkm : k ≤ m) :
    before c₀ inputs m = before c₀ inputs k ∧ ((inputs m).2 = .nominate → returned c₀ inputs m = some p) := by
  have hstay : ∀ m, k ≤ m → before c₀ inputs m = before c₀ inputs k := by
    intro m hkm
    induction m, hkm using Nat.le_induction with
    | base => rfl
    | succ m hkm ih => rw [before_succ, ih, (h.call (ht m hkm) _).1]
  rw [returned, hstay m hkm]
  exact ⟨rfl, fun hnominate => (h.call (ht m hkm) _).2 hnominate⟩

/-- A checklist that is connected is settled, as of the last call. -/
theorem settled_before (hstart : c₀.state = .checking) (hclock : ∀ k, (inputs k).1 ≤ (inputs (k + 1)).1)
    (hstate : (before c₀ inputs k).state = .connected) : ∃ j p, j + 1 = k ∧ Settled (before c₀ inputs k) (inputs j).1 p := by
  induction k with
  | zero =>
    rw [before, states, hstart] at hstate
    cases hstate
  | succ k ih =>
    rw [before_succ] at hstate ⊢
    cases hold : (before c₀ inputs k).state with
    | checking =>
      rcases (@call_checking (inputs k).1 _ hold (inputs k).2).1 with hsame | ⟨p, hsettled⟩ | ⟨hfailed, -⟩
      · rw [hsame] at hstate
        cases hstate
      · exact ⟨k, p, rfl, hsettled⟩
      · rw [hfailed] at hstate
        cases hstate
    | connected =>
      obtain ⟨j, p, rfl, hsettled⟩ := ih hold
      have hcall := hsettled.call (hclock j) (inputs (j + 1)).2
      rw [hcall.1]
      exact ⟨j + 1, p, rfl, hsettled.1, verdict_later hsettled.2 (hclock j)⟩
    | failed =>
      rw [call_failed hold, hold] at hstate
      cases hstate

/-- A nomination settles the checks. -/
theorem settled_of_nominated (hstart : c₀.state = .checking) (hclock : ∀ k, (inputs k).1 ≤ (inputs (k + 1)).1)
    (hcall : (inputs k).2 = .nominate) (h : returned c₀ inputs k = some p) : Settled (before c₀ inputs (k + 1)) (inputs k).1 p := by
  rw [before_succ]
  unfold returned at h
  rw [hcall] at h ⊢
  cases hold : (before c₀ inputs k).state with
  | checking => exact nominate_some hold h
  | connected =>
    obtain ⟨j, p', rfl, hsettled⟩ := settled_before hstart hclock hold
    have hagain := hsettled.call (hclock j) .nominate
    rw [hagain.2 rfl] at h
    cases h
    rw [hagain.1]
    exact ⟨hsettled.1, verdict_later hsettled.2 (hclock j)⟩
  | failed =>
    rw [ConnectivityChecks.call, nominate, if_pos hold] at h
    cases h

/-- Failing. -/
theorem passed_of_failed (hclock : ∀ k, (inputs k).1 ≤ (inputs (k + 1)).1) (hstart : c₀.state = .checking)
    (hbefore : (before c₀ inputs k).state ≠ .failed) (hafter : (before c₀ inputs (k + 1)).state = .failed) :
    ∀ q ∈ (before c₀ inputs (k + 1)).pairs, Passed c₀.deadline (inputs k).1 q := by
  rw [before_succ] at hafter ⊢
  cases hold : (before c₀ inputs k).state with
  | checking =>
    rcases (@call_checking (inputs k).1 _ hold (inputs k).2).1 with hsame | ⟨p, hsettled⟩ | ⟨-, hpassed⟩
    · rw [hsame] at hafter
      cases hafter
    · rw [hsettled.1] at hafter
      cases hafter
    · rwa [(before_priorities k).2] at hpassed
  | connected =>
    obtain ⟨j, p, rfl, hsettled⟩ := settled_before hstart hclock hold
    rw [(hsettled.call (hclock j) _).1, hold] at hafter
    cases hafter
  | failed => exact absurd hold hbefore

end

/-! ### Checklists -/

section
variable {role : IceRole} {ownDevice peer : DeviceId} {owns remotes : List Candidate} {now : Time} {c : ConnectivityChecks}

theorem makePairs_mem {l : List (Candidate × Candidate)} {pairs : List CandidatePair} (h : makePairs role l = .ok pairs)
    {p : CandidatePair} (hp : p ∈ pairs) : (p.own, p.remote) ∈ l ∧ p.priority = pairPriority role p.own p.remote := by
  induction l generalizing pairs with
  | nil =>
    cases h
    cases hp
  | cons ab l ih =>
    obtain ⟨a, b⟩ := ab
    simp only [makePairs, bind_eq_ok, Except.ok.injEq] at h
    obtain ⟨-, -, rest, hrest, rfl⟩ := h
    rcases List.mem_cons.1 hp with rfl | hp
    · exact ⟨List.mem_cons_self, rfl⟩
    · obtain ⟨hmem, hpriority⟩ := ih hrest hp
      exact ⟨List.mem_cons_of_mem _ hmem, hpriority⟩

/-- A new checklist. -/
structure Fresh (ownDevice peer : DeviceId) (owns remotes : List Candidate) (c : ConnectivityChecks) : Prop where
  devices : ownDevice ≠ peer
  role : c.role = roleOf ownDevice peer
  state : c.state = .checking
  ordered : Ordered c.pairs
  pairs : ∀ p ∈ c.pairs, (p.own ∈ owns ∧ p.remote ∈ remotes) ∧ p.priority = pairPriority c.role p.own p.remote

theorem fresh_of_make (h : make ownDevice peer owns remotes now = .ok c) : Fresh ownDevice peer owns remotes c := by
  simp only [make, bind_eq_ok, check_eq_ok, exists_const, Except.ok.injEq, not_or] at h
  obtain ⟨hcheck, pairs, hpairs, rfl⟩ := h
  refine ⟨hcheck.1, rfl, rfl, ?_, ?_⟩
  · have : Std.Total fun a b : CandidatePair => b.priority ≤ a.priority := ⟨fun a b => UInt64.le_total _ _⟩
    have : IsTrans CandidatePair fun a b => b.priority ≤ a.priority := ⟨fun a b c hab hbc => UInt64.le_trans hbc hab⟩
    exact List.pairwise_insertionSort _ _
  · intro p hp
    rw [List.mem_insertionSort] at hp
    obtain ⟨hmem, hpriority⟩ := makePairs_mem hpairs hp
    exact ⟨List.mem_product.1 hmem, hpriority⟩

/-- Both agents put the priorities into the same places. -/
theorem pairPriority_mirrored (hne : ownDevice ≠ peer) (own remote : Candidate) :
    pairPriority (roleOf ownDevice peer) own remote = pairPriority (roleOf peer ownDevice) remote own := by
  have hroles : rolePriorities (roleOf ownDevice peer) own remote = rolePriorities (roleOf peer ownDevice) remote own := by
    have hneNat : ownDevice.toNat ≠ peer.toNat := fun h => hne (BitVec.eq_of_toNat_eq h)
    rcases (Nat.lt_or_gt_of_ne hneNat).imp BitVec.lt_def.2 BitVec.lt_def.2 with hlt | hlt
    · have hnot : ¬ peer < ownDevice := BitVec.lt_asymm hlt
      simp [rolePriorities, roleOf, hlt, hnot]
    · have hnot : ¬ ownDevice < peer := BitVec.lt_asymm hlt
      simp [rolePriorities, roleOf, hlt, hnot]
  unfold pairPriority
  rw [hroles]

/-- The priority of a pair without a modulus. -/
def exactPriority (role : IceRole) (own remote : Candidate) : ℕ :=
  let (g, d) := rolePriorities role own remote
  2 ^ 32 * min g.toNat d.toNat + 2 * max g.toNat d.toNat + if d < g then 1 else 0

theorem toNat_min (g d : UInt32) : (min g d).toNat = min g.toNat d.toNat := by
  have hdef : min g d = if g ≤ d then g else d := rfl
  rw [hdef]
  split
  · rename_i hle
    have := UInt32.le_iff_toNat_le.1 hle
    omega
  · rename_i hlt
    have := UInt32.lt_iff_toNat_lt.1 (UInt32.not_le.1 hlt)
    omega

theorem toNat_max (g d : UInt32) : (max g d).toNat = max g.toNat d.toNat := by
  have hdef : max g d = if g ≤ d then d else g := rfl
  rw [hdef]
  split
  · rename_i hle
    have := UInt32.le_iff_toNat_le.1 hle
    omega
  · rename_i hlt
    have := UInt32.lt_iff_toNat_lt.1 (UInt32.not_le.1 hlt)
    omega

/-- One candidate in the lower half is enough for the priority not to wrap. -/
theorem pairPriority_exact {own remote : Candidate} (h : own.priority.toNat < 2 ^ 31) :
    (pairPriority role own remote).toNat = exactPriority role own remote := by
  obtain ⟨⟨g, d⟩, hroles⟩ : ∃ r, r = rolePriorities role own remote := ⟨_, rfl⟩
  have hlow : g.toNat < 2 ^ 31 ∨ d.toNat < 2 ^ 31 := by
    unfold rolePriorities at hroles
    split at hroles
    · cases hroles
      exact .inl h
    · cases hroles
      exact .inr h
  have hglt := g.toNat_lt
  have hdlt := d.toNat_lt
  have hshift : ((min g d).toUInt64 <<< 32).toNat = min g.toNat d.toNat * 2 ^ 32 := by
    have hcount : (32 : UInt64).toNat % 64 = 32 := rfl
    rw [UInt64.toNat_shiftLeft, UInt32.toNat_toUInt64, Nat.shiftLeft_eq, hcount, toNat_min]
    omega
  have hdouble : (2 * (max g d).toUInt64).toNat = 2 * max g.toNat d.toNat := by
    have htwo : (2 : UInt64).toNat = 2 := rfl
    rw [UInt64.toNat_mul, UInt32.toNat_toUInt64, toNat_max, htwo]
    omega
  have htie : (if d < g then 1 else 0 : UInt64).toNat = if d < g then 1 else 0 := by
    split <;> rfl
  have hone : (if d < g then 1 else 0 : ℕ) ≤ 1 := by
    split <;> omega
  unfold pairPriority exactPriority
  rw [← hroles]
  dsimp only
  rw [UInt64.toNat_add, UInt64.toNat_add, hshift, hdouble, htie]
  omega

/-! ### Candidates of a device -/

theorem hostPriority_lt (i : InterfaceAddress) : (hostPriority i).toNat < 2 ^ 31 := by
  have hlow : (min i.index 65535).toNat ≤ 65535 := by
    rw [toNat_min]
    exact Nat.min_le_right _ _
  have hlocal : (65535 - min i.index 65535).toNat ≤ 65535 := by
    have hle : min i.index 65535 ≤ 65535 := UInt32.le_iff_toNat_le.2 hlow
    rw [UInt32.toNat_sub_of_le _ _ hle]
    exact Nat.sub_le _ _
  have hshift : ((65535 - min i.index 65535) <<< 8).toNat < 2 ^ 31 := by
    have hcount : (8 : UInt32).toNat % 32 = 8 := rfl
    rw [UInt32.toNat_shiftLeft, Nat.shiftLeft_eq, hcount]
    omega
  have hpreference : ∀ preference : UInt32, preference ≤ 126 → (preference <<< 24).toNat < 2 ^ 31 := by
    intro preference hle
    have hleNat : preference.toNat ≤ 126 := UInt32.le_iff_toNat_le.1 hle
    have hcount : (24 : UInt32).toNat % 32 = 24 := rfl
    rw [UInt32.toNat_shiftLeft, Nat.shiftLeft_eq, hcount]
    omega
  unfold hostPriority
  dsimp only
  rw [UInt32.toNat_or, UInt32.toNat_or]
  refine Nat.or_lt_two_pow (Nat.or_lt_two_pow (hpreference _ ?_) hshift) (by decide)
  split
  · decide
  · split <;> decide

theorem gatherFrom_lt {port : UInt16} {excluded : List ExcludedSubnet} {loopback : Bool} {seen : List Endpoint}
    {interfaces : List InterfaceAddress} {candidates : List Candidate}
    (h : gatherFrom port excluded loopback seen interfaces = .ok candidates) : ∀ a ∈ candidates, a.priority.toNat < 2 ^ 31 := by
  induction interfaces generalizing seen candidates with
  | nil =>
    cases h
    simp
  | cons i interfaces ih =>
    unfold gatherFrom at h
    dsimp only at h
    split at h
    · exact ih h
    · obtain ⟨skip, -, h⟩ := bind_eq_ok.1 h
      split at h
      · exact ih h
      · simp only [bind_eq_ok, Except.ok.injEq] at h
        obtain ⟨rest, hrest, rfl⟩ := h
        exact List.forall_mem_cons.2 ⟨hostPriority_lt i, ih hrest⟩

/-- A candidate a device offers: of an interface, or what a STUN server reports. -/
def Offered (a : Candidate) : Prop :=
  (∃ interfaces port excluded loopback candidates,
    gatherLocalCandidates interfaces port excluded loopback = .ok candidates ∧ a ∈ candidates) ∨ ∃ mapped, a = stunCandidate mapped

theorem Offered.lt {a : Candidate} (h : Offered a) : a.priority.toNat < 2 ^ 31 := by
  rcases h with ⟨interfaces, port, excluded, loopback, candidates, hgather, ha⟩ | ⟨mapped, rfl⟩
  · simp only [gatherLocalCandidates, bind_eq_ok, Except.ok.injEq] at hgather
    obtain ⟨gathered, hfrom, rfl⟩ := hgather
    have hmem := List.mem_of_mem_take ha
    rw [List.mem_insertionSort] at hmem
    exact gatherFrom_lt hfrom a hmem
  · have hpriority : (stunCandidate mapped).priority = ((100 : UInt32) <<< 24) ||| 255 := rfl
    rw [hpriority]
    decide

end

/-! ### The checks -/

/-- Over every run of a checklist: the pair that is nominated has succeeded and
no better one could; it stays; and the checks fail when every pair has failed or
time is up. Priorities do not wrap, and two devices agree on them. -/
theorem nomination :
    (∀ ownDevice peer owns remotes start c₀ inputs, make ownDevice peer owns remotes start = .ok c₀ →
      (∀ k, (inputs k).1 ≤ (inputs (k + 1)).1) →
      (∀ k p, (inputs k).2 = .nominate → returned c₀ inputs k = some p →
        (p ∈ (before c₀ inputs (k + 1)).pairs ∧ p.state = .succeeded ∧
          ∀ q ∈ (before c₀ inputs (k + 1)).pairs, p.priority < q.priority → q.state = .failed ∨ c₀.deadline ≤ (inputs k).1) ∧
        ∀ m, k < m → before c₀ inputs m = before c₀ inputs (k + 1) ∧
          ((inputs m).2 = .nominate → returned c₀ inputs m = some p)) ∧
      (∀ k, (before c₀ inputs k).state = .connected → ∃ j p, j + 1 = k ∧
        (p ∈ (before c₀ inputs k).pairs ∧ p.state = .succeeded ∧
          ∀ q ∈ (before c₀ inputs k).pairs, p.priority < q.priority → q.state = .failed ∨ c₀.deadline ≤ (inputs j).1) ∧
        ∀ m, k ≤ m → before c₀ inputs m = before c₀ inputs k ∧ ((inputs m).2 = .nominate → returned c₀ inputs m = some p)) ∧
      (∀ k, (before c₀ inputs k).state ≠ .failed → (before c₀ inputs (k + 1)).state = .failed →
        (∀ q ∈ (before c₀ inputs (k + 1)).pairs, q.state ≠ .succeeded) ∧
        ((∀ q ∈ (before c₀ inputs (k + 1)).pairs, q.state = .failed) ∨ c₀.deadline ≤ (inputs k).1))) ∧
    (∀ ownDevice peer owns remotes start c₀, make ownDevice peer owns remotes start = .ok c₀ → (∀ a ∈ owns, Offered a) →
      ∀ p ∈ c₀.pairs, p.priority.toNat = exactPriority c₀.role p.own p.remote) ∧
    (∀ ownDevice peer owns remotes start start' c c', make ownDevice peer owns remotes start = .ok c →
      make peer ownDevice remotes owns start' = .ok c' →
      ∀ p ∈ c.pairs, ∀ p' ∈ c'.pairs, p.own = p'.remote → p.remote = p'.own → p.priority = p'.priority) := by
  refine ⟨?_, ?_, ?_⟩
  · intro ownDevice peer owns remotes start c₀ inputs hmake hclock
    have hfresh := fresh_of_make hmake
    have hlater : ∀ {j m : ℕ}, j ≤ m → (inputs j).1 ≤ (inputs m).1 := fun hjm => monotone_nat_of_le_succ hclock hjm
    have hordered : ∀ k, Ordered (before c₀ inputs k).pairs := fun k =>
      ordered_of_priorities (before_priorities k).1 hfresh.ordered
    have hbest : ∀ {k t p}, Settled (before c₀ inputs k) t p → p ∈ (before c₀ inputs k).pairs ∧ p.state = .succeeded ∧
        ∀ q ∈ (before c₀ inputs k).pairs, p.priority < q.priority → q.state = .failed ∨ c₀.deadline ≤ t := by
      intro k t p hsettled
      have h := hsettled.best (hordered k)
      rwa [(before_priorities k).2] at h
    refine ⟨?_, ?_, ?_⟩
    · intro k p hcall hreturned
      have hsettled := settled_of_nominated hfresh.state hclock hcall hreturned
      exact ⟨hbest hsettled, fun m hkm => hsettled.forever (fun m hm => hlater (by omega)) hkm⟩
    · intro k hstate
      obtain ⟨j, p, rfl, hsettled⟩ := settled_before hfresh.state hclock hstate
      exact ⟨j, p, rfl, hbest hsettled, fun m hkm => hsettled.forever (fun m hm => hlater (by omega)) hkm⟩
    · intro k hbefore hafter
      have hpassed := passed_of_failed hclock hfresh.state hbefore hafter
      refine ⟨fun q hq => (hpassed q hq).1, ?_⟩
      by_cases hlate : c₀.deadline ≤ (inputs k).1
      · exact .inr hlate
      · exact .inl fun q hq => (hpassed q hq).2.resolve_right hlate
  · intro ownDevice peer owns remotes start c₀ hmake hoffered p hp
    obtain ⟨⟨hown, -⟩, hpriority⟩ := (fresh_of_make hmake).pairs p hp
    rw [hpriority]
    exact pairPriority_exact (hoffered _ hown).lt
  · intro ownDevice peer owns remotes start start' c c' hmake hmake' p hp p' hp' hown hremote
    have hfresh := fresh_of_make hmake
    have hfresh' := fresh_of_make hmake'
    rw [(hfresh.pairs p hp).2, (hfresh'.pairs p' hp').2, hfresh.role, hfresh'.role, hown, hremote]
    exact pairPriority_mirrored hfresh.devices _ _

end ConnectivityChecks

end LanLink.P2P
