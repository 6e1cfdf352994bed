import LanLink.Auth.RelayHealth
import LanLink.Lib.Actions
import LanLink.Relay.ForwardingQuota
/-!
# Choosing a relay

`transport/relay_pool.cpp`: the relays of a directory with the last health sample
of each. The best eligible relay is chosen, but the active one is kept unless it
has been active for 30 s and the best is much better.
-/
open LanLink.Lib LanLink.Lib.Action

namespace LanLink

structure RelayProbe where
  health : RelayHealth := {}
  rttUs : ℤ := 0
  deriving DecidableEq, Repr

namespace RelayPool

/-- `RelayPool::Node`. -/
structure Node where
  endpoint : RelayEndpoint
  sample : Option RelayProbe := none
  observed : Time := 0
  retry : Time := 0
  failures : ℕ := 0
  deriving DecidableEq, Repr

end RelayPool

open RelayPool in
structure RelayPool where
  nodes : List Node := []
  authority : Text := []
  active : Text := []
  activated : Time := 0
  deriving DecidableEq, Repr

namespace RelayPool

/-! ## Updates -/

/-- Whole seconds. -/
def seconds (n : ℤ) : Time := n * 1000000000

/-- The node an endpoint has already, or a new one. -/
def keep (nodes : List Node) (e : RelayEndpoint) : Node := (nodes.find? (·.endpoint = e)).getD { endpoint := e }

/-- The loop of `update`, given the ids before. -/
def adopt (authority : Text) (nodes : List Node) (ids : List Text) : List RelayEndpoint → Except Exn (List Node)
  | [] => .ok []
  | e :: endpoints => do
    check (¬ (authority = [] ∨ e.authority ≠ authority ∨ e.healthKey = 0 ∨ e.protocolVersion ≠ protocolVersion ∨ e.capacity = 0 ∨
        e.port = 0 ∨ ids.contains e.id))
      (.invalidArgument "untrusted or incompatible relay pool")
    let next ← adopt authority nodes (e.id :: ids) endpoints
    .ok (keep nodes e :: next)

/-- The authority of the pool, or that of the first endpoint where there is none yet. -/
def chosenAuthority (pool : RelayPool) (endpoints : List RelayEndpoint) : Text :=
  if pool.authority = [] then (endpoints.head?.map RelayEndpoint.authority).getD [] else pool.authority

def update (endpoints : List RelayEndpoint) : Action Exn RelayPool Unit := do
  Action.lift (check (¬ (endpoints = [] ∨ 32 < endpoints.length)) (.invalidArgument "invalid relay pool size"))
  let authority ← gets fun pool => pool.chosenAuthority endpoints
  let next ← query fun pool => adopt authority pool.nodes [] endpoints
  modify fun pool => { pool with nodes := next, authority }

/-- What a sample must agree with. -/
def checkSample (authority : Text) (e : RelayEndpoint) (sample : RelayProbe) : Except Exn Unit :=
  check (¬ (sample.health.relayId ≠ e.id ∨ sample.health.authority ≠ authority ∨ sample.health.capacity ≠ e.capacity ∨
      e.capacity < sample.health.activeConnections ∨ sample.rttUs < 0 ∨ 10000000 < sample.rttUs))
    (.invalidArgument "relay sample identity or bounds mismatch")

/-- Change the first node of an endpoint. -/
def sampled (e : RelayEndpoint) (sample : RelayProbe) (now : Time) (nodes : List Node) : List Node :=
  nodes.replaceF fun n => if n.endpoint = e then
    some { n with sample := some sample, observed := now, failures := 0, retry := 0 } else none

def observe (e : RelayEndpoint) (sample : RelayProbe) (now : Time) : Action Exn RelayPool Unit := do
  let known ← gets fun pool => pool.nodes.any (·.endpoint = e)
  if known then
    query fun pool => checkSample pool.authority e sample
    modify fun pool => { pool with nodes := sampled e sample now pool.nodes }

/-- The node after a failure. -/
def Node.fail (n : Node) (now : Time) : Node :=
  let failures := min (n.failures + 1) 6
  { n with sample := none, failures, retry := now + seconds (min (2 ^ (failures - 1)) 30) }

def failed (id : Text) (now : Time) : Action Exn RelayPool Unit :=
  modify fun pool => { pool with nodes := pool.nodes.map fun n => if n.endpoint.id = id then n.fail now else n }

def activate (id : Text) (now : Time) : Action Exn RelayPool Unit :=
  modify fun pool => if pool.active ≠ id then { pool with active := id, activated := now } else pool

/-! ## Choice -/

/-- The arithmetic of the score, modulo 2^64. -/
def scoreOf (e : RelayEndpoint) (s : RelayProbe) : UInt64 :=
  ⟨BitVec.ofInt 64 s.rttUs⟩ + s.health.upstreamRttUs.toUInt64 + 15000 * s.health.activeConnections.toUInt64 / e.capacity.toUInt64

/-- Only nodes with a sample are scored. -/
def Node.score (n : Node) : UInt64 :=
  match n.sample with
  | none => 0
  | some s => scoreOf n.endpoint s

/-- A fresh sample of a ready relay with room, not in back-off. -/
def Node.Eligible (n : Node) (now : Time) : Prop :=
  match n.sample with
  | none => False
  | some s => s.health.ready = true ∧ s.health.activeConnections < n.endpoint.capacity ∧ n.retry ≤ now ∧ now - n.observed < seconds 5

instance (n : Node) (now : Time) : Decidable (n.Eligible now) := by
  unfold Node.Eligible
  cases n.sample <;> infer_instance

/-- The lower score, or the smaller id. -/
def Better (a b : Node) : Prop := a.score < b.score ∨ (a.score = b.score ∧ a.endpoint.id < b.endpoint.id)

instance (a b : Node) : Decidable (Better a b) := inferInstanceAs (Decidable (_ ∨ _))

/-- The two pointers of `choose`. -/
structure Pointers where
  best : Option Node := none
  active : Option Node := none

/-- The loop of `choose`. -/
def consider (id : Text) (now : Time) (p : Pointers) (n : Node) : Pointers :=
  if ¬ n.Eligible now then p
  else
    { active := if n.endpoint.id = id then some n else p.active
      best :=
        match p.best with
        | none => some n
        | some b => if Better n b then some n else some b }

/-- Whether the active relay stays. -/
def holds (pool : RelayPool) (active best : Node) (now : Time) : Prop :=
  now - pool.activated < seconds 30 ∨ active.score * 3 ≤ best.score * 4

instance (pool : RelayPool) (a b : Node) (now : Time) : Decidable (pool.holds a b now) := inferInstanceAs (Decidable (_ ∨ _))

/-- What follows the loop. -/
def pick (pool : RelayPool) (p : Pointers) (now : Time) : Option Node :=
  match p.active, p.best with
  | some a, some b => some (if pool.holds a b now then a else b)
  | _, best => best

def choose (pool : RelayPool) (now : Time) : Option RelayEndpoint :=
  (pool.pick (pool.nodes.foldl (consider pool.active now) {}) now).map Node.endpoint

/-! ## Runs -/

inductive Call
  | update (endpoints : List RelayEndpoint)
  | observe (endpoint : RelayEndpoint) (sample : RelayProbe) (now : Time)
  | failed (id : Text) (now : Time)
  | activate (id : Text) (now : Time)

def call : Call → Action Exn RelayPool Unit
  | .update endpoints => update endpoints
  | .observe e sample now => observe e sample now
  | .failed id now => failed id now
  | .activate id now => activate id now

/-- The pool after some calls, thrown or not. -/
def run (calls : List Call) : RelayPool := calls.foldl (fun pool c => (call c pool).2) {}

/-! ## Scores -/

/-- A sample that `observe` takes. -/
def Sampled (e : RelayEndpoint) (s : RelayProbe) : Prop :=
  s.health.capacity = e.capacity ∧ s.health.activeConnections ≤ e.capacity ∧ 0 ≤ s.rttUs ∧ s.rttUs ≤ 10000000

/-- The score without a modulus. -/
def exactScore (e : RelayEndpoint) (s : RelayProbe) : ℕ :=
  s.rttUs.toNat + s.health.upstreamRttUs.toNat + 15000 * s.health.activeConnections.toNat / e.capacity.toNat

section
variable {e : RelayEndpoint} {s : RelayProbe}

theorem exactScore_lt (h : Sampled e s) : exactScore e s < 2 ^ 33 := by
  obtain ⟨-, hactive, hnonneg, hrtt⟩ := h
  have hupstream := s.health.upstreamRttUs.toNat_lt
  have hload : 15000 * s.health.activeConnections.toNat / e.capacity.toNat ≤ 15000 := by
    refine Nat.div_le_of_le_mul ?_
    rw [Nat.mul_comm e.capacity.toNat]
    exact Nat.mul_le_mul_left _ (UInt32.le_iff_toNat_le.1 hactive)
  unfold exactScore
  omega

/-- Nothing wraps: not the products, not the sum, not what the sums are compared by. -/
theorem scoreOf_exact (h : Sampled e s) : (scoreOf e s).toNat = exactScore e s ∧
    (15000 * s.health.activeConnections.toUInt64).toNat = 15000 * s.health.activeConnections.toNat ∧
    (scoreOf e s * 4).toNat = 4 * exactScore e s ∧ (scoreOf e s * 3).toNat = 3 * exactScore e s := by
  have hlt := exactScore_lt h
  obtain ⟨-, hactive, hnonneg, hrtt⟩ := h
  have hconnections := s.health.activeConnections.toNat_lt
  have hrttNat : (⟨BitVec.ofInt 64 s.rttUs⟩ : UInt64).toNat = s.rttUs.toNat := by
    change (BitVec.ofInt 64 s.rttUs).toNat = _
    rw [BitVec.toNat_ofInt]
    omega
  have hproduct : (15000 * s.health.activeConnections.toUInt64).toNat = 15000 * s.health.activeConnections.toNat := by
    have hfactor : (15000 : UInt64).toNat = 15000 := rfl
    rw [UInt64.toNat_mul, UInt32.toNat_toUInt64, hfactor]
    omega
  have hquotient : (15000 * s.health.activeConnections.toUInt64 / e.capacity.toUInt64).toNat =
      15000 * s.health.activeConnections.toNat / e.capacity.toNat := by
    rw [UInt64.toNat_div, hproduct, UInt32.toNat_toUInt64]
  have hscore : (scoreOf e s).toNat = exactScore e s := by
    unfold exactScore at hlt ⊢
    rw [scoreOf, UInt64.toNat_add, UInt64.toNat_add, hquotient, hrttNat, UInt32.toNat_toUInt64]
    omega
  have hfour : (4 : UInt64).toNat = 4 := rfl
  have hthree : (3 : UInt64).toNat = 3 := rfl
  refine ⟨hscore, hproduct, ?_, ?_⟩
  · rw [UInt64.toNat_mul, hscore, hfour]
    omega
  · rw [UInt64.toNat_mul, hscore, hthree]
    omega

end

/-! ## What the loop of `choose` finds -/

theorem Better.irrefl (n : Node) : ¬ Better n n := by
  rintro (hlt | ⟨-, hlt⟩)
  · exact UInt64.lt_irrefl _ hlt
  · exact List.lt_irrefl _ hlt

theorem Better.trans {a b c : Node} (h : Better a b) (h' : Better b c) : Better a c := by
  rcases h with hab | ⟨hab, hid⟩ <;> rcases h' with hbc | ⟨hbc, hid'⟩
  · exact .inl (UInt64.lt_trans hab hbc)
  · exact .inl (hbc ▸ hab)
  · exact .inl (hab ▸ hbc)
  · exact .inr ⟨hab.trans hbc, List.lt_trans hid hid'⟩

/-- Two nodes with different ids are comparable. -/
theorem Better.id_eq {a b : Node} (h : ¬ Better a b) (h' : ¬ Better b a) : a.endpoint.id = b.endpoint.id := by
  have hscore : a.score = b.score :=
    UInt64.le_antisymm (UInt64.not_lt.1 fun hlt => h' (.inl hlt)) (UInt64.not_lt.1 fun hlt => h (.inl hlt))
  exact List.le_antisymm (fun hlt => h' (.inr ⟨hscore.symm, hlt⟩)) (fun hlt => h (.inr ⟨hscore, hlt⟩))

/-- What the pointers say about the nodes seen. -/
structure Scanned (id : Text) (now : Time) (seen : List Node) (p : Pointers) : Prop where
  none_best : p.best = none → ∀ n ∈ seen, ¬ n.Eligible now
  best : ∀ b, p.best = some b → (b ∈ seen ∧ b.Eligible now) ∧ ∀ n ∈ seen, n.Eligible now → ¬ Better n b
  none_active : p.active = none → ∀ n ∈ seen, n.Eligible now → n.endpoint.id ≠ id
  active : ∀ a, p.active = some a → (a ∈ seen ∧ a.Eligible now) ∧ a.endpoint.id = id

section
variable {id : Text} {now : Time} {seen : List Node} {p : Pointers} {n : Node}

/-- One turn of the loop. -/
theorem Scanned.consider (h : Scanned id now seen p) (n : Node) : Scanned id now (seen ++ [n]) (consider id now p n) := by
  have hmem : ∀ m, m ∈ seen ++ [n] ↔ m ∈ seen ∨ m = n := by simp
  unfold RelayPool.consider
  by_cases heligible : n.Eligible now
  swap
  · rw [if_pos heligible]
    refine ⟨?_, ?_, ?_, ?_⟩
    · intro hnone m hm
      rcases (hmem m).1 hm with hm | rfl
      · exact h.none_best hnone m hm
      · exact heligible
    · intro b hb
      obtain ⟨⟨hseen, hbest⟩, hleast⟩ := h.best b hb
      refine ⟨⟨(hmem b).2 (.inl hseen), hbest⟩, fun m hm hm' => ?_⟩
      rcases (hmem m).1 hm with hm | rfl
      · exact hleast m hm hm'
      · exact absurd hm' heligible
    · intro hnone m hm hm'
      rcases (hmem m).1 hm with hm | rfl
      · exact h.none_active hnone m hm hm'
      · exact absurd hm' heligible
    · intro a ha
      obtain ⟨⟨hseen, hactive⟩, hid⟩ := h.active a ha
      exact ⟨⟨(hmem a).2 (.inl hseen), hactive⟩, hid⟩
  rw [if_neg (not_not.2 heligible)]
  refine ⟨?_, ?_, ?_, ?_⟩
  · intro hnone
    dsimp only at hnone
    split at hnone
    · cases hnone
    · split at hnone <;> cases hnone
  · intro b hb
    dsimp only at hb
    split at hb
    · rename_i hnone
      cases hb
      refine ⟨⟨(hmem n).2 (.inr rfl), heligible⟩, fun m hm hm' => ?_⟩
      rcases (hmem m).1 hm with hm | rfl
      · exact absurd hm' (h.none_best hnone m hm)
      · exact Better.irrefl m
    · rename_i old hold
      obtain ⟨⟨hseen, hbest⟩, hleast⟩ := h.best old hold
      split at hb
      · rename_i hbetter
        cases hb
        refine ⟨⟨(hmem n).2 (.inr rfl), heligible⟩, fun m hm hm' => ?_⟩
        rcases (hmem m).1 hm with hm | rfl
        · exact fun hworse => hleast m hm hm' (hworse.trans hbetter)
        · exact Better.irrefl m
      · rename_i hbetter
        cases hb
        refine ⟨⟨(hmem b).2 (.inl hseen), hbest⟩, fun m hm hm' => ?_⟩
        rcases (hmem m).1 hm with hm | rfl
        · exact hleast m hm hm'
        · exact hbetter
  · intro hnone m hm hm'
    dsimp only at hnone
    split at hnone
    · cases hnone
    · rename_i hid
      rcases (hmem m).1 hm with hm | rfl
      · exact h.none_active hnone m hm hm'
      · exact hid
  · intro a ha
    dsimp only at ha
    split at ha
    · rename_i hid
      cases ha
      exact ⟨⟨(hmem n).2 (.inr rfl), heligible⟩, hid⟩
    · obtain ⟨⟨hseen, hactive⟩, hid⟩ := h.active a ha
      exact ⟨⟨(hmem a).2 (.inl hseen), hactive⟩, hid⟩

theorem Scanned.foldl (h : Scanned id now seen p) (l : List Node) :
    Scanned id now (seen ++ l) (l.foldl (RelayPool.consider id now) p) := by
  induction l generalizing seen p with
  | nil => rwa [List.append_nil]
  | cons n l ih =>
    have hstep := ih (h.consider n)
    rwa [List.append_assoc] at hstep

/-- What the loop finds. -/
theorem scanned (id : Text) (now : Time) (l : List Node) : Scanned id now l (l.foldl (RelayPool.consider id now) {}) := by
  have hstart : Scanned id now [] {} := ⟨by simp, nofun, by simp, nofun⟩
  exact hstart.foldl l

/-- The pointers depend on the set of nodes only. -/
theorem Scanned.unique {seen' : List Node} {p' : Pointers} (h : Scanned id now seen p) (h' : Scanned id now seen' p')
    (hsame : ∀ n, n ∈ seen ↔ n ∈ seen') (hids : (seen.map fun n => n.endpoint.id).Nodup) : p = p' := by
  have hinj : ∀ a ∈ seen, ∀ b ∈ seen, a.endpoint.id = b.endpoint.id → a = b := fun a ha b hb hab =>
    List.inj_on_of_nodup_map hids ha hb hab
  have hbest : p.best = p'.best := by
    cases hb : p.best with
    | none =>
      cases hb' : p'.best with
      | none => rfl
      | some b' =>
        obtain ⟨⟨hseen, heligible⟩, -⟩ := h'.best b' hb'
        exact absurd heligible (h.none_best hb b' ((hsame b').2 hseen))
    | some b =>
      obtain ⟨⟨hseen, heligible⟩, hleast⟩ := h.best b hb
      cases hb' : p'.best with
      | none => exact absurd heligible (h'.none_best hb' b ((hsame b).1 hseen))
      | some b' =>
        obtain ⟨⟨hseen', heligible'⟩, hleast'⟩ := h'.best b' hb'
        have hid := Better.id_eq (hleast' b ((hsame b).1 hseen) heligible) (hleast b' ((hsame b').2 hseen') heligible')
        rw [hinj b hseen b' ((hsame b').2 hseen') hid]
  have hactive : p.active = p'.active := by
    cases ha : p.active with
    | none =>
      cases ha' : p'.active with
      | none => rfl
      | some a' =>
        obtain ⟨⟨hseen, heligible⟩, hid⟩ := h'.active a' ha'
        exact absurd hid (h.none_active ha a' ((hsame a').2 hseen) heligible)
    | some a =>
      obtain ⟨⟨hseen, heligible⟩, hid⟩ := h.active a ha
      cases ha' : p'.active with
      | none => exact absurd hid (h'.none_active ha' a ((hsame a).1 hseen) heligible)
      | some a' =>
        obtain ⟨⟨hseen', -⟩, hid'⟩ := h'.active a' ha'
        rw [hinj a hseen a' ((hsame a').2 hseen') (hid.trans hid'.symm)]
  cases p
  cases p'
  exact congrArg₂ Pointers.mk hbest hactive

end

/-! ## What the calls do -/

/-- An endpoint that `update` takes. -/
def Admissible (authority : Text) (e : RelayEndpoint) : Prop :=
  ¬ (authority = [] ∨ e.authority ≠ authority ∨ e.healthKey = 0 ∨ e.protocolVersion ≠ protocolVersion ∨ e.capacity = 0 ∨ e.port = 0)

/-- A set of endpoints that `update` takes. -/
structure Accepts (pool : RelayPool) (endpoints : List RelayEndpoint) : Prop where
  nonempty : endpoints ≠ []
  size : endpoints.length ≤ 32
  admissible : ∀ e ∈ endpoints, Admissible (pool.chosenAuthority endpoints) e
  ids : (endpoints.map RelayEndpoint.id).Nodup

theorem adopt_ok {authority : Text} {nodes next : List Node} {ids : List Text} {endpoints : List RelayEndpoint} :
    adopt authority nodes ids endpoints = .ok next ↔ (∀ e ∈ endpoints, Admissible authority e) ∧
      ((endpoints.map RelayEndpoint.id).Nodup ∧ ∀ e ∈ endpoints, e.id ∉ ids) ∧ endpoints.map (keep nodes) = next := by
  induction endpoints generalizing ids next with
  | nil => simp [adopt]
  | cons e endpoints ih =>
    simp only [adopt, bind_eq_ok, check_eq_ok, List.contains_iff_mem, ih, exists_const, Except.ok.injEq, List.map_cons, List.nodup_cons,
      List.forall_mem_cons, List.mem_map, Admissible]
    constructor
    · rintro ⟨hadmissible, _, ⟨hrest, ⟨hnodup, hfresh⟩, rfl⟩, rfl⟩
      refine ⟨⟨fun h => hadmissible (by tauto), hrest⟩, ⟨⟨?_, hnodup⟩, ?_, ?_⟩, rfl⟩
      · rintro ⟨e', he', hid⟩
        exact hfresh e' he' (hid ▸ List.mem_cons_self)
      · exact fun h => hadmissible (by tauto)
      · exact fun e' he' hid => hfresh e' he' (List.mem_cons_of_mem _ hid)
    · rintro ⟨⟨hadmissible, hrest⟩, ⟨⟨hnew, hnodup⟩, hid, hfresh⟩, rfl⟩
      refine ⟨fun h => hadmissible (by tauto), _, ⟨hrest, ⟨hnodup, ?_⟩, rfl⟩, rfl⟩
      intro e' he' hmem
      rcases List.mem_cons.1 hmem with hsame | hmem
      · exact hnew ⟨e', he', hsame⟩
      · exact hfresh e' he' hmem

section
variable {pool : RelayPool} {endpoints : List RelayEndpoint}

theorem update_of_accepts (h : Accepts pool endpoints) : update endpoints pool =
    (.ok (), { pool with nodes := endpoints.map (keep pool.nodes), authority := pool.chosenAuthority endpoints }) := by
  have hsize : ¬ (endpoints = [] ∨ 32 < endpoints.length) := by
    rintro (hempty | hlarge)
    · exact h.nonempty hempty
    · exact absurd h.size (by omega)
  have hadopt : adopt (pool.chosenAuthority endpoints) pool.nodes [] endpoints = .ok (endpoints.map (keep pool.nodes)) :=
    adopt_ok.2 ⟨h.admissible, ⟨h.ids, fun _ _ => List.not_mem_nil⟩, rfl⟩
  change Action.bind _ _ pool = _
  simp only [Action.bind, Action.lift, check_of hsize]
  change Action.bind _ _ pool = _
  simp only [Action.bind, gets]
  change Action.bind _ _ pool = _
  simp only [Action.bind, query, hadopt]
  rfl

/-- A set that is not taken leaves the pool as it was. -/
theorem update_of_not_accepts (h : ¬ Accepts pool endpoints) : ∃ e, update endpoints pool = (.error e, pool) := by
  change ∃ e, Action.bind _ _ pool = _
  by_cases hsize : ¬ (endpoints = [] ∨ 32 < endpoints.length)
  · simp only [Action.bind, Action.lift, check_of hsize]
    change ∃ e, Action.bind _ _ pool = _
    simp only [Action.bind, gets]
    change ∃ e, Action.bind _ _ pool = _
    cases hadopt : adopt (pool.chosenAuthority endpoints) pool.nodes [] endpoints with
    | error e => exact ⟨e, by simp only [Action.bind, query, hadopt]⟩
    | ok next =>
      obtain ⟨hadmissible, ⟨hids, -⟩, -⟩ := adopt_ok.1 hadopt
      rw [not_or] at hsize
      exact absurd ⟨hsize.1, by omega, hadmissible, hids⟩ h
  · simp only [Action.bind, Action.lift, check_of_not hsize]
    exact ⟨_, rfl⟩

/-- A sample of an unknown endpoint is ignored, one that does not agree is thrown out. -/
theorem observe_state (e : RelayEndpoint) (sample : RelayProbe) (now : Time) : (observe e sample now pool).2 =
    if (pool.nodes.any (·.endpoint = e)) = true ∧ checkSample pool.authority e sample = .ok () then
      { pool with nodes := sampled e sample now pool.nodes }
    else pool := by
  change (Action.bind _ _ pool).2 = _
  simp only [Action.bind, gets]
  by_cases hknown : pool.nodes.any (·.endpoint = e) = true
  · rw [if_pos hknown]
    change (Action.bind _ _ pool).2 = _
    cases hcheck : checkSample pool.authority e sample with
    | error e =>
      simp only [Action.bind, query, hcheck, reduceCtorEq, and_false, if_false]
    | ok u =>
      simp only [Action.bind, query, hcheck, hknown, true_and, if_true]
      rfl
  · rw [if_neg hknown, if_neg fun h => hknown h.1]
    rfl

theorem checkSample_ok {authority : Text} {e : RelayEndpoint} {sample : RelayProbe} {u : Unit}
    (h : checkSample authority e sample = .ok u) : Sampled e sample := by
  simp only [checkSample, check_eq_ok, not_or, not_lt, UInt32.not_lt, not_not] at h
  obtain ⟨-, -, hcapacity, hactive, hnonneg, hrtt⟩ := h
  exact ⟨hcapacity, hactive, hnonneg, hrtt⟩

end

/-! ## The nodes -/

section
variable {nodes nodes' : List Node} {e : RelayEndpoint}

/-- No two nodes have an id in common. -/
def DistinctIds (nodes : List Node) : Prop := (nodes.map fun n => n.endpoint.id).Nodup

theorem DistinctIds.eq (h : DistinctIds nodes) {a b : Node} (ha : a ∈ nodes) (hb : b ∈ nodes)
    (hab : a.endpoint = b.endpoint) : a = b := List.inj_on_of_nodup_map h ha hb (congrArg RelayEndpoint.id hab)

theorem DistinctIds.perm (h : DistinctIds nodes) (hperm : nodes.Perm nodes') : DistinctIds nodes' :=
  (hperm.map fun n : Node => n.endpoint.id).nodup_iff.1 h

theorem keep_endpoint (nodes : List Node) (e : RelayEndpoint) : (keep nodes e).endpoint = e := by
  unfold keep
  cases hfind : nodes.find? (·.endpoint = e) with
  | none => rfl
  | some n =>
    have hn := List.find?_some hfind
    exact of_decide_eq_true hn

/-- An old node or a blank one. -/
theorem keep_cases (nodes : List Node) (e : RelayEndpoint) : keep nodes e ∈ nodes ∨ keep nodes e = { endpoint := e } := by
  unfold keep
  cases hfind : nodes.find? (·.endpoint = e) with
  | none => exact .inr rfl
  | some n => exact .inl (List.mem_of_find?_eq_some hfind)

theorem keep_of_mem (h : DistinctIds nodes) {n : Node} (hn : n ∈ nodes) (hne : n.endpoint = e) : keep nodes e = n := by
  unfold keep
  cases hfind : nodes.find? (·.endpoint = e) with
  | none => exact absurd (decide_eq_true hne) (List.find?_eq_none.1 hfind n hn)
  | some m =>
    have hm := List.find?_some hfind
    exact h.eq (List.mem_of_find?_eq_some hfind) hn ((of_decide_eq_true hm).trans hne.symm)

theorem keep_of_not_mem (h : ∀ n ∈ nodes, n.endpoint ≠ e) : keep nodes e = { endpoint := e } := by
  have hfind : nodes.find? (·.endpoint = e) = none := by
    refine List.find?_eq_none.2 fun n hn => ?_
    simpa using h n hn
  rw [keep, hfind]
  rfl

theorem keep_perm (h : DistinctIds nodes) (hperm : nodes.Perm nodes') (e : RelayEndpoint) : keep nodes e = keep nodes' e := by
  by_cases hknown : ∃ n ∈ nodes, n.endpoint = e
  · obtain ⟨n, hn, hne⟩ := hknown
    rw [keep_of_mem h hn hne, keep_of_mem (h.perm hperm) (hperm.subset hn) hne]
  · have hnone : ∀ n ∈ nodes, n.endpoint ≠ e := fun n hn hne => hknown ⟨n, hn, hne⟩
    rw [keep_of_not_mem hnone, keep_of_not_mem fun n hn => hnone n (hperm.symm.subset hn)]

/-- The first node of an endpoint is the only one. -/
theorem sampled_eq_map (h : DistinctIds nodes) (e : RelayEndpoint) (sample : RelayProbe) (now : Time) :
    sampled e sample now nodes = nodes.map fun n => if n.endpoint = e then
      { n with sample := some sample, observed := now, failures := 0, retry := 0 } else n := by
  induction nodes with
  | nil => rfl
  | cons n nodes ih =>
    have hrest := List.nodup_cons.1 h
    unfold sampled at ih ⊢
    rw [List.replaceF_cons, List.map_cons]
    by_cases hn : n.endpoint = e
    · have hothers : ∀ m ∈ nodes, m.endpoint ≠ e := by
        intro m hm hme
        refine hrest.1 (List.mem_map.2 ⟨m, hm, ?_⟩)
        dsimp only
        rw [hme, hn]
      simp only [hn, if_true]
      congr 1
      refine (List.map_id nodes).symm.trans (List.map_congr_left fun m hm => ?_)
      rw [if_neg (hothers m hm)]
      rfl
    · simp only [hn, if_false]
      rw [ih hrest.2]

end

/-! ## Every pool -/

/-- The pool after the calls: each sample is one that was observed. -/
structure WellFormed (calls : List Call) (pool : RelayPool) : Prop where
  ids : DistinctIds pool.nodes
  capacity : ∀ n ∈ pool.nodes, n.endpoint.capacity ≠ 0
  sample : ∀ n ∈ pool.nodes, ∀ s, n.sample = some s → Sampled n.endpoint s ∧ Call.observe n.endpoint s n.observed ∈ calls

theorem WellFormed.mono {calls calls' : List Call} {pool : RelayPool} (h : WellFormed calls pool) (hsub : calls ⊆ calls') :
    WellFormed calls' pool :=
  ⟨h.ids, h.capacity, fun n hn s hs => ⟨(h.sample n hn s hs).1, hsub (h.sample n hn s hs).2⟩⟩

/-- Nodes that are changed one by one, none in its endpoint. -/
theorem distinctIds_map {nodes : List Node} (h : DistinctIds nodes) {f : Node → Node} (hf : ∀ n, (f n).endpoint = n.endpoint) :
    DistinctIds (nodes.map f) := by
  unfold DistinctIds at h ⊢
  rw [List.map_map]
  simpa only [Function.comp_def, hf] using h

theorem WellFormed.call {calls : List Call} {pool : RelayPool} (h : WellFormed calls pool) (c : Call) :
    WellFormed (calls ++ [c]) (call c pool).2 := by
  have hold := h.mono (List.subset_append_left calls [c])
  cases c with
  | update endpoints =>
    change WellFormed _ (RelayPool.update endpoints pool).2
    by_cases haccepts : Accepts pool endpoints
    swap
    · obtain ⟨e, heq⟩ := update_of_not_accepts haccepts
      rw [heq]
      exact hold
    rw [update_of_accepts haccepts]
    refine ⟨?_, ?_, ?_⟩
    · simpa only [DistinctIds, List.map_map, Function.comp_def, keep_endpoint] using haccepts.ids
    · intro n hn
      obtain ⟨e, he, rfl⟩ := List.mem_map.1 hn
      rw [keep_endpoint]
      intro hzero
      exact haccepts.admissible e he (by tauto)
    · intro n hn s hs
      obtain ⟨e, he, rfl⟩ := List.mem_map.1 hn
      -- a sample comes with an old node
      rcases keep_cases pool.nodes e with hmem | hblank
      · exact hold.sample _ hmem s hs
      · rw [hblank] at hs
        cases hs
  | observe e sample now =>
    change WellFormed _ (RelayPool.observe e sample now pool).2
    rw [observe_state]
    split
    swap
    · exact hold
    rename_i hcheck
    have hsampled := checkSample_ok hcheck.2
    rw [sampled_eq_map h.ids]
    refine ⟨distinctIds_map h.ids fun n => by split <;> rfl, ?_, ?_⟩
    · intro n hn
      obtain ⟨m, hm, rfl⟩ := List.mem_map.1 hn
      have hendpoint : (if m.endpoint = e then { m with sample := some sample, observed := now, failures := 0, retry := 0 }
          else m : Node).endpoint = m.endpoint := by split <;> rfl
      rw [hendpoint]
      exact h.capacity m hm
    · intro n hn s hs
      obtain ⟨m, hm, rfl⟩ := List.mem_map.1 hn
      split at hs
      · rename_i hme
        cases hs
        rw [if_pos hme]
        dsimp only
        rw [hme]
        exact ⟨hsampled, List.mem_append_right _ (List.mem_singleton.2 rfl)⟩
      · rename_i hme
        rw [if_neg hme]
        exact hold.sample m hm s hs
  | failed id now =>
    refine ⟨distinctIds_map h.ids fun n => by split <;> rfl, ?_, ?_⟩
    · intro n hn
      obtain ⟨m, hm, rfl⟩ := List.mem_map.1 hn
      have hendpoint : (if m.endpoint.id = id then m.fail now else m).endpoint = m.endpoint := by split <;> rfl
      rw [hendpoint]
      exact h.capacity m hm
    · intro n hn s hs
      obtain ⟨m, hm, rfl⟩ := List.mem_map.1 hn
      split at hs
      · cases hs
      · rename_i hid
        rw [if_neg hid]
        exact hold.sample m hm s hs
  | activate id now =>
    change WellFormed _ (if pool.active ≠ id then { pool with active := id, activated := now } else pool)
    split
    · exact ⟨hold.ids, hold.capacity, hold.sample⟩
    · exact hold

theorem wellFormed_run (calls : List Call) : WellFormed calls (run calls) := by
  induction calls using List.reverseRecOn with
  | nil => exact ⟨List.nodup_nil, by simp [run], by simp [run]⟩
  | append_singleton calls c ih =>
    rw [run, List.foldl_append]
    exact ih.call c

/-! ## The order of the endpoints -/

/-- The same call, with its endpoints in another order. -/
inductive Reordered : Call → Call → Prop
  | update {endpoints endpoints' : List RelayEndpoint} (h : endpoints.Perm endpoints') :
      Reordered (.update endpoints) (.update endpoints')
  | same (c : Call) : Reordered c c

/-- Pools that differ in the order of their nodes. -/
structure Alike (pool pool' : RelayPool) : Prop where
  nodes : pool.nodes.Perm pool'.nodes
  authority : pool.authority = pool'.authority
  active : pool.active = pool'.active
  activated : pool.activated = pool'.activated

section
variable {pool pool' : RelayPool} {endpoints endpoints' : List RelayEndpoint}

theorem Alike.symm (h : Alike pool pool') : Alike pool' pool :=
  ⟨h.nodes.symm, h.authority.symm, h.active.symm, h.activated.symm⟩

/-- The endpoints of an accepted set have one authority, whichever comes first. -/
theorem Alike.chosenAuthority (h : Alike pool pool') (hperm : endpoints.Perm endpoints') (haccepts : Accepts pool endpoints) :
    pool'.chosenAuthority endpoints' = pool.chosenAuthority endpoints := by
  by_cases hnone : pool.authority = []
  · cases endpoints' with
    | nil => exact absurd hperm.eq_nil haccepts.nonempty
    | cons e' rest =>
      have hadmissible := haccepts.admissible e' (hperm.symm.subset List.mem_cons_self)
      have hsame : e'.authority = pool.chosenAuthority endpoints := by
        by_contra hne
        exact hadmissible (.inr (.inl hne))
      rw [← hsame, RelayPool.chosenAuthority, ← h.authority, if_pos hnone]
      rfl
  · rw [RelayPool.chosenAuthority, RelayPool.chosenAuthority, ← h.authority, if_neg hnone, if_neg hnone]

theorem Alike.accepts (h : Alike pool pool') (hperm : endpoints.Perm endpoints') (haccepts : Accepts pool endpoints) :
    Accepts pool' endpoints' where
  nonempty hempty := haccepts.nonempty (List.Perm.eq_nil (hempty ▸ hperm))
  size := by
    rw [← hperm.length_eq]
    exact haccepts.size
  admissible e he := by
    rw [h.chosenAuthority hperm haccepts]
    exact haccepts.admissible e (hperm.symm.subset he)
  ids := (hperm.map RelayEndpoint.id).nodup_iff.1 haccepts.ids

theorem Alike.update (h : Alike pool pool') (hids : DistinctIds pool.nodes) (hperm : endpoints.Perm endpoints') :
    Alike (update endpoints pool).2 (RelayPool.update endpoints' pool').2 := by
  by_cases haccepts : Accepts pool endpoints
  · have hauthority := h.chosenAuthority hperm haccepts
    rw [update_of_accepts haccepts, update_of_accepts (h.accepts hperm haccepts)]
    refine ⟨?_, hauthority.symm, h.active, h.activated⟩
    have hkeep : keep pool'.nodes = keep pool.nodes := funext fun e => (keep_perm hids h.nodes e).symm
    dsimp only
    rw [hkeep]
    exact hperm.map _
  · -- the other pool does not take the set either
    have hrejects : ¬ Accepts pool' endpoints' := fun haccepts' => haccepts (h.symm.accepts hperm.symm haccepts')
    obtain ⟨e, heq⟩ := update_of_not_accepts haccepts
    obtain ⟨e', heq'⟩ := update_of_not_accepts hrejects
    rw [heq, heq']
    exact h

/-- One call on each side. -/
theorem Alike.call (h : Alike pool pool') (hids : DistinctIds pool.nodes) {c c' : Call} (hc : Reordered c c') :
    Alike (call c pool).2 (RelayPool.call c' pool').2 := by
  have hids' := hids.perm h.nodes
  cases hc with
  | update hperm => exact h.update hids hperm
  | same c =>
    cases c with
    | update endpoints => exact h.update hids (.refl _)
    | observe e sample now =>
      change Alike (RelayPool.observe e sample now pool).2 (RelayPool.observe e sample now pool').2
      have hknown : pool.nodes.any (·.endpoint = e) = pool'.nodes.any (·.endpoint = e) := h.nodes.any_eq
      rw [observe_state, observe_state, hknown, h.authority]
      split
      · refine ⟨?_, rfl, h.active, h.activated⟩
        dsimp only
        rw [sampled_eq_map hids, sampled_eq_map hids']
        exact h.nodes.map _
      · exact h
    | failed id now => exact ⟨h.nodes.map _, h.authority, h.active, h.activated⟩
    | activate id now =>
      change Alike (if pool.active ≠ id then { pool with active := id, activated := now } else pool)
        (if pool'.active ≠ id then { pool' with active := id, activated := now } else pool')
      rw [h.active]
      split
      · exact ⟨h.nodes, h.authority, rfl, rfl⟩
      · exact h

end

theorem Alike.foldl {pool pool' : RelayPool} {before calls calls' : List Call} (h : List.Forall₂ Reordered calls calls')
    (hwf : WellFormed before pool) (halike : Alike pool pool') :
    Alike (calls.foldl (fun pool c => (RelayPool.call c pool).2) pool) (calls'.foldl (fun pool c => (RelayPool.call c pool).2) pool') := by
  induction h generalizing before pool pool' with
  | nil => exact halike
  | cons hc _ ih => exact ih (hwf.call _) (halike.call hwf.ids hc)

theorem alike_run {calls calls' : List Call} (h : List.Forall₂ Reordered calls calls') : Alike (run calls) (run calls') :=
  Alike.foldl h (wellFormed_run []) ⟨.refl _, rfl, rfl, rfl⟩

/-! ## The choice -/

section
variable {pool pool' : RelayPool} {now : Time}

theorem Alike.choose (h : Alike pool pool') (hids : DistinctIds pool.nodes) : pool.choose now = pool'.choose now := by
  have hscan := scanned pool'.active now pool'.nodes
  rw [← h.active] at hscan
  have hpointers := (scanned pool.active now pool.nodes).unique hscan (fun n => h.nodes.mem_iff) hids
  have hholds : ∀ a b, pool.holds a b now ↔ pool'.holds a b now := by
    intro a b
    rw [holds, holds, h.activated]
  have hpick : ∀ p, pool.pick p now = pool'.pick p now := by
    rintro ⟨_ | b, _ | a⟩
    · rfl
    · rfl
    · rfl
    · exact congrArg some (if_congr (hholds a b) rfl rfl)
  rw [RelayPool.choose, RelayPool.choose, hpointers, hpick, h.active]

theorem choose_eq_none : pool.choose now = none ↔ ∀ n ∈ pool.nodes, ¬ n.Eligible now := by
  have hscan := scanned pool.active now pool.nodes
  rw [RelayPool.choose, Option.map_eq_none_iff, pick]
  constructor
  · intro hnone
    refine hscan.none_best ?_
    split at hnone
    · cases hnone
    · exact hnone
  · intro hall
    split
    · rename_i a b ha hb
      obtain ⟨⟨hseen, heligible⟩, -⟩ := hscan.best b hb
      exact absurd heligible (hall b hseen)
    · rename_i hother
      cases hb : (pool.nodes.foldl (consider pool.active now) {}).best with
      | none => rfl
      | some b =>
        obtain ⟨⟨hseen, heligible⟩, -⟩ := hscan.best b hb
        exact absurd heligible (hall b hseen)

/-- What is chosen, and what it takes to leave an active relay that would do. -/
theorem choose_eq_some (hids : DistinctIds pool.nodes) {e : RelayEndpoint} (h : pool.choose now = some e) :
    ∃ n ∈ pool.nodes, n.endpoint = e ∧ n.Eligible now ∧
      ∀ a ∈ pool.nodes, a.Eligible now → a.endpoint.id = pool.active → n ≠ a → ¬ pool.holds a n now := by
  have hscan := scanned pool.active now pool.nodes
  obtain ⟨n, hpick, rfl⟩ := Option.map_eq_some_iff.1 h
  unfold pick at hpick
  split at hpick
  · rename_i a b ha hb
    obtain ⟨⟨haseen, haeligible⟩, haid⟩ := hscan.active a ha
    obtain ⟨⟨hbseen, hbeligible⟩, -⟩ := hscan.best b hb
    have hsame : ∀ a' ∈ pool.nodes, a'.endpoint.id = pool.active → a' = a := fun a' ha' hid' =>
      List.inj_on_of_nodup_map hids ha' haseen (hid'.trans haid.symm)
    obtain rfl := Option.some.inj hpick
    split
    · refine ⟨a, haseen, rfl, haeligible, fun a' ha' _ hid' hne => ?_⟩
      exact absurd (hsame a' ha' hid').symm hne
    · rename_i hleave
      refine ⟨b, hbseen, rfl, hbeligible, fun a' ha' _ hid' _ => ?_⟩
      rwa [hsame a' ha' hid']
  · rename_i hother
    obtain ⟨⟨hseen, heligible⟩, -⟩ := hscan.best n hpick
    refine ⟨n, hseen, rfl, heligible, fun a ha haeligible hid _ => ?_⟩
    cases hactive : (pool.nodes.foldl (consider pool.active now) {}).active with
    | none => exact absurd hid (hscan.none_active hactive a ha haeligible)
    | some a' => exact absurd hpick (hother a' n hactive)

end

/-- The score without a modulus. -/
def Node.exact (n : Node) : ℕ :=
  match n.sample with
  | none => 0
  | some s => exactScore n.endpoint s

theorem Node.score_exact {n : Node} (h : ∀ s, n.sample = some s → Sampled n.endpoint s) :
    n.score.toNat = n.exact ∧ (n.score * 3).toNat = 3 * n.exact ∧ (n.score * 4).toNat = 4 * n.exact := by
  unfold Node.score Node.exact
  cases hs : n.sample with
  | none => exact ⟨rfl, rfl, rfl⟩
  | some s =>
    obtain ⟨hscore, -, hfour, hthree⟩ := scoreOf_exact (h s hs)
    exact ⟨hscore, hthree, hfour⟩

/-- A pool after any calls: the choice is one of the eligible relays, found if
there is one, the same in any order of the endpoints and steady; scores do not
wrap; and a set of endpoints that is thrown out changes nothing. -/
theorem relay_choice :
    (∀ calls now, (run calls).choose now = none ↔ ∀ n ∈ (run calls).nodes, ¬ n.Eligible now) ∧
    (∀ calls now e, (run calls).choose now = some e → ∃ n ∈ (run calls).nodes, n.endpoint = e ∧ n.Eligible now ∧
      (∃ s, n.sample = some s ∧ Call.observe e s n.observed ∈ calls) ∧
      ∀ a ∈ (run calls).nodes, a.Eligible now → a.endpoint.id = (run calls).active → n ≠ a →
        seconds 30 ≤ now - (run calls).activated ∧ 4 * n.exact < 3 * a.exact) ∧
    (∀ calls calls' now, List.Forall₂ Reordered calls calls' → (run calls).choose now = (run calls').choose now) ∧
    (∀ calls, ∀ n ∈ (run calls).nodes, ∀ s, n.sample = some s → n.endpoint.capacity ≠ 0 ∧
      (scoreOf n.endpoint s).toNat = exactScore n.endpoint s ∧
      (15000 * s.health.activeConnections.toUInt64).toNat = 15000 * s.health.activeConnections.toNat ∧
      (scoreOf n.endpoint s * 4).toNat = 4 * exactScore n.endpoint s ∧
      (scoreOf n.endpoint s * 3).toNat = 3 * exactScore n.endpoint s) ∧
    (∀ pool endpoints e, (update endpoints pool).1 = .error e → (update endpoints pool).2 = pool) ∧
    (∀ pool endpoints, (update endpoints pool).1 = .ok () → (update endpoints pool).2.nodes.map Node.endpoint = endpoints) := by
  refine ⟨fun _ _ => choose_eq_none, ?_, ?_, ?_, ?_, ?_⟩
  · intro calls now e h
    have hwf := wellFormed_run calls
    obtain ⟨n, hn, rfl, heligible, hsteady⟩ := choose_eq_some hwf.ids h
    refine ⟨n, hn, rfl, heligible, ?_, ?_⟩
    · cases hs : n.sample with
      | none => simp only [Node.Eligible, hs] at heligible
      | some s => exact ⟨s, rfl, (hwf.sample n hn s hs).2⟩
    · intro a ha haeligible hid hne
      have hleave := hsteady a ha haeligible hid hne
      obtain ⟨-, -, hfour⟩ := n.score_exact fun s hs => (hwf.sample n hn s hs).1
      obtain ⟨-, hthree, -⟩ := a.score_exact fun s hs => (hwf.sample a ha s hs).1
      rw [holds, not_or, not_lt, UInt64.not_le, UInt64.lt_iff_toNat_lt, hfour, hthree] at hleave
      exact hleave
  · intro calls calls' now h
    exact (alike_run h).choose (wellFormed_run calls).ids
  · intro calls n hn s hs
    have hwf := wellFormed_run calls
    exact ⟨hwf.capacity n hn, scoreOf_exact (hwf.sample n hn s hs).1⟩
  · intro pool endpoints e herror
    by_cases haccepts : Accepts pool endpoints
    · rw [update_of_accepts haccepts] at herror
      cases herror
    · obtain ⟨e', heq⟩ := update_of_not_accepts haccepts
      rw [heq]
  · intro pool endpoints hok
    by_cases haccepts : Accepts pool endpoints
    · rw [update_of_accepts haccepts]
      simp only [List.map_map, Function.comp_def, keep_endpoint, List.map_id']
    · obtain ⟨e', heq⟩ := update_of_not_accepts haccepts
      rw [heq] at hok
      cases hok

end RelayPool

end LanLink
