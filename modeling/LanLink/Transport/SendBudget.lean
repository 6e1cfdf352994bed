import LanLink.Basic
import LanLink.Lib.Guards
import LanLink.Lib.Runs
/-!
# The send budget

`transport/resource_limits.cpp`: bytes and frames that wait to be sent are
reserved, and a ticket gives its reservation back when it is destroyed or
assigned to. A part of the budget is kept for control traffic by a lower limit
for everything else. Sizes are 64-bit words.
-/
open LanLink.Lib

namespace LanLink

structure SendQueueLimits where
  bytes : UInt64 := 4 * 1024 * 1024
  frames : UInt64 := 256
  reservedControlBytes : UInt64 := 64 * 1024
  reservedControlFrames : UInt64 := 8
  deriving DecidableEq, Repr

structure SendBudget where
  limits : SendQueueLimits := {}
  bytes : UInt64 := 0
  frames : UInt64 := 0
  rejected : UInt64 := 0
  deriving DecidableEq, Repr

namespace SendBudget

/-- `held` is whether `state_` is set. The code does not keep the kind of the
reservation; here a ticket carries it along. -/
structure Ticket where
  held : Bool
  size : UInt64
  control : Bool
  deriving DecidableEq, Repr

/-- A ticket that was moved from. -/
def Ticket.moved (t : Ticket) : Ticket := { t with held := false }

def create (limits : SendQueueLimits) : Except Exn SendBudget := do
  check (¬ (limits.bytes = 0 ∨ limits.frames = 0 ∨ limits.bytes ≤ limits.reservedControlBytes ∨
    limits.frames ≤ limits.reservedControlFrames)) (.invalidArgument "invalid send queue limits")
  .ok { limits }

def reserve (b : SendBudget) (size : UInt64) (control : Bool) : Option Ticket × SendBudget :=
  let byteLimit := b.limits.bytes - if control then 0 else b.limits.reservedControlBytes
  let frameLimit := b.limits.frames - if control then 0 else b.limits.reservedControlFrames
  if size = 0 ∨ byteLimit < size ∨ byteLimit - size < b.bytes ∨ frameLimit ≤ b.frames then
    (none, { b with rejected := b.rejected + 1 })
  else (some { held := true, size, control }, { b with bytes := b.bytes + size, frames := b.frames + 1 })

def release (b : SendBudget) (t : Ticket) : SendBudget :=
  if t.held then { b with bytes := b.bytes - t.size, frames := b.frames - 1 } else b

/-! ## A program that uses a budget -/

/-- What happens to the budget and its tickets; tickets go by their place. -/
inductive Action
  | reserve (size : UInt64) (control : Bool)
  | moveConstruct (source : ℕ)
  | moveAssign (target source : ℕ)
  | destroy (ticket : ℕ)
  deriving DecidableEq, Repr

structure Holder where
  budget : SendBudget
  tickets : List Ticket := []
  deriving DecidableEq, Repr

def step (s : Holder) : Action → Holder
  | .reserve size control =>
    match s.budget.reserve size control with
    | (some ticket, budget) => { budget, tickets := s.tickets ++ [ticket] }
    | (none, budget) => { s with budget }
  | .moveConstruct i =>
    match s.tickets[i]? with
    | none => s
    | some t => { s with tickets := s.tickets.set i t.moved ++ [t] }
  | .moveAssign i j =>
    if i = j then s
    else match s.tickets[i]?, s.tickets[j]? with
      | some t, some u => { budget := s.budget.release t, tickets := (s.tickets.set i u).set j u.moved }
      | _, _ => s
  | .destroy i =>
    match s.tickets[i]? with
    | none => s
    | some t => { budget := s.budget.release t, tickets := s.tickets.eraseIdx i }

/-! ## What tickets hold -/

/-- The sum of `f` over the tickets. -/
def total (f : Ticket → ℕ) (tickets : List Ticket) : ℕ := (tickets.map f).sum

/-- The bytes a ticket holds of the kind `control`. -/
def bytesOf (control : Bool) (t : Ticket) : ℕ := if t.held ∧ t.control = control then t.size.toNat else 0

def framesOf (control : Bool) (t : Ticket) : ℕ := if t.held ∧ t.control = control then 1 else 0

/-- Nothing is held by a ticket that was moved from. -/
def Weight (f : Ticket → ℕ) : Prop := ∀ t, t.held = false → f t = 0

theorem weight_bytesOf (control : Bool) : Weight (bytesOf control) := by
  intro t ht
  simp [bytesOf, ht]

theorem weight_framesOf (control : Bool) : Weight (framesOf control) := by
  intro t ht
  simp [framesOf, ht]

/-- A sum over the tickets that pass a test. -/
theorem sum_filter (p : Ticket → Bool) (f : Ticket → ℕ) (tickets : List Ticket) :
    ((tickets.filter p).map f).sum = total (fun t => if p t then f t else 0) tickets := by
  induction tickets with
  | nil => rfl
  | cons t tickets ih =>
    simp only [total, List.map_cons, List.sum_cons] at ih ⊢
    cases hp : p t <;> simp [hp, ih]

theorem length_filter (p : Ticket → Bool) (tickets : List Ticket) :
    (tickets.filter p).length = total (fun t => if p t then 1 else 0) tickets := by
  rw [← sum_filter]
  simp

theorem total_add (f g : Ticket → ℕ) (tickets : List Ticket) :
    total f tickets + total g tickets = total (fun t => f t + g t) tickets := by
  simp [total, List.sum_map_add]

section
variable (tickets : List Ticket)

theorem sum_held :
    ((tickets.filter (·.held)).map (·.size.toNat)).sum = total (bytesOf true) tickets + total (bytesOf false) tickets := by
  rw [sum_filter, total_add]
  congr 1
  funext t
  cases hcontrol : t.control <;> simp [bytesOf, hcontrol]

theorem count_held : (tickets.filter (·.held)).length = total (framesOf true) tickets + total (framesOf false) tickets := by
  rw [length_filter, total_add]
  congr 1
  funext t
  cases hcontrol : t.control <;> simp [framesOf, hcontrol]

theorem sum_held_control :
    ((tickets.filter fun t => t.held && t.control).map (·.size.toNat)).sum = total (bytesOf true) tickets := by
  rw [sum_filter]
  congr 1
  funext t
  simp [bytesOf]

theorem count_held_control : (tickets.filter fun t => t.held && t.control).length = total (framesOf true) tickets := by
  rw [length_filter]
  congr 1
  funext t
  simp [framesOf]

end

section
variable {f : Ticket → ℕ} {tickets : List Ticket} {t u : Ticket} {i : ℕ}

theorem total_append (f : Ticket → ℕ) (tickets : List Ticket) (t : Ticket) : total f (tickets ++ [t]) = total f tickets + f t := by
  simp [total]

theorem total_set (h : tickets[i]? = some t) : total f (tickets.set i u) + f t = total f tickets + f u := by
  induction tickets generalizing i with
  | nil => simp at h
  | cons a tickets ih =>
    cases i with
    | zero =>
      simp only [List.getElem?_cons_zero, Option.some.injEq] at h
      subst h
      simp only [total, List.set_cons_zero, List.map_cons, List.sum_cons]
      omega
    | succ i =>
      have hrest := ih (by simpa using h)
      simp only [total, List.set_cons_succ, List.map_cons, List.sum_cons] at hrest ⊢
      omega

theorem total_eraseIdx (h : tickets[i]? = some t) : total f (tickets.eraseIdx i) + f t = total f tickets := by
  induction tickets generalizing i with
  | nil => simp at h
  | cons a tickets ih =>
    cases i with
    | zero =>
      simp only [List.getElem?_cons_zero, Option.some.injEq] at h
      subst h
      simp only [total, List.eraseIdx_cons_zero, List.map_cons, List.sum_cons]
      omega
    | succ i =>
      have hrest := ih (by simpa using h)
      simp only [total, List.eraseIdx_cons_succ, List.map_cons, List.sum_cons] at hrest ⊢
      omega

end

/-! ## What a step does -/

/-- `s'` is `s` after one reservation was given back. Nothing is given back when
the ticket was moved from. -/
def Released (s s' : Holder) : Prop :=
  ∃ t, s'.budget = s.budget.release t ∧ ∀ f, Weight f → total f s'.tickets + f t = total f s.tickets

/-- The ticket of a refused reservation, a moved-from one, holds nothing. -/
theorem released_none {s s' : Holder} (hbudget : s'.budget = s.budget)
    (h : ∀ f, Weight f → total f s'.tickets = total f s.tickets) : Released s s' := by
  refine ⟨{ held := false, size := 0, control := false }, ?_, ?_⟩
  · rw [hbudget]
    rfl
  · intro f hf
    rw [h f hf, hf _ rfl, add_zero]

/-- A refusal is counted. -/
theorem reserve_cases (b : SendBudget) (size : UInt64) (control : Bool) :
    b.reserve size control = (none, { b with rejected := b.rejected + 1 }) ∨
    b.reserve size control =
      (some { held := true, size, control }, { b with bytes := b.bytes + size, frames := b.frames + 1 }) := by
  simp only [reserve]
  exact (ite_eq_or_eq _ _ _)

/-- A step reserves, is refused, or gives at most one reservation back. -/
theorem step_cases (s : Holder) (a : Action) :
    (∃ size control ticket budget, s.budget.reserve size control = (some ticket, budget) ∧
      step s a = { budget, tickets := s.tickets ++ [ticket] }) ∨
    step s a = { s with budget := { s.budget with rejected := s.budget.rejected + 1 } } ∨ Released s (step s a) := by
  cases a with
  | reserve size control =>
    rcases reserve_cases s.budget size control with h | h
    · right; left
      simp only [step, h]
    · left
      exact ⟨size, control, _, _, h, by simp only [step, h]⟩
  | moveConstruct i =>
    right; right
    simp only [step]
    split
    · exact released_none rfl fun _ _ => rfl
    · rename_i t ht
      refine released_none rfl fun f hf => ?_
      have hset := @total_set f s.tickets t t.moved i ht
      rw [hf t.moved rfl] at hset
      dsimp only
      rw [total_append]
      omega
  | moveAssign i j =>
    right; right
    simp only [step]
    split
    · exact released_none rfl fun _ _ => rfl
    rename_i hne
    split
    · rename_i t u ht hu
      refine ⟨t, rfl, fun f hf => ?_⟩
      have hfirst := @total_set f s.tickets t u i ht
      have hstill : (s.tickets.set i u)[j]? = some u := by rw [List.getElem?_set_ne hne, hu]
      have hsecond := @total_set f (s.tickets.set i u) u u.moved j hstill
      rw [hf u.moved rfl] at hsecond
      dsimp only
      omega
    · exact released_none rfl fun _ _ => rfl
  | destroy i =>
    right; right
    simp only [step]
    split
    · exact released_none rfl fun _ _ => rfl
    · rename_i t ht
      exact ⟨t, rfl, fun f _ => total_eraseIdx ht⟩

/-! ## The reserve -/

/-- With `control` and `data` outstanding of `limit`, the data alone leave the reserve. -/
structure Headroom (limit reserved control data : ℕ) : Prop where
  kept : data + reserved ≤ limit
  within : control + data ≤ limit

/-- What is kept for control traffic is there for it. -/
theorem Headroom.available {limit reserved control data size : ℕ} (h : Headroom limit reserved control data)
    (hsize : control + size ≤ reserved) : control + data + size ≤ limit := by
  have hkept := h.kept
  omega

/-- The records agree with the tickets, and data leave the reserve. -/
structure Sound (limits : SendQueueLimits) (s : Holder) : Prop where
  fixed : s.budget.limits = limits
  bytes : s.budget.bytes.toNat = total (bytesOf true) s.tickets + total (bytesOf false) s.tickets
  frames : s.budget.frames.toNat = total (framesOf true) s.tickets + total (framesOf false) s.tickets
  roomBytes : Headroom limits.bytes.toNat limits.reservedControlBytes.toNat (total (bytesOf true) s.tickets)
    (total (bytesOf false) s.tickets)
  roomFrames : Headroom limits.frames.toNat limits.reservedControlFrames.toNat (total (framesOf true) s.tickets)
    (total (framesOf false) s.tickets)

/-- What the constructor asks of the limits. -/
def ValidLimits (limits : SendQueueLimits) : Prop :=
  limits.reservedControlBytes < limits.bytes ∧ limits.reservedControlFrames < limits.frames

section
variable {limits : SendQueueLimits} {b budget : SendBudget} {s : Holder} {size : UInt64} {control : Bool} {ticket : Ticket}

theorem create_ok (h : create limits = .ok b) : b = { limits } ∧ ValidLimits limits := by
  simp only [create, bind_eq_ok, check_eq_ok, not_or, UInt64.not_le, Except.ok.injEq] at h
  obtain ⟨-, ⟨-, -, hbytes, hframes⟩, rfl⟩ := h
  exact ⟨rfl, hbytes, hframes⟩

/-- What is open to reservations of the kind `control`. -/
def openTo (control : Bool) (limit reserved : UInt64) : ℕ := if control then limit.toNat else limit.toNat - reserved.toNat

theorem toNat_open {limit reserved : UInt64} (h : reserved < limit) (control : Bool) :
    (limit - if control then 0 else reserved).toNat = openTo control limit reserved := by
  rw [UInt64.lt_iff_toNat_lt] at h
  cases control with
  | true =>
    simp [openTo]
  | false =>
    simp only [openTo, Bool.false_eq_true, if_false]
    exact UInt64.toNat_sub_of_le _ _ (UInt64.le_iff_toNat_le.2 h.le)

/-- A reservation is granted exactly when it fits under the limits for its kind. -/
theorem reserve_iff (hvalid : ValidLimits b.limits) : (b.reserve size control).1.isSome ↔
    0 < size.toNat ∧ b.bytes.toNat + size.toNat ≤ openTo control b.limits.bytes b.limits.reservedControlBytes ∧
      b.frames.toNat < openTo control b.limits.frames b.limits.reservedControlFrames := by
  have hbytes := toNat_open hvalid.1 control
  have hframes := toNat_open hvalid.2 control
  simp only [reserve]
  obtain ⟨byteLimit, hb⟩ : ∃ byteLimit, byteLimit = b.limits.bytes - if control then 0 else b.limits.reservedControlBytes := ⟨_, rfl⟩
  obtain ⟨frameLimit, hf⟩ : ∃ frameLimit, frameLimit = b.limits.frames - if control then 0 else b.limits.reservedControlFrames :=
    ⟨_, rfl⟩
  rw [← hb] at hbytes ⊢
  rw [← hf] at hframes ⊢
  have hzero : size = 0 ↔ size.toNat = 0 := by rw [← UInt64.toNat_inj]; rfl
  rw [← hbytes, ← hframes]
  by_cases hfit : size ≤ byteLimit
  · have hsub := UInt64.toNat_sub_of_le _ _ hfit
    have hfit' := UInt64.le_iff_toNat_le.1 hfit
    split
    · rename_i hcond
      rw [hzero, UInt64.lt_iff_toNat_lt, UInt64.lt_iff_toNat_lt, UInt64.le_iff_toNat_le, hsub] at hcond
      simp only [Option.isSome_none, Bool.false_eq_true, false_iff]
      omega
    · rename_i hcond
      rw [hzero, UInt64.lt_iff_toNat_lt, UInt64.lt_iff_toNat_lt, UInt64.le_iff_toNat_le, hsub] at hcond
      simp only [Option.isSome_some, true_iff]
      omega
  · have hlt := UInt64.lt_iff_toNat_lt.1 (UInt64.not_le.1 hfit)
    rw [if_pos (.inr (.inl (UInt64.not_le.1 hfit)))]
    simp only [Option.isSome_none, Bool.false_eq_true, false_iff]
    omega

theorem reserve_some (h : b.reserve size control = (some ticket, budget)) :
    ticket = { held := true, size, control } ∧ budget = { b with bytes := b.bytes + size, frames := b.frames + 1 } := by
  rcases reserve_cases b size control with h' | h'
  · rw [h'] at h
    cases h
  · rw [h'] at h
    cases h
    exact ⟨rfl, rfl⟩

/-- What a granted reservation adds. -/
theorem reserve_granted (hvalid : ValidLimits b.limits) (h : b.reserve size control = (some ticket, budget)) :
    budget.bytes.toNat = b.bytes.toNat + size.toNat ∧ budget.frames.toNat = b.frames.toNat + 1 ∧
      budget.bytes.toNat ≤ openTo control b.limits.bytes b.limits.reservedControlBytes ∧
      budget.frames.toNat ≤ openTo control b.limits.frames b.limits.reservedControlFrames := by
  have hsome : (b.reserve size control).1.isSome := by rw [h]; rfl
  obtain ⟨hsize, hbytes, hframes⟩ := (reserve_iff hvalid).1 hsome
  obtain ⟨-, rfl⟩ := reserve_some h
  have hopen {limit reserved : UInt64} : openTo control limit reserved < 2 ^ 64 := by
    have hlt := limit.toNat_lt
    unfold openTo
    split <;> omega
  have hbytesLt := @hopen b.limits.bytes b.limits.reservedControlBytes
  have hframesLt := @hopen b.limits.frames b.limits.reservedControlFrames
  have hone : (1 : UInt64).toNat = 1 := rfl
  dsimp only
  rw [UInt64.toNat_add, UInt64.toNat_add, hone, Nat.mod_eq_of_lt (by omega), Nat.mod_eq_of_lt (by omega)]
  omega

theorem sound_create (hvalid : ValidLimits limits) : Sound limits { budget := { limits } } where
  fixed := rfl
  bytes := rfl
  frames := rfl
  roomBytes := ⟨(Nat.zero_add _).trans_le (UInt64.lt_iff_toNat_lt.1 hvalid.1).le, Nat.zero_le _⟩
  roomFrames := ⟨(Nat.zero_add _).trans_le (UInt64.lt_iff_toNat_lt.1 hvalid.2).le, Nat.zero_le _⟩

theorem Sound.reserved (hvalid : ValidLimits limits) (hs : Sound limits s)
    (h : s.budget.reserve size control = (some ticket, budget)) :
    Sound limits { budget, tickets := s.tickets ++ [ticket] } := by
  obtain ⟨hbytes, hframes, hbytesOpen, hframesOpen⟩ := reserve_granted (by rwa [hs.fixed]) h
  obtain ⟨rfl, rfl⟩ := reserve_some h
  rw [hs.fixed, hbytes] at hbytesOpen
  rw [hs.fixed, hframes] at hframesOpen
  have hbytesOf (c : Bool) : bytesOf c { held := true, size, control } = if control = c then size.toNat else 0 := by simp [bytesOf]
  have hframesOf (c : Bool) : framesOf c { held := true, size, control } = if control = c then 1 else 0 := by simp [framesOf]
  have hb := hs.bytes
  have hf := hs.frames
  obtain ⟨hkeptBytes, hwithinBytes⟩ := hs.roomBytes
  obtain ⟨hkeptFrames, hwithinFrames⟩ := hs.roomFrames
  have hlt := UInt64.lt_iff_toNat_lt.1 hvalid.1
  have hlt' := UInt64.lt_iff_toNat_lt.1 hvalid.2
  constructor
  · exact hs.fixed
  · rw [hbytes, total_append, total_append, hbytesOf, hbytesOf]
    cases control <;> simp <;> omega
  · rw [hframes, total_append, total_append, hframesOf, hframesOf]
    cases control <;> simp <;> omega
  · rw [total_append, total_append, hbytesOf, hbytesOf]
    cases control <;> simp [openTo] at hbytesOpen ⊢ <;> constructor <;> omega
  · rw [total_append, total_append, hframesOf, hframesOf]
    cases control <;> simp [openTo] at hframesOpen ⊢ <;> constructor <;> omega

theorem Sound.released {s' : Holder} (hs : Sound limits s) (h : Released s s') : Sound limits s' := by
  obtain ⟨t, hbudget, htotal⟩ := h
  have hcontrolBytes := htotal _ (weight_bytesOf true)
  have hdataBytes := htotal _ (weight_bytesOf false)
  have hcontrolFrames := htotal _ (weight_framesOf true)
  have hdataFrames := htotal _ (weight_framesOf false)
  have hb := hs.bytes
  have hf := hs.frames
  obtain ⟨hkeptBytes, hwithinBytes⟩ := hs.roomBytes
  obtain ⟨hkeptFrames, hwithinFrames⟩ := hs.roomFrames
  have hspent : s'.budget.limits = limits ∧ s'.budget.bytes.toNat = s.budget.bytes.toNat - (bytesOf true t + bytesOf false t) ∧
      s'.budget.frames.toNat = s.budget.frames.toNat - (framesOf true t + framesOf false t) := by
    rw [hbudget, release]
    cases hheld : t.held with
    | false => simp [bytesOf, framesOf, hheld, hs.fixed]
    | true =>
      have hsize : bytesOf true t + bytesOf false t = t.size.toNat := by cases hc : t.control <;> simp [bytesOf, hheld, hc]
      have hone : framesOf true t + framesOf false t = 1 := by cases hc : t.control <;> simp [framesOf, hheld, hc]
      rw [if_pos rfl, hsize, hone]
      refine ⟨hs.fixed, ?_, ?_⟩
      · exact UInt64.toNat_sub_of_le _ _ (UInt64.le_iff_toNat_le.2 (by omega))
      · exact UInt64.toNat_sub_of_le _ _ (UInt64.le_iff_toNat_le.2 (by change 1 ≤ _; omega))
  obtain ⟨hlimits, hbytes, hframes⟩ := hspent
  constructor
  · exact hlimits
  · omega
  · omega
  · constructor <;> omega
  · constructor <;> omega

theorem Sound.step (hvalid : ValidLimits limits) (hs : Sound limits s) (a : Action) : Sound limits (SendBudget.step s a) := by
  rcases step_cases s a with ⟨size, control, ticket, budget, hreserve, heq⟩ | heq | hreleased
  · rw [heq]
    exact hs.reserved hvalid hreserve
  · rw [heq]
    exact ⟨hs.fixed, hs.bytes, hs.frames, hs.roomBytes, hs.roomFrames⟩
  · exact hs.released hreleased

/-- In every run. -/
theorem sound_states (hvalid : ValidLimits limits) (actions : ℕ → Action) (k : ℕ) :
    Sound limits (states SendBudget.step { budget := { limits } } actions k) :=
  states_inv (Sound limits) (fun _ _ => True) (sound_create hvalid) (fun _ a _ hs => hs.step hvalid a) (fun _ => trivial) k

/-- The records are what the live tickets hold and stay within the limits; data
leave the reserve, and control traffic that fits in the reserve is granted. -/
theorem send_budget (h : create limits = .ok b) (actions : ℕ → Action) (k : ℕ) :
    let s := states SendBudget.step { budget := b } actions k
    s.budget.bytes.toNat = ((s.tickets.filter (·.held)).map (·.size.toNat)).sum ∧
    s.budget.frames.toNat = (s.tickets.filter (·.held)).length ∧
    s.budget.bytes ≤ limits.bytes ∧ s.budget.frames ≤ limits.frames ∧
    (∀ size ticket budget, s.budget.reserve size false = (some ticket, budget) →
      budget.bytes ≤ limits.bytes - limits.reservedControlBytes ∧ budget.frames ≤ limits.frames - limits.reservedControlFrames) ∧
    ∀ size : UInt64, 0 < size →
      ((s.tickets.filter fun t => t.held && t.control).map (·.size.toNat)).sum + size.toNat ≤ limits.reservedControlBytes.toNat →
      (s.tickets.filter fun t => t.held && t.control).length < limits.reservedControlFrames.toNat →
      (s.budget.reserve size true).1.isSome := by
  obtain ⟨rfl, hvalid⟩ := create_ok h
  intro s
  have hs : Sound limits s := sound_states hvalid actions k
  rw [sum_held, count_held, sum_held_control, count_held_control, UInt64.le_iff_toNat_le, UInt64.le_iff_toNat_le, hs.bytes, hs.frames]
  refine ⟨rfl, rfl, hs.roomBytes.within, hs.roomFrames.within, ?_, ?_⟩
  · intro size ticket budget hreserve
    obtain ⟨-, -, hbytes, hframes⟩ := reserve_granted (by rwa [hs.fixed]) hreserve
    rw [hs.fixed] at hbytes hframes
    rw [UInt64.le_iff_toNat_le, UInt64.le_iff_toNat_le, UInt64.toNat_sub_of_le _ _ (UInt64.le_of_lt hvalid.1),
      UInt64.toNat_sub_of_le _ _ (UInt64.le_of_lt hvalid.2)]
    exact ⟨hbytes, hframes⟩
  · intro size hpos hbytes hframes
    have hroom := hs.roomBytes.available hbytes
    have hroom' := @Headroom.available _ _ _ _ 1 hs.roomFrames hframes
    have hpos' := UInt64.lt_iff_toNat_lt.1 hpos
    rw [reserve_iff (by rwa [hs.fixed]), hs.fixed, hs.bytes, hs.frames]
    exact ⟨hpos', hroom, hroom'⟩

/-- With the default limits, after three packets of 1500 bytes. -/
theorem send_budget_default :
    (states SendBudget.step { budget := {} } (fun _ => .reserve 1500 false) 3).budget.bytes = 4500 ∧
    ((states SendBudget.step { budget := {} } (fun _ => .reserve 1500 false) 3).budget.reserve 65536 true).1.isSome := by
  have h := @send_budget {} {} rfl (fun _ => .reserve 1500 false) 3
  exact ⟨by decide, h.2.2.2.2.2 65536 (by decide) (by decide) (by decide)⟩

/-- Nothing is never reserved, although it would fit. -/
theorem empty_reservation_refused : create {} = .ok {} ∧ ¬ ∀ (actions : ℕ → Action) (k : ℕ) (size : UInt64),
    (((states SendBudget.step { budget := {} } actions k).tickets.filter fun t => t.held && t.control).map (·.size.toNat)).sum +
      size.toNat ≤ 65536 →
    ((states SendBudget.step { budget := {} } actions k).tickets.filter fun t => t.held && t.control).length < 8 →
    ((states SendBudget.step { budget := {} } actions k).budget.reserve size true).1.isSome := by
  refine ⟨rfl, fun h => ?_⟩
  have hgranted := h (fun _ => .destroy 0) 0 0 (by decide) (by decide)
  exact absurd hgranted (by decide)

end

end SendBudget

end LanLink
