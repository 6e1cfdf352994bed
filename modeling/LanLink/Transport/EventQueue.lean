import LanLink.Protocol.Messages
import LanLink.Transport.TlsChannel
/-!
# The client's event queue

Forwarded packets and network events wait in one queue (`event_queue_` of
`quic.cpp`) for the worker that calls the handlers. Each holds a ticket of a
send budget until its handler has returned. A packet that finds no room is
dropped; a network event drops the front of the queue instead, once.
-/
open LanLink.Lib

namespace LanLink

inductive HandlerMessage
  | network (event : NetworkEvent)
  | packet (delivery : ForwardedNetworkPacket)
  deriving DecidableEq, Repr

structure QueuedEvent where
  message : HandlerMessage
  ticket : SendBudget.Ticket
  deriving DecidableEq, Repr

/-- Network events may use the reserve of the budget. -/
def HandlerMessage.control : HandlerMessage → Bool
  | .network _ => true
  | .packet _ => false

/-- `sizeof` of the two messages. -/
structure EventSizes where
  network : UInt64
  packet : UInt64

/-- What a message reserves. -/
def EventSizes.of (sizes : EventSizes) : HandlerMessage → UInt64
  | .network _ => sizes.network
  | .packet delivery => sizes.packet + UInt64.ofNat delivery.packet.ciphertext.length

structure EventQueue where
  budget : SendBudget := {}
  queue : List QueuedEvent := []
  /-- What the worker has taken; its ticket lives until the handler is done. -/
  handling : Option QueuedEvent := none
  deriving Repr

namespace EventQueue
variable (sizes : EventSizes)

/-- The second critical section of `handle_forwarded_packet`: whether the packet is queued. -/
def pushPacket (delivery : ForwardedNetworkPacket) (q : EventQueue) : Bool × EventQueue :=
  match q.budget.reserve (sizes.of (.packet delivery)) false with
  | (none, budget) => (false, { q with budget })
  | (some ticket, budget) => (true, { q with budget, queue := q.queue ++ [⟨.packet delivery, ticket⟩] })

/-- The critical section of the `network_event` branch of `handle_control_frame`. -/
def pushEvent (event : NetworkEvent) (q : EventQueue) : Except Exn Unit × EventQueue :=
  let full : Except Exn Unit := .error (.runtimeError "network event handler queue is full")
  match q.budget.reserve sizes.network true with
  | (some ticket, budget) => (.ok (), { q with budget, queue := q.queue ++ [⟨.network event, ticket⟩] })
  | (none, budget) =>
    match q.queue with
    | [] => (full, { q with budget })
    | front :: rest =>
      -- popping the front destroys its ticket
      match (budget.release front.ticket).reserve sizes.network true with
      | (none, budget) => (full, { q with budget, queue := rest })
      | (some ticket, budget) => (.ok (), { q with budget, queue := rest ++ [⟨.network event, ticket⟩] })

/-- The worker takes the front, if it is not busy. -/
def take (q : EventQueue) : Option HandlerMessage × EventQueue :=
  match q.handling, q.queue with
  | none, x :: rest => (some x.message, { q with queue := rest, handling := some x })
  | _, _ => (none, q)

/-- The handler has returned or thrown. -/
def finish (q : EventQueue) : EventQueue :=
  match q.handling with
  | none => q
  | some x => { q with handling := none, budget := q.budget.release x.ticket }

/-- The messages that wait. -/
def waiting (q : EventQueue) : List HandlerMessage := q.queue.map (·.message)

/-- What holds a ticket, oldest first. -/
def held (q : EventQueue) : List QueuedEvent := q.handling.toList ++ q.queue

end EventQueue

/-! ## A queue and its history -/

inductive QueueStep
  | packet (delivery : ForwardedNetworkPacket)
  | network (event : NetworkEvent)
  | take
  | finish
  deriving Repr

/-- A queue with what was queued and what the worker has taken so far. -/
structure QueueStation where
  queue : EventQueue := {}
  accepted : List HandlerMessage := []
  taken : List HandlerMessage := []

namespace QueueStation
variable (sizes : EventSizes)

/-- One step. A packet that the decoder does not take gets no further. -/
def step (s : QueueStation) : QueueStep → QueueStation
  | .packet delivery =>
    if ¬ validPacket delivery.packet then s
    else
      let r := s.queue.pushPacket sizes delivery
      { s with queue := r.2, accepted := s.accepted ++ if r.1 then [.packet delivery] else [] }
  | .network event =>
    let r := s.queue.pushEvent sizes event
    { s with queue := r.2, accepted := s.accepted ++ if r.1.toBool then [.network event] else [] }
  | .take =>
    let r := s.queue.take
    { s with queue := r.2, taken := s.taken ++ r.1.toList }
  | .finish => { s with queue := s.queue.finish }

def run (limits : SendQueueLimits) (steps : ℕ → QueueStep) (k : ℕ) : QueueStation :=
  states (step sizes) { queue := { budget := { limits } } } steps k

end QueueStation

/-! ## Room for network events -/

/-- The limits keep room for two network events, and no packet is smaller than one. -/
structure EventSizes.Suit (limits : SendQueueLimits) (sizes : EventSizes) : Prop where
  valid : SendBudget.ValidLimits limits
  network : 0 < sizes.network.toNat
  reserved : 2 * sizes.network.toNat ≤ limits.reservedControlBytes.toNat
  frames : 2 ≤ limits.reservedControlFrames.toNat
  packet : sizes.network.toNat ≤ sizes.packet.toNat
  word : sizes.packet.toNat + 65535 < 2 ^ 64

theorem EventSizes.Suit.toNat_of {limits : SendQueueLimits} {sizes : EventSizes} (h : sizes.Suit limits)
    {delivery : ForwardedNetworkPacket} (hvalid : validPacket delivery.packet) :
    (sizes.of (.packet delivery)).toNat = sizes.packet.toNat + delivery.packet.ciphertext.length := by
  have hlength : delivery.packet.ciphertext.length ≤ 65535 := by
    simp only [validPacket, Bool.and_eq_true, decide_eq_true_eq] at hvalid
    omega
  have hword := h.word
  rw [EventSizes.of, UInt64.toNat_add, UInt64.toNat_ofNat_of_lt' (by change _ < 2 ^ 64; omega), Nat.mod_eq_of_lt]
  omega

namespace EventQueue
variable {sizes : EventSizes} {limits : SendQueueLimits} {q : EventQueue}

/-- The budget records what is held, and each ticket is for its message. -/
structure Accounts (sizes : EventSizes) (limits : SendQueueLimits) (q : EventQueue) : Prop where
  sound : SendBudget.Sound limits { budget := q.budget, tickets := q.held.map (·.ticket) }
  sized : ∀ x ∈ q.held, x.ticket = { held := true, size := sizes.of x.message, control := x.message.control } ∧
    sizes.network.toNat ≤ (sizes.of x.message).toNat

theorem Accounts.refused (h : Accounts sizes limits q) {b : SendBudget} (hb : b = { q.budget with rejected := q.budget.rejected + 1 }) :
    Accounts sizes limits { q with budget := b } := by
  subst hb
  exact ⟨⟨h.sound.fixed, h.sound.bytes, h.sound.frames, h.sound.roomBytes, h.sound.roomFrames⟩, h.sized⟩

/-- A reservation for a message at the end of the queue. -/
theorem Accounts.push (h : Accounts sizes limits q) (hsuit : sizes.Suit limits) {message : HandlerMessage}
    {ticket : SendBudget.Ticket} {budget : SendBudget}
    (hreserve : q.budget.reserve (sizes.of message) message.control = (some ticket, budget))
    (hsize : sizes.network.toNat ≤ (sizes.of message).toNat) :
    Accounts sizes limits { q with budget, queue := q.queue ++ [⟨message, ticket⟩] } where
  sound := by
    have hsound := SendBudget.Sound.reserved hsuit.valid h.sound hreserve
    simpa [held] using hsound
  sized x hx := by
    simp only [held, ← List.append_assoc, List.mem_append, List.mem_singleton] at hx
    rcases hx with hx | rfl
    · exact h.sized x (List.mem_append.2 hx)
    · obtain ⟨rfl, -⟩ := SendBudget.reserve_some hreserve
      exact ⟨rfl, hsize⟩

theorem Accounts.pop (h : Accounts sizes limits q) {front : QueuedEvent} {rest : List QueuedEvent} (hqueue : q.queue = front :: rest) :
    Accounts sizes limits { q with budget := q.budget.release front.ticket, queue := rest } where
  sound := by
    have hsound := h.sound
    rw [held, hqueue, List.map_append, List.map_cons] at hsound
    simpa [held] using hsound.release
  sized x hx := h.sized x (by
    simp only [held, List.mem_append] at hx ⊢
    exact hx.imp_right fun hx => hqueue ▸ List.mem_cons_of_mem front hx)

theorem Accounts.pushPacket (h : Accounts sizes limits q) (hsuit : sizes.Suit limits) {delivery : ForwardedNetworkPacket}
    (hvalid : validPacket delivery.packet) : Accounts sizes limits (q.pushPacket sizes delivery).2 := by
  have hsize : sizes.network.toNat ≤ (sizes.of (.packet delivery)).toNat := by
    rw [hsuit.toNat_of hvalid]
    exact hsuit.packet.trans (Nat.le_add_right _ _)
  unfold EventQueue.pushPacket
  split
  · rename_i budget hreserve
    rcases SendBudget.reserve_cases q.budget (sizes.of (.packet delivery)) false with hcase | hcase <;> rw [hcase] at hreserve <;>
      cases hreserve
    exact h.refused rfl
  · rename_i ticket budget hreserve
    exact h.push hsuit hreserve hsize

/-- There is room for a reservation of the kind `control`. -/
def Fits (q : EventQueue) (size : ℕ) (control : Bool) : Prop :=
  q.budget.bytes.toNat + size ≤ SendBudget.openTo control q.budget.limits.bytes q.budget.limits.reservedControlBytes ∧
    q.budget.frames.toNat < SendBudget.openTo control q.budget.limits.frames q.budget.limits.reservedControlFrames

theorem reserve_of_fits (hvalid : SendBudget.ValidLimits q.budget.limits) {size : UInt64} {control : Bool} (hpos : 0 < size.toNat)
    (hfits : q.Fits size.toNat control) : ∃ ticket budget, q.budget.reserve size control = (some ticket, budget) := by
  have hsome := (SendBudget.reserve_iff hvalid).2 ⟨hpos, hfits⟩
  obtain ⟨ticket, hticket⟩ := Option.isSome_iff_exists.1 hsome
  exact ⟨ticket, _, Prod.ext hticket rfl⟩

theorem reserve_of_not_fits (hvalid : SendBudget.ValidLimits q.budget.limits) {size : UInt64} {control : Bool}
    (hfits : ¬ q.Fits size.toNat control) :
    q.budget.reserve size control = (none, { q.budget with rejected := q.budget.rejected + 1 }) := by
  rcases SendBudget.reserve_cases q.budget size control with hcase | hcase
  · exact hcase
  · have hsome : (q.budget.reserve size control).1.isSome := by rw [hcase]; rfl
    exact absurd ((SendBudget.reserve_iff hvalid).1 hsome).2 hfits

theorem total_ticket (control : Bool) (t : SendBudget.Ticket) (hheld : t.held = true) (hcontrol : t.control = control) :
    SendBudget.bytesOf true t + SendBudget.bytesOf false t = t.size.toNat ∧
    SendBudget.framesOf true t + SendBudget.framesOf false t = 1 := by
  cases control <;> simp [SendBudget.bytesOf, SendBudget.framesOf, hheld, hcontrol]

/-- With nothing in the queue there is room beside what the worker holds. -/
theorem Accounts.fits_of_empty (h : Accounts sizes limits q) (hsuit : sizes.Suit limits) (hempty : q.queue = []) :
    q.Fits sizes.network.toNat true := by
  obtain ⟨hfixed, hbytes, hframes, hroomBytes, hroomFrames⟩ := h.sound
  have hcontrolBytes : SendBudget.total (SendBudget.bytesOf true) (q.held.map (·.ticket)) ≤ sizes.network.toNat := by
    rw [held, hempty, List.append_nil]
    cases hhandling : q.handling with
    | none => simp [SendBudget.total]
    | some x =>
      obtain ⟨hticket, -⟩ := h.sized x (by simp [held, hhandling])
      cases hmessage : x.message <;>
        simp [SendBudget.total, SendBudget.bytesOf, hticket, hmessage, HandlerMessage.control, EventSizes.of]
  have hcontrolFrames : SendBudget.total (SendBudget.framesOf true) (q.held.map (·.ticket)) ≤ 1 := by
    rw [held, hempty, List.append_nil]
    cases hhandling : q.handling with
    | none => simp [SendBudget.total]
    | some x =>
      simp only [Option.toList_some, List.map_cons, List.map_nil, SendBudget.total, List.sum_cons, List.sum_nil, add_zero,
        SendBudget.framesOf]
      split <;> simp
  have hreserved := hsuit.reserved
  have htwo := hsuit.frames
  dsimp only at hfixed hbytes hframes hroomBytes hroomFrames
  have hroom := @SendBudget.Headroom.available _ _ _ _ sizes.network.toNat hroomBytes (by omega)
  have hplace := @SendBudget.Headroom.available _ _ _ _ 1 hroomFrames (by omega)
  rw [Fits, hfixed, hbytes, hframes]
  exact ⟨hroom, hplace⟩

/-- Popping the front makes room for a network event. -/
theorem Accounts.fits_of_pop (h : Accounts sizes limits q) {front : QueuedEvent} {rest : List QueuedEvent}
    (hqueue : q.queue = front :: rest) :
    Fits { q with budget := q.budget.release front.ticket, queue := rest } sizes.network.toNat true := by
  obtain ⟨hticket, hsize⟩ := h.sized front (by simp [held, hqueue])
  obtain ⟨-, -, -, hroomBytes, hroomFrames⟩ := h.sound
  obtain ⟨hfixed, hbytes, hframes, -, -⟩ := (h.pop hqueue).sound
  have hsplit (f : SendBudget.Ticket → ℕ) : SendBudget.total f (q.held.map (·.ticket)) =
      SendBudget.total f ((held { q with budget := q.budget.release front.ticket, queue := rest }).map (·.ticket)) +
        f front.ticket := by
    simp only [held, hqueue, SendBudget.total, List.map_append, List.map_cons, List.sum_append, List.sum_cons]
    omega
  obtain ⟨hone, honeFrame⟩ := total_ticket front.message.control front.ticket (by rw [hticket]) (by rw [hticket])
  rw [show front.ticket.size = sizes.of front.message by rw [hticket]] at hone
  have hwithin := hroomBytes.within
  have hplaces := hroomFrames.within
  simp only [hsplit] at hwithin hplaces
  dsimp only at hfixed hbytes hframes
  rw [Fits]
  dsimp only
  rw [hfixed, hbytes, hframes]
  simp only [SendBudget.openTo, if_true]
  omega

/-- A network event always gets into the queue; only where there is no room the front goes. -/
theorem Accounts.pushEvent (h : Accounts sizes limits q) (hsuit : sizes.Suit limits) (event : NetworkEvent) :
    ∃ q', q.pushEvent sizes event = (.ok (), q') ∧ Accounts sizes limits q' ∧ q'.handling = q.handling ∧
      (q.Fits sizes.network.toNat true → q'.waiting = q.waiting ++ [.network event]) ∧
      (¬ q.Fits sizes.network.toNat true → q.queue ≠ [] ∧ q'.waiting = q.waiting.tail ++ [.network event]) := by
  have hvalid : SendBudget.ValidLimits q.budget.limits := by
    rw [h.sound.fixed]
    exact hsuit.valid
  unfold EventQueue.pushEvent
  by_cases hfits : q.Fits sizes.network.toNat true
  · obtain ⟨ticket, budget, hreserve⟩ := reserve_of_fits hvalid hsuit.network hfits
    rw [hreserve]
    refine ⟨_, rfl, @Accounts.push _ _ _ h hsuit (.network event) _ _ hreserve le_rfl, rfl, fun _ => ?_, fun hnot => absurd hfits hnot⟩
    simp [waiting]
  · rw [reserve_of_not_fits hvalid hfits]
    cases hqueue : q.queue with
    | nil => exact absurd (h.fits_of_empty hsuit hqueue) hfits
    | cons front rest =>
      -- the front goes, and its room is enough
      have hrefused := h.refused rfl
      have hpopped := hrefused.pop hqueue
      obtain ⟨ticket, budget, hreserve⟩ := reserve_of_fits (by rw [hpopped.sound.fixed]; exact hsuit.valid) hsuit.network
        (hrefused.fits_of_pop hqueue)
      dsimp only at hreserve ⊢
      rw [hreserve]
      refine ⟨_, rfl, @Accounts.push _ _ _ hpopped hsuit (.network event) _ _ hreserve le_rfl, rfl, fun hyes => absurd hyes hfits,
        fun _ => ⟨by simp, ?_⟩⟩
      simp [waiting, hqueue]

/-- A packet is queued exactly where there is room. -/
theorem Accounts.pushPacket_iff (h : Accounts sizes limits q) (hsuit : sizes.Suit limits) {delivery : ForwardedNetworkPacket}
    (hvalid : validPacket delivery.packet) :
    ((q.pushPacket sizes delivery).1 = true ↔ q.Fits (sizes.packet.toNat + delivery.packet.ciphertext.length) false) ∧
      (q.pushPacket sizes delivery).2.handling = q.handling ∧
      (q.pushPacket sizes delivery).2.waiting =
        q.waiting ++ if (q.pushPacket sizes delivery).1 then [.packet delivery] else [] := by
  have hlimits : SendBudget.ValidLimits q.budget.limits := by
    rw [h.sound.fixed]
    exact hsuit.valid
  rw [← hsuit.toNat_of hvalid]
  unfold EventQueue.pushPacket
  by_cases hfits : q.Fits (sizes.of (.packet delivery)).toNat false
  · have hpos : 0 < (sizes.of (.packet delivery)).toNat := by
      rw [hsuit.toNat_of hvalid]
      have hnetwork := hsuit.network
      have hpacket := hsuit.packet
      omega
    obtain ⟨ticket, budget, hreserve⟩ := reserve_of_fits hlimits hpos hfits
    rw [hreserve]
    exact ⟨iff_of_true rfl hfits, rfl, by simp [waiting]⟩
  · rw [reserve_of_not_fits hlimits hfits]
    exact ⟨iff_of_false (by simp) hfits, rfl, by simp [waiting]⟩

theorem Accounts.take (h : Accounts sizes limits q) : Accounts sizes limits q.take.2 := by
  unfold EventQueue.take
  split
  · rename_i x rest hhandling hqueue
    have hheld : held { q with queue := rest, handling := some x } = q.held := by simp [held, hhandling, hqueue]
    exact ⟨by rw [hheld]; exact h.sound, by rw [hheld]; exact h.sized⟩
  · exact h

theorem Accounts.finish (h : Accounts sizes limits q) : Accounts sizes limits q.finish := by
  unfold EventQueue.finish
  split
  · exact h
  · rename_i x hhandling
    refine ⟨?_, fun y hy => h.sized y ?_⟩
    · have hsound := h.sound
      rw [held, hhandling, Option.toList_some, List.singleton_append, List.map_cons] at hsound
      exact @SendBudget.Sound.release _ _ [] _ _ hsound
    · exact List.mem_append_right _ hy

end EventQueue

namespace QueueStation
variable {sizes : EventSizes} {limits : SendQueueLimits}

/-- How many network events were queued. -/
def networks (accepted : List HandlerMessage) : ℕ := accepted.countP (·.control)

/-- What was queued is taken in order. At most one message is lost for each network event. -/
structure Keeps (sizes : EventSizes) (limits : SendQueueLimits) (s : QueueStation) : Prop where
  accounts : s.queue.Accounts sizes limits
  order : (s.taken ++ s.queue.waiting).Sublist s.accepted
  lost : s.accepted.length ≤ s.taken.length + s.queue.waiting.length + networks s.accepted

theorem Keeps.packet {s : QueueStation} (h : Keeps sizes limits s) (hsuit : sizes.Suit limits) (delivery : ForwardedNetworkPacket) :
    Keeps sizes limits (s.step sizes (.packet delivery)) := by
  simp only [step]
  split
  · exact h
  rename_i hvalid
  obtain ⟨-, -, hwaiting⟩ := h.accounts.pushPacket_iff hsuit (by simpa using hvalid)
  refine ⟨h.accounts.pushPacket hsuit (by simpa using hvalid), ?_, ?_⟩
  · rw [hwaiting, ← List.append_assoc]
    exact h.order.append (List.Sublist.refl _)
  · have hlost := h.lost
    rw [hwaiting]
    cases (s.queue.pushPacket sizes delivery).1 <;> simp [networks, HandlerMessage.control] at hlost ⊢ <;> omega

theorem Keeps.network {s : QueueStation} (h : Keeps sizes limits s) (hsuit : sizes.Suit limits) (event : NetworkEvent) :
    Keeps sizes limits (s.step sizes (.network event)) := by
  obtain ⟨q', hpush, haccounts, -, hroom, hfull⟩ := h.accounts.pushEvent hsuit event
  simp only [step, hpush]
  have hlost := h.lost
  by_cases hfits : s.queue.Fits sizes.network.toNat true
  · refine ⟨haccounts, ?_, ?_⟩
    · rw [hroom hfits, ← List.append_assoc]
      exact h.order.append (List.Sublist.refl _)
    · rw [hroom hfits]
      simp [networks, HandlerMessage.control, Except.toBool] at hlost ⊢
      omega
  · obtain ⟨hne, hwaiting⟩ := hfull hfits
    refine ⟨haccounts, ?_, ?_⟩
    · rw [hwaiting, ← List.append_assoc]
      refine (List.Sublist.trans ?_ h.order).append (List.Sublist.refl _)
      exact (List.Sublist.refl _).append (List.tail_sublist _)
    · have hpos : 0 < s.queue.waiting.length := by
        rw [EventQueue.waiting, List.length_map]
        exact List.length_pos_iff.2 hne
      rw [hwaiting]
      simp [networks, HandlerMessage.control, Except.toBool] at hlost ⊢
      omega

theorem Keeps.step {s : QueueStation} (h : Keeps sizes limits s) (hsuit : sizes.Suit limits) (e : QueueStep) :
    Keeps sizes limits (s.step sizes e) := by
  cases e with
  | packet delivery => exact h.packet hsuit delivery
  | network event => exact h.network hsuit event
  | take =>
    have hmoved : s.taken ++ s.queue.take.1.toList ++ s.queue.take.2.waiting = s.taken ++ s.queue.waiting := by
      unfold EventQueue.take
      split
      · rename_i x rest hhandling hqueue
        simp [EventQueue.waiting, hqueue]
      · simp
    refine ⟨h.accounts.take, ?_, ?_⟩
    · simp only [QueueStation.step]
      rw [hmoved]
      exact h.order
    · have hlength := congrArg List.length hmoved
      have hlost := h.lost
      simp only [List.length_append] at hlength
      simp only [QueueStation.step, List.length_append]
      omega
  | finish =>
    have hwaiting : s.queue.finish.waiting = s.queue.waiting := by
      unfold EventQueue.finish EventQueue.waiting
      split <;> rfl
    refine ⟨h.accounts.finish, ?_, ?_⟩ <;> simp only [QueueStation.step, hwaiting]
    · exact h.order
    · exact h.lost

end QueueStation

end LanLink
