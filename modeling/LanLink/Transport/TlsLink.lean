import LanLink.Transport.TlsChannel
/-!
# Two ends of a TLS connection

TLS over TCP gives each end the bytes the other wrote, in order and without
loss, in pieces of any size, until the connection breaks. Whatever the workers,
the callers of `enqueue` and the connection do, the frames that reach `on_frame`
at one end are those that were queued at the other, from the first one on.
-/
open LanLink.Lib

namespace LanLink

inductive TlsSide
  | client
  | server
  deriving DecidableEq, Repr

def TlsSide.other : TlsSide → TlsSide
  | .client => .server
  | .server => .client

@[simp] theorem TlsSide.other_other (p : TlsSide) : p.other.other = p := by cases p <;> rfl

theorem TlsSide.other_ne (p : TlsSide) : p.other ≠ p := by cases p <;> decide

structure TlsLink where
  ends : TlsSide → TlsStation

namespace TlsLink

/-- What the other end has written and this one has not read. -/
def incoming (w : TlsLink) (p : TlsSide) : Bytes := (w.ends p.other).written.drop (w.ends p).received.length

def step (w : TlsLink) (e : TlsSide × TlsEvent) : TlsLink where
  ends := Function.update w.ends e.1 ((w.ends e.1).step (w.incoming e.1) e.2)

/-- The state after the first `k` events. -/
def run (limits : TlsSide → SendQueueLimits) (events : ℕ → TlsSide × TlsEvent) (k : ℕ) : TlsLink :=
  states step { ends := fun p => { channel := { budget := { limits := limits p } } } } events k

end TlsLink

/-! ## Bytes in transit -/

namespace TlsStation
variable (s : TlsStation) (incoming : Bytes) (e : TlsEvent)

theorem written_step : s.written <+: (s.step incoming e).written := by
  cases e with
  | write result =>
    simp only [step]
    split
    · exact List.prefix_append _ _
    · exact List.prefix_rfl
  | check keepRunning | read result =>
    simp only [step]
    split <;> exact List.prefix_rfl
  | _ => exact List.prefix_rfl

/-- A step reads from the front of what has come in. -/
theorem received_step : ∃ chunk, chunk <+: incoming ∧ (s.step incoming e).received = s.received ++ chunk := by
  have hnone : ∃ chunk, chunk <+: incoming ∧ s.received = s.received ++ chunk := ⟨[], List.nil_prefix, by simp⟩
  cases e with
  | read result =>
    simp only [step]
    split
    · refine ⟨(s.channel.read incoming result).2.1, ?_, rfl⟩
      cases result with
      | got transferred throwsAt =>
        simp only [TlsChannel.read]
        split
        · exact List.nil_prefix
        · split
          · exact List.take_prefix _ _
          · split
            · exact List.take_prefix _ _
            · split <;> exact List.take_prefix _ _
      | retry => exact List.nil_prefix
      | failed => exact List.nil_prefix
    · exact hnone
  | check keepRunning | write result =>
    simp only [step]
    split <;> exact hnone
  | _ => exact hnone

end TlsStation

namespace TlsLink
variable {w : TlsLink} {limits : TlsSide → SendQueueLimits}

/-- What every step of a station keeps holds at both ends throughout. -/
theorem ends_inv (I : TlsSide → TlsStation → Prop) (h0 : ∀ p, I p { channel := { budget := { limits := limits p } } })
    (hstep : ∀ p s incoming e, I p s → I p (s.step incoming e)) (events : ℕ → TlsSide × TlsEvent) (k : ℕ) (p : TlsSide) :
    I p ((run limits events k).ends p) := by
  induction k generalizing p with
  | zero => exact h0 p
  | succ k ih =>
    simp only [run, states, TlsLink.step] at ih ⊢
    rcases eq_or_ne p (events k).1 with rfl | hp
    · rw [Function.update_self]
      exact hstep _ _ _ _ (ih _)
    · rw [Function.update_of_ne hp]
      exact ih p

/-- An end reads what the other wrote. -/
def Arrived (w : TlsLink) : Prop := ∀ p, (w.ends p).received <+: (w.ends p.other).written

theorem Arrived.step (h : w.Arrived) (e : TlsSide × TlsEvent) : (w.step e).Arrived := by
  obtain ⟨p, e⟩ := e
  intro q
  simp only [TlsLink.step]
  rcases eq_or_ne q p with rfl | hq
  · -- what is read is next in what the other end wrote
    rw [Function.update_self, Function.update_of_ne q.other_ne]
    obtain ⟨chunk, hchunk, hreceived⟩ := (w.ends q).received_step (w.incoming q) e
    rw [hreceived, ← List.prefix_iff_eq_append.1 (h q)]
    exact (List.prefix_append_right_inj _).2 hchunk
  · have hother : q.other = p := by cases q <;> cases p <;> simp_all [TlsSide.other]
    rw [Function.update_of_ne hq, hother, Function.update_self]
    have harrived := h q
    rw [hother] at harrived
    exact harrived.trans ((w.ends p).written_step _ e)

/-- Both ends keep their streams, and read what the other wrote. -/
structure Carries (w : TlsLink) : Prop where
  sends : ∀ p, (w.ends p).Sends
  receives : ∀ p, (w.ends p).Receives
  arrived : w.Arrived

theorem carries_run (limits : TlsSide → SendQueueLimits) (events : ℕ → TlsSide × TlsEvent) (k : ℕ) :
    (run limits events k).Carries where
  sends := ends_inv (fun _ s => s.Sends) (fun p => TlsStation.sends_start (limits p))
    (fun _ _ incoming e h => h.step incoming e) events k
  receives := ends_inv (fun _ s => s.Receives) (fun p => TlsStation.receives_start (limits p))
    (fun _ _ incoming e h => h.step incoming e) events k
  arrived := states_inv Arrived (fun _ _ => True) (fun _ => List.prefix_rfl) (fun _ e _ h => h.step e) (fun _ => trivial) k

/-- The front of what the other end wrote decodes to the frames that are there whole. -/
theorem Carries.decode (h : w.Carries) (p : TlsSide) {bytes : Bytes} (hbytes : bytes <+: (w.ends p.other).written) :
    ∃ m rest, decodeFrames bytes = .ok ((w.ends p.other).accepted.take m, rest) ∧
      bytes = wire ((w.ends p.other).accepted.take m) ++ rest ∧
      (m < (w.ends p.other).accepted.length →
        bytes.length < (wire ((w.ends p.other).accepted.take (m + 1))).length) :=
  Scanner.drain_prefix (fun frame hframe => scan_encodeFrame ((h.sends p.other).encodes frame hframe))
    (hbytes.trans (h.sends p.other).sent)

/-- In every run of two channels: what an end hands to `on_frame` is the front of what was queued at the other end, and
while its worker runs it is exactly the frames that have come in whole; nothing that comes in breaks the stream. When
nothing is left to write or to read, everything queued has been handed over. -/
theorem frames_in_order (limits : TlsSide → SendQueueLimits) (events : ℕ → TlsSide × TlsEvent) (k : ℕ) (p : TlsSide) :
    let w := run limits events k
    let here := w.ends p
    let there := w.ends p.other
    here.delivered <+: there.accepted ∧
    (here.channel.stage ≠ .left →
      (∃ rest, here.received = wire here.delivered ++ rest ∧
        (here.delivered.length < there.accepted.length →
          here.received.length < (wire (there.accepted.take (here.delivered.length + 1))).length)) ∧
      (∀ n e, here.channel.decoder.push ((w.incoming p).take n) ≠ .error e) ∧
      (there.channel.stage ≠ .left → there.channel.writing = none → there.channel.queue = [] → w.incoming p = [] →
        here.delivered = there.accepted)) := by
  intro w here there
  have h : w.Carries := carries_run limits events k
  obtain ⟨m, rest, hdecode, hreceived, hnext⟩ := h.decode p (h.arrived p)
  refine ⟨((h.receives p).front hdecode).trans (List.take_prefix _ _), fun hstage => ?_⟩
  have hdelivered : here.delivered = there.accepted.take m := by
    have hdecoded := (h.receives p).decoded hstage
    rw [hdecode] at hdecoded
    exact (Prod.mk.inj (Except.ok.inj hdecoded)).1.symm
  refine ⟨⟨rest, by rw [hdelivered]; exact hreceived, fun hlt => ?_⟩, ?_, ?_⟩
  · have hm : m < there.accepted.length := by
      rw [hdelivered, List.length_take] at hlt
      omega
    have hlength : here.delivered.length = m := by
      rw [hdelivered, List.length_take]
      omega
    rw [hlength]
    exact hnext hm
  · intro n e hpush
    have hwritten : here.received ++ (w.incoming p).take n <+: there.written := by
      rw [← List.prefix_iff_eq_append.1 (h.arrived p)]
      exact (List.prefix_append_right_inj _).2 (List.take_prefix _ _)
    obtain ⟨m', rest', hmore, -⟩ := h.decode p hwritten
    rw [(h.receives p).more hstage, hpush] at hmore
    cases hmore
  · intro hrunning hwriting hqueue hincoming
    have hall : here.received = wire there.accepted := by
      have hunsent : there.channel.unsent = [] := by simp [TlsChannel.unsent, hwriting, hqueue]
      have hwritten : there.written ++ there.channel.unsent = wire there.accepted := (h.sends p.other).unsent hrunning
      have hsplit : here.received ++ w.incoming p = there.written := List.prefix_iff_eq_append.1 (h.arrived p)
      rw [← hwritten, hunsent, List.append_nil, ← hsplit, hincoming, List.append_nil]
    rw [hdelivered]
    apply List.take_of_length_le
    by_contra hlt
    -- a frame that is missing would make the stream longer than it is
    have hshort := hnext (Nat.lt_of_not_le hlt)
    have hlong : (wire (there.accepted.take (m + 1))).length ≤ (wire there.accepted).length := by
      conv_rhs => rw [← List.take_append_drop (m + 1) there.accepted, wire, Scanner.wire_append]
      rw [List.length_append]
      exact Nat.le_add_right _ _
    rw [← hall] at hlong
    exact absurd hshort (Nat.not_lt.2 hlong)

/-! ## What is outstanding -/

/-- The bytes of one kind that the tickets hold are those of the frames they belong to. -/
theorem total_bytes {items : List QueuedFrame} (control : Bool)
    (h : ∀ x ∈ items, x.ticket.held = true ∧ x.ticket.size.toNat = x.bytes.length) :
    SendBudget.total (SendBudget.bytesOf control) (items.map (·.ticket)) =
      ((items.filter (·.ticket.control = control)).map (·.bytes.length)).sum := by
  induction items with
  | nil => rfl
  | cons x items ih =>
    obtain ⟨hheld, hsize⟩ := h x List.mem_cons_self
    have hrest := ih fun y hy => h y (List.mem_cons_of_mem x hy)
    rw [SendBudget.total, List.map_map] at hrest ⊢
    by_cases hcontrol : x.ticket.control = control <;> simp [SendBudget.bytesOf, hheld, hsize, hcontrol, hrest]

theorem total_frames {items : List QueuedFrame} (control : Bool) (h : ∀ x ∈ items, x.ticket.held = true) :
    SendBudget.total (SendBudget.framesOf control) (items.map (·.ticket)) =
      (items.filter (·.ticket.control = control)).length := by
  induction items with
  | nil => rfl
  | cons x items ih =>
    have hheld := h x List.mem_cons_self
    have hrest := ih fun y hy => h y (List.mem_cons_of_mem x hy)
    rw [SendBudget.total, List.map_map] at hrest ⊢
    by_cases hcontrol : x.ticket.control = control <;> simp [SendBudget.framesOf, hheld, hcontrol, hrest, Nat.add_comm]

/-- In every run of two channels the budget of an end records the frames that are on their way out: those of calls of
`enqueue`, the one being written and those in the queue. Packets leave the reserve of the budget to control frames, a
control frame that fits in what is left of the reserve is let in, and past the loop of `run` everything is given back. -/
theorem budget_is_outstanding (hvalid : ∀ p, SendBudget.ValidLimits (limits p)) (events : ℕ → TlsSide × TlsEvent) (k : ℕ)
    (p : TlsSide) :
    let c := ((run limits events k).ends p).channel
    let bytes (control : Bool) := ((c.outstanding.filter (·.ticket.control = control)).map (·.bytes.length)).sum
    let frames (control : Bool) := (c.outstanding.filter (·.ticket.control = control)).length
    c.budget.bytes.toNat = bytes true + bytes false ∧ c.budget.frames.toNat = frames true + frames false ∧
    bytes true + bytes false ≤ (limits p).bytes.toNat ∧ frames true + frames false ≤ (limits p).frames.toNat ∧
    bytes false + (limits p).reservedControlBytes.toNat ≤ (limits p).bytes.toNat ∧
    frames false + (limits p).reservedControlFrames.toNat ≤ (limits p).frames.toNat ∧
    (∀ frame encoded, isControl frame → encodeFrame frame = .ok encoded →
      bytes true + encoded.length ≤ (limits p).reservedControlBytes.toNat →
      frames true < (limits p).reservedControlFrames.toNat →
      ∃ ticket, (c.reserve frame).calls = c.calls ++ [⟨frame, ⟨encoded, ticket⟩⟩]) ∧
    (c.stage = .left → c.calls = [] → c.budget.bytes = 0 ∧ c.pendingOutput = false) := by
  intro c bytes frames
  have h : TlsChannel.Accounts (limits p) c :=
    ends_inv (fun p s => TlsChannel.Accounts (limits p) s.channel)
      (fun p => TlsChannel.accounts_start (hvalid p))
      (fun p _ incoming e h => h.step (hvalid p) incoming e) events k p
  have hbytes (control : Bool) : SendBudget.total (SendBudget.bytesOf control) c.tickets = bytes control :=
    total_bytes control h.sized
  have hframes (control : Bool) : SendBudget.total (SendBudget.framesOf control) c.tickets = frames control :=
    total_frames control fun x hx => (h.sized x hx).1
  obtain ⟨hfixed, hsumBytes, hsumFrames, hroomBytes, hroomFrames⟩ := h.sound
  simp only [hbytes, hframes] at hsumBytes hsumFrames hroomBytes hroomFrames
  refine ⟨hsumBytes, hsumFrames, hroomBytes.within, hroomFrames.within, hroomBytes.kept, hroomFrames.kept, ?_, ?_⟩
  · intro frame encoded hcontrol henc hfits hcount
    have hsize := length_encodeFrame henc
    have hlimit := (limits p).bytes.toNat_lt
    have hword : (UInt64.ofNat encoded.length).toNat = encoded.length := UInt64.toNat_ofNat_of_lt' (by
      have hkept := hroomBytes.kept
      change _ < 2 ^ 64
      omega)
    have hgranted : (c.budget.reserve (UInt64.ofNat encoded.length) true).1.isSome := by
      rw [SendBudget.reserve_iff (by rw [hfixed]; exact hvalid p), hfixed, hsumBytes, hsumFrames, hword]
      have hroom := @SendBudget.Headroom.available _ _ _ _ 1 hroomFrames hcount
      exact ⟨by rw [hsize, frameHeaderSize]; omega, hroomBytes.available hfits, hroom⟩
    have hpayload : ¬ maxPayloadSize < frame.payload.length := by
      simp only [encodeFrame, bind_eq_ok, check_eq_ok] at henc
      obtain ⟨-, -, -, hfit, -⟩ := henc
      exact fun hlt => hfit (.inl hlt)
    rcases SendBudget.reserve_cases c.budget (UInt64.ofNat encoded.length) true with hcase | hcase
    · rw [hcase] at hgranted
      cases hgranted
    · refine ⟨{ held := true, size := UInt64.ofNat encoded.length, control := true }, ?_⟩
      rw [TlsChannel.reserve, if_neg hpayload, hcontrol, ← hsize, hcase]
      simp [henc]
  · intro hleft hcalls
    obtain ⟨-, hwriting, hqueue⟩ := h.ended hleft
    have hnone : c.outstanding = [] := by simp [TlsChannel.outstanding, hcalls, hwriting, hqueue]
    simp only [bytes, frames, hnone, List.filter_nil, List.map_nil, List.sum_nil, List.length_nil] at hsumBytes hsumFrames
    have hzero : c.budget.frames = 0 := UInt64.toNat_inj.1 hsumFrames
    exact ⟨UInt64.toNat_inj.1 hsumBytes, by simp [TlsChannel.pendingOutput, hzero]⟩

/-- With the default limits, when three calls of `enqueue` with an empty frame wait for the lock. -/
theorem budget_of_three_calls : let c := ((run (fun _ => {}) (fun _ => (.client, .reserve {})) 3).ends .client).channel
    c.calls.length = 3 ∧ c.budget.bytes.toNat = 48 := by
  have h := @budget_is_outstanding (fun _ => {}) (fun _ => ⟨by decide, by decide⟩) (fun _ => (.client, .reserve {})) 3 .client
  exact ⟨by decide +kernel, h.1.trans (by decide +kernel)⟩

end TlsLink

end LanLink
