import LanLink.Protocol.StreamDecoder
import LanLink.Transport.SendBudget
/-!
# The TLS channel

`TlsChannel` (`transport/tls.cpp`) carries frames over one TLS connection. Any
thread may call `enqueue`: it reserves room in the send budget, encodes, and
puts the frame in the queue under a lock. One worker runs the loop of `run`: it
writes the frame at the front of the queue piece by piece, reads what has come
in, and hands decoded frames to `on_frame`. The steps here are those between
which another thread can come in, in any order; what OpenSSL answers to a read
or a write is part of a step.
-/
open LanLink.Lib

namespace LanLink

/-- What `encode_frame` writes for a frame it takes. -/
def frameBytes (frame : Frame) : Bytes := frameHeader frame ++ frame.payload

/-- Everything but packets may use the reserve of the budget. -/
def isControl (frame : Frame) : Bool :=
  frame.type ≠ MessageType.networkPacketSend.code && frame.type ≠ MessageType.networkPacketForward.code

structure QueuedFrame where
  bytes : Bytes
  ticket : SendBudget.Ticket
  deriving DecidableEq, Repr

/-- A call of `enqueue` that has its reservation and waits for the lock of the queue. -/
structure EnqueueCall where
  frame : Frame
  item : QueuedFrame
  deriving DecidableEq, Repr

/-- Where the worker is: at the head of the loop, before `SSL_write_ex`, before `SSL_read_ex`, or past the loop. -/
inductive RunStage
  | top | writing | reading | left
  deriving DecidableEq, Repr

structure TlsChannel where
  budget : SendBudget
  calls : List EnqueueCall := []
  queue : List QueuedFrame := []
  writing : Option QueuedFrame := none
  offset : ℕ := 0
  decoder : FrameStreamDecoder := ⟨[], 0, FrameStreamDecoder.inBounds_nil⟩
  stopping : Bool := false
  finished : Bool := false
  stage : RunStage := .top
  sentBytes : UInt64 := 0
  receivedBytes : UInt64 := 0
  deriving Repr

/-- `SSL_write_ex`: a part of what it was given, nothing for now, or a broken connection. -/
inductive SslWrite
  | wrote (transferred : ℕ)
  | retry
  | failed
  deriving DecidableEq, Repr

/-- `SSL_read_ex`: up to `transferred` bytes that have come in, nothing for now, or a broken connection. `on_frame` may
throw at one of the frames that are decoded from them. -/
inductive SslRead
  | got (transferred : ℕ) (throwsAt : Option ℕ)
  | retry
  | failed
  deriving DecidableEq, Repr


namespace TlsChannel

/-- The first half of `enqueue`. -/
def reserve (c : TlsChannel) (frame : Frame) : TlsChannel :=
  if maxPayloadSize < frame.payload.length then c
  else match c.budget.reserve (UInt64.ofNat (frameHeaderSize + frame.payload.length)) (isControl frame) with
    | (none, budget) => { c with budget }
    | (some ticket, budget) =>
      match encodeFrame frame with
      | .error _ => { c with budget := budget.release ticket }
      | .ok bytes => { c with budget, calls := c.calls ++ [⟨frame, ⟨bytes, ticket⟩⟩] }

/-- The second half of a call of `enqueue`, with the frame if the call returns true. -/
def push (c : TlsChannel) (call : ℕ) : TlsChannel × List Frame :=
  match c.calls[call]? with
  | none => (c, [])
  | some x =>
    let calls := c.calls.eraseIdx call
    if c.stopping ∨ c.finished then ({ c with calls, budget := c.budget.release x.item.ticket }, [])
    else ({ c with calls, queue := c.queue ++ [x.item] }, [x.frame])

def stop (c : TlsChannel) : TlsChannel := { c with stopping := true }

def releaseAll (b : SendBudget) (items : List QueuedFrame) : SendBudget :=
  items.foldl (fun b x => b.release x.ticket) b

/-- What follows the loop of `run`. -/
def leave (c : TlsChannel) : TlsChannel :=
  { c with
    stopping := true, finished := true, stage := .left
    budget := releaseAll c.budget (c.writing.toList ++ c.queue)
    writing := none, queue := [], offset := 0 }

/-- The head of the loop: go on, and take the next frame if none is being written. -/
def check (c : TlsChannel) (keepRunning : Bool) : TlsChannel :=
  if c.stopping ∨ ¬ keepRunning then c.leave
  else match c.writing, c.queue with
    | some _, _ => { c with stage := .writing }
    | none, [] => { c with stage := .reading }
    | none, x :: queue => { c with writing := some x, queue, stage := .writing }

/-- `SSL_write_ex` on the rest of the frame, with what it wrote. -/
def write (c : TlsChannel) (x : QueuedFrame) : SslWrite → TlsChannel × Bytes
  | .wrote transferred =>
    let bytes := (x.bytes.drop c.offset).take transferred
    let sentBytes := c.sentBytes + UInt64.ofNat bytes.length
    let offset := c.offset + bytes.length
    -- the ticket is given back with the frame, and the loop goes on to read
    if offset = x.bytes.length then
      ({ c with sentBytes, writing := none, offset := 0, budget := c.budget.release x.ticket, stage := .reading }, bytes)
    else ({ c with sentBytes, offset, stage := .top }, bytes)
  | .retry => ({ c with stage := .top }, [])
  | .failed => (c.leave, [])

/-- `SSL_read_ex` when `incoming` has come in, with the bytes it took and the frames that went to `on_frame`. -/
def read (c : TlsChannel) (incoming : Bytes) : SslRead → TlsChannel × Bytes × List Frame
  | .got transferred throwsAt =>
    let chunk := incoming.take (min transferred 16384)
    if chunk = [] then ({ c with stage := .top }, [], [])
    else
      let c := { c with receivedBytes := c.receivedBytes + UInt64.ofNat chunk.length }
      match c.decoder.push chunk with
      | .error _ => (c.leave, chunk, [])
      | .ok (decoder, frames) =>
        match throwsAt with
        | none => ({ c with decoder, stage := .top }, chunk, frames)
        | some i =>
          if i < frames.length then ({ c with decoder }.leave, chunk, frames.take (i + 1))
          else ({ c with decoder, stage := .top }, chunk, frames)
  | .retry => ({ c with stage := .top }, [], [])
  | .failed => (c.leave, [], [])

/-- `pending_output`. -/
def pendingOutput (c : TlsChannel) : Bool := c.budget.frames ≠ 0

end TlsChannel

/-! ## A channel and its history -/

inductive TlsEvent
  | reserve (frame : Frame)
  | push (call : ℕ)
  | stop
  | check (keepRunning : Bool)
  | write (result : SslWrite)
  | read (result : SslRead)
  deriving Repr

/-- A channel with what it has done so far: the frames for which `enqueue` returned true, in the order in which they
were queued, the bytes written and read, and the frames handed to `on_frame`. -/
structure TlsStation where
  channel : TlsChannel
  accepted : List Frame := []
  written : Bytes := []
  received : Bytes := []
  delivered : List Frame := []

namespace TlsStation

/-- One step, when `incoming` has come in. Steps of the worker that are not its next do nothing. -/
def step (incoming : Bytes) (s : TlsStation) : TlsEvent → TlsStation
  | .reserve frame => { s with channel := s.channel.reserve frame }
  | .push call =>
    let r := s.channel.push call
    { s with channel := r.1, accepted := s.accepted ++ r.2 }
  | .stop => { s with channel := s.channel.stop }
  | .check keepRunning =>
    if s.channel.stage = .top then { s with channel := s.channel.check keepRunning } else s
  | .write result =>
    match s.channel.stage, s.channel.writing with
    | .writing, some x =>
      let r := s.channel.write x result
      { s with channel := r.1, written := s.written ++ r.2 }
    | _, _ => s
  | .read result =>
    if s.channel.stage = .reading then
      let r := s.channel.read incoming result
      { s with channel := r.1, received := s.received ++ r.2.1, delivered := s.delivered ++ r.2.2 }
    else s

end TlsStation

/-! ## What a step does -/

theorem encodeFrame_eq_ok {frame : Frame} {bytes : Bytes} (h : encodeFrame frame = .ok bytes) : bytes = frameBytes frame := by
  simp only [encodeFrame, bind_eq_ok, Except.ok.injEq] at h
  obtain ⟨-, -, -, -, rfl⟩ := h
  rfl

theorem length_encodeFrame {frame : Frame} {bytes : Bytes} (h : encodeFrame frame = .ok bytes) :
    bytes.length = frameHeaderSize + frame.payload.length := by
  rw [encodeFrame_eq_ok h]
  simp [frameBytes, frameHeader, frameMagic, frameHeaderSize]
  omega

namespace TlsChannel
variable {c : TlsChannel}

/-- The bytes that are still to be written. -/
def unsent (c : TlsChannel) : Bytes := c.writing.elim [] (·.bytes.drop c.offset) ++ (c.queue.map (·.bytes)).flatten

/-- What the first half of a call of `enqueue` that returns false leaves of the budget. -/
inductive Declined (b : SendBudget) : SendBudget → Prop
  | unasked : Declined b b
  | refused : Declined b { b with rejected := b.rejected + 1 }
  | returned {size : UInt64} {control : Bool} {ticket : SendBudget.Ticket} {budget : SendBudget}
    (h : b.reserve size control = (some ticket, budget)) : Declined b (budget.release ticket)

/-- The first half of `enqueue` ends at once, or with a reservation for an encoded frame. -/
theorem reserve_cases (c : TlsChannel) (frame : Frame) :
    (∃ budget, Declined c.budget budget ∧ c.reserve frame = { c with budget }) ∨
    ∃ budget ticket bytes, encodeFrame frame = .ok bytes ∧
      c.budget.reserve (UInt64.ofNat bytes.length) (isControl frame) = (some ticket, budget) ∧
      c.reserve frame = { c with budget, calls := c.calls ++ [⟨frame, ⟨bytes, ticket⟩⟩] } := by
  unfold reserve
  split
  · exact .inl ⟨c.budget, .unasked, rfl⟩
  · split
    · rename_i budget hreserve
      rcases SendBudget.reserve_cases c.budget (UInt64.ofNat (frameHeaderSize + frame.payload.length)) (isControl frame)
        with hcase | hcase
      all_goals
        rw [hcase] at hreserve
        cases hreserve
      exact .inl ⟨_, .refused, rfl⟩
    · rename_i ticket budget hreserve
      cases henc : encodeFrame frame with
      | error e => exact .inl ⟨_, .returned hreserve, rfl⟩
      | ok bytes => exact .inr ⟨budget, ticket, bytes, rfl, by rw [length_encodeFrame henc, hreserve], rfl⟩

/-- The head of the loop leaves, or goes on with nothing changed but where the next frame is. -/
theorem check_cases (c : TlsChannel) (keepRunning : Bool) :
    c.check keepRunning = c.leave ∨
    (∃ stage, stage ≠ .left ∧ c.check keepRunning = { c with stage }) ∨
    ∃ x queue, c.writing = none ∧ c.queue = x :: queue ∧
      c.check keepRunning = { c with writing := some x, queue, stage := .writing } := by
  unfold check
  split
  · exact .inl rfl
  · split
    · exact .inr (.inl ⟨.writing, by decide, rfl⟩)
    · exact .inr (.inl ⟨.reading, by decide, rfl⟩)
    · rename_i x queue hwriting hqueue
      exact .inr (.inr ⟨x, queue, hwriting, hqueue, rfl⟩)

end TlsChannel

/-! ## The stream that is written -/

/-- Frames as they follow each other on the connection. -/
abbrev wire (frames : List Frame) : Bytes := Scanner.wire frameBytes frames

namespace TlsStation
variable {s : TlsStation} {incoming : Bytes}

/-- What is written is the front of the stream of accepted frames; while the worker runs, the rest of it is what the
worker and the queue hold. -/
structure Sends (s : TlsStation) : Prop where
  start : s.channel.writing = none → s.channel.offset = 0
  called : ∀ call ∈ s.channel.calls, encodeFrame call.frame = .ok call.item.bytes
  encodes : ∀ frame ∈ s.accepted, encodeFrame frame = .ok (frameBytes frame)
  sent : s.written <+: wire s.accepted
  unsent : s.channel.stage ≠ .left → s.written ++ s.channel.unsent = wire s.accepted

theorem Sends.leave (h : s.Sends) : Sends { s with channel := s.channel.leave } where
  start _ := rfl
  called := h.called
  encodes := h.encodes
  sent := h.sent
  unsent hstage := absurd rfl hstage

theorem Sends.reserve (h : s.Sends) (frame : Frame) : Sends { s with channel := s.channel.reserve frame } := by
  rcases s.channel.reserve_cases frame with ⟨budget, -, heq⟩ | ⟨budget, ticket, bytes, henc, -, heq⟩
  · rw [heq]
    exact ⟨h.start, h.called, h.encodes, h.sent, h.unsent⟩
  · rw [heq]
    refine ⟨h.start, ?_, h.encodes, h.sent, h.unsent⟩
    intro call hcall
    rcases List.mem_append.1 hcall with hcall | hcall
    · exact h.called call hcall
    · rw [List.mem_singleton.1 hcall]
      exact henc

theorem Sends.push (h : s.Sends) (call : ℕ) :
    Sends { s with channel := (s.channel.push call).1, accepted := s.accepted ++ (s.channel.push call).2 } := by
  unfold TlsChannel.push
  split
  · simpa using h
  · rename_i x hx
    have hcalled (y : EnqueueCall) (hy : y ∈ s.channel.calls.eraseIdx call) : encodeFrame y.frame = .ok y.item.bytes :=
      h.called y (List.mem_of_mem_eraseIdx hy)
    split
    · simp only [List.append_nil]
      exact ⟨h.start, hcalled, h.encodes, h.sent, h.unsent⟩
    · have henc := h.called x (List.mem_of_getElem? hx)
      have hbytes := encodeFrame_eq_ok henc
      refine ⟨h.start, hcalled, ?_, ?_, ?_⟩
      · intro frame hframe
        rcases List.mem_append.1 hframe with hframe | hframe
        · exact h.encodes frame hframe
        · rw [List.mem_singleton.1 hframe, ← hbytes, henc]
      · rw [wire, Scanner.wire_append]
        exact h.sent.trans (List.prefix_append _ _)
      · intro hstage
        have hunsent := h.unsent hstage
        rw [wire, Scanner.wire_append, ← wire, ← hunsent]
        simp [TlsChannel.unsent, hbytes]

theorem Sends.check (h : s.Sends) (hstage : s.channel.stage ≠ .left) (keepRunning : Bool) :
    Sends { s with channel := s.channel.check keepRunning } := by
  rcases s.channel.check_cases keepRunning with heq | ⟨stage, -, heq⟩ | ⟨x, queue, hwriting, hqueue, heq⟩
  · rw [heq]
    exact h.leave
  · rw [heq]
    exact ⟨h.start, h.called, h.encodes, h.sent, fun _ => h.unsent hstage⟩
  · rw [heq]
    refine ⟨fun hnone => ?_, h.called, h.encodes, h.sent, fun _ => ?_⟩
    · cases hnone
    · -- the next frame is written from its first byte
      rw [← h.unsent hstage]
      simp [TlsChannel.unsent, hwriting, hqueue, h.start hwriting]

theorem Sends.write (h : s.Sends) (hstage : s.channel.stage ≠ .left) {x : QueuedFrame} (hx : s.channel.writing = some x)
    (result : SslWrite) :
    Sends { s with channel := (s.channel.write x result).1, written := s.written ++ (s.channel.write x result).2 } := by
  have hunsent := h.unsent hstage
  rw [TlsChannel.unsent, hx, Option.elim_some] at hunsent
  cases result with
  | wrote transferred =>
    have hrest := List.prefix_iff_eq_append.1 (List.take_prefix transferred (x.bytes.drop s.channel.offset))
    rw [List.drop_drop] at hrest
    simp only [TlsChannel.write]
    obtain ⟨out, hout⟩ : ∃ out, out = (x.bytes.drop s.channel.offset).take transferred := ⟨_, rfl⟩
    rw [← hout] at hrest ⊢
    have hsent : s.written ++ out <+: wire s.accepted := by
      rw [← hunsent, ← hrest, List.append_assoc]
      exact (List.prefix_append_right_inj _).2 (List.prefix_append _ _)
    split
    · rename_i hdone
      rw [hdone, List.drop_length, List.append_nil] at hrest
      refine ⟨fun _ => rfl, h.called, h.encodes, hsent, fun _ => ?_⟩
      rw [← hunsent, ← hrest]
      simp [TlsChannel.unsent]
    · refine ⟨fun hnone => ?_, h.called, h.encodes, hsent, fun _ => ?_⟩
      · rw [hx] at hnone
        cases hnone
      · rw [← hunsent, ← hrest]
        simp [TlsChannel.unsent, hx]
  | retry =>
    simp only [TlsChannel.write, List.append_nil]
    exact ⟨h.start, h.called, h.encodes, h.sent, fun _ => h.unsent hstage⟩
  | failed =>
    simp only [TlsChannel.write, List.append_nil]
    exact h.leave

/-- Reading leaves alone what is to be sent. -/
theorem Sends.read (h : s.Sends) (hstage : s.channel.stage ≠ .left) (incoming : Bytes) (result : SslRead) {received : Bytes}
    {delivered : List Frame} : Sends { s with channel := (s.channel.read incoming result).1, received, delivered } := by
  have hkept (c : TlsChannel) (hwriting : c.writing = s.channel.writing) (hoffset : c.offset = s.channel.offset)
      (hqueue : c.queue = s.channel.queue) (hcalls : c.calls = s.channel.calls) :
      Sends { s with channel := c, received, delivered } := by
    refine ⟨?_, ?_, h.encodes, h.sent, fun _ => ?_⟩
    · rw [hwriting, hoffset]
      exact h.start
    · rw [hcalls]
      exact h.called
    · rw [← h.unsent hstage]
      simp [TlsChannel.unsent, hwriting, hoffset, hqueue]
  have hleave (c : TlsChannel) (hcalls : c.calls = s.channel.calls) : Sends { s with channel := c.leave, received, delivered } := by
    refine ⟨fun _ => rfl, ?_, h.encodes, h.sent, fun hleft => absurd rfl hleft⟩
    rw [show c.leave.calls = c.calls from rfl, hcalls]
    exact h.called
  cases result with
  | got transferred throwsAt =>
    simp only [TlsChannel.read]
    split
    · exact hkept _ rfl rfl rfl rfl
    · split
      · exact hleave _ rfl
      · split
        · exact hkept _ rfl rfl rfl rfl
        · split
          · exact hleave _ rfl
          · exact hkept _ rfl rfl rfl rfl
  | retry => exact hkept _ rfl rfl rfl rfl
  | failed => exact hleave _ rfl

/-- What one step keeps of the stream that is written. -/
theorem Sends.step (h : s.Sends) (incoming : Bytes) (e : TlsEvent) : (s.step incoming e).Sends := by
  cases e with
  | reserve frame => exact h.reserve frame
  | push call => exact h.push call
  | stop => exact ⟨h.start, h.called, h.encodes, h.sent, h.unsent⟩
  | check keepRunning =>
    simp only [TlsStation.step]
    split
    · rename_i hstage
      exact h.check (by simp [hstage]) keepRunning
    · exact h
  | write result =>
    simp only [TlsStation.step]
    split
    · rename_i x hstage hx
      exact h.write (by simp [hstage]) hx result
    · exact h
  | read result =>
    simp only [TlsStation.step]
    split
    · rename_i hstage
      exact h.read (by simp [hstage]) incoming result
    · exact h

/-! ## The frames that are read -/

/-- What is handed to `on_frame` is what the bytes read decode to; past the loop, the front of it. -/
structure Receives (s : TlsStation) : Prop where
  waiting : s.channel.stage ≠ .left → s.channel.decoder.Waiting
  decoded : s.channel.stage ≠ .left → decodeFrames s.received = .ok (s.delivered, s.channel.decoder.unread)
  front : ∀ {frames : List Frame} {rest : Bytes}, decodeFrames s.received = .ok (frames, rest) → s.delivered <+: frames

theorem Receives.of_decoded (hwaiting : s.channel.decoder.Waiting)
    (hdecoded : decodeFrames s.received = .ok (s.delivered, s.channel.decoder.unread)) : s.Receives where
  waiting _ := hwaiting
  decoded _ := hdecoded
  front h := by
    rw [hdecoded] at h
    cases h
    exact List.prefix_rfl

/-- A step that reads nothing. -/
theorem Receives.congr (h : s.Receives) {c : TlsChannel} (hdecoder : c.decoder = s.channel.decoder)
    (hstage : c.stage ≠ .left → s.channel.stage ≠ .left) {accepted : List Frame} {written : Bytes} :
    Receives { s with channel := c, accepted, written } where
  waiting hc := by rw [hdecoder]; exact h.waiting (hstage hc)
  decoded hc := by rw [hdecoder]; exact h.decoded (hstage hc)
  front := h.front

/-- Past the loop the decoder is not used. -/
theorem Receives.leave {c : TlsChannel} {accepted delivered : List Frame} {written received : Bytes}
    (hfront : ∀ {frames rest}, decodeFrames received = .ok (frames, rest) → delivered <+: frames) :
    Receives { channel := c.leave, accepted, written, received, delivered } where
  waiting hstage := absurd rfl hstage
  decoded hstage := absurd rfl hstage
  front := hfront

/-- More bytes decode to what the decoder makes of them, after what was there. -/
theorem Receives.more (h : s.Receives) (hstage : s.channel.stage ≠ .left) (chunk : Bytes) :
    decodeFrames (s.received ++ chunk) =
      ((s.channel.decoder.push chunk).map FrameStreamDecoder.view).map (Scanner.prepend s.delivered) := by
  have happend := frameScanner.drain_append s.received chunk
  change decodeFrames _ = decodeFrames _ >>= fun r => (decodeFrames (r.2 ++ chunk)).map (Scanner.prepend r.1) at happend
  rw [happend, h.decoded hstage, ok_bind, FrameStreamDecoder.view_push (h.waiting hstage)]

theorem Receives.read (h : s.Receives) (hstage : s.channel.stage ≠ .left) (incoming : Bytes) (result : SslRead) :
    Receives { s with
      channel := (s.channel.read incoming result).1
      received := s.received ++ (s.channel.read incoming result).2.1
      delivered := s.delivered ++ (s.channel.read incoming result).2.2 } := by
  cases result with
  | got transferred throwsAt =>
    simp only [TlsChannel.read]
    obtain ⟨chunk, hchunk⟩ : ∃ chunk, chunk = incoming.take (min transferred 16384) := ⟨_, rfl⟩
    rw [← hchunk]
    have hmore := h.more hstage chunk
    split
    · simp only [List.append_nil]
      exact .of_decoded (h.waiting hstage) (h.decoded hstage)
    · split
      · -- a broken stream delivers nothing of the last piece
        rename_i e hpush
        refine .leave fun hdecode => ?_
        rw [hmore, hpush] at hdecode
        cases hdecode
      · rename_i decoder frames hpush
        rw [hpush] at hmore
        have hdecoded : decodeFrames (s.received ++ chunk) = .ok (s.delivered ++ frames, decoder.unread) := hmore
        have hwaiting : decoder.Waiting := by
          refine FrameStreamDecoder.waiting_of_view [] (s.channel.decoder.unread ++ chunk) ?_ hpush
          rw [FrameStreamDecoder.view_push (h.waiting hstage), Scanner.prepend_nil, Except.map_id]
          rfl
        split
        · exact .of_decoded hwaiting hdecoded
        · split
          · refine .leave fun hdecode => ?_
            rw [hdecoded] at hdecode
            cases hdecode
            exact (List.prefix_append_right_inj _).2 (List.take_prefix _ _)
          · exact .of_decoded hwaiting hdecoded
  | retry =>
    simp only [TlsChannel.read, List.append_nil]
    exact .of_decoded (h.waiting hstage) (h.decoded hstage)
  | failed =>
    simp only [TlsChannel.read, List.append_nil]
    exact .leave h.front

/-- What one step keeps of the frames that are read. -/
theorem Receives.step (h : s.Receives) (incoming : Bytes) (e : TlsEvent) : (s.step incoming e).Receives := by
  have hkept (c : TlsChannel) (accepted : List Frame) (written : Bytes) (hdecoder : c.decoder = s.channel.decoder)
      (hstage : c.stage ≠ .left → s.channel.stage ≠ .left) : Receives { s with channel := c, accepted, written } :=
    h.congr hdecoder hstage
  cases e with
  | reserve frame =>
    simp only [TlsStation.step]
    rcases s.channel.reserve_cases frame with ⟨budget, -, heq⟩ | ⟨budget, ticket, bytes, -, -, heq⟩
    · rw [heq]
      exact hkept _ _ _ rfl id
    · rw [heq]
      exact hkept _ _ _ rfl id
  | push call =>
    simp only [TlsStation.step, TlsChannel.push]
    split
    · exact hkept _ _ _ rfl id
    · split
      · exact hkept _ _ _ rfl id
      · exact hkept _ _ _ rfl id
  | stop => exact hkept _ _ _ rfl id
  | check keepRunning =>
    simp only [TlsStation.step]
    split
    · rename_i hstage
      rcases s.channel.check_cases keepRunning with heq | ⟨stage, -, heq⟩ | ⟨x, queue, -, -, heq⟩
      · rw [heq]
        exact .leave h.front
      · rw [heq]
        exact hkept _ _ _ rfl fun _ => by simp [hstage]
      · rw [heq]
        exact hkept _ _ _ rfl fun _ => by simp [hstage]
    · exact h
  | write result =>
    simp only [TlsStation.step]
    split
    · rename_i x hstage hx
      cases result with
      | wrote transferred =>
        simp only [TlsChannel.write]
        split
        · exact hkept _ _ _ rfl fun _ => by simp [hstage]
        · exact hkept _ _ _ rfl fun _ => by simp [hstage]
      | retry => exact hkept _ _ _ rfl fun _ => by simp [hstage]
      | failed =>
        simp only [TlsChannel.write]
        exact .leave h.front
    · exact h
  | read result =>
    simp only [TlsStation.step]
    split
    · rename_i hstage
      exact h.read (by simp [hstage]) incoming result
    · exact h

/-- Channels at their start. -/
theorem sends_start (limits : SendQueueLimits) : Sends { channel := { budget := { limits } } } where
  start _ := rfl
  called := by simp
  encodes := by simp
  sent := List.prefix_rfl
  unsent _ := rfl

theorem receives_start (limits : SendQueueLimits) : Receives { channel := { budget := { limits } } } :=
  .of_decoded FrameStreamDecoder.waiting_fresh (Scanner.drain_more frameScanner.scan_nil)

end TlsStation

/-! ## The budget -/

namespace SendBudget

theorem total_perm (f : Ticket → ℕ) {tickets tickets' : List Ticket} (h : tickets.Perm tickets') :
    total f tickets = total f tickets' := (h.map f).sum_eq

theorem Sound.perm {limits : SendQueueLimits} {budget : SendBudget} {tickets tickets' : List Ticket}
    (h : Sound limits { budget, tickets }) (hperm : tickets.Perm tickets') : Sound limits { budget, tickets := tickets' } := by
  obtain ⟨hfixed, hbytes, hframes, hroomBytes, hroomFrames⟩ := h
  simp only [total_perm _ hperm] at hbytes hframes hroomBytes hroomFrames
  exact ⟨hfixed, hbytes, hframes, hroomBytes, hroomFrames⟩

/-- A ticket in the middle is given back. -/
theorem Sound.release {limits : SendQueueLimits} {budget : SendBudget} {front rest : List Ticket} {t : Ticket}
    (h : Sound limits { budget, tickets := front ++ t :: rest }) :
    Sound limits { budget := budget.release t, tickets := front ++ rest } := by
  refine h.released ⟨t, rfl, fun f _ => ?_⟩
  simp only [total, List.map_append, List.map_cons, List.sum_append, List.sum_cons]
  omega

end SendBudget

namespace TlsChannel
variable {c : TlsChannel} {limits : SendQueueLimits}

/-- What holds a reservation: calls of `enqueue`, the frame that is being written, and the queue. -/
def outstanding (c : TlsChannel) : List QueuedFrame := c.calls.map (·.item) ++ (c.writing.toList ++ c.queue)

def tickets (c : TlsChannel) : List SendBudget.Ticket := c.outstanding.map (·.ticket)

/-- The budget records what is outstanding, and past the loop of `run` only calls of `enqueue` are. -/
structure Accounts (limits : SendQueueLimits) (c : TlsChannel) : Prop where
  sound : SendBudget.Sound limits { budget := c.budget, tickets := c.tickets }
  sized : ∀ x ∈ c.outstanding, x.ticket.held = true ∧ x.ticket.size.toNat = x.bytes.length
  ended : c.stage = .left → c.stopping = true ∧ c.writing = none ∧ c.queue = []

theorem accounts_start (hvalid : SendBudget.ValidLimits limits) : Accounts limits { budget := { limits } } where
  sound := SendBudget.sound_create hvalid
  sized := by simp [outstanding]
  ended hleft := by cases hleft

/-- Every reservation of a list is given back. -/
theorem sound_releaseAll {budget : SendBudget} {front : List SendBudget.Ticket} {items : List QueuedFrame}
    (h : SendBudget.Sound limits { budget, tickets := front ++ items.map (·.ticket) }) :
    SendBudget.Sound limits { budget := releaseAll budget items, tickets := front } := by
  induction items generalizing budget with
  | nil => simpa [releaseAll] using h
  | cons x items ih =>
    apply ih
    exact h.release

theorem Accounts.leave (h : Accounts limits c) : Accounts limits c.leave where
  sound := by
    have hsound := h.sound
    rw [tickets, outstanding, List.map_append] at hsound
    simpa [tickets, outstanding, TlsChannel.leave] using sound_releaseAll hsound
  sized x hx := h.sized x (by
    simp only [outstanding, TlsChannel.leave, Option.toList_none, List.append_nil] at hx
    exact List.mem_append_left _ hx)
  ended _ := ⟨rfl, rfl, rfl⟩

theorem Accounts.declined (hvalid : SendBudget.ValidLimits limits) (h : Accounts limits c) {budget : SendBudget}
    (hdeclined : Declined c.budget budget) : Accounts limits { c with budget } := by
  refine ⟨?_, h.sized, h.ended⟩
  cases hdeclined with
  | unasked => exact h.sound
  | refused =>
    have hsound := h.sound
    exact ⟨hsound.fixed, hsound.bytes, hsound.frames, hsound.roomBytes, hsound.roomFrames⟩
  | returned hreserve =>
    simpa [tickets, outstanding] using (h.sound.reserved hvalid hreserve).release

theorem Accounts.reserve (hvalid : SendBudget.ValidLimits limits) (h : Accounts limits c) (frame : Frame) :
    Accounts limits (c.reserve frame) := by
  rcases c.reserve_cases frame with ⟨budget, hdeclined, heq⟩ | ⟨budget, ticket, bytes, henc, hreserve, heq⟩
  · rw [heq]
    exact h.declined hvalid hdeclined
  · rw [heq]
    have hperm : (c.tickets ++ [ticket]).Perm
        (tickets { c with budget, calls := c.calls ++ [⟨frame, ⟨bytes, ticket⟩⟩] }) := by
      simp only [tickets, outstanding, List.map_append, List.map_cons, List.map_nil]
      rw [List.append_assoc, List.append_assoc (List.map _ _) [ticket]]
      apply List.Perm.append_left
      exact List.perm_append_comm
    refine ⟨(h.sound.reserved hvalid hreserve).perm hperm, ?_, h.ended⟩
    intro x hx
    have hlength : bytes.length < 2 ^ 64 := by
      simp only [encodeFrame, bind_eq_ok, check_eq_ok, Except.ok.injEq, exists_const] at henc
      obtain ⟨-, hsize, rfl⟩ := henc
      simp only [frameHeader, frameMagic, List.length_append, beBytes_length, List.length_cons, List.length_nil]
      omega
    simp only [outstanding, List.map_append, List.map_cons, List.map_nil, List.mem_append, List.mem_singleton] at hx
    rcases hx with (hx | rfl) | hx
    · exact h.sized x (List.mem_append_left _ hx)
    · obtain ⟨rfl, -⟩ := SendBudget.reserve_some hreserve
      refine ⟨rfl, ?_⟩
      exact UInt64.toNat_ofNat_of_lt' hlength
    · exact h.sized x (List.mem_append_right _ (List.mem_append.2 hx))

theorem Accounts.push (h : Accounts limits c) (call : ℕ) : Accounts limits (c.push call).1 := by
  unfold TlsChannel.push
  split
  · exact h
  · rename_i x hx
    -- the calls are one more than those that are left
    have hperm : c.calls.Perm (x :: c.calls.eraseIdx call) := by
      obtain ⟨hlt, hget⟩ := List.getElem?_eq_some_iff.1 hx
      rw [← hget]
      exact (List.getElem_cons_eraseIdx_perm hlt).symm
    have hsized (y : QueuedFrame) (hy : y ∈ (c.calls.eraseIdx call).map (·.item)) :
        y.ticket.held = true ∧ y.ticket.size.toNat = y.bytes.length :=
      h.sized y (List.mem_append_left _ ((hperm.map (·.item)).symm.subset (List.mem_cons_of_mem _ hy)))
    have hitem : x.item.ticket.held = true ∧ x.item.ticket.size.toNat = x.item.bytes.length :=
      h.sized x.item (List.mem_append_left _ ((hperm.map (·.item)).symm.subset List.mem_cons_self))
    have htickets : c.tickets.Perm ([] ++ x.item.ticket :: ((c.calls.eraseIdx call).map (·.item.ticket) ++
        (c.writing.toList ++ c.queue).map (·.ticket))) := by
      simp only [tickets, outstanding, List.map_append, List.map_map, List.nil_append]
      rw [← List.cons_append]
      apply List.Perm.append_right
      exact hperm.map fun y => y.item.ticket
    have hsound := h.sound.perm htickets
    split
    · refine ⟨?_, ?_, h.ended⟩
      · simpa [tickets, outstanding, Function.comp_def] using hsound.release
      · intro y hy
        rcases List.mem_append.1 hy with hy | hy
        · exact hsized y hy
        · exact h.sized y (List.mem_append_right _ hy)
    · rename_i hrunning
      refine ⟨hsound.perm ?_, ?_, fun hleft => absurd (.inl (h.ended hleft).1) hrunning⟩
      · simp only [tickets, outstanding, List.map_append, List.map_cons, List.map_nil, List.map_map, List.nil_append]
        refine (List.perm_append_singleton _ _).symm.trans (List.Perm.of_eq ?_)
        simp
      · intro y hy
        simp only [outstanding, List.mem_append, List.mem_singleton] at hy
        rcases hy with hy | hy | hy | rfl
        · exact hsized y hy
        · exact h.sized y (List.mem_append_right _ (List.mem_append_left _ hy))
        · exact h.sized y (List.mem_append_right _ (List.mem_append_right _ hy))
        · exact hitem

theorem Accounts.check (h : Accounts limits c) (keepRunning : Bool) :
    Accounts limits (c.check keepRunning) := by
  rcases c.check_cases keepRunning with heq | ⟨stage, hnext, heq⟩ | ⟨x, queue, hwriting, hqueue, heq⟩
  · rw [heq]
    exact h.leave
  · rw [heq]
    exact ⟨h.sound, h.sized, fun hleft => absurd hleft hnext⟩
  · rw [heq]
    have hsame : outstanding { c with writing := some x, queue, stage := .writing } = c.outstanding := by
      simp [outstanding, hwriting, hqueue]
    refine ⟨?_, ?_, fun hleft => by cases hleft⟩
    · rw [tickets, hsame]
      exact h.sound
    · rw [hsame]
      exact h.sized

theorem Accounts.write (h : Accounts limits c) {x : QueuedFrame} (hx : c.writing = some x) (result : SslWrite) :
    Accounts limits (c.write x result).1 := by
  cases result with
  | wrote transferred =>
    simp only [TlsChannel.write]
    split
    · have hsound := h.sound
      simp only [tickets, outstanding, hx, Option.toList_some, List.map_append, List.map_cons, List.map_nil] at hsound
      refine ⟨by simpa [tickets, outstanding] using hsound.release, ?_, fun hleft => by cases hleft⟩
      intro y hy
      apply h.sized y
      simp only [outstanding, hx, Option.toList_some, Option.toList_none, List.nil_append, List.mem_append] at hy ⊢
      exact hy.imp_right .inr
    · exact ⟨h.sound, h.sized, fun hleft => by cases hleft⟩
  | retry => exact ⟨h.sound, h.sized, fun hleft => by cases hleft⟩
  | failed => exact h.leave

theorem Accounts.read (h : Accounts limits c) (incoming : Bytes) (result : SslRead) :
    Accounts limits (c.read incoming result).1 := by
  have hkept (c' : TlsChannel) (hbudget : c'.budget = c.budget) (hout : c'.outstanding = c.outstanding)
      (hstage : c'.stage ≠ .left) : Accounts limits c' := by
    refine ⟨?_, ?_, fun hleft => absurd hleft hstage⟩
    · rw [tickets, hout, hbudget]
      exact h.sound
    · rw [hout]
      exact h.sized
  cases result with
  | got transferred throwsAt =>
    simp only [TlsChannel.read]
    split
    · exact hkept _ rfl rfl fun hleft => by cases hleft
    · split
      · exact Accounts.leave ⟨h.sound, h.sized, h.ended⟩
      · split
        · exact hkept _ rfl rfl fun hleft => by cases hleft
        · split
          · exact Accounts.leave ⟨h.sound, h.sized, h.ended⟩
          · exact hkept _ rfl rfl fun hleft => by cases hleft
  | retry => exact hkept _ rfl rfl fun hleft => by cases hleft
  | failed => exact h.leave

theorem Accounts.step (hvalid : SendBudget.ValidLimits limits) {s : TlsStation} (h : Accounts limits s.channel)
    (incoming : Bytes) (e : TlsEvent) : Accounts limits (s.step incoming e).channel := by
  cases e with
  | reserve frame => exact h.reserve hvalid frame
  | push call => exact h.push call
  | stop => exact ⟨h.sound, h.sized, fun hleft => ⟨rfl, (h.ended hleft).2⟩⟩
  | check keepRunning =>
    simp only [TlsStation.step]
    split
    · exact h.check keepRunning
    · exact h
  | write result =>
    simp only [TlsStation.step]
    split
    · rename_i x hstage hx
      exact h.write hx result
    · exact h
  | read result =>
    simp only [TlsStation.step]
    split
    · exact h.read incoming result
    · exact h

end TlsChannel

end LanLink
