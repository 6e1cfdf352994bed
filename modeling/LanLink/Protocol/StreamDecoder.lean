import LanLink.Protocol.Frames
/-!
# The stream decoder

`FrameStreamDecoder` (`protocol/stream_decoder.cpp`) takes a stream of frames in
pieces. It keeps undecoded bytes in a buffer with a read offset, fills the
buffer up to the size of the largest frame, and decodes what it can. However a
stream is cut, it gives the frames of the whole stream.
-/
open LanLink.Lib

namespace LanLink

structure FrameStreamDecoder where
  buffer : Bytes := []
  readOffset : ℕ := 0
  inBounds : readOffset ≤ buffer.length := by decide
  deriving DecidableEq, Repr

def maximumFrameSize : ℕ := frameHeaderSize + maxPayloadSize

def exceedsWireSize : Exn := .runtimeError "protocol frame exceeds the maximum wire size"

namespace FrameStreamDecoder

theorem inBounds_nil : 0 ≤ ([] : Bytes).length := Nat.le_refl 0

def bufferedSize (d : FrameStreamDecoder) : ℕ := d.buffer.length - d.readOffset

/-- The bytes not decoded yet. -/
def unread (d : FrameStreamDecoder) : Bytes := d.buffer.drop d.readOffset

/-- Frames are read up to `consumed` bytes further on. -/
def advance (d : FrameStreamDecoder) (consumed : ℕ) (h : consumed ≤ d.unread.length) : FrameStreamDecoder where
  buffer := d.buffer
  readOffset := d.readOffset + consumed
  inBounds := by
    have hin := d.inBounds
    rw [unread, List.length_drop] at h
    omega

/-- Put bytes at the end of the buffer. -/
def fill (d : FrameStreamDecoder) (bytes : Bytes) : FrameStreamDecoder where
  buffer := d.buffer ++ bytes
  readOffset := d.readOffset
  inBounds := by
    rw [List.length_append]
    exact Nat.le_add_right_of_le d.inBounds

/-- The inner loop of `push`: frames are taken off the buffer until more bytes are needed. -/
def decodeBuffered (d : FrameStreamDecoder) (frames : List Frame) : Except Exn (FrameStreamDecoder × List Frame) :=
  if d.readOffset < d.buffer.length then
    match h : (decodeFrame d.unread).toScan with
    | .item frame consumed => decodeBuffered (d.advance consumed (frameScanner.size_le h)) (frames ++ [frame])
    | .fail e => .error e
    | .more => .ok (d, frames)
  else .ok (d, frames)
termination_by d.buffer.length - d.readOffset
decreasing_by
  have hpos := frameScanner.size_pos h
  simp only [advance]
  omega

/-- A buffer that was read to its end is emptied; one read past its middle is moved to the front. -/
def compact (d : FrameStreamDecoder) : FrameStreamDecoder :=
  if d.readOffset = d.buffer.length then {}
  else if d.buffer.length / 2 < d.readOffset then { buffer := d.buffer.drop d.readOffset, readOffset := 0, inBounds := Nat.zero_le _ }
  else d

/-- The outer loop of `push`, with the bytes it has not taken yet. -/
def pushLoop (d : FrameStreamDecoder) (bytes : Bytes) (frames : List Frame) :
    Except Exn (FrameStreamDecoder × List Frame) :=
  if hbytes : bytes = [] then .ok (d, frames)
  else
    let available := maximumFrameSize - d.bufferedSize
    if havailable : available = 0 then .error exceedsWireSize
    else
      let count := min available bytes.length
      match decodeBuffered (d.fill (bytes.take count)) frames with
      | .error e => .error e
      | .ok (d, frames) => pushLoop d.compact (bytes.drop count) frames
termination_by bytes.length
decreasing_by
  have hlen : bytes.length ≠ 0 := by simpa using hbytes
  simp only [List.length_drop]
  omega

def push (d : FrameStreamDecoder) (bytes : Bytes) : Except Exn (FrameStreamDecoder × List Frame) := d.pushLoop bytes []

/-- `push` called once for each chunk. The decoder is not used again after a throw. -/
def pushAll (d : FrameStreamDecoder) : List Bytes → Except Exn (FrameStreamDecoder × List Frame)
  | [] => .ok (d, [])
  | chunk :: chunks => do
    let (d, frames) ← d.push chunk
    let (d, more) ← d.pushAll chunks
    .ok (d, frames ++ more)

/-! ## One push -/

theorem length_unread (d : FrameStreamDecoder) : d.unread.length = d.bufferedSize := by
  simp [unread, bufferedSize]

@[simp] theorem unread_advance (d : FrameStreamDecoder) {n : ℕ} (h : n ≤ d.unread.length) :
    (d.advance n h).unread = d.unread.drop n := by
  simp [unread, advance]

@[simp] theorem unread_fill (d : FrameStreamDecoder) (bytes : Bytes) : (d.fill bytes).unread = d.unread ++ bytes := by
  simp only [unread, fill]
  exact List.drop_append_of_le_length d.inBounds

@[simp] theorem unread_compact (d : FrameStreamDecoder) : d.compact.unread = d.unread := by
  unfold compact
  split
  · rename_i h
    simp [unread, h]
  · split
    · simp [unread]
    · rfl

/-- What a caller can see of an outcome: the frames, and the bytes still buffered. -/
def view (r : FrameStreamDecoder × List Frame) : List Frame × Bytes := (r.2, r.1.unread)

/-- The inner loop decodes all it can. -/
theorem view_decodeBuffered (d : FrameStreamDecoder) (frames : List Frame) :
    (d.decodeBuffered frames).map view = (decodeFrames d.unread).map (Scanner.prepend frames) := by
  fun_induction decodeBuffered d frames with
  | case1 d frames hlt frame consumed h ih =>
    have hdrain : decodeFrames d.unread = (decodeFrames (d.unread.drop consumed)).map (Scanner.prepend [frame]) :=
      Scanner.drain_item (s := frameScanner) h
    rw [ih, unread_advance, hdrain]
    cases decodeFrames (d.unread.drop consumed) <;> simp [Except.map]
  | case2 d frames hlt e h =>
    rw [decodeFrames, Scanner.drain_fail h]
    rfl
  | case3 d frames hlt h =>
    rw [decodeFrames, Scanner.drain_more h]
    simp [Except.map, view, Scanner.prepend]
  | case4 d frames hlt =>
    have hnil : d.unread = [] := List.drop_eq_nil_of_le (Nat.le_of_not_lt hlt)
    rw [hnil, decodeFrames, Scanner.drain_more frameScanner.scan_nil]
    simp [Except.map, view, Scanner.prepend, hnil]

/-- A decoder between two pushes: what it has buffered is not a whole frame yet. -/
def Waiting (d : FrameStreamDecoder) : Prop := frameScanner.scan d.unread = .more

theorem waiting_fresh : Waiting {} := frameScanner.scan_nil

theorem Waiting.compact {d : FrameStreamDecoder} (h : d.Waiting) : d.compact.Waiting := by
  rw [Waiting, unread_compact]
  exact h

theorem Waiting.bufferedSize_lt {d : FrameStreamDecoder} (h : d.Waiting) : d.bufferedSize < maximumFrameSize := by
  rw [← length_unread]
  exact decodeFrame_needMoreData (toScan_more.1 h)

/-- Decode a stream of which `count` more bytes are there, then the rest. -/
theorem decodeFrames_split (front bytes : Bytes) (count : ℕ) :
    decodeFrames (front ++ bytes) = decodeFrames (front ++ bytes.take count) >>= fun r =>
      (decodeFrames (r.2 ++ bytes.drop count)).map (Scanner.prepend r.1) := by
  have hsplit := frameScanner.drain_append (front ++ bytes.take count) (bytes.drop count)
  rwa [List.append_assoc, List.take_append_drop] at hsplit

/-- A decoder whose view a whole stream determines is waiting. -/
theorem waiting_of_view {x : Except Exn (FrameStreamDecoder × List Frame)} (frames : List Frame) (bytes : Bytes)
    {more : List Frame} {d : FrameStreamDecoder} (hx : x.map view = (decodeFrames bytes).map (Scanner.prepend frames))
    (h : x = .ok (d, more)) : d.Waiting := by
  rw [h] at hx
  cases hdrain : decodeFrames bytes with
  | error e => simp [hdrain, Except.map] at hx
  | ok r =>
    rw [hdrain] at hx
    have hrest : d.unread = r.2 := congrArg Prod.snd (Except.ok.inj hx)
    rw [Waiting, hrest]
    exact Scanner.scan_rest (show frameScanner.drain bytes = .ok (r.1, r.2) from hdrain)

/-- However much is filled in at a time, `push` gives the frames of all bytes. -/
theorem view_pushLoop (d : FrameStreamDecoder) (bytes : Bytes) (frames : List Frame) (h : d.Waiting) :
    (d.pushLoop bytes frames).map view = (decodeFrames (d.unread ++ bytes)).map (Scanner.prepend frames) := by
  fun_induction pushLoop d bytes frames with
  | case1 d frames =>
    rw [List.append_nil, decodeFrames, Scanner.drain_more h]
    simp [Except.map, view, Scanner.prepend]
  | case2 d bytes frames hbytes available hfull =>
    -- the buffer never holds a frame of maximal size between two rounds
    have hlt := h.bufferedSize_lt
    omega
  | case3 d bytes frames hbytes available hfull count e herr =>
    have hstep := view_decodeBuffered (d.fill (bytes.take count)) frames
    rw [herr, unread_fill] at hstep
    rw [decodeFrames_split d.unread bytes count]
    cases hdrain : decodeFrames (d.unread ++ bytes.take count) with
    | error e' =>
      rw [hdrain] at hstep
      exact hstep
    | ok r => simp [hdrain, Except.map] at hstep
  | case4 d bytes frames hbytes available hfull count d' frames' hok ih =>
    have hstep := view_decodeBuffered (d.fill (bytes.take count)) frames
    have hwaiting := waiting_of_view frames _ hstep hok
    rw [ih hwaiting.compact, unread_compact]
    rw [hok, unread_fill] at hstep
    rw [decodeFrames_split d.unread bytes count]
    cases hdrain : decodeFrames (d.unread ++ bytes.take count) with
    | error e => simp [hdrain, Except.map] at hstep
    | ok r =>
      rw [hdrain] at hstep
      have hview : (frames', d'.unread) = Scanner.prepend frames r := Except.ok.inj hstep
      obtain ⟨rfl, hrest⟩ : frames' = frames ++ r.1 ∧ d'.unread = r.2 := Prod.mk.inj hview
      rw [hrest, ok_bind]
      cases decodeFrames (r.2 ++ bytes.drop count) <;> simp [Except.map]

/-- One push, from between two pushes. -/
theorem view_push {d : FrameStreamDecoder} (h : d.Waiting) (bytes : Bytes) :
    (d.push bytes).map view = decodeFrames (d.unread ++ bytes) := by
  rw [push, view_pushLoop d bytes [] h]
  simp [Except.map_id]

/-! ## Many pushes -/

/-- However a stream is cut, the decoder gives its frames and keeps its rest. -/
theorem view_pushAll {d : FrameStreamDecoder} (h : d.Waiting) (chunks : List Bytes) :
    (d.pushAll chunks).map view = decodeFrames (d.unread ++ chunks.flatten) := by
  induction chunks generalizing d with
  | nil =>
    rw [List.flatten_nil, List.append_nil, decodeFrames, Scanner.drain_more h]
    rfl
  | cons chunk chunks ih =>
    have hpush := view_push h chunk
    rw [pushAll, List.flatten_cons, ← List.append_assoc]
    have happend := frameScanner.drain_append (d.unread ++ chunk) chunks.flatten
    change decodeFrames _ = decodeFrames _ >>= _ at happend
    rw [happend]
    cases hr : d.push chunk with
    | error e =>
      rw [hr] at hpush
      rw [← hpush]
      rfl
    | ok r =>
      obtain ⟨d', frames⟩ := r
      have hwaiting : d'.Waiting := by
        refine waiting_of_view [] (d.unread ++ chunk) ?_ hr
        rw [hpush, Scanner.prepend_nil, Except.map_id]
        rfl
      rw [hr] at hpush
      rw [← hpush]
      change _ = Except.map _ (decodeFrames (d'.unread ++ chunks.flatten))
      rw [← ih hwaiting, ok_bind]
      dsimp only
      cases d'.pushAll chunks <;> rfl

theorem waiting_pushAll {d d' : FrameStreamDecoder} (h : d.Waiting) {chunks : List Bytes} {frames : List Frame}
    (hpush : d.pushAll chunks = .ok (d', frames)) : d'.Waiting := by
  refine waiting_of_view [] (d.unread ++ chunks.flatten) ?_ hpush
  rw [view_pushAll h, Scanner.prepend_nil, Except.map_id]
  rfl

/-- What pushing a stream in chunks gives is what the stream decodes to. -/
theorem pushAll_eq_ok {chunks : List Bytes} {frames : List Frame} {d : FrameStreamDecoder}
    (h : pushAll {} chunks = .ok (d, frames)) : decodeFrames chunks.flatten = .ok (frames, d.unread) := by
  have hview := view_pushAll waiting_fresh chunks
  rw [h] at hview
  exact hview.symm

theorem pushAll_eq_error {chunks : List Bytes} {e : Exn} :
    pushAll {} chunks = .error e ↔ decodeFrames chunks.flatten = .error e := by
  have hview : (pushAll {} chunks).map view = decodeFrames chunks.flatten := view_pushAll waiting_fresh chunks
  rw [← hview]
  cases pushAll {} chunks <;> simp [Except.map]

/-- Decoding throws nothing but what it found wrong with a frame. -/
theorem decodeFrames_ne_exceedsWireSize (bytes : Bytes) : decodeFrames bytes ≠ .error exceedsWireSize := by
  intro h
  obtain ⟨front, hfail⟩ := Scanner.exists_scan_fail h
  obtain ⟨status, hstatus⟩ := toScan_fail hfail
  cases status <;> exact absurd hstatus (by decide)

/-- However a byte string is cut into pushes, the decoder throws or gives the same frames and keeps as many bytes, as
`decode_frame` applied to the whole string does. Encoded frames come back, no push finds its buffer full, and less
than a frame of maximal size stays buffered. -/
theorem stream_independent_of_chunks :
    (∀ bytes chunks chunks', chunks.flatten = bytes → chunks'.flatten = bytes →
      ((∃ e, pushAll {} chunks = .error e) ↔ ∃ e, pushAll {} chunks' = .error e) ∧
      ((∃ e, pushAll {} chunks = .error e) ↔ ∃ e, decodeFrames bytes = .error e) ∧
      ∀ d frames d' frames', pushAll {} chunks = .ok (d, frames) → pushAll {} chunks' = .ok (d', frames') →
        frames = frames' ∧ d.bufferedSize = d'.bufferedSize ∧
        ∃ rest, decodeFrames bytes = .ok (frames, rest) ∧ rest.length = d.bufferedSize) ∧
    (∀ frames encodings chunks, frames.mapM encodeFrame = .ok encodings → chunks.flatten = encodings.flatten →
      ∃ d, pushAll {} chunks = .ok (d, frames) ∧ d.bufferedSize = 0) ∧
    (∀ chunks, pushAll {} chunks ≠ .error exceedsWireSize) ∧
    ∀ chunks d frames, pushAll {} chunks = .ok (d, frames) → d.bufferedSize < frameHeaderSize + maxPayloadSize := by
  refine ⟨?_, ?_, ?_, ?_⟩
  · rintro bytes chunks chunks' rfl hchunks
    refine ⟨?_, ?_, ?_⟩
    · simp only [pushAll_eq_error, hchunks]
    · simp only [pushAll_eq_error]
    · intro d frames d' frames' h h'
      have hd := pushAll_eq_ok h
      have hd' := pushAll_eq_ok h'
      rw [hchunks, hd] at hd'
      obtain ⟨rfl, hrest⟩ := Prod.mk.inj (Except.ok.inj hd')
      refine ⟨rfl, ?_, d.unread, hd, length_unread d⟩
      rw [← length_unread, ← length_unread, hrest]
  · intro frames encodings chunks henc hchunks
    have hdecode : decodeFrames chunks.flatten = .ok (frames, []) := by
      rw [hchunks]
      exact Scanner.drain_flatten scan_encodeFrame henc
    cases h : pushAll {} chunks with
    | error e =>
      rw [pushAll_eq_error, hdecode] at h
      cases h
    | ok r =>
      have hok := pushAll_eq_ok h
      rw [hdecode] at hok
      obtain ⟨hframes, hrest⟩ := Prod.mk.inj (Except.ok.inj hok)
      refine ⟨r.1, by rw [hframes], ?_⟩
      rw [← length_unread, ← hrest, List.length_nil]
  · intro chunks h
    exact decodeFrames_ne_exceedsWireSize _ (pushAll_eq_error.1 h)
  · intro chunks d frames h
    exact (waiting_pushAll waiting_fresh h).bufferedSize_lt

end FrameStreamDecoder

end LanLink
