import LanLink.Transport.CacheOrder
import LanLink.Transport.ControlSession
/-!
# Outcomes of control calls

What holds throughout a session of control calls is kept by every event of it,
as long as no more calls are made than there are ids.
-/
open LanLink.Lib

namespace LanLink.ControlSession
variable {crypto : KeyCrypto} {sizes : EventSizes} {encryptionKey : DeviceEncryptionKey} {first : UInt32} {s s' : ControlSession}

/-! ## The calls -/

/-- No call waits under two ids. -/
theorem Calls.id_eq (h : Calls s) {i j : UInt32} {p q : PendingControl} (hp : s.client.attempt.pending.lookup i = some p)
    (hq : s.client.attempt.pending.lookup j = some q) (hcall : p.call = q.call) : i = j := by
  obtain ⟨x, hx, rfl, -⟩ := h.waiting i p hp
  obtain ⟨y, hy, rfl, -⟩ := h.waiting j q hq
  rw [hcall, hy] at hx
  rw [Option.some.inj hx]

/-- Frames that no call waits for change nothing. -/
theorem Calls.keep (h : Calls s) (hattempt : s'.client.attempt = s.client.attempt) (hmade : s'.made = s.made)
    (hkept : s.delivered ⊆ s'.delivered)
    (hnew : ∀ f ∈ s'.delivered, f ∈ s.delivered ∨ s.client.attempt.pending.lookup f.requestId = none) : Calls s' where
  calls := by rw [hattempt, hmade, h.calls]
  waiting id p hp := by
    rw [hattempt] at hp ⊢
    rw [hmade]
    obtain ⟨x, hx, hid, hwaits, hdelivered, hreturned⟩ := h.waiting id p hp
    refine ⟨x, hx, hid, hwaits, fun f hf => ?_, hreturned⟩
    rcases hnew f hf with hold | hnone
    · exact hdelivered f hold
    · rintro rfl
      rw [hp] at hnone
      cases hnone
  once := by rw [hattempt]; exact h.once
  returned i r hr := by
    rw [hattempt] at hr
    obtain ⟨x, hx, hanswer⟩ := h.returned i r hr
    exact ⟨x, hmade ▸ hx, fun hr => (hanswer hr).imp fun m hm => ⟨hkept hm.1, hm.2⟩⟩
  accounted i x hx := by
    rw [hattempt]
    exact h.accounted i x (hmade ▸ hx)

/-- The call that waits under `id` returns. -/
theorem Calls.finish (h : Calls s) {id : UInt32} {p : PendingControl} {r : Except Exn ControlMessage}
    (hp : s.client.attempt.pending.lookup id = some p) (hattempt : s'.client.attempt = s.client.attempt.finish id p r)
    (hmade : s'.made = s.made) (hkept : s.delivered ⊆ s'.delivered)
    (hnew : ∀ f ∈ s'.delivered, f ∈ s.delivered ∨ f.requestId = id)
    (hr : r.isOk ∨ r = .error rejected → ∃ m, ⟨id, .control m⟩ ∈ s'.delivered ∧ r = m.result) : Calls s' where
  calls := by rw [hattempt, hmade]; exact h.calls
  waiting j q hq := by
    rw [hattempt, ControlAttempt.finish, Map.lookup_erase] at hq
    by_cases hj : j = id
    · rw [if_pos hj] at hq
      cases hq
    rw [if_neg hj] at hq
    obtain ⟨x, hx, hid, hwaits, hdelivered, hreturned⟩ := h.waiting j q hq
    refine ⟨x, hmade ▸ hx, hid, hwaits, fun f hf => ?_, ?_⟩
    · rcases hnew f hf with hold | hnow
      · exact hdelivered f hold
      · exact fun hf => hj (hf.symm.trans hnow)
    · rw [hattempt, ControlAttempt.finish, List.map_append, List.mem_append, not_or]
      exact ⟨hreturned, fun hmem => hj (h.id_eq hq hp (List.mem_singleton.1 hmem))⟩
  once := by
    obtain ⟨_, -, -, -, -, hreturned⟩ := h.waiting id p hp
    rw [hattempt, ControlAttempt.finish, List.map_append]
    refine List.nodup_append.2 ⟨h.once, List.nodup_singleton _, fun i hi j hj => ?_⟩
    rw [List.mem_singleton.1 hj]
    rintro rfl
    exact hreturned hi
  returned i t ht := by
    rw [hattempt, ControlAttempt.finish, List.mem_append, List.mem_singleton] at ht
    rcases ht with hold | hnow
    · obtain ⟨x, hx, hanswer⟩ := h.returned i t hold
      exact ⟨x, hmade ▸ hx, fun ht => (hanswer ht).imp fun m hm => ⟨hkept hm.1, hm.2⟩⟩
    · obtain ⟨x, hx, rfl, -⟩ := h.waiting id p hp
      cases hnow
      exact ⟨x, hmade ▸ hx, hr⟩
  accounted i x hx := by
    rw [hattempt, ControlAttempt.finish, List.map_append, List.mem_append]
    dsimp only
    rcases h.accounted i x (hmade ▸ hx) with hreturned | ⟨q, hq, rfl⟩
    · exact .inl (.inl hreturned)
    · by_cases hid : x.requestId = id
      · rw [hid, hp] at hq
        cases hq
        exact .inl (.inr (List.mem_singleton_self _))
      · exact .inr ⟨q, by rw [Map.lookup_erase, if_neg hid, hq], rfl⟩

theorem Calls.timeOut (h : Calls s) (id : UInt32) :
    Calls { s with client := { s.client with attempt := s.client.attempt.timeOut id } } := by
  unfold ControlAttempt.timeOut
  cases hp : s.client.attempt.pending.lookup id with
  | none => exact h.keep rfl rfl (List.Subset.refl _) fun f hf => .inl hf
  | some p =>
    refine h.finish hp rfl rfl (List.Subset.refl _) (fun f hf => .inl hf) ?_
    rintro (hok | hrejected)
    · cases hok
    · exact absurd hrejected (by decide)

/-- Every call that waits fails. -/
theorem Calls.close (h : Calls s) (reason : CloseReason) : Calls { s with client := s.client.close reason } where
  calls := h.calls
  waiting := by rintro _ _ ⟨⟩
  once := by
    have hrows : (s.client.attempt.pending.rows.map fun row => row.2.call).Nodup := by
      refine (List.Nodup.of_map _ (Map.nodup_rows s.client.attempt.pending)).map_on fun a ha b hb hcall => ?_
      have hid := h.id_eq (Map.mem_rows.1 ha) (Map.mem_rows.1 hb) hcall
      have hvalue := Map.mem_rows.1 hb
      rw [← hid, Map.mem_rows.1 ha] at hvalue
      exact Prod.ext hid (Option.some.inj hvalue)
    simp only [ControlClient.close, ControlAttempt.failPending, List.map_append, List.map_map]
    refine List.nodup_append.2 ⟨h.once, hrows, fun i hi j hj => ?_⟩
    obtain ⟨row, hrow, rfl⟩ := List.mem_map.1 hj
    obtain ⟨_, -, -, -, -, hreturned⟩ := h.waiting row.1 row.2 (Map.mem_rows.1 hrow)
    rintro rfl
    exact hreturned hi
  returned i r hr := by
    rcases List.mem_append.1 hr with hold | hnow
    · exact h.returned i r hold
    · obtain ⟨row, hrow, heq⟩ := List.mem_map.1 hnow
      obtain ⟨x, hx, -⟩ := h.waiting row.1 row.2 (Map.mem_rows.1 hrow)
      cases heq
      refine ⟨x, hx, ?_⟩
      rintro (hok | hrejected)
      · cases hok
      · exact absurd hrejected (by cases reason <;> decide)
  accounted i x hx := by
    simp only [ControlClient.close, ControlAttempt.failPending, List.map_append, List.mem_append, List.map_map]
    rcases h.accounted i x hx with hreturned | ⟨p, hp, rfl⟩
    · exact .inl (.inl hreturned)
    · exact .inl (.inr (List.mem_map.2 ⟨(x.requestId, p), Map.mem_rows.2 hp, rfl⟩))

/-- A call waits under an id that no call has had. -/
theorem Calls.await (h : Calls s) {x : MadeCall} {p : PendingControl} (hfresh : x.requestId ∉ s.made.map (·.requestId))
    (hdelivered : ∀ f ∈ s.delivered, f.requestId ≠ x.requestId) (hwaits : p.Waits x.call) (hp : p.call = s.client.attempt.calls)
    (hattempt : s'.client.attempt =
      { s.client.attempt with pending := s.client.attempt.pending.insert x.requestId p, calls := s.client.attempt.calls + 1 })
    (hmade : s'.made = s.made ++ [x]) (hkept : s'.delivered = s.delivered) : Calls s' := by
  rw [h.calls] at hp
  have hlast : s'.made[p.call]? = some x := by rw [hmade, hp, List.getElem?_concat_length]
  have hmono {i : ℕ} {y : MadeCall} (hy : s.made[i]? = some y) : s'.made[i]? = some y := by
    rw [hmade, List.getElem?_append_left (List.getElem?_eq_some_iff.1 hy).1, hy]
  constructor
  · rw [hattempt, hmade, List.length_append, ← h.calls]
    rfl
  · intro id q hq
    rw [hattempt] at hq ⊢
    rw [hkept]
    dsimp only at hq ⊢
    rw [Map.lookup_insert] at hq
    by_cases hid : id = x.requestId
    · -- the new call, whose number no call has returned
      subst hid
      rw [if_pos rfl] at hq
      cases hq
      refine ⟨x, hlast, rfl, hwaits, hdelivered, fun hmem => ?_⟩
      obtain ⟨row, hmem, hrow⟩ := List.mem_map.1 hmem
      obtain ⟨y, hy, -⟩ := h.returned row.1 row.2 hmem
      have hlt := (List.getElem?_eq_some_iff.1 hy).1
      omega
    · rw [if_neg hid] at hq
      obtain ⟨y, hy, hrest⟩ := h.waiting id q hq
      exact ⟨y, hmono hy, hrest⟩
  · rw [hattempt]
    exact h.once
  · intro i r hr
    rw [hattempt] at hr
    obtain ⟨y, hy, hanswer⟩ := h.returned i r hr
    exact ⟨y, hmono hy, hkept ▸ hanswer⟩
  · intro i y hy
    rw [hattempt]
    dsimp only
    by_cases hi : i = p.call
    · subst hi
      rw [hlast] at hy
      cases hy
      exact .inr ⟨p, by rw [Map.lookup_insert, if_pos rfl], rfl⟩
    · -- an earlier call, under another id
      have hlt := (List.getElem?_eq_some_iff.1 hy).1
      rw [hmade, List.length_append, List.length_singleton] at hlt
      rw [hmade, List.getElem?_append_left (by omega)] at hy
      have hid : y.requestId ≠ x.requestId := fun heq =>
        hfresh (heq ▸ @List.mem_map_of_mem _ _ _ _ (·.requestId) (List.mem_of_getElem? hy))
      rw [Map.lookup_insert, if_neg hid]
      exact h.accounted i y hy

/-- A call that draws an id waits, or returns at once because its request cannot be sent. -/
theorem Calls.start (h : Calls s) {x : MadeCall} (hfresh : x.requestId ∉ s.made.map (·.requestId))
    (hdelivered : ∀ f ∈ s.delivered, f.requestId ≠ x.requestId)
    (hattempt : s'.client.attempt = s.client.attempt.start x.call x.sent x.requestId) (hmade : s'.made = s.made ++ [x])
    (hkept : s'.delivered = s.delivered) : Calls s' := by
  obtain ⟨p, hp⟩ : ∃ p : PendingControl, p = ⟨x.call.type, x.call.operation, x.call.networkId, s.client.attempt.calls⟩ := ⟨_, rfl⟩
  have hwaits : p.Waits x.call := hp ▸ ⟨rfl, rfl, rfl⟩
  obtain ⟨a, ha⟩ : ∃ a : ControlAttempt, a =
    { s.client.attempt with pending := s.client.attempt.pending.insert x.requestId p, calls := s.client.attempt.calls + 1 } := ⟨_, rfl⟩
  rw [ControlAttempt.start, ← hp, ← ha] at hattempt
  have hwaiting : Calls { s with client := { s.client with attempt := a }, made := s.made ++ [x] } :=
    h.await hfresh hdelivered hwaits (hp ▸ rfl) ha rfl rfl
  split at hattempt
  · exact h.await hfresh hdelivered hwaits (hp ▸ rfl) (hattempt.trans ha) hmade hkept
  · refine hwaiting.finish ?_ hattempt hmade (hkept ▸ List.Subset.refl _) (fun f hf => .inl (hkept ▸ hf)) ?_
    · rw [ha, Map.lookup_insert, if_pos rfl]
    · rintro (hok | hrejected)
      · cases hok
      · exact absurd hrejected (by decide)

/-! ## What is on its way -/

theorem answer_eq_some {x : ControlFrame × Except Exn ControlDispatch} {f : RelayFrame} :
    answer x = some f ↔ ∃ d, x.2 = .ok d ∧ controlId x.1.requestId = true ∧ f = ⟨x.1.requestId, .control d.response⟩ := by
  unfold answer
  cases hx : x.2 with
  | error e => simp
  | ok d => by_cases hid : controlId x.1.requestId = true <;> simp [hid, eq_comm]

/-- A response that is on its way or has arrived is what the relay made of the request of a call. -/
theorem Inv.source (h : Inv crypto first s) {f : RelayFrame} (hf : f ∈ s.delivered ++ s.toClient) (hid : controlId f.requestId = true) :
    ∃ x d, x ∈ s.made ∧ (x.frame, .ok d) ∈ s.served ∧ f = ⟨x.requestId, .control d.response⟩ ∧
      Answers crypto.toCrypto x.call.request d.response := by
  have hanswer := (@List.mem_filter _ (fun f : RelayFrame => controlId f.requestId) _ _).2 ⟨hf, hid⟩
  rw [h.streams.inward, List.mem_filterMap] at hanswer
  obtain ⟨⟨g, r⟩, hserved, hg⟩ := hanswer
  obtain ⟨d, rfl, hcontrol, rfl⟩ := answer_eq_some.1 hg
  have hsent := (@List.mem_filter _ (fun f : ControlFrame => controlId f.requestId) _ _).2
    ⟨List.mem_append_left s.toRelay (@List.mem_map_of_mem _ _ _ _ (·.1) hserved), hcontrol⟩
  rw [h.streams.outward] at hsent
  obtain ⟨x, hx, rfl⟩ := List.mem_map.1 hsent
  exact ⟨x, d, (List.mem_filter.1 hx).1, hserved, rfl, (h.answered.answers _ _ hserved).answers⟩

theorem call_cases (s : ControlSession) (call : ControlCall) (timeoutMs : ℤ) (sends : Bool) : s.call call timeoutMs sends = s ∨
    ∃ id next, Serials.draw (· + 1) s.client.taken (2 ^ 32) s.client.nextRequestId = some (id, next) ∧
      s.call call timeoutMs sends = { s with
        client := { s.client with nextRequestId := next, attempt := s.client.attempt.start call sends id }
        made := s.made ++ [⟨id, call, sends⟩]
        toRelay := s.toRelay ++ if sends then [⟨id, call.request⟩] else [] } := by
  unfold ControlSession.call ControlClient.requestControl
  cases s.client.requireReady call timeoutMs with
  | error e => exact .inl rfl
  | ok _ =>
    cases Serials.draw (· + 1) s.client.taken (2 ^ 32) s.client.nextRequestId with
    | none => exact .inl rfl
    | some drawn => exact .inr ⟨drawn.1, drawn.2, rfl, rfl⟩

theorem Inv.call (h : Inv crypto first s) (call : ControlCall) (timeoutMs : ℤ) (sends : Bool)
    (hlimit : (s.call call timeoutMs sends).made.length ≤ callLimit) : Inv crypto first (s.call call timeoutMs sends) := by
  obtain ⟨d, hids⟩ := h.ids
  rcases s.call_cases call timeoutMs sends with hsame | ⟨id, next, hdraw, hcall⟩
  · rw [hsame]
    exact h
  rw [hcall] at hlimit ⊢
  simp only [List.length_append, List.length_singleton] at hlimit
  obtain ⟨p, id', hdraw', hround, hdrawn, hfresh⟩ := hids.draw h.calls (by omega)
  rw [hdraw'] at hdraw
  cases hdraw
  have hids' : Ids first { s with
      client := { s.client with nextRequestId := (· + 1)^[p + 1] first, attempt := s.client.attempt.start call sends id }
      made := s.made ++ [⟨id, call, sends⟩] } (p + 1) := ⟨hround, rfl, by simp [hdrawn]⟩
  have hid : controlId id = true := hids'.control (List.mem_append_right _ (List.mem_singleton_self _))
  have hdelivered : ∀ f ∈ s.delivered, f.requestId ≠ id := by
    rintro f hf rfl
    obtain ⟨x, _, hx, -, heq, -⟩ := h.source (List.mem_append_left _ hf) hid
    exact hfresh (List.mem_map.2 ⟨x, hx, by rw [heq]⟩)
  refine ⟨⟨p + 1, hids'.round, hids'.next, hids'.drawn⟩, ⟨?_, h.streams.inward, h.streams.serving⟩, ⟨h.answered.wf,
    h.answered.verified, h.answered.answers⟩, h.calls.start hfresh hdelivered rfl rfl rfl⟩
  -- the request is the last frame of both streams, if it was sent
  dsimp only
  rw [← List.append_assoc, List.filter_append, h.streams.outward, List.filter_append, List.map_append]
  cases sends <;> simp [hid, MadeCall.frame]

/-! ## One event -/

/-- Other frames of the client carry no id of a call. -/
theorem Inv.post (h : Inv crypto first s) {frame : ControlFrame} (hframe : ¬ controlId frame.requestId) :
    Inv crypto first { s with toRelay := s.toRelay ++ [frame] } := by
  obtain ⟨d, hids⟩ := h.ids
  refine ⟨⟨d, hids.round, hids.next, hids.drawn⟩, ⟨?_, h.streams.inward, h.streams.serving⟩,
    ⟨h.answered.wf, h.answered.verified, h.answered.answers⟩, h.calls.keep rfl rfl (List.Subset.refl _) fun f hf => .inl hf⟩
  dsimp only
  rw [← List.append_assoc, List.filter_append, h.streams.outward]
  simp [hframe]

theorem Inv.notify (h : Inv crypto first s) (message : RelayMessage) :
    Inv crypto first { s with toClient := s.toClient ++ [{ requestId := 0, message }] } := by
  obtain ⟨d, hids⟩ := h.ids
  refine ⟨⟨d, hids.round, hids.next, hids.drawn⟩, ⟨h.streams.outward, ?_, h.streams.serving⟩,
    ⟨h.answered.wf, h.answered.verified, h.answered.answers⟩, h.calls.keep rfl rfl (List.Subset.refl _) fun f hf => .inl hf⟩
  dsimp only
  rw [← List.append_assoc, List.filter_append, h.streams.inward]
  simp [controlId]

/-- The client changes, and its calls do not. -/
theorem Inv.client (h : Inv crypto first s) {c : ControlClient} (hnext : c.nextRequestId = s.client.nextRequestId)
    (hcalls : Calls { s with client := c }) : Inv crypto first { s with client := c } := by
  obtain ⟨d, hids⟩ := h.ids
  exact ⟨⟨d, hids.round, hnext.trans hids.next, hids.drawn⟩, ⟨h.streams.outward, h.streams.inward, h.streams.serving⟩,
    ⟨h.answered.wf, h.answered.verified, h.answered.answers⟩, hcalls⟩

theorem Inv.relay (h : Inv crypto first s) (e : RelayEvent) :
    Inv crypto first { s with relay := s.relay.relayStep crypto.toCrypto e } := by
  obtain ⟨d, hids⟩ := h.ids
  obtain ⟨hwf, hverified⟩ :=
    Service.keysVerified_reachable (Channel.serviced_relayStep crypto.toCrypto s.relay e) h.answered.wf h.answered.verified
  exact ⟨⟨d, hids.round, hids.next, hids.drawn⟩, ⟨h.streams.outward, h.streams.inward, h.streams.serving⟩,
    ⟨hwf, hverified, h.answered.answers⟩, h.calls.keep rfl rfl (List.Subset.refl _) fun f hf => .inl hf⟩

/-- A response goes to the call that waits for it, if one still does. -/
theorem Inv.taken (h : Inv crypto first s) {inputs : ClientInputs} {now : Time} {f : RelayFrame}
    (hf : f ∈ s.delivered ++ s.toClient) (hid : controlId f.requestId = true) :
    ∃ c, ControlClient.handleControlFrame crypto sizes inputs now encryptionKey f s.client = (.ok (), c) ∧
      c.nextRequestId = s.client.nextRequestId ∧
      ((s.client.attempt.pending.lookup f.requestId = none ∧ c.attempt = s.client.attempt) ∨
        ∃ p m, s.client.attempt.pending.lookup f.requestId = some p ∧ f.message = .control m ∧
          c.attempt = s.client.attempt.finish f.requestId p m.result) := by
  obtain ⟨d, hids⟩ := h.ids
  obtain ⟨x, dispatch, hx, -, rfl, hanswers⟩ := h.source hf hid
  rw [ControlClient.handleControlFrame_answer hid hanswers, ControlClient.handleResponse]
  dsimp only
  cases hp : s.client.attempt.pending.lookup x.requestId with
  | none => exact ⟨_, rfl, rfl, .inl ⟨rfl, rfl⟩⟩
  | some p =>
    -- the call that waits is the one the relay has answered
    obtain ⟨y, hy, hsame, hwaits, -⟩ := h.calls.waiting _ p hp
    have hyx : y = x := List.inj_on_of_nodup_map hids.nodup (List.mem_of_getElem? hy) hx hsame
    rw [hyx] at hwaits
    dsimp only
    rw [hanswers.accept hwaits]
    exact ⟨_, rfl, rfl, .inr ⟨p, _, rfl, rfl, rfl⟩⟩

theorem Inv.deliver (h : Inv crypto first s) (inputs : ClientInputs) (now : Time) :
    Inv crypto first (s.deliver crypto sizes encryptionKey inputs now) := by
  obtain ⟨d, hids⟩ := h.ids
  unfold ControlSession.deliver
  cases hup : s.clientUp with
  | false => exact h
  | true =>
  cases hto : s.toClient with
  | nil => exact h
  | cons f toClient =>
  dsimp only
  have hf : f ∈ s.delivered ++ s.toClient := List.mem_append_right _ (hto ▸ List.mem_cons_self)
  have hinward : s.delivered ++ [f] ++ toClient = s.delivered ++ s.toClient := by rw [hto, List.append_assoc, List.singleton_append]
  have hkept : s.delivered ⊆ s.delivered ++ [f] := List.subset_append_left _ _
  have hnew : ∀ g ∈ s.delivered ++ [f], g ∈ s.delivered ∨ g = f := fun g hg =>
    (List.mem_append.1 hg).imp_right List.mem_singleton.1
  -- what is the same whatever the frame is
  have hrest {c : ControlClient} {up : Bool} (hnext : c.nextRequestId = s.client.nextRequestId)
      (hcalls : Calls { s with toClient, delivered := s.delivered ++ [f], client := c, clientUp := up }) :
      Inv crypto first { s with toClient, delivered := s.delivered ++ [f], client := c, clientUp := up } :=
    ⟨⟨d, hids.round, hnext.trans hids.next, hids.drawn⟩,
      ⟨h.streams.outward, (congrArg _ hinward).trans h.streams.inward, h.streams.serving⟩,
      ⟨h.answered.wf, h.answered.verified, h.answered.answers⟩, hcalls⟩
  by_cases hid : controlId f.requestId = true
  · obtain ⟨c, hc, hnext, hcase⟩ := @Inv.taken crypto sizes encryptionKey _ _ h inputs now _ hf hid
    rw [hc]
    refine hrest hnext ?_
    rcases hcase with ⟨hnone, hattempt⟩ | ⟨p, m, hp, hm, hattempt⟩
    · refine h.calls.keep hattempt rfl hkept fun g hg => (hnew g hg).imp_right ?_
      rintro rfl
      exact hnone
    · refine h.calls.finish hp hattempt rfl hkept (fun g hg => (hnew g hg).imp_right ?_) fun _ => ⟨m, ?_, rfl⟩
      · rintro rfl
        rfl
      · rw [← hm]
        exact List.mem_append_right _ (List.mem_singleton_self f)
  · -- no call waits under such an id
    have hsame := @ControlClient.leaves_handleControlFrame crypto sizes encryptionKey inputs now f (by simpa using hid) s.client
    have hnone : s.client.attempt.pending.lookup f.requestId = none := by
      by_contra hsome
      obtain ⟨p, hp⟩ := Option.ne_none_iff_exists'.1 hsome
      obtain ⟨x, hx, hxid, -⟩ := h.calls.waiting _ p hp
      exact hid (hxid ▸ hids.control (List.mem_of_getElem? hx))
    refine hrest (congrArg Prod.snd hsame) (h.calls.keep (congrArg Prod.fst hsame) rfl hkept fun g hg => (hnew g hg).imp_right ?_)
    rintro rfl
    exact hnone

/-- The frames of a dispatch for the client: one answer, and others without the id of a call. -/
theorem filter_framesFor (device : DeviceId) (d : ControlDispatch) :
    (framesFor device d).filter (fun f => controlId f.requestId) =
      if controlId d.requestId then [⟨d.requestId, .control d.response⟩] else [] := by
  have hnone : ((d.events.filter fun e => e.recipientDeviceId = device).map fun e =>
      ({ requestId := 0, message := .control e.message } : RelayFrame)).filter (fun f => controlId f.requestId) = [] := by
    rw [List.filter_eq_nil_iff]
    rintro f hf
    obtain ⟨e, -, rfl⟩ := List.mem_map.1 hf
    simp [controlId]
  rw [framesFor, List.filter_cons, hnone]

theorem Inv.serve (h : Inv crypto first s) (inputs : ChannelInputs) (allowed : Bool) :
    Inv crypto first (s.serve crypto inputs allowed) := by
  obtain ⟨d, hids⟩ := h.ids
  unfold ControlSession.serve
  cases hup : s.relayUp with
  | false => exact h
  | true =>
  cases hto : s.toRelay with
  | nil => exact h
  | cons f toRelay =>
  dsimp only
  have houtward (r : Except Exn ControlDispatch) :
      (s.served ++ [(f, r)]).map (·.1) ++ toRelay = s.served.map (·.1) ++ s.toRelay := by rw [hto]; simp
  have hcalls {relay : Channel} {served : List (ControlFrame × Except Exn ControlDispatch)} {toClient : List RelayFrame} {up : Bool} :
      Calls { s with toRelay, served, relay, toClient, relayUp := up } :=
    h.calls.keep rfl rfl (List.Subset.refl _) fun f hf => .inl hf
  have hserved {r : Except Exn ControlDispatch} (hr : ∀ d, r = .ok d → d.AnswersTo crypto.toCrypto f.requestId f.request)
      (g : ControlFrame) (d : ControlDispatch) (hg : (g, .ok d) ∈ s.served ++ [(f, r)]) :
      d.AnswersTo crypto.toCrypto g.requestId g.request := by
    rcases List.mem_append.1 hg with hold | hnow
    · exact h.answered.answers g d hold
    · cases List.mem_singleton.1 hnow
      exact hr d rfl
  have hthrew {e : Exn} (g : ControlFrame) (d : ControlDispatch) (hg : (g, .ok d) ∈ s.served ++ [(f, .error e)]) :
      d.AnswersTo crypto.toCrypto g.requestId g.request := by
    refine hserved (fun d hd => ?_) g d hg
    cases hd
  cases allowed with
  | false =>
    refine ⟨⟨d, hids.round, hids.next, hids.drawn⟩, ⟨?_, ?_, nofun⟩, ⟨h.answered.wf, h.answered.verified, hthrew⟩, hcalls⟩
    · exact (congrArg _ (houtward _)).trans h.streams.outward
    · simp [h.streams.inward, answer]
  | true =>
  obtain ⟨hwf, hverified⟩ := Service.keysVerified_reachable
    (Channel.serviced_handleAuthenticated crypto.toCrypto inputs (s.device crypto) f s.relay) h.answered.wf h.answered.verified
  have hanswers := @Channel.post_handleAuthenticated crypto.toCrypto inputs (s.device crypto) f s.relay h.answered.wf
    h.answered.verified
  simp only [Action.Post] at hanswers
  rw [if_pos rfl]
  generalize Channel.handleAuthenticated crypto.toCrypto inputs (s.device crypto) f s.relay = x at hwf hverified hanswers ⊢
  obtain ⟨r, relay⟩ := x
  cases r with
  | error e =>
    refine ⟨⟨d, hids.round, hids.next, hids.drawn⟩, ⟨?_, ?_, nofun⟩, ⟨hwf, hverified, hthrew⟩, hcalls⟩
    · exact (congrArg _ (houtward _)).trans h.streams.outward
    · simp [h.streams.inward, answer]
  | ok dispatch =>
    refine ⟨⟨d, hids.round, hids.next, hids.drawn⟩, ⟨?_, ?_, fun _ g e hg => ?_⟩, ⟨hwf, hverified, hserved hanswers⟩, hcalls⟩
    · exact (congrArg _ (houtward _)).trans h.streams.outward
    · dsimp only
      rw [← List.append_assoc, List.filter_append, h.streams.inward, filter_framesFor, List.filterMap_append]
      simp only [answer, List.filterMap_cons, List.filterMap_nil, (hanswers dispatch rfl).requestId]
      split <;> simp_all
    · rcases List.mem_append.1 hg with hold | hnow
      · exact h.streams.serving hup g e hold
      · cases List.mem_singleton.1 hnow

theorem Inv.step (h : Inv crypto first s) (e : ControlEvent) (hlimit : (s.step crypto sizes encryptionKey e).made.length ≤ callLimit) :
    Inv crypto first (s.step crypto sizes encryptionKey e) := by
  cases e with
  | call call timeoutMs sends => exact h.call call timeoutMs sends hlimit
  | post frame =>
    change Inv crypto first (ite _ _ _)
    split
    · exact h
    · rename_i hframe
      exact h.post hframe
  | serve inputs allowed => exact h.serve inputs allowed
  | notify message => exact h.notify message
  | relay e => exact h.relay e
  | deliver inputs now => exact h.deliver inputs now
  | timeOut id => exact h.client rfl (h.calls.timeOut id)
  | close reason => exact h.client rfl (h.calls.close reason)
  | worker takes => exact h.client rfl (h.calls.keep rfl rfl (List.Subset.refl _) fun f hf => .inl hf)

theorem made_le_step (s : ControlSession) (e : ControlEvent) : s.made.length ≤ (s.step crypto sizes encryptionKey e).made.length := by
  cases e with
  | call call timeoutMs sends =>
    change _ ≤ (s.call call timeoutMs sends).made.length
    rcases s.call_cases call timeoutMs sends with hsame | ⟨id, next, -, hcall⟩
    · rw [hsame]
    · rw [hcall, List.length_append]
      exact Nat.le_add_right _ _
  | post frame =>
    change _ ≤ (ite _ _ _ : ControlSession).made.length
    split <;> exact le_rfl
  | serve inputs allowed =>
    change _ ≤ (s.serve crypto inputs allowed).made.length
    unfold ControlSession.serve
    split
    · split
      · dsimp only
        split <;> exact le_rfl
      · exact le_rfl
    · exact le_rfl
  | deliver inputs now =>
    change _ ≤ (s.deliver crypto sizes encryptionKey inputs now).made.length
    unfold ControlSession.deliver
    split <;> exact le_rfl
  | notify | relay | timeOut | close | worker => exact le_rfl

theorem inv_run {cache : QuicClient} {events : ℕ → ControlEvent} {k : ℕ}
    (hlimit : (run crypto sizes encryptionKey cache first events k).made.length ≤ callLimit) :
    Inv crypto first (run crypto sizes encryptionKey cache first events k) := by
  induction k with
  | zero =>
    refine ⟨⟨0, by decide, rfl, rfl⟩, ⟨rfl, rfl, nofun⟩, ⟨Service.wf_run crypto.toCrypto (fun _ => .restart) 0,
      Service.keysVerified_run crypto.toCrypto (fun _ => .restart) 0, fun _ _ hnone => (List.not_mem_nil hnone).elim⟩, ⟨rfl,
      fun _ _ hnone => ?_, List.nodup_nil, fun _ _ hnone => (List.not_mem_nil hnone).elim, fun _ _ hnone => ?_⟩⟩
    · cases hnone
    · cases hnone
  | succ k ih => exact (ih ((made_le_step _ _).trans hlimit)).step _ hlimit

/-! ## What a call gets -/

/-- The calls of a session and the relay's answers to them. -/
structure Sound (crypto : KeyCrypto) (sizes : EventSizes) (encryptionKey : DeviceEncryptionKey) (s : ControlSession) : Prop where
  /-- No two calls have one id. -/
  distinct : (s.made.map (·.requestId)).Nodup
  /-- The relay takes the requests once each and in the order of the calls. -/
  ordered : (s.served.map (·.1)).filter (fun f => controlId f.requestId) <+: (s.made.filter (·.sent)).map (·.frame)
  /-- A call returns once. -/
  once : (s.client.attempt.returned.map (·.1)).Nodup
  /-- A response that is returned is the relay's to this request, and what its function makes a result of. -/
  answered : ∀ i m, (i, .ok m) ∈ s.client.attempt.returned → ∃ x d reply, s.made[i]? = some x ∧ (x.frame, .ok d) ∈ s.served ∧
    d.response = m ∧ x.call.reply crypto m = some (.ok reply)
  rejected : ∀ i, (i, .error rejected) ∈ s.client.attempt.returned → ∃ x d, s.made[i]? = some x ∧ (x.frame, .ok d) ∈ s.served ∧
    d.response = .error
  /-- While the relay has not thrown, the request of a call that has not returned is on its way to it, or its response is on
  its way back. -/
  underway : s.relayUp = true → ∀ i x, s.made[i]? = some x → x.sent = true → i ∈ s.client.attempt.returned.map (·.1) ∨
    x.frame ∈ s.toRelay ∨ ∃ d, (x.frame, .ok d) ∈ s.served ∧ ⟨x.requestId, .control d.response⟩ ∈ s.toClient
  /-- No response breaks the connection. -/
  taken : ∀ f ∈ s.toClient, controlId f.requestId = true → ∀ inputs now,
    (ControlClient.handleControlFrame crypto sizes inputs now encryptionKey f s.client).1 = .ok ()
  /-- A call gets an id or throws at once, while there are ids. -/
  drawn : s.made.length < callLimit → ∀ call timeoutMs sends, (s.client.requestControl call timeoutMs sends).1 ≠ .endless

theorem ControlMessage.result_eq_ok {m m' : ControlMessage} : m.result = .ok m' ↔ m = m' ∧ m ≠ .error := by
  cases m <;> simp [ControlMessage.result]

theorem ControlMessage.result_eq_rejected {m : ControlMessage} : m.result = .error LanLink.rejected ↔ m = .error := by
  cases m <;> simp [ControlMessage.result]

/-- A response that a call has returned is the relay's answer to it. -/
theorem Inv.returned (h : Inv crypto first s) {i : ℕ} {r : Except Exn ControlMessage} (hr : (i, r) ∈ s.client.attempt.returned)
    (hanswer : r.isOk ∨ r = .error rejected) : ∃ x d, s.made[i]? = some x ∧ (x.frame, .ok d) ∈ s.served ∧ r = d.response.result ∧
      Answers crypto.toCrypto x.call.request d.response := by
  obtain ⟨d, hids⟩ := h.ids
  obtain ⟨x, hx, hx'⟩ := h.calls.returned i r hr
  obtain ⟨m, hm, rfl⟩ := hx' hanswer
  have hid := hids.control (List.mem_of_getElem? hx)
  obtain ⟨y, dispatch, hy, hserved, heq, hanswers⟩ := h.source (List.mem_append_left _ hm) hid
  obtain ⟨hsame, hresponse⟩ : x.requestId = y.requestId ∧ m = dispatch.response := by simpa using heq
  have hxy : x = y := List.inj_on_of_nodup_map hids.nodup (List.mem_of_getElem? hx) hy hsame
  subst hxy
  exact ⟨x, dispatch, hx, hserved, by rw [hresponse], hanswers⟩

theorem Inv.sound (h : Inv crypto first s) : Sound crypto sizes encryptionKey s := by
  obtain ⟨d, hids⟩ := h.ids
  constructor
  · exact hids.nodup
  · exact ⟨s.toRelay.filter fun f => controlId f.requestId, by rw [← List.filter_append, h.streams.outward]⟩
  · exact h.calls.once
  · intro i m hm
    obtain ⟨x, dispatch, hx, hserved, hresult, hanswers⟩ := h.returned hm (.inl rfl)
    obtain ⟨rfl, herror⟩ := ControlMessage.result_eq_ok.1 hresult.symm
    obtain ⟨reply, hreply⟩ := hanswers.reply herror
    exact ⟨x, dispatch, reply, hx, hserved, rfl, hreply⟩
  · intro i hi
    obtain ⟨x, dispatch, hx, hserved, hresult, -⟩ := h.returned hi (.inr rfl)
    exact ⟨x, dispatch, hx, hserved, ControlMessage.result_eq_rejected.1 hresult.symm⟩
  · intro hup i x hx hsent
    rcases h.calls.accounted i x hx with hreturned | ⟨p, hp, rfl⟩
    · exact .inl hreturned
    right
    obtain ⟨y, hy, -, -, hdelivered, -⟩ := h.calls.waiting _ p hp
    have hid := hids.control (List.mem_of_getElem? hx)
    -- the request was sent, so that the relay has it or it is on its way
    have hframe : x.frame ∈ (s.made.filter (·.sent)).map (·.frame) :=
      List.mem_map.2 ⟨x, List.mem_filter.2 ⟨List.mem_of_getElem? hx, hsent⟩, rfl⟩
    rw [← h.streams.outward] at hframe
    rcases List.mem_append.1 (List.mem_filter.1 hframe).1 with hserved | hwaits
    · obtain ⟨⟨f, r⟩, hserved, heq⟩ := List.mem_map.1 hserved
      cases heq
      cases r with
      | error e => exact absurd hserved (h.streams.serving hup _ e)
      | ok dispatch =>
        have hanswer : ⟨x.requestId, .control dispatch.response⟩ ∈ s.served.filterMap answer :=
          List.mem_filterMap.2 ⟨_, hserved, answer_eq_some.2 ⟨dispatch, rfl, hid, rfl⟩⟩
        rw [← h.streams.inward] at hanswer
        rcases List.mem_append.1 (List.mem_filter.1 hanswer).1 with hold | hnow
        · exact absurd rfl (hdelivered _ hold)
        · exact .inr ⟨dispatch, hserved, hnow⟩
    · exact .inl hwaits
  · intro f hf hid inputs now
    obtain ⟨c, hc, -⟩ := @Inv.taken crypto sizes encryptionKey _ _ h inputs now f (List.mem_append_right _ hf) hid
    rw [hc]
  · intro hroom call timeoutMs sends
    obtain ⟨p, id, hdraw, -⟩ := hids.draw h.calls hroom
    unfold ControlClient.requestControl
    split
    · rintro ⟨⟩
    · rw [hdraw]
      rintro ⟨⟩

/-- Whatever the threads of the client, the relay and the connection do, and in whatever order: what a call of a public
function returns is the answer to its own request. -/
theorem calls_get_answers {cache : QuicClient} {events : ℕ → ControlEvent} {k : ℕ}
    (hlimit : (run crypto sizes encryptionKey cache first events k).made.length ≤ callLimit) :
    Sound crypto sizes encryptionKey (run crypto sizes encryptionKey cache first events k) :=
  (inv_run hlimit).sound

/-- A client lists its networks and makes one, and the list comes too late. -/
def impatient : ℕ → ControlEvent
  | 0 => .relay (.channel (.noteDevice (QuicClient.sampleClient.identity.deviceId QuicClient.plainKeyCrypto) {}))
  | 1 => .call .list 1000 true
  | 2 => .call (.create ⟨[104, 111, 109, 101]⟩) 1000 true
  | 3 => .serve {} true
  | 4 => .serve { networkIds := fun _ => .ok 8 } true
  | 5 => .timeOut 2
  | _ => .deliver {} 0

theorem calls_get_answers_impatient :
    let s := run QuicClient.plainKeyCrypto ⟨52, 128⟩ 2 QuicClient.sampleClient 2 impatient 8
    s.client.attempt.returned.length = 2 ∧ (1, .ok (.operationResult ⟨.create, .success, 8⟩)) ∈ s.client.attempt.returned ∧
      ∃ x d reply, s.made[1]? = some x ∧ (x.frame, .ok d) ∈ s.served ∧ d.response = .operationResult ⟨.create, .success, 8⟩ ∧
        x.call.reply QuicClient.plainKeyCrypto (.operationResult ⟨.create, .success, 8⟩) = some (.ok reply) := by
  have hreturned : (1, .ok (.operationResult ⟨.create, .success, 8⟩)) ∈
      (run QuicClient.plainKeyCrypto ⟨52, 128⟩ 2 QuicClient.sampleClient 2 impatient 8).client.attempt.returned := by decide +kernel
  exact ⟨by decide +kernel, hreturned, (calls_get_answers (by decide +kernel)).answered 1 _ hreturned⟩

end LanLink.ControlSession
