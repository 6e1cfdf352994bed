import LanLink.Relay.Supersession
/-!
# The channel as a run of the service

Whatever is done through the control channel, the network service below it goes
through calls of its public functions and restarts, nothing else. So what holds
in every state of every run of the service holds behind the channel as well.
-/
open LanLink.Lib LanLink.Lib.Action

namespace LanLink

/-- The service has gone on by calls of its public functions. -/
def Channel.Serviced (crypto : Crypto) (c c' : Channel) : Prop := Reachable (Service.step crypto) c.service c'.service

instance (crypto : Crypto) : Std.Refl (Channel.Serviced crypto) := ⟨fun _ => .init⟩

instance (crypto : Crypto) : IsTrans Channel (Channel.Serviced crypto) := ⟨fun _ _ _ => Reachable.trans⟩

instance : Inhabited Event := ⟨.restart⟩

namespace Channel
variable (crypto : Crypto) (inputs : ChannelInputs) (actor : DeviceId) (requestId : UInt32)

section
variable {crypto} {α : Type}

theorem Serviced.of_eq {c c' : Channel} (h : c'.service = c.service) : Serviced crypto c c' := by
  unfold Serviced
  rw [h]
  exact .init

/-- A function that `perform` runs. -/
theorem serviced_onService (inputs : Inputs) (op : Op) {f : α → Reply} {x : LanLink.Call α}
    (hx : Service.perform crypto inputs op = Service.reply f x) : Within (Serviced crypto) (onService x) := by
  intro c
  have hstate : (x c.service).2 = Service.step crypto c.service (.call op inputs) := by
    change _ = (Service.perform crypto inputs op c.service).2
    rw [hx]
    change _ = (Action.bind x (fun a => Pure.pure (f a)) c.service).2
    unfold Action.bind
    rcases x c.service with ⟨_ | _, s'⟩ <;> rfl
  change Reachable _ _ (x c.service).2
  rw [hstate]
  exact .step _ .init

theorem serviced_modify {f : Channel → Channel} (hf : ∀ c, (f c).service = c.service) :
    Within (Serviced crypto) (Action.modify f : Channel.Call Unit) :=
  .modify fun c => .of_eq (hf c)

theorem serviced_handleOperation {q : Type} (payload : Except Exn q) {operation : q → ℤ → LanLink.Call NetworkOperationOutcome}
    (h : ∀ x t, Within (Serviced crypto) (onService (operation x t))) :
    Within (Serviced crypto) (handleOperation inputs requestId payload operation) :=
  .bind (.lift _) fun x => .bind (.lift _) fun t => .bind (h x t) fun _ => .query _

end

theorem serviced_handleOffer (payload : Except Exn CapabilityOffer) :
    Within (Serviced crypto) (handleOffer actor requestId payload) := by
  refine .bind (.lift _) fun _ => .bind (.lift _) fun negotiated => .bind (.gets _) fun session => ?_
  cases session with
  | none => exact .pure _
  | some session =>
    refine .bind (serviced_modify fun _ => rfl) fun _ => .bind ?_ fun _ => .query _
    exact serviced_onService {} (.setManagementCapable actor _) rfl

theorem serviced_dispatch (request : ControlRequest) :
    Within (Serviced crypto) (dispatch crypto inputs actor requestId request) := by
  cases request with
  | management payload =>
    refine .bind (.gets _) fun _ => .ite (.pure _) (.bind (.lift _) fun q => .bind (.lift _) fun t => ?_)
    exact .bind (serviced_onService inputs.toInputs (.manageNetwork actor q t) rfl) fun _ => .query _
  | access payload =>
    refine .bind (.lift _) fun q => .bind (.gets _) fun _ => .ite (.pure _) (.bind (.lift _) fun t => ?_)
    exact .bind (serviced_onService inputs.toInputs (.accessRequest actor q t) rfl) fun _ => .query _
  | candidates payload =>
    refine .bind (.lift _) fun x => .bind ?_ fun _ => .ite (.pure _) (.update fun c => ?_)
    · exact serviced_onService inputs.toInputs (.authorizePeerExchange actor x) rfl
    · exact .of_eq (service_forwardCandidates actor requestId x c)
  | create payload =>
    exact serviced_handleOperation inputs requestId payload fun q t =>
      serviced_onService inputs.toInputs (.createNetwork actor q t) rfl
  | list payload =>
    refine .bind (.lift _) fun _ => .bind (.lift _) fun t => .bind ?_ fun _ => .lift _
    exact serviced_onService inputs.toInputs (.listNetworks actor t) rfl
  | capabilityOffer payload => exact serviced_handleOffer crypto actor requestId payload
  | join payload =>
    exact serviced_handleOperation inputs requestId payload fun q t =>
      serviced_onService inputs.toInputs (.joinNetwork actor q t) rfl
  | leave payload =>
    exact serviced_handleOperation inputs requestId payload fun q t =>
      serviced_onService inputs.toInputs (.leaveNetwork actor q t) rfl
  | invite payload =>
    exact serviced_handleOperation inputs requestId payload fun q t =>
      serviced_onService inputs.toInputs (.inviteMember actor q t) rfl
  | approve payload =>
    exact serviced_handleOperation inputs requestId payload fun q t =>
      serviced_onService inputs.toInputs (.approveMember actor q t) rfl
  | kick payload =>
    exact serviced_handleOperation inputs requestId payload fun q t =>
      serviced_onService inputs.toInputs (.kickMember actor q t) rfl
  | peerState payload =>
    refine .bind (.lift _) fun q => .bind (.lift _) fun t => .bind ?_ fun _ => .bind (.gets _) fun _ => .lift _
    exact serviced_onService inputs.toInputs (.peerState actor q t) rfl
  | keyPublish payload =>
    refine .bind (.lift _) fun envelopes => .bind ?_ fun _ => .lift _
    exact serviced_onService inputs.toInputs (.publishNetworkKeys actor envelopes) rfl
  | other => exact .throw _

theorem serviced_handleAuthenticated (f : ControlFrame) :
    Within (Serviced crypto) (handleAuthenticated crypto inputs actor f) := by
  refine .bind (.lift _) fun _ => .bind ?_ fun _ => .ite (.pure _) (.tryCatch ?_ fun _ => .pure _)
  · exact serviced_onService inputs.toInputs (.admitControl actor) rfl
  · exact .bind (.gets _) fun _ => .ite (.pure _) (serviced_dispatch crypto inputs actor f.requestId f.request)

theorem serviced_step (c : Channel) (e : ChannelEvent) : Serviced crypto c (c.step crypto e) := by
  cases e with
  | noteDevice actor inputs =>
    have h : Within (Serviced crypto) (noteDevice inputs actor) := by
      refine .bind (.lift _) fun t => .bind ?_ fun _ => serviced_modify fun _ => rfl
      exact serviced_onService inputs.toInputs (.recordAuthenticatedDevice actor t) rfl
    exact h c
  | noteAuthenticated actor session key inputs =>
    have h : Within (Serviced crypto) (noteAuthenticated crypto inputs actor session key) := by
      refine .bind (serviced_modify fun _ => rfl) fun _ => .bind ?_ fun _ => .bind (.lift _) fun t => .bind ?_ fun _ => .query _
      · exact serviced_onService inputs.toInputs (.setManagementCapable actor false) rfl
      · exact serviced_onService inputs.toInputs (.publishDeviceKey actor session key t) rfl
    exact h c
  | noteDisconnected actor session =>
    have h : Within (Serviced crypto) (noteDisconnected actor session) := by
      refine .bind (serviced_modify fun c => ?_) fun _ => .bind ?_ fun _ => .query _
      · split <;> rfl
      · exact serviced_onService {} (.removeDeviceKey actor session) rfl
    exact h c
  | handle actor frame inputs => exact serviced_handleAuthenticated crypto inputs actor frame c
  | restart => exact Reachable.step Event.restart .init

theorem serviced_relayStep (c : Channel) (e : RelayEvent) : Serviced crypto c (c.relayStep crypto e) := by
  cases e with
  | channel e => exact serviced_step crypto c e
  | service op inputs => exact Reachable.step (Event.call op inputs) .init

/-- A relay behind its channel is in a state of some run of the service. -/
theorem exists_run {c : Channel} (h : Reachable (relayStep crypto) { service := .fresh {} } c) :
    ∃ events k, c.service = Service.run crypto events k := by
  have hservice : Reachable (Service.step crypto) (.fresh {}) c.service := by
    refine h.inv (fun c => Reachable (Service.step crypto) (.fresh {}) c.service) .init fun c e hc => ?_
    exact hc.trans (serviced_relayStep crypto c e)
  exact hservice.exists_states

end Channel

end LanLink
