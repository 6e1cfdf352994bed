import LanLink.Relay.Epochs
import LanLink.Relay.Grounded
import LanLink.Relay.Revocation
/-!
# Session keys

Where the session keys that the relay holds come from: each was handed to
`publish_device_key` for its device, with a signature that was good. Key
epochs start at one.
-/
open LanLink.Lib LanLink.Lib.Action

namespace LanLink

section
variable {crypto : Crypto} {c c' : Core} {op : Op} {ok : Bool} {d : DeviceId} {k : ActiveKey}

/-- A key that was not there before was published by the call. -/
theorem Effect.lookup_activeKeys (h : Effect crypto c op ok c') (hk : c'.activeKeys.lookup d = some k) :
    c.activeKeys.lookup d = some k ∨ ∃ t, op = .publishDeviceKey d k.sessionId k.signedKey t := by
  have hsame (heq : c'.activeKeys = c.activeKeys) :
      c.activeKeys.lookup d = some k ∨ ∃ t, op = .publishDeviceKey d k.sessionId k.signedKey t := .inl (heq ▸ hk)
  have herase {m : Map DeviceId ActiveKey} {e : DeviceId} (hk : (m.erase e).lookup d = some k) : m.lookup d = some k := by
    rw [Map.lookup_erase] at hk
    split at hk
    · cases hk
    · exact hk
  cases h with
  | created _ _ _ _ _ _ _ _ advanced => exact hsame advanced.activeKeys
  | joined _ _ _ advanced => exact hsame advanced.activeKeys
  | redeemJoined _ _ _ advanced => exact hsame advanced.activeKeys
  | left _ _ advanced => exact hsame advanced.activeKeys
  | edited _ _ _ _ _ _ _ advanced => exact hsame advanced.activeKeys
  | revoked _ _ _ _ purged =>
    have hkept := herase hk
    rw [purged.activeKeys] at hkept
    exact .inl hkept
  | revokeStopped _ _ _ _ purged stopped => exact hsame (stopped.activeKeys.trans purged.activeKeys)
  | @keyPublished _ _ session key t hop allowed ticked =>
    rw [ticked.activeKeys, Map.lookup_insert] at hk
    split at hk
    · rename_i hd
      cases hk
      exact .inr ⟨t, hd ▸ hop⟩
    · exact .inl hk
  | keyRemoved _ ticked =>
    rw [ticked.activeKeys] at hk
    exact .inl (herase hk)
  | capableSet _ ticked => exact hsame ticked.activeKeys
  | _ => exact hsame rfl

/-- A key epoch that was counted is not zero. -/
theorem Effect.epoch_ne_zero (h : Effect crypto c op ok c') {n : NetworkId}
    (hc : ∀ v, c.keyEpochs.lookup n = some v → v ≠ 0) : ∀ v, c'.keyEpochs.lookup n = some v → v ≠ 0 := by
  intro v hv
  obtain hsame | ⟨-, w, hw, hlt⟩ := h.epochs n
  · exact hc v (hsame ▸ hv)
  · rw [hw, Option.some.injEq] at hv
    subst hv
    rintro rfl
    exact absurd hlt (UInt64.not_lt.2 UInt64.zero_le)

end

namespace Service
variable {s : Service}

/-- Every session key is signed by the device it is filed under. -/
def KeysVerified (crypto : Crypto) (s : Service) : Prop :=
  ∀ d k, s.activeKeys.lookup d = some k → k.sessionId ≠ 0 ∧ verifySignedDeviceKey crypto k.signedKey d

/-- A key that is not good changes nothing. -/
theorem publishDeviceKey_invalid {crypto : Crypto} {actor : DeviceId} {session : SessionId} {key : SignedDeviceKey} {nowMs : ℤ}
    (h : ¬ (session ≠ 0 ∧ verifySignedDeviceKey crypto key actor)) :
    Post (publishDeviceKey crypto actor session key nowMs) s fun _ s' => s' = s := by
  unfold publishDeviceKey
  refine post_lift_bind (fun _ _ => ?_) (fun _ => rfl)
  refine post_lift_bind (fun _ hvalid => ?_) (fun _ => rfl)
  exact absurd (check_eq_ok.1 hvalid) h

theorem keysVerified_perform {crypto : Crypto} (inputs : Inputs) (op : Op) (hw : s.tables.Wf) (h : s.KeysVerified crypto) :
    (perform crypto inputs op s).2.KeysVerified crypto := by
  intro d k hk
  obtain hold | ⟨t, rfl⟩ := (perform_effect crypto inputs op hw).lookup_activeKeys hk
  · exact h d k hold
  · by_contra hvalid
    have hsame : (perform crypto inputs (.publishDeviceKey d k.sessionId k.signedKey t) s).2 = s := by
      change Post (reply Reply.changes _) s fun _ s' => s' = s
      rw [reply, post_bind]
      refine (publishDeviceKey_invalid hvalid).mono fun r s' hs => ?_
      cases r <;> exact hs
    rw [hsame] at hk
    exact hvalid (h d k hk)

theorem keysVerified_run (crypto : Crypto) (events : ℕ → Event) (k : ℕ) : (run crypto events k).KeysVerified crypto := by
  induction k with
  | zero => intro d k hk; cases hk
  | succ k ih =>
    rw [run_succ]
    cases events k with
    | restart => intro d k hk; cases hk
    | call op inputs => exact keysVerified_perform inputs op (wf_run crypto events k) ih

theorem keyEpochFor_ne_zero (crypto : Crypto) (events : ℕ → Event) (k : ℕ) (n : NetworkId) :
    (run crypto events k).keyEpochFor n ≠ 0 := by
  have hcounted : ∀ v, (run crypto events k).core.keyEpochs.lookup n = some v → v ≠ 0 := by
    refine core_run crypto (fun c => ∀ v, c.keyEpochs.lookup n = some v → v ≠ 0) (by rintro v ⟨⟩) ?_ events k
    intro c e ok c' hw hstep hc
    cases hstep with
    | call effect => exact effect.epoch_ne_zero hc
    | restart => rintro v ⟨⟩
  change (run crypto events k).core.keyEpochs.getD n 1 ≠ 0
  rw [Map.getD]
  cases hlookup : (run crypto events k).core.keyEpochs.lookup n with
  | none => decide
  | some v => exact hcounted v hlookup

end Service

end LanLink
