import LanLink.Relay.AuditTrail
/-!
# What the audit trail says

An audited call writes one event when it is done. For memberships and policies
the event comes after the change it reports, or with it in one transaction. For
access requests a destructor writes it, from a result whose code is a success
until something else is known: a request that throws is reported as a success.
-/
open LanLink.Lib LanLink.Lib.Action

namespace LanLink

/-! ## What a success is about -/

namespace Service
variable {s s' : Service} {α β : Type} {E : AuditEvent → Tables → Prop}

/-! ## Calls that write honest events -/

/-- After a quiet stretch since some `db₀`, the call writes successes that satisfy `E` only. -/
def Audits (E : AuditEvent → Tables → Prop) (x : Call α) (s : Service) : Prop :=
  ∀ db₀ : Db, db₀.Ordered → db₀.Quiet s.store → Post x s fun _ s' => s'.store.Ordered ∧ db₀.Honest E s'.store

namespace Audits

theorem of_quietly {x : Call α} (hx : Quietly x) : Audits E x s := by
  intro db₀ ho hq
  exact (hx s).mono fun _ _ h => ⟨(hq.trans h).ordered ho, (hq.trans h).honest ho⟩

theorem pure (a : α) : Audits E (Pure.pure a : Call α) s := .of_quietly (.pure a)

theorem mono {E' : AuditEvent → Tables → Prop} {x : Call α} (hx : Audits E x s) (h : ∀ e t, E e t → E' e t) :
    Audits E' x s := by
  intro db₀ ho hq
  refine (hx db₀ ho hq).mono fun _ _ hfair => ⟨hfair.1, fun e he hlt hsuccess => ?_⟩
  exact h e _ (hfair.2 e he hlt hsuccess)

/-- Go on after a quiet call. -/
theorem bind {x : Call α} {k : α → Call β} (hx : Quietly x) (hk : ∀ a s', x s = (.ok a, s') → Audits E (k a) s') :
    Audits E (x >>= k) s := by
  intro db₀ ho hq
  have hquiet := hx s
  rw [post_bind]
  unfold Post at hquiet ⊢
  cases hrun : (x s).1 with
  | ok a => exact hk a _ (Prod.ext hrun rfl) db₀ ho (hq.trans hquiet)
  | error e => exact ⟨(hq.trans hquiet).ordered ho, (hq.trans hquiet).honest ho⟩

theorem lift {x : Except Exn α} {k : α → Call β} (hk : ∀ a, x = .ok a → Audits E (k a) s) :
    Audits E (Action.lift x >>= k) s := by
  refine .bind (.lift x) fun a s' hrun => ?_
  cases hrun
  exact hk a rfl

theorem gets {f : Service → α} {k : α → Call β} (hk : Audits E (k (f s)) s) : Audits E (Action.gets f >>= k) s := by
  refine .bind (.gets f) fun a s' hrun => ?_
  cases hrun
  exact hk

theorem read {f : Db → Except Exn α} {k : α → Call β} (hk : ∀ a, f s.store = .ok a → Audits E (k a) s) :
    Audits E (LanLink.read f >>= k) s := by
  refine .bind (.read f) fun a s' hrun => ?_
  obtain ⟨hok, rfl⟩ := Prod.mk.inj hrun
  exact hk a hok

theorem write {f : Db → Except Exn (α × Db)} {k : α → Call β}
    (hf : ∀ db a db', f db = .ok (a, db') → db.Quiet db')
    (hk : ∀ a db, f s.store = .ok (a, db) → Audits E (k a) { s with store := db }) :
    Audits E (LanLink.write f >>= k) s := by
  refine .bind (.write hf) fun a s' hrun => ?_
  unfold LanLink.write at hrun
  split at hrun
  · rename_i b db hok
    cases hrun
    exact hk _ _ hok
  · cases hrun

theorem ite {p : Prop} [Decidable p] {x y : Call α} (hx : p → Audits E x s) (hy : ¬ p → Audits E y s) :
    Audits E (if p then x else y) s := by
  by_cases hp : p
  · rw [if_pos hp]
    exact hx hp
  · rw [if_neg hp]
    exact hy hp

/-- A handler that writes nothing changes nothing. -/
theorem tryCatch {x : Call α} {h : Exn → Call α} (hx : Audits E x s) (hh : ∀ e s', (h e s').2 = s') :
    Audits E (Action.tryCatch x h) s := by
  intro db₀ ho hq
  rw [post_tryCatch]
  refine (hx db₀ ho hq).mono fun r s' hfair => ?_
  cases r with
  | ok a => exact hfair
  | error e =>
    change (h e s').2.store.Ordered ∧ db₀.Honest E (h e s').2.store
    rw [hh e s']
    exact hfair

/-- What is made of the result afterwards does not matter. -/
theorem map {x : Call α} (hx : Audits E x s) (f : α → β) : Audits E (x >>= fun a => Pure.pure (f a)) s := by
  intro db₀ ho hq
  have hfair := hx db₀ ho hq
  rw [post_bind]
  exact hfair.mono fun r s' h => by cases r <;> exact h

theorem reply {f : α → Reply} {x : Call α} (hx : Audits E x s) : Audits E (Service.reply f x) s := hx.map f

end Audits

section
variable {inputs : Inputs} {actor d : DeviceId} {n : NetworkId} {nowMs : ℤ} {operation : NetworkOperation}

end

/-! ## Policies -/

section
variable {inputs : Inputs} {actor owner : DeviceId} {q : ManagementRequest} {nowMs : ℤ} {current next : NetworkPolicy}

/-- Either no event was written, or one with a policy that is stored and the call does not report a failure. -/
def Reports (E : AuditEvent → Tables → Prop) (s : Service) (r : Except Exn ManagementOutcome) (s' : Service) : Prop :=
  s.store.Quiet s'.store ∨
    ((∀ out, r = .ok out → out.result.code = .success) ∧
      ∀ db₀ : Db, db₀.Ordered → db₀.Quiet s.store → s'.store.Ordered ∧ db₀.Honest E s'.store)

end

end Service
end LanLink
