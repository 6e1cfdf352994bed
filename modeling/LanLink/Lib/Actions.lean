import Mathlib.Tactic
/-!
# Actions that can throw

An action reads and writes a state and either returns or throws. A throw does
not undo what was written before it: that is how a C++ member function behaves.
`Post x s Q` says that running `x` from `s` ends in a result and a state
satisfying `Q`; the rules below compute it for each way of building an action.
-/
namespace LanLink.Lib

/-- A computation on states `σ` that returns an `α` or throws an `ε`. -/
def Action (ε σ α : Type) : Type := σ → Except ε α × σ

namespace Action
variable {ε σ α β : Type}

/-- Run `x`, then `f` on what it returned; a throw of `x` skips `f`. -/
def bind (x : Action ε σ α) (f : α → Action ε σ β) : Action ε σ β := fun s =>
  match x s with
  | (.ok a, s') => f a s'
  | (.error e, s') => (.error e, s')

instance : Monad (Action ε σ) where
  pure a := fun s => (.ok a, s)
  bind := Action.bind

/-- Throw, leaving the state as it is. -/
def throw (e : ε) : Action ε σ α := fun s => (.error e, s)

/-- Read a part of the state. -/
def gets (f : σ → α) : Action ε σ α := fun s => (.ok (f s), s)

/-- Change the state. -/
def modify (f : σ → σ) : Action ε σ Unit := fun s => (.ok (), f s)

/-- Change the state and return a value. -/
def update (f : σ → α × σ) : Action ε σ α := fun s => (.ok (f s).1, (f s).2)

/-- A fallible computation that reads the state. -/
def query (f : σ → Except ε α) : Action ε σ α := fun s => (f s, s)

/-- A fallible computation that touches no state. -/
def lift (x : Except ε α) : Action ε σ α := fun s => (x, s)

/-- `try x catch h`: what `x` wrote before it threw stays written. -/
def tryCatch (x : Action ε σ α) (h : ε → Action ε σ α) : Action ε σ α := fun s =>
  match x s with
  | (.ok a, s') => (.ok a, s')
  | (.error e, s') => h e s'

/-- Run `f` on each element in order, collecting the results. -/
def collect (f : β → Action ε σ (List α)) : List β → Action ε σ (List α)
  | [] => pure []
  | b :: bs => do
    let xs ← f b
    let ys ← collect f bs
    pure (xs ++ ys)

/-! ## Postconditions -/

/-- `x`, run from `s`, ends in a result and a state that satisfy `Q`. -/
def Post (x : Action ε σ α) (s : σ) (Q : Except ε α → σ → Prop) : Prop := Q (x s).1 (x s).2

variable {s : σ} {Q : Except ε α → σ → Prop}

@[simp] theorem post_pure (a : α) : Post (pure a : Action ε σ α) s Q ↔ Q (.ok a) s := Iff.rfl

@[simp] theorem post_throw (e : ε) : Post (throw e : Action ε σ α) s Q ↔ Q (.error e) s := Iff.rfl

@[simp] theorem post_gets (f : σ → α) : Post (gets f : Action ε σ α) s Q ↔ Q (.ok (f s)) s := Iff.rfl

@[simp] theorem post_modify (f : σ → σ) {Q : Except ε Unit → σ → Prop} :
    Post (modify f : Action ε σ Unit) s Q ↔ Q (.ok ()) (f s) := Iff.rfl

@[simp] theorem post_update (f : σ → α × σ) :
    Post (update f : Action ε σ α) s Q ↔ Q (.ok (f s).1) (f s).2 := Iff.rfl

@[simp] theorem post_query (f : σ → Except ε α) : Post (query f : Action ε σ α) s Q ↔ Q (f s) s := Iff.rfl

@[simp] theorem post_lift (x : Except ε α) : Post (lift x : Action ε σ α) s Q ↔ Q x s := Iff.rfl

@[simp] theorem post_bind (x : Action ε σ α) (f : α → Action ε σ β) {Q : Except ε β → σ → Prop} :
    Post (x >>= f) s Q ↔
      Post x s (fun r s' => match r with
        | .ok a => Post (f a) s' Q
        | .error e => Q (.error e) s') := by
  change Q (Action.bind x f s).1 (Action.bind x f s).2 ↔ _
  unfold Post Action.bind
  rcases x s with ⟨_ | _, s'⟩ <;> rfl

theorem post_gets_bind (f : σ → α) (k : α → Action ε σ β) {Q : Except ε β → σ → Prop} :
    Post (gets f >>= k) s Q ↔ Post (k (f s)) s Q := by rw [post_bind, post_gets]

theorem post_update_bind (f : σ → α × σ) (k : α → Action ε σ β) {Q : Except ε β → σ → Prop} :
    Post (update f >>= k) s Q ↔ Post (k (f s).1) (f s).2 Q := by rw [post_bind, post_update]

/-- Go on with the value, or throw. -/
theorem post_lift_bind {x : Except ε α} {k : α → Action ε σ β} {Q : Except ε β → σ → Prop}
    (hok : ∀ a, x = .ok a → Post (k a) s Q) (herr : ∀ e, Q (.error e) s) : Post (lift x >>= k) s Q := by
  rw [post_bind, post_lift]
  cases h : x with
  | ok a => exact hok a h
  | error e => exact herr e

theorem post_lift_ok {x : Except ε α} {k : α → Action ε σ β} {Q : Except ε β → σ → Prop} {a : α} (hx : x = .ok a)
    (h : Post (k a) s Q) : Post (lift x >>= k) s Q := by
  rw [post_bind, post_lift, hx]
  exact h

@[simp] theorem post_tryCatch (x : Action ε σ α) (h : ε → Action ε σ α) :
    Post (tryCatch x h) s Q ↔
      Post x s (fun r s' => match r with
        | .ok a => Q (.ok a) s'
        | .error e => Post (h e) s' Q) := by
  unfold Post tryCatch
  rcases x s with ⟨_ | _, s'⟩ <;> rfl

@[simp] theorem post_ite (c : Prop) [Decidable c] (x y : Action ε σ α) :
    Post (if c then x else y) s Q ↔ (c → Post x s Q) ∧ (¬ c → Post y s Q) := by
  by_cases h : c <;> simp [h]

/-- Weaken the postcondition. -/
theorem Post.mono {x : Action ε σ α} {P Q : Except ε α → σ → Prop} (h : Post x s P)
    (hpq : ∀ r s', P r s' → Q r s') : Post x s Q := hpq _ _ h

theorem Post.and {x : Action ε σ α} {P Q : Except ε α → σ → Prop} (hp : Post x s P) (hq : Post x s Q) :
    Post x s (fun r s' => P r s' ∧ Q r s') := ⟨hp, hq⟩

/-- What `x` satisfies, about its actual result. -/
theorem Post.of_run {x : Action ε σ α} {r : Except ε α} {s' : σ} (h : Post x s Q) (hr : x s = (r, s')) :
    Q r s' := by
  unfold Post at h; rwa [hr] at h

/-- A relation that is reflexive and transitive and that `f` keeps on every
element holds between the start and the end of `collect`, thrown or not. -/
theorem post_collect {R : σ → σ → Prop} (hrefl : ∀ s, R s s) (htrans : ∀ {a b c}, R a b → R b c → R a c)
    {f : β → Action ε σ (List α)} {bs : List β} (hf : ∀ b ∈ bs, ∀ s, Post (f b) s (fun _ s' => R s s')) (s : σ) :
    Post (collect f bs) s (fun _ s' => R s s') := by
  induction bs generalizing s with
  | nil => exact hrefl s
  | cons b bs ih =>
    simp only [collect, post_bind, post_pure]
    refine (hf b (by simp) s).mono fun r s₁ h₁ => ?_
    cases r with
    | error e => exact h₁
    | ok xs =>
      refine (ih (fun c hc => hf c (by simp [hc])) s₁).mono fun r s₂ h₂ => ?_
      cases r <;> exact htrans h₁ h₂

/-! ## What an action leaves alone -/

/-- `x` moves the state along `R`, whether it returns or throws. -/
def Within (R : σ → σ → Prop) (x : Action ε σ α) : Prop := ∀ s, R s (x s).2

namespace Within
variable {R : σ → σ → Prop}

section
variable [Std.Refl R]

theorem pure (a : α) : Within R (Pure.pure a : Action ε σ α) := fun s => Std.Refl.refl s

theorem throw (e : ε) : Within R (Action.throw e : Action ε σ α) := fun s => Std.Refl.refl s

theorem gets (g : σ → α) : Within R (Action.gets g : Action ε σ α) := fun s => Std.Refl.refl s

theorem query (g : σ → Except ε α) : Within R (Action.query g) := fun s => Std.Refl.refl s

theorem lift (x : Except ε α) : Within R (Action.lift x) := fun s => Std.Refl.refl s

end

theorem modify {g : σ → σ} (h : ∀ s, R s (g s)) : Within R (Action.modify g : Action ε σ Unit) := h

theorem update {g : σ → α × σ} (h : ∀ s, R s (g s).2) : Within R (Action.update g : Action ε σ α) := h

theorem ite {c : Prop} [Decidable c] {x y : Action ε σ α} (hx : Within R x) (hy : Within R y) :
    Within R (if c then x else y) := by
  split
  · exact hx
  · exact hy

variable [IsTrans σ R]

theorem bind {x : Action ε σ α} {k : α → Action ε σ β} (hx : Within R x) (hk : ∀ a, Within R (k a)) :
    Within R (x >>= k) := by
  intro s
  have hfirst := hx s
  change R s (Action.bind x k s).2
  unfold Action.bind
  rcases hrun : x s with ⟨_ | a, s'⟩ <;> rw [hrun] at hfirst
  · exact hfirst
  · exact IsTrans.trans _ _ _ hfirst (hk a s')

theorem tryCatch {x : Action ε σ α} {h : ε → Action ε σ α} (hx : Within R x) (hh : ∀ e, Within R (h e)) :
    Within R (Action.tryCatch x h) := by
  intro s
  have hfirst := hx s
  unfold Action.tryCatch
  rcases hrun : x s with ⟨e | _, s'⟩ <;> rw [hrun] at hfirst
  · exact IsTrans.trans _ _ _ hfirst (hh e s')
  · exact hfirst

theorem collect [Std.Refl R] {g : β → Action ε σ (List α)} (h : ∀ b, Within R (g b)) (bs : List β) :
    Within R (Action.collect g bs) := by
  induction bs with
  | nil => exact .pure _
  | cons b bs ih => exact .bind (h b) fun _ => .bind ih fun _ => .pure _

end Within

/-- The two states look alike through `f`. -/
def Same {τ : Type} (f : σ → τ) (s s' : σ) : Prop := f s' = f s

instance {τ : Type} (f : σ → τ) : Std.Refl (Same f) := ⟨fun _ => rfl⟩

instance {τ : Type} (f : σ → τ) : IsTrans σ (Same f) := ⟨fun _ _ _ h h' => Eq.trans h' h⟩

/-- What `x` leaves alone. -/
abbrev Leaves {τ : Type} (f : σ → τ) (x : Action ε σ α) : Prop := Within (Same f) x

/-! ## What an action returns -/

/-- Whatever `x` returns, from any state, satisfies `P`. -/
def Returns (P : α → Prop) (x : Action ε σ α) : Prop := ∀ s a, (x s).1 = .ok a → P a

namespace Returns
variable {P : α → Prop} {P' : β → Prop}

theorem pure {a : α} (h : P a) : Returns P (Pure.pure a : Action ε σ α) := by
  rintro s _ ⟨⟩
  exact h

theorem throw (e : ε) : Returns P (Action.throw e : Action ε σ α) := by
  rintro s _ ⟨⟩

theorem lift {x : Except ε α} (h : ∀ a, x = .ok a → P a) : Returns P (Action.lift x : Action ε σ α) := fun _ => h

theorem query {f : σ → Except ε α} (h : ∀ s a, f s = .ok a → P a) : Returns P (Action.query f) := h

theorem mono {Q : α → Prop} {x : Action ε σ α} (h : Returns P x) (hpq : ∀ a, P a → Q a) : Returns Q x :=
  fun s a ha => hpq a (h s a ha)

theorem bind {x : Action ε σ β} {k : β → Action ε σ α} (hx : Returns P' x) (hk : ∀ b, P' b → Returns P (k b)) :
    Returns P (x >>= k) := by
  intro s a ha
  change (Action.bind x k s).1 = _ at ha
  unfold Action.bind at ha
  rcases hrun : x s with ⟨_ | b, s'⟩ <;> rw [hrun] at ha
  · cases ha
  · exact hk b (hx s b (by rw [hrun])) s' a ha

/-- What comes before does not matter. -/
theorem skip {x : Action ε σ β} {k : β → Action ε σ α} (hk : ∀ b, Returns P (k b)) : Returns P (x >>= k) :=
  bind (fun _ _ _ => trivial) fun b (_ : True) => hk b

theorem tryCatch {x : Action ε σ α} {h : ε → Action ε σ α} (hx : Returns P x) (hh : ∀ e, Returns P (h e)) :
    Returns P (Action.tryCatch x h) := by
  intro s a ha
  unfold Action.tryCatch at ha
  rcases hrun : x s with ⟨e | b, s'⟩ <;> rw [hrun] at ha
  · exact hh e s' a ha
  · cases ha
    exact hx s a (by rw [hrun])

theorem ite {c : Prop} [Decidable c] {x y : Action ε σ α} (hx : Returns P x) (hy : Returns P y) :
    Returns P (if c then x else y) := by
  split
  · exact hx
  · exact hy

end Returns

end Action

end LanLink.Lib
