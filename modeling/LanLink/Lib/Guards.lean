import Mathlib.Tactic
/-!
# Guarded computations

A chain of checks in `Except` succeeds exactly when each check holds. These
rules turn `chain = .ok x` into the checks and the value.
-/
namespace LanLink.Lib

variable {ε α β : Type}

/-- Go on if `c` holds, throw `e` otherwise. -/
def check (c : Prop) [Decidable c] (e : ε) : Except ε Unit := if c then .ok () else .error e

@[simp] theorem check_eq_ok {c : Prop} [Decidable c] {e : ε} {u : Unit} : check c e = .ok u ↔ c := by
  unfold check; split <;> simp_all

theorem check_of {c : Prop} [Decidable c] {e : ε} (h : c) : check c e = .ok () := if_pos h

theorem check_of_not {c : Prop} [Decidable c] {e : ε} (h : ¬ c) : check c e = .error e := if_neg h

theorem check_eq_error {c : Prop} [Decidable c] {e e' : ε} (h : check c e = .error e') : ¬ c ∧ e' = e := by
  unfold check at h; split at h <;> simp_all

@[simp] theorem bind_eq_ok {x : Except ε α} {f : α → Except ε β} {b : β} :
    (x >>= f) = .ok b ↔ ∃ a, x = .ok a ∧ f a = .ok b := by
  cases x <;> simp [bind, Except.bind]

@[simp] theorem pure_eq_ok {a b : α} : (pure a : Except ε α) = .ok b ↔ a = b := by
  simp [pure, Except.pure]

@[simp] theorem error_bind {e : ε} {f : α → Except ε β} : ((.error e : Except ε α) >>= f) = .error e := rfl

@[simp] theorem ok_bind {a : α} {f : α → Except ε β} : ((.ok a : Except ε α) >>= f) = f a := rfl

/-- A loop of checks passes when each element does. -/
theorem forM_eq_ok {f : α → Except ε Unit} {l : List α} : l.forM f = .ok () ↔ ∀ a ∈ l, f a = .ok () := by
  induction l with
  | nil => exact ⟨fun _ a ha => absurd ha (List.not_mem_nil), fun _ => rfl⟩
  | cons a l ih =>
    change (f a >>= fun _ => l.forM f) = .ok () ↔ _
    rw [bind_eq_ok, List.forall_mem_cons, ← ih]
    exact ⟨fun ⟨_, ha, hl⟩ => ⟨ha, hl⟩, fun ⟨ha, hl⟩ => ⟨(), ha, hl⟩⟩

/-! ## What a chain throws -/

/-- Whatever `x` throws satisfies `P`. -/
def Throws (P : ε → Prop) (x : Except ε α) : Prop := ∀ e, x = .error e → P e

theorem throws_ok {P : ε → Prop} {a : α} : Throws P (.ok a : Except ε α) := fun _ h => nomatch h

theorem throws_check {P : ε → Prop} {c : Prop} [Decidable c] {e : ε} (h : P e) : Throws P (check c e) :=
  fun _ he => (check_eq_error he).2 ▸ h

theorem Throws.bind {P : ε → Prop} {x : Except ε α} {f : α → Except ε β} (hx : Throws P x) (hf : ∀ a, Throws P (f a)) :
    Throws P (x >>= f) := by
  cases x with
  | ok a => exact hf a
  | error e => exact fun _ he => hx _ (by simpa using he)

theorem throws_forM {P : ε → Prop} {f : α → Except ε Unit} (hf : ∀ a, Throws P (f a)) (l : List α) :
    Throws P (l.forM f) := by
  induction l with
  | nil => exact throws_ok
  | cons a l ih => exact (hf a).bind fun _ => ih

/-- Every result of a `mapM` comes from an element. -/
theorem mem_of_mapM_eq_ok {f : α → Except ε β} {l : List α} {bs : List β} (h : l.mapM f = .ok bs) {b : β} (hb : b ∈ bs) :
    ∃ a ∈ l, f a = .ok b := by
  induction l generalizing bs with
  | nil =>
    simp only [List.mapM_nil, pure_eq_ok] at h
    cases h
    exact absurd hb List.not_mem_nil
  | cons a l ih =>
    simp only [List.mapM_cons, bind_eq_ok, pure_eq_ok] at h
    obtain ⟨c, hc, cs, hcs, hbs⟩ := h
    cases hbs
    rcases List.mem_cons.1 hb with rfl | hb
    · exact ⟨a, List.mem_cons_self, hc⟩
    · obtain ⟨a', ha', hab⟩ := ih hcs hb
      exact ⟨a', List.mem_cons_of_mem _ ha', hab⟩

/-- The results of a `mapM` that went through, element by element. -/
theorem map_of_mapM_eq_ok [Inhabited β] {f : α → Except ε β} {l : List α} {bs : List β} (h : l.mapM f = .ok bs) :
    bs = l.map (fun a => (f a).toOption.getD default) ∧ ∀ a ∈ l, f a = .ok ((f a).toOption.getD default) := by
  induction l generalizing bs with
  | nil =>
    simp only [List.mapM_nil, pure_eq_ok] at h
    exact ⟨h.symm, by simp⟩
  | cons a l ih =>
    simp only [List.mapM_cons, bind_eq_ok, pure_eq_ok] at h
    obtain ⟨b, hb, bs, hbs, rfl⟩ := h
    obtain ⟨hmap, hall⟩ := ih hbs
    have hfirst : (f a).toOption.getD default = b := by rw [hb]; rfl
    refine ⟨by rw [List.map_cons, hfirst, ← hmap], fun c hc => ?_⟩
    rcases List.mem_cons.1 hc with rfl | hc
    · rw [hfirst, hb]
    · exact hall c hc

theorem exists_mapM_eq_ok {f : α → Except ε β} {l : List α} (h : ∀ a ∈ l, ∃ b, f a = .ok b) :
    ∃ bs, l.mapM f = .ok bs := by
  induction l with
  | nil => exact ⟨[], rfl⟩
  | cons a l ih =>
    obtain ⟨b, hb⟩ := h a (by simp)
    obtain ⟨bs, hbs⟩ := ih fun c hc => h c (by simp [hc])
    exact ⟨b :: bs, by simp [List.mapM_cons, hb, hbs]⟩

end LanLink.Lib
