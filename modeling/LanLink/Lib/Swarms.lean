import Mathlib.Tactic
/-!
# Swarms

Machines of one kind that run side by side, and a log of what each has put out.
New machines join; each input goes to one machine. What a machine keeps of its
own state and its own outputs holds of every machine of the swarm, and a fact
that only grows with the log survives the steps of the others.
-/
namespace LanLink.Lib

/-- Machines, and their outputs in order, each under the number of its machine. -/
structure Swarm (σ ο : Type) where
  machines : List σ := []
  outputs : List (ℕ × ο) := []

namespace Swarm
variable {σ ο ι : Type}

def outputsOf (w : Swarm σ ο) (i : ℕ) : List ο := (w.outputs.filter (·.1 = i)).map (·.2)

def join (w : Swarm σ ο) (s : σ) : Swarm σ ο := { w with machines := w.machines ++ [s] }

/-- An input for the machine at `i`, if there is one. -/
def feed (work : σ → ι → List ο × σ) (w : Swarm σ ο) (i : ℕ) (x : ι) : Swarm σ ο :=
  match w.machines[i]? with
  | none => w
  | some s => { machines := w.machines.set i (work s x).2, outputs := w.outputs ++ (work s x).1.map (i, ·) }

variable {work : σ → ι → List ο × σ} {w : Swarm σ ο} {i j : ℕ} {x : ι} {s s' : σ}

theorem mem_outputsOf {o : ο} : o ∈ w.outputsOf i ↔ (i, o) ∈ w.outputs := by
  simp [outputsOf]

/-! ## One step -/

theorem feed_some (h : w.machines[i]? = some s) :
    w.feed work i x = { machines := w.machines.set i (work s x).2, outputs := w.outputs ++ (work s x).1.map (i, ·) } := by
  rw [feed, h]

theorem feed_none (h : w.machines[i]? = none) : w.feed work i x = w := by rw [feed, h]

theorem machines_join : (w.join s).machines[j]? = some s' ↔ w.machines[j]? = some s' ∨ (j = w.machines.length ∧ s = s') := by
  simp only [join]
  rcases lt_trichotomy j w.machines.length with hlt | rfl | hlt
  · rw [List.getElem?_append_left hlt]
    exact ⟨.inl, fun h => h.resolve_right fun heq => by omega⟩
  · simp
  · rw [List.getElem?_eq_none (by simpa using hlt), List.getElem?_eq_none (by omega)]
    simp only [reduceCtorEq, false_or, false_iff, not_and]
    omega

/-- After an input, the others are as they were. -/
theorem machines_feed (h : (w.feed work i x).machines[j]? = some s') :
    (j ≠ i ∧ w.machines[j]? = some s') ∨ (j = i ∧ ∃ s, w.machines[i]? = some s ∧ s' = (work s x).2) := by
  cases hi : w.machines[i]? with
  | none =>
    rw [feed_none hi] at h
    refine .inl ⟨?_, h⟩
    rintro rfl
    rw [hi] at h
    cases h
  | some s =>
    rw [feed_some hi] at h
    simp only [List.getElem?_set] at h
    split at h
    · rename_i hij
      split at h
      · cases h
        exact .inr ⟨hij.symm, s, rfl, rfl⟩
      · cases h
    · rename_i hij
      exact .inl ⟨fun heq => hij heq.symm, h⟩

theorem machines_feed_self (h : w.machines[i]? = some s) : (w.feed work i x).machines[i]? = some (work s x).2 := by
  have hlt : i < w.machines.length := (List.getElem?_eq_some_iff.1 h).1
  rw [feed_some h]
  exact List.getElem?_set_self hlt

theorem outputsOf_feed (h : w.machines[i]? = some s) : (w.feed work i x).outputsOf j =
    w.outputsOf j ++ if j = i then (work s x).1 else [] := by
  rw [feed_some h]
  simp only [outputsOf, List.filter_append, List.map_append, List.filter_map]
  congr 1
  split
  · rename_i hij
    subst hij
    simp [Function.comp_def]
  · rename_i hij
    simp [Function.comp_def, Ne.symm hij]

/-! ## What a machine keeps -/

/-- `J` relates every machine to its own outputs, and only machines have put out anything. -/
structure Local (J : σ → List ο → Prop) (w : Swarm σ ο) : Prop where
  own : ∀ i s, w.machines[i]? = some s → J s (w.outputsOf i)
  known : ∀ o ∈ w.outputs, o.1 < w.machines.length

variable {J : σ → List ο → Prop}

theorem local_empty : Local J ({} : Swarm σ ο) :=
  ⟨fun i s h => by simp at h, fun o h => by simp at h⟩

theorem Local.join (h : Local J w) (hs : J s []) : Local J (w.join s) := by
  refine ⟨fun j s' hj => ?_, fun o ho => ?_⟩
  · rcases machines_join.1 hj with hold | ⟨rfl, rfl⟩
    · exact h.own j s' hold
    · -- nothing was put out under the number of the new machine
      have hnone : (w.join s).outputsOf w.machines.length = [] := by
        simp only [outputsOf, List.map_eq_nil_iff, List.filter_eq_nil_iff, decide_eq_true_eq]
        intro o ho heq
        exact (h.known o ho).ne heq
      rw [hnone]
      exact hs
  · have hlt := h.known o ho
    simp only [Swarm.join, List.length_append, List.length_singleton]
    omega

theorem Local.feed (h : Local J w) (hwork : ∀ s, w.machines[i]? = some s → ∀ outs, J s outs → J (work s x).2 (outs ++ (work s x).1)) :
    Local J (w.feed work i x) := by
  cases hi : w.machines[i]? with
  | none =>
    rw [feed_none hi]
    exact h
  | some s =>
    refine ⟨fun j s' hj => ?_, fun o ho => ?_⟩
    · rw [outputsOf_feed hi]
      rcases machines_feed hj with ⟨hne, hold⟩ | ⟨rfl, s₀, hs₀, rfl⟩
      · rw [if_neg hne, List.append_nil]
        exact h.own j s' hold
      · rw [if_pos rfl]
        rw [hi] at hs₀
        cases hs₀
        exact hwork s hi _ (h.own j s hi)
    · rw [feed_some hi] at ho ⊢
      simp only [List.length_set]
      rcases List.mem_append.1 ho with hold | hnew
      · exact h.known o hold
      · obtain ⟨o', -, rfl⟩ := List.mem_map.1 hnew
        exact (List.getElem?_eq_some_iff.1 hi).1

/-! ## What the log backs -/

/-- A step keeps the machines, up to `R`, and what was put out. -/
structure Grows (R : σ → σ → Prop) (w w' : Swarm σ ο) : Prop where
  machines : ∀ (i : ℕ) (s : σ), w.machines[i]? = some s → ∃ s', w'.machines[i]? = some s' ∧ R s s'
  outputs : ∀ o ∈ w.outputs, o ∈ w'.outputs

variable {R : σ → σ → Prop}

theorem Grows.refl (hR : ∀ s, R s s) (w : Swarm σ ο) : Grows R w w := ⟨fun _ s h => ⟨s, h, hR s⟩, fun _ h => h⟩

theorem Grows.trans {w' w'' : Swarm σ ο} (hR : ∀ {a b c}, R a b → R b c → R a c) (h : Grows R w w') (h' : Grows R w' w'') :
    Grows R w w'' := by
  refine ⟨fun i s hs => ?_, fun o ho => h'.outputs o (h.outputs o ho)⟩
  obtain ⟨s', hs', hr⟩ := h.machines i s hs
  obtain ⟨s'', hs'', hr'⟩ := h'.machines i s' hs'
  exact ⟨s'', hs'', hR hr hr'⟩

theorem grows_join (hR : ∀ s, R s s) : Grows R w (w.join s) :=
  ⟨fun _ s' h => ⟨s', machines_join.2 (.inl h), hR s'⟩, fun _ h => h⟩

theorem grows_feed (hR : ∀ s, R s s) (hwork : ∀ s, w.machines[i]? = some s → R s (work s x).2) : Grows R w (w.feed work i x) := by
  cases hi : w.machines[i]? with
  | none =>
    rw [feed_none hi]
    exact .refl hR w
  | some s =>
    refine ⟨fun j s' hj => ?_, fun o ho => ?_⟩
    · by_cases hij : j = i
      · subst hij
        rw [hi] at hj
        cases hj
        exact ⟨_, machines_feed_self hi, hwork s hi⟩
      · refine ⟨s', ?_, hR s'⟩
        rw [feed_some hi]
        exact (List.getElem?_set_ne (Ne.symm hij)).trans hj
    · rw [feed_some hi]
      exact List.mem_append_left _ ho

end Swarm
end LanLink.Lib
