import Mathlib.Tactic
/-!
# Runs

A run feeds an unbounded sequence of inputs to a step function. Its state after
`k` inputs depends on the first `k` only, so a fact about every index of every
run is a fact about every finite run and each of its states.
-/
namespace LanLink.Lib

variable {σ ι : Type}

/-- The state after the first `k` inputs. -/
def states (step : σ → ι → σ) (s₀ : σ) (inputs : ℕ → ι) : ℕ → σ
  | 0 => s₀
  | k + 1 => step (states step s₀ inputs k) (inputs k)

/-- States some run from `s₀` passes through. -/
inductive Reachable (step : σ → ι → σ) (s₀ : σ) : σ → Prop
  | init : Reachable step s₀ s₀
  | step {s : σ} (i : ι) : Reachable step s₀ s → Reachable step s₀ (step s i)

section
variable {step : σ → ι → σ} {s₀ : σ}

theorem states_reachable (inputs : ℕ → ι) (k : ℕ) : Reachable step s₀ (states step s₀ inputs k) := by
  induction k with
  | zero => exact .init
  | succ k ih => exact .step _ ih

/-- A state depends on the inputs before it. -/
theorem states_congr {inputs inputs' : ℕ → ι} {k : ℕ} (h : ∀ i < k, inputs i = inputs' i) :
    states step s₀ inputs k = states step s₀ inputs' k := by
  induction k with
  | zero => rfl
  | succ k ih => rw [states, states, ih fun i hi => h i (by omega), h k (by omega)]

theorem Reachable.foldl {s : σ} (h : Reachable step s₀ s) (inputs : List ι) :
    Reachable step s₀ (inputs.foldl step s) := by
  induction inputs generalizing s with
  | nil => exact h
  | cons i inputs ih => exact ih (.step i h)

/-- An invariant kept by every step holds in every reachable state. -/
theorem Reachable.inv (I : σ → Prop) (h0 : I s₀) (hs : ∀ s i, I s → I (step s i)) {s : σ}
    (h : Reachable step s₀ s) : I s := by
  induction h with
  | init => exact h0
  | step i _ ih => exact hs _ i ih

theorem Reachable.trans {s t : σ} (h : Reachable step s₀ s) (h' : Reachable step s t) : Reachable step s₀ t := by
  induction h' with
  | init => exact h
  | step i _ ih => exact ih.step i

/-- A reachable state is one of some run. -/
theorem Reachable.exists_states [Inhabited ι] {s : σ} (h : Reachable step s₀ s) :
    ∃ inputs k, s = states step s₀ inputs k := by
  induction h with
  | init => exact ⟨fun _ => default, 0, rfl⟩
  | step i _ ih =>
    obtain ⟨inputs, k, rfl⟩ := ih
    refine ⟨Function.update inputs k i, k + 1, ?_⟩
    rw [states, Function.update_self]
    congr 1
    exact states_congr fun j hj => (Function.update_of_ne hj.ne i inputs).symm

/-- An invariant kept by every step that meets `C` holds throughout every run
whose steps all meet `C`. -/
theorem states_inv (I : σ → Prop) (C : σ → ι → Prop) (h0 : I s₀) (hs : ∀ s i, C s i → I s → I (step s i))
    {inputs : ℕ → ι} (hc : ∀ k, C (states step s₀ inputs k) (inputs k)) (k : ℕ) :
    I (states step s₀ inputs k) := by
  induction k with
  | zero => exact h0
  | succ k ih => exact hs _ _ (hc k) ih

/-- Runs only move up in a relation that every step respects. -/
theorem states_mono {R : σ → σ → Prop} (hrefl : ∀ s, R s s) (htrans : ∀ {a b c}, R a b → R b c → R a c)
    (hs : ∀ s i, R s (step s i)) (inputs : ℕ → ι) {j k : ℕ} (h : j ≤ k) :
    R (states step s₀ inputs j) (states step s₀ inputs k) := by
  induction k, h using Nat.le_induction with
  | base => exact hrefl _
  | succ k _ ih => exact htrans ih (hs _ _)

/-- The same input, over and over. -/
theorem states_iterate {inputs : ℕ → ι} {i : ι} (m : ℕ) {j : ℕ} (h : ∀ k, m ≤ k → k < m + j → inputs k = i) :
    states step s₀ inputs (m + j) = (fun s => step s i)^[j] (states step s₀ inputs m) := by
  induction j with
  | zero => rfl
  | succ j ih =>
    rw [← add_assoc, states, ih fun k hm hj => h k hm (by omega), h (m + j) (by omega) (by omega),
      Function.iterate_succ_apply']

end

/-- If `P` is false at the start and true at `k`, it became true at some last
step before `k` and has been true since. -/
theorem exists_last_rise {P : ℕ → Prop} {k : ℕ} (h0 : ¬ P 0) (hk : P k) :
    ∃ j < k, ¬ P j ∧ ∀ i, j < i → i ≤ k → P i := by
  induction k with
  | zero => exact absurd hk h0
  | succ k ih =>
    by_cases h : P k
    · obtain ⟨j, hj, hn, hs⟩ := ih h
      refine ⟨j, by omega, hn, fun i hi hik => ?_⟩
      rcases Nat.lt_or_ge i (k + 1) with h' | h'
      · exact hs i hi (by omega)
      · rwa [show i = k + 1 by omega]
    · exact ⟨k, by omega, h, fun i hi hik => by rwa [show i = k + 1 by omega]⟩

end LanLink.Lib
