import Mathlib.Tactic
/-!
# Serial numbers

A counter steps through serial numbers and comes around again. Numbers are
drawn from it by a loop that passes over those it may not use. Until the
counter has come around, and whatever else is passed over, no number is drawn
twice and the loop ends.
-/
namespace LanLink.Lib.Serials

variable {α : Type} (next : α → α) (usable : α → Bool)

/-- Step to the first number from `x` on that is not taken, `fuel` of them at most: it, and where the counter is then. -/
def draw (taken : α → Bool) : ℕ → α → Option (α × α)
  | 0, _ => none
  | fuel + 1, x => if taken x then draw taken fuel (next x) else some (x, next x)

/-- The usable ones among the first `d` numbers from `x` on. -/
def drawn (x : α) (d : ℕ) : List α := ((List.range d).map fun p => next^[p] x).filter usable

variable {next usable} {x : α} {n d p : ℕ}

theorem draw_eq {taken : α → Bool} {fuel : ℕ} (hp : p < fuel) (hfree : taken (next^[p] x) = false)
    (hskip : ∀ q < p, taken (next^[q] x) = true) : draw next taken fuel x = some (next^[p] x, next^[p + 1] x) := by
  induction fuel generalizing x p with
  | zero => omega
  | succ fuel ih =>
    cases p with
    | zero => simp [draw, show taken x = false from hfree]
    | succ p =>
      have hx : taken x = true := hskip 0 (by omega)
      rw [draw, if_pos hx]
      exact ih (by omega) hfree fun q hq => hskip (q + 1) (by omega)

@[simp] theorem drawn_zero : drawn next usable x 0 = [] := rfl

theorem drawn_succ : drawn next usable x (d + 1) =
    drawn next usable x d ++ if usable (next^[d] x) then [next^[d] x] else [] := by
  simp only [drawn, List.range_succ, List.map_append, List.map_cons, List.map_nil, List.filter_append]
  cases h : usable (next^[d] x) <;> simp [h]

theorem usable_of_mem_drawn {a : α} (h : a ∈ drawn next usable x d) : usable a = true := (List.mem_filter.1 h).2

/-- No number comes twice before the counter comes around. -/
theorem nodup_drawn (hinj : Set.InjOn (fun p => next^[p] x) (Set.Iio n)) (hd : d ≤ n) : (drawn next usable x d).Nodup := by
  refine List.Nodup.filter _ (List.Nodup.map_on (fun p hp q hq heq => hinj ?_ ?_ heq) List.nodup_range)
  · exact (List.mem_range.1 hp).trans_le hd
  · exact (List.mem_range.1 hq).trans_le hd

theorem drawn_of_unusable {m : ℕ} (h : ∀ q, d ≤ q → q < d + m → usable (next^[q] x) = false) :
    drawn next usable x (d + m) = drawn next usable x d := by
  induction m with
  | zero => rfl
  | succ m ih =>
    rw [← add_assoc, drawn_succ, ih fun q hq hlt => h q hq (by omega), h (d + m) (by omega) (by omega)]
    simp

/-- Where usable numbers are left, the next one comes after some that are not. -/
theorem exists_next (hd : d ≤ n) (hlt : (drawn next usable x d).length < (drawn next usable x n).length) :
    ∃ p, d ≤ p ∧ p < n ∧ usable (next^[p] x) = true ∧ (∀ q, d ≤ q → q < p → usable (next^[q] x) = false) ∧
      drawn next usable x (p + 1) = drawn next usable x d ++ [next^[p] x] := by
  have hsome : ∃ p, d ≤ p ∧ p < n ∧ usable (next^[p] x) = true := by
    by_contra hnone
    push Not at hnone
    obtain ⟨m, rfl⟩ := Nat.exists_eq_add_of_le hd
    rw [drawn_of_unusable fun q hq hqn => by simpa using hnone q hq hqn] at hlt
    exact lt_irrefl _ hlt
  classical
  obtain ⟨hp, hpn, hu⟩ := Nat.find_spec hsome
  have hskip : ∀ q, d ≤ q → q < Nat.find hsome → usable (next^[q] x) = false := by
    intro q hq hlt
    have hmin := Nat.find_min hsome hlt
    simp only [not_and, Bool.not_eq_true] at hmin
    exact hmin hq (hlt.trans hpn)
  refine ⟨Nat.find hsome, hp, hpn, hu, hskip, ?_⟩
  obtain ⟨m, hm⟩ := Nat.exists_eq_add_of_le hp
  rw [drawn_succ, hu, if_pos rfl, hm, drawn_of_unusable fun q hq hqm => hskip q hq (by omega)]

/-- The loop passes over what is unusable or taken. Where only unusable numbers and numbers that were drawn are taken, it
comes to a number that was not drawn. -/
theorem draw_fresh {taken : α → Bool} (hinj : Set.InjOn (fun p => next^[p] x) (Set.Iio n)) (hd : d ≤ n)
    (hlt : (drawn next usable x d).length < (drawn next usable x n).length)
    (hunusable : ∀ a, usable a = false → taken a = true)
    (hdrawn : ∀ a, usable a = true → taken a = true → a ∈ drawn next usable x d) :
    ∃ p, d ≤ p ∧ p < n ∧ draw next taken n (next^[d] x) = some (next^[p] x, next^[p + 1] x) ∧
      drawn next usable x (p + 1) = drawn next usable x d ++ [next^[p] x] ∧ next^[p] x ∉ drawn next usable x d := by
  obtain ⟨p, hp, hpn, hu, hskip, hnext⟩ := exists_next hd hlt
  have hfresh : next^[p] x ∉ drawn next usable x d := by
    have hnodup := @nodup_drawn _ next usable x n (p + 1) hinj (by omega)
    rw [hnext, List.nodup_append] at hnodup
    exact fun hmem => hnodup.2.2 _ hmem _ (List.mem_singleton_self _) rfl
  have hshift (q : ℕ) : next^[q] (next^[d] x) = next^[d + q] x := by rw [Nat.add_comm, Function.iterate_add_apply]
  refine ⟨p, hp, hpn, ?_, hnext, hfresh⟩
  obtain ⟨m, rfl⟩ := Nat.exists_eq_add_of_le hp
  rw [← hshift m, add_assoc, ← hshift (m + 1)]
  refine draw_eq (by omega) ?_ fun q hq => ?_
  · rw [hshift]
    by_contra htaken
    exact hfresh (hdrawn _ hu (by simpa using htaken))
  · rw [hshift]
    exact hunusable _ (hskip _ (by omega) (by omega))

/-- All numbers but the unusable ones are drawn. -/
theorem length_drawn (hinj : Set.InjOn (fun p => next^[p] x) (Set.Iio n)) (unusable : List α)
    (h : ∀ p < n, usable (next^[p] x) = false → next^[p] x ∈ unusable) :
    n ≤ (drawn next usable x n).length + unusable.length := by
  have hnodup : ((List.range n).map fun p => next^[p] x).Nodup :=
    List.Nodup.map_on (fun p hp q hq heq => hinj (List.mem_range.1 hp) (List.mem_range.1 hq) heq) List.nodup_range
  have hsplit := List.length_eq_length_filter_add usable (l := (List.range n).map fun p => next^[p] x)
  have hrest : (((List.range n).map fun p => next^[p] x).filter fun a => !usable a).length ≤ unusable.length := by
    refine (List.subperm_of_subset (hnodup.filter _) fun a ha => ?_).length_le
    obtain ⟨hmem, hu⟩ := List.mem_filter.1 ha
    obtain ⟨p, hp, rfl⟩ := List.mem_map.1 hmem
    exact h p (List.mem_range.1 hp) (by simpa using hu)
  simp only [List.length_map, List.length_range] at hsplit
  unfold drawn
  omega

end LanLink.Lib.Serials
