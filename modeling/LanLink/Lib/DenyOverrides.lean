import Mathlib.Tactic
/-!
# Rules where a denial wins

A rule that applies either allows or denies. A set of rules permits if some rule
that applies allows and none denies. A list of rules is evaluated in one pass that
stops at the first denial; what it says depends on the set of rules alone.
-/
namespace LanLink.Lib

variable {ρ : Type*}

/-- Some applicable rule allows, none denies. -/
def Permits (applies allows : ρ → Prop) (rules : Set ρ) : Prop :=
  (∃ r ∈ rules, applies r ∧ allows r) ∧ ∀ r ∈ rules, applies r → allows r

section
variable {applies allows : ρ → Prop} {rules : Set ρ} {r : ρ}

theorem Permits.insert_allow (hr : allows r) (h : Permits applies allows rules) : Permits applies allows (insert r rules) := by
  obtain ⟨⟨s, hs, hallow⟩, hall⟩ := h
  refine ⟨⟨s, Set.mem_insert_of_mem r hs, hallow⟩, ?_⟩
  intro t ht happlies
  rcases ht with rfl | ht
  · exact hr
  · exact hall t ht happlies

theorem Permits.of_insert_deny (hr : ¬ allows r) (h : Permits applies allows (insert r rules)) : Permits applies allows rules := by
  obtain ⟨⟨s, hs, hallow⟩, hall⟩ := h
  refine ⟨⟨s, ?_, hallow⟩, fun t ht => hall t (Set.mem_insert_of_mem r ht)⟩
  rcases hs with rfl | hs
  · exact absurd hallow.2 hr
  · exact hs

end

/-- One pass over the rules; `allowed` says that one of them has allowed. -/
def scan (applies allows : ρ → Bool) : Bool → List ρ → Bool
  | allowed, [] => allowed
  | allowed, r :: rules => if applies r then if allows r then scan applies allows true rules else false
    else scan applies allows allowed rules

section
variable {applies allows : ρ → Bool}

theorem scan_iff (allowed : Bool) (rules : List ρ) : scan applies allows allowed rules ↔
    (allowed ∨ ∃ r ∈ rules, applies r ∧ allows r) ∧ ∀ r ∈ rules, applies r → allows r := by
  induction rules generalizing allowed with
  | nil => simp [scan]
  | cons r rules ih =>
    rw [scan]
    split
    · split
      · rw [ih]
        simp_all
      · simp_all
    · rw [ih]
      simp_all

/-- Started without an allowing rule, the pass decides whether the rules permit. -/
theorem scan_eq_permits (rules : List ρ) :
    scan applies allows false rules ↔ Permits (applies ·) (allows ·) {r | r ∈ rules} := by
  rw [scan_iff]
  simp [Permits]

end

end LanLink.Lib
