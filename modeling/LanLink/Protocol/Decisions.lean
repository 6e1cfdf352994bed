import Mathlib.Combinatorics.SimpleGraph.Basic
import LanLink.Lib.DenyOverrides
import LanLink.Protocol.NetworkPolicy
/-!
# What a policy allows

`policy_allows` is a loop over the rules that looks up groups on the way. What
it computes is a graph on the devices: two devices are linked if the topology
connects them and the rules, read as a set, permit the unordered pair.
-/
open LanLink.Lib

namespace LanLink

/-! ## Whom a rule names -/

/-- What a subject of a rule stands for. -/
inductive Party
  | everyone
  | device (d : DeviceId)
  | group (g : Text)

def PolicySubject.party (s : PolicySubject) : Party :=
  if s.device ≠ 0 then .device s.device else if s.group = [] then .everyone else .group s.group

/-- The first assignment of a device decides; a device without one is in `members`. -/
def InGroup (p : NetworkPolicy) (d : DeviceId) (g : Text) : Prop :=
  (∃ before m after, p.members = before ++ m :: after ∧ (∀ m' ∈ before, m'.device ≠ d) ∧ m.device = d ∧ m.group = g) ∨
    ((∀ m ∈ p.members, m.device ≠ d) ∧ g = membersGroup)

def Party.devices (p : NetworkPolicy) : Party → Set DeviceId
  | .everyone => Set.univ
  | .device d => {d}
  | .group g => {d | InGroup p d g}

/-- The two subjects of the rule stand for the two devices of the pair. -/
def Covers (p : NetworkPolicy) (pair : Sym2 DeviceId) (rule : AccessRule) : Prop :=
  ∃ a ∈ rule.first.party.devices p, ∃ b ∈ rule.second.party.devices p, s(a, b) = pair

section
variable {p : NetworkPolicy} {a b d : DeviceId} {g : Text}

theorem inGroup_iff : InGroup p d g ↔ g = policyGroup p d := by
  rw [policyGroup]
  cases hfind : p.members.find? (·.device = d) with
  | none =>
    have hnone : ∀ m ∈ p.members, m.device ≠ d := by simpa using hfind
    constructor
    · rintro (⟨before, m, after, hmembers, -, hd, -⟩ | ⟨-, hg⟩)
      · exact absurd hd (hnone m (by simp [hmembers]))
      · exact hg
    · intro hg
      exact .inr ⟨hnone, hg⟩
  | some m =>
    have hsplit := List.find?_eq_some_iff_append.1 hfind
    obtain ⟨hd, before, after, hmembers, hbefore⟩ := hsplit
    simp only [decide_eq_true_eq] at hd
    constructor
    · rintro (⟨before', m', after', hmembers', hbefore', hd', rfl⟩ | ⟨hnone, -⟩)
      · have hfind' : p.members.find? (·.device = d) = some m' :=
          List.find?_eq_some_iff_append.2 ⟨by simpa using hd', before', after', hmembers', by simpa using hbefore'⟩
        rw [hfind, Option.some_inj] at hfind'
        rw [hfind']
      · exact absurd hd (hnone m (by simp [hmembers]))
    · rintro rfl
      exact .inl ⟨before, m, after, hmembers, by simpa using hbefore, hd, rfl⟩

theorem subjectMatches_iff (s : PolicySubject) : subjectMatches p s d ↔ d ∈ s.party.devices p := by
  rw [subjectMatches, PolicySubject.party]
  split
  · simp [Party.devices, eq_comm]
  · by_cases hg : s.group = []
    · simp [hg, Party.devices]
    · simp [hg, Party.devices, inGroup_iff]

theorem ruleMatches_iff (rule : AccessRule) : ruleMatches p a b rule ↔ Covers p s(a, b) rule := by
  simp only [ruleMatches, Covers, Bool.or_eq_true, Bool.and_eq_true, subjectMatches_iff, Sym2.eq_iff]
  constructor
  · rintro (⟨ha, hb⟩ | ⟨hb, ha⟩)
    · exact ⟨a, ha, b, hb, .inl ⟨rfl, rfl⟩⟩
    · exact ⟨b, hb, a, ha, .inr ⟨rfl, rfl⟩⟩
  · rintro ⟨x, hx, y, hy, ⟨rfl, rfl⟩ | ⟨rfl, rfl⟩⟩
    · exact .inl ⟨hx, hy⟩
    · exact .inr ⟨hx, hy⟩

end

/-! ## The graph of a policy -/

namespace NetworkPolicy

/-- Any two devices in a mesh, a device and a hub otherwise. -/
def Connects (p : NetworkPolicy) (a b : DeviceId) : Prop := p.topology = .mesh ∨ a ∈ p.hubs ∨ b ∈ p.hubs

/-- Some allow rule covers the pair and no deny rule does. -/
def RulesPermit (p : NetworkPolicy) (pair : Sym2 DeviceId) : Prop :=
  Permits (Covers p pair) (·.allow) {rule | rule ∈ p.rules}

/-- The devices that may exchange traffic. -/
def links (p : NetworkPolicy) : SimpleGraph DeviceId where
  Adj a b := a ≠ b ∧ a ≠ 0 ∧ b ≠ 0 ∧ (p.managed → p.Connects a b ∧ p.RulesPermit s(a, b))
  symm := ⟨by
    rintro a b ⟨hne, ha, hb, hmanaged⟩
    refine ⟨hne.symm, hb, ha, fun hm => ?_⟩
    obtain ⟨hconnects, hpermit⟩ := hmanaged hm
    exact ⟨by unfold Connects at *; tauto, by rwa [Sym2.eq_swap]⟩⟩
  loopless := ⟨fun a h => h.1 rfl⟩

end NetworkPolicy

section
variable {p : NetworkPolicy} {a b : DeviceId}

theorem rulesAllow_eq_scan (allowed : Bool) (rules : List AccessRule) :
    rulesAllow p a b allowed rules = scan (ruleMatches p a b) (·.allow) allowed rules := by
  induction rules generalizing allowed with
  | nil => rfl
  | cons rule rules ih => rw [rulesAllow, scan, ih, ih]

theorem rulesAllow_iff : rulesAllow p a b false p.rules ↔ p.RulesPermit s(a, b) := by
  rw [rulesAllow_eq_scan, scan_eq_permits, NetworkPolicy.RulesPermit]
  simp only [ruleMatches_iff]

/-- The code decides the graph. -/
theorem policyAllows_iff : policyAllows p a b ↔ p.links.Adj a b := by
  have hconnects : (p.topology = .hubSpoke ∧ a ∉ p.hubs ∧ b ∉ p.hubs) ↔ ¬ p.Connects a b := by
    cases ht : p.topology <;> simp [NetworkPolicy.Connects, ht]
  change policyAllows p a b ↔ a ≠ b ∧ a ≠ 0 ∧ b ≠ 0 ∧ (p.managed → p.Connects a b ∧ p.RulesPermit s(a, b))
  rw [policyAllows]
  by_cases hends : a = b ∨ a = 0 ∨ b = 0
  · rw [if_pos hends]
    simp only [Bool.false_eq_true, false_iff]
    tauto
  · rw [if_neg hends]
    simp only [not_or] at hends
    by_cases hm : p.managed
    · rw [if_neg (not_not_intro hm)]
      by_cases hc : p.Connects a b
      · rw [if_neg fun h => hconnects.1 h hc, rulesAllow_iff]
        tauto
      · rw [if_pos (hconnects.2 hc)]
        simp only [Bool.false_eq_true, false_iff]
        tauto
    · rw [if_pos hm]
      simp only [true_iff]
      tauto

theorem policyAllows_comm (p : NetworkPolicy) (a b : DeviceId) : policyAllows p a b = policyAllows p b a := by
  rw [Bool.eq_iff_iff, policyAllows_iff, policyAllows_iff, SimpleGraph.adj_comm]

end

/-! ## Changing the rules -/

namespace NetworkPolicy

/-- A policy with other rules covers the same pairs with each of them. -/
theorem rulesPermit_rules (p : NetworkPolicy) (rules : List AccessRule) (pair : Sym2 DeviceId) :
    RulesPermit { p with rules := rules } pair ↔ Permits (Covers p pair) (·.allow) {rule | rule ∈ rules} := Iff.rfl

theorem links_mono {p : NetworkPolicy} {rules : List AccessRule}
    (h : ∀ pair, RulesPermit { p with rules := rules } pair → p.RulesPermit pair) : links { p with rules := rules } ≤ p.links := by
  rintro a b ⟨hne, ha, hb, hmanaged⟩
  refine ⟨hne, ha, hb, fun hm => ?_⟩
  obtain ⟨hconnects, hpermit⟩ := hmanaged hm
  exact ⟨hconnects, h _ hpermit⟩

/-- The order of the rules and how often each occurs do not matter. -/
theorem links_congr {p : NetworkPolicy} {rules : List AccessRule} (h : ∀ rule, rule ∈ rules ↔ rule ∈ p.rules) :
    links { p with rules := rules } = p.links := by
  have hset : {rule | rule ∈ rules} = {rule | rule ∈ p.rules} := Set.ext h
  apply le_antisymm
  · refine links_mono fun pair hpair => ?_
    rwa [rulesPermit_rules, hset] at hpair
  · refine links_mono (p := { p with rules := rules }) fun pair hpair => ?_
    rw [rulesPermit_rules, hset]
    exact hpair

theorem mem_insert_rule (before after : List AccessRule) (rule : AccessRule) :
    {r | r ∈ before ++ rule :: after} = insert rule {r | r ∈ before ++ after} := by
  ext r
  simp only [List.mem_append, List.mem_cons, Set.mem_ofPred_eq, Set.mem_insert_iff]
  tauto

/-- One more deny rule links no new pair. -/
theorem links_deny {p : NetworkPolicy} {before after : List AccessRule} {rule : AccessRule} (hrules : p.rules = before ++ after)
    (hdeny : rule.allow = false) : links { p with rules := before ++ rule :: after } ≤ p.links := by
  refine links_mono fun pair hpair => ?_
  rw [rulesPermit_rules, mem_insert_rule, ← hrules] at hpair
  exact hpair.of_insert_deny (by simp [hdeny])

/-- One more allow rule separates no pair. -/
theorem links_allow {p : NetworkPolicy} {before after : List AccessRule} {rule : AccessRule} (hrules : p.rules = before ++ after)
    (hallow : rule.allow = true) : p.links ≤ links { p with rules := before ++ rule :: after } := by
  refine links_mono (p := { p with rules := before ++ rule :: after }) fun pair hpair => ?_
  rw [rulesPermit_rules, mem_insert_rule, ← hrules]
  exact hpair.insert_allow hallow

end NetworkPolicy

/-- The decision is symmetric, depends on the rules as a set, is what the rules
say about the pair, and changes in one direction with each kind of rule. -/
theorem policy_decision (p : NetworkPolicy) (a b : DeviceId) :
    policyAllows p a b = policyAllows p b a ∧
    (∀ rules, (∀ rule, rule ∈ rules ↔ rule ∈ p.rules) → policyAllows { p with rules := rules } a b = policyAllows p a b) ∧
    (p.managed → a ≠ b → a ≠ 0 → b ≠ 0 → (policyAllows p a b ↔ (p.topology = .mesh ∨ a ∈ p.hubs ∨ b ∈ p.hubs) ∧
      (∃ rule ∈ p.rules, rule.allow ∧ Covers p s(a, b) rule) ∧ ∀ rule ∈ p.rules, ¬ rule.allow → ¬ Covers p s(a, b) rule)) ∧
    (∀ before after rule, p.rules = before ++ after → rule.allow = false →
      policyAllows { p with rules := before ++ rule :: after } a b → policyAllows p a b) ∧
    ∀ before after rule, p.rules = before ++ after → rule.allow = true →
      policyAllows p a b → policyAllows { p with rules := before ++ rule :: after } a b := by
  refine ⟨policyAllows_comm p a b, ?_, ?_, ?_, ?_⟩
  · intro rules hsame
    rw [Bool.eq_iff_iff, policyAllows_iff, policyAllows_iff, NetworkPolicy.links_congr hsame]
  · intro hm hne ha hb
    have hlinked : p.links.Adj a b ↔ p.Connects a b ∧ p.RulesPermit s(a, b) := by
      constructor
      · rintro ⟨-, -, -, hmanaged⟩
        exact hmanaged hm
      · intro h
        exact ⟨hne, ha, hb, fun _ => h⟩
    rw [policyAllows_iff, hlinked, NetworkPolicy.Connects, NetworkPolicy.RulesPermit, Permits]
    simp only [Set.mem_ofPred_eq, and_comm (a := Covers _ _ _), not_imp_not]
  · intro before after rule hrules hdeny h
    rw [policyAllows_iff] at h ⊢
    exact NetworkPolicy.links_deny hrules hdeny h
  · intro before after rule hrules hallow h
    rw [policyAllows_iff] at h ⊢
    exact NetworkPolicy.links_allow hrules hallow h

end LanLink
