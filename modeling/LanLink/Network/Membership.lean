import LanLink.Network.MembershipReads
/-!
# Multicast group membership

What the host behind a bridge wants to hear is what its reports said last. A
group's filter is folded over the group records of the accepted reports, and
forgotten when nothing was said about the group for `groupLifetime`. The groups
that the bridge keeps answer as that fold does.
-/
open LanLink.Lib

namespace LanLink.MulticastMembership

/-! ## Filters -/

inductive FilterMode
  | including | excluding
  deriving DecidableEq, Repr

/-- The filter of a host that wants no traffic of a group. -/
structure Filter where
  mode : FilterMode := .including
  sources : Finset UInt32 := ∅
  deriving DecidableEq

/-- The traffic that passes: of the sources listed, or of all others. -/
def Filter.passes (f : Filter) (source : UInt32) : Prop :=
  match f.mode with
  | .including => source ∈ f.sources
  | .excluding => source ∉ f.sources

inductive RecordKind
  | isIn | isEx | toIn | toEx | allow | block
  deriving DecidableEq, Repr

/-- What a group record does to the filter of its group. -/
def Filter.step (kind : RecordKind) (addresses : Finset UInt32) (f : Filter) : Filter :=
  match kind, f.mode with
  | .isIn, _ | .toIn, _ => { mode := .including, sources := addresses }
  | .isEx, _ | .toEx, _ => { mode := .excluding, sources := addresses }
  | .allow, .including => { f with sources := f.sources ∪ addresses }
  | .allow, .excluding => { f with sources := f.sources \ addresses }
  | .block, .including => { f with sources := f.sources \ addresses }
  | .block, .excluding => { f with sources := f.sources ∪ addresses }

/-- In any mode an `allow` record adds its sources to what passes, a `block`
record takes them away, and the other records replace it. -/
theorem Filter.passes_step (kind : RecordKind) (addresses : Finset UInt32) (f : Filter) (source : UInt32) :
    (f.step kind addresses).passes source ↔
      match kind with
      | .isIn | .toIn => source ∈ addresses
      | .isEx | .toEx => source ∉ addresses
      | .allow => f.passes source ∨ source ∈ addresses
      | .block => f.passes source ∧ source ∉ addresses := by
  obtain ⟨mode, sources⟩ := f
  cases kind <;> cases mode <;> simp [step, passes]
  tauto

/-! ## Reports -/

structure GroupRecord where
  kind : RecordKind
  group : UInt32
  sources : Finset UInt32 := ∅
  deriving DecidableEq

/-- The kind with a code; a report with another code than these six is refused. -/
def kindOfCode : ℕ → RecordKind
  | 1 => .isIn
  | 2 => .isEx
  | 3 => .toIn
  | 4 => .toEx
  | 5 => .allow
  | _ => .block

/-- The group records of a version 3 report, from `offset` on. -/
def recordsFrom (payload : Bytes) (offset : ℕ) : ℕ → List GroupRecord
  | 0 => []
  | count + 1 =>
    let auxiliary := getInt payload (offset + 1) 1 * 4
    let sources := getInt payload (offset + 2) 2
    { kind := kindOfCode (getInt payload offset 1)
      group := readIpv4 payload (offset + 4)
      sources := ((List.range sources).map fun i => readIpv4 payload (offset + 8 + i * 4)).toFinset } ::
        recordsFrom payload (offset + (8 + sources * 4 + auxiliary)) count

/-- What a report says: a report of version 1 or 2 excludes nothing, a leave
message includes nothing, a report of version 3 has its group records. -/
def groupRecords (ipv4 : Bytes) : List GroupRecord :=
  let payload := ipv4.drop (headerLength ipv4)
  match (byteAt payload 0).toNat with
  | 0x22 => recordsFrom payload 8 (getInt payload 6 2)
  | 0x17 => [{ kind := .toIn, group := readIpv4 payload 4 }]
  | _ => [{ kind := .toEx, group := readIpv4 payload 4 }]

/-- A filter, and when its group was last in a report. -/
structure Heard where
  filter : Filter
  touched : Time
  deriving DecidableEq

def Heard.alive (now : Time) (h : Heard) : Prop := now - h.touched ≤ groupLifetime

instance (now : Time) (h : Heard) : Decidable (h.alive now) := inferInstanceAs (Decidable (_ ≤ _))

/-- The filter of a group that was not forgotten. -/
def current (h : Option Heard) (now : Time) : Filter :=
  match h with
  | some h => if h.alive now then h.filter else {}
  | none => {}

/-- The filter of `group` after the records of a history, the oldest first. -/
def heard (group : UInt32) (history : List (Time × GroupRecord)) : Option Heard :=
  history.foldl (fun h x => if x.2.group = group then some { filter := (current h x.1).step x.2.kind x.2.sources, touched := x.1 } else h)
    none

/-- `239.255.255.250` and `224.0.0.251`. -/
def wellKnown (group : UInt32) : Prop := group = 0xe00000fb ∨ group = 0xeffffffa

/-- What the host wants: by its filter, while that is not forgotten. -/
def Wants (history : List (Time × GroupRecord)) (group source : UInt32) (now : Time) : Prop :=
  match heard group history with
  | some h => if h.alive now then h.filter.passes source else wellKnown group
  | none => wellKnown group

/-! ## Runs -/

/-- Observe packets, the oldest first. -/
def run (m : MulticastMembership) : List (Time × Bytes) → MulticastMembership
  | [] => m
  | (now, ipv4) :: inputs => run (m.observe ipv4 now).2 inputs

/-- The records of the packets that are accepted as reports. -/
def accepted (m : MulticastMembership) : List (Time × Bytes) → List (Time × GroupRecord)
  | [] => []
  | (now, ipv4) :: inputs =>
    (if (m.observe ipv4 now).1 = .accepted then (groupRecords ipv4).map fun r => (now, r) else []) ++
      accepted (m.observe ipv4 now).2 inputs

/-! ## The fold in the code -/

/-- A group of the bridge as a filter. -/
def heardOf (g : MulticastGroup) : Heard where
  filter := { mode := if g.exclude then .excluding else .including, sources := g.sources }
  touched := g.updated

theorem heard_concat (group : UInt32) (history : List (Time × GroupRecord)) (now : Time) (r : GroupRecord) :
    heard group (history ++ [(now, r)]) =
      if r.group = group then some { filter := (current (heard group history) now).step r.kind r.sources, touched := now }
      else heard group history := by
  rw [heard, List.foldl_append]
  rfl

/-- The groups are the filters that are not forgotten at `now`. -/
def Fresh (now : Time) (groups : Map UInt32 MulticastGroup) (history : List (Time × GroupRecord)) : Prop :=
  ∀ group, (groups.lookup group).map heardOf = (heard group history).filter fun h => h.alive now

section
variable {now : Time} {groups groups' : Map UInt32 MulticastGroup} {history : List (Time × GroupRecord)} {payload : Bytes}
  {offset offset' count : ℕ} {m : MulticastMembership}

theorem Fresh.current (h : Fresh now groups history) (group : UInt32) :
    (heardOf (groups.getD group {})).filter = current (heard group history) now := by
  have hgroup := h group
  unfold Map.getD
  cases hlookup : groups.lookup group with
  | none =>
    rw [hlookup, Option.map_none] at hgroup
    cases hheard : heard group history with
    | none => rfl
    | some x =>
      rw [hheard] at hgroup
      have hdead : ¬ x.alive now := by simpa [Option.filter] using hgroup
      rw [MulticastMembership.current, if_neg hdead]
      rfl
  | some g =>
    rw [hlookup, Option.map_some] at hgroup
    obtain ⟨hheard, halive⟩ := Option.filter_eq_some_iff.1 hgroup.symm
    rw [hheard, MulticastMembership.current, if_pos (of_decide_eq_true halive)]
    rfl

theorem heardOf_applyRecord (now : Time) {record : ℕ} (hrecord : ¬ (record < 1 ∨ 6 < record)) (addresses : Finset UInt32) (entry : MulticastGroup) :
    heardOf { applyRecord record addresses entry with updated := now } =
      { filter := (heardOf entry).filter.step (kindOfCode record) addresses, touched := now } := by
  obtain ⟨exclude, sources, updated⟩ := entry
  obtain ⟨hlow, hhigh⟩ := not_or.1 hrecord
  rw [not_lt] at hlow hhigh
  interval_cases record <;> cases exclude <;> rfl

theorem Fresh.insert {g : MulticastGroup} {r : GroupRecord} (h : Fresh now groups history)
    (hg : heardOf g = { filter := (MulticastMembership.current (heard r.group history) now).step r.kind r.sources, touched := now }) :
    Fresh now (groups.insert r.group g) (history ++ [(now, r)]) := by
  intro group
  rw [Map.lookup_insert, heard_concat]
  by_cases hgroup : group = r.group
  · subst hgroup
    have halive : decide ((heardOf g).alive now) = true := by
      apply decide_eq_true
      rw [hg]
      simp [Heard.alive, groupLifetime]
    rw [if_pos rfl, if_pos rfl, Option.map_some, ← hg, Option.filter_some, if_pos halive]
  · rw [if_neg hgroup, if_neg (Ne.symm hgroup)]
    exact h group

theorem recordSources_eq {addresses : Finset UInt32} (h : recordSources payload offset count = some addresses) :
    addresses = ((List.range count).map fun i => readIpv4 payload (offset + 8 + i * 4)).toFinset ∧ addresses.card ≤ count := by
  induction count generalizing addresses with
  | zero =>
    cases h
    exact ⟨rfl, le_rfl⟩
  | succ count ih =>
    simp only [recordSources, Option.bind_eq_bind, Option.bind_eq_some_iff] at h
    obtain ⟨before, hbefore, h⟩ := h
    obtain ⟨hsame, hcard⟩ := ih hbefore
    split at h
    · cases h
    · obtain rfl := Option.some.inj h
      constructor
      · rw [List.range_succ, List.map_append, List.toFinset_append, ← hsame]
        ext a
        simp [or_comm]
      · exact (Finset.card_insert_le _ _).trans (Nat.succ_le_succ hcard)

/-- No group has more than 64 sources. -/
def Bounded (groups : Map UInt32 MulticastGroup) : Prop := ∀ group g, groups.lookup group = some g → g.sources.card ≤ 64

theorem Bounded.insert {group : UInt32} {g : MulticastGroup} (h : Bounded groups) (hg : g.sources.card ≤ 64) :
    Bounded (groups.insert group g) := by
  intro other g' hlookup
  rw [Map.lookup_insert] at hlookup
  split at hlookup
  · obtain rfl := Option.some.inj hlookup
    exact hg
  · exact h other g' hlookup

/-- The loop over the group records is the fold. -/
theorem applyRecords_ok (h : applyRecords payload now groups offset count = some (groups', offset')) (hbounded : Bounded groups)
    (hfresh : Fresh now groups history) :
    Bounded groups' ∧ Fresh now groups' (history ++ (recordsFrom payload offset count).map fun r => (now, r)) := by
  induction count generalizing groups offset history with
  | zero =>
    cases h
    rw [recordsFrom, List.map_nil, List.append_nil]
    exact ⟨hbounded, hfresh⟩
  | succ count ih =>
    rw [applyRecords] at h
    split at h
    · cases h
    dsimp only at h
    split at h
    · cases h
    rename_i hrecord
    split at h
    · cases h
    rename_i addresses haddresses
    obtain ⟨hsources, -⟩ := recordSources_eq haddresses
    split at h
    · cases h
    rename_i hcard
    have hkind : ¬ (getInt payload offset 1 < 1 ∨ 6 < getInt payload offset 1) := by tauto
    have hentry := heardOf_applyRecord now hkind addresses (groups.getD (readIpv4 payload (offset + 4)) {})
    rw [hfresh.current] at hentry
    obtain ⟨hbounded', hfresh'⟩ := ih h (hbounded.insert (not_lt.1 hcard)) (hfresh.insert (r := ⟨_, _, addresses⟩) hentry)
    refine ⟨hbounded', ?_⟩
    rw [List.append_assoc, List.singleton_append] at hfresh'
    rw [recordsFrom, List.map_cons, ← hsources]
    exact hfresh'

/-- From `clock` on the groups and the filters that are not forgotten agree. -/
def Tracks (clock : Time) (groups : Map UInt32 MulticastGroup) (history : List (Time × GroupRecord)) : Prop :=
  ∀ now, clock ≤ now → ∀ group,
    ((groups.lookup group).map heardOf).filter (fun h => h.alive now) = (heard group history).filter fun h => h.alive now

theorem Heard.alive.earlier {h : Heard} {later : Time} (halive : h.alive later) (hle : now ≤ later) : h.alive now :=
  (sub_le_sub_right hle _).trans halive

theorem Fresh.tracks (h : Fresh now groups history) : Tracks now groups history := by
  intro later hle group
  rw [h group, Option.filter_filter]
  congr 1
  funext x
  by_cases halive : x.alive later
  · simp [halive, halive.earlier hle]
  · simp [halive]

theorem Tracks.eraseIf {clock : Time} (h : Tracks clock groups history) (hclock : clock ≤ now) :
    Fresh now (groups.eraseIf fun _ g => groupLifetime < now - g.updated) history := by
  intro group
  rw [← h now hclock group, Map.lookup_eraseIf]
  cases groups.lookup group with
  | none => rfl
  | some g =>
    by_cases halive : (heardOf g).alive now
    · have hyoung : ¬ groupLifetime < now - g.updated := not_lt.2 halive
      simp [Option.filter, halive, hyoung]
    · have hold : groupLifetime < now - g.updated := not_le.1 halive
      simp [Option.filter, halive, hold]

theorem Bounded.eraseIf (h : Bounded groups) (p : UInt32 → MulticastGroup → Bool) : Bounded (groups.eraseIf p) :=
  fun group g hlookup => h group g (Map.lookup_eraseIf_eq_some.1 hlookup).1

/-- A report that is accepted has the effect of its records. -/
theorem reportedGroups_ok {ipv4 : Bytes} {clock : Time} (h : m.reportedGroups ipv4 (ipv4.drop (headerLength ipv4)) now = some groups')
    (hbounded : Bounded m.groups) (htracks : Tracks clock m.groups history) (hclock : clock ≤ now) :
    Bounded groups' ∧ Fresh now groups' (history ++ (groupRecords ipv4).map fun r => (now, r)) := by
  have hfresh := htracks.eraseIf hclock
  have hyoung := hbounded.eraseIf fun _ g => groupLifetime < now - g.updated
  obtain ⟨payload, hpayload⟩ : ∃ payload, payload = ipv4.drop (headerLength ipv4) := ⟨_, rfl⟩
  rw [← hpayload, reportedGroups] at h
  rw [groupRecords, ← hpayload]
  dsimp only at h ⊢
  split at h
  · rename_i htype
    obtain ⟨-, h⟩ := Option.ite_none_left_eq_some.1 h
    obtain rfl := Option.some.inj h
    refine ⟨hyoung.insert (Nat.zero_le _), ?_⟩
    rcases htype with htype | htype | htype
    · rw [htype]
      exact hfresh.insert (r := ⟨_, _, ∅⟩) rfl
    · rw [htype]
      exact hfresh.insert (r := ⟨_, _, ∅⟩) rfl
    · rw [htype]
      exact hfresh.insert (r := ⟨_, _, ∅⟩) rfl
  · split at h
    · rename_i htype
      rw [htype]
      split at h
      · cases h
      split at h
      · cases h
      rename_i groups offset hloop
      split at h
      · cases h
      obtain rfl := Option.some.inj h
      exact applyRecords_ok hloop hyoung hfresh
    · cases h

/-- A packet is refused, or it is a report. -/
theorem observe_cases (m : MulticastMembership) (ipv4 : Bytes) (now : Time) :
    ((m.observe ipv4 now).1 ≠ .accepted ∧ (m.observe ipv4 now).2 = m) ∨
    ∃ groups, m.reportedGroups ipv4 (ipv4.drop (headerLength ipv4)) now = some groups ∧ groups.size ≤ 64 ∧
      m.observe ipv4 now = (.accepted, { m with groups }) := by
  rw [observe]
  dsimp only
  split
  · exact .inl ⟨by simp, rfl⟩
  split
  · exact .inl ⟨by simp, rfl⟩
  split
  · exact .inl ⟨by simp, rfl⟩
  split
  · exact .inl ⟨by simp, rfl⟩
  rename_i groups hgroups
  split
  · exact .inl ⟨by simp, rfl⟩
  · rename_i hsize
    exact .inr ⟨groups, hgroups, not_lt.1 hsize, rfl⟩

/-! ## The result -/

/-- What holds of a membership that observed a history. -/
structure Observed (clock : Time) (m : MulticastMembership) (history : List (Time × GroupRecord)) : Prop where
  unhosted : m.hostGroups = none
  size : m.groups.size ≤ 64
  bounded : Bounded m.groups
  tracks : Tracks clock m.groups history

theorem Observed.observe {clock : Time} (h : Observed clock m history) (hclock : clock ≤ now) (ipv4 : Bytes) :
    Observed now (m.observe ipv4 now).2
      (history ++ if (m.observe ipv4 now).1 = .accepted then (groupRecords ipv4).map fun r => (now, r) else []) := by
  rcases observe_cases m ipv4 now with ⟨hrefused, hsame⟩ | ⟨groups, hgroups, hsize, hobserve⟩
  · rw [if_neg hrefused, hsame, List.append_nil]
    exact ⟨h.unhosted, h.size, h.bounded, fun later hlater => h.tracks later (hclock.trans hlater)⟩
  · obtain ⟨hbounded, hfresh⟩ := reportedGroups_ok hgroups h.bounded h.tracks hclock
    rw [hobserve, if_pos rfl]
    exact ⟨h.unhosted, hsize, hbounded, hfresh.tracks⟩

theorem Observed.run {clock last : Time} {inputs : List (Time × Bytes)} (h : Observed clock m history) (hclock : clock ≤ last)
    (hstart : ∀ x ∈ inputs, clock ≤ x.1 ∧ x.1 ≤ last) (hsorted : inputs.Pairwise fun x y => x.1 ≤ y.1) :
    Observed last (run m inputs) (history ++ accepted m inputs) := by
  induction inputs generalizing m history clock with
  | nil =>
    rw [accepted, List.append_nil]
    exact ⟨h.unhosted, h.size, h.bounded, fun later hlater => h.tracks later (hclock.trans hlater)⟩
  | cons input inputs ih =>
    obtain ⟨now, ipv4⟩ := input
    obtain ⟨hlater, hrest⟩ := List.pairwise_cons.1 hsorted
    have hfirst := hstart _ List.mem_cons_self
    have hnext := ih (h.observe hfirst.1 ipv4) hfirst.2
      (fun x hx => ⟨hlater x hx, (hstart x (List.mem_cons_of_mem _ hx)).2⟩) hrest
    rw [List.append_assoc] at hnext
    exact hnext

theorem wants_of_forgotten {group source : UInt32} (h : (heard group history).filter (fun h => h.alive now) = none) :
    Wants history group source now ↔ wellKnown group := by
  unfold Wants
  cases hheard : heard group history with
  | none => exact Iff.rfl
  | some x =>
    rw [hheard] at h
    have hdead : ¬ x.alive now := by simpa [Option.filter] using h
    dsimp only
    rw [if_neg hdead]

theorem wants_of_alive {group source : UInt32} {x : Heard} (h : (heard group history).filter (fun h => h.alive now) = some x) :
    Wants history group source now ↔ x.filter.passes source := by
  obtain ⟨hheard, halive⟩ := Option.filter_eq_some_iff.1 h
  unfold Wants
  rw [hheard]
  dsimp only
  rw [if_pos (of_decide_eq_true halive)]

theorem passes_heardOf (g : MulticastGroup) (source : UInt32) :
    (g.exclude != decide (source ∈ g.sources)) = true ↔ (heardOf g).filter.passes source := by
  obtain ⟨exclude, sources, updated⟩ := g
  cases exclude <;> simp [heardOf, Filter.passes]

theorem Observed.receives (h : Observed now m history) (group source : UInt32) :
    m.receives group source now = true ↔ isIpv4ScopedMulticast group = true ∧ Wants history group source now := by
  have hgroup := h.tracks now le_rfl group
  have hwell : (group = 0xe00000fb || group = 0xeffffffa) = true ↔ wellKnown group := by simp [wellKnown]
  rw [MulticastMembership.receives, h.unhosted]
  by_cases hscoped : isIpv4ScopedMulticast group = true
  swap
  · rw [if_pos hscoped]
    simp [hscoped]
  rw [if_neg (not_not.2 hscoped), and_iff_right hscoped]
  dsimp only
  cases hlookup : m.groups.lookup group with
  | none =>
    rw [hlookup, Option.map_none, Option.filter_none] at hgroup
    rw [wants_of_forgotten hgroup.symm]
    exact hwell
  | some g =>
    rw [hlookup, Option.map_some, Option.filter_some] at hgroup
    by_cases halive : (heardOf g).alive now
    · rw [if_pos (decide_eq_true halive)] at hgroup
      rw [wants_of_alive hgroup.symm, ← passes_heardOf]
      have hyoung : now - g.updated ≤ groupLifetime := halive
      dsimp only
      rw [if_pos hyoung]
    · rw [if_neg (fun hdecide => halive (of_decide_eq_true hdecide))] at hgroup
      rw [wants_of_forgotten hgroup.symm]
      have hold : ¬ now - g.updated ≤ groupLifetime := halive
      dsimp only
      rw [if_neg hold]
      exact hwell

end

theorem observed_empty (clock : Time) : Observed clock {} [] where
  unhosted := rfl
  size := Nat.zero_le _
  bounded group g hlookup := by cases hlookup
  tracks now _ group := rfl

theorem exists_bounds (inputs : List (Time × Bytes)) : ∃ first last : Time, ∀ x ∈ inputs, first ≤ x.1 ∧ x.1 ≤ last := by
  induction inputs with
  | nil => exact ⟨0, 0, by simp⟩
  | cons input inputs ih =>
    obtain ⟨first, last, h⟩ := ih
    refine ⟨min first input.1, max last input.1, ?_⟩
    intro x hx
    rcases List.mem_cons.1 hx with rfl | hx
    · exact ⟨min_le_right _ _, le_max_right _ _⟩
    · exact ⟨(min_le_left _ _).trans (h x hx).1, (h x hx).2.trans (le_max_left _ _)⟩

/-- `observe` reads nothing but the packet and a packet that it does not accept
changes nothing. Over any run the groups are few, and answer as the filters that
the accepted reports leave. -/
theorem membership_tracking :
    (∀ m ipv4 now, Indexed.observe m ipv4 now = .ok (m.observe ipv4 now)) ∧
    (∀ m ipv4 now, (observe m ipv4 now).1 ≠ .accepted → (observe m ipv4 now).2 = m) ∧
    ∀ inputs : List (Time × Bytes), inputs.Pairwise (fun x y => x.1 ≤ y.1) →
      (run {} inputs).groups.size ≤ 64 ∧
      (∀ group g, (run {} inputs).groups.lookup group = some g → g.sources.card ≤ 64) ∧
      ∀ group source now, (∀ x ∈ inputs, x.1 ≤ now) →
        ((run {} inputs).receives group source now = true ↔
          isIpv4ScopedMulticast group = true ∧ Wants (accepted {} inputs) group source now) := by
  refine ⟨Indexed.observe_eq, ?_, ?_⟩
  · intro m ipv4 now hrefused
    rcases observe_cases m ipv4 now with ⟨-, hsame⟩ | ⟨groups, -, -, hobserve⟩
    · exact hsame
    · rw [hobserve] at hrefused
      exact absurd rfl hrefused
  · intro inputs hsorted
    obtain ⟨first, last, hbetween⟩ := exists_bounds inputs
    have hrun : ∀ now, (∀ x ∈ inputs, x.1 ≤ now) → Observed now (run {} inputs) (accepted {} inputs) := by
      intro now hnow
      refine (observed_empty (min first now)).run (min_le_right _ _) (fun x hx => ⟨?_, hnow x hx⟩) hsorted
      exact (min_le_left _ _).trans (hbetween x hx).1
    have hlast := hrun last fun x hx => (hbetween x hx).2
    exact ⟨hlast.size, hlast.bounded, fun group source now hnow => (hrun now hnow).receives group source⟩

end LanLink.MulticastMembership
