import LanLink.Relay.FanoutBounds
/-!
# The limiter of access attempts

An access request that creates, joins or administers a network is an attempt
in four scopes: the device in the network, the device, the network, and the
relay as a whole. A scope is a pair of a network and a device where zero stands
for any, and each scope has a window of a minute with a counter. Where network
and device are not zero, the four scopes are four rows of the table, and the
counters are the numbers of admitted attempts. A protected network is created
under the zero id. There only two rows are left, and each attempt counts twice
in both.
-/
open LanLink.Lib LanLink.Lib.Action

namespace LanLink

/-- A call of `allow_access_attempt`, and the clock at the call. -/
structure AccessAttempt where
  actor : DeviceId
  network : NetworkId
  now : Time
  deriving DecidableEq, Repr

abbrev AttemptTable := Map (NetworkId × DeviceId) AccessWindow

namespace AccessAttempt

/-- What the limiter does to its table, and whether the attempt is admitted. -/
def run (a : AccessAttempt) (table : AttemptTable) : Bool × AttemptTable :=
  let result := Service.allowAccessAttempt a.actor a.network a.now { accessAttempts := table }
  (result.1, result.2.accessAttempts)

/-- The scopes, with what each admits in a minute. -/
def scopes (a : AccessAttempt) : List ((NetworkId × DeviceId) × ℕ) :=
  [((a.network, a.actor), 5), ((0, a.actor), 10), ((a.network, 0), 20), ((0, 0), 40)]

def keys (a : AccessAttempt) : List (NetworkId × DeviceId) := a.scopes.map Prod.fst

/-- The windows that are still open. -/
def live (a : AccessAttempt) (table : AttemptTable) : AttemptTable :=
  table.eraseIf fun _ window => Service.minute ≤ a.now - window.start

def opened (a : AccessAttempt) (table : AttemptTable) : Bool × AttemptTable :=
  Service.openWindows a.now a.scopes (a.live table)

theorem run_eq (a : AccessAttempt) (table : AttemptTable) :
    a.run table =
      if 4092 < (a.live table).size then (false, a.live table)
      else if (a.opened table).1 then (true, a.keys.foldl Service.countAttempt (a.opened table).2)
      else a.opened table := by
  have hlive : (table.eraseIf fun _ window => Service.minute ≤ a.now - window.start) = a.live table := rfl
  have hopened : Service.openWindows a.now ([(a.network, a.actor), (0, a.actor), (a.network, 0), (0, 0)].zip [5, 10, 20, 40])
      (a.live table) = a.opened table := rfl
  simp only [run, Service.allowAccessAttempt, hlive, hopened]
  by_cases hfull : 4092 < (a.live table).size
  · simp [hfull]
  · rcases a.opened table with ⟨_ | _, table'⟩ <;> simp [hfull, keys, scopes]

end AccessAttempt

namespace Service

/-- The limiter sees its table and nothing else of the service. -/
theorem allowAccessAttempt_eq (actor : DeviceId) (n : NetworkId) (now : Time) (s : Service) :
    allowAccessAttempt actor n now s =
      ((AccessAttempt.run ⟨actor, n, now⟩ s.accessAttempts).1,
        { s with accessAttempts := (AccessAttempt.run ⟨actor, n, now⟩ s.accessAttempts).2 }) := by
  unfold AccessAttempt.run allowAccessAttempt
  dsimp only
  split
  · rfl
  · rcases openWindows now _ (s.accessAttempts.eraseIf _) with ⟨_ | _, table⟩ <;> rfl

/-! ## Opening and counting -/

section
variable {now : Time} {table table' : AttemptTable} {scopes : List ((NetworkId × DeviceId) × ℕ)}
  {key : NetworkId × DeviceId}

/-- Some keys without a window have got an empty one. -/
def Opens (now : Time) (keys : List (NetworkId × DeviceId)) (table table' : AttemptTable) : Prop :=
  ∀ key, table'.lookup key = table.lookup key ∨
    (key ∈ keys ∧ table.lookup key = none ∧ table'.lookup key = some { start := now, attempts := 0 })

theorem openWindows_opens (now : Time) (scopes : List ((NetworkId × DeviceId) × ℕ)) (table : AttemptTable) :
    Opens now (scopes.map Prod.fst) table (openWindows now scopes table).2 := by
  induction scopes generalizing table with
  | nil => exact fun key => .inl rfl
  | cons scope scopes ih =>
    obtain ⟨first, limit⟩ := scope
    have hfirst : Opens now [first] table (table.insert first (table.getD first { start := now, attempts := 0 })) := by
      intro key
      rw [Map.lookup_insert]
      by_cases hkey : key = first
      · subst hkey
        cases hlookup : table.lookup key with
        | none => exact .inr ⟨by simp, rfl, by simp [Map.getD, hlookup]⟩
        | some window => exact .inl (by simp [Map.getD, hlookup])
      · exact .inl (if_neg hkey)
    intro key
    rw [openWindows]
    split
    · rcases hfirst key with hsame | ⟨hkey, hnone, hnew⟩
      · exact .inl hsame
      · exact .inr ⟨by simp_all, hnone, hnew⟩
    · rcases ih (table.insert first (table.getD first { start := now, attempts := 0 })) key with hsame | ⟨hkey, hnone, hnew⟩
      · rw [hsame]
        rcases hfirst key with hsame' | ⟨hkey, hnone, hnew⟩
        · exact .inl hsame'
        · exact .inr ⟨by simp_all, hnone, hnew⟩
      · rcases hfirst key with hsame' | ⟨-, -, hnew'⟩
        · exact .inr ⟨List.mem_cons_of_mem _ hkey, hsame' ▸ hnone, hnew⟩
        · rw [hnone] at hnew'
          cases hnew'

/-- A window that is open stays as it is. -/
theorem openWindows_lookup {window : AccessWindow} (h : table.lookup key = some window) :
    (openWindows now scopes table).2.lookup key = some window := by
  rcases openWindows_opens now scopes table key with hsame | ⟨-, hnone, -⟩
  · rw [hsame, h]
  · rw [h] at hnone
    cases hnone

/-- Every scope has a window with room in it, or one of them is used up. -/
theorem openWindows_room (now : Time) (scopes : List ((NetworkId × DeviceId) × ℕ)) (table : AttemptTable) :
    ∀ scope ∈ scopes, (openWindows now scopes table).1 = true →
      ∃ window, (openWindows now scopes table).2.lookup scope.1 = some window ∧ window.attempts < scope.2 := by
  induction scopes generalizing table with
  | nil => simp
  | cons scope scopes ih =>
    obtain ⟨first, limit⟩ := scope
    intro scope hscope hok
    rw [openWindows] at hok ⊢
    split at hok
    · cases hok
    rename_i hroom
    rw [if_neg hroom]
    rcases List.mem_cons.1 hscope with rfl | hscope
    · exact ⟨_, openWindows_lookup (AList.lookup_insert _), not_le.1 hroom⟩
    · exact ih _ scope hscope hok

theorem openWindows_used (now : Time) (scopes : List ((NetworkId × DeviceId) × ℕ)) (table : AttemptTable)
    (hpos : ∀ scope ∈ scopes, 0 < scope.2) (h : (openWindows now scopes table).1 = false) :
    ∃ scope ∈ scopes, ∃ window, table.lookup scope.1 = some window ∧ scope.2 ≤ window.attempts := by
  induction scopes generalizing table with
  | nil => cases h
  | cons scope scopes ih =>
    obtain ⟨first, limit⟩ := scope
    have hlimit : 0 < limit := hpos (first, limit) List.mem_cons_self
    rw [openWindows] at h
    split at h
    · rename_i hused
      refine ⟨(first, limit), List.mem_cons_self, ?_⟩
      cases hlookup : table.lookup first with
      | none =>
        simp only [Map.getD, hlookup, Option.getD_none] at hused
        omega
      | some window => exact ⟨window, rfl, by simpa [Map.getD, hlookup] using hused⟩
    · rename_i hroom
      obtain ⟨scope, hscope, window, hlookup, hused⟩ := ih _ (fun scope h => hpos scope (List.mem_cons_of_mem _ h)) h
      rw [Map.lookup_insert] at hlookup
      split at hlookup
      · -- a scope that comes twice: its window is the one just looked at
        rename_i hkey
        cases hlookup
        cases hfirst : table.lookup first with
        | none =>
          have hscope := hpos scope (List.mem_cons_of_mem _ hscope)
          simp only [Map.getD, hfirst, Option.getD_none] at hused
          omega
        | some window =>
          refine ⟨scope, List.mem_cons_of_mem _ hscope, window, by rw [hkey, hfirst], ?_⟩
          simpa [Map.getD, hfirst] using hused
      · exact ⟨scope, List.mem_cons_of_mem _ hscope, window, hlookup, hused⟩

/-- Each key is counted as often as it is listed. -/
theorem lookup_foldl_countAttempt (keys : List (NetworkId × DeviceId)) (table : AttemptTable) (key : NetworkId × DeviceId) :
    (keys.foldl countAttempt table).lookup key =
      (table.lookup key).map fun window => { window with attempts := window.attempts + keys.count key } := by
  induction keys generalizing table with
  | nil => simp
  | cons first keys ih =>
    have hfirst : (countAttempt table first).lookup key =
        (table.lookup key).map fun window => { window with attempts := window.attempts + [first].count key } := by
      unfold countAttempt
      by_cases hkey : key = first
      · subst hkey
        cases hlookup : table.lookup key <;> simp [hlookup]
      · have hcount : [first].count key = 0 := by simp [Ne.symm hkey]
        cases hlookup : table.lookup first with
        | none => simp [hcount]
        | some window => simp [hcount, hkey]
    rw [List.foldl_cons, ih, hfirst, Option.map_map]
    congr 1
    funext window
    simp only [Function.comp_apply, AccessWindow.mk.injEq, true_and]
    rw [show first :: keys = [first] ++ keys from rfl, List.count_append]
    omega

end

end Service

/-- The minute of the window. -/
def AccessWindow.Covers (window : AccessWindow) (t : Time) : Prop :=
  window.start ≤ t ∧ t < window.start + Service.minute

instance (window : AccessWindow) (t : Time) : Decidable (window.Covers t) := inferInstanceAs (Decidable (_ ∧ _))

namespace AccessAttempt

/-! ## One attempt -/

section
variable {a : AccessAttempt} {table : AttemptTable} {key : NetworkId × DeviceId} {window : AccessWindow}

theorem lookup_live :
    (a.live table).lookup key = some window ↔ table.lookup key = some window ∧ a.now < window.start + Service.minute := by
  rw [live, Map.lookup_eraseIf_eq_some, decide_eq_false_iff_not, not_le]
  constructor
  · rintro ⟨hlookup, hopen⟩
    exact ⟨hlookup, sub_lt_iff_lt_add'.1 hopen⟩
  · rintro ⟨hlookup, hopen⟩
    exact ⟨hlookup, sub_lt_iff_lt_add'.2 hopen⟩

/-- An admitted attempt finds room in all its scopes and counts once for each. -/
theorem run_admitted (h : (a.run table).1 = true) :
    (∀ scope ∈ a.scopes, ∃ window, (a.opened table).2.lookup scope.1 = some window ∧ window.attempts < scope.2) ∧
    ∀ key, (a.run table).2.lookup key = ((a.opened table).2.lookup key).map fun window =>
      { window with attempts := window.attempts + a.keys.count key } := by
  rw [run_eq] at h ⊢
  split at h
  · cases h
  rename_i hfull
  rw [if_neg hfull]
  split at h
  · rename_i hopened
    rw [if_pos hopened]
    refine ⟨?_, Service.lookup_foldl_countAttempt _ _⟩
    intro scope hscope
    exact Service.openWindows_room a.now a.scopes (a.live table) scope hscope hopened
  · rename_i hopened
    exact absurd h hopened

theorem scopes_pos : ∀ scope ∈ a.scopes, 0 < scope.2 := by
  intro scope hscope
  simp only [scopes, List.mem_cons, List.not_mem_nil, or_false] at hscope
  rcases hscope with rfl | rfl | rfl | rfl <;> simp

theorem run_refused (h : (a.run table).1 = false) :
    Service.Opens a.now a.keys (a.live table) (a.run table).2 ∧
    (4092 < (a.live table).size ∨
      ∃ scope ∈ a.scopes, ∃ window, (a.live table).lookup scope.1 = some window ∧ scope.2 ≤ window.attempts) := by
  rw [run_eq] at h ⊢
  split at h
  · rename_i hfull
    rw [if_pos hfull]
    exact ⟨fun key => .inl rfl, .inl hfull⟩
  rename_i hfull
  rw [if_neg hfull]
  split at h
  · cases h
  · rename_i hopened
    rw [if_neg hopened]
    refine ⟨Service.openWindows_opens _ _ _, .inr ?_⟩
    exact Service.openWindows_used _ _ _ scopes_pos (Bool.eq_false_iff.2 hopened)

/-- What a scope admits in a minute, read off its key. -/
def scopeLimit (key : NetworkId × DeviceId) : ℕ :=
  if key.1 = 0 then if key.2 = 0 then 40 else 10 else if key.2 = 0 then 20 else 5

section
variable (hactor : a.actor ≠ 0) (hnetwork : a.network ≠ 0)
include hactor hnetwork

theorem scopeLimit_eq : ∀ scope ∈ a.scopes, scopeLimit scope.1 = scope.2 := by
  intro scope hscope
  simp only [scopes, List.mem_cons, List.not_mem_nil, or_false] at hscope
  rcases hscope with rfl | rfl | rfl | rfl <;> simp_all [scopeLimit]

/-- The four scopes are four keys. -/
theorem nodup_keys : a.keys.Nodup := by
  simp_all [keys, scopes]

end

end

/-! ## Sequences of attempts -/

section
variable (calls : ℕ → AccessAttempt)

/-- The table before call `k`. -/
def table (k : ℕ) : AttemptTable := states (fun table a => (run a table).2) ∅ calls k

def admitted (k : ℕ) : Bool := ((calls k).run (table calls k)).1

/-- How many of the first `k` calls were admitted in the scope `key` within the minute of the window. -/
def admittedIn (k : ℕ) (key : NetworkId × DeviceId) (window : AccessWindow) : ℕ :=
  ((Finset.range k).filter fun j =>
    admitted calls j ∧ key ∈ (calls j).keys ∧ window.Covers (calls j).now).card

/-- The limiter keeps its limits, counts what it admits, and refuses for no other reason. -/
structure AttemptsLimited : Prop where
  bounded (k j : ℕ) (window : AccessWindow) : ∀ scope ∈ (calls j).scopes,
    (table calls k).lookup scope.1 = some window → admittedIn calls k scope.1 window ≤ scope.2
  counted (k : ℕ) (key : NetworkId × DeviceId) (window : AccessWindow) :
    (table calls k).lookup key = some window → window.attempts = admittedIn calls k key window
  recorded (k : ℕ) : admitted calls k →
    ∀ key ∈ (calls k).keys, ∃ window, (table calls (k + 1)).lookup key = some window ∧ window.Covers (calls k).now
  refused (k : ℕ) : ¬ admitted calls k → 4092 < ((calls k).live (table calls k)).size ∨
    ∃ scope ∈ (calls k).scopes, ∃ window, ((calls k).live (table calls k)).lookup scope.1 = some window ∧
      scope.2 ≤ admittedIn calls k scope.1 window

/-- What is true of the table before call `k`. -/
structure Counted (k : ℕ) : Prop where
  started : ∀ key window, (table calls k).lookup key = some window → window.start ≤ (calls k).now
  counted : ∀ key window, (table calls k).lookup key = some window → window.attempts = admittedIn calls k key window
  bounded : ∀ key window, (table calls k).lookup key = some window → window.attempts ≤ scopeLimit key
  /-- A scope keeps the window of an admitted attempt while the clock stands. -/
  kept : ∀ j < k, admitted calls j → ∀ key ∈ (calls j).keys,
    (∃ window, (table calls k).lookup key = some window ∧ window.Covers (calls j).now) ∨ (calls j).now < (calls k).now

end

section
variable {calls : ℕ → AccessAttempt} {k : ℕ} {key : NetworkId × DeviceId} {window : AccessWindow}

theorem admittedIn_succ (calls : ℕ → AccessAttempt) (k : ℕ) (key : NetworkId × DeviceId) (window : AccessWindow) :
    admittedIn calls (k + 1) key window = admittedIn calls k key window +
      if admitted calls k ∧ key ∈ (calls k).keys ∧ window.Covers (calls k).now then 1 else 0 := by
  unfold admittedIn
  rw [Finset.range_add_one, Finset.filter_insert]
  split
  · rw [Finset.card_insert_of_notMem (by simp)]
  · rfl

/-- The windows a call works with cover it, and their counters are right. -/
theorem Counted.opened (h : Counted calls k) {table' : AttemptTable}
    (hclock : ∀ j ≤ k, (calls j).now ≤ (calls k).now)
    (hopens : Service.Opens (calls k).now (calls k).keys ((calls k).live (table calls k)) table')
    (hlookup : table'.lookup key = some window) :
    window.Covers (calls k).now ∧ window.attempts = admittedIn calls k key window ∧ window.attempts ≤ scopeLimit key := by
  rcases hopens key with hsame | ⟨hkey, hnone, hnew⟩
  · rw [hlookup] at hsame
    obtain ⟨hold, hopen⟩ := lookup_live.1 hsame.symm
    exact ⟨⟨h.started key window hold, hopen⟩, h.counted key window hold, h.bounded key window hold⟩
  · rw [hlookup] at hnew
    cases hnew
    refine ⟨⟨le_rfl, by simp [Service.minute]⟩, ?_, Nat.zero_le _⟩
    -- an attempt of this very moment would have left its window
    refine (Finset.card_eq_zero.2 (Finset.filter_eq_empty_iff.2 ?_)).symm
    rintro j hj ⟨hadmitted, hkeys, hcovers⟩
    rw [Finset.mem_range] at hj
    have hnow : (calls j).now = (calls k).now := le_antisymm (hclock j hj.le) hcovers.1
    rcases h.kept j hj hadmitted key hkeys with ⟨window, hwindow, hcovers⟩ | hlater
    · rw [hnow] at hcovers
      rw [lookup_live.2 ⟨hwindow, hcovers.2⟩] at hnone
      cases hnone
    · rw [hnow] at hlater
      exact absurd hlater (lt_irrefl _)

/-- A window that is open at the call is there after it. -/
theorem lookup_succ (h : ((calls k).live (table calls k)).lookup key = some window) :
    ∃ window', (table calls (k + 1)).lookup key = some window' ∧ window'.start = window.start := by
  change ∃ window', ((calls k).run (table calls k)).2.lookup key = some window' ∧ _
  cases hrun : ((calls k).run (table calls k)).1 with
  | false =>
    rcases (run_refused hrun).1 key with hsame | ⟨-, hnone, -⟩
    · exact ⟨window, by rw [hsame, h], rfl⟩
    · rw [h] at hnone
      cases hnone
  | true =>
    have hopened : ((calls k).opened (table calls k)).2.lookup key = some window := Service.openWindows_lookup h
    rw [(run_admitted hrun).2, hopened]
    exact ⟨_, rfl, rfl⟩

/-- What a window after call `k` is: one the call worked with, counted if the call was admitted in its scope. -/
theorem Counted.succ_window (h : Counted calls k) (hclock : ∀ j ≤ k, (calls j).now ≤ (calls k).now)
    (hactor : (calls k).actor ≠ 0) (hnetwork : (calls k).network ≠ 0)
    (hlookup : (table calls (k + 1)).lookup key = some window) :
    window.Covers (calls k).now ∧ window.attempts = admittedIn calls (k + 1) key window ∧
      window.attempts ≤ scopeLimit key := by
  change ((calls k).run (table calls k)).2.lookup key = some window at hlookup
  rw [admittedIn_succ]
  cases hrun : ((calls k).run (table calls k)).1 with
  | false =>
    obtain ⟨hcovers, hcounted, hbounded⟩ := h.opened hclock (run_refused hrun).1 hlookup
    have hrefused : ¬ admitted calls k := by simp [admitted, hrun]
    exact ⟨hcovers, by simpa [hrefused] using hcounted, hbounded⟩
  | true =>
    obtain ⟨hroom, hcount⟩ := run_admitted hrun
    rw [hcount, Option.map_eq_some_iff] at hlookup
    obtain ⟨before, hbefore, rfl⟩ := hlookup
    obtain ⟨hcovers, hcounted, hbounded⟩ := h.opened hclock (Service.openWindows_opens _ _ _) hbefore
    have hadmitted : admitted calls k := hrun
    set after : AccessWindow := { before with attempts := before.attempts + (calls k).keys.count key } with hafter
    have hsame : admittedIn calls k key after = admittedIn calls k key before := rfl
    have hcovers' : after.Covers (calls k).now := hcovers
    refine ⟨hcovers', ?_⟩
    by_cases hkey : key ∈ (calls k).keys
    · have hattempts : after.attempts = before.attempts + 1 := by
        rw [hafter, List.count_eq_one_of_mem (nodup_keys hactor hnetwork) hkey]
      rw [hsame, if_pos ⟨hadmitted, hkey, hcovers'⟩, ← hcounted]
      refine ⟨hattempts, ?_⟩
      obtain ⟨scope, hscope, rfl⟩ := List.mem_map.1 hkey
      obtain ⟨window, hwindow, hlt⟩ := hroom scope hscope
      rw [hbefore] at hwindow
      cases hwindow
      rw [scopeLimit_eq hactor hnetwork scope hscope]
      omega
    · have hattempts : after.attempts = before.attempts := by
        rw [hafter, List.count_eq_zero.2 hkey, add_zero]
      rw [hsame, if_neg fun h => hkey h.2.1, hattempts]
      exact ⟨hcounted, hbounded⟩

/-- An admitted attempt is in a window of each of its scopes. -/
theorem Counted.recorded (h : Counted calls k) (hclock : ∀ j ≤ k, (calls j).now ≤ (calls k).now)
    (hadmitted : admitted calls k) (hkey : key ∈ (calls k).keys) :
    ∃ window, (table calls (k + 1)).lookup key = some window ∧ window.Covers (calls k).now := by
  obtain ⟨scope, hscope, rfl⟩ := List.mem_map.1 hkey
  obtain ⟨hroom, hcount⟩ := run_admitted hadmitted
  obtain ⟨before, hbefore, -⟩ := hroom scope hscope
  obtain ⟨hcovers, -⟩ := h.opened hclock (Service.openWindows_opens _ _ _) hbefore
  have hlookup := hcount scope.1
  rw [hbefore] at hlookup
  exact ⟨_, hlookup, hcovers⟩

theorem Counted.succ (h : Counted calls k) (hclock : ∀ i j, i ≤ j → (calls i).now ≤ (calls j).now)
    (hactor : (calls k).actor ≠ 0) (hnetwork : (calls k).network ≠ 0) : Counted calls (k + 1) := by
  have hbefore : ∀ j ≤ k, (calls j).now ≤ (calls k).now := fun j hj => hclock j k hj
  have hnext := hclock k (k + 1) (Nat.le_succ k)
  have hwindow {key : NetworkId × DeviceId} {window : AccessWindow}
      (hlookup : (table calls (k + 1)).lookup key = some window) := h.succ_window hbefore hactor hnetwork hlookup
  refine ⟨fun _ _ hlookup => (hwindow hlookup).1.1.trans hnext, fun _ _ hlookup => (hwindow hlookup).2.1,
    fun _ _ hlookup => (hwindow hlookup).2.2, ?_⟩
  intro j hj hadmitted key hkey
  rcases Nat.lt_succ_iff_lt_or_eq.1 hj with hlt | rfl
  · rcases h.kept j hlt hadmitted key hkey with ⟨window, hlookup, hcovers⟩ | hlater
    · rcases (hbefore j hlt.le).lt_or_eq with hlater | hnow
      · exact .inr (hlater.trans_le hnext)
      · rw [hnow] at hcovers ⊢
        obtain ⟨window', hlookup', hstart⟩ := lookup_succ (lookup_live.2 ⟨hlookup, hcovers.2⟩)
        exact .inl ⟨window', hlookup', (hwindow hlookup').1⟩
    · exact .inr (hlater.trans_le hnext)
  · exact .inl (h.recorded hbefore hadmitted hkey)

/-- The clock of the calls does not go back. -/
theorem now_le (hclock : ∀ k, (calls k).now ≤ (calls (k + 1)).now) {i j : ℕ} (h : i ≤ j) : (calls i).now ≤ (calls j).now := by
  induction j, h using Nat.le_induction with
  | base => exact le_rfl
  | succ j _ ih => exact ih.trans (hclock j)

variable (hclock : ∀ k, (calls k).now ≤ (calls (k + 1)).now) (hactor : ∀ k, (calls k).actor ≠ 0)
  (hnetwork : ∀ k, (calls k).network ≠ 0)
include hclock hactor hnetwork

theorem counted_table (k : ℕ) : Counted calls k := by
  induction k with
  | zero =>
    have hempty {key : NetworkId × DeviceId} {window : AccessWindow} : (table calls 0).lookup key ≠ some window := nofun
    exact ⟨fun _ _ h => absurd h hempty, fun _ _ h => absurd h hempty, fun _ _ h => absurd h hempty, nofun⟩
  | succ k ih => exact ih.succ (fun i j h => now_le hclock h) (hactor k) (hnetwork k)

/-- Attempts at networks other than the zero id are limited and counted as documented. -/
theorem attempts_limited : AttemptsLimited calls := by
  have htable := counted_table hclock hactor hnetwork
  constructor
  · intro k j window scope hscope hlookup
    rw [← (htable k).counted _ _ hlookup, ← scopeLimit_eq (hactor j) (hnetwork j) scope hscope]
    exact (htable k).bounded _ _ hlookup
  · exact fun k => (htable k).counted
  · intro k hadmitted key hkey
    exact (htable k).recorded (fun j hj => now_le hclock hj) hadmitted hkey
  · intro k hrefused
    rcases (run_refused (Bool.eq_false_iff.2 hrefused)).2 with hfull | ⟨scope, hscope, window, hlookup, hused⟩
    · exact .inl hfull
    · refine .inr ⟨scope, hscope, window, hlookup, ?_⟩
      rw [← (htable k).counted _ _ (lookup_live.1 hlookup).1]
      exact hused

end

/-! ## The relay makes such sequences -/

/-- The table after some attempts. -/
def after (log : List AccessAttempt) (table : AttemptTable) : AttemptTable := log.foldl (fun table a => (run a table).2) table

theorem exists_calls (log : List AccessAttempt) (hactor : ∀ a ∈ log, a.actor ≠ 0)
    (hsorted : log.Pairwise fun a b => a.now ≤ b.now) :
    ∃ calls : ℕ → AccessAttempt, (∀ j < log.length, calls j ∈ log) ∧ (∀ j, (calls j).now ≤ (calls (j + 1)).now) ∧
      (∀ j, (calls j).actor ≠ 0) ∧ table calls log.length = after log ∅ := by
  induction log using List.reverseRecOn with
  | nil => exact ⟨fun _ => ⟨1, 1, 0⟩, by simp, fun _ => le_rfl, by simp, rfl⟩
  | append_singleton log a ih =>
    obtain ⟨hpast, -, hlast⟩ := List.pairwise_append.1 hsorted
    obtain ⟨calls, hmem, hclock, hcalls, htable⟩ := ih (fun b hb => hactor b (List.mem_append_left _ hb)) hpast
    refine ⟨fun j => if j < log.length then calls j else a, ?_, ?_, ?_, ?_⟩
    · intro j hj
      dsimp only
      split
      · rename_i hlt
        exact List.mem_append_left _ (hmem j hlt)
      · exact List.mem_append_right _ List.mem_cons_self
    · intro j
      dsimp only
      split
      · rename_i hlt
        split
        · exact hclock j
        · exact hlast _ (hmem j hlt) a List.mem_cons_self
      · rw [if_neg (by omega)]
    · intro j
      dsimp only
      split
      · exact hcalls j
      · exact hactor a (List.mem_append_right _ List.mem_cons_self)
    · have hbefore : table (fun j => if j < log.length then calls j else a) log.length = table calls log.length :=
        states_congr fun i hi => if_pos hi
      rw [List.length_append, List.length_singleton]
      change (run (if log.length < log.length then _ else a) (table _ log.length)).2 = _
      rw [if_neg (lt_irrefl _), hbefore, htable, after, after, List.foldl_append]
      rfl

end AccessAttempt

namespace Service

/-- `s'` has the table of `s` after some attempts of a device at one moment. -/
def Attempted (actor : DeviceId) (now : Time) (s s' : Service) : Prop :=
  ∃ log : List AccessAttempt, (∀ a ∈ log, a.actor = actor ∧ a.actor ≠ 0 ∧ a.now = now) ∧
    s'.accessAttempts = AccessAttempt.after log s.accessAttempts

theorem Attempted.of_eq {actor : DeviceId} {now : Time} {s s' : Service} (h : s'.accessAttempts = s.accessAttempts) :
    Attempted actor now s s' := ⟨[], by simp, h⟩

instance (actor : DeviceId) (now : Time) : AsideMetering (Attempted actor now) where
  refl _ := .of_eq rfl
  trans := by
    rintro s s' s'' ⟨log, hlog, htable⟩ ⟨log', hlog', htable'⟩
    refine ⟨log ++ log', ?_, by rw [htable', htable, AccessAttempt.after, AccessAttempt.after, AccessAttempt.after, List.foldl_append]⟩
    intro a ha
    rcases List.mem_append.1 ha with ha | ha
    · exact hlog a ha
    · exact hlog' a ha
  store _ _ := .of_eq rfl
  live _ _ := .of_eq rfl
  quota _ _ := .of_eq rfl
  denials _ _ := .of_eq rfl
  failures _ _ := .of_eq rfl
  fanout _ _ _ _ := .of_eq rfl

/-- Whatever is called, the limiter sees attempts of the caller, and none without a caller. -/
theorem attempted_perform (crypto : Crypto) (inputs : Inputs) (op : Op) :
    Within (Attempted op.actor inputs.now) (perform crypto inputs op) := by
  refine within_perform_metering crypto inputs fun hactor n s => ?_
  refine ⟨[⟨op.actor, n, inputs.now⟩], by simpa using hactor, ?_⟩
  rw [allowAccessAttempt_eq]
  rfl

section
variable (crypto : Crypto) (store : Db) {calls : ℕ → Op × Inputs}

theorem served_log (hclock : ∀ k, clock calls k ≤ clock calls (k + 1)) (k : ℕ) :
    ∃ log : List AccessAttempt, (∀ a ∈ log, a.actor ≠ 0 ∧ a.now ≤ clock calls k) ∧
      (log.Pairwise fun a b => a.now ≤ b.now) ∧
      (served crypto store calls k).accessAttempts = AccessAttempt.after log ∅ := by
  induction k with
  | zero => exact ⟨[], by simp, .nil, rfl⟩
  | succ k ih =>
    obtain ⟨log, hlog, hsorted, htable⟩ := ih
    obtain ⟨log', hlog', htable'⟩ := attempted_perform crypto (calls k).2 (calls k).1 (served crypto store calls k)
    refine ⟨log ++ log', ?_, ?_, ?_⟩
    · intro a ha
      rcases List.mem_append.1 ha with ha | ha
      · exact ⟨(hlog a ha).1, (hlog a ha).2.trans (hclock k)⟩
      · exact ⟨(hlog' a ha).2.1, (hlog' a ha).2.2.le.trans (hclock k)⟩
    · refine List.pairwise_append.2 ⟨hsorted, ?_, fun a ha b hb => ?_⟩
      · exact List.pairwise_of_forall_mem_list fun a ha b hb => ((hlog' a ha).2.2.trans (hlog' b hb).2.2.symm).le
      · exact (hlog a ha).2.trans (hlog' b hb).2.2.ge
    · change (perform crypto (calls k).2 (calls k).1 (served crypto store calls k)).2.accessAttempts = _
      rw [htable', htable, AccessAttempt.after, AccessAttempt.after, AccessAttempt.after, List.foldl_append]

/-- The table of a running relay is that of a sequence of attempts. -/
theorem served_table (hclock : ∀ k, clock calls k ≤ clock calls (k + 1)) (k : ℕ) :
    ∃ (attempts : ℕ → AccessAttempt) (n : ℕ), (∀ j, (attempts j).now ≤ (attempts (j + 1)).now) ∧
      (∀ j, (attempts j).actor ≠ 0) ∧ AccessAttempt.table attempts n = (served crypto store calls k).accessAttempts := by
  obtain ⟨log, hlog, hsorted, htable⟩ := served_log crypto store hclock k
  obtain ⟨attempts, -, hmono, hactor, hafter⟩ := AccessAttempt.exists_calls log (fun a ha => (hlog a ha).1) hsorted
  exact ⟨attempts, log.length, hmono, hactor, hafter.trans htable.symm⟩

end

end Service

/-! ## Attempts at one network, and at none

Of six attempts at a network in one minute the sixth is refused. Of four
protected networks that a device creates in one minute the fourth is refused:
three attempts have counted as six. -/

namespace AccessAttempt

def joining : ℕ → AccessAttempt := fun _ => ⟨Service.operator, 7, 0⟩

theorem attempts_limited_joining : AttemptsLimited joining ∧ admitted joining 4 ∧ ¬ admitted joining 5 := by
  have hactor : ∀ k, (joining k).actor ≠ 0 := by simp [joining, Service.operator]
  have hnetwork : ∀ k, (joining k).network ≠ 0 := by simp [joining]
  exact ⟨attempts_limited (fun _ => le_rfl) hactor hnetwork, by decide +kernel, by decide +kernel⟩

def creating : ℕ → AccessAttempt := fun _ => ⟨Service.operator, 0, 0⟩

/-- A device creates one protected network after the other. -/
def protecting : ℕ → Op × Inputs := fun k =>
  (.accessRequest Service.operator { action := .networkCreateProtected, text := text "lan", secret := text "password" } 0,
    { networkIds := fun _ => .ok (BitVec.ofNat 128 (k + 1)), nonce := .ok 0 })

def anyPassword : Crypto := { Service.plainCrypto with scrypt := fun _ _ => some 0 }

theorem creates_counted_twice :
    (¬ ∀ calls : ℕ → AccessAttempt, (∀ k, (calls k).now ≤ (calls (k + 1)).now) → (∀ k, (calls k).actor ≠ 0) →
      AttemptsLimited calls) ∧
    (table creating 3).lookup (0, Service.operator) = some ⟨0, 6⟩ ∧
    admittedIn creating 3 (0, Service.operator) ⟨0, 6⟩ = 3 ∧ ¬ admitted creating 3 ∧
    (Service.served anyPassword {} protecting 3).accessAttempts.lookup (0, Service.operator) = some ⟨0, 6⟩ ∧
    (List.range 4).map (fun k => (Service.perform anyPassword (protecting k).2 (protecting k).1
      (Service.served anyPassword {} protecting k)).1.toOption.map Reply.code) =
      [some .success, some .success, some .success, some .limitReached] := by
  have hlookup : (table creating 3).lookup (0, Service.operator) = some ⟨0, 6⟩ := by decide +kernel
  have hcount : admittedIn creating 3 (0, Service.operator) ⟨0, 6⟩ = 3 := by decide +kernel
  refine ⟨fun h => ?_, hlookup, hcount, by decide +kernel, by decide +kernel, by decide +kernel⟩
  have hcounted := (h creating (fun _ => le_rfl) fun _ => by simp [creating, Service.operator]).counted 3 _ _ hlookup
  rw [hcount] at hcounted
  cases hcounted

end AccessAttempt

end LanLink
