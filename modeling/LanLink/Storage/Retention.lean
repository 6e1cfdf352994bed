import LanLink.Storage.Transitions
/-!
# Retention of the audit trail

Every append prunes the trail by three rules with different keys: rank in the
network, age by the clock of the new event, and rank overall. An event is dropped
only for what came after it, and the reasons for which it may be stay.
-/
open LanLink.Lib

namespace LanLink.Db

/-! ## Pruning a list -/

section
variable {p : AuditEvent → Bool} {x : AuditEvent} {l : List AuditEvent} {limit : ℕ}

/-- The newest first. -/
def NewestFirst (l : List AuditEvent) : Prop := l.Pairwise fun x y => y.sequence < x.sequence

theorem keepFirst_sublist : (keepFirst p limit l).Sublist l := by
  induction l generalizing limit with
  | nil => exact List.Sublist.refl _
  | cons e l ih =>
    unfold keepFirst
    split
    · cases limit with
      | zero => exact ih.cons e
      | succ limit => exact ih.cons_cons e
    · exact ih.cons_cons e

theorem length_keepFirst : ((keepFirst p limit l).filter p).length ≤ limit := by
  induction l generalizing limit with
  | nil => exact Nat.zero_le _
  | cons e l ih =>
    unfold keepFirst
    split
    · rename_i he
      cases limit with
      | zero => exact ih
      | succ limit =>
        rw [List.filter_cons_of_pos he, List.length_cons]
        exact Nat.succ_le_succ ih
    · rename_i he
      rw [List.filter_cons_of_neg he]
      exact ih

/-- What the first `limit` leave out has that many before it. -/
theorem rank_of_keepFirst (hl : NewestFirst l) (hx : x ∈ l) (hdropped : x ∉ keepFirst p limit l) :
    p x ∧ limit ≤ (l.filter fun y => p y && decide (x.sequence < y.sequence)).length := by
  induction l generalizing limit with
  | nil => cases hx
  | cons e l ih =>
    obtain ⟨hnewer, hl⟩ := List.pairwise_cons.1 hl
    unfold keepFirst at hdropped
    split at hdropped
    · rename_i he
      cases limit with
      | zero =>
        refine ⟨?_, Nat.zero_le _⟩
        rcases List.mem_cons.1 hx with rfl | hx
        · exact he
        · exact (ih hl hx hdropped).1
      | succ limit =>
        rw [List.mem_cons, not_or] at hdropped
        have hx := (List.mem_cons.1 hx).resolve_left hdropped.1
        obtain ⟨hp, hcount⟩ := ih hl hx hdropped.2
        refine ⟨hp, ?_⟩
        rw [List.filter_cons_of_pos (by simp [he, hnewer x hx]), List.length_cons]
        exact Nat.succ_le_succ hcount
    · rename_i he
      rw [List.mem_cons, not_or] at hdropped
      have hx := (List.mem_cons.1 hx).resolve_left hdropped.1
      rw [List.filter_cons_of_neg (by simp [he])]
      exact ih hl hx hdropped.2

theorem rank_of_take (hl : NewestFirst l) (hx : x ∈ l) (hdropped : x ∉ l.take limit) :
    limit ≤ (l.filter fun y => decide (x.sequence < y.sequence)).length := by
  induction l generalizing limit with
  | nil => cases hx
  | cons e l ih =>
    obtain ⟨hnewer, hl⟩ := List.pairwise_cons.1 hl
    cases limit with
    | zero => exact Nat.zero_le _
    | succ limit =>
      rw [List.take_succ_cons, List.mem_cons, not_or] at hdropped
      have hx := (List.mem_cons.1 hx).resolve_left hdropped.1
      rw [List.filter_cons_of_pos (by simp [hnewer x hx]), List.length_cons]
      exact Nat.succ_le_succ (ih hl hx hdropped.2)

/-- The elements that are newer than one of a trail are those in front of it. -/
theorem filter_newer {newer older : List AuditEvent} (hl : NewestFirst (newer ++ x :: older)) :
    ((newer ++ x :: older).filter fun y => decide (x.sequence < y.sequence)) = newer := by
  obtain ⟨-, htail, hfront⟩ := List.pairwise_append.1 hl
  obtain ⟨hback, -⟩ := List.pairwise_cons.1 htail
  have hnewer : newer.filter (fun y => decide (x.sequence < y.sequence)) = newer := by
    apply List.filter_eq_self.2
    intro y hy
    exact decide_eq_true (hfront y hy x List.mem_cons_self)
  have holder : older.filter (fun y => decide (x.sequence < y.sequence)) = [] := by
    apply List.filter_eq_nil_iff.2
    intro y hy
    have := hback y hy
    simp only [decide_eq_true_eq]
    omega
  rw [List.filter_append, hnewer, List.filter_cons_of_neg (by simp), holder, List.append_nil]

end

/-! ## One append -/

/-- The reasons for which an event may be dropped once `newer` came after it. -/
def Superseded (x : AuditEvent) (newer : List AuditEvent) : Prop :=
  256 ≤ (newer.filter (·.networkId = x.networkId)).length ∨ 10000 ≤ newer.length ∨
    ∃ y ∈ newer, (x.timestampMs : ℤ) + auditAgeLimit < y.timestampMs

theorem Superseded.cons {x y : AuditEvent} {newer : List AuditEvent} (h : Superseded x newer) : Superseded x (y :: newer) := by
  rcases h with hnetwork | htotal | ⟨z, hz, hage⟩
  · exact .inl (hnetwork.trans ((List.sublist_cons_self y newer).filter _).length_le)
  · exact .inr (.inl (htotal.trans (Nat.le_succ _)))
  · exact .inr (.inr ⟨z, List.mem_cons_of_mem _ hz, hage⟩)

/-- `rows` is all that was appended; what the store has of it was dropped for a reason. -/
structure Retained (rows : List AuditEvent) (db : Db) : Prop where
  ordered : NewestFirst rows
  numbered : ∀ x ∈ rows, x.sequence ≤ db.auditSequence
  stored : db.audit.Sublist rows
  dropped : ∀ newer x older, rows = newer ++ x :: older → x ∈ db.audit ∨ Superseded x newer

/-- The row of an event. -/
def row (db : Db) (e : AuditEvent) : AuditEvent := { e with sequence := db.auditSequence + 1 }

section
variable {db db' : Db} {e : AuditEvent} {rows : List AuditEvent} {u : Unit}

/-- The rows before they are pruned by their number. -/
def young (db : Db) (e : AuditEvent) : List AuditEvent :=
  (keepFirst (fun x => x.networkId = e.networkId) 256 (db.row e :: db.audit)).filter
    fun x => max 0 ((e.timestampMs : ℤ) - auditAgeLimit) ≤ x.timestampMs

theorem appendAudit_eq (h : db.appendAudit e = .ok (u, db')) :
    db'.audit = (db.young e).take 10000 ∧ db'.auditSequence = db.auditSequence + 1 := by
  simp only [appendAudit, appendAuditLocked, bind_eq_ok, check_eq_ok, Except.ok.injEq, exists_const, Prod.mk.injEq] at h
  obtain ⟨_, ⟨_, -, -, rfl⟩, -, rfl⟩ := h
  exact ⟨rfl, rfl⟩

theorem young_sublist : (db.young e).Sublist (db.row e :: db.audit) := List.filter_sublist.trans keepFirst_sublist

theorem young_eq : ∃ l, db.young e = db.row e :: l := by
  have hkeep : keepFirst (fun x => x.networkId = e.networkId) 256 (db.row e :: db.audit) =
      db.row e :: keepFirst (fun x => x.networkId = e.networkId) 255 db.audit := by
    have hsame : decide ((db.row e).networkId = e.networkId) = true := decide_eq_true rfl
    rw [keepFirst, if_pos hsame]
  have hage : decide (max 0 ((e.timestampMs : ℤ) - auditAgeLimit) ≤ (db.row e).timestampMs) = true := by
    apply decide_eq_true
    apply max_le
    · exact Int.natCast_nonneg _
    · exact sub_le_self _ (by decide)
  unfold young
  rw [hkeep, List.filter_cons, if_pos hage]
  exact ⟨_, rfl⟩

/-- Each of the three rules drops an event for one of the reasons. -/
theorem superseded_of_pruned {newer older : List AuditEvent} {x : AuditEvent} (hordered : NewestFirst (db.row e :: newer ++ x :: older))
    (hstored : (db.row e :: db.audit).Sublist (db.row e :: newer ++ x :: older)) (hx : x ∈ db.row e :: db.audit)
    (hdropped : x ∉ (db.young e).take 10000) : Superseded x (db.row e :: newer) := by
  have hnewest : NewestFirst (db.row e :: db.audit) := hordered.sublist hstored
  have hcount := filter_newer hordered
  by_cases hyoung : x ∈ db.young e
  · -- dropped by its number
    have hrank := rank_of_take (hnewest.sublist young_sublist) hyoung hdropped
    have hle := ((young_sublist.trans hstored).filter fun y => decide (x.sequence < y.sequence)).length_le
    rw [hcount] at hle
    exact .inr (.inl (hrank.trans hle))
  · by_cases hkept : x ∈ keepFirst (fun x => x.networkId = e.networkId) 256 (db.row e :: db.audit)
    · -- dropped by its age
      refine .inr (.inr ⟨db.row e, List.mem_cons_self, ?_⟩)
      have hold : ¬ max 0 ((e.timestampMs : ℤ) - auditAgeLimit) ≤ x.timestampMs := fun h =>
        hyoung (List.mem_filter.2 ⟨hkept, decide_eq_true h⟩)
      have hpositive : (0 : ℤ) ≤ x.timestampMs := Int.natCast_nonneg _
      have hlate : (x.timestampMs : ℤ) < e.timestampMs - auditAgeLimit := by
        by_contra hnot
        exact hold (max_le hpositive (not_lt.1 hnot))
      exact lt_sub_iff_add_lt.1 hlate
    · -- dropped by its rank in the network
      obtain ⟨hnetwork, hrank⟩ := rank_of_keepFirst hnewest hx hkept
      have hsame : x.networkId = e.networkId := of_decide_eq_true hnetwork
      have hle := ((hstored.filter fun y => decide (x.sequence < y.sequence)).filter fun y => decide (y.networkId = e.networkId)).length_le
      rw [hcount, List.filter_filter] at hle
      left
      rw [hsame]
      exact hrank.trans hle

theorem Retained.append (hr : Retained rows db) (h : db.appendAudit e = .ok (u, db')) : Retained (db.row e :: rows) db' := by
  obtain ⟨haudit, hsequence⟩ := appendAudit_eq h
  have hordered : NewestFirst (db.row e :: rows) := by
    refine List.pairwise_cons.2 ⟨fun x hx => ?_, hr.ordered⟩
    exact Nat.lt_succ_of_le (hr.numbered x hx)
  have hstored : (db.row e :: db.audit).Sublist (db.row e :: rows) := hr.stored.cons_cons _
  have hstoredOrdered : NewestFirst (db.row e :: db.audit) := hordered.sublist hstored
  refine ⟨hordered, ?_, ?_, ?_⟩
  · intro x hx
    rw [hsequence]
    rcases List.mem_cons.1 hx with rfl | hx
    · exact le_rfl
    · exact (hr.numbered x hx).trans (Nat.le_succ _)
  · rw [haudit]
    exact (List.take_sublist _ _).trans (young_sublist.trans hstored)
  · intro newer x older hsplit
    cases newer with
    | nil =>
      obtain ⟨rfl, rfl⟩ := List.cons.inj hsplit
      left
      obtain ⟨l, hl⟩ := @young_eq db e
      rw [haudit, hl]
      exact List.mem_cons_self
    | cons y newer =>
      obtain ⟨rfl, rfl⟩ := List.cons.inj hsplit
      rcases hr.dropped newer x older rfl with hx | hsuperseded
      · rw [haudit]
        by_cases hkept : x ∈ (db.young e).take 10000
        · exact .inl hkept
        · exact .inr (superseded_of_pruned hordered hstored (List.mem_cons_of_mem _ hx) hkept)
      · exact .inr hsuperseded.cons

/-- What the store has after an append. -/
theorem bounds_of_append (h : db.appendAudit e = .ok (u, db')) :
    (db'.audit.filter (·.networkId = e.networkId)).length ≤ 256 ∧ db'.audit.length ≤ 10000 ∧ db'.audit.head? = some (db.row e) := by
  obtain ⟨haudit, -⟩ := appendAudit_eq h
  obtain ⟨l, hl⟩ := @young_eq db e
  rw [haudit]
  refine ⟨?_, ?_, ?_⟩
  · have hsub : ((db.young e).take 10000).Sublist (keepFirst (fun x => x.networkId = e.networkId) 256 (db.row e :: db.audit)) :=
      (List.take_sublist _ _).trans List.filter_sublist
    exact (hsub.filter _).length_le.trans length_keepFirst
  · exact List.length_take_le _ _
  · rw [hl]
    rfl

end

/-! ## Histories -/

/-- Append the events of a history, the oldest first. -/
def appendAll (db : Db) : List AuditEvent → Except Exn Db
  | [] => .ok db
  | e :: history => do
    let (_, db) ← db.appendAudit e
    db.appendAll history

/-- The rows of a history, the oldest first. -/
def rowsFrom (sequence : ℕ) : List AuditEvent → List AuditEvent
  | [] => []
  | e :: history => { e with sequence := sequence + 1 } :: rowsFrom (sequence + 1) history

section
variable {db db' : Db} {history rows : List AuditEvent}

theorem Retained.appendAll (hr : Retained rows db) (h : db.appendAll history = .ok db') :
    Retained ((rowsFrom db.auditSequence history).reverse ++ rows) db' := by
  induction history generalizing db rows with
  | nil =>
    cases h
    exact hr
  | cons e history ih =>
    obtain ⟨⟨u, mid⟩, hstep, hrest⟩ := bind_eq_ok.1 h
    have hnext := ih (hr.append hstep) hrest
    rw [(appendAudit_eq hstep).2] at hnext
    rw [rowsFrom, List.reverse_cons, List.append_assoc, List.singleton_append]
    exact hnext

theorem appendAll_concat {e : AuditEvent} (h : db.appendAll (history ++ [e]) = .ok db') :
    ∃ mid u, db.appendAll history = .ok mid ∧ mid.appendAudit e = .ok (u, db') := by
  induction history generalizing db with
  | nil =>
    obtain ⟨⟨u, next⟩, hstep, hrest⟩ := bind_eq_ok.1 h
    cases hrest
    exact ⟨db, u, rfl, hstep⟩
  | cons x history ih =>
    obtain ⟨⟨u, next⟩, hstep, hrest⟩ := bind_eq_ok.1 h
    obtain ⟨mid, u', hmid, hlast⟩ := ih hrest
    exact ⟨mid, u', bind_eq_ok.2 ⟨_, hstep, hmid⟩, hlast⟩

theorem auditSequence_of_appendAll (h : db.appendAll history = .ok db') :
    db'.auditSequence = db.auditSequence + history.length := by
  induction history generalizing db with
  | nil =>
    cases h
    rfl
  | cons e history ih =>
    obtain ⟨⟨u, mid⟩, hstep, hrest⟩ := bind_eq_ok.1 h
    have hlater := ih hrest
    rw [(appendAudit_eq hstep).2] at hlater
    rw [hlater, List.length_cons]
    omega

end

/-- The newest rows of a network that are not too old, and how they are found
among the stored ones. -/
structure Answers (db : Db) (n : NetworkId) (nowMs : ℤ) (limit : ℕ) (result : List AuditEvent) : Prop where
  decreasing : NewestFirst result
  limited : result.length ≤ limit
  sound : ∀ x ∈ result, x ∈ db.audit ∧ x.networkId = n ∧ nowMs - auditAgeLimit ≤ x.timestampMs
  newest : ∀ x ∈ db.audit, x.networkId = n → nowMs - auditAgeLimit ≤ x.timestampMs →
    x ∈ result ∨ (result.length = limit ∧ ∀ y ∈ result, x.sequence < y.sequence)

theorem auditEvents_answers {db : Db} (hordered : NewestFirst db.audit) {n : NetworkId} {nowMs : ℤ} {limit : ℕ} (hnow : 0 ≤ nowMs)
    (hlimit : limit ≤ 256) : ∃ result, db.auditEvents n nowMs limit = .ok result ∧ Answers db n nowMs limit result := by
  obtain ⟨found, hfound⟩ : ∃ l, l = db.audit.filter fun e => e.networkId = n && max 0 (nowMs - auditAgeLimit) ≤ e.timestampMs := ⟨_, rfl⟩
  have hmem : ∀ x, x ∈ found ↔ x ∈ db.audit ∧ x.networkId = n ∧ nowMs - auditAgeLimit ≤ x.timestampMs := by
    intro x
    have hpositive : (0 : ℤ) ≤ x.timestampMs := Int.natCast_nonneg _
    rw [hfound, List.mem_filter, Bool.and_eq_true, decide_eq_true_eq, decide_eq_true_eq, max_le_iff, and_iff_right hpositive]
  have hsorted : NewestFirst found := by
    rw [hfound]
    exact hordered.sublist List.filter_sublist
  refine ⟨found.take limit, ?_, ?_⟩
  · rw [auditEvents, check_of ⟨hnow, hlimit⟩, ok_bind, ← hfound]
  · refine ⟨hsorted.sublist (List.take_sublist _ _), List.length_take_le _ _, ?_, ?_⟩
    · intro x hx
      exact (hmem x).1 (List.mem_of_mem_take hx)
    · intro x hstored hnetwork hyoung
      have hx := (hmem x).2 ⟨hstored, hnetwork, hyoung⟩
      rw [← List.take_append_drop limit found, List.mem_append] at hx
      rcases hx with hx | hx
      · exact .inl hx
      · right
        constructor
        · rw [List.length_take]
          have := List.length_pos_of_mem hx
          rw [List.length_drop] at this
          omega
        · intro y hy
          rw [← List.take_append_drop limit found] at hsorted
          exact (List.pairwise_append.1 hsorted).2.2 y hy x hx

/-- Over any history that is appended to an empty trail: the three limits hold
after each event, which is stored itself; an event is missing only if enough
came after it; and queries see the newest of what is stored. -/
theorem audit_retention {start db : Db} {history : List AuditEvent} (hstart : start.audit = []) (h : start.appendAll history = .ok db) :
    (∀ earlier e, history = earlier ++ [e] → (db.audit.filter (·.networkId = e.networkId)).length ≤ 256 ∧ db.audit.length ≤ 10000 ∧
      db.audit.head? = some { e with sequence := start.auditSequence + history.length }) ∧
    (∀ x ∈ db.audit, x ∈ rowsFrom start.auditSequence history) ∧
    (∀ earlier x later, rowsFrom start.auditSequence history = earlier ++ x :: later → x ∈ db.audit ∨
      256 ≤ (later.filter (·.networkId = x.networkId)).length ∨ 10000 ≤ later.length ∨
      ∃ y ∈ later, (x.timestampMs : ℤ) + 30 * 24 * 60 * 60 * 1000 < y.timestampMs) ∧
    ∀ n nowMs limit, 0 ≤ nowMs → limit ≤ 256 → ∃ result, db.auditEvents n nowMs limit = .ok result ∧ Answers db n nowMs limit result := by
  have hempty : Retained [] start := ⟨List.Pairwise.nil, by simp, by simp [hstart], by simp⟩
  have hretained := hempty.appendAll h
  rw [List.append_nil] at hretained
  refine ⟨?_, ?_, ?_, ?_⟩
  · rintro earlier e rfl
    obtain ⟨mid, u, hmid, hlast⟩ := appendAll_concat h
    obtain ⟨hnetwork, htotal, hhead⟩ := bounds_of_append hlast
    refine ⟨hnetwork, htotal, ?_⟩
    rw [hhead, row, auditSequence_of_appendAll hmid, List.length_append, List.length_singleton, Nat.add_assoc]
  · intro x hx
    exact List.mem_reverse.1 (hretained.stored.subset hx)
  · intro earlier x later hsplit
    have hreversed : (rowsFrom start.auditSequence history).reverse = later.reverse ++ x :: earlier.reverse := by
      rw [hsplit, List.reverse_append, List.reverse_cons, List.append_assoc, List.singleton_append]
    rcases hretained.dropped _ x _ hreversed with hx | hnetwork | htotal | ⟨y, hy, hage⟩
    · exact .inl hx
    · rw [List.filter_reverse, List.length_reverse] at hnetwork
      exact .inr (.inl hnetwork)
    · rw [List.length_reverse] at htotal
      exact .inr (.inr (.inl htotal))
    · exact .inr (.inr (.inr ⟨y, List.mem_reverse.1 hy, hage⟩))
  · intro n nowMs limit hnow hlimit
    exact auditEvents_answers (hretained.ordered.sublist hretained.stored) hnow hlimit

def createdEvent : AuditEvent := { timestampMs := 0, networkId := 7, actor := 1, target := 1, kind := .networkCreate }

def kickedEvent : AuditEvent := { timestampMs := 2592000001, networkId := 7, actor := 1, target := 2, kind := .memberKick }

theorem audit_retention_expired : ∃ db, appendAll {} [createdEvent, kickedEvent] = .ok db ∧
    db.audit.head? = some { kickedEvent with sequence := 2 } ∧ { createdEvent with sequence := 1 } ∉ db.audit ∧
    ∃ result, db.auditEvents 7 2592000002 256 = .ok result ∧ Answers db 7 2592000002 256 result := by
  obtain ⟨db, hrun, haudit⟩ : ∃ db, appendAll {} [createdEvent, kickedEvent] = .ok db ∧ db.audit = [{ kickedEvent with sequence := 2 }] :=
    ⟨_, rfl, by decide⟩
  obtain ⟨hlimits, -, -, hqueries⟩ := audit_retention rfl hrun
  refine ⟨db, hrun, (hlimits [createdEvent] kickedEvent rfl).2.2, ?_, hqueries 7 2592000002 256 (by decide) (by decide)⟩
  rw [haudit]
  decide

end LanLink.Db
