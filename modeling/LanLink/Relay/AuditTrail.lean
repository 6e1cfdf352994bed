import LanLink.Relay.Runs
import LanLink.Storage.Retention
/-!
# The audit trail

Events are numbered as they are written, so what a call wrote is what has a
number above the last one before it. `Quietly x` says that `x` writes no event;
every call that is not about a membership, a policy or an account is quiet, and
so is everything an audited call does before its one write to the trail.
-/
open LanLink.Lib LanLink.Lib.Action

namespace LanLink

namespace Db

/-- Nothing was written to the trail. -/
def Quiet (db db' : Db) : Prop := db'.audit = db.audit ∧ db'.auditSequence = db.auditSequence

/-- No event has a number that was not given out. -/
def Ordered (db : Db) : Prop := ∀ e ∈ db.audit, e.sequence ≤ db.auditSequence

/-- Every success written since `db` satisfies `E`. -/
def Honest (E : AuditEvent → Tables → Prop) (db db' : Db) : Prop :=
  ∀ e ∈ db'.audit, db.auditSequence < e.sequence → e.result = .success → E e db'.toTables

variable {db db' db'' : Db}

theorem Quiet.refl (db : Db) : Quiet db db := ⟨rfl, rfl⟩

theorem Quiet.trans (h : Quiet db db') (h' : Quiet db' db'') : Quiet db db'' :=
  ⟨h'.1.trans h.1, h'.2.trans h.2⟩

theorem Quiet.ordered (h : Quiet db db') (ho : db.Ordered) : db'.Ordered := by
  intro e he
  rw [h.1] at he
  rw [h.2]
  exact ho e he

theorem Quiet.honest {E : AuditEvent → Tables → Prop} (h : Quiet db db') (ho : db.Ordered) : db.Honest E db' := by
  intro e he hlt
  rw [h.1] at he
  exact absurd (ho e he) (by omega)

section
variable {n : NetworkId} {d : DeviceId} {u : Unit} {done : Bool}

end
end Db

namespace Service
variable {s s' : Service} {α β : Type}

/-! ## Calls that write no event -/

/-- The call writes nothing to the trail. -/
def Quietly (x : Call α) : Prop := ∀ s, Post x s fun _ s' => s.store.Quiet s'.store

namespace Quietly

theorem pure (a : α) : Quietly (Pure.pure a : Call α) := fun s => .refl s.store

theorem throw (e : Exn) : Quietly (Action.throw e : Call α) := fun s => .refl s.store

theorem lift (x : Except Exn α) : Quietly (Action.lift x : Call α) := fun s => .refl s.store

theorem gets (f : Service → α) : Quietly (Action.gets f) := fun s => .refl s.store

theorem query (f : Service → Except Exn α) : Quietly (Action.query f) := fun s => .refl s.store

theorem read (f : Db → Except Exn α) : Quietly (LanLink.read f) := fun s => .refl s.store

theorem modify {f : Service → Service} (h : ∀ s, (f s).store = s.store) : Quietly (Action.modify f) := by
  intro s
  rw [post_modify, h]
  exact .refl _

theorem update {f : Service → α × Service} (h : ∀ s, (f s).2.store = s.store) : Quietly (Action.update f) := by
  intro s
  rw [post_update, h]
  exact .refl _

theorem write {f : Db → Except Exn (α × Db)} (h : ∀ db a db', f db = .ok (a, db') → db.Quiet db') :
    Quietly (LanLink.write f) := by
  intro s
  unfold Post LanLink.write
  cases hf : f s.store with
  | ok p => exact h s.store p.1 p.2 hf
  | error e => exact .refl _

theorem bind {x : Call α} {k : α → Call β} (hx : Quietly x) (hk : ∀ a, Quietly (k a)) : Quietly (x >>= k) := by
  intro s
  rw [post_bind]
  refine (hx s).mono fun r s' h => ?_
  cases r with
  | ok a => exact (hk a s').mono fun _ _ h' => h.trans h'
  | error e => exact h

theorem ite {p : Prop} [Decidable p] {x y : Call α} (hx : Quietly x) (hy : Quietly y) :
    Quietly (if p then x else y) := by
  split
  · exact hx
  · exact hy

theorem tryCatch {x : Call α} {h : Exn → Call α} (hx : Quietly x) (hh : ∀ e, Quietly (h e)) :
    Quietly (Action.tryCatch x h) := by
  intro s
  rw [post_tryCatch]
  refine (hx s).mono fun r s' hq => ?_
  cases r with
  | ok a => exact hq
  | error e => exact (hh e s').mono fun _ _ hq' => hq.trans hq'

theorem collect {f : β → Call (List α)} {bs : List β} (hf : ∀ b, Quietly (f b)) : Quietly (Action.collect f bs) :=
  fun s => post_collect (fun s => .refl s.store) (fun h h' => h.trans h') (fun b _ => hf b) s

end Quietly

/-! ## The shared functions -/

/-- The call reads the store only. -/
def KeepsStore (x : Call α) : Prop := ∀ s, (x s).2.store = s.store

theorem KeepsStore.bind {x : Call α} {k : α → Call β} (hx : KeepsStore x) (hk : ∀ a, KeepsStore (k a)) :
    KeepsStore (x >>= k) := by
  intro s
  have hs := hx s
  change (Action.bind x k s).2.store = _
  unfold Action.bind
  split
  · rename_i a s' hrun
    rw [hrun] at hs
    rw [hk a s', hs]
  · rename_i e s' hrun
    rw [hrun] at hs
    exact hs

end Service
end LanLink
