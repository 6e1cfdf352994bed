import LanLink.Relay.Audit
import LanLink.Relay.Delivery
import LanLink.Storage.Addresses
/-!
# Audited access requests

An access request is reported as a success unless it sets another code. When it
throws, the report is wrong unless the change was made before: a device that is
revoked stays revoked when a later step throws, but a password that is too short,
a label that is missing or an invitation above the limit leaves no trace.
-/
open LanLink.Lib LanLink.Lib.Action

namespace LanLink

/-! ## When a request goes through -/

namespace Service

end Service

namespace Db
variable {db : Db}

end Db

namespace Service
variable {s s' : Service} {crypto : Crypto} {inputs : Inputs} {actor : DeviceId} {q : AccessRequest} {nowMs : ℤ}

/-! ## What a request leaves behind -/

section
variable {α : Type} {T : Tables → Prop} {Q : Except Exn AccessOutcome → Service → Prop} {k : α → Call AccessOutcome}

end

/-- The devices of the accounts are the same. -/
def SameAccounts (s s' : Service) : Prop := s'.store.accountDevices = s.store.accountDevices

theorem SameAccounts.trans {s s' s'' : Service} (h : SameAccounts s s') (h' : SameAccounts s' s'') :
    SameAccounts s s'' := Eq.trans h' h

theorem recordDevice_eq {db : Db} {d : DeviceId} {t : ℤ} (hd : d ≠ 0) (ht : 0 ≤ t) :
    ∃ devices, d ∈ devices ∧ db.recordDevice d t = .ok ((), { db with devices }) := by
  simp only [Db.recordDevice, requireDeviceId, requireTimestamp, check_of hd, check_of ht, ok_bind]
  exact ⟨_, (AList.mem_insert _).2 (.inl rfl), rfl⟩

variable {E : AuditEvent → Tables → Prop}

end Service

/-- Nothing is filed for the device zero, and enrollment codes belong to accounts. -/
structure Tables.Filed (t : Tables) : Prop where
  nonzero : 0 ∉ t.accountDevices
  rooted : ∀ id, id ∈ t.enrollments → id ∈ t.accounts

/-- The tables of accounts are the same. -/
structure Tables.SameAccounts (t t' : Tables) : Prop where
  accounts : t'.accounts = t.accounts
  accountDevices : t'.accountDevices = t.accountDevices
  enrollments : t'.enrollments = t.enrollments

namespace Tables
variable {t t' t'' : Tables}

theorem SameAccounts.refl (t : Tables) : SameAccounts t t := ⟨rfl, rfl, rfl⟩

theorem SameAccounts.trans (h : SameAccounts t t') (h' : SameAccounts t' t'') : SameAccounts t t'' :=
  ⟨h'.accounts.trans h.accounts, h'.accountDevices.trans h.accountDevices, h'.enrollments.trans h.enrollments⟩

theorem SameAccounts.filed (h : SameAccounts t t') (hf : t.Filed) : t'.Filed where
  nonzero := by
    rw [h.accountDevices]
    exact hf.nonzero
  rooted id := by
    rw [h.accounts, h.enrollments]
    exact hf.rooted id

theorem Filed.revoke {d : DeviceId} {row : AccountDeviceRow} (hf : t.Filed) (hrow : t.accountDevices.lookup d = some row) :
    (t.revoke d row).Filed where
  nonzero := by
    rw [revoke_accountDevices, AList.mem_insert]
    rintro (rfl | h)
    · exact hf.nonzero (Map.mem_of_lookup hrow)
    · exact hf.nonzero h
  rooted := hf.rooted

theorem sameAccounts_leave (n : NetworkId) (d : DeviceId) : SameAccounts t (t.leave n d) := ⟨rfl, rfl, rfl⟩

theorem sameAccounts_create (n : NetworkId) (network : Network) (base : SubnetAddress) (a : LeaseAddress)
    (password : Option PasswordVerifier) : SameAccounts t (t.create n network base a password) := by
  cases password <;> exact ⟨rfl, rfl, rfl⟩

end Tables

theorem Purged.sameAccounts {d : DeviceId} {networks : List NetworkId} {c c' : Core} (h : Purged d networks c c') :
    c.tables.SameAccounts c'.tables := by
  induction h with
  | nil => exact .refl _
  | cons member advanced rest ih =>
    rw [advanced.tables] at ih
    exact (Tables.sameAccounts_leave _ _).trans ih

theorem Stopped.sameAccounts {n : NetworkId} {d : DeviceId} {c c' : Core} (h : Stopped n d c c') :
    c.tables.SameAccounts c'.tables := by
  cases h with
  | policy _ _ => exact .refl _
  | counter member advanced =>
    rw [advanced.tables]
    exact Tables.sameAccounts_leave n d

theorem Effect.filed {crypto : Crypto} {c c' : Core} {op : Op} {ok : Bool} (h : Effect crypto c op ok c')
    (hactor : ∀ q t, op = .accessRequest op.actor q t → op.actor ≠ 0) (hf : c.tables.Filed) : c'.tables.Filed := by
  -- most effects write to other tables
  have hsame {t : Tables} (h₁ : c'.tables = t) (h₂ : c.tables.SameAccounts t) : c'.tables.Filed := by
    rw [h₁]
    exact h₂.filed hf
  cases h with
  | quiet _ => exact hf
  | created password _ _ _ _ _ _ _ advanced => exact hsame advanced.tables (Tables.sameAccounts_create _ _ _ _ password)
  | joined atMs _ joinable advanced => exact hsame advanced.tables ⟨rfl, rfl, rfl⟩
  | redeemJoined joinedAtMs redemption joinable advanced => exact hsame advanced.tables ⟨rfl, rfl, rfl⟩
  | left _ member advanced => exact hsame advanced.tables (Tables.sameAccounts_leave _ _)
  | edited _ _ _ _ _ _ _ advanced => exact hsame advanced.tables ⟨rfl, rfl, rfl⟩
  | keyPublished _ _ ticked => exact hsame ticked.tables (.refl _)
  | keyRemoved _ ticked => exact hsame ticked.tables (.refl _)
  | capableSet _ ticked => exact hsame ticked.tables (.refl _)
  | accountOpened hop owner _ _ _ =>
    obtain ⟨-, t, hop⟩ := hop
    refine ⟨?_, fun id hid => ?_⟩
    · rw [Core.withTables_tables, Tables.openAccount_accountDevices, AList.mem_insert, owner]
      rintro (hzero | hmem)
      · exact hactor _ t hop hzero.symm
      · exact hf.nonzero hmem
    · rw [Core.withTables_tables, Tables.openAccount_accounts, AList.mem_insert]
      exact .inr (hf.rooted id hid)
  | enrollmentOffered enrollment _ account =>
    refine ⟨hf.nonzero, fun id hid => ?_⟩
    rw [Core.withTables_tables, Tables.offerEnrollment_enrollments, AList.mem_insert] at hid
    rcases hid with rfl | hid
    · exact account
    · exact hf.rooted id hid
  | enrolled digest label hop _ _ =>
    obtain ⟨-, t, hop⟩ := hop
    refine ⟨?_, fun id hid => ?_⟩
    · rw [Core.withTables_tables, Tables.enroll_accountDevices, AList.mem_insert]
      rintro (hzero | hmem)
      · exact hactor _ t hop hzero.symm
      · exact hf.nonzero hmem
    · refine hf.rooted id ?_
      rw [Core.withTables_tables, Tables.enroll_enrollments] at hid
      exact Map.mem_of_mem_eraseIf hid
  | revoked _ owns _ _ purged => exact purged.sameAccounts.filed (hf.revoke owns.device)
  | revokeStopped _ owns _ _ purged stopped =>
    exact (purged.sameAccounts.trans stopped.sameAccounts).filed (hf.revoke owns.device)
  | _ => exact hsame rfl ⟨rfl, rfl, rfl⟩

namespace Service
variable {s : Service}

theorem filed_step (crypto : Crypto) (hw : s.tables.Wf) (hf : s.tables.Filed) (e : Event) :
    (s.step crypto e).tables.Filed := by
  cases e with
  | restart => exact hf
  | call op inputs =>
    by_cases hzero : ∃ q t, op = .accessRequest 0 q t
    · -- a request of the device zero is turned away at the door
      obtain ⟨q, t, rfl⟩ := hzero
      exact hf
    · refine Effect.filed (perform_effect crypto inputs op hw) (fun q t hop hactor => hzero ⟨q, t, ?_⟩) hf
      rw [hop, hactor]

end Service
end LanLink
