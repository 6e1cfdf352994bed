import LanLink.Relay.AuditedAccess
/-!
# Accounts and their devices

What the calls do to `accounts`, `account_devices` and `device_enrollment`.
Every row of `device_enrollment` goes back to the call that handed out its
code, and nothing has used or replaced the code since.
-/
open LanLink.Lib LanLink.Lib.Action

namespace LanLink

/-! ## What the store checks -/

namespace Db
variable {db db' : Db}

theorem liveEnrollment_some {digest : Digest} {now : ℤ} {id : AccountId} (h : db.liveEnrollment digest now = some id) :
    ∃ e, db.enrollments.lookup id = some e ∧ e.digest = digest ∧ now < e.expiresMs := by
  obtain ⟨row, hfind, rfl⟩ := Option.map_eq_some_iff.1 h
  have hrow := List.find?_some hfind
  rw [Bool.and_eq_true, decide_eq_true_eq, decide_eq_true_eq] at hrow
  exact ⟨row.2, Map.mem_rows.1 (List.mem_of_find?_eq_some hfind), hrow.1, hrow.2⟩

theorem enrollDevice_room {digest : Digest} {d : DeviceId} {label : Text} {now : ℤ} {id : AccountId}
    (h : db.enrollDevice digest d label now = .ok (true, db')) (hlive : db.liveEnrollment digest now = some id) :
    db.accountDevices.count (fun row => row.2.accountId = id) < 64 := by
  simp only [enrollDevice, bind_eq_ok, hlive] at h
  obtain ⟨-, -, -, -, -, -, h⟩ := h
  split at h
  · cases h
  · split at h
    · cases h
    · rename_i hroom
      exact not_le.1 hroom

end Db

/-! ## Requests that are let in -/

namespace Service
variable {s : Service} {crypto : Crypto} {inputs : Inputs} {actor : DeviceId} {q : AccessRequest} {nowMs : ℤ}

/-- What `access_request` does before its action. -/
def admitting (actor : DeviceId) (q : AccessRequest) (nowMs : ℤ) (body : Option AccountRecord → Call AccessOutcome) :
    Call AccessOutcome := do
  let allowed ← Action.gets fun s => s.deviceAllowed actor
  if ¬ allowed then pure (.fail q .permissionDenied)
  else do
    write fun db => db.recordDevice actor nowMs
    let account ← Action.gets fun s => s.store.accountForDevice actor
    body account

/-- A request does what its action does to a service that knows the actor. -/
theorem post_accessRequest {body : Option AccountRecord → Call AccessOutcome}
    (hbody : accessAction crypto inputs actor q nowMs = admitting actor q nowMs body)
    {Q : Except Exn AccessOutcome → Core → Prop} (hdenied : Q (.ok (.fail q .permissionDenied)) s.core)
    (hthrew : ∀ e, Q (.error e) s.core)
    (hgo : ∀ s₁ : Service, s₁.core = s.core → actor ≠ 0 → 0 ≤ nowMs → ¬ s.core.revoked actor →
      Post (body (s₁.store.accountForDevice actor)) s₁ fun r s' => Q r s'.core) :
    Post (accessRequest crypto inputs actor q nowMs) s fun r s' => Q r s'.core := by
  unfold accessRequest
  refine post_lift_bind (fun _ hactor => ?_) hthrew
  simp only [requireActorAndTime, bind_eq_ok, check_eq_ok, exists_const] at hactor
  refine post_lift_bind (fun _ _ => ?_) hthrew
  rw [hbody, post_bind, post_tryCatch]
  have hadmitting : Post (admitting actor q nowMs body) s fun r s' => Q r s'.core := by
    unfold admitting
    rw [post_gets_bind, post_ite]
    refine ⟨fun _ => hdenied, fun hallowed => ?_⟩
    rw [not_not, deviceAllowed_eq, Bool.not_eq_true'] at hallowed
    refine post_recordDevice (fun s₁ hs₁ => ?_) hthrew
    rw [post_gets_bind]
    exact hgo s₁ hs₁ hactor.1 hactor.2 (by simp [hallowed])
  refine hadmitting.mono fun r s₁ h => ?_
  -- the audit entry does not touch the core
  cases r with
  | error e =>
    dsimp only
    rw [post_bind, post_modify, post_throw, core_accessAudit]
    exact h
  | ok out =>
    dsimp only
    rw [post_bind, post_modify, post_pure, core_accessAudit]
    exact h

end Service

/-! ## What a call does to the accounts -/

/-- The reply hands out an enrolment code of the account. -/
def Op.HandsOut (op : Op) (r : Except Exn Reply) (id : AccountId) (code : Text) (expiresMs : ℤ) : Prop :=
  ∃ q t out, op = .accessRequest op.actor q t ∧ q.action = .enrollmentIssue ∧ r = .ok (.access out) ∧
    out.result.code = .success ∧ out.result.accountId = id ∧ out.result.secret = code ∧ expiresMs = t + 300000

inductive AccountMove (crypto : Crypto) (op : Op) (t : Tables) : Except Exn Reply → Tables → Prop
  | same {r : Except Exn Reply} {t' : Tables} (h : t.SameAccounts t') (quiet : ∀ id code expires, ¬ op.HandsOut r id code expires) :
      AccountMove crypto op t r t'
  | opened {r : Except Exn Reply} {t' : Tables} {q : AccessRequest} {id : AccountId} {account : Account}
      (hop : op.Requests .accountCreate q) (owner : account.owner = op.actor) (fresh : id ∉ t.accounts)
      (unknown : op.actor ∉ t.accountDevices) (h : (t.openAccount id account).SameAccounts t') : AccountMove crypto op t r t'
  | offered {r : Except Exn Reply} {t' : Tables} {id : AccountId} {code : Text} {expiresMs : ℤ}
      (hands : op.HandsOut r id code expiresMs)
      (h : (t.offerEnrollment id { digest := accessDigest crypto code, expiresMs }).SameAccounts t') : AccountMove crypto op t r t'
  | enrolled {r : Except Exn Reply} {t' : Tables} {q : AccessRequest} {id : AccountId} {e : Enrollment} {atMs : ℤ}
      (hop : op = .accessRequest op.actor q atMs) (action : q.action = .deviceEnroll) (live : t.enrollments.lookup id = some e)
      (digest : accessDigest crypto q.secret = e.digest) (fresh : atMs < e.expiresMs) (unknown : op.actor ∉ t.accountDevices)
      (room : t.accountDevices.count (fun row => row.2.accountId = id) < 64)
      (h : (t.enroll id e.digest op.actor q.text).SameAccounts t') : AccountMove crypto op t r t'
  | revoked {r : Except Exn Reply} {t' : Tables} {q : AccessRequest} {row : AccountDeviceRow}
      (hop : op.Requests .deviceRevoke q) (owns : OwnsDevice t op.actor q.deviceId row)
      (h : (t.revoke q.deviceId row).SameAccounts t') : AccountMove crypto op t r t'

namespace Service
variable {s : Service} {crypto : Crypto} {inputs : Inputs} {actor : DeviceId} {q : AccessRequest} {nowMs : ℤ}

theorem not_handsOut {op : Op} (h : ∀ q t, op = .accessRequest op.actor q t → q.action ≠ .enrollmentIssue) {r : Except Exn Reply}
    {id : AccountId} {code : Text} {expiresMs : ℤ} : ¬ op.HandsOut r id code expiresMs := by
  rintro ⟨q, t, -, hop, haction, -⟩
  exact h q t hop haction

/-- The report of an account carries the secret. -/
theorem post_accountReport_some {account : AccountRecord} {secret : Text} {Q : Except Exn AccessOutcome → Core → Prop}
    (h : ∀ out : AccessOutcome, out.result.code = .success → out.result.accountId = account.id → out.result.secret = secret →
      Q (.ok out) s.core) : Post (accountReport q (some account) secret) s fun r s' => Q r s'.core := by
  unfold accountReport
  rw [post_gets_bind, post_pure]
  exact h _ rfl rfl rfl

theorem accountMove_enrollmentIssue (haction : q.action = .enrollmentIssue) :
    Post (perform crypto inputs (.accessRequest actor q nowMs)) s fun r s' =>
      AccountMove crypto (.accessRequest actor q nowMs) s.core.tables r s'.core.tables := by
  have hfail {r : Except Exn Reply} (hr : ∀ out, r = .ok (.access out) → out.result.code ≠ .success) :
      AccountMove crypto (.accessRequest actor q nowMs) s.core.tables r s.core.tables := by
    refine .same (.refl _) ?_
    rintro id code expires ⟨q', t', out, -, -, hout, hcode, -⟩
    exact hr out hout hcode
  have hrequest : Post (accessRequest crypto inputs actor q nowMs) s fun r s' =>
      AccountMove crypto (.accessRequest actor q nowMs) s.core.tables (r.map Reply.access) s'.core.tables := by
    have hbody : accessAction crypto inputs actor q nowMs =
        admitting actor q nowMs fun account => enrollmentIssue crypto inputs actor q nowMs account := by
      unfold accessAction
      rw [haction]
      rfl
    refine post_accessRequest hbody (Q := fun r c => AccountMove crypto _ s.core.tables (r.map Reply.access) c.tables)
      (hfail ?_) (fun e => hfail ?_) fun s₁ hs₁ _ _ _ => ?_
    · rintro out ⟨⟩ ⟨⟩
    · rintro out ⟨⟩
    have hquiet {r : Except Exn AccessOutcome} (hr : ∀ out, r = .ok out → out.result.code ≠ .success) :
        AccountMove crypto (.accessRequest actor q nowMs) s.core.tables (r.map Reply.access) s₁.core.tables := by
      rw [hs₁]
      refine hfail fun out hout => ?_
      cases r with
      | error e => cases hout
      | ok out' =>
        cases hout
        exact hr out rfl
    unfold enrollmentIssue
    cases s₁.store.accountForDevice actor with
    | none => exact hquiet (by rintro out ⟨⟩ ⟨⟩)
    | some account =>
      dsimp only
      rw [post_ite]
      refine ⟨fun _ => hquiet (by rintro out ⟨⟩ ⟨⟩), fun _ => ?_⟩
      refine post_lift_bind (fun nonce hnonce => ?_) fun _ => hquiet (by rintro out ⟨⟩)
      refine post_write (fun _ db h => ?_) fun _ _ => hquiet (by rintro out ⟨⟩)
      obtain ⟨-, rfl⟩ := Db.issueEnrollment_ok h
      refine post_accountReport_some (Q := fun r c => AccountMove crypto _ s.core.tables (r.map Reply.access) c.tables)
        fun out hcode hid hsecret => ?_
      refine .offered ⟨q, nowMs, out, rfl, haction, rfl, hcode, hid, hsecret, rfl⟩ ?_
      rw [← hs₁]
      exact .refl _
  change Post (reply Reply.access (accessRequest crypto inputs actor q nowMs)) s _
  rw [reply, post_bind]
  refine hrequest.mono fun r s' h => ?_
  cases r <;> exact h

theorem accountMove_deviceEnroll (haction : q.action = .deviceEnroll) :
    Post (perform crypto inputs (.accessRequest actor q nowMs)) s fun r s' =>
      AccountMove crypto (.accessRequest actor q nowMs) s.core.tables r s'.core.tables := by
  have hnot (q' : AccessRequest) (t : ℤ) (hop : Op.accessRequest actor q nowMs = .accessRequest actor q' t) :
      q'.action ≠ .enrollmentIssue := by
    cases hop
    rw [haction]
    decide
  have hsame (r : Except Exn Reply) : AccountMove crypto (.accessRequest actor q nowMs) s.core.tables r s.core.tables :=
    .same (.refl _) fun _ _ _ => not_handsOut hnot
  have hrequest : Post (accessRequest crypto inputs actor q nowMs) s fun _ s' =>
      ∀ r, AccountMove crypto (.accessRequest actor q nowMs) s.core.tables r s'.core.tables := by
    have hbody : accessAction crypto inputs actor q nowMs = admitting actor q nowMs fun _ => deviceEnroll crypto actor q nowMs := by
      unfold accessAction
      rw [haction]
      rfl
    refine post_accessRequest hbody (Q := fun _ c => ∀ r, AccountMove crypto _ s.core.tables r c.tables)
      hsame (fun _ => hsame) fun s₁ hs₁ _ _ hallowed => ?_
    have hquiet (r : Except Exn Reply) : AccountMove crypto (.accessRequest actor q nowMs) s.core.tables r s₁.core.tables := by
      rw [hs₁]
      exact hsame r
    unfold deviceEnroll
    rw [post_ite]
    refine ⟨fun _ => hquiet, fun _ => ?_⟩
    refine post_write (fun enrolled db h => ?_) fun _ _ => hquiet
    obtain ⟨rfl, rfl⟩ | ⟨rfl, id, hlive, haccount, hrow, rfl⟩ := Db.enrollDevice_ok h
    · exact hquiet
    have hroom := Db.enrollDevice_room h hlive
    obtain ⟨e, he, hdigest, hfresh⟩ := Db.liveEnrollment_some hlive
    have htables : s₁.store.toTables = s.core.tables := congrArg Core.tables hs₁
    -- a device that is known could only enrol again if it was revoked
    have hunknown : actor ∉ s.core.tables.accountDevices := by
      intro hmem
      obtain ⟨row, hlookup⟩ := Map.mem_iff_lookup.1 hmem
      refine hallowed ?_
      rw [Core.revoked, hlookup]
      exact (hrow row (by rw [htables]; exact hlookup)).2
    rw [htables] at he hroom
    rw [if_neg (by simp), post_gets_bind]
    refine post_accountReport (P := fun _ c => ∀ r, AccountMove crypto _ s.core.tables r c.tables) fun _ _ r => ?_
    refine .enrolled rfl haction he hdigest.symm hfresh hunknown hroom ?_
    rw [hdigest, ← htables]
    exact .refl _
  change Post (reply Reply.access (accessRequest crypto inputs actor q nowMs)) s _
  rw [reply, post_bind]
  refine hrequest.mono fun r s' h => ?_
  cases r <;> exact h _

/-- Every call moves the accounts on in one of five ways. -/
theorem accountMove_perform (op : Op) (hw : s.tables.Wf) :
    Post (perform crypto inputs op) s fun r s' => AccountMove crypto op s.core.tables r s'.core.tables := by
  by_cases henroll : ∃ actor q t, op = .accessRequest actor q t ∧ q.action = .deviceEnroll
  · obtain ⟨actor, q, t, rfl, haction⟩ := henroll
    exact accountMove_deviceEnroll haction
  by_cases hissue : ∃ actor q t, op = .accessRequest actor q t ∧ q.action = .enrollmentIssue
  · obtain ⟨actor, q, t, rfl, haction⟩ := hissue
    exact accountMove_enrollmentIssue haction
  refine (perform_effect crypto inputs op hw).mono fun r s' heffect => ?_
  have hsame {t : Tables} (h₁ : s'.core.tables = t) (h₂ : s.core.tables.SameAccounts t) :
      AccountMove crypto op s.core.tables r s'.core.tables := by
    rw [h₁]
    exact .same h₂ fun _ _ _ => not_handsOut fun q t hop haction => hissue ⟨_, q, t, hop, haction⟩
  generalize s'.core = c' at heffect hsame ⊢
  generalize succeeded Reply.code r = ok at heffect
  cases heffect with
  | quiet _ => exact hsame rfl (.refl _)
  | created password _ _ _ _ _ _ _ advanced => exact hsame advanced.tables (Tables.sameAccounts_create _ _ _ _ password)
  | joined atMs _ joinable advanced => exact hsame advanced.tables ⟨rfl, rfl, rfl⟩
  | redeemJoined joinedAtMs redemption joinable advanced => exact hsame advanced.tables ⟨rfl, rfl, rfl⟩
  | left _ member advanced => exact hsame advanced.tables (Tables.sameAccounts_leave _ _)
  | edited _ _ _ _ _ _ _ advanced => exact hsame advanced.tables ⟨rfl, rfl, rfl⟩
  | keyPublished _ _ ticked => exact hsame ticked.tables (.refl _)
  | keyRemoved _ ticked => exact hsame ticked.tables (.refl _)
  | capableSet _ ticked => exact hsame ticked.tables (.refl _)
  | accountOpened hop owner fresh single unknown => exact .opened hop owner fresh (owner ▸ unknown) (.refl _)
  | enrollmentOffered _ hop _ =>
    obtain ⟨haction, t, hop⟩ := hop
    exact absurd ⟨_, _, t, hop, haction⟩ hissue
  | enrolled _ _ hop _ _ =>
    obtain ⟨haction, t, hop⟩ := hop
    exact absurd ⟨_, _, t, hop, haction⟩ henroll
  | revoked hop owns _ _ purged => exact .revoked hop owns purged.sameAccounts
  | revokeStopped hop owns _ _ purged stopped => exact .revoked hop owns (purged.sameAccounts.trans stopped.sameAccounts)
  | _ => exact hsame rfl ⟨rfl, rfl, rfl⟩

end Service

/-! ## What a move keeps -/

namespace AccountMove
variable {crypto : Crypto} {op : Op} {r : Except Exn Reply} {t t' : Tables} {d : DeviceId} {row : AccountDeviceRow}

/-- A row is new, revoked by the owner, or as it was. -/
theorem device (h : AccountMove crypto op t r t') (hrow : t'.accountDevices.lookup d = some row) :
    t.accountDevices.lookup d = some row ∨ (t.accountDevices.lookup d = none ∧ row.revoked = false) ∨
      ∃ q old, op.Requests .deviceRevoke q ∧ q.deviceId = d ∧ OwnsDevice t op.actor d old ∧ row.accountId = old.accountId := by
  cases h with
  | same h _ => exact .inl (h.accountDevices ▸ hrow)
  | opened _ owner _ unknown h =>
    rw [h.accountDevices, Tables.openAccount_accountDevices, Map.lookup_insert, owner] at hrow
    split at hrow
    · rename_i hd
      subst hd
      cases hrow
      exact .inr (.inl ⟨AList.lookup_eq_none.2 unknown, rfl⟩)
    · exact .inl hrow
  | offered _ h => exact .inl (h.accountDevices ▸ hrow)
  | enrolled _ _ _ _ _ unknown _ h =>
    rw [h.accountDevices, Tables.enroll_accountDevices, Map.lookup_insert] at hrow
    split at hrow
    · rename_i hd
      subst hd
      cases hrow
      exact .inr (.inl ⟨AList.lookup_eq_none.2 unknown, rfl⟩)
    · exact .inl hrow
  | @revoked q old hop owns h =>
    rw [h.accountDevices, Tables.revoke_accountDevices, Map.lookup_insert] at hrow
    split at hrow
    · rename_i hd
      subst hd
      cases hrow
      exact .inr (.inr ⟨q, old, hop, rfl, owns, rfl⟩)
    · exact .inl hrow

/-- A device stays in its account. -/
theorem kept (h : AccountMove crypto op t r t') (hrow : t.accountDevices.lookup d = some row) :
    ∃ row', t'.accountDevices.lookup d = some row' ∧ row'.accountId = row.accountId := by
  have hother {e : DeviceId} {new : AccountDeviceRow} (hmap : t'.accountDevices = t.accountDevices.insert e new) (hne : d ≠ e) :
      ∃ row', t'.accountDevices.lookup d = some row' ∧ row'.accountId = row.accountId :=
    ⟨row, by rw [hmap, Map.lookup_insert, if_neg hne, hrow], rfl⟩
  have hknown {e : DeviceId} (unknown : e ∉ t.accountDevices) : d ≠ e := by
    rintro rfl
    exact unknown (Map.mem_of_lookup hrow)
  cases h with
  | same h _ => exact ⟨row, h.accountDevices ▸ hrow, rfl⟩
  | opened _ owner _ unknown h => exact hother h.accountDevices (owner ▸ hknown unknown)
  | offered _ h => exact ⟨row, h.accountDevices ▸ hrow, rfl⟩
  | enrolled _ _ _ _ _ unknown _ h => exact hother h.accountDevices (hknown unknown)
  | @revoked q old hop owns h =>
    by_cases hd : d = q.deviceId
    · subst hd
      rw [owns.device, Option.some.injEq] at hrow
      refine ⟨{ old with revoked := true }, ?_, by rw [← hrow]⟩
      rw [h.accountDevices, Tables.revoke_accountDevices, Map.lookup_insert, if_pos rfl]
    · exact hother h.accountDevices hd

/-- No account gets more than 64 rows. -/
theorem bounded (h : AccountMove crypto op t r t') (hw : t.Accounted)
    (hb : ∀ id, t.accountDevices.count (fun row => row.2.accountId = id) ≤ 64) (id : AccountId) :
    t'.accountDevices.count (fun row => row.2.accountId = id) ≤ 64 := by
  have hold : t.accountDevices.count (fun row => row.2.accountId = id) ≤ 64 := hb id
  -- the rows that count are those of before, and perhaps the new one
  have hinsert {e : DeviceId} {new : AccountDeviceRow} (hmap : t'.accountDevices = t.accountDevices.insert e new)
      (extra : List DeviceId) (hnew : new.accountId = id → e ∈ extra ∨ ∃ old, t.accountDevices.lookup e = some old ∧ old.accountId = id) :
      t'.accountDevices.count (fun row => row.2.accountId = id) ≤
        extra.length + t.accountDevices.count (fun row => row.2.accountId = id) := by
    refine Map.count_le extra fun d row hrow hid => ?_
    rw [decide_eq_true_eq] at hid
    rw [hmap, Map.lookup_insert] at hrow
    split at hrow
    · rename_i hd
      subst hd
      cases hrow
      simpa using hnew hid
    · exact .inr ⟨row, hrow, by simpa using hid⟩
  cases h with
  | same h _ =>
    rw [h.accountDevices]
    exact hold
  | @opened _ id' account _ owner fresh unknown h =>
    by_cases hid : id' = id
    · subst hid
      -- nobody is in an account that was not there
      have hnone : t.accountDevices.count (fun row => row.2.accountId = id') ≤ 0 := by
        refine Map.count_le (m := (∅ : Map DeviceId AccountDeviceRow)) (q := fun _ => true) [] fun d row hrow hid => ?_
        rw [decide_eq_true_eq] at hid
        exact absurd (hid ▸ hw.device_account d row hrow) fresh
      have hle := hinsert h.accountDevices [account.owner] fun _ => .inl List.mem_cons_self
      rw [List.length_singleton] at hle
      omega
    · have hle := hinsert h.accountDevices [] fun hnew => absurd hnew hid
      rw [List.length_nil] at hle
      omega
  | offered _ h =>
    rw [h.accountDevices]
    exact hold
  | @enrolled q id' e atMs _ _ _ _ _ unknown room h =>
    by_cases hid : id' = id
    · subst hid
      have hle := hinsert h.accountDevices [op.actor] fun _ => .inl List.mem_cons_self
      rw [List.length_singleton] at hle
      omega
    · have hle := hinsert h.accountDevices [] fun hnew => absurd hnew hid
      rw [List.length_nil] at hle
      omega
  | @revoked q old hop owns h =>
    have hle := hinsert h.accountDevices [] fun hnew => .inr ⟨old, owns.device, hnew⟩
    rw [List.length_nil] at hle
    omega

end AccountMove

/-! ## Runs -/

namespace Service
section
variable (crypto : Crypto) (events : ℕ → Event)

/-- Call `j` hands out an enrolment code of the account. -/
def IssuesCode (j : ℕ) (id : AccountId) (code : Text) (expiresMs : ℤ) : Prop :=
  ∃ op inputs, events j = .call op inputs ∧ op.HandsOut ((run crypto events j).replies crypto (events j)) id code expiresMs

/-- By call `k` the device enrols itself in the account, with a secret of the digest. -/
def Enrolls (k : ℕ) (d : DeviceId) (id : AccountId) (digest : Digest) (atMs : ℤ) : Prop :=
  ∃ q inputs, events k = .call (.accessRequest d q atMs) inputs ∧ q.action = .deviceEnroll ∧
    accessDigest crypto q.secret = digest ∧ d ∉ (run crypto events k).tables.accountDevices ∧
    ∃ row, (run crypto events (k + 1)).tables.accountDevices.lookup d = some row ∧ row.accountId = id

/-- The code that call `i` handed out lets the device into the account by call `k`. -/
structure AdmittedBy (i k : ℕ) (d : DeviceId) (id : AccountId) : Prop where
  before : i < k
  code : ∃ code expiresMs atMs, IssuesCode crypto events i id code expiresMs ∧
    Enrolls crypto events k d id (accessDigest crypto code) atMs ∧ atMs < expiresMs
  newest : ∀ j, i < j → j < k → ∀ code expiresMs, ¬ IssuesCode crypto events j id code expiresMs

/-- By call `k` the device opens the account and owns it. -/
def OpensAccount (k : ℕ) (d : DeviceId) (id : AccountId) : Prop :=
  ∃ q t inputs a, events k = .call (.accessRequest d q t) inputs ∧ q.action = .accountCreate ∧
    id ∉ (run crypto events k).tables.accounts ∧ (run crypto events (k + 1)).tables.accounts.lookup id = some a ∧ a.owner = d

/-- By call `k` the owner of its account revokes the device. -/
def RevokesDevice (k : ℕ) (d : DeviceId) : Prop :=
  ∃ owner q t inputs row a, events k = .call (.accessRequest owner q t) inputs ∧ q.action = .deviceRevoke ∧ q.deviceId = d ∧
    (run crypto events k).tables.accountDevices.lookup d = some row ∧
    (run crypto events k).tables.accounts.lookup row.accountId = some a ∧ a.owner = owner

/-- The row of `device_enrollment` at `k` is of a code that was handed out, and
neither replaced nor used since. -/
structure RowIssued (j k : ℕ) (id : AccountId) (e : Enrollment) : Prop where
  before : j < k
  code : ∃ code, IssuesCode crypto events j id code e.expiresMs ∧ e.digest = accessDigest crypto code
  newest : ∀ l, j < l → l < k → ∀ code expiresMs, ¬ IssuesCode crypto events l id code expiresMs
  unused : ∀ l, j < l → l < k → ∀ d id' atMs, ¬ Enrolls crypto events l d id' e.digest atMs

end

section
variable {crypto : Crypto} {events : ℕ → Event} {i j k : ℕ} {id : AccountId} {d : DeviceId} {e : Enrollment}

theorem run_accountMove (crypto : Crypto) {op : Op} {inputs : Inputs} (hcall : events k = .call op inputs) :
    AccountMove crypto op (run crypto events k).tables ((run crypto events k).replies crypto (events k))
      (run crypto events (k + 1)).tables := by
  have hmove := @accountMove_perform _ crypto inputs op (wf_run crypto events k)
  rw [run_succ, hcall]
  exact hmove

theorem tables_restart (hrestart : events k = .restart) : (run crypto events (k + 1)).tables = (run crypto events k).tables := by
  rw [run_succ, hrestart]
  rfl

theorem handsOut_unique {op : Op} {r : Except Exn Reply} {id id' : AccountId} {code code' : Text} {x x' : ℤ}
    (h : op.HandsOut r id code x) (h' : op.HandsOut r id' code' x') : id = id' ∧ code = code' := by
  obtain ⟨q, t, out, -, -, hr, -, hid, hcode, -⟩ := h
  obtain ⟨q', t', out', -, -, hr', -, hid', hcode', -⟩ := h'
  rw [hr] at hr'
  cases hr'
  exact ⟨hid.symm.trans hid', hcode.symm.trans hcode'⟩

theorem IssuesCode.unique {id' : AccountId} {code code' : Text} {x x' : ℤ} (h : IssuesCode crypto events j id code x)
    (h' : IssuesCode crypto events j id' code' x') : id = id' ∧ code = code' := by
  obtain ⟨op, inputs, hcall, hands⟩ := h
  obtain ⟨op', inputs', hcall', hands'⟩ := h'
  rw [hcall] at hcall'
  cases hcall'
  exact handsOut_unique hands hands'

/-- What kind of request a call is. -/
theorem IssuesCode.action {code : Text} {x : ℤ} {actor : DeviceId} {q : AccessRequest} {t : ℤ} {inputs : Inputs}
    (h : IssuesCode crypto events j id code x) (hcall : events j = .call (.accessRequest actor q t) inputs) :
    q.action = .enrollmentIssue := by
  obtain ⟨op, inputs', hcall', q', t', out, hop, haction, -⟩ := h
  rw [hcall] at hcall'
  cases hcall'
  cases hop
  exact haction

theorem Enrolls.action {digest : Digest} {atMs : ℤ} {actor : DeviceId} {q : AccessRequest} {t : ℤ} {inputs : Inputs}
    (h : Enrolls crypto events j d id digest atMs) (hcall : events j = .call (.accessRequest actor q t) inputs) :
    q.action = .deviceEnroll ∧ accessDigest crypto q.secret = digest := by
  obtain ⟨q', inputs', hcall', haction, hdigest, -⟩ := h
  rw [hcall] at hcall'
  cases hcall'
  exact ⟨haction, hdigest⟩

/-- Enrolling takes a live row of the account. -/
theorem Enrolls.live {digest : Digest} {atMs : ℤ} (h : Enrolls crypto events k d id digest atMs) :
    ∃ e, (run crypto events k).tables.enrollments.lookup id = some e ∧ e.digest = digest ∧ atMs < e.expiresMs := by
  obtain ⟨q, inputs, hcall, haction, hdigest, hunknown, row, hrow, hid⟩ := h
  have hknown (hsame : (run crypto events (k + 1)).tables.accountDevices = (run crypto events k).tables.accountDevices) :
      False := by
    rw [hsame] at hrow
    exact hunknown (Map.mem_of_lookup hrow)
  cases run_accountMove crypto hcall with
  | same h _ => exact (hknown h.accountDevices).elim
  | opened hop _ _ _ _ =>
    obtain ⟨hcreate, t, hop⟩ := hop
    cases hop
    cases haction.symm.trans hcreate
  | offered _ h => exact (hknown h.accountDevices).elim
  | @enrolled q' id' e atMs' hop _ live digest fresh _ _ h =>
    cases hop
    rw [h.accountDevices, Tables.enroll_accountDevices, Map.lookup_insert,
      if_pos (show d = (Op.accessRequest d q atMs).actor from rfl)] at hrow
    cases hrow
    subst hid
    exact ⟨e, live, digest.symm.trans hdigest, fresh⟩
  | revoked hop _ _ =>
    obtain ⟨hrevoke, t, hop⟩ := hop
    cases hop
    cases haction.symm.trans hrevoke

/-! ## Where the rows come from -/

theorem RowIssued.extend (h : RowIssued crypto events j k id e)
    (hissue : ∀ code x, ¬ IssuesCode crypto events k id code x)
    (henroll : ∀ d id' atMs, ¬ Enrolls crypto events k d id' e.digest atMs) : RowIssued crypto events j (k + 1) id e where
  before := h.before.trans k.lt_succ_self
  code := h.code
  newest l hjl hlk code x := by
    rcases Nat.lt_succ_iff_lt_or_eq.1 hlk with hlt | rfl
    · exact h.newest l hjl hlt code x
    · exact hissue code x
  unused l hjl hlk d id' atMs := by
    rcases Nat.lt_succ_iff_lt_or_eq.1 hlk with hlt | rfl
    · exact h.unused l hjl hlt d id' atMs
    · exact henroll d id' atMs

/-- Every row of `device_enrollment` was issued. -/
theorem rowIssued_run (k : ℕ) (id : AccountId) (e : Enrollment)
    (hrow : (run crypto events k).tables.enrollments.lookup id = some e) : ∃ j, RowIssued crypto events j k id e := by
  induction k generalizing id e with
  | zero => cases hrow
  | succ k ih =>
    have hextend (hold : (run crypto events k).tables.enrollments.lookup id = some e)
        (hissue : ∀ code x, ¬ IssuesCode crypto events k id code x)
        (henroll : ∀ d id' atMs, ¬ Enrolls crypto events k d id' e.digest atMs) :
        ∃ j, RowIssued crypto events j (k + 1) id e := by
      obtain ⟨j, hj⟩ := ih id e hold
      exact ⟨j, hj.extend hissue henroll⟩
    -- a call of another kind issues nothing and enrols nobody
    have hneither {actor : DeviceId} {q : AccessRequest} {t : ℤ} {inputs : Inputs}
        (hcall : events k = .call (.accessRequest actor q t) inputs) (h₁ : q.action ≠ .enrollmentIssue)
        (h₂ : q.action ≠ .deviceEnroll) (hold : (run crypto events k).tables.enrollments.lookup id = some e) :
        ∃ j, RowIssued crypto events j (k + 1) id e :=
      hextend hold (fun _ _ h => h₁ (h.action hcall)) fun _ _ _ h => h₂ (h.action hcall).1
    cases hcall : events k with
    | restart =>
      rw [tables_restart hcall] at hrow
      refine hextend hrow (fun code x hissues => ?_) fun d id' atMs henrolls => ?_
      · obtain ⟨op, inputs, hcall', -⟩ := hissues
        cases hcall.symm.trans hcall'
      · obtain ⟨q, inputs, hcall', -⟩ := henrolls
        cases hcall.symm.trans hcall'
    | call op inputs =>
      cases run_accountMove crypto hcall with
      | same h quiet =>
        rw [h.enrollments] at hrow
        refine hextend hrow (fun code x hissues => ?_) fun d id' atMs henrolls => ?_
        · obtain ⟨op', inputs', hcall', hands⟩ := hissues
          rw [hcall] at hcall'
          cases hcall'
          exact quiet _ _ _ hands
        · obtain ⟨q, inputs', -, -, -, hunknown, row, hnew, -⟩ := henrolls
          rw [h.accountDevices] at hnew
          exact hunknown (Map.mem_of_lookup hnew)
      | opened hop _ _ _ h =>
        obtain ⟨haction, t, hop⟩ := hop
        rw [hop] at hcall
        rw [h.enrollments] at hrow
        exact hneither hcall (by rw [haction]; decide) (by rw [haction]; decide) hrow
      | @offered id' code x hands h =>
        have hissues : IssuesCode crypto events k id' code x := ⟨op, inputs, hcall, hands⟩
        obtain ⟨q, t, out, hop, haction, -⟩ := hands
        rw [hop] at hcall
        have hnobody (d : DeviceId) (id' : AccountId) (digest : Digest) (atMs : ℤ) : ¬ Enrolls crypto events k d id' digest atMs := by
          intro henrolls
          cases haction.symm.trans (henrolls.action hcall).1
        rw [h.enrollments, Tables.offerEnrollment_enrollments, Map.lookup_insert] at hrow
        split at hrow
        · rename_i hid
          subst hid
          cases hrow
          exact ⟨k, k.lt_succ_self, ⟨code, hissues, rfl⟩, fun l hkl hlk => by omega, fun l hkl hlk => by omega⟩
        · rename_i hid
          exact hextend hrow (fun code' x' h => hid (h.unique hissues).1) fun d id'' atMs => hnobody d id'' _ atMs
      | @enrolled q id' e' atMs hop action live digest fresh unknown room h =>
        rw [hop] at hcall
        rw [h.enrollments, Tables.enroll_enrollments, Map.lookup_eraseIf_eq_some, decide_eq_false_iff_not] at hrow
        refine hextend hrow.1 (fun _ _ h => ?_) fun d id'' atMs' h => ?_
        · cases action.symm.trans (h.action hcall)
        · exact hrow.2 ((h.action hcall).2.symm.trans digest)
      | revoked hop _ h =>
        obtain ⟨haction, t, hop⟩ := hop
        rw [hop] at hcall
        rw [h.enrollments] at hrow
        exact hneither hcall (by rw [haction]; decide) (by rw [haction]; decide) hrow

/-! ## The law of accounts -/

/-- A device that is new to the accounts opened one, or a code let it in. -/
theorem admitted_run {row : AccountDeviceRow} (hunknown : d ∉ (run crypto events k).tables.accountDevices)
    (hrow : (run crypto events (k + 1)).tables.accountDevices.lookup d = some row) :
    OpensAccount crypto events k d row.accountId ∨ ∃ i, AdmittedBy crypto events i k d row.accountId := by
  have hnone : (run crypto events k).tables.accountDevices.lookup d = none := AList.lookup_eq_none.2 hunknown
  have hknown (hsame : (run crypto events (k + 1)).tables.accountDevices = (run crypto events k).tables.accountDevices) :
      False := by
    rw [hsame] at hrow
    exact hunknown (Map.mem_of_lookup hrow)
  cases hcall : events k with
  | restart => exact (hknown (by rw [tables_restart hcall])).elim
  | call op inputs =>
    have hnew := hrow
    cases run_accountMove crypto hcall with
    | same h _ => exact (hknown h.accountDevices).elim
    | @opened q id account hop owner fresh unknown h =>
      rw [h.accountDevices, Tables.openAccount_accountDevices, Map.lookup_insert, owner] at hrow
      split at hrow
      · rename_i hd
        subst hd
        cases hrow
        obtain ⟨haction, t, hop⟩ := hop
        refine .inl ⟨q, t, inputs, account, by rw [hcall, ← hop], haction, fresh, ?_, owner⟩
        rw [h.accounts, Tables.openAccount_accounts, Map.lookup_insert, if_pos rfl]
      · cases hnone.symm.trans hrow
    | offered _ h => exact (hknown h.accountDevices).elim
    | @enrolled q id e atMs hop action live digest fresh unknown room h =>
      rw [h.accountDevices, Tables.enroll_accountDevices, Map.lookup_insert] at hrow
      split at hrow
      · rename_i hd
        subst hd
        cases hrow
        obtain ⟨j, hj⟩ := rowIssued_run k id e live
        obtain ⟨code, hissues, hcode⟩ := hj.code
        refine .inr ⟨j, hj.before, ⟨code, e.expiresMs, atMs, hissues, ?_, fresh⟩, hj.newest⟩
        exact ⟨q, inputs, by rw [hcall, ← hop], action, digest.trans hcode, unknown, _, hnew, rfl⟩
      · cases hnone.symm.trans hrow
    | @revoked q old hop owns h =>
      rw [h.accountDevices, Tables.revoke_accountDevices, Map.lookup_insert] at hrow
      split at hrow
      · rename_i hd
        rw [hd] at hnone
        cases hnone.symm.trans owns.device
      · cases hnone.symm.trans hrow

theorem AdmittedBy.not_before {k' : ℕ} {d' : DeviceId} {id' : AccountId} (h : AdmittedBy crypto events i k d id)
    (h' : AdmittedBy crypto events i k' d' id') : ¬ k < k' := by
  intro hlt
  obtain ⟨code, x, atMs, hissues, henrolls, -⟩ := h.code
  obtain ⟨code', x', atMs', hissues', henrolls', -⟩ := h'.code
  obtain ⟨rfl, rfl⟩ := hissues.unique hissues'
  -- the row that the second device used goes back to the same call
  obtain ⟨e, hrow, hdigest, -⟩ := henrolls'.live
  obtain ⟨j, hj⟩ := rowIssued_run k' id e hrow
  obtain ⟨code'', hissues'', -⟩ := hj.code
  obtain rfl : i = j := by
    rcases Nat.lt_trichotomy i j with hij | hij | hij
    · exact absurd hissues'' (h'.newest j hij hj.before _ _)
    · exact hij
    · exact absurd hissues (hj.newest i hij h'.before _ _)
  refine hj.unused k h.before hlt d id atMs ?_
  rw [hdigest]
  exact henrolls

/-- A code lets one device in. -/
theorem AdmittedBy.unique {k' : ℕ} {d' : DeviceId} {id' : AccountId} (h : AdmittedBy crypto events i k d id)
    (h' : AdmittedBy crypto events i k' d' id') : k = k' ∧ d = d' := by
  obtain rfl : k = k' := le_antisymm (not_lt.1 (h'.not_before h)) (not_lt.1 (h.not_before h'))
  obtain ⟨code, x, atMs, hissues, ⟨q, inputs, hcall, -⟩, -⟩ := h.code
  obtain ⟨code', x', atMs', hissues', ⟨q', inputs', hcall', -⟩, -⟩ := h'.code
  rw [hcall] at hcall'
  cases hcall'
  exact ⟨rfl, rfl⟩

/-- Between two devices that enrol with one secret, it was handed out again. -/
theorem Enrolls.reissued {k' : ℕ} {d' : DeviceId} {id' : AccountId} {digest : Digest} {atMs atMs' : ℤ}
    (h : Enrolls crypto events k d id digest atMs) (h' : Enrolls crypto events k' d' id' digest atMs') (hlt : k < k') :
    ∃ j code x, k < j ∧ j < k' ∧ IssuesCode crypto events j id' code x ∧ accessDigest crypto code = digest := by
  obtain ⟨e, hrow, hdigest, -⟩ := h'.live
  obtain ⟨j, hj⟩ := rowIssued_run k' id' e hrow
  obtain ⟨code, hissues, hcode⟩ := hj.code
  refine ⟨j, code, _, ?_, hj.before, hissues, hcode.symm.trans hdigest⟩
  rcases Nat.lt_trichotomy j k with hjk | rfl | hjk
  · exact absurd (hdigest ▸ h) (hj.unused k hjk hlt d id atMs)
  · obtain ⟨q, inputs, hcall, haction, -⟩ := h
    cases haction.symm.trans (hissues.action hcall)
  · exact hjk

theorem account_kept {row : AccountDeviceRow} (h : j ≤ k)
    (hrow : (run crypto events j).tables.accountDevices.lookup d = some row) :
    ∃ row', (run crypto events k).tables.accountDevices.lookup d = some row' ∧ row'.accountId = row.accountId := by
  induction k, h using Nat.le_induction with
  | base => exact ⟨row, hrow, rfl⟩
  | succ k _ ih =>
    obtain ⟨row', hrow', hid'⟩ := ih
    cases hcall : events k with
    | restart =>
      rw [tables_restart hcall]
      exact ⟨row', hrow', hid'⟩
    | call op inputs =>
      obtain ⟨row'', hrow'', hid''⟩ := (run_accountMove crypto hcall).kept hrow'
      exact ⟨row'', hrow'', hid''.trans hid'⟩

theorem devices_bounded (k : ℕ) (id : AccountId) :
    (run crypto events k).tables.accountDevices.count (fun row => row.2.accountId = id) ≤ 64 := by
  induction k generalizing id with
  | zero => exact Nat.zero_le _
  | succ k ih =>
    cases hcall : events k with
    | restart =>
      rw [tables_restart hcall]
      exact ih id
    | call op inputs => exact (run_accountMove crypto hcall).bounded (wf_run crypto events k).accounted ih id

theorem revoked_run {row : AccountDeviceRow} (hallowed : ¬ (run crypto events k).core.revoked d)
    (hrow : (run crypto events (k + 1)).tables.accountDevices.lookup d = some row) (hrevoked : row.revoked = true) :
    RevokesDevice crypto events k d := by
  have hsame (h : (run crypto events k).tables.accountDevices.lookup d = some row) : False := by
    refine hallowed ?_
    change ((run crypto events k).tables.accountDevices.lookup d).any (·.revoked) = true
    rw [h]
    exact hrevoked
  cases hcall : events k with
  | restart =>
    rw [tables_restart hcall] at hrow
    exact (hsame hrow).elim
  | call op inputs =>
    rcases (run_accountMove crypto hcall).device hrow with hold | ⟨-, hfalse⟩ | ⟨q, old, ⟨haction, t, hop⟩, hd, owns, -⟩
    · exact (hsame hold).elim
    · cases hrevoked.symm.trans hfalse
    · obtain ⟨a, ha, howner⟩ := owns.owner
      exact ⟨op.actor, q, t, inputs, old, a, by rw [hcall, ← hop], haction, hd, owns.device, ha, howner⟩

end

/-- What holds of accounts in every run. -/
structure AccountLaw (crypto : Crypto) (events : ℕ → Event) : Prop where
  /-- A device gets into an account by opening it, or by its newest code before that expires. -/
  admitted : ∀ k d row, d ∉ (run crypto events k).tables.accountDevices →
    (run crypto events (k + 1)).tables.accountDevices.lookup d = some row →
      OpensAccount crypto events k d row.accountId ∨ ∃ i, AdmittedBy crypto events i k d row.accountId
  /-- A code lets at most one device in. -/
  once : ∀ i k k' d d' id id', AdmittedBy crypto events i k d id → AdmittedBy crypto events i k' d' id' → k = k' ∧ d = d'
  /-- Two devices use one secret only if it was handed out again in between. -/
  reissued : ∀ k k' d d' id id' digest atMs atMs', k < k' → Enrolls crypto events k d id digest atMs →
    Enrolls crypto events k' d' id' digest atMs' →
      ∃ j code x, k < j ∧ j < k' ∧ IssuesCode crypto events j id' code x ∧ accessDigest crypto code = digest
  /-- A device that is in an account is in that account ever after, and in no other. -/
  kept : ∀ j k d row, j ≤ k → (run crypto events j).tables.accountDevices.lookup d = some row →
    ∃ row', (run crypto events k).tables.accountDevices.lookup d = some row' ∧ row'.accountId = row.accountId
  bounded : ∀ k id, ((run crypto events k).tables.accountDevices.rows.filter fun row => row.2.accountId = id).length ≤ 64
  owner : ∀ k id a, (run crypto events k).tables.accounts.lookup id = some a →
    ∃ row, (run crypto events k).tables.accountDevices.lookup a.owner = some row ∧ row.accountId = id ∧ row.revoked = false
  revoked : ∀ k d row, ¬ (run crypto events k).core.revoked d →
    (run crypto events (k + 1)).tables.accountDevices.lookup d = some row → row.revoked = true → RevokesDevice crypto events k d

theorem account_law (crypto : Crypto) (events : ℕ → Event) : AccountLaw crypto events where
  admitted _ _ _ hunknown hrow := admitted_run hunknown hrow
  once _ _ _ _ _ _ _ h h' := h.unique h'
  reissued _ _ _ _ _ _ _ _ _ hlt h h' := h.reissued h' hlt
  kept _ _ _ _ hle hrow := account_kept hle hrow
  bounded k id := devices_bounded k id
  owner k := (wf_run crypto events k).accounted.owner_device
  revoked _ _ _ hallowed hrow hrevoked := revoked_run hallowed hrow hrevoked

example : (run plainCrypto enrolling 4).tables.accountDevices.lookup laptop = none ∧
    ((run plainCrypto enrolling 5).tables.accountDevices.lookup laptop).isSome := by decide +kernel

end Service

end LanLink
