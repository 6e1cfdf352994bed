import LanLink.Lib.Actions
import LanLink.Storage.Addresses
/-!
# The migration that introduces addresses

Version 3 of the database gives every network a subnet and every member a lease.
`migrate_to_v3` creates the two tables and fills them row by row with the
allocators, in one transaction. It succeeds exactly when there are enough addresses.
-/
open LanLink.Lib

namespace LanLink

/-! ## Database files -/

/-- A database file: `PRAGMA user_version`, whether the tables of version 3 exist,
and the rows. Tables that do not exist are empty. -/
structure DbFile where
  version : ℕ
  addressTables : Bool
  db : Db

/-- `class Transaction`: unless it commits, its destructor rolls back. -/
def transaction (body : Action Exn DbFile Unit) : Action Exn DbFile Unit := fun file =>
  match body file with
  | (.ok (), file') => (.ok (), file')
  | (.error e, _) => (.error e, file)

/-- The effect of one statement on the rows. -/
def execute (f : Db → Except Exn Db) : Action Exn DbFile Unit := fun file =>
  match f file.db with
  | .ok db => (.ok (), { file with db := db })
  | .error e => (.error e, file)

/-- `CREATE TABLE network_subnets`, `virtual_ipv4_leases` and their index and triggers. -/
def createAddressTables : Action Exn DbFile Unit := fun file =>
  if file.addressTables then
    (.error (.runtimeError "executing SQLite SQL failed: table network_subnets already exists"), file)
  else (.ok (), { file with addressTables := true })

namespace Db

/-- `ORDER BY network_id`. -/
def listNetworks (db : Db) : List NetworkRecord := (db.networks.rows.map .ofRow).insertionSort fun a b => a.id ≤ b.id

/-- `ORDER BY network_id, role DESC, device_id`. -/
def listMemberships (db : Db) : List (NetworkId × MembershipRecord) :=
  (db.memberships.rows.map fun row =>
    (row.1.1, { deviceId := row.1.2, role := row.2.role, joinedAtMs := row.2.joinedAtMs : MembershipRecord })).insertionSort
    fun a b => a.1 < b.1 ∨ (a.1 = b.1 ∧ (b.2.role.code < a.2.role.code ∨ (b.2.role = a.2.role ∧ a.2.deviceId ≤ b.2.deviceId)))

end Db

def migrateToV3 : Action Exn DbFile Unit := transaction do
  createAddressTables
  let networks ← Action.gets fun file => file.db.listNetworks
  networks.forM fun network => execute fun db => db.insertSubnet network.id
  let memberships ← Action.gets fun file => file.db.listMemberships
  memberships.forM fun membership => execute fun db => db.insertLease membership.1 membership.2.deviceId
  Action.modify fun file => { file with version := 3 }

/-- The constraints of the tables of versions 1 and 2; later tables do not exist. -/
structure VersionTwo (file : DbFile) : Prop where
  version : file.version = 2
  tables : file.addressTables = false
  absent : file.db.subnets = ∅ ∧ file.db.leases = ∅ ∧ file.db.accounts = ∅ ∧ file.db.accountDevices = ∅ ∧
    file.db.enrollments = ∅ ∧ file.db.access = ∅ ∧ file.db.links = ∅ ∧ file.db.policies = ∅ ∧ file.db.audit = []
  devices : ∀ d row, file.db.devices.lookup d = some row → 0 ≤ row.firstSeenAtMs ∧ row.firstSeenAtMs ≤ row.lastSeenAtMs
  networks : ∀ n row, file.db.networks.lookup n = some row →
    1 ≤ sqlLength row.name ∧ sqlLength row.name ≤ 128 ∧ 0 ≤ row.createdAtMs ∧ row.ownerDeviceId ∈ file.db.devices
  memberships : ∀ n d row, file.db.memberships.lookup (n, d) = some row →
    0 ≤ row.joinedAtMs ∧ n ∈ file.db.networks ∧ d ∈ file.db.devices
  owners : ∀ n d e row row', file.db.memberships.lookup (n, d) = some row → file.db.memberships.lookup (n, e) = some row' →
    row.role = .owner → row'.role = .owner → d = e
  invitations : ∀ n d atMs, file.db.invitations.lookup (n, d) = some atMs →
    0 ≤ atMs ∧ n ∈ file.db.networks ∧ d ∈ file.db.devices
  joinRequests : ∀ n d atMs, file.db.joinRequests.lookup (n, d) = some atMs →
    0 ≤ atMs ∧ n ∈ file.db.networks ∧ d ∈ file.db.devices

/-! ## The two loops -/

/-- A loop of statements runs the fallible fold over the rows. -/
theorem forM_execute {α : Type} (g : Db → α → Except Exn Db) (as : List α) (file : DbFile) :
    (∃ db, as.foldlM g file.db = .ok db ∧ as.forM (fun a => execute fun db => g db a) file = (.ok (), { file with db := db })) ∨
    ∃ e file', as.foldlM g file.db = .error e ∧ as.forM (fun a => execute fun db => g db a) file = (.error e, file') := by
  induction as generalizing file with
  | nil => exact .inl ⟨file.db, rfl, rfl⟩
  | cons a as ih =>
    have hloop : (a :: as).forM (fun a => execute fun db => g db a) file =
        Action.bind (execute fun db => g db a) (fun _ => as.forM fun a => execute fun db => g db a) file := rfl
    rw [hloop, Action.bind, List.foldlM_cons]
    cases hg : g file.db a with
    | error e =>
      refine .inr ⟨e, file, rfl, ?_⟩
      simp only [execute, hg]
    | ok db =>
      have hstep : execute (fun db => g db a) file = (.ok (), { file with db := db }) := by simp only [execute, hg]
      rw [hstep, ok_bind]
      exact ih { file with db := db }

namespace Db
variable {db : Db}

/-- All subnets are different ones of the pool. -/
theorem size_subnets_le (h : db.Addressing) : db.subnets.size ≤ 16384 := by
  have hnodup : (db.subnets.rows.map fun row => row.2.val.toNat).Nodup := by
    have hdistinct : Map.Distinct (fun base : SubnetAddress => base.val.toNat) db.subnets :=
      fun j k a b ha hb hab => h.subnet_distinct j k a b ha hb (UInt32.toNat_inj.1 hab)
    exact hdistinct.nodup
  have hle := @length_le_of_progression 256 virtualIpv4PoolFirst.toNat _ 16384 hnodup (fun x hx => by
    obtain ⟨row, -, rfl⟩ := List.mem_map.1 hx
    obtain ⟨hfirst, hend, haligned⟩ := row.2.property
    rw [UInt32.le_iff_toNat_le, show virtualIpv4PoolFirst.toNat = 0x0a400000 from rfl] at hfirst
    rw [UInt32.lt_iff_toNat_lt, show virtualIpv4PoolEnd.toNat = 0x0a800000 from rfl] at hend
    rw [← UInt32.toNat_inj, UInt32.toNat_mod] at haligned
    change row.2.val.toNat % 256 = 0 at haligned
    refine ⟨(row.2.val.toNat - 0x0a400000) / 256, by omega, ?_⟩
    change _ = 0x0a400000 + 256 * _
    omega)
  rwa [List.length_map, ← Map.size_eq] at hle

/-- All leases of a network are different hosts of its subnet. -/
theorem count_leases_le (h : db.Addressing) (n : NetworkId) : db.leases.count (fun row => row.1.1 = n) ≤ 254 := by
  have hnodup : ((db.leases.rows.filter fun row => row.1.1 = n).map fun row => row.2.val.toNat).Nodup := by
    have hdistinct : Map.Distinct (fun a : LeaseAddress => a.val.toNat) db.leases :=
      fun j k a b ha hb hab => h.lease_distinct j k a b ha hb (UInt32.toNat_inj.1 hab)
    exact hdistinct.nodup.sublist (List.filter_sublist.map _)
  cases hbase : db.subnets.lookup n with
  | none =>
    have hnone : db.leases.rows.filter (fun row => row.1.1 = n) = [] := by
      rw [List.filter_eq_nil_iff]
      rintro ⟨⟨m, d⟩, a⟩ hrow hmine
      obtain rfl : m = n := by simpa using hmine
      rw [Map.mem_rows] at hrow
      obtain ⟨base, hsome, -⟩ := h.lease_inside m d a hrow
      rw [hbase] at hsome
      cases hsome
    rw [Map.count, hnone]
    exact Nat.zero_le _
  | some base =>
    have hle := @length_le_of_progression 1 (base.val.toNat + 1) _ 254 hnodup (fun x hx => by
      obtain ⟨⟨⟨m, d⟩, a⟩, hfiltered, rfl⟩ := List.mem_map.1 hx
      obtain ⟨hrow, hmine⟩ := List.mem_filter.1 hfiltered
      obtain rfl : m = n := by simpa using hmine
      rw [Map.mem_rows] at hrow
      obtain ⟨base', hbase', hinside⟩ := h.lease_inside m d a hrow
      rw [hbase, Option.some.injEq] at hbase'
      subst hbase'
      obtain ⟨hlow, hhigh⟩ := host_of_subnet hinside a.property.2.2.1 a.property.2.2.2
      refine ⟨a.val.toNat - base.val.toNat - 1, by omega, ?_⟩
      dsimp only
      omega)
    rwa [List.length_map] at hle

/-- The loop over the networks gives each its subnet, or runs out of them. -/
theorem insertSubnets (networks : List NetworkId) (h : db.Addressing) (hnodup : networks.Nodup)
    (hnew : ∀ n ∈ networks, n ∈ db.networks ∧ n ∉ db.subnets) :
    (∃ subnets, networks.foldlM insertSubnet db = .ok { db with subnets := subnets } ∧
      ({ db with subnets := subnets } : Db).Addressing ∧ ∀ n, n ∈ subnets ↔ n ∈ networks ∨ n ∈ db.subnets) ∨
    (∃ e, networks.foldlM insertSubnet db = .error e) ∧ 16384 < db.subnets.size + networks.length := by
  induction networks generalizing db with
  | nil => exact .inl ⟨db.subnets, rfl, h, by simp⟩
  | cons n networks ih =>
    obtain ⟨hn, hrest⟩ := List.nodup_cons.1 hnodup
    obtain ⟨hready, htail⟩ := List.forall_mem_cons.1 hnew
    rw [List.foldlM_cons, List.length_cons]
    rcases insertSubnet_cases db n with ⟨hnone, herror⟩ | ⟨base, hleast, hok⟩
    · right
      refine ⟨⟨_, by rw [herror, error_bind]⟩, ?_⟩
      have hfull : ¬ db.subnets.size < 16384 := fun hlt => freeSubnets_nonempty hlt hnone
      omega
    rw [if_pos hready] at hok
    rw [hok, ok_bind]
    have hsize : Map.size (db.subnets.insert n base) = db.subnets.size + 1 := by
      rw [Map.size_eq, Map.rows_insert_of_notMem hready.2, List.length_cons, ← Map.size_eq]
    have hkept : ({ db with subnets := db.subnets.insert n base } : Db).Addressing := by
      refine ⟨fun m hm => ?_, h.subnet_distinct.insert n fun m b hb heq => ?_, h.lease_member, fun m d a ha => ?_, h.lease_distinct⟩
      · rcases (AList.mem_insert _).1 hm with rfl | hm
        · exact hready.1
        · exact h.subnet_network m hm
      · exact hleast.1.2 ⟨m, b, hb, by rw [heq]⟩
      · obtain ⟨base', hbase', hinside⟩ := h.lease_inside m d a ha
        have hne : m ≠ n := fun hmn => hready.2 (hmn ▸ Map.mem_of_lookup hbase')
        exact ⟨base', by rwa [Map.lookup_insert, if_neg hne], hinside⟩
    have hwaiting : ∀ m ∈ networks, m ∈ db.networks ∧ m ∉ db.subnets.insert n base := by
      intro m hm
      refine ⟨(htail m hm).1, fun hold => ?_⟩
      rcases (AList.mem_insert _).1 hold with rfl | hold
      · exact hn hm
      · exact (htail m hm).2 hold
    rcases ih hkept hrest hwaiting with ⟨subnets, hfold, hdone, hkeys⟩ | ⟨herror, hfull⟩
    · refine .inl ⟨subnets, hfold, hdone, fun m => ?_⟩
      rw [hkeys, AList.mem_insert, List.mem_cons]
      tauto
    · refine .inr ⟨herror, ?_⟩
      change 16384 < Map.size (db.subnets.insert n base) + _ at hfull
      omega

/-- The loop over the memberships gives each its lease, or runs out of hosts in some network. -/
theorem insertLeases (keys : List (NetworkId × DeviceId)) (h : db.Addressing) (hnodup : keys.Nodup)
    (hnew : ∀ key ∈ keys, key.1 ∈ db.subnets ∧ key ∈ db.memberships ∧ key ∉ db.leases) :
    (∃ leases, keys.foldlM (fun db key => db.insertLease key.1 key.2) db = .ok { db with leases := leases } ∧
      ({ db with leases := leases } : Db).Addressing ∧ ∀ key, key ∈ leases ↔ key ∈ keys ∨ key ∈ db.leases) ∨
    (∃ e, keys.foldlM (fun db key => db.insertLease key.1 key.2) db = .error e) ∧
      ∃ n, 254 < db.leases.count (fun row => row.1.1 = n) + (keys.filter fun key => key.1 = n).length := by
  induction keys generalizing db with
  | nil => exact .inl ⟨db.leases, rfl, h, by simp⟩
  | cons key keys ih =>
    obtain ⟨n, d⟩ := key
    obtain ⟨hkey, hrest⟩ := List.nodup_cons.1 hnodup
    obtain ⟨⟨hsubnet, hmember, hfresh⟩, htail⟩ := List.forall_mem_cons.1 hnew
    rw [List.foldlM_cons]
    dsimp only at hsubnet ⊢
    rcases insertLease_cases h d hsubnet with ⟨hnone, herror⟩ | ⟨a, hleast, hinside, hok⟩
    · right
      refine ⟨⟨_, by rw [herror, error_bind]⟩, n, ?_⟩
      have hfull : ¬ db.leases.count (fun row => row.1.1 = n) ≤ 253 := fun hle => freeHosts_nonempty h hsubnet hle hnone
      rw [List.filter_cons_of_pos (by simp), List.length_cons]
      omega
    rw [if_pos ⟨hmember, hfresh⟩] at hok
    rw [hok, ok_bind]
    have hcount (m : NetworkId) : Map.count (fun row => row.1.1 = m) (db.leases.insert (n, d) a) =
        db.leases.count (fun row => row.1.1 = m) + if n = m then 1 else 0 := by
      rw [Map.count, Map.rows_insert_of_notMem hfresh, List.filter_cons]
      split <;> simp_all [Map.count]
    have hkept : ({ db with leases := db.leases.insert (n, d) a } : Db).Addressing := by
      refine ⟨h.subnet_network, h.subnet_distinct, fun k hk => ?_, fun m e b hb => ?_, h.lease_distinct.insert _ fun k b hb heq => ?_⟩
      · rcases (AList.mem_insert _).1 hk with rfl | hk
        · exact hmember
        · exact h.lease_member k hk
      · rw [Map.lookup_insert] at hb
        split at hb
        · rename_i heq
          cases heq
          cases hb
          exact hinside
        · exact h.lease_inside m e b hb
      · exact hleast.1.2 ⟨k, b, hb, by rw [heq]⟩
    have hwaiting : ∀ k ∈ keys, k.1 ∈ db.subnets ∧ k ∈ db.memberships ∧ k ∉ db.leases.insert (n, d) a := by
      intro k hk
      obtain ⟨h1, h2, h3⟩ := htail k hk
      refine ⟨h1, h2, fun hold => ?_⟩
      rcases (AList.mem_insert _).1 hold with rfl | hold
      · exact hkey hk
      · exact h3 hold
    rcases ih hkept hrest hwaiting with ⟨leases, hfold, hdone, hkeys⟩ | ⟨herror, m, hfull⟩
    · refine .inl ⟨leases, hfold, hdone, fun k => ?_⟩
      rw [hkeys, AList.mem_insert, List.mem_cons]
      tauto
    · refine .inr ⟨herror, m, ?_⟩
      change 254 < Map.count _ (db.leases.insert (n, d) a) + _ at hfull
      rw [hcount] at hfull
      rw [List.filter_cons]
      by_cases hm : n = m
      · rw [if_pos hm] at hfull
        rw [if_pos (by simpa using hm), List.length_cons]
        omega
      · rw [if_neg hm] at hfull
        rw [if_neg (by simpa using hm)]
        omega

end Db

/-! ## The migration -/

section
variable {file : DbFile}

/-- Before the migration nothing is assigned. -/
theorem VersionTwo.addressing (h : VersionTwo file) : file.db.Addressing := by
  obtain ⟨hsubnets, hleases, -⟩ := h.absent
  refine ⟨fun n hn => ?_, fun j k a b ha => ?_, fun key hkey => ?_, fun n d a ha => ?_, fun j k a b ha => ?_⟩
  · rw [hsubnets] at hn
    exact absurd hn (AList.notMem_empty n)
  · rw [hsubnets] at ha
    cases ha
  · rw [hleases] at hkey
    exact absurd hkey (AList.notMem_empty key)
  · rw [hleases] at ha
    cases ha
  · rw [hleases] at ha
    cases ha

/-- The keys of the networks, in the order of the loop. -/
theorem listNetworks_ids (db : Db) : (db.listNetworks.map (·.id)).Nodup ∧ (∀ n, n ∈ db.listNetworks.map (·.id) ↔ n ∈ db.networks) ∧
    (db.listNetworks.map (·.id)).length = db.networks.size := by
  have hperm : (db.listNetworks.map (·.id)).Perm (db.networks.rows.map Prod.fst) := by
    have h := (List.perm_insertionSort (fun a b : NetworkRecord => a.id ≤ b.id) (db.networks.rows.map .ofRow)).map (·.id)
    rwa [List.map_map] at h
  refine ⟨hperm.nodup_iff.2 (Map.nodup_rows _), fun n => ?_, ?_⟩
  · rw [hperm.mem_iff, List.mem_map, Map.mem_iff_lookup]
    constructor
    · rintro ⟨row, hrow, rfl⟩
      exact ⟨row.2, Map.mem_rows.1 hrow⟩
    · rintro ⟨network, hnetwork⟩
      exact ⟨(n, network), Map.mem_rows.2 hnetwork, rfl⟩
  · rw [hperm.length_eq, List.length_map, ← Map.size_eq]

/-- The keys of the memberships, in the order of the loop. -/
theorem listMemberships_keys (db : Db) : ((db.listMemberships.map fun m => (m.1, m.2.deviceId)).Nodup ∧
    (∀ key, key ∈ db.listMemberships.map (fun m => (m.1, m.2.deviceId)) ↔ key ∈ db.memberships) ∧
    ∀ n, ((db.listMemberships.map fun m => (m.1, m.2.deviceId)).filter fun key => key.1 = n).length =
      db.memberships.count fun row => row.1.1 = n) := by
  have hperm : (db.listMemberships.map fun m => (m.1, m.2.deviceId)).Perm (db.memberships.rows.map Prod.fst) := by
    rw [Db.listMemberships]
    refine ((List.perm_insertionSort _ _).map _).trans ?_
    rw [List.map_map]
    exact .refl _
  refine ⟨hperm.nodup_iff.2 (Map.nodup_rows _), fun key => ?_, fun n => ?_⟩
  · rw [hperm.mem_iff, List.mem_map, Map.mem_iff_lookup]
    constructor
    · rintro ⟨row, hrow, rfl⟩
      exact ⟨row.2, Map.mem_rows.1 hrow⟩
    · rintro ⟨membership, hmembership⟩
      exact ⟨(key, membership), Map.mem_rows.2 hmembership, rfl⟩
  · rw [(hperm.filter _).length_eq, List.filter_map, List.length_map]
    rfl

/-- The loops of the migration, and what is left of them when one throws. -/
theorem migrateToV3_run (h : file.addressTables = false) :
    (∃ db₁ db₂, (file.db.listNetworks.map (·.id)).foldlM Db.insertSubnet file.db = .ok db₁ ∧
      (db₁.listMemberships.map fun m => (m.1, m.2.deviceId)).foldlM (fun db key => db.insertLease key.1 key.2) db₁ = .ok db₂ ∧
      migrateToV3 file = (.ok (), { version := 3, addressTables := true, db := db₂ })) ∨
    ∃ e, migrateToV3 file = (.error e, file) ∧
      ((file.db.listNetworks.map (·.id)).foldlM Db.insertSubnet file.db = .error e ∨
        ∃ db₁, (file.db.listNetworks.map (·.id)).foldlM Db.insertSubnet file.db = .ok db₁ ∧
          (db₁.listMemberships.map fun m => (m.1, m.2.deviceId)).foldlM (fun db key => db.insertLease key.1 key.2) db₁ =
            .error e) := by
  have hbind {α β : Type} (x : Action Exn DbFile α) (f : α → Action Exn DbFile β) (file : DbFile) :
      (x >>= f) file = match x file with
        | (.ok a, file') => f a file'
        | (.error e, file') => (.error e, file') := by
    change Action.bind x f file = _
    unfold Action.bind
    rcases x file with ⟨_ | _, file'⟩ <;> rfl
  have hcreate : createAddressTables file = (.ok (), { file with addressTables := true }) := by
    rw [createAddressTables, h]
    rfl
  simp only [List.foldlM_map]
  rcases forM_execute (fun db (network : NetworkRecord) => db.insertSubnet network.id) file.db.listNetworks
    { file with addressTables := true } with ⟨db₁, hfold, hloop⟩ | ⟨e, file', hfold, hloop⟩
  · rcases forM_execute (fun db (m : NetworkId × MembershipRecord) => db.insertLease m.1 m.2.deviceId) db₁.listMemberships
      { file with addressTables := true, db := db₁ } with ⟨db₂, hfold', hloop'⟩ | ⟨e, file', hfold', hloop'⟩
    · refine .inl ⟨db₁, db₂, hfold, hfold', ?_⟩
      simp only [migrateToV3, transaction, hbind, hcreate, Action.gets, hloop, hloop', Action.modify]
    · refine .inr ⟨e, ?_, .inr ⟨db₁, hfold, hfold'⟩⟩
      simp only [migrateToV3, transaction, hbind, hcreate, Action.gets, hloop, hloop']
  · refine .inr ⟨e, ?_, .inl hfold⟩
    simp only [migrateToV3, transaction, hbind, hcreate, Action.gets, hloop]

/-- The migration either gives every network and every member an address, or
throws with nothing changed because a bound is exceeded. -/
theorem migrateToV3_cases (h : VersionTwo file) :
    (∃ subnets leases, migrateToV3 file =
        (.ok (), { version := 3, addressTables := true, db := { file.db with subnets := subnets, leases := leases } }) ∧
      Tables.Addressed { file.db.toTables with subnets := subnets, leases := leases }) ∨
    ((∃ e, migrateToV3 file = (.error e, file)) ∧
      (16384 < file.db.networks.size ∨ ∃ n, 254 < file.db.memberships.count fun row => row.1.1 = n)) := by
  obtain ⟨hnodup, hids, hlength⟩ := listNetworks_ids file.db
  obtain ⟨hnone, hnolease, -⟩ := h.absent
  have hempty (n : NetworkId) : n ∉ file.db.subnets := by
    rw [hnone]
    exact AList.notMem_empty n
  have hnew : ∀ n ∈ file.db.listNetworks.map (·.id), n ∈ file.db.networks ∧ n ∉ file.db.subnets :=
    fun n hn => ⟨(hids n).1 hn, hempty n⟩
  have hsize : file.db.subnets.size = 0 := by
    rw [hnone]
    rfl
  have hcount (n : NetworkId) : file.db.leases.count (fun row => row.1.1 = n) = 0 := by
    rw [hnolease]
    rfl
  rcases Db.insertSubnets _ h.addressing hnodup hnew with ⟨subnets, hfold, haddressing, hkeys⟩ | ⟨⟨e, herror⟩, hfull⟩
  · obtain ⟨hnodup', hmembers, hcounts⟩ := listMemberships_keys { file.db with subnets := subnets }
    have hwaiting : ∀ key ∈ ({ file.db with subnets := subnets } : Db).listMemberships.map (fun m => (m.1, m.2.deviceId)),
        key.1 ∈ subnets ∧ key ∈ file.db.memberships ∧ key ∉ file.db.leases := by
      intro key hkey
      have hmember : key ∈ file.db.memberships := (hmembers key).1 hkey
      obtain ⟨row, hrow⟩ := Map.mem_iff_lookup.1 hmember
      refine ⟨(hkeys key.1).2 (.inl ((hids key.1).2 (h.memberships key.1 key.2 row hrow).2.1)), hmember, ?_⟩
      rw [hnolease]
      exact AList.notMem_empty key
    rcases Db.insertLeases _ haddressing hnodup' hwaiting with ⟨leases, hfold', haddressing', hkeys'⟩ | ⟨⟨e, herror⟩, n, hfull⟩
    · left
      refine ⟨subnets, leases, ?_, ⟨fun n => ?_, haddressing'.subnet_distinct, fun key => ?_, haddressing'.lease_inside,
        haddressing'.lease_distinct⟩⟩
      · rcases migrateToV3_run h.tables with ⟨db₁, db₂, h₁, h₂, hrun⟩ | ⟨e, -, h₁ | ⟨db₁, h₁, h₂⟩⟩
        · rw [hfold, Except.ok.injEq] at h₁
          subst h₁
          rw [hfold', Except.ok.injEq] at h₂
          subst h₂
          exact hrun
        · rw [hfold] at h₁
          cases h₁
        · rw [hfold, Except.ok.injEq] at h₁
          subst h₁
          rw [hfold'] at h₂
          cases h₂
      · change n ∈ subnets ↔ n ∈ file.db.networks
        rw [hkeys, hids]
        simp [hempty n]
      · change key ∈ leases ↔ key ∈ file.db.memberships
        rw [hkeys', hmembers]
        simp [hnolease]
    · right
      refine ⟨?_, .inr ⟨n, ?_⟩⟩
      · rcases migrateToV3_run h.tables with ⟨db₁, db₂, h₁, h₂, -⟩ | ⟨e, hrun, -⟩
        · rw [hfold, Except.ok.injEq] at h₁
          subst h₁
          rw [herror] at h₂
          cases h₂
        · exact ⟨e, hrun⟩
      · rw [hcounts] at hfull
        change 254 < file.db.leases.count _ + file.db.memberships.count _ at hfull
        rwa [hcount, Nat.zero_add] at hfull
  · right
    refine ⟨?_, .inl ?_⟩
    · rcases migrateToV3_run h.tables with ⟨db₁, db₂, h₁, -, -⟩ | ⟨e, hrun, -⟩
      · rw [herror] at h₁
        cases h₁
      · exact ⟨e, hrun⟩
    · rwa [hsize, Nat.zero_add, hlength] at hfull

end

/-- Migrating a version 2 database gives every network a subnet of its own and every
member an address in it, and leaves the rows alone; with too many networks or
members it throws and the file is as it was. -/
theorem migrate_to_v3 {file : DbFile} (h : VersionTwo file) :
    (file.db.networks.size ≤ 16384 → (∀ n, file.db.memberships.count (fun row => row.1.1 = n) ≤ 254) →
      ∃ subnets leases, migrateToV3 file =
          (.ok (), { version := 3, addressTables := true, db := { file.db with subnets := subnets, leases := leases } }) ∧
        (∀ n, n ∈ subnets ↔ n ∈ file.db.networks) ∧ Map.Distinct (·.val) subnets ∧
        (∀ key, key ∈ leases ↔ key ∈ file.db.memberships) ∧ Map.Distinct (·.val) leases ∧
        ∀ n d a, leases.lookup (n, d) = some a → ∃ base, subnets.lookup n = some base ∧
          base.val.toNat + 1 ≤ a.val.toNat ∧ a.val.toNat ≤ base.val.toNat + 254) ∧
    ((16384 < file.db.networks.size ∨ ∃ n, 254 < file.db.memberships.count fun row => row.1.1 = n) →
      ∃ e, migrateToV3 file = (.error e, file) ∧ file.version = 2) := by
  rcases migrateToV3_cases h with ⟨subnets, leases, hrun, haddressed⟩ | ⟨⟨e, hrun⟩, hfull⟩
  · obtain ⟨hnetworks, hdistinct, hmembers, hinside, hdistinct'⟩ := haddressed
    refine ⟨fun _ _ => ⟨subnets, leases, hrun, hnetworks, hdistinct, hmembers, hdistinct', fun n d a ha => ?_⟩, fun hfull => ?_⟩
    · obtain ⟨base, hbase, hsubnet⟩ := hinside n d a ha
      exact ⟨base, hbase, host_of_subnet hsubnet a.property.2.2.1 a.property.2.2.2⟩
    · -- the addresses given out are different, so the bounds hold
      exfalso
      have haddressing : ({ file.db with subnets := subnets, leases := leases } : Db).Addressing :=
        Tables.Addressed.addressing ⟨hnetworks, hdistinct, hmembers, hinside, hdistinct'⟩
      rcases hfull with hlt | ⟨n, hlt⟩
      · have hsize := Db.size_subnets_le haddressing
        have hle : file.db.networks.size ≤ subnets.size := Map.size_le fun n hn => (hnetworks n).2 hn
        change subnets.size ≤ 16384 at hsize
        omega
      · have hcount := Db.count_leases_le haddressing n
        have hle : file.db.memberships.count (fun row => row.1.1 = n) ≤ 0 + leases.count (fun row => row.1.1 = n) := by
          refine Map.count_le [] fun key row hkey hmine => .inr ?_
          obtain ⟨a, ha⟩ := Map.mem_iff_lookup.1 ((hmembers key).2 (Map.mem_of_lookup hkey))
          exact ⟨a, ha, hmine⟩
        change leases.count _ ≤ 254 at hcount
        omega
  · refine ⟨fun hfits hroom => ?_, fun _ => ⟨e, hrun, h.version⟩⟩
    rcases hfull with hlt | ⟨n, hlt⟩
    · exact absurd hfits (not_le.2 hlt)
    · exact absurd (hroom n) (not_le.2 hlt)

/-- A version 2 file with one network and its owner. -/
def oldFile : DbFile where
  version := 2
  addressTables := false
  db := {
    devices := (∅ : Map DeviceId Device).insert 2 { firstSeenAtMs := 5, lastSeenAtMs := 9 }
    networks := (∅ : Map NetworkId Network).insert 7 { name := text "lan", ownerDeviceId := 2, createdAtMs := 9 }
    memberships := (∅ : Map (NetworkId × DeviceId) Membership).insert (7, 2) { role := .owner, joinedAtMs := 9 } }

theorem versionTwo_oldFile : VersionTwo oldFile where
  version := rfl
  tables := rfl
  absent := ⟨rfl, rfl, rfl, rfl, rfl, rfl, rfl, rfl, rfl⟩
  devices d row h := by
    simp only [oldFile, Map.lookup_insert, AList.lookup_empty] at h
    split at h <;> cases h
    decide
  networks n row h := by
    simp only [oldFile, Map.lookup_insert, AList.lookup_empty] at h
    split at h <;> cases h
    exact ⟨by decide, by decide, by decide, (AList.mem_insert _).2 (.inl rfl)⟩
  memberships n d row h := by
    simp only [oldFile, Map.lookup_insert, AList.lookup_empty] at h
    split at h <;> cases h
    rename_i heq
    cases heq
    exact ⟨by decide, (AList.mem_insert _).2 (.inl rfl), (AList.mem_insert _).2 (.inl rfl)⟩
  owners n d e row row' h h' hrole hrole' := by
    simp only [oldFile, Map.lookup_insert, AList.lookup_empty] at h h'
    split at h <;> cases h
    split at h' <;> cases h'
    simp_all
  invitations n d atMs h := by cases h
  joinRequests n d atMs h := by cases h

theorem migrate_to_v3_oldFile : ∃ subnets leases, migrateToV3 oldFile =
    (.ok (), { version := 3, addressTables := true, db := { oldFile.db with subnets := subnets, leases := leases } }) ∧
      7 ∈ subnets ∧ (7, 2) ∈ leases := by
  have hroom : ∀ n, oldFile.db.memberships.count (fun row => row.1.1 = n) ≤ 254 :=
    fun n => (List.length_filter_le _ _).trans (by decide)
  obtain ⟨subnets, leases, hrun, hnetworks, -, hmembers, -⟩ := (migrate_to_v3 versionTwo_oldFile).1 (by decide) hroom
  exact ⟨subnets, leases, hrun, (hnetworks 7).2 (by decide), (hmembers (7, 2)).2 (by decide)⟩

end LanLink
